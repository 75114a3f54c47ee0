import Mathlib.Data.Nat.Notation

/-!
# Dependencies

The parts of other crates that Core calls, as parameters of the model.  What a result needs to
know about one of them is a named hypothesis of that result.
-/

namespace KeyroCore

/-- A 128-bit UUID, as its 32 hexadecimal digits. -/
structure Uuid where
  digits : List (Fin 16)
  length_eq : digits.length = 32
  deriving DecidableEq

/-- `Uuid::parse_str` and `Display for Uuid`. -/
class UuidCrate where
  parseStr : String → Option Uuid
  display : Uuid → String

/-- `ProfileId::parse` inverts `to_string`. -/
def UuidCrate.ParseInverts [UuidCrate] : Prop := ∀ u, parseStr (display u) = some u

theorem UuidCrate.ParseInverts.display_injective [UuidCrate] (h : ParseInverts) {u v : Uuid}
    (e : display u = display v) : u = v := by
  have := h u
  rw [e, h v] at this
  exact (Option.some.inj this).symm

/-- `Url::parse` and the methods of `Url` that Core calls. -/
class UrlCrate where
  Url : Type
  parse : String → Option Url
  scheme : Url → String
  username : Url → String
  password : Url → Option String
  setQuery : Url → Option String → Url
  setFragment : Url → Option String → Url
  toString : Url → String

end KeyroCore
