import Mathlib.Data.List.Forall2
import Mathlib.Tactic.SplitIfs
import KeyroCore.Data.Json

/-!
# Derived encoders and decoders

The encoders that `serde` derives write a struct as an object with its members in the order of their
declaration, and an internally tagged enum with the tag first.

The decoders that `serde` derives accept more.  A struct is an object with exactly its members, or
an array with its fields in order.  An internally tagged enum is an object with the tag among its
members, or an array that starts with the tag.

Below a tag the value is buffered.  There the variant of an enum may also be an index, and a unit
variant the only member of an object.
-/

namespace Serde

def string : Json → Option String
  | .string s => some s
  | _ => none

def u16 : Json → Option UInt16
  | .number (.integer n) => if 0 ≤ n ∧ n < 65536 then some (UInt16.ofNat n.toNat) else none
  | _ => none

/-- The fields of a struct, in the order of their declaration. -/
def fields (names : List String) : Json → Option (List Json)
  | .array items => if items.length = names.length then some items else none
  | .object members =>
    if (members.map Prod.fst).Perm names then names.mapM fun name => members.lookup name else none
  | _ => none

/-- The name of a variant. -/
def variant (names : List String) : Json → Option String
  | .string s => if s ∈ names then some s else none
  | _ => none

/-- The name of a variant in a buffered value. -/
def bufferedVariant (names : List String) : Json → Option String
  | .string s => if s ∈ names then some s else none
  | .number (.integer n) => if 0 ≤ n then names[n.toNat]? else none
  | _ => none

/-- A unit variant in a buffered value. -/
def unitVariant (names : List String) : Json → Option String
  | .string s => if s ∈ names then some s else none
  | .object [(s, .null)] => if s ∈ names then some s else none
  | .object [(s, .object [])] => if s ∈ names then some s else none
  | _ => none

/-- The variant of an internally tagged enum and the value it is decoded from. -/
def tagged (tag : String) (variant : Json → Option String) : Json → Option (String × Json)
  | .object members =>
    match members.filter fun member => member.1 = tag with
    | [(_, value)] => do
      return (← variant value, .object (members.filter fun member => member.1 ≠ tag))
    | _ => none
  | .array (value :: items) => do return (← variant value, .array items)
  | _ => none

def bool : Json → Option Bool
  | .bool b => some b
  | _ => none

def list {α : Type} (decode : Json → Option α) : Json → Option (List α)
  | .array items => items.mapM decode
  | _ => none

def option {α : Type} (decode : Json → Option α) : Json → Option (Option α)
  | .null => some none
  | json => (decode json).map some

/-- The fields of a struct whose first one is an `Option`: an object may lack it. -/
def optionalFirst (name : String) (names : List String) (json : Json) : Option (List Json) :=
  fields (name :: names) json <|> match json with
    | .object _ => (fields names json).map (.null :: ·)
    | _ => none

/-! ## Encoders -/

def ofU16 (n : UInt16) : Json := .number (.integer n.toNat)

def ofList {α : Type} (encode : α → Json) (as : List α) : Json := .array (as.map encode)

def ofOption {α : Type} (encode : α → Json) : Option α → Json
  | none => .null
  | some a => encode a

/-- A variant of an internally tagged enum with its fields. -/
def ofTagged (tag name : String) (members : List (String × Json)) : Json :=
  .object ((tag, .string name) :: members)

/-! ## What decoders read back -/

@[simp] theorem u16_ofU16 (n : UInt16) : u16 (ofU16 n) = some n := by
  have lt : n.toNat < 65536 := n.toNat_lt
  have fits : 0 ≤ (n.toNat : ℤ) ∧ (n.toNat : ℤ) < 65536 := by omega
  simp only [ofU16, u16, if_pos fits, Int.toNat_natCast, UInt16.ofNat_toNat]

@[simp] theorem string_string (s : String) : string (.string s) = some s := rfl

@[simp] theorem bool_bool (b : Bool) : bool (.bool b) = some b := rfl

theorem list_ofList {α : Type} {encode : α → Json} {decode : Json → Option α}
    (inverse : ∀ a, decode (encode a) = some a) (as : List α) :
    list decode (ofList encode as) = some as := by
  show (as.map encode).mapM decode = some as
  induction as with
  | nil => rfl
  | cons a as ih =>
    rw [List.map_cons, List.mapM_cons, inverse, ih]
    rfl

theorem option_ofOption {α : Type} {encode : α → Json} {decode : Json → Option α}
    (inverse : ∀ a, decode (encode a) = some a) (some : ∀ a, encode a ≠ .null) (o : Option α) :
    option decode (ofOption encode o) = .some o := by
  cases o with
  | none => rfl
  | some a =>
    show option decode (encode a) = _
    unfold option
    split
    · next h => exact absurd h (some a)
    · rw [inverse]
      rfl

theorem mapM_eq_some {α β : Type} {f : α → Option β} {as : List α} {bs : List β}
    (h : List.Forall₂ (fun a b => f a = some b) as bs) : as.mapM f = some bs := by
  induction h with
  | nil => rfl
  | cons first _ ih =>
    rw [List.mapM_cons, first, ih]
    rfl

theorem fields_object (names : List String) (values : List Json) (nodup : names.Nodup)
    (length : names.length = values.length) :
    fields names (.object (names.zip values)) = some values := by
  have keys : (names.zip values).map Prod.fst = names := List.map_fst_zip (Nat.le_of_eq length)
  show (if _ then _ else none) = _
  rw [if_pos (List.Perm.of_eq keys)]
  refine mapM_eq_some (List.forall₂_iff_zip.2 ⟨length, fun {name value} mem => ?_⟩)
  exact (Json.lookup_eq_some_iff (by rwa [keys])).2 mem

theorem tagged_ofTagged (tag name : String) (members : List (String × Json))
    {variant : Json → Option String} (known : variant (.string name) = some name)
    (absent : ∀ member ∈ members, member.1 ≠ tag) :
    tagged tag variant (ofTagged tag name members) = some (name, .object members) := by
  have tags : ((tag, Json.string name) :: members).filter (fun member => member.1 = tag) =
      [(tag, .string name)] := by
    rw [List.filter_cons_of_pos (by simp), List.filter_eq_nil_iff.2]
    exact fun member mem => by simpa using absent member mem
  have rest : ((tag, Json.string name) :: members).filter (fun member => member.1 ≠ tag) =
      members := by
    rw [List.filter_cons_of_neg (by simp), List.filter_eq_self.2]
    exact fun member mem => by simpa using absent member mem
  unfold ofTagged tagged
  dsimp only
  rw [tags, rest]
  dsimp only
  rw [known]
  rfl

end Serde
