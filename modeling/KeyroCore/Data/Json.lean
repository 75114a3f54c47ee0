import Mathlib.Data.Int.Notation
import Mathlib.Data.List.Perm.Basic

/-!
# JSON values

A JSON value as a parser reads it: the members of an object stand in text order, repeated names
included.  `member?` sees an object as a map, in which the last member of a name counts.
-/

inductive JsonNumber where
  | integer (n : ℤ)
  | float (value : Rat)
  deriving DecidableEq

inductive Json where
  | null
  | bool (b : Bool)
  | number (n : JsonNumber)
  | string (s : String)
  | array (items : List Json)
  | object (members : List (String × Json))

namespace JsonNumber

def value : JsonNumber → Rat
  | integer n => n
  | float value => value

/-- The number as an integer, if it is one. -/
def integer? (n : JsonNumber) : Option ℤ :=
  if n.value.den = 1 then some n.value.num else none

@[simp] theorem integer?_integer (n : ℤ) : (integer n).integer? = some n := rfl

end JsonNumber

namespace Json

def isObject : Json → Bool
  | object _ => true
  | _ => false

def isString : Json → Bool
  | string _ => true
  | _ => false

def string? : Json → Option String
  | string s => some s
  | _ => none

def integer? : Json → Option ℤ
  | number n => n.integer?
  | _ => none

def items? : Json → Option (List Json)
  | array items => some items
  | _ => none

def members? : Json → Option (List (String × Json))
  | object members => some members
  | _ => none

def member? (name : String) : Json → Option Json
  | object members => members.reverse.lookup name
  | _ => none

/-- What holds of a member if the value has it. -/
def onMember (name : String) (p : Json → Bool) (json : Json) : Bool := (json.member? name).all p

mutual

def decEq : (a b : Json) → Decidable (a = b)
  | null, b => match b with
    | null => .isTrue rfl
    | bool _ | number _ | string _ | array _ | object _ => .isFalse nofun
  | bool x, b => match b with
    | bool y => decidable_of_iff (x = y) (by rw [bool.injEq])
    | null | number _ | string _ | array _ | object _ => .isFalse nofun
  | number x, b => match b with
    | number y => decidable_of_iff (x = y) (by rw [number.injEq])
    | null | bool _ | string _ | array _ | object _ => .isFalse nofun
  | string x, b => match b with
    | string y => decidable_of_iff (x = y) (by rw [string.injEq])
    | null | bool _ | number _ | array _ | object _ => .isFalse nofun
  | array x, b => match b with
    | array y => have := decEqItems x y; decidable_of_iff (x = y) (by rw [array.injEq])
    | null | bool _ | number _ | string _ | object _ => .isFalse nofun
  | object x, b => match b with
    | object y => have := decEqMembers x y; decidable_of_iff (x = y) (by rw [object.injEq])
    | null | bool _ | number _ | string _ | array _ => .isFalse nofun

def decEqItems : (as bs : List Json) → Decidable (as = bs)
  | [], [] => .isTrue rfl
  | [], _ :: _ | _ :: _, [] => .isFalse nofun
  | a :: as, b :: bs =>
    have := decEq a b
    have := decEqItems as bs
    decidable_of_iff (a = b ∧ as = bs) (by rw [List.cons.injEq])

def decEqMembers : (as bs : List (String × Json)) → Decidable (as = bs)
  | [], [] => .isTrue rfl
  | [], _ :: _ | _ :: _, [] => .isFalse nofun
  | (name, a) :: as, (name', b) :: bs =>
    have := decEq a b
    have := decEqMembers as bs
    decidable_of_iff (name = name' ∧ a = b ∧ as = bs) (by
      rw [List.cons.injEq, Prod.mk.injEq, and_assoc])

end

instance : DecidableEq Json := decEq

theorem isString_iff {json : Json} : json.isString = true ↔ ∃ s, json = string s := by
  cases json <;> simp [isString]

theorem isObject_iff {json : Json} : json.isObject = true ↔ ∃ members, json = object members := by
  cases json <;> simp [isObject]

/-- A member of an association list whose names are distinct. -/
theorem lookup_eq_some_iff {members : List (String × Json)} (nodup : (members.map Prod.fst).Nodup)
    {name : String} {value : Json} : members.lookup name = some value ↔ (name, value) ∈ members := by
  induction members with
  | nil => simp
  | cons member members ih =>
    obtain ⟨key, first⟩ := member
    rw [List.map_cons, List.nodup_cons] at nodup
    rw [List.lookup_cons, List.mem_cons]
    by_cases same : name = key
    · subst same
      have absent : (name, value) ∉ members := fun hm =>
        nodup.1 (List.mem_map.2 ⟨_, hm, rfl⟩)
      simp [absent, eq_comm]
    · have differ : (name == key) = false := by simpa using same
      simp [differ, ih nodup.2, same]

/-- Without repeated names it does not matter which member counts. -/
theorem member?_object {members : List (String × Json)} (nodup : (members.map Prod.fst).Nodup)
    (name : String) : (object members).member? name = members.lookup name := by
  have nodupReverse : (members.reverse.map Prod.fst).Nodup :=
    ((List.reverse_perm members).map Prod.fst).nodup_iff.2 nodup
  refine Option.ext fun value => ?_
  rw [member?, lookup_eq_some_iff nodupReverse, lookup_eq_some_iff nodup, List.mem_reverse]

theorem member?_eq_some_iff {members : List (String × Json)}
    (nodup : (members.map Prod.fst).Nodup) {name : String} {value : Json} :
    (object members).member? name = some value ↔ (name, value) ∈ members := by
  rw [member?_object nodup, lookup_eq_some_iff nodup]

end Json
