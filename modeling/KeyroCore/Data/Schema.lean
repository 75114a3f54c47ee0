import KeyroCore.Data.Serde

/-!
# JSON schemas

The part of JSON Schema in which a protocol is published.  An object schema requires each of its
properties and admits no other; numbers are compared by value.  A tagged union is a `oneOf` of
objects that a constant tells apart.  What a derived decoder has read off a value decides whether
the value is an instance.
-/

inductive Schema where
  | null
  | boolean
  | integer (minimum : ℤ) (maximum : Option ℤ)
  /-- A string that meets the further assertions. -/
  | string (asserted : String → Bool)
  | const (text : String)
  | constInteger (n : ℤ)
  | enum (texts : List String)
  | array (items : Schema)
  | object (properties : List (String × Schema))
  | oneOf (alternatives : List Schema)
  | anyOf (alternatives : List Schema)

namespace Schema

/-! ## Assertions about strings -/

def minLength (n : ℕ) (text : String) : Bool := n ≤ text.length

def isHexDigit (c : Char) : Bool :=
  '0' ≤ c && c ≤ '9' || 'a' ≤ c && c ≤ 'f' || 'A' ≤ c && c ≤ 'F'

/-- The format `uuid`: hexadecimal digits, hyphenated `8-4-4-4-12`. -/
def isUuid (text : String) : Bool :=
  (text.toList.splitOn '-').map List.length = [8, 4, 4, 4, 12] &&
    text.toList.all fun c => c = '-' || isHexDigit c

theorem minLength_one_iff {text : String} : minLength 1 text = true ↔ text ≠ "" := by
  rw [minLength, decide_eq_true_iff, Nat.one_le_iff_ne_zero, Ne, String.length_eq_zero_iff]

/-! ## Instances -/

mutual

def validates : Schema → Json → Bool
  | null, json => json = .null
  | boolean, json => json = .bool true || json = .bool false
  | integer minimum maximum, json =>
    json.integer?.any fun n => minimum ≤ n && maximum.all (n ≤ ·)
  | string asserted, json => json.string?.any asserted
  | const text, json => json = .string text
  | constInteger n, json => json.integer? = some n
  | enum texts, json => json.string?.any (· ∈ texts)
  | array items, json => json.items?.any fun values => values.all fun value => items.validates value
  | object properties, json =>
    json.members?.any (fun members => members.all (·.1 ∈ properties.map Prod.fst)) &&
      validatesEach properties json
  | oneOf alternatives, json => countValid alternatives json = 1
  | anyOf alternatives, json => countValid alternatives json ≠ 0

def validatesEach : List (String × Schema) → Json → Bool
  | [], _ => true
  | (name, schema) :: properties, json =>
    (json.member? name).any (fun value => schema.validates value) && validatesEach properties json

def countValid : List Schema → Json → ℕ
  | [], _ => 0
  | schema :: alternatives, json =>
    (if schema.validates json then 1 else 0) + countValid alternatives json

end

/-- An alternative of a tagged union. -/
def variant (tag name : String) (properties : List (String × Schema)) : Schema :=
  .object ((tag, .const name) :: properties)

/-- Objects that the constant under `tag` tells apart. -/
def tagged (tag : String) (alternatives : List (String × List (String × Schema))) : Schema :=
  .oneOf (alternatives.map fun alternative => variant tag alternative.1 alternative.2)

theorem validatesEach_eq (properties : List (String × Schema)) (json : Json) :
    validatesEach properties json =
      properties.all fun property => (json.member? property.1).any property.2.validates := by
  induction properties with
  | nil => simp [validatesEach]
  | cons property properties ih => simp [validatesEach, ih]

theorem countValid_eq (alternatives : List Schema) (json : Json) :
    countValid alternatives json = alternatives.countP fun schema => schema.validates json := by
  induction alternatives with
  | nil => simp [countValid]
  | cons schema alternatives ih =>
    rw [countValid, ih, List.countP_cons]
    omega

@[simp] theorem validates_string (asserted : String → Bool) (text : String) :
    (string asserted).validates (.string text) = asserted text := by simp [validates, Json.string?]

theorem validates_object (properties : List (String × Schema)) (json : Json) :
    (object properties).validates json =
      (json.members?.any (fun members => members.all (·.1 ∈ properties.map Prod.fst)) &&
        properties.all fun property => (json.member? property.1).any property.2.validates) := by
  rw [validates, validatesEach_eq]

/-- Only objects are instances of an object schema. -/
theorem validates_object_eq_false {json : Json} (h : json.isObject = false)
    (properties : List (String × Schema)) : (object properties).validates json = false := by
  rw [validates_object]
  cases json with
  | object => cases h
  | _ => rfl

theorem validates_tagged_eq_false {json : Json} (h : json.isObject = false) (tag : String)
    (alternatives : List (String × List (String × Schema))) :
    (tagged tag alternatives).validates json = false := by
  have none : countValid (alternatives.map fun a => variant tag a.1 a.2) json = 0 := by
    rw [countValid_eq, List.countP_map, List.countP_eq_zero]
    intro alternative _
    rw [Function.comp_apply, variant, validates_object_eq_false h]
    exact Bool.false_ne_true
  rw [tagged, validates, none]
  rfl

/-- An instance of an alternative carries its name. -/
theorem member?_of_variant {tag name : String} {properties : List (String × Schema)} {json : Json}
    (valid : (variant tag name properties).validates json = true) :
    json.member? tag = some (.string name) := by
  rw [variant, validates_object] at valid
  have tagged := (Bool.and_eq_true_iff.1 valid).2
  rw [List.all_cons, Bool.and_eq_true_iff] at tagged
  obtain ⟨value, found, same⟩ := (Option.any_eq_true _ _).1 tagged.1
  rw [validates, decide_eq_true_iff] at same
  rw [found, same]

/-- Only the alternative whose name a value carries can have it as an instance. -/
theorem validates_tagged {tag name : String} {properties : List (String × Schema)} {json : Json}
    {alternatives : List (String × List (String × Schema))}
    (nodup : (alternatives.map Prod.fst).Nodup) (mem : (name, properties) ∈ alternatives)
    (carried : ∀ text, json.member? tag = some (.string text) → text = name) :
    (tagged tag alternatives).validates json = (variant tag name properties).validates json := by
  have other {alternative : String × List (String × Schema)} (differ : alternative.1 ≠ name) :
      (variant tag alternative.1 alternative.2).validates json = false := by
    by_contra valid
    exact differ (carried _ (member?_of_variant (Bool.of_not_eq_false valid)))
  have count : countValid (alternatives.map fun a => variant tag a.1 a.2) json =
      if (variant tag name properties).validates json then 1 else 0 := by
    rw [countValid_eq, List.countP_map]
    induction alternatives with
    | nil => cases mem
    | cons first rest ih =>
      rw [List.map_cons, List.nodup_cons] at nodup
      rw [List.countP_cons]
      rcases List.mem_cons.1 mem with rfl | mem
      · have none : rest.countP ((fun schema => schema.validates json) ∘
            fun a => variant tag a.1 a.2) = 0 := by
          rw [List.countP_eq_zero]
          intro alternative ha
          have differ : alternative.1 ≠ name := fun same =>
            nodup.1 (List.mem_map.2 ⟨alternative, ha, same⟩)
          simp [other differ]
        rw [none, Nat.zero_add]
        rfl
      · have differ : first.1 ≠ name := fun same =>
          nodup.1 (same ▸ List.mem_map_of_mem (f := Prod.fst) mem)
        rw [ih nodup.2 mem]
        simp [other differ]
  rw [tagged, validates, count]
  cases (variant tag name properties).validates json <;> simp

end Schema

/-! ## Decoded values -/

namespace Serde

open Schema

theorem eq_of_variant {names : List String} {text name : String}
    (read : variant names (.string text) = some name) : text = name := by
  unfold variant at read
  dsimp only at read
  split_ifs at read
  exact Option.some.inj read

theorem eq_of_bufferedVariant {names : List String} {text name : String}
    (read : bufferedVariant names (.string text) = some name) : text = name := eq_of_variant read

theorem lookup_zip_of_mapM {read : String → Option Json} {names : List String}
    {values : List Json} (h : names.mapM read = some values) (name : String) :
    (names.zip values).lookup name = if name ∈ names then read name else none := by
  induction names generalizing values with
  | nil => simp
  | cons first names ih =>
    rw [List.mapM_cons] at h
    obtain ⟨value, found, h⟩ := Option.bind_eq_some_iff.1 h
    obtain ⟨rest, others, same⟩ := Option.bind_eq_some_iff.1 h
    cases same
    rw [List.zip_cons_cons, List.lookup_cons, ih others]
    by_cases here : name = first
    · subst here
      simp [found]
    · have differ : (name == first) = false := by simpa using here
      simp [differ, here]

/-- The members of an object that a struct was read from. -/
theorem member?_of_fields {names : List String} {json : Json} {values : List Json}
    (nodup : names.Nodup) (read : fields names json = some values) (object : json.isObject = true)
    (name : String) : json.member? name = (names.zip values).lookup name := by
  obtain ⟨members, rfl⟩ := Json.isObject_iff.1 object
  unfold fields at read
  dsimp only at read
  split_ifs at read with keys
  rw [lookup_zip_of_mapM read, Json.member?_object (keys.nodup_iff.2 nodup)]
  split_ifs with known
  · rfl
  · rw [List.lookup_eq_none_iff]
    intro member mem
    have differ : name ≠ member.1 := fun same =>
      known (same ▸ keys.subset (List.mem_map_of_mem mem))
    simpa using differ

theorem all_zip_of_mapM {properties : List (String × Schema)} {read : String → Option Json}
    {values : List Json} (h : (properties.map Prod.fst).mapM read = some values) :
    (properties.all fun property => (read property.1).any property.2.validates) =
      (properties.zip values).all fun pair => pair.1.2.validates pair.2 := by
  induction properties generalizing values with
  | nil => simp
  | cons first properties ih =>
    rw [List.map_cons, List.mapM_cons] at h
    obtain ⟨value, found, h⟩ := Option.bind_eq_some_iff.1 h
    obtain ⟨rest, others, same⟩ := Option.bind_eq_some_iff.1 h
    cases same
    rw [List.zip_cons_cons, List.all_cons, List.all_cons, ih others, found]
    rfl

/-- A struct that was read from an object is an instance if its fields are. -/
theorem validates_of_fields {properties : List (String × Schema)} {json : Json}
    {values : List Json} (nodup : (properties.map Prod.fst).Nodup)
    (read : fields (properties.map Prod.fst) json = some values) :
    (Schema.object properties).validates json = (json.isObject &&
      (properties.zip values).all fun pair => pair.1.2.validates pair.2) := by
  rw [validates_object]
  cases json with
  | object members =>
    unfold fields at read
    dsimp only at read
    split_ifs at read with keys
    have member (name : String) : (Json.object members).member? name = members.lookup name :=
      Json.member?_object (keys.nodup_iff.2 nodup) name
    have known : members.all (·.1 ∈ properties.map Prod.fst) = true := by
      rw [List.all_eq_true]
      intro m mem
      exact decide_eq_true (keys.subset (List.mem_map_of_mem mem))
    simp only [member, all_zip_of_mapM read, Json.members?, Option.any_some, known, Json.isObject]
  | null | bool | number | string => cases read
  | array items => rfl

theorem lookup_filter (kept : String → Bool) {name : String} (h : kept name = true)
    (members : List (String × Json)) :
    (members.filter fun member => kept member.1).lookup name = members.lookup name := by
  induction members with
  | nil => rfl
  | cons member members ih =>
    obtain ⟨key, value⟩ := member
    by_cases here : name = key
    · subst here
      rw [List.filter_cons, if_pos h, List.lookup_cons_self, List.lookup_cons_self]
    · have differ : (name == key) = false := by simpa using here
      rw [List.filter_cons, List.lookup_cons, differ]
      split_ifs
      · rw [List.lookup_cons, differ, ih]
      · exact ih

/-- What an object holds that a tagged value was read from, besides the content it is decoded
from. -/
theorem of_tagged {tag name : String} {variant : Json → Option String} {json content : Json}
    (read : tagged tag variant json = some (name, content)) (object : json.isObject = true) :
    ∃ members value, json = .object members ∧
      content = .object (members.filter fun member => member.1 ≠ tag) ∧
      json.member? tag = some value ∧ variant value = some name := by
  obtain ⟨members, rfl⟩ := Json.isObject_iff.1 object
  unfold tagged at read
  dsimp only at read
  split at read
  · next key value only =>
    obtain ⟨known, named, same⟩ := Option.bind_eq_some_iff.1 read
    cases same
    refine ⟨members, value, rfl, rfl, ?_, named⟩
    have single : (key, value) ∈ members.filter fun member => member.1 = tag :=
      only ▸ List.mem_singleton_self _
    obtain rfl : key = tag := of_decide_eq_true (List.mem_filter.1 single).2
    have kept : decide (key = key) = true := decide_eq_true rfl
    rw [Json.member?, ← lookup_filter (fun k => decide (k = key)) kept, List.filter_reverse,
      only]
    exact List.lookup_cons_self
  · cases read

theorem isObject_of_tagged {tag name : String} {variant : Json → Option String}
    {json content : Json} (read : tagged tag variant json = some (name, content)) :
    content.isObject = json.isObject := by
  cases json with
  | object members =>
    obtain ⟨_, _, -, rfl, -⟩ := of_tagged read rfl
    rfl
  | array items =>
    cases items with
    | nil => cases read
    | cons value items =>
      obtain ⟨_, -, same⟩ := Option.bind_eq_some_iff.1 read
      cases same
      rfl
  | null | bool | number | string => cases read

theorem member?_of_tagged {tag name : String} {variant : Json → Option String}
    {json content : Json} (read : tagged tag variant json = some (name, content))
    (object : json.isObject = true) {other : String} (differ : other ≠ tag) :
    json.member? other = content.member? other := by
  obtain ⟨members, _, rfl, rfl, -⟩ := of_tagged read object
  have kept : decide (other ≠ tag) = true := decide_eq_true differ
  rw [Json.member?, Json.member?, ← List.filter_reverse]
  exact (lookup_filter (fun key => decide (key ≠ tag)) kept members.reverse).symm

/-- A tagged value is an instance if it has its tag as a string and its content is an instance. -/
theorem validates_of_tagged {tag name : String} {variant : Json → Option String}
    {json content : Json} {properties : List (String × Schema)}
    {alternatives : List (String × List (String × Schema))}
    (nodup : (alternatives.map Prod.fst).Nodup) (mem : (name, properties) ∈ alternatives)
    (apart : tag ∉ properties.map Prod.fst)
    (named : ∀ text, variant (.string text) = some name → text = name)
    (read : tagged tag variant json = some (name, content)) :
    (Schema.tagged tag alternatives).validates json =
      (json.onMember tag Json.isString && (Schema.object properties).validates content) := by
  by_cases object : json.isObject = true
  · have others {other : String} (differ : other ≠ tag) :=
      member?_of_tagged read object differ
    obtain ⟨members, value, rfl, rfl, found, known⟩ := of_tagged read object
    have carried (text : String) (h : (Json.object members).member? tag = some (.string text)) :
        text = name := by
      rw [found] at h
      cases h
      exact named text known
    have constant : (const name).validates value = value.isString := by
      rw [validates, Bool.eq_iff_iff, decide_eq_true_iff, Json.isString_iff]
      constructor
      · exact fun same => ⟨name, same⟩
      · rintro ⟨text, rfl⟩
        exact congrArg Json.string (carried text found)
    have keys : members.all (·.1 ∈ tag :: properties.map Prod.fst) =
        (members.filter fun member => member.1 ≠ tag).all (·.1 ∈ properties.map Prod.fst) := by
      rw [List.all_filter]
      refine congrArg members.all (funext fun member => ?_)
      by_cases here : member.1 = tag <;> simp [here]
    have each : (properties.all fun property =>
        ((Json.object members).member? property.1).any property.2.validates) =
        properties.all fun property => ((Json.object (members.filter fun member =>
          member.1 ≠ tag)).member? property.1).any property.2.validates := by
      rw [Bool.eq_iff_iff, List.all_eq_true, List.all_eq_true]
      refine forall₂_congr fun property hp => ?_
      rw [others fun same => apart (same ▸ List.mem_map_of_mem hp)]
    rw [validates_tagged nodup mem carried, Schema.variant, validates_object, validates_object,
      List.all_cons, found, each, List.map_cons, Json.members?, Option.any_some, keys,
      Option.any_some, constant, Json.onMember, found, Option.all_some]
    exact Bool.and_left_comm ..
  · have plain : json.isObject = false := Bool.of_not_eq_true object
    rw [validates_tagged_eq_false plain,
      validates_object_eq_false ((isObject_of_tagged read).trans plain), Bool.and_false]

/-- The members of an object that a variant with fields was read from. -/
theorem member?_of_variant {tag name : String} {variant : Json → Option String}
    {json content : Json} {names : List String} {values : List Json} (nodup : names.Nodup)
    (read : tagged tag variant json = some (name, content))
    (content_read : fields names content = some values) (object : json.isObject = true)
    {other : String} (differ : other ≠ tag) :
    json.member? other = (names.zip values).lookup other := by
  rw [member?_of_tagged read object differ]
  exact member?_of_fields nodup content_read ((isObject_of_tagged read).trans object) other

/-- A variant that was read from an object is an instance if its tag is a string and its fields are
instances. -/
theorem validates_of_variant (alternatives : List (String × List (String × Schema)))
    {tag name : String} {variant : Json → Option String} {json content : Json}
    {properties : List (String × Schema)} {values : List Json}
    (nodup : (alternatives.map Prod.fst).Nodup) (mem : (name, properties) ∈ alternatives)
    (apart : (tag :: properties.map Prod.fst).Nodup)
    (named : ∀ text, variant (.string text) = some name → text = name)
    (read : tagged tag variant json = some (name, content))
    (content_read : fields (properties.map Prod.fst) content = some values) :
    (Schema.tagged tag alternatives).validates json =
      (json.isObject && json.onMember tag Json.isString &&
        (properties.zip values).all fun pair => pair.1.2.validates pair.2) := by
  rw [List.nodup_cons] at apart
  rw [validates_of_tagged nodup mem apart.1 named read, validates_of_fields apart.2 content_read,
    isObject_of_tagged read, Bool.and_left_comm, Bool.and_assoc]

/-! ## Encoded values -/

theorem validates_zip (properties : List (String × Schema)) (values : List Json)
    (nodup : (properties.map Prod.fst).Nodup) (length : properties.length = values.length) :
    (Schema.object properties).validates (.object ((properties.map Prod.fst).zip values)) =
      (properties.zip values).all fun pair => pair.1.2.validates pair.2 :=
  validates_of_fields nodup (fields_object _ values nodup (by rwa [List.length_map]))

theorem validates_ofTagged (tag : String) {alternatives : List (String × List (String × Schema))}
    (alternative : String × List (String × Schema)) (values : List Json)
    (nodup : (alternatives.map Prod.fst).Nodup) (mem : alternative ∈ alternatives)
    (apart : (tag :: alternative.2.map Prod.fst).Nodup)
    (length : alternative.2.length = values.length) :
    (Schema.tagged tag alternatives).validates
        (ofTagged tag alternative.1 ((alternative.2.map Prod.fst).zip values)) =
      (alternative.2.zip values).all fun pair => pair.1.2.validates pair.2 := by
  obtain ⟨name, properties⟩ := alternative
  rw [List.nodup_cons] at apart
  have known : variant [name] (.string name) = some name := if_pos (List.mem_singleton_self _)
  have absent : ∀ member ∈ (properties.map Prod.fst).zip values, member.1 ≠ tag :=
    fun member hm same => apart.1 (same ▸ (List.of_mem_zip hm).1)
  have read := tagged_ofTagged tag name _ known absent
  have string : (ofTagged tag name ((properties.map Prod.fst).zip values)).onMember tag
      Json.isString = true := by
    obtain ⟨_, value, -, -, found, variant⟩ := of_tagged read rfl
    rw [Json.onMember, found]
    cases value with
    | string => rfl
    | _ => cases variant
  rw [validates_of_tagged nodup mem apart.1 (fun _ => eq_of_variant) read, string,
    validates_zip _ _ apart.2 length, Bool.true_and]

theorem validates_ofList {α : Type} (items : Schema) (encode : α → Json) (as : List α) :
    (Schema.array items).validates (ofList encode as) = as.all fun a => items.validates (encode a) := by
  simp [validates, ofList, Json.items?, Function.comp_def]

end Serde
