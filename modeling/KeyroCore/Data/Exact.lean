import Mathlib.Data.List.Nodup
import KeyroCore.Data.Schema

/-!
# Decoders that follow a schema

A parsed value is literal if no object in it repeats a name and every number in it is written as an
integer.  A decoder is exact for a schema if, among the instances of the schema, it accepts the
literal ones and no others; what it reads off an instance has a property `P`.  Derived decoders of
structs and of tagged enums are exact if the decoders of their fields are.
-/

namespace Json

mutual

def literal : Json → Bool
  | null | bool _ | string _ | number (.integer _) => true
  | number (.float _) => false
  | array items => literalItems items
  | object members => decide (members.map Prod.fst).Nodup && literalMembers members

def literalItems : List Json → Bool
  | [] => true
  | item :: items => item.literal && literalItems items

def literalMembers : List (String × Json) → Bool
  | [] => true
  | (_, value) :: members => value.literal && literalMembers members

end

@[simp] theorem literal_string (s : String) : (string s).literal = true := by simp [literal]

theorem literal_object (members : List (String × Json)) : (object members).literal =
    (decide (members.map Prod.fst).Nodup && members.all fun member => member.2.literal) := by
  have each : literalMembers members = members.all fun member => member.2.literal := by
    induction members with
    | nil => rw [literalMembers, List.all_nil]
    | cons member members ih => rw [literalMembers, List.all_cons, ih]
  rw [literal, each]

theorem literal_object_perm {members members' : List (String × Json)}
    (perm : members.Perm members') : (object members).literal = (object members').literal := by
  have names : (members.map Prod.fst).Nodup ↔ (members'.map Prod.fst).Nodup :=
    (perm.map Prod.fst).nodup_iff
  rw [literal_object, literal_object, perm.all_eq, decide_eq_decide.2 names]

/-- A repeated name is not literal. -/
theorem literal_object_eq_false {members : List (String × Json)}
    (repeated : ¬ (members.map Prod.fst).Nodup) : (object members).literal = false := by
  rw [literal_object, decide_eq_false repeated, Bool.false_and]

end Json

namespace Serde

open Schema

variable {α : Type}

/-- A result that is there exactly if the value it was read from is literal. -/
structure Reads (literal : Bool) (P : α → Prop) (result : Option α) : Prop where
  isSome_eq : result.isSome = literal
  holds : ∀ a, result = some a → P a

/-- Among the instances of the schema the decoder accepts exactly the literal ones. -/
def Exact (schema : Schema) (decode : Json → Option α) (P : α → Prop) : Prop :=
  ∀ json, schema.validates json = true → Reads json.literal P (decode json)

theorem reads_some {P : α → Prop} {a : α} (holds : P a) : Reads true P (some a) :=
  ⟨rfl, fun _ h => Option.some.inj h ▸ holds⟩

theorem reads_none {P : α → Prop} : Reads false P none := ⟨rfl, fun _ h => by cases h⟩

/-- Fields are read one after the other. -/
theorem Reads.cons {β : Type} {P : α → Prop} {Q : β → Prop} {value : Json} {values : List Json}
    {result : Option α} {f : α → Option β} (first : Reads value.literal P result)
    (rest : ∀ a, P a → Reads (values.all Json.literal) Q (f a)) :
    Reads ((value :: values).all Json.literal) Q (result.bind f) := by
  rw [List.all_cons, ← first.isSome_eq]
  cases result with
  | none => exact reads_none
  | some a => exact rest a (first.holds a rfl)

/-! ## Leaves -/

theorem exact_string (asserted : String → Bool) :
    Exact (.string asserted) string fun s => asserted s = true := by
  intro json valid
  cases json with
  | string s =>
    rw [Json.literal_string]
    exact reads_some (by simpa using valid)
  | _ => simp [validates, Json.string?] at valid

theorem exact_u16 : Exact (.integer 0 (some 65535)) u16 fun _ => True := by
  intro json valid
  cases json with
  | number n =>
    cases n with
    | integer n =>
      simp only [validates, Json.integer?, JsonNumber.integer?_integer, Option.any_some,
        Option.all_some, Bool.and_eq_true, decide_eq_true_eq] at valid
      have fits : 0 ≤ n ∧ n < 65536 := by omega
      simp only [u16, if_pos fits, Json.literal]
      exact reads_some trivial
    | float value =>
      rw [Json.literal]
      exact reads_none
  | _ => simp [validates, Json.integer?] at valid

theorem exact_u16_const {n : ℕ} (fits : n < 65536) :
    Exact (.constInteger n) u16 fun value => value = UInt16.ofNat n := by
  intro json valid
  cases json with
  | number m =>
    cases m with
    | integer m =>
      obtain rfl : m = n := by simpa [validates, Json.integer?] using valid
      have bounds : 0 ≤ (n : ℤ) ∧ (n : ℤ) < 65536 := by omega
      simp only [u16, if_pos bounds, Json.literal]
      exact reads_some rfl
    | float value =>
      rw [Json.literal]
      exact reads_none
  | _ => simp [validates, Json.integer?] at valid

/-! ## Structs -/

/-- The fields of an object that is an instance, if it repeats no name. -/
theorem fields_of_validates {properties : List (String × Schema)} {members : List (String × Json)}
    (nodup : (properties.map Prod.fst).Nodup)
    (valid : (Schema.object properties).validates (.object members) = true)
    (distinct : (members.map Prod.fst).Nodup) :
    ∃ values, fields (properties.map Prod.fst) (.object members) = some values ∧
      List.Forall₂ (fun property value => property.2.validates value = true) properties values ∧
      (members.all fun member => member.2.literal) = values.all Json.literal := by
  rw [validates_object, Bool.and_eq_true_iff] at valid
  have known : ∀ member ∈ members, member.1 ∈ properties.map Prod.fst := by
    simpa [Json.members?] using valid.1
  have found : ∀ property ∈ properties,
      ∃ value, members.lookup property.1 = some value ∧ property.2.validates value = true := by
    intro property mem
    have present := List.all_eq_true.1 valid.2 property mem
    rw [Json.member?_object distinct] at present
    exact (Option.any_eq_true _ _).1 present
  have keys : (members.map Prod.fst).Perm (properties.map Prod.fst) := by
    refine (List.perm_ext_iff_of_nodup distinct nodup).2 fun name => ⟨fun mem => ?_, fun mem => ?_⟩
    · obtain ⟨member, hm, rfl⟩ := List.mem_map.1 mem
      exact known member hm
    · obtain ⟨property, hp, rfl⟩ := List.mem_map.1 mem
      obtain ⟨value, here, -⟩ := found property hp
      exact List.mem_map.2 ⟨_, (Json.lookup_eq_some_iff distinct).1 here, rfl⟩
  refine ⟨properties.map fun property => (members.lookup property.1).getD .null, ?_, ?_, ?_⟩
  · unfold fields
    dsimp only
    rw [if_pos keys]
    refine mapM_eq_some ?_
    rw [List.forall₂_map_left_iff, List.forall₂_map_right_iff, List.forall₂_same]
    intro property mem
    obtain ⟨value, here, -⟩ := found property mem
    rw [here, Option.getD_some]
  · rw [List.forall₂_map_right_iff, List.forall₂_same]
    intro property mem
    obtain ⟨value, here, holds⟩ := found property mem
    rw [here, Option.getD_some]
    exact holds
  · rw [Bool.eq_iff_iff, List.all_map, List.all_eq_true, List.all_eq_true]
    constructor
    · intro each property mem
      obtain ⟨value, here, -⟩ := found property mem
      rw [Function.comp_apply, here, Option.getD_some]
      exact each _ ((Json.lookup_eq_some_iff distinct).1 here)
    · intro each member mem
      obtain ⟨property, hp, same⟩ := List.mem_map.1 (known member mem)
      have here : members.lookup property.1 = some member.2 := by
        rw [same]
        exact (Json.lookup_eq_some_iff distinct).2 mem
      have holds := each property hp
      rwa [Function.comp_apply, here, Option.getD_some] at holds

theorem exact_struct {properties : List (String × Schema)} {k : List Json → Option α}
    {P : α → Prop} (nodup : (properties.map Prod.fst).Nodup)
    (each : ∀ values,
      List.Forall₂ (fun property value => property.2.validates value = true) properties values →
      Reads (values.all Json.literal) P (k values)) :
    Exact (.object properties) (fun json => (fields (properties.map Prod.fst) json).bind k) P := by
  intro json valid
  have object : json.isObject = true := by
    by_contra plain
    rw [validates_object_eq_false (Bool.of_not_eq_true plain)] at valid
    cases valid
  obtain ⟨members, rfl⟩ := Json.isObject_iff.1 object
  by_cases distinct : (members.map Prod.fst).Nodup
  · obtain ⟨values, read, holds, literal⟩ := fields_of_validates nodup valid distinct
    rw [Json.literal_object, decide_eq_true distinct, Bool.true_and, literal]
    dsimp only
    rw [read, Option.bind_some]
    exact each values holds
  · have unread : fields (properties.map Prod.fst) (.object members) = none :=
      if_neg fun keys => distinct (keys.nodup_iff.2 nodup)
    dsimp only
    rw [unread, Json.literal_object_eq_false distinct]
    exact reads_none

/-! ## Tagged enums -/

/-- An instance of a tagged union is one of an alternative. -/
theorem exists_variant {tag : String} {alternatives : List (String × List (String × Schema))}
    {json : Json} (valid : (Schema.tagged tag alternatives).validates json = true) :
    ∃ alternative ∈ alternatives,
      (Schema.variant tag alternative.1 alternative.2).validates json = true := by
  rw [Schema.tagged, validates, decide_eq_true_iff, countValid_eq, List.countP_map] at valid
  have some : 0 < alternatives.countP ((fun schema => schema.validates json) ∘
      fun a => Schema.variant tag a.1 a.2) := by omega
  exact List.countP_pos_iff.1 some

section Content

variable {tag name : String} {properties : List (String × Schema)} {members : List (String × Json)}

/-- The content of an alternative is an instance of its other properties. -/
theorem validates_content (apart : tag ∉ properties.map Prod.fst)
    (valid : (Schema.variant tag name properties).validates (.object members) = true) :
    (Schema.object properties).validates
      (.object (members.filter fun member => member.1 ≠ tag)) = true := by
  rw [Schema.variant, validates_object, Bool.and_eq_true_iff, List.all_cons,
    Bool.and_eq_true_iff] at valid
  rw [validates_object, Bool.and_eq_true_iff]
  have known : ∀ member ∈ members, member.1 = tag ∨ member.1 ∈ properties.map Prod.fst := by
    simpa [Json.members?] using valid.1
  constructor
  · simp only [Json.members?, Option.any_some, List.all_eq_true, decide_eq_true_eq]
    intro member mem
    obtain ⟨mem, other⟩ := List.mem_filter.1 mem
    rcases known member mem with same | listed
    · exact absurd same (of_decide_eq_true other)
    · exact listed
  · rw [List.all_eq_true]
    intro property mem
    have other : property.1 ≠ tag := fun same => apart (same ▸ List.mem_map_of_mem mem)
    have kept : decide (property.1 ≠ tag) = true := decide_eq_true other
    have holds := List.all_eq_true.1 valid.2.2 property mem
    rw [Json.member?] at holds ⊢
    rw [← List.filter_reverse, lookup_filter (fun key => decide (key ≠ tag)) kept]
    exact holds

/-- A tag that stands once is the constant of the alternative. -/
theorem tagged_of_validates {read : Json → Option String}
    (known : read (.string name) = some name)
    (valid : (Schema.variant tag name properties).validates (.object members) = true)
    (once : (members.filter fun member => member.1 = tag).length = 1) :
    tagged tag read (.object members) =
        some (name, .object (members.filter fun member => member.1 ≠ tag)) ∧
      (Json.object members).literal =
        (Json.object (members.filter fun member => member.1 ≠ tag)).literal := by
  obtain ⟨⟨key, value⟩, only⟩ := List.length_eq_one_iff.1 once
  have single : (key, value) ∈ members.filter fun member => member.1 = tag :=
    only ▸ List.mem_singleton_self _
  obtain rfl : key = tag := of_decide_eq_true (List.mem_filter.1 single).2
  have found := Schema.member?_of_variant valid
  have kept : decide (key = key) = true := decide_eq_true rfl
  rw [Json.member?, ← lookup_filter (fun k => decide (k = key)) kept, List.filter_reverse,
    only, List.reverse_singleton, List.lookup_cons_self] at found
  obtain rfl := Option.some.inj found
  constructor
  · unfold tagged
    dsimp only
    rw [only]
    dsimp only
    rw [known]
    rfl
  · have rest : (members.filter fun member => !decide (member.1 = key)) =
        members.filter fun member => member.1 ≠ key := by simp
    have perm := (List.filter_append_perm (fun member => decide (member.1 = key)) members).symm
    rw [only, rest, List.singleton_append] at perm
    have absent : key ∉ (members.filter fun member => member.1 ≠ key).map Prod.fst := by simp
    rw [Json.literal_object_perm perm, Json.literal_object, Json.literal_object, List.map_cons,
      List.all_cons, Json.literal_string, Bool.true_and]
    simp only [List.nodup_cons, absent, not_false_eq_true, true_and]

/-- A tag that stands more than once is not read. -/
theorem tagged_of_repeated {read : Json → Option String}
    (repeated : (members.filter fun member => member.1 = tag).length ≠ 1) :
    tagged tag read (.object members) = none := by
  unfold tagged
  dsimp only
  split
  · next only => exact absurd (congrArg List.length only) repeated
  · rfl

/-- Without repeated names the tag of an instance stands once. -/
theorem length_filter_tag (distinct : (members.map Prod.fst).Nodup)
    (valid : (Schema.variant tag name properties).validates (.object members) = true) :
    (members.filter fun member => member.1 = tag).length = 1 := by
  have mem : tag ∈ members.map Prod.fst := by
    have found := Schema.member?_of_variant valid
    rw [Json.member?_eq_some_iff distinct] at found
    exact List.mem_map.2 ⟨_, found, rfl⟩
  have count := List.count_eq_one_of_mem distinct mem
  rw [List.count_eq_countP, List.countP_map, List.countP_eq_length_filter] at count
  rw [← count]
  congr 1

end Content

theorem exact_tagged {tag : String} {alternatives : List (String × List (String × Schema))}
    {read : Json → Option String} {k : String × Json → Option α} {P : α → Prop}
    (apart : ∀ alternative ∈ alternatives, tag ∉ alternative.2.map Prod.fst)
    (known : ∀ alternative ∈ alternatives, read (.string alternative.1) = some alternative.1)
    (each : ∀ alternative ∈ alternatives,
      Exact (.object alternative.2) (fun content => k (alternative.1, content)) P) :
    Exact (.tagged tag alternatives) (fun json => (tagged tag read json).bind k) P := by
  intro json valid
  have object : json.isObject = true := by
    by_contra plain
    rw [validates_tagged_eq_false (Bool.of_not_eq_true plain)] at valid
    cases valid
  obtain ⟨members, rfl⟩ := Json.isObject_iff.1 object
  obtain ⟨alternative, mem, holds⟩ := exists_variant valid
  dsimp only
  by_cases once : (members.filter fun member => member.1 = tag).length = 1
  · obtain ⟨tagged, literal⟩ := tagged_of_validates (known _ mem) holds once
    rw [tagged, literal, Option.bind_some]
    exact each _ mem _ (validates_content (apart _ mem) holds)
  · have repeated : ¬ (members.map Prod.fst).Nodup := fun distinct =>
      once (length_filter_tag distinct holds)
    rw [tagged_of_repeated once, Json.literal_object_eq_false repeated]
    exact reads_none

end Serde
