import Mathlib.Data.List.Forall2
import Mathlib.Logic.Basic

/-!
# Results

When a chain of fallible steps succeeds.
-/

namespace Results

variable {ε ε' α β : Type}

theorem bind_ok_iff {x : Except ε α} {f : α → Except ε β} {b : β} :
    (x >>= f) = .ok b ↔ ∃ a, x = .ok a ∧ f a = .ok b := by
  rcases x with e | a
  · constructor
    · rintro ⟨⟩
    · rintro ⟨a, ⟨⟩, -⟩
  · constructor
    · intro h
      exact ⟨a, rfl, h⟩
    · rintro ⟨a', h, hf⟩
      cases h
      exact hf

theorem pure_ok_iff {a b : α} : (pure a : Except ε α) = .ok b ↔ a = b :=
  ⟨Except.ok.inj, congrArg Except.ok⟩

theorem mapError_ok_iff {x : Except ε α} {f : ε → ε'} {a : α} :
    x.mapError f = .ok a ↔ x = .ok a := by
  rcases x with e | b
  · constructor <;> rintro ⟨⟩
  · exact ⟨fun h => congrArg _ (Except.ok.inj h), fun h => congrArg _ (Except.ok.inj h)⟩

/-- Reading all members succeeds when reading each of them does. -/
theorem mapM_ok_iff {f : α → Except ε β} {as : List α} {bs : List β} :
    as.mapM f = .ok bs ↔ List.Forall₂ (fun a b => f a = .ok b) as bs := by
  induction as generalizing bs with
  | nil =>
    rw [List.mapM_nil, List.forall₂_nil_left_iff, pure_ok_iff]
    exact eq_comm
  | cons a as ih =>
    rw [List.mapM_cons, bind_ok_iff, List.forall₂_cons_left_iff]
    refine exists_congr fun b => ?_
    rw [bind_ok_iff]
    simp only [ih, pure_ok_iff]
    constructor
    · rintro ⟨ha, rest, hs, rfl⟩
      exact ⟨rest, ha, hs, rfl⟩
    · rintro ⟨rest, ha, hs, rfl⟩
      exact ⟨ha, rest, hs, rfl⟩

theorem forall_ok_of_mapM {f : α → Except ε β} {as : List α} {bs : List β}
    (h : as.mapM f = .ok bs) : ∀ a ∈ as, ∃ b, f a = .ok b := by
  have related := mapM_ok_iff.1 h
  clear h
  induction related with
  | nil => simp
  | cons hab _ ih => exact List.forall_mem_cons.2 ⟨⟨_, hab⟩, ih⟩

/-- Every result is read from a member. -/
theorem exists_of_mem_mapM {f : α → Except ε β} {as : List α} {bs : List β}
    (h : as.mapM f = .ok bs) {b : β} (hb : b ∈ bs) : ∃ a ∈ as, f a = .ok b := by
  have related := mapM_ok_iff.1 h
  clear h
  induction related with
  | nil => cases hb
  | @cons a b' as bs hab _ ih =>
    rcases List.mem_cons.1 hb with rfl | hb
    · exact ⟨a, List.mem_cons_self .., hab⟩
    · obtain ⟨a', mem, read⟩ := ih hb
      exact ⟨a', List.mem_cons_of_mem _ mem, read⟩

theorem exists_mapM_ok {f : α → Except ε β} {as : List α} (h : ∀ a ∈ as, ∃ b, f a = .ok b) :
    ∃ bs, as.mapM f = .ok bs := by
  induction as with
  | nil => exact ⟨[], rfl⟩
  | cons a as ih =>
    rw [List.forall_mem_cons] at h
    obtain ⟨b, hb⟩ := h.1
    obtain ⟨bs, hbs⟩ := ih h.2
    exact ⟨b :: bs, mapM_ok_iff.2 (.cons hb (mapM_ok_iff.1 hbs))⟩

/-- Reading the members that satisfy `p` reads the results that satisfy `q`, when `p` of a member
is `q` of its result. -/
theorem filter_mapM_ok {f : α → Except ε β} {p : α → Bool} {q : β → Bool} {as : List α}
    {bs : List β} (h : as.mapM f = .ok bs) (hpq : ∀ a ∈ as, ∀ b, f a = .ok b → p a = q b) :
    (as.filter p).mapM f = .ok (bs.filter q) := by
  rw [mapM_ok_iff] at h ⊢
  induction h with
  | nil => exact .nil
  | @cons a b as bs hab _ ih =>
    rw [List.forall_mem_cons] at hpq
    rw [List.filter_cons, List.filter_cons, hpq.1 b hab]
    split
    · exact .cons hab (ih hpq.2)
    · exact ih hpq.2

theorem length_of_mapM_ok {f : α → Except ε β} {as : List α} {bs : List β}
    (h : as.mapM f = .ok bs) : as.length = bs.length := (mapM_ok_iff.1 h).length_eq

/-- A member of the first of two related lists is related to a member of the second. -/
theorem exists_of_forall₂ {R : α → β → Prop} {as : List α} {bs : List β}
    (h : List.Forall₂ R as bs) {a : α} (mem : a ∈ as) : ∃ b ∈ bs, R a b := by
  induction h with
  | nil => cases mem
  | cons related _ ih =>
    rcases List.mem_cons.1 mem with rfl | mem
    · exact ⟨_, List.mem_cons_self .., related⟩
    · obtain ⟨b, hb, related⟩ := ih mem
      exact ⟨b, List.mem_cons_of_mem _ hb, related⟩

end Results
