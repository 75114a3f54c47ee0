import Mathlib.Algebra.BigOperators.Group.List.Basic
import Mathlib.Algebra.GroupWithZero.Nat
import Mathlib.Data.List.Basic

/-!
# Greedy selection under a budget

One pass over a list takes every member that still fits, at most `cap` of them, and passes over the
others.  `fits` says which total sizes are within the budget.  What is taken is within both limits,
and what is passed over is a final part of the list if no member fits once one has not.
-/

namespace Greedy

variable {α : Type} (size : α → ℕ) (fits : ℕ → Prop) [DecidablePred fits] (cap : ℕ)

/-- The members that are taken when `k` members of total size `t` are in already. -/
def kept : ℕ → ℕ → List α → List α
  | _, _, [] => []
  | k, t, a :: as =>
    if k < cap ∧ fits (t + size a) then a :: kept (k + 1) (t + size a) as else kept k t as

/-- The members that are passed over. -/
def passed : ℕ → ℕ → List α → List α
  | _, _, [] => []
  | k, t, a :: as =>
    if k < cap ∧ fits (t + size a) then passed (k + 1) (t + size a) as else a :: passed k t as

/-- The total size of a list. -/
def total (as : List α) : ℕ := (as.map size).sum

@[simp] theorem total_nil : total size [] = 0 := rfl

@[simp] theorem total_cons (a : α) (as : List α) :
    total size (a :: as) = size a + total size as := by
  simp [total]

@[simp] theorem total_append (as bs : List α) :
    total size (as ++ bs) = total size as + total size bs := by
  simp [total]

theorem total_perm {as bs : List α} (h : as.Perm bs) : total size as = total size bs :=
  (h.map size).sum_eq

variable {size fits cap}

theorem kept_append_passed (k t : ℕ) (as : List α) :
    (kept size fits cap k t as ++ passed size fits cap k t as).Perm as := by
  induction as generalizing k t with
  | nil => rfl
  | cons a as ih =>
    unfold kept passed
    split_ifs with h
    · exact (ih _ _).cons a
    · exact List.perm_middle.trans ((ih _ _).cons a)

/-- What is taken stays within the number of places. -/
theorem length_kept_le {k : ℕ} (hk : k ≤ cap) (t : ℕ) (as : List α) :
    k + (kept size fits cap k t as).length ≤ cap := by
  induction as generalizing k t with
  | nil => exact hk
  | cons a as ih =>
    unfold kept
    split_ifs with h
    · have := @ih (k + 1) h.1 (t + size a)
      rw [List.length_cons]
      omega
    · exact ih hk t

/-- What is taken stays within the budget. -/
theorem fits_kept {t : ℕ} (ht : fits t) (k : ℕ) (as : List α) :
    fits (t + total size (kept size fits cap k t as)) := by
  induction as generalizing k t with
  | nil => exact ht
  | cons a as ih =>
    unfold kept
    split_ifs with h
    · rw [total_cons, ← Nat.add_assoc]
      exact ih h.2 _
    · exact ih ht k

theorem passed_eq_self {t : ℕ} {as : List α} (none : ∀ a ∈ as, ¬ fits (t + size a)) (k : ℕ) :
    passed size fits cap k t as = as := by
  induction as with
  | nil => rfl
  | cons a as ih =>
    rw [List.forall_mem_cons] at none
    unfold passed
    rw [if_neg fun h => none.1 h.2, ih none.2]

/-- With places for all members, everything from the first member that does not fit on is passed
over, if no later member fits in its place. -/
theorem passed_eq_drop {k t : ℕ} {as : List α} (room : k + as.length ≤ cap) (ht : fits t)
    (stops : ∀ i a, as[i]? = some a → fits (t + total size (as.take i)) →
      ¬ fits (t + total size (as.take i) + size a) →
      ∀ b ∈ as.drop (i + 1), ¬ fits (t + total size (as.take i) + size b)) :
    ∃ j ≤ as.length, passed size fits cap k t as = as.drop j := by
  induction as generalizing k t with
  | nil => exact ⟨0, Nat.le_refl _, rfl⟩
  | cons a as ih =>
    rw [List.length_cons] at room
    unfold passed
    by_cases h : fits (t + size a)
    · rw [if_pos ⟨by omega, h⟩]
      obtain ⟨j, hj, eq⟩ := ih (k := k + 1) (by omega) h fun i b hb within excess => by
        have total_take : t + total size ((a :: as).take (i + 1)) =
            t + size a + total size (as.take i) := by
          rw [List.take_succ_cons, total_cons, Nat.add_assoc]
        have later := stops (i + 1) b hb
        rw [total_take] at later
        exact later within excess
      exact ⟨j + 1, Nat.succ_le_succ hj, eq⟩
    · rw [if_neg fun both => h both.2]
      have none := stops 0 a rfl ht h
      exact ⟨0, Nat.zero_le _, congrArg (a :: ·) (passed_eq_self none k)⟩

end Greedy
