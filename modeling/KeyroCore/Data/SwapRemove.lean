import Mathlib.Data.List.Basic
import Mathlib.Data.List.Perm.Basic

/-!
# Removal by the last element

`swapRemove` takes an element out of a list and puts the last one in its place.  What lies before
the place stays, and what lies after it is permuted.
-/

namespace List

variable {α : Type}

/-- `Vec::swap_remove`. -/
def swapRemove (xs : List α) (i : ℕ) : List α :=
  match xs.getLast? with
  | none => []
  | some last => (xs.set i last).dropLast

/-- The last element before the others. -/
def lastFirst (xs : List α) : List α :=
  match xs.getLast? with
  | none => []
  | some last => last :: xs.dropLast

theorem lastFirst_perm (xs : List α) : xs.lastFirst.Perm xs := by
  unfold lastFirst
  cases h : xs.getLast? with
  | none => rw [getLast?_eq_none_iff.1 h]
  | some last =>
    obtain ⟨front, rfl⟩ := getLast?_eq_some_iff.1 h
    rw [dropLast_concat]
    exact (perm_append_singleton last front).symm

theorem swapRemove_append (front : List α) (x : α) (back : List α) :
    (front ++ x :: back).swapRemove front.length = front ++ back.lastFirst := by
  unfold swapRemove lastFirst
  rcases eq_nil_or_concat back with rfl | ⟨rest, last, rfl⟩
  · simp
  · rw [concat_eq_append]
    have whole : front ++ x :: (rest ++ [last]) = (front ++ x :: rest) ++ [last] := by simp
    have replaced : ((front ++ x :: rest) ++ [last]).set front.length last =
        (front ++ last :: rest) ++ [last] := by simp
    rw [whole, getLast?_concat, getLast?_concat]
    dsimp only
    rw [replaced, dropLast_concat, dropLast_concat]

section Place

variable {xs : List α} {i : ℕ} (h : i < xs.length)

include h

theorem swapRemove_eq : xs.swapRemove i = xs.take i ++ (xs.drop (i + 1)).lastFirst := by
  have split : xs = xs.take i ++ xs[i] :: xs.drop (i + 1) := by
    rw [getElem_cons_drop, take_append_drop]
  have front : (xs.take i).length = i := length_take_of_le (Nat.le_of_lt h)
  conv_lhs => rw [split]
  conv_lhs => arg 2; rw [← front]
  exact swapRemove_append _ _ _

theorem length_swapRemove : (xs.swapRemove i).length = xs.length - 1 := by
  rw [swapRemove_eq h, length_append, (lastFirst_perm _).length_eq, length_take, length_drop]
  omega

theorem take_swapRemove : (xs.swapRemove i).take i = xs.take i := by
  have front : (xs.take i).length = i := length_take_of_le (Nat.le_of_lt h)
  rw [swapRemove_eq h, take_append_of_le_length (Nat.le_of_eq front.symm), take_take, Nat.min_self]

/-- The elements from the place on, less the removed one. -/
theorem drop_swapRemove_perm : (xs[i] :: (xs.swapRemove i).drop i).Perm (xs.drop i) := by
  have front : (xs.take i).length = i := length_take_of_le (Nat.le_of_lt h)
  rw [swapRemove_eq h, drop_append_of_le_length (Nat.le_of_eq front.symm), drop_of_length_le
    (Nat.le_of_eq front), nil_append, drop_eq_getElem_cons h]
  exact (lastFirst_perm _).cons _

theorem swapRemove_perm : (xs[i] :: xs.swapRemove i).Perm xs := by
  have moved := drop_swapRemove_perm h
  rw [← take_append_drop i (xs.swapRemove i), take_swapRemove h]
  refine perm_middle.symm.trans ?_
  conv_rhs => rw [← take_append_drop i xs]
  exact moved.append_left _

end Place

end List
