import Mathlib.Logic.Function.Basic
import Mathlib.Tactic.SplitIfs

/-!
# Maps to non-empty lists

A partial map whose values are non-empty ordered lists.  Writing the empty list under a key removes
the key, so `entry` and `put` see such a map as a total map to lists.
-/

/-- A partial map from keys to non-empty lists. -/
abbrev ListMap (κ α : Type) := κ → Option {l : List α // l ≠ []}

namespace ListMap

variable {κ α : Type}

/-- The list as a map value: nothing for the empty list. -/
def value (l : List α) : Option {l : List α // l ≠ []} :=
  if h : l = [] then none else some ⟨l, h⟩

/-- The list under a key, empty when there is none. -/
def entry (m : ListMap κ α) (k : κ) : List α :=
  match m k with
  | some l => l.1
  | none => []

/-- Replace the list under a key, or remove the key for the empty list. -/
def put [DecidableEq κ] (m : ListMap κ α) (k : κ) (l : List α) : ListMap κ α :=
  Function.update m k (value l)

/-- The map with the given entries. -/
def ofEntries (f : κ → List α) : ListMap κ α := fun k => value (f k)

theorem map_val_value (l : List α) :
    (value l).map Subtype.val = if l = [] then none else some l := by
  unfold value
  split_ifs <;> rfl

@[simp] theorem entry_ofEntries (f : κ → List α) (k : κ) : (ofEntries f).entry k = f k := by
  unfold entry ofEntries value
  split
  · next h =>
    split_ifs at h
    cases h
    rfl
  · next h =>
    split_ifs at h with empty
    exact empty.symm

theorem ofEntries_entry (m : ListMap κ α) : ofEntries m.entry = m := by
  funext k
  unfold ofEntries entry value
  rcases m k with _ | ⟨l, hl⟩
  · rfl
  · exact dif_neg hl

/-- Maps with equal entries are equal. -/
theorem ext_entry {m m' : ListMap κ α} (h : ∀ k, m.entry k = m'.entry k) : m = m' := by
  rw [← ofEntries_entry m, ← ofEntries_entry m', funext h]

theorem eq_value_entry (m : ListMap κ α) (k : κ) : m k = value (m.entry k) :=
  (congrFun (ofEntries_entry m) k).symm

variable [DecidableEq κ]

theorem entry_put (m : ListMap κ α) (k k' : κ) (l : List α) :
    (m.put k l).entry k' = if k' = k then l else m.entry k' := by
  split_ifs with h
  · subst h
    rw [entry, put, Function.update_self]
    exact entry_ofEntries (fun _ : Unit => l) ()
  · rw [entry, put, Function.update_of_ne h]
    rfl

end ListMap
