import Mathlib.Data.List.Induction
import Mathlib.Data.List.Sort

/-!
# Ordering and grouping rows

`orderBy` sorts rows by a comparison, and a list whose rows are strictly increasing is the only
way to order its elements.  `groupRows` collects the items of equal keys in one pass; every group
holds exactly the items of its key, in row order.
-/

namespace Rows

variable {α κ : Type}

/-- The rows in the order of `cmp`; rows that compare equal keep their order. -/
def orderBy (cmp : α → α → Ordering) (rows : List α) : List α :=
  rows.insertionSort fun a b => (cmp a b).isLE = true

theorem orderBy_perm (cmp : α → α → Ordering) (rows : List α) : (orderBy cmp rows).Perm rows :=
  List.perm_insertionSort _ rows

@[simp] theorem mem_orderBy {cmp : α → α → Ordering} {rows : List α} {a : α} :
    a ∈ orderBy cmp rows ↔ a ∈ rows := (orderBy_perm cmp rows).mem_iff

theorem pairwise_orderBy (cmp : α → α → Ordering) [Std.TransCmp cmp] (rows : List α) :
    (orderBy cmp rows).Pairwise fun a b => (cmp a b).isLE = true := by
  have total : Std.Total fun a b => (cmp a b).isLE = true :=
    ⟨fun a b => by
      have swap : cmp b a = (cmp a b).swap := Std.OrientedCmp.eq_swap
      rw [swap]
      cases cmp a b <;> decide⟩
  have trans : IsTrans α fun a b => (cmp a b).isLE = true :=
    ⟨fun _ _ _ => Std.TransCmp.isLE_trans⟩
  exact List.pairwise_insertionSort _ rows

theorem orderBy_eq_self {cmp : α → α → Ordering} {rows : List α}
    (h : rows.Pairwise fun a b => (cmp a b).isLE = true) : orderBy cmp rows = rows :=
  h.insertionSort_eq

/-- Related rows that compare alike are ordered alike. -/
theorem forall₂_orderBy {β : Type} {R : α → β → Prop} {cmp : α → α → Ordering}
    {cmp' : β → β → Ordering}
    (alike : ∀ a a' b b', R a a' → R b b' → cmp a b = cmp' a' b') {rows : List α}
    {rows' : List β} (h : List.Forall₂ R rows rows') :
    List.Forall₂ R (orderBy cmp rows) (orderBy cmp' rows') := by
  have inserted : ∀ {a a'} {l : List α} {l' : List β}, R a a' → List.Forall₂ R l l' →
      List.Forall₂ R (l.orderedInsert (fun a b => (cmp a b).isLE = true) a)
        (l'.orderedInsert (fun a b => (cmp' a b).isLE = true) a') := by
    intro a a' l l' head h
    induction h with
    | nil => exact .cons head .nil
    | @cons b b' l l' first rest ih =>
      rw [List.orderedInsert, List.orderedInsert, alike a a' b b' head first]
      split_ifs
      · exact .cons head (.cons first rest)
      · exact .cons first ih
  unfold orderBy
  induction h with
  | nil => exact .nil
  | cons head tail ih => exact inserted head ih

/-- Strictly increasing rows are the only way to order their elements. -/
theorem eq_of_perm_of_lt {cmp : α → α → Ordering} [Std.OrientedCmp cmp] {l m : List α}
    (hp : l.Perm m) (hl : l.Pairwise fun a b => (cmp a b).isLE = true)
    (hm : m.Pairwise fun a b => cmp a b = .lt) : l = m := by
  refine hp.eq_of_pairwise (fun a b ha hb hab hba => ?_) hl (hm.imp fun lt => by rw [lt]; rfl)
  obtain ⟨i, hi, rfl⟩ := List.getElem_of_mem (hp.mem_iff.1 ha)
  obtain ⟨j, hj, rfl⟩ := List.getElem_of_mem hb
  rw [List.pairwise_iff_getElem] at hm
  rcases Nat.lt_trichotomy i j with lt | rfl | lt
  · have gt := Std.OrientedCmp.gt_iff_lt.2 (hm i j hi hj lt)
    rw [gt] at hba
    cases hba
  · rfl
  · have gt := Std.OrientedCmp.gt_iff_lt.2 (hm j i hj hi lt)
    rw [gt] at hab
    cases hab

/-- The only row that satisfies `p` is the first one. -/
theorem find?_of_unique {l : List α} {p : α → Bool} {a : α} (mem : a ∈ l) (ha : p a = true)
    (unique : ∀ b ∈ l, p b = true → b = a) : l.find? p = some a := by
  obtain ⟨b, found⟩ := Option.isSome_iff_exists.1 (List.find?_isSome.2 ⟨a, mem, ha⟩)
  rw [found, unique b (List.mem_of_find?_eq_some found) (List.find?_some found)]

/-! ## Grouping -/

variable [DecidableEq κ]

/-- Append an item to the first group of its key, or to a new group at the end. -/
def pushGroup (k : κ) (a : α) : List (κ × List α) → List (κ × List α)
  | [] => [(k, [a])]
  | g :: gs => if g.1 = k then (g.1, g.2 ++ [a]) :: gs else g :: pushGroup k a gs

/-- One pass over the rows, each an item with its key. -/
def groupRows (rows : List (κ × α)) : List (κ × List α) :=
  rows.foldl (fun groups row => pushGroup row.1 row.2 groups) []

/-- The items of one key. -/
def itemsOf (k : κ) (rows : List (κ × α)) : List α :=
  (rows.filter fun row => row.1 = k).map Prod.snd

theorem mem_keys_pushGroup {k k' : κ} {a : α} {gs : List (κ × List α)} :
    k' ∈ (pushGroup k a gs).map Prod.fst ↔ k' = k ∨ k' ∈ gs.map Prod.fst := by
  induction gs with
  | nil => simp [pushGroup]
  | cons g gs ih =>
    unfold pushGroup
    split_ifs with h
    · simp only [List.map_cons, List.mem_cons, h]
      tauto
    · simp only [List.map_cons, List.mem_cons, ih]
      tauto

theorem nodup_keys_pushGroup {k : κ} {a : α} {gs : List (κ × List α)}
    (h : (gs.map Prod.fst).Nodup) : ((pushGroup k a gs).map Prod.fst).Nodup := by
  induction gs with
  | nil => simp [pushGroup]
  | cons g gs ih =>
    rw [List.map_cons, List.nodup_cons] at h
    unfold pushGroup
    split_ifs with hk
    · simpa [hk] using h
    · rw [List.map_cons, List.nodup_cons, mem_keys_pushGroup]
      exact ⟨by rintro (e | e); exacts [hk e, h.1 e], ih h.2⟩

theorem mem_pushGroup {k k' : κ} {a : α} {as : List α} {gs : List (κ × List α)}
    (hn : (gs.map Prod.fst).Nodup) : (k', as) ∈ pushGroup k a gs ↔
      if k' = k then as = ((gs.lookup k).getD []) ++ [a] else (k', as) ∈ gs := by
  induction gs with
  | nil =>
    by_cases h : k' = k <;> simp [pushGroup, h]
  | cons g gs ih =>
    obtain ⟨kg, bs⟩ := g
    rw [List.map_cons, List.nodup_cons] at hn
    unfold pushGroup
    by_cases hg : kg = k
    · subst hg
      simp only [if_pos, List.mem_cons, Prod.mk.injEq, List.lookup_cons, beq_self_eq_true]
      by_cases h : k' = kg
      · subst h
        have : ∀ cs, (k', cs) ∉ gs := fun cs hc => hn.1 (List.mem_map.2 ⟨_, hc, rfl⟩)
        simp [this]
      · simp [h]
    · have hg' : (k == kg) = false := by simpa using fun e => hg e.symm
      simp only [if_neg hg, List.mem_cons, Prod.mk.injEq, ih hn.2, List.lookup_cons, hg']
      by_cases h : k' = k
      · subst h
        have hne : k' ≠ kg := fun e => hg e.symm
        simp [hne]
      · simp [h]

theorem lookup_eq_some_iff_mem {k : κ} {as : List α} {gs : List (κ × List α)}
    (hn : (gs.map Prod.fst).Nodup) : gs.lookup k = some as ↔ (k, as) ∈ gs := by
  induction gs with
  | nil => simp
  | cons g gs ih =>
    obtain ⟨kg, bs⟩ := g
    rw [List.map_cons, List.nodup_cons] at hn
    rw [List.lookup_cons, List.mem_cons]
    by_cases h : k = kg
    · subst h
      have : ∀ cs, (k, cs) ∉ gs := fun cs hc => hn.1 (List.mem_map.2 ⟨_, hc, rfl⟩)
      simp [this, eq_comm]
    · have hb : (k == kg) = false := by simpa using h
      simp [hb, ih hn.2, h]

/-- The invariant of the pass: keys are distinct and a group holds the items of its key. -/
theorem groupRows_spec (rows : List (κ × α)) :
    ((groupRows rows).map Prod.fst).Nodup ∧
      ∀ k as, (k, as) ∈ groupRows rows ↔ as = itemsOf k rows ∧ as ≠ [] := by
  induction rows using List.reverseRecOn with
  | nil => simp [groupRows, itemsOf]
  | append_singleton rows row ih =>
    obtain ⟨hn, hm⟩ := ih
    have step : groupRows (rows ++ [row]) = pushGroup row.1 row.2 (groupRows rows) := by
      simp [groupRows]
    refine ⟨step ▸ nodup_keys_pushGroup hn, fun k as => ?_⟩
    rw [step, mem_pushGroup hn]
    have items : itemsOf k (rows ++ [row]) =
        itemsOf k rows ++ if row.1 = k then [row.2] else [] := by
      unfold itemsOf
      rw [List.filter_append, List.map_append]
      congr 1
      by_cases h : row.1 = k <;> simp [h]
    rw [items]
    by_cases h : k = row.1
    · subst h
      have found : ((groupRows rows).lookup row.1).getD [] = itemsOf row.1 rows := by
        by_cases he : itemsOf row.1 rows = []
        · rcases hl : (groupRows rows).lookup row.1 with _ | bs
          · exact he.symm
          · obtain ⟨rfl, hne⟩ := (hm _ _).1 ((lookup_eq_some_iff_mem hn).1 hl)
            exact absurd he hne
        · rw [(lookup_eq_some_iff_mem hn).2 ((hm _ _).2 ⟨rfl, he⟩)]
          rfl
      rw [if_pos rfl, if_pos rfl, found]
      constructor
      · rintro rfl
        exact ⟨rfl, by simp⟩
      · exact fun h => h.1
    · rw [if_neg h, if_neg (fun e => h e.symm), List.append_nil]
      exact hm k as

end Rows
