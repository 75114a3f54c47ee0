import Mathlib.Data.Option.Basic
import KeyroCore.Data.ListMap

/-!
# Catalogs

Known ids with a name each, one of which is selected, and lists under the keys of known ids.  That
the selected id is known, and that only known ids have lists, are fields, so no operation can lose
them.
-/

/-- Named ids, one of them selected, with lists under their keys. -/
structure Catalog (ι κ α : Type) where
  name : ι → Option String
  active : ι
  entries : ListMap (ι × κ) α
  active_known : (name active).isSome
  entries_known : ∀ id key, entries.entry (id, key) ≠ [] → (name id).isSome

namespace Catalog

variable {ι κ α : Type} (c : Catalog ι κ α)

def Known (id : ι) : Prop := (c.name id).isSome

instance (id : ι) : Decidable (c.Known id) := inferInstanceAs (Decidable (_ = true))

/-- Select a known id. -/
def activate (id : ι) : Catalog ι κ α :=
  if h : c.Known id then { c with active := id, active_known := h } else c

theorem name_activate (id : ι) : (c.activate id).name = c.name := by
  unfold activate
  split_ifs <;> rfl

theorem entries_activate (id : ι) : (c.activate id).entries = c.entries := by
  unfold activate
  split_ifs <;> rfl

theorem active_activate {c : Catalog ι κ α} {id : ι} (h : c.Known id) :
    (c.activate id).active = id := by
  unfold activate
  rw [dif_pos h]

/-- The catalog with a single id and no lists. -/
def single [DecidableEq ι] (id : ι) (text : String) : Catalog ι κ α where
  name := Function.update (fun _ => none) id (some text)
  active := id
  entries := ListMap.ofEntries fun _ => []
  active_known := by simp
  entries_known := by simp

variable [DecidableEq ι]

/-- Name an id, known or not. -/
def create (id : ι) (text : String) : Catalog ι κ α where
  name := Function.update c.name id (some text)
  active := c.active
  entries := c.entries
  active_known := by
    rw [Function.update_apply]
    split_ifs
    · rfl
    · exact c.active_known
  entries_known := fun id' key filled => by
    rw [Function.update_apply]
    split_ifs
    · rfl
    · exact c.entries_known id' key filled

/-- Name a known id. -/
def rename (id : ι) (text : String) : Catalog ι κ α :=
  if c.Known id then c.create id text else c

/-- Replace the list under a key of a known id. -/
def put [DecidableEq κ] (id : ι) (key : κ) (l : List α) : Catalog ι κ α :=
  if h : c.Known id then
    { c with
      entries := c.entries.put (id, key) l
      entries_known := fun id' key' filled => by
        rw [ListMap.entry_put] at filled
        split_ifs at filled with same
        · rw [(Prod.mk.inj same).1]
          exact h
        · exact c.entries_known id' key' filled }
  else c

section Fields

variable {c} {id id' : ι} {text : String}

@[simp] theorem active_create : (c.create id text).active = c.active := rfl

@[simp] theorem entries_create : (c.create id text).entries = c.entries := rfl

theorem name_create : (c.create id text).name id' = if id' = id then some text else c.name id' :=
  Function.update_apply ..

theorem rename_of_known (h : c.Known id) : c.rename id text = c.create id text := if_pos h

variable [DecidableEq κ] {key : κ} {l : List α}

theorem name_put : (c.put id key l).name = c.name := by
  unfold put
  split_ifs <;> rfl

theorem active_put : (c.put id key l).active = c.active := by
  unfold put
  split_ifs <;> rfl

theorem entries_put (h : c.Known id) : (c.put id key l).entries = c.entries.put (id, key) l := by
  unfold put
  rw [dif_pos h]

end Fields

/-- Known ids stay known. -/
theorem Known.create {c : Catalog ι κ α} {id : ι} (h : c.Known id) (id' : ι) (text : String) :
    (c.create id' text).Known id := by
  unfold Known
  rw [name_create]
  split_ifs
  · rfl
  · exact h

section Stay

variable {c : Catalog ι κ α} {id : ι}

omit [DecidableEq ι] in
theorem Known.activate (h : c.Known id) (id' : ι) : (c.activate id').Known id := by
  unfold Known
  rw [name_activate]
  exact h

theorem Known.rename (h : c.Known id) (id' : ι) (text : String) : (c.rename id' text).Known id := by
  unfold Catalog.rename
  split_ifs
  · exact h.create id' text
  · exact h

theorem Known.put [DecidableEq κ] (h : c.Known id) (id' : ι) (key : κ) (l : List α) :
    (c.put id' key l).Known id := by
  unfold Known
  rw [name_put]
  exact h

end Stay

end Catalog
