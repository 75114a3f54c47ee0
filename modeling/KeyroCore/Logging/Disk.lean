import Mathlib.Data.List.Nodup
import Mathlib.Data.PEquiv

/-!
# The files of a directory

Each file has a content and a modification time.  A file that is removed or replaced loses its name
and stays writable through an open handle, which is its place in the list of all files.
-/

namespace KeyroCore

/-- `OsString`: Unicode text, or bytes that are not. -/
inductive FileName where
  | text (name : String)
  | raw (bytes : List UInt8)
  deriving DecidableEq

/-- `SystemTime`, in nanoseconds since the Unix epoch. -/
abbrev Time := ℤ

structure Inode where
  name : Option FileName
  content : List UInt8
  modified : Time
  deriving DecidableEq

/-- All files that the directory has held, in the order of their creation. -/
structure Disk where
  files : List Inode
  nodup_names : (files.filterMap Inode.name).Nodup
  deriving DecidableEq

namespace Disk

def names (d : Disk) : List FileName := d.files.filterMap Inode.name

/-- The bytes of a file, named or not. -/
def content (d : Disk) (i : ℕ) : List UInt8 := ((d.files[i]?).map Inode.content).getD []

/-- The file of a name. -/
def find (d : Disk) (name : FileName) : Option ℕ :=
  d.files.findIdx? fun f => f.name = some name

def lookup (d : Disk) (name : FileName) : Option Inode :=
  d.files.find? fun f => f.name = some name

theorem ext_files {d d' : Disk} (h : d.files = d'.files) : d = d' := by
  cases d
  cases d'
  cases h
  rfl

theorem mem_names {d : Disk} {name : FileName} : name ∈ d.names ↔
    ∃ (i : ℕ) (f : Inode), d.files[i]? = some f ∧ f.name = some name := by
  unfold names
  rw [List.mem_filterMap]
  constructor
  · rintro ⟨f, hf, hn⟩
    obtain ⟨i, hi⟩ := List.mem_iff_getElem?.1 hf
    exact ⟨i, f, hi, hn⟩
  · rintro ⟨i, f, hi, hn⟩
    exact ⟨f, List.mem_of_getElem? hi, hn⟩

/-- Two files do not share a name. -/
theorem name_unique {fs : List Inode} (nodup : (fs.filterMap Inode.name).Nodup) {i j : ℕ}
    {f g : Inode} {name : FileName} (hi : fs[i]? = some f) (hj : fs[j]? = some g)
    (hf : f.name = some name) (hg : g.name = some name) : i = j := by
  induction fs generalizing i j with
  | nil => cases hi
  | cons x fs ih =>
    have notAgain {k : ℕ} {y : Inode} (hx : x.name = some name) (hk : fs[k]? = some y)
        (hy : y.name = some name) : False := by
      rw [List.filterMap_cons_some hx, List.nodup_cons] at nodup
      exact nodup.1 (List.mem_filterMap.2 ⟨y, List.mem_of_getElem? hk, hy⟩)
    cases i with
    | zero =>
      cases hi
      cases j with
      | zero => rfl
      | succ j => exact absurd (notAgain hf hj hg) not_false
    | succ i =>
      cases j with
      | zero =>
        cases hj
        exact absurd (notAgain hg hi hf) not_false
      | succ j =>
        refine congrArg (· + 1) (ih ?_ hi hj)
        cases hx : x.name with
        | none => rwa [List.filterMap_cons_none hx] at nodup
        | some n =>
          rw [List.filterMap_cons_some hx, List.nodup_cons] at nodup
          exact nodup.2

theorem find_eq_some_iff {d : Disk} {name : FileName} {i : ℕ} :
    d.find name = some i ↔ ∃ f : Inode, d.files[i]? = some f ∧ f.name = some name := by
  unfold find
  constructor
  · intro h
    obtain ⟨lt, hn, -⟩ := List.findIdx?_eq_some_iff_getElem.1 h
    exact ⟨_, List.getElem?_eq_getElem lt, of_decide_eq_true hn⟩
  · rintro ⟨f, hf, hn⟩
    rcases h : d.files.findIdx? (fun f => f.name = some name) with _ | j
    · have none := List.findIdx?_eq_none_iff.1 h f (List.mem_of_getElem? hf)
      simp [hn] at none
    · obtain ⟨lt, hj, -⟩ := List.findIdx?_eq_some_iff_getElem.1 h
      have same := name_unique d.nodup_names (List.getElem?_eq_getElem lt) hf
        (of_decide_eq_true hj) hn
      subst same
      exact h

theorem lookup_eq_some_iff {d : Disk} {name : FileName} {f : Inode} :
    d.lookup name = some f ↔ f ∈ d.files ∧ f.name = some name := by
  unfold lookup
  constructor
  · intro h
    exact ⟨List.mem_of_find?_eq_some h, of_decide_eq_true (List.find?_some h :)⟩
  · rintro ⟨hf, hn⟩
    rcases h : d.files.find? (fun f => f.name = some name) with _ | g
    · have none := List.find?_eq_none.1 h f hf
      simp [hn] at none
    · obtain ⟨i, hi⟩ := List.mem_iff_getElem?.1 hf
      obtain ⟨j, hj⟩ := List.mem_iff_getElem?.1 (List.mem_of_find?_eq_some h)
      have same := name_unique d.nodup_names hi hj hn (of_decide_eq_true (List.find?_some h :))
      rw [same, hj] at hi
      exact h.trans hi

theorem find_isSome_iff {d : Disk} {name : FileName} : (d.find name).isSome ↔ name ∈ d.names := by
  rw [Option.isSome_iff_exists, mem_names]
  exact exists_congr fun i => find_eq_some_iff

theorem find_eq_none_iff {d : Disk} {name : FileName} : d.find name = none ↔ name ∉ d.names := by
  rw [← find_isSome_iff, Option.not_isSome_iff_eq_none]

theorem lt_of_find {d : Disk} {name : FileName} {i : ℕ} (h : d.find name = some i) :
    i < d.files.length := by
  obtain ⟨f, hf, -⟩ := find_eq_some_iff.1 h
  exact (List.getElem?_eq_some_iff.1 hf).1

/-! ## Changing names -/

/-- Rename or remove files; contents and modification times stay. -/
def relabel (d : Disk) (e : FileName ≃. FileName) : Disk where
  files := d.files.map fun f => { f with name := f.name.bind e }
  nodup_names := by
    rw [List.filterMap_map]
    have eq : (d.files.filterMap fun f => f.name.bind e) = (d.files.filterMap Inode.name).filterMap e :=
      (List.filterMap_filterMap).symm
    show (d.files.filterMap fun f => f.name.bind e).Nodup
    rw [eq]
    exact List.Nodup.filterMap (fun a b c ha hb => PEquiv.inj e ha hb) d.nodup_names

theorem getElem?_relabel (d : Disk) (e : FileName ≃. FileName) (i : ℕ) :
    (d.relabel e).files[i]? = (d.files[i]?).map fun f => { f with name := f.name.bind e } :=
  List.getElem?_map

@[simp] theorem length_relabel (d : Disk) (e : FileName ≃. FileName) :
    (d.relabel e).files.length = d.files.length := List.length_map _

@[simp] theorem names_relabel (d : Disk) (e : FileName ≃. FileName) :
    (d.relabel e).names = d.names.filterMap e := by
  unfold names relabel
  rw [List.filterMap_map, List.filterMap_filterMap]
  rfl

@[simp] theorem content_relabel (d : Disk) (e : FileName ≃. FileName) (i : ℕ) :
    (d.relabel e).content i = d.content i := by
  unfold content
  rw [getElem?_relabel, Option.map_map]
  rfl

/-- The file of a name is the file of the name it was given. -/
theorem find_relabel {d : Disk} {e : FileName ≃. FileName} {name name' : FileName}
    (h : e name = some name') : (d.relabel e).find name' = d.find name := by
  refine Option.ext fun i => ?_
  rw [find_eq_some_iff, find_eq_some_iff]
  constructor
  · rintro ⟨f, hf, hn⟩
    rw [getElem?_relabel, Option.map_eq_some_iff] at hf
    obtain ⟨g, hg, rfl⟩ := hf
    obtain ⟨n, hn', hen⟩ := Option.bind_eq_some_iff.1 hn
    exact ⟨g, hg, hn'.trans (congrArg some (PEquiv.inj e hen h))⟩
  · rintro ⟨g, hg, hn⟩
    refine ⟨{ g with name := g.name.bind e }, ?_, ?_⟩
    · rw [getElem?_relabel, hg]
      rfl
    · show g.name.bind e = _
      rw [hn]
      exact h

/-- A name that no file is given names no file. -/
theorem find_relabel_none {d : Disk} {e : FileName ≃. FileName} {name : FileName}
    (h : ∀ n, e n ≠ some name) : (d.relabel e).find name = none := by
  rw [find_eq_none_iff, names_relabel, List.mem_filterMap]
  rintro ⟨n, -, hn⟩
  exact h n hn

theorem relabel_relabel (d : Disk) (e e' : FileName ≃. FileName) :
    (d.relabel e).relabel e' = d.relabel (e.trans e') := by
  refine ext_files ?_
  show (d.files.map _).map _ = d.files.map _
  rw [List.map_map]
  refine List.map_congr_left fun f _ => ?_
  show Inode.mk ((f.name.bind e).bind e') _ _ = Inode.mk (f.name.bind (e.trans e')) _ _
  congr 1
  cases f.name <;> rfl

/-- A relabelling that keeps every name of the directory changes nothing. -/
theorem relabel_eq_self {d : Disk} {e : FileName ≃. FileName}
    (h : ∀ name ∈ d.names, e name = some name) : d.relabel e = d := by
  refine ext_files ?_
  show d.files.map _ = d.files
  conv_rhs => rw [← List.map_id d.files]
  refine List.map_congr_left fun f hf => ?_
  have same : f.name.bind e = f.name := by
    rcases hn : f.name with _ | name
    · rfl
    · exact h name (List.mem_filterMap.2 ⟨f, hf, hn⟩)
  rw [same]
  rfl

/-- Take the names in `gone` away. -/
def without (gone : List FileName) : FileName ≃. FileName where
  toFun name := if name ∈ gone then none else some name
  invFun name := if name ∈ gone then none else some name
  inv a b := by
    split_ifs with ha hb hb
    · simp
    · simp
      rintro rfl
      exact hb ha
    · simp
      rintro rfl
      exact ha hb
    · simp [eq_comm]

/-- Give the name `target` to the file `source`. -/
def moving (source target : FileName) : FileName ≃. FileName where
  toFun name := if name = source then some target else if name = target then none else some name
  invFun name := if name = target then some source else if name = source then none else some name
  inv a b := by grind

def unlink (d : Disk) (gone : List FileName) : Disk := d.relabel (without gone)

def rename (d : Disk) (source target : FileName) : Disk := d.relabel (moving source target)

theorem without_apply (gone : List FileName) (name : FileName) :
    without gone name = if name ∈ gone then none else some name := rfl

theorem moving_apply (source target name : FileName) : moving source target name =
    if name = source then some target else if name = target then none else some name := rfl

theorem names_unlink (d : Disk) (gone : List FileName) :
    (d.unlink gone).names = d.names.filter (· ∉ gone) := by
  unfold unlink
  rw [names_relabel, ← List.filterMap_eq_filter]
  refine List.filterMap_congr fun name _ => ?_
  rw [without_apply]
  by_cases h : name ∈ gone <;> simp [h, Option.guard]

theorem find_unlink (d : Disk) (gone : List FileName) (name : FileName) :
    (d.unlink gone).find name = if name ∈ gone then none else d.find name := by
  by_cases h : name ∈ gone
  · rw [if_pos h]
    refine find_relabel_none fun n hn => ?_
    rw [without_apply] at hn
    split_ifs at hn with hm
    exact hm (Option.some.inj hn ▸ h)
  · rw [if_neg h]
    exact find_relabel (by rw [without_apply, if_neg h])

theorem lookup_unlink (d : Disk) (gone : List FileName) (name : FileName) :
    (d.unlink gone).lookup name = if name ∈ gone then none else d.lookup name := by
  refine Option.ext fun f => ?_
  rw [lookup_eq_some_iff]
  constructor
  · rintro ⟨hf, hn⟩
    obtain ⟨g, hg, rfl⟩ := List.mem_map.1 hf
    obtain ⟨name', hn', he⟩ := Option.bind_eq_some_iff.1 hn
    rw [without_apply] at he
    split_ifs at he with gone'
    cases he
    rw [if_neg gone', lookup_eq_some_iff]
    have same : g.name.bind (without gone) = g.name := by
      rw [hn', Option.bind_some, without_apply, if_neg gone']
    rw [same]
    exact ⟨hg, hn'⟩
  · intro h
    split_ifs at h with gone'
    obtain ⟨hf, hn⟩ := lookup_eq_some_iff.1 h
    have same : f.name.bind (without gone) = f.name := by
      rw [hn, Option.bind_some, without_apply, if_neg gone']
    refine ⟨List.mem_map.2 ⟨f, hf, ?_⟩, hn⟩
    rw [same]

@[simp] theorem content_unlink (d : Disk) (gone : List FileName) (i : ℕ) :
    (d.unlink gone).content i = d.content i := content_relabel _ _ _

@[simp] theorem unlink_nil (d : Disk) : d.unlink [] = d :=
  relabel_eq_self fun name _ => by rw [without_apply, if_neg (List.not_mem_nil)]

theorem unlink_unlink (d : Disk) (gone gone' : List FileName) :
    (d.unlink gone).unlink gone' = d.unlink (gone ++ gone') := by
  unfold unlink
  rw [relabel_relabel]
  congr 1
  refine PEquiv.ext fun name => ?_
  show (without gone name).bind (without gone') = without (gone ++ gone') name
  rw [without_apply, without_apply]
  by_cases h : name ∈ gone
  · simp [h]
  · simp [h, without_apply]

/-! ## Creating and extending files -/

/-- A new empty file. -/
def create (d : Disk) (name : FileName) (stamp : Time) (absent : d.find name = none) : Disk where
  files := d.files ++ [⟨some name, [], stamp⟩]
  nodup_names := by
    rw [List.filterMap_append]
    exact List.nodup_append_comm.1
      (List.nodup_cons.2 ⟨find_eq_none_iff.1 absent, d.nodup_names⟩)

theorem filterMap_modify {α β : Type} {g : α → Option β} {f : α → α} (same : ∀ a, g (f a) = g a)
    (l : List α) (i : ℕ) : (l.modify i f).filterMap g = l.filterMap g := by
  induction l generalizing i with
  | nil => rw [List.modify_nil]
  | cons a l ih =>
    cases i with
    | zero => rw [List.modify_zero_cons, List.filterMap_cons, List.filterMap_cons, same]
    | succ i => rw [List.modify_succ_cons, List.filterMap_cons, List.filterMap_cons, ih]

/-- Add bytes at the end of a file. -/
def append (d : Disk) (i : ℕ) (bytes : List UInt8) (stamp : Time) : Disk where
  files := d.files.modify i fun f => { f with content := f.content ++ bytes, modified := stamp }
  nodup_names := by
    rw [filterMap_modify (g := Inode.name)
      (f := fun f => { f with content := f.content ++ bytes, modified := stamp }) fun _ => rfl]
    exact d.nodup_names

section Fields

variable (d : Disk) (i : ℕ) (bytes : List UInt8) (stamp : Time) {name : FileName}
  (absent : d.find name = none)

theorem getElem?_create (j : ℕ) : (d.create name stamp absent).files[j]? =
    if j = d.files.length then some ⟨some name, [], stamp⟩ else d.files[j]? := by
  show (d.files ++ [_])[j]? = _
  rw [List.getElem?_append]
  grind

@[simp] theorem length_create :
    (d.create name stamp absent).files.length = d.files.length + 1 := List.length_append

@[simp] theorem names_create : (d.create name stamp absent).names = d.names ++ [name] :=
  List.filterMap_append

@[simp] theorem content_create (j : ℕ) :
    (d.create name stamp absent).content j = d.content j := by
  unfold content
  rw [getElem?_create]
  split_ifs with h
  · rw [h, List.getElem?_eq_none (Nat.le_refl _)]
    rfl
  · rfl

theorem find_create (name' : FileName) : (d.create name stamp absent).find name' =
    if name' = name then some d.files.length else d.find name' := by
  refine Option.ext fun j => ?_
  rw [find_eq_some_iff]
  by_cases h : name' = name
  · subst h
    rw [if_pos rfl]
    constructor
    · rintro ⟨f, hf, hn⟩
      rw [getElem?_create] at hf
      split_ifs at hf with hj
      · rw [hj]
      · exact absurd (find_eq_some_iff.2 ⟨f, hf, hn⟩) (by simp [absent])
    · intro hj
      cases hj
      exact ⟨_, by rw [getElem?_create, if_pos rfl], rfl⟩
  · rw [if_neg h, find_eq_some_iff]
    refine exists_congr fun f => and_congr_left fun hn => ?_
    rw [getElem?_create]
    split_ifs with hj
    · rw [hj, List.getElem?_eq_none (Nat.le_refl _)]
      constructor
      · intro hf
        cases hf
        exact absurd (Option.some.inj hn).symm h
      · nofun
    · rfl

theorem getElem?_append (j : ℕ) : (d.append i bytes stamp).files[j]? =
    if i = j then (d.files[j]?).map fun f =>
      { f with content := f.content ++ bytes, modified := stamp } else d.files[j]? := by
  show (d.files.modify i _)[j]? = _
  rw [List.getElem?_modify]
  split_ifs <;> simp

@[simp] theorem length_append : (d.append i bytes stamp).files.length = d.files.length :=
  List.length_modify _ _ _

@[simp] theorem names_append : (d.append i bytes stamp).names = d.names :=
  filterMap_modify (g := Inode.name)
    (f := fun f => { f with content := f.content ++ bytes, modified := stamp }) (fun _ => rfl) _ _

@[simp] theorem find_append : (d.append i bytes stamp).find name = d.find name := by
  refine Option.ext fun j => ?_
  rw [find_eq_some_iff, find_eq_some_iff]
  simp only [getElem?_append]
  split_ifs
  · simp
  · rfl

theorem content_append {j : ℕ} (lt : i < d.files.length) :
    (d.append i bytes stamp).content j = d.content j ++ if i = j then bytes else [] := by
  unfold content
  rw [getElem?_append]
  split_ifs with h
  · subst h
    rw [List.getElem?_eq_getElem lt]
    rfl
  · rw [List.append_nil]

end Fields

end Disk

end KeyroCore
