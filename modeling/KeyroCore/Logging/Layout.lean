import KeyroCore.Logging.Limits

/-!
# The log as a list of files

While only the writer touches its directory, the directory is described by the rotated files, newest
first, and the current log.  Creating, extending, rotating and cleaning up act on this description.
-/

open Effect Program Fallible

namespace KeyroCore

/-- A log file: its bytes and its modification time. -/
structure Segment where
  bytes : List UInt8
  modified : Time
  deriving DecidableEq

def Inode.segment (f : Inode) : Segment := ⟨f.content, f.modified⟩

/-- The entry that a clean-up collects for a log file. -/
def Segment.entry (f : Segment) (path : FileName) : LogFile where
  isCurrent := path = currentLog
  path := path
  modified := f.modified
  size := f.bytes.length

namespace Disk

/-- The log file of a name. -/
def segment (d : Disk) (name : FileName) : Option Segment := (d.lookup name).map Inode.segment

theorem segment_eq_some_iff {d : Disk} {name : FileName} {f : Segment} :
    d.segment name = some f ↔
      ∃ g ∈ d.files, g.name = some name ∧ g.segment = f := by
  unfold segment
  rw [Option.map_eq_some_iff]
  simp only [lookup_eq_some_iff, and_assoc]

theorem segment_isSome_iff {d : Disk} {name : FileName} :
    (d.segment name).isSome ↔ name ∈ d.names := by
  rw [Option.isSome_iff_exists]
  constructor
  · rintro ⟨f, hf⟩
    obtain ⟨g, hg, hn, -⟩ := segment_eq_some_iff.1 hf
    exact List.mem_filterMap.2 ⟨g, hg, hn⟩
  · intro known
    obtain ⟨g, hg, hn⟩ := List.mem_filterMap.1 known
    exact ⟨g.segment, segment_eq_some_iff.2 ⟨g, hg, hn, rfl⟩⟩

/-- The log file of a name is the one of the name it was given. -/
theorem segment_relabel {d : Disk} {e : FileName ≃. FileName} {name name' : FileName}
    (h : e name = some name') : (d.relabel e).segment name' = d.segment name := by
  refine Option.ext fun f => ?_
  rw [segment_eq_some_iff, segment_eq_some_iff]
  constructor
  · rintro ⟨g, hg, hn, rfl⟩
    obtain ⟨g', hg', rfl⟩ := List.mem_map.1 hg
    obtain ⟨n, hn', he⟩ := Option.bind_eq_some_iff.1 hn
    exact ⟨g', hg', hn'.trans (congrArg some (PEquiv.inj e he h)), rfl⟩
  · rintro ⟨g, hg, hn, rfl⟩
    refine ⟨_, List.mem_map_of_mem hg, ?_, rfl⟩
    show g.name.bind e = _
    rw [hn]
    exact h

theorem segment_relabel_none {d : Disk} {e : FileName ≃. FileName} {name : FileName}
    (h : ∀ n, e n ≠ some name) : (d.relabel e).segment name = none := by
  rw [← Option.not_isSome_iff_eq_none, segment_isSome_iff]
  exact find_eq_none_iff.1 (find_relabel_none h)

theorem segment_unlink (d : Disk) (gone : List FileName) (name : FileName) :
    (d.unlink gone).segment name = if name ∈ gone then none else d.segment name := by
  unfold segment
  rw [lookup_unlink]
  split_ifs <;> rfl

theorem segment_create {d : Disk} {name : FileName} (stamp : Time) (absent : d.find name = none)
    (name' : FileName) : (d.create name stamp absent).segment name' =
      if name' = name then some ⟨[], stamp⟩ else d.segment name' := by
  refine Option.ext fun f => ?_
  rw [segment_eq_some_iff]
  show (∃ g ∈ d.files ++ [_], _) ↔ _
  simp only [List.mem_append, List.mem_singleton, or_and_right, exists_or, exists_eq_left]
  rw [← segment_eq_some_iff]
  split_ifs with h
  · subst h
    have none : d.segment name' = none := by
      rw [← Option.not_isSome_iff_eq_none, segment_isSome_iff]
      exact find_eq_none_iff.1 absent
    simp [none, Inode.segment]
  · simp [Ne.symm h]

theorem segment_eq_bind_find (d : Disk) (name : FileName) :
    d.segment name = (d.find name).bind fun i => (d.files[i]?).map Inode.segment := by
  refine Option.ext fun f => ?_
  rw [segment_eq_some_iff, Option.bind_eq_some_iff]
  constructor
  · rintro ⟨g, hg, hn, rfl⟩
    obtain ⟨i, hi⟩ := List.mem_iff_getElem?.1 hg
    exact ⟨i, find_eq_some_iff.2 ⟨g, hi, hn⟩, by rw [hi]; rfl⟩
  · rintro ⟨i, found, hf⟩
    obtain ⟨g, hg, hn⟩ := find_eq_some_iff.1 found
    rw [hg, Option.map_some] at hf
    exact ⟨g, List.mem_of_getElem? hg, hn, Option.some.inj hf⟩

theorem segment_append {d : Disk} {i : ℕ} {name : FileName} (found : d.find name = some i)
    (bytes : List UInt8) (stamp : Time) (name' : FileName) :
    (d.append i bytes stamp).segment name' = if name' = name then
      (d.segment name).map fun f => ⟨f.bytes ++ bytes, stamp⟩ else d.segment name' := by
  rw [segment_eq_bind_find, find_append]
  split_ifs with h
  · subst h
    rw [segment_eq_bind_find, found, Option.bind_some, Option.bind_some, getElem?_append,
      if_pos rfl, Option.map_map, Option.map_map]
    rfl
  · rw [segment_eq_bind_find]
    refine Option.bind_congr fun j hj => ?_
    rw [getElem?_append, if_neg]
    rintro rfl
    obtain ⟨f, hf, hn⟩ := find_eq_some_iff.1 found
    obtain ⟨g, hg, hn'⟩ := find_eq_some_iff.1 hj
    rw [hf] at hg
    cases hg
    exact h (Option.some.inj (hn'.symm.trans hn))

theorem mem_logFiles_iff {d : Disk} {logFile : LogFile} : logFile ∈ d.logFiles ↔
    ∃ name, isKeyroLog name = true ∧ ∃ f, d.segment name = some f ∧ f.entry name = logFile := by
  rw [mem_logFiles]
  constructor
  · rintro ⟨g, hg, h⟩
    obtain ⟨name, hn, isLog, rfl⟩ := Inode.logFile_eq_some_iff.1 h
    exact ⟨name, isLog, g.segment, segment_eq_some_iff.2 ⟨g, hg, hn, rfl⟩, rfl⟩
  · rintro ⟨name, isLog, f, hf, rfl⟩
    obtain ⟨g, hg, hn, rfl⟩ := segment_eq_some_iff.1 hf
    exact ⟨g, hg, Inode.logFile_eq_some_iff.2 ⟨name, hn, isLog, rfl⟩⟩

/-- The directory holds the rotated files, newest first, the current log, and nothing else. -/
structure Layout (d : Disk) (rotated : List Segment) (current : Option Segment) : Prop where
  rotated : ∀ i, d.segment (rotatedLog i) = rotated[i]?
  current : d.segment currentLog = current
  others : ∀ name ∈ d.names, name = currentLog ∨ ∃ i, name = rotatedLog i

namespace Layout

variable {d : Disk} {rotated : List Segment} {current : Option Segment}

theorem absent (h : d.Layout rotated none) : d.find currentLog = none := by
  rw [Disk.find_eq_none_iff, ← segment_isSome_iff, h.current]
  nofun

theorem unlink (h : d.Layout rotated current) {j : ℕ} {gone : List FileName}
    (names : ∀ i, rotatedLog i ∈ gone ↔ j ≤ i ∧ i < rotated.length) (stays : currentLog ∉ gone) :
    (d.unlink gone).Layout (rotated.take j) current where
  rotated i := by
    rw [segment_unlink, h.rotated, List.getElem?_take]
    split_ifs with removed below below
    · rw [names] at removed
      omega
    · rfl
    · rfl
    · rw [names] at removed
      rw [List.getElem?_eq_none (by omega)]
  current := by rw [segment_unlink, if_neg stays, h.current]
  others name mem := by
    rw [names_unlink, List.mem_filter] at mem
    exact h.others name mem.1

theorem unlinkCurrent (h : d.Layout rotated current) :
    (d.unlink [currentLog]).Layout rotated none where
  rotated i := by
    rw [segment_unlink, if_neg fun mem => rotatedLog_ne_currentLog i (List.mem_singleton.1 mem),
      h.rotated]
  current := by rw [segment_unlink, if_pos (List.mem_singleton_self _)]
  others name mem := by
    rw [names_unlink, List.mem_filter] at mem
    exact h.others name mem.1

theorem create (h : d.Layout rotated none) (stamp : Time) (absent : d.find currentLog = none) :
    (d.create currentLog stamp absent).Layout rotated (some ⟨[], stamp⟩) where
  rotated i := by rw [segment_create, if_neg (rotatedLog_ne_currentLog i), h.rotated]
  current := by rw [segment_create, if_pos rfl]
  others name mem := by
    rw [names_create] at mem
    rcases List.mem_append.1 mem with mem | mem
    · exact h.others name mem
    · exact .inl (List.mem_singleton.1 mem)

theorem append {f : Segment} (h : d.Layout rotated (some f)) {i : ℕ}
    (found : d.find currentLog = some i) (bytes : List UInt8) (stamp : Time) :
    (d.append i bytes stamp).Layout rotated (some ⟨f.bytes ++ bytes, stamp⟩) where
  rotated i := by rw [segment_append found, if_neg (rotatedLog_ne_currentLog i), h.rotated]
  current := by rw [segment_append found, if_pos rfl, h.current, Option.map_some]
  others name mem := by
    rw [names_append] at mem
    exact h.others name mem

/-- A rotation puts the current log in front of the rotated files and drops the last one if there
are too many. -/
theorem relabel {f : Segment} (h : d.Layout rotated (some f)) {m : ℕ} (pos : 0 < m)
    (count : rotated.length ≤ m) :
    (d.relabel (rotation m)).Layout ((f :: rotated).take m) none where
  rotated i := by
    rw [List.getElem?_take]
    by_cases below : i < m
    · rw [if_pos below]
      cases i with
      | zero =>
        rw [segment_relabel (rotation_currentLog m), h.current]
        rfl
      | succ i =>
        have moved : rotation m (rotatedLog i) = some (rotatedLog (i + 1)) := by
          rw [rotation_rotatedLog pos, if_pos below]
        rw [segment_relabel moved, h.rotated, List.getElem?_cons_succ]
    · have kept : rotation m (rotatedLog i) = some (rotatedLog i) := by
        rw [rotation_rotatedLog pos, if_neg (by omega), if_neg (by omega)]
      rw [if_neg below, segment_relabel kept, h.rotated, List.getElem?_eq_none (by omega)]
  current := segment_relabel_none fun name => rotation_ne_currentLog pos name
  others name mem := by
    rw [names_relabel, List.mem_filterMap] at mem
    obtain ⟨name', mem', moved⟩ := mem
    refine .inr ?_
    rcases h.others name' mem' with rfl | ⟨i, rfl⟩
    · rw [rotation_currentLog] at moved
      exact ⟨0, (Option.some.inj moved).symm⟩
    · rw [rotation_rotatedLog pos] at moved
      split_ifs at moved
      · exact ⟨i + 1, (Option.some.inj moved).symm⟩
      · exact ⟨i, (Option.some.inj moved).symm⟩

end Layout

end Disk

/-! ## Clean-ups -/

/-- The entries of the rotated files. -/
def rotatedEntries (rotated : List Segment) : List LogFile :=
  rotated.mapIdx fun i f => f.entry (rotatedLog i)

@[simp] theorem getElem?_rotatedEntries (rotated : List Segment) (i : ℕ) :
    (rotatedEntries rotated)[i]? = (rotated[i]?).map fun f => f.entry (rotatedLog i) :=
  List.getElem?_mapIdx

@[simp] theorem length_rotatedEntries (rotated : List Segment) :
    (rotatedEntries rotated).length = rotated.length := List.length_mapIdx

theorem mem_rotatedEntries {rotated : List Segment} {logFile : LogFile} :
    logFile ∈ rotatedEntries rotated ↔
      ∃ (i : ℕ) (f : Segment), rotated[i]? = some f ∧ f.entry (rotatedLog i) = logFile := by
  rw [List.mem_iff_getElem?]
  simp only [getElem?_rotatedEntries, Option.map_eq_some_iff]

theorem isCurrent_of_mem_rotatedEntries {rotated : List Segment} {logFile : LogFile}
    (h : logFile ∈ rotatedEntries rotated) : logFile.isCurrent = false := by
  obtain ⟨i, f, -, rfl⟩ := mem_rotatedEntries.1 h
  exact decide_eq_false (rotatedLog_ne_currentLog i)

theorem nodup_rotatedEntries (rotated : List Segment) : (rotatedEntries rotated).Nodup := by
  refine List.nodup_iff_getElem?_ne_getElem?.2 fun i j lt hj same => ?_
  rw [length_rotatedEntries] at hj
  rw [getElem?_rotatedEntries, getElem?_rotatedEntries, List.getElem?_eq_getElem (by omega),
    List.getElem?_eq_getElem hj] at same
  have paths := rotatedLog_inj.1 (congrArg LogFile.path (Option.some.inj same))
  omega

/-- The entry of the current log, if there is one. -/
def currentEntries (current : Option Segment) : List LogFile :=
  (current.map fun f => f.entry currentLog).toList

theorem isCurrent_of_mem_currentEntries {current : Option Segment} {logFile : LogFile}
    (h : logFile ∈ currentEntries current) : logFile.isCurrent = true := by
  obtain ⟨f, -, rfl⟩ := Option.map_eq_some_iff.1 (Option.mem_toList.1 h)
  exact decide_eq_true (rfl : currentLog = currentLog)

instance : Std.TransCmp fun a b : LogFile => compare b.modified a.modified where
  eq_swap {a b} := by
    have swap : compare b.modified a.modified = (compare a.modified b.modified).swap :=
      Std.OrientedCmp.eq_swap
    exact swap
  isLE_trans {a b c} h h' := by
    have trans : (compare c.modified a.modified).isLE := Std.TransCmp.isLE_trans h' h
    exact trans

namespace Disk.Layout

variable {d : Disk} {rotated : List Segment} {current : Option Segment}

theorem logFiles_perm (h : d.Layout rotated current) :
    d.logFiles.Perm (currentEntries current ++ rotatedEntries rotated) := by
  have apart : (currentEntries current ++ rotatedEntries rotated).Nodup := by
    refine List.nodup_append.2 ⟨?_, nodup_rotatedEntries rotated, fun a ha b hb same => ?_⟩
    · unfold currentEntries
      cases current with
      | none => exact List.nodup_nil
      | some f => exact List.nodup_singleton _
    · have isCurrent := isCurrent_of_mem_currentEntries ha
      rw [same, isCurrent_of_mem_rotatedEntries hb] at isCurrent
      cases isCurrent
  refine (List.perm_ext_iff_of_nodup (List.Nodup.of_map _ Disk.nodup_paths) apart).2 fun x => ?_
  rw [mem_logFiles_iff, List.mem_append, mem_rotatedEntries]
  constructor
  · rintro ⟨name, -, f, hf, rfl⟩
    rcases h.others name (segment_isSome_iff.1 (by rw [hf]; rfl)) with rfl | ⟨i, rfl⟩
    · rw [h.current] at hf
      subst hf
      exact .inl (List.mem_singleton_self _)
    · rw [h.rotated] at hf
      exact .inr ⟨i, f, hf, rfl⟩
  · rintro (mem | ⟨i, f, hf, rfl⟩)
    · obtain ⟨f, hf, rfl⟩ := Option.map_eq_some_iff.1 (Option.mem_toList.1 mem)
      exact ⟨currentLog, isKeyroLog_currentLog, f, h.current.trans hf, rfl⟩
    · exact ⟨rotatedLog i, isKeyroLog_rotatedLog i, f, (h.rotated i).trans hf, rfl⟩

end Disk.Layout

/-- A file that does not fit next to the current log and the newer files is dropped together with all
older ones: none of these would fit in its place. -/
def LogRetention.DropsOldest (retention : LogRetention) (d : Disk) : Prop :=
  ∀ f ∈ d.logFiles, ∀ g ∈ d.logFiles, f.isCurrent = false → g.isCurrent = false →
    g.modified < f.modified →
    let newer := d.logFiles.filter fun x => x.isCurrent ∨ f.modified < x.modified
    retention.Fits (Greedy.total LogFile.size newer) →
    ¬ retention.Fits (Greedy.total LogFile.size newer + f.size) →
    ¬ retention.Fits (Greedy.total LogFile.size newer + g.size)

instance (retention : LogRetention) : DecidablePred retention.DropsOldest := fun d =>
  inferInstanceAs (Decidable (∀ f ∈ d.logFiles, ∀ g ∈ d.logFiles, f.isCurrent = false →
    g.isCurrent = false → g.modified < f.modified →
    retention.Fits (Greedy.total LogFile.size
      (d.logFiles.filter fun x => x.isCurrent ∨ f.modified < x.modified)) →
    ¬ retention.Fits (Greedy.total LogFile.size
      (d.logFiles.filter fun x => x.isCurrent ∨ f.modified < x.modified) + f.size) →
    ¬ retention.Fits (Greedy.total LogFile.size
      (d.logFiles.filter fun x => x.isCurrent ∨ f.modified < x.modified) + g.size)))

namespace Disk.Layout

variable {d : Disk} {rotated : List Segment} {current : Option Segment} {retention : LogRetention}
  {cutoff : Time} {order : List FileName}

theorem pairwise_entries (sorted : rotated.Pairwise fun a b => b.modified < a.modified) :
    (rotatedEntries rotated).Pairwise fun a b => b.modified < a.modified := by
  refine List.pairwise_iff_getElem.2 fun i j hi hj lt => ?_
  have hi' : i < rotated.length := length_rotatedEntries rotated ▸ hi
  have hj' : j < rotated.length := length_rotatedEntries rotated ▸ hj
  have first := getElem?_rotatedEntries rotated i
  have second := getElem?_rotatedEntries rotated j
  rw [List.getElem?_eq_getElem hi, List.getElem?_eq_getElem hi'] at first
  rw [List.getElem?_eq_getElem hj, List.getElem?_eq_getElem hj'] at second
  rw [Option.some.inj first, Option.some.inj second]
  exact List.pairwise_iff_getElem.1 sorted i j hi' hj' lt

/-- The files newer than one of a list, newest first, are those before it. -/
theorem filter_newer {as : List LogFile} (sorted : as.Pairwise fun a b => b.modified < a.modified)
    {i : ℕ} {a : LogFile} (ha : as[i]? = some a) :
    as.filter (fun x => decide (a.modified < x.modified)) = as.take i := by
  obtain ⟨lt, eq⟩ := List.getElem?_eq_some_iff.1 ha
  have split : as = as.take i ++ a :: as.drop (i + 1) := by
    rw [← eq, ← List.drop_eq_getElem_cons lt, List.take_append_drop]
  have parts := sorted
  rw [split, List.pairwise_append, List.pairwise_cons] at parts
  obtain ⟨-, ⟨later, -⟩, earlier⟩ := parts
  conv_lhs => rw [split]
  rw [List.filter_append, List.filter_cons_of_neg (by simp), List.filter_eq_self.2 fun x hx => ?_,
    List.filter_eq_nil_iff.2 fun x hx => ?_, List.append_nil]
  · rw [decide_eq_true_iff, not_lt]
    exact le_of_lt (later x hx)
  · exact decide_eq_true (earlier x hx _ (List.mem_cons_self ..))

theorem others_eq (h : d.Layout rotated current) (perm : order.Perm d.names)
    (sorted : rotated.Pairwise fun a b => b.modified < a.modified)
    (fresh : ∀ x ∈ d.logFiles, ¬ retention.Discards cutoff x) :
    retention.others cutoff (d.listedLogs order) = rotatedEntries rotated := by
  have listed := Disk.listedLogs_perm perm
  have all : retention.eligible cutoff (d.listedLogs order) = d.listedLogs order :=
    List.filter_eq_self.2 fun x hx => decide_eq_true (fresh x (listed.mem_iff.1 hx))
  have same : (retention.others cutoff (d.listedLogs order)).Perm (rotatedEntries rotated) := by
    unfold LogRetention.others newestFirst
    rw [all]
    refine ((Rows.orderBy_perm _ _).trans (listed.trans h.logFiles_perm)).filter _ |>.trans ?_
    rw [List.filter_append, List.filter_eq_nil_iff.2 fun x hx => ?_,
      List.filter_eq_self.2 fun x hx => ?_, List.nil_append]
    · rw [isCurrent_of_mem_rotatedEntries hx]
      rfl
    · rw [isCurrent_of_mem_currentEntries hx]
      decide
  have newest : (retention.others cutoff (d.listedLogs order)).Pairwise fun a b =>
      (compare b.modified a.modified).isLE := (Rows.pairwise_orderBy _ _).sublist List.filter_sublist
  have strict : (rotatedEntries rotated).Pairwise fun a b => compare b.modified a.modified = .lt :=
    (pairwise_entries sorted).imp fun lt => compare_lt_iff_lt.2 lt
  exact Rows.eq_of_perm_of_lt same newest strict

theorem current_perm (h : d.Layout rotated current) (perm : order.Perm d.names)
    (fresh : ∀ x ∈ d.logFiles, ¬ retention.Discards cutoff x) :
    (retention.current cutoff (d.listedLogs order)).Perm (currentEntries current) := by
  have listed := Disk.listedLogs_perm perm
  have all : retention.eligible cutoff (d.listedLogs order) = d.listedLogs order :=
    List.filter_eq_self.2 fun x hx => decide_eq_true (fresh x (listed.mem_iff.1 hx))
  unfold LogRetention.current newestFirst
  rw [all]
  refine ((Rows.orderBy_perm _ _).trans (listed.trans h.logFiles_perm)).filter _ |>.trans ?_
  rw [List.filter_append, List.filter_eq_self.2 fun x hx => ?_,
    List.filter_eq_nil_iff.2 fun x hx => ?_, List.append_nil]
  · rw [isCurrent_of_mem_rotatedEntries hx]
    decide
  · exact isCurrent_of_mem_currentEntries hx

/-- A clean-up that expels nothing and drops the oldest files first cuts the rotated files off. -/
theorem cleaned (h : d.Layout rotated current) (perm : order.Perm d.names)
    (sorted : rotated.Pairwise fun a b => b.modified < a.modified)
    (fresh : ∀ x ∈ d.logFiles, ¬ retention.Discards cutoff x)
    (valid : validateRetention retention = .ok ())
    (room : (currentEntries current).length + rotated.length ≤ retention.maxFiles)
    (drops : retention.DropsOldest d) : ∃ j ≤ rotated.length,
      (d.unlink (retention.removed cutoff (d.listedLogs order))).Layout (rotated.take j) current := by
  have listed := Disk.listedLogs_perm perm
  have currents : (retention.current cutoff (d.listedLogs order)).Perm (currentEntries current) :=
    h.current_perm perm fresh
  have none : retention.discarded cutoff (d.listedLogs order) = [] :=
    List.filter_eq_nil_iff.2 fun x hx => by
      rw [decide_eq_true_iff]
      exact fresh x (listed.mem_iff.1 hx)
  have newer {i : ℕ} {a : LogFile} (ha : (rotatedEntries rotated)[i]? = some a) :
      Greedy.total LogFile.size
          (d.logFiles.filter fun x => x.isCurrent ∨ a.modified < x.modified) =
        Greedy.total LogFile.size (currentEntries current) +
          Greedy.total LogFile.size ((rotatedEntries rotated).take i) := by
    rw [Greedy.total_perm _ (h.logFiles_perm.filter _), List.filter_append, Greedy.total_append,
      ← filter_newer (pairwise_entries sorted) ha]
    congr 2
    · refine List.filter_eq_self.2 fun x hx => ?_
      rw [isCurrent_of_mem_currentEntries hx]
      simp
    · refine List.filter_congr fun x hx => ?_
      rw [isCurrent_of_mem_rotatedEntries hx]
      simp
  have fits : retention.Fits (Greedy.total LogFile.size (currentEntries current)) := by
    obtain ⟨-, -, le⟩ := validateRetention_ok_iff.1 valid
    cases current with
    | none => exact Nat.zero_le _
    | some f =>
      have mem : f.entry currentLog ∈ d.logFiles :=
        h.logFiles_perm.mem_iff.2 (List.mem_append_left _ (List.mem_singleton_self _))
      have size : ¬ f.bytes.length > retention.maxFileBytes.toNat := fun excess =>
        fresh _ mem (.inr excess)
      refine (Nat.min_le_left _ _).trans ?_
      show f.bytes.length + 0 ≤ _
      omega
  have passed : ∃ j ≤ (rotatedEntries rotated).length, Greedy.passed LogFile.size retention.Fits
      retention.maxFiles (currentEntries current).length
        (Greedy.total LogFile.size (currentEntries current)) (rotatedEntries rotated) =
          (rotatedEntries rotated).drop j := by
    refine Greedy.passed_eq_drop (by rwa [length_rotatedEntries]) fits
      fun i a ha within excess b hb => ?_
    have mem {x : LogFile} (hx : x ∈ rotatedEntries rotated) : x ∈ d.logFiles :=
      h.logFiles_perm.mem_iff.2 (List.mem_append_right _ hx)
    have older : b.modified < a.modified := by
      obtain ⟨lt, eq⟩ := List.getElem?_eq_some_iff.1 ha
      have split := pairwise_entries sorted
      rw [← List.take_append_drop i (rotatedEntries rotated), List.drop_eq_getElem_cons lt, eq,
        List.pairwise_append, List.pairwise_cons] at split
      exact split.2.1.1 b hb
    have law := drops a (mem (List.mem_of_getElem? ha)) b (mem (List.mem_of_mem_drop hb))
      (isCurrent_of_mem_rotatedEntries (List.mem_of_getElem? ha))
      (isCurrent_of_mem_rotatedEntries (List.mem_of_mem_drop hb)) older
    dsimp only at law
    rw [newer ha] at law
    exact law within excess
  obtain ⟨j, hj, passed⟩ := passed
  rw [length_rotatedEntries] at hj
  have removed : retention.removed cutoff (d.listedLogs order) =
      ((rotatedEntries rotated).drop j).map LogFile.path := by
    unfold LogRetention.removed LogRetention.passedOver
    rw [none, List.nil_append, h.others_eq perm sorted fresh, currents.length_eq,
      Greedy.total_perm _ currents, passed]
  refine ⟨j, hj, h.unlink (fun i => ?_) ?_⟩
  · rw [removed, List.mem_map]
    constructor
    · rintro ⟨x, hx, path⟩
      obtain ⟨k, hk⟩ := List.mem_iff_getElem?.1 hx
      rw [List.getElem?_drop, getElem?_rotatedEntries, Option.map_eq_some_iff] at hk
      obtain ⟨f, hf, rfl⟩ := hk
      have same : j + k = i := rotatedLog_inj.1 path
      have lt := (List.getElem?_eq_some_iff.1 hf).1
      omega
    · rintro ⟨le, lt⟩
      have entry : ((rotatedEntries rotated).drop j)[i - j]? =
          some ((rotated.get ⟨i, lt⟩).entry (rotatedLog i)) := by
        rw [List.getElem?_drop, getElem?_rotatedEntries, Nat.add_sub_cancel' le,
          List.getElem?_eq_getElem lt]
        rfl
      exact ⟨_, List.mem_of_getElem? entry, rfl⟩
  · rw [removed, List.mem_map]
    rintro ⟨x, hx, path⟩
    obtain ⟨i, f, -, rfl⟩ := mem_rotatedEntries.1 (List.mem_of_mem_drop hx)
    exact rotatedLog_ne_currentLog i path

end Disk.Layout

end KeyroCore
