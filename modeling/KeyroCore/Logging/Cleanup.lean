import KeyroCore.Data.Greedy
import KeyroCore.Logging.Writer

/-!
# What a clean-up leaves

`cleanup_logs` discards the log files that are too old or too long and keeps, newest first, those
that fit into the limits next to the current log.  A clean-up that succeeds leaves a directory
within the limits.
-/

open Effect Program Fallible

namespace KeyroCore

/-! ## Log files of a directory -/

/-- The entry that `cleanup_logs` collects for a file. -/
def Inode.entryAs (f : Inode) (path : FileName) : LogFile where
  isCurrent := path = currentLog
  path := path
  modified := f.modified
  size := f.content.length

/-- The entry of a log file, under its name. -/
def Inode.logFile (f : Inode) : Option LogFile :=
  match f.name with
  | some path => if isKeyroLog path then some (f.entryAs path) else none
  | none => none

namespace Disk

variable (d : Disk)

def logFiles : List LogFile := d.files.filterMap Inode.logFile

/-- The log files among the given names, in their order. -/
def listedLogs (names : List FileName) : List LogFile :=
  names.filterMap fun name => (d.lookup name).bind Inode.logFile

end Disk

theorem Inode.logFile_eq_some_iff {f : Inode} {logFile : LogFile} :
    f.logFile = some logFile ↔ ∃ path, f.name = some path ∧ isKeyroLog path = true ∧
      f.entryAs path = logFile := by
  unfold Inode.logFile
  cases f.name with
  | none => simp
  | some path => by_cases h : isKeyroLog path = true <;> simp [h]

namespace Disk

variable {d : Disk}

theorem lookup_of_mem {f : Inode} {name : FileName} (hf : f ∈ d.files) (hn : f.name = some name) :
    d.lookup name = some f := lookup_eq_some_iff.2 ⟨hf, hn⟩

/-- Listing all names lists the log files of the directory. -/
theorem listedLogs_names : d.listedLogs d.names = d.logFiles := by
  unfold listedLogs names logFiles
  rw [List.filterMap_filterMap]
  refine List.filterMap_congr fun f hf => ?_
  rcases hn : f.name with _ | name
  · unfold Inode.logFile
    rw [hn]
    rfl
  · show (d.lookup name).bind Inode.logFile = _
    rw [lookup_of_mem hf hn]
    rfl

theorem listedLogs_perm {order : List FileName} (h : order.Perm d.names) :
    (d.listedLogs order).Perm d.logFiles := by
  rw [← listedLogs_names]
  exact h.filterMap _

theorem mem_logFiles {logFile : LogFile} : logFile ∈ d.logFiles ↔
    ∃ f ∈ d.files, f.logFile = some logFile := List.mem_filterMap

theorem paths_logFiles : d.logFiles.map LogFile.path = d.names.filter fun name => isKeyroLog name := by
  unfold logFiles names
  rw [List.map_filterMap, ← List.filterMap_eq_filter, List.filterMap_filterMap]
  refine List.filterMap_congr fun f _ => ?_
  unfold Inode.logFile
  rcases f.name with _ | name
  · rfl
  · by_cases h : isKeyroLog name <;> simp [h, Option.guard, Inode.entryAs]

theorem nodup_paths : (d.logFiles.map LogFile.path).Nodup := by
  rw [paths_logFiles]
  exact d.nodup_names.filter _

theorem logFiles_unlink (gone : List FileName) :
    (d.unlink gone).logFiles = d.logFiles.filter fun logFile => logFile.path ∉ gone := by
  unfold logFiles unlink relabel
  rw [List.filterMap_map, List.filter_filterMap]
  refine List.filterMap_congr fun f _ => ?_
  show Inode.logFile { f with name := f.name.bind (without gone) } = _
  unfold Inode.logFile
  rcases f.name with _ | name
  · rfl
  · dsimp only [Option.bind_some]
    rw [without_apply]
    by_cases hg : name ∈ gone <;> by_cases hl : isKeyroLog name <;> simp [hg, hl, Option.filter, Inode.entryAs]

theorem isCurrent_of_mem {logFile : LogFile} (h : logFile ∈ d.logFiles) :
    logFile.isCurrent = decide (logFile.path = currentLog) := by
  obtain ⟨f, -, hf⟩ := mem_logFiles.1 h
  obtain ⟨path, -, -, rfl⟩ := Inode.logFile_eq_some_iff.1 hf
  rfl

end Disk

/-! ## The two loops -/

/-- Too old or too long to be kept. -/
def LogRetention.Discards (retention : LogRetention) (cutoff : Time) (logFile : LogFile) : Prop :=
  logFile.modified < cutoff ∨ logFile.size > retention.maxFileBytes.toNat

instance (retention : LogRetention) (cutoff : Time) (logFile : LogFile) :
    Decidable (retention.Discards cutoff logFile) := inferInstanceAs (Decidable (_ ∨ _))

namespace LogRetention

variable (retention : LogRetention) (cutoff : Time)

def discarded (logFiles : List LogFile) : List LogFile :=
  logFiles.filter fun logFile => retention.Discards cutoff logFile

def eligible (logFiles : List LogFile) : List LogFile :=
  logFiles.filter fun logFile => ¬ retention.Discards cutoff logFile

variable {retention cutoff}

@[simp] theorem discarded_nil : retention.discarded cutoff [] = [] := rfl

@[simp] theorem eligible_nil : retention.eligible cutoff [] = [] := rfl

theorem discarded_cons (logFile : LogFile) (rest : List LogFile) :
    retention.discarded cutoff (logFile :: rest) = if retention.Discards cutoff logFile then
      logFile :: retention.discarded cutoff rest else retention.discarded cutoff rest := by
  unfold discarded
  rw [List.filter_cons]
  simp only [decide_eq_true_eq]

theorem eligible_cons (logFile : LogFile) (rest : List LogFile) :
    retention.eligible cutoff (logFile :: rest) = if retention.Discards cutoff logFile then
      retention.eligible cutoff rest else logFile :: retention.eligible cutoff rest := by
  unfold eligible
  rw [List.filter_cons]
  by_cases h : retention.Discards cutoff logFile <;> simp [h]

end LogRetention

/-- A total size that is within the limit for all files. -/
def LogRetention.Fits (retention : LogRetention) (total : ℕ) : Prop :=
  min total (2 ^ 64 - 1) ≤ retention.maxTotalBytes.toNat

instance (retention : LogRetention) : DecidablePred retention.Fits :=
  fun _ => inferInstanceAs (Decidable (_ ≤ _))

/-- Entries of the directory can be examined and have modification times. -/
def Readable (inputs : ℕ → FsInput) : Prop :=
  ∀ n, (inputs n).unreadable = none ∧ (inputs n).dated = true

theorem readable_undisturbed : Readable undisturbed := fun _ => ⟨rfl, rfl⟩

section Loops

variable {inputs : ℕ → FsInput} {retention : LogRetention} {cutoff : Time}

theorem saturatingAdd_min (a b : ℕ) :
    saturatingAdd (min a (2 ^ 64 - 1)) b = min (a + b) (2 ^ 64 - 1) := by
  unfold saturatingAdd
  omega

theorem listedLogs_cons {d : Disk} {name : FileName} {names : List FileName} {f : Inode}
    (found : d.lookup name = some f) :
    d.listedLogs (name :: names) = f.logFile.toList ++ d.listedLogs names := by
  unfold Disk.listedLogs
  rw [List.filterMap_cons, found, Option.bind_some]
  cases f.logFile <;> rfl

/-- Removing a file does not change the entries of the others. -/
theorem listedLogs_unlink {d : Disk} {gone : List FileName} {names : List FileName}
    (apart : ∀ name ∈ names, name ∉ gone) :
    (d.unlink gone).listedLogs names = d.listedLogs names := by
  refine List.filterMap_congr fun name hname => ?_
  rw [Disk.lookup_unlink, if_neg (apart name hname)]

theorem exists_lookup {d : Disk} {name : FileName} (known : name ∈ d.names) :
    ∃ f, d.lookup name = some f ∧ f.name = some name := by
  obtain ⟨i, f, hf, hn⟩ := Disk.mem_names.1 known
  exact ⟨f, Disk.lookup_of_mem (List.mem_of_getElem? hf) hn, hn⟩

theorem logFile_of_other {f : Inode} {name : FileName} (hn : f.name = some name)
    (other : isKeyroLog name = false) : f.logFile = none := by
  simp [Inode.logFile, hn, other]

theorem logFile_of_log {f : Inode} {name : FileName} (hn : f.name = some name)
    (isLog : isKeyroLog name = true) : f.logFile = some (f.entryAs name) := by
  simp [Inode.logFile, hn, isLog]

theorem ends_retainLogs (readable : Readable inputs) (entries : List (Except IoError FileName))
    (retained : List LogFile) (s : LogDir) (n : ℕ) :
    Ends (timed filesystem inputs) (retainLogs retention cutoff entries retained) (s, n)
      fun result s' => ∀ all, result = .ok all → ∃ names, entries = names.map .ok ∧
        (names.Nodup → (∀ name ∈ names, name ∈ s.disk.names) →
          s'.1 = s.unlink
            ((retention.discarded cutoff (s.disk.listedLogs names)).map LogFile.path) ∧
          all = retained ++ retention.eligible cutoff (s.disk.listedLogs names)) := by
  induction entries generalizing retained s n with
  | nil =>
    unfold retainLogs
    rw [ends_pure_iff]
    rintro all ⟨⟩
    exact ⟨[], rfl, fun _ _ => ⟨(LogDir.unlink_nil s).symm, (List.append_nil _).symm⟩⟩
  | cons entry entries ih =>
    rcases entry with error | path
    · intro all ok
      cases ok
    show Ends _ (if !isKeyroLog path then _ else _) (s, n) _
    rw [ends_ite_iff]
    constructor
    · intro other
      refine (ih retained s n).mono fun result s' h all ok => ?_
      obtain ⟨names, rfl, rest⟩ := h all ok
      refine ⟨path :: names, rfl, fun nodup known => ?_⟩
      rw [List.forall_mem_cons] at known
      obtain ⟨f, found, hn⟩ := exists_lookup known.1
      rw [listedLogs_cons found, logFile_of_other hn (by simpa using other)]
      exact rest (List.nodup_cons.1 nodup).2 known.2
    intro isLog
    rw [ends_bind_iff, ends_ask_iff]
    rcases found : s.disk.lookup path with _ | f
    · have answer : filesystem (inputs n) (.entryMetadata path) s = (.error notFound, s) := by
        simp only [filesystem, (readable n).1, found]
      rw [answer]
      refine (ih retained s (n + 1)).mono fun result s' h all ok => ?_
      obtain ⟨names, rfl, rest⟩ := h all ok
      refine ⟨path :: names, rfl, fun nodup known => ?_⟩
      obtain ⟨f, found', -⟩ := exists_lookup (known path (List.mem_cons_self ..))
      rw [found] at found'
      cases found'
    · have hn : f.name = some path := (Disk.lookup_eq_some_iff.1 found).2
      have entry := logFile_of_log hn (by simpa using isLog)
      have answer : filesystem (inputs n) (.entryMetadata path) s =
          (.ok ⟨f.content.length, some f.modified⟩, s) := by
        simp only [filesystem, (readable n).1, found, FsInput.metadata, (readable n).2]
        rfl
      rw [answer]
      show Ends _ (if _ then _ else _) (s, n + 1) _
      rw [ends_ite_iff]
      constructor
      · intro discards
        change retention.Discards cutoff (f.entryAs path) at discards
        rw [ends_bind_iff]
        refine ends_removeFile (fun error all ok => by cases ok) fun _ => ?_
        refine (ih retained _ _).mono fun result s' h all ok => ?_
        obtain ⟨names, rfl, rest⟩ := h all ok
        refine ⟨path :: names, rfl, fun nodup known => ?_⟩
        rw [List.nodup_cons] at nodup
        rw [List.forall_mem_cons] at known
        have apart : ∀ name ∈ names, name ∉ [path] := fun name hname h =>
          nodup.1 (List.mem_singleton.1 h ▸ hname)
        have known' : ∀ name ∈ names, name ∈ (s.unlink [path]).disk.names := fun name hname => by
          show name ∈ (s.disk.unlink [path]).names
          rw [Disk.names_unlink, List.mem_filter]
          exact ⟨known.2 name hname, by simpa using apart name hname⟩
        obtain ⟨left, kept⟩ := rest nodup.2 known'
        rw [show (s.unlink [path]).disk = s.disk.unlink [path] from rfl,
          listedLogs_unlink apart] at left kept
        rw [listedLogs_cons found, entry, Option.toList_some, List.singleton_append,
          LogRetention.discarded_cons, LogRetention.eligible_cons, if_pos discards, if_pos discards]
        exact ⟨left.trans (LogDir.unlink_unlink _ _ _), kept⟩
      · intro keeps
        change ¬ retention.Discards cutoff (f.entryAs path) at keeps
        refine (ih _ s (n + 1)).mono fun result s' h all ok => ?_
        obtain ⟨names, rfl, rest⟩ := h all ok
        refine ⟨path :: names, rfl, fun nodup known => ?_⟩
        rw [List.nodup_cons] at nodup
        rw [List.forall_mem_cons] at known
        obtain ⟨left, kept⟩ := rest nodup.2 known.2
        rw [listedLogs_cons found, entry, Option.toList_some, List.singleton_append,
          LogRetention.discarded_cons, LogRetention.eligible_cons, if_neg keeps, if_neg keeps]
        exact ⟨left, kept.trans (List.append_assoc _ [_] _)⟩

/-- The files that `enforceLimits` removes. -/
def overLimits (retention : LogRetention) (currentIndex : Option ℕ) :
    ℕ → List LogFile → ℕ → ℕ → List LogFile
  | _, [], _, _ => []
  | index, logFile :: rest, keptFiles, totalBytes =>
    if some index = currentIndex then
      overLimits retention currentIndex (index + 1) rest keptFiles totalBytes
    else if keptFiles ≥ retention.maxFiles ∨
        saturatingAdd totalBytes logFile.size > retention.maxTotalBytes.toNat then
      logFile :: overLimits retention currentIndex (index + 1) rest keptFiles totalBytes
    else
      overLimits retention currentIndex (index + 1) rest (keptFiles + 1)
        (saturatingAdd totalBytes logFile.size)

theorem ends_enforceLimits {currentIndex : Option ℕ} (rest : List LogFile)
    (index keptFiles totalBytes : ℕ) (s : LogDir) (n : ℕ) :
    Ends (timed filesystem inputs)
      (enforceLimits retention currentIndex index rest keptFiles totalBytes) (s, n)
      fun result s' => result = .ok () → s'.1 = s.unlink
        ((overLimits retention currentIndex index rest keptFiles totalBytes).map LogFile.path) := by
  induction rest generalizing index keptFiles totalBytes s n with
  | nil =>
    unfold enforceLimits
    rw [ends_pure_iff]
    exact fun _ => (LogDir.unlink_nil s).symm
  | cons logFile rest ih =>
    unfold enforceLimits overLimits
    rw [ends_ite_iff]
    constructor
    · intro current
      rw [if_pos current]
      exact ih (index + 1) keptFiles totalBytes s n
    intro other
    rw [if_neg other, ends_ite_iff]
    constructor
    · intro excess
      rw [if_pos excess, ends_bind_iff]
      refine ends_removeFile (fun error => nofun) fun _ => ?_
      refine (ih (index + 1) keptFiles totalBytes _ _).mono fun result s' h ok => ?_
      rw [h ok, LogDir.unlink_unlink]
      rfl
    · intro within
      rw [if_neg within]
      exact ih (index + 1) (keptFiles + 1) (saturatingAdd totalBytes logFile.size) s n

/-- The test of the loop, on the exact total. -/
theorem over_iff (keptFiles total size : ℕ) : keptFiles ≥ retention.maxFiles ∨
    saturatingAdd (min total (2 ^ 64 - 1)) size > retention.maxTotalBytes.toNat ↔
      ¬ (keptFiles < retention.maxFiles ∧ retention.Fits (total + size)) := by
  unfold LogRetention.Fits
  rw [saturatingAdd_min]
  omega

/-- The loop without a current log is a greedy selection. -/
theorem overLimits_others {currentIndex : Option ℕ} (rest : List LogFile)
    (index keptFiles total : ℕ) (before : ∀ i ∈ currentIndex, i < index) :
    overLimits retention currentIndex index rest keptFiles (min total (2 ^ 64 - 1)) =
      Greedy.passed LogFile.size retention.Fits retention.maxFiles keptFiles total rest := by
  induction rest generalizing index keptFiles total with
  | nil => rfl
  | cons logFile rest ih =>
    have other : some index ≠ currentIndex := fun h =>
      absurd (before index h.symm) (Nat.lt_irrefl _)
    have before' : ∀ i ∈ currentIndex, i < index + 1 := fun i hi => Nat.lt_succ_of_lt (before i hi)
    unfold overLimits Greedy.passed
    rw [if_neg other]
    by_cases h : keptFiles < retention.maxFiles ∧ retention.Fits (total + logFile.size)
    · rw [if_pos h, if_neg ((over_iff _ _ _).not.2 (not_not.2 h)), saturatingAdd_min]
      exact ih _ _ _ before'
    · rw [if_neg h, if_pos ((over_iff _ _ _).2 h), ih _ _ _ before']

/-- The loop is a greedy selection from the files other than the current log. -/
theorem overLimits_eq (rest : List LogFile) (index keptFiles total : ℕ)
    (one : (rest.filter LogFile.isCurrent).length ≤ 1) :
    overLimits retention ((rest.findIdx? LogFile.isCurrent).map (· + index)) index rest keptFiles
        (min total (2 ^ 64 - 1)) =
      Greedy.passed LogFile.size retention.Fits retention.maxFiles keptFiles total
        (rest.filter fun logFile => !logFile.isCurrent) := by
  induction rest generalizing index keptFiles total with
  | nil => rfl
  | cons logFile rest ih =>
    by_cases current : logFile.isCurrent = true
    · rw [List.filter_cons_of_pos current, List.length_cons] at one
      have none : rest.filter LogFile.isCurrent = [] :=
        List.length_eq_zero_iff.1 (by omega)
      have others : (rest.filter fun logFile => !logFile.isCurrent) = rest := by
        rw [List.filter_eq_nil_iff] at none
        exact List.filter_eq_self.2 fun f hf => by simpa using none f hf
      rw [List.findIdx?_cons, if_pos current, List.filter_cons_of_neg (by simpa using current),
        others, Option.map_some, Nat.zero_add]
      unfold overLimits
      rw [if_pos rfl]
      refine overLimits_others _ _ _ _ fun i hi => ?_
      cases hi
      exact Nat.lt_succ_self _
    · rw [List.filter_cons_of_neg current] at one
      have shift : (Option.map (· + 1) (rest.findIdx? LogFile.isCurrent)).map (· + index) =
          (rest.findIdx? LogFile.isCurrent).map (· + (index + 1)) := by
        rw [Option.map_map]
        refine congrArg (Option.map · _) (funext fun i => ?_)
        show i + 1 + index = i + (index + 1)
        omega
      have other : some index ≠ (rest.findIdx? LogFile.isCurrent).map (· + (index + 1)) := by
        intro h
        obtain ⟨i, -, hi⟩ := Option.map_eq_some_iff.1 h.symm
        omega
      rw [List.findIdx?_cons, if_neg current, shift,
        List.filter_cons_of_pos (by simpa using current)]
      unfold overLimits Greedy.passed
      rw [if_neg other]
      by_cases h : keptFiles < retention.maxFiles ∧ retention.Fits (total + logFile.size)
      · rw [if_pos h, if_neg ((over_iff _ _ _).not.2 (not_not.2 h)), saturatingAdd_min]
        exact ih _ _ _ one
      · rw [if_neg h, if_pos ((over_iff _ _ _).2 h), ih _ _ _ one]

end Loops

/-! ## The whole clean-up -/

namespace LogRetention

variable (retention : LogRetention) (cutoff : Time) (logFiles : List LogFile)

/-- The current log, if it is kept. -/
def current : List LogFile :=
  (newestFirst (retention.eligible cutoff logFiles)).filter LogFile.isCurrent

/-- The other files that may be kept, newest first. -/
def others : List LogFile :=
  (newestFirst (retention.eligible cutoff logFiles)).filter fun logFile => !logFile.isCurrent

/-- The files that fit next to the current log. -/
def kept : List LogFile :=
  Greedy.kept LogFile.size retention.Fits retention.maxFiles (retention.current cutoff logFiles).length
    (Greedy.total LogFile.size (retention.current cutoff logFiles)) (retention.others cutoff logFiles)

def passedOver : List LogFile :=
  Greedy.passed LogFile.size retention.Fits retention.maxFiles
    (retention.current cutoff logFiles).length
    (Greedy.total LogFile.size (retention.current cutoff logFiles)) (retention.others cutoff logFiles)

/-- The names that a clean-up takes away. -/
def removed : List FileName :=
  (retention.discarded cutoff logFiles ++ retention.passedOver cutoff logFiles).map LogFile.path

variable {retention cutoff logFiles}

theorem current_append_others : (retention.current cutoff logFiles ++
    retention.others cutoff logFiles).Perm (retention.eligible cutoff logFiles) :=
  (List.filter_append_perm _ _).trans (Rows.orderBy_perm _ _)

theorem discarded_append_eligible :
    (retention.discarded cutoff logFiles ++ retention.eligible cutoff logFiles).Perm logFiles := by
  unfold discarded eligible
  simpa using List.filter_append_perm (fun logFile => decide (retention.Discards cutoff logFile)) logFiles

end LogRetention

/-- At most one of the files is the current log. -/
def OneCurrent (logFiles : List LogFile) : Prop :=
  (logFiles.filter LogFile.isCurrent).length ≤ 1

theorem OneCurrent.sublist {as bs : List LogFile} (h : as.Sublist bs) (hb : OneCurrent bs) :
    OneCurrent as := Nat.le_trans (h.filter _).length_le hb

theorem OneCurrent.perm {as bs : List LogFile} (h : as.Perm bs) (hb : OneCurrent bs) :
    OneCurrent as := Nat.le_trans (Nat.le_of_eq (h.filter _).length_eq) hb

theorem Disk.oneCurrent (d : Disk) : OneCurrent d.logFiles := by
  unfold OneCurrent
  have eq : ((d.logFiles.filter LogFile.isCurrent).map LogFile.path) =
      (d.logFiles.map LogFile.path).filter (· = currentLog) := by
    rw [List.filter_map]
    refine congrArg _ (List.filter_congr fun logFile h => ?_)
    exact Disk.isCurrent_of_mem h
  rw [← List.length_map LogFile.path, eq]
  exact List.nodup_iff_count_le_one.1 Disk.nodup_paths currentLog |>.trans' (Nat.le_of_eq (by
    rw [List.count, List.countP_eq_length_filter]
    rfl))

theorem eq_toList_of_length_le_one {α : Type} {l : List α} (h : l.length ≤ 1) :
    l = l.head?.toList := by
  rcases l with _ | ⟨a, _ | ⟨b, l⟩⟩
  · rfl
  · rfl
  · simp at h

section Spec

variable {inputs : ℕ → FsInput} {retention : LogRetention}

theorem ends_retentionCutoff {s : LogDir} {n : ℕ} {Q : Except IoError Time → LogDir × ℕ → Prop}
    (fail : checkedSub (inputs n).now retention.maxAge = none →
      ∀ error, Q (.error error) (s, n + 1))
    (ok : ∀ cutoff, checkedSub (inputs n).now retention.maxAge = some cutoff →
      Q (.ok cutoff) (s, n + 1)) :
    Ends (timed filesystem inputs) (retentionCutoff retention) (s, n) Q := by
  unfold retentionCutoff
  rw [ends_bind_iff, ends_ask_iff]
  rw [show filesystem (inputs n) .now s = ((inputs n).now, s) from rfl]
  dsimp only
  rcases h : checkedSub (inputs n).now retention.maxAge with _ | cutoff
  · exact fail h _
  · exact ok cutoff h

/-- A listing whose entries can all be read is complete. -/
theorem names_of_entries {l : Listing} {broken : Option (ℕ × IoError)} {names order : List FileName}
    (h : l.entries broken names = order.map .ok) : order = l.arrange names := by
  unfold Listing.entries at h
  rcases broken with _ | ⟨n, error⟩
  · exact (List.map_injective_iff.2 (fun _ _ => Except.ok.inj) h).symm
  · have mem : .error error ∈ order.map (Except.ok (ε := IoError)) := by
      rw [← h]
      simp
    simp at mem

/-- The second loop of a clean-up passes over what does not fit next to the current log. -/
theorem overLimits_retained {cutoff : Time} {logFiles : List LogFile} (one : OneCurrent logFiles) :
    let retained := newestFirst (retention.eligible cutoff logFiles)
    let currentIndex := retained.findIdx? LogFile.isCurrent
    overLimits retention currentIndex 0 retained (if currentIndex.isSome then 1 else 0)
      (((currentIndex.bind fun index => retained[index]?).map LogFile.size).getD 0) =
        retention.passedOver cutoff logFiles := by
  intro retained currentIndex
  have within : ∀ logFile ∈ retained, logFile.size ≤ 2 ^ 64 - 1 := fun logFile h => by
    have keeps := of_decide_eq_true (List.mem_filter.1 (Rows.mem_orderBy.1 h)).2
    have bound := retention.maxFileBytes.toNat_lt
    unfold LogRetention.Discards at keeps
    omega
  have one' : OneCurrent retained :=
    OneCurrent.perm (Rows.orderBy_perm _ _) (OneCurrent.sublist List.filter_sublist one)
  have found : currentIndex.bind (fun index => retained[index]?) = retained.find? LogFile.isCurrent :=
    List.find?_eq_bind_findIdx?_getElem?.symm
  have current : retention.current cutoff logFiles = (retained.find? LogFile.isCurrent).toList := by
    rw [← List.head?_filter]
    exact eq_toList_of_length_le_one one'
  have isSome : currentIndex.isSome = (retained.find? LogFile.isCurrent).isSome := by
    rw [Bool.eq_iff_iff, List.findIdx?_isSome, List.any_eq_true, List.find?_isSome]
  have total : ((retained.find? LogFile.isCurrent).map LogFile.size).getD 0 =
      min (Greedy.total LogFile.size (retention.current cutoff logFiles)) (2 ^ 64 - 1) := by
    rw [current]
    rcases h : retained.find? LogFile.isCurrent with _ | logFile
    · rfl
    · have := within logFile (List.mem_of_find?_eq_some h)
      show logFile.size = min (logFile.size + 0) _
      omega
  have places : (if currentIndex.isSome then 1 else 0) =
      (retention.current cutoff logFiles).length := by
    rw [isSome, current]
    cases retained.find? LogFile.isCurrent <;> rfl
  have selection := @overLimits_eq retention retained 0
    (retention.current cutoff logFiles).length
    (Greedy.total LogFile.size (retention.current cutoff logFiles)) one'
  rw [found, total, places]
  have shift : currentIndex.map (· + 0) = currentIndex := by simp
  rw [← shift]
  exact selection

/-- What a clean-up that succeeds removes. -/
theorem ends_cleanupLogs (readable : Readable inputs) (s : LogDir) (n : ℕ) :
    Ends (timed filesystem inputs) (cleanupLogs retention) (s, n) fun result s' =>
      result = .ok () → ∃ cutoff, checkedSub (inputs n).now retention.maxAge = some cutoff ∧
        s'.1 = s.unlink (retention.removed cutoff
          (s.disk.listedLogs ((inputs (n + 1)).listing.arrange s.disk.names))) := by
  unfold cleanupLogs
  rw [ends_bind_iff]
  refine ends_retentionCutoff (fun _ error => nofun) fun cutoff hcut => ?_
  dsimp only
  rw [ends_bind_iff]
  refine ends_readDir (fun error => nofun) ?_
  refine (ends_retainLogs readable _ [] s (n + 2)).bind (fun error s₁ _ => nofun)
    fun retained s₁ h => ?_
  obtain ⟨order, entries, rest⟩ := h retained rfl
  obtain rfl := names_of_entries entries
  set order := (inputs (n + 1)).listing.arrange s.disk.names
  have perm : order.Perm s.disk.names := (inputs (n + 1)).listing.perm _
  obtain ⟨left, kept⟩ := rest (perm.nodup_iff.2 s.disk.nodup_names) fun name => perm.mem_iff.1
  have one : OneCurrent (s.disk.listedLogs order) :=
    OneCurrent.perm (Disk.listedLogs_perm perm) s.disk.oneCurrent
  rw [List.nil_append] at kept
  subst kept
  refine (ends_enforceLimits _ 0 _ _ s₁.1 s₁.2).mono fun result s' h ok => ?_
  refine ⟨cutoff, hcut, (h ok).trans ?_⟩
  rw [left, LogDir.unlink_unlink]
  unfold LogRetention.removed
  rw [List.map_append, ← overLimits_retained one]

end Spec

/-! ## The limits -/

/-- What is left when the files `gone` are taken away, by their paths. -/
theorem filter_not_gone {logFiles gone rest : List LogFile} (h : (gone ++ rest).Perm logFiles)
    (nodup : (logFiles.map LogFile.path).Nodup) :
    (logFiles.filter fun logFile => logFile.path ∉ gone.map LogFile.path).Perm rest := by
  refine (h.symm.filter _).trans (List.Perm.of_eq ?_)
  have apart := (h.map LogFile.path).nodup_iff.2 nodup
  rw [List.map_append, List.nodup_append] at apart
  rw [List.filter_append, List.filter_eq_nil_iff.2, List.nil_append, List.filter_eq_self.2]
  · intro logFile hr
    rw [decide_eq_true_iff]
    exact fun hg => apart.2.2 _ hg _ (List.mem_map_of_mem hr) rfl
  · intro logFile hg
    simpa using ⟨logFile, hg, rfl⟩

/-- The limits of a retention. -/
structure LogRetention.Holds (retention : LogRetention) (logFiles : List LogFile) : Prop where
  count : logFiles.length ≤ retention.maxFiles
  total : retention.Fits (Greedy.total LogFile.size logFiles)
  each : ∀ logFile ∈ logFiles, logFile.size ≤ retention.maxFileBytes.toNat

theorem LogRetention.Holds.perm {retention : LogRetention} {as bs : List LogFile}
    (h : retention.Holds as) (perm : as.Perm bs) : retention.Holds bs where
  count := perm.length_eq ▸ h.count
  total := Greedy.total_perm LogFile.size perm ▸ h.total
  each := fun logFile hb => h.each logFile (perm.mem_iff.2 hb)

section Limits

variable {retention : LogRetention} {cutoff : Time} {logFiles : List LogFile}

theorem validateRetention_ok_iff : validateRetention retention = .ok () ↔
    0 < retention.maxFileBytes.toNat ∧ 0 < retention.maxFiles ∧
      retention.maxFileBytes.toNat ≤ retention.maxTotalBytes.toNat := by
  have zero {x : UInt64} : x = 0 ↔ x.toNat = 0 := UInt64.toNat_inj.symm
  have lt : retention.maxTotalBytes < retention.maxFileBytes ↔
      retention.maxTotalBytes.toNat < retention.maxFileBytes.toNat := UInt64.lt_iff_toNat_lt
  unfold validateRetention
  simp only [zero, lt]
  split_ifs <;> simp <;> omega

theorem discarded_passedOver_survive : (retention.discarded cutoff logFiles ++
    retention.passedOver cutoff logFiles ++
      (retention.current cutoff logFiles ++ retention.kept cutoff logFiles)).Perm logFiles := by
  have selection : (retention.passedOver cutoff logFiles ++ (retention.current cutoff logFiles ++
      retention.kept cutoff logFiles)).Perm (retention.eligible cutoff logFiles) := by
    refine List.Perm.trans ?_ LogRetention.current_append_others
    refine List.perm_append_comm.trans ?_
    rw [List.append_assoc]
    exact (Greedy.kept_append_passed _ _ _).append_left _
  rw [List.append_assoc]
  exact (selection.append_left _).trans LogRetention.discarded_append_eligible

theorem mem_current {logFile : LogFile} (h : logFile ∈ retention.current cutoff logFiles) :
    ¬ retention.Discards cutoff logFile := by
  have eligible := Rows.mem_orderBy.1 (List.mem_filter.1 h).1
  exact of_decide_eq_true (List.mem_filter.1 eligible).2

theorem mem_kept {logFile : LogFile} (h : logFile ∈ retention.kept cutoff logFiles) :
    ¬ retention.Discards cutoff logFile := by
  have others := (Greedy.kept_append_passed _ _ _).mem_iff.1 (List.mem_append_left _ h)
  have eligible := Rows.mem_orderBy.1 (List.mem_filter.1 others).1
  exact of_decide_eq_true (List.mem_filter.1 eligible).2

/-- The files that a clean-up keeps are within the limits. -/
theorem holds_survivors (valid : validateRetention retention = .ok ()) (one : OneCurrent logFiles) :
    retention.Holds (retention.current cutoff logFiles ++ retention.kept cutoff logFiles) := by
  obtain ⟨-, places, le⟩ := validateRetention_ok_iff.1 valid
  have single : (retention.current cutoff logFiles).length ≤ 1 :=
    OneCurrent.perm (Rows.orderBy_perm _ _) (OneCurrent.sublist List.filter_sublist one)
  have size {logFile : LogFile} (h : ¬ retention.Discards cutoff logFile) :
      logFile.size ≤ retention.maxFileBytes.toNat := by
    unfold LogRetention.Discards at h
    omega
  refine ⟨?_, ?_, fun logFile h => ?_⟩
  · rw [List.length_append]
    exact Greedy.length_kept_le (by omega) _ _
  · rw [Greedy.total_append]
    refine Greedy.fits_kept ?_ _ _
    rw [eq_toList_of_length_le_one single]
    rcases h : (retention.current cutoff logFiles).head? with _ | logFile
    · exact Nat.zero_le _
    · have := size (mem_current (List.mem_of_head? h))
      show min (logFile.size + 0) _ ≤ _
      omega
  · rcases List.mem_append.1 h with h | h
    · exact size (mem_current h)
    · exact size (mem_kept h)

/-- The log files after a clean-up. -/
theorem logFiles_cleaned {d : Disk} {order : List FileName} (perm : order.Perm d.names) :
    (d.unlink (retention.removed cutoff (d.listedLogs order))).logFiles.Perm
      (retention.current cutoff (d.listedLogs order) ++
        retention.kept cutoff (d.listedLogs order)) := by
  have listed := Disk.listedLogs_perm perm
  rw [Disk.logFiles_unlink]
  refine (listed.symm.filter _).trans (filter_not_gone discarded_passedOver_survive ?_)
  exact (listed.map LogFile.path).nodup_iff.2 Disk.nodup_paths

/-- A clean-up that succeeds leaves the directory within the limits. -/
theorem holds_cleanupLogs {inputs : ℕ → FsInput} (readable : Readable inputs)
    (valid : validateRetention retention = .ok ()) (s : LogDir) (n : ℕ) :
    Ends (timed filesystem inputs) (cleanupLogs retention) (s, n) fun result s' =>
      result = .ok () → retention.Holds s'.1.disk.logFiles := by
  refine (ends_cleanupLogs readable s n).mono fun result s' h ok => ?_
  obtain ⟨cutoff, -, eq⟩ := h ok
  have perm := (inputs (n + 1)).listing.perm s.disk.names
  have one := OneCurrent.perm (Disk.listedLogs_perm perm) s.disk.oneCurrent
  rw [eq]
  exact (holds_survivors valid one).perm (logFiles_cleaned perm).symm

end Limits

end KeyroCore
