import KeyroCore.Logging.Rotation

/-!
# Disk limits

After every write that succeeds the directory is within the limits of the retention and no other
file was touched.  At startup the clean-up comes before the current log is created, so the limits
hold if and only if there was room for it.
-/

open Effect Program Fallible

namespace KeyroCore

/-! ## Other files -/

/-- The named files that are no log files. -/
def Disk.others (d : Disk) : List Inode :=
  d.files.filter fun f => f.name.any fun name => !isKeyroLog name

namespace Disk

variable {d : Disk}

/-- Moving and removing log files does not touch the others. -/
theorem others_relabel {e : FileName ≃. FileName}
    (fixed : ∀ name, isKeyroLog name = false → e name = some name)
    (logs : ∀ name name', isKeyroLog name = true → e name = some name' →
      isKeyroLog name' = true) : (d.relabel e).others = d.others := by
  unfold others relabel
  have same : ∀ f : Inode, ((f.name.bind e).any fun name => !isKeyroLog name) =
      f.name.any fun name => !isKeyroLog name := fun f => by
    rcases f.name with _ | name
    · rfl
    · by_cases isLog : isKeyroLog name = true
      · rcases he : e name with _ | name'
        · simp [he, isLog]
        · simp [he, isLog, logs name name' isLog he]
      · rw [Option.bind_some, fixed name (by simpa using isLog)]
  rw [List.filter_map]
  refine (congrArg (List.map _) (List.filter_congr fun f _ => same f)).trans ?_
  conv_rhs => rw [← List.map_id (List.filter _ d.files)]
  refine List.map_congr_left fun f hf => ?_
  have other := (List.mem_filter.1 hf).2
  show Inode.mk (f.name.bind e) _ _ = f
  obtain ⟨name, hn, notLog⟩ := (Option.any_eq_true _ _).1 other
  have kept : f.name.bind e = f.name := by
    rw [hn, Option.bind_some, fixed name (by simpa using notLog)]
  rw [kept]

theorem others_unlink {gone : List FileName} (logs : ∀ name ∈ gone, isKeyroLog name = true) :
    (d.unlink gone).others = d.others := by
  refine others_relabel (fun name notLog => ?_) fun name name' isLog h => ?_
  · rw [without_apply, if_neg]
    exact fun mem => by simp [logs name mem] at notLog
  · rw [without_apply] at h
    split_ifs at h
    cases h
    exact isLog

theorem others_create {name : FileName} (isLog : isKeyroLog name = true) (stamp : Time)
    (absent : d.find name = none) : (d.create name stamp absent).others = d.others := by
  show (d.files ++ [_]).filter _ = _
  rw [List.filter_append]
  simp [isLog, others]

theorem filter_modify_of_neg {α : Type} {p : α → Bool} {f : α → α} {l : List α} {i : ℕ} {a : α}
    (ha : l[i]? = some a) (neg : p a = false) (neg' : p (f a) = false) :
    (l.modify i f).filter p = l.filter p := by
  induction l generalizing i with
  | nil => cases ha
  | cons b l ih =>
    cases i with
    | zero =>
      cases ha
      rw [List.modify_zero_cons, List.filter_cons_of_neg (by simp [neg']),
        List.filter_cons_of_neg (by simp [neg])]
    | succ i =>
      rw [List.modify_succ_cons, List.filter_cons, List.filter_cons, ih ha]

theorem others_append {i : ℕ} {f : Inode} {name : FileName} (hf : d.files[i]? = some f)
    (hn : f.name = some name) (isLog : isKeyroLog name = true) (bytes : List UInt8) (stamp : Time) :
    (d.append i bytes stamp).others = d.others := by
  refine filter_modify_of_neg hf ?_ ?_
  · simp [hn, isLog]
  · simp [hn, isLog]

end Disk

variable {inputs : ℕ → FsInput} {retention : LogRetention}

theorem rotation_logs {m : ℕ} (pos : 0 < m) {name name' : FileName} (isLog : isKeyroLog name = true)
    (h : rotation m name = some name') : isKeyroLog name' = true := by
  by_cases rotated : ∃ i, name = rotatedLog i
  · obtain ⟨i, rfl⟩ := rotated
    rw [rotation_rotatedLog pos] at h
    split_ifs at h
    · cases h
      exact isKeyroLog_rotatedLog _
    · cases h
      exact isKeyroLog_rotatedLog _
  · by_cases current : name = currentLog
    · rw [current, rotation_currentLog] at h
      cases h
      exact isKeyroLog_rotatedLog 0
    · rw [rotation_other (fun i hi => rotated ⟨i, hi⟩) current] at h
      cases h
      exact isLog

theorem rotation_fixed {m : ℕ} {name : FileName} (other : isKeyroLog name = false) :
    rotation m name = some name := by
  refine rotation_other (fun i hi => ?_) (fun hc => ?_) m
  · rw [hi, isKeyroLog_rotatedLog] at other
    cases other
  · rw [hc, isKeyroLog_currentLog] at other
    cases other

/-- A clean-up removes log files only. -/
theorem isKeyroLog_of_removed {cutoff : Time} {d : Disk} {order : List FileName}
    (perm : order.Perm d.names) {name : FileName}
    (h : name ∈ retention.removed cutoff (d.listedLogs order)) : isKeyroLog name = true := by
  obtain ⟨logFile, mem, rfl⟩ := List.mem_map.1 h
  have listed := discarded_passedOver_survive.mem_iff.1 (List.mem_append_left _ mem)
  have known := List.mem_map_of_mem (f := LogFile.path)
    ((Disk.listedLogs_perm perm).mem_iff.1 listed)
  rw [Disk.paths_logFiles] at known
  exact (List.mem_filter.1 known).2

theorem LogRetention.Rotates.others {s s' : LogDir} (h : retention.Rotates s s') :
    s'.disk.others = s.disk.others := by
  rcases h with ⟨-, rfl⟩ | ⟨pos, cutoff, order, perm, rfl⟩
  · refine Disk.others_unlink fun name mem => ?_
    rw [List.mem_singleton.1 mem]
    exact isKeyroLog_currentLog
  · refine (Disk.others_unlink fun name => isKeyroLog_of_removed perm).trans ?_
    exact Disk.others_relabel (fun name => rotation_fixed) fun name name' => rotation_logs pos

/-- A rotation that succeeds touches log files only. -/
theorem others_rotate (readable : Readable inputs) (s : LogDir) (n : ℕ) :
    Ends (timed filesystem inputs) (LogState.rotate retention) (s, n) fun result s' =>
      result = .ok () → s'.1.disk.others = s.disk.others := by
  refine (ends_rotate readable s n).mono fun result s' h ok => ?_
  obtain ⟨moved, stamp, rotates, absent, eq⟩ := h ok
  rw [eq, ← rotates.others]
  exact Disk.others_create isKeyroLog_currentLog stamp absent

/-- The open file is the current log. -/
def LogDir.Attached (s : LogDir) : Prop := s.disk.find currentLog = some s.file

instance (s : LogDir) : Decidable s.Attached := inferInstanceAs (Decidable (_ = _))

theorem attached_rotateIf (readable : Readable inputs) (needed : Bool) {s : LogDir}
    (attached : s.Attached) (n : ℕ) :
    Ends (timed filesystem inputs) (LogState.rotateIf retention needed) (s, n) fun result s' =>
      result = .ok () → s'.1.Attached ∧ s'.1.disk.others = s.disk.others := by
  unfold LogState.rotateIf
  rw [ends_ite_iff]
  constructor
  · intro _ ok
    exact ⟨(ends_rotate_current readable s n ok).1, others_rotate readable s n ok⟩
  · intro _ _
    exact ⟨attached, rfl⟩

theorem ends_currentLogNeedsRotation (s : LogDir) (n : ℕ) :
    Ends (timed filesystem inputs) (currentLogNeedsRotation retention) (s, n) fun _ s' =>
      s'.1 = s := by
  unfold currentLogNeedsRotation
  rw [ends_bind_iff]
  refine ends_metadata (fun _ => rfl) fun f _ => ?_
  dsimp only
  rw [ends_ite_iff]
  refine ⟨fun _ => rfl, fun _ => ?_⟩
  rw [ends_bind_iff]
  exact ends_retentionCutoff (fun _ _ => rfl) fun _ _ => rfl

/-- The clean-up at the end of a write leaves the directory within the limits. -/
theorem holds_cleanupRetention (readable : Readable inputs)
    (valid : validateRetention retention = .ok ()) {s : LogDir} (attached : s.Attached) (n : ℕ) :
    Ends (timed filesystem inputs) (LogState.cleanupRetention retention) (s, n) fun result s' =>
      result = .ok () → retention.Holds s'.1.disk.logFiles ∧ s'.1.disk.others = s.disk.others := by
  unfold LogState.cleanupRetention
  refine (ends_currentLogNeedsRotation s n).bind (fun error s₁ _ => nofun) fun needed s₁ same => ?_
  obtain ⟨s₁, n₁⟩ := s₁
  obtain rfl : s₁ = s := same
  refine (attached_rotateIf readable needed attached n₁).bind (fun error s₂ _ => nofun)
    fun _ s₂ h => ?_
  obtain ⟨-, others⟩ := h rfl
  intro ok
  refine ⟨holds_cleanupLogs readable valid s₂.1 s₂.2 ok, ?_⟩
  obtain ⟨cutoff, -, eq⟩ := ends_cleanupLogs readable s₂.1 s₂.2 ok
  rw [← others, eq]
  exact Disk.others_unlink fun name => isKeyroLog_of_removed ((inputs (s₂.2 + 1)).listing.perm _)

/-- After every write of some bytes that succeeds, with the open file as the current log and entries
that can be examined, the directory is within the limits and no other file was touched. -/
theorem limits_after_write (retention : LogRetention) (valid : validateRetention retention = .ok ())
    (inputs : ℕ → FsInput) (readable : Readable inputs) (s : LogDir) (attached : s.Attached)
    (buf : List UInt8) (nonempty : buf ≠ []) (written : ℕ) :
    let (result, s', _) := (LogState.write retention buf).run.exec (timed filesystem inputs) (s, 0)
    result = .ok written →
      retention.Holds s'.disk.logFiles ∧ s'.disk.others = s.disk.others := by
  show Ends (timed filesystem inputs) (LogState.write retention buf) (s, 0) fun result s' =>
    result = .ok written → retention.Holds s'.1.disk.logFiles ∧ s'.1.disk.others = s.disk.others
  unfold LogState.write
  rw [if_neg (by simpa using nonempty), ends_bind_iff]
  refine ends_metadata (fun error => nofun) fun f _ => ?_
  dsimp only
  refine (attached_rotateIf readable _ attached 1).bind (fun error s₁ _ => nofun) fun _ s₁ h => ?_
  obtain ⟨attached₁, others₁⟩ := h rfl
  obtain ⟨s₁, n₁⟩ := s₁
  rw [ends_bind_iff]
  refine ends_metadata (fun error => nofun) fun g _ => ?_
  dsimp only
  rw [ends_bind_iff]
  refine ends_write (fun error => nofun) fun _ k _ => ?_
  dsimp only
  obtain ⟨file, hfile, hname⟩ := Disk.find_eq_some_iff.1 attached₁
  refine (holds_cleanupRetention readable valid ?_ _).bind (fun error s₂ _ => nofun)
    fun _ s₂ h => ?_
  · split_ifs
    · exact attached₁
    · show (s₁.disk.append _ _ _).find currentLog = _
      rw [Disk.find_append]
      exact attached₁
  · obtain ⟨holds, others₂⟩ := h rfl
    refine fun _ => ⟨holds, others₂.trans ?_⟩
    rw [← others₁]
    split_ifs
    · rfl
    · exact Disk.others_append hfile hname isKeyroLog_currentLog _ _

/-- A directory with a current log, which is open, and a stray file. -/
def openDirectory : LogDir where
  disk := ⟨[⟨some currentLog, [1, 2, 3], 0⟩, ⟨some (.text "studio.log"), [4], 0⟩], by decide⟩
  file := 0

/-- Two log files of four bytes. -/
def narrowRetention : LogRetention := ⟨4, 8, 2, 1000⟩

theorem limits_after_write_example :
    let (result, s', _) := (LogState.write narrowRetention [5, 6]).run.exec
      (timed filesystem undisturbed) (openDirectory, 0)
    result = .ok 2 ∧ narrowRetention.Holds s'.disk.logFiles ∧
      s'.disk.others = [⟨some (.text "studio.log"), [4], 0⟩] := by
  have ok : ((LogState.write narrowRetention [5, 6]).run.exec (timed filesystem undisturbed)
      (openDirectory, 0)).1 = .ok 2 := by decide +kernel
  obtain ⟨holds, others⟩ := limits_after_write narrowRetention (by decide) undisturbed
    readable_undisturbed openDirectory (by decide) [5, 6] (by decide) 2 ok
  exact ⟨ok, holds, others⟩

/-! ## Startup -/

/-- The current log is in the directory and survives the clean-up, or the clean-up keeps fewer files
than the limit. -/
def LogRetention.HasRoom (retention : LogRetention) (cutoff : Time) (logFiles : List LogFile) : Prop :=
  (∃ logFile ∈ logFiles, logFile.path = currentLog ∧ ¬ retention.Discards cutoff logFile) ∨
    (retention.kept cutoff logFiles).length < retention.maxFiles

theorem logFiles_create {d : Disk} (stamp : Time) (absent : d.find currentLog = none) :
    (d.create currentLog stamp absent).logFiles = d.logFiles ++ [⟨true, currentLog, stamp, 0⟩] := by
  show (d.files ++ [_]).filterMap _ = _
  rw [List.filterMap_append]
  rfl

/-- The survivors contain the current log exactly if it was kept. -/
theorem current_ne_nil_iff {cutoff : Time} {d : Disk} {order : List FileName}
    (perm : order.Perm d.names) : retention.current cutoff (d.listedLogs order) ≠ [] ↔
      ∃ logFile ∈ d.listedLogs order, logFile.path = currentLog ∧
        ¬ retention.Discards cutoff logFile := by
  have isCurrent {logFile : LogFile} (h : logFile ∈ d.listedLogs order) :
      logFile.isCurrent = decide (logFile.path = currentLog) :=
    Disk.isCurrent_of_mem ((Disk.listedLogs_perm perm).mem_iff.1 h)
  unfold LogRetention.current newestFirst
  rw [Ne, List.filter_eq_nil_iff]
  simp only [Rows.mem_orderBy]
  constructor
  · intro h
    push Not at h
    obtain ⟨logFile, mem, current⟩ := h
    obtain ⟨listed, keeps⟩ := List.mem_filter.1 mem
    rw [isCurrent listed, decide_eq_true_iff] at current
    exact ⟨logFile, listed, current, of_decide_eq_true keeps⟩
  · rintro ⟨logFile, listed, current, keeps⟩ h
    refine h logFile (List.mem_filter.2 ⟨listed, decide_eq_true keeps⟩) ?_
    rw [isCurrent listed, decide_eq_true_iff]
    exact current

theorem checkedSub_eq_some {time cutoff : Time} {age : ℕ} (h : checkedSub time age = some cutoff) :
    cutoff = time - age := by
  unfold checkedSub at h
  split_ifs at h
  exact (Option.some.inj h).symm

/-- Whether the current log is still there after a clean-up. -/
theorem find_cleaned {cutoff : Time} {d : Disk} {order : List FileName} (perm : order.Perm d.names) :
    ((d.unlink (retention.removed cutoff (d.listedLogs order))).find currentLog).isSome ↔
      ∃ logFile ∈ d.listedLogs order, logFile.path = currentLog ∧
        ¬ retention.Discards cutoff logFile := by
  have survivors : (d.unlink (retention.removed cutoff (d.listedLogs order))).logFiles.Perm _ :=
    logFiles_cleaned perm
  have isCurrent {logFile : LogFile} (h : logFile ∈ d.listedLogs order) :
      logFile.isCurrent = decide (logFile.path = currentLog) :=
    Disk.isCurrent_of_mem ((Disk.listedLogs_perm perm).mem_iff.1 h)
  rw [Disk.find_isSome_iff, ← current_ne_nil_iff perm]
  constructor
  · intro known
    have path : currentLog ∈ (d.unlink (retention.removed cutoff
        (d.listedLogs order))).logFiles.map LogFile.path := by
      rw [Disk.paths_logFiles]
      exact List.mem_filter.2 ⟨known, isKeyroLog_currentLog⟩
    obtain ⟨logFile, mem, current⟩ := List.mem_map.1 path
    have mem := survivors.mem_iff.1 mem
    have listed := discarded_passedOver_survive.mem_iff.1 (List.mem_append_right _ mem)
    rcases List.mem_append.1 mem with mem | mem
    · exact List.ne_nil_of_mem mem
    · rw [current_ne_nil_iff perm]
      exact ⟨logFile, listed, current, mem_kept mem⟩
  · intro some
    obtain ⟨logFile, mem⟩ := List.exists_mem_of_ne_nil _ some
    have isCurrentLog := (List.mem_filter.1 mem).2
    have listed := discarded_passedOver_survive.mem_iff.1
      (List.mem_append_right _ (List.mem_append_left _ mem))
    rw [isCurrent listed, decide_eq_true_iff] at isCurrentLog
    have path := List.mem_map_of_mem (f := LogFile.path)
      (survivors.mem_iff.2 (List.mem_append_left _ mem))
    rw [Disk.paths_logFiles, isCurrentLog] at path
    exact (List.mem_filter.1 path).1

/-- After a startup that succeeds, with entries that can be examined, the directory has a current
log and is within the limits if and only if there was room for the current log. -/
theorem limits_at_startup (retention : LogRetention) (inputs : ℕ → FsInput)
    (readable : Readable inputs) (d : Disk) (file : ℕ) :
    let (result, s', _) := (RotatingLogWriter.new retention).run.exec (timed filesystem inputs)
      (⟨d, file⟩, 0)
    result = .ok () → (currentLog ∈ s'.disk.names ∧ retention.Holds s'.disk.logFiles ↔
      retention.HasRoom ((inputs 1).now - retention.maxAge)
        (d.listedLogs ((inputs 2).listing.arrange d.names))) := by
  show Ends (timed filesystem inputs) (RotatingLogWriter.new retention) (⟨d, file⟩, 0)
    fun result s' => result = .ok () → (currentLog ∈ s'.1.disk.names ∧
      retention.Holds s'.1.disk.logFiles ↔ _)
  unfold RotatingLogWriter.new
  rcases valid : validateRetention retention with error | ⟨⟩
  · nofun
  rw [ends_bind_iff]
  show Ends _ (pure ()) _ _
  rw [ends_pure_iff]
  dsimp only
  rw [ends_bind_iff]
  refine ends_createDirAll (fun error => nofun) ?_
  dsimp only
  refine (ends_cleanupLogs readable ⟨d, file⟩ 1).bind (fun error s₁ _ => nofun) fun _ s₁ h => ?_
  obtain ⟨cutoff, hcut, eq⟩ := h rfl
  rw [← checkedSub_eq_some hcut]
  have perm := (inputs 2).listing.perm d.names
  generalize hL : d.listedLogs ((inputs 2).listing.arrange d.names) = logFiles
  have one : OneCurrent logFiles := hL ▸ OneCurrent.perm (Disk.listedLogs_perm perm) d.oneCurrent
  set order := (inputs 2).listing.arrange d.names with horder
  have survivors : (d.unlink (retention.removed cutoff (d.listedLogs order))).logFiles.Perm _ :=
    logFiles_cleaned perm
  have survives : ((d.unlink (retention.removed cutoff (d.listedLogs order))).find
    currentLog).isSome ↔ _ := find_cleaned perm
  have kept : retention.current cutoff logFiles ≠ [] ↔ _ := hL ▸ current_ne_nil_iff perm
  rw [hL] at survivors survives
  have holds : retention.Holds (retention.current cutoff logFiles ++ retention.kept cutoff logFiles) :=
    holds_survivors valid one
  have holds := holds.perm survivors.symm
  obtain ⟨s₁, n₁⟩ := s₁
  have eq : s₁.disk = d.unlink (retention.removed cutoff logFiles) := by
    rw [← hL]
    exact congrArg LogDir.disk eq
  rw [← eq] at survivors survives holds
  rw [ends_bind_iff]
  refine ends_openAppend (fun error => nofun) (fun i found _ => ?_) fun absent _ => ?_
  · -- the current log survived
    refine iff_of_true ⟨Disk.find_isSome_iff.1 ?_, holds⟩ (.inl (survives.1 ?_))
    · show (s₁.disk.find currentLog).isSome
      rw [found]
      rfl
    · rw [found]
      rfl
  · -- the current log is created next to the files kept
    have none : ¬ ∃ logFile ∈ logFiles, logFile.path = currentLog ∧
        ¬ retention.Discards cutoff logFile := by
      rw [← survives, absent]
      nofun
    have nil : retention.current cutoff logFiles = [] := not_not.1 (kept.not.2 none)
    rw [nil, List.nil_append] at survivors
    have listed := logFiles_create (inputs n₁).stamp absent
    have total : Greedy.total LogFile.size (s₁.disk.logFiles ++
        [⟨true, currentLog, (inputs n₁).stamp, 0⟩]) = Greedy.total LogFile.size s₁.disk.logFiles := by
      rw [Greedy.total_append]
      rfl
    unfold LogRetention.HasRoom
    rw [or_iff_right none, ← survivors.length_eq]
    show currentLog ∈ (s₁.disk.create currentLog _ absent).names ∧
      retention.Holds (s₁.disk.create currentLog _ absent).logFiles ↔ _
    rw [listed]
    constructor
    · rintro ⟨-, within⟩
      have count := within.count
      rw [List.length_append, List.length_singleton] at count
      omega
    · intro room
      refine ⟨?_, ?_, total ▸ holds.total, fun logFile mem => ?_⟩
      · rw [Disk.names_create]
        exact List.mem_append_right _ (List.mem_singleton_self _)
      · rw [List.length_append, List.length_singleton]
        omega
      · rcases List.mem_append.1 mem with mem | mem
        · exact holds.each logFile mem
        · rw [List.mem_singleton.1 mem]
          exact Nat.zero_le _

/-- A directory whose current log survives the clean-up. -/
theorem limits_at_startup_example :
    let (result, s', _) := (RotatingLogWriter.new narrowRetention).run.exec
      (timed filesystem undisturbed) (openDirectory, 0)
    result = .ok () ∧ currentLog ∈ s'.disk.names ∧ narrowRetention.Holds s'.disk.logFiles := by
  have ok : ((RotatingLogWriter.new narrowRetention).run.exec (timed filesystem undisturbed)
      (openDirectory, 0)).1 = .ok () := by decide +kernel
  have room : narrowRetention.HasRoom ((undisturbed 1).now - narrowRetention.maxAge)
      (openDirectory.disk.listedLogs ((undisturbed 2).listing.arrange openDirectory.disk.names)) :=
    .inl ⟨⟨true, currentLog, 0, 3⟩, by decide +kernel, rfl, by decide +kernel⟩
  exact ⟨ok, (limits_at_startup narrowRetention undisturbed readable_undisturbed openDirectory.disk
    openDirectory.file ok).2 room⟩

/-- A directory with one rotated file and no current log. -/
def rotatedOnly : Disk := ⟨[⟨some (rotatedLog 0), [1], 0⟩], by decide +kernel⟩

/-- A single file is allowed, and the startup leaves two. -/
theorem limits_at_startup_exceeded :
    let (result, s', _) := (RotatingLogWriter.new ⟨4, 8, 1, 1000⟩).run.exec
      (timed filesystem undisturbed) (⟨rotatedOnly, 0⟩, 0)
    result = .ok () ∧ ¬ s'.disk.logFiles.length ≤ 1 := by
  decide +kernel

end KeyroCore
