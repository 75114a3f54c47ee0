import KeyroCore.Logging.Handle
import KeyroCore.Logging.Layout

/-!
# The retained log

While no file expires, the log files that are left hold the last bytes that were written, provided
that every clean-up drops the oldest files first.
-/

open Effect Program Fallible

namespace KeyroCore

/-! ## What was written -/

/-- The time of the last write and all bytes written so far. -/
structure Written where
  last : Option Time
  log : List UInt8
  deriving DecidableEq

/-- Every write stamps the current log later than the writes before it. -/
def stamping (inputs : ℕ → FsInput) : Monitor FsCalls (LogDir × ℕ) Written where
  allows w s a := appended a ≠ [] → ∀ time ∈ w.last, time < (inputs s.2).stamp
  next w s a := if appended a = [] then w else
    ⟨some (inputs s.2).stamp, w.log ++ appended a⟩

instance (inputs : ℕ → FsInput) (w : Written) (s : LogDir × ℕ) :
    DecidablePred ((stamping inputs).allows w s) := fun a =>
  inferInstanceAs (Decidable (appended a ≠ [] → ∀ time ∈ w.last, time < (inputs s.2).stamp))

theorem log_after (inputs : ℕ → FsInput) (w : Written)
    (trace : List ((LogDir × ℕ) × Act FsCalls)) : ((stamping inputs).after w trace).log =
      w.log ++ trace.flatMap fun x => appended x.2 := by
  induction trace generalizing w with
  | nil => exact (List.append_nil _).symm
  | cons x trace ih =>
    show ((stamping inputs).after ((stamping inputs).next w x.1 x.2) trace).log = _
    rw [ih, List.flatMap_cons, ← List.append_assoc]
    congr 1
    show (if appended x.2 = [] then w else _).log = _
    split_ifs with none
    · rw [none, List.append_nil]
    · rfl

/-- Whenever the clock is read, no log file is too old. -/
def LogRetention.NothingExpires (retention : LogRetention) (s : LogDir × ℕ) : Act FsCalls → Prop
  | ⟨.now, time⟩ => ∀ logFile ∈ s.1.disk.logFiles, time - retention.maxAge ≤ logFile.modified
  | _ => True

instance (retention : LogRetention) (s : LogDir × ℕ) : DecidablePred (retention.NothingExpires s)
  | ⟨.now, time⟩ => inferInstanceAs (Decidable
    (∀ logFile ∈ s.1.disk.logFiles, time - (retention.maxAge : ℤ) ≤ (logFile.modified : ℤ)))
  | ⟨.createDirAll, _⟩ | ⟨.readDir, _⟩ | ⟨.entryMetadata _, _⟩ | ⟨.exists _, _⟩ |
    ⟨.removeFile _, _⟩ | ⟨.rename _ _, _⟩ | ⟨.openAppend _, _⟩ | ⟨.setFile _, _⟩ | ⟨.metadata, _⟩ |
    ⟨.flush, _⟩ | ⟨.write _, _⟩ => .isTrue trivial

/-- Whenever the directory is listed, the oldest files are to be dropped first. -/
def LogRetention.InOrder (retention : LogRetention) (s : LogDir × ℕ) (a : Act FsCalls) : Prop :=
  a.op = .readDir → retention.DropsOldest s.1.disk

instance (retention : LogRetention) (s : LogDir × ℕ) : DecidablePred (retention.InOrder s) :=
  fun a => inferInstanceAs (Decidable (a.op = .readDir → retention.DropsOldest s.1.disk))

/-- The monitor of the runs in which nothing expires and the oldest files are dropped first. -/
def LogRetention.retaining (retention : LogRetention) (inputs : ℕ → FsInput) :
    Monitor FsCalls (LogDir × ℕ) Written :=
  (stamping inputs).guard fun s a => retention.NothingExpires s a ∧ retention.InOrder s a

/-! ## The files as a tail -/

/-- The current log counts once it has bytes. -/
def Segment.live (f : Segment) : List Segment := if f.bytes = [] then [] else [f]

theorem Segment.flatMap_live (f : Segment) :
    f.live.reverse.flatMap Segment.bytes = f.bytes := by
  unfold live
  split_ifs with empty
  · exact empty.symm
  · exact List.append_nil _

/-- Files, newest first, that hold the end of what was written. -/
structure Tail (retention : LogRetention) (w : Written) (files : List Segment) : Prop where
  size : ∀ f ∈ files, f.bytes.length ≤ retention.maxFileBytes.toNat
  past : ∀ f ∈ files, ∃ time ∈ w.last, f.modified ≤ time
  sorted : files.Pairwise fun a b => b.modified < a.modified
  suffix : files.reverse.flatMap Segment.bytes <:+ w.log

namespace Tail

variable {retention : LogRetention} {w : Written} {files : List Segment}

theorem nil : Tail retention w [] where
  size := List.forall_mem_nil _
  past := List.forall_mem_nil _
  sorted := .nil
  suffix := List.nil_suffix

/-- Dropping the oldest files. -/
theorem take (h : Tail retention w files) (j : ℕ) : Tail retention w (files.take j) where
  size f hf := h.size f (List.mem_of_mem_take hf)
  past f hf := h.past f (List.mem_of_mem_take hf)
  sorted := h.sorted.sublist (List.take_sublist _ _)
  suffix := by
    refine List.IsSuffix.trans ?_ h.suffix
    conv_rhs => rw [← List.take_append_drop j files]
    rw [List.reverse_append, List.flatMap_append]
    exact List.suffix_append _ _

/-- A write to the current log. -/
theorem write {current : Segment} {rotated : List Segment} {bytes : List UInt8}
    {stamp : Time} (h : Tail retention w (current.live ++ rotated))
    (size : (current.bytes ++ bytes).length ≤ retention.maxFileBytes.toNat)
    (rises : ∀ time ∈ w.last, time < stamp) :
    Tail retention ⟨some stamp, w.log ++ bytes⟩
      (⟨current.bytes ++ bytes, stamp⟩ :: rotated) where
  size := List.forall_mem_cons.2 ⟨size, fun f hf => h.size f (List.mem_append_right _ hf)⟩
  past := by
    refine List.forall_mem_cons.2 ⟨⟨_, rfl, le_refl _⟩, fun f hf => ?_⟩
    obtain ⟨time, ht, le⟩ := h.past f (List.mem_append_right _ hf)
    exact ⟨_, rfl, le.trans (rises time ht).le⟩
  sorted := by
    refine List.pairwise_cons.2 ⟨fun f hf => ?_, (List.pairwise_append.1 h.sorted).2.1⟩
    obtain ⟨time, ht, le⟩ := h.past f (List.mem_append_right _ hf)
    exact lt_of_le_of_lt le (rises time ht)
  suffix := by
    obtain ⟨dropped, eq⟩ := h.suffix
    refine ⟨dropped, ?_⟩
    rw [List.reverse_append, List.flatMap_append, Segment.flatMap_live] at eq
    rw [← eq]
    simp only [List.reverse_cons, List.flatMap_append, List.flatMap_cons, List.flatMap_nil,
      List.append_nil, List.append_assoc]

end Tail

/-- The directory of a writer whose open file is the current log, and whose files hold the end of
what was written. -/
structure LogDir.Retains (retention : LogRetention) (s : LogDir) (w : Written)
    (rotated : List Segment) (current : Segment) : Prop where
  layout : s.disk.Layout rotated (some current)
  attached : s.Attached
  count : rotated.length ≤ retention.maxFiles - 1
  tail : Tail retention w (current.live ++ rotated)
  size : current.bytes.length ≤ retention.maxFileBytes.toNat

/-! ## Steps -/

section Steps

variable {retention : LogRetention} {inputs : ℕ → FsInput} {w : Written}

/-- A program that writes no bytes does not move the monitor. -/
theorem watched_quiet {α : Type} {p : Fs α} {s : LogDir × ℕ}
    {E : Except IoError α → LogDir × ℕ → Prop} (ends : Ends (timed filesystem inputs) p s E)
    (uses : p.run.Uses FsOp.KeepsBytes) :
    Watched (retention.retaining inputs) (timed filesystem inputs) p s w
      fun result s' w' => w' = w ∧ E result s' :=
  ends.watched uses fun _ _ _ quiet => if_pos (appended_of_ne quiet)

theorem watched_unexpired (s : LogDir) (n : ℕ) :
    Watched (retention.retaining inputs) (timed filesystem inputs) (retentionCutoff retention) (s, n)
      w fun result s' w' => w' = w ∧ s'.1 = s ∧ ∀ cutoff, result = .ok cutoff →
        cutoff = (inputs n).now - retention.maxAge ∧
          ∀ logFile ∈ s.disk.logFiles, cutoff ≤ logFile.modified := by
  unfold retentionCutoff
  rw [watched_bind_iff]
  refine watched_call_iff.2 fun allowed => ?_
  rw [show timed filesystem inputs .now (s, n) = ((inputs n).now, s, n + 1) from rfl]
  dsimp only
  rcases h : checkedSub (inputs n).now retention.maxAge with _ | cutoff
  · exact watched_throw_iff.2 ⟨rfl, rfl, fun _ h => by cases h⟩
  · refine watched_pure_iff.2 ⟨rfl, rfl, ?_⟩
    rintro _ ⟨⟩
    have young : ∀ logFile ∈ s.disk.logFiles,
        (inputs n).now - retention.maxAge ≤ logFile.modified := allowed.2.1
    exact ⟨checkedSub_eq_some h, checkedSub_eq_some h ▸ young⟩

/-- A clean-up reads the clock and lists the directory as it is. -/
theorem watched_inOrder (s : LogDir) (n : ℕ) :
    Watched (retention.retaining inputs) (timed filesystem inputs) (cleanupLogs retention) (s, n) w
      fun result _ _ => result = .ok () → retention.DropsOldest s.disk ∧
        ∀ logFile ∈ s.disk.logFiles, (inputs n).now - retention.maxAge ≤ logFile.modified := by
  unfold cleanupLogs
  refine (watched_unexpired s n).bind (fun _ _ _ _ => nofun) fun cutoff s₁ w₁ h => ?_
  obtain ⟨-, rfl, young⟩ := h
  obtain ⟨rfl, young⟩ := young cutoff rfl
  rw [watched_bind_iff]
  refine watched_perform_iff (S := FsCalls) (o := .readDir) (g := id) |>.2 fun allowed => ?_
  have drops : retention.DropsOldest s₁.1.disk := allowed.2.2 rfl
  split
  · exact fun _ _ => ⟨drops, young⟩
  · nofun

/-- A clean-up drops some of the oldest rotated files. -/
theorem watched_cleanupLogs_layout (readable : Readable inputs)
    (valid : validateRetention retention = .ok ()) {s : LogDir} {rotated : List Segment}
    {current : Option Segment} (layout : s.disk.Layout rotated current)
    (sorted : rotated.Pairwise fun a b => b.modified < a.modified)
    (room : current.toList.length + rotated.length ≤ retention.maxFiles)
    (size : ∀ f ∈ current.toList ++ rotated, f.bytes.length ≤ retention.maxFileBytes.toNat) (n : ℕ) :
    Watched (retention.retaining inputs) (timed filesystem inputs) (cleanupLogs retention) (s, n) w
      fun result s' w' => result = .ok () → w' = w ∧
        ∃ gone j, s'.1 = s.unlink gone ∧ s'.1.disk.Layout (rotated.take j) current := by
  intro accepts ok
  obtain ⟨drops, young⟩ := watched_inOrder s n accepts ok
  obtain ⟨same, cleaned⟩ := watched_quiet (ends_cleanupLogs readable s n) keepsBytes_cleanupLogs
    accepts
  obtain ⟨cutoff, hcut, eq⟩ := cleaned ok
  have fresh : ∀ x ∈ s.disk.logFiles, ¬ retention.Discards cutoff x := by
    intro x hx
    rintro (old | long)
    · rw [checkedSub_eq_some hcut] at old
      exact absurd old (not_lt.2 (young x hx))
    · refine absurd long (not_lt.2 ?_)
      rcases List.mem_append.1 (layout.logFiles_perm.mem_iff.1 hx) with mem | mem
      · obtain ⟨f, hf, rfl⟩ := Option.map_eq_some_iff.1 (Option.mem_toList.1 mem)
        exact size f (List.mem_append_left _ (Option.mem_toList.2 hf))
      · obtain ⟨i, f, hf, rfl⟩ := mem_rotatedEntries.1 mem
        exact size f (List.mem_append_right _ (List.mem_of_getElem? hf))
  have room' : (currentEntries current).length + rotated.length ≤ retention.maxFiles := by
    have length : (currentEntries current).length = current.toList.length := by
      cases current <;> rfl
    omega
  obtain ⟨j, -, left⟩ := layout.cleaned ((inputs (n + 1)).listing.perm s.disk.names) sorted fresh
    valid room' drops
  refine ⟨same, _, j, eq, ?_⟩
  rw [eq]
  exact left

variable (readable : Readable inputs) (valid : validateRetention retention = .ok ())

include readable valid

theorem LogDir.Retains.cleaned {s : LogDir} {rotated : List Segment} {current : Segment}
    (h : s.Retains retention w rotated current) (n : ℕ) :
    Watched (retention.retaining inputs) (timed filesystem inputs)
      (cleanupLogs retention) (s, n) w fun result s' w' => result = .ok () → w' = w ∧
        ∃ rotated', s'.1.Retains retention w rotated' current := by
  obtain ⟨-, places, -⟩ := validateRetention_ok_iff.1 valid
  have count := h.count
  have files : ∀ f ∈ (some current).toList ++ rotated,
      f.bytes.length ≤ retention.maxFileBytes.toNat :=
    List.forall_mem_cons.2 ⟨h.size, fun f hf => h.tail.size f (List.mem_append_right _ hf)⟩
  refine (watched_cleanupLogs_layout readable valid h.layout
    (List.pairwise_append.1 h.tail.sorted).2.1 ?_ files n).mono fun result s' w' cleaned ok => ?_
  · show 1 + _ ≤ _
    omega
  obtain ⟨same, gone, j, eq, layout⟩ := cleaned ok
  refine ⟨same, rotated.take j, layout, ?_, ?_, ?_, h.size⟩
  · rw [eq] at layout ⊢
    have stays := layout.current
    rw [LogDir.unlink, Disk.segment_unlink] at stays
    show (s.disk.unlink gone).find currentLog = some s.file
    rw [Disk.find_unlink]
    split_ifs at stays ⊢
    exact h.attached
  · rw [List.length_take]
    omega
  · have tail := h.tail.take (current.live.length + j)
    rwa [List.take_length_add_append] at tail

/-- A rotation puts the current log in front of the rotated files and drops some of the oldest. -/
theorem LogDir.Retains.rotateLogs {s : LogDir} {rotated : List Segment} {current : Segment}
    (h : s.Retains retention w rotated current) (started : current.bytes ≠ []) (n : ℕ) :
    Watched (retention.retaining inputs) (timed filesystem inputs)
      (rotateLogs retention) (s, n) w fun result s' w' => result = .ok () → w' = w ∧
        ∃ j, s'.1.disk.Layout ((current :: rotated).take j) none ∧ j ≤ retention.maxFiles - 1 := by
  have live : current.live = [current] := if_neg started
  have tail := h.tail
  rw [live, List.singleton_append] at tail
  unfold KeyroCore.rotateLogs
  dsimp only
  split_ifs with single
  · refine (watched_quiet (ends_removeIfExists readable.visible currentLog s n)
      (uses_removeIfExists nofun nofun)).mono fun result s' w' removed ok => ?_
    obtain ⟨same, eq⟩ := removed
    refine ⟨same, 0, ?_, Nat.zero_le _⟩
    have empty : rotated = [] := List.eq_nil_of_length_eq_zero (by have := h.count; omega)
    rw [eq ok, List.take_zero, ← empty]
    exact h.layout.unlinkCurrent
  refine (watched_quiet (ends_moveLogs readable.visible _ s n) (keepsBytes_moveLogs _)).bind
    (fun _ _ _ _ => nofun) fun _ s₁ w₁ moved => ?_
  obtain ⟨rfl, eq⟩ := moved
  obtain ⟨s₁, n₁⟩ := s₁
  obtain rfl : s₁ = _ := eq rfl
  have layout := h.layout.relabel (Nat.pos_of_ne_zero single) h.count
  have front := tail.take (retention.maxFiles - 1)
  have room : (none : Option Segment).toList.length +
      ((current :: rotated).take (retention.maxFiles - 1)).length ≤ retention.maxFiles := by
    show 0 + _ ≤ _
    rw [List.length_take]
    omega
  refine (watched_cleanupLogs_layout readable valid layout front.sorted room
    front.size n₁).mono fun result s' w' cleaned ok => ?_
  obtain ⟨same, gone, j, -, layout⟩ := cleaned ok
  rw [List.take_take] at layout
  exact ⟨same, _, layout, Nat.min_le_right _ _⟩

omit readable valid in
/-- Opening the current log creates it after a rotation. -/
theorem retains_openCurrentLog {s : LogDir} {rotated : List Segment}
    (layout : s.disk.Layout rotated none) (count : rotated.length ≤ retention.maxFiles - 1)
    (tail : Tail retention w rotated) (n : ℕ) :
    Watched (retention.retaining inputs) (timed filesystem inputs)
      (do let file ← openCurrentLog; Fs.ask (.setFile file)) (s, n) w fun result s' w' =>
        result = .ok () → w' = w ∧
          ∃ rotated' current', s'.1.Retains retention w rotated' current' := by
  have opened : Ends (timed filesystem inputs)
      (do let file ← openCurrentLog; Fs.ask (.setFile file)) (s, n) fun result s' =>
        result = .ok () →
          ∃ rotated' current', s'.1.Retains retention w rotated' current' := by
    rw [ends_bind_iff]
    refine ends_openAppend (fun _ => nofun) (fun i found => ?_) fun absent _ => ?_
    · exact absurd found (layout.absent ▸ nofun)
    refine ⟨rotated, ⟨[], (inputs n).stamp⟩, layout.create _ absent, ?_, count, tail,
      Nat.zero_le _⟩
    exact (Disk.find_create _ _ absent _).trans (if_pos rfl)
  refine (watched_quiet opened ?_).mono fun result s' w' h ok => ⟨h.1, h.2 ok⟩
  exact Fallible.uses_bind (Program.uses_call nofun) fun _ => uses_ask nofun

theorem LogDir.Retains.rotate {s : LogDir} {rotated : List Segment} {current : Segment}
    (h : s.Retains retention w rotated current) (started : current.bytes ≠ []) (n : ℕ) :
    Watched (retention.retaining inputs) (timed filesystem inputs)
      (LogState.rotate retention) (s, n) w fun result s' w' => result = .ok () → w' = w ∧
        ∃ rotated' current', s'.1.Retains retention w rotated' current' := by
  have tail := h.tail
  rw [Segment.live, if_neg started, List.singleton_append] at tail
  unfold LogState.rotate
  have flushed : Ends (timed filesystem inputs) Fs.flush (s, n) fun _ s' => s'.1 = s :=
    ends_flush (fun _ => rfl) rfl
  refine (watched_quiet flushed (Program.uses_call nofun)).bind (fun _ _ _ _ => nofun)
    fun _ s₁ w₁ same => ?_
  obtain ⟨s₁, n₁⟩ := s₁
  obtain ⟨rfl, rfl⟩ : w₁ = w ∧ s₁ = s := same
  refine (h.rotateLogs readable valid started n₁).bind (fun _ _ _ _ => nofun)
    fun _ s₂ w₂ moved => ?_
  obtain ⟨rfl, j, layout, bound⟩ := moved rfl
  refine retains_openCurrentLog layout ?_ (tail.take j) _
  exact (List.length_take_le _ _).trans bound

theorem LogDir.Retains.rotateIf {s : LogDir} {rotated : List Segment} {current : Segment}
    (h : s.Retains retention w rotated current) {needed : Bool}
    (started : needed = true → current.bytes ≠ []) (n : ℕ) :
    Watched (retention.retaining inputs) (timed filesystem inputs)
      (LogState.rotateIf retention needed) (s, n) w fun result s' w' => result = .ok () → w' = w ∧
        ∃ rotated' current', s'.1.Retains retention w rotated' current' := by
  unfold LogState.rotateIf
  split_ifs with h'
  · exact h.rotate readable valid (started h') n
  · exact watched_pure_iff.2 fun _ => ⟨rfl, rotated, current, h⟩

omit readable valid in
/-- The open file is the current log. -/
theorem LogDir.Retains.file {s : LogDir} {rotated : List Segment} {current : Segment}
    (h : s.Retains retention w rotated current) {f : Inode}
    (hf : s.disk.files[s.file]? = some f) : f.segment = current := by
  have found := h.layout.current
  rw [Disk.segment_eq_bind_find, h.attached, Option.bind_some, hf, Option.map_some] at found
  exact Option.some.inj found

/-- The clean-up at the end of a write. -/
theorem LogDir.Retains.cleanupRetention {s : LogDir} {rotated : List Segment} {current : Segment}
    (h : s.Retains retention w rotated current) (n : ℕ) :
    Watched (retention.retaining inputs) (timed filesystem inputs)
      (LogState.cleanupRetention retention) (s, n) w fun result s' w' => result = .ok () →
        w' = w ∧ ∃ rotated' current', s'.1.Retains retention w rotated' current' := by
  obtain ⟨positive, -, -⟩ := validateRetention_ok_iff.1 valid
  unfold LogState.cleanupRetention
  have check : Watched (retention.retaining inputs) (timed filesystem inputs)
      (currentLogNeedsRotation retention) (s, n) w fun result s' w' =>
        w' = w ∧ s'.1 = s ∧ (result = .ok true → current.bytes ≠ []) := by
    unfold currentLogNeedsRotation
    have sized : Ends (timed filesystem inputs) Fs.metadata (s, n) fun result s' => s'.1 = s ∧
        ∀ metadata, result = .ok metadata →
          metadata.len = current.bytes.length ∧ metadata.modified = some current.modified := by
      refine ends_metadata (fun _ => ⟨rfl, nofun⟩) fun f hf => ⟨rfl, ?_⟩
      rintro _ ⟨⟩
      rw [← h.file hf]
      exact ⟨rfl, if_pos (readable n).2⟩
    refine (watched_quiet sized (Program.uses_call nofun)).bind (fun _ _ _ h => ⟨h.1, h.2.1, nofun⟩)
      fun metadata s₁ w₁ h₁ => ?_
    obtain ⟨s₁, n₁⟩ := s₁
    obtain ⟨rfl, rfl, known⟩ : w₁ = w ∧ s₁ = s ∧ _ := h₁
    obtain ⟨length, modified⟩ := known metadata rfl
    split_ifs with full
    · refine watched_pure_iff.2 ⟨rfl, rfl, fun _ empty => ?_⟩
      rw [length, empty] at full
      exact absurd positive (Nat.not_lt.2 full)
    · refine (watched_unexpired s₁ n₁).bind (fun _ _ _ h => ⟨h.1, h.2.1, nofun⟩)
        fun cutoff s₂ w₂ h₂ => ?_
      obtain ⟨rfl, rfl, young⟩ := h₂
      refine watched_pure_iff.2 ⟨rfl, rfl, fun old => ?_⟩
      have mem : current.entry currentLog ∈ s₂.1.disk.logFiles := h.layout.logFiles_perm.mem_iff.2
        (List.mem_append_left _ (List.mem_singleton_self _))
      have late : cutoff ≤ current.modified := (young cutoff rfl).2 _ mem
      have old := Except.ok.inj old
      rw [modified, Option.any_some, decide_eq_true_iff] at old
      exact absurd old (not_lt.2 late)
  refine check.bind (fun _ _ _ _ => nofun) fun needed s₁ w₁ checked => ?_
  obtain ⟨s₁, n₁⟩ := s₁
  obtain ⟨rfl, rfl, started⟩ : w₁ = w ∧ s₁ = s ∧ (Except.ok needed = .ok true → _) := checked
  refine (h.rotateIf readable valid (fun h => started (congrArg _ h)) n₁).bind
    (fun _ _ _ _ => nofun) fun _ s₂ w₂ rotated => ?_
  obtain ⟨rfl, rotated', current', h'⟩ := rotated rfl
  refine (h'.cleaned readable valid s₂.2).mono fun result s' w' cleaned ok => ?_
  obtain ⟨same, rotated'', h''⟩ := cleaned ok
  exact ⟨same, rotated'', current', h''⟩

omit readable valid in
/-- New bytes at the end of the current log. -/
theorem LogDir.Retains.append {s : LogDir} {rotated : List Segment} {current : Segment}
    (h : s.Retains retention w rotated current) {bytes : List UInt8} (some : bytes ≠ [])
    (size : (current.bytes ++ bytes).length ≤ retention.maxFileBytes.toNat) {n : ℕ}
    (rises : ∀ time ∈ w.last, time < (inputs n).stamp) :
    ({ s with disk := s.disk.append s.file bytes (inputs n).stamp } : LogDir).Retains retention
      ⟨.some (inputs n).stamp, w.log ++ bytes⟩ rotated ⟨current.bytes ++ bytes, (inputs n).stamp⟩ where
  layout := h.layout.append h.attached bytes _
  attached := by
    show (s.disk.append _ _ _).find currentLog = _
    rw [Disk.find_append]
    exact h.attached
  count := h.count
  tail := by
    rw [Segment.live, if_neg (by simp [some])]
    exact h.tail.write size rises
  size := size

omit readable valid in
theorem LogDir.Retains.writeChunk {s : LogDir} {rotated : List Segment} {current : Segment}
    (h : s.Retains retention w rotated current) {bytes : List UInt8}
    (fits : current.bytes.length + bytes.length ≤ retention.maxFileBytes.toNat) (n : ℕ) :
    Watched (retention.retaining inputs) (timed filesystem inputs) (Fs.write bytes)
      (s, n) w fun result s' w' => ∀ k, result = .ok k →
        ∃ current', s'.1.Retains retention w' rotated current' := by
  refine watched_perform_iff (S := FsCalls) (o := .write bytes) (g := id) |>.2 fun allowed k ok => ?_
  rcases filesystem_write (inputs n) s bytes with ⟨error, eq⟩ | ⟨-, k, hk, eq⟩
  · simp only [timed, eq] at ok
    cases ok
  simp only [timed, eq] at allowed ⊢
  by_cases zero : k = 0
  · subst zero
    exact ⟨current, h⟩
  have some : bytes.take k ≠ [] := by
    intro none
    have length := congrArg List.length none
    rw [List.length_take, List.length_nil] at length
    omega
  rw [if_neg zero]
  refine ⟨⟨current.bytes ++ bytes.take k, (inputs n).stamp⟩, ?_⟩
  have appends := h.append some ?_ (allowed.1 some)
  · have moved : (stamping inputs).next w (s, n) ⟨.write bytes, .ok k⟩ =
        ⟨.some (inputs n).stamp, w.log ++ bytes.take k⟩ := if_neg some
    exact moved.symm ▸ appends
  · rw [List.length_append, List.length_take]
    omega

/-- A write that succeeds keeps the end of what was written. -/
theorem LogDir.Retains.write {s : LogDir} {rotated : List Segment} {current : Segment}
    (h : s.Retains retention w rotated current) (buf : List UInt8) (n : ℕ) :
    Watched (retention.retaining inputs) (timed filesystem inputs)
      (LogState.write retention buf) (s, n) w fun result s' w' => (∃ a, result = .ok a) →
        ∃ rotated' current', s'.1.Retains retention w' rotated' current' := by
  obtain ⟨positive, -, -⟩ := validateRetention_ok_iff.1 valid
  have size {s : LogDir} {rotated : List Segment} {current : Segment} {w : Written} {n : ℕ}
      (h : s.Retains retention w rotated current) :
      Watched (retention.retaining inputs) (timed filesystem inputs) Fs.metadata
        (s, n) w fun result s' w' => w' = w ∧ s'.1 = s ∧
          ∀ metadata, result = .ok metadata → metadata.len = current.bytes.length := by
    refine watched_quiet (ends_metadata (fun _ => ⟨rfl, nofun⟩) fun f hf => ⟨rfl, ?_⟩)
      (Program.uses_call nofun)
    rintro _ ⟨⟩
    rw [← h.file hf]
    rfl
  unfold LogState.write
  split_ifs with empty
  · exact watched_pure_iff.2 fun _ => ⟨rotated, current, h⟩
  refine (size h).bind (fun _ _ _ _ => nofun) fun metadata s₁ w₁ sized => ?_
  obtain ⟨s₁, n₁⟩ := s₁
  obtain ⟨rfl, rfl, length⟩ : w₁ = w ∧ s₁ = s ∧ _ := sized
  have started : decide (LogState.WriteRotates retention metadata.len buf) = true →
      current.bytes ≠ [] := by
    rw [decide_eq_true_iff, length metadata rfl]
    intro rotates none
    unfold LogState.WriteRotates at rotates
    rw [none, List.length_nil] at rotates
    omega
  refine (h.rotateIf readable valid started n₁).bind (fun _ _ _ _ => nofun)
    fun _ s₂ w₂ moved => ?_
  obtain ⟨rfl, rotated', current', h'⟩ := moved rfl
  obtain ⟨s₂, n₂⟩ := s₂
  refine (size h').bind (fun _ _ _ _ => nofun) fun metadata' s₃ w₃ sized => ?_
  obtain ⟨s₃, n₃⟩ := s₃
  obtain ⟨rfl, rfl, length'⟩ : w₃ = w₂ ∧ s₃ = s₂ ∧ _ := sized
  rw [length' metadata' rfl]
  set chunk := buf.take (min (retention.maxFileBytes.toNat - current'.bytes.length) buf.length)
    with hchunk
  have fits : current'.bytes.length + chunk.length ≤ retention.maxFileBytes.toNat := by
    have := h'.size
    rw [hchunk, List.length_take]
    omega
  refine (h'.writeChunk fits n₃).bind (fun _ _ _ _ => nofun) fun k s₄ w₄ appended => ?_
  obtain ⟨current'', h''⟩ := appended k rfl
  refine (h''.cleanupRetention readable valid s₄.2).bind (fun _ _ _ _ => nofun)
    fun _ s₅ w₅ cleaned => ?_
  obtain ⟨rfl, kept⟩ := cleaned rfl
  exact watched_pure_iff.2 fun _ => kept

/-- A startup in an empty directory. -/
theorem retains_new (n : ℕ) : Watched (retention.retaining inputs)
    (timed filesystem inputs) (RotatingLogWriter.new retention) (emptyDirectory, n) w
      fun result s' w' => result = .ok () → w' = w ∧
        ∃ rotated current, s'.1.Retains retention w rotated current := by
  have layout : emptyDirectory.disk.Layout [] none := ⟨fun _ => rfl, rfl, nofun⟩
  unfold RotatingLogWriter.new
  rw [valid, watched_bind_iff]
  refine watched_pure_iff.2 ?_
  have created : Ends (timed filesystem inputs) Fs.createDirAll (emptyDirectory, n)
      fun _ s' => s'.1 = emptyDirectory := ends_createDirAll (fun _ => rfl) rfl
  refine (watched_quiet created (Program.uses_call nofun)).bind (fun _ _ _ _ => nofun)
    fun _ s₁ w₁ h => ?_
  obtain ⟨s₁, n₁⟩ := s₁
  obtain ⟨rfl, rfl⟩ : w₁ = w ∧ s₁ = emptyDirectory := h
  refine (watched_cleanupLogs_layout readable valid layout .nil (Nat.zero_le _) nofun
    n₁).bind (fun _ _ _ _ => nofun) fun _ s₂ w₂ cleaned => ?_
  obtain ⟨rfl, -, j, -, layout⟩ := cleaned rfl
  rw [List.take_nil] at layout
  exact retains_openCurrentLog layout (Nat.zero_le _) .nil _

end Steps

/-! ## Runs -/

/-- Writes one after the other; the first failure ends them. -/
def writeEach (retention : LogRetention) : List (List UInt8) → Fs Unit
  | [] => return ()
  | buf :: bufs => do
    let _ ← LogState.write retention buf
    writeEach retention bufs

/-- The bytes of a named file, none if there is no such file. -/
def Disk.bytesOf (d : Disk) (name : FileName) : List UInt8 :=
  ((d.lookup name).map Inode.content).getD []

/-- The rotated files below an index from the highest down, and the current log. -/
def Disk.logBytes (d : Disk) (bound : ℕ) : List UInt8 :=
  ((List.range bound).reverse.flatMap fun k => d.bytesOf (rotatedLog k)) ++ d.bytesOf currentLog

theorem Disk.Layout.logBytes {d : Disk} {rotated : List Segment} {current : Segment}
    (h : d.Layout rotated (some current)) {bound : ℕ}
    (above : ∀ k, rotatedLog k ∈ d.names → k < bound) :
    d.logBytes bound = rotated.reverse.flatMap Segment.bytes ++ current.bytes := by
  have bytesOf (name : FileName) : d.bytesOf name = ((d.segment name).map Segment.bytes).getD [] := by
    rw [segment, Option.map_map]
    rfl
  have le : rotated.length ≤ bound := by
    by_contra lt
    have known : rotatedLog bound ∈ d.names := by
      rw [← segment_isSome_iff, h.rotated, List.getElem?_eq_getElem (Nat.not_le.1 lt)]
      rfl
    exact absurd (above bound known) (Nat.lt_irrefl bound)
  have parts : (List.range bound).map (fun k => d.bytesOf (rotatedLog k)) =
      rotated.map Segment.bytes ++ List.replicate (bound - rotated.length) [] := by
    refine List.ext_getElem? fun k => ?_
    rw [List.getElem?_map, List.getElem?_append, List.length_map]
    by_cases below : k < bound
    · rw [List.getElem?_range below, Option.map_some, bytesOf, h.rotated]
      split_ifs with kept
      · rw [List.getElem?_map, List.getElem?_eq_getElem kept]
        rfl
      · rw [List.getElem?_eq_none (by omega), List.getElem?_replicate, if_pos (by omega)]
        rfl
    · rw [List.getElem?_eq_none (by rw [List.length_range]; omega), if_neg (by omega),
        List.getElem?_replicate, if_neg (by omega)]
      rfl
  unfold Disk.logBytes
  rw [bytesOf currentLog, h.current, List.flatMap_def, List.map_reverse, parts, List.reverse_append,
    List.reverse_replicate, List.flatten_append, List.flatten_replicate_nil, List.nil_append,
    ← List.map_reverse, ← List.flatMap_def]
  rfl

section Runs

variable {retention : LogRetention} {inputs : ℕ → FsInput}

theorem retains_writeEach (readable : Readable inputs) (valid : validateRetention retention = .ok ()) (bufs : List (List UInt8)) {s : LogDir × ℕ}
    {w : Written} {rotated : List Segment} {current : Segment}
    (h : s.1.Retains retention w rotated current) :
    Watched (retention.retaining inputs) (timed filesystem inputs)
      (writeEach retention bufs) s w fun result s' w' => result = .ok () →
        ∃ rotated' current', s'.1.Retains retention w' rotated' current' := by
  induction bufs generalizing s w rotated current with
  | nil => exact watched_pure_iff.2 fun _ => ⟨rotated, current, h⟩
  | cons buf bufs ih =>
    refine (h.write readable valid buf s.2).bind (fun _ _ _ _ => nofun)
      fun written s₁ w₁ kept => ?_
    obtain ⟨rotated', current', h'⟩ := kept ⟨written, rfl⟩
    exact ih h'

end Runs

/-- After every run of writes that succeed, in a directory that was empty, the log files that are
left hold the end of all bytes written, provided that nothing expires, that every write stamps the
current log later than the writes before it, and that a file over the limit is dropped together
with all older ones whenever a clean-up lists the directory. -/
theorem retained_logs_are_tail (retention : LogRetention) (inputs : ℕ → FsInput)
    (readable : Readable inputs) (bufs : List (List UInt8)) :
    let run := (do RotatingLogWriter.new retention; writeEach retention bufs : Fs Unit).run
    let ended := run.exec (timed filesystem inputs) (emptyDirectory, 0)
    let trace := run.trace (timed filesystem inputs) (emptyDirectory, 0)
    ended.1 = .ok () →
    (∀ x ∈ trace, retention.NothingExpires x.1 x.2) →
    (stamping inputs).Accepts ⟨none, []⟩ trace →
    (∀ x ∈ trace, x.2.op = .readDir → retention.DropsOldest x.1.1.disk) →
      ∀ bound, (∀ k, rotatedLog k ∈ ended.2.1.disk.names → k < bound) →
        ended.2.1.disk.logBytes bound <:+ trace.flatMap fun x => appended x.2 := by
  intro run ended trace ok young accepts drops bound above
  have valid : validateRetention retention = .ok () := by
    rcases hv : validateRetention retention with error | _
    · have failed : (run.exec (timed filesystem inputs) (emptyDirectory, 0)).1 = .error error := by
        simp only [run, RotatingLogWriter.new, hv]
        rfl
      exact nomatch failed.symm.trans ok
    · rfl
  have watched : Watched (retention.retaining inputs) (timed filesystem inputs)
      (do RotatingLogWriter.new retention; writeEach retention bufs) (emptyDirectory, 0) ⟨none, []⟩
      fun result s' w' => result = .ok () →
        ∃ rotated current, s'.1.Retains retention w' rotated current := by
    refine (retains_new readable valid 0).bind (fun _ _ _ _ => nofun) fun _ s₁ w₁ h => ?_
    obtain ⟨rfl, rotated, current, h⟩ := h rfl
    exact retains_writeEach readable valid bufs h
  obtain ⟨rotated, current, h⟩ := watched ((stamping inputs).accepts_guard_iff.2
    ⟨accepts, fun x hx => ⟨young x hx, drops x hx⟩⟩) ok
  have tail := h.tail.suffix
  rw [LogRetention.retaining, Monitor.after_guard, log_after, List.nil_append, List.reverse_append, List.flatMap_append,
    Segment.flatMap_live] at tail
  rw [h.layout.logBytes above]
  exact tail

/-- Three writes, one of which rotates twice. -/
theorem retained_logs_are_tail_example :
    let run := (do RotatingLogWriter.new narrowRetention
                   writeEach narrowRetention [[1, 2, 3], [4, 5, 6, 7], [8, 9]] : Fs Unit).run
    let ended := run.exec (timed filesystem undisturbed) (emptyDirectory, 0)
    ended.1 = .ok () ∧ ended.2.1.disk.names = [rotatedLog 0, currentLog] ∧
      ended.2.1.disk.logBytes 1 <:+ [1, 2, 3, 4, 5, 6, 7, 8, 9] := by
  intro run ended
  have ok : ended.1 = .ok () := by decide +kernel
  have names : ended.2.1.disk.names = [rotatedLog 0, currentLog] := by decide +kernel
  refine ⟨ok, names, ?_⟩
  have all : (run.trace (timed filesystem undisturbed) (emptyDirectory, 0)).flatMap
      (fun x => appended x.2) = [1, 2, 3, 4, 5, 6, 7, 8, 9] := by decide +kernel
  rw [← all]
  refine retained_logs_are_tail narrowRetention undisturbed readable_undisturbed _ ok ?_ ?_ ?_ 1 ?_
  · decide +kernel
  · decide +kernel
  · decide +kernel
  · intro k mem
    rw [names] at mem
    simp only [List.mem_cons, List.not_mem_nil, or_false, rotatedLog_inj, rotatedLog_ne_currentLog]
      at mem
    omega

/-- Writes of 3, 8 and 5 bytes: the 8 bytes no longer fit next to the current log and are dropped, the
3 bytes written before them fit and stay. -/
theorem retained_logs_are_no_tail :
    let retention : LogRetention := ⟨10, 12, 5, 1000⟩
    let run := (do RotatingLogWriter.new retention
                   writeEach retention [[1, 1, 1], [2, 2, 2, 2, 2, 2, 2, 2], [3, 3, 3, 3, 3]] :
                     Fs Unit).run
    let ended := run.exec (timed filesystem undisturbed) (emptyDirectory, 0)
    let trace := run.trace (timed filesystem undisturbed) (emptyDirectory, 0)
    validateRetention retention = .ok () ∧ ended.1 = .ok () ∧
      (∀ x ∈ trace, retention.NothingExpires x.1 x.2) ∧
      (stamping undisturbed).Accepts ⟨none, []⟩ trace ∧
      ended.2.1.disk.names = [rotatedLog 1, currentLog] ∧
      ended.2.1.disk.logBytes 2 = [1, 1, 1, 3, 3, 3, 3, 3] ∧
      ¬ ended.2.1.disk.logBytes 2 <:+ trace.flatMap fun x => appended x.2 := by
  decide +kernel

end KeyroCore
