import KeyroCore.Logging.Cleanup

/-!
# Rotation

`rotate_logs` gives every log file the next index, the current log index 0, and removes the file of
the last index.  The moves are one relabelling of the directory.
-/

open Effect Program Fallible

namespace KeyroCore

/-! ## Names -/

theorem isKeyroLog_currentLog : isKeyroLog currentLog = true := by decide

theorem isKeyroLog_rotatedLog (index : ℕ) : isKeyroLog (rotatedLog index) = true := by
  have front : "keyro-core.".toList.isPrefixOf
      ("keyro-core." ++ toString index ++ ".log").toList = true := by
    rw [List.isPrefixOf_iff_prefix, String.toList_append, String.toList_append, List.append_assoc]
    exact List.prefix_append _ _
  have back : ".log".toList.isSuffixOf
      ("keyro-core." ++ toString index ++ ".log").toList = true := by
    rw [List.isSuffixOf_iff_suffix, String.toList_append]
    exact List.suffix_append _ _
  unfold isKeyroLog rotatedLog
  dsimp only
  rw [front, back]
  exact Bool.or_true _

theorem rotatedLog_ne_currentLog (index : ℕ) : rotatedLog index ≠ currentLog := by
  intro h
  have length := congrArg (fun name => name.toList.length) (FileName.text.inj h)
  simp only [String.toList_append, List.length_append] at length
  have front : "keyro-core.".toList.length = 11 := by decide
  have back : ".log".toList.length = 4 := by decide
  have whole : LOG_FILE_NAME.toList.length = 14 := by decide
  omega

theorem rotatedLog_inj {i j : ℕ} : rotatedLog i = rotatedLog j ↔ i = j := by
  constructor
  · intro h
    have digits := congrArg String.toList (FileName.text.inj h)
    simp only [String.toList_append, List.append_cancel_right_eq, List.append_cancel_left_eq] at digits
    have digits : Nat.toDigits 10 i = Nat.toDigits 10 j := by simpa using digits
    rw [← Nat.ofDigitChars_ten_toDigits (n := i), digits, Nat.ofDigitChars_ten_toDigits]
  · rintro rfl
    rfl

/-! ## The moves as a relabelling -/

/-- Indices below the given one move up by one; the file at it goes. -/
def shifting : ℕ → FileName ≃. FileName
  | 0 => PEquiv.refl _
  | index + 1 => (Disk.moving (rotatedLog index) (rotatedLog (index + 1))).trans (shifting index)

/-- The moves of a rotation that keeps `maxRotatedFiles` rotated files. -/
def rotation (maxRotatedFiles : ℕ) : FileName ≃. FileName :=
  ((Disk.without [rotatedLog (maxRotatedFiles - 1)]).trans (shifting (maxRotatedFiles - 1))).trans
    (Disk.moving currentLog (rotatedLog 0))

theorem trans_apply (e e' : FileName ≃. FileName) (name : FileName) :
    e.trans e' name = (e name).bind e' := rfl

theorem shifting_rotatedLog (n i : ℕ) : shifting n (rotatedLog i) =
    if i < n then some (rotatedLog (i + 1))
    else if i = n ∧ 0 < n then none else some (rotatedLog i) := by
  induction n generalizing i with
  | zero => simp [shifting]
  | succ n ih =>
    rw [shifting, trans_apply, Disk.moving_apply]
    simp only [rotatedLog_inj]
    by_cases last : i = n
    · subst last
      rw [if_pos rfl, Option.bind_some, ih, if_neg (by omega), if_neg (by omega),
        if_pos (by omega)]
    rw [if_neg last]
    by_cases next : i = n + 1
    · rw [if_pos next, Option.bind_none, if_neg (by omega), if_pos (by omega)]
    · rw [if_neg next, Option.bind_some, ih]
      by_cases below : i < n
      · rw [if_pos below, if_pos (by omega)]
      · rw [if_neg below, if_neg (by omega), if_neg (by omega), if_neg (by omega)]

theorem shifting_other {name : FileName} (other : ∀ i, name ≠ rotatedLog i) (n : ℕ) :
    shifting n name = some name := by
  induction n with
  | zero => rfl
  | succ n ih =>
    rw [shifting, trans_apply, Disk.moving_apply, if_neg (other n), if_neg (other (n + 1))]
    exact ih

/-- After a shift the index 0 is free. -/
theorem shifting_ne_first {n : ℕ} (pos : 0 < n) (name : FileName) :
    shifting n name ≠ some (rotatedLog 0) := by
  by_cases h : ∃ i, name = rotatedLog i
  · obtain ⟨i, rfl⟩ := h
    rw [shifting_rotatedLog]
    split_ifs with below last
    · simp [rotatedLog_inj]
    · nofun
    · rw [Ne, Option.some.injEq, rotatedLog_inj]
      omega
  · rw [shifting_other (fun i hi => h ⟨i, hi⟩)]
    exact fun same => h ⟨0, Option.some.inj same⟩

theorem rotation_rotatedLog {m : ℕ} (pos : 0 < m) (i : ℕ) : rotation m (rotatedLog i) =
    if i + 1 < m then some (rotatedLog (i + 1))
    else if i + 1 = m then none else some (rotatedLog i) := by
  have kept (k : ℕ) : Disk.moving currentLog (rotatedLog 0) (rotatedLog k) =
      if k = 0 then none else some (rotatedLog k) := by
    rw [Disk.moving_apply, if_neg (rotatedLog_ne_currentLog k)]
    simp only [rotatedLog_inj]
  rw [rotation, trans_apply, trans_apply, Disk.without_apply]
  simp only [List.mem_singleton, rotatedLog_inj]
  by_cases last : i = m - 1
  · rw [if_pos last, if_neg (by omega), if_pos (by omega)]
    rfl
  rw [if_neg last, Option.bind_some, shifting_rotatedLog]
  by_cases below : i < m - 1
  · rw [if_pos below, Option.bind_some, kept, if_neg (by omega), if_pos (by omega)]
  · rw [if_neg below, if_neg (by omega), Option.bind_some, kept, if_neg (by omega),
      if_neg (by omega), if_neg (by omega)]

theorem rotation_currentLog (m : ℕ) : rotation m currentLog = some (rotatedLog 0) := by
  rw [rotation, trans_apply, trans_apply, Disk.without_apply,
    if_neg (fun h => rotatedLog_ne_currentLog _ (List.mem_singleton.1 h).symm), Option.bind_some,
    shifting_other (fun i hi => rotatedLog_ne_currentLog i hi.symm), Option.bind_some,
    Disk.moving_apply, if_pos rfl]

theorem rotation_other {name : FileName} (other : ∀ i, name ≠ rotatedLog i)
    (notCurrent : name ≠ currentLog) (m : ℕ) : rotation m name = some name := by
  rw [rotation, trans_apply, trans_apply, Disk.without_apply,
    if_neg (fun h => other _ (List.mem_singleton.1 h)), Option.bind_some, shifting_other other,
    Option.bind_some, Disk.moving_apply, if_neg notCurrent, if_neg (other 0)]

/-- No file is named as the current log after a rotation. -/
theorem rotation_ne_currentLog {m : ℕ} (pos : 0 < m) (name : FileName) :
    rotation m name ≠ some currentLog := by
  by_cases h : ∃ i, name = rotatedLog i
  · obtain ⟨i, rfl⟩ := h
    rw [rotation_rotatedLog pos]
    split_ifs
    · exact fun same => rotatedLog_ne_currentLog _ (Option.some.inj same)
    · nofun
    · exact fun same => rotatedLog_ne_currentLog _ (Option.some.inj same)
  · by_cases current : name = currentLog
    · rw [current, rotation_currentLog]
      exact fun same => rotatedLog_ne_currentLog _ (Option.some.inj same)
    · rw [rotation_other (fun i hi => h ⟨i, hi⟩) current]
      exact fun same => current (Option.some.inj same)

/-! ## The programs -/

section Moves

variable {inputs : ℕ → FsInput}

def LogDir.relabel (s : LogDir) (e : FileName ≃. FileName) : LogDir :=
  { s with disk := s.disk.relabel e }

theorem LogDir.relabel_relabel (s : LogDir) (e e' : FileName ≃. FileName) :
    (s.relabel e).relabel e' = s.relabel (e.trans e') := by
  unfold LogDir.relabel
  rw [Disk.relabel_relabel]

/-- `exists` sees every file. -/
def Visible (inputs : ℕ → FsInput) : Prop := ∀ n, (inputs n).unreadable = none

theorem Readable.visible (readable : Readable inputs) : Visible inputs := fun n => (readable n).1

theorem filesystem_exists (visible : Visible inputs) (n : ℕ) (s : LogDir) (name : FileName) :
    filesystem (inputs n) (.exists name) s = (decide (name ∈ s.disk.names), s) := by
  simp only [filesystem, visible n, Option.isNone_none, Bool.true_and]
  rw [Bool.eq_iff_iff.2 (Disk.find_isSome_iff.trans (decide_eq_true_iff).symm)]

theorem ends_removeIfExists (visible : Visible inputs) (name : FileName) (s : LogDir) (n : ℕ) :
    Ends (timed filesystem inputs) (removeIfExists name) (s, n) fun result s' =>
      result = .ok () → s'.1 = s.relabel (Disk.without [name]) := by
  unfold removeIfExists
  rw [ends_bind_iff, ends_ask_iff, filesystem_exists visible]
  dsimp only
  rw [ends_ite_iff]
  constructor
  · intro _
    exact ends_removeFile (fun error => nofun) fun _ _ => rfl
  · intro absent
    rw [ends_pure_iff]
    intro _
    unfold LogDir.relabel
    rw [Disk.relabel_eq_self]
    intro name' known
    rw [Disk.without_apply, if_neg]
    rintro mem
    rw [List.mem_singleton.1 mem] at known
    exact absent (decide_eq_true known)

theorem ends_renameIfExists (visible : Visible inputs) {source target : FileName} {s : LogDir}
    (free : target ∉ s.disk.names) (n : ℕ) :
    Ends (timed filesystem inputs) (renameIfExists source target) (s, n) fun result s' =>
      result = .ok () → s'.1 = s.relabel (Disk.moving source target) := by
  unfold renameIfExists
  rw [ends_bind_iff, ends_ask_iff, filesystem_exists visible]
  dsimp only
  rw [ends_ite_iff]
  constructor
  · intro _
    exact ends_rename (fun error => nofun) fun _ _ => rfl
  · intro absent
    rw [ends_pure_iff]
    intro _
    unfold LogDir.relabel
    rw [Disk.relabel_eq_self]
    intro name known
    rw [Disk.moving_apply, if_neg, if_neg]
    · rintro rfl
      exact free known
    · rintro rfl
      exact absent (decide_eq_true known)

theorem not_mem_relabel {d : Disk} {e : FileName ≃. FileName} {name : FileName}
    (h : ∀ n, e n ≠ some name) : name ∉ (d.relabel e).names :=
  Disk.find_eq_none_iff.1 (Disk.find_relabel_none h)

/-- The name of a file that was moved is free. -/
theorem free_moving (s : LogDir) (index : ℕ) : rotatedLog index ∉
    (s.relabel (Disk.moving (rotatedLog index) (rotatedLog (index + 1)))).disk.names := by
  refine not_mem_relabel fun name => ?_
  rw [Disk.moving_apply]
  split_ifs with source target
  · rw [Ne, Option.some.injEq, rotatedLog_inj]
    omega
  · nofun
  · exact fun same => source (Option.some.inj same)

theorem free_without (s : LogDir) (name : FileName) :
    name ∉ (s.relabel (Disk.without [name])).disk.names := by
  refine not_mem_relabel fun name' => ?_
  rw [Disk.without_apply]
  split_ifs with h
  · nofun
  · exact fun same => h (List.mem_singleton.2 (Option.some.inj same))

/-- Once the last index is free, the shift leaves the index 0 free. -/
theorem free_shifting {s : LogDir} {index : ℕ} (free : rotatedLog index ∉ s.disk.names) :
    rotatedLog 0 ∉ (s.relabel (shifting index)).disk.names := by
  by_cases pos : 0 < index
  · exact not_mem_relabel (shifting_ne_first pos)
  · have zero : index = 0 := by omega
    rw [zero] at free ⊢
    show rotatedLog 0 ∉ (s.disk.relabel (PEquiv.refl _)).names
    rwa [Disk.relabel_eq_self fun _ _ => rfl]

theorem ends_shiftLogs (visible : Visible inputs) (index : ℕ) {s : LogDir}
    (free : rotatedLog index ∉ s.disk.names) (n : ℕ) :
    Ends (timed filesystem inputs) (shiftLogs index) (s, n) fun result s' =>
      result = .ok () → s'.1 = s.relabel (shifting index) := by
  induction index generalizing s n with
  | zero =>
    unfold shiftLogs
    rw [ends_pure_iff]
    intro _
    unfold LogDir.relabel shifting
    rw [Disk.relabel_eq_self fun _ _ => rfl]
  | succ index ih =>
    unfold shiftLogs
    refine (ends_renameIfExists visible free n).bind (fun error s₁ _ => nofun) fun _ s₁ moved => ?_
    have moved := moved rfl
    have free' : rotatedLog index ∉ s₁.1.disk.names := by
      rw [moved]
      exact free_moving s index
    refine (ih free' s₁.2).mono fun result s' h ok => ?_
    rw [h ok, moved, LogDir.relabel_relabel, shifting]

theorem ends_moveLogs (visible : Visible inputs) (m : ℕ) (s : LogDir) (n : ℕ) :
    Ends (timed filesystem inputs) (moveLogs m) (s, n) fun result s' =>
      result = .ok () → s'.1 = s.relabel (rotation m) := by
  unfold moveLogs
  refine (ends_removeIfExists visible _ s n).bind (fun error s₁ _ => nofun) fun _ s₁ removed => ?_
  have removed := removed rfl
  have free : rotatedLog (m - 1) ∉ s₁.1.disk.names := by
    rw [removed]
    exact free_without s _
  refine (ends_shiftLogs visible _ free s₁.2).bind (fun error s₂ _ => nofun) fun _ s₂ shifted => ?_
  have shifted := shifted rfl
  have free' : rotatedLog 0 ∉ s₂.1.disk.names := by
    rw [shifted]
    exact free_shifting free
  refine (ends_renameIfExists visible free' s₂.2).mono fun result s' h ok => ?_
  rw [h ok, shifted, removed, LogDir.relabel_relabel, LogDir.relabel_relabel, rotation,
    PEquiv.trans_assoc]

/-- What `rotate_logs` leaves: the log files move, and a clean-up follows unless no rotated file is
kept. -/
def LogRetention.Rotates (retention : LogRetention) (s s' : LogDir) : Prop :=
  retention.maxFiles - 1 = 0 ∧ s' = s.unlink [currentLog] ∨
    0 < retention.maxFiles - 1 ∧ ∃ cutoff order,
      let moved := s.relabel (rotation (retention.maxFiles - 1))
      order.Perm moved.disk.names ∧
        s' = moved.unlink (retention.removed cutoff (moved.disk.listedLogs order))

variable {retention : LogRetention}

theorem ends_rotateLogs (readable : Readable inputs) (s : LogDir) (n : ℕ) :
    Ends (timed filesystem inputs) (rotateLogs retention) (s, n) fun result s' =>
      result = .ok () → retention.Rotates s s'.1 := by
  unfold rotateLogs
  dsimp only
  rw [ends_ite_iff]
  constructor
  · intro none
    refine (ends_removeIfExists readable.visible currentLog s n).mono fun result s' h ok => .inl ⟨none, h ok⟩
  · intro some
    refine (ends_moveLogs readable.visible _ s n).bind (fun error s₁ _ => nofun) fun _ s₁ moved => ?_
    have moved := moved rfl
    refine (ends_cleanupLogs readable s₁.1 s₁.2).mono fun result s' h ok => ?_
    obtain ⟨cutoff, -, cleaned⟩ := h ok
    rw [moved] at cleaned
    exact .inr ⟨by omega, cutoff, _, (inputs (s₁.2 + 1)).listing.perm _, cleaned⟩

/-- After the moves no file is named as the current log. -/
theorem LogRetention.Rotates.free {s s' : LogDir} (h : retention.Rotates s s') :
    s'.disk.find currentLog = none := by
  rcases h with ⟨-, rfl⟩ | ⟨pos, cutoff, order, -, rfl⟩
  · show (s.disk.unlink [currentLog]).find currentLog = none
    rw [Disk.find_unlink, if_pos (List.mem_singleton_self _)]
  · show ((s.disk.relabel _).unlink _).find currentLog = none
    rw [Disk.find_unlink, Disk.find_relabel_none (rotation_ne_currentLog pos), ite_self]

/-- A rotation that succeeds ends with a new current log, which is the open file. -/
theorem ends_rotate (readable : Readable inputs) (s : LogDir) (n : ℕ) :
    Ends (timed filesystem inputs) (LogState.rotate retention) (s, n) fun result s' =>
      result = .ok () → ∃ moved stamp, retention.Rotates s moved ∧
        ∃ absent : moved.disk.find currentLog = none,
          s'.1 = ⟨moved.disk.create currentLog stamp absent, moved.disk.files.length⟩ := by
  unfold LogState.rotate
  rw [ends_bind_iff]
  refine ends_flush (fun error => nofun) ?_
  dsimp only
  refine (ends_rotateLogs readable s (n + 1)).bind (fun error s₁ _ => nofun) fun _ s₁ h => ?_
  have rotates := h rfl
  obtain ⟨s₁, n₁⟩ := s₁
  rw [ends_bind_iff]
  refine ends_openAppend (fun error => nofun) (fun i found => ?_) fun absent => ?_
  · rw [rotates.free] at found
    cases found
  · exact fun _ => ⟨s₁, _, rotates, absent, rfl⟩

/-- After a rotation the open file is the current log, and it is empty. -/
theorem ends_rotate_current (readable : Readable inputs) (s : LogDir) (n : ℕ) :
    Ends (timed filesystem inputs) (LogState.rotate retention) (s, n) fun result s' =>
      result = .ok () → s'.1.disk.find currentLog = some s'.1.file ∧
        ∃ f, s'.1.disk.files[s'.1.file]? = some f ∧ f.content = [] := by
  refine (ends_rotate readable s n).mono fun result s' h ok => ?_
  obtain ⟨moved, stamp, -, absent, eq⟩ := h ok
  rw [eq]
  refine ⟨?_, ⟨some currentLog, [], stamp⟩, ?_, rfl⟩
  · dsimp only
    rw [Disk.find_create, if_pos rfl]
  · dsimp only
    rw [Disk.getElem?_create, if_pos rfl]

end Moves

/-! ## Moves without errors -/

/-- No call fails. -/
structure NoErrors (inputs : ℕ → FsInput) : Prop where
  calls : ∀ n, (inputs n).failure = none
  visible : Visible inputs

namespace NoErrors

variable {inputs : ℕ → FsInput} (h : NoErrors inputs)

include h

theorem attempt {α : Type} (n : ℕ) (s : LogDir) (act : Except IoError α × LogDir) :
    (inputs n).attempt s act = act := by
  unfold FsInput.attempt
  rw [h.calls n]

theorem ends_removeFile {name : FileName} {s : LogDir} (known : name ∈ s.disk.names) (n : ℕ) :
    Ends (timed filesystem inputs) (Fs.removeFile name) (s, n) fun result s' =>
      result = .ok () ∧ s'.1 = s.unlink [name] := by
  obtain ⟨i, hi⟩ := Option.isSome_iff_exists.1 (Disk.find_isSome_iff.2 known)
  have answer : filesystem (inputs n) (.removeFile name) s = (.ok (), s.unlink [name]) := by
    simp only [filesystem, h.attempt, hi]
  show (filesystem (inputs n) (.removeFile name) s).1 = _ ∧
    (filesystem (inputs n) (.removeFile name) s).2 = _
  rw [answer]
  exact ⟨rfl, rfl⟩

theorem ok_rename {source : FileName} {s : LogDir} (known : source ∈ s.disk.names)
    (target : FileName) (n : ℕ) : Ends (timed filesystem inputs) (Fs.rename source target) (s, n)
      fun result _ => result = .ok () := by
  obtain ⟨i, hi⟩ := Option.isSome_iff_exists.1 (Disk.find_isSome_iff.2 known)
  show (filesystem (inputs n) (.rename source target) s).1 = _
  simp only [filesystem, h.attempt, hi]

theorem ok_removeIfExists (name : FileName) (s : LogDir) (n : ℕ) :
    Ends (timed filesystem inputs) (removeIfExists name) (s, n) fun result _ =>
      result = .ok () := by
  unfold removeIfExists
  rw [ends_bind_iff, ends_ask_iff, filesystem_exists h.visible]
  dsimp only
  rw [ends_ite_iff]
  refine ⟨fun known => ?_, fun _ => rfl⟩
  exact (h.ends_removeFile (of_decide_eq_true known) (n + 1)).mono fun _ _ h => h.1

theorem ok_renameIfExists (source target : FileName) (s : LogDir) (n : ℕ) :
    Ends (timed filesystem inputs) (renameIfExists source target) (s, n) fun result _ =>
      result = .ok () := by
  unfold renameIfExists
  rw [ends_bind_iff, ends_ask_iff, filesystem_exists h.visible]
  dsimp only
  rw [ends_ite_iff]
  exact ⟨fun known => h.ok_rename (of_decide_eq_true known) target (n + 1), fun _ => rfl⟩

theorem ok_shiftLogs (index : ℕ) (s : LogDir) (n : ℕ) :
    Ends (timed filesystem inputs) (shiftLogs index) (s, n) fun result _ => result = .ok () := by
  induction index generalizing s n with
  | zero => rfl
  | succ index ih =>
    refine (h.ok_renameIfExists _ _ s n).bind (fun _ _ h => nomatch h) fun _ s₁ _ => ?_
    exact ih s₁.1 s₁.2

theorem ok_moveLogs (m : ℕ) (s : LogDir) (n : ℕ) :
    Ends (timed filesystem inputs) (moveLogs m) (s, n) fun result _ => result = .ok () := by
  unfold moveLogs
  refine (h.ok_removeIfExists _ s n).bind (fun _ _ h => nomatch h) fun _ s₁ _ => ?_
  refine (h.ok_shiftLogs _ s₁.1 s₁.2).bind (fun _ _ h => nomatch h) fun _ s₂ _ => ?_
  exact h.ok_renameIfExists _ _ s₂.1 s₂.2

end NoErrors

end KeyroCore
