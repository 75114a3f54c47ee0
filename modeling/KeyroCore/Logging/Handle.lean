import KeyroCore.Effect.Monitor
import KeyroCore.Logging.Failure
import KeyroCore.Logging.Limits

/-!
# The open file of the writer

After every call the open file is the file named `keyro-core.log`, provided that no call fails while
that name is taken away and that no clean-up finds the current log too old or too long.  A monitor
follows the name through a run.
-/

open Effect Program Fallible

namespace KeyroCore

/-! ## The monitor -/

/-- What is known of the current log while a run goes on. -/
structure Mooring where
  /-- Its name was taken away, and no file was opened under it since. -/
  adrift : Bool
  /-- The last reading of the clock. -/
  clock : Time

def Mooring.next (w : Mooring) : Act FsCalls → Mooring
  | ⟨.now, time⟩ => { w with clock := time }
  | ⟨.removeFile name, .ok _⟩ => if name = currentLog then { w with adrift := true } else w
  | ⟨.rename source _, .ok _⟩ => if source = currentLog then { w with adrift := true } else w
  | ⟨.openAppend name, .ok _⟩ => if name = currentLog then { w with adrift := false } else w
  | _ => w

/-- A clean-up finds the current log older than its cutoff or longer than a file may be. -/
def LogRetention.Expels (retention : LogRetention) (clock : Time) : Act FsCalls → Prop
  | ⟨.entryMetadata name, .ok ⟨len, some modified⟩⟩ => name = currentLog ∧
    (modified < clock - retention.maxAge ∨ len > retention.maxFileBytes.toNat)
  | _ => False

instance (retention : LogRetention) (clock : Time) : DecidablePred (retention.Expels clock)
  | ⟨.entryMetadata _, .ok ⟨_, some _⟩⟩ => inferInstanceAs (Decidable (_ ∧ _))
  | ⟨.entryMetadata _, .ok ⟨_, none⟩⟩ | ⟨.entryMetadata _, .error _⟩ => .isFalse id
  | ⟨.now, _⟩ | ⟨.createDirAll, _⟩ | ⟨.readDir, _⟩ | ⟨.exists _, _⟩ | ⟨.removeFile _, _⟩ => .isFalse id
  | ⟨.rename _ _, _⟩ | ⟨.openAppend _, _⟩ | ⟨.setFile _, _⟩ | ⟨.metadata, _⟩ => .isFalse id
  | ⟨.flush, _⟩ | ⟨.write _, _⟩ => .isFalse id

/-- No call fails while the current log is adrift, and no clean-up expels it. -/
def LogRetention.mooring (retention : LogRetention) : Monitor FsCalls (LogDir × ℕ) Mooring where
  allows w _ a := (w.adrift = true → ¬ retention.Stops a) ∧ ¬ retention.Expels w.clock a
  next w _ a := w.next a

instance (retention : LogRetention) (w : Mooring) (s : LogDir × ℕ) :
    DecidablePred (retention.mooring.allows w s) :=
  fun a => inferInstanceAs (Decidable ((w.adrift = true → ¬ retention.Stops a) ∧
    ¬ retention.Expels w.clock a))

/-- The call leaves the name of the current log and the open file alone. -/
def FsOp.Steady : FsOp → Prop
  | .removeFile name => name ≠ currentLog
  | .rename source target => source ≠ currentLog ∧ target ≠ currentLog
  | .openAppend _ => False
  | .setFile _ => False
  | _ => True

section Steps

variable {retention : LogRetention} {inputs : ℕ → FsInput}

theorem adrift_next {o : FsOp} (steady : o.Steady) (w : Mooring) (x : FsCalls.Ans o) :
    (w.next ⟨o, x⟩).adrift = w.adrift := by
  cases o with
  | removeFile name =>
    rcases x with e | u
    · rfl
    · show (if name = currentLog then _ else w).adrift = _
      rw [if_neg steady]
  | rename source target =>
    rcases x with e | u
    · rfl
    · show (if source = currentLog then _ else w).adrift = _
      rw [if_neg steady.1]
  | openAppend name => exact steady.elim
  | setFile file => exact steady.elim
  | _ => rfl

/-- A steady call leaves an attached file attached. -/
theorem attached_filesystem {o : FsOp} (steady : o.Steady) (input : FsInput) {s : LogDir}
    (attached : s.Attached) : (filesystem input o s).2.Attached := by
  cases o with
  | removeFile name =>
    rcases filesystem_removeFile input s name with ⟨error, eq⟩ | ⟨-, eq⟩
    · rw [eq]
      exact attached
    · rw [eq]
      show (s.disk.unlink [name]).find currentLog = some s.file
      rw [Disk.find_unlink, if_neg fun h => steady (List.mem_singleton.1 h).symm]
      exact attached
  | rename source target =>
    rcases filesystem_rename input s source target with ⟨error, eq⟩ | ⟨-, eq⟩
    · rw [eq]
      exact attached
    · rw [eq]
      refine (Disk.find_relabel ?_).trans attached
      rw [Disk.moving_apply, if_neg steady.1.symm, if_neg steady.2.symm]
  | openAppend name => exact steady.elim
  | setFile file => exact steady.elim
  | write bytes =>
    rcases filesystem_write input s bytes with ⟨error, eq⟩ | ⟨-, n, -, eq⟩
    · rw [eq]
      exact attached
    · rw [eq]
      show LogDir.Attached (if n = 0 then s else _)
      split_ifs
      · exact attached
      · exact (Disk.find_append _ _ _ _).trans attached
  | metadata =>
    rcases filesystem_metadata input s with ⟨error, eq⟩ | ⟨f, -, eq⟩ <;> rw [eq] <;> exact attached
  | entryMetadata name =>
    simp only [filesystem]
    split <;> exact attached
  | createDirAll | readDir | flush =>
    simp only [filesystem, FsInput.attempt]
    split <;> exact attached
  | _ => exact attached

/-- The current log is moored: the open file is the file of its name. -/
def Moored (s : LogDir × ℕ) (w : Mooring) : Prop := w.adrift = false ∧ s.1.Attached

theorem moored_step (inputs : ℕ → FsInput) {o : FsOp} {s : LogDir × ℕ} {w : Mooring} (steady : o.Steady)
    (moored : Moored s w) : Moored (timed filesystem inputs o s).2
      (w.next ⟨o, (timed filesystem inputs o s).1⟩) :=
  ⟨(adrift_next steady w _).trans moored.1, attached_filesystem steady _ moored.2⟩

theorem watched_steady {α : Type} {p : Fs α} (uses : p.run.Uses FsOp.Steady) {s : LogDir × ℕ}
    {w : Mooring} (moored : Moored s w) :
    Watched retention.mooring (timed filesystem inputs) p s w fun _ s' w' => Moored s' w' :=
  watched_invariant (fun _ _ _ steady _ moored => moored_step inputs steady moored) uses moored

theorem clock_next {o : FsOp} (h : o ≠ .now) (w : Mooring) (x : FsCalls.Ans o) :
    (w.next ⟨o, x⟩).clock = w.clock := by
  cases o with
  | now => exact absurd rfl h
  | removeFile name | rename name target | openAppend name =>
    rcases x with e | u
    · rfl
    · unfold Mooring.next
      dsimp only
      split_ifs <;> rfl
  | _ => rfl

def FsOp.OpensNothing (o : FsOp) : Prop := ∀ name, o ≠ .openAppend name

theorem adrift_stays {o : FsOp} (notOpen : o.OpensNothing) {w : Mooring}
    (adrift : w.adrift = true) (x : FsCalls.Ans o) : (w.next ⟨o, x⟩).adrift = true := by
  cases o with
  | openAppend name => exact absurd rfl (notOpen name)
  | removeFile name | rename name target =>
    rcases x with e | u
    · exact adrift
    · unfold Mooring.next
      dsimp only
      split_ifs
      · rfl
      · exact adrift
  | _ => exact adrift

theorem watched_steady_call {α : Type} {o : FsOp} (enc : FsCalls.Ans o → Except IoError α)
    (steady : o.Steady) (notNow : o ≠ .now) {s : LogDir × ℕ} {w : Mooring} (moored : Moored s w) :
    Watched retention.mooring (timed filesystem inputs)
      (ExceptT.mk (.perform o fun x => .pure (enc x)) : Fs α) s w fun _ s' w' =>
        Moored s' w' ∧ w'.clock = w.clock :=
  watched_perform_iff.2 fun _ => ⟨moored_step inputs steady moored, clock_next notNow _ _⟩

/-- The current log is marked, and no file is listed twice. -/
def WellListed (retained : List LogFile) : Prop :=
  (retained.map LogFile.path).Nodup ∧
    ∀ logFile ∈ retained, logFile.isCurrent = decide (logFile.path = currentLog)

theorem WellListed.perm {as bs : List LogFile} (h : WellListed as) (perm : as.Perm bs) :
    WellListed bs :=
  ⟨(perm.map LogFile.path).nodup_iff.1 h.1, fun logFile mem => h.2 logFile (perm.mem_iff.2 mem)⟩

/-- The loop over the entries does not remove the current log. -/
theorem watched_retainLogs {cutoff : Time} (entries : List (Except IoError FileName))
    (retained : List LogFile) {s : LogDir × ℕ} {w : Mooring} (moored : Moored s w)
    (hcut : cutoff = w.clock - retention.maxAge)
    (nodup : (retained.map LogFile.path ++ entries.filterMap Except.toOption).Nodup)
    (marked : ∀ logFile ∈ retained, logFile.isCurrent = decide (logFile.path = currentLog)) :
    Watched retention.mooring (timed filesystem inputs)
      (retainLogs retention cutoff entries retained) s w fun result s' w' =>
        Moored s' w' ∧ ∀ all, result = .ok all → WellListed all := by
  induction entries generalizing retained s w with
  | nil =>
    unfold retainLogs
    rw [watched_pure_iff]
    refine ⟨moored, ?_⟩
    rintro all ⟨⟩
    rw [List.filterMap_nil, List.append_nil] at nodup
    exact ⟨nodup, marked⟩
  | cons entry entries ih =>
    rcases entry with error | path
    · show Watched _ _ (throw error >>= _) _ _ _
      rw [watched_bind_iff, watched_throw_iff]
      exact ⟨moored, fun _ h => by cases h⟩
    rw [List.filterMap_cons_some (f := Except.toOption) (a := .ok path) (b := path) rfl] at nodup
    have skip : (retained.map LogFile.path ++ entries.filterMap Except.toOption).Nodup :=
      nodup.sublist ((List.sublist_cons_self _ _).append_left _)
    show Watched _ _ (if !isKeyroLog path then _ else _) s w _
    split_ifs
    · exact ih retained moored hcut skip marked
    rw [watched_bind_iff]
    refine watched_call_iff.2 fun allowed => ?_
    dsimp only
    have moored₁ := moored_step inputs (o := .entryMetadata path) trivial moored
    set answer := (timed filesystem inputs (.entryMetadata path) s).1
    set s₁ := (timed filesystem inputs (.entryMetadata path) s).2
    have clock : retention.mooring.next w s ⟨.entryMetadata path, answer⟩ = w := by
      rcases answer with error | metadata <;> rfl
    change Moored s₁ (retention.mooring.next w s ⟨.entryMetadata path, answer⟩) at moored₁
    rw [clock] at moored₁ ⊢
    rcases answer with error | ⟨len, _ | modified⟩
    · exact ih retained moored₁ hcut skip marked
    · exact ih retained moored₁ hcut skip marked
    show Watched _ _ (if modified < cutoff ∨ len > _ then _ else _) s₁ w _
    split_ifs with discards
    · have other : path ≠ currentLog := fun current =>
        allowed.2 ⟨current, hcut ▸ discards⟩
      refine Watched.bind (watched_steady_call (o := .removeFile path) id other (by simp) moored₁)
        (fun e s' w' h => ⟨h.1, fun _ h => by cases h⟩) fun _ s₂ w₂ h => ?_
      exact ih retained h.1 (hcut.trans (congrArg (· - _) h.2.symm)) skip marked
    · refine ih _ moored₁ hcut ?_ ?_
      · rw [List.map_append, List.append_assoc]
        exact nodup
      · intro logFile mem
        rcases List.mem_append.1 mem with mem | mem
        · exact marked logFile mem
        · rw [List.mem_singleton.1 mem]

theorem steady_enforceLimits {currentIndex : Option ℕ} (index : ℕ) (rest : List LogFile)
    (keptFiles totalBytes : ℕ) (others : ∀ i logFile, rest[i]? = some logFile →
      some (index + i) ≠ currentIndex → logFile.path ≠ currentLog) :
    (enforceLimits retention currentIndex index rest keptFiles totalBytes).run.Uses
      FsOp.Steady := by
  induction rest generalizing index keptFiles totalBytes with
  | nil => exact trivial
  | cons logFile rest ih =>
    have later : ∀ i logFile, rest[i]? = some logFile → some (index + 1 + i) ≠ currentIndex →
        logFile.path ≠ currentLog := fun i logFile' h notCurrent =>
      others (i + 1) logFile' h (by rwa [Nat.add_right_comm] at notCurrent)
    unfold enforceLimits
    split_ifs with current excess
    · exact ih _ _ _ later
    · have other : logFile.path ≠ currentLog := others 0 logFile rfl current
      exact Fallible.uses_bind
        (Program.uses_call (S := FsCalls) (o := .removeFile logFile.path) other)
        fun _ => ih _ _ _ later
    · exact ih _ _ _ later

/-- The entry that is passed over is the only one of the current log. -/
theorem WellListed.others {retained : List LogFile} (h : WellListed retained) {i : ℕ}
    {logFile : LogFile} (hi : retained[i]? = some logFile)
    (notIndex : some (0 + i) ≠ retained.findIdx? LogFile.isCurrent) :
    logFile.path ≠ currentLog := by
  intro current
  have marked : logFile.isCurrent = true := by
    rw [h.2 logFile (List.mem_of_getElem? hi)]
    exact decide_eq_true current
  rcases hj : retained.findIdx? LogFile.isCurrent with _ | j
  · have none := List.findIdx?_eq_none_iff.1 hj logFile (List.mem_of_getElem? hi)
    rw [marked] at none
    cases none
  · obtain ⟨lt, isCurrent, -⟩ := List.findIdx?_eq_some_iff_getElem.1 hj
    have path : retained[j].path = currentLog := by
      rw [h.2 _ (List.getElem_mem lt)] at isCurrent
      exact of_decide_eq_true isCurrent
    obtain ⟨lt', hi'⟩ := List.getElem?_eq_some_iff.1 hi
    have same : i = j := by
      have lengths : (retained.map LogFile.path).length = retained.length := List.length_map _
      have paths : (retained.map LogFile.path).get ⟨i, lengths ▸ lt'⟩ =
          (retained.map LogFile.path).get ⟨j, lengths ▸ lt⟩ := by
        rw [List.get_eq_getElem, List.get_eq_getElem, List.getElem_map, List.getElem_map, hi',
          current, path]
      exact Fin.val_eq_of_eq (List.nodup_iff_injective_get.1 h.1 paths)
    rw [hj, Nat.zero_add, same] at notIndex
    exact notIndex rfl

theorem okNames_nodup (l : Listing) (broken : Option (ℕ × IoError)) {names : List FileName}
    (nodup : names.Nodup) : ((l.entries broken names).filterMap Except.toOption).Nodup := by
  have all (order : List FileName) :
      ((order.map Except.ok).filterMap (Except.toOption (ε := IoError))) = order := by
    rw [List.filterMap_map]
    exact List.filterMap_some
  have listed := (l.perm names).nodup_iff.2 nodup
  unfold Listing.entries
  rcases broken with _ | ⟨n, error⟩
  · dsimp only
    rwa [all]
  · dsimp only
    rw [List.filterMap_append, all]
    show (_ ++ []).Nodup
    rw [List.append_nil]
    exact listed.sublist (List.take_sublist _ _)

theorem watched_retentionCutoff {s : LogDir × ℕ} {w : Mooring} (moored : Moored s w) :
    Watched retention.mooring (timed filesystem inputs) (retentionCutoff retention) s w
      fun result s' w' => Moored s' w' ∧
        ∀ cutoff, result = .ok cutoff → cutoff = w'.clock - retention.maxAge := by
  unfold retentionCutoff
  rw [watched_bind_iff]
  refine watched_call_iff.2 fun _ => ?_
  have moored₁ := moored_step inputs (o := .now) trivial moored
  dsimp only
  rcases h : checkedSub (timed filesystem inputs .now s).1 retention.maxAge with _ | cutoff
  · exact watched_throw_iff.2 ⟨moored₁, nofun⟩
  · refine watched_pure_iff.2 ⟨moored₁, ?_⟩
    rintro cutoff' ⟨⟩
    exact checkedSub_eq_some h

theorem watched_readDir {s : LogDir × ℕ} {w : Mooring} (moored : Moored s w) :
    Watched retention.mooring (timed filesystem inputs) Fs.readDir s w fun result s' w' =>
      (Moored s' w' ∧ w'.clock = w.clock) ∧
        ∀ entries, result = .ok entries → (entries.filterMap Except.toOption).Nodup := by
  refine (watched_steady_call (o := .readDir) id trivial nofun moored).and_ends ?_
  refine ends_readDir (fun error => nofun) ?_
  rintro entries ⟨⟩
  exact okNames_nodup _ _ s.1.disk.nodup_names

/-- A clean-up leaves the current log moored. -/
theorem watched_cleanupLogs {s : LogDir × ℕ} {w : Mooring} (moored : Moored s w) :
    Watched retention.mooring (timed filesystem inputs) (cleanupLogs retention) s w
      fun _ s' w' => Moored s' w' := by
  unfold cleanupLogs
  refine (watched_retentionCutoff moored).bind (fun e s' w' h => h.1) fun cutoff s₁ w₁ h₁ => ?_
  obtain ⟨moored₁, hcut⟩ := h₁
  refine (watched_readDir moored₁).bind (fun e s' w' h => h.1.1) fun entries s₂ w₂ h₂ => ?_
  obtain ⟨⟨moored₂, clock⟩, nodup⟩ := h₂
  have hcut₂ : cutoff = w₂.clock - retention.maxAge := by
    rw [clock]
    exact hcut cutoff rfl
  refine (watched_retainLogs entries [] moored₂ hcut₂ (nodup entries rfl) nofun).bind
    (fun e s' w' h => h.1) fun retained s₃ w₃ h₃ => ?_
  obtain ⟨moored₃, listed⟩ := h₃
  have sorted : WellListed (newestFirst retained) :=
    (listed retained rfl).perm (Rows.orderBy_perm _ _).symm
  exact watched_steady (steady_enforceLimits 0 _ _ _ fun i logFile => sorted.others) moored₃

/-- A clean-up while the current log is adrift does not fail. -/
theorem watched_cleanupLogs_adrift {s : LogDir × ℕ} {w : Mooring} (adrift : w.adrift = true) :
    Watched retention.mooring (timed filesystem inputs) (cleanupLogs retention) s w
      fun result _ w' => (∃ a, result = .ok a) ∧ w'.adrift = true := by
  refine watched_ok (O := FsOp.OpensNothing)
    (I := fun (_ : LogDir × ℕ) (w : Mooring) => w.adrift = true) ?_ failsBy_cleanupLogs
    (uses_cleanupLogs nofun nofun (fun _ => nofun) fun _ => nofun)
    (fun _ _ _ adrift allowed => allowed.1 adrift) adrift
  intro o s w closed _ adrift
  exact adrift_stays closed adrift _

/-- What is known while a rotation goes on: the current log is moored, or it is adrift and no call
has failed. -/
def Rotating {α : Type} (result : Except IoError α) (s : LogDir × ℕ) (w : Mooring) : Prop :=
  Moored s w ∨ w.adrift = true ∧ ∃ a, result = .ok a

theorem watched_removeCurrent {s : LogDir × ℕ} {w : Mooring} (moored : Moored s w) :
    Watched retention.mooring (timed filesystem inputs) (removeIfExists currentLog) s w
      fun result s' w' => Rotating result s' w' := by
  unfold removeIfExists
  refine (watched_steady_call (o := .exists currentLog) Except.ok trivial nofun moored).bind
    (fun e s' w' h => .inl h.1) fun found s₁ w₁ h => ?_
  obtain ⟨moored₁, -⟩ := h
  cases found with
  | false => exact watched_pure_iff.2 (.inl moored₁)
  | true =>
    refine watched_perform_iff (S := FsCalls) (o := .removeFile currentLog) (g := id) |>.2
      fun _ => ?_
    rcases filesystem_removeFile (inputs s₁.2) s₁.1 currentLog with ⟨error, eq⟩ | ⟨-, eq⟩
    · simp only [timed, eq]
      exact .inl moored₁
    · simp only [timed, eq]
      exact .inr ⟨by simp [LogRetention.mooring, Mooring.next], (), rfl⟩

theorem watched_renameCurrent {target : FileName} {s : LogDir × ℕ} {w : Mooring}
    (moored : Moored s w) : Watched retention.mooring (timed filesystem inputs)
      (renameIfExists currentLog target) s w fun result s' w' => Rotating result s' w' := by
  unfold renameIfExists
  refine (watched_steady_call (o := .exists currentLog) Except.ok trivial nofun moored).bind
    (fun e s' w' h => .inl h.1) fun found s₁ w₁ h => ?_
  obtain ⟨moored₁, -⟩ := h
  cases found with
  | false => exact watched_pure_iff.2 (.inl moored₁)
  | true =>
    refine watched_perform_iff (S := FsCalls) (o := .rename currentLog target) (g := id) |>.2
      fun _ => ?_
    rcases filesystem_rename (inputs s₁.2) s₁.1 currentLog target with ⟨error, eq⟩ | ⟨-, eq⟩
    · simp only [timed, eq]
      exact .inl moored₁
    · simp only [timed, eq]
      exact .inr ⟨by simp [LogRetention.mooring, Mooring.next], (), rfl⟩

theorem watched_rotateLogs {s : LogDir × ℕ} {w : Mooring} (moored : Moored s w) :
    Watched retention.mooring (timed filesystem inputs) (rotateLogs retention) s w
      fun result s' w' => Rotating result s' w' := by
  unfold rotateLogs
  dsimp only
  split_ifs
  · exact watched_removeCurrent moored
  have moves : Watched retention.mooring (timed filesystem inputs)
      (moveLogs (retention.maxFiles - 1)) s w fun result s' w' => Rotating result s' w' := by
    unfold moveLogs
    have oldest : (removeIfExists (rotatedLog (retention.maxFiles - 1 - 1))).run.Uses
        FsOp.Steady := uses_removeIfExists trivial (rotatedLog_ne_currentLog _)
    refine (watched_steady oldest moored).bind (fun e s' w' h => .inl h) fun _ s₁ w₁ moored₁ => ?_
    have shifts : (shiftLogs (retention.maxFiles - 1 - 1)).run.Uses FsOp.Steady :=
      uses_shiftLogs (fun _ => trivial)
        (fun _ => ⟨rotatedLog_ne_currentLog _, rotatedLog_ne_currentLog _⟩) _
    refine (watched_steady shifts moored₁).bind (fun e s' w' h => .inl h) fun _ s₂ w₂ moored₂ => ?_
    exact watched_renameCurrent moored₂
  refine moves.bind (fun e s' w' h => ?_) fun _ s₁ w₁ h => ?_
  · exact h.imp_right fun ⟨_, _, ha⟩ => nomatch ha
  · rcases h with moored₁ | ⟨adrift, -⟩
    · exact (watched_cleanupLogs moored₁).mono fun _ _ _ h => .inl h
    · exact (watched_cleanupLogs_adrift adrift).mono fun _ _ _ h => .inr ⟨h.2, h.1⟩

/-- A rotation ends with the current log moored, whether it fails or not. -/
theorem watched_rotate {s : LogDir × ℕ} {w : Mooring} (moored : Moored s w) :
    Watched retention.mooring (timed filesystem inputs) (LogState.rotate retention) s w
      fun _ s' w' => Moored s' w' := by
  unfold LogState.rotate
  refine (watched_steady_call (o := .flush) id trivial nofun moored).bind (fun e s' w' h => h.1)
    fun _ s₁ w₁ h => ?_
  refine (watched_rotateLogs h.1).bind (fun e s' w' h => ?_) fun _ s₂ w₂ rotating => ?_
  · exact h.resolve_right fun ⟨_, _, ha⟩ => nomatch ha
  rw [watched_bind_iff]
  refine watched_perform_iff (S := FsCalls) (o := .openAppend currentLog) (g := id) |>.2
    fun allowed => ?_
  have opened (i : ℕ) : (w₂.next ⟨.openAppend currentLog, .ok i⟩).adrift = false := by
    simp [Mooring.next]
  rcases filesystem_openAppend (inputs s₂.2) s₂.1 currentLog with
    ⟨error, eq⟩ | ⟨i, found, eq⟩ | ⟨absent, eq⟩
  · simp only [timed, eq] at allowed ⊢
    refine rotating.resolve_right fun h => ?_
    exact allowed.1 h.1 ⟨error, rfl⟩
  · simp only [timed, eq]
    refine watched_call_iff.2 fun _ => ⟨opened i, ?_⟩
    exact found
  · simp only [timed, eq]
    refine watched_call_iff.2 fun _ => ⟨opened s₂.1.disk.files.length, ?_⟩
    exact (Disk.find_create _ _ absent _).trans (if_pos rfl)

theorem watched_rotateIf (needed : Bool) {s : LogDir × ℕ} {w : Mooring} (moored : Moored s w) :
    Watched retention.mooring (timed filesystem inputs) (LogState.rotateIf retention needed) s w
      fun _ s' w' => Moored s' w' := by
  unfold LogState.rotateIf
  split_ifs
  · exact watched_rotate moored
  · exact watched_pure_iff.2 moored

theorem watched_cleanupRetention {s : LogDir × ℕ} {w : Mooring} (moored : Moored s w) :
    Watched retention.mooring (timed filesystem inputs) (LogState.cleanupRetention retention) s w
      fun _ s' w' => Moored s' w' := by
  unfold LogState.cleanupRetention
  have check : (currentLogNeedsRotation retention).run.Uses FsOp.Steady :=
    uses_currentLogNeedsRotation trivial trivial
  refine (watched_steady check moored).bind (fun _ _ _ h => h) fun needed s₁ w₁ moored₁ => ?_
  refine (watched_rotateIf needed moored₁).bind (fun _ _ _ h => h) fun _ s₂ w₂ moored₂ => ?_
  exact watched_cleanupLogs moored₂

theorem watched_write (buf : List UInt8) {s : LogDir × ℕ} {w : Mooring} (moored : Moored s w) :
    Watched retention.mooring (timed filesystem inputs) (LogState.write retention buf) s w
      fun _ s' w' => Moored s' w' := by
  unfold LogState.write
  split_ifs
  · exact watched_pure_iff.2 moored
  have size {s : LogDir × ℕ} {w : Mooring} (moored : Moored s w) :
      Watched retention.mooring (timed filesystem inputs) Fs.metadata s w
        fun _ s' w' => Moored s' w' := watched_steady (Program.uses_call trivial) moored
  refine (size moored).bind (fun _ _ _ h => h) fun metadata s₁ w₁ moored₁ => ?_
  refine (watched_rotateIf _ moored₁).bind (fun _ _ _ h => h) fun _ s₂ w₂ moored₂ => ?_
  refine (size moored₂).bind (fun _ _ _ h => h) fun metadata s₃ w₃ moored₃ => ?_
  have data : (Fs.write (buf.take (min (retention.maxFileBytes.toNat - metadata.len)
      buf.length))).run.Uses FsOp.Steady := Program.uses_call trivial
  refine (watched_steady data moored₃).bind (fun _ _ _ h => h) fun written s₄ w₄ moored₄ => ?_
  refine (watched_cleanupRetention moored₄).bind (fun _ _ _ h => h) fun _ s₅ w₅ moored₅ => ?_
  exact watched_pure_iff.2 moored₅

end Steps

/-! ## Runs -/

/-- What the program does with a writer: a write, or a tick of the maintenance thread. -/
inductive LogCall where
  | write (buf : List UInt8)
  | maintain

/-- A call, whatever it returns. -/
def LogCall.perform (retention : LogRetention) : LogCall → Program FsCalls Unit
  | .write buf => do
    let _ ← (LogState.write retention buf).run
  | .maintain => do
    let _ ← (LogState.cleanupRetention retention).run

def performAll (retention : LogRetention) : List LogCall → Program FsCalls Unit
  | [] => return ()
  | call :: calls => do
    call.perform retention
    performAll retention calls

section Runs

variable {retention : LogRetention} {inputs : ℕ → FsInput}

theorem moored_perform (call : LogCall) {s : LogDir × ℕ} {w : Mooring} (moored : Moored s w)
    (accepts : retention.mooring.Accepts w
      ((call.perform retention).trace (timed filesystem inputs) s)) :
    Moored ((call.perform retention).exec (timed filesystem inputs) s).2
      (retention.mooring.after w ((call.perform retention).trace (timed filesystem inputs) s)) := by
  cases call with
  | write buf =>
    unfold LogCall.perform at accepts ⊢
    simp only [trace_bind, trace_pure, List.append_nil, exec_bind, exec_pure] at accepts ⊢
    exact watched_write buf moored accepts
  | maintain =>
    unfold LogCall.perform at accepts ⊢
    simp only [trace_bind, trace_pure, List.append_nil, exec_bind, exec_pure] at accepts ⊢
    exact watched_cleanupRetention moored accepts

theorem moored_performAll (calls : List LogCall) {s : LogDir × ℕ} {w : Mooring}
    (moored : Moored s w) (accepts : retention.mooring.Accepts w
      ((performAll retention calls).trace (timed filesystem inputs) s)) :
    Moored ((performAll retention calls).exec (timed filesystem inputs) s).2
      (retention.mooring.after w
        ((performAll retention calls).trace (timed filesystem inputs) s)) := by
  induction calls generalizing s w with
  | nil => exact moored
  | cons call calls ih =>
    unfold performAll at accepts ⊢
    rw [trace_bind, Monitor.accepts_append] at accepts
    rw [trace_bind, Monitor.after_append, exec_bind]
    exact ih (moored_perform call moored accepts.1) accepts.2

/-- A startup that succeeds opens the current log. -/
theorem attached_new (s : LogDir × ℕ) : Ends (timed filesystem inputs)
    (RotatingLogWriter.new retention) s fun result s' => result = .ok () → s'.1.Attached := by
  unfold RotatingLogWriter.new
  have any {α : Type} (p : Fs α) (s : LogDir × ℕ) :
      Ends (timed filesystem inputs) p s fun _ _ => True := trivial
  refine (any _ s).bind (fun _ _ _ => nofun) fun _ s₁ _ => ?_
  refine (any _ s₁).bind (fun _ _ _ => nofun) fun _ s₂ _ => ?_
  refine (any _ s₂).bind (fun _ _ _ => nofun) fun _ s₃ _ => ?_
  obtain ⟨s₃, n⟩ := s₃
  rw [ends_bind_iff]
  refine ends_openAppend (fun _ => nofun) (fun i found _ => found) fun absent _ => ?_
  exact (Disk.find_create _ _ absent _).trans (if_pos rfl)

end Runs

/-- After every run of calls of a writer that started, the open file is the file named
`keyro-core.log`, provided that no call fails while that name is taken away and no clean-up finds
the current log too old or too long. -/
theorem open_file_is_current_log (retention : LogRetention) (inputs : ℕ → FsInput) (s : LogDir)
    (calls : List LogCall) :
    let (result, started) := (RotatingLogWriter.new retention).run.exec (timed filesystem inputs)
      (s, 0)
    let run := performAll retention calls
    result = .ok () →
    retention.mooring.Accepts ⟨false, 0⟩ (run.trace (timed filesystem inputs) started) →
      (run.exec (timed filesystem inputs) started).2.1.Attached := by
  intro ok accepts
  exact (moored_performAll calls ⟨rfl, attached_new (s, 0) ok⟩ accepts).2

/-- An empty directory. -/
def emptyDirectory : LogDir := ⟨⟨[], by decide⟩, 0⟩

/-- Two writes, the second of which rotates, and a tick. -/
theorem open_file_is_current_log_example :
    let (result, started) := (RotatingLogWriter.new narrowRetention).run.exec
      (timed filesystem undisturbed) (emptyDirectory, 0)
    let run := performAll narrowRetention [.write [1, 2, 3], .write [4, 5], .maintain]
    result = .ok () ∧ (run.exec (timed filesystem undisturbed) started).2.1.Attached := by
  have ok : ((RotatingLogWriter.new narrowRetention).run.exec (timed filesystem undisturbed)
      (emptyDirectory, 0)).1 = .ok () := by decide +kernel
  refine ⟨ok, open_file_is_current_log narrowRetention undisturbed emptyDirectory _ ok ?_⟩
  decide +kernel

/-- The clock passes the age limit between the check and the clean-up of a tick, or a file cannot be
opened after the current log was renamed: then no file is named `keyro-core.log`. -/
theorem open_file_is_not_current_log :
    (let (result, started) := (RotatingLogWriter.new ⟨10, 20, 2, 3⟩).run.exec
        (timed filesystem undisturbed) (emptyDirectory, 0)
      let s' := ((performAll ⟨10, 20, 2, 3⟩ [.maintain]).exec (timed filesystem undisturbed)
        started).2.1
      result = .ok () ∧ currentLog ∉ s'.disk.names ∧ ¬ s'.Attached) ∧
    (let inputs := failingAt 16 ⟨.other, "Permission denied (os error 13)"⟩
      let (result, started) := (RotatingLogWriter.new narrowRetention).run.exec
        (timed filesystem inputs) (emptyDirectory, 0)
      let s' := ((performAll narrowRetention [.write [1, 2, 3, 4]]).exec (timed filesystem inputs)
        started).2.1
      result = .ok () ∧ currentLog ∉ s'.disk.names ∧ ¬ s'.Attached) := by
  decide +kernel

end KeyroCore
