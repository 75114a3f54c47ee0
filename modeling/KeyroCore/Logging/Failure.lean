import KeyroCore.Effect.Failure
import KeyroCore.Logging.Writer

/-!
# Failed writes

The programs of the log writer hand every failure on, so they return an error exactly if one of
their calls does.  A write appends its bytes before the clean-up that may fail: a failed write has
appended bytes exactly if a call fails after its data write.
-/

open Effect Program Fallible

namespace KeyroCore

/-! ## Calls that stop a program -/

/-- The answers that make a program of the log writer return an error. -/
def LogRetention.Stops (retention : LogRetention) : Act FsCalls → Prop
  | ⟨.now, time⟩ => checkedSub time retention.maxAge = none
  | ⟨.readDir, answer⟩ => ∀ entries, answer = .ok entries → ∃ error, .error error ∈ entries
  | ⟨.entryMetadata _, _⟩ => False
  | ⟨.exists _, _⟩ => False
  | ⟨.setFile _, _⟩ => False
  | ⟨.createDirAll, answer⟩ => ∃ error, answer = .error error
  | ⟨.removeFile _, answer⟩ => ∃ error, answer = .error error
  | ⟨.rename _ _, answer⟩ => ∃ error, answer = .error error
  | ⟨.openAppend _, answer⟩ => ∃ error, answer = .error error
  | ⟨.metadata, answer⟩ => ∃ error, answer = .error error
  | ⟨.flush, answer⟩ => ∃ error, answer = .error error
  | ⟨.write _, answer⟩ => ∃ error, answer = .error error

def decidableFails {ε α : Type} : (answer : Except ε α) → Decidable (∃ error, answer = .error error)
  | .error error => .isTrue ⟨error, rfl⟩
  | .ok _ => .isFalse nofun

instance (retention : LogRetention) : DecidablePred retention.Stops
  | ⟨.now, time⟩ => inferInstanceAs (Decidable (checkedSub time retention.maxAge = none))
  | ⟨.readDir, .error _⟩ => .isTrue nofun
  | ⟨.readDir, .ok entries⟩ => decidable_of_iff (entries.any fun entry => !entry.isOk) (by
      rw [List.any_eq_true]
      constructor
      · rintro ⟨entry, mem, failed⟩ entries' ⟨⟩
        cases entry with
        | error error => exact ⟨error, mem⟩
        | ok name => cases failed
      · intro h
        obtain ⟨error, mem⟩ := h entries rfl
        exact ⟨_, mem, rfl⟩)
  | ⟨.entryMetadata _, _⟩ | ⟨.exists _, _⟩ | ⟨.setFile _, _⟩ => .isFalse id
  | ⟨.createDirAll, answer⟩ | ⟨.removeFile _, answer⟩ | ⟨.rename _ _, answer⟩ =>
    decidableFails answer
  | ⟨.openAppend _, answer⟩ | ⟨.metadata, answer⟩ | ⟨.flush, answer⟩ => decidableFails answer
  | ⟨.write _, answer⟩ => decidableFails answer

section Stops

variable {retention : LogRetention}

theorem failsBy_removeFile (name : FileName) :
    FailsBy retention.Stops False (Fs.removeFile name) :=
  failsBy_perform (S := FsCalls) (o := FsOp.removeFile name) id fun _ => Iff.rfl

theorem failsBy_rename (source target : FileName) :
    FailsBy retention.Stops False (Fs.rename source target) :=
  failsBy_perform (S := FsCalls) (o := FsOp.rename source target) id fun _ => Iff.rfl

theorem failsBy_openAppend (name : FileName) :
    FailsBy retention.Stops False (Fs.openAppend name) :=
  failsBy_perform (S := FsCalls) (o := FsOp.openAppend name) id fun _ => Iff.rfl

theorem failsBy_metadata : FailsBy retention.Stops False Fs.metadata :=
  failsBy_perform (S := FsCalls) (o := FsOp.metadata) id fun _ => Iff.rfl

theorem failsBy_flush : FailsBy retention.Stops False Fs.flush :=
  failsBy_perform (S := FsCalls) (o := FsOp.flush) id fun _ => Iff.rfl

/-- A call that the program deals with itself. -/
theorem failsBy_ask {o : FsOp} (never : ∀ x, ¬ retention.Stops ⟨o, x⟩) :
    FailsBy retention.Stops False (Fs.ask o) :=
  failsBy_perform (S := FsCalls) (o := o) Except.ok fun x => iff_of_false (never x) nofun

theorem failsBy_retentionCutoff :
    FailsBy retention.Stops False (retentionCutoff retention) := by
  unfold retentionCutoff
  refine failsBy_perform_bind (S := FsCalls) (o := FsOp.now) Except.ok
    (b := fun time => checkedSub time retention.maxAge = none)
    (fun time => ⟨fun none a ha => Except.ok.inj ha ▸ none, fun h => h time rfl⟩) fun time => ?_
  rcases checkedSub time retention.maxAge with _ | cutoff
  · exact eq_true (rfl : none = none) ▸ failsBy_throw _
  · exact eq_false (nofun : some cutoff ≠ none) ▸ failsBy_pure _

theorem failsBy_retainLogs (cutoff : Time) (entries : List (Except IoError FileName))
    (retained : List LogFile) : FailsBy retention.Stops (∃ error, .error error ∈ entries)
      (retainLogs retention cutoff entries retained) := by
  induction entries generalizing retained with
  | nil =>
    have none : (∃ error, .error error ∈ ([] : List (Except IoError FileName))) = False := by simp
    rw [none]
    exact failsBy_pure _
  | cons entry entries ih =>
    rcases entry with error | path
    · have some : (∃ e, .error e ∈ (.error error : Except IoError FileName) :: entries) = True :=
        eq_true ⟨error, List.mem_cons_self ..⟩
      rw [some]
      exact failsBy_throw error
    have rest : (∃ e, .error e ∈ (.ok path : Except IoError FileName) :: entries) =
        ∃ e, .error e ∈ entries := by simp
    rw [rest]
    show FailsBy _ _ (if !isKeyroLog path then _ else _)
    refine failsBy_ite (ih retained) (failsBy_bind (failsBy_ask fun _ => id) fun answer => ?_)
    rcases answer with error | ⟨len, _ | modified⟩
    · exact ih retained
    · exact ih retained
    · exact failsBy_ite (failsBy_bind (failsBy_removeFile path) fun _ => ih retained) (ih _)

theorem failsBy_enforceLimits (currentIndex : Option ℕ) (index : ℕ) (rest : List LogFile)
    (keptFiles totalBytes : ℕ) : FailsBy retention.Stops False
      (enforceLimits retention currentIndex index rest keptFiles totalBytes) := by
  induction rest generalizing index keptFiles totalBytes with
  | nil => exact failsBy_pure ()
  | cons logFile rest ih =>
    unfold enforceLimits
    refine failsBy_ite (ih _ _ _) (failsBy_ite ?_ (ih _ _ _))
    exact failsBy_bind (failsBy_removeFile _) fun _ => ih _ _ _

theorem failsBy_cleanupLogs : FailsBy retention.Stops False (cleanupLogs retention) := by
  unfold cleanupLogs
  refine failsBy_bind failsBy_retentionCutoff fun cutoff => ?_
  refine failsBy_perform_bind (S := FsCalls) (o := FsOp.readDir) id (fun _ => Iff.rfl) fun entries => ?_
  rw [← or_false (∃ error, _)]
  exact failsBy_seq (failsBy_retainLogs cutoff entries []) fun retained =>
    failsBy_enforceLimits _ 0 (newestFirst retained) _ _

theorem failsBy_removeIfExists (name : FileName) :
    FailsBy retention.Stops False (removeIfExists name) :=
  failsBy_bind (failsBy_ask fun _ => id) fun _ =>
    failsBy_ite (failsBy_removeFile name) (failsBy_pure ())

theorem failsBy_renameIfExists (source target : FileName) :
    FailsBy retention.Stops False (renameIfExists source target) :=
  failsBy_bind (failsBy_ask fun _ => id) fun _ =>
    failsBy_ite (failsBy_rename source target) (failsBy_pure ())

theorem failsBy_shiftLogs (index : ℕ) : FailsBy retention.Stops False (shiftLogs index) := by
  induction index with
  | zero => exact failsBy_pure ()
  | succ index ih => exact failsBy_bind (failsBy_renameIfExists _ _) fun _ => ih

theorem failsBy_rotateLogs : FailsBy retention.Stops False (rotateLogs retention) := by
  refine failsBy_ite (failsBy_removeIfExists _) (failsBy_bind ?_ fun _ => failsBy_cleanupLogs)
  exact failsBy_bind (failsBy_removeIfExists _) fun _ =>
    failsBy_bind (failsBy_shiftLogs _) fun _ => failsBy_renameIfExists _ _

theorem failsBy_rotate : FailsBy retention.Stops False (LogState.rotate retention) :=
  failsBy_bind failsBy_flush fun _ => failsBy_bind failsBy_rotateLogs fun _ =>
    failsBy_bind (failsBy_openAppend _) fun _ => failsBy_ask fun _ => id

theorem failsBy_rotateIf (needed : Bool) :
    FailsBy retention.Stops False (LogState.rotateIf retention needed) :=
  failsBy_ite failsBy_rotate (failsBy_pure ())

theorem failsBy_cleanupRetention :
    FailsBy retention.Stops False (LogState.cleanupRetention retention) := by
  refine failsBy_bind ?_ fun needed => failsBy_bind (failsBy_rotateIf needed) fun _ =>
    failsBy_cleanupLogs
  refine failsBy_bind failsBy_metadata fun metadata => failsBy_ite (failsBy_pure true) ?_
  exact failsBy_bind failsBy_retentionCutoff fun _ => failsBy_pure _

end Stops

/-! ## Bytes that reach a file -/

/-- The bytes that a call adds to the open file. -/
def appended : Act FsCalls → List UInt8
  | ⟨.write bytes, .ok n⟩ => bytes.take n
  | _ => []

theorem appended_of_ne {a : Act FsCalls} (h : ∀ bytes, a.op ≠ .write bytes) : appended a = [] := by
  obtain ⟨o, x⟩ := a
  cases o with
  | write bytes => exact absurd rfl (h bytes)
  | _ => rfl

/-- A call adds bytes to the open file and to no other. -/
theorem content_filesystem (input : FsInput) (o : FsOp) (s : LogDir) (i : ℕ) :
    (filesystem input o s).2.disk.content i = s.disk.content i ++
      if s.file = i then appended ⟨o, (filesystem input o s).1⟩ else [] := by
  have still {s' : LogDir} (same : s'.disk.content i = s.disk.content i)
      (h : ∀ bytes, o ≠ .write bytes) {x : FsCalls.Ans o} : s'.disk.content i =
        s.disk.content i ++ if s.file = i then appended ⟨o, x⟩ else [] := by
    rw [appended_of_ne h, ite_self, List.append_nil, same]
  cases o with
  | removeFile name =>
    rcases filesystem_removeFile input s name with ⟨error, eq⟩ | ⟨-, eq⟩
    · exact still (by rw [eq]) fun _ h => by cases h
    · refine still ?_ fun _ h => by cases h
      rw [eq]
      exact Disk.content_unlink _ _ _
  | rename source target =>
    rcases filesystem_rename input s source target with ⟨error, eq⟩ | ⟨-, eq⟩
    · exact still (by rw [eq]) fun _ h => by cases h
    · refine still ?_ fun _ h => by cases h
      rw [eq]
      exact Disk.content_relabel _ _ _
  | openAppend name =>
    rcases filesystem_openAppend input s name with ⟨error, eq⟩ | ⟨j, -, eq⟩ | ⟨absent, eq⟩
    · exact still (by rw [eq]) fun _ h => by cases h
    · exact still (by rw [eq]) fun _ h => by cases h
    · refine still ?_ fun _ h => by cases h
      rw [eq]
      exact Disk.content_create _ _ absent _
  | write bytes =>
    rcases filesystem_write input s bytes with ⟨error, eq⟩ | ⟨lt, n, -, eq⟩
    · rw [eq]
      show _ = _ ++ ite _ [] []
      rw [ite_self, List.append_nil]
    · rw [eq]
      show Disk.content (LogDir.disk (if n = 0 then s else _)) i = _ ++ ite _ (bytes.take n) []
      by_cases zero : n = 0
      · rw [if_pos zero, zero, List.take_zero, ite_self, List.append_nil]
      · rw [if_neg zero]
        exact Disk.content_append _ _ _ _ lt
  | metadata =>
    rcases filesystem_metadata input s with ⟨error, eq⟩ | ⟨f, -, eq⟩
    · exact still (by rw [eq]) fun _ h => by cases h
    · exact still (by rw [eq]) fun _ h => by cases h
  | entryMetadata name =>
    refine still ?_ fun _ h => by cases h
    simp only [filesystem]
    split <;> rfl
  | createDirAll | readDir | flush =>
    refine still ?_ fun _ h => by cases h
    simp only [filesystem, FsInput.attempt]
    split <;> rfl
  | _ => exact still rfl fun _ h => by cases h

section Run

variable {inputs : ℕ → FsInput} {α : Type}

/-- Files only grow. -/
theorem content_prefix (inputs : ℕ → FsInput) (p : Program FsCalls α) (s : LogDir × ℕ) (i : ℕ) :
    s.1.disk.content i <+: (p.exec (timed filesystem inputs) s).2.1.disk.content i := by
  induction p generalizing s with
  | pure a => exact List.prefix_refl _
  | perform o next ih =>
    have step : s.1.disk.content i <+: (filesystem (inputs s.2) o s.1).2.disk.content i := by
      rw [content_filesystem]
      exact List.prefix_append _ _
    exact step.trans (ih (filesystem (inputs s.2) o s.1).1 (timed filesystem inputs o s).2)

/-- A run leaves every file as it was if and only if no call added a byte. -/
theorem contents_eq_iff (p : Program FsCalls α) (s : LogDir × ℕ) :
    (∀ i, (p.exec (timed filesystem inputs) s).2.1.disk.content i = s.1.disk.content i) ↔
      ∀ a ∈ p.acts (timed filesystem inputs) s, appended a = [] := by
  induction p generalizing s with
  | pure a => exact iff_of_true (fun _ => rfl) nofun
  | perform o next ih =>
    have grown (i : ℕ) := content_filesystem (inputs s.2) o s.1 i
    have here : (∀ i, (filesystem (inputs s.2) o s.1).2.disk.content i = s.1.disk.content i) ↔
        appended ⟨o, (filesystem (inputs s.2) o s.1).1⟩ = [] := by
      constructor
      · intro same
        have growth := grown s.1.file
        rw [if_pos rfl, same] at growth
        exact List.self_eq_append_right.1 growth
      · intro none i
        rw [grown, none, ite_self, List.append_nil]
    have rest := ih (filesystem (inputs s.2) o s.1).1 (timed filesystem inputs o s).2
    have down (i : ℕ) := content_prefix inputs
      (next (filesystem (inputs s.2) o s.1).1) (timed filesystem inputs o s).2 i
    rw [acts, List.forall_mem_cons]
    refine Iff.trans ?_ (and_congr here rest)
    constructor
    · intro same
      have between (i : ℕ) : (filesystem (inputs s.2) o s.1).2.disk.content i =
          s.1.disk.content i := by
        have up : s.1.disk.content i <+: (filesystem (inputs s.2) o s.1).2.disk.content i := by
          rw [grown]
          exact List.prefix_append _ _
        refine List.IsPrefix.eq_of_length_le ?_ up.length_le
        rw [← same i]
        exact down i
      exact ⟨between, fun i => (same i).trans (between i).symm⟩
    · rintro ⟨first, second⟩ i
      exact (second i).trans (first i)

end Run

/-! ## The calls of each program -/

section Calls

variable {retention : LogRetention} {O : FsOp → Prop}

theorem uses_ask {o : FsOp} (ho : O o) : (Fs.ask o).run.Uses O := uses_lift (Program.uses_call ho)

theorem uses_retentionCutoff (now : O .now) : (retentionCutoff retention).run.Uses O := by
  refine Fallible.uses_bind (uses_ask now) fun time => ?_
  rcases checkedSub time retention.maxAge with _ | cutoff <;> exact trivial

theorem uses_retainLogs (examine : ∀ name, O (.entryMetadata name))
    (remove : ∀ name, O (.removeFile name)) (cutoff : Time)
    (entries : List (Except IoError FileName)) (retained : List LogFile) :
    (retainLogs retention cutoff entries retained).run.Uses O := by
  induction entries generalizing retained with
  | nil => exact trivial
  | cons entry entries ih =>
    rcases entry with error | path
    · exact trivial
    show Program.Uses (S := FsCalls) O (ExceptT.run (if !isKeyroLog path then _ else _))
    split_ifs
    · exact ih retained
    refine Fallible.uses_bind (uses_ask (examine path)) fun answer => ?_
    rcases answer with error | ⟨len, _ | modified⟩
    · exact ih retained
    · exact ih retained
    · dsimp only
      split_ifs
      · exact Fallible.uses_bind (Program.uses_call (remove path)) fun _ => ih retained
      · exact ih _

theorem uses_enforceLimits (remove : ∀ name, O (.removeFile name)) (currentIndex : Option ℕ)
    (index : ℕ) (rest : List LogFile) (keptFiles totalBytes : ℕ) :
    (enforceLimits retention currentIndex index rest keptFiles totalBytes).run.Uses O := by
  induction rest generalizing index keptFiles totalBytes with
  | nil => exact trivial
  | cons logFile rest ih =>
    unfold enforceLimits
    split_ifs
    · exact ih _ _ _
    · exact Fallible.uses_bind (Program.uses_call (remove _)) fun _ => ih _ _ _
    · exact ih _ _ _

theorem uses_cleanupLogs (now : O .now) (readDir : O .readDir)
    (examine : ∀ name, O (.entryMetadata name)) (remove : ∀ name, O (.removeFile name)) :
    (cleanupLogs retention).run.Uses O := by
  refine Fallible.uses_bind (uses_retentionCutoff now) fun cutoff => ?_
  refine Fallible.uses_bind (Program.uses_call readDir) fun entries => ?_
  refine Fallible.uses_bind (uses_retainLogs examine remove _ _ _) fun retained => ?_
  exact uses_enforceLimits remove _ _ _ _ _

theorem uses_removeIfExists {name : FileName} (look : O (.exists name))
    (remove : O (.removeFile name)) : (removeIfExists name).run.Uses O := by
  refine Fallible.uses_bind (uses_ask look) fun found => ?_
  split_ifs
  · exact Program.uses_call remove
  · exact trivial

theorem uses_renameIfExists {source target : FileName} (look : O (.exists source))
    (rename : O (.rename source target)) : (renameIfExists source target).run.Uses O := by
  refine Fallible.uses_bind (uses_ask look) fun found => ?_
  split_ifs
  · exact Program.uses_call rename
  · exact trivial

theorem uses_shiftLogs (look : ∀ i, O (.exists (rotatedLog i)))
    (rename : ∀ i, O (.rename (rotatedLog i) (rotatedLog (i + 1)))) (index : ℕ) :
    (shiftLogs index).run.Uses O := by
  induction index with
  | zero => exact trivial
  | succ index ih => exact Fallible.uses_bind (uses_renameIfExists (look _) (rename _)) fun _ => ih

theorem uses_currentLogNeedsRotation (metadata : O .metadata) (now : O .now) :
    (currentLogNeedsRotation retention).run.Uses O := by
  refine Fallible.uses_bind (Program.uses_call metadata) fun file => ?_
  split_ifs
  · exact trivial
  · exact Fallible.uses_bind (uses_retentionCutoff now) fun _ => trivial

/-- The operation is no data write. -/
def FsOp.KeepsBytes (o : FsOp) : Prop := ∀ bytes, o ≠ .write bytes

theorem keepsBytes_cleanupLogs : (cleanupLogs retention).run.Uses FsOp.KeepsBytes :=
  uses_cleanupLogs nofun nofun (fun _ => nofun) fun _ => nofun

theorem keepsBytes_moveLogs (maxRotatedFiles : ℕ) :
    (moveLogs maxRotatedFiles).run.Uses FsOp.KeepsBytes := by
  refine Fallible.uses_bind (uses_removeIfExists nofun nofun) fun _ => ?_
  refine Fallible.uses_bind (uses_shiftLogs (fun _ => nofun) (fun _ => nofun) _) fun _ => ?_
  exact uses_renameIfExists nofun nofun

theorem keepsBytes_rotateIf (needed : Bool) :
    (LogState.rotateIf retention needed).run.Uses FsOp.KeepsBytes := by
  unfold LogState.rotateIf
  split_ifs
  · refine Fallible.uses_bind (Program.uses_call nofun) fun _ => ?_
    refine Fallible.uses_bind ?_ fun _ => Fallible.uses_bind (Program.uses_call nofun) fun _ => uses_ask nofun
    unfold rotateLogs
    dsimp only
    split_ifs
    · exact uses_removeIfExists nofun nofun
    · exact Fallible.uses_bind (keepsBytes_moveLogs _) fun _ => keepsBytes_cleanupLogs
  · exact trivial

theorem keepsBytes_cleanupRetention :
    (LogState.cleanupRetention retention).run.Uses FsOp.KeepsBytes := by
  refine Fallible.uses_bind (uses_currentLogNeedsRotation nofun nofun) fun needed => ?_
  exact Fallible.uses_bind (keepsBytes_rotateIf needed) fun _ => keepsBytes_cleanupLogs

theorem keepsBytes_new : (RotatingLogWriter.new retention).run.Uses FsOp.KeepsBytes := by
  unfold RotatingLogWriter.new
  have checked : (Fs.orFail (validateRetention retention)).run.Uses FsOp.KeepsBytes := by
    cases validateRetention retention <;> exact trivial
  have call {o : FsOp} (ho : o.KeepsBytes) : (Program.call (S := FsCalls) o).Uses
      FsOp.KeepsBytes := Program.uses_call ho
  refine Fallible.uses_bind checked fun _ => ?_
  refine Fallible.uses_bind (call (by rintro _ ⟨⟩)) fun _ => ?_
  refine Fallible.uses_bind keepsBytes_cleanupLogs fun _ => ?_
  refine Fallible.uses_bind (call (by rintro _ ⟨⟩)) fun _ => ?_
  exact uses_ask (by rintro _ ⟨⟩)

/-- Without data writes nothing is added to a file. -/
theorem appended_of_keepsBytes {α : Type} {p : Fs α} (uses : p.run.Uses FsOp.KeepsBytes)
    {σ : Type} (h : Handler FsCalls σ) (s : σ) : (p.run.acts h s).flatMap appended = [] := by
  rw [List.flatMap_eq_nil_iff]
  exact fun a mem => appended_of_ne ((path_acts h p.run s).uses uses a mem)

end Calls

/-! ## Errors of a write -/

/-- A data write of some bytes is followed by a call that makes the write return an error. -/
def LogRetention.StopsAfterWrite (retention : LogRetention) (acts : List (Act FsCalls)) : Prop :=
  ∃ before a after, acts = before ++ a :: after ∧ appended a ≠ [] ∧ ∃ b ∈ after, retention.Stops b

section Write

variable {retention : LogRetention} {inputs : ℕ → FsInput}

theorem Path.keepsBytes {α : Type} {p : Fs α} {acts : List (Act FsCalls)}
    {r : Option (Except IoError α)} (path : p.run.Path acts r)
    (uses : p.run.Uses FsOp.KeepsBytes) : ∀ a ∈ acts, appended a = [] :=
  fun a ha => appended_of_ne (path.uses uses a ha)

/-- A write that ended either failed before it added a byte, or added a part of the buffer and then
failed exactly if a later call did. -/
theorem write_path {buf : List UInt8} (nonempty : buf ≠ []) {acts : List (Act FsCalls)}
    {r : Except IoError ℕ} (path : (LogState.write retention buf).run.Path acts (some r)) :
    (∃ e, r = .error e) ∧ (∀ a ∈ acts, appended a = []) ∨
      ∃ before bytes k after, acts = before ++ ⟨.write bytes, .ok k⟩ :: after ∧ bytes <+: buf ∧
        (∀ a ∈ before, appended a = []) ∧ (∀ a ∈ after, appended a = []) ∧
          ((∃ e, r = .error e) ∧ (∃ a ∈ after, retention.Stops a) ∨
            r = .ok k ∧ ∀ a ∈ after, ¬ retention.Stops a) := by
  have size {as : List (Act FsCalls)} {r' : Option (Except IoError Metadata)}
      (h : Fs.metadata.run.Path as r') : ∀ a ∈ as, appended a = [] :=
    Path.keepsBytes h (Program.uses_call nofun)
  unfold LogState.write at path
  rw [if_neg (by simpa using nonempty)] at path
  rcases run_path_bind path with ⟨-, h⟩ | ⟨e, ended, h⟩ | ⟨m, as₁, rest, rfl, ended, path₁⟩
  · cases h
  · cases h
    exact .inl ⟨⟨e, rfl⟩, size ended⟩
  have quiet₁ := size ended
  rcases run_path_bind path₁ with ⟨-, h⟩ | ⟨e, ended, h⟩ | ⟨⟨⟩, as₂, rest, rfl, ended, path₂⟩
  · cases h
  · cases h
    refine .inl ⟨⟨e, rfl⟩, List.forall_mem_append.2 ⟨quiet₁, ?_⟩⟩
    exact Path.keepsBytes ended (keepsBytes_rotateIf _)
  have quiet₂ := Path.keepsBytes ended (keepsBytes_rotateIf _)
  rcases run_path_bind path₂ with ⟨-, h⟩ | ⟨e, ended, h⟩ | ⟨m', as₃, rest, rfl, ended, path₃⟩
  · cases h
  · cases h
    refine .inl ⟨⟨e, rfl⟩, ?_⟩
    exact List.forall_mem_append.2 ⟨quiet₁, List.forall_mem_append.2 ⟨quiet₂, size ended⟩⟩
  have quiet₃ := size ended
  have quiet : ∀ a ∈ as₁ ++ (as₂ ++ as₃), appended a = [] :=
    List.forall_mem_append.2 ⟨quiet₁, List.forall_mem_append.2 ⟨quiet₂, quiet₃⟩⟩
  rcases run_path_bind path₃ with ⟨-, h⟩ | ⟨e, ended, h⟩ | ⟨k, as₄, rest, rfl, ended, path₄⟩
  · cases h
  · cases h
    obtain ⟨x, rfl, hx⟩ := run_path_perform (S := FsCalls) (o := .write _) id ended
    obtain rfl : x = .error e := hx
    refine .inl ⟨⟨e, rfl⟩, ?_⟩
    rw [← List.append_assoc as₂, ← List.append_assoc, List.forall_mem_append]
    exact ⟨quiet, List.forall_mem_singleton.2 rfl⟩
  obtain ⟨x, rfl, hx⟩ := run_path_perform (S := FsCalls) (o := .write _) id ended
  obtain rfl : x = .ok k := hx
  refine .inr ⟨as₁ ++ (as₂ ++ as₃), _, k, rest, by simp, List.take_prefix (min
    (retention.maxFileBytes.toNat - m'.len) buf.length) buf, quiet, ?_⟩
  rcases run_path_bind path₄ with ⟨-, h⟩ | ⟨e, ended, h⟩ | ⟨⟨⟩, as₅, none, rfl, ended, path₅⟩
  · cases h
  · cases h
    refine ⟨Path.keepsBytes ended keepsBytes_cleanupRetention, .inl ⟨⟨e, rfl⟩, ?_⟩⟩
    have failed := (failsBy_cleanupRetention rest _ ended).1 ⟨e, rfl⟩
    rwa [false_or] at failed
  · obtain ⟨rfl, hr⟩ := path_pure_iff.1 path₅
    cases hr
    rw [List.append_nil]
    exact ⟨Path.keepsBytes ended keepsBytes_cleanupRetention,
      .inr ⟨rfl, failsBy_cleanupRetention.ok ended⟩⟩

theorem write_acts_path (inputs : ℕ → FsInput) (buf : List UInt8) (s : LogDir × ℕ) :
    (LogState.write retention buf).run.Path
      ((LogState.write retention buf).run.acts (timed filesystem inputs) s)
      (some ((LogState.write retention buf).run.exec (timed filesystem inputs) s).1) :=
  path_acts _ _ _

theorem not_stopsAfterWrite_of_quiet {acts : List (Act FsCalls)}
    (quiet : ∀ a ∈ acts, appended a = []) : ¬ retention.StopsAfterWrite acts := by
  rintro ⟨before, a, after, rfl, some, -⟩
  exact some (quiet a (List.mem_append_right _ (List.mem_cons_self ..)))

theorem failed_write_iff {buf : List UInt8} (nonempty : buf ≠ []) (s : LogDir × ℕ) :
    let write := (LogState.write retention buf).run
    let (result, s') := write.exec (timed filesystem inputs) s
    ((∃ e, result = .error e) → ∀ i, s'.1.disk.content i = s.1.disk.content i) ↔
      ¬ retention.StopsAfterWrite (write.acts (timed filesystem inputs) s) := by
  dsimp only
  rw [contents_eq_iff]
  rcases write_path nonempty (write_acts_path inputs buf s) with
    ⟨-, none⟩ | ⟨before, bytes, k, after, split, -, quiet, quiet', ended⟩
  · exact iff_of_true (fun _ => none) (not_stopsAfterWrite_of_quiet none)
  have stops : retention.StopsAfterWrite
      ((LogState.write retention buf).run.acts (timed filesystem inputs) s) ↔
        bytes.take k ≠ [] ∧ ∃ a ∈ after, retention.Stops a := by
    rw [split]
    constructor
    · rintro ⟨before', b, after', split', some, stopped⟩
      obtain ⟨rfl, rfl⟩ := split_at_only (P := fun a => appended a ≠ []) split'
        (fun a ha => not_not.2 (quiet a ha)) (fun a ha => not_not.2 (quiet' a ha)) some
      have same := List.append_cancel_left split'
      cases same
      exact ⟨some, stopped⟩
    · rintro ⟨some, stopped⟩
      exact ⟨before, _, after, rfl, some, stopped⟩
  have adds : (∀ a ∈ (LogState.write retention buf).run.acts (timed filesystem inputs) s,
      appended a = []) ↔ bytes.take k = [] := by
    rw [split, List.forall_mem_append, List.forall_mem_cons]
    exact ⟨fun h => h.2.1, fun h => ⟨quiet, h, quiet'⟩⟩
  rw [stops, adds, not_and', not_not]
  refine imp_congr_left ?_
  rcases ended with ⟨failed, stopped⟩ | ⟨ok, never⟩
  · exact iff_of_true failed stopped
  · rw [ok]
    exact iff_of_false nofun fun ⟨a, ha, stopped⟩ => never a ha stopped

/-- A data write adds no more than it was given. -/
theorem written_le {α : Type} {p : Program FsCalls α} {s : LogDir × ℕ} {bytes : List UInt8} {k : ℕ}
    (h : ⟨.write bytes, .ok k⟩ ∈ p.acts (timed filesystem inputs) s) : k ≤ bytes.length := by
  obtain ⟨s', answered⟩ := mem_acts h
  change (filesystem (inputs s'.2) (.write bytes) s'.1).1 = .ok k at answered
  rcases filesystem_write (inputs s'.2) s'.1 bytes with ⟨error, eq⟩ | ⟨-, n, hn, eq⟩
  · rw [eq] at answered
    cases answered
  · rw [eq] at answered
    cases answered
    rw [hn]
    exact Nat.min_le_right _ _

theorem flatMap_appended_of_quiet {acts : List (Act FsCalls)} (quiet : ∀ a ∈ acts, appended a = []) :
    acts.flatMap appended = [] := List.flatMap_eq_nil_iff.2 quiet

/-- What a write adds when no error follows its data write. -/
theorem appended_write {buf : List UInt8} (nonempty : buf ≠ []) (s : LogDir × ℕ)
    (clean : ¬ retention.StopsAfterWrite
      ((LogState.write retention buf).run.acts (timed filesystem inputs) s)) :
    let write := (LogState.write retention buf).run
    let added := (write.acts (timed filesystem inputs) s).flatMap appended
    (∀ k, (write.exec (timed filesystem inputs) s).1 = .ok k → added = buf.take k) ∧
      ∀ e, (write.exec (timed filesystem inputs) s).1 = .error e → added = [] := by
  dsimp only
  rcases write_path nonempty (write_acts_path inputs buf s) with
    ⟨⟨e, failed⟩, none⟩ | ⟨before, bytes, k, after, split, part, quiet, quiet', ended⟩
  · rw [flatMap_appended_of_quiet none, failed]
    exact ⟨nofun, fun _ _ => rfl⟩
  have le : k ≤ bytes.length := written_le (split ▸ List.mem_append_right _ (List.mem_cons_self ..))
  have added : ((LogState.write retention buf).run.acts (timed filesystem inputs) s).flatMap
      appended = buf.take k := by
    rw [split, List.flatMap_append, List.flatMap_cons, flatMap_appended_of_quiet quiet,
      flatMap_appended_of_quiet quiet', List.nil_append, List.append_nil]
    obtain ⟨rest, rfl⟩ := part
    exact (List.take_append_of_le_length le).symm
  rw [added]
  rcases ended with ⟨⟨e, failed⟩, stopped⟩ | ⟨ok, -⟩
  · rw [failed]
    refine ⟨nofun, fun _ _ => ?_⟩
    by_contra some
    refine clean ⟨before, _, after, split, fun none => some ?_, stopped⟩
    obtain ⟨rest, rfl⟩ := part
    rw [List.take_append_of_le_length le]
    exact none
  · rw [ok]
    refine ⟨fun n hn => ?_, nofun⟩
    cases hn
    rfl

end Write

namespace RotatingLogHandle

/-- The calls of each `write` that `write_all` makes. -/
def calls (retention : LogRetention) (inputs : ℕ → FsInput) :
    ℕ → List UInt8 → LogDir × ℕ → List (List (Act FsCalls))
  | _, [], _ => []
  | 0, _ :: _, _ => []
  | fuel + 1, buf, s =>
    let write := (LogState.write retention buf).run
    let (result, s') := write.exec (timed filesystem inputs) s
    write.acts (timed filesystem inputs) s ::
      match result with
      | .ok 0 => []
      | .ok n => calls retention inputs fuel (buf.drop n) s'
      | .error error =>
        if error.kind = .interrupted then calls retention inputs fuel buf s' else []

variable {retention : LogRetention} {inputs : ℕ → FsInput}

theorem calls_retry {fuel : ℕ} {b : UInt8} {buf : List UInt8} {s : LogDir × ℕ} {error : IoError}
    (h : ((LogState.write retention (b :: buf)).run.exec (timed filesystem inputs) s).1 =
      .error error) (retry : error.kind = .interrupted) :
    calls retention inputs (fuel + 1) (b :: buf) s =
      (LogState.write retention (b :: buf)).run.acts (timed filesystem inputs) s ::
        calls retention inputs fuel (b :: buf)
          ((LogState.write retention (b :: buf)).run.exec (timed filesystem inputs) s).2 := by
  rw [calls]
  · simp only [h, if_pos retry]
  · exact List.cons_ne_nil b buf

theorem calls_advance {fuel n : ℕ} {b : UInt8} {buf : List UInt8} {s : LogDir × ℕ}
    (h : ((LogState.write retention (b :: buf)).run.exec (timed filesystem inputs) s).1 =
      .ok (n + 1)) : calls retention inputs (fuel + 1) (b :: buf) s =
      (LogState.write retention (b :: buf)).run.acts (timed filesystem inputs) s ::
        calls retention inputs fuel (buf.drop n)
          ((LogState.write retention (b :: buf)).run.exec (timed filesystem inputs) s).2 := by
  rw [calls]
  · simp only [h, List.drop_succ_cons]
  · exact List.cons_ne_nil b buf

theorem acts_lift_bind {S : Signature} {ε α β σ : Type} (h : Handler S σ) (p : Program S α)
    (f : α → Fallible S ε β) (s : σ) : (Fallible.lift p >>= f).run.acts h s =
      p.acts h s ++ (f (p.exec h s).1).run.acts h (p.exec h s).2 := by
  rw [run_bind, acts_bind]
  unfold Fallible.lift
  rw [ExceptT.run_mk, acts_bind, exec_bind]
  simp

theorem exec_lift_bind {S : Signature} {ε α β σ : Type} (h : Handler S σ) (p : Program S α)
    (f : α → Fallible S ε β) (s : σ) : (Fallible.lift p >>= f).run.exec h s =
      (f (p.exec h s).1).run.exec h (p.exec h s).2 := by
  rw [run_bind, exec_bind]
  unfold Fallible.lift
  rw [ExceptT.run_mk, exec_bind]
  simp

/-- What the calls of a loop of `write` add, when no error follows a data write, is a part of the
buffer from its start. -/
theorem appended_writeAll (fuel : ℕ) (buf : List UInt8) (s : LogDir × ℕ)
    (clean : ∀ acts ∈ calls retention inputs fuel buf s, ¬ retention.StopsAfterWrite acts) :
    ((writeAll retention fuel buf).run.acts (timed filesystem inputs) s).flatMap appended <+:
      buf := by
  induction fuel generalizing buf s with
  | zero =>
    cases buf with
    | nil => exact List.nil_prefix
    | cons b buf => exact List.nil_prefix
  | succ fuel ih =>
    cases buf with
    | nil => exact List.nil_prefix
    | cons b buf =>
    have here : ¬ retention.StopsAfterWrite
        ((LogState.write retention (b :: buf)).run.acts (timed filesystem inputs) s) := by
      refine clean _ ?_
      rw [calls]
      · exact List.mem_cons_self ..
      · exact List.cons_ne_nil b buf
    have added := appended_write (List.cons_ne_nil b buf) s here
    unfold writeAll
    rw [acts_lift_bind, List.flatMap_append]
    rcases hr : ((LogState.write retention (b :: buf)).run.exec (timed filesystem inputs) s).1 with
      error | n
    · rw [added.2 error hr, List.nil_append]
      by_cases retry : error.kind = .interrupted
      · simp only [if_pos retry]
        rw [calls_retry hr retry, List.forall_mem_cons] at clean
        exact ih (b :: buf) _ clean.2
      · simp only [if_neg retry]
        exact List.nil_prefix
    · rw [added.1 n hr]
      cases n with
      | zero => exact List.nil_prefix
      | succ n =>
        rw [calls_advance hr, List.forall_mem_cons] at clean
        conv_rhs => rw [← List.take_append_drop (n + 1) (b :: buf)]
        exact (List.prefix_append_right_inj _).2 (ih _ _ clean.2)

end RotatingLogHandle

/-- A write that returns an error has added no byte to any file if and only if no call after a data
write of some bytes stops it; when this holds of every `write` that `write_all` makes, the bytes
that `write_all` adds are a part of the buffer from its start, so none is added twice. -/
theorem failed_write_adds_nothing (retention : LogRetention) (inputs : ℕ → FsInput) :
    (∀ (s : LogDir) (buf : List UInt8), buf ≠ [] →
      let write := (LogState.write retention buf).run
      let (result, s', _) := write.exec (timed filesystem inputs) (s, 0)
      ((∃ e, result = .error e) → ∀ i, s'.disk.content i = s.disk.content i) ↔
        ¬ retention.StopsAfterWrite (write.acts (timed filesystem inputs) (s, 0))) ∧
    ∀ (s : LogDir) (buf : List UInt8) (fuel : ℕ),
      (∀ acts ∈ RotatingLogHandle.calls retention inputs fuel buf (s, 0),
        ¬ retention.StopsAfterWrite acts) →
      ((RotatingLogHandle.writeAll retention fuel buf).run.acts (timed filesystem inputs)
        (s, 0)).flatMap appended <+: buf :=
  ⟨fun s _ nonempty => failed_write_iff nonempty (s, 0),
    fun s buf fuel => RotatingLogHandle.appended_writeAll fuel buf (s, 0)⟩

/-- An environment in which one call fails. -/
def failingAt (k : ℕ) (error : IoError) (n : ℕ) : FsInput :=
  { undisturbed n with failure := if n = k then some error else none }

/-- A directory with an empty current log, which is open. -/
def freshDirectory : LogDir := ⟨⟨[⟨some currentLog, [], 0⟩], by decide⟩, 0⟩

/-- Two files of ten bytes. -/
def briefRetention : LogRetention := ⟨10, 20, 2, 1000⟩

def interruptedError : IoError := ⟨.interrupted, "Interrupted system call (os error 4)"⟩

/-- A write whose first call fails, and a retry that adds the bytes once. -/
theorem failed_write_adds_nothing_example :
    let inputs := failingAt 0 interruptedError
    let (result, s', _) := (LogState.write briefRetention [1, 2]).run.exec
      (timed filesystem inputs) (freshDirectory, 0)
    result = .error interruptedError ∧ (∀ i, s'.disk.content i = freshDirectory.disk.content i) ∧
      ((RotatingLogHandle.writeAll briefRetention 3 [1, 2]).run.acts (timed filesystem inputs)
        (freshDirectory, 0)).flatMap appended <+: [1, 2] := by
  set inputs := failingAt 0 interruptedError
  have failed : ((LogState.write briefRetention [1, 2]).run.exec (timed filesystem inputs)
      (freshDirectory, 0)).1 = .error interruptedError := by decide +kernel
  have retried : ((LogState.write briefRetention [1, 2]).run.exec (timed filesystem inputs)
      ((LogState.write briefRetention [1, 2]).run.exec (timed filesystem inputs)
        (freshDirectory, 0)).2).1 = .ok 2 := by decide +kernel
  have quiet : ¬ briefRetention.StopsAfterWrite ((LogState.write briefRetention [1, 2]).run.acts
      (timed filesystem inputs) (freshDirectory, 0)) := by
    refine not_stopsAfterWrite_of_quiet ?_
    decide +kernel
  obtain ⟨law, once⟩ := failed_write_adds_nothing briefRetention inputs
  refine ⟨failed, (law freshDirectory [1, 2] (by decide)).2 quiet ⟨_, failed⟩,
    once freshDirectory [1, 2] 3 ?_⟩
  rw [RotatingLogHandle.calls_retry failed rfl, RotatingLogHandle.calls_advance retried,
    List.forall_mem_cons, List.forall_mem_cons]
  refine ⟨quiet, (failed_write_iff (by decide) _).1 fun ⟨e, he⟩ => ?_, nofun⟩
  rw [retried] at he
  cases he

/-- The listing of the clean-up fails: the bytes are in the log, and the retry adds them again. -/
theorem failed_write_adds_bytes :
    let inputs := failingAt 6 interruptedError
    let (result, s', _) := (LogState.write briefRetention [1, 2]).run.exec
      (timed filesystem inputs) (freshDirectory, 0)
    result = .error interruptedError ∧ s'.disk.content 0 = [1, 2] ∧
      freshDirectory.disk.content 0 = [] ∧
      ((RotatingLogHandle.writeAll briefRetention 3 [1, 2]).run.acts (timed filesystem inputs)
        (freshDirectory, 0)).flatMap appended = [1, 2, 1, 2] := by
  decide +kernel

end KeyroCore
