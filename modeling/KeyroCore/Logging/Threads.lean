import KeyroCore.Effect.Clients
import KeyroCore.Logging.Order
import KeyroCore.Logging.Progress

/-!
# Threads that log

A call of the writer holds the lock of the log until it returns, so the threads of the process take
turns call by call, in any order.  Without failing calls every thread puts its records into the log
whole and in order, and a record for which a file has room is written by one call, so that nothing
comes between its bytes.
-/

open Effect Program Fallible Clients

namespace KeyroCore

/-- What a thread does while it holds the lock. -/
inductive LockedOp where
  | write (buf : List UInt8)
  | cleanupRetention

@[reducible] def LockedOp.Ans : LockedOp → Type
  | .write _ => Except IoError ℕ
  | .cleanupRetention => Unit

abbrev LockedCalls : Signature := ⟨LockedOp, LockedOp.Ans⟩

/-- `Write::write_all` over `RotatingLogHandle`, for at most `fuel` calls of `write`; `none` when it
has not returned by then. -/
def writeRecord : ℕ → List UInt8 → Program LockedCalls (Option (Except IoError Unit) × Unit)
  | _, [] => .pure (some (.ok ()), ())
  | 0, _ :: _ => .pure (none, ())
  | fuel + 1, b :: buf => .perform (.write (b :: buf)) fun
    | .ok 0 => .pure (some (.error ⟨.writeZero, "failed to write whole buffer"⟩), ())
    | .ok n => writeRecord fuel ((b :: buf).drop n)
    | .error error =>
      if error.kind = .interrupted then writeRecord fuel (b :: buf)
      else .pure (some (.error error), ())

/-- A thread logs a record, or the maintenance thread wakes up. -/
inductive LogJob where
  | log (record : List UInt8)
  | maintain

def LogJob.body : Unit → LogJob → Program LockedCalls (Option (Except IoError Unit) × Unit)
  | (), .log record => writeRecord record.length record
  | (), .maintain => .perform .cleanupRetention fun () => .pure (some (.ok ()), ())

/-- The environment of a call that does not fail and that accepts `least` bytes at once. -/
structure CallInputs (retention : LogRetention) (least : ℕ) where
  inputs : ℕ → FsInput
  faultless : Faultless retention inputs
  accepts : ∀ n, least ≤ (inputs n).accepts

variable {retention : LogRetention} {least : ℕ}

/-- The calls of `LogState` with the lock held. -/
def lockedCall (retention : LogRetention) (inputs : ℕ → FsInput) :
    Handler LockedCalls (LogDir × ℕ)
  | .write buf, s => (LogState.write retention buf).run.exec (timed filesystem inputs) s
  | .cleanupRetention, s =>
    ((), ((LogState.cleanupRetention retention).run.exec (timed filesystem inputs) s).2)

/-- One call under the lock, in an environment of its own. -/
def lockedLog (env : CallInputs retention least) : Handler LockedCalls LogDir := fun o s =>
  let ended := lockedCall retention env.inputs o (s, 0)
  (ended.1, ended.2.1)

/-- The bytes that a call takes from its buffer. -/
def taken : Act LockedCalls → List UInt8
  | ⟨.write buf, .ok n⟩ => buf.take n
  | _ => []

/-- A file has room for the whole record, and so has a call. -/
structure OneCall (retention : LogRetention) (least : ℕ) (record : List UInt8) : Prop where
  bounded : retention.maxFileBytes.toNat < 2 ^ 64 - 1
  fits : record.length ≤ retention.maxFileBytes.toNat
  accepted : record.length ≤ least

/-- A write takes a part of its buffer, all of it if there is room. -/
def Advances (retention : LogRetention) (least : ℕ) : Act LockedCalls → Prop
  | ⟨.write buf, written⟩ => buf ≠ [] → ∃ n, written = .ok n ∧ 1 ≤ n ∧ n ≤ buf.length ∧
    (OneCall retention least buf → n = buf.length)
  | _ => True

/-! ## Calls -/

/-- The writer has a file open, and has added `bytes` since it had the directory `s₀`. -/
structure KeepsOpen (s₀ s : LogDir) (bytes : List UInt8) : Prop where
  opened : s.file < s.disk.files.length
  since : s₀.Since s bytes

section Calls

variable (valid : validateRetention retention = .ok ()) (env : CallInputs retention least)

include valid

/-- One call with the lock held keeps a file open and takes a part of its buffer. -/
theorem lockedLog_advances (o : LockedOp) {s : LogDir} (opened : s.file < s.disk.files.length) :
    (lockedLog env o s).2.file < (lockedLog env o s).2.disk.files.length ∧
      Advances retention least ⟨o, (lockedLog env o s).1⟩ := by
  cases o with
  | write buf =>
    by_cases empty : buf = []
    · subst empty
      exact ⟨opened, fun nonempty => absurd rfl nonempty⟩
    · obtain ⟨k, s', ended, -, positive, within, opened', whole⟩ :=
        env.faultless.write_ends valid opened empty 0
      unfold lockedLog lockedCall
      dsimp only
      rw [ended]
      refine ⟨opened', fun _ => ⟨k, rfl, positive, within, fun room => ?_⟩⟩
      exact whole room.bounded room.fits fun n => room.accepted.trans (env.accepts n)
  | cleanupRetention => exact ⟨(env.faultless.ends_cleanupRetention opened 0).2, trivial⟩

/-- What a call reports is what it has put into the log. -/
theorem lockedLog_since {s₀ : LogDir} (opened₀ : s₀.file < s₀.disk.files.length) (o : LockedOp)
    {s : LogDir} (opened : s.file < s.disk.files.length) {bytes : List UInt8}
    (since : s₀.Since s bytes) : s₀.Since (lockedLog env o s).2
      (bytes ++ taken ⟨o, (lockedLog env o s).1⟩) := by
  cases o with
  | write buf =>
    by_cases empty : buf = []
    · subst empty
      show s₀.Since s (bytes ++ [])
      rw [List.append_nil]
      exact since
    · obtain ⟨k, s', ended, added, -⟩ := env.faultless.write_ends valid opened empty 0
      have since' : s₀.Since
          ((LogState.write retention buf).run.exec (timed filesystem env.inputs) (s, 0)).2.1
          (bytes ++ ((LogState.write retention buf).run.acts (timed filesystem env.inputs)
            (s, 0)).flatMap appended) := since_of_watched (since_write opened₀ buf since)
      rw [added, ended] at since'
      unfold lockedLog lockedCall
      dsimp only
      rw [ended]
      exact since'
  | cleanupRetention =>
    have since' : s₀.Since
        ((LogState.cleanupRetention retention).run.exec (timed filesystem env.inputs) (s, 0)).2.1
        (bytes ++ ((LogState.cleanupRetention retention).run.acts (timed filesystem env.inputs)
          (s, 0)).flatMap appended) := since_of_watched (since_cleanupRetention opened₀ since)
    rw [appended_of_keepsBytes keepsBytes_cleanupRetention] at since'
    exact since'

end Calls

/-! ## Records -/

/-- What `write_all` returns for the result of its loop. -/
def outcome : Except IoError (Option Unit) → Option (Except IoError Unit)
  | .ok (some ()) => some (.ok ())
  | .ok none => none
  | .error error => some (.error error)

/-- A thread alone writes a record as the loop over the writer does. -/
theorem exec_writeRecord (retention : LogRetention) (inputs : ℕ → FsInput) (fuel : ℕ)
    (record : List UInt8) (s : LogDir × ℕ) :
    let ended :=
      (RotatingLogHandle.writeAll retention fuel record).run.exec (timed filesystem inputs) s
    (writeRecord fuel record).exec (lockedCall retention inputs) s =
      ((outcome ended.1, ()), ended.2) := by
  induction fuel generalizing record s with
  | zero => cases record <;> rfl
  | succ fuel ih =>
    cases record with
    | nil => rfl
    | cons b record =>
      have call : lockedCall retention inputs (.write (b :: record)) s =
        (LogState.write retention (b :: record)).run.exec (timed filesystem inputs) s := rfl
      dsimp only
      unfold RotatingLogHandle.writeAll
      rw [RotatingLogHandle.exec_lift_bind, writeRecord, exec, call]
      rcases (LogState.write retention (b :: record)).run.exec (timed filesystem inputs) s with
        ⟨error | n, s'⟩
      · dsimp only
        split_ifs
        · exact ih (b :: record) s'
        · rfl
      · cases n with
        | zero => rfl
        | succ n => exact ih _ s'

theorem writeRecord_follows {fuel : ℕ} {record : List UInt8} (le : record.length ≤ fuel)
    {acts : List (Act LockedCalls)} (advances : ∀ a ∈ acts, Advances retention least a)
    {rest : Program LockedCalls (Option (Except IoError Unit) × Unit)}
    (follows : Follows (writeRecord fuel record) acts rest) :
    ∃ fuel' left, left.length ≤ fuel' ∧ acts.flatMap taken ++ left = record ∧
      rest = writeRecord fuel' left ∧ acts.length ≤ fuel ∧
        (OneCall retention least record → acts.length ≤ 1) := by
  induction fuel generalizing record acts with
  | zero =>
    obtain rfl : record = [] := List.length_eq_zero_iff.1 (Nat.le_zero.1 le)
    obtain ⟨rfl, rfl⟩ := follows_pure_iff.1 follows
    exact ⟨0, [], Nat.le_refl _, rfl, rfl, Nat.zero_le _, fun _ => Nat.zero_le _⟩
  | succ fuel ih =>
    cases record with
    | nil =>
      obtain ⟨rfl, rfl⟩ := follows_pure_iff.1 follows
      exact ⟨fuel + 1, [], Nat.zero_le _, rfl, rfl, Nat.zero_le _, fun _ => Nat.zero_le _⟩
    | cons b record =>
      cases acts with
      | nil =>
        rw [follows_nil_iff] at follows
        exact ⟨fuel + 1, b :: record, le, rfl, follows, Nat.zero_le _, fun _ => Nat.zero_le _⟩
      | cons a acts =>
        rw [List.forall_mem_cons] at advances
        cases follows with
        | cons follows =>
        obtain ⟨n, rfl, positive, within, whole⟩ := advances.1 (List.cons_ne_nil b record)
        obtain ⟨m, rfl⟩ : ∃ m, n = m + 1 := ⟨n - 1, by omega⟩
        have follows : Follows (writeRecord fuel ((b :: record).drop (m + 1))) acts rest := follows
        have shorter : ((b :: record).drop (m + 1)).length ≤ fuel := by
          rw [List.length_drop]
          omega
        obtain ⟨fuel', left, fits, split, same, calls, -⟩ := ih shorter advances.2 follows
        refine ⟨fuel', left, fits, ?_, same, Nat.succ_le_succ calls, fun room => ?_⟩
        · rw [List.flatMap_cons, List.append_assoc, split]
          exact List.take_append_drop (m + 1) (b :: record)
        · -- The first call has taken everything, so the loop has ended.
          have done : writeRecord fuel ((b :: record).drop (m + 1)) =
              .pure (some (.ok ()), ()) := by
            rw [whole room, List.drop_length]
            cases fuel <;> rfl
          rw [done] at follows
          rw [(follows_pure_iff.1 follows).1]
          exact Nat.le_refl 1

theorem eq_nil_of_writeRecord {fuel : ℕ} {left : List UInt8} (le : left.length ≤ fuel)
    {r : Option (Except IoError Unit)} (done : writeRecord fuel left = .pure (r, ())) :
    left = [] ∧ r = some (.ok ()) := by
  cases left with
  | nil =>
    cases fuel <;> cases done <;> exact ⟨rfl, rfl⟩
  | cons b left =>
    obtain ⟨m, rfl⟩ : ∃ m, fuel = m + 1 := ⟨fuel - 1, by rw [List.length_cons] at le; omega⟩
    cases done

/-- Whatever the order in which threads hold the lock, the log goes on with the bytes of their calls
in this order.  The calls of a job, in the order of the history, have written a beginning of its
record, the whole of it when the job has ended, which it then has with success.  They are no more
than the record has bytes, and one call is enough for a record for which there is room. -/
theorem records_logged (retention : LogRetention) (valid : validateRetention retention = .ok ())
    (least : ℕ) (s₀ : LogDir) (attached : s₀.Attached)
    (moves : List (Move LogJob (CallInputs retention least))) :
    let c := run LogJob.body lockedLog (begin s₀ ()) moves
    s₀.disk.Continues c.shared.disk (c.history.flatMap fun e => taken e.act) ∧
      ∀ i job record, c.clients i = .busy job → job.job = .log record →
        Recorded c.history i job.past ∧
          ∃ left, (job.past.flatMap fun p => taken p.2) ++ left = record ∧
            (∀ r, job.rest = .pure (r, ()) → left = [] ∧ r = some (.ok ())) ∧
              job.past.length ≤ record.length ∧
                (OneCall retention least record → job.past.length ≤ 1) := by
  intro c
  have traced : Traced LogJob.body lockedLog s₀ c := traced_run s₀ () moves
  have opened := Disk.lt_of_find attached
  constructor
  · have held : ∀ t ≤ c.history.length, KeepsOpen s₀ (stateAt s₀ c.history t)
        (abstractAt (fun bytes a => bytes ++ taken a) [] c.history t) :=
      (traced.simulated (G := fun _ _ => True) ⟨opened, attached.since⟩ fun env o s bytes kept =>
        ⟨⟨(lockedLog_advances valid env o kept.opened).1,
          lockedLog_since valid env opened o kept.opened kept.since⟩, trivial⟩).1
    have ended := (held _ (Nat.le_refl _)).since
    rw [← traced.shared_eq] at ended
    unfold abstractAt at ended
    rw [List.take_length, ← List.flatMap_eq_foldl] at ended
    exact ended.continues attached
  · intro i job record busy logs
    refine ⟨traced.frame_recorded i job busy, ?_⟩
    have advances := traced.past_good (I := fun s => s.file < s.disk.files.length) opened
      (fun env o s opened => (lockedLog_advances valid env o opened).1)
      (fun env o s opened => (lockedLog_advances valid env o opened).2) busy
    have follows := traced.frame_follows i job busy
    rw [logs] at follows
    obtain ⟨fuel, left, le, split, rest, calls, once⟩ :=
      writeRecord_follows (Nat.le_refl _) advances follows
    rw [List.flatMap_map] at split
    rw [List.length_map] at calls once
    refine ⟨left, split, fun r done => ?_, calls, once⟩
    rw [rest] at done
    exact eq_nil_of_writeRecord le done

/-- Two threads log at the same time. -/
theorem records_logged_example :
    let env : CallInputs narrowRetention 2 :=
      ⟨undisturbed, faultless_undisturbed (by decide), fun _ => (by decide : 2 ≤ 2 ^ 20)⟩
    let c := run LogJob.body lockedLog (begin openDirectory ())
      [.start 0 (.log [1, 2]), .start 1 (.log [3]), .go 1 env, .go 0 env]
    (c.history.flatMap fun e => taken e.act) = [3, 1, 2] ∧
      openDirectory.disk.Continues c.shared.disk [3, 1, 2] := by
  intro env c
  have written : (c.history.flatMap fun e => taken e.act) = [3, 1, 2] := by decide +kernel
  have logged := (records_logged narrowRetention (by decide) 2 openDirectory (by decide +kernel)
    [.start 0 (.log [1, 2]), .start 1 (.log [3]), .go 1 env, .go 0 env]).1
  refine ⟨written, ?_⟩
  rw [← written]
  exact logged

end KeyroCore
