import KeyroCore.Effect.Locks
import KeyroCore.Startup

/-!
# The discipline of `main`

A typestate for the calls of `main`: the lock is taken once, the lock file is emptied and signed
before anything that it protects is used, and it is given up last.  The host answers as locks do,
and `main` keeps to the typestate on every path through its errors.
-/

open Effect Program

namespace KeyroCore

/-! ## The discipline -/

/-- What a process has made sure of so far. -/
structure Stage where
  lock : Standing String
  pid : Option ℕ
  /-- The lock file has been emptied. -/
  empty : Bool
  /-- The lock file has the number of the process. -/
  signed : Bool
  /-- The socket has been bound. -/
  bound : Bool

namespace Stage

def next (t : Stage) : Act HostCalls → Stage
  | ⟨.tryLockExclusive file, .ok ()⟩ => { t with lock := .holding file.path }
  | ⟨.processId, pid⟩ => { t with pid := some pid }
  | ⟨.setLen _ _, .ok ()⟩ => { t with empty := true }
  | ⟨.writeAll _ _, .ok ()⟩ => { t with empty := false, signed := true }
  | ⟨.writeAll _ _, .error _⟩ => { t with empty := false }
  | ⟨.unlock _, .ok ()⟩ => { t with lock := .spent }
  | ⟨.close file, _⟩ =>
    match t.lock with
    | .holding path => if path = file.path then { t with lock := .spent } else t
    | _ => t
  | ⟨.bind _, .ok ()⟩ => { t with bound := true }
  | _ => t

end Stage

/-- The bytes with which a process signs its lock file. -/
def signature (pid : ℕ) : List UInt8 := (toString pid).toUTF8.toList

namespace UnixTarget

variable (target : UnixTarget) (root : String)

def lockPath : String := root ++ target.dataDir ++ "/" ++ "keyro-core.lock"

def dbPath : String := root ++ target.dataDir ++ "/" ++ "keyro-core.sqlite3"

def socketPath : String := root ++ target.dataDir ++ "/" ++ "keyro-core-dev.sock"

end UnixTarget

/-- The operation works on something that belongs to the home directory `root`: its logs, its
database or its socket. -/
def HostOp.WorksOn (target : UnixTarget) (root : String) : HostOp → Prop
  | .newLogWriter logDir => logDir = root ++ target.logDir
  | .record subscriber _ _ _ => subscriber.logDir = root ++ target.logDir
  | .openDatabase path | .closeDatabase path | .initializeCore path | .serve _ path =>
    path = target.dbPath root
  | .pathExists path | .removeFile path | .bind path | .accept path => path = target.socketPath root
  | _ => False

/-- What the operation works on belongs to the home directory of the lock. -/
def HostOp.Uses (target : UnixTarget) (o : HostOp) (lock : String) : Prop :=
  ∃ root, o.WorksOn target root ∧ lock = target.lockPath root

/-- The operations that a process may perform. -/
def Stage.Allows (target : UnixTarget) (t : Stage) : HostOp → Prop
  | .createDirAll _ | .openLockFile _ | .processId => True
  | .tryLockExclusive _ =>
    t.lock = .fresh ∧ t.empty = false ∧ t.signed = false ∧ t.bound = false
  | .setLen file len => t.lock = .holding file.path ∧ t.signed = false ∧ len = 0
  | .writeAll file bytes => t.lock = .holding file.path ∧ t.empty = true ∧ t.signed = false ∧
      ∃ n, t.pid = some n ∧ bytes = signature n
  | .unlock file => t.lock = .holding file.path
  | .close file => ∀ path, t.lock = .holding path → path = file.path
  | .removeFile path => t.signed = true ∧ t.bound = false ∧
      ∃ lock, t.lock = .holding lock ∧ (HostOp.removeFile path).Uses target lock
  | .bind path => t.signed = true ∧ t.bound = false ∧
      ∃ lock, t.lock = .holding lock ∧ (HostOp.bind path).Uses target lock
  | o => t.signed = true ∧ ∃ lock, t.lock = .holding lock ∧ o.Uses target lock

def typestate (target : UnixTarget) : Typestate HostCalls Stage where
  first := ⟨.fresh, none, false, false, false⟩
  next := Stage.next
  allows := Stage.Allows target

/-! ## Paths and locks -/

section Paths

variable {target : UnixTarget} {root root' : String}

theorem separated_dataDir : separated (root ++ target.dataDir) = root ++ target.dataDir ++ "/" := by
  have ends : (root ++ target.dataDir).toList.getLast? = some 'e' := by
    have name : target.dataDir.toList.getLast? = some 'e' := by cases target <;> decide
    rw [String.toList_append, List.getLast?_append, name, Option.some_or]
  unfold separated
  rw [if_neg]
  rintro (empty | slash)
  · rw [empty] at ends
    cases ends
  · rw [ends] at slash
    exact absurd slash (by decide)

theorem joinPath_dataDir (name : String) :
    joinPath (root ++ target.dataDir) name = root ++ target.dataDir ++ "/" ++ name := by
  rw [joinPath, separated_dataDir]

theorem lockPath_inj (h : target.lockPath root = target.lockPath root') : root = root' := by
  simpa [UnixTarget.lockPath] using h

theorem HostOp.WorksOn.unique {o : HostOp} (h : o.WorksOn target root)
    (h' : o.WorksOn target root') : root = root' := by
  cases o with
  | newLogWriter logDir => simpa using h.symm.trans h'
  | record subscriber level fields message => simpa using h.symm.trans h'
  | openDatabase path => simpa [UnixTarget.dbPath] using h.symm.trans h'
  | closeDatabase path => simpa [UnixTarget.dbPath] using h.symm.trans h'
  | initializeCore path => simpa [UnixTarget.dbPath] using h.symm.trans h'
  | serve stream path => simpa [UnixTarget.dbPath] using h.symm.trans h'
  | pathExists path => simpa [UnixTarget.socketPath] using h.symm.trans h'
  | removeFile path => simpa [UnixTarget.socketPath] using h.symm.trans h'
  | bind path => simpa [UnixTarget.socketPath] using h.symm.trans h'
  | accept path => simpa [UnixTarget.socketPath] using h.symm.trans h'
  | _ => exact absurd h not_false

theorem HostOp.Uses.unique {o : HostOp} {lock lock' : String} (h : o.Uses target lock)
    (h' : o.Uses target lock') : lock = lock' := by
  obtain ⟨root, works, rfl⟩ := h
  obtain ⟨root', works', rfl⟩ := h'
  rw [works.unique works']

end Paths

section Discipline

variable (pid : ℕ → ℕ) {target : UnixTarget} {t : Stage} {o : HostOp}

theorem Stage.Allows.holding {lock : String} (allowed : t.Allows target o)
    (uses : o.Uses target lock) : t.lock = .holding lock := by
  have of_some {lock' : String} (held : t.lock = .holding lock') (uses' : o.Uses target lock') :
      t.lock = .holding lock := by
    rw [held, uses'.unique uses]
  cases o with
  | removeFile path =>
    obtain ⟨-, -, lock', held, uses'⟩ := allowed
    exact of_some held uses'
  | bind path =>
    obtain ⟨-, -, lock', held, uses'⟩ := allowed
    exact of_some held uses'
  | createDirAll _ | openLockFile _ | tryLockExclusive _ | setLen _ _ | processId | writeAll _ _
  | unlock _ | close _ => exact uses.elim fun _ h => absurd h.1 not_false
  | _ =>
    obtain ⟨-, lock', held, uses'⟩ := allowed
    exact of_some held uses'

theorem answer_passes (weather : Weather) (i : ℕ) (s : Host) (allowed : t.Allows target o)
    (own : Own Stage.lock Host.lockedBy i t s) :
    Passes i t.lock s.lockedBy (t.next ⟨o, (answer pid weather i o s).1⟩).lock
      (answer pid weather i o s).2.lockedBy := by
  cases o with
  | tryLockExclusive file =>
    have fresh : t.lock = .fresh := allowed.1
    rw [fresh]
    by_cases free : s.lockedBy file.path = none
    · cases failure : weather.failure with
      | some error =>
        simp only [answer, free, failure, ne_eq, not_true, if_false, Stage.next, fresh]
        exact .keep _ _
      | none =>
        simp only [answer, free, failure, ne_eq, not_true, if_false, Stage.next]
        exact .take _ _ free
    · simp only [answer, ne_eq, free, not_false_eq_true, if_true, Stage.next, fresh]
      exact .keep _ _
  | unlock file =>
    have held : t.lock = .holding file.path := allowed
    rw [held]
    cases failure : weather.failure with
    | some error =>
      simp only [answer, failure, Stage.next, held]
      exact .keep _ _
    | none =>
      simp only [answer, failure, (own _).2 held, if_true, Stage.next]
      exact .give _ _
  | close file =>
    cases standing : t.lock with
    | holding path =>
      obtain rfl := allowed path standing
      simp only [answer, (own _).2 standing, if_true, Stage.next, standing]
      exact .give _ _
    | fresh =>
      have other : s.lockedBy file.path ≠ some i := fun h => by
        rw [(own _).1 h] at standing
        cases standing
      simp only [answer, other, if_false, Stage.next, standing]
      exact .keep _ _
    | spent =>
      have other : s.lockedBy file.path ≠ some i := fun h => by
        rw [(own _).1 h] at standing
        cases standing
      simp only [answer, other, if_false, Stage.next, standing]
      exact .keep _ _
  | removeFile path =>
    cases failure : weather.failure <;> cases there : s.sockets path <;>
      simp only [answer, failure, there] <;> exact .keep _ _
  | bind path =>
    cases failure : weather.failure <;> cases there : s.sockets path <;>
      simp only [answer, failure, there] <;> exact .keep _ _
  | _ =>
    obtain ⟨_ | error, written, opened, initialized, stream⟩ := weather <;> exact .keep _ _

theorem locking (target : UnixTarget) :
    Locking (typestate target) (answer pid) Host.exit Stage.lock Host.lockedBy
      (HostOp.Uses target) where
  first := rfl
  passes := fun weather i _ s _ allowed own => answer_passes pid weather i s allowed own
  exits := fun _ _ _ => rfl
  uses := fun _ _ _ allowed uses => allowed.holding uses

end Discipline

/-! ## The programs keep to the discipline -/

section Programs

variable {target : UnixTarget} {root : String} {t : Stage}

theorem obeys_withContext_iff {α ε : Type} {cause : ε → Cause} {text : String}
    {p : Program HostCalls (Except ε α)} {Q : Except AnyhowError α → Stage → Prop} :
    (withContext cause text p).Obeys (typestate target) t Q ↔ p.Obeys (typestate target) t
      fun r t' => Q (r.mapError fun error => ⟨text, some (cause error)⟩) t' := by
  unfold withContext Fallible.Obeys
  rw [ExceptT.run_mk, obeys_bind_iff]
  rfl

theorem obeys_onHost_iff {o : HostOp} {Q : o.Ans → Stage → Prop} :
    (onHost o).Obeys (typestate target) t Q ↔
      t.Allows target o ∧ ∀ x, Q x (t.next ⟨o, x⟩) := Iff.rfl

/-- Operations on what the lock protects that leave the discipline where it is. -/
def HostOp.Steady : HostOp → Prop
  | .newLogWriter _ | .record _ _ _ _ | .openDatabase _ | .closeDatabase _ | .initializeCore _
  | .pathExists _ | .accept _ | .serve _ _ => True
  | _ => False

/-- The process holds the lock of the home directory. -/
abbrev Stage.At (target : UnixTarget) (root : String) (t : Stage) : Prop :=
  t.lock = .holding (target.lockPath root)

/-- The process has signed the lock file of the home directory. -/
abbrev Stage.Ready (target : UnixTarget) (root : String) (t : Stage) : Prop :=
  t.At target root ∧ t.signed = true

theorem obeys_steady {o : HostOp} (steady : o.Steady) (works : o.WorksOn target root)
    (held : t.Ready target root) {Q : o.Ans → Stage → Prop}
    (ends : ∀ x, Q x t) : (onHost o).Obeys (typestate target) t Q := by
  have uses : o.Uses target (target.lockPath root) := ⟨root, works, rfl⟩
  cases o <;> first
    | exact absurd steady not_false
    | exact ⟨⟨held.2, _, held.1, uses⟩, ends⟩

section Serving

variable (held : t.Ready target root) {subscriber : Subscriber}
  (logs : subscriber.logDir = root ++ target.logDir)

include held logs

theorem handleIncoming_obeys (stream : Except IoError ℕ) :
    (handleIncoming subscriber (target.dbPath root) stream).Obeys (typestate target) t
      fun _ t' => t' = t := by
  cases stream with
  | error error => exact obeys_steady (o := .record _ _ _ _) trivial logs held fun _ => rfl
  | ok stream =>
    unfold handleIncoming
    rw [obeys_bind_iff]
    refine obeys_steady (o := .serve _ _) trivial rfl held fun served => ?_
    cases served with
    | ok _ => exact rfl
    | error error => exact obeys_steady (o := .record _ _ _ _) trivial logs held fun _ => rfl

theorem acceptLoop_obeys (turns : ℕ) :
    (acceptLoop subscriber (target.dbPath root) (target.socketPath root) turns).Obeys
      (typestate target) t fun _ t' => t' = t := by
  induction turns with
  | zero => exact rfl
  | succ turns ih =>
    unfold acceptLoop
    rw [obeys_bind_iff]
    refine obeys_steady (o := .accept _) trivial rfl held fun stream => ?_
    rw [obeys_bind_iff]
    refine (handleIncoming_obeys held logs stream).mono fun _ t' ht => ?_
    rw [ht]
    exact ih

theorem runDevIpc_obeys (unbound : t.bound = false) (turns : ℕ) :
    (runDevIpc subscriber (target.dbPath root) (target.socketPath root) turns).Obeys
      (typestate target) t fun _ t' => t'.Ready target root := by
  have uses {o : HostOp} (works : o.WorksOn target root) : o.Uses target (target.lockPath root) :=
    ⟨root, works, rfl⟩
  have listening : (do
      withContext .io ("failed to bind development IPC socket at " ++ target.socketPath root)
        (onHost (.bind (target.socketPath root)))
      Fallible.lift (onHost (.record subscriber .info [.path (target.socketPath root)]
        "development IPC listener started"))
      Fallible.lift (acceptLoop subscriber (target.dbPath root) (target.socketPath root) turns) :
      Main Unit).Obeys (typestate target) t fun _ t' => t'.Ready target root := by
    apply Fallible.Obeys.bind (Q := fun _ t' => t'.Ready target root)
    · rw [obeys_withContext_iff]
      refine ⟨⟨held.2, unbound, _, held.1, uses rfl⟩, fun bound => ?_⟩
      cases bound <;> exact held
    · exact fun _ _ h => h
    · intro _ t' held
      rw [Fallible.obeys_lift_bind_iff]
      refine obeys_steady (o := .record _ _ _ _) trivial logs held fun _ => ?_
      unfold Fallible.Obeys Fallible.lift
      rw [ExceptT.run_mk, obeys_bind_iff]
      refine (acceptLoop_obeys held logs turns).mono fun _ t'' ht => ?_
      rw [ht]
      exact held
  unfold runDevIpc
  rw [Fallible.obeys_lift_bind_iff]
  refine obeys_steady (o := .pathExists _) trivial rfl held fun there => ?_
  cases there with
  | false => exact listening
  | true =>
    apply Fallible.Obeys.bind (Q := fun _ t' => t' = t)
    · rw [obeys_withContext_iff]
      exact ⟨⟨held.2, unbound, _, held.1, uses rfl⟩, fun _ => rfl⟩
    · intro _ t' ht
      rw [ht]
      exact held
    · intro _ t' ht
      rw [ht]
      exact listening

theorem initializeAndListen_obeys (unbound : t.bound = false) (turns : ℕ) :
    (initializeAndListen subscriber (target.dbPath root) (target.socketPath root) turns).Obeys
      (typestate target) t fun _ t' => t'.Ready target root := by
  unfold initializeAndListen
  apply Fallible.Obeys.bind (Q := fun _ t' => t' = t)
  · rw [obeys_withContext_iff]
    exact obeys_steady (o := .initializeCore _) trivial rfl held fun _ => rfl
  · intro _ t' ht
    rw [ht]
    exact held
  · intro profile t' ht
    rw [ht, Fallible.obeys_lift_bind_iff]
    refine obeys_steady (o := .record _ _ _ _) trivial logs held fun _ => ?_
    rw [Fallible.obeys_lift_bind_iff]
    refine obeys_steady (o := .record _ _ _ _) trivial logs held fun _ => ?_
    exact runDevIpc_obeys held logs unbound turns

end Serving

theorem runGuarded_obeys (held : t.Ready target root) (unbound : t.bound = false)
    {home : String} (rooted : root = separated home) (turns : ℕ) :
    (runGuarded target (some home) turns (root ++ target.dataDir)).Obeys (typestate target) t
      fun _ t' => t'.Ready target root := by
  unfold runGuarded
  apply Fallible.Obeys.bind
    (Q := fun r t' => t' = t ∧ ∀ subscriber, r = .ok subscriber →
      subscriber.logDir = root ++ target.logDir)
  · show Fallible.Obeys _ (do
      withContext .io "failed to create rotating log writer"
        (onHost (.newLogWriter (joinPath home target.logDir)))
      return ⟨joinPath home target.logDir⟩ : Main Subscriber) _ _
    apply Fallible.Obeys.bind (Q := fun _ t' => t' = t)
    · rw [obeys_withContext_iff]
      exact obeys_steady (o := .newLogWriter _) trivial (by rw [rooted]; rfl) held fun _ => rfl
    · intro error t' ht
      exact ⟨ht, fun _ h => by cases h⟩
    · intro _ t' ht
      refine ⟨ht, fun subscriber h => ?_⟩
      cases h
      rw [rooted]
      rfl
  · intro _ t' ht
    rw [ht.1]
    exact held
  · intro subscriber t' ht
    obtain ⟨rfl, logs⟩ := ht
    dsimp only
    rw [joinPath_dataDir, joinPath_dataDir]
    apply Fallible.Obeys.bind (Q := fun _ t'' => t'' = t')
    · rw [obeys_withContext_iff]
      exact obeys_steady (o := .openDatabase _) trivial rfl held fun _ => rfl
    · intro _ t'' ht
      rw [ht]
      exact held
    · intro _ t'' ht
      rw [ht, Fallible.obeys_lift_bind_iff]
      refine (initializeAndListen_obeys held (logs _ rfl) unbound turns).mono fun r t'' held => ?_
      rw [Fallible.obeys_lift_bind_iff]
      refine obeys_steady (o := .closeDatabase _) trivial rfl held fun _ => ?_
      cases r with
      | ok _ => exact held
      | error error => exact held

theorem lockAndSign_obeys {path : String} (fresh : t.lock = .fresh) (full : t.empty = false)
    (unsigned : t.signed = false) (unbound : t.bound = false) :
    (lockAndSign path ⟨path⟩).Obeys (typestate target) t fun r t' => t'.bound = false ∧
      (t'.lock = .holding path ∨ t'.lock = .fresh) ∧
      (r = .ok () → t'.lock = .holding path ∧ t'.signed = true) := by
  unfold lockAndSign
  rw [Fallible.obeys_lift_bind_iff]
  refine ⟨⟨fresh, full, unsigned, unbound⟩, fun locked => ?_⟩
  cases locked with
  | error error => cases error <;> exact ⟨unbound, .inr fresh, fun h => by cases h⟩
  | ok _ =>
    dsimp only
    apply Fallible.Obeys.bind (Q := fun r t' => t'.lock = .holding path ∧ t'.bound = false ∧
      t'.signed = false ∧ (r = .ok () → t'.empty = true))
    · rw [obeys_withContext_iff]
      refine ⟨⟨rfl, unsigned, rfl⟩, fun emptied => ?_⟩
      cases emptied with
      | ok _ => exact ⟨rfl, unbound, unsigned, fun _ => rfl⟩
      | error error => exact ⟨rfl, unbound, unsigned, fun h => by cases h⟩
    · exact fun _ t' ht => ⟨ht.2.1, .inl ht.1, fun h => by cases h⟩
    · intro _ t' ht
      obtain ⟨held, unbound, unsigned, empty⟩ := ht
      rw [Fallible.obeys_lift_bind_iff]
      refine obeys_onHost_iff.2 ⟨trivial, fun pid => ?_⟩
      rw [obeys_withContext_iff]
      refine ⟨⟨held, empty rfl, unsigned, pid, rfl, rfl⟩, fun signed => ?_⟩
      cases signed with
      | ok _ => exact ⟨unbound, .inl held, fun _ => ⟨held, rfl⟩⟩
      | error error => exact ⟨unbound, .inl held, fun h => by cases h⟩

theorem drop_obeys {path : String} {Q : Unit → Stage → Prop} (held : t.lock = .holding path)
    (ends : ∀ t', Q () t') :
    (SingleInstanceGuard.drop ⟨⟨path⟩⟩).Obeys (typestate target) t Q := by
  unfold SingleInstanceGuard.drop
  rw [obeys_bind_iff]
  refine ⟨held, fun unlocked => ⟨fun path' h => ?_, fun _ => ends _⟩⟩
  cases unlocked with
  | ok _ => cases h
  | error error =>
    have h : t.lock = .holding path' := h
    rw [held] at h
    cases h
    rfl

theorem acquire_obeys (fresh : t.lock = .fresh) (full : t.empty = false)
    (unsigned : t.signed = false) (unbound : t.bound = false) :
    (SingleInstanceGuard.acquire (root ++ target.dataDir)).Obeys (typestate target) t
      fun r t' => ∀ guard, r = .ok guard →
        t'.Ready target root ∧ t'.bound = false ∧ guard = ⟨⟨target.lockPath root⟩⟩ := by
  unfold SingleInstanceGuard.acquire
  rw [joinPath_dataDir]
  apply Fallible.Obeys.bind (Q := fun _ t' => t' = t)
  · rw [obeys_withContext_iff]
    exact ⟨trivial, fun _ => rfl⟩
  · exact fun _ _ _ _ h => by cases h
  intro _ t' ht
  subst ht
  dsimp only
  apply Fallible.Obeys.bind (Q := fun _ t'' => t'' = t')
  · rw [obeys_withContext_iff]
    exact ⟨trivial, fun _ => rfl⟩
  · exact fun _ _ _ _ h => by cases h
  intro _ t'' ht
  subst ht
  rw [Fallible.obeys_lift_bind_iff]
  refine (lockAndSign_obeys fresh full unsigned unbound).mono fun r t' ht => ?_
  cases r with
  | ok _ =>
    rintro guard ⟨⟩
    exact ⟨ht.2.2 rfl, ht.1, rfl⟩
  | error error =>
    dsimp only
    rw [Fallible.obeys_lift_bind_iff]
    refine ⟨fun path h => ?_, fun _ guard h => by cases h⟩
    rcases ht.2.1 with held | fresh
    · rw [held] at h
      cases h
      rfl
    · rw [fresh] at h
      cases h

theorem main_obeys (target : UnixTarget) (job : Option String × ℕ) :
    (main target job).Obeys (typestate target) (typestate target).first fun _ _ => True := by
  obtain ⟨home, turns⟩ := job
  cases home with
  | none => exact trivial
  | some home =>
    unfold main
    simp only [defaultDataDir, Option.map_some, joinPath]
    apply Fallible.Obeys.bind (Q := fun _ t' => t' = (typestate target).first)
    · rw [obeys_withContext_iff]
      exact ⟨trivial, fun _ => rfl⟩
    · exact fun _ _ _ => trivial
    intro _ t ht
    subst ht
    apply Fallible.Obeys.bind (acquire_obeys rfl rfl rfl rfl)
    · exact fun _ _ _ => trivial
    intro guard t ht
    obtain ⟨held, unbound, rfl⟩ := ht guard rfl
    rw [Fallible.obeys_lift_bind_iff]
    refine (runGuarded_obeys held unbound rfl turns).mono fun r t' held => ?_
    rw [Fallible.obeys_lift_bind_iff]
    refine drop_obeys held.1 fun _ => ?_
    cases r <;> exact trivial

end Programs

end KeyroCore
