import KeyroCore.Discipline
import KeyroCore.Reference

/-!
# One instance at a time

The processes of one host run `main` side by side, each under its own home directory, and may be
killed at any moment.  Then the lock of a data directory is held by the live process that took it,
what belongs to the directory is used by the holder alone, and the operations of different processes
on it do not interleave.
-/

open Effect Program

namespace KeyroCore

/-! ## What a process knows of its files -/

section Knowledge

variable (pid : ℕ → ℕ)

/-- What the typestate of process `i` says about the files of the host. -/
structure Knowledge (target : UnixTarget) (i : ℕ) (t : Stage) (s : Host) : Prop where
  pid_eq : ∀ n, t.pid = some n → n = pid i
  empty : t.empty = true → ∀ path, t.lock = .holding path → s.lockFiles path = some []
  signed : t.signed = true → ∀ path, t.lock = .holding path →
    s.lockFiles path = some (signature (pid i))
  bound : t.bound = true → ∀ root, t.At target root → s.sockets (target.socketPath root) = some i

variable {pid} {target : UnixTarget} {t : Stage} {s s' : Host} {i : ℕ} {o : HostOp}

/-- The files of a lock and its socket are the same in two states of the host. -/
structure Host.Same (target : UnixTarget) (t : Stage) (s s' : Host) : Prop where
  lockFiles : ∀ path c, t.lock = .holding path → s.lockFiles path = some c →
    s'.lockFiles path = some c
  sockets : ∀ root, t.At target root →
    s'.sockets (target.socketPath root) = s.sockets (target.socketPath root)

theorem Knowledge.same (known : Knowledge pid target i t s) (same : s.Same target t s') :
    Knowledge pid target i t s' where
  pid_eq := known.pid_eq
  empty := fun h path held => same.lockFiles path _ held (known.empty h path held)
  signed := fun h path held => same.lockFiles path _ held (known.signed h path held)
  bound := fun h root held => (same.sockets root held).trans (known.bound h root held)

/-- A typestate that claims less. -/
theorem Knowledge.weaker {t' : Stage} (known : Knowledge pid target i t s) (pid_eq : t'.pid = t.pid)
    (lock : ∀ path, t'.lock = .holding path → t.lock = .holding path)
    (empty : t'.empty = true → t.empty = true) (signed : t'.signed = true → t.signed = true)
    (bound : t'.bound = true → t.bound = true) : Knowledge pid target i t' s where
  pid_eq := fun n h => known.pid_eq n (pid_eq ▸ h)
  empty := fun h path held => known.empty (empty h) path (lock path held)
  signed := fun h path held => known.signed (signed h) path (lock path held)
  bound := fun h root held => known.bound (bound h) root (lock _ held)

/-- The operation writes the file. -/
def HostOp.Writes : HostOp → String → Prop
  | .setLen file _, path | .writeAll file _, path => path = file.path
  | _, _ => False

/-- Only writes change what stands in a lock file; opening it creates it at most. -/
theorem lockFiles_answer (weather : Weather) {path : String} {c : List UInt8}
    (unwritten : ¬ o.Writes path) (h : s.lockFiles path = some c) :
    (answer pid weather i o s).2.lockFiles path = some c := by
  have ite_holder {p : Prop} {_ : Decidable p} (path' : String) (holder : Option ℕ) :
      (if p then s.setHolder path' holder else s).lockFiles path = some c := by
    split_ifs <;> exact h
  cases o with
  | openLockFile path' =>
    cases failure : weather.failure with
    | some error =>
      simp only [answer, failure]
      exact h
    | none =>
      simp only [answer, failure, Host.setLockFile]
      by_cases same : path = path'
      · subst same
        rw [Function.update_self, h, Option.getD_some]
      · rw [Function.update_of_ne same]
        exact h
  | setLen file len =>
    have other : path ≠ file.path := unwritten
    cases failure : weather.failure with
    | some error =>
      simp only [answer, failure]
      exact h
    | none =>
      simp only [answer, failure, Host.setLockFile]
      rw [Function.update_of_ne other]
      exact h
  | writeAll file bytes =>
    have other : path ≠ file.path := unwritten
    cases failure : weather.failure <;>
      simp only [answer, failure, Host.setLockFile, Function.update_of_ne other, h]
  | tryLockExclusive file =>
    simp only [answer]
    split_ifs
    · exact h
    · cases weather.failure <;> exact h
  | unlock file =>
    cases failure : weather.failure with
    | some error =>
      simp only [answer, failure]
      exact h
    | none =>
      simp only [answer, failure]
      exact ite_holder _ _
  | close file => exact ite_holder _ _
  | removeFile path' =>
    cases failure : weather.failure <;> cases there : s.sockets path' <;>
      simp only [answer, failure, there, Host.setSocket, h]
  | bind path' =>
    cases failure : weather.failure <;> cases there : s.sockets path' <;>
      simp only [answer, failure, there, Host.setSocket, h]
  | _ => exact h

/-- The operation removes or binds the socket. -/
def HostOp.Replaces : HostOp → String → Prop
  | .removeFile path', path | .bind path', path => path = path'
  | _, _ => False

theorem sockets_answer (weather : Weather) {path : String} (other : ¬ o.Replaces path) :
    (answer pid weather i o s).2.sockets path = s.sockets path := by
  have ite_holder {p : Prop} {_ : Decidable p} (path' : String) (holder : Option ℕ) :
      (if p then s.setHolder path' holder else s).sockets path = s.sockets path := by
    split_ifs <;> rfl
  cases o with
  | removeFile path' =>
    have ne : path ≠ path' := other
    cases failure : weather.failure <;> cases there : s.sockets path' <;>
      simp only [answer, failure, there, Host.setSocket, Function.update_of_ne ne]
  | bind path' =>
    have ne : path ≠ path' := other
    cases failure : weather.failure <;> cases there : s.sockets path' <;>
      simp only [answer, failure, there, Host.setSocket, Function.update_of_ne ne]
  | tryLockExclusive file =>
    simp only [answer]
    split_ifs
    · rfl
    · cases weather.failure <;> rfl
  | unlock file =>
    cases failure : weather.failure with
    | some error => simp only [answer, failure]
    | none =>
      simp only [answer, failure]
      exact ite_holder _ _
  | close file => exact ite_holder _ _
  | openLockFile path' =>
    cases failure : weather.failure with
    | some error => simp only [answer, failure]
    | none =>
      simp only [answer, failure]
      rfl
  | setLen file len =>
    cases failure : weather.failure with
    | some error => simp only [answer, failure]
    | none =>
      simp only [answer, failure]
      rfl
  | writeAll file bytes =>
    cases failure : weather.failure <;> (simp only [answer, failure]; rfl)
  | _ => rfl

/-- What a process may write or bind belongs to its lock. -/
theorem Stage.Allows.writes {path : String} (allowed : t.Allows target o) (writes : o.Writes path) :
    t.lock = .holding path := by
  cases o with
  | setLen file len => exact writes ▸ allowed.1
  | writeAll file bytes => exact writes ▸ allowed.1
  | _ => exact absurd writes not_false

theorem Stage.Allows.replaces {root : String} (allowed : t.Allows target o)
    (replaces : o.Replaces (target.socketPath root)) : t.At target root := by
  cases o with
  | removeFile path => exact allowed.holding ⟨root, replaces.symm, rfl⟩
  | bind path => exact allowed.holding ⟨root, replaces.symm, rfl⟩
  | _ => exact absurd replaces not_false

/-- What process `i` may do leaves the files of another lock alone. -/
theorem answer_same (weather : Weather) {u : Stage} (allowed : u.Allows target o)
    (apart : ∀ path, t.lock = .holding path → u.lock ≠ .holding path) :
    s.Same target t (answer pid weather i o s).2 where
  lockFiles := fun path _ held h =>
    lockFiles_answer weather (fun writes => apart path held (allowed.writes writes)) h
  sockets := fun _ held =>
    sockets_answer weather fun replaces => apart _ held (allowed.replaces replaces)

/-- Operations that leave lock files and sockets as they are. -/
theorem answer_same_of_unchanged (weather : Weather) (unwritten : ∀ path, ¬ o.Writes path)
    (unmoved : ∀ path, ¬ o.Replaces path) : s.Same target t (answer pid weather i o s).2 where
  lockFiles := fun path _ _ h => lockFiles_answer weather (unwritten path) h
  sockets := fun _ _ => sockets_answer weather (unmoved _)

/-- What a process may do keeps what it knows. -/
theorem Knowledge.own (weather : Weather) (allowed : t.Allows target o)
    (known : Knowledge pid target i t s) :
    Knowledge pid target i (t.next ⟨o, (answer pid weather i o s).1⟩)
      (answer pid weather i o s).2 := by
  have unchanged (unwritten : ∀ path, ¬ o.Writes path) (unmoved : ∀ path, ¬ o.Replaces path) :
      Knowledge pid target i t (answer pid weather i o s).2 :=
    known.same (answer_same_of_unchanged weather unwritten unmoved)
  cases o with
  | tryLockExclusive file =>
    have known' := unchanged (fun _ => id) fun _ => id
    obtain ⟨-, empty, signed, bound⟩ := allowed
    cases (answer pid weather i (.tryLockExclusive file) s).1 with
    | error error => exact known'
    | ok _ => exact ⟨known.pid_eq, by simp [Stage.next, empty], by simp [Stage.next, signed],
        by simp [Stage.next, bound]⟩
  | setLen file len =>
    obtain ⟨held, unsigned, rfl⟩ := allowed
    cases failure : weather.failure with
    | some error =>
      simp only [answer, failure, Stage.next]
      exact known
    | none =>
      simp only [answer, failure, Stage.next]
      refine ⟨known.pid_eq, fun _ path held' => ?_, by simp [unsigned], known.bound⟩
      rw [held] at held'
      cases held'
      simp [Host.setLockFile]
  | processId =>
    refine ⟨fun n h => ?_, known.empty, known.signed, known.bound⟩
    exact (Option.some.inj h).symm
  | writeAll file bytes =>
    obtain ⟨held, empty, unsigned, n, pid_eq, rfl⟩ := allowed
    cases failure : weather.failure with
    | some error =>
      simp only [answer, failure, Stage.next]
      exact ⟨known.pid_eq, by simp, by simp [unsigned], known.bound⟩
    | none =>
      simp only [answer, failure, Stage.next]
      refine ⟨known.pid_eq, by simp, fun _ path held' => ?_, known.bound⟩
      rw [held] at held'
      cases held'
      rw [known.empty empty _ held, known.pid_eq n pid_eq]
      simp [Host.setLockFile, overwrite]
  | unlock file =>
    have known' := unchanged (fun _ => id) fun _ => id
    cases (answer pid weather i (.unlock file) s).1 with
    | error error => exact known'
    | ok _ => exact known'.weaker rfl (fun _ h => by cases h) id id id
  | close file =>
    have known' := unchanged (fun _ => id) fun _ => id
    cases standing : t.lock with
    | holding path =>
      obtain rfl := allowed path standing
      simp only [Stage.next, standing, if_true]
      exact known'.weaker rfl (fun _ h => by cases h) id id id
    | fresh =>
      simp only [Stage.next, standing]
      exact known'
    | spent =>
      simp only [Stage.next, standing]
      exact known'
  | removeFile path =>
    obtain ⟨-, unbound, -⟩ := allowed
    have files (path' : String) (c : List UInt8) (h : s.lockFiles path' = some c) :
        (answer pid weather i (.removeFile path) s).2.lockFiles path' = some c :=
      lockFiles_answer weather id h
    exact ⟨known.pid_eq, fun h path' held => files path' _ (known.empty h path' held),
      fun h path' held => files path' _ (known.signed h path' held), by simp [Stage.next, unbound]⟩
  | bind path =>
    obtain ⟨-, unbound, lock, held, root, rfl, rfl⟩ := allowed
    cases failure : weather.failure with
    | some error =>
      simp only [answer, failure, Stage.next]
      exact known
    | none =>
      cases there : s.sockets (target.socketPath root) with
      | some owner =>
        simp only [answer, failure, there, Stage.next]
        exact known
      | none =>
        simp only [answer, failure, there, Stage.next]
        refine ⟨known.pid_eq, known.empty, known.signed, fun _ root' held' => ?_⟩
        rw [Stage.At, held] at held'
        obtain rfl := lockPath_inj (Standing.holding.inj held')
        exact Function.update_self ..
  | openLockFile path => exact unchanged (fun _ => id) fun _ => id
  | _ =>
    obtain ⟨_ | error, written, opened, initialized, stream⟩ := weather <;> exact known

theorem stable (pid : ℕ → ℕ) (target : UnixTarget) :
    Locking.Stable (typestate target) (answer pid) Host.exit Stage.lock Host.lockedBy
      (Knowledge pid target) where
  first := fun i s => ⟨by simp [typestate], by simp [typestate], by simp [typestate],
    by simp [typestate]⟩
  own := fun weather i o s t allowed _ known => known.own weather allowed
  others := fun weather i o s t j u hj allowed own own' known => by
    refine known.same (answer_same weather allowed fun path held held' => hj ?_)
    exact Option.some.inj (((own path).2 held').symm.trans ((own' path).2 held))
  exits := fun i s j u _ _ known => known.same ⟨fun _ _ _ h => h, fun _ _ => rfl⟩

end Knowledge

/-! ## Any number of processes -/

abbrev HostWorld := World HostCalls (Except AnyhowError Unit) Host

abbrev HostDeed := Deed HostCalls (Except AnyhowError Unit) Host

/-- A process is started with the value of `HOME` and a number of turns of its listener. -/
abbrev HostEvent := Event (Option String × ℕ) Weather

section Runs

variable (target : UnixTarget) (pid : ℕ → ℕ)

def hostRun (host : Host) (events : List HostEvent) : HostWorld :=
  (World.begin host).run (fun job => (main target job).run) (answer pid) Host.exit events

def hostDeeds (host : Host) (events : List HostEvent) : List HostDeed :=
  (World.begin host).deeds (fun job => (main target job).run) (answer pid) Host.exit events

/-- The process has locked the file, and has not unlocked or closed it since. -/
def InHand (w : HostWorld) (i : ℕ) (path : String) : Prop :=
  Locking.Holds (typestate target) Stage.lock w i path

/-- The process has signed its lock file. -/
def Signed (past : List (Act HostCalls)) : Prop :=
  ∃ file bytes, (⟨.writeAll file bytes, .ok ()⟩ : Act HostCalls) ∈ past

/-- The process has bound its socket. -/
def Bound (past : List (Act HostCalls)) : Prop :=
  ∃ path, (⟨.bind path, .ok ()⟩ : Act HostCalls) ∈ past

/-- What holds of every run. -/
structure OneInstance (w : HostWorld) (deeds : List HostDeed) : Prop where
  /-- A lock is held exactly by the live process that took it, and by one at most. -/
  lock : ∀ i path, w.shared.lockedBy path = some i ↔ InHand target w i path
  unique : ∀ i j path, InHand target w i path → InHand target w j path → i = j
  /-- The lock file names its holder. -/
  signed : ∀ i r path, w.processes i = .live r → InHand target w i path → Signed r.past →
    w.shared.lockFiles path = some (signature (pid i))
  /-- Nobody removes or replaces the socket of a process that holds the lock. -/
  socket : ∀ i r root, w.processes i = .live r → InHand target w i (target.lockPath root) →
    Bound r.past → w.shared.sockets (target.socketPath root) = some i
  /-- Logs, database and socket are used by the holder of the lock alone, under its name. -/
  alone : ∀ x ∈ deeds, ∀ path, x.act.op.Uses target path →
    x.before.shared.lockedBy path = some x.process ∧
      x.before.shared.lockFiles path = some (signature (pid x.process))
  /-- The uses of different processes do not interleave. -/
  apart : ∀ x y z path, [x, y, z].Sublist deeds → x.act.op.Uses target path →
    y.act.op.Uses target path → z.act.op.Uses target path → x.process = z.process →
    y.process = x.process
  /-- A process is refused only while another one holds the lock. -/
  refused : ∀ x ∈ deeds, ∀ file, x.act = ⟨.tryLockExclusive file, .error .wouldBlock⟩ →
    ∃ j, j ≠ x.process ∧ InHand target x.before j file.path

variable {target pid}

theorem Stage.next_signed {t : Stage} (a : Act HostCalls) (signed : t.signed = true) :
    (t.next a).signed = true := by
  unfold next
  split <;> first
    | exact signed
    | rfl
    | (split <;> first | exact signed | (split_ifs <;> exact signed))

theorem Stage.next_bound {t : Stage} (a : Act HostCalls) (bound : t.bound = true) :
    (t.next a).bound = true := by
  unfold next
  split <;> first
    | exact bound
    | rfl
    | (split <;> first | exact bound | (split_ifs <;> exact bound))

theorem after_signed {past : List (Act HostCalls)} (signed : Signed past) :
    ((typestate target).after past).signed = true := by
  obtain ⟨file, bytes, mem⟩ := signed
  exact Typestate.after_of_mem (P := fun t : Stage => t.signed = true) (fun _ => rfl)
    (fun _ a h => Stage.next_signed a h) mem

theorem after_bound {past : List (Act HostCalls)} (bound : Bound past) :
    ((typestate target).after past).bound = true := by
  obtain ⟨path, mem⟩ := bound
  exact Typestate.after_of_mem (P := fun t : Stage => t.bound = true) (fun _ => rfl)
    (fun _ a h => Stage.next_bound a h) mem

variable (target pid) in
theorem orderly_hostRun {host : Host} (unlocked : ∀ path, host.lockedBy path = none)
    (events : List HostEvent) :
    Locking.Orderly (typestate target) (answer pid) Host.exit Stage.lock Host.lockedBy
      (HostOp.Uses target) (hostRun target pid host events) :=
  (Locking.orderly_begin (locking pid target) unlocked).run (main_obeys target) events

variable (target pid) in
theorem knows_hostRun {host : Host} (unlocked : ∀ path, host.lockedBy path = none)
    (events : List HostEvent) :
    Locking.Knows (typestate target) (Knowledge pid target) (hostRun target pid host events) :=
  (stable pid target).run (main_obeys target)
    (Locking.orderly_begin (locking pid target) unlocked) (fun i r hr => by cases hr) events

/-- What uses the files of a lock has signed the lock file. -/
theorem Stage.Allows.signed {t : Stage} {o : HostOp} {lock : String} (allowed : t.Allows target o)
    (uses : o.Uses target lock) : t.signed = true := by
  cases o with
  | createDirAll _ | openLockFile _ | tryLockExclusive _ | setLen _ _ | processId | writeAll _ _
  | unlock _ | close _ => exact uses.elim fun _ h => absurd h.1 not_false
  | _ => exact allowed.1

theorem locked_of_wouldBlock {weather : Weather} {i : ℕ} {file : LockHandle} {s : Host}
    (refused : (answer pid weather i (.tryLockExclusive file) s).1 = .error .wouldBlock) :
    s.lockedBy file.path ≠ none := by
  intro free
  cases failure : weather.failure <;> simp [answer, free, failure] at refused

/-- At most one process at a time works on a data directory, however many are started and wherever
they are killed. -/
theorem single_instance (target : UnixTarget) (pid : ℕ → ℕ) {host : Host}
    (unlocked : ∀ path, host.lockedBy path = none) (events : List HostEvent) :
    OneInstance target pid (hostRun target pid host events) (hostDeeds target pid host events) := by
  have orderly := orderly_hostRun target pid unlocked
  have knows := knows_hostRun target pid unlocked
  have deed {x : HostDeed} (hx : x ∈ hostDeeds target pid host events) :
      ∃ before, x.before = hostRun target pid host before ∧ ∃ past next weather,
        x.before.processes x.process = .live ⟨past, .perform x.act.op next⟩ ∧
        x.act.ans = (answer pid weather x.process x.act.op x.before.shared).1 := by
    obtain ⟨before, e, after, -, done, -⟩ := World.deeds_split (List.singleton_sublist.2 hx)
    obtain ⟨eq, past, next, weather, live, answered⟩ := World.deed_cases done
    refine ⟨before, eq, past, next, weather, ?_⟩
    rw [eq]
    exact ⟨live, answered⟩
  have lock := (orderly events).sound
  refine ⟨lock, fun i j path hi hj => ?_, fun i r path live held signed => ?_,
    fun i r root live held bound => ?_, fun x hx path uses => ?_,
    fun x y z path order hx hy hz same => ?_, fun x hx file refused => ?_⟩
  · have holds := (lock i path).2 hi
    rw [(lock j path).2 hj] at holds
    exact (Option.some.inj holds).symm
  · have holding := (Locking.holds_live live).1 held
    exact (knows events i r live).signed (after_signed signed) path holding
  · have holding := (Locking.holds_live live).1 held
    exact (knows events i r live).bound (after_bound bound) root holding
  · obtain ⟨before, eq, past, next, weather, live, -⟩ := deed hx
    rw [eq] at live ⊢
    have allowed := ((orderly before).conforms _ _ live).1
    have held := allowed.holding uses
    exact ⟨((orderly before).sound _ _).2 ⟨_, live, held⟩,
      (knows before _ _ live).signed (allowed.signed uses) path held⟩
  · exact (Locking.orderly_begin (locking pid target) unlocked).not_interleaved (main_obeys target)
      order hx hy hz same
  · obtain ⟨before, eq, past, next, weather, live, answered⟩ := deed hx
    obtain ⟨_, i, act⟩ := x
    obtain rfl : _ = hostRun target pid host before := eq
    obtain rfl : act = _ := refused
    have locked := locked_of_wouldBlock answered.symm
    obtain ⟨j, hj⟩ := Option.ne_none_iff_exists'.1 locked
    have held := ((orderly before).sound j file.path).1 hj
    refine ⟨j, ?_, held⟩
    rintro rfl
    have fresh : ((typestate target).after past).lock = .fresh :=
      ((orderly before).conforms _ _ live).1.1
    rw [(Locking.holds_live live).1 held] at fresh
    cases fresh

end Runs

section Example

def freeHost : Host := ⟨fun _ => none, fun _ => none, fun _ => none⟩

def fairWeather : Weather :=
  ⟨none, 0, .ok (), .ok ⟨⟨Reference.uuid 1⟩, "Default", true⟩, 0⟩

/-- A process that listens, one that is refused meanwhile, and one after the first was killed. -/
def succession : List HostEvent :=
  .start 0 (some "/u", 0) :: List.replicate 14 (.go 0 fairWeather) ++
    .start 1 (some "/u", 0) :: List.replicate 5 (.go 1 fairWeather) ++
    .stop 0 :: .start 2 (some "/u", 0) :: List.replicate 15 (.go 2 fairWeather)

theorem single_instance_example :
    OneInstance .other (· + 700) (hostRun .other (· + 700) freeHost succession)
      (hostDeeds .other (· + 700) freeHost succession) ∧
    (hostRun .other (· + 700) freeHost succession).shared.lockedBy
      (UnixTarget.other.lockPath "/u/") = some 2 ∧
    (hostRun .other (· + 700) freeHost succession).shared.sockets
      (UnixTarget.other.socketPath "/u/") = some 2 :=
  ⟨single_instance .other _ (fun _ => rfl) succession, by decide +kernel, by decide +kernel⟩

end Example

end KeyroCore
