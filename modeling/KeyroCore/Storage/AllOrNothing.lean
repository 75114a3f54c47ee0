import KeyroCore.Effect.Crash
import KeyroCore.Storage.ActiveProfile
import KeyroCore.Storage.Migration

/-!
# Commands are all or nothing

A lock region changes the database file in at most one of its operations: a statement outside a
transaction, or the commit.  A command runs at most one region that changes the file.  Cut short
anywhere, it leaves the old content or that of the completed command.
-/

open Effect Program Fallible Clients Results

namespace KeyroCore

section Store

/-! ## Statements and the file -/

def Stmt.IsQuery : Stmt → Prop
  | .selectActiveProfile | .selectProfiles | .selectProfile _ | .selectAssignments
  | .selectActions _ => True
  | _ => False

/-- Operations that read. -/
def SqlOp.Reads : SqlOp → Prop
  | .newUuid => True
  | .statement stmt => stmt.IsQuery
  | _ => False

/-- Operations that leave an open transaction open. -/
def SqlOp.StaysOpen : SqlOp → Prop
  | .newUuid | .statement _ => True
  | _ => False

theorem Stmt.IsQuery.eval {stmt : Stmt} (h : stmt.IsQuery) (db : Db) (now : String) :
    ∃ rows, db.eval now stmt = .ok (rows, db) := by
  cases stmt with
  | selectActiveProfile | selectProfiles | selectProfile | selectAssignments | selectActions =>
    exact ⟨_, rfl⟩
  | _ => cases h

theorem SqliteConnection.file_put_current (c : SqliteConnection) : (c.put c.current).file = c.file := by
  obtain ⟨file, _ | db, n⟩ := c <;> rfl

theorem file_reads {env : ℕ → SqlChoice} (o : SqlOp) (c : SqliteConnection) (ho : o.Reads)
    (_ : True) : (sqlite env o c).2.file = c.file ∧ True := by
  refine ⟨?_, trivial⟩
  cases o with
  | statement stmt =>
    obtain ⟨rows, query⟩ := Stmt.IsQuery.eval ho c.current (env c.clock).now
    simp only [sqlite, query]
    split
    · rfl
    · exact c.file_put_current
  | newUuid => rfl
  | _ => cases ho

theorem file_staysOpen {env : ℕ → SqlChoice} (o : SqlOp) (c : SqliteConnection)
    (ho : o.StaysOpen) (hc : c.transaction.isSome = true) :
    (sqlite env o c).2.file = c.file ∧ (sqlite env o c).2.transaction.isSome = true := by
  obtain ⟨file, _ | db, n⟩ := c
  · cases hc
  cases o with
  | statement stmt =>
    unfold sqlite
    dsimp only
    split
    · exact ⟨rfl, rfl⟩
    · split <;> exact ⟨rfl, rfl⟩
  | newUuid => exact ⟨rfl, rfl⟩
  | _ => cases ho

variable [RusqliteCrate]

/-! ## Rules -/

section Rules

variable {α : Type} {O : SqlOp → Prop} {env : ℕ → SqlChoice} {c : SqliteConnection}

theorem uses_orAppError (r : Except SqlError α) : (orAppError r).run.Uses O := by
  rcases r with error | a <;> exact trivial

theorem uses_statement {stmt : Stmt} (h : O (.statement stmt)) : (statement stmt).run.Uses O :=
  uses_bind (uses_lift (uses_call h)) uses_orAppError

theorem still_orAppError (r : Except SqlError α) :
    Still (sqlite env) SqliteConnection.file (orAppError r).run c := by
  rcases r with error | a <;> exact still_pure _

theorem atomic_orAppError_call (o : SqlOp) (f : SqlOp.Ans o → Except SqlError α) :
    Atomic (sqlite env) SqliteConnection.file
      (do orAppError (f (← Fallible.lift (call (S := SqlCalls) o))) : Sql α).run c :=
  bind_still ((atomic_call _).bind_still (still_pure _)) fun _ => still_orAppError _

theorem atomic_statement (stmt : Stmt) :
    Atomic (sqlite env) SqliteConnection.file (statement stmt).run c :=
  atomic_orAppError_call (.statement stmt) id

theorem atomic_commit : Atomic (sqlite env) SqliteConnection.file commit.run c :=
  atomic_orAppError_call .commit id

/-- A transaction changes the file where its body does. -/
theorem atomic_transaction {body : Sql α}
    (hb : ∀ c, c.transaction.isSome = true →
      Atomic (sqlite env) SqliteConnection.file body.run c) :
    Atomic (sqlite env) SqliteConnection.file (transaction body).run c := by
  have begun : Still (sqlite env) SqliteConnection.file (call (S := SqlCalls) .begin) c := by
    refine still_call ?_
    unfold sqlite
    dsimp only
    split <;> rfl
  have dropped : ∀ (result : Except AppError α) c, Still (sqlite env) SqliteConnection.file
      (do let _ ← call (S := SqlCalls) .dropTransaction; return result) c :=
    fun result c => (still_call rfl).bind_pure _
  unfold transaction
  rw [run_bind]
  refine (begun.bind_pure _).bind_atomic ?_
  show Atomic _ _ (orAppError (sqlite env .begin c).1 >>= _).run (sqlite env .begin c).2
  unfold sqlite
  dsimp only
  split
  · exact (still_pure _).atomic
  · exact (hb _ rfl).bind_still (dropped _ _)

end Rules

/-! ## Lock regions -/

namespace Region

theorem uses_insertActions [UrlCrate] (identity : AssignmentIdentity) (actions : List Action)
    (position : ℕ) : (insertActions identity position actions).run.Uses SqlOp.StaysOpen := by
  induction actions generalizing position with
  | nil => exact trivial
  | cons action actions ih =>
    exact Fallible.uses_bind (uses_statement trivial) fun _ => ih (position + 1)

variable [UuidCrate]

theorem uses_listProfiles : listProfilesLocked.run.Uses SqlOp.Reads :=
  Fallible.uses_bind (uses_statement trivial) fun _ => uses_orAppError _

theorem uses_loadActiveProfile : loadActiveProfile.run.Uses SqlOp.Reads := by
  refine Fallible.uses_bind (uses_statement trivial) fun rows => ?_
  rcases rows with _ | ⟨row, rest⟩
  · exact trivial
  · exact Fallible.uses_bind (uses_orAppError _) fun _ => trivial

theorem uses_profileExists {O : SqlOp → Prop} (profileId : ProfileId)
    (h : O (.statement (.selectProfile profileId.toString))) :
    (profileExists profileId).run.Uses O :=
  Fallible.uses_bind (uses_statement h) fun _ => trivial

variable [UrlCrate] {env : ℕ → SqlChoice} {c : SqliteConnection}

theorem uses_loadSnapshotState : loadSnapshotStateLocked.run.Uses SqlOp.Reads := by
  refine Fallible.uses_bind uses_listProfiles fun profiles => ?_
  refine Fallible.uses_bind ?_ fun assignments => trivial
  refine Fallible.uses_bind (uses_statement trivial) fun rows => ?_
  exact Fallible.uses_bind (uses_orAppError _) fun _ => trivial

theorem uses_findAssignment (profileId : ProfileId) (control : ControlId) :
    (findAssignmentLocked profileId control).run.Uses SqlOp.Reads := by
  refine Fallible.uses_bind (uses_statement trivial) fun rows => ?_
  exact Fallible.uses_bind (uses_orAppError _) fun _ => trivial

/-- A region changes the file in at most one of its operations. -/
theorem atomic_body (r : Region) : Atomic (sqlite env) SqliteConnection.file r.body.run c := by
  cases r with
  | listProfiles => exact (uses_listProfiles.still file_reads trivial).1.atomic
  | loadSnapshotState => exact (uses_loadSnapshotState.still file_reads trivial).1.atomic
  | findAssignment profileId control =>
    exact ((uses_findAssignment profileId control).still file_reads trivial).1.atomic
  | ensureDefaultProfile =>
    refine uses_bind_atomic uses_loadActiveProfile file_reads trivial fun found c _ => ?_
    rcases found with _ | profile
    · refine uses_bind_atomic (uses_lift (uses_call (show SqlOp.Reads .newUuid from trivial)))
        file_reads trivial fun uuid c _ => ?_
      obtain ⟨profile, new, -, -⟩ := Profile.new_default uuid
      rw [new]
      show Atomic _ _ (statement _ >>= _).run c
      exact bind_still (atomic_statement _) fun _ => still_pure _
    · exact (still_pure _).atomic
  | insertProfile profile => exact bind_still (atomic_statement _) fun _ => still_pure _
  | updateProfileName profileId name =>
    refine bind_still (atomic_statement _) fun updated => ?_
    split <;> exact still_pure _
  | setActiveProfile profileId =>
    refine atomic_transaction fun c hc => ?_
    refine uses_bind_atomic (uses_profileExists profileId trivial) file_staysOpen hc
      fun known c hc => ?_
    split
    · exact (still_pure _).atomic
    refine uses_bind_atomic (uses_statement trivial) file_staysOpen hc fun updated c hc => ?_
    split
    · exact (still_pure _).atomic
    refine uses_bind_atomic (uses_statement trivial) file_staysOpen hc fun updated c hc => ?_
    split
    · exact (still_pure _).atomic
    · exact atomic_commit
  | saveAssignment assignment =>
    refine atomic_transaction fun c hc => ?_
    refine uses_bind_atomic (uses_profileExists assignment.profileId trivial) file_staysOpen hc
      fun known c hc => ?_
    split
    · exact (still_pure _).atomic
    refine uses_bind_atomic (uses_statement trivial) file_staysOpen hc fun deleted c hc => ?_
    exact uses_bind_atomic (uses_insertActions _ _ _) file_staysOpen hc fun _ c _ => atomic_commit
  | clearAssignment profileId control =>
    refine uses_bind_atomic (uses_profileExists profileId trivial) file_reads trivial
      fun known c _ => ?_
    split
    · exact (still_pure _).atomic
    · exact bind_still (atomic_statement _) fun _ => still_pure _

/-- Cut short anywhere, a region leaves the old content or the content of the completed region. -/
theorem fileAfter_eq (env : ℕ → SqlChoice) (n : ℕ) (r : Region) (db : Db) :
    fileAfter env n r db = db ∨ fileAfter env n r db = (exec env r db).2 :=
  atomic_body r n

/-- Regions that only read. -/
def ReadOnly : Region → Prop
  | .listProfiles | .loadSnapshotState | .findAssignment _ _ => True
  | _ => False

theorem exec_readOnly {r : Region} (h : r.ReadOnly) (env : ℕ → SqlChoice) (db : Db) :
    (exec env r db).2 = db := by
  rcases outcome env r db with ⟨_, -, -, same⟩ | does
  · exact same
  · generalize (exec env r db).1 = result, (exec env r db).2 = db' at does
    cases does <;> first | rfl | cases h

/-- A region that fails leaves the content alone. -/
theorem exec_error {r : Region} {env : ℕ → SqlChoice} {db : Db} {error : AppError}
    (h : (exec env r db).1 = .error error) : (exec env r db).2 = db := by
  rcases outcome env r db with ⟨_, -, -, same⟩ | does
  · exact same
  · rw [h] at does
    generalize (exec env r db).2 = db' at does
    cases does <;> rfl

end Region

end Store

/-! ## Commands -/

/-- Operations of Core that keep the store. -/
def CoreOp.Observes [UrlCrate] : CoreOp → Prop
  | .lock r => r.ReadOnly
  | _ => True

section Commands

variable [UrlCrate] {α β : Type}

/-- Nothing that the store is asked to do fails. -/
def Quiet (inputs : ℕ → CoreInput) : Prop := ∀ k n, ((inputs k).sql n).failure = none

theorem Quiet.not_faulty {inputs : ℕ → CoreInput} (quiet : Quiet inputs) (k : ℕ)
    (error : SqlError) : ¬ Faulty (inputs k).sql error := by
  rintro ⟨n, text, failure, -⟩
  rw [quiet k n] at failure
  cases failure

variable [UuidCrate]

/-- The operations of a virtual input. -/
structure CoreOp.Routes (O : CoreOp → Prop) : Prop where
  log : ∀ record, O (.log record)
  write : ∀ event, O (.write (eventFromCore event))
  newUuid : O .newUuid
  openUrl : ∀ url, O (.openUrl url)
  listProfiles : O (.lock .listProfiles)
  findAssignment : ∀ profileId control, O (.lock (.findAssignment profileId control))

section Routes

variable {O : CoreOp → Prop} (routes : CoreOp.Routes O)
include routes

theorem uses_emit (event : CoreEvent) : (ipcEventSink.emit event).run.Uses O := by
  refine Fallible.uses_bind (uses_lift (uses_call (routes.log _))) fun _ => ?_
  refine Fallible.uses_bind (uses_lift (uses_call (routes.write event))) fun written => ?_
  rcases written with text | ⟨⟩ <;> exact trivial

theorem uses_activeProfile : coreService.activeProfile.run.Uses O := by
  refine Fallible.uses_bind (uses_lock routes.listProfiles) fun profiles => ?_
  refine Fallible.uses_bind (uses_domain _) fun _ => ?_
  split <;> exact trivial

theorem uses_runAction (profile : Profile) (control : ControlId) (action : Action) :
    (coreService.runAction profile control action).run.Uses O := by
  obtain ⟨url⟩ := action
  refine Fallible.uses_bind (uses_lift (uses_call routes.newUuid)) fun uuid => ?_
  refine Fallible.uses_bind (uses_emit routes _) fun _ => ?_
  refine Fallible.uses_bind (uses_lift (uses_call (routes.openUrl url))) fun opened => ?_
  rcases opened with error | ⟨⟩
  · exact Fallible.uses_bind (uses_emit routes _) fun _ => trivial
  · exact uses_emit routes _

theorem uses_routeVirtualControl (control : ControlId) :
    (coreService.routeVirtualControl control).run.Uses O := by
  refine Fallible.uses_bind (uses_activeProfile routes) fun profile => ?_
  refine Fallible.uses_bind (uses_lock (routes.findAssignment _ _)) fun found => ?_
  split
  · exact trivial
  · split
    · exact trivial
    · exact uses_runAction routes _ _ _

end Routes

theorem CoreOp.routes_observes : CoreOp.Routes CoreOp.Observes :=
  ⟨fun _ => trivial, fun _ => trivial, trivial, fun _ => trivial, trivial, fun _ _ => trivial⟩

variable [RusqliteCrate] {inputs : ℕ → CoreInput}

theorem store_observes (o : CoreOp) (s : Db × ℕ) (ho : o.Observes) (_ : True) :
    (timed coreHandler inputs o s).2.1 = s.1 ∧ True := by
  refine ⟨?_, trivial⟩
  cases o with
  | lock r => exact Region.exec_readOnly ho _ _
  | _ => rfl

/-- The two halves of "all or nothing" for a program that starts from the store of `s`: every
prefix leaves the old or the final content, and an error leaves the old one. -/
structure AllOrNothing (inputs : ℕ → CoreInput) (p : Fallible CoreCalls AppError α)
    (s : Db × ℕ) : Prop where
  atomic : Atomic (timed coreHandler inputs) Prod.fst p.run s
  error : ∀ e, (p.run.exec (timed coreHandler inputs) s).1 = .error e →
    (p.run.exec (timed coreHandler inputs) s).2.1 = s.1

theorem allOrNothing_of_uses {p : Fallible CoreCalls AppError α} {s : Db × ℕ}
    (hp : p.run.Uses CoreOp.Observes) : AllOrNothing inputs p s where
  atomic := (hp.still store_observes trivial).1.atomic
  error := fun _ _ => (hp.still store_observes trivial).1.exec

theorem allOrNothing_lock (r : Region) (s : Db × ℕ) : AllOrNothing inputs (lock r) s where
  atomic := atomic_call _
  error := fun _ h => Region.exec_error h

/-- The store is written in the second part only. -/
theorem AllOrNothing.after {p : Fallible CoreCalls AppError α} {s : Db × ℕ}
    {f : α → Fallible CoreCalls AppError β} (hp : p.run.Uses CoreOp.Observes)
    (hf : ∀ a s', AllOrNothing inputs (f a) s') : AllOrNothing inputs (p >>= f) s where
  atomic := uses_bind_atomic hp store_observes trivial fun a s' _ => (hf a s').atomic
  error := by
    intro e he
    have same : (p.run.exec (timed coreHandler inputs) s).2.1 = s.1 :=
      (hp.still store_observes trivial).1.exec
    rw [run_bind, exec_bind] at he ⊢
    rw [← same]
    rcases result : (p.run.exec (timed coreHandler inputs) s).1 with error | a
    · rfl
    · rw [result] at he
      exact (hf a _).error e he

/-- The store is written in the first part only, which the second cannot fail after. -/
theorem AllOrNothing.returning {p : Fallible CoreCalls AppError α} {s : Db × ℕ}
    (hp : AllOrNothing inputs p s) (f : α → β) : AllOrNothing inputs (do return f (← p)) s where
  atomic := bind_still hp.atomic fun _ => still_pure _
  error := by
    intro e he
    rw [run_bind, exec_bind] at he ⊢
    rcases result : (p.run.exec (timed coreHandler inputs) s).1 with error | a
    · exact hp.error error result
    · rw [result] at he
      cases he

theorem allOrNothing_createProfile (name : String) (s : Db × ℕ) :
    AllOrNothing inputs (coreService.repository.createProfile name) s := by
  refine .after (uses_lift (uses_call trivial)) fun uuid s => ?_
  refine .after (uses_domain _) fun profile s => ?_
  exact (allOrNothing_lock _ _).returning fun _ => profile

theorem allOrNothing_renameProfile (profileId : ProfileId) (name : String) (s : Db × ℕ) :
    AllOrNothing inputs (coreService.repository.renameProfile profileId name) s := by
  refine .after (uses_lock trivial) fun profiles s => ?_
  split
  · exact allOrNothing_of_uses trivial
  · refine .after (uses_domain _) fun profile s => ?_
    exact (allOrNothing_lock _ _).returning fun _ => profile

theorem allOrNothing_handleCommand (command : CoreCommand) (s : Db × ℕ) :
    AllOrNothing inputs (coreService.handleCommand command) s := by
  cases command with
  | getSnapshot =>
    refine .after (uses_lock trivial) fun state s => .after (uses_domain _) fun _ s => ?_
    exact allOrNothing_of_uses trivial
  | listProfiles =>
    refine .after (uses_lock trivial) fun state s => .after (uses_domain _) fun _ s => ?_
    exact allOrNothing_of_uses trivial
  | createProfile name => exact (allOrNothing_createProfile name s).returning _
  | renameProfile profileId name => exact (allOrNothing_renameProfile profileId name s).returning _
  | setActiveProfile profileId => exact (allOrNothing_lock _ s).returning _
  | saveAssignment assignment => exact (allOrNothing_lock _ s).returning _
  | clearAssignment profileId control => exact (allOrNothing_lock _ s).returning _
  | virtualControlInput control =>
    exact (allOrNothing_of_uses (uses_routeVirtualControl CoreOp.routes_observes control)).returning _

/-! ## Restarting -/

/-- The process dies inside the command: after `k` operations of Core and, when the next one is a
lock region, `n` operations of it. -/
inductive LeftByCrash (inputs : ℕ → CoreInput) (command : CoreCommand) (db : Db) : Db → Prop
  | between (k : ℕ) : LeftByCrash inputs command db
      ((coreService.handleCommand command).run.after (timed coreHandler inputs) k (db, 0)).1
  | inside {k : ℕ} {r : Region} (n : ℕ)
      (pending : (coreService.handleCommand command).run.pending (timed coreHandler inputs) k
        (db, 0) = some (.lock r)) :
      LeftByCrash inputs command db (r.fileAfter
        (inputs ((coreService.handleCommand command).run.after (timed coreHandler inputs) k
          (db, 0)).2).sql n
        ((coreService.handleCommand command).run.after (timed coreHandler inputs) k (db, 0)).1)

/-- Cut short anywhere, a command leaves the old content or that of the completed command. -/
theorem leftByCrash_cases {command : CoreCommand} {db file : Db}
    (h : LeftByCrash inputs command db file) : file = db ∨
      file = ((coreService.handleCommand command).run.exec (timed coreHandler inputs) (db, 0)).2.1 := by
  have atomic : Atomic (timed coreHandler inputs) Prod.fst
    (coreService.handleCommand command).run (db, 0) := (allOrNothing_handleCommand command _).atomic
  cases h with
  | between k => exact atomic k
  | @inside k r n pending =>
    have next := after_succ_of_pending pending
    rcases Region.fileAfter_eq _ n r _ with same | done
    · rw [same]
      exact atomic k
    · rw [done]
      have := atomic (k + 1)
      rw [next] at this
      exact this

/-- A store that Core has started on. -/
structure Db.Started (db : Db) : Prop where
  one_active : db.OneActive
  readable : db.Readable

theorem started_exec (hp : UuidCrate.ParseInverts) (env : ℕ → SqlChoice) (r : Region) {db : Db}
    (h : db.Started) : (r.exec env db).2.Started :=
  ⟨Region.oneActive_exec env r h.one_active, (Region.outcome env r db).readable hp h.readable⟩

theorem started_afterInitialize {db : Db} {profile : Profile}
    (initialized : (afterInitialize inputs db).1 = .ok profile) :
    (afterInitialize inputs db).2.Started := by
  obtain ⟨one, profiles, decoded⟩ := initialized_store initialized
  refine ⟨one, fun row hr => forall_ok_of_mapM decoded row ?_⟩
  exact Rows.mem_orderBy.2 hr

theorem started_coreHandler (hp : UuidCrate.ParseInverts) (input : CoreInput) (o : CoreOp)
    (db : Db) (h : db.Started) : (coreHandler input o db).2.Started := by
  cases o with
  | lock r => exact started_exec hp _ r h
  | _ => exact h

/-- Starting Core again changes nothing and, unless the store fails, finds the active profile. -/
theorem afterInitialize_started {db : Db} (h : db.Started) : (afterInitialize inputs db).2 = db ∧
    (Quiet inputs → ∃ row profile, db.activeProfiles = [row] ∧ decodeProfile row = .ok profile ∧
      (afterInitialize inputs db).1 = .ok profile) := by
  obtain ⟨row, active⟩ := List.length_eq_one_iff.1 h.one_active
  have stored : row ∈ db.profiles := by
    have : row ∈ db.activeProfiles := active ▸ List.mem_singleton_self row
    exact (List.mem_filter.1 this).1
  obtain ⟨profile, read⟩ := h.readable row stored
  obtain ⟨profiles, decoded⟩ := h.readable.list
  suffices goal : Ends (timed coreHandler inputs) coreService.initializeCore (db, 0)
      fun result s => s.1 = db ∧ (Quiet inputs → result = .ok profile) from
    ⟨goal.1, fun quiet => ⟨row, profile, active, read, goal.2 quiet⟩⟩
  unfold CoreService.initializeCore
  rw [ends_bind_iff]
  refine ends_lock fun x db₁ outcome => ?_
  rcases outcome with ⟨error, fails, rfl, rfl⟩ | does
  · refine ⟨rfl, fun quiet => ?_⟩
    cases fails with
    | fault faulty => exact absurd faulty (quiet.not_faulty _ _)
    | defaultTaken missing =>
      rw [active] at missing
      cases missing
    | activeUnreadable active' unreadable =>
      rw [active] at active'
      cases active'
      rw [read] at unreadable
      cases unreadable
  cases does with
  | defaultInserted missing =>
    rw [active] at missing
    cases missing
  | defaultPresent active' read' =>
    rw [active] at active'
    cases active'
    rw [read] at read'
    cases read'
    dsimp only
    rw [ends_bind_iff]
    refine ends_lock fun x db₂ outcome => ?_
    rcases outcome with ⟨error, fails, rfl, rfl⟩ | does
    · refine ⟨rfl, fun quiet => ?_⟩
      cases fails with
      | fault faulty => exact absurd faulty (quiet.not_faulty _ _)
      | profilesUnreadable unreadable =>
        rw [decoded] at unreadable
        cases unreadable
    cases does with
    | profilesListed decoded' =>
      dsimp only
      rw [db.ensure_of_decoded h.one_active decoded']
      exact ⟨rfl, fun _ => rfl⟩

/-- The result and the store of a command that runs to its end. -/
def completed (inputs : ℕ → CoreInput) (command : CoreCommand) (db : Db) :
    Except AppError CoreResponse × Db :=
  let (result, db', _) :=
    (coreService.handleCommand command).run.exec (timed coreHandler inputs) (db, 0)
  (result, db')

/-- A command on the store `db` is all or nothing: an error changes nothing, a crash leaves the old
or the new content, and starting Core again on what the crash left finds the active profile and
changes nothing. -/
structure CommandAllOrNothing (inputs : ℕ → CoreInput) (command : CoreCommand) (db : Db) : Prop where
  error : ∀ error, (completed inputs command db).1 = .error error →
    (completed inputs command db).2 = db
  crash : ∀ file, LeftByCrash inputs command db file →
    file = db ∨ file = (completed inputs command db).2
  restart : ∀ file, LeftByCrash inputs command db file → ∀ (f : DbFile) (now : String),
    f.Holds file → ∃ f', f.migrate now = .ok f' ∧ f'.Holds file ∧
      ∀ inputs', (afterInitialize inputs' file).2 = file ∧
        (Quiet inputs' → ∃ row profile, file.activeProfiles = [row] ∧
          decodeProfile row = .ok profile ∧ (afterInitialize inputs' file).1 = .ok profile)

/-- Every command on every store that runs reach after Core has started is all or nothing, whatever
fails inside it. -/
theorem command_all_or_nothing (hp : UuidCrate.ParseInverts) (db : Db) (inputs : ℕ → CoreInput)
    (profile : Profile) (initialized : (afterInitialize inputs db).1 = .ok profile)
    (moves : List (Move CoreJob CoreInput)) (faults : ℕ → CoreInput) (command : CoreCommand) :
    CommandAllOrNothing faults command
      (run jobs coreHandler (begin (afterInitialize inputs db).2 ()) moves).shared := by
  generalize ran : (run jobs coreHandler (begin (afterInitialize inputs db).2 ()) moves).shared = db₁
  have started : db₁.Started := by
    rw [← ran]
    exact (traced_run _ _ _).invariant_shared (started_afterInitialize initialized)
      fun input o db => started_coreHandler hp input o db
  refine ⟨(allOrNothing_handleCommand command _).error, fun file => leftByCrash_cases,
    fun file left f now holds => ?_⟩
  have startedFile : file.Started := by
    rcases leftByCrash_cases left with rfl | rfl
    · exact started
    · exact exec_keeps (I := fun s : Db × ℕ => s.1.Started) (timed coreHandler faults)
        (fun o s => started_coreHandler hp _ o s.1) started _
  obtain ⟨f', migrated, holds'⟩ := holds.migrate now
  exact ⟨f', migrated, holds', fun inputs' => afterInitialize_started startedFile⟩

end Commands

open Reference in
/-- A save that dies after its delete, on the store of a running Core. -/
theorem command_all_or_nothing_example :
    (afterInitialize calm .empty).1 = .ok ⟨⟨uuid 0⟩, "Default", true⟩ ∧
      CommandAllOrNothing calm
        (.saveAssignment ⟨⟨uuid 0⟩, .key ⟨0, by decide⟩ ⟨0, by decide⟩,
          [.openUrl ⟨"https://example.com", by decide⟩]⟩)
        (run jobs coreHandler (begin (afterInitialize calm .empty).2 ())
          [.start 0 (.command (.createProfile "Work")), .go 0 (calm 1), .go 0 (calm 1)]).shared :=
  ⟨by decide, command_all_or_nothing parseInverts .empty calm ⟨⟨uuid 0⟩, "Default", true⟩
    (by decide) _ _ _⟩

end KeyroCore
