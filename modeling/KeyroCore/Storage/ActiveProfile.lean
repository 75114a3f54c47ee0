import KeyroCore.Effect.Clients
import KeyroCore.Reference

/-!
# Exactly one profile is active

Every lock region keeps the number of active profiles at one, so every state that a lock holder
sees has one active profile, and no job can observe otherwise.
-/

open Effect Program Fallible Clients Results

namespace KeyroCore

def Db.OneActive (db : Db) : Prop := db.activeProfiles.length = 1

/-- The errors that report a missing or ambiguous active profile. -/
def AppError.DeniesActive : AppError → Prop
  | .activeProfileMissing | .domain (.activeProfileInvariant _) => True
  | _ => False

/-- A result that does not report a missing or ambiguous active profile. -/
def FindsActive {α : Type} (result : Except AppError α) : Prop :=
  ∀ error, result = .error error → ¬ error.DeniesActive

theorem findsActive_ok {α : Type} (a : α) : FindsActive (.ok a) := fun _ h => nomatch h

theorem findsActive_error {α : Type} {error : AppError} (h : ¬ error.DeniesActive) :
    FindsActive (.error error : Except AppError α) := fun _ e => Except.error.inj e ▸ h

section Store

variable [UrlCrate]

/-! ## Answers of the store -/

/-- What the answers of the store say about the active profile. -/
structure ActiveAnswer (a : Act CoreCalls) : Prop where
  findsActive : ∀ r x, a = ⟨.lock r, x⟩ → FindsActive x
  listProfiles : ∀ profiles, a = ⟨.lock .listProfiles, .ok profiles⟩ →
    ensureExactlyOneActive profiles = .ok ()
  loadSnapshotState : ∀ state, a = ⟨.lock .loadSnapshotState, .ok state⟩ →
    ensureExactlyOneActive state.profiles = .ok ()

section Rules

variable {α : Type} {R : Except AppError α → Prop}

/-- A lock region at the head of a program. -/
theorem assures_lock_bind {r : Region} {f : r.Value → Fallible CoreCalls AppError α}
    (fail : ∀ error, ¬ error.DeniesActive → R (.error error))
    (ok : ∀ v, ActiveAnswer ⟨.lock r, .ok v⟩ → Assures ActiveAnswer (f v) R) :
    Assures ActiveAnswer (lock r >>= f) R := by
  rw [assures_bind_iff, assures_lock_iff]
  rintro (error | v) h
  · exact fail error (h.findsActive _ _ rfl error rfl)
  · exact ok v h

/-- A check that the store has answered already. -/
theorem assures_ensure_bind {profiles : List Profile} {f : Unit → Fallible CoreCalls AppError α}
    (h : ensureExactlyOneActive profiles = .ok ()) (ok : Assures ActiveAnswer (f ()) R) :
    Assures ActiveAnswer (domain (ensureExactlyOneActive profiles) >>= f) R := by
  rw [h]
  exact ok

end Rules

theorem assures_lock (r : Region) : Assures ActiveAnswer (lock r) FindsActive := by
  rw [assures_lock_iff]
  exact fun x h => h.findsActive _ _ rfl

variable [UuidCrate]

/-! ## One region -/

omit [UrlCrate] in
/-- The decoded profiles of a store have as many active ones as its rows. -/
theorem Db.ensure_of_decoded {db : Db} (one : db.OneActive) {profiles : List Profile}
    (decoded : db.orderedProfiles.mapM decodeProfile = .ok profiles) :
    ensureExactlyOneActive profiles = .ok () := by
  have same : (db.orderedProfiles.filter fun row => row.Active).length =
      (profiles.filter fun profile => profile.isActive).length :=
    length_of_mapM_ok (filter_mapM_ok decoded fun _ _ _ => decodeProfile_isActive)
  rw [ensureExactlyOneActive_ok_iff, ← same, ← one]
  exact ((Rows.orderBy_perm _ _).filter _).length_eq

/-! ## Results of jobs -/

theorem assures_emit_findsActive (event : CoreEvent) :
    Assures ActiveAnswer (ipcEventSink.emit event) FindsActive :=
  assures_emit (findsActive_ok _) fun _ => findsActive_error fun h => h

theorem assures_initializeCore : Assures ActiveAnswer coreService.initializeCore FindsActive := by
  unfold CoreService.initializeCore
  refine assures_lock_bind (fun _ => findsActive_error) fun profile _ => ?_
  refine assures_lock_bind (fun _ => findsActive_error) fun profiles h => ?_
  exact assures_ensure_bind (h.listProfiles _ rfl) (findsActive_ok _)

/-- The active profile is found unless the store fails. -/
theorem assures_activeProfile {R : Except AppError Profile → Prop}
    (fail : ∀ error, ¬ error.DeniesActive → R (.error error)) (ok : ∀ profile, R (.ok profile)) :
    Assures ActiveAnswer coreService.activeProfile R := by
  unfold CoreService.activeProfile
  refine assures_lock_bind fail fun profiles h => ?_
  have ensured := h.listProfiles _ rfl
  refine assures_ensure_bind ensured ?_
  obtain ⟨profile, found⟩ := exists_active_of_ensure ensured
  rw [found]
  exact ok profile

theorem assures_runAction (profile : Profile) (control : ControlId) (action : Action) :
    Assures ActiveAnswer (coreService.runAction profile control action) FindsActive := by
  obtain ⟨url⟩ := action
  unfold CoreService.runAction
  rw [assures_lift_bind_iff]
  intro uuid _
  show Assures _ (ipcEventSink.emit _ >>= _) _
  rw [assures_bind_iff]
  refine assures_emit ?_ fun _ => findsActive_error fun h => h
  rw [assures_lift_bind_iff]
  rintro (error | ⟨⟩) _
  · show Assures _ (ipcEventSink.emit _ >>= _) _
    rw [assures_bind_iff]
    refine assures_emit ?_ fun _ => findsActive_error fun h => h
    exact findsActive_error fun h => h
  · exact assures_emit_findsActive _

theorem assures_routeVirtualControl (control : ControlId) :
    Assures ActiveAnswer (coreService.routeVirtualControl control) FindsActive := by
  unfold CoreService.routeVirtualControl
  rw [assures_bind_iff]
  refine assures_activeProfile (fun _ => findsActive_error) fun profile => ?_
  refine assures_lock_bind (fun _ => findsActive_error) fun found _ => ?_
  split
  · exact findsActive_error fun h => h
  · split
    · exact findsActive_error fun h => h
    · exact assures_runAction _ _ _

theorem assures_createProfile (name : String) :
    Assures ActiveAnswer (coreService.repository.createProfile name) FindsActive := by
  show Assures _ (Fallible.lift newUuid >>= fun uuid => _) _
  rw [assures_lift_bind_iff]
  unfold newUuid
  rw [always_call_iff]
  intro uuid _
  rw [assures_bind_iff]
  refine assures_domain (fun error h => ?_) fun profile _ => ?_
  · rw [Profile.new_error h]
    exact findsActive_error fun h => h
  · exact assures_lock_bind (fun _ => findsActive_error) fun _ _ => findsActive_ok _

theorem assures_renameProfile (profileId : ProfileId) (name : String) :
    Assures ActiveAnswer (coreService.repository.renameProfile profileId name) FindsActive := by
  refine assures_lock_bind (fun _ => findsActive_error) fun profiles _ => ?_
  split
  · exact findsActive_error fun h => h
  · rw [assures_bind_iff]
    refine assures_domain (fun error h => ?_) fun profile _ => ?_
    · rw [Profile.rename_error h]
      exact findsActive_error fun h => h
    · exact assures_lock_bind (fun _ => findsActive_error) fun _ _ => findsActive_ok _

theorem assures_perform (call : RepositoryCall) :
    Assures ActiveAnswer (coreService.repository.perform call) FindsActive := by
  cases call with
  | createProfile name => exact assures_createProfile name
  | renameProfile profileId name => exact assures_renameProfile profileId name
  | _ => exact assures_lock _

theorem assures_handleCommand (command : CoreCommand) :
    Assures ActiveAnswer (coreService.handleCommand command) FindsActive := by
  have returned {α : Type} {p : Fallible CoreCalls AppError α} {f : α → CoreResponse}
      (h : Assures ActiveAnswer p FindsActive) :
      Assures ActiveAnswer (do return f (← p)) FindsActive := by
    rw [assures_bind_iff]
    refine Program.Always.mono h fun result finds => ?_
    rcases result with error | a
    · exact findsActive_error (finds error rfl)
    · exact findsActive_ok _
  cases command with
  | getSnapshot =>
    refine assures_lock_bind (fun _ => findsActive_error) fun state h => ?_
    exact assures_ensure_bind (h.loadSnapshotState _ rfl) (findsActive_ok _)
  | listProfiles =>
    refine assures_lock_bind (fun _ => findsActive_error) fun profiles h => ?_
    exact assures_ensure_bind (h.listProfiles _ rfl) (findsActive_ok _)
  | createProfile name => exact returned (assures_createProfile name)
  | renameProfile profileId name => exact returned (assures_renameProfile profileId name)
  | setActiveProfile profileId => exact returned (assures_lock _)
  | saveAssignment assignment => exact returned (assures_lock _)
  | clearAssignment profileId control => exact returned (assures_lock _)
  | virtualControlInput control => exact returned (assures_routeVirtualControl control)

/-- No job ends with a report of a missing or ambiguous active profile. -/
theorem always_jobs (job : CoreJob) : (jobs () job).Always ActiveAnswer fun result =>
    ∀ error, result.1.error? = some error → ¬ error.DeniesActive := by
  have reported {α : Type} {p : Fallible CoreCalls AppError α} {f : Except AppError α → JobResult}
      (h : Assures ActiveAnswer p FindsActive)
      (reports : ∀ result error, (f result).error? = some error → result = .error error) :
      (do return f (← p.run) : Program CoreCalls JobResult).Always ActiveAnswer fun result =>
        ∀ error, result.error? = some error → ¬ error.DeniesActive := by
    rw [always_bind]
    exact Program.Always.mono h fun result finds error e => finds error (reports _ _ e)
  unfold jobs
  rw [always_bind]
  cases job with
  | initializeCore =>
    refine reported assures_initializeCore fun result error e => ?_
    rcases result with _ | _
    · exact congrArg _ (Option.some.inj e)
    · cases e
  | repository call =>
    refine reported (assures_perform call) fun result error e => ?_
    rcases result with _ | _
    · exact congrArg _ (Option.some.inj e)
    · cases e
  | command command =>
    refine reported (assures_handleCommand command) fun result error e => ?_
    rcases result with _ | _
    · exact congrArg _ (Option.some.inj e)
    · cases e

/-! ## What the store answers -/

namespace Region

variable {db db' : Db}

theorem Does.oneActive {r : Region} {result : Except AppError r.Value}
    (h : Does r db result db') (one : db.OneActive) : db'.OneActive := by
  unfold Db.OneActive Tables.activeProfiles at *
  cases h with
  | defaultInserted missing =>
    rw [Tables.activeProfiles] at missing
    rw [missing] at one
    cases one
  | profileInserted profiles =>
    rw [profiles, List.filter_append, List.length_append, one]
    simp [ProfileRow.Active, profileRow]
  | nameUpdated known profiles =>
    rw [profiles, List.filter_map, List.length_map, ← one]
    refine congrArg List.length (List.filter_congr fun row _ => ?_)
    simp only [Function.comp_apply, ProfileRow.Active]
    split <;> rfl
  | @activated _ _ profileId known present profiles =>
    rw [profiles, List.filter_map, List.length_map]
    have count := db.count_profile profileId
    rw [if_pos known] at count
    rw [← count]
    refine congrArg List.length (List.filter_congr fun row _ => ?_)
    simp only [Function.comp_apply, ProfileRow.Active]
    split <;> simp_all
  | assignmentSaved known profiles => rw [profiles, one]
  | assignmentCleared known profiles => rw [profiles, one]
  | _ => exact one

theorem Does.findsActive {r : Region} {result : Except AppError r.Value}
    (h : Does r db result db') (one : db.OneActive) : FindsActive result := by
  cases h with
  | nameNotUpdated | notActivated | assignmentNotSaved | assignmentNotCleared =>
    exact findsActive_error fun h => h
  | noneActive known missing =>
    rw [Db.OneActive, missing] at one
    cases one
  | _ => exact findsActive_ok _

/-- After the first region of `initialize` one profile is active. -/
theorem Does.default_active {profile : Profile}
    (h : Does .ensureDefaultProfile db (.ok profile) db') : db'.OneActive := by
  cases h with
  | defaultPresent active =>
    have one := db.admits.only_one_active_profile
    rw [active] at one
    rw [Db.OneActive, active]
    simpa using one
  | defaultInserted missing _ _ profiles =>
    unfold Tables.activeProfiles at missing
    rw [Db.OneActive, Tables.activeProfiles, profiles, List.filter_append, missing]
    simp [ProfileRow.Active, profileRow]

/-- Activation leaves the requested profile as the one active profile. -/
theorem Does.activated_only {profileId : ProfileId}
    (h : Does (.setActiveProfile profileId) db (.ok ()) db') :
    db'.activeProfiles.map ProfileRow.id = [.text profileId.toString] := by
  cases h with
  | activated known present profiles =>
    have ids : db'.activeProfiles.map ProfileRow.id =
        (db.profiles.filter fun row => row.id = .text profileId.toString).map ProfileRow.id := by
      rw [Tables.activeProfiles, profiles, List.filter_map, List.map_map]
      refine congrArg (List.map ProfileRow.id) (List.filter_congr fun row _ => ?_)
      simp only [Function.comp_apply, ProfileRow.Active]
      split <;> simp_all
    have count := db.count_profile profileId
    rw [if_pos known] at count
    obtain ⟨row, single⟩ := List.length_eq_one_iff.1 count
    have hr : row ∈ db.profiles.filter fun row => row.id = .text profileId.toString := by
      rw [single]
      exact List.mem_singleton_self row
    rw [ids, single, List.map_singleton, of_decide_eq_true (List.mem_filter.1 hr).2]

variable [RusqliteCrate]

theorem oneActive_exec (env : ℕ → SqlChoice) (r : Region) (one : db.OneActive) :
    (exec env r db).2.OneActive := by
  rcases outcome env r db with ⟨_, -, -, same⟩ | does
  · rw [same]
    exact one
  · exact does.oneActive one

end Region

variable [RusqliteCrate]

theorem oneActive_coreHandler (input : CoreInput) (o : CoreOp) (db : Db) (one : db.OneActive) :
    (coreHandler input o db).2.OneActive := by
  cases o with
  | lock r => exact Region.oneActive_exec _ r one
  | _ => exact one

theorem activeAnswer_coreHandler (input : CoreInput) (o : CoreOp) (db : Db) (one : db.OneActive) :
    ActiveAnswer ⟨o, (coreHandler input o db).1⟩ := by
  have handled {r : Region} {x : Except AppError r.Value}
      (h : (⟨o, (coreHandler input o db).1⟩ : Act CoreCalls) = ⟨.lock r, x⟩) :=
    outcome_of_handled h (Prod.eta _).symm
  refine ⟨fun r x h => ?_, fun profiles h => ?_, fun state h => ?_⟩
  · rcases handled h with ⟨error, -, rfl, -⟩ | does
    · exact findsActive_error fun h => h
    · exact does.findsActive one
  · rcases handled h with ⟨error, -, ⟨⟩, -⟩ | does
    generalize (coreHandler input o db).2 = db' at does
    cases does with
    | profilesListed decoded => exact db.ensure_of_decoded one decoded
  · rcases handled h with ⟨error, -, ⟨⟩, -⟩ | does
    generalize (coreHandler input o db).2 = db' at does
    cases does with
    | snapshotLoaded decoded => exact db.ensure_of_decoded one decoded

end Store

/-! ## Runs -/

section Runs

variable [UuidCrate] [UrlCrate] [RusqliteCrate]

/-- The store after `initialize` ran alone. -/
def afterInitialize (inputs : ℕ → CoreInput) (db : Db) : Except AppError Profile × Db :=
  let (result, db', _) := coreService.initializeCore.run.exec (timed coreHandler inputs) (db, 0)
  (result, db')

/-- Core starts only on a store with one active profile whose profiles can all be read. -/
theorem initialized_store {db : Db} {inputs : ℕ → CoreInput} {profile : Profile}
    (initialized : (afterInitialize inputs db).1 = .ok profile) :
    (afterInitialize inputs db).2.OneActive ∧
      ∃ profiles, (afterInitialize inputs db).2.orderedProfiles.mapM decodeProfile =
        .ok profiles := by
  suffices h : Ends (timed coreHandler inputs) coreService.initializeCore (db, 0)
      fun result s => ∀ profile, result = .ok profile → s.1.OneActive ∧
        ∃ profiles, s.1.orderedProfiles.mapM decodeProfile = .ok profiles from h profile initialized
  unfold CoreService.initializeCore
  rw [ends_bind_iff]
  refine ends_lock fun x db₁ outcome => ?_
  rcases x with error | profile
  · exact fun _ h => nomatch h
  have one : db₁.OneActive := by
    rcases outcome with ⟨_, -, ⟨⟩, -⟩ | does
    exact does.default_active
  dsimp only
  rw [ends_bind_iff]
  refine ends_lock fun x db₂ outcome => ?_
  rcases x with error | profiles
  · exact fun _ h => nomatch h
  rcases outcome with ⟨_, -, ⟨⟩, -⟩ | does
  cases does with
  | profilesListed decoded =>
    dsimp only
    rw [ends_bind_iff]
    exact ends_domain (fun _ _ _ _ => ⟨one, profiles, decoded⟩) fun _ _ _ _ =>
      ⟨one, profiles, decoded⟩

/-- What every run from the store `db₀` keeps: one profile is active in every state that the store
passes through, no job reports otherwise, and a successful activation leaves the requested profile
as the active one. -/
structure KeepsOneActive (db₀ : Db) (c : Config CoreCalls Unit CoreJob JobResult Db) : Prop where
  one_active : ∀ t ≤ c.history.length, (stateAt db₀ c.history t).OneActive
  not_denied : ∀ i f result, c.clients i = .busy f → f.rest = .pure (result, ()) →
    ∀ error, result.error? = some error → ¬ error.DeniesActive
  activated : ∀ e ∈ c.history, ∀ profileId,
    e.act = ⟨.lock (.setActiveProfile profileId), .ok ()⟩ →
      e.after.activeProfiles.map ProfileRow.id = [.text profileId.toString]

/-- Once Core has started, whatever the store held before, exactly one profile is active under any
interleaving and any faults. -/
theorem one_active_after_initialize (db : Db) (inputs : ℕ → CoreInput) (profile : Profile)
    (initialized : (afterInitialize inputs db).1 = .ok profile)
    (moves : List (Move CoreJob CoreInput)) :
    KeepsOneActive (afterInitialize inputs db).2
      (run jobs coreHandler (begin (afterInitialize inputs db).2 ()) moves) := by
  have one : (afterInitialize inputs db).2.OneActive := (initialized_store initialized).1
  have traced : Traced jobs coreHandler (afterInitialize inputs db).2
      (run jobs coreHandler (begin (afterInitialize inputs db).2 ()) moves) := traced_run _ _ _
  have keep : ∀ input o db, db.OneActive → (coreHandler input o db).2.OneActive :=
    fun input o db => oneActive_coreHandler input o db
  refine ⟨fun t ht => traced.invariant one keep ht, fun i f result hf done => ?_,
    fun e he profileId hact => ?_⟩
  · have good : ∀ input o db, db.OneActive → ActiveAnswer ⟨o, (coreHandler input o db).1⟩ :=
      fun input o db => activeAnswer_coreHandler input o db
    exact traced.finished one keep good hf (always_jobs f.job) done
  · obtain ⟨t, lt, rfl⟩ := List.getElem_of_mem he
    obtain ⟨input, linked⟩ := traced.linked t _ (List.getElem?_eq_getElem lt)
    rcases outcome_of_handled hact linked with ⟨_, -, ⟨⟩, -⟩ | does
    exact does.activated_only

end Runs

open Reference in
/-- One client creates a profile and activates it while another one presses a key. -/
theorem one_active_after_initialize_example :
    (afterInitialize calm .empty).1 = .ok ⟨⟨uuid 0⟩, "Default", true⟩ ∧
      KeepsOneActive (afterInitialize calm .empty).2
        (run jobs coreHandler (begin (afterInitialize calm .empty).2 ())
          [.start 0 (.command (.createProfile "Work")), .go 0 (calm 1), .go 0 (calm 1),
            .start 1 (.command (.virtualControlInput (.key ⟨0, by decide⟩ ⟨0, by decide⟩))),
            .start 0 (.command (.setActiveProfile ⟨uuid 1⟩)), .go 1 (calm 2), .go 0 (calm 2),
            .go 1 (calm 2)]) :=
  ⟨by decide, one_active_after_initialize .empty calm ⟨⟨uuid 0⟩, "Default", true⟩ (by decide) _⟩

end KeyroCore
