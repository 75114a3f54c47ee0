import Mathlib.Tactic.Tauto
import KeyroCore.Storage.Repository

/-!
# What a lock region does

`Region.Does r db result db'` says, without reference to statements, what the region `r` may return
and which content it leaves, and `Region.Fails` when it may return a storage error instead.
`Region.outcome` is the only result about the statements of a region that later modules use:
whatever the environment lets fail, a region either does this or fails and changes nothing.
-/

open Effect Program Fallible Results

namespace KeyroCore

variable [RusqliteCrate]

/-! ## Statements of the connection -/

section Rules

variable {α : Type} {env : ℕ → SqlChoice} {c : SqliteConnection}

theorem ends_orAppError {r : Except SqlError α} {Q : Except AppError α → SqliteConnection → Prop}
    (fail : ∀ error, r = .error error → Q (.error (toAppError error)) c)
    (ok : ∀ a, r = .ok a → Q (.ok a) c) : Ends (sqlite env) (orAppError r) c Q := by
  rcases r with error | a
  · exact fail _ rfl
  · exact ok a rfl

/-- The environment lets some operation fail with the text of this error. -/
def Faulty (env : ℕ → SqlChoice) (error : SqlError) : Prop :=
  ∃ n text, (env n).failure = some text ∧ error = .sqliteFailure text

/-- A statement fails and changes nothing, or has its SQL meaning. -/
theorem ends_statement {stmt : Stmt} {Q : Except AppError stmt.Result → SqliteConnection → Prop}
    (fault : ∀ error, Faulty env error → Q (.error (toAppError error)) c.tick)
    (refuse : ∀ error, c.current.eval (env c.clock).now stmt = .error error →
      Q (.error (toAppError error)) c.tick)
    (run : ∀ result db, c.current.eval (env c.clock).now stmt = .ok (result, db) →
      Q (.ok result) (c.put db).tick) : Ends (sqlite env) (statement stmt) c Q := by
  unfold statement
  rw [ends_bind_iff, ends_lift_iff, exec_call]
  simp only [sqlite]
  split
  · next text h => exact fault _ ⟨_, text, h, rfl⟩
  · split
    · next h => exact refuse _ h
    · next h => exact run _ _ h

/-- A query returns its rows. -/
theorem ends_query {stmt : Stmt} {Q : Except AppError stmt.Result → SqliteConnection → Prop}
    {rows : stmt.Result} (query : ∀ now, c.current.eval now stmt = .ok (rows, c.current))
    (fault : ∀ error, Faulty env error → Q (.error (toAppError error)) c.tick)
    (run : Q (.ok rows) (c.put c.current).tick) : Ends (sqlite env) (statement stmt) c Q := by
  refine ends_statement fault (fun error h => ?_) fun result db h => ?_
  · rw [query] at h
    cases h
  · rw [query] at h
    cases h
    exact run

/-- A transaction cannot begin, or its body runs on an uncommitted copy that is dropped after it. -/
theorem ends_transaction {body : Sql α} {Q : Except AppError α → SqliteConnection → Prop}
    (fault : ∀ error, Faulty env error → Q (.error (toAppError error)) c.tick)
    (run : Ends (sqlite env) body { c with transaction := some c.file }.tick fun r c' =>
      Q r { c' with transaction := none }.tick) : Ends (sqlite env) (transaction body) c Q := by
  unfold transaction
  rw [ends_bind_iff, ends_lift_iff, exec_call]
  simp only [sqlite]
  split
  · next text h => exact fault _ ⟨_, text, h, rfl⟩
  · rw [ends_bind_iff]
    show Q (exec _ (body.run >>= _) _).1 (exec _ (body.run >>= _) _).2
    rw [exec_bind, exec_bind]
    exact run

theorem ends_commit {Q : Except AppError Unit → SqliteConnection → Prop}
    (fault : ∀ error, Faulty env error →
      Q (.error (toAppError error)) { c with transaction := none }.tick)
    (run : Q (.ok ()) { c with file := c.current, transaction := none }.tick) :
    Ends (sqlite env) commit c Q := by
  unfold commit
  rw [ends_bind_iff, ends_lift_iff, exec_call]
  simp only [sqlite]
  split
  · next text h => exact fault _ ⟨_, text, h, rfl⟩
  · exact run

section Profiles

variable [UuidCrate]

/-- Inserting a profile adds its row, unless the UUID is taken. -/
theorem ends_insertProfile {c : SqliteConnection} {profile : Profile} {isActive : ℤ}
    {Q : Except AppError ℕ → SqliteConnection → Prop}
    (check : isActive = 0 ∨ isActive = 1 ∧ c.current.activeProfiles = [])
    (fault : ∀ error, Faulty env error → Q (.error (toAppError error)) c.tick)
    (taken : c.current.HasProfile profile.id → Q (.error (toAppError .constraintViolation)) c.tick)
    (run : ∀ db' now, db'.profiles = c.current.profiles ++ [profileRow profile isActive now] →
      db'.assignments = c.current.assignments → Q (.ok 1) (c.put db').tick) :
    Ends (sqlite env) (statement (.insertProfile profile.id.toString profile.name isActive)) c Q := by
  refine ends_statement fault (fun error h => ?_) fun count db' h => ?_
  · obtain ⟨rfl, hn⟩ := Db.change_eq_error_iff.1 h
    by_cases known : c.current.HasProfile profile.id
    · exact taken known
    · exact absurd (Db.admits_append_profile known check) hn
  · obtain ⟨rfl, ht⟩ := Db.change_eq_ok_iff.1 h
    exact run db' _ (congrArg Tables.profiles ht).symm (congrArg Tables.assignments ht).symm

theorem ends_profileExists {c : SqliteConnection} {profileId : ProfileId}
    {Q : Except AppError Bool → SqliteConnection → Prop}
    (fault : ∀ error, Faulty env error → Q (.error (toAppError error)) c.tick)
    (unknown : ¬ c.current.HasProfile profileId → Q (.ok false) (c.put c.current).tick)
    (known : c.current.HasProfile profileId → Q (.ok true) (c.put c.current).tick) :
    Ends (sqlite env) (profileExists profileId) c Q := by
  unfold profileExists
  rw [ends_bind_iff]
  refine ends_query (fun _ => rfl) fault ?_
  dsimp only
  rw [ends_pure_iff]
  by_cases h : c.current.HasProfile profileId
  · rw [List.isEmpty_eq_false_iff.2 (Db.hasProfile_iff_filter.1 h)]
    exact known h
  · rw [not_not.1 (mt Db.hasProfile_iff_filter.2 h)]
    exact unknown h

/-- After the deactivation the requested profile becomes active. -/
theorem ends_activateProfile {c : SqliteConnection} {db : Db} {profileId : ProfileId}
    {Q : Except AppError ℕ → SqliteConnection → Prop}
    (known : db.HasProfile profileId)
    (deactivated : c.current.profiles = db.profiles.map fun row =>
      { row with isActive := .integer 0 })
    (kept : c.current.assignments = db.assignments)
    (fault : ∀ error, Faulty env error → Q (.error (toAppError error)) c.tick)
    (run : ∀ db', (db'.profiles = db.profiles.map fun row =>
      { row with isActive := .integer (if row.id = .text profileId.toString then 1 else 0) }) →
      db'.assignments = db.assignments → Q (.ok 1) (c.put db').tick) :
    Ends (sqlite env) (statement (.activateProfile profileId.toString)) c Q := by
  have profiles := (congrArg (fun rows => (updateWhere (fun row => row.id = .text profileId.toString)
    (fun row : ProfileRow => { row with isActive := .integer 1 }) rows).1) deactivated).trans
      (Db.activate_deactivated profileId db.profiles)
  have still : c.current.HasProfile profileId := by
    unfold Db.HasProfile
    rw [deactivated, List.map_map]
    exact known
  refine ends_statement fault (fun error h => ?_) fun count db' h => ?_
  · have tables := congrArg₂ Tables.mk profiles kept
    exact absurd (tables ▸ db.admits_activate profileId) (Db.change_eq_error_iff.1 h).2
  · obtain ⟨hc, ht⟩ := Db.change_eq_ok_iff.1 h
    rw [updateWhere, Db.count_profile, if_pos still] at hc
    obtain rfl : 1 = count := hc
    exact run db' ((congrArg Tables.profiles ht).symm.trans profiles)
      ((congrArg Tables.assignments ht).symm.trans kept)

end Profiles

/-- `set_active_profile` deactivates every row. -/
theorem ends_deactivateProfiles {c : SqliteConnection}
    {Q : Except AppError ℕ → SqliteConnection → Prop}
    (fault : ∀ error, Faulty env error → Q (.error (toAppError error)) c.tick)
    (run : ∀ db', db'.profiles = c.current.profiles.map (fun row =>
      { row with isActive := .integer 0 }) → db'.assignments = c.current.assignments →
      Q (.ok c.current.activeProfiles.length) (c.put db').tick) :
    Ends (sqlite env) (statement .deactivateProfiles) c Q := by
  refine ends_statement fault (fun error h => ?_) fun count db' h => ?_
  · refine absurd c.current.admits_deactivate ?_
    rw [← Db.deactivate_eq]
    exact (Db.change_eq_error_iff.1 h).2
  · obtain ⟨rfl, ht⟩ := Db.change_eq_ok_iff.1 h
    exact run db' ((congrArg Tables.profiles ht).symm.trans c.current.deactivate_eq)
      (congrArg Tables.assignments ht).symm

theorem ends_deleteAssignment {c : SqliteConnection} {identity : AssignmentIdentity}
    {Q : Except AppError ℕ → SqliteConnection → Prop}
    (fault : ∀ error, Faulty env error → Q (.error (toAppError error)) c.tick)
    (run : ∀ db' count, db'.profiles = c.current.profiles →
      db'.assignments = c.current.otherAssignments identity → Q (.ok count) (c.put db').tick) :
    Ends (sqlite env) (statement (.deleteAssignment identity)) c Q := by
  refine ends_statement fault (fun error h => ?_) fun count db' h => ?_
  · exact absurd (c.current.admits.filter_assignments _) (Db.change_eq_error_iff.1 h).2
  · obtain ⟨-, ht⟩ := Db.change_eq_ok_iff.1 h
    exact run db' count (congrArg Tables.profiles ht).symm (congrArg Tables.assignments ht).symm

end Rules

/-! ## The meaning of each region -/

variable [UuidCrate] [UrlCrate]

/-- The rows that the insert loop stores, from the given position on. -/
def actionRows (identity : AssignmentIdentity) : ℕ → List Action → List AssignmentRow
  | _, [] => []
  | position, action :: actions =>
    assignmentRow identity position (encodeAction action).1 (encodeAction action).2 ::
      actionRows identity (position + 1) actions

namespace Region

/-- What a region that no storage error stops may return, and the content it leaves. -/
inductive Does : (r : Region) → Db → Except AppError r.Value → Db → Prop
  | defaultPresent {db : Db} {row : ProfileRow} {rest : List ProfileRow} {profile : Profile}
      (active : db.activeProfiles = row :: rest) (decoded : decodeProfile row = .ok profile) :
      Does .ensureDefaultProfile db (.ok profile) db
  | defaultInserted {db db' : Db} {profile : Profile} {now : String}
      (missing : db.activeProfiles = []) (isActive : profile.isActive = true)
      (name : profile.name = "Default")
      (profiles : db'.profiles = db.profiles ++ [profileRow profile 1 now])
      (assignments : db'.assignments = db.assignments) :
      Does .ensureDefaultProfile db (.ok profile) db'
  | profileInserted {db db' : Db} {profile : Profile} {now : String}
      (profiles : db'.profiles = db.profiles ++ [profileRow profile 0 now])
      (assignments : db'.assignments = db.assignments) :
      Does (.insertProfile profile) db (.ok ()) db'
  | profilesListed {db : Db} {profiles : List Profile}
      (decoded : db.orderedProfiles.mapM decodeProfile = .ok profiles) :
      Does .listProfiles db (.ok profiles) db
  | nameUpdated {db db' : Db} {profileId : ProfileId} {name : String}
      (known : db.HasProfile profileId)
      (profiles : db'.profiles = db.profiles.map fun row =>
        if row.id = .text profileId.toString then { row with name := .text name } else row)
      (assignments : db'.assignments = db.assignments) :
      Does (.updateProfileName profileId name) db (.ok ()) db'
  | nameNotUpdated {db : Db} {profileId : ProfileId} {name : String}
      (unknown : ¬ db.HasProfile profileId) :
      Does (.updateProfileName profileId name) db (.error .profileNotFound) db
  | activated {db db' : Db} {profileId : ProfileId} (known : db.HasProfile profileId)
      (present : db.activeProfiles ≠ [])
      (profiles : db'.profiles = db.profiles.map fun row =>
        { row with isActive := .integer (if row.id = .text profileId.toString then 1 else 0) })
      (assignments : db'.assignments = db.assignments) :
      Does (.setActiveProfile profileId) db (.ok ()) db'
  | notActivated {db : Db} {profileId : ProfileId} (unknown : ¬ db.HasProfile profileId) :
      Does (.setActiveProfile profileId) db (.error .profileNotFound) db
  | noneActive {db : Db} {profileId : ProfileId} (known : db.HasProfile profileId)
      (missing : db.activeProfiles = []) :
      Does (.setActiveProfile profileId) db (.error .activeProfileMissing) db
  | assignmentSaved {db db' : Db} {assignment : Assignment}
      (known : db.HasProfile assignment.profileId) (profiles : db'.profiles = db.profiles)
      (assignments : db'.assignments = db.otherAssignments (assignmentIdentityParams assignment) ++
        actionRows (assignmentIdentityParams assignment) 0 assignment.actions) :
      Does (.saveAssignment assignment) db (.ok ()) db'
  | assignmentNotSaved {db : Db} {assignment : Assignment}
      (unknown : ¬ db.HasProfile assignment.profileId) :
      Does (.saveAssignment assignment) db (.error .profileNotFound) db
  | assignmentCleared {db db' : Db} {profileId : ProfileId} {control : ControlId}
      (known : db.HasProfile profileId) (profiles : db'.profiles = db.profiles)
      (assignments : db'.assignments = db.otherAssignments (identityParams profileId control)) :
      Does (.clearAssignment profileId control) db (.ok ()) db'
  | assignmentNotCleared {db : Db} {profileId : ProfileId} {control : ControlId}
      (unknown : ¬ db.HasProfile profileId) :
      Does (.clearAssignment profileId control) db (.error .profileNotFound) db
  | snapshotLoaded {db : Db} {profiles : List Profile}
      {rows : List (ProfileId × ControlId × Action)}
      (decoded : db.orderedProfiles.mapM decodeProfile = .ok profiles)
      (decodedRows : db.orderedAssignments.mapM decodeAssignmentRow = .ok rows) :
      Does .loadSnapshotState db (.ok ⟨profiles, rows.foldl pushAction []⟩) db
  | assignmentLookedUp {db : Db} {profileId : ProfileId} {control : ControlId}
      {actions : List Action}
      (decoded : (db.actionsOf (identityParams profileId control)).mapM decodeActionRow =
        .ok actions) :
      Does (.findAssignment profileId control) db
        (.ok (if actions.isEmpty then none else some { profileId, control, actions })) db

/-- The storage errors of a region: a fault of the environment, a UUID that is taken, or stored
rows that cannot be read back. -/
inductive Fails (env : ℕ → SqlChoice) : Region → Db → SqlError → Prop
  | fault {r : Region} {db : Db} {error : SqlError} (faulty : Faulty env error) : Fails env r db error
  | defaultTaken {db : Db} {profileId : ProfileId} (missing : db.activeProfiles = [])
      (taken : db.HasProfile profileId) :
      Fails env .ensureDefaultProfile db .constraintViolation
  | idTaken {db : Db} {profile : Profile} (taken : db.HasProfile profile.id) :
      Fails env (.insertProfile profile) db .constraintViolation
  | activeUnreadable {db : Db} {row : ProfileRow} {rest : List ProfileRow} {error : SqlError}
      (active : db.activeProfiles = row :: rest) (unreadable : decodeProfile row = .error error) :
      Fails env .ensureDefaultProfile db error
  | profilesUnreadable {db : Db} {error : SqlError}
      (unreadable : db.orderedProfiles.mapM decodeProfile = .error error) :
      Fails env .listProfiles db error
  | snapshotProfilesUnreadable {db : Db} {error : SqlError}
      (unreadable : db.orderedProfiles.mapM decodeProfile = .error error) :
      Fails env .loadSnapshotState db error
  | snapshotAssignmentsUnreadable {db : Db} {error : SqlError}
      (unreadable : db.orderedAssignments.mapM decodeAssignmentRow = .error error) :
      Fails env .loadSnapshotState db error
  | actionsUnreadable {db : Db} {profileId : ProfileId} {control : ControlId} {error : SqlError}
      (unreadable : (db.actionsOf (identityParams profileId control)).mapM decodeActionRow =
        .error error) :
      Fails env (.findAssignment profileId control) db error

/-- What a region may return and leave behind. -/
def Outcome (env : ℕ → SqlChoice) (r : Region) (db : Db) (result : Except AppError r.Value)
    (db' : Db) : Prop :=
  (∃ error, Fails env r db error ∧ result = .error (toAppError error) ∧ db' = db) ∨
    Does r db result db'

theorem Outcome.fail {env : ℕ → SqlChoice} {r : Region} {db : Db} {error : SqlError}
    (h : Fails env r db error) : Outcome env r db (.error (toAppError error)) db :=
  .inl ⟨error, h, rfl, rfl⟩

end Region

/-! ## The statements of a region have its meaning -/

namespace Region

variable {env : ℕ → SqlChoice} {db : Db}

theorem outcome_of_ends {r : Region}
    (h : Ends (sqlite env) r.body ⟨db, none, 0⟩ fun result c => Outcome env r db result c.file) :
    Outcome env r db (exec env r db).1 (exec env r db).2 := h

theorem outcome_listProfiles : Outcome env .listProfiles db (exec env .listProfiles db).1
    (exec env .listProfiles db).2 := by
  refine outcome_of_ends ?_
  show Ends _ listProfilesLocked _ _
  unfold listProfilesLocked
  rw [ends_bind_iff]
  refine ends_query (fun _ => rfl) (fun _ h => .fail (.fault h)) ?_
  refine ends_orAppError (fun _ h => .fail (.profilesUnreadable h)) fun profiles h => ?_
  exact .inr (.profilesListed h)

theorem outcome_ensureDefaultProfile : Outcome env .ensureDefaultProfile db
    (exec env .ensureDefaultProfile db).1 (exec env .ensureDefaultProfile db).2 := by
  refine outcome_of_ends ?_
  show Ends _ ensureDefaultProfileLocked _ _
  unfold ensureDefaultProfileLocked loadActiveProfile
  rw [ends_bind_iff, ends_bind_iff]
  refine ends_query (fun _ => rfl) (fun _ h => .fail (.fault h)) ?_
  simp only [SqliteConnection.current_none, SqliteConnection.put_none, SqliteConnection.tick_mk]
  rcases active : db.activeProfiles with _ | ⟨row, rest⟩
  · dsimp only
    rw [ends_pure_iff]
    dsimp only
    rw [ends_lift_bind_iff, exec_call]
    obtain ⟨profile, new, isActive, name⟩ := Profile.new_default (env 1).uuid
    simp only [sqlite, SqliteConnection.tick_mk, new, domain]
    rw [ends_bind_iff, ends_pure_iff]
    dsimp only
    rw [ends_bind_iff]
    refine ends_insertProfile (.inr ⟨rfl, active⟩) (fun _ h => .fail (.fault h))
      (fun taken => .fail (.defaultTaken active taken)) fun db' now profiles assignments => ?_
    exact .inr (.defaultInserted active isActive name profiles assignments)
  · rw [ends_bind_iff]
    refine ends_orAppError (fun _ h => .fail (.activeUnreadable active h)) fun profile h => ?_
    exact .inr (.defaultPresent active h)

theorem outcome_insertProfile {profile : Profile} :
    Outcome env (.insertProfile profile) db (exec env (.insertProfile profile) db).1
      (exec env (.insertProfile profile) db).2 := by
  refine outcome_of_ends ?_
  show Ends _ (insertProfileLocked profile) _ _
  unfold insertProfileLocked
  rw [ends_bind_iff]
  refine ends_insertProfile (.inl rfl) (fun _ h => .fail (.fault h))
    (fun taken => .fail (.idTaken taken)) fun db' now profiles assignments => ?_
  exact .inr (.profileInserted profiles assignments)

theorem outcome_updateProfileName {profileId : ProfileId} {name : String} :
    Outcome env (.updateProfileName profileId name) db
      (exec env (.updateProfileName profileId name) db).1
      (exec env (.updateProfileName profileId name) db).2 := by
  refine outcome_of_ends ?_
  show Ends _ (updateProfileNameLocked profileId name) _ _
  unfold updateProfileNameLocked
  rw [ends_bind_iff]
  refine ends_statement (fun _ h => .fail (.fault h)) (fun error h => ?_) fun count db' h => ?_
  · exact absurd (db.admits_rename profileId name) (Db.change_eq_error_iff.1 h).2
  · obtain ⟨hc, ht⟩ := Db.change_eq_ok_iff.1 h
    have profiles := (congrArg Tables.profiles ht).symm
    have assignments := (congrArg Tables.assignments ht).symm
    rw [updateWhere, SqliteConnection.current_none, Db.count_profile] at hc
    dsimp only
    rw [ends_ite_iff]
    constructor
    · intro hne
      have unknown : ¬ db.HasProfile profileId := by
        intro known
        rw [if_pos known] at hc
        exact hne hc.symm
      have same : db' = db :=
        Db.ext_rows (profiles.trans (Db.updateWhere_unknown unknown _)) assignments
      rw [same, ends_throw_iff]
      exact .inr (.nameNotUpdated unknown)
    · intro heq
      have known : db.HasProfile profileId := by
        by_contra unknown
        rw [if_neg unknown] at hc
        exact heq fun one => Nat.zero_ne_one (hc.trans one)
      rw [ends_pure_iff]
      exact .inr (.nameUpdated known profiles assignments)

theorem outcome_setActiveProfile {profileId : ProfileId} :
    Outcome env (.setActiveProfile profileId) db (exec env (.setActiveProfile profileId) db).1
      (exec env (.setActiveProfile profileId) db).2 := by
  refine outcome_of_ends ?_
  show Ends _ (setActiveProfileLocked profileId) _ _
  unfold setActiveProfileLocked
  refine ends_transaction (fun _ h => .fail (.fault h)) ?_
  simp only [SqliteConnection.tick_mk]
  rw [ends_bind_iff]
  refine ends_profileExists (fun _ h => .fail (.fault h))
    (fun unknown => .inr (.notActivated unknown)) fun known => ?_
  simp only [SqliteConnection.current_some, SqliteConnection.put_some, SqliteConnection.tick_mk]
  rw [ends_ite_iff]
  refine ⟨fun h => absurd h (by decide), fun _ => ?_⟩
  rw [ends_bind_iff]
  refine ends_deactivateProfiles (fun _ h => .fail (.fault h)) fun db₁ deactivated kept => ?_
  dsimp only
  rw [ends_ite_iff, ends_throw_bind_iff]
  refine ⟨fun missing => .inr (.noneActive known (List.length_eq_zero_iff.1 missing)),
    fun present => ?_⟩
  rw [ends_bind_iff]
  refine ends_activateProfile known deactivated kept (fun _ h => .fail (.fault h))
    fun db₂ activated kept => ?_
  dsimp only
  rw [ends_ite_iff]
  refine ⟨fun h => absurd rfl h, fun _ => ends_commit (fun _ h => .fail (.fault h)) ?_⟩
  refine .inr (.activated known (fun missing => present ?_) activated kept)
  exact List.length_eq_zero_iff.2 missing

theorem outcome_clearAssignment {profileId : ProfileId} {control : ControlId} :
    Outcome env (.clearAssignment profileId control) db
      (exec env (.clearAssignment profileId control) db).1
      (exec env (.clearAssignment profileId control) db).2 := by
  refine outcome_of_ends ?_
  show Ends _ (clearAssignmentLocked profileId control) _ _
  unfold clearAssignmentLocked
  rw [ends_bind_iff]
  refine ends_profileExists (fun _ h => .fail (.fault h))
    (fun unknown => .inr (.assignmentNotCleared unknown)) fun known => ?_
  simp only [SqliteConnection.current_none, SqliteConnection.put_none, SqliteConnection.tick_mk]
  rw [ends_ite_iff]
  refine ⟨fun h => absurd h (by decide), fun _ => ?_⟩
  rw [ends_bind_iff]
  refine ends_deleteAssignment (fun _ h => .fail (.fault h)) fun db' _ profiles assignments => ?_
  exact .inr (.assignmentCleared known profiles assignments)

omit [UuidCrate] in
/-- The insert loop appends one row for each action, by induction on the actions: the rows of the
control always lie below the next position. -/
theorem ends_insertActions {identity : AssignmentIdentity} {file : Db}
    {Q : Except AppError Unit → SqliteConnection → Prop} (actions : List Action) {position n : ℕ}
    (known : .text identity.profileId ∈ db.profiles.map ProfileRow.id)
    (below : ∀ row ∈ db.assignments, row.Matches identity →
      ∃ k < position, row.actionPosition = .integer (k : ℕ))
    (fault : ∀ error db' m, Faulty env error → Q (.error (toAppError error)) ⟨file, some db', m⟩)
    (run : ∀ db' m, db'.profiles = db.profiles →
      db'.assignments = db.assignments ++ actionRows identity position actions →
      Q (.ok ()) ⟨file, some db', m⟩) :
    Ends (sqlite env) (insertActions identity position actions) ⟨file, some db, n⟩ Q := by
  induction actions generalizing db position n with
  | nil => exact run db n rfl (List.append_nil _).symm
  | cons action actions ih =>
    unfold insertActions
    rw [ends_bind_iff]
    refine ends_statement (fun error h => fault error _ _ h) (fun error h => ?_) fun _ db₁ h => ?_
    · exact absurd (Db.admits_append_assignment known below) (Db.change_eq_error_iff.1 h).2
    · obtain ⟨-, ht⟩ := Db.change_eq_ok_iff.1 h
      have profiles : db₁.profiles = db.profiles := (congrArg Tables.profiles ht).symm
      have assignments : db₁.assignments = db.assignments ++ [assignmentRow identity position
          (encodeAction action).1 (encodeAction action).2] := (congrArg Tables.assignments ht).symm
      refine ih (profiles ▸ known) (fun row hr matched => ?_) fun db₂ m hp ha => ?_
      · rw [assignments] at hr
        rcases List.mem_append.1 hr with hr | hr
        · obtain ⟨k, lt, hk⟩ := below row hr matched
          exact ⟨k, by omega, hk⟩
        · exact ⟨position, by omega, by rw [List.mem_singleton.1 hr]; rfl⟩
      · refine run db₂ m (hp.trans profiles) ?_
        rw [ha, assignments, actionRows, List.append_assoc]
        rfl

theorem outcome_saveAssignment {assignment : Assignment} :
    Outcome env (.saveAssignment assignment) db (exec env (.saveAssignment assignment) db).1
      (exec env (.saveAssignment assignment) db).2 := by
  refine outcome_of_ends ?_
  show Ends _ (saveAssignmentLocked assignment) _ _
  unfold saveAssignmentLocked
  refine ends_transaction (fun _ h => .fail (.fault h)) ?_
  simp only [SqliteConnection.tick_mk]
  rw [ends_bind_iff]
  refine ends_profileExists (fun _ h => .fail (.fault h))
    (fun unknown => .inr (.assignmentNotSaved unknown)) fun known => ?_
  simp only [SqliteConnection.current_some, SqliteConnection.put_some, SqliteConnection.tick_mk]
  rw [ends_ite_iff]
  refine ⟨fun h => absurd h (by decide), fun _ => ?_⟩
  rw [ends_bind_iff]
  refine ends_deleteAssignment (fun _ h => .fail (.fault h)) fun db₁ _ kept deleted => ?_
  simp only [SqliteConnection.put_some, SqliteConnection.tick_mk]
  rw [ends_bind_iff]
  refine ends_insertActions assignment.actions (kept ▸ known) (fun row hr matched => ?_)
    (fun error db' m h => .fail (.fault h)) fun db₂ m profiles assignments => ?_
  · rw [deleted] at hr
    exact absurd matched (by simpa using (List.mem_filter.1 hr).2)
  · refine ends_commit (fun _ h => .fail (.fault h)) ?_
    refine .inr (.assignmentSaved known (profiles.trans kept) ?_)
    show db₂.assignments = _
    rw [assignments, deleted]
    rfl

theorem outcome_loadSnapshotState : Outcome env .loadSnapshotState db
    (exec env .loadSnapshotState db).1 (exec env .loadSnapshotState db).2 := by
  refine outcome_of_ends ?_
  show Ends _ loadSnapshotStateLocked _ _
  unfold loadSnapshotStateLocked listProfilesLocked listAssignmentsLocked
  rw [ends_bind_iff, ends_bind_iff]
  refine ends_query (fun _ => rfl) (fun _ h => .fail (.fault h)) ?_
  refine ends_orAppError (fun _ h => .fail (.snapshotProfilesUnreadable h)) fun profiles h => ?_
  dsimp only
  rw [ends_bind_iff, ends_bind_iff]
  refine ends_query (fun _ => rfl) (fun _ h => .fail (.fault h)) ?_
  dsimp only
  rw [ends_bind_iff]
  refine ends_orAppError (fun _ h => .fail (.snapshotAssignmentsUnreadable h)) fun rows h' => ?_
  exact .inr (.snapshotLoaded h h')

theorem outcome_findAssignment {profileId : ProfileId} {control : ControlId} :
    Outcome env (.findAssignment profileId control) db
      (exec env (.findAssignment profileId control) db).1
      (exec env (.findAssignment profileId control) db).2 := by
  refine outcome_of_ends ?_
  show Ends _ (findAssignmentLocked profileId control) _ _
  unfold findAssignmentLocked
  rw [ends_bind_iff]
  refine ends_query (fun _ => rfl) (fun _ h => .fail (.fault h)) ?_
  dsimp only
  rw [ends_bind_iff]
  refine ends_orAppError (fun _ h => .fail (.actionsUnreadable h)) fun actions h => ?_
  exact .inr (.assignmentLookedUp h)

/-- The result and the content of every region, under any faults. -/
theorem outcome (env : ℕ → SqlChoice) (r : Region) (db : Db) :
    Outcome env r db (exec env r db).1 (exec env r db).2 := by
  cases r with
  | ensureDefaultProfile => exact outcome_ensureDefaultProfile
  | insertProfile profile => exact outcome_insertProfile
  | listProfiles => exact outcome_listProfiles
  | updateProfileName profileId name => exact outcome_updateProfileName
  | setActiveProfile profileId => exact outcome_setActiveProfile
  | saveAssignment assignment => exact outcome_saveAssignment
  | clearAssignment profileId control => exact outcome_clearAssignment
  | loadSnapshotState => exact outcome_loadSnapshotState
  | findAssignment profileId control => exact outcome_findAssignment

/-! ### Stored profiles stay readable -/

omit [RusqliteCrate]

theorem Does.readable (hp : UuidCrate.ParseInverts) {r : Region} {db db' : Db}
    {result : Except AppError r.Value} (does : Does r db result db') (h : db.Readable) :
    db'.Readable := by
  have inserted {profile : Profile} {n : ℤ} {now : String}
      (profiles : db'.profiles = db.profiles ++ [profileRow profile n now]) : db'.Readable := by
    unfold Db.Readable
    rw [profiles, List.forall_mem_append]
    refine ⟨h, fun row hr => ?_⟩
    rw [List.mem_singleton.1 hr]
    exact ⟨_, decodeProfile_profileRow hp profile n now⟩
  cases does with
  | defaultInserted _ _ _ profiles => exact inserted profiles
  | profileInserted profiles => exact inserted profiles
  | @nameUpdated _ _ profileId name _ profiles =>
    unfold Db.Readable
    rw [profiles, List.forall_mem_map]
    intro row hr
    obtain ⟨profile, read⟩ := h row hr
    obtain ⟨id, -, active⟩ := decodeProfile_ok_iff.1 read
    split
    · exact ⟨{ profile with name }, decodeProfile_ok_iff.2 ⟨id, rfl, active⟩⟩
    · exact ⟨profile, read⟩
  | activated _ _ profiles =>
    unfold Db.Readable
    rw [profiles, List.forall_mem_map]
    intro row hr
    obtain ⟨profile, read⟩ := h row hr
    obtain ⟨id, name, -⟩ := decodeProfile_ok_iff.1 read
    exact ⟨⟨profile.id, profile.name, decide (_ = 1)⟩,
      decodeProfile_ok_iff.2 ⟨id, name, _, rfl, rfl⟩⟩
  | assignmentSaved _ profiles =>
    unfold Db.Readable
    exact profiles ▸ h
  | assignmentCleared _ profiles =>
    unfold Db.Readable
    exact profiles ▸ h
  | _ => exact h

variable [RusqliteCrate] in
theorem Outcome.readable (hp : UuidCrate.ParseInverts) {env : ℕ → SqlChoice} {r : Region}
    {db db' : Db} {result : Except AppError r.Value} (outcome : Outcome env r db result db')
    (h : db.Readable) : db'.Readable := by
  rcases outcome with ⟨_, -, -, rfl⟩ | does
  · exact h
  · exact does.readable hp h

end Region

end KeyroCore
