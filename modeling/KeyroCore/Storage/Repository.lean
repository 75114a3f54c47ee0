import KeyroCore.App
import KeyroCore.Storage.Encoding

/-!
# The SQLite repository

The lock regions of `SqliteProfileRepository` as programs of SQL statements, the connection that
runs them, and the repository that performs each region as one operation.  Every statement, `BEGIN`
and `COMMIT` may fail; an open transaction that is dropped is rolled back.
-/

open Effect Program

namespace KeyroCore

/-- `Display for rusqlite::Error`. -/
class RusqliteCrate where
  errorText : SqlError → String

/-! ## The connection -/

/-- What a region asks of the connection, besides drawing a UUID. -/
inductive SqlOp where
  | begin
  | statement (stmt : Stmt)
  | commit
  | dropTransaction
  | newUuid

@[reducible] def SqlOp.Ans : SqlOp → Type
  | .begin | .commit => Except SqlError Unit
  | .statement stmt => Except SqlError stmt.Result
  | .dropTransaction => Unit
  | .newUuid => Uuid

abbrev SqlCalls : Signature := ⟨SqlOp, SqlOp.Ans⟩

/-- What the environment decides at one operation: whether it fails and with which text, the UUID
it would draw, and the time. -/
structure SqlChoice where
  failure : Option String
  uuid : Uuid
  now : String

/-- The connection: the database file, the uncommitted content of an open transaction, and how many
operations have run. -/
structure SqliteConnection where
  file : Db
  transaction : Option Db
  clock : ℕ

namespace SqliteConnection

/-- The content that statements see. -/
def current (c : SqliteConnection) : Db := c.transaction.getD c.file

/-- Outside a transaction a statement commits on its own. -/
def put (c : SqliteConnection) (db : Db) : SqliteConnection :=
  match c.transaction with
  | some _ => { c with transaction := some db }
  | none => { c with file := db }

def tick (c : SqliteConnection) : SqliteConnection := { c with clock := c.clock + 1 }

section Fields

variable (file db db' : Db) (n : ℕ)

@[simp] theorem current_none : (mk file none n).current = file := rfl

@[simp] theorem current_some : (mk file (some db) n).current = db := rfl

@[simp] theorem put_none : (mk file none n).put db' = mk db' none n := rfl

@[simp] theorem put_some : (mk file (some db) n).put db' = mk file (some db') n := rfl

@[simp] theorem tick_mk (t : Option Db) : (mk file t n).tick = mk file t (n + 1) := rfl

end Fields

end SqliteConnection

def sqlite (env : ℕ → SqlChoice) : Handler SqlCalls SqliteConnection
  | .begin, c =>
    match (env c.clock).failure with
    | some text => (.error (.sqliteFailure text), c.tick)
    | none => (.ok (), { c with transaction := some c.file }.tick)
  | .statement stmt, c =>
    match (env c.clock).failure with
    | some text => (.error (.sqliteFailure text), c.tick)
    | none =>
      match c.current.eval (env c.clock).now stmt with
      | .error error => (.error error, c.tick)
      | .ok (result, db) => (.ok result, (c.put db).tick)
  | .commit, c =>
    match (env c.clock).failure with
    | some text => (.error (.sqliteFailure text), { c with transaction := none }.tick)
    | none => (.ok (), { c with file := c.current, transaction := none }.tick)
  | .dropTransaction, c => ((), { c with transaction := none }.tick)
  | .newUuid, c => ((env c.clock).uuid, c.tick)

variable [UuidCrate] [UrlCrate] [RusqliteCrate]

/-! ## Programs of statements -/

abbrev Sql := Fallible SqlCalls AppError

def toAppError (error : SqlError) : AppError := .storage (RusqliteCrate.errorText error)

/-- `.map_err(to_app_error)?` on a value at hand. -/
def orAppError {α : Type} : Except SqlError α → Sql α
  | .ok a => pure a
  | .error error => throw (toAppError error)

/-- `.map_err(to_app_error)?` on the answer of an operation. -/
def statement (stmt : Stmt) : Sql stmt.Result := do
  orAppError (← Fallible.lift (call (S := SqlCalls) (.statement stmt)))

def commit : Sql Unit := do
  orAppError (← Fallible.lift (call (S := SqlCalls) .commit))

/-- Run a body inside `connection.transaction()`, whose value is dropped when the body returns. -/
def transaction {α : Type} (body : Sql α) : Sql α := do
  orAppError (← Fallible.lift (call (S := SqlCalls) .begin))
  ExceptT.mk do
    let result ← body.run
    let _ ← call (S := SqlCalls) .dropTransaction
    return result

/-! ## Lock regions -/

def profileExists (profileId : ProfileId) : Sql Bool := do
  let rows ← statement (.selectProfile profileId.toString)
  return !rows.isEmpty

def loadActiveProfile : Sql (Option Profile) := do
  let rows ← statement .selectActiveProfile
  match rows with
  | [] => return none
  | row :: _ => return some (← orAppError (decodeProfile row))

def listProfilesLocked : Sql (List Profile) := do
  let rows ← statement .selectProfiles
  orAppError (rows.mapM decodeProfile)

/-- One round of the loop of `list_assignments_locked`: extend the assignment of the control, or
open one at the end. -/
def pushAction : List Assignment → ProfileId × ControlId × Action → List Assignment
  | [], (profileId, control, action) => [{ profileId, control, actions := [action] }]
  | existing :: rest, (profileId, control, action) =>
    if existing.profileId = profileId ∧ existing.control = control then
      { existing with actions := existing.actions ++ [action] } :: rest
    else existing :: pushAction rest (profileId, control, action)

def listAssignmentsLocked : Sql (List Assignment) := do
  let rows ← statement .selectAssignments
  let rows ← orAppError (rows.mapM decodeAssignmentRow)
  return rows.foldl pushAction []

def ensureDefaultProfileLocked : Sql Profile := do
  match ← loadActiveProfile with
  | some profile => return profile
  | none => do
    let uuid ← Fallible.lift (call (S := SqlCalls) .newUuid)
    let profile ← domain (Profile.new uuid "Default" true)
    let _ ← statement (.insertProfile profile.id.toString profile.name 1)
    return profile

def insertProfileLocked (profile : Profile) : Sql Unit := do
  let _ ← statement (.insertProfile profile.id.toString profile.name 0)

def updateProfileNameLocked (profileId : ProfileId) (name : String) : Sql Unit := do
  let updated ← statement (.updateProfileName name profileId.toString)
  if updated ≠ 1 then throw .profileNotFound

def setActiveProfileLocked (profileId : ProfileId) : Sql Unit := transaction do
  if !(← profileExists profileId) then throw .profileNotFound
  let updated ← statement .deactivateProfiles
  if updated = 0 then throw .activeProfileMissing
  let updated ← statement (.activateProfile profileId.toString)
  if updated ≠ 1 then throw .profileNotFound
  commit

/-- The insert loop of `save_assignment`, from the given position on. -/
def insertActions (identity : AssignmentIdentity) : ℕ → List Action → Sql Unit
  | _, [] => pure ()
  | position, action :: actions => do
    let (kind, url) := encodeAction action
    let _ ← statement (.insertAssignment identity position kind url)
    insertActions identity (position + 1) actions

def saveAssignmentLocked (assignment : Assignment) : Sql Unit := transaction do
  if !(← profileExists assignment.profileId) then throw .profileNotFound
  let _ ← statement (.deleteAssignment (assignmentIdentityParams assignment))
  insertActions (assignmentIdentityParams assignment) 0 assignment.actions
  commit

def clearAssignmentLocked (profileId : ProfileId) (control : ControlId) : Sql Unit := do
  if !(← profileExists profileId) then throw .profileNotFound
  let _ ← statement (.deleteAssignment (identityParams profileId control))

def loadSnapshotStateLocked : Sql SnapshotState := do
  let profiles ← listProfilesLocked
  let assignments ← listAssignmentsLocked
  return { profiles, assignments }

def findAssignmentLocked (profileId : ProfileId) (control : ControlId) :
    Sql (Option Assignment) := do
  let rows ← statement (.selectActions (identityParams profileId control))
  let actions ← orAppError (rows.mapM decodeActionRow)
  return if actions.isEmpty then none else some { profileId, control, actions }

/-- The lock regions of the repository.  `create_profile` locks for `insertProfile`, and
`rename_profile` for `listProfiles` and then for `updateProfileName`. -/
inductive Region where
  | ensureDefaultProfile
  | insertProfile (profile : Profile)
  | listProfiles
  | updateProfileName (profileId : ProfileId) (name : String)
  | setActiveProfile (profileId : ProfileId)
  | saveAssignment (assignment : Assignment)
  | clearAssignment (profileId : ProfileId) (control : ControlId)
  | loadSnapshotState
  | findAssignment (profileId : ProfileId) (control : ControlId)
  deriving DecidableEq

namespace Region

@[reducible] def Value : Region → Type
  | .ensureDefaultProfile => Profile
  | .listProfiles => List Profile
  | .insertProfile _ | .updateProfileName _ _ | .setActiveProfile _ | .saveAssignment _
  | .clearAssignment _ _ => Unit
  | .loadSnapshotState => SnapshotState
  | .findAssignment _ _ => Option Assignment

def body : (r : Region) → Sql r.Value
  | .ensureDefaultProfile => ensureDefaultProfileLocked
  | .insertProfile profile => insertProfileLocked profile
  | .listProfiles => listProfilesLocked
  | .updateProfileName profileId name => updateProfileNameLocked profileId name
  | .setActiveProfile profileId => setActiveProfileLocked profileId
  | .saveAssignment assignment => saveAssignmentLocked assignment
  | .clearAssignment profileId control => clearAssignmentLocked profileId control
  | .loadSnapshotState => loadSnapshotStateLocked
  | .findAssignment profileId control => findAssignmentLocked profileId control

/-- A region run to its end by the holder of the lock: its result and the database file. -/
def exec (env : ℕ → SqlChoice) (r : Region) (db : Db) : Except AppError r.Value × Db :=
  let (result, connection) := Program.exec (sqlite env) r.body.run ⟨db, none, 0⟩
  (result, connection.file)

/-- The database file after the first `n` operations of a region. -/
def fileAfter (env : ℕ → SqlChoice) (n : ℕ) (r : Region) (db : Db) : Db :=
  (Program.after (sqlite env) n r.body.run ⟨db, none, 0⟩).file

end Region

/-! ## The repository -/

/-- `SqliteProfileRepository`, given the operations that perform one lock region and draw a UUID. -/
def sqliteProfileRepository {S : Signature} (lock : (r : Region) → Fallible S AppError r.Value)
    (newUuid : Program S Uuid) : ProfileRepository S where
  ensureDefaultProfile := lock .ensureDefaultProfile
  createProfile name := do
    let profile ← domain (Profile.new (← Fallible.lift newUuid) name false)
    lock (.insertProfile profile)
    return profile
  listProfiles := lock .listProfiles
  renameProfile profileId name := do
    let profiles ← lock .listProfiles
    match profiles.find? fun profile => profile.id = profileId with
    | none => throw .profileNotFound
    | some profile => do
      let profile ← domain (profile.rename name)
      lock (.updateProfileName profileId profile.name)
      return profile
  setActiveProfile profileId := lock (.setActiveProfile profileId)
  saveAssignment assignment := lock (.saveAssignment assignment)
  clearAssignment profileId control := lock (.clearAssignment profileId control)
  loadSnapshotState := lock .loadSnapshotState
  findAssignment profileId control := lock (.findAssignment profileId control)

end KeyroCore
