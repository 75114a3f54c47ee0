import KeyroCore.Storage.Repository

/-!
# The in-memory repository

`MemoryRepository`, the store under the tests of the application service, and services that record
the events they emit and the URLs they open.  The same recording service runs over either store.
-/

open Effect Program

namespace KeyroCore

variable [UrlCrate]

/-! ## The store -/

structure MemoryRepository where
  profiles : List Profile
  assignments : List Assignment
  deriving DecidableEq

namespace MemoryRepository

def new : MemoryRepository where
  profiles := []
  assignments := []

def ensureDefaultProfile (uuid : Uuid) (m : MemoryRepository) :
    Except AppError Profile × MemoryRepository :=
  match m.profiles.find? fun profile => profile.isActive with
  | some profile => (.ok profile, m)
  | none =>
    match Profile.new uuid "Default" true with
    | .error error => (.error (.domain error), m)
    | .ok profile => (.ok profile, { m with profiles := m.profiles ++ [profile] })

def createProfile (uuid : Uuid) (name : String) (m : MemoryRepository) :
    Except AppError Profile × MemoryRepository :=
  match Profile.new uuid name false with
  | .error error => (.error (.domain error), m)
  | .ok profile => (.ok profile, { m with profiles := m.profiles ++ [profile] })

/-- `rename_profile` changes the first profile with the id in place. -/
def renameProfile (profileId : ProfileId) (name : String) (m : MemoryRepository) :
    Except AppError Profile × MemoryRepository :=
  match m.profiles.find? fun profile => profile.id = profileId with
  | none => (.error .profileNotFound, m)
  | some profile =>
    match profile.rename name with
    | .error error => (.error (.domain error), m)
    | .ok renamed =>
      (.ok renamed, { m with profiles := m.profiles.replaceF fun profile =>
        if profile.id = profileId then some renamed else none })

/-- The check that opens `set_active_profile`, `save_assignment` and `clear_assignment`. -/
def knows (profileId : ProfileId) (m : MemoryRepository) : Bool :=
  m.profiles.any fun profile => profile.id = profileId

def setActiveProfile (profileId : ProfileId) (m : MemoryRepository) :
    Except AppError Unit × MemoryRepository :=
  if !m.knows profileId then (.error .profileNotFound, m)
  else (.ok (), { m with profiles := m.profiles.map fun profile =>
    { profile with isActive := profile.id = profileId } })

/-- The assignments of the other controls. -/
def others (profileId : ProfileId) (control : ControlId) (m : MemoryRepository) : List Assignment :=
  m.assignments.filter fun candidate =>
    !(candidate.profileId = profileId ∧ candidate.control = control)

def saveAssignment (assignment : Assignment) (m : MemoryRepository) :
    Except AppError Unit × MemoryRepository :=
  if !m.knows assignment.profileId then (.error .profileNotFound, m)
  else (.ok (), { m with
    assignments := m.others assignment.profileId assignment.control ++ [assignment] })

def clearAssignment (profileId : ProfileId) (control : ControlId) (m : MemoryRepository) :
    Except AppError Unit × MemoryRepository :=
  if !m.knows profileId then (.error .profileNotFound, m)
  else (.ok (), { m with assignments := m.others profileId control })

def findAssignment (profileId : ProfileId) (control : ControlId) (m : MemoryRepository) :
    Except AppError (Option Assignment) × MemoryRepository :=
  (.ok (m.assignments.find? fun assignment =>
    assignment.profileId = profileId ∧ assignment.control = control), m)

/-- One call, which draws `uuid` if it needs a fresh one. -/
def perform (uuid : Uuid) (m : MemoryRepository) :
    (call : RepositoryCall) → Except AppError call.Value × MemoryRepository
  | .ensureDefaultProfile => m.ensureDefaultProfile uuid
  | .createProfile name => m.createProfile uuid name
  | .listProfiles => (.ok m.profiles, m)
  | .renameProfile profileId name => m.renameProfile profileId name
  | .setActiveProfile profileId => m.setActiveProfile profileId
  | .saveAssignment assignment => m.saveAssignment assignment
  | .clearAssignment profileId control => m.clearAssignment profileId control
  | .loadSnapshotState => (.ok { profiles := m.profiles, assignments := m.assignments }, m)
  | .findAssignment profileId control => m.findAssignment profileId control

end MemoryRepository

/-! ## Recording services -/

/-- The operations of a service over a store with these operations. -/
inductive ServiceOp (Store : Signature) where
  | store (o : Store.Op)
  | newUuid
  | openUrl (url : SafeUrl)
  | emit (event : CoreEvent)

@[reducible] def ServiceOp.Ans {Store : Signature} : ServiceOp Store → Type
  | .store o => Store.Ans o
  | .newUuid => Uuid
  | .openUrl _ => Except OpenUrlError Unit
  | .emit _ => Except AppError Unit

abbrev ServiceCalls (Store : Signature) : Signature := ⟨ServiceOp Store, ServiceOp.Ans⟩

/-- `RecordingOpener` and `RecordingEvents` next to a store. -/
structure Recorded (σ : Type) where
  store : σ
  opened : List String
  events : List CoreEvent
  deriving DecidableEq

/-- What the environment decides while one command runs: the id that is drawn, whether a URL opens,
whether the `n`-th event is emitted, and the time of each statement. -/
structure StepInput where
  fresh : Uuid
  opened : SafeUrl → Except OpenUrlError Unit
  emitted : ℕ → Except AppError Unit
  now : ℕ → String

/-- Perform the operations of a service and record what they show outside. -/
def recording {Store : Signature} {σ : Type} (store : StepInput → Handler Store σ)
    (input : StepInput) : Handler (ServiceCalls Store) (Recorded σ)
  | .store o, s => ((store input o s.store).1, { s with store := (store input o s.store).2 })
  | .newUuid, s => (input.fresh, s)
  | .openUrl url, s => (input.opened url, { s with opened := s.opened ++ [url.asStr] })
  | .emit event, s => (input.emitted s.events.length, { s with events := s.events ++ [event] })

section Service

variable {Store : Signature}

def recordingService (repository : ProfileRepository (ServiceCalls Store)) :
    CoreService (ServiceCalls Store) where
  repository := repository
  urlOpener := { openUrl := fun url => call (S := ServiceCalls Store) (.openUrl url) }
  eventSink := { emit := fun event => ExceptT.mk (call (S := ServiceCalls Store) (.emit event)) }
  newUuid := call (S := ServiceCalls Store) .newUuid

structure Step extends StepInput where
  command : CoreCommand

/-- Commands one after the other: their results, and what is left and recorded. -/
def runSteps {σ : Type} (service : CoreService (ServiceCalls Store))
    (store : StepInput → Handler Store σ) :
    List Step → Recorded σ → List (Except AppError CoreResponse) × Recorded σ
  | [], s => ([], s)
  | step :: steps, s =>
    let (result, s) := (service.handleCommand step.command).run.exec
      (recording store step.toStepInput) s
    let (results, s) := runSteps service store steps s
    (result :: results, s)

/-- `initialize` on an empty store, and then commands. -/
def runService {σ : Type} (service : CoreService (ServiceCalls Store))
    (store : StepInput → Handler Store σ) (empty : σ) (initial : StepInput) (steps : List Step) :
    Except AppError Profile × List (Except AppError CoreResponse) × Recorded σ :=
  let (started, s) := service.initializeCore.run.exec (recording store initial)
    { store := empty, opened := [], events := [] }
  (started, runSteps service store steps s)

theorem runService_eq {σ : Type} (service : CoreService (ServiceCalls Store))
    (store : StepInput → Handler Store σ) (empty : σ) (initial : StepInput) (steps : List Step) :
    runService service store empty initial steps =
      ((service.initializeCore.run.exec (recording store initial) ⟨empty, [], []⟩).1,
        runSteps service store steps
          (service.initializeCore.run.exec (recording store initial) ⟨empty, [], []⟩).2) := rfl

end Service

/-! ## The two services -/

abbrev MemoryCalls : Signature := ⟨RepositoryCall, fun call => Except AppError call.Value⟩

def memoryStore (input : StepInput) : Handler MemoryCalls MemoryRepository := fun call m =>
  m.perform input.fresh call

def memoryService : CoreService (ServiceCalls MemoryCalls) :=
  let perform (c : RepositoryCall) : Fallible (ServiceCalls MemoryCalls) AppError c.Value :=
    ExceptT.mk (call (S := ServiceCalls MemoryCalls) (.store c))
  recordingService
    { ensureDefaultProfile := perform .ensureDefaultProfile
      createProfile := fun name => perform (.createProfile name)
      listProfiles := perform .listProfiles
      renameProfile := fun profileId name => perform (.renameProfile profileId name)
      setActiveProfile := fun profileId => perform (.setActiveProfile profileId)
      saveAssignment := fun assignment => perform (.saveAssignment assignment)
      clearAssignment := fun profileId control => perform (.clearAssignment profileId control)
      loadSnapshotState := perform .loadSnapshotState
      findAssignment := fun profileId control => perform (.findAssignment profileId control) }

section Sqlite

variable [UuidCrate] [RusqliteCrate]

abbrev RegionCalls : Signature := ⟨Region, fun r => Except AppError r.Value⟩

/-- A connection whose statements do not fail. -/
def sqliteStore (input : StepInput) : Handler RegionCalls Db := fun r db =>
  r.exec (fun n => { failure := none, uuid := input.fresh, now := input.now n }) db

def sqliteService : CoreService (ServiceCalls RegionCalls) :=
  recordingService (sqliteProfileRepository
    (fun r => ExceptT.mk (call (S := ServiceCalls RegionCalls) (.store r)))
    (call (S := ServiceCalls RegionCalls) .newUuid))

end Sqlite

end KeyroCore
