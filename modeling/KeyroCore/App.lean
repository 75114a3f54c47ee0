import KeyroCore.Effect.Program
import KeyroCore.Domain

/-!
# Application service

`CoreService` and the three traits it is generic over.  A trait is a structure of programs over an
arbitrary effect signature, so the same service runs over any repository, opener and event sink.
-/

open Effect

namespace KeyroCore

structure ActionRunId where
  uuid : Uuid
  deriving DecidableEq

def ActionRunId.toString [UuidCrate] (id : ActionRunId) : String := UuidCrate.display id.uuid

inductive ActionFailure where
  | openUrlFailed
  deriving DecidableEq

inductive CoreEvent where
  | actionRunning (runId : ActionRunId) (profileId : ProfileId) (control : ControlId)
  | actionSucceeded (runId : ActionRunId)
  | actionFailed (runId : ActionRunId) (failure : ActionFailure) (message : String)
  deriving DecidableEq

structure OpenUrlError where
  message : String
  deriving DecidableEq

inductive AppError where
  | domain (error : DomainError)
  | openUrl (error : OpenUrlError)
  | storage (text : String)
  | eventSink (text : String)
  | activeProfileMissing
  | profileNotFound
  | assignmentNotFound
  | assignmentHasNoAction
  deriving DecidableEq

def AppError.display : AppError → String
  | .domain error => error.display
  | .openUrl error => error.message
  | .storage text => "storage error: " ++ text
  | .eventSink text => "event sink error: " ++ text
  | .activeProfileMissing => "active profile is missing"
  | .profileNotFound => "profile was not found"
  | .assignmentNotFound => "assignment was not found for the active profile and control"
  | .assignmentHasNoAction => "assignment has no action"

structure DeviceLayout where
  pageCount : UInt8
  keyRows : UInt8
  keyColumns : UInt8
  encoderCount : UInt8
  deriving DecidableEq

def MVP_DEVICE_LAYOUT : DeviceLayout where
  pageCount := PAGE_COUNT
  keyRows := KEY_ROWS
  keyColumns := KEY_COLUMNS
  encoderCount := ENCODERS_PER_PAGE

/-- `?` on a domain result, through `AppError::Domain`. -/
def domain {S : Signature} {α : Type} : Except DomainError α → Fallible S AppError α
  | .ok a => pure a
  | .error error => throw (.domain error)

theorem ends_domain {S : Signature} {α σ : Type} {h : Handler S σ} {s : σ}
    {r : Except DomainError α} {Q : Except AppError α → σ → Prop}
    (fail : ∀ error, r = .error error → Q (.error (.domain error)) s)
    (ok : ∀ a, r = .ok a → Q (.ok a) s) : Fallible.Ends h (domain r) s Q := by
  rcases r with error | a
  · exact fail error rfl
  · exact ok a rfl

theorem assures_domain {S : Signature} {α : Type} {G : Act S → Prop} {r : Except DomainError α}
    {R : Except AppError α → Prop} (fail : ∀ error, r = .error error → R (.error (.domain error)))
    (ok : ∀ a, r = .ok a → R (.ok a)) : Fallible.Assures G (domain r) R := by
  rcases r with error | a
  · exact fail error rfl
  · exact ok a rfl

variable [UrlCrate]

inductive CoreCommand where
  | getSnapshot
  | listProfiles
  | createProfile (name : String)
  | renameProfile (profileId : ProfileId) (name : String)
  | setActiveProfile (profileId : ProfileId)
  | saveAssignment (assignment : Assignment)
  | clearAssignment (profileId : ProfileId) (control : ControlId)
  | virtualControlInput (control : ControlId)
  deriving DecidableEq

structure SnapshotAssignment where
  profileId : ProfileId
  control : ControlId
  actions : List Action
  deriving DecidableEq

structure SnapshotState where
  profiles : List Profile
  assignments : List Assignment
  deriving DecidableEq

structure CoreSnapshot where
  layout : DeviceLayout
  profiles : List Profile
  assignments : List SnapshotAssignment
  deriving DecidableEq

inductive CoreResponse where
  | snapshot (snapshot : CoreSnapshot)
  | profiles (profiles : List Profile)
  | profile (profile : Profile)
  | acknowledged
  deriving DecidableEq

/-! ## Traits -/

structure ProfileRepository (S : Signature) where
  ensureDefaultProfile : Fallible S AppError Profile
  createProfile (name : String) : Fallible S AppError Profile
  listProfiles : Fallible S AppError (List Profile)
  renameProfile (profileId : ProfileId) (name : String) : Fallible S AppError Profile
  setActiveProfile (profileId : ProfileId) : Fallible S AppError Unit
  saveAssignment (assignment : Assignment) : Fallible S AppError Unit
  clearAssignment (profileId : ProfileId) (control : ControlId) : Fallible S AppError Unit
  loadSnapshotState : Fallible S AppError SnapshotState
  findAssignment (profileId : ProfileId) (control : ControlId) :
    Fallible S AppError (Option Assignment)

structure EventSink (S : Signature) where
  emit (event : CoreEvent) : Fallible S AppError Unit

structure UrlOpener (S : Signature) where
  openUrl (url : SafeUrl) : Program S (Except OpenUrlError Unit)

/-- One call of a repository method. -/
inductive RepositoryCall where
  | ensureDefaultProfile
  | createProfile (name : String)
  | listProfiles
  | renameProfile (profileId : ProfileId) (name : String)
  | setActiveProfile (profileId : ProfileId)
  | saveAssignment (assignment : Assignment)
  | clearAssignment (profileId : ProfileId) (control : ControlId)
  | loadSnapshotState
  | findAssignment (profileId : ProfileId) (control : ControlId)
  deriving DecidableEq

@[reducible] def RepositoryCall.Value : RepositoryCall → Type
  | .ensureDefaultProfile | .createProfile _ | .renameProfile _ _ => Profile
  | .listProfiles => List Profile
  | .setActiveProfile _ | .saveAssignment _ | .clearAssignment _ _ => Unit
  | .loadSnapshotState => SnapshotState
  | .findAssignment _ _ => Option Assignment

def ProfileRepository.perform {S : Signature} (repository : ProfileRepository S) :
    (call : RepositoryCall) → Fallible S AppError call.Value
  | .ensureDefaultProfile => repository.ensureDefaultProfile
  | .createProfile name => repository.createProfile name
  | .listProfiles => repository.listProfiles
  | .renameProfile profileId name => repository.renameProfile profileId name
  | .setActiveProfile profileId => repository.setActiveProfile profileId
  | .saveAssignment assignment => repository.saveAssignment assignment
  | .clearAssignment profileId control => repository.clearAssignment profileId control
  | .loadSnapshotState => repository.loadSnapshotState
  | .findAssignment profileId control => repository.findAssignment profileId control

/-! ## The service -/

/-- `CoreService`; `newUuid` is the program that draws a fresh UUID. -/
structure CoreService (S : Signature) where
  repository : ProfileRepository S
  urlOpener : UrlOpener S
  eventSink : EventSink S
  newUuid : Program S Uuid

namespace CoreService

variable {S : Signature} (service : CoreService S)

/-- `CoreService::initialize`. -/
def initializeCore : Fallible S AppError Profile := do
  let profile ← service.repository.ensureDefaultProfile
  let profiles ← service.repository.listProfiles
  domain (ensureExactlyOneActive profiles)
  return profile

def activeProfile : Fallible S AppError Profile := do
  let profiles ← service.repository.listProfiles
  domain (ensureExactlyOneActive profiles)
  match profiles.find? fun profile => profile.isActive with
  | some profile => return profile
  | none => throw .activeProfileMissing

/-- The last part of `route_virtual_control`: the events and the opening of one action. -/
def runAction (profile : Profile) (control : ControlId) (action : Action) :
    Fallible S AppError Unit := do
  let runId : ActionRunId := ⟨← Fallible.lift service.newUuid⟩
  service.eventSink.emit (.actionRunning runId profile.id control)
  let result ← match action with
    | .openUrl url => Fallible.lift (service.urlOpener.openUrl url)
  match result with
  | .ok () => service.eventSink.emit (.actionSucceeded runId)
  | .error error => do
      service.eventSink.emit (.actionFailed runId .openUrlFailed error.message)
      throw (.openUrl error)

def routeVirtualControl (control : ControlId) : Fallible S AppError Unit := do
  let profile ← service.activeProfile
  match ← service.repository.findAssignment profile.id control with
  | none => throw .assignmentNotFound
  | some assignment =>
    match assignment.firstAction with
    | none => throw .assignmentHasNoAction
    | some action => service.runAction profile control action

def handleCommand : CoreCommand → Fallible S AppError CoreResponse
  | .getSnapshot => do
      let state ← service.repository.loadSnapshotState
      domain (ensureExactlyOneActive state.profiles)
      let assignments := state.assignments.map fun assignment =>
        { profileId := assignment.profileId, control := assignment.control,
          actions := assignment.actions }
      return .snapshot { layout := MVP_DEVICE_LAYOUT, profiles := state.profiles, assignments }
  | .listProfiles => do
      let profiles ← service.repository.listProfiles
      domain (ensureExactlyOneActive profiles)
      return .profiles profiles
  | .createProfile name => do
      let profile ← service.repository.createProfile name
      return .profile profile
  | .renameProfile profileId name => do
      let profile ← service.repository.renameProfile profileId name
      return .profile profile
  | .setActiveProfile profileId => do
      service.repository.setActiveProfile profileId
      return .acknowledged
  | .saveAssignment assignment => do
      service.repository.saveAssignment assignment
      return .acknowledged
  | .clearAssignment profileId control => do
      service.repository.clearAssignment profileId control
      return .acknowledged
  | .virtualControlInput control => do
      service.routeVirtualControl control
      return .acknowledged

end CoreService

end KeyroCore
