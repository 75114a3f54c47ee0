import KeyroCore.App
import KeyroCore.Data.Results
import KeyroCore.Protocol.Messages

/-!
# Conversions between protocol messages and Core values
-/

open Results

namespace KeyroCore

inductive IpcError where
  | protocol (error : ProtocolError)
  | domain (error : DomainError)
  | handshakeRequiresSession
  | indexOutOfRange (field : String) (value : UInt16)
  deriving DecidableEq

def IpcError.display : IpcError → String
  | .protocol error => error.display
  | .domain error => error.display
  | .handshakeRequiresSession =>
      "handshake messages must be handled by the IPC session before command routing"
  | .indexOutOfRange field value =>
      field ++ " index " ++ toString value ++ " is outside the supported protocol adapter range"

variable [UuidCrate] [UrlCrate]

/-! ## From DTOs -/

/-- `?` on a domain result, through `IpcError::Domain`. -/
def orIpcError {α : Type} (result : Except DomainError α) : Except IpcError α :=
  result.mapError .domain

def u8Index (field : String) (value : UInt16) : Except IpcError UInt8 :=
  if value.toNat < 256 then .ok value.toUInt8 else .error (.indexOutOfRange field value)

def encoderOperationFromDto : EncoderOperationDto → EncoderOperation
  | .left => .left
  | .right => .right
  | .press => .press

def controlFromDto : ControlDto → Except IpcError ControlId
  | .key page key => do
      let page ← u8Index "page" page
      let key ← u8Index "key" key
      orIpcError (ControlId.newKey page key)
  | .encoder page encoder operation => do
      let page ← u8Index "page" page
      let encoder ← u8Index "encoder" encoder
      orIpcError (ControlId.newEncoder page encoder (encoderOperationFromDto operation))

def actionFromDto : ActionDto → Except IpcError Action
  | .openUrl url => return .openUrl (← orIpcError (SafeUrl.parse url))

def assignmentFromDto (assignment : AssignmentDto) : Except IpcError Assignment := do
  let profileId ← orIpcError (ProfileId.parse assignment.profileId)
  let control ← controlFromDto assignment.control
  let action ← actionFromDto assignment.action
  orIpcError (Assignment.single profileId control action)

def commandFromMessage : ClientMessage → Except IpcError CoreCommand
  | .handshake _ => .error .handshakeRequiresSession
  | .getSnapshot => .ok .getSnapshot
  | .listProfiles => .ok .listProfiles
  | .createProfile name => .ok (.createProfile name)
  | .renameProfile profileId name => do
      return .renameProfile (← orIpcError (ProfileId.parse profileId)) name
  | .setActiveProfile profileId => do
      return .setActiveProfile (← orIpcError (ProfileId.parse profileId))
  | .saveAssignment assignment => return .saveAssignment (← assignmentFromDto assignment)
  | .clearAssignment profileId control => do
      return .clearAssignment (← orIpcError (ProfileId.parse profileId)) (← controlFromDto control)
  | .virtualControlInput control => return .virtualControlInput (← controlFromDto control)

/-! ## To DTOs -/

def encoderOperationToDto : EncoderOperation → EncoderOperationDto
  | .left => .left
  | .right => .right
  | .press => .press

def controlToDto : ControlId → ControlDto
  | .key page key => .key page.get.toUInt16 key.get.toUInt16
  | .encoder page encoder operation =>
      .encoder page.get.toUInt16 encoder.get.toUInt16 (encoderOperationToDto operation)

def actionToDto : Action → ActionDto
  | .openUrl url => .openUrl url.asStr

def profileToDto (profile : Profile) : ProfileDto where
  id := profile.id.toString
  name := profile.name
  isActive := profile.isActive

def layoutToDto (layout : DeviceLayout) : DeviceLayoutDto where
  pageCount := layout.pageCount.toUInt16
  keyRows := layout.keyRows.toUInt16
  keyColumns := layout.keyColumns.toUInt16
  encoderCount := layout.encoderCount.toUInt16

def snapshotAssignmentToDto (assignment : SnapshotAssignment) : SnapshotAssignmentDto where
  profileId := assignment.profileId.toString
  control := controlToDto assignment.control
  actions := assignment.actions.map actionToDto

def responseFromCore (requestId : String) : CoreResponse → ServerMessage
  | .snapshot snapshot =>
      .snapshot requestId (layoutToDto snapshot.layout) (snapshot.profiles.map profileToDto)
        (snapshot.assignments.map snapshotAssignmentToDto)
  | .profiles profiles => .profiles requestId (profiles.map profileToDto)
  | .profile profile => .profile requestId (profileToDto profile)
  | .acknowledged => .acknowledged requestId

def actionFailureToDto : ActionFailure → ActionFailureCode
  | .openUrlFailed => .openUrlFailed

def eventFromCore : CoreEvent → ServerMessage
  | .actionRunning runId profileId control =>
      .actionEvent (.running runId.toString profileId.toString (controlToDto control))
  | .actionSucceeded runId => .actionEvent (.succeeded runId.toString)
  | .actionFailed runId failure message =>
      .actionEvent (.failed runId.toString (actionFailureToDto failure) message)

/-! ## Values survive the way to a client and back -/

omit [UuidCrate] [UrlCrate] in
theorem u8Index_toUInt16 (field : String) (value : UInt8) :
    u8Index field value.toUInt16 = .ok value := by
  unfold u8Index
  have lt : value.toNat < 256 := value.toNat_lt
  rw [if_pos (by simpa using lt)]
  exact congrArg _ (UInt8.toNat_inj.1 (by simp))

omit [UuidCrate] [UrlCrate] in
theorem controlFromDto_controlToDto (control : ControlId) :
    controlFromDto (controlToDto control) = .ok control := by
  cases control with
  | key page key =>
    unfold controlToDto controlFromDto
    dsimp only
    rw [u8Index_toUInt16, u8Index_toUInt16]
    show orIpcError (ControlId.newKey page.get key.get) = _
    rw [ControlId.newKey_get]
    rfl
  | encoder page encoder operation =>
    have read : encoderOperationFromDto (encoderOperationToDto operation) = operation := by
      cases operation <;> rfl
    unfold controlToDto controlFromDto
    dsimp only
    rw [u8Index_toUInt16, u8Index_toUInt16, read]
    show orIpcError (ControlId.newEncoder page.get encoder.get operation) = _
    rw [ControlId.newEncoder_get]
    rfl

omit [UuidCrate] in
/-- The URL of an action is parsed again. -/
theorem actionFromDto_actionToDto (action : Action) :
    actionFromDto (actionToDto action) = .ok action := by
  obtain ⟨url⟩ := action
  unfold actionToDto actionFromDto
  dsimp only
  rw [SafeUrl.parse_asStr]
  rfl

/-- A client that copies the parts of an assignment asks to save this assignment. -/
theorem assignmentFromDto_toDto (hp : UuidCrate.ParseInverts) (profileId : ProfileId)
    (control : ControlId) (action : Action) : assignmentFromDto
      { profileId := profileId.toString, control := controlToDto control
        action := actionToDto action } = .ok { profileId, control, actions := [action] } := by
  unfold assignmentFromDto
  dsimp only
  rw [ProfileId.parse_toString hp, controlFromDto_controlToDto, actionFromDto_actionToDto]
  rfl

omit [UuidCrate] in
/-- The URL of an action is the text of its DTO. -/
theorem actionFromDto_ok_iff {dto : ActionDto} {action : Action} :
    actionFromDto dto = .ok action ↔ ∃ url, action = .openUrl url ∧ dto = .openUrl url.asStr := by
  constructor
  · obtain ⟨text⟩ := dto
    intro h
    obtain ⟨url, parsed, same⟩ := bind_ok_iff.1 h
    cases same
    exact ⟨url, rfl, congrArg _ (SafeUrl.asStr_of_parse (mapError_ok_iff.1 parsed)).symm⟩
  · rintro ⟨url, rfl, rfl⟩
    exact actionFromDto_actionToDto (.openUrl url)

/-- An assignment that is asked for has one action. -/
theorem assignmentFromDto_ok_iff {dto : AssignmentDto} {a : Assignment} :
    assignmentFromDto dto = .ok a ↔ ProfileId.parse dto.profileId = .ok a.profileId ∧
      controlFromDto dto.control = .ok a.control ∧
        ∃ action, actionFromDto dto.action = .ok action ∧ a.actions = [action] := by
  obtain ⟨profileId, control, actions⟩ := a
  unfold assignmentFromDto orIpcError
  simp only [bind_ok_iff, mapError_ok_iff, Assignment.single, Except.ok.injEq, Assignment.mk.injEq]
  constructor
  · rintro ⟨_, id, _, read, action, converted, rfl, rfl, rfl⟩
    exact ⟨id, read, action, converted, rfl⟩
  · rintro ⟨id, read, action, converted, rfl⟩
    exact ⟨_, id, _, read, action, converted, rfl, rfl, rfl⟩

theorem assignmentFromDto_of_command {message : ClientMessage} {a : Assignment}
    (h : commandFromMessage message = .ok (.saveAssignment a)) :
    ∃ dto, message = .saveAssignment dto ∧ assignmentFromDto dto = .ok a := by
  cases message with
  | saveAssignment dto =>
    obtain ⟨a', read, same⟩ := bind_ok_iff.1 h
    cases same
    exact ⟨dto, rfl, read⟩
  | handshake | getSnapshot | listProfiles | createProfile => cases h
  | renameProfile | setActiveProfile | virtualControlInput =>
    obtain ⟨_, -, same⟩ := bind_ok_iff.1 h
    cases same
  | clearAssignment =>
    obtain ⟨_, -, rest⟩ := bind_ok_iff.1 h
    obtain ⟨_, -, same⟩ := bind_ok_iff.1 rest
    cases same

/-! ## Errors -/

def ProtocolError.code : ProtocolError → ErrorCode
  | .decode _ => .unknownMessage
  | .emptyRequestId => .validationFailed

def protocolErrorMessage (requestId : Option String) (error : ProtocolError) : ServerMessage :=
  .error requestId { code := error.code, message := error.display }

def ipcErrorMessage (requestId : Option String) (error : IpcError) : ServerMessage :=
  let code := match error with
    | .protocol error => error.code
    | .domain _ | .indexOutOfRange _ _ => .validationFailed
    | .handshakeRequiresSession => .validationFailed
  .error requestId { code, message := error.display }

def errorMessage (requestId : Option String) (error : AppError) : ServerMessage :=
  let (code, message) := match error with
    | .domain _ | .activeProfileMissing | .assignmentNotFound | .assignmentHasNoAction =>
        (ErrorCode.validationFailed, "validation failed")
    | .profileNotFound => (ErrorCode.notFound, "profile not found")
    | .openUrl _ | .storage _ | .eventSink _ => (ErrorCode.internal, "command failed")
  .error requestId { code, message }

end KeyroCore
