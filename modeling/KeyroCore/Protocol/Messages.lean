import Mathlib.Data.Nat.Notation

/-!
# Protocol messages

The DTOs of `core-protocol`, its version constants and the answer to a handshake.
-/

namespace KeyroCore

def PROTOCOL_MAJOR : UInt16 := 0
def PROTOCOL_MINOR : UInt16 := 3

/-! ## Client messages -/

inductive ClientComponent where
  | studio
  deriving DecidableEq

structure ProtocolVersion where
  major : UInt16
  minor : UInt16
  deriving DecidableEq

namespace ProtocolVersion

def current : ProtocolVersion where
  major := PROTOCOL_MAJOR
  minor := PROTOCOL_MINOR

def isExactly (version other : ProtocolVersion) : Bool :=
  version.major == other.major && version.minor == other.minor

theorem isExactly_iff {version other : ProtocolVersion} :
    version.isExactly other = true ↔ version = other := by
  obtain ⟨major, minor⟩ := version
  obtain ⟨major', minor'⟩ := other
  simp [isExactly]

end ProtocolVersion

structure HandshakeMessage where
  component : ClientComponent
  componentVersion : String
  protocol : ProtocolVersion
  deriving DecidableEq

inductive EncoderOperationDto where
  | left
  | right
  | press
  deriving DecidableEq

inductive ControlDto where
  | key (page key : UInt16)
  | encoder (page encoder : UInt16) (operation : EncoderOperationDto)
  deriving DecidableEq

inductive ActionDto where
  | openUrl (url : String)
  deriving DecidableEq

structure AssignmentDto where
  profileId : String
  control : ControlDto
  action : ActionDto
  deriving DecidableEq

inductive ClientMessage where
  | handshake (message : HandshakeMessage)
  | getSnapshot
  | listProfiles
  | createProfile (name : String)
  | renameProfile (profileId name : String)
  | setActiveProfile (profileId : String)
  | saveAssignment (assignment : AssignmentDto)
  | clearAssignment (profileId : String) (control : ControlDto)
  | virtualControlInput (control : ControlDto)
  deriving DecidableEq

structure ClientEnvelope where
  requestId : String
  message : ClientMessage
  deriving DecidableEq

/-! ## Server messages -/

structure ProfileDto where
  id : String
  name : String
  isActive : Bool
  deriving DecidableEq

structure DeviceLayoutDto where
  pageCount : UInt16
  keyRows : UInt16
  keyColumns : UInt16
  encoderCount : UInt16
  deriving DecidableEq

structure SnapshotAssignmentDto where
  profileId : String
  control : ControlDto
  actions : List ActionDto
  deriving DecidableEq

inductive ActionFailureCode where
  | openUrlFailed
  | noActionAssigned
  | validationFailed
  | internal
  deriving DecidableEq

inductive ActionEventDto where
  | running (executionId profileId : String) (control : ControlDto)
  | succeeded (executionId : String)
  | failed (executionId : String) (code : ActionFailureCode) (message : String)
  deriving DecidableEq

inductive ErrorCode where
  | incompatibleProtocol
  | unknownMessage
  | validationFailed
  | notFound
  | internal
  deriving DecidableEq

structure ErrorDto where
  code : ErrorCode
  message : String
  deriving DecidableEq

inductive ServerMessage where
  | handshakeAccepted (requestId coreVersion : String) (protocol : ProtocolVersion)
  | profiles (requestId : String) (profiles : List ProfileDto)
  | profile (requestId : String) (profile : ProfileDto)
  | snapshot (requestId : String) (layout : DeviceLayoutDto) (profiles : List ProfileDto)
      (assignments : List SnapshotAssignmentDto)
  | acknowledged (requestId : String)
  | actionEvent (event : ActionEventDto)
  | error (requestId : Option String) (error : ErrorDto)
  deriving DecidableEq

/-- The request id of a reply; events have none. -/
def ServerMessage.requestId? : ServerMessage → Option (Option String)
  | .handshakeAccepted requestId _ _ | .profiles requestId _ | .profile requestId _
  | .snapshot requestId _ _ _ | .acknowledged requestId => some (some requestId)
  | .error requestId _ => some requestId
  | .actionEvent _ => none

/-- An error of `core-protocol`; `decode` carries the text of the `serde_json` error. -/
inductive ProtocolError where
  | decode (text : String)
  | emptyRequestId
  deriving DecidableEq

def ProtocolError.display : ProtocolError → String
  | .decode text => "failed to decode client protocol envelope: " ++ text
  | .emptyRequestId => "request_id cannot be empty"

def handshakeResponse (requestId : String) (protocol : ProtocolVersion) (coreVersion : String) :
    ServerMessage :=
  if protocol.isExactly ProtocolVersion.current then
    .handshakeAccepted requestId coreVersion protocol
  else
    .error (some requestId) { code := .incompatibleProtocol, message := "unsupported protocol version" }

theorem handshakeResponse_exactly {protocol : ProtocolVersion}
    (h : protocol = ProtocolVersion.current) (requestId coreVersion : String) :
    handshakeResponse requestId protocol coreVersion =
      .handshakeAccepted requestId coreVersion ProtocolVersion.current := by
  subst h
  rfl

end KeyroCore
