import KeyroCore.Data.Serde
import KeyroCore.Domain
import KeyroCore.Protocol.Messages

/-!
# Decoding client lines

The derived decoders of the client DTOs and `decode_client_envelope`.  The `type` of a message is
read while the text is parsed, everything below it from a buffered value.
-/

namespace KeyroCore

/-- `serde_json`: the JSON value of a text, and the text of the error that decoding it reports. -/
class SerdeJson where
  parse : String → Option Json
  errorText : String → String

/-! ## DTOs -/

def ClientComponent.deserialize (json : Json) : Option ClientComponent := do
  let "studio" ← Serde.unitVariant ["studio"] json | none
  return .studio

def ProtocolVersion.deserialize (json : Json) : Option ProtocolVersion := do
  let [major, minor] ← Serde.fields ["major", "minor"] json | none
  return { major := ← Serde.u16 major, minor := ← Serde.u16 minor }

def HandshakeMessage.deserialize (json : Json) : Option HandshakeMessage := do
  let [component, componentVersion, protocol] ←
    Serde.fields ["component", "component_version", "protocol"] json | none
  return { component := ← ClientComponent.deserialize component
           componentVersion := ← Serde.string componentVersion
           protocol := ← ProtocolVersion.deserialize protocol }

def EncoderOperationDto.deserialize (json : Json) : Option EncoderOperationDto := do
  match ← Serde.unitVariant ["left", "right", "press"] json with
  | "left" => return .left
  | "right" => return .right
  | "press" => return .press
  | _ => none

def ControlDto.deserialize (json : Json) : Option ControlDto := do
  let (kind, content) ← Serde.tagged "kind" (Serde.bufferedVariant ["key", "encoder"]) json
  match kind with
  | "key" => do
      let [pageIndex, keyIndex] ← Serde.fields ["page", "key"] content | none
      return .key (← Serde.u16 pageIndex) (← Serde.u16 keyIndex)
  | "encoder" => do
      let [pageIndex, encoderIndex, operation] ←
        Serde.fields ["page", "encoder", "operation"] content | none
      return .encoder (← Serde.u16 pageIndex) (← Serde.u16 encoderIndex)
        (← EncoderOperationDto.deserialize operation)
  | _ => none

def ActionDto.deserialize (json : Json) : Option ActionDto := do
  let (kind, content) ← Serde.tagged "kind" (Serde.bufferedVariant ["open_url"]) json
  match kind with
  | "open_url" => do
      let [url] ← Serde.fields ["url"] content | none
      return .openUrl (← Serde.string url)
  | _ => none

def AssignmentDto.deserialize (json : Json) : Option AssignmentDto := do
  let [profileId, control, action] ←
    Serde.fields ["profile_id", "control", "action"] json | none
  return { profileId := ← Serde.string profileId
           control := ← ControlDto.deserialize control
           action := ← ActionDto.deserialize action }

def messageTypes : List String :=
  ["handshake", "get_snapshot", "list_profiles", "create_profile", "rename_profile",
    "set_active_profile", "save_assignment", "clear_assignment", "virtual_control_input"]

/-- A variant of `ClientMessage` from the rest of its value. -/
def ClientMessage.deserializeVariant (type : String) (content : Json) : Option ClientMessage := do
  match type with
  | "handshake" => return .handshake (← HandshakeMessage.deserialize content)
  | "get_snapshot" => do
      let [] ← Serde.fields [] content | none
      return .getSnapshot
  | "list_profiles" => do
      let [] ← Serde.fields [] content | none
      return .listProfiles
  | "create_profile" => do
      let [name] ← Serde.fields ["name"] content | none
      return .createProfile (← Serde.string name)
  | "rename_profile" => do
      let [profileId, name] ← Serde.fields ["profile_id", "name"] content | none
      return .renameProfile (← Serde.string profileId) (← Serde.string name)
  | "set_active_profile" => do
      let [profileId] ← Serde.fields ["profile_id"] content | none
      return .setActiveProfile (← Serde.string profileId)
  | "save_assignment" => do
      let [assignment] ← Serde.fields ["assignment"] content | none
      return .saveAssignment (← AssignmentDto.deserialize assignment)
  | "clear_assignment" => do
      let [profileId, control] ← Serde.fields ["profile_id", "control"] content | none
      return .clearAssignment (← Serde.string profileId) (← ControlDto.deserialize control)
  | "virtual_control_input" => do
      let [control] ← Serde.fields ["control"] content | none
      return .virtualControlInput (← ControlDto.deserialize control)
  | _ => none

def ClientMessage.deserialize (json : Json) : Option ClientMessage := do
  let (type, content) ← Serde.tagged "type" (Serde.variant messageTypes) json
  ClientMessage.deserializeVariant type content

def ClientEnvelope.deserialize (json : Json) : Option ClientEnvelope := do
  let [requestId, message] ← Serde.fields ["request_id", "message"] json | none
  return { requestId := ← Serde.string requestId, message := ← ClientMessage.deserialize message }

/-! ## Lines -/

variable [SerdeJson]

def decodeClientEnvelope (line : String) : Except ProtocolError ClientEnvelope :=
  match (SerdeJson.parse line).bind ClientEnvelope.deserialize with
  | none => .error (.decode (SerdeJson.errorText line))
  | some envelope => if isBlank envelope.requestId then .error .emptyRequestId else .ok envelope

theorem decodeClientEnvelope_ok_iff {line : String} {envelope : ClientEnvelope} :
    decodeClientEnvelope line = .ok envelope ↔ isBlank envelope.requestId = false ∧
      ∃ json, SerdeJson.parse line = some json ∧
        ClientEnvelope.deserialize json = some envelope := by
  unfold decodeClientEnvelope
  constructor
  · intro h
    rcases decoded : (SerdeJson.parse line).bind ClientEnvelope.deserialize with _ | envelope'
    · rw [decoded] at h
      cases h
    · rw [decoded] at h
      obtain ⟨json, parsed, deserialized⟩ := Option.bind_eq_some_iff.1 decoded
      dsimp only at h
      split_ifs at h with blank
      cases h
      exact ⟨by simpa using blank, json, parsed, deserialized⟩
  · rintro ⟨blank, json, parsed, deserialized⟩
    rw [parsed, Option.bind_some, deserialized]
    dsimp only
    rw [blank]
    rfl

end KeyroCore
