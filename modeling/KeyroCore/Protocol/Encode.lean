import KeyroCore.Protocol.Decode

/-!
# Encoding messages

The derived encoders of the DTOs, and the derived decoders of what the server sends, which Studio
uses.  Each decoder reads back what its encoder writes.
-/

namespace KeyroCore

/-! ## Values of both directions -/

def ProtocolVersion.serialize (version : ProtocolVersion) : Json :=
  .object [("major", Serde.ofU16 version.major), ("minor", Serde.ofU16 version.minor)]

def EncoderOperationDto.serialize : EncoderOperationDto → Json
  | .left => .string "left"
  | .right => .string "right"
  | .press => .string "press"

def ControlDto.serialize : ControlDto → Json
  | .key pageIndex keyIndex =>
    Serde.ofTagged "kind" "key" [("page", Serde.ofU16 pageIndex), ("key", Serde.ofU16 keyIndex)]
  | .encoder pageIndex encoderIndex operation =>
    Serde.ofTagged "kind" "encoder" [("page", Serde.ofU16 pageIndex),
      ("encoder", Serde.ofU16 encoderIndex), ("operation", operation.serialize)]

def ActionDto.serialize : ActionDto → Json
  | .openUrl url => Serde.ofTagged "kind" "open_url" [("url", .string url)]

/-- The decoded members are kept apart from their encoded numbers, which are large terms. -/
theorem ProtocolVersion.deserialize_object {x y : Json} {major minor : UInt16}
    (hx : Serde.u16 x = some major) (hy : Serde.u16 y = some minor) :
    ProtocolVersion.deserialize (.object [("major", x), ("minor", y)]) = some ⟨major, minor⟩ := by
  have read : Serde.fields ["major", "minor"] (.object [("major", x), ("minor", y)]) = some [x, y] :=
    Serde.fields_object ["major", "minor"] [x, y] (by decide) rfl
  simp [deserialize, read, hx, hy]

@[simp] theorem ProtocolVersion.deserialize_serialize (version : ProtocolVersion) :
    ProtocolVersion.deserialize version.serialize = some version :=
  deserialize_object (Serde.u16_ofU16 _) (Serde.u16_ofU16 _)

@[simp] theorem EncoderOperationDto.deserialize_serialize (operation : EncoderOperationDto) :
    EncoderOperationDto.deserialize operation.serialize = some operation := by
  cases operation <;> rfl

theorem ControlDto.deserialize_key {x y : Json} {pageIndex keyIndex : UInt16}
    (hx : Serde.u16 x = some pageIndex) (hy : Serde.u16 y = some keyIndex) :
    ControlDto.deserialize (Serde.ofTagged "kind" "key" [("page", x), ("key", y)]) =
      some (.key pageIndex keyIndex) := by
  have read : Serde.fields ["page", "key"] (.object [("page", x), ("key", y)]) = some [x, y] :=
    Serde.fields_object ["page", "key"] [x, y] (by decide) rfl
  rw [deserialize, Serde.tagged_ofTagged "kind" "key" _ (by decide) (by simp)]
  simp [read, hx, hy]

theorem ControlDto.deserialize_encoder {x y z : Json} {pageIndex encoderIndex : UInt16}
    {operation : EncoderOperationDto} (hx : Serde.u16 x = some pageIndex)
    (hy : Serde.u16 y = some encoderIndex) (hz : EncoderOperationDto.deserialize z = some operation) :
    ControlDto.deserialize (Serde.ofTagged "kind" "encoder"
      [("page", x), ("encoder", y), ("operation", z)]) =
        some (.encoder pageIndex encoderIndex operation) := by
  have read : Serde.fields ["page", "encoder", "operation"]
      (.object [("page", x), ("encoder", y), ("operation", z)]) = some [x, y, z] :=
    Serde.fields_object ["page", "encoder", "operation"] [x, y, z] (by decide) rfl
  rw [deserialize, Serde.tagged_ofTagged "kind" "encoder" _ (by decide) (by simp)]
  simp [read, hx, hy, hz]

@[simp] theorem ControlDto.deserialize_serialize (control : ControlDto) :
    ControlDto.deserialize control.serialize = some control := by
  cases control with
  | key => exact deserialize_key (Serde.u16_ofU16 _) (Serde.u16_ofU16 _)
  | encoder =>
    exact deserialize_encoder (Serde.u16_ofU16 _) (Serde.u16_ofU16 _)
      (EncoderOperationDto.deserialize_serialize _)

@[simp] theorem ActionDto.deserialize_serialize (action : ActionDto) :
    ActionDto.deserialize action.serialize = some action := by
  obtain ⟨url⟩ := action
  have read : Serde.fields ["url"] (.object [("url", .string url)]) = some [.string url] :=
    Serde.fields_object ["url"] [_] (by decide) rfl
  unfold serialize deserialize
  rw [Serde.tagged_ofTagged "kind" "open_url" _ (by decide) (by simp)]
  simp [read]

/-! ## Client messages -/

def ClientComponent.serialize : ClientComponent → Json
  | .studio => .string "studio"

def HandshakeMessage.members (message : HandshakeMessage) : List (String × Json) :=
  [("component", message.component.serialize), ("component_version", .string message.componentVersion),
    ("protocol", message.protocol.serialize)]

def AssignmentDto.serialize (assignment : AssignmentDto) : Json :=
  .object [("profile_id", .string assignment.profileId), ("control", assignment.control.serialize),
    ("action", assignment.action.serialize)]

def ClientMessage.serialize : ClientMessage → Json
  | .handshake message => Serde.ofTagged "type" "handshake" message.members
  | .getSnapshot => Serde.ofTagged "type" "get_snapshot" []
  | .listProfiles => Serde.ofTagged "type" "list_profiles" []
  | .createProfile name => Serde.ofTagged "type" "create_profile" [("name", .string name)]
  | .renameProfile profileId name =>
    Serde.ofTagged "type" "rename_profile" [("profile_id", .string profileId), ("name", .string name)]
  | .setActiveProfile profileId =>
    Serde.ofTagged "type" "set_active_profile" [("profile_id", .string profileId)]
  | .saveAssignment assignment =>
    Serde.ofTagged "type" "save_assignment" [("assignment", assignment.serialize)]
  | .clearAssignment profileId control =>
    Serde.ofTagged "type" "clear_assignment"
      [("profile_id", .string profileId), ("control", control.serialize)]
  | .virtualControlInput control =>
    Serde.ofTagged "type" "virtual_control_input" [("control", control.serialize)]

def ClientEnvelope.serialize (envelope : ClientEnvelope) : Json :=
  .object [("request_id", .string envelope.requestId), ("message", envelope.message.serialize)]

@[simp] theorem ClientComponent.deserialize_serialize (component : ClientComponent) :
    ClientComponent.deserialize component.serialize = some component := by
  cases component
  rfl

theorem HandshakeMessage.deserialize_object {x z : Json} {message : HandshakeMessage}
    (hx : ClientComponent.deserialize x = some message.component)
    (hz : ProtocolVersion.deserialize z = some message.protocol) :
    HandshakeMessage.deserialize (.object [("component", x),
      ("component_version", .string message.componentVersion), ("protocol", z)]) = some message := by
  have read : Serde.fields ["component", "component_version", "protocol"]
      (.object [("component", x), ("component_version", .string message.componentVersion),
        ("protocol", z)]) = some [x, .string message.componentVersion, z] :=
    Serde.fields_object ["component", "component_version", "protocol"] [x, _, z] (by decide) rfl
  simp [deserialize, read, hx, hz]

@[simp] theorem HandshakeMessage.deserialize_members (message : HandshakeMessage) :
    HandshakeMessage.deserialize (.object message.members) = some message :=
  deserialize_object (ClientComponent.deserialize_serialize _)
    (ProtocolVersion.deserialize_serialize _)

@[simp] theorem AssignmentDto.deserialize_serialize (assignment : AssignmentDto) :
    AssignmentDto.deserialize assignment.serialize = some assignment := by
  have read : Serde.fields ["profile_id", "control", "action"] assignment.serialize =
      some [_, _, _] :=
    Serde.fields_object ["profile_id", "control", "action"] [_, _, _] (by decide) rfl
  simp [deserialize, read]

@[simp] theorem ClientMessage.deserialize_serialize (message : ClientMessage) :
    ClientMessage.deserialize message.serialize = some message := by
  have read {type : String} {members : List (String × Json)} (known : type ∈ messageTypes)
      (absent : ∀ member ∈ members, member.1 ≠ "type") :
      ClientMessage.deserialize (Serde.ofTagged "type" type members) =
        ClientMessage.deserializeVariant type (.object members) := by
    have variant : Serde.variant messageTypes (.string type) = some type := if_pos known
    rw [deserialize, Serde.tagged_ofTagged "type" type members variant absent]
    rfl
  cases message with
  | handshake message =>
    refine (read (by decide) (by simp [HandshakeMessage.members])).trans ?_
    simp [deserializeVariant]
  | getSnapshot => exact (read (by decide) (by simp)).trans rfl
  | listProfiles => exact (read (by decide) (by simp)).trans rfl
  | createProfile name =>
    have fields : Serde.fields ["name"] (.object [("name", .string name)]) = some [_] :=
      Serde.fields_object ["name"] [_] (by decide) rfl
    refine (read (by decide) (by simp)).trans ?_
    simp [deserializeVariant, fields]
  | renameProfile profileId name =>
    have fields : Serde.fields ["profile_id", "name"]
        (.object [("profile_id", .string profileId), ("name", .string name)]) = some [_, _] :=
      Serde.fields_object ["profile_id", "name"] [_, _] (by decide) rfl
    refine (read (by decide) (by simp)).trans ?_
    simp [deserializeVariant, fields]
  | setActiveProfile profileId =>
    have fields : Serde.fields ["profile_id"] (.object [("profile_id", .string profileId)]) =
        some [_] := Serde.fields_object ["profile_id"] [_] (by decide) rfl
    refine (read (by decide) (by simp)).trans ?_
    simp [deserializeVariant, fields]
  | saveAssignment assignment =>
    have fields : Serde.fields ["assignment"] (.object [("assignment", assignment.serialize)]) =
        some [_] := Serde.fields_object ["assignment"] [_] (by decide) rfl
    refine (read (by decide) (by simp)).trans ?_
    simp [deserializeVariant, fields]
  | clearAssignment profileId control =>
    have fields : Serde.fields ["profile_id", "control"]
        (.object [("profile_id", .string profileId), ("control", control.serialize)]) = some [_, _] :=
      Serde.fields_object ["profile_id", "control"] [_, _] (by decide) rfl
    refine (read (by decide) (by simp)).trans ?_
    simp [deserializeVariant, fields]
  | virtualControlInput control =>
    have fields : Serde.fields ["control"] (.object [("control", control.serialize)]) = some [_] :=
      Serde.fields_object ["control"] [_] (by decide) rfl
    refine (read (by decide) (by simp)).trans ?_
    simp [deserializeVariant, fields]

theorem ClientEnvelope.deserialize_serialize (envelope : ClientEnvelope) :
    ClientEnvelope.deserialize envelope.serialize = some envelope := by
  have read : Serde.fields ["request_id", "message"] envelope.serialize = some [_, _] :=
    Serde.fields_object ["request_id", "message"] [_, _] (by decide) rfl
  simp [deserialize, read]

/-! ## Server messages -/

def ProfileDto.serialize (profile : ProfileDto) : Json :=
  .object [("id", .string profile.id), ("name", .string profile.name),
    ("is_active", .bool profile.isActive)]

def DeviceLayoutDto.serialize (layout : DeviceLayoutDto) : Json :=
  .object [("page_count", Serde.ofU16 layout.pageCount), ("key_rows", Serde.ofU16 layout.keyRows),
    ("key_columns", Serde.ofU16 layout.keyColumns),
    ("encoder_count", Serde.ofU16 layout.encoderCount)]

def SnapshotAssignmentDto.serialize (assignment : SnapshotAssignmentDto) : Json :=
  .object [("profile_id", .string assignment.profileId), ("control", assignment.control.serialize),
    ("actions", Serde.ofList ActionDto.serialize assignment.actions)]

def ActionFailureCode.serialize : ActionFailureCode → Json
  | .openUrlFailed => .string "open_url_failed"
  | .noActionAssigned => .string "no_action_assigned"
  | .validationFailed => .string "validation_failed"
  | .internal => .string "internal"

def ActionEventDto.serialize : ActionEventDto → Json
  | .running executionId profileId control => Serde.ofTagged "state" "running"
      [("execution_id", .string executionId), ("profile_id", .string profileId),
        ("control", control.serialize)]
  | .succeeded executionId =>
    Serde.ofTagged "state" "succeeded" [("execution_id", .string executionId)]
  | .failed executionId code message => Serde.ofTagged "state" "failed"
      [("execution_id", .string executionId), ("code", code.serialize),
        ("message", .string message)]

def ErrorCode.serialize : ErrorCode → Json
  | .incompatibleProtocol => .string "incompatible_protocol"
  | .unknownMessage => .string "unknown_message"
  | .validationFailed => .string "validation_failed"
  | .notFound => .string "not_found"
  | .internal => .string "internal"

def ErrorDto.serialize (error : ErrorDto) : Json :=
  .object [("code", error.code.serialize), ("message", .string error.message)]

def ServerMessage.serialize : ServerMessage → Json
  | .handshakeAccepted requestId coreVersion protocol => Serde.ofTagged "type" "handshake_accepted"
      [("request_id", .string requestId), ("core_version", .string coreVersion),
        ("protocol", protocol.serialize)]
  | .profiles requestId items => Serde.ofTagged "type" "profiles"
      [("request_id", .string requestId), ("profiles", Serde.ofList ProfileDto.serialize items)]
  | .profile requestId item => Serde.ofTagged "type" "profile"
      [("request_id", .string requestId), ("profile", item.serialize)]
  | .snapshot requestId layout items assignments => Serde.ofTagged "type" "snapshot"
      [("request_id", .string requestId), ("layout", layout.serialize),
        ("profiles", Serde.ofList ProfileDto.serialize items),
        ("assignments", Serde.ofList SnapshotAssignmentDto.serialize assignments)]
  | .acknowledged requestId =>
    Serde.ofTagged "type" "acknowledged" [("request_id", .string requestId)]
  | .actionEvent event => Serde.ofTagged "type" "action_event" [("event", event.serialize)]
  | .error requestId reason => Serde.ofTagged "type" "error"
      [("request_id", Serde.ofOption Json.string requestId), ("error", reason.serialize)]

/-! ## Decoding server messages -/

def ProfileDto.deserialize (json : Json) : Option ProfileDto := do
  let [id, name, isActive] ← Serde.fields ["id", "name", "is_active"] json | none
  return { id := ← Serde.string id, name := ← Serde.string name, isActive := ← Serde.bool isActive }

def DeviceLayoutDto.deserialize (json : Json) : Option DeviceLayoutDto := do
  let [pageCount, keyRows, keyColumns, encoderCount] ←
    Serde.fields ["page_count", "key_rows", "key_columns", "encoder_count"] json | none
  return { pageCount := ← Serde.u16 pageCount, keyRows := ← Serde.u16 keyRows
           keyColumns := ← Serde.u16 keyColumns, encoderCount := ← Serde.u16 encoderCount }

def SnapshotAssignmentDto.deserialize (json : Json) : Option SnapshotAssignmentDto := do
  let [profileId, control, actions] ←
    Serde.fields ["profile_id", "control", "actions"] json | none
  return { profileId := ← Serde.string profileId
           control := ← ControlDto.deserialize control
           actions := ← Serde.list ActionDto.deserialize actions }

def ActionFailureCode.deserialize (json : Json) : Option ActionFailureCode := do
  match ← Serde.unitVariant
      ["open_url_failed", "no_action_assigned", "validation_failed", "internal"] json with
  | "open_url_failed" => return .openUrlFailed
  | "no_action_assigned" => return .noActionAssigned
  | "validation_failed" => return .validationFailed
  | "internal" => return .internal
  | _ => none

def ActionEventDto.deserialize (json : Json) : Option ActionEventDto := do
  let (state, content) ←
    Serde.tagged "state" (Serde.bufferedVariant ["running", "succeeded", "failed"]) json
  match state with
  | "running" => do
      let [executionId, profileId, control] ←
        Serde.fields ["execution_id", "profile_id", "control"] content | none
      return .running (← Serde.string executionId) (← Serde.string profileId)
        (← ControlDto.deserialize control)
  | "succeeded" => do
      let [executionId] ← Serde.fields ["execution_id"] content | none
      return .succeeded (← Serde.string executionId)
  | "failed" => do
      let [executionId, code, message] ←
        Serde.fields ["execution_id", "code", "message"] content | none
      return .failed (← Serde.string executionId) (← ActionFailureCode.deserialize code)
        (← Serde.string message)
  | _ => none

def ErrorCode.deserialize (json : Json) : Option ErrorCode := do
  match ← Serde.unitVariant ["incompatible_protocol", "unknown_message", "validation_failed",
      "not_found", "internal"] json with
  | "incompatible_protocol" => return .incompatibleProtocol
  | "unknown_message" => return .unknownMessage
  | "validation_failed" => return .validationFailed
  | "not_found" => return .notFound
  | "internal" => return .internal
  | _ => none

def ErrorDto.deserialize (json : Json) : Option ErrorDto := do
  let [code, message] ← Serde.fields ["code", "message"] json | none
  return { code := ← ErrorCode.deserialize code, message := ← Serde.string message }

def serverMessageTypes : List String :=
  ["handshake_accepted", "profiles", "profile", "snapshot", "acknowledged", "action_event", "error"]

/-- A variant of `ServerMessage` from the rest of its value. -/
def ServerMessage.deserializeVariant (type : String) (content : Json) : Option ServerMessage := do
  match type with
  | "handshake_accepted" => do
      let [requestId, coreVersion, protocol] ←
        Serde.fields ["request_id", "core_version", "protocol"] content | none
      return .handshakeAccepted (← Serde.string requestId) (← Serde.string coreVersion)
        (← ProtocolVersion.deserialize protocol)
  | "profiles" => do
      let [requestId, items] ← Serde.fields ["request_id", "profiles"] content | none
      return .profiles (← Serde.string requestId) (← Serde.list ProfileDto.deserialize items)
  | "profile" => do
      let [requestId, item] ← Serde.fields ["request_id", "profile"] content | none
      return .profile (← Serde.string requestId) (← ProfileDto.deserialize item)
  | "snapshot" => do
      let [requestId, layout, items, assignments] ←
        Serde.fields ["request_id", "layout", "profiles", "assignments"] content | none
      return .snapshot (← Serde.string requestId) (← DeviceLayoutDto.deserialize layout)
        (← Serde.list ProfileDto.deserialize items)
        (← Serde.list SnapshotAssignmentDto.deserialize assignments)
  | "acknowledged" => do
      let [requestId] ← Serde.fields ["request_id"] content | none
      return .acknowledged (← Serde.string requestId)
  | "action_event" => do
      let [event] ← Serde.fields ["event"] content | none
      return .actionEvent (← ActionEventDto.deserialize event)
  | "error" => do
      let [requestId, reason] ← Serde.optionalFirst "request_id" ["error"] content | none
      return .error (← Serde.option Serde.string requestId) (← ErrorDto.deserialize reason)
  | _ => none

def ServerMessage.deserialize (json : Json) : Option ServerMessage := do
  let (type, content) ← Serde.tagged "type" (Serde.variant serverMessageTypes) json
  ServerMessage.deserializeVariant type content

@[simp] theorem ProfileDto.deserialize_serialize (profile : ProfileDto) :
    ProfileDto.deserialize profile.serialize = some profile := by
  have read : Serde.fields ["id", "name", "is_active"] profile.serialize = some [_, _, _] :=
    Serde.fields_object ["id", "name", "is_active"] [_, _, _] (by decide) rfl
  simp [deserialize, read]

theorem DeviceLayoutDto.deserialize_object {x y z u : Json} {layout : DeviceLayoutDto}
    (hx : Serde.u16 x = some layout.pageCount) (hy : Serde.u16 y = some layout.keyRows)
    (hz : Serde.u16 z = some layout.keyColumns) (hu : Serde.u16 u = some layout.encoderCount) :
    DeviceLayoutDto.deserialize (.object [("page_count", x), ("key_rows", y), ("key_columns", z),
      ("encoder_count", u)]) = some layout := by
  have read : Serde.fields ["page_count", "key_rows", "key_columns", "encoder_count"]
      (.object [("page_count", x), ("key_rows", y), ("key_columns", z), ("encoder_count", u)]) =
        some [x, y, z, u] :=
    Serde.fields_object ["page_count", "key_rows", "key_columns", "encoder_count"] [x, y, z, u]
      (by decide) rfl
  simp [deserialize, read, hx, hy, hz, hu]

@[simp] theorem DeviceLayoutDto.deserialize_serialize (layout : DeviceLayoutDto) :
    DeviceLayoutDto.deserialize layout.serialize = some layout :=
  deserialize_object (Serde.u16_ofU16 _) (Serde.u16_ofU16 _) (Serde.u16_ofU16 _)
    (Serde.u16_ofU16 _)

@[simp] theorem SnapshotAssignmentDto.deserialize_serialize (assignment : SnapshotAssignmentDto) :
    SnapshotAssignmentDto.deserialize assignment.serialize = some assignment := by
  have read : Serde.fields ["profile_id", "control", "actions"] assignment.serialize =
      some [_, _, _] :=
    Serde.fields_object ["profile_id", "control", "actions"] [_, _, _] (by decide) rfl
  simp [deserialize, read, Serde.list_ofList ActionDto.deserialize_serialize]

@[simp] theorem ActionFailureCode.deserialize_serialize (code : ActionFailureCode) :
    ActionFailureCode.deserialize code.serialize = some code := by
  cases code <;> rfl

@[simp] theorem ActionEventDto.deserialize_serialize (event : ActionEventDto) :
    ActionEventDto.deserialize event.serialize = some event := by
  unfold serialize deserialize
  cases event with
  | running executionId profileId control =>
    have read : Serde.fields ["execution_id", "profile_id", "control"] (.object
        [("execution_id", .string executionId), ("profile_id", .string profileId),
          ("control", control.serialize)]) = some [_, _, _] :=
      Serde.fields_object ["execution_id", "profile_id", "control"] [_, _, _] (by decide) rfl
    rw [Serde.tagged_ofTagged "state" "running" _ (by decide) (by simp)]
    simp [read]
  | succeeded executionId =>
    have read : Serde.fields ["execution_id"] (.object [("execution_id", .string executionId)]) =
        some [_] := Serde.fields_object ["execution_id"] [_] (by decide) rfl
    rw [Serde.tagged_ofTagged "state" "succeeded" _ (by decide) (by simp)]
    simp [read]
  | failed executionId code message =>
    have read : Serde.fields ["execution_id", "code", "message"] (.object
        [("execution_id", .string executionId), ("code", code.serialize),
          ("message", .string message)]) = some [_, _, _] :=
      Serde.fields_object ["execution_id", "code", "message"] [_, _, _] (by decide) rfl
    rw [Serde.tagged_ofTagged "state" "failed" _ (by decide) (by simp)]
    simp [read]

@[simp] theorem ErrorCode.deserialize_serialize (code : ErrorCode) :
    ErrorCode.deserialize code.serialize = some code := by
  cases code <;> rfl

@[simp] theorem ErrorDto.deserialize_serialize (error : ErrorDto) :
    ErrorDto.deserialize error.serialize = some error := by
  have read : Serde.fields ["code", "message"] error.serialize = some [_, _] :=
    Serde.fields_object ["code", "message"] [_, _] (by decide) rfl
  simp [deserialize, read]

theorem ServerMessage.deserialize_serialize (message : ServerMessage) :
    ServerMessage.deserialize message.serialize = some message := by
  have read {type : String} {members : List (String × Json)} (known : type ∈ serverMessageTypes)
      (absent : ∀ member ∈ members, member.1 ≠ "type") :
      ServerMessage.deserialize (Serde.ofTagged "type" type members) =
        ServerMessage.deserializeVariant type (.object members) := by
    have variant : Serde.variant serverMessageTypes (.string type) = some type := if_pos known
    rw [deserialize, Serde.tagged_ofTagged "type" type members variant absent]
    rfl
  cases message with
  | handshakeAccepted requestId coreVersion protocol =>
    have fields (x : Json) : Serde.fields ["request_id", "core_version", "protocol"] (.object
        [("request_id", .string requestId), ("core_version", .string coreVersion), ("protocol", x)]) =
          some [.string requestId, .string coreVersion, x] :=
      Serde.fields_object ["request_id", "core_version", "protocol"] [_, _, _] (by decide) rfl
    have decoded (x : Json) (hx : ProtocolVersion.deserialize x = some protocol) :
        deserializeVariant "handshake_accepted" (.object [("request_id", .string requestId),
          ("core_version", .string coreVersion), ("protocol", x)]) =
            some (.handshakeAccepted requestId coreVersion protocol) := by
      simp [deserializeVariant, fields, hx]
    exact (read (by decide) (by simp)).trans
      (decoded _ (ProtocolVersion.deserialize_serialize protocol))
  | profiles requestId profiles =>
    have fields : Serde.fields ["request_id", "profiles"] (.object
        [("request_id", .string requestId), ("profiles", Serde.ofList ProfileDto.serialize profiles)]) =
          some [_, _] := Serde.fields_object ["request_id", "profiles"] [_, _] (by decide) rfl
    refine (read (by decide) (by simp)).trans ?_
    simp [deserializeVariant, fields, Serde.list_ofList ProfileDto.deserialize_serialize]
  | profile requestId profile =>
    have fields : Serde.fields ["request_id", "profile"] (.object
        [("request_id", .string requestId), ("profile", profile.serialize)]) = some [_, _] :=
      Serde.fields_object ["request_id", "profile"] [_, _] (by decide) rfl
    refine (read (by decide) (by simp)).trans ?_
    simp [deserializeVariant, fields]
  | snapshot requestId layout profiles assignments =>
    have fields (x y z : Json) : Serde.fields ["request_id", "layout", "profiles", "assignments"]
        (.object [("request_id", .string requestId), ("layout", x), ("profiles", y),
          ("assignments", z)]) = some [.string requestId, x, y, z] :=
      Serde.fields_object ["request_id", "layout", "profiles", "assignments"] [_, _, _, _]
        (by decide) rfl
    have decoded (x y z : Json) (hx : DeviceLayoutDto.deserialize x = some layout)
        (hy : Serde.list ProfileDto.deserialize y = some profiles)
        (hz : Serde.list SnapshotAssignmentDto.deserialize z = some assignments) :
        deserializeVariant "snapshot" (.object [("request_id", .string requestId), ("layout", x),
          ("profiles", y), ("assignments", z)]) =
            some (.snapshot requestId layout profiles assignments) := by
      simp [deserializeVariant, fields, hx, hy, hz]
    exact (read (by decide) (by simp)).trans
      (decoded _ _ _ (DeviceLayoutDto.deserialize_serialize layout)
        (Serde.list_ofList ProfileDto.deserialize_serialize profiles)
        (Serde.list_ofList SnapshotAssignmentDto.deserialize_serialize assignments))
  | acknowledged requestId =>
    have fields : Serde.fields ["request_id"] (.object [("request_id", .string requestId)]) =
        some [_] := Serde.fields_object ["request_id"] [_] (by decide) rfl
    refine (read (by decide) (by simp)).trans ?_
    simp [deserializeVariant, fields]
  | actionEvent event =>
    have fields : Serde.fields ["event"] (.object [("event", event.serialize)]) = some [_] :=
      Serde.fields_object ["event"] [_] (by decide) rfl
    refine (read (by decide) (by simp)).trans ?_
    simp [deserializeVariant, fields]
  | error requestId error =>
    have fields : Serde.optionalFirst "request_id" ["error"] (.object
        [("request_id", Serde.ofOption Json.string requestId), ("error", error.serialize)]) =
          some [Serde.ofOption Json.string requestId, error.serialize] := by
      have both : Serde.fields ["request_id", "error"] (.object
          [("request_id", Serde.ofOption Json.string requestId), ("error", error.serialize)]) =
            some [_, _] := Serde.fields_object ["request_id", "error"] [_, _] (by decide) rfl
      rw [Serde.optionalFirst, both]
      rfl
    refine (read (by decide) (by simp)).trans ?_
    simp [deserializeVariant, fields, Serde.option_ofOption Serde.string_string nofun]

end KeyroCore
