import KeyroCore.Data.Schema
import KeyroCore.Protocol.Encode

/-!
# The published contract

The definitions of `core-studio.schema.json`, version 0.3.0, under their names.  An alternative of a
message, an event, a control or an action is given by the value of its tag and its other properties.
Whether `format: uri` is asserted, and how, is left to the validator.
-/

namespace KeyroCore.Contract

open Schema (minLength isUuid)

abbrev Alternative := String × List (String × Schema)

/-- `{ "type": "string", "minLength": 1 }` -/
def nonEmpty : Schema := .string (minLength 1)

/-- `{ "type": "string", "format": "uuid" }` -/
def uuid : Schema := .string isUuid

/-- `{ "type": "string" }` -/
def text : Schema := .string fun _ => true

/-- `{ "type": "integer", "minimum": 0, "maximum": 65535 }` -/
def index : Schema := .integer 0 (some 65535)

/-- `{ "type": "integer", "minimum": 1, "maximum": 65535 }` -/
def count : Schema := .integer 1 (some 65535)

/-- The pattern `^https?://`. -/
def isHttp (url : String) : Bool :=
  "http://".toList.isPrefixOf url.toList || "https://".toList.isPrefixOf url.toList

def handshakeProtocolVersion : Schema :=
  .object [("major", .constInteger 0), ("minor", .constInteger 3)]

/-! ## Controls and actions -/

def keyControl : Alternative := ("key", [("page", index), ("key", index)])

def encoderControl : Alternative :=
  ("encoder", [("page", index), ("encoder", index), ("operation", .enum ["left", "right", "press"])])

def control : Schema := .tagged "kind" [keyControl, encoderControl]

def openUrlAction (isUri : String → Bool) : Alternative :=
  ("open_url", [("url", .string fun url => isUri url && isHttp url)])

def action (isUri : String → Bool) : Schema := .tagged "kind" [openUrlAction isUri]

def assignment (isUri : String → Bool) : Schema :=
  .object [("profile_id", uuid), ("control", control), ("action", action isUri)]

def snapshotAssignment (isUri : String → Bool) : Schema :=
  .object [("profile_id", uuid), ("control", control), ("actions", .array (action isUri))]

/-! ## Client messages -/

def handshake : Alternative :=
  ("handshake", [("component", .const "studio"), ("component_version", nonEmpty),
    ("protocol", handshakeProtocolVersion)])

def getSnapshot : Alternative := ("get_snapshot", [])

def listProfiles : Alternative := ("list_profiles", [])

def createProfile : Alternative := ("create_profile", [("name", nonEmpty)])

def renameProfile : Alternative := ("rename_profile", [("profile_id", uuid), ("name", nonEmpty)])

def setActiveProfile : Alternative := ("set_active_profile", [("profile_id", uuid)])

def saveAssignment (isUri : String → Bool) : Alternative :=
  ("save_assignment", [("assignment", assignment isUri)])

def clearAssignment : Alternative :=
  ("clear_assignment", [("profile_id", uuid), ("control", control)])

def virtualControlInput : Alternative := ("virtual_control_input", [("control", control)])

def clientMessages (isUri : String → Bool) : List Alternative :=
  [handshake, getSnapshot, listProfiles, createProfile, renameProfile, setActiveProfile,
    saveAssignment isUri, clearAssignment, virtualControlInput]

def clientMessage (isUri : String → Bool) : Schema := .tagged "type" (clientMessages isUri)

def clientEnvelope (isUri : String → Bool) : Schema :=
  .object [("request_id", nonEmpty), ("message", clientMessage isUri)]

/-! ## Server messages -/

def profile : Schema := .object [("id", uuid), ("name", nonEmpty), ("is_active", .boolean)]

def deviceLayout : Schema :=
  .object [("page_count", count), ("key_rows", count), ("key_columns", count),
    ("encoder_count", count)]

def handshakeAccepted : Alternative :=
  ("handshake_accepted", [("request_id", nonEmpty), ("core_version", nonEmpty),
    ("protocol", handshakeProtocolVersion)])

def profiles : Alternative :=
  ("profiles", [("request_id", nonEmpty), ("profiles", .array profile)])

def profileResponse : Alternative := ("profile", [("request_id", nonEmpty), ("profile", profile)])

def snapshot (isUri : String → Bool) : Alternative :=
  ("snapshot", [("request_id", nonEmpty), ("layout", deviceLayout), ("profiles", .array profile),
    ("assignments", .array (snapshotAssignment isUri))])

def acknowledged : Alternative := ("acknowledged", [("request_id", nonEmpty)])

def actionRunning : Alternative :=
  ("running", [("execution_id", uuid), ("profile_id", uuid), ("control", control)])

def actionSucceeded : Alternative := ("succeeded", [("execution_id", uuid)])

def actionFailed : Alternative :=
  ("failed", [("execution_id", uuid),
    ("code", .enum ["open_url_failed", "no_action_assigned", "validation_failed", "internal"]),
    ("message", text)])

def actionEventPayload : Schema :=
  .tagged "state" [actionRunning, actionSucceeded, actionFailed]

def actionEvent : Alternative := ("action_event", [("event", actionEventPayload)])

def error : Alternative :=
  ("error", [("request_id", .anyOf [nonEmpty, .null]),
    ("error", .object [("code", .enum ["incompatible_protocol", "unknown_message",
      "validation_failed", "not_found", "internal"]), ("message", text)])])

def serverMessages (isUri : String → Bool) : List Alternative :=
  [handshakeAccepted, profiles, profileResponse, snapshot isUri, acknowledged, actionEvent, error]

def serverMessage (isUri : String → Bool) : Schema := .tagged "type" (serverMessages isUri)

end KeyroCore.Contract
