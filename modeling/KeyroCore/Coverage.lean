import KeyroCore.Controls
import KeyroCore.Data.Exact
import KeyroCore.Grammar

/-!
# What the published grammar admits is decoded

Every derived decoder of the client messages is exact for its definition in the contract, so a line
whose value is an instance of the contract is decoded if and only if it repeats no name, writes its
numbers as integers and has a request id that is not blank.
-/

open Serde (Exact Reads exact_string exact_u16 exact_u16_const exact_struct exact_tagged reads_some
  member?_of_fields)
open Results

namespace KeyroCore

variable {isUri : String → Bool}

/-! ## DTOs -/

theorem EncoderOperationDto.exact : Exact (.enum ["left", "right", "press"])
    EncoderOperationDto.deserialize fun _ => True := by
  intro json valid
  cases json with
  | string s =>
    have known : s = "left" ∨ s = "right" ∨ s = "press" := by
      simpa [Schema.validates, Json.string?] using valid
    rw [Json.literal_string]
    rcases known with rfl | rfl | rfl <;> exact reads_some trivial
  | _ => simp [Schema.validates, Json.string?] at valid

theorem ControlDto.exact : Exact Contract.control ControlDto.deserialize fun _ => True := by
  refine exact_tagged (by decide) (by decide) ?_
  rintro alternative (_ | ⟨_, _ | ⟨_, h⟩⟩)
  · refine exact_struct (by decide) fun values holds => ?_
    obtain _ | ⟨page, _ | ⟨key, ⟨⟩⟩⟩ := holds
    exact (exact_u16 _ page).cons fun _ _ => (exact_u16 _ key).cons fun _ _ => reads_some trivial
  · refine exact_struct (by decide) fun values holds => ?_
    obtain _ | ⟨page, _ | ⟨encoder, _ | ⟨operation, ⟨⟩⟩⟩⟩ := holds
    exact (exact_u16 _ page).cons fun _ _ => (exact_u16 _ encoder).cons fun _ _ =>
      (EncoderOperationDto.exact _ operation).cons fun _ _ => reads_some trivial
  · cases h

theorem ActionDto.exact : Exact (Contract.action isUri) ActionDto.deserialize fun _ => True := by
  refine exact_tagged ?_ ?_ ?_
  · simp [Contract.openUrlAction]
  · simp [Contract.openUrlAction, Serde.bufferedVariant]
  · rintro alternative (_ | ⟨_, h⟩)
    · refine exact_struct (List.nodup_singleton _) fun values holds => ?_
      obtain _ | ⟨url, ⟨⟩⟩ := holds
      exact (exact_string _ _ url).cons fun _ _ => reads_some trivial
    · cases h

theorem AssignmentDto.exact : Exact (Contract.assignment isUri) AssignmentDto.deserialize
    fun assignment => Schema.isUuid assignment.profileId = true := by
  refine exact_struct (show ["profile_id", "control", "action"].Nodup by decide)
    fun values holds => ?_
  obtain _ | ⟨profileId, _ | ⟨control, _ | ⟨action, ⟨⟩⟩⟩⟩ := holds
  exact (exact_string _ _ profileId).cons fun _ uuid => (ControlDto.exact _ control).cons fun _ _ =>
    (ActionDto.exact _ action).cons fun _ _ => reads_some uuid

theorem ClientComponent.exact :
    Exact (.const "studio") ClientComponent.deserialize fun _ => True := by
  intro json valid
  obtain rfl : json = .string "studio" := by simpa [Schema.validates] using valid
  rw [Json.literal_string]
  exact reads_some trivial

/-- The contract admits one version. -/
theorem ProtocolVersion.exact : Exact Contract.handshakeProtocolVersion ProtocolVersion.deserialize
    fun version => version = ProtocolVersion.current := by
  refine exact_struct (by decide) fun values holds => ?_
  obtain _ | ⟨major, _ | ⟨minor, ⟨⟩⟩⟩ := holds
  refine (exact_u16_const (show 0 < 65536 by decide) _ major).cons fun _ hmajor =>
    (exact_u16_const (show 3 < 65536 by decide) _ minor).cons fun _ hminor => reads_some ?_
  rw [hmajor, hminor]
  rfl

theorem HandshakeMessage.exact : Exact (.object Contract.handshake.2) HandshakeMessage.deserialize
    fun message => message.protocol = ProtocolVersion.current := by
  refine exact_struct (show ["component", "component_version", "protocol"].Nodup by decide)
    fun values holds => ?_
  obtain _ | ⟨component, _ | ⟨componentVersion, _ | ⟨protocol, ⟨⟩⟩⟩⟩ := holds
  exact (ClientComponent.exact _ component).cons fun _ _ =>
    (exact_string _ _ componentVersion).cons fun _ _ =>
      (ProtocolVersion.exact _ protocol).cons fun _ current => reads_some current

/-! ## Messages -/

namespace ClientMessage

/-- A handshake asks for the version of Core, and profile ids are hyphenated UUIDs. -/
def Regular : ClientMessage → Prop
  | .handshake message => message.protocol = ProtocolVersion.current
  | .renameProfile profileId _ | .setActiveProfile profileId | .clearAssignment profileId _ =>
    Schema.isUuid profileId = true
  | .saveAssignment assignment => Schema.isUuid assignment.profileId = true
  | .getSnapshot | .listProfiles | .createProfile _ | .virtualControlInput _ => True

/-- A variant is decoded from its fields. -/
theorem exact_variant {alternative : String × List (String × Schema)}
    (mem : alternative ∈ Contract.clientMessages isUri) :
    Exact (.object alternative.2) (deserializeVariant alternative.1) Regular := by
  have nodup := (List.nodup_cons.1 (nodup_clientMessages mem)).2
  rcases mem with _ | ⟨_, _ | ⟨_, _ | ⟨_, _ | ⟨_, _ | ⟨_, _ | ⟨_, _ | ⟨_, _ | ⟨_, _ | ⟨_, h⟩⟩⟩⟩⟩⟩⟩⟩⟩
  · intro json valid
    have read := HandshakeMessage.exact json valid
    show Reads json.literal Regular ((HandshakeMessage.deserialize json).bind fun _ => some _)
    cases decoded : HandshakeMessage.deserialize json with
    | none =>
      rw [← read.isSome_eq, decoded]
      exact Serde.reads_none
    | some message =>
      rw [← read.isSome_eq, decoded]
      exact reads_some (read.holds message decoded)
  · refine exact_struct nodup fun values holds => ?_
    obtain ⟨⟩ := holds
    exact reads_some trivial
  · refine exact_struct nodup fun values holds => ?_
    obtain ⟨⟩ := holds
    exact reads_some trivial
  · refine exact_struct nodup fun values holds => ?_
    obtain _ | ⟨name, ⟨⟩⟩ := holds
    exact (exact_string _ _ name).cons fun _ _ => reads_some trivial
  · refine exact_struct nodup fun values holds => ?_
    obtain _ | ⟨profileId, _ | ⟨name, ⟨⟩⟩⟩ := holds
    exact (exact_string _ _ profileId).cons fun _ uuid =>
      (exact_string _ _ name).cons fun _ _ => reads_some uuid
  · refine exact_struct nodup fun values holds => ?_
    obtain _ | ⟨profileId, ⟨⟩⟩ := holds
    exact (exact_string _ _ profileId).cons fun _ uuid => reads_some uuid
  · refine exact_struct nodup fun values holds => ?_
    obtain _ | ⟨assignment, ⟨⟩⟩ := holds
    exact (AssignmentDto.exact _ assignment).cons fun _ uuid => reads_some uuid
  · refine exact_struct nodup fun values holds => ?_
    obtain _ | ⟨profileId, _ | ⟨control, ⟨⟩⟩⟩ := holds
    exact (exact_string _ _ profileId).cons fun _ uuid =>
      (ControlDto.exact _ control).cons fun _ _ => reads_some uuid
  · refine exact_struct nodup fun values holds => ?_
    obtain _ | ⟨control, ⟨⟩⟩ := holds
    exact (ControlDto.exact _ control).cons fun _ _ => reads_some trivial
  · cases h

theorem exact : Exact (Contract.clientMessage isUri) ClientMessage.deserialize Regular := by
  refine exact_tagged (fun alternative mem => ?_) (fun alternative mem => ?_)
    fun alternative mem => exact_variant mem
  · exact (List.nodup_cons.1 (nodup_clientMessages mem)).1
  · have known : alternative.1 ∈ messageTypes := List.mem_map_of_mem (f := Prod.fst) mem
    exact if_pos known

end ClientMessage

theorem ClientEnvelope.exact : Exact (Contract.clientEnvelope isUri) ClientEnvelope.deserialize
    fun envelope => envelope.message.Regular := by
  refine exact_struct (show ["request_id", "message"].Nodup by decide) fun values holds => ?_
  obtain _ | ⟨requestId, _ | ⟨message, ⟨⟩⟩⟩ := holds
  exact (exact_string _ _ requestId).cons fun _ _ =>
    (ClientMessage.exact _ message).cons fun _ regular => reads_some regular

/-! ## Lines -/

theorem isObject_of_conforms {json : Json}
    (valid : (Contract.clientEnvelope isUri).validates json = true) : json.isObject = true := by
  by_contra plain
  have refused : (Contract.clientEnvelope isUri).validates json = false :=
    Schema.validates_object_eq_false (Bool.of_not_eq_true plain) _
  rw [refused] at valid
  cases valid

/-- The members that an envelope was read from. -/
theorem members_of_envelope {json : Json} {envelope : ClientEnvelope}
    (object : json.isObject = true) (read : ClientEnvelope.deserialize json = some envelope) :
    json.member? "request_id" = some (.string envelope.requestId) ∧ ∃ message,
      json.member? "message" = some message ∧
        ClientMessage.deserialize message = some envelope.message := by
  unfold ClientEnvelope.deserialize at read
  obtain ⟨values, fields, read⟩ := Option.bind_eq_some_iff.1 read
  split at read
  · next requestId message =>
    obtain ⟨id, text, read⟩ := Option.bind_eq_some_iff.1 read
    obtain ⟨_, messageRead, same⟩ := Option.bind_eq_some_iff.1 read
    cases same
    have member := member?_of_fields (by decide) fields object
    obtain rfl : requestId = .string id := by
      cases requestId with
      | string s => rw [Option.some.inj text]
      | _ => cases text
    exact ⟨member "request_id", message, member "message", messageRead⟩
  · cases read

section Decoding

variable [SerdeJson] {line : String} {json : Json} (parsed : SerdeJson.parse line = some json)
  (valid : (Contract.clientEnvelope isUri).validates json = true)

include parsed valid

/-- The request id that a conforming line is decoded with is the one that is extracted. -/
theorem extractRequestId_of_decoded {envelope : ClientEnvelope}
    (decoded : decodeClientEnvelope line = .ok envelope) :
    extractRequestId line = some envelope.requestId := by
  obtain ⟨named, json', parsed', read⟩ := decodeClientEnvelope_ok_iff.1 decoded
  obtain rfl : json' = json := Option.some.inj (parsed'.symm.trans parsed)
  have member := (members_of_envelope (isObject_of_conforms valid) read).1
  unfold extractRequestId
  rw [parsed, Option.bind_some, member, Option.bind_some, Json.string?]
  simp [named]

theorem decoded_of_literal (literal : json.literal = true) {requestId : String}
    (extracted : extractRequestId line = some requestId) :
    ∃ message, decodeClientEnvelope line = .ok ⟨requestId, message⟩ := by
  have found := (ClientEnvelope.exact json valid).isSome_eq
  rw [literal, Option.isSome_iff_exists] at found
  obtain ⟨envelope, read⟩ := found
  have member := (members_of_envelope (isObject_of_conforms valid) read).1
  unfold extractRequestId at extracted
  rw [parsed, Option.bind_some, member, Option.bind_some, Json.string?] at extracted
  obtain ⟨same, named⟩ := Option.filter_eq_some_iff.1 extracted
  obtain rfl := Option.some.inj same
  refine ⟨envelope.message, decodeClientEnvelope_ok_iff.2 ⟨?_, json, parsed, read⟩⟩
  simpa using named

end Decoding

/-- A line whose value is an instance of the published grammar is decoded if and only if the value
repeats no name, writes its numbers as integers and has a request id that is not blank. -/
theorem conforming_decoded [SerdeJson] (isUri : String → Bool) {line : String} {json : Json}
    (parsed : SerdeJson.parse line = some json)
    (valid : (Contract.clientEnvelope isUri).validates json = true) :
    (∃ envelope, decodeClientEnvelope line = .ok envelope) ↔
      json.literal = true ∧ ∃ requestId, extractRequestId line = some requestId := by
  constructor
  · rintro ⟨envelope, decoded⟩
    refine ⟨?_, _, extractRequestId_of_decoded parsed valid decoded⟩
    obtain ⟨-, json', parsed', read⟩ := decodeClientEnvelope_ok_iff.1 decoded
    obtain rfl : json' = json := Option.some.inj (parsed'.symm.trans parsed)
    rw [← (ClientEnvelope.exact json' valid).isSome_eq, read]
    rfl
  · rintro ⟨literal, requestId, extracted⟩
    obtain ⟨message, decoded⟩ := decoded_of_literal parsed valid literal extracted
    exact ⟨_, decoded⟩

section Examples

open Reference

/-- The value of a request for the input of a key. -/
def keyInputJson (page key : ℤ) : Json :=
  .object [("request_id", .string "1"),
    ("message", .object [("type", .string "virtual_control_input"),
      ("control", .object [("kind", .string "key"), ("page", .number (.integer page)),
        ("key", .number (.integer key))])])]

def keyInputLine (page key : ℤ) : String := String.ofList (renderJson (keyInputJson page key))

/-- The key of the second line is on no page. -/
theorem parse_keyInputLine : ∀ page ∈ [3, 4],
    SerdeJson.parse (keyInputLine page 11) = some (keyInputJson page 11) := by
  have known : ∀ page ∈ [3, 4], readValue (renderJson (keyInputJson page 11)).length
      (renderJson (keyInputJson page 11)) = some (keyInputJson page 11, []) := by
    decide +kernel
  intro page mem
  exact parse_rendered (known page mem)

theorem extract_keyInputLine : ∀ page ∈ [3, 4],
    extractRequestId (keyInputLine page 11) = some "1" := by
  intro page mem
  rw [extractRequestId, parse_keyInputLine page mem]
  revert page
  decide +kernel

theorem conforming_decoded_example :
    ∃ envelope, decodeClientEnvelope (keyInputLine 4 11) = .ok envelope :=
  (conforming_decoded (fun _ => true) (parse_keyInputLine 4 (by simp)) (by decide +kernel)).2
    ⟨by decide +kernel, "1", extract_keyInputLine 4 (by simp)⟩

end Examples

/-! ## Answers -/

/-- `Uuid::parse_str` reads the hyphenated form. -/
def UuidCrate.ReadsHyphenated [UuidCrate] : Prop :=
  ∀ text, Schema.isUuid text = true → ∃ uuid, parseStr text = some uuid

theorem controlFromDto_isOk_iff {dto : ControlDto} :
    (∃ control, controlFromDto dto = .ok control) ↔
      dto.Within (layoutToDto MVP_DEVICE_LAYOUT) := by
  constructor
  · rintro ⟨control, read⟩
    rw [← controlFromDto_ok_iff.1 read]
    exact controlToDto_within control
  · intro within
    obtain ⟨control, same⟩ := exists_control_of_within within
    exact ⟨control, controlFromDto_ok_iff.2 same⟩

section Commands

variable [UrlCrate]

theorem SafeUrl.parse_isOk_iff {text : String} :
    (∃ url, SafeUrl.parse text = .ok url) ↔ SafeUrl.refusal text = none := by
  unfold SafeUrl.parse
  split
  · next h => exact iff_of_true ⟨_, rfl⟩ h
  · next error h => exact iff_of_false (by rintro ⟨_, ⟨⟩⟩) (by simp [h])

/-- The controls of the message exist on the device, and its URL is safe. -/
def ClientMessage.Serviceable : ClientMessage → Prop
  | .saveAssignment assignment => assignment.control.Within (layoutToDto MVP_DEVICE_LAYOUT) ∧
      match assignment.action with
      | .openUrl url => SafeUrl.refusal url = none
  | .clearAssignment _ control | .virtualControlInput control =>
    control.Within (layoutToDto MVP_DEVICE_LAYOUT)
  | _ => True

variable [UuidCrate]

/-- A regular message is a command if and only if it is serviceable. -/
theorem commandFromMessage_isOk_iff (uuids : UuidCrate.ReadsHyphenated) {message : ClientMessage}
    (regular : message.Regular) (request : ∀ handshake, message ≠ .handshake handshake) :
    (∃ command, commandFromMessage message = .ok command) ↔ message.Serviceable := by
  have profile {text : String} (uuid : Schema.isUuid text = true) :
      ∃ id, orIpcError (ProfileId.parse text) = .ok id := by
    obtain ⟨uuid, read⟩ := uuids text uuid
    exact ⟨⟨uuid⟩, by rw [ProfileId.parse, read]; rfl⟩
  cases message with
  | handshake message => exact absurd rfl (request message)
  | getSnapshot | listProfiles | createProfile name => exact iff_of_true ⟨_, rfl⟩ trivial
  | renameProfile profileId name =>
    obtain ⟨id, read⟩ := profile regular
    exact iff_of_true ⟨_, by rw [commandFromMessage, read]; rfl⟩ trivial
  | setActiveProfile profileId =>
    obtain ⟨id, read⟩ := profile regular
    exact iff_of_true ⟨_, by rw [commandFromMessage, read]; rfl⟩ trivial
  | saveAssignment assignment =>
    obtain ⟨profileId, control, action⟩ := assignment
    obtain ⟨url⟩ := action
    obtain ⟨id, read⟩ := profile regular
    show _ ↔ control.Within _ ∧ SafeUrl.refusal url = none
    rw [← controlFromDto_isOk_iff, ← SafeUrl.parse_isOk_iff]
    simp only [commandFromMessage, assignmentFromDto, actionFromDto, bind_ok_iff, pure_ok_iff,
      orIpcError, mapError_ok_iff]
    constructor
    · rintro ⟨_, _, ⟨_, -, control, controlRead, _, ⟨url, urlRead, -⟩, -⟩, -⟩
      exact ⟨⟨control, controlRead⟩, url, urlRead⟩
    · rintro ⟨⟨control, controlRead⟩, url, urlRead⟩
      exact ⟨_, _, ⟨id, mapError_ok_iff.1 read, control, controlRead, _, ⟨url, urlRead, rfl⟩, rfl⟩,
        rfl⟩
  | clearAssignment profileId control =>
    obtain ⟨id, read⟩ := profile regular
    show _ ↔ control.Within _
    rw [← controlFromDto_isOk_iff]
    simp only [commandFromMessage, bind_ok_iff, pure_ok_iff]
    constructor
    · rintro ⟨_, _, -, control, controlRead, -⟩
      exact ⟨control, controlRead⟩
    · rintro ⟨control, controlRead⟩
      exact ⟨_, id, read, control, controlRead, rfl⟩
  | virtualControlInput control =>
    show _ ↔ control.Within _
    rw [← controlFromDto_isOk_iff]
    simp only [commandFromMessage, bind_ok_iff, pure_ok_iff]
    constructor
    · rintro ⟨_, control, controlRead, -⟩
      exact ⟨control, controlRead⟩
    · rintro ⟨control, controlRead⟩
      exact ⟨_, control, controlRead, rfl⟩

/-! ## Refusals -/

/-- The conversion does not fail with an error of the protocol. -/
def Adapts {α : Type} (result : Except IpcError α) : Prop :=
  ∀ error, result ≠ .error (.protocol error)

namespace Adapts

variable {α β : Type}

omit [UrlCrate] [UuidCrate]

theorem ok {value : α} : Adapts (.ok value) := by
  rintro error ⟨⟩

theorem domain {result : Except DomainError α} : Adapts (orIpcError result) := by
  intro error same
  cases result <;> cases same

theorem bind {first : Except IpcError α} {next : α → Except IpcError β} (adapts : Adapts first)
    (rest : ∀ value, Adapts (next value)) : Adapts (first >>= next) := by
  intro error same
  cases first with
  | error _ =>
    cases same
    exact adapts error rfl
  | ok value => exact rest value error same

theorem u8Index (field : String) (value : UInt16) : Adapts (KeyroCore.u8Index field value) := by
  intro error same
  unfold KeyroCore.u8Index at same
  split at same <;> cases same

theorem control (dto : ControlDto) : Adapts (controlFromDto dto) := by
  cases dto with
  | key page key => exact (u8Index _ _).bind fun _ => (u8Index _ _).bind fun _ => domain
  | encoder page encoder operation =>
    exact (u8Index _ _).bind fun _ => (u8Index _ _).bind fun _ => domain

end Adapts

theorem adapts_commandFromMessage (message : ClientMessage) :
    Adapts (commandFromMessage message) := by
  cases message with
  | handshake => rintro error ⟨⟩
  | getSnapshot | listProfiles | createProfile => exact .ok
  | renameProfile | setActiveProfile => exact Adapts.domain.bind fun _ => .ok
  | saveAssignment assignment =>
    have action : Adapts (actionFromDto assignment.action) := Adapts.domain.bind fun _ => .ok
    exact Adapts.bind (Adapts.domain.bind fun _ => (Adapts.control _).bind fun _ =>
      action.bind fun _ => .domain) fun _ => .ok
  | clearAssignment => exact Adapts.domain.bind fun _ => (Adapts.control _).bind fun _ => .ok
  | virtualControlInput => exact (Adapts.control _).bind fun _ => .ok

theorem ipcErrorMessage_of_refused {message : ClientMessage} {error : IpcError}
    (refused : commandFromMessage message = .error error) (requestId : Option String) :
    ipcErrorMessage requestId error =
      .error requestId { code := .validationFailed, message := error.display } := by
  cases error with
  | protocol error => exact absurd refused (adapts_commandFromMessage message error)
  | domain | handshakeRequiresSession | indexOutOfRange => rfl

theorem dispatchEnvelope_request {session : ProtocolSession} {requestId : String}
    {message : ClientMessage} (request : ∀ handshake, message ≠ .handshake handshake)
    (established : session.state = .established) :
    (∀ command, commandFromMessage message = .ok command →
      session.dispatchEnvelope ⟨requestId, message⟩ = (.command requestId command, session)) ∧
    ∀ error, commandFromMessage message = .error error →
      session.dispatchEnvelope ⟨requestId, message⟩ = (.immediate (.error (some requestId)
        { code := .validationFailed, message := error.display }), session) := by
  constructor
  · intro command converted
    cases message with
    | handshake handshake => exact absurd rfl (request handshake)
    | _ =>
      unfold ProtocolSession.dispatchEnvelope
      rw [established]
      dsimp only
      rw [converted]
  · intro error converted
    rw [← ipcErrorMessage_of_refused converted]
    cases message with
    | handshake handshake => exact absurd rfl (request handshake)
    | _ =>
      unfold ProtocolSession.dispatchEnvelope
      rw [established]
      dsimp only
      rw [converted]

end Commands

/-! ## Lines that conform -/

section Answers

variable [UuidCrate] [UrlCrate]

/-- The message completes the handshake of the session. -/
def ProtocolSession.Completes (session : ProtocolSession) (message : ClientMessage) : Prop :=
  session.state = .awaitingHandshake ∧ ∃ handshake, message = .handshake handshake

/-- The session hands the message to Core. -/
def ProtocolSession.Serves (session : ProtocolSession) (message : ClientMessage) : Prop :=
  session.state = .established ∧ (∀ handshake, message ≠ .handshake handshake) ∧
    message.Serviceable

/-- What a session does with a conforming message. -/
structure ProtocolSession.Answers [SerdeJson] (session : ProtocolSession) (line requestId : String)
    (message : ClientMessage) : Prop where
  accepted : session.Completes message → session.receiveLine line =
    (.immediate (.handshakeAccepted requestId session.coreVersion .current),
      { session with state := .established })
  served : session.Serves message → ∃ command, commandFromMessage message = .ok command ∧
    session.receiveLine line = (.command requestId command, session)
  refused : ¬ session.Completes message → ¬ session.Serves message → ∃ text,
    session.receiveLine line = (.immediate (.error (some requestId)
      { code := .validationFailed, message := text }), session)

/-- A conforming line is answered under its own request id: the first handshake is accepted, what
can be served is handed to Core, and anything else fails its validation. -/
theorem conforming_answered [SerdeJson] (isUri : String → Bool)
    (uuids : UuidCrate.ReadsHyphenated) (session : ProtocolSession) {line requestId : String}
    {json : Json} (parsed : SerdeJson.parse line = some json)
    (valid : (Contract.clientEnvelope isUri).validates json = true)
    (literal : json.literal = true) (extracted : extractRequestId line = some requestId) :
    ∃ message, decodeClientEnvelope line = .ok ⟨requestId, message⟩ ∧
      session.Answers line requestId message := by
  obtain ⟨message, decoded⟩ := decoded_of_literal parsed valid literal extracted
  have regular : message.Regular := by
    obtain ⟨-, json', parsed', read⟩ := decodeClientEnvelope_ok_iff.1 decoded
    obtain rfl : json' = json := Option.some.inj (parsed'.symm.trans parsed)
    exact (ClientEnvelope.exact json' valid).holds _ read
  have dispatched : session.receiveLine line = session.dispatchEnvelope ⟨requestId, message⟩ := by
    rw [ProtocolSession.receiveLine, decoded]
  refine ⟨message, decoded, ?_, ?_, ?_⟩
  · rintro ⟨awaiting, handshake, rfl⟩
    exact ProtocolSession.receiveLine_exactly awaiting ⟨handshake, decoded, regular⟩
  · rintro ⟨established, request, serviceable⟩
    obtain ⟨command, converted⟩ := (commandFromMessage_isOk_iff uuids regular request).2 serviceable
    refine ⟨command, converted, ?_⟩
    rw [dispatched, (dispatchEnvelope_request request established).1 command converted]
  · intro incomplete unserved
    rw [dispatched]
    cases state : session.state with
    | awaitingHandshake =>
      cases message with
      | handshake handshake => exact absurd ⟨state, handshake, rfl⟩ incomplete
      | _ =>
        unfold ProtocolSession.dispatchEnvelope
        rw [state]
        exact ⟨_, rfl⟩
    | established =>
      by_cases asks : ∃ handshake, message = .handshake handshake
      · obtain ⟨handshake, rfl⟩ := asks
        unfold ProtocolSession.dispatchEnvelope
        rw [state]
        exact ⟨_, rfl⟩
      · have request : ∀ handshake, message ≠ .handshake handshake := not_exists.1 asks
        cases converted : commandFromMessage message with
        | ok command =>
          have serviceable := (commandFromMessage_isOk_iff uuids regular request).1 ⟨_, converted⟩
          exact absurd ⟨state, request, serviceable⟩ unserved
        | error error =>
          exact ⟨_, (dispatchEnvelope_request request state).2 error converted⟩

end Answers

section Examples

open Reference

/-- The groups of a split are what is left without the separators. -/
theorem flatten_splitOn {α : Type} [BEq α] (separator : α) (l : List α) :
    (l.splitOn separator).flatten = l.filter fun a => !(a == separator) := by
  induction l with
  | nil => rfl
  | cons a l ih =>
    rw [List.splitOn_cons_eq_if_modifyHead, List.filter_cons, ← ih]
    cases a == separator with
    | true => rfl
    | false =>
      obtain ⟨group, rest, split⟩ := List.exists_cons_of_ne_nil (List.splitOn_ne_nil separator l)
      rw [split]
      rfl

theorem exists_hexValue {c : Char} (digit : Schema.isHexDigit c = true) :
    ∃ d, hexValue c = some d := by
  unfold Schema.isHexDigit at digit
  unfold hexValue
  split_ifs with decimal lower upper
  · exact ⟨_, rfl⟩
  · exact ⟨_, rfl⟩
  · exact ⟨_, rfl⟩
  · simp only [Bool.or_eq_true, Bool.and_eq_true, decide_eq_true_eq] at digit
    obtain (digit | digit) | digit := digit
    · exact absurd digit decimal
    · exact absurd digit lower
    · exact absurd digit upper

theorem exists_ofDigits {cs : List Char} (digits : ∀ c ∈ cs, Schema.isHexDigit c = true)
    (length : cs.length = 32) : ∃ uuid, ofDigits cs = some uuid := by
  have read (cs : List Char) (digits : ∀ c ∈ cs, Schema.isHexDigit c = true) :
      ∃ values, cs.mapM hexValue = some values ∧ values.length = cs.length := by
    induction cs with
    | nil => exact ⟨[], rfl, rfl⟩
    | cons c cs ih =>
      rw [List.forall_mem_cons] at digits
      obtain ⟨d, value⟩ := exists_hexValue digits.1
      obtain ⟨values, rest, same⟩ := ih digits.2
      refine ⟨d :: values, ?_, congrArg (· + 1) same⟩
      rw [List.mapM_cons, value, rest]
      rfl
  obtain ⟨values, all, same⟩ := read cs digits
  have length : values.length = 32 := same.trans length
  refine ⟨⟨values, length⟩, ?_⟩
  rw [ofDigits, all]
  dsimp only
  rw [dif_pos length]

theorem readsHyphenated : UuidCrate.ReadsHyphenated := by
  intro text uuid
  obtain ⟨shape, digits⟩ := Bool.and_eq_true_iff.1 uuid
  have shape := of_decide_eq_true shape
  have groups : unhyphenate text.toList = some (text.toList.splitOn '-').flatten := if_pos shape
  obtain ⟨value, read⟩ : ∃ value, ofDigits (text.toList.splitOn '-').flatten = some value := by
    refine exists_ofDigits (fun c mem => ?_) ?_
    · rw [flatten_splitOn, List.mem_filter] at mem
      have either := List.all_eq_true.1 digits c mem.1
      simpa [show c ≠ '-' by simpa using mem.2] using either
    · rw [List.length_flatten, shape]
      rfl
  refine ⟨value, ?_⟩
  show parseUuid text = some value
  unfold parseUuid
  simp only [groups, Option.isSome_some, if_true, Option.bind_some, read]

/-- The key of the line does not exist, so its input fails the validation. -/
theorem conforming_answered_example : ∃ text,
    ProtocolSession.receiveLine ⟨"0.1.0", .established⟩ (keyInputLine 4 11) =
      (.immediate (.error (some "1") { code := .validationFailed, message := text }),
        ⟨"0.1.0", .established⟩) := by
  have known : decodeClientEnvelope (keyInputLine 4 11) =
      .ok ⟨"1", .virtualControlInput (.key 4 11)⟩ :=
    decode_rendered (by decide +kernel) (by decide +kernel) (by decide)
  obtain ⟨message, decoded, answers⟩ := conforming_answered (fun _ => true) readsHyphenated
    ⟨"0.1.0", .established⟩ (parse_keyInputLine 4 (by simp)) (by decide +kernel) (by decide +kernel)
    (extract_keyInputLine 4 (by simp))
  refine answers.refused ?_ ?_
  · rintro ⟨⟨⟩, -⟩
  · rintro ⟨-, -, serviceable⟩
    rw [known] at decoded
    cases decoded
    exact absurd serviceable.1 (by decide)

end Examples

end KeyroCore
