import KeyroCore.Ipc.Session
import KeyroCore.Protocol.Schema
import KeyroCore.Reference

/-!
# The decoder and the published grammar

A decoder accepts a value that is no instance of the contract in four ways only: a struct or a
tagged value may be an array, a tag or an operation may be no string, and the texts of identities,
names and URLs are checked less.  `Canonical` rules these out and says nothing else: which members
an object has and which indices are in range is up to the decoder.
-/

open Serde (validates_of_fields validates_of_variant member?_of_fields member?_of_variant)

namespace KeyroCore

/-! ## Canonical spellings -/

/-- A string, if it is one, has the property. -/
def whenString (p : String → Bool) (json : Json) : Bool := json.string?.all p

def ControlDto.canonical (json : Json) : Bool :=
  json.isObject && json.onMember "kind" Json.isString && json.onMember "operation" Json.isString

def ActionDto.canonical (isUri : String → Bool) (json : Json) : Bool :=
  json.isObject && json.onMember "kind" Json.isString &&
    json.onMember "url" (whenString fun url => isUri url && Contract.isHttp url)

def AssignmentDto.canonical (isUri : String → Bool) (json : Json) : Bool :=
  json.isObject && json.onMember "profile_id" (whenString Schema.isUuid) &&
    json.onMember "control" ControlDto.canonical &&
    json.onMember "action" (ActionDto.canonical isUri)

def ClientMessage.canonical (isUri : String → Bool) (json : Json) : Bool :=
  json.isObject && json.onMember "name" (whenString (Schema.minLength 1)) &&
    json.onMember "profile_id" (whenString Schema.isUuid) &&
    json.onMember "control" ControlDto.canonical &&
    json.onMember "assignment" (AssignmentDto.canonical isUri)

/-- Structs and tagged values are objects, tags and operations are strings, profile ids are
hyphenated UUIDs, names are not empty and URLs begin with a scheme in lower case and two slashes. -/
def ClientEnvelope.canonical (isUri : String → Bool) (json : Json) : Bool :=
  json.isObject && json.onMember "message" (ClientMessage.canonical isUri)

/-! ## Leaves -/

theorem validates_of_string {asserted : String → Bool} {json : Json} {s : String}
    (read : Serde.string json = some s) :
    (Schema.string asserted).validates json = whenString asserted json := by
  cases json with
  | string text => simp [whenString, Json.string?]
  | _ => cases read

theorem validates_of_u16 {json : Json} {n : UInt16} (read : Serde.u16 json = some n) :
    Contract.index.validates json = true := by
  unfold Serde.u16 at read
  split at read
  · next m =>
    split_ifs at read with bounds
    have upper : m ≤ 65535 := by omega
    simp [Contract.index, Schema.validates, Json.integer?, bounds.1, upper]
  · cases read

/-- A unit variant of a string is the string. -/
theorem validates_of_unitVariant {names : List String} {json : Json} {name : String}
    (read : Serde.unitVariant names json = some name) :
    (Schema.enum names).validates json = json.isString := by
  unfold Serde.unitVariant at read
  split at read
  · split_ifs at read with known
    simp [Schema.validates, Json.string?, Json.isString, known]
  · rfl
  · rfl
  · cases read

/-! ## DTOs -/

theorem EncoderOperationDto.validates {json : Json} {dto : EncoderOperationDto}
    (read : EncoderOperationDto.deserialize json = some dto) :
    (Schema.enum ["left", "right", "press"]).validates json = json.isString := by
  obtain ⟨name, variant, -⟩ := Option.bind_eq_some_iff.1 read
  exact validates_of_unitVariant variant

theorem ControlDto.validates {json : Json} {dto : ControlDto}
    (read : ControlDto.deserialize json = some dto) :
    Contract.control.validates json = ControlDto.canonical json := by
  by_cases object : json.isObject = true
  · unfold deserialize at read
    obtain ⟨⟨kind, content⟩, tagged, read⟩ := Option.bind_eq_some_iff.1 read
    dsimp only at read
    split at read
    · obtain ⟨values, fields, read⟩ := Option.bind_eq_some_iff.1 read
      split at read
      · obtain ⟨_, page, read⟩ := Option.bind_eq_some_iff.1 read
        obtain ⟨_, key, -⟩ := Option.bind_eq_some_iff.1 read
        have valid := validates_of_variant [Contract.keyControl, Contract.encoderControl]
          (by decide) (List.mem_cons_self ..) (by decide) (fun _ => Serde.eq_of_bufferedVariant)
          tagged fields
        have operation : json.member? "operation" = none :=
          member?_of_variant (by decide) tagged fields object (by decide)
        rw [Contract.control, valid, canonical, Json.onMember, Json.onMember, operation]
        simp [object, validates_of_u16 page, validates_of_u16 key]
      · cases read
    · obtain ⟨values, fields, read⟩ := Option.bind_eq_some_iff.1 read
      split at read
      · next operation =>
        obtain ⟨_, page, read⟩ := Option.bind_eq_some_iff.1 read
        obtain ⟨_, encoder, read⟩ := Option.bind_eq_some_iff.1 read
        obtain ⟨_, operated, -⟩ := Option.bind_eq_some_iff.1 read
        have valid := validates_of_variant [Contract.keyControl, Contract.encoderControl]
          (by decide) (List.mem_cons_of_mem _ (List.mem_cons_self ..)) (by decide)
          (fun _ => Serde.eq_of_bufferedVariant) tagged fields
        have member : json.member? "operation" = some operation :=
          member?_of_variant (by decide) tagged fields object (by decide)
        rw [Contract.control, valid, canonical, Json.onMember, Json.onMember, member]
        simp [object, validates_of_u16 page, validates_of_u16 encoder,
          EncoderOperationDto.validates operated]
      · cases read
    · cases read
  · have plain : json.isObject = false := Bool.of_not_eq_true object
    rw [Contract.control, Schema.validates_tagged_eq_false plain, canonical, plain]
    rfl

variable {isUri : String → Bool}

theorem ActionDto.validates {json : Json} {dto : ActionDto}
    (read : ActionDto.deserialize json = some dto) :
    (Contract.action isUri).validates json = ActionDto.canonical isUri json := by
  by_cases object : json.isObject = true
  · unfold deserialize at read
    obtain ⟨⟨kind, content⟩, tagged, read⟩ := Option.bind_eq_some_iff.1 read
    dsimp only at read
    split at read
    · obtain ⟨values, fields, read⟩ := Option.bind_eq_some_iff.1 read
      split at read
      · next url =>
        obtain ⟨_, text, -⟩ := Option.bind_eq_some_iff.1 read
        have valid := validates_of_variant [Contract.openUrlAction isUri] (List.nodup_singleton _)
          (List.mem_singleton_self _) (show ["kind", "url"].Nodup by decide)
          (fun _ => Serde.eq_of_bufferedVariant) tagged fields
        have member : json.member? "url" = some url :=
          member?_of_variant (by decide) tagged fields object (by decide)
        rw [Contract.action, valid, canonical, Json.onMember, Json.onMember, member]
        simp [object, validates_of_string text]
      · cases read
    · cases read
  · have plain : json.isObject = false := Bool.of_not_eq_true object
    rw [Contract.action, Schema.validates_tagged_eq_false plain, canonical, plain]
    rfl

theorem AssignmentDto.validates {json : Json} {dto : AssignmentDto}
    (read : AssignmentDto.deserialize json = some dto) :
    (Contract.assignment isUri).validates json = AssignmentDto.canonical isUri json := by
  unfold deserialize at read
  obtain ⟨values, fields, read⟩ := Option.bind_eq_some_iff.1 read
  split at read
  · next profileId control action =>
    obtain ⟨_, text, read⟩ := Option.bind_eq_some_iff.1 read
    obtain ⟨_, controlRead, read⟩ := Option.bind_eq_some_iff.1 read
    obtain ⟨_, actionRead, -⟩ := Option.bind_eq_some_iff.1 read
    have valid : (Contract.assignment isUri).validates json = _ :=
      validates_of_fields (show ["profile_id", "control", "action"].Nodup by decide) fields
    rw [valid]
    by_cases object : json.isObject = true
    · have member := member?_of_fields (by decide) fields object
      simp [canonical, Json.onMember, member, object, Contract.uuid, validates_of_string text,
        ControlDto.validates controlRead, ActionDto.validates actionRead, List.lookup_cons,
        Bool.and_assoc]
    · simp [canonical, object]
  · cases read

/-! ## Messages -/

namespace ClientMessage

/-- The tag of a message is read while its text is parsed, so it is a string. -/
theorem isString_type {json content : Json} {type : String}
    (tagged : Serde.tagged "type" (Serde.variant messageTypes) json = some (type, content))
    (object : json.isObject = true) : json.onMember "type" Json.isString = true := by
  obtain ⟨_, value, -, -, found, variant⟩ := Serde.of_tagged tagged object
  rw [Json.onMember, found]
  cases value with
  | string => rfl
  | _ => cases variant

/-- No variant names a member twice, its tag included. -/
theorem nodup_clientMessages {alternative : String × List (String × Schema)}
    (mem : alternative ∈ Contract.clientMessages isUri) :
    ("type" :: alternative.2.map Prod.fst).Nodup := by
  have apart : ∀ members ∈ [["component", "component_version", "protocol"], [], [], ["name"],
      ["profile_id", "name"], ["profile_id"], ["assignment"], ["profile_id", "control"],
      ["control"]], ("type" :: members).Nodup := by decide
  apply apart
  show _ ∈ (Contract.clientMessages isUri).map fun alternative => alternative.2.map Prod.fst
  exact List.mem_map_of_mem mem

section Variant

variable {json content : Json} {type : String} {values : List Json}
  (tagged : Serde.tagged "type" (Serde.variant messageTypes) json = some (type, content))
  (object : json.isObject = true)

include tagged object

/-- An object that a variant was read from is an instance if the fields are. -/
theorem validates_variant {properties : List (String × Schema)}
    (mem : (type, properties) ∈ Contract.clientMessages isUri)
    (apart : ("type" :: properties.map Prod.fst).Nodup)
    (fields : Serde.fields (properties.map Prod.fst) content = some values) :
    (Contract.clientMessage isUri).validates json =
      (properties.zip values).all fun pair => pair.1.2.validates pair.2 := by
  have alternatives : ((Contract.clientMessages isUri).map Prod.fst).Nodup :=
    show messageTypes.Nodup by decide
  rw [Contract.clientMessage, validates_of_variant _ alternatives mem apart
      (fun _ => Serde.eq_of_variant) tagged fields,
    object, isString_type tagged object, Bool.and_true, Bool.true_and]

/-- It is canonical if the fields are. -/
theorem canonical_variant {names : List String} (nodup : names.Nodup)
    (fields : Serde.fields names content = some values) :
    ClientMessage.canonical isUri json =
      (((names.zip values).lookup "name").all (whenString (Schema.minLength 1)) &&
        ((names.zip values).lookup "profile_id").all (whenString Schema.isUuid) &&
        ((names.zip values).lookup "control").all ControlDto.canonical &&
        ((names.zip values).lookup "assignment").all (AssignmentDto.canonical isUri)) := by
  have member {other : String} (differ : other ≠ "type") :=
    member?_of_variant nodup tagged fields object differ
  simp only [canonical, Json.onMember, object, member (show "name" ≠ "type" by decide),
    member (show "profile_id" ≠ "type" by decide), member (show "control" ≠ "type" by decide),
    member (show "assignment" ≠ "type" by decide), Bool.true_and]

/-- A variant is an instance if it is canonical, provided that this is so of its fields. -/
theorem agrees_variant {properties : List (String × Schema)}
    (mem : (type, properties) ∈ Contract.clientMessages isUri)
    (fields : Serde.fields (properties.map Prod.fst) content = some values)
    (agree : ((properties.zip values).all fun pair => pair.1.2.validates pair.2) =
      ((((properties.map Prod.fst).zip values).lookup "name").all
          (whenString (Schema.minLength 1)) &&
        (((properties.map Prod.fst).zip values).lookup "profile_id").all
          (whenString Schema.isUuid) &&
        (((properties.map Prod.fst).zip values).lookup "control").all ControlDto.canonical &&
        (((properties.map Prod.fst).zip values).lookup "assignment").all
          (AssignmentDto.canonical isUri))) :
    (Contract.clientMessage isUri).validates json = ClientMessage.canonical isUri json := by
  have apart : ("type" :: properties.map Prod.fst).Nodup := nodup_clientMessages mem
  rw [validates_variant tagged object mem apart fields,
    canonical_variant tagged object (List.nodup_cons.1 apart).2 fields, agree]

end Variant

theorem validates {json : Json} {message : ClientMessage}
    (read : ClientMessage.deserialize json = some message)
    (request : ∀ handshake, message ≠ .handshake handshake) :
    (Contract.clientMessage isUri).validates json = ClientMessage.canonical isUri json := by
  by_cases object : json.isObject = true
  · unfold deserialize deserializeVariant at read
    obtain ⟨⟨type, content⟩, tagged, read⟩ := Option.bind_eq_some_iff.1 read
    dsimp only at read
    split at read
    · obtain ⟨_, -, same⟩ := Option.bind_eq_some_iff.1 read
      cases same
      exact absurd rfl (request _)
    · obtain ⟨values, fields, read⟩ := Option.bind_eq_some_iff.1 read
      split at read
      · have mem : Contract.getSnapshot ∈ Contract.clientMessages isUri := by
          simp [Contract.clientMessages]
        apply agrees_variant tagged object mem fields
        rfl
      · cases read
    · obtain ⟨values, fields, read⟩ := Option.bind_eq_some_iff.1 read
      split at read
      · have mem : Contract.listProfiles ∈ Contract.clientMessages isUri := by
          simp [Contract.clientMessages]
        apply agrees_variant tagged object mem fields
        rfl
      · cases read
    · obtain ⟨values, fields, read⟩ := Option.bind_eq_some_iff.1 read
      split at read
      · obtain ⟨_, name, -⟩ := Option.bind_eq_some_iff.1 read
        have mem : Contract.createProfile ∈ Contract.clientMessages isUri := by
          simp [Contract.clientMessages]
        apply agrees_variant tagged object mem fields
        simp [List.lookup_cons, Contract.nonEmpty, validates_of_string name]
      · cases read
    · obtain ⟨values, fields, read⟩ := Option.bind_eq_some_iff.1 read
      split at read
      · obtain ⟨_, profileId, read⟩ := Option.bind_eq_some_iff.1 read
        obtain ⟨_, name, -⟩ := Option.bind_eq_some_iff.1 read
        have mem : Contract.renameProfile ∈ Contract.clientMessages isUri := by
          simp [Contract.clientMessages]
        apply agrees_variant tagged object mem fields
        simp [List.lookup_cons, Contract.uuid, Contract.nonEmpty, validates_of_string profileId,
          validates_of_string name, Bool.and_comm]
      · cases read
    · obtain ⟨values, fields, read⟩ := Option.bind_eq_some_iff.1 read
      split at read
      · obtain ⟨_, profileId, -⟩ := Option.bind_eq_some_iff.1 read
        have mem : Contract.setActiveProfile ∈ Contract.clientMessages isUri := by
          simp [Contract.clientMessages]
        apply agrees_variant tagged object mem fields
        simp [List.lookup_cons, Contract.uuid, validates_of_string profileId]
      · cases read
    · obtain ⟨values, fields, read⟩ := Option.bind_eq_some_iff.1 read
      split at read
      · obtain ⟨_, assignment, -⟩ := Option.bind_eq_some_iff.1 read
        have mem : Contract.saveAssignment isUri ∈ Contract.clientMessages isUri := by
          simp [Contract.clientMessages]
        apply agrees_variant tagged object mem fields
        simp [List.lookup_cons, AssignmentDto.validates assignment]
      · cases read
    · obtain ⟨values, fields, read⟩ := Option.bind_eq_some_iff.1 read
      split at read
      · obtain ⟨_, profileId, read⟩ := Option.bind_eq_some_iff.1 read
        obtain ⟨_, control, -⟩ := Option.bind_eq_some_iff.1 read
        have mem : Contract.clearAssignment ∈ Contract.clientMessages isUri := by
          simp [Contract.clientMessages]
        apply agrees_variant tagged object mem fields
        simp [List.lookup_cons, Contract.uuid, validates_of_string profileId,
          ControlDto.validates control]
      · cases read
    · obtain ⟨values, fields, read⟩ := Option.bind_eq_some_iff.1 read
      split at read
      · obtain ⟨_, control, -⟩ := Option.bind_eq_some_iff.1 read
        have mem : Contract.virtualControlInput ∈ Contract.clientMessages isUri := by
          simp [Contract.clientMessages]
        apply agrees_variant tagged object mem fields
        simp [List.lookup_cons, ControlDto.validates control]
      · cases read
    · cases read
  · have plain : json.isObject = false := Bool.of_not_eq_true object
    rw [Contract.clientMessage, Schema.validates_tagged_eq_false plain, canonical, plain]
    rfl

end ClientMessage

theorem ClientEnvelope.validates {json : Json} {envelope : ClientEnvelope}
    (read : ClientEnvelope.deserialize json = some envelope)
    (named : isBlank envelope.requestId = false)
    (request : ∀ handshake, envelope.message ≠ .handshake handshake) :
    (Contract.clientEnvelope isUri).validates json = ClientEnvelope.canonical isUri json := by
  unfold deserialize at read
  obtain ⟨values, fields, read⟩ := Option.bind_eq_some_iff.1 read
  split at read
  · next requestId message =>
    obtain ⟨id, text, read⟩ := Option.bind_eq_some_iff.1 read
    obtain ⟨_, messageRead, same⟩ := Option.bind_eq_some_iff.1 read
    cases same
    have nonEmpty : Contract.nonEmpty.validates requestId = true := by
      rw [Contract.nonEmpty, validates_of_string text]
      cases requestId with
      | string s =>
        cases text
        exact Schema.minLength_one_iff.2 (ne_empty_of_not_blank named)
      | _ => cases text
    have valid : (Contract.clientEnvelope isUri).validates json = _ :=
      validates_of_fields (show ["request_id", "message"].Nodup by decide) fields
    rw [valid]
    by_cases object : json.isObject = true
    · have member : json.member? "message" = some message :=
        member?_of_fields (by decide) fields object "message"
      rw [canonical, Json.onMember, member]
      simp [nonEmpty, ClientMessage.validates messageRead request]
    · simp [canonical, object]
  · cases read

/-! ## Commands -/

/-- The value of a line that a session dispatches as a command is an instance of the published
grammar if and only if it is canonical. -/
theorem command_conforms_iff [SerdeJson] [UuidCrate] [UrlCrate] (isUri : String → Bool)
    {session : ProtocolSession} {line requestId : String} {command : CoreCommand}
    (dispatched : (session.receiveLine line).1 = .command requestId command) {json : Json}
    (parsed : SerdeJson.parse line = some json) :
    (Contract.clientEnvelope isUri).validates json = true ↔
      ClientEnvelope.canonical isUri json = true := by
  obtain ⟨-, message, decoded, converted⟩ := ProtocolSession.receiveLine_command_iff.1 dispatched
  obtain ⟨named, json', parsed', read⟩ := decodeClientEnvelope_ok_iff.1 decoded
  obtain rfl : json' = json := Option.some.inj (parsed'.symm.trans parsed)
  have request (handshake : HandshakeMessage) : message ≠ .handshake handshake := by
    rintro rfl
    cases converted
  rw [ClientEnvelope.validates read named request]

section Examples

open Reference

/-- A request to activate the profile with a UUID of this spelling. -/
def activateJson (spelling : String) : Json :=
  .object [("request_id", .string "1"),
    ("message", .object [("type", .string "set_active_profile"), ("profile_id", .string spelling)])]

def activateLine (spelling : String) : String :=
  clientLine "1" "set_active_profile" [("profile_id", .string spelling)]

theorem receive_activateLine :
    ∀ spelling ∈ [displayUuid (uuid 1), "00000000000000000000000000000001"],
      SerdeJson.parse (activateLine spelling) = some (activateJson spelling) ∧
        (ProtocolSession.receiveLine ⟨"0.1.0", .established⟩ (activateLine spelling)).1 =
          .command "1" (.setActiveProfile ⟨uuid 1⟩) := by
  have known : ∀ spelling ∈ [displayUuid (uuid 1), "00000000000000000000000000000001"],
      readValue (renderJson (activateJson spelling)).length (renderJson (activateJson spelling)) =
          some (activateJson spelling, []) ∧
        ClientEnvelope.deserialize (activateJson spelling) =
            some ⟨"1", .setActiveProfile spelling⟩ ∧
          commandFromMessage (.setActiveProfile spelling) = .ok (.setActiveProfile ⟨uuid 1⟩) := by
    decide +kernel
  intro spelling mem
  obtain ⟨read, deserialized, converted⟩ := known spelling mem
  refine ⟨parse_rendered read, ProtocolSession.receiveLine_command_iff.2 ⟨rfl, _, ?_, converted⟩⟩
  exact decode_rendered read deserialized (show isBlank "1" = false by decide)

theorem command_conforms_iff_example :
    ∃ json, SerdeJson.parse (activateLine (displayUuid (uuid 1))) = some json ∧
      (Contract.clientEnvelope fun _ => true).validates json = true := by
  obtain ⟨parsed, dispatched⟩ := receive_activateLine _ (List.mem_cons_self ..)
  refine ⟨_, parsed, (command_conforms_iff (fun _ => true) dispatched parsed).2 ?_⟩
  decide +kernel

/-- A UUID without hyphens is dispatched, although no text is refused as a URI. -/
theorem command_beyond_grammar :
    ¬ ∀ (session : ProtocolSession) (line requestId : String) (command : CoreCommand) (json : Json),
      session.state = .established →
      (session.receiveLine line).1 = .command requestId command →
      SerdeJson.parse line = some json →
      (Contract.clientEnvelope fun _ => true).validates json = true := by
  intro claim
  obtain ⟨parsed, dispatched⟩ :=
    receive_activateLine _ (List.mem_cons_of_mem _ (List.mem_singleton_self _))
  exact absurd (claim _ _ _ _ _ rfl dispatched parsed) (by decide +kernel)

end Examples

end KeyroCore
