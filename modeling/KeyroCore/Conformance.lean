import KeyroCore.Effect.Safe
import KeyroCore.Grammar
import KeyroCore.Handshake
import KeyroCore.Output
import KeyroCore.Provenance

/-!
# Server messages and the published contract

What a connection sends is an instance of `serverMessage`, as long as every URL that its session
dispatches to be saved conforms: identities are printed with hyphens, names and request ids are
checked when they are accepted, and indices are those of controls.  A URL is stored as the client
wrote it.
-/

open Effect Program Fallible Results

namespace KeyroCore

/-- `Display for Uuid` prints the hyphenated form. -/
def UuidCrate.Hyphenated [UuidCrate] : Prop := ∀ u, Schema.isUuid (display u) = true

variable {isUri : String → Bool}

/-! ## Encoded values -/

theorem ControlDto.validates_serialize (dto : ControlDto) :
    Contract.control.validates dto.serialize = true := by
  rw [ControlDto.validates dto.deserialize_serialize]
  cases dto with
  | key => rfl
  | encoder _ _ operation => cases operation <;> rfl

theorem ActionDto.validates_serialize (url : String) :
    (Contract.action isUri).validates (ActionDto.openUrl url).serialize =
      (isUri url && Contract.isHttp url) := by
  rw [ActionDto.validates (ActionDto.deserialize_serialize _)]
  rfl

theorem ProfileDto.validates_serialize (dto : ProfileDto) :
    Contract.profile.validates dto.serialize =
      (Schema.isUuid dto.id && Schema.minLength 1 dto.name) := by
  have valid : Contract.profile.validates dto.serialize = _ :=
    Serde.validates_zip _ [.string dto.id, .string dto.name, .bool dto.isActive] (by decide) rfl
  rw [valid]
  simp [Contract.uuid, Contract.nonEmpty, Schema.validates, Json.string?]

theorem validates_layout :
    Contract.deviceLayout.validates (layoutToDto MVP_DEVICE_LAYOUT).serialize = true := by
  decide +kernel

theorem SnapshotAssignmentDto.validates_serialize (dto : SnapshotAssignmentDto) :
    (Contract.snapshotAssignment isUri).validates dto.serialize = (Schema.isUuid dto.profileId &&
      dto.actions.all fun action => (Contract.action isUri).validates action.serialize) := by
  have valid : (Contract.snapshotAssignment isUri).validates dto.serialize = _ :=
    Serde.validates_zip _ [.string dto.profileId, dto.control.serialize,
      Serde.ofList ActionDto.serialize dto.actions]
      (show ["profile_id", "control", "actions"].Nodup by decide) rfl
  rw [valid]
  simp [Contract.uuid, ControlDto.validates_serialize, Serde.validates_ofList]

/-- An event is an instance if its identities are. -/
theorem ActionEventDto.validates_serialize (event : ActionEventDto) :
    Contract.actionEventPayload.validates event.serialize = match event with
      | .running executionId profileId _ => Schema.isUuid executionId && Schema.isUuid profileId
      | .succeeded executionId | .failed executionId _ _ => Schema.isUuid executionId := by
  have valid (alternative : Contract.Alternative) (values : List Json)
      (mem : alternative ∈ [Contract.actionRunning, Contract.actionSucceeded,
        Contract.actionFailed]) := Serde.validates_ofTagged "state" alternative values (by decide) mem
  cases event with
  | running executionId profileId control =>
    refine (valid Contract.actionRunning [.string executionId, .string profileId,
      control.serialize] (by simp) (by decide) rfl).trans ?_
    simp [Contract.actionRunning, Contract.uuid, ControlDto.validates_serialize]
  | succeeded executionId =>
    refine (valid Contract.actionSucceeded [.string executionId] (by simp) (by decide) rfl).trans ?_
    simp [Contract.actionSucceeded, Contract.uuid]
  | failed executionId code message =>
    refine (valid Contract.actionFailed [.string executionId, code.serialize, .string message]
      (by simp) (by decide) rfl).trans ?_
    cases code <;> simp [Contract.actionFailed, Contract.uuid, Contract.text,
      ActionFailureCode.serialize, Schema.validates, Json.string?]

theorem ErrorDto.validates_serialize (error : ErrorDto) :
    (Schema.object [("code", .enum ["incompatible_protocol", "unknown_message",
      "validation_failed", "not_found", "internal"]), ("message", Contract.text)]).validates
        error.serialize = true := by
  obtain ⟨code, message⟩ := error
  refine (Serde.validates_zip _ [code.serialize, .string message] (by decide) rfl).trans ?_
  cases code <;>
    simp [ErrorCode.serialize, Contract.text, Schema.validates, Json.string?]

/-- A message is an instance if its request id, its identities, its names and its URLs are. -/
theorem ServerMessage.validates_serialize (message : ServerMessage) :
    (Contract.serverMessage isUri).validates message.serialize = match message with
      | .handshakeAccepted requestId coreVersion protocol =>
        Schema.minLength 1 requestId && (Schema.minLength 1 coreVersion &&
          Contract.handshakeProtocolVersion.validates protocol.serialize)
      | .profiles requestId items => Schema.minLength 1 requestId &&
        items.all fun item => Contract.profile.validates item.serialize
      | .profile requestId item =>
        Schema.minLength 1 requestId && Contract.profile.validates item.serialize
      | .snapshot requestId layout items assignments =>
        Schema.minLength 1 requestId && (Contract.deviceLayout.validates layout.serialize &&
          ((items.all fun item => Contract.profile.validates item.serialize) &&
            assignments.all fun a => (Contract.snapshotAssignment isUri).validates a.serialize))
      | .acknowledged requestId => Schema.minLength 1 requestId
      | .actionEvent event => Contract.actionEventPayload.validates event.serialize
      | .error requestId _ => requestId.all (Schema.minLength 1) := by
  have types : ((Contract.serverMessages isUri).map Prod.fst).Nodup :=
    show serverMessageTypes.Nodup by decide
  have valid (alternative : Contract.Alternative) (values : List Json)
      (mem : alternative ∈ Contract.serverMessages isUri) :=
    Serde.validates_ofTagged "type" alternative values types mem
  cases message with
  | handshakeAccepted requestId coreVersion protocol =>
    refine (valid Contract.handshakeAccepted [.string requestId, .string coreVersion,
      protocol.serialize] (by simp [Contract.serverMessages]) (by decide) rfl).trans ?_
    simp [Contract.handshakeAccepted, Contract.nonEmpty]
  | profiles requestId items =>
    refine (valid Contract.profiles [.string requestId, Serde.ofList ProfileDto.serialize items]
      (by simp [Contract.serverMessages]) (by decide) rfl).trans ?_
    simp [Contract.profiles, Contract.nonEmpty, Serde.validates_ofList]
  | profile requestId item =>
    refine (valid Contract.profileResponse [.string requestId, item.serialize]
      (by simp [Contract.serverMessages]) (by decide) rfl).trans ?_
    simp [Contract.profileResponse, Contract.nonEmpty]
  | snapshot requestId layout items assignments =>
    refine (valid (Contract.snapshot isUri) [.string requestId, layout.serialize,
      Serde.ofList ProfileDto.serialize items,
      Serde.ofList SnapshotAssignmentDto.serialize assignments]
      (by simp [Contract.serverMessages])
      (show ["type", "request_id", "layout", "profiles", "assignments"].Nodup by decide) rfl).trans ?_
    simp [Contract.snapshot, Contract.nonEmpty, Serde.validates_ofList]
  | acknowledged requestId =>
    refine (valid Contract.acknowledged [.string requestId] (by simp [Contract.serverMessages])
      (by decide) rfl).trans ?_
    simp [Contract.acknowledged, Contract.nonEmpty]
  | actionEvent event =>
    refine (valid Contract.actionEvent [event.serialize] (by simp [Contract.serverMessages])
      (by decide) rfl).trans ?_
    simp [Contract.actionEvent]
  | error requestId reason =>
    have named : (Schema.anyOf [Contract.nonEmpty, .null]).validates
        (Serde.ofOption Json.string requestId) = requestId.all (Schema.minLength 1) := by
      cases requestId with
      | none => simp [Schema.validates, Schema.countValid, Serde.ofOption]
      | some id =>
        simp [Schema.validates, Schema.countValid, Serde.ofOption, Contract.nonEmpty]
    refine (valid Contract.error [Serde.ofOption Json.string requestId, reason.serialize]
      (by simp [Contract.serverMessages]) (by decide) rfl).trans ?_
    simp [Contract.error, named, reason.validates_serialize]

/-! ## Values of Core -/

section Values

variable [UrlCrate]

/-- The URL is an instance of `openUrlAction`, as it was written. -/
def Action.Conforms (isUri : String → Bool) : Action → Prop
  | .openUrl url => isUri url.asStr = true ∧ Contract.isHttp url.asStr = true

/-- Names are not empty and URLs conform. -/
def CoreResponse.Conforms (isUri : String → Bool) : CoreResponse → Prop
  | .snapshot state => state.layout = MVP_DEVICE_LAYOUT ∧
      (∀ profile ∈ state.profiles, profile.name ≠ "") ∧
        ∀ a ∈ state.assignments, ∀ action ∈ a.actions, action.Conforms isUri
  | .profiles items => ∀ item ∈ items, item.name ≠ ""
  | .profile item => item.name ≠ ""
  | .acknowledged => True

variable [UuidCrate] (hyphenated : UuidCrate.Hyphenated)

include hyphenated

omit [UrlCrate] in
theorem validates_profileToDto {profile : Profile} (named : profile.name ≠ "") :
    Contract.profile.validates (profileToDto profile).serialize = true := by
  rw [ProfileDto.validates_serialize, Bool.and_eq_true_iff]
  exact ⟨hyphenated _, Schema.minLength_one_iff.2 named⟩

theorem validates_snapshotAssignmentToDto {a : SnapshotAssignment}
    (conforms : ∀ action ∈ a.actions, action.Conforms isUri) :
    (Contract.snapshotAssignment isUri).validates (snapshotAssignmentToDto a).serialize = true := by
  rw [SnapshotAssignmentDto.validates_serialize, Bool.and_eq_true_iff, List.all_eq_true]
  refine ⟨hyphenated _, fun dto hd => ?_⟩
  obtain ⟨⟨url⟩, mem, rfl⟩ := List.mem_map.1 hd
  exact (ActionDto.validates_serialize url.asStr).trans
    (Bool.and_eq_true_iff.2 (conforms _ mem))

theorem validates_responseFromCore {requestId : String} (named : requestId ≠ "")
    {response : CoreResponse} (conforms : response.Conforms isUri) :
    (Contract.serverMessage isUri).validates (responseFromCore requestId response).serialize =
      true := by
  have id := Schema.minLength_one_iff.2 named
  have listed {profiles : List Profile} (h : ∀ profile ∈ profiles, profile.name ≠ "") :
      ((profiles.map profileToDto).all fun dto => Contract.profile.validates dto.serialize) =
        true := by
    rw [List.all_eq_true, List.forall_mem_map]
    exact fun profile mem => validates_profileToDto hyphenated (h profile mem)
  rw [ServerMessage.validates_serialize]
  cases response with
  | snapshot snapshot =>
    obtain ⟨layout, profiles, assignments⟩ := conforms
    have assigned : ((snapshot.assignments.map snapshotAssignmentToDto).all fun dto =>
        (Contract.snapshotAssignment isUri).validates dto.serialize) = true := by
      rw [List.all_eq_true, List.forall_mem_map]
      exact fun a mem => validates_snapshotAssignmentToDto hyphenated (assignments a mem)
    simp only [responseFromCore, id, layout, validates_layout, listed profiles, assigned,
      Bool.and_self]
  | profiles profiles =>
    have conforms : ∀ profile ∈ profiles, profile.name ≠ "" := conforms
    simp only [responseFromCore, id, listed conforms, Bool.and_self]
  | profile profile =>
    have conforms : profile.name ≠ "" := conforms
    simp only [responseFromCore, id, validates_profileToDto hyphenated conforms, Bool.and_self]
  | acknowledged => exact id

omit [UrlCrate] in
theorem validates_eventFromCore (event : CoreEvent) :
    (Contract.serverMessage isUri).validates (eventFromCore event).serialize = true := by
  rw [ServerMessage.validates_serialize]
  cases event with
  | actionRunning runId profileId control =>
    refine (ActionEventDto.validates_serialize _).trans ?_
    exact Bool.and_eq_true_iff.2 ⟨hyphenated _, hyphenated _⟩
  | actionSucceeded | actionFailed =>
    exact (ActionEventDto.validates_serialize _).trans (hyphenated _)

end Values

theorem validates_error {requestId : Option String} (named : ∀ id, requestId = some id → id ≠ "")
    (error : ErrorDto) :
    (Contract.serverMessage isUri).validates (ServerMessage.error requestId error).serialize =
      true := by
  rw [ServerMessage.validates_serialize]
  cases requestId with
  | none => rfl
  | some id => exact Schema.minLength_one_iff.2 (named id rfl)

theorem validates_handshakeAccepted {requestId coreVersion : String} (named : requestId ≠ "")
    (versioned : coreVersion ≠ "") : (Contract.serverMessage isUri).validates
      (ServerMessage.handshakeAccepted requestId coreVersion ProtocolVersion.current).serialize =
        true := by
  have current : Contract.handshakeProtocolVersion.validates ProtocolVersion.current.serialize =
      true := by decide +kernel
  simp only [ServerMessage.validates_serialize, current, Schema.minLength_one_iff.2 named,
    Schema.minLength_one_iff.2 versioned, Bool.and_self]

/-! ## The store -/

section Store

variable [UuidCrate] [UrlCrate]

/-- Stored names are not empty, and stored URLs conform. -/
structure Db.Conforms (isUri : String → Bool) (db : Db) : Prop where
  named : ∀ row ∈ db.profiles, row.name ≠ .text ""
  stored : db.Stored fun _ _ action => action.Conforms isUri

theorem Db.conforms_empty : Db.empty.Conforms isUri := ⟨List.forall_mem_nil _, List.forall_mem_nil _⟩

/-- What Core asks of a region: names are checked before, and so are the URLs of the client. -/
def Region.Asks (isUri : String → Bool) : Region → Prop
  | .insertProfile profile => profile.name ≠ ""
  | .updateProfileName _ name => name ≠ ""
  | .saveAssignment a => ∀ action ∈ a.actions, action.Conforms isUri
  | _ => True

/-- What a region answers. -/
def Region.Gives (isUri : String → Bool) : (r : Region) → r.Value → Prop
  | .ensureDefaultProfile, profile => profile.name ≠ ""
  | .listProfiles, profiles => ∀ profile ∈ profiles, profile.name ≠ ""
  | .loadSnapshotState, state => (∀ profile ∈ state.profiles, profile.name ≠ "") ∧
      ∀ a ∈ state.assignments, ∀ action ∈ a.actions, action.Conforms isUri
  | _, _ => True

variable {r : Region} {db db' : Db} {result : Except AppError r.Value}

theorem Region.Does.conforms (does : Does r db result db') (h : db.Conforms isUri)
    (asks : r.Asks isUri) : db'.Conforms isUri := by
  have text {name : String} (ne : name ≠ "") : SqlValue.text name ≠ .text "" :=
    fun same => ne (SqlValue.text.inj same)
  have inserted {profile : Profile} {n : ℤ} {now : String} (ne : profile.name ≠ "")
      (profiles : db'.profiles = db.profiles ++ [profileRow profile n now]) :
      ∀ row ∈ db'.profiles, row.name ≠ .text "" := by
    rw [profiles, List.forall_mem_append, List.forall_mem_singleton]
    exact ⟨h.named, text ne⟩
  have mapped {f : ProfileRow → ProfileRow}
      (named : ∀ row, row.name ≠ .text "" → (f row).name ≠ .text "")
      (profiles : db'.profiles = db.profiles.map f) : ∀ row ∈ db'.profiles, row.name ≠ .text "" := by
    rw [profiles, List.forall_mem_map]
    exact fun row mem => named row (h.named row mem)
  refine ⟨?_, does.stored h.stored ?_⟩
  · cases does with
    | defaultInserted _ _ name profiles => exact inserted (name ▸ by decide) profiles
    | profileInserted profiles => exact inserted asks profiles
    | nameUpdated _ profiles =>
      refine mapped (fun row ne => ?_) profiles
      split_ifs
      · exact text asks
      · exact ne
    | @activated _ _ profileId _ _ profiles =>
      exact mapped (f := fun row => { row with
        isActive := .integer (if row.id = .text profileId.toString then 1 else 0) })
        (fun _ ne => ne) profiles
    | assignmentSaved _ profiles => exact profiles ▸ h.named
    | assignmentCleared _ profiles => exact profiles ▸ h.named
    | _ => exact h.named
  · intro a same action mem
    cases same
    exact asks action mem

/-- Both closures read the same action off a row. -/
theorem decodeActionRow_of_assignment {row : AssignmentRow}
    {read : ProfileId × ControlId × Action} (decoded : decodeAssignmentRow row = .ok read) :
    decodeActionRow row = .ok read.2.2 := by
  unfold decodeAssignmentRow at decoded
  unfold decodeActionRow
  simp only [bind_ok_iff, pure_ok_iff, getString_ok_iff, getI64_ok_iff, getOptionString_ok_iff]
    at decoded ⊢
  obtain ⟨_, -, _, -, _, -, _, -, _, -, kind, kindRead, url, urlRead, _, -, _, -, action,
    actionRead, rfl⟩ := decoded
  exact ⟨kind, kindRead, url, urlRead, actionRead⟩

omit [UuidCrate] in
theorem forall_pushAction {P : Action → Prop} {assignments : List Assignment}
    (h : ∀ a ∈ assignments, ∀ action ∈ a.actions, P action)
    {row : ProfileId × ControlId × Action} (holds : P row.2.2) :
    ∀ a ∈ pushAction assignments row, ∀ action ∈ a.actions, P action := by
  obtain ⟨profileId, control, action⟩ := row
  induction assignments with
  | nil => simpa [pushAction] using holds
  | cons first rest ih =>
    rw [List.forall_mem_cons] at h
    unfold pushAction
    split_ifs
    · rw [List.forall_mem_cons, List.forall_mem_append, List.forall_mem_singleton]
      exact ⟨⟨h.1, holds⟩, h.2⟩
    · rw [List.forall_mem_cons]
      exact ⟨h.1, ih h.2⟩

omit [UuidCrate] in
/-- A snapshot groups the actions that its rows encode. -/
theorem forall_foldl_pushAction {P : Action → Prop} {rows : List (ProfileId × ControlId × Action)}
    (holds : ∀ row ∈ rows, P row.2.2) {assignments : List Assignment}
    (h : ∀ a ∈ assignments, ∀ action ∈ a.actions, P action) :
    ∀ a ∈ rows.foldl pushAction assignments, ∀ action ∈ a.actions, P action := by
  induction rows generalizing assignments with
  | nil => exact h
  | cons row rows ih =>
    rw [List.forall_mem_cons] at holds
    exact ih holds.2 (forall_pushAction h holds.1)

theorem Db.Conforms.decoded (h : db.Conforms isUri) {profiles : List Profile}
    (decoded : db.orderedProfiles.mapM decodeProfile = .ok profiles) :
    ∀ profile ∈ profiles, profile.name ≠ "" := by
  intro profile mem named
  obtain ⟨row, stored, read⟩ := exists_of_mem_mapM decoded mem
  rw [Db.orderedProfiles, Rows.mem_orderBy] at stored
  obtain ⟨-, name, -⟩ := decodeProfile_ok_iff.1 read
  exact h.named row stored (named ▸ name)

theorem Region.Does.gives (does : Does r db result db') (h : db.Conforms isUri) :
    ∀ value, result = .ok value → r.Gives isUri value := by
  cases does with
  | @defaultPresent _ row _ profile active decoded =>
    rintro _ ⟨⟩ named
    have mem : row ∈ db.activeProfiles := active ▸ List.mem_cons_self ..
    obtain ⟨-, name, -⟩ := decodeProfile_ok_iff.1 decoded
    exact h.named row (List.mem_filter.1 mem).1 (named ▸ name)
  | defaultInserted _ _ name =>
    rintro _ ⟨⟩
    show _ ≠ _
    rw [name]
    decide
  | profilesListed decoded =>
    rintro _ ⟨⟩
    exact h.decoded decoded
  | snapshotLoaded decoded decodedRows =>
    rintro _ ⟨⟩
    refine ⟨h.decoded decoded, forall_foldl_pushAction (fun read mem => ?_) (List.forall_mem_nil _)⟩
    obtain ⟨row, stored, decoded⟩ := exists_of_mem_mapM decodedRows mem
    rw [Db.orderedAssignments, Rows.mem_orderBy] at stored
    obtain ⟨profileId, control, n, action, conforms, rfl⟩ := h.stored row stored
    have read := decodeActionRow_of_assignment decoded
    rw [decodeActionRow_assignmentRow] at read
    exact Except.ok.inj read ▸ conforms
  | _ =>
    intro _ _
    trivial

end Store

/-! ## The service -/

section Service

variable [UuidCrate] [UrlCrate] [RusqliteCrate] {inputs : ℕ → CoreInput} {α : Type}

/-- A message that is written is an instance. -/
def SendsConforming (isUri : String → Bool) (a : Act CoreCalls) : Prop :=
  ∀ message written, a = ⟨.write message, written⟩ →
    (Contract.serverMessage isUri).validates message.serialize = true

/-- On a store that conforms the program sends instances and leaves a store that conforms. -/
abbrev Conforming (isUri : String → Bool) (inputs : ℕ → CoreInput) (R : α → Prop)
    (p : Program CoreCalls α) : Prop :=
  Program.Safe (timed coreHandler inputs) (fun s => s.1.Conforms isUri) (SendsConforming isUri) R p

abbrev ConformingOk (isUri : String → Bool) (inputs : ℕ → CoreInput) (R : α → Prop)
    (p : Fallible CoreCalls AppError α) : Prop :=
  Fallible.Safe (timed coreHandler inputs) (fun s => s.1.Conforms isUri) (SendsConforming isUri) R p

theorem conforming_lock {r : Region} (asks : r.Asks isUri) :
    ConformingOk isUri inputs (r.Gives isUri) (lock r) := by
  apply Program.safe_call (S := CoreCalls) (o := .lock r)
  rintro ⟨db, n⟩ h
  refine ⟨nofun, ?_⟩
  show (∀ value, (r.exec (inputs n).sql db).1 = .ok value → r.Gives isUri value) ∧
    (r.exec (inputs n).sql db).2.Conforms isUri
  rcases Region.outcome (inputs n).sql r db with ⟨_, -, failed, same⟩ | does
  · rw [failed, same]
    exact ⟨nofun, h⟩
  · exact ⟨does.gives h, does.conforms h asks⟩

theorem conforming_newUuid : Conforming isUri inputs (fun _ => True) newUuid := by
  apply Program.safe_call (S := CoreCalls) (o := .newUuid)
  exact fun _ h => ⟨nofun, trivial, h⟩

theorem conforming_openUrl (url : SafeUrl) :
    Conforming isUri inputs (fun _ => True) (call (S := CoreCalls) (.openUrl url)) := by
  apply Program.safe_call
  exact fun _ h => ⟨nofun, trivial, h⟩

theorem conforming_log (record : LogRecord) :
    Conforming isUri inputs (fun _ => True) (call (S := CoreCalls) (.log record)) := by
  apply Program.safe_call
  exact fun _ h => ⟨nofun, trivial, h⟩

theorem conforming_write {message : ServerMessage}
    (valid : (Contract.serverMessage isUri).validates message.serialize = true) :
    Conforming isUri inputs (fun _ => True) (call (S := CoreCalls) (.write message)) := by
  apply Program.safe_call
  refine fun _ h => ⟨?_, trivial, h⟩
  rintro _ _ ⟨⟩
  exact valid

theorem conforming_domain (result : Except DomainError α) :
    ConformingOk isUri inputs (fun a => result = .ok a) (domain result) := by
  cases result with
  | ok a => exact Fallible.safe_pure rfl
  | error error => exact Fallible.safe_throw _

theorem conforming_initializeCore :
    ConformingOk isUri inputs (fun _ => True) coreService.initializeCore := by
  refine (conforming_lock (r := .ensureDefaultProfile) trivial).bind fun _ _ => ?_
  refine (conforming_lock (r := .listProfiles) trivial).bind fun _ _ => ?_
  exact (conforming_domain _).bind fun _ _ => Fallible.safe_pure trivial

variable (hyphenated : UuidCrate.Hyphenated)

include hyphenated

theorem conforming_emit (event : CoreEvent) :
    ConformingOk isUri inputs (fun _ => True) (ipcEventSink.emit event) := by
  refine (Fallible.safe_lift (conforming_log _)).bind fun _ _ => ?_
  refine (Fallible.safe_lift (conforming_write
    (validates_eventFromCore hyphenated event))).bind fun written _ => ?_
  cases written with
  | ok => exact Fallible.safe_pure trivial
  | error => exact Fallible.safe_throw _

theorem conforming_routeVirtualControl (control : ControlId) :
    ConformingOk isUri inputs (fun _ => True) (coreService.routeVirtualControl control) := by
  have active : ConformingOk isUri inputs (fun _ => True) coreService.activeProfile := by
    refine (conforming_lock (r := .listProfiles) trivial).bind fun profiles _ => ?_
    refine (conforming_domain _).bind fun _ _ => ?_
    split
    · exact Fallible.safe_pure trivial
    · exact Fallible.safe_throw _
  refine active.bind fun profile _ => ?_
  refine (conforming_lock (r := .findAssignment profile.id control) trivial).bind fun found _ => ?_
  split
  · exact Fallible.safe_throw _
  split
  · exact Fallible.safe_throw _
  · next action _ =>
    obtain ⟨url⟩ := action
    refine (Fallible.safe_lift conforming_newUuid).bind fun uuid _ => ?_
    refine (conforming_emit hyphenated _).bind fun _ _ => ?_
    refine (Fallible.safe_lift (conforming_openUrl url)).bind fun opened _ => ?_
    cases opened with
    | ok => exact conforming_emit hyphenated _
    | error => exact (conforming_emit hyphenated _).bind fun _ _ => Fallible.safe_throw _

/-- A request to save an assignment carries URLs that conform. -/
def CoreCommand.Conforms (isUri : String → Bool) : CoreCommand → Prop
  | .saveAssignment a => ∀ action ∈ a.actions, action.Conforms isUri
  | _ => True

theorem conforming_handleCommand {command : CoreCommand} (asks : command.Conforms isUri) :
    ConformingOk isUri inputs (CoreResponse.Conforms isUri) (coreService.handleCommand command) := by
  cases command with
  | getSnapshot =>
    refine (conforming_lock (r := .loadSnapshotState) trivial).bind fun state gives => ?_
    refine (conforming_domain _).bind fun _ _ => Fallible.safe_pure ⟨rfl, gives.1, ?_⟩
    rw [List.forall_mem_map]
    exact gives.2
  | listProfiles =>
    refine (conforming_lock (r := .listProfiles) trivial).bind fun profiles gives => ?_
    exact (conforming_domain _).bind fun _ _ => Fallible.safe_pure gives
  | createProfile name =>
    refine Fallible.Safe.bind (R := fun profile : Profile => profile.name ≠ "") ?_
      fun _ named => Fallible.safe_pure named
    refine (Fallible.safe_lift conforming_newUuid).bind fun uuid _ => ?_
    refine (conforming_domain _).bind fun profile created => ?_
    have named : profile.name ≠ "" := by
      obtain ⟨filled, rfl⟩ := Profile.new_ok_iff.1 created
      exact ne_empty_of_not_blank filled
    exact (conforming_lock (r := .insertProfile profile) named).bind fun _ _ =>
      Fallible.safe_pure named
  | renameProfile profileId name =>
    refine Fallible.Safe.bind (R := fun profile : Profile => profile.name ≠ "") ?_
      fun _ named => Fallible.safe_pure named
    refine (conforming_lock (r := .listProfiles) trivial).bind fun profiles _ => ?_
    split
    · exact Fallible.safe_throw _
    · refine (conforming_domain _).bind fun profile renamed => ?_
      have named : profile.name ≠ "" := by
        obtain ⟨filled, rfl⟩ := Profile.rename_ok_iff.1 renamed
        exact ne_empty_of_not_blank filled
      exact (conforming_lock (r := .updateProfileName profileId profile.name) named).bind
        fun _ _ => Fallible.safe_pure named
  | setActiveProfile profileId =>
    exact (conforming_lock (r := .setActiveProfile profileId) trivial).bind fun _ _ =>
      Fallible.safe_pure trivial
  | saveAssignment assignment =>
    exact (conforming_lock (r := .saveAssignment assignment) asks).bind fun _ _ =>
      Fallible.safe_pure trivial
  | clearAssignment profileId control =>
    exact (conforming_lock (r := .clearAssignment profileId control) trivial).bind fun _ _ =>
      Fallible.safe_pure trivial
  | virtualControlInput control =>
    exact (conforming_routeVirtualControl hyphenated control).bind fun _ _ =>
      Fallible.safe_pure trivial

end Service

/-! ## Connections -/

section Connections

variable [SerdeJson] [UuidCrate] [UrlCrate]

/-- If the session dispatches the line as a save, its URL is written as the contract asks. -/
def SaveConforming (isUri : String → Bool) (session : ProtocolSession) (line : String) : Prop :=
  ∀ requestId a dto text, (session.receiveLine line).1 = .command requestId (.saveAssignment a) →
    decodeClientEnvelope line = .ok ⟨requestId, .saveAssignment dto⟩ → dto.action = .openUrl text →
      isUri text = true ∧ Contract.isHttp text = true

/-- The same of all lines that the session receives from here on. -/
def SavesConforming (isUri : String → Bool) : ProtocolSession → List String → Prop
  | _, [] => True
  | session, line :: lines => SaveConforming isUri session line ∧
      SavesConforming isUri (session.receiveLine line).2 lines

omit [UuidCrate] [UrlCrate] in
theorem requestIdOf_ne_empty {line requestId : String} (h : requestIdOf line = some requestId) :
    requestId ≠ "" := by
  unfold requestIdOf at h
  split at h
  · next decoded =>
    cases h
    exact ne_empty_of_not_blank (decodeClientEnvelope_ok_iff.1 decoded).1
  · obtain ⟨value, -, extracted⟩ := Option.bind_eq_some_iff.1 h
    have filled := (Option.filter_eq_some_iff.1 extracted).2
    exact ne_empty_of_not_blank (by simpa using filled)

theorem validates_immediate {session : ProtocolSession} {line : String} {message : ServerMessage}
    (versioned : session.coreVersion ≠ "")
    (received : (session.receiveLine line).1 = .immediate message) :
    (Contract.serverMessage isUri).validates message.serialize = true := by
  have answered := answeredUnder_receiveLine session line
  rw [received] at answered
  rcases immediate_cases received with ⟨requestId, rfl⟩ | ⟨requestId, error, rfl⟩
  · have under : some requestId = requestIdOf line := Option.some.inj answered
    exact validates_handshakeAccepted (requestIdOf_ne_empty under.symm) versioned
  · have under : requestId = requestIdOf line := Option.some.inj answered
    exact validates_error (fun id same => requestIdOf_ne_empty (under ▸ same)) error

theorem command_conforms {session : ProtocolSession} {line requestId : String}
    {command : CoreCommand} (saves : SaveConforming isUri session line)
    (dispatched : (session.receiveLine line).1 = .command requestId command) :
    requestId ≠ "" ∧ command.Conforms isUri := by
  obtain ⟨-, message, decoded, converted⟩ := ProtocolSession.receiveLine_command_iff.1 dispatched
  refine ⟨ne_empty_of_not_blank (decodeClientEnvelope_ok_iff.1 decoded).1, ?_⟩
  cases command with
  | saveAssignment a =>
    obtain ⟨dto, rfl, read⟩ := assignmentFromDto_of_command converted
    obtain ⟨-, -, action, actionRead, only⟩ := assignmentFromDto_ok_iff.1 read
    obtain ⟨url, rfl, text⟩ := actionFromDto_ok_iff.1 actionRead
    show ∀ action ∈ a.actions, action.Conforms isUri
    rw [only, List.forall_mem_singleton]
    exact saves requestId a dto url.asStr dispatched decoded text
  | _ => trivial

variable [RusqliteCrate] {inputs : ℕ → CoreInput}

/-- What a connection performs on a fresh store that has been initialized. -/
def freshConnection (start inputs : ℕ → CoreInput) (lines : List String) : List (Act CoreCalls) :=
  connectionActs inputs (afterInitialize start .empty).2 lines

variable (hyphenated : UuidCrate.Hyphenated)

include hyphenated

theorem conforming_handleDevLine {session : ProtocolSession} {line : String}
    (versioned : session.coreVersion ≠ "") (saves : SaveConforming isUri session line) :
    Conforming isUri inputs (fun answered => answered.2 = (session.receiveLine line).2)
      (handleDevLine session line) := by
  have reply : Conforming isUri inputs
      (fun message => (Contract.serverMessage isUri).validates message.serialize = true)
      (dispatchReply (session.receiveLine line).1) := by
    cases received : (session.receiveLine line).1 with
    | immediate message => exact Program.safe_pure (validates_immediate versioned received)
    | command requestId command =>
      obtain ⟨named, asks⟩ := command_conforms saves received
      refine Program.Safe.bind (conforming_handleCommand hyphenated asks) fun result answers => ?_
      cases result with
      | ok response =>
        exact Program.safe_pure
          (validates_responseFromCore hyphenated named (answers response rfl))
      | error error =>
        refine Program.Safe.bind (conforming_log _) fun _ _ => Program.safe_pure ?_
        refine validates_error ?_ _
        rintro _ ⟨⟩
        exact named
  refine Program.Safe.bind reply fun message valid => ?_
  exact Program.Safe.bind (conforming_write valid) fun written _ => Program.safe_pure rfl

/-- The loop over the lines, by induction: the session keeps its version and the store conforms. -/
theorem conforming_connection {lines : List String} {session : ProtocolSession}
    (versioned : session.coreVersion ≠ "") (saves : SavesConforming isUri session lines) :
    Conforming isUri inputs (fun _ => True) (handleDevConnectionInner session lines) := by
  induction lines generalizing session with
  | nil => exact Program.safe_pure trivial
  | cons line lines ih =>
    obtain ⟨save, saves⟩ := saves
    refine Program.Safe.bind (conforming_handleDevLine hyphenated versioned save)
      fun answered received => ?_
    obtain ⟨written, session'⟩ := answered
    obtain rfl : session' = (session.receiveLine line).2 := received
    cases written with
    | ok =>
      refine ih ?_ saves
      rw [coreVersion_receiveLine]
      exact versioned
    | error => exact Program.safe_pure trivial

/-- From a fresh store that has been initialized, a connection sends only instances of the published
contract, provided that every URL that its session dispatches to be saved is written as the contract
asks. -/
theorem server_messages_conform (isUri : String → Bool) (start inputs : ℕ → CoreInput)
    {lines : List String} (saves : SavesConforming isUri (.new CARGO_PKG_VERSION) lines)
    (message : ServerMessage)
    (sent : .write message ∈ (freshConnection start inputs lines).map Act.op) :
    (Contract.serverMessage isUri).validates message.serialize = true := by
  have safe : ConformingOk isUri start (fun _ => True) coreService.initializeCore :=
    conforming_initializeCore
  have initialized : (afterInitialize start .empty).2.Conforms isUri :=
    (safe (.empty, 0) Db.conforms_empty).2.2
  have run : Conforming isUri inputs (fun _ => True)
      (handleDevConnectionInner (.new CARGO_PKG_VERSION) lines) :=
    conforming_connection hyphenated (by decide) saves
  obtain ⟨⟨_, written⟩, mem, rfl⟩ := List.mem_map.1 sent
  exact (run ((afterInitialize start .empty).2, 0) initialized).1 _ mem message written rfl

end Connections

section Examples

open Reference

theorem mem_intercalate {α : Type} {separator : List α} {c : α} {groups : List (List α)}
    (h : c ∈ List.intercalate separator groups) : c ∈ separator ∨ ∃ g ∈ groups, c ∈ g := by
  induction groups with
  | nil => simp at h
  | cons g groups ih =>
    cases groups with
    | nil => simpa using Or.inr h
    | cons g' groups =>
      rw [List.intercalate_cons_cons, List.mem_append, List.mem_append] at h
      rcases h with (mem | mem) | mem
      · exact .inr ⟨g, List.mem_cons_self .., mem⟩
      · exact .inl mem
      · exact (ih mem).imp_right fun ⟨g, hg, hc⟩ => ⟨g, List.mem_cons_of_mem _ hg, hc⟩

theorem uuid_hyphenated : UuidCrate.Hyphenated := by
  intro u
  have digit (d : Fin 16) : Schema.isHexDigit (hexDigit d) = true := by
    revert d
    decide
  have each : ∀ c ∈ (displayUuid u).toList, (decide (c = '-') || Schema.isHexDigit c) = true := by
    intro c hc
    rw [displayUuid, String.toList_ofList] at hc
    rcases mem_intercalate hc with hyphen | group
    · simp [List.mem_singleton.1 hyphen]
    · have mem := List.mem_flatten.2 group
      rw [flatten_groups] at mem
      obtain ⟨d, -, rfl⟩ := List.mem_map.1 mem
      rw [digit, Bool.or_true]
  rw [Schema.isUuid, Bool.and_eq_true_iff, List.all_eq_true]
  exact ⟨decide_eq_true (length_splitOn_displayUuid u), each⟩

/-- The lines of a client that saves this URL under the first key and asks for the snapshot. -/
def spelledLines (spelling : String) : List String :=
  [handshakeLine, clientLine "2" "save_assignment" [("assignment", .object [
    ("profile_id", .string (displayUuid (uuid 0))), ("control", firstKeyJson),
    ("action", .object [("kind", .string "open_url"), ("url", .string spelling)])])], snapshotLine]

def spelledEnvelopes (spelling : String) : List ClientEnvelope :=
  [⟨"1", .handshake ⟨.studio, "0.1.0", ⟨0, 3⟩⟩⟩,
    ⟨"2", .saveAssignment ⟨displayUuid (uuid 0), .key 0 0, .openUrl spelling⟩⟩, ⟨"3", .getSnapshot⟩]

/-- The snapshot after the URL has been saved. -/
def spelledSnapshot (spelling : String) : ServerMessage :=
  .snapshot "3" (layoutToDto MVP_DEVICE_LAYOUT) [⟨displayUuid (uuid 0), "Default", true⟩]
    [⟨displayUuid (uuid 0), .key 0 0, [.openUrl spelling]⟩]

theorem decoded_spelledLines : ∀ spelling ∈ ["https://example.com", "HTTPS://example.com"],
    List.Forall₂ (fun line envelope => decodeClientEnvelope line = .ok envelope)
      (spelledLines spelling) (spelledEnvelopes spelling) := by
  rw [List.forall_mem_cons, List.forall_mem_singleton]
  constructor
  all_goals
    refine .cons decoded_handshakeLine (.cons ?_ (.cons ?_ .nil))
    · exact decode_rendered (by decide +kernel) (by decide +kernel) (by decide)
    · exact decode_rendered (by decide +kernel) (by decide +kernel) (by decide)

theorem sent_spelledSnapshot : ∀ spelling ∈ ["https://example.com", "HTTPS://example.com"],
    .write (spelledSnapshot spelling) ∈
      (freshConnection calm calm (spelledLines spelling)).map Act.op := by
  intro spelling known
  unfold freshConnection connectionActs
  rw [handleDevConnectionInner_decoded (decoded_spelledLines spelling known)]
  revert spelling
  decide +kernel

theorem saveConforming_of_decoded {line : String} {envelope : ClientEnvelope}
    (decoded : decodeClientEnvelope line = .ok envelope)
    (conforms : ∀ dto text, envelope.message = .saveAssignment dto → dto.action = .openUrl text →
      Contract.isHttp text = true) (session : ProtocolSession) :
    SaveConforming (fun _ => true) session line := by
  intro requestId a dto text _ decoded' action
  rw [decoded] at decoded'
  cases decoded'
  exact ⟨rfl, conforms dto text rfl action⟩

theorem server_messages_conform_example : (Contract.serverMessage fun _ => true).validates
    (spelledSnapshot "https://example.com").serialize = true := by
  have decoded := decoded_spelledLines _ (List.mem_cons_self ..)
  simp only [spelledLines, spelledEnvelopes, List.forall₂_cons] at decoded
  obtain ⟨handshake, save, snapshot, -⟩ := decoded
  refine server_messages_conform uuid_hyphenated _ _ _ ?_ _
    (sent_spelledSnapshot _ (List.mem_cons_self ..))
  refine ⟨?_, ?_, ?_, trivial⟩
  · exact saveConforming_of_decoded handshake nofun _
  · refine saveConforming_of_decoded save ?_ _
    rintro _ _ ⟨⟩ ⟨⟩
    decide
  · exact saveConforming_of_decoded snapshot nofun _

/-- A scheme in upper case is accepted, stored and sent as it is. -/
theorem server_message_beyond_contract :
    ¬ ∀ (start inputs : ℕ → CoreInput) (lines : List String) (message : ServerMessage),
      .write message ∈ (freshConnection start inputs lines).map Act.op →
        (Contract.serverMessage fun _ => true).validates message.serialize = true := by
  intro claim
  have sent := sent_spelledSnapshot "HTTPS://example.com" (by simp)
  exact absurd (claim _ _ _ _ sent) (by decide +kernel)

end Examples

end KeyroCore
