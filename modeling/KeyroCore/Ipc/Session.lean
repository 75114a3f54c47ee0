import KeyroCore.Ipc.Convert
import KeyroCore.Protocol.Decode

/-!
# Protocol sessions

`ProtocolSession` answers the lines of one connection until a handshake with the exact version has
completed, and dispatches commands from then on.
-/

namespace KeyroCore

inductive SessionState where
  | awaitingHandshake
  | established
  deriving DecidableEq

structure ProtocolSession where
  coreVersion : String
  state : SessionState
  deriving DecidableEq

inductive ProtocolDispatch [UrlCrate] where
  | immediate (message : ServerMessage)
  | command (requestId : String) (command : CoreCommand)
  deriving DecidableEq

variable [SerdeJson]

/-- The non-blank text under the top-level `request_id` of a JSON line. -/
def extractRequestId (line : String) : Option String :=
  (SerdeJson.parse line).bind fun value =>
    ((value.member? "request_id").bind Json.string?).filter fun requestId => !isBlank requestId

variable [UuidCrate] [UrlCrate]

namespace ProtocolSession

def new (coreVersion : String) : ProtocolSession where
  coreVersion := coreVersion
  state := .awaitingHandshake

def dispatchEnvelope (session : ProtocolSession) (envelope : ClientEnvelope) :
    ProtocolDispatch × ProtocolSession :=
  match envelope.message, session.state with
  | .handshake _, .established =>
      (.immediate (.error (some envelope.requestId)
        { code := .validationFailed
          message := "handshake already completed for this connection" }), session)
  | .handshake message, .awaitingHandshake =>
      let response := handshakeResponse envelope.requestId message.protocol session.coreVersion
      match response with
      | .handshakeAccepted _ _ _ => (.immediate response, { session with state := .established })
      | _ => (.immediate response, session)
  | message, .established =>
      match commandFromMessage message with
      | .ok command => (.command envelope.requestId command, session)
      | .error error => (.immediate (ipcErrorMessage (some envelope.requestId) error), session)
  | _, .awaitingHandshake =>
      (.immediate (.error (some envelope.requestId)
        { code := .validationFailed
          message := "handshake required before command routing" }), session)

def receiveLine (session : ProtocolSession) (line : String) : ProtocolDispatch × ProtocolSession :=
  match decodeClientEnvelope line with
  | .ok envelope => session.dispatchEnvelope envelope
  | .error error => (.immediate (protocolErrorMessage (extractRequestId line) error), session)

/-! ## What a session does with a line -/

/-- The line asks for exactly the version of Core. -/
def AsksExactly (line requestId : String) : Prop :=
  ∃ message, decodeClientEnvelope line = .ok ⟨requestId, .handshake message⟩ ∧
    message.protocol = ProtocolVersion.current

/-- The dispatch of a line once the handshake has completed. -/
def establishedDispatch (line : String) : ProtocolDispatch :=
  match decodeClientEnvelope line with
  | .error error => .immediate (protocolErrorMessage (extractRequestId line) error)
  | .ok ⟨requestId, .handshake _⟩ =>
      .immediate (.error (some requestId)
        { code := .validationFailed
          message := "handshake already completed for this connection" })
  | .ok ⟨requestId, message⟩ =>
      match commandFromMessage message with
      | .ok command => .command requestId command
      | .error error => .immediate (ipcErrorMessage (some requestId) error)

theorem receiveLine_established {session : ProtocolSession} (h : session.state = .established)
    (line : String) : session.receiveLine line = (establishedDispatch line, session) := by
  obtain ⟨coreVersion, state⟩ := session
  obtain rfl : state = .established := h
  unfold receiveLine establishedDispatch
  rcases decodeClientEnvelope line with error | ⟨requestId, message⟩
  · rfl
  · cases message with
    | handshake => rfl
    | _ =>
      unfold dispatchEnvelope
      dsimp only
      split <;> rfl

theorem receiveLine_exactly {session : ProtocolSession} (h : session.state = .awaitingHandshake)
    {line requestId : String} (asks : AsksExactly line requestId) :
    session.receiveLine line =
      (.immediate (.handshakeAccepted requestId session.coreVersion ProtocolVersion.current),
        { session with state := .established }) := by
  obtain ⟨coreVersion, state⟩ := session
  obtain rfl : state = .awaitingHandshake := h
  obtain ⟨message, decoded, exact_⟩ := asks
  unfold receiveLine
  rw [decoded]
  unfold dispatchEnvelope
  dsimp only
  rw [handshakeResponse_exactly exact_]

/-- Before the handshake a line that does not complete it is answered at once. -/
theorem receiveLine_awaiting {session : ProtocolSession} (h : session.state = .awaitingHandshake)
    {line : String} (other : ∀ requestId, ¬ AsksExactly line requestId) :
    ∃ requestId error, session.receiveLine line = (.immediate (.error requestId error), session) := by
  obtain ⟨coreVersion, state⟩ := session
  obtain rfl : state = .awaitingHandshake := h
  unfold receiveLine
  rcases decoded : decodeClientEnvelope line with error | ⟨requestId, message⟩
  · exact ⟨_, _, rfl⟩
  · cases message with
    | handshake message =>
      have differ : message.protocol.isExactly ProtocolVersion.current = false := by
        rw [Bool.eq_false_iff]
        exact fun same => other requestId ⟨message, decoded, ProtocolVersion.isExactly_iff.1 same⟩
      unfold dispatchEnvelope handshakeResponse
      dsimp only
      rw [differ]
      exact ⟨_, _, rfl⟩
    | _ => exact ⟨_, _, rfl⟩

/-- What a session can do with a line. -/
theorem receiveLine_cases (session : ProtocolSession) (line : String) :
    (session.state = .established ∧
      session.receiveLine line = (establishedDispatch line, session)) ∨
    (session.state = .awaitingHandshake ∧ ∃ requestId, AsksExactly line requestId ∧
      session.receiveLine line =
        (.immediate (.handshakeAccepted requestId session.coreVersion ProtocolVersion.current),
          { session with state := .established })) ∨
    (session.state = .awaitingHandshake ∧ (∀ requestId, ¬ AsksExactly line requestId) ∧
      ∃ requestId error,
        session.receiveLine line = (.immediate (.error requestId error), session)) := by
  rcases state : session.state
  · by_cases asks : ∃ requestId, AsksExactly line requestId
    · obtain ⟨requestId, asks⟩ := asks
      exact .inr (.inl ⟨rfl, requestId, asks, receiveLine_exactly state asks⟩)
    · have other : ∀ requestId, ¬ AsksExactly line requestId := fun requestId h =>
        asks ⟨requestId, h⟩
      exact .inr (.inr ⟨rfl, other, receiveLine_awaiting state other⟩)
  · exact .inl ⟨rfl, receiveLine_established state line⟩

theorem establishedDispatch_ne_accepted (line requestId version : String)
    (protocol : ProtocolVersion) :
    establishedDispatch line ≠ .immediate (.handshakeAccepted requestId version protocol) := by
  unfold establishedDispatch
  split
  · exact nofun
  · exact nofun
  · split <;> exact nofun

theorem establishedDispatch_command_iff {line requestId : String} {command : CoreCommand} :
    establishedDispatch line = .command requestId command ↔ ∃ message,
      decodeClientEnvelope line = .ok ⟨requestId, message⟩ ∧
        commandFromMessage message = .ok command := by
  unfold establishedDispatch
  rcases decodeClientEnvelope line with error | ⟨requestId', message⟩
  · exact ⟨nofun, nofun⟩
  simp only [Except.ok.injEq, ClientEnvelope.mk.injEq, and_assoc]
  constructor
  · intro dispatched
    cases message with
    | handshake => cases dispatched
    | _ =>
      dsimp only at dispatched
      split at dispatched
      · next converted =>
        cases dispatched
        exact ⟨_, rfl, rfl, converted⟩
      · cases dispatched
  · rintro ⟨message', rfl, rfl, converted⟩
    cases message with
    | handshake => cases converted
    | _ =>
      dsimp only
      rw [converted]

/-- A command is dispatched once the handshake has completed, for a line that asks for it. -/
theorem receiveLine_command_iff {session : ProtocolSession} {line requestId : String}
    {command : CoreCommand} : (session.receiveLine line).1 = .command requestId command ↔
      session.state = .established ∧ ∃ message,
        decodeClientEnvelope line = .ok ⟨requestId, message⟩ ∧
          commandFromMessage message = .ok command := by
  rw [← establishedDispatch_command_iff]
  rcases session.receiveLine_cases line with
    ⟨state, received⟩ | ⟨state, _, -, received⟩ | ⟨state, -, _, _, received⟩
  · rw [received]
    exact ⟨fun h => ⟨state, h⟩, fun h => h.2⟩
  · rw [received, state]
    exact ⟨nofun, nofun⟩
  · rw [received, state]
    exact ⟨nofun, nofun⟩

end ProtocolSession

/-- What a session answers at once. -/
theorem immediate_cases {session : ProtocolSession} {line : String} {message : ServerMessage}
    (received : (session.receiveLine line).1 = .immediate message) :
    (∃ requestId, message =
      .handshakeAccepted requestId session.coreVersion ProtocolVersion.current) ∨
        ∃ requestId error, message = .error requestId error := by
  rcases session.receiveLine_cases line with
    ⟨-, dispatch⟩ | ⟨-, requestId, -, dispatch⟩ | ⟨-, -, requestId, error, dispatch⟩
  · rw [dispatch] at received
    unfold ProtocolSession.establishedDispatch at received
    dsimp only at received
    split at received
    · cases received
      exact .inr ⟨_, _, rfl⟩
    · cases received
      exact .inr ⟨_, _, rfl⟩
    · split at received
      · cases received
      · cases received
        exact .inr ⟨_, _, rfl⟩
  · rw [dispatch] at received
    cases received
    exact .inl ⟨requestId, rfl⟩
  · rw [dispatch] at received
    cases received
    exact .inr ⟨requestId, error, rfl⟩

/-! ## Request ids -/

/-- The request id that the reply to a line carries. -/
def requestIdOf (line : String) : Option String :=
  match decodeClientEnvelope line with
  | .ok envelope => some envelope.requestId
  | .error _ => extractRequestId line

omit [SerdeJson] [UuidCrate] [UrlCrate] in
theorem requestId?_handshakeResponse (requestId : String) (protocol : ProtocolVersion)
    (coreVersion : String) :
    (handshakeResponse requestId protocol coreVersion).requestId? = some (some requestId) := by
  unfold handshakeResponse
  split <;> rfl

omit [SerdeJson] in
theorem requestId?_responseFromCore (requestId : String) (response : CoreResponse) :
    (responseFromCore requestId response).requestId? = some (some requestId) := by
  cases response <;> rfl

omit [SerdeJson] [UuidCrate] [UrlCrate] in
theorem requestId?_errorMessage (requestId : Option String) (error : AppError) :
    (errorMessage requestId error).requestId? = some requestId := by
  cases error <;> rfl

/-- A dispatch will be answered under this request id. -/
def ProtocolDispatch.AnsweredUnder (id : Option String) : ProtocolDispatch → Prop
  | .immediate message => message.requestId? = some id
  | .command requestId _ => id = some requestId

/-- Whatever a line is dispatched to, it is answered under the request id of the line. -/
theorem answeredUnder_receiveLine (session : ProtocolSession) (line : String) :
    (session.receiveLine line).1.AnsweredUnder (requestIdOf line) := by
  unfold ProtocolSession.receiveLine requestIdOf
  rcases decodeClientEnvelope line with error | ⟨requestId, message⟩
  · rfl
  obtain ⟨coreVersion, state⟩ := session
  dsimp only [ProtocolSession.dispatchEnvelope]
  cases message with
  | handshake message =>
    cases state with
    | established => rfl
    | awaitingHandshake =>
      have id := requestId?_handshakeResponse requestId message.protocol coreVersion
      dsimp only
      split
      · exact id
      · exact id
  | _ =>
    cases state with
    | awaitingHandshake => rfl
    | established =>
      dsimp only
      split <;> rfl

end KeyroCore
