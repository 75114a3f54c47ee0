import KeyroCore.Ipc.Session
import KeyroCore.Routing

/-!
# Connections

`handle_dev_connection_inner`: each line goes through the session and, if it is a command, through
the service; its reply is written, and the first reply that cannot be written ends the connection.
-/

open Effect Program Fallible

namespace KeyroCore

/-- `env!("CARGO_PKG_VERSION")`. -/
def CARGO_PKG_VERSION : String := "0.1.0"

variable [SerdeJson] [UuidCrate] [UrlCrate]

/-- The reply to a line, which a command answers through the service. -/
def dispatchReply : ProtocolDispatch → Program CoreCalls ServerMessage
  | .immediate message => return message
  | .command requestId command => do
    match ← (coreService.handleCommand command).run with
    | .ok response => return responseFromCore requestId response
    | .error error => do
      call (S := CoreCalls) (.log (.commandFailed requestId error.display))
      return errorMessage (some requestId) error

/-- One round of the loop: whether the reply was written, and the session after the line. -/
def handleDevLine (session : ProtocolSession) (line : String) :
    Program CoreCalls (Except String Unit × ProtocolSession) := do
  let reply ← dispatchReply (session.receiveLine line).1
  let written ← call (S := CoreCalls) (.write reply)
  return (written, (session.receiveLine line).2)

/-- The loop over the lines of a connection. -/
def handleDevConnectionInner : ProtocolSession → List String →
    Program CoreCalls (Except String Unit)
  | _, [] => return .ok ()
  | session, line :: lines => do
    match ← handleDevLine session line with
    | (.ok (), session) => handleDevConnectionInner session lines
    | (.error text, _) => return .error text

/-! ## What one line performs -/

/-- The operations that turn the result of a command into a reply. -/
inductive ReplyPath (requestId : String) : Option (Except AppError CoreResponse) →
    List (Act CoreCalls) → Option ServerMessage → Prop
  | running : ReplyPath requestId none [] none
  | response (response : CoreResponse) :
      ReplyPath requestId (some (.ok response)) [] (some (responseFromCore requestId response))
  | failing (error : AppError) : ReplyPath requestId (some (.error error)) [] none
  | failed (error : AppError) : ReplyPath requestId (some (.error error))
      [⟨.log (.commandFailed requestId error.display), ()⟩]
      (some (errorMessage (some requestId) error))

/-- The operations that find the reply to a line. -/
inductive DispatchPath :
    ProtocolDispatch → List (Act CoreCalls) → Option ServerMessage → Prop
  | immediate (message : ServerMessage) : DispatchPath (.immediate message) [] (some message)
  | command {requestId : String} {command : CoreCommand} {acts more : List (Act CoreCalls)}
      {result : Option (Except AppError CoreResponse)} {r : Option ServerMessage}
      (handled : (coreService.handleCommand command).run.Path acts result)
      (reply : ReplyPath requestId result more r) :
      DispatchPath (.command requestId command) (acts ++ more) r

/-- The operations of one round of the loop. -/
inductive LinePath (session : ProtocolSession) (line : String) :
    List (Act CoreCalls) → Option (Except String Unit × ProtocolSession) → Prop
  | dispatching {acts : List (Act CoreCalls)} {r : Option ServerMessage}
      (dispatched : DispatchPath (session.receiveLine line).1 acts r) :
      LinePath session line acts none
  | replied {acts : List (Act CoreCalls)} {reply : ServerMessage}
      (dispatched : DispatchPath (session.receiveLine line).1 acts (some reply))
      (written : Except String Unit) :
      LinePath session line (acts ++ [⟨.write reply, written⟩])
        (some (written, (session.receiveLine line).2))

omit [SerdeJson] in
theorem dispatchReply_path {dispatch : ProtocolDispatch} {acts : List (Act CoreCalls)}
    {r : Option ServerMessage} (h : (dispatchReply dispatch).Path acts r) :
    DispatchPath dispatch acts r := by
  rcases dispatch with message | ⟨requestId, command⟩
  · obtain ⟨rfl, rfl⟩ := path_pure_iff.1 h
    exact .immediate message
  rcases path_bind h with ⟨hc, rfl⟩ | ⟨result, as₁, as₂, rfl, hc, h₁⟩
  · rw [← List.append_nil acts]
    exact .command hc .running
  rcases result with error | response
  · rcases path_bind h₁ with ⟨hl, rfl⟩ | ⟨_, as₃, as₄, rfl, hl, h₂⟩
    · rcases path_call_iff.1 hl with ⟨rfl, -⟩ | ⟨_, -, ⟨⟩⟩
      exact .command hc (.failing error)
    · rcases path_call_iff.1 hl with ⟨-, ⟨⟩⟩ | ⟨⟨⟩, rfl, -⟩
      obtain ⟨rfl, rfl⟩ := path_pure_iff.1 h₂
      exact .command hc (.failed error)
  · obtain ⟨rfl, rfl⟩ := path_pure_iff.1 h₁
    exact .command hc (.response response)

theorem handleDevLine_path {session : ProtocolSession} {line : String}
    {acts : List (Act CoreCalls)} {r : Option (Except String Unit × ProtocolSession)}
    (h : (handleDevLine session line).Path acts r) : LinePath session line acts r := by
  rcases path_bind h with ⟨hd, rfl⟩ | ⟨reply, as₁, as₂, rfl, hd, h₁⟩
  · exact .dispatching (dispatchReply_path hd)
  rcases path_bind h₁ with ⟨hw, rfl⟩ | ⟨written, as₃, as₄, rfl, hw, h₂⟩
  · rcases path_call_iff.1 hw with ⟨rfl, -⟩ | ⟨_, -, ⟨⟩⟩
    rw [List.append_nil]
    exact .dispatching (dispatchReply_path hd)
  · rcases path_call_iff.1 hw with ⟨-, ⟨⟩⟩ | ⟨_, rfl, ⟨⟩⟩
    obtain ⟨rfl, rfl⟩ := path_pure_iff.1 h₂
    exact .replied (dispatchReply_path hd) written

/-- A line that is answered at once performs one write. -/
theorem LinePath.of_immediate {session session' : ProtocolSession} {line : String}
    {message : ServerMessage} {acts : List (Act CoreCalls)}
    {r : Option (Except String Unit × ProtocolSession)}
    (received : session.receiveLine line = (.immediate message, session'))
    (path : LinePath session line acts r) : acts = [] ∧ r = none ∨
      ∃ written, acts = [⟨.write message, written⟩] ∧ r = some (written, session') := by
  cases path with
  | dispatching dispatched =>
    rw [received] at dispatched
    cases dispatched
    exact .inl ⟨rfl, rfl⟩
  | replied dispatched written =>
    rw [received] at dispatched ⊢
    cases dispatched
    exact .inr ⟨written, rfl, rfl⟩

/-! ## Opening URLs and failing writes -/

/-- What a line performs before it opens a URL. -/
inductive LineOpens (session : ProtocolSession) (line : String) (url : SafeUrl) :
    List (Act CoreCalls) → Prop
  | intro {requestId : String} {control : ControlId} {profiles : List Profile} {profile : Profile}
      {assignment : Assignment} (uuid : Uuid)
      (command : (session.receiveLine line).1 = .command requestId (.virtualControlInput control))
      (one : ensureExactlyOneActive profiles = .ok ())
      (active : (profiles.find? fun profile => profile.isActive) = some profile)
      (first : assignment.firstAction = some (.openUrl url)) :
      LineOpens session line url ([⟨.lock .listProfiles, .ok profiles⟩,
        ⟨.lock (.findAssignment profile.id control), .ok (some assignment)⟩] ++
          announced uuid profile.id control)

omit [SerdeJson] in
theorem ReplyPath.logs {requestId : String} {result : Option (Except AppError CoreResponse)}
    {acts : List (Act CoreCalls)} {r : Option ServerMessage}
    (path : ReplyPath requestId result acts r) : ∀ a ∈ acts, ∃ record, a = ⟨.log record, ()⟩ := by
  cases path <;> simp

omit [SerdeJson] in
/-- Only a virtual input performs what is not internal to Core. -/
theorem virtual_of_external {command : CoreCommand} {acts : List (Act CoreCalls)}
    {r : Option (Except AppError CoreResponse)} {a : Act CoreCalls}
    (path : (coreService.handleCommand command).run.Path acts r) (ha : a ∈ acts)
    (external : ¬ a.op.Internal) : ∃ control, command = .virtualControlInput control := by
  by_contra other
  rw [not_exists] at other
  exact external (path.uses (uses_handleCommand other) a ha)

theorem LinePath.dispatched {session : ProtocolSession} {line : String}
    {acts : List (Act CoreCalls)} {r : Option (Except String Unit × ProtocolSession)}
    (path : LinePath session line acts r) : ∃ dispatched more reply,
      DispatchPath (session.receiveLine line).1 dispatched reply ∧ acts = dispatched ++ more ∧
        ∀ a ∈ more, ∃ reply written, a = ⟨.write reply, written⟩ := by
  cases path with
  | dispatching dispatched =>
    exact ⟨_, [], _, dispatched, (List.append_nil _).symm, List.forall_mem_nil _⟩
  | replied dispatched written => exact ⟨_, _, _, dispatched, rfl, by simp⟩

theorem LinePath.before_open {session : ProtocolSession} {line : String} {url : SafeUrl}
    {before after : List (Act CoreCalls)} {x : Except OpenUrlError Unit}
    {r : Option (Except String Unit × ProtocolSession)}
    (path : LinePath session line (before ++ ⟨.openUrl url, x⟩ :: after) r) :
    LineOpens session line url before := by
  obtain ⟨dispatched, more, reply, dispatch, split, writes⟩ := path.dispatched
  obtain ⟨after, rfl, -⟩ := split_before split.symm fun mem => by
    obtain ⟨_, _, same⟩ := writes _ mem
    cases same
  generalize received : (session.receiveLine line).1 = received at dispatch
  generalize performed : before ++ ⟨.openUrl url, x⟩ :: after = performed at dispatch
  cases dispatch with
  | immediate => simp at performed
  | @command requestId command acts more result r handled reply =>
    obtain ⟨after, rfl, -⟩ := split_before performed.symm fun mem => by
      obtain ⟨_, same⟩ := reply.logs _ mem
      cases same
    obtain ⟨control, rfl⟩ := virtual_of_external (a := ⟨.openUrl url, x⟩) handled (by simp) id
    obtain ⟨r', route, -⟩ := virtualControlInput_path handled
    obtain ⟨profiles, profile, assignment, uuid, one, active, first, rfl⟩ := route.before_open rfl
    exact .intro uuid received one active first

/-- A message that cannot be written is the last, apart from the reply that reports it. -/
theorem LinePath.after_failure {session session' : ProtocolSession} {line : String}
    {before after : List (Act CoreCalls)} {message : ServerMessage} {text : String}
    {written : Except String Unit}
    (path : LinePath session line (before ++ ⟨.write message, .error text⟩ :: after)
      (some (written, session'))) : after = [] ∧ written = .error text ∨
        ∃ requestId error, after = [⟨.log (.commandFailed requestId error), ()⟩,
          ⟨.write (.error (some requestId) ⟨.internal, "command failed"⟩), written⟩] := by
  generalize performed : before ++ ⟨.write message, .error text⟩ :: after = performed at path
  generalize result : some (written, session') = result at path
  cases path with
  | dispatching => cases result
  | @replied acts reply dispatch written' =>
    cases result
    rcases List.eq_nil_or_concat after with rfl | ⟨after, a, rfl⟩
    · have last := List.append_inj_right' performed rfl
      cases last
      exact .inl ⟨rfl, rfl⟩
    · rw [List.concat_eq_append, ← List.cons_append, ← List.append_assoc] at performed
      obtain ⟨rfl, same⟩ := List.append_inj' performed rfl
      cases same
      generalize (session.receiveLine line).1 = received at dispatch
      generalize performed : before ++ ⟨.write message, .error text⟩ :: after = performed at dispatch
      generalize replied : some reply = replied at dispatch
      cases dispatch with
      | immediate => simp at performed
      | @command requestId command acts more result r handled replying =>
        obtain ⟨after, rfl, rfl⟩ := split_before performed.symm fun mem => by
          obtain ⟨_, same⟩ := replying.logs _ mem
          cases same
        obtain ⟨control, rfl⟩ :=
          virtual_of_external (a := ⟨.write message, .error text⟩) handled (by simp) id
        obtain ⟨r', route, rfl⟩ := virtualControlInput_path handled
        obtain ⟨rfl, text, rfl⟩ := route.after_failure rfl
        cases replying with
        | failing => cases replied
        | failed =>
          cases replied
          exact .inr ⟨requestId, _, rfl⟩

/-- The operations of a connection: those of its first line, and of the rest once the first has
been answered. -/
theorem handleDevConnectionInner_path {session : ProtocolSession} {line : String}
    {lines : List String} {acts : List (Act CoreCalls)} {r : Option (Except String Unit)}
    (h : (handleDevConnectionInner session (line :: lines)).Path acts r) :
    (LinePath session line acts none ∧ r = none) ∨
      (∃ text session', LinePath session line acts (some (.error text, session')) ∧
        r = some (.error text)) ∨
      ∃ session' as₁ as₂, acts = as₁ ++ as₂ ∧
        LinePath session line as₁ (some (.ok (), session')) ∧
          (handleDevConnectionInner session' lines).Path as₂ r := by
  rcases path_bind h with ⟨hl, rfl⟩ | ⟨⟨written, session'⟩, as₁, as₂, rfl, hl, h₁⟩
  · exact .inl ⟨handleDevLine_path hl, rfl⟩
  rcases written with text | ⟨⟩
  · obtain ⟨rfl, rfl⟩ := path_pure_iff.1 h₁
    rw [List.append_nil]
    exact .inr (.inl ⟨text, session', handleDevLine_path hl, rfl⟩)
  · exact .inr (.inr ⟨session', as₁, as₂, rfl, handleDevLine_path hl, h₁⟩)

/-- A connection opens a URL only for a virtual input that has announced its action. -/
theorem lineOpens_of_opened {session : ProtocolSession} {lines : List String}
    {acts before after : List (Act CoreCalls)} {r : Option (Except String Unit)} {url : SafeUrl}
    {x : Except OpenUrlError Unit} (path : (handleDevConnectionInner session lines).Path acts r)
    (split : acts = before ++ ⟨.openUrl url, x⟩ :: after) :
    ∃ session' line earlier performed, line ∈ lines ∧ LineOpens session' line url performed ∧
      before = earlier ++ performed := by
  induction lines generalizing session acts before with
  | nil =>
    obtain ⟨rfl, -⟩ := path_pure_iff.1 path
    exact absurd split.symm (by simp)
  | cons line lines ih =>
    rcases handleDevConnectionInner_path path with
      ⟨hl, -⟩ | ⟨text, s', hl, -⟩ | ⟨s', as₁, as₂, rfl, hl, rest⟩
    · exact ⟨_, _, [], _, List.mem_cons_self .., (split ▸ hl).before_open, rfl⟩
    · exact ⟨_, _, [], _, List.mem_cons_self .., (split ▸ hl).before_open, rfl⟩
    · rcases split_append split with ⟨after', rfl, -⟩ | ⟨before', rfl, split'⟩
      · exact ⟨_, _, [], _, List.mem_cons_self .., hl.before_open, rfl⟩
      · obtain ⟨session', line', earlier, performed, mem, opens, rfl⟩ := ih rest split'
        refine ⟨session', line', as₁ ++ earlier, performed, List.mem_cons_of_mem _ mem, opens, ?_⟩
        rw [List.append_assoc]

/-- A connection ends after a message that could not be written, when no later one is. -/
theorem stopped_of_failure {session : ProtocolSession} {lines : List String}
    {acts before after : List (Act CoreCalls)} {result : Except String Unit}
    {message : ServerMessage} {text : String}
    (path : (handleDevConnectionInner session lines).Path acts (some result))
    (split : acts = before ++ ⟨.write message, .error text⟩ :: after)
    (unwritten : ∀ m x, (⟨.write m, x⟩ : Act CoreCalls) ∈ after → x ≠ .ok ()) :
    (∃ text, result = .error text) ∧ (after = [] ∨
      ∃ requestId error text, after = [⟨.log (.commandFailed requestId error), ()⟩,
        ⟨.write (.error (some requestId) ⟨.internal, "command failed"⟩), .error text⟩]) := by
  induction lines generalizing session acts before with
  | nil =>
    obtain ⟨rfl, -⟩ := path_pure_iff.1 path
    exact absurd split.symm (by simp)
  | cons line lines ih =>
    rcases handleDevConnectionInner_path path with
      ⟨-, ⟨⟩⟩ | ⟨text, s', hl, ⟨⟩⟩ | ⟨s', as₁, as₂, rfl, hl, rest⟩
    · refine ⟨⟨text, rfl⟩, ?_⟩
      rcases (split ▸ hl).after_failure with ⟨rfl, -⟩ | ⟨requestId, error, rfl⟩
      · exact .inl rfl
      · exact .inr ⟨requestId, error, text, rfl⟩
    · rcases split_append split with ⟨after', rfl, rfl⟩ | ⟨before', rfl, split'⟩
      · rcases hl.after_failure with ⟨-, ⟨⟩⟩ | ⟨requestId, error, rfl⟩
        exact absurd rfl (unwritten (.error (some requestId) ⟨.internal, "command failed"⟩) (.ok ())
          (by simp))
      · exact ih rest split'

/-! ## Decoded lines -/

/-- The loop over lines that carry these envelopes. -/
def handleEnvelopes : ProtocolSession → List ClientEnvelope → Program CoreCalls (Except String Unit)
  | _, [] => return .ok ()
  | session, envelope :: envelopes => do
    let reply ← dispatchReply (session.dispatchEnvelope envelope).1
    match ← call (S := CoreCalls) (.write reply) with
    | .ok () => handleEnvelopes (session.dispatchEnvelope envelope).2 envelopes
    | .error text => return .error text

/-- Of lines that can be decoded the envelopes count, not their spelling. -/
theorem handleDevConnectionInner_decoded {lines : List String} {envelopes : List ClientEnvelope}
    (decoded : List.Forall₂ (fun line envelope => decodeClientEnvelope line = .ok envelope) lines
      envelopes) (session : ProtocolSession) :
    handleDevConnectionInner session lines = handleEnvelopes session envelopes := by
  induction decoded generalizing session with
  | nil => rfl
  | @cons line envelope lines envelopes read _ ih =>
    have received : session.receiveLine line = session.dispatchEnvelope envelope := by
      unfold ProtocolSession.receiveLine
      rw [read]
    unfold handleDevConnectionInner handleDevLine handleEnvelopes
    rw [received, Program.bind_assoc]
    refine congrArg _ (funext fun reply => ?_)
    rw [Program.bind_assoc]
    refine congrArg _ (funext fun written => ?_)
    cases written with
    | ok => exact ih _
    | error => rfl

end KeyroCore
