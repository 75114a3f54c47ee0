import KeyroCore.Data.Lines
import KeyroCore.Output
import KeyroCore.Storage.AllOrNothing

/-!
# The bytes of a connection

`handle_dev_connection_inner` takes its lines from `BufRead::lines`.  Whatever a line of text says,
it is answered by one reply and the next line is read.  A line that is not UTF-8 is an error of the
reader, and ends the connection without a reply.
-/

open Effect Program Fallible

namespace KeyroCore

/-! ## The code -/

def invalidUtf8 : String := "stream did not contain valid UTF-8"

/-- Drop the `\r` at the end of a line. -/
def dropCarriageReturn (text : String) : String :=
  match text.toList.getLast? with
  | some '\r' => String.ofList text.toList.dropLast
  | _ => text

/-- A line of `BufRead::lines`, from the bytes before its newline. -/
def readLine (bytes : List UInt8) : Except String String :=
  match Lines.ofUtf8? bytes with
  | some text => .ok (dropCarriageReturn text)
  | none => .error invalidUtf8

/-- The bytes after the last newline. -/
def readRest (bytes : List UInt8) : Except String String :=
  match Lines.ofUtf8? bytes with
  | some text => .ok text
  | none => .error invalidUtf8

/-- `BufRead::lines`. -/
def bufReadLines (stream : List UInt8) : List (Except String String) :=
  let pieces := stream.splitOn 10
  pieces.dropLast.map readLine ++
    ((pieces.getLast?.filter fun rest => !rest.isEmpty).map readRest).toList

section Streams

variable [SerdeJson] [UuidCrate] [UrlCrate]

/-- One round of the loop over what the reader yields: an error, or the session for the next. -/
def handleDevRound (session : ProtocolSession) :
    Except String String → Program CoreCalls (Except String ProtocolSession)
  | .error text => return .error text
  | .ok line => do
    let (written, session) ← handleDevLine session line
    return written.map fun _ => session

/-- The loop over what the reader yields. -/
def handleDevLines : ProtocolSession → List (Except String String) →
    Program CoreCalls (Except String Unit)
  | _, [] => return .ok ()
  | session, line :: lines => do
    match ← handleDevRound session line with
    | .ok session => handleDevLines session lines
    | .error text => return .error text

/-- `handle_dev_connection_inner` on the bytes that a client sends. -/
def handleDevStream (stream : List UInt8) : Program CoreCalls (Except String Unit) :=
  handleDevLines (.new CARGO_PKG_VERSION) (bufReadLines stream)

omit [SerdeJson] [UuidCrate] [UrlCrate] in
theorem bufReadLines_flatMap {lines : List (List UInt8)} (closed : ∀ line ∈ lines, 10 ∉ line) :
    bufReadLines (lines.flatMap (· ++ [10])) = lines.map readLine := by
  unfold bufReadLines
  rw [Lines.splitOn_flatMap closed]
  simp

/-- On lines of text this is the loop over the lines. -/
theorem handleDevLines_ok (session : ProtocolSession) (lines : List String) :
    handleDevLines session (lines.map .ok) = handleDevConnectionInner session lines := by
  induction lines generalizing session with
  | nil => rfl
  | cons line lines ih =>
    rw [List.map_cons, handleDevLines, handleDevConnectionInner, handleDevRound, bind_assoc]
    refine congrArg (handleDevLine session line >>= ·) (funext fun answered => ?_)
    obtain ⟨written, session'⟩ := answered
    cases written with
    | error text => rfl
    | ok _ => exact ih session'

/-! ## One line -/

/-- A message that ends the answer to a line: any but an event. -/
def ServerMessage.Terminal (message : ServerMessage) : Bool := message.requestId?.isSome

/-- The reader or the decoder refuses the line. -/
def Undecodable (line : Except String String) : Prop :=
  ∀ text, line = .ok text → ∀ envelope, decodeClientEnvelope text ≠ .ok envelope

/-- A round that answers its line: exactly one terminal message is written and the loop goes on.  A
line that does not decode leaves the session as it was, and nothing but the reply is done. -/
structure AnswersLine (session : ProtocolSession) (line : Except String String)
    (acts : List (Act CoreCalls)) (session' : ProtocolSession) : Prop where
  round : (handleDevRound session line).Path acts (some (.ok session'))
  terminal : ∃ reply, (writtenBy acts).filter ServerMessage.Terminal = [reply]
  undecodable : Undecodable line →
    session' = session ∧ ∃ reply, acts = [⟨.write reply, .ok ()⟩]

/-- Operations that write no terminal message. -/
def CoreOp.WritesEvents : CoreOp → Prop
  | .write message => message.Terminal = false
  | _ => True

omit [SerdeJson] in
theorem routes_writesEvents : CoreOp.Routes CoreOp.WritesEvents :=
  ⟨fun _ => trivial, fun event => by cases event <;> rfl, trivial, fun _ => trivial, trivial,
    fun _ _ => trivial⟩

omit [SerdeJson] [UuidCrate] in
theorem CoreOp.Internal.writesEvents {o : CoreOp} (h : o.Internal) : o.WritesEvents := by
  cases o with
  | write message => exact absurd h id
  | _ => trivial

omit [SerdeJson] in
/-- The service writes events only. -/
theorem uses_handleCommand_events (command : CoreCommand) :
    (coreService.handleCommand command).run.Uses CoreOp.WritesEvents := by
  by_cases virtual : ∃ control, command = .virtualControlInput control
  · obtain ⟨control, rfl⟩ := virtual
    exact Fallible.uses_bind (uses_routeVirtualControl routes_writesEvents control)
      fun _ => trivial
  · rw [not_exists] at virtual
    exact (uses_handleCommand virtual).mono fun _ => CoreOp.Internal.writesEvents

omit [SerdeJson] [UuidCrate] in
theorem filter_terminal_events {acts : List (Act CoreCalls)}
    (events : ∀ a ∈ acts, a.op.WritesEvents) :
    (writtenBy acts).filter ServerMessage.Terminal = [] := by
  refine List.filter_eq_nil_iff.2 fun message mem => ?_
  obtain ⟨a, acted, written⟩ := List.mem_filterMap.1 mem
  have event := events a acted
  obtain ⟨op, x⟩ := a
  cases op with
  | write m =>
    cases x with
    | error text => cases written
    | ok _ =>
      cases written
      rw [Bool.not_eq_true]
      exact event
  | _ => cases written

/-- A line of text is answered by exactly one terminal message. -/
theorem LinePath.terminal {session session' : ProtocolSession} {line : String}
    {acts : List (Act CoreCalls)} {written : Except String Unit}
    (path : LinePath session line acts (some (written, session'))) (reached : AllWritten acts) :
    written = .ok () ∧ session' = (session.receiveLine line).2 ∧
      ∃ reply, (writtenBy acts).filter ServerMessage.Terminal = [reply] := by
  have under := answeredUnder_receiveLine session line
  generalize returned : some (written, session') = r at path
  cases path with
  | dispatching => cases returned
  | @replied acts reply dispatch x =>
    cases returned
    obtain rfl : written = .ok () :=
      reached reply written (List.mem_append_right _ (List.mem_singleton_self _))
    refine ⟨rfl, rfl, reply, ?_⟩
    have last : writtenBy [(⟨.write reply, .ok ()⟩ : Act CoreCalls)] = [reply] := rfl
    have ends (terminal : reply.Terminal = true) :
        [reply].filter ServerMessage.Terminal = [reply] := List.filter_cons_of_pos terminal
    rw [writtenBy_append, List.filter_append, last]
    generalize (session.receiveLine line).1 = received at dispatch under
    generalize replied : some reply = r at dispatch
    cases dispatch with
    | immediate message =>
      cases replied
      exact ends (Option.isSome_of_eq_some under)
    | @command requestId command acts more value r handled replying =>
      subst replied
      obtain ⟨value, rfl, rfl, silent, -⟩ := replying.complete
      rw [writtenBy_append, silent, List.append_nil,
        filter_terminal_events (handled.uses (uses_handleCommand_events command))]
      exact ends (Option.isSome_of_eq_some (requestId?_commandReply requestId value))

/-- A line that does not decode is answered at once. -/
theorem receiveLine_undecodable {line : String}
    (undecodable : ∀ envelope, decodeClientEnvelope line ≠ .ok envelope)
    (session : ProtocolSession) :
    ∃ message, session.receiveLine line = (.immediate message, session) := by
  unfold ProtocolSession.receiveLine
  cases decoded : decodeClientEnvelope line with
  | ok envelope => exact absurd decoded (undecodable envelope)
  | error error => exact ⟨_, rfl⟩

/-- The round of a line of text answers it. -/
theorem answersLine_ok {session : ProtocolSession} {line : String} {acts : List (Act CoreCalls)}
    {result : Except String ProtocolSession}
    (path : (handleDevRound session (.ok line)).Path acts (some result))
    (reached : AllWritten acts) :
    ∃ session', result = .ok session' ∧ AnswersLine session (.ok line) acts session' := by
  have path' := path
  rcases path_bind path' with ⟨-, ⟨⟩⟩ | ⟨⟨written, session'⟩, as₁, as₂, rfl, handled, returned⟩
  obtain ⟨rfl, same⟩ := path_pure_iff.1 returned
  rw [List.append_nil] at path reached ⊢
  have linePath := handleDevLine_path handled
  obtain ⟨rfl, rfl, terminal⟩ := linePath.terminal reached
  cases same
  refine ⟨_, rfl, path, terminal, fun undecodable => ?_⟩
  obtain ⟨message, received⟩ := receiveLine_undecodable (undecodable line rfl) session
  rcases linePath.of_immediate received with ⟨-, ⟨⟩⟩ | ⟨written, rfl, -⟩
  obtain rfl : written = .ok () := reached message written (List.mem_singleton_self _)
  exact ⟨by rw [received], message, rfl⟩

/-! ## Every sequence of lines -/

/-- Every line is answered, one after the other. -/
inductive AnswersEach : ProtocolSession → List (Except String String) → List (Act CoreCalls) → Prop
  | done (session : ProtocolSession) : AnswersEach session [] []
  | next {session session' : ProtocolSession} {line : Except String String}
      {lines : List (Except String String)} {acts more : List (Act CoreCalls)}
      (line_answered : AnswersLine session line acts session')
      (rest : AnswersEach session' lines more) : AnswersEach session (line :: lines) (acts ++ more)

/-- Lines that the reader yields without an error. -/
def AllText (lines : List (Except String String)) : Prop := ∀ line ∈ lines, ∃ text, line = .ok text

theorem AnswersEach.allText {session : ProtocolSession} {lines : List (Except String String)}
    {acts : List (Act CoreCalls)} (h : AnswersEach session lines acts) : AllText lines := by
  induction h with
  | done session => exact nofun
  | @next session session' line lines acts more answered rest ih =>
    refine List.forall_mem_cons.2 ⟨?_, ih⟩
    cases line with
    | ok text => exact ⟨text, rfl⟩
    | error text =>
      obtain ⟨-, ended⟩ := path_pure_iff.1 answered.round
      cases ended

/-- Lines of text are all answered by a connection whose client keeps reading. -/
theorem answersEach_of_allText {session : ProtocolSession} {lines : List (Except String String)}
    (allText : AllText lines) {acts : List (Act CoreCalls)} {result : Except String Unit}
    (path : (handleDevLines session lines).Path acts (some result)) (reached : AllWritten acts) :
    AnswersEach session lines acts ∧ result = .ok () := by
  induction lines generalizing session acts with
  | nil =>
    obtain ⟨rfl, ended⟩ := path_pure_iff.1 path
    cases ended
    exact ⟨.done session, rfl⟩
  | cons line lines ih =>
    obtain ⟨⟨text, rfl⟩, others⟩ := List.forall_mem_cons.1 allText
    rcases path_bind path with ⟨-, ⟨⟩⟩ | ⟨returned, as₁, as₂, rfl, round, rest⟩
    obtain ⟨session', rfl, answered⟩ := answersLine_ok round fun m x mem =>
      reached m x (List.mem_append_left _ mem)
    obtain ⟨later, ended⟩ := ih others rest fun m x mem => reached m x (List.mem_append_right _ mem)
    exact ⟨.next answered later, ended⟩

omit [SerdeJson] [UuidCrate] [UrlCrate] in
theorem readLine_isText_iff {bytes : List UInt8} :
    (∃ text, readLine bytes = .ok text) ↔ (Lines.ofUtf8? bytes).isSome := by
  unfold readLine
  cases Lines.ofUtf8? bytes with
  | none => exact ⟨nofun, nofun⟩
  | some text => exact ⟨fun _ => rfl, fun _ => ⟨_, rfl⟩⟩

/-- A connection whose client keeps reading answers every line, and goes on to the end, exactly if
all its lines are UTF-8. -/
theorem lines_answered_iff {lines : List (List UInt8)} (closed : ∀ line ∈ lines, 10 ∉ line)
    {acts : List (Act CoreCalls)} {result : Except String Unit}
    (path : (handleDevStream (lines.flatMap (· ++ [10]))).Path acts (some result))
    (reached : AllWritten acts) :
    (AnswersEach (.new CARGO_PKG_VERSION) (lines.map readLine) acts ∧ result = .ok ()) ↔
      ∀ line ∈ lines, (Lines.ofUtf8? line).isSome := by
  have text : AllText (lines.map readLine) ↔ ∀ line ∈ lines, (Lines.ofUtf8? line).isSome := by
    unfold AllText
    rw [List.forall_mem_map]
    exact forall₂_congr fun _ _ => readLine_isText_iff
  unfold handleDevStream at path
  rw [bufReadLines_flatMap closed] at path
  rw [← text]
  exact ⟨fun answered => answered.1.allText, fun text => answersEach_of_allText text path reached⟩

end Streams

section Examples

open Reference

/-- A line that is not JSON, a handshake and a blank line. -/
def textLines : List (List UInt8) := [Lines.utf8 "\x7b", Lines.utf8 handshakeLine, []]

theorem lines_answered_iff_example :
    let run := handleDevStream (textLines.flatMap (· ++ [10]))
    ((AnswersEach (.new CARGO_PKG_VERSION) (textLines.map readLine)
        (run.acts (timed coreHandler calm) (.empty, 0)) ∧
      (run.exec (timed coreHandler calm) (.empty, 0)).1 = .ok ()) ↔
        ∀ line ∈ textLines, (Lines.ofUtf8? line).isSome) ∧
    (writtenBy (run.acts (timed coreHandler calm) (.empty, 0))).length = 3 :=
  ⟨lines_answered_iff (by decide +kernel) (path_acts _ _ _) (allWritten_acts (fun _ => rfl) _ _),
    by decide +kernel⟩

/-- A byte that is not UTF-8, and a handshake. -/
def strayLines : List (List UInt8) := [[0xff], Lines.utf8 handshakeLine]

/-- The byte ends the connection: neither line is answered. -/
theorem lines_not_answered :
    let run := handleDevStream (strayLines.flatMap (· ++ [10]))
    writtenBy (run.acts (timed coreHandler calm) (.empty, 0)) = [] ∧
      (run.exec (timed coreHandler calm) (.empty, 0)).1 = .error invalidUtf8 ∧
      ¬ (AnswersEach (.new CARGO_PKG_VERSION) (strayLines.map readLine)
          (run.acts (timed coreHandler calm) (.empty, 0)) ∧
        (run.exec (timed coreHandler calm) (.empty, 0)).1 = .ok ()) := by
  dsimp only
  have ended : ((handleDevStream (strayLines.flatMap (· ++ [10]))).exec (timed coreHandler calm)
      (.empty, 0)).1 = .error invalidUtf8 := by decide +kernel
  refine ⟨by decide +kernel, ended, fun answered => ?_⟩
  rw [ended] at answered
  cases answered.2

end Examples

end KeyroCore
