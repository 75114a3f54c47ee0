import KeyroCore.Connection
import KeyroCore.Reference
import KeyroCore.VirtualInput

/-!
# What a connection writes

A connection to a client that stays writes one block of messages for each line: a reply and, before
the reply to a virtual input that found its assignment, the two events of the action.  When writes
start to fail, the connection has written a beginning of these blocks.
-/

open Effect Program Fallible

namespace KeyroCore

section Blocks

/-- The message of a write that succeeded. -/
def written? [UrlCrate] : Act CoreCalls → Option ServerMessage
  | ⟨.write message, .ok ()⟩ => some message
  | _ => none

theorem act_of_written [UrlCrate] {a : Act CoreCalls} {message : ServerMessage}
    (written : written? a = some message) : a = ⟨.write message, .ok ()⟩ := by
  obtain ⟨o, x⟩ := a
  cases o with
  | write m =>
    rcases x with text | ⟨⟩
    · cases written
    · cases written
      rfl
  | _ => cases written

/-- The messages that were written. -/
def writtenBy [UrlCrate] (acts : List (Act CoreCalls)) : List ServerMessage :=
  acts.filterMap written?

/-- Once a write has failed, all later ones fail. -/
def StaysFailed [UrlCrate] (inputs : ℕ → CoreInput) : Prop :=
  ∀ k l, k ≤ l → (inputs l).written = .ok () → (inputs k).written = .ok ()

/-- The environment with a client that every message reaches. -/
def unfailing [UrlCrate] (inputs : ℕ → CoreInput) : ℕ → CoreInput := fun k =>
  { inputs k with written := .ok () }

theorem unfailing_eq [UrlCrate] {inputs : ℕ → CoreInput}
    (written : ∀ k, (inputs k).written = .ok ()) : unfailing inputs = inputs := by
  funext k
  unfold unfailing
  rw [← written k]

/-- The messages that end a block with events: the report of the opener and the reply. -/
inductive ActionReport (requestId executionId : String) : List ServerMessage → Prop
  | succeeded : ActionReport requestId executionId
      [.actionEvent (.succeeded executionId), .acknowledged requestId]
  | failed (text message : String) : ActionReport requestId executionId
      [.actionEvent (.failed executionId .openUrlFailed text),
        .error (some requestId) { code := .internal, message }]

variable [UrlCrate]

/-- A lookup found an assignment. -/
def Found (acts : List (Act CoreCalls)) : Prop :=
  ∃ profileId control assignment,
    ⟨.lock (.findAssignment profileId control), .ok (some assignment)⟩ ∈ acts

variable [SerdeJson] [UuidCrate]

/-- The messages written for a line that the session received on the store `db`, when `acts` are
the operations performed for it. -/
inductive LineBlock (session : ProtocolSession) (db : Db) (line : String)
    (acts : List (Act CoreCalls)) : List ServerMessage → Prop
  | reply {message : ServerMessage} (answers : message.requestId? = some (requestIdOf line))
      (unfound : ¬ Found acts) : LineBlock session db line acts [message]
  | action {requestId executionId : String} {control : ControlId} {profileId : ProfileId}
      {assignment : Assignment} {report : List ServerMessage}
      (answers : requestIdOf line = some requestId)
      (command : (session.receiveLine line).1 = .command requestId (.virtualControlInput control))
      (active : db.activeProfileId = some profileId)
      (found : ⟨.lock (.findAssignment profileId control), .ok (some assignment)⟩ ∈ acts)
      (reports : ActionReport requestId executionId report) :
      LineBlock session db line acts
        (.actionEvent (.running executionId profileId.toString (controlToDto control)) :: report)

/-! ## One line -/

omit [SerdeJson] [UuidCrate] in
theorem writtenBy_append (as bs : List (Act CoreCalls)) :
    writtenBy (as ++ bs) = writtenBy as ++ writtenBy bs := List.filterMap_append

omit [SerdeJson] [UuidCrate] in
theorem Found.of_append {as bs : List (Act CoreCalls)} (h : Found (as ++ bs)) :
    Found as ∨ Found bs := by
  obtain ⟨profileId, control, assignment, mem⟩ := h
  rcases List.mem_append.1 mem with mem | mem
  · exact .inl ⟨_, _, _, mem⟩
  · exact .inr ⟨_, _, _, mem⟩

omit [SerdeJson] [UuidCrate] in
theorem writtenBy_internal {acts : List (Act CoreCalls)} (h : ∀ a ∈ acts, a.op.Internal) :
    writtenBy acts = [] ∧ ¬ Found acts := by
  constructor
  · refine List.filterMap_eq_nil_iff.2 fun a ha => ?_
    obtain ⟨op, x⟩ := a
    cases op with
    | write message => exact absurd (h _ ha) id
    | _ => rfl
  · rintro ⟨profileId, control, assignment, mem⟩
    exact h _ mem

/-- The reply to the result of a command. -/
def commandReply (requestId : String) : Except AppError CoreResponse → ServerMessage
  | .ok response => responseFromCore requestId response
  | .error error => errorMessage (some requestId) error

omit [SerdeJson] in
theorem requestId?_commandReply (requestId : String) (result : Except AppError CoreResponse) :
    (commandReply requestId result).requestId? = some (some requestId) := by
  rcases result with error | response
  · exact requestId?_errorMessage _ _
  · exact requestId?_responseFromCore _ _

omit [SerdeJson] in
theorem ReplyPath.complete {requestId : String} {result : Option (Except AppError CoreResponse)}
    {acts : List (Act CoreCalls)} {reply : ServerMessage}
    (path : ReplyPath requestId result acts (some reply)) : ∃ value, result = some value ∧
      reply = commandReply requestId value ∧ writtenBy acts = [] ∧ ¬ Found acts := by
  generalize replied : some reply = r at path
  cases path with
  | running => cases replied
  | failing => cases replied
  | response response =>
    cases replied
    exact ⟨_, rfl, rfl, rfl, by simp [Found]⟩
  | failed error =>
    cases replied
    exact ⟨_, rfl, rfl, rfl, by simp [Found]⟩

omit [SerdeJson] in
theorem actionReport_reply (requestId : String) (uuid : Uuid) (opened : Except OpenUrlError Unit) :
    ActionReport requestId (ActionRunId.toString ⟨uuid⟩)
      [eventFromCore (reportEvent ⟨uuid⟩ opened),
        commandReply requestId ((opened.mapError AppError.openUrl).map fun _ => .acknowledged)] := by
  rcases opened with error | ⟨⟩
  · exact .failed _ _
  · exact .succeeded

variable [RusqliteCrate] {α : Type} {inputs : ℕ → CoreInput}

omit [SerdeJson] in
theorem allWritten_acts (written : ∀ k, (inputs k).written = .ok ())
    (p : Program CoreCalls α) (s : Db × ℕ) : AllWritten (p.acts (timed coreHandler inputs) s) := by
  intro m x mem
  obtain ⟨s', answered⟩ := mem_acts mem
  exact answered.symm.trans (written s'.2)

omit [SerdeJson] in
theorem outcome_of_answer {s : Db × ℕ} {r : Region} {x : Except AppError r.Value}
    (answered : (timed coreHandler inputs (.lock r) s).1 = x) :
    ∃ db', Region.Outcome (inputs s.2).sql r s.1 x db' := by
  subst answered
  exact ⟨_, Region.outcome _ r s.1⟩

omit [SerdeJson] in
/-- A lookup finds only assignments with an action. -/
theorem firstAction_of_answer {s : Db × ℕ} {profileId : ProfileId} {control : ControlId}
    {assignment : Assignment} (answered : (timed coreHandler inputs
      (.lock (.findAssignment profileId control)) s).1 = .ok (some assignment)) :
    assignment.firstAction ≠ none := by
  obtain ⟨db', ⟨_, -, ⟨⟩, -⟩ | does⟩ := outcome_of_answer answered
  generalize found : (Except.ok (some assignment) : Except AppError (Option Assignment)) = x at does
  cases does with
  | @assignmentLookedUp _ _ _ actions decoded =>
    rcases actions with _ | ⟨action, actions⟩
    · cases found
    · cases found
      exact nofun

omit [SerdeJson] in
theorem active_of_answer {s : Db × ℕ} {profiles : List Profile} {profile : Profile}
    (answered : (timed coreHandler inputs (.lock .listProfiles) s).1 = .ok profiles)
    (one : ensureExactlyOneActive profiles = .ok ())
    (active : (profiles.find? fun profile => profile.isActive) = some profile) :
    s.1.activeProfileId = some profile.id := by
  obtain ⟨db', ⟨_, -, ⟨⟩, -⟩ | does⟩ := outcome_of_answer answered
  cases does with
  | profilesListed decoded => exact Db.activeProfileId_of_listed decoded one active

/-- A virtual input writes the reply that refuses it, or the events of its action and its reply. -/
theorem route_block {session : ProtocolSession} {line requestId : String} {control : ControlId}
    {s : Db × ℕ} {p : Program CoreCalls α} {acts rest : List (Act CoreCalls)}
    {result : Except AppError Unit} (performed : p.acts (timed coreHandler inputs) s = acts ++ rest)
    (path : RoutePath control acts (some result)) (written : AllWritten acts)
    (replied : writtenBy rest = [commandReply requestId (result.map fun _ => .acknowledged)])
    (unfound : ¬ Found rest) (answers : requestIdOf line = some requestId)
    (command : (session.receiveLine line).1 = .command requestId (.virtualControlInput control)) :
    LineBlock session s.1 line (acts ++ rest) (writtenBy (acts ++ rest)) := by
  have refused (silent : writtenBy acts = []) (none : ¬ Found acts) :
      LineBlock session s.1 line (acts ++ rest) (writtenBy (acts ++ rest)) := by
    rw [writtenBy_append, silent, replied]
    refine .reply (answers ▸ requestId?_commandReply _ _) fun found => ?_
    exact found.of_append.elim none unfound
  generalize ended : some result = r at path
  cases path with
  | start => cases ended
  | listed => cases ended
  | unlisted | ambiguous | unread | notFound => exact refused rfl (by simp [Found])
  | @noAction profiles profile assignment one active empty =>
    have mem : (⟨.lock (.findAssignment profile.id control), .ok (some assignment)⟩ :
        Act CoreCalls) ∈ p.acts (timed coreHandler inputs) s := by simp [performed]
    obtain ⟨s', answered⟩ := mem_acts mem
    exact absurd empty (firstAction_of_answer answered)
  | @found profiles profile assignment url acts _ one active first path =>
    have answered := active_of_answer (acts_head performed) one active
    obtain ⟨uuid, opened, rfl, ran⟩ := path.complete (ended ▸ nofun) fun m x mem =>
      written m x (List.mem_cons_of_mem _ (List.mem_cons_of_mem _ mem))
    rw [← ended] at ran
    cases ran
    rw [writtenBy_append, replied]
    exact .action answers command answered (List.mem_cons_of_mem _ (List.mem_cons_self ..))
      (actionReport_reply requestId uuid opened)

/-- The block that a line writes to a client that every message reaches. -/
theorem line_block (written : ∀ k, (inputs k).written = .ok ()) (session : ProtocolSession)
    (line : String) (s : Db × ℕ) :
    LineBlock session s.1 line ((handleDevLine session line).acts (timed coreHandler inputs) s)
        (writtenBy ((handleDevLine session line).acts (timed coreHandler inputs) s)) ∧
      ((handleDevLine session line).exec (timed coreHandler inputs) s).1.1 = .ok () := by
  have path := handleDevLine_path (path_acts (timed coreHandler inputs) (handleDevLine session line) s)
  have reached := allWritten_acts written (handleDevLine session line) s
  have under := answeredUnder_receiveLine session line
  generalize performed : (handleDevLine session line).acts (timed coreHandler inputs) s = acts
    at path reached ⊢
  generalize ((handleDevLine session line).exec (timed coreHandler inputs) s).1 = result at path ⊢
  generalize returned : some result = r at path
  cases path with
  | dispatching => cases returned
  | @replied acts reply dispatch x =>
    cases returned
    obtain rfl : x = .ok () := reached reply x (List.mem_append_right _ (List.mem_singleton_self _))
    refine ⟨?_, rfl⟩
    generalize received : (session.receiveLine line).1 = received at dispatch under
    generalize replied : some reply = r at dispatch
    cases dispatch with
    | immediate message =>
      cases replied
      exact .reply under (by simp [Found])
    | @command requestId command acts more value r handled replying =>
      subst replied
      obtain ⟨value, rfl, rfl, silent, unfound⟩ := replying.complete
      rw [List.append_assoc] at performed reached ⊢
      have last : writtenBy (more ++ [⟨.write (commandReply requestId value), .ok ()⟩]) =
          [commandReply requestId value] := by
        rw [writtenBy_append, silent]
        rfl
      have unfound' : ¬ Found (more ++ [⟨.write (commandReply requestId value), .ok ()⟩]) :=
        fun found => found.of_append.elim unfound (by simp [Found])
      by_cases virtual : ∃ control, command = .virtualControlInput control
      · obtain ⟨control, rfl⟩ := virtual
        obtain ⟨r, route, result⟩ := virtualControlInput_path handled
        rcases r with _ | r
        · cases result
        · cases result
          exact route_block performed route
            (fun m x mem => reached m x (List.mem_append_left _ mem)) last unfound' under received
      · rw [not_exists] at virtual
        obtain ⟨silent, none⟩ := writtenBy_internal (handled.uses (uses_handleCommand virtual))
        rw [writtenBy_append, silent, last]
        refine .reply (under ▸ requestId?_commandReply _ _) fun found => ?_
        exact found.of_append.elim none unfound'

end Blocks

/-! ## Whole connections -/

section Connections

variable [SerdeJson] [UuidCrate] [UrlCrate] [RusqliteCrate]

/-- The blocks of the lines that a connection receives from here on. -/
inductive Blocks (inputs : ℕ → CoreInput) :
    ProtocolSession → Db × ℕ → List String → List (List ServerMessage) → Prop
  | nil (session : ProtocolSession) (s : Db × ℕ) : Blocks inputs session s [] []
  | cons {session : ProtocolSession} {s : Db × ℕ} {line : String} {lines : List String}
      {block : List ServerMessage} {blocks : List (List ServerMessage)}
      (head : LineBlock session s.1 line
        ((handleDevLine session line).acts (timed coreHandler inputs) s) block)
      (tail : Blocks inputs ((handleDevLine session line).exec (timed coreHandler inputs) s).1.2
        ((handleDevLine session line).exec (timed coreHandler inputs) s).2 lines blocks) :
      Blocks inputs session s (line :: lines) (block :: blocks)

/-- A connection of its own on the store `db` that receives these lines. -/
def connectionActs (inputs : ℕ → CoreInput) (db : Db) (lines : List String) : List (Act CoreCalls) :=
  (handleDevConnectionInner (.new CARGO_PKG_VERSION) lines).acts (timed coreHandler inputs) (db, 0)

def connectionResult (inputs : ℕ → CoreInput) (db : Db) (lines : List String) :
    Except String Unit :=
  ((handleDevConnectionInner (.new CARGO_PKG_VERSION) lines).exec (timed coreHandler inputs)
    (db, 0)).1

/-- The shape of what a connection writes: a beginning of one block for each line, and all of the
blocks if every message can be written.  A URL is opened only right after its announcement was
written.  After a message that could not be written only the reply that reports this is tried, and
the connection ends. -/
structure ConnectionOutput (inputs : ℕ → CoreInput) (db : Db) (lines : List String) : Prop where
  blocks : ∃ blocks, Blocks (unfailing inputs) (.new CARGO_PKG_VERSION) (db, 0) lines blocks ∧
    writtenBy (connectionActs inputs db lines) <+: blocks.flatten ∧
      ((∀ k, (inputs k).written = .ok ()) →
        writtenBy (connectionActs inputs db lines) = blocks.flatten)
  opened : ∀ before url x after,
    connectionActs inputs db lines = before ++ ⟨.openUrl url, x⟩ :: after →
      ∃ earlier executionId profileId control, before = earlier ++
        [⟨.write (.actionEvent (.running executionId profileId control)), .ok ()⟩]
  stopped : ∀ before message text after,
    connectionActs inputs db lines = before ++ ⟨.write message, .error text⟩ :: after →
      (∃ text, connectionResult inputs db lines = .error text) ∧ (after = [] ∨
        ∃ requestId error text, after = [⟨.log (.commandFailed requestId error), ()⟩,
          ⟨.write (.error (some requestId) ⟨.internal, "command failed"⟩), .error text⟩])

variable {inputs : ℕ → CoreInput} {α : Type}

omit [SerdeJson] in
/-- Nothing is written once writes fail. -/
theorem unwritten_of_failing {p : Program CoreCalls α} {s : Db × ℕ}
    (failing : ∀ l, s.2 ≤ l → (inputs l).written ≠ .ok ()) {message : ServerMessage}
    {x : Except String Unit} (mem : ⟨.write message, x⟩ ∈ p.acts (timed coreHandler inputs) s) :
    x ≠ .ok () := by
  obtain ⟨s', le, answered⟩ := mem_acts_of_keeps (I := fun s' => s.2 ≤ s'.2)
    (fun o s' le => Nat.le_succ_of_le le) le_rfl mem
  have failed := failing s'.2 le
  rw [show (inputs s'.2).written = x from answered] at failed
  exact failed

omit [SerdeJson] [UuidCrate] [RusqliteCrate] in
theorem writtenBy_eq_nil {acts : List (Act CoreCalls)}
    (unwritten : ∀ m x, (⟨.write m, x⟩ : Act CoreCalls) ∈ acts → x ≠ .ok ()) :
    writtenBy acts = [] := by
  refine List.filterMap_eq_nil_iff.2 fun a ha => ?_
  obtain ⟨op, x⟩ := a
  cases op with
  | write message =>
    rcases x with text | ⟨⟩
    · rfl
    · exact absurd rfl (unwritten message _ ha)
  | _ => rfl

omit [SerdeJson] in
/-- A client that goes away has received a beginning of what it would have received. -/
theorem writtenBy_prefix (stays : StaysFailed inputs) (p : Program CoreCalls α) (s : Db × ℕ) :
    writtenBy (p.acts (timed coreHandler inputs) s) <+:
      writtenBy (p.acts (timed coreHandler (unfailing inputs)) s) := by
  induction p generalizing s with
  | pure a => exact List.prefix_rfl
  | perform o next ih =>
    cases o with
    | write message =>
      show writtenBy (⟨.write message, (inputs s.2).written⟩ :: (next (inputs s.2).written).acts
          (timed coreHandler inputs) (s.1, s.2 + 1)) <+:
        message :: writtenBy ((next (.ok ())).acts (timed coreHandler (unfailing inputs))
          (s.1, s.2 + 1))
      rcases written : (inputs s.2).written with text | ⟨⟩
      · have silent : writtenBy ((next (.error text)).acts (timed coreHandler inputs)
            (s.1, s.2 + 1)) = [] := by
          refine writtenBy_eq_nil fun m x => unwritten_of_failing fun l le again => ?_
          have earlier := stays s.2 l (Nat.le_of_succ_le le) again
          rw [written] at earlier
          cases earlier
        exact silent ▸ List.nil_prefix
      · exact (List.prefix_cons_inj message).2 (ih _ _)
    | _ => exact ih _ _

omit [SerdeJson] in
/-- After a message that could not be written no other is. -/
theorem unwritten_after_failure (stays : StaysFailed inputs) {p : Program CoreCalls α} {s : Db × ℕ}
    {before after : List (Act CoreCalls)} {message m : ServerMessage} {text : String}
    {x : Except String Unit}
    (split : p.acts (timed coreHandler inputs) s = before ++ ⟨.write message, .error text⟩ :: after)
    (mem : ⟨.write m, x⟩ ∈ after) : x ≠ .ok () := by
  induction p generalizing s before with
  | pure a => cases before <;> cases split
  | perform o next ih =>
    rcases before with _ | ⟨b, before⟩
    · -- The failed write came first, so all writes after it fail.
      have failed : (inputs s.2).written = .error text := acts_head split
      have rest := (List.cons.inj split).2
      refine unwritten_of_failing (fun l le again => ?_) (rest ▸ mem)
      have earlier := stays s.2 l (Nat.le_of_succ_le le) again
      rw [failed] at earlier
      cases earlier
    · exact ih _ (List.cons.inj split).2

/-- A connection to a client that every message reaches writes its blocks. -/
theorem connection_blocks (written : ∀ k, (inputs k).written = .ok ()) (session : ProtocolSession)
    (lines : List String) (s : Db × ℕ) : ∃ blocks, Blocks inputs session s lines blocks ∧
      writtenBy ((handleDevConnectionInner session lines).acts (timed coreHandler inputs) s) =
        blocks.flatten := by
  induction lines generalizing session s with
  | nil => exact ⟨[], .nil session s, rfl⟩
  | cons line lines ih =>
    obtain ⟨block, replied⟩ := line_block written session line s
    obtain ⟨blocks, rest, flat⟩ := ih ((handleDevLine session line).exec
      (timed coreHandler inputs) s).1.2 ((handleDevLine session line).exec
        (timed coreHandler inputs) s).2
    refine ⟨_ :: blocks, .cons block rest, ?_⟩
    unfold handleDevConnectionInner
    rw [acts_bind, writtenBy_append, List.flatten_cons, ← flat]
    generalize (handleDevLine session line).exec (timed coreHandler inputs) s = result at replied
    obtain ⟨⟨x, session'⟩, s'⟩ := result
    obtain rfl : x = .ok () := replied
    rfl

/-- Whatever lines a connection receives, whatever the opener answers and whenever the client goes
away, its output has this shape. -/
theorem connection_output (db : Db) (inputs : ℕ → CoreInput) (stays : StaysFailed inputs)
    (lines : List String) : ConnectionOutput inputs db lines where
  blocks := by
    have written : ∀ k, (unfailing inputs k).written = .ok () := fun _ => rfl
    obtain ⟨blocks, shaped, flat⟩ :=
      connection_blocks written (.new CARGO_PKG_VERSION) lines (db, 0)
    refine ⟨blocks, shaped, flat ▸ writtenBy_prefix stays _ _, fun reached => ?_⟩
    rw [unfailing_eq reached] at flat
    exact flat
  opened := by
    intro before url x after split
    obtain ⟨session, line, earlier, performed, -, opens, rfl⟩ :=
      lineOpens_of_opened (path_acts _ _ _) split
    cases opens with
    | @intro _ control profiles profile assignment uuid =>
      refine ⟨earlier ++ [⟨.lock .listProfiles, .ok profiles⟩,
        ⟨.lock (.findAssignment profile.id control), .ok (some assignment)⟩, ⟨.newUuid, uuid⟩,
        ⟨.log (.coreEvent (.actionRunning ⟨uuid⟩ profile.id control)), ()⟩],
        ActionRunId.toString ⟨uuid⟩, profile.id.toString, controlToDto control, ?_⟩
      rw [List.append_assoc]
      rfl
  stopped := by
    intro before message text after split
    exact stopped_of_failure (path_acts _ _ _) split fun m x => unwritten_after_failure stays split

end Connections

section Examples

open Reference

/-- An initialized store in which the first key opens a URL. -/
def assignedStore : Db :=
  (Region.exec (calm 0).sql (.saveAssignment ⟨⟨uuid 0⟩, firstKey, [.openUrl exampleUrl]⟩)
    (afterInitialize calm .empty).2).2

/-- A client that goes away once it has seen the URL announced. -/
def leavingClient (k : ℕ) : CoreInput :=
  { calm k with written := if k < 8 then .ok () else .error "broken pipe" }

theorem connection_output_example :
    writtenBy (connectionActs leavingClient assignedStore [handshakeLine, firstKeyLine]) =
      [.handshakeAccepted "1" "0.1.0" ⟨0, 3⟩,
        .actionEvent (.running (displayUuid (uuid 3)) (displayUuid (uuid 0)) (.key 0 0))] ∧
    ConnectionOutput leavingClient assignedStore [handshakeLine, firstKeyLine] := by
  refine ⟨?_, connection_output _ _ (fun k l le again => ?_) _⟩
  · unfold connectionActs
    rw [handleDevConnectionInner_decoded (.cons decoded_handshakeLine
      (.cons decoded_firstKeyLine .nil))]
    decide +kernel
  have early : l < 8 := by
    by_contra late
    rw [leavingClient, if_neg late] at again
    cases again
  exact if_pos (Nat.lt_of_le_of_lt le early)

end Examples

end KeyroCore
