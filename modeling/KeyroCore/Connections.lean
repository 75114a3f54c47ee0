import KeyroCore.Connection
import KeyroCore.Storage.AssignmentMap

/-!
# Connections that share a store

Any number of connections run at the same time.  Each one handles its lines one after the other, and
their operations on the shared store interleave in any order.
-/

open Effect Program Fallible Clients Results

namespace KeyroCore

variable [SerdeJson] [UuidCrate] [UrlCrate]

/-- A line reaches a connection: its session, or nothing once the connection has ended.  The result
says whether the reply was written. -/
def connections : Option ProtocolSession → String →
    Program CoreCalls (Except String Unit × Option ProtocolSession)
  | none, _ => return (.ok (), none)
  | some session, line => do
    let (written, session) ← handleDevLine session line
    return (written, written.toOption.map fun _ => session)

/-- The loop of a connection hands its lines to it one after the other. -/
theorem handleDevConnectionInner_cons (session : ProtocolSession) (line : String)
    (lines : List String) : handleDevConnectionInner session (line :: lines) = (do
      match ← connections (some session) line with
      | (_, some session) => handleDevConnectionInner session lines
      | (written, none) => return written) := by
  show (handleDevLine session line >>= _) = (handleDevLine session line >>= _) >>= _
  rw [Program.bind_assoc]
  refine congrArg (handleDevLine session line >>= ·) (funext fun next => ?_)
  obtain ⟨text | ⟨⟩, session'⟩ := next
  · rfl
  · rfl

/-- The configuration in which Core has started on the store `db` and no connection has read a
line. -/
def listening (db : Db) : Config CoreCalls (Option ProtocolSession) String (Except String Unit) Db :=
  begin db (some (.new CARGO_PKG_VERSION))

/-! ## Decoded lines -/

/-- What a connection does with the envelope of a line. -/
def answerEnvelope : Option ProtocolSession → ClientEnvelope →
    Program CoreCalls (Except String Unit × Option ProtocolSession)
  | none, _ => return (.ok (), none)
  | some session, envelope => do
    let reply ← dispatchReply (session.dispatchEnvelope envelope).1
    let written ← call (S := CoreCalls) (.write reply)
    return (written, written.toOption.map fun _ => (session.dispatchEnvelope envelope).2)

theorem connections_decoded {line : String} {envelope : ClientEnvelope}
    (decoded : decodeClientEnvelope line = .ok envelope) (loc : Option ProtocolSession) :
    connections loc line = answerEnvelope loc envelope := by
  cases loc with
  | none => rfl
  | some session =>
    have received : session.receiveLine line = session.dispatchEnvelope envelope := by
      unfold ProtocolSession.receiveLine
      rw [decoded]
    show (handleDevLine session line >>= fun r =>
      Pure.pure (r.1, r.1.toOption.map fun _ => r.2)) = _
    unfold handleDevLine answerEnvelope
    rw [received, Program.bind_assoc]
    refine congrArg _ (funext fun reply => ?_)
    rw [Program.bind_assoc]
    rfl

/-- Of lines that can be decoded the envelopes count. -/
theorem run_decoded {Line : Type} {text : Line → String} {envelope : Line → ClientEnvelope}
    (decoded : ∀ line, decodeClientEnvelope (text line) = .ok (envelope line)) (db : Db)
    (moves : List (Move Line CoreInput)) :
    run connections coreHandler (listening db) (moves.map (Move.mapJob text)) =
      (run (fun loc line => answerEnvelope loc (envelope line)) coreHandler
        (begin db (some (.new CARGO_PKG_VERSION))) moves).mapJob text := by
  have same : (fun loc line => connections loc (text line)) =
      fun loc line => answerEnvelope loc (envelope line) := by
    funext loc line
    exact connections_decoded (decoded line) loc
  rw [← same]
  exact run_mapJob connections coreHandler text (begin db _) moves

/-! ## What a line saves -/

/-- An operation that reaches the store saves only an assignment that satisfies `P`. -/
def CoreOp.SavesOnly (P : Assignment → Prop) (o : CoreOp) : Prop :=
  ∀ a, o = .lock (.saveAssignment a) → P a

omit [SerdeJson] [UuidCrate] in
theorem CoreOp.KeepsMap.savesOnly {P : Assignment → Prop} {o : CoreOp} (h : o.KeepsMap) :
    o.SavesOnly P := by
  rintro a rfl
  cases h

omit [SerdeJson] [UuidCrate] in
theorem CoreOp.Observes.savesOnly {P : Assignment → Prop} {o : CoreOp} (h : o.Observes) :
    o.SavesOnly P := by
  rintro a rfl
  cases h

omit [SerdeJson] in
/-- A command saves what it was asked to save, and nothing else. -/
theorem uses_handleCommand_savesOnly (command : CoreCommand) :
    (coreService.handleCommand command).run.Uses
      (CoreOp.SavesOnly fun a => command = .saveAssignment a) := by
  cases command with
  | getSnapshot | listProfiles =>
    refine Fallible.uses_bind (uses_lock nofun) fun _ => ?_
    exact Fallible.uses_bind (uses_domain _) fun _ => trivial
  | createProfile name =>
    refine Fallible.uses_bind ?_ fun _ => trivial
    exact (uses_createProfile name).mono fun _ => CoreOp.KeepsMap.savesOnly
  | renameProfile profileId name =>
    refine Fallible.uses_bind ?_ fun _ => trivial
    exact (uses_renameProfile profileId name).mono fun _ => CoreOp.KeepsMap.savesOnly
  | setActiveProfile | clearAssignment =>
    exact Fallible.uses_bind (uses_lock nofun) fun _ => trivial
  | saveAssignment a =>
    refine Fallible.uses_bind (uses_lock fun b same => ?_) fun _ => trivial
    cases same
    rfl
  | virtualControlInput control =>
    refine Fallible.uses_bind ?_ fun _ => trivial
    exact (uses_routeVirtualControl CoreOp.routes_observes control).mono
      fun _ => CoreOp.Observes.savesOnly

/-- A line asks to save the assignment on an established session. -/
def ProtocolSession.AsksToSave (session : ProtocolSession) (line : String) (a : Assignment) : Prop :=
  ∃ requestId, (session.receiveLine line).1 = .command requestId (.saveAssignment a)

/-- A line asks to save exactly one action. -/
theorem ProtocolSession.AsksToSave.single {session : ProtocolSession} {line : String}
    {a : Assignment} (asks : session.AsksToSave line a) : ∃ action, a.actions = [action] := by
  obtain ⟨requestId, dispatched⟩ := asks
  obtain ⟨-, message, -, converted⟩ := ProtocolSession.receiveLine_command_iff.1 dispatched
  obtain ⟨dto, -, read⟩ := assignmentFromDto_of_command converted
  obtain ⟨-, -, action, -, one⟩ := assignmentFromDto_ok_iff.1 read
  exact ⟨action, one⟩

theorem uses_handleDevLine (session : ProtocolSession) (line : String) :
    (handleDevLine session line).Uses (CoreOp.SavesOnly (session.AsksToSave line)) := by
  refine Program.uses_bind ?_ fun reply => Program.uses_bind (uses_call nofun) fun _ => trivial
  unfold ProtocolSession.AsksToSave
  generalize (session.receiveLine line).1 = dispatched
  cases dispatched with
  | immediate message => exact trivial
  | command requestId command =>
    refine Program.uses_bind ?_ fun result => ?_
    · refine (uses_handleCommand_savesOnly command).mono fun o only a save => ?_
      exact ⟨requestId, congrArg _ (only a save)⟩
    · rcases result with error | response
      · exact Program.uses_bind (uses_call nofun) fun _ => trivial
      · exact trivial

/-- What an open or closed connection may save when it reads a line. -/
def AsksToSave (loc : Option ProtocolSession) (line : String) (a : Assignment) : Prop :=
  ∃ session, loc = some session ∧ session.AsksToSave line a

theorem uses_connections (loc : Option ProtocolSession) (line : String) :
    (connections loc line).Uses (CoreOp.SavesOnly (AsksToSave loc line)) := by
  cases loc with
  | none => exact trivial
  | some session =>
    refine Program.uses_bind ?_ fun _ => trivial
    exact (uses_handleDevLine session line).mono fun o only a save => ⟨session, rfl, only a save⟩

/-! ## What an open connection performs -/

/-- A connection that performs an operation is open, and performs what its session does. -/
theorem connections_path {loc : Option ProtocolSession} {line : String}
    {acts : List (Act CoreCalls)} {r : Option (Except String Unit × Option ProtocolSession)}
    (h : (connections loc line).Path acts r) :
    acts = [] ∧ loc = none ∧ r = some (.ok (), none) ∨ ∃ session r', loc = some session ∧ LinePath session line acts r' ∧
        r = r'.map fun ended => (ended.1, ended.1.toOption.map fun _ => ended.2) := by
  cases loc with
  | none =>
    obtain ⟨rfl, rfl⟩ := path_pure_iff.1 h
    exact .inl ⟨rfl, rfl, rfl⟩
  | some session =>
    obtain ⟨r', path, rfl⟩ := path_bind_pure h
    exact .inr ⟨session, r', rfl, handleDevLine_path path, rfl⟩

/-- The operations of a job up to and including one of the history. -/
theorem linePath_of_entry [RusqliteCrate] {db : Db} {c : Config CoreCalls (Option ProtocolSession)
      String (Except String Unit) Db} (traced : Traced connections coreHandler db c)
    {e : Entry CoreCalls (Option ProtocolSession) String Db} (he : e ∈ c.history) :
    ∃ session r, e.loc = some session ∧
      LinePath session e.job (e.past.map Prod.snd ++ [e.act]) r := by
  obtain ⟨q, follows⟩ := traced.entry_follows e he
  rcases connections_path follows.path with ⟨none, -⟩ | ⟨session, r, open_, path, -⟩
  · exact absurd none (by simp)
  · exact ⟨session, r, open_, path⟩

end KeyroCore
