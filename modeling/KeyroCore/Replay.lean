import KeyroCore.Connections
import KeyroCore.Storage.ActiveProfile

/-!
# Replaying a snapshot

A store that connections have reached holds at most one action for each control.  Its snapshot lists
them, and a client that sends every one of them back, in any order and any number of times, leaves
the tables as they were.
-/

open Effect Program Fallible Clients Results

namespace KeyroCore

/-! ## Stores that connections reach -/

section Reached

variable [UuidCrate] [UrlCrate]

/-- The tables hold a map, and no control has more than one action. -/
def Db.Singles (db : Db) : Prop := ∃ m, db.Represents m ∧ ∀ k, (m.entry k).length ≤ 1

variable [RusqliteCrate]

theorem Region.Outcome.singles (hp : UuidCrate.ParseInverts) {env : ℕ → SqlChoice} {r : Region}
    {db db' : Db} {result : Except AppError r.Value} (outcome : Outcome env r db result db')
    (single : ∀ a, r = .saveAssignment a → ∃ action, a.actions = [action]) (h : db.Singles) :
    db'.Singles := by
  obtain ⟨m, represents, short⟩ := h
  rcases outcome.represents hp represents with represents' | ⟨-, same⟩
  · refine ⟨_, represents', fun k => ?_⟩
    have replaced (k' : ProfileId × ControlId) {actions : List Action}
        (one : actions.length ≤ 1) : ((m.put k' actions).entry k).length ≤ 1 := by
      rw [ListMap.entry_put]
      split_ifs
      · exact one
      · exact short k
    cases r with
    | saveAssignment a =>
      obtain ⟨action, one⟩ := single a rfl
      have le : a.actions.length ≤ 1 := by
        rw [one]
        exact le_rfl
      cases result with
      | error error => exact short k
      | ok value => exact replaced _ le
    | clearAssignment profileId control =>
      cases result with
      | error error => exact short k
      | ok value => exact replaced _ (Nat.zero_le 1)
    | _ => exact short k
  · rw [same]
    exact ⟨m, represents, short⟩

theorem singles_coreHandler (hp : UuidCrate.ParseInverts) (input : CoreInput) (o : CoreOp) (db : Db)
    (only : o.SavesOnly fun a => ∃ action, a.actions = [action]) (h : db.Singles) :
    (coreHandler input o db).2.Singles := by
  cases o with
  | lock r =>
    refine (Region.outcome input.sql r db).singles hp (fun a same => only a ?_) h
    exact congrArg CoreOp.lock same
  | _ => exact h

/-- Core starts on a fresh database without assignments. -/
theorem singles_afterInitialize (hp : UuidCrate.ParseInverts) (inputs : ℕ → CoreInput) :
    (afterInitialize inputs .empty).2.Singles := by
  have uses : coreService.initializeCore.run.Uses CoreOp.KeepsMap := by
    refine Fallible.uses_bind (uses_lock trivial) fun profile => ?_
    refine Fallible.uses_bind (uses_lock trivial) fun profiles => ?_
    exact Fallible.uses_bind (uses_domain _) fun _ => trivial
  have represents : (afterInitialize inputs .empty).2.Represents (ListMap.ofEntries fun _ => []) :=
    (uses.still (v := fun _ => ()) (represents_keepsMap hp) Db.represents_empty).2
  refine ⟨_, represents, fun k => ?_⟩
  rw [ListMap.entry_ofEntries]
  exact Nat.zero_le 1

variable [SerdeJson]

/-- Every store that connections reach holds at most one action for each control, and one active
profile. -/
theorem reached_singles (hp : UuidCrate.ParseInverts) {inputs : ℕ → CoreInput} {profile : Profile}
    (initialized : (afterInitialize inputs .empty).1 = .ok profile)
    (moves : List (Move String CoreInput)) :
    (run connections coreHandler (listening (afterInitialize inputs .empty).2) moves).shared.Singles ∧
      (run connections coreHandler (listening (afterInitialize inputs .empty).2) moves).shared.OneActive
    := by
  have traced : Traced connections coreHandler (afterInitialize inputs .empty).2
      (run connections coreHandler (listening (afterInitialize inputs .empty).2) moves) :=
    traced_run _ _ _
  rw [traced.shared_eq]
  constructor
  · refine traced.invariant_of_ops (singles_afterInitialize hp inputs) (fun e he a save => ?_)
      (singles_coreHandler hp) le_rfl
    obtain ⟨session, -, asks⟩ := traced.used uses_connections he a save
    exact asks.single
  · exact traced.invariant (initialized_store initialized).1
      (fun input o db => oneActive_coreHandler input o db) le_rfl

end Reached

/-! ## Saving an entry again -/

section Again

variable [UuidCrate] [UrlCrate] {db db' : Db} {m : AssignmentMap}

/-- The profile of an entry exists. -/
theorem Db.Represents.hasProfile (h : db.Represents m) {k : ProfileId × ControlId}
    (present : m.entry k ≠ []) : db.HasProfile k.1 := by
  obtain ⟨action, rest, entry⟩ := List.exists_cons_of_ne_nil present
  have rows := h.rows k
  rw [entry, actionRows] at rows
  have stored : assignmentRow (identityParams k.1 k.2) 0 (encodeAction action).1
      (encodeAction action).2 ∈ db.rowsOf k := rows ▸ List.mem_cons_self ..
  exact db.admits.profile_id_references _ (List.mem_filter.1 stored).1

/-- Deleting the rows of a control and inserting its entry permutes the table. -/
theorem Db.Represents.perm (h : db.Represents m) (k : ProfileId × ControlId) :
    (db.otherAssignments (identityParams k.1 k.2) ++
      actionRows (identityParams k.1 k.2) 0 (m.entry k)).Perm db.assignments := by
  rw [← h.rows k]
  have parts := List.filter_append_perm
    (fun row : AssignmentRow => decide (row.Matches (identityParams k.1 k.2))) db.assignments
  unfold otherAssignments rowsOf
  simp only [← decide_not] at parts
  exact List.perm_append_comm.trans parts

/-- The tables are those of `db`, up to the rowids of assignments. -/
structure Db.SameTables (db db' : Db) : Prop where
  profiles : db'.profiles = db.profiles
  assignments : db'.assignments.Perm db.assignments

theorem Region.Does.savedAgain (hp : UuidCrate.ParseInverts) {a : Assignment}
    {result : Except AppError Unit} (does : Does (.saveAssignment a) db result db')
    (h : db.Represents m) (same : m.entry (a.profileId, a.control) = a.actions)
    (present : a.actions ≠ []) : result = .ok () ∧ db'.Represents m ∧ db.SameTables db' := by
  have represents := does.represents hp h
  cases does with
  | assignmentSaved known profiles assignments =>
    have kept : m.put (a.profileId, a.control) a.actions = m := by
      refine ListMap.ext_entry fun k => ?_
      rw [ListMap.entry_put]
      split_ifs with eq
      · rw [eq, same]
      · rfl
    refine ⟨rfl, kept ▸ represents, profiles, ?_⟩
    rw [assignments, ← same]
    exact h.perm (a.profileId, a.control)
  | assignmentNotSaved unknown =>
    exact absurd (h.hasProfile (k := (a.profileId, a.control)) (same ▸ present)) unknown

end Again

/-! ## Replies -/

section Replies

variable [SerdeJson] [UuidCrate] [UrlCrate]

def replyOf (requestId : String) : Except AppError CoreResponse → ServerMessage
  | .ok response => responseFromCore requestId response
  | .error error => errorMessage (some requestId) error

/-- The snapshot of a store with these profiles and rows. -/
def snapshotOf (profiles : List Profile) (rows : List (ProfileId × ControlId × Action)) :
    CoreSnapshot where
  layout := MVP_DEVICE_LAYOUT
  profiles := profiles
  assignments := (rows.foldl pushAction []).map fun assignment =>
    { profileId := assignment.profileId, control := assignment.control
      actions := assignment.actions }

/-- A line that asks to save an assignment of a snapshot, with its parts copied from there. -/
def Copies (assignments : List SnapshotAssignmentDto) (requestId line : String) : Prop :=
  ∃ a ∈ assignments, ∃ action ∈ a.actions, decodeClientEnvelope line =
    .ok ⟨requestId, .saveAssignment { profileId := a.profileId, control := a.control, action }⟩

def AsksForSnapshot (requestId line : String) : Prop :=
  decodeClientEnvelope line = .ok ⟨requestId, .getSnapshot⟩

/-- The reply to a request for a snapshot: the decoded rows of the store, unless the store fails. -/
inductive SnapshotReply (db : Db) (mayFail : Prop) (requestId : String) : ServerMessage → Prop
  | loaded {profiles : List Profile} {rows : List (ProfileId × ControlId × Action)}
      (decoded : db.orderedProfiles.mapM decodeProfile = .ok profiles)
      (decodedRows : db.orderedAssignments.mapM decodeAssignmentRow = .ok rows) :
      SnapshotReply db mayFail requestId
        (responseFromCore requestId (.snapshot (snapshotOf profiles rows)))
  | failed (faulty : mayFail) (error : AppError) :
      SnapshotReply db mayFail requestId (errorMessage (some requestId) error)

variable [RusqliteCrate]

/-- The reply that a connection finds to a line, and the store after it. -/
def replyTo (inputs : ℕ → CoreInput) (session : ProtocolSession) (line : String) (s : Db × ℕ) :
    ServerMessage × Db × ℕ :=
  (dispatchReply (session.receiveLine line).1).exec (timed coreHandler inputs) s

/-- The replies to lines that arrive one after the other, and the store after them. -/
def repliesTo (inputs : ℕ → CoreInput) :
    ProtocolSession → List String → Db × ℕ → List ServerMessage × Db × ℕ
  | _, [], s => ([], s)
  | session, line :: lines, s =>
    let (reply, s) := replyTo inputs session line s
    let (replies, s) := repliesTo inputs (session.receiveLine line).2 lines s
    (reply :: replies, s)

/-- On the store `s` a client can send the assignments of a snapshot back, as often as it likes. -/
structure Replays (inputs : ℕ → CoreInput) (session : ProtocolSession) (s : Db × ℕ)
    (layout : DeviceLayoutDto) (profiles : List ProfileDto)
    (assignments : List SnapshotAssignmentDto) : Prop where
  single : ∀ a ∈ assignments, ∃ action, a.actions = [action]
  kept : ∀ lines : List (String × String), (∀ l ∈ lines, Copies assignments l.1 l.2) →
    s.1.SameTables (repliesTo inputs session (lines.map Prod.snd) s).2.1
  acknowledged : Quiet inputs → ∀ lines : List (String × String),
    (∀ l ∈ lines, Copies assignments l.1 l.2) →
      (repliesTo inputs session (lines.map Prod.snd) s).1 = lines.map fun l => .acknowledged l.1
  again : Quiet inputs → ∀ lines : List (String × String),
    (∀ l ∈ lines, Copies assignments l.1 l.2) → ∀ requestId line, AsksForSnapshot requestId line →
      (replyTo inputs session line (repliesTo inputs session (lines.map Prod.snd) s).2).1 =
        .snapshot requestId layout profiles assignments

variable {inputs : ℕ → CoreInput} {session : ProtocolSession} {line requestId : String}
  {s : Db × ℕ}

omit [SerdeJson] [RusqliteCrate] in
/-- On a store that represents a map, a region that draws no UUID fails only by a fault. -/
theorem Region.Fails.not_quiet (hp : UuidCrate.ParseInverts) {n : ℕ} {r : Region} {db : Db}
    {error : SqlError} (fails : Fails (inputs n).sql r db error) {m : AssignmentMap}
    (represents : db.Represents m)
    (stores : r ≠ .ensureDefaultProfile ∧ ∀ profile, r ≠ .insertProfile profile) :
    ¬ Quiet inputs := by
  intro quiet
  rcases fails.draws hp represents (quiet.not_faulty _ _) with same | ⟨profile, same⟩
  · exact stores.1 same
  · exact stores.2 profile same

/-- A command is answered with its result, and the store is as the command leaves it. -/
theorem replyTo_command {command : CoreCommand} {Q : ServerMessage → Db → Prop}
    (received : (session.receiveLine line).1 = .command requestId command)
    (h : Ends (timed coreHandler inputs) (coreService.handleCommand command) s fun result s' =>
      Q (replyOf requestId result) s'.1) :
    Q (replyTo inputs session line s).1 (replyTo inputs session line s).2.1 := by
  unfold replyTo dispatchReply
  rw [received]
  dsimp only
  rw [exec_bind]
  unfold Ends at h
  rcases ended : exec (timed coreHandler inputs) (coreService.handleCommand command).run s with
    ⟨error | response, s'⟩ <;> rw [ended] at h
  · exact h
  · exact h

theorem replyTo_getSnapshot (hp : UuidCrate.ParseInverts)
    (established : session.state = .established) (asks : AsksForSnapshot requestId line)
    {m : AssignmentMap} (represents : s.1.Represents m) (one : s.1.OneActive) :
    SnapshotReply s.1 (¬ Quiet inputs) requestId (replyTo inputs session line s).1 ∧
      (replyTo inputs session line s).2.1 = s.1 := by
  have received : (session.receiveLine line).1 = .command requestId .getSnapshot :=
    ProtocolSession.receiveLine_command_iff.2 ⟨established, _, asks, rfl⟩
  refine replyTo_command (Q := fun reply db =>
    SnapshotReply s.1 (¬ Quiet inputs) requestId reply ∧ db = s.1) received ?_
  obtain ⟨db, n⟩ := s
  unfold CoreService.handleCommand
  rw [ends_bind_iff]
  refine ends_lock fun x db' outcome => ?_
  rcases outcome with ⟨error, fails, rfl, rfl⟩ | does
  · have faulty := fails.not_quiet hp represents ⟨nofun, nofun⟩
    exact ⟨SnapshotReply.failed faulty (toAppError error), rfl⟩
  · cases does with
    | snapshotLoaded decoded decodedRows =>
      dsimp only
      rw [db.ensure_of_decoded one decoded]
      exact ⟨.loaded decoded decodedRows, rfl⟩

/-- A copied assignment is acknowledged and keeps the tables. -/
theorem replyTo_copy (hp : UuidCrate.ParseInverts) (established : session.state = .established)
    {m : AssignmentMap} (represents : s.1.Represents m) {profileId : ProfileId}
    {control : ControlId} {action : Action} (entry : m.entry (profileId, control) = [action])
    (copied : decodeClientEnvelope line = .ok ⟨requestId, .saveAssignment
      { profileId := profileId.toString, control := controlToDto control
        action := actionToDto action }⟩) :
    (Quiet inputs → (replyTo inputs session line s).1 = .acknowledged requestId) ∧
      (replyTo inputs session line s).2.1.Represents m ∧
        s.1.SameTables (replyTo inputs session line s).2.1 := by
  have converted : commandFromMessage (.saveAssignment
      { profileId := profileId.toString, control := controlToDto control
        action := actionToDto action }) =
          .ok (.saveAssignment { profileId, control, actions := [action] }) := by
    show (assignmentFromDto _ >>= _) = _
    rw [assignmentFromDto_toDto hp]
    rfl
  have received := ProtocolSession.receiveLine_command_iff.2 ⟨established, _, copied, converted⟩
  refine replyTo_command (Q := fun reply db => (Quiet inputs → reply = .acknowledged requestId) ∧
    db.Represents m ∧ s.1.SameTables db) received ?_
  obtain ⟨db, n⟩ := s
  unfold CoreService.handleCommand
  rw [ends_bind_iff]
  refine ends_lock fun x db' outcome => ?_
  rcases outcome with ⟨error, fails, rfl, rfl⟩ | does
  · have faulty := fails.not_quiet hp represents ⟨nofun, nofun⟩
    exact ⟨fun quiet => absurd quiet faulty, represents, rfl, .refl _⟩
  · obtain ⟨rfl, kept⟩ := does.savedAgain hp represents entry (List.cons_ne_nil _ _)
    exact ⟨fun _ => rfl, kept⟩

theorem repliesTo_cons (established : session.state = .established) (line : String)
    (lines : List String) (s : Db × ℕ) : repliesTo inputs session (line :: lines) s =
      ((replyTo inputs session line s).1 ::
          (repliesTo inputs session lines (replyTo inputs session line s).2).1,
        (repliesTo inputs session lines (replyTo inputs session line s).2).2) := by
  conv_lhs => rw [repliesTo, ProtocolSession.receiveLine_established established]

/-- Copied assignments, in any order and any number of times. -/
theorem repliesTo_copies (hp : UuidCrate.ParseInverts) (established : session.state = .established)
    {m : AssignmentMap} (represents : s.1.Represents m) {assignments : List SnapshotAssignmentDto}
    (listed : ∀ a ∈ assignments, ∃ (profileId : ProfileId) (control : ControlId) (action : Action),
      m.entry (profileId, control) = [action] ∧
        a = ⟨profileId.toString, controlToDto control, [actionToDto action]⟩)
    (lines : List (String × String)) (copies : ∀ l ∈ lines, Copies assignments l.1 l.2) :
    (Quiet inputs → (repliesTo inputs session (lines.map Prod.snd) s).1 =
      lines.map fun l => .acknowledged l.1) ∧
    (repliesTo inputs session (lines.map Prod.snd) s).2.1.Represents m ∧
      s.1.SameTables (repliesTo inputs session (lines.map Prod.snd) s).2.1 := by
  induction lines generalizing s with
  | nil => exact ⟨fun _ => rfl, represents, rfl, .refl _⟩
  | cons l lines ih =>
    rw [List.forall_mem_cons] at copies
    obtain ⟨⟨a, ha, action, mem, copied⟩, copies⟩ := copies
    obtain ⟨profileId, control, action', entry, rfl⟩ := listed a ha
    rw [List.mem_singleton.1 mem] at copied
    obtain ⟨acknowledged, represents', same⟩ :=
      replyTo_copy hp established represents entry copied
    obtain ⟨acknowledgedRest, represented, sameRest⟩ := ih represents' copies
    rw [List.map_cons, List.map_cons, repliesTo_cons established]
    refine ⟨fun quiet => ?_, represented, sameRest.profiles.trans same.profiles,
      sameRest.assignments.trans same.assignments⟩
    rw [acknowledged quiet, acknowledgedRest quiet]

omit [SerdeJson] [RusqliteCrate] in
/-- The snapshot of a store lists the entries of its map. -/
theorem Db.Represents.listed (hp : UuidCrate.ParseInverts) {db : Db} {m : AssignmentMap}
    (represents : db.Represents m) (short : ∀ k, (m.entry k).length ≤ 1)
    (profiles : List Profile) {rows : List (ProfileId × ControlId × Action)}
    (decodedRows : db.orderedAssignments.mapM decodeAssignmentRow = .ok rows) :
    ∀ a ∈ (snapshotOf profiles rows).assignments.map snapshotAssignmentToDto,
      ∃ (profileId : ProfileId) (control : ControlId) (action : Action),
        m.entry (profileId, control) = [action] ∧
          a = ⟨profileId.toString, controlToDto control, [actionToDto action]⟩ := by
  intro a ha
  obtain ⟨_, mem, rfl⟩ := List.mem_map.1 ha
  obtain ⟨⟨profileId, control, actions⟩, mem', rfl⟩ := List.mem_map.1 mem
  have present := ((represents.snapshot hp decodedRows).mem_iff _).1 mem'
  rw [m.eq_value_entry, ListMap.map_val_value] at present
  split_ifs at present with empty
  have le := short (profileId, control)
  obtain rfl : m.entry (profileId, control) = actions := Option.some.inj present
  obtain ⟨action, one⟩ : ∃ action, m.entry (profileId, control) = [action] := by
    have pos := List.length_pos_iff.2 empty
    dsimp only at pos
    exact List.length_eq_one_iff.1 (by omega)
  refine ⟨profileId, control, action, one, ?_⟩
  unfold snapshotAssignmentToDto
  dsimp only
  rw [one]
  rfl

omit [SerdeJson] [RusqliteCrate] in
theorem SnapshotReply.exists_of_sure {db : Db} {mayFail : Prop} {requestId : String}
    {reply : ServerMessage} (answered : SnapshotReply db mayFail requestId reply)
    (never : ¬ mayFail) :
    ∃ layout profiles assignments, reply = .snapshot requestId layout profiles assignments := by
  cases answered with
  | loaded => exact ⟨_, _, _, rfl⟩
  | failed faulty => exact absurd faulty never

omit [SerdeJson] [RusqliteCrate] in
/-- A snapshot is read from the rows of the store. -/
theorem SnapshotReply.rows {db : Db} {mayFail : Prop} {requestId : String}
    {layout : DeviceLayoutDto} {profiles : List ProfileDto}
    {assignments : List SnapshotAssignmentDto} (answered : SnapshotReply db mayFail requestId
      (.snapshot requestId layout profiles assignments)) :
    ∃ decoded rows, db.orderedProfiles.mapM decodeProfile = .ok decoded ∧
      db.orderedAssignments.mapM decodeAssignmentRow = .ok rows ∧
      responseFromCore requestId (.snapshot (snapshotOf decoded rows)) =
        .snapshot requestId layout profiles assignments := by
  generalize reply : ServerMessage.snapshot requestId layout profiles assignments = message
    at answered
  cases answered with
  | loaded decoded decodedRows => exact ⟨_, _, decoded, decodedRows, rfl⟩
  | failed => cases reply

omit [SerdeJson] [RusqliteCrate] in
/-- Stores with the same tables have the same snapshot. -/
theorem SnapshotReply.same {db db' : Db} (tables : db.SameTables db') {mayFail : Prop}
    (never : ¬ mayFail) {profiles : List Profile} {rows : List (ProfileId × ControlId × Action)}
    (decoded : db.orderedProfiles.mapM decodeProfile = .ok profiles)
    (decodedRows : db.orderedAssignments.mapM decodeAssignmentRow = .ok rows)
    {requestId : String} {reply : ServerMessage}
    (answered : SnapshotReply db' mayFail requestId reply) :
    reply = responseFromCore requestId (.snapshot (snapshotOf profiles rows)) := by
  cases answered with
  | failed faulty => exact absurd faulty never
  | loaded decoded' decodedRows' =>
    unfold Db.orderedProfiles at decoded decoded'
    rw [tables.profiles, decoded] at decoded'
    rw [Db.orderedAssignments_congr tables.assignments, decodedRows] at decodedRows'
    cases decoded'
    cases decodedRows'
    rfl

/-- A client of a store that connections have reached asks for a snapshot: it carries one action
for each assignment, and sending its assignments back is acknowledged and keeps the tables and the
snapshot. -/
theorem snapshot_replays (hp : UuidCrate.ParseInverts) {initial : ℕ → CoreInput}
    {profile : Profile} (initialized : (afterInitialize initial .empty).1 = .ok profile)
    (moves : List (Move String CoreInput)) (inputs : ℕ → CoreInput) (n : ℕ)
    {session : ProtocolSession} (established : session.state = .established)
    {requestId line : String} (asks : AsksForSnapshot requestId line) :
    let db :=
      (run connections coreHandler (listening (afterInitialize initial .empty).2) moves).shared
    let m := replyTo inputs session line (db, n)
    m.2.1 = db ∧
      (Quiet inputs → ∃ layout profiles assignments,
        m.1 = .snapshot requestId layout profiles assignments) ∧
      ∀ layout profiles assignments, m.1 = .snapshot requestId layout profiles assignments →
        Replays inputs session m.2 layout profiles assignments := by
  intro db m
  obtain ⟨⟨entries, represents, short⟩, one⟩ := reached_singles hp initialized moves
  have represents₀ : (db, n).1.Represents entries := represents
  have one₀ : (db, n).1.OneActive := one
  obtain ⟨answered, same⟩ : SnapshotReply db (¬ Quiet inputs) requestId m.1 ∧ m.2.1 = db :=
    replyTo_getSnapshot hp established asks represents₀ one₀
  refine ⟨same, fun quiet => answered.exists_of_sure (not_not.2 quiet),
    fun layout profiles assignments read => ?_⟩
  rw [read] at answered
  obtain ⟨decoded, rows, decodedProfiles, decodedRows, reply⟩ := answered.rows
  have listed := represents.listed hp short decoded decodedRows
  obtain rfl : _ = assignments := (ServerMessage.snapshot.inj reply).2.2.2
  have represents' : m.2.1.Represents entries := same ▸ represents
  refine ⟨fun a ha => ?_, fun lines copies => ?_, fun quiet lines copies => ?_,
    fun quiet lines copies requestId' line' asks' => ?_⟩
  · obtain ⟨profileId, control, action, -, rfl⟩ := listed a ha
    exact ⟨_, rfl⟩
  · exact (repliesTo_copies hp established represents' listed lines copies).2.2
  · exact (repliesTo_copies hp established represents' listed lines copies).1 quiet
  · obtain ⟨-, represented, tables⟩ :=
      repliesTo_copies hp established represents' listed lines copies
    have one' : Db.OneActive (repliesTo inputs session (lines.map Prod.snd) m.2).2.1 := by
      unfold Db.OneActive Tables.activeProfiles
      rw [tables.profiles]
      exact same ▸ one
    obtain ⟨answered', -⟩ := replyTo_getSnapshot hp established asks'
      represented one'
    rw [← same] at decodedProfiles decodedRows
    rw [answered'.same tables (not_not.2 quiet) decodedProfiles decodedRows]
    cases reply
    rfl

end Replies

section Example

open Reference

def savingMoves : List (Move String CoreInput) :=
  [.start 0 handshakeLine, .go 0 (calm 1), .start 0 saveLine, .go 0 (calm 2), .go 0 (calm 3)]

def savingLines : List (Move ScriptLine CoreInput) :=
  [.start 0 .handshake, .go 0 (calm 1), .start 0 .save, .go 0 (calm 2), .go 0 (calm 3)]

theorem saving_saves_once : (run connections coreHandler (listening (afterInitialize calm .empty).2)
    savingMoves).shared.assignments.length = 1 := by
  have scripted : savingMoves = savingLines.map (Move.mapJob ScriptLine.text) := rfl
  rw [scripted, run_decoded ScriptLine.decoded]
  decide +kernel

/-- One client saves an action under the first key, and another one asks for the snapshot. -/
theorem snapshot_replays_example :
    let db := (run connections coreHandler (listening (afterInitialize calm .empty).2)
      savingMoves).shared
    let m := replyTo calm ⟨CARGO_PKG_VERSION, .established⟩ snapshotLine (db, 0)
    db.assignments.length = 1 ∧ m.2.1 = db ∧
      (Quiet calm → ∃ layout profiles assignments,
        m.1 = .snapshot "3" layout profiles assignments) ∧
      ∀ layout profiles assignments, m.1 = .snapshot "3" layout profiles assignments →
        Replays calm ⟨CARGO_PKG_VERSION, .established⟩ m.2 layout profiles assignments :=
  ⟨saving_saves_once, snapshot_replays parseInverts
    (show (afterInitialize calm .empty).1 = .ok ⟨⟨uuid 0⟩, "Default", true⟩ by decide) savingMoves calm 0 rfl
    (by unfold AsksForSnapshot; decide +kernel)⟩

end Example

end KeyroCore
