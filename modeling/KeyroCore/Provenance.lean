import KeyroCore.Connections
import KeyroCore.Storage.ActiveProfile

/-!
# Where opened URLs come from

A URL is opened for a virtual input on an established session, after its action has been announced.
It is byte for byte the URL of an earlier accepted request to save an action under the same control
of the same profile: every stored row was saved by an earlier operation of the history.
-/

open Effect Program Fallible Clients Results

namespace KeyroCore

/-! ## Stored rows -/

section Rows

variable [UuidCrate] [UrlCrate]

/-- Every stored row encodes an action of a control, and the three satisfy `P`. -/
def Db.Stored (P : ProfileId → ControlId → Action → Prop) (db : Db) : Prop :=
  ∀ row ∈ db.assignments, ∃ (profileId : ProfileId) (control : ControlId) (n : ℕ) (action : Action),
    P profileId control action ∧ row = assignmentRow (identityParams profileId control) n
      (encodeAction action).1 (encodeAction action).2

variable {P P' : ProfileId → ControlId → Action → Prop} {db db' : Db}

theorem Db.Stored.mono (h : db.Stored P)
    (keep : ∀ profileId control action, P profileId control action →
      P' profileId control action) : db.Stored P' := by
  intro row hr
  obtain ⟨profileId, control, n, action, holds, eq⟩ := h row hr
  exact ⟨profileId, control, n, action, keep _ _ _ holds, eq⟩

theorem Db.Stored.of_assignments (h : db.Stored P) (same : db'.assignments = db.assignments) :
    db'.Stored P := by
  unfold Db.Stored
  rw [same]
  exact h

/-- A region stores only the actions that it was asked to save. -/
theorem Region.Does.stored {r : Region} {result : Except AppError r.Value}
    (does : Does r db result db') (h : db.Stored P)
    (saved : ∀ a, (⟨.lock r, result⟩ : Act CoreCalls) = ⟨.lock (.saveAssignment a), .ok ()⟩ →
      ∀ action ∈ a.actions, P a.profileId a.control action) : db'.Stored P := by
  cases does with
  | defaultInserted _ _ _ _ assignments => exact h.of_assignments assignments
  | profileInserted _ assignments => exact h.of_assignments assignments
  | nameUpdated _ _ assignments => exact h.of_assignments assignments
  | activated _ _ _ assignments => exact h.of_assignments assignments
  | @assignmentSaved _ _ a _ _ assignments =>
    intro row hr
    rw [assignments, List.mem_append] at hr
    rcases hr with hr | hr
    · exact h row (List.mem_filter.1 hr).1
    · obtain ⟨n, action, mem, eq⟩ := mem_actionRows hr
      exact ⟨a.profileId, a.control, n, action, saved a rfl action mem, eq⟩
  | assignmentCleared _ _ assignments =>
    intro row hr
    rw [assignments] at hr
    exact h row (List.mem_filter.1 hr).1
  | _ => exact h

/-- An assignment that is looked up has the actions stored under its control. -/
theorem Region.Does.found_stored (hp : UuidCrate.ParseInverts) {profileId : ProfileId}
    {control : ControlId} {assignment : Assignment}
    (does : Does (.findAssignment profileId control) db (.ok (some assignment)) db')
    (h : db.Stored P) {action : Action} (first : assignment.firstAction = some action) :
    P profileId control action := by
  generalize found : (some assignment : Option Assignment) = result at does
  cases does with
  | @assignmentLookedUp _ _ _ actions decoded =>
    split_ifs at found with empty
    obtain rfl := Option.some.inj found
    have mem : action ∈ actions := List.mem_of_mem_head? first
    obtain ⟨row, hr, read⟩ := exists_of_mem_mapM decoded mem
    obtain ⟨hr, matched⟩ := List.mem_filter.1 (Rows.mem_orderBy.1 hr)
    obtain ⟨profileId', control', n, action', holds, rfl⟩ := h row hr
    have own : (assignmentRow (identityParams profileId' control') n (encodeAction action').1
      (encodeAction action').2).Matches (identityParams profileId' control') :=
        ⟨rfl, rfl, rfl, rfl, rfl⟩
    obtain ⟨rfl, rfl⟩ := identityParams_inj hp (own.unique (of_decide_eq_true matched))
    rw [decodeActionRow_assignmentRow] at read
    obtain rfl := Except.ok.inj read
    exact holds

end Rows

section Runs

variable [SerdeJson] [UuidCrate] [UrlCrate]

/-- An operation of a connection. -/
abbrev LineEntry := Entry CoreCalls (Option ProtocolSession) String Db

/-- A connection and the operations of all connections, after which it stands. -/
abbrev Lines := Config CoreCalls (Option ProtocolSession) String (Except String Unit) Db

/-! ## The history of stored actions -/

/-- Before the `t`-th operation a region has saved the action under the control. -/
def SavedBefore (history : List LineEntry) (t : ℕ) (profileId : ProfileId) (control : ControlId)
    (action : Action) : Prop :=
  ∃ t' < t, ∃ e a, history[t']? = some e ∧ e.act = ⟨.lock (.saveAssignment a), .ok ()⟩ ∧
    a.profileId = profileId ∧ a.control = control ∧ action ∈ a.actions

variable [RusqliteCrate] {db : Db} {c : Lines}

/-- Whatever the store holds, an earlier operation has saved. -/
theorem stored_of_saved (traced : Traced connections coreHandler db c) (empty : db.assignments = [])
    {t : ℕ} (ht : t ≤ c.history.length) :
    (stateAt db c.history t).Stored (SavedBefore c.history t) := by
  induction t with
  | zero =>
    intro row hr
    rw [show (stateAt db c.history 0).assignments = [] from empty] at hr
    exact nomatch hr
  | succ t ih =>
    have he := List.getElem?_eq_getElem ht
    obtain ⟨input, linked⟩ := traced.linked t _ he
    have before : (stateAt db c.history t).Stored (SavedBefore c.history (t + 1)) :=
      (ih (Nat.le_of_lt ht)).mono fun _ _ _ ⟨t', lt, saved⟩ => ⟨t', Nat.lt_succ_of_lt lt, saved⟩
    rw [stateAt_succ he]
    generalize hact : c.history[t].act = act at linked
    obtain ⟨o, x⟩ := act
    cases o with
    | lock r =>
      rcases outcome_of_handled rfl linked with ⟨_, -, -, same⟩ | does
      · rw [same]
        exact before
      · refine does.stored before fun a same action mem => ?_
        exact ⟨t, Nat.lt_succ_self t, _, a, he, hact.trans same, rfl, rfl, mem⟩
    | _ =>
      have same : stateAt db c.history t = c.history[t].after := congrArg Prod.snd linked
      rw [← same]
      exact before

/-! ## Handshakes -/

/-- The client has been told that its handshake has completed. -/
def Accepted (history : List LineEntry) (client : ℕ) : Prop :=
  ∃ e ∈ history, e.client = client ∧ ∃ requestId version protocol,
    e.act = ⟨.write (.handshakeAccepted requestId version protocol), .ok ()⟩

/-- A connection whose session is established has completed its handshake. -/
def Handshaken (history : List LineEntry) (client : ℕ) (loc : Option ProtocolSession) : Prop :=
  ∀ session, loc = some session → session.state = .established → Accepted history client

omit [RusqliteCrate] in
/-- A line leaves an established session to a client that was told so. -/
theorem Handshaken.finish {history : List LineEntry} {i : ℕ} {loc loc' : Option ProtocolSession}
    {line : String} {past : Past CoreCalls} {written : Except String Unit}
    (h : Handshaken history i loc) (recorded : Clients.Recorded history i past)
    (path : (connections loc line).Path (past.map Prod.snd) (some (written, loc'))) :
    Handshaken history i loc' := by
  rintro session' rfl established
  rcases connections_path path with ⟨-, -, ⟨⟩⟩ | ⟨session, r', rfl, linePath, ended⟩
  rcases r' with _ | ⟨written', session''⟩
  · cases ended
  have ended' := Prod.mk.inj (Option.some.inj ended)
  rcases written' with text | ⟨⟩
  · cases ended'.2
  obtain rfl : session' = session'' := Option.some.inj ended'.2
  have next : session' = (session.receiveLine line).2 := by
    generalize past.map Prod.snd = acts at linePath
    cases linePath with
    | replied => rfl
  rcases session.receiveLine_cases line with
    ⟨state, -⟩ | ⟨-, requestId, -, received⟩ | ⟨state, -, _, _, received⟩
  · exact h session rfl state
  · rcases linePath.of_immediate received with ⟨-, -, ⟨⟩⟩ | ⟨written, acts, same⟩
    obtain rfl : Except.ok () = written := (Prod.mk.inj (Option.some.inj same)).1
    have mem : (⟨.write (.handshakeAccepted requestId session.coreVersion ProtocolVersion.current),
        .ok ()⟩ : Act CoreCalls) ∈ past.map Prod.snd := acts ▸ List.mem_singleton_self _
    obtain ⟨p, hp, hact⟩ := List.mem_map.1 mem
    obtain ⟨e, he, client, act⟩ := recorded.2 p hp
    exact ⟨e, List.mem_of_getElem? he, client, _, _, _, act.trans hact⟩
  · rw [next, received, state] at established
    cases established

theorem located_handshaken (db : Db) (moves : List (Move String CoreInput)) :
    Located Handshaken (run connections coreHandler (listening db) moves) := by
  refine located_run (fun i => ?_) (fun history e i loc h session open_ established => ?_)
    (fun history i loc job past r loc' h recorded follows => ?_) db moves
  · rintro session ⟨⟩ ⟨⟩
  · obtain ⟨e', mem, told⟩ := h session open_ established
    exact ⟨e', List.mem_append_left _ mem, told⟩
  · exact h.finish recorded follows.path

/-! ## The causes of an open -/

/-- Before the `t`-th operation a line has asked to save `url` under the control, and it was saved. -/
def SavedByLine (history : List LineEntry) (t : ℕ) (profileId : ProfileId) (control : ControlId)
    (url : SafeUrl) : Prop :=
  ∃ t' < t, ∃ e session requestId dto, history[t']? = some e ∧ e.loc = some session ∧
    session.state = .established ∧
    decodeClientEnvelope e.job = .ok ⟨requestId, .saveAssignment dto⟩ ∧
    ProfileId.parse dto.profileId = .ok profileId ∧ controlFromDto dto.control = .ok control ∧
    dto.action = .openUrl url.asStr ∧
    e.act = ⟨.lock (.saveAssignment ⟨profileId, control, [.openUrl url]⟩), .ok ()⟩

/-- Why a connection opened `url` by the `t`-th operation `e` of the history. -/
structure Provenance (history : List LineEntry) (t : ℕ) (e : LineEntry) (url : SafeUrl) : Prop where
  handshaken : Accepted (history.take t) e.client
  command : ∃ session requestId control, e.loc = some session ∧ session.state = .established ∧
    (session.receiveLine e.job).1 = .command requestId (.virtualControlInput control) ∧
    ∃ profileId runId,
      ⟨.write (eventFromCore (.actionRunning runId profileId control)), .ok ()⟩ ∈
        e.past.map Prod.snd ∧
      SavedByLine history t profileId control url
  safe : ∃ parsed, UrlCrate.parse url.asStr = some parsed ∧
    (UrlCrate.scheme parsed = "http" ∨ UrlCrate.scheme parsed = "https") ∧
    UrlCrate.username parsed = "" ∧ UrlCrate.password parsed = none

/-- Every open of a run has its causes, and no command opens two URLs. -/
structure OpensCaused (c : Lines) : Prop where
  caused : ∀ t e url x, c.history[t]? = some e → e.act = ⟨.openUrl url, x⟩ →
    Provenance c.history t e url
  once : ∀ i f, c.clients i = .busy f → ∀ p ∈ f.past, ∀ p' ∈ f.past,
    Opens p.2 → Opens p'.2 → p = p'

omit [RusqliteCrate] in
theorem LineOpens.not_opens {session : ProtocolSession} {line : String} {url : SafeUrl}
    {before : List (Act CoreCalls)} (opens : LineOpens session line url before) :
    ∀ a ∈ before, ¬ Opens a := by
  obtain ⟨uuid, command, one, active, first⟩ := opens
  rw [List.forall_mem_append]
  exact ⟨by simp [Opens], announced_not_opens uuid⟩

omit [RusqliteCrate] in
/-- The two operations are the same, as a line opens no URL after it has opened one. -/
theorem once_of_path {session : ProtocolSession} {line : String} {past : Past CoreCalls}
    {r : Option (Except String Unit × ProtocolSession)}
    (path : LinePath session line (past.map Prod.snd) r) {p p' : ℕ × Act CoreCalls} (hp : p ∈ past)
    (hp' : p' ∈ past) (opens : Opens p.2) (opens' : Opens p'.2) : p = p' := by
  have apart {q : ℕ × Act CoreCalls} {before after : Past CoreCalls}
      (split : past = before ++ q :: after) (hq : Opens q.2) : ∀ q' ∈ before, ¬ Opens q'.2 := by
    obtain ⟨n, o, x⟩ := q
    obtain ⟨url, rfl⟩ := hq
    rw [split, List.map_append, List.map_cons] at path
    intro q' hq'
    exact path.before_open.not_opens _ (List.mem_map_of_mem hq')
  obtain ⟨before, after, split⟩ := List.append_of_mem hp
  rw [split, List.mem_append, List.mem_cons] at hp'
  rcases hp' with mem | same | mem
  · exact absurd opens' (apart split opens _ mem)
  · exact same.symm
  · obtain ⟨between, after', rfl⟩ := List.append_of_mem mem
    rw [← List.cons_append, ← List.append_assoc] at split
    refine absurd opens (apart split opens' _ ?_)
    exact List.mem_append_right _ (List.mem_cons_self ..)

/-- What a region has saved, a line has asked for. -/
theorem SavedBefore.byLine (traced : Traced connections coreHandler db c) {t : ℕ}
    {profileId : ProfileId} {control : ControlId} {url : SafeUrl}
    (saved : SavedBefore c.history t profileId control (.openUrl url)) :
    SavedByLine c.history t profileId control url := by
  obtain ⟨t', lt, e, ⟨_, _, actions⟩, he, hact, rfl, rfl, mem⟩ := saved
  have only := traced.used uses_connections (List.mem_of_getElem? he)
  rw [hact] at only
  obtain ⟨session, open_, requestId, dispatched⟩ := only _ rfl
  obtain ⟨established, message, decoded, converted⟩ :=
    ProtocolSession.receiveLine_command_iff.1 dispatched
  obtain ⟨dto, rfl, read⟩ := assignmentFromDto_of_command converted
  obtain ⟨id, controlRead, action, actionRead, rfl⟩ := assignmentFromDto_ok_iff.1 read
  obtain rfl := List.mem_singleton.1 mem
  obtain ⟨url', same, text⟩ := actionFromDto_ok_iff.1 actionRead
  cases same
  exact ⟨t', lt, e, session, requestId, dto, he, open_, established, decoded, id, controlRead, text,
    hact⟩

/-- An assignment that a job has looked up was saved before. -/
theorem saved_of_lookup (hp : UuidCrate.ParseInverts)
    (traced : Traced connections coreHandler db c) (empty : db.assignments = []) {t : ℕ}
    {e : LineEntry} (he : c.history[t]? = some e) {profileId : ProfileId} {control : ControlId}
    {assignment : Assignment} {action : Action} (first : assignment.firstAction = some action)
    (looked : ⟨.lock (.findAssignment profileId control), .ok (some assignment)⟩ ∈
      e.past.map Prod.snd) : SavedBefore c.history t profileId control action := by
  obtain ⟨p, mem, hact⟩ := List.mem_map.1 looked
  have lt := (traced.entry_recorded t e he).lt mem
  rw [List.length_take] at lt
  obtain ⟨e', he', -, hact'⟩ := (traced.entry_recorded t e he).2 p mem
  rw [List.getElem?_take_of_lt (by omega)] at he'
  obtain ⟨input, linked⟩ := traced.linked p.1 e' he'
  have stored := stored_of_saved traced empty (t := p.1) (by omega)
  rcases outcome_of_handled (hact'.trans hact) linked with ⟨_, -, ⟨⟩, -⟩ | does
  obtain ⟨t', before, saved⟩ := does.found_stored hp stored first
  exact ⟨t', by omega, saved⟩

/-- In every run from a store without assignments, whatever the connections send and however their
calls interleave, a URL is opened only for a virtual input of a connection that has completed its
handshake, after the action was announced, and it is the URL that an accepted line asked to save
under the same control of the same profile. -/
theorem opens_caused (hp : UuidCrate.ParseInverts) {db : Db} (empty : db.assignments = [])
    (moves : List (Move String CoreInput)) :
    OpensCaused (run connections coreHandler (listening db) moves) := by
  have traced : Traced connections coreHandler db
      (run connections coreHandler (listening db) moves) := traced_run _ _ _
  have located := located_handshaken db moves
  generalize run connections coreHandler (listening db) moves = c at traced located
  refine ⟨fun t e url x he hact => ?_, fun i f hf p hp p' hp' opens opens' => ?_⟩
  · have mem := List.mem_of_getElem? he
    obtain ⟨session, r, open_, path⟩ := linePath_of_entry traced mem
    rw [hact] at path
    have opens := path.before_open
    generalize performed : e.past.map Prod.snd = before at opens
    obtain @⟨requestId, control, profiles, profile, assignment, uuid, dispatched, -, -, first⟩ := opens
    have looked : ⟨.lock (.findAssignment profile.id control), .ok (some assignment)⟩ ∈
        e.past.map Prod.snd := by simp [performed]
    have running : ⟨.write (eventFromCore (.actionRunning ⟨uuid⟩ profile.id control)), .ok ()⟩ ∈
        e.past.map Prod.snd := by simp [performed, announced]
    have established := (ProtocolSession.receiveLine_command_iff.1 dispatched).1
    have saved := (saved_of_lookup hp traced empty he first looked).byLine traced
    exact ⟨located.entry t e he session open_ established, ⟨session, requestId, control, open_,
      established, dispatched, profile.id, ⟨uuid⟩, running, saved⟩, url.accepted_parts⟩
  · have follows := traced.frame_follows i f hf
    rcases connections_path follows.path with ⟨nothing, -⟩ | ⟨session, r', -, path, -⟩
    · rw [List.map_eq_nil_iff.1 nothing] at hp
      cases hp
    · exact once_of_path path hp hp' opens opens'

end Runs

section Example

open Reference

def pressingMoves : List (Move String CoreInput) :=
  [.start 0 handshakeLine, .go 0 (calm 1), .start 0 saveLine, .go 0 (calm 2), .go 0 (calm 3),
    .start 0 firstKeyLine] ++ List.replicate 9 (.go 0 (calm 4))

def pressingScript : List (Move ScriptLine CoreInput) :=
  [.start 0 .handshake, .go 0 (calm 1), .start 0 .save, .go 0 (calm 2), .go 0 (calm 3),
    .start 0 .firstKey] ++ List.replicate 9 (.go 0 (calm 4))

theorem pressing_opens_once :
    ((run connections coreHandler (listening (afterInitialize calm .empty).2)
      pressingMoves).history.filter fun e => e.act.op = .openUrl exampleUrl).length = 1 := by
  have scripted : pressingMoves = pressingScript.map (Move.mapJob ScriptLine.text) := rfl
  rw [scripted, run_decoded ScriptLine.decoded]
  decide +kernel

/-- A client saves an action under the first key and presses it. -/
theorem opens_caused_example :
    let c := run connections coreHandler (listening (afterInitialize calm .empty).2) pressingMoves
    (c.history.filter fun e => e.act.op = .openUrl exampleUrl).length = 1 ∧ OpensCaused c :=
  ⟨pressing_opens_once, opens_caused parseInverts (by decide +kernel) pressingMoves⟩

end Example

end KeyroCore
