import KeyroCore.Framing
import KeyroCore.Platform
import KeyroCore.Storage.Redaction

/-!
# Secrets of URLs

Two connections that receive the same lines except for the query and the fragment of URLs to save.
Their stores differ in secrets only, so they go on in lockstep: they log the same records and send
the same action events.
-/

open Effect Program Fallible

namespace KeyroCore

section Urls

variable [UrlCrate]

/-- A URL without query and fragment prints the same whatever they were. -/
def UrlCrate.RedactionForgets : Prop := ∀ (url : UrlCrate.Url) (query fragment : Option String),
  UrlCrate.toString (UrlCrate.setFragment (UrlCrate.setQuery
    (UrlCrate.setFragment (UrlCrate.setQuery url query) fragment) none) none) =
  UrlCrate.toString (UrlCrate.setFragment (UrlCrate.setQuery url none) none)

/-- The URLs differ only in query and fragment. -/
def SafeUrl.DifferInSecrets (u v : SafeUrl) : Prop := ∃ url query fragment query' fragment',
  UrlCrate.parse u.asStr = some (UrlCrate.setFragment (UrlCrate.setQuery url query) fragment) ∧
    UrlCrate.parse v.asStr = some (UrlCrate.setFragment (UrlCrate.setQuery url query') fragment')

theorem SafeUrl.DifferInSecrets.alike (forgets : UrlCrate.RedactionForgets) {u v : SafeUrl}
    (h : u.DifferInSecrets v) : u.Alike v := by
  obtain ⟨url, query, fragment, query', fragment', parsed, parsed'⟩ := h
  have parsed : UrlCrate.parse u.value = _ := parsed
  have parsed' : UrlCrate.parse v.value = _ := parsed'
  unfold SafeUrl.Alike SafeUrl.redactedForLog
  rw [parsed, parsed']
  exact (forgets url query fragment).trans (forgets url query' fragment').symm

/-- What the environment decides at one operation, when URLs are opened by the system. -/
structure LaunchInput where
  sql : ℕ → SqlChoice
  uuid : Uuid
  outcome : LaunchOutcome
  written : Except String Unit

def LaunchInput.core (os : TargetOs) (input : LaunchInput) : CoreInput where
  sql := input.sql
  uuid := input.uuid
  opened := systemUrlOpener os input.outcome
  written := input.written

/-- The opener of the system reports nothing of a URL but what a log may show. -/
theorem systemUrlOpener_alike {u v : SafeUrl} (alike : u.Alike v) (os : TargetOs)
    (outcome : LaunchOutcome) : systemUrlOpener os outcome u = systemUrlOpener os outcome v := by
  unfold systemUrlOpener openUrlWithSystem
  rw [show u.redactedForLog = v.redactedForLog from alike]

/-- The record that an operation logs. -/
def logged? : Act CoreCalls → Option LogRecord
  | ⟨.log record, _⟩ => some record
  | _ => none

/-- The event that an operation sends. -/
def sentEvent? (a : Act CoreCalls) : Option ServerMessage :=
  (written? a).filter fun message => !message.Terminal

def logged (acts : List (Act CoreCalls)) : List LogRecord := acts.filterMap logged?

def sentEvents (acts : List (Act CoreCalls)) : List ServerMessage := acts.filterMap sentEvent?

/-- Operations that show the same. -/
structure ShowAlike (a a' : Act CoreCalls) : Prop where
  logged : logged? a = logged? a'
  sent : sentEvent? a = sentEvent? a'

theorem shown_eq {acts acts' : List (Act CoreCalls)} (h : List.Forall₂ ShowAlike acts acts') :
    logged acts = logged acts' ∧ sentEvents acts = sentEvents acts' := by
  induction h with
  | nil => exact ⟨rfl, rfl⟩
  | @cons a a' acts acts' head tail ih =>
    unfold logged sentEvents at ih ⊢
    rw [List.filterMap_cons, List.filterMap_cons, List.filterMap_cons, List.filterMap_cons,
      head.logged, head.sent, ih.1, ih.2]
    exact ⟨rfl, rfl⟩

end Urls

section Runs

variable [UuidCrate] [UrlCrate] [RusqliteCrate] {os : TargetOs} {inputs : ℕ → LaunchInput}
  {α β : Type} {R : α → β → Prop}

/-- Stores that differ in secrets, after equally many operations. -/
def StateAlike (s s' : Db × ℕ) : Prop := s.1.Alike s'.1 ∧ s.2 = s'.2

/-- Core over the opener of the system. -/
abbrev launched (os : TargetOs) (inputs : ℕ → LaunchInput) : Handler CoreCalls (Db × ℕ) :=
  timed coreHandler fun k => (inputs k).core os

/-- Two computations show the same on stores that differ in secrets. -/
abbrev Shows (os : TargetOs) (inputs : ℕ → LaunchInput) (R : α → β → Prop)
    (p : Fallible CoreCalls AppError α) (p' : Fallible CoreCalls AppError β) : Prop :=
  Fallible.Lockstep (launched os inputs) (launched os inputs) StateAlike ShowAlike R p p'

/-! ## Operations -/

theorem shows_lock (r : Region) : Shows os inputs r.ValueAlike (lock r) (lock r) := by
  refine Program.lockstep_call fun s s' alike => ⟨⟨rfl, rfl⟩, ?_⟩
  obtain ⟨stores, time⟩ := alike
  have done := exec_alike stores (inputs s.2).sql r
  show SameOutcome _ (r.exec (inputs s.2).sql s.1).1 (r.exec (inputs s'.2).sql s'.1).1 ∧
    Db.Alike _ (r.exec (inputs s'.2).sql s'.1).2 ∧ _
  rw [← time]
  exact ⟨done.1, done.2, congrArg (· + 1) time⟩

theorem shows_save {a b : Assignment} (alike : a.Alike b) :
    Shows os inputs (fun _ _ => True) (lock (.saveAssignment a)) (lock (.saveAssignment b)) := by
  refine Program.lockstep_call fun s s' states => ⟨⟨rfl, rfl⟩, ?_⟩
  obtain ⟨stores, time⟩ := states
  have done := exec_save_alike stores (inputs s.2).sql alike
  show SameOutcome _ (Region.exec (inputs s.2).sql (.saveAssignment a) s.1).1
      (Region.exec (inputs s'.2).sql (.saveAssignment b) s'.1).1 ∧
    Db.Alike _ (Region.exec (inputs s'.2).sql (.saveAssignment b) s'.1).2 ∧ _
  rw [← time]
  exact ⟨done.1, done.2, congrArg (· + 1) time⟩

theorem shows_newUuid : Program.Lockstep (launched os inputs) (launched os inputs) StateAlike
    ShowAlike Eq newUuid newUuid :=
  Program.lockstep_call fun s s' alike => ⟨⟨rfl, rfl⟩, by
    show ((inputs s.2).core os).uuid = ((inputs s'.2).core os).uuid
    rw [alike.2], alike.1, congrArg (· + 1) alike.2⟩

theorem shows_openUrl {u v : SafeUrl} (alike : u.Alike v) : Program.Lockstep (launched os inputs)
    (launched os inputs) StateAlike ShowAlike Eq (call (S := CoreCalls) (.openUrl u))
      (call (S := CoreCalls) (.openUrl v)) :=
  Program.lockstep_call fun s s' states => ⟨⟨rfl, rfl⟩, by
    show systemUrlOpener os (inputs s.2).outcome u = systemUrlOpener os (inputs s'.2).outcome v
    rw [states.2, systemUrlOpener_alike alike], states.1, congrArg (· + 1) states.2⟩

theorem shows_log (record : LogRecord) : Program.Lockstep (launched os inputs)
    (launched os inputs) StateAlike ShowAlike (fun _ _ => True)
      (call (S := CoreCalls) (.log record)) (call (S := CoreCalls) (.log record)) :=
  Program.lockstep_call fun _ _ states =>
    ⟨⟨rfl, rfl⟩, trivial, states.1, congrArg (· + 1) states.2⟩

/-- Replies may differ, events are the same. -/
theorem shows_write {message message' : ServerMessage}
    (alike : message = message' ∨ message.Terminal = true ∧ message'.Terminal = true) :
    Program.Lockstep (launched os inputs) (launched os inputs) StateAlike ShowAlike Eq
      (call (S := CoreCalls) (.write message)) (call (S := CoreCalls) (.write message')) := by
  refine Program.lockstep_call fun s s' states => ?_
  have same : ((inputs s.2).core os).written = ((inputs s'.2).core os).written := by rw [states.2]
  refine ⟨⟨rfl, ?_⟩, same, states.1, congrArg (· + 1) states.2⟩
  show sentEvent? ⟨.write message, ((inputs s.2).core os).written⟩ =
    sentEvent? ⟨.write message', ((inputs s'.2).core os).written⟩
  rw [same]
  rcases alike with rfl | ⟨terminal, terminal'⟩
  · rfl
  · cases ((inputs s'.2).core os).written with
    | error text => rfl
    | ok _ => simp [sentEvent?, written?, Option.filter, terminal, terminal']

theorem shows_domain (result : Except DomainError α) :
    Shows os inputs Eq (domain result) (domain result) := by
  cases result with
  | ok a => exact Fallible.lockstep_pure rfl
  | error error => exact Fallible.lockstep_throw _

/-! ## The service -/

theorem shows_emit (event : CoreEvent) : Shows os inputs (fun _ _ => True)
    (ipcEventSink.emit event) (ipcEventSink.emit event) := by
  refine (Fallible.lockstep_lift (shows_log _)).bind fun _ _ _ => ?_
  refine (Fallible.lockstep_lift (shows_write (.inl rfl))).bind fun written written' same => ?_
  subst same
  cases written with
  | ok _ => exact Fallible.lockstep_pure trivial
  | error text => exact Fallible.lockstep_throw _

theorem shows_activeProfile :
    Shows os inputs Eq coreService.activeProfile coreService.activeProfile := by
  refine (shows_lock .listProfiles).bind fun profiles profiles' same => ?_
  obtain rfl : profiles = profiles' := same
  refine (shows_domain _).bind fun _ _ _ => ?_
  split
  · exact Fallible.lockstep_pure rfl
  · exact Fallible.lockstep_throw _

theorem shows_runAction (profile : Profile) (control : ControlId) {action action' : Action}
    (alike : action.Alike action') : Shows os inputs (fun _ _ => True)
      (coreService.runAction profile control action)
      (coreService.runAction profile control action') := by
  obtain ⟨url⟩ := action
  obtain ⟨url'⟩ := action'
  have urls : url.Alike url' := alike
  refine (Fallible.lockstep_lift shows_newUuid).bind fun uuid uuid' same => ?_
  subst same
  refine (shows_emit _).bind fun _ _ _ => ?_
  refine (Fallible.lockstep_lift (shows_openUrl (u := url) (v := url') urls)).bind fun opened opened' same => ?_
  subst same
  cases opened with
  | ok _ => exact shows_emit _
  | error error => exact (shows_emit _).bind fun _ _ _ => Fallible.lockstep_throw _

theorem shows_routeVirtualControl (control : ControlId) : Shows os inputs (fun _ _ => True)
    (coreService.routeVirtualControl control) (coreService.routeVirtualControl control) := by
  refine shows_activeProfile.bind fun profile profile' same => ?_
  subst same
  refine (shows_lock (.findAssignment profile.id control)).bind fun found found' alike => ?_
  cases alike with
  | none => exact Fallible.lockstep_throw _
  | @some a b alike =>
    obtain ⟨-, -, actions⟩ := alike
    unfold Assignment.firstAction
    dsimp only
    generalize a.actions = as, b.actions = bs at actions
    cases actions with
    | nil => exact Fallible.lockstep_throw _
    | cons head tail => exact shows_runAction profile control head

/-- Commands that ask for the same up to secrets. -/
inductive CoreCommand.Alike : CoreCommand → CoreCommand → Prop
  | refl (command : CoreCommand) : Alike command command
  | save {a b : Assignment} (alike : a.Alike b) : Alike (.saveAssignment a) (.saveAssignment b)

theorem shows_saveAssignment {a b : Assignment} (alike : a.Alike b) :
    Shows os inputs (fun _ _ => True) (coreService.handleCommand (.saveAssignment a))
      (coreService.handleCommand (.saveAssignment b)) :=
  (shows_save alike).bind fun _ _ _ => Fallible.lockstep_pure trivial

/-- A command fails with the same error on both sides, or succeeds on both. -/
theorem shows_handleCommand {command command' : CoreCommand} (alike : command.Alike command') :
    Shows os inputs (fun _ _ => True) (coreService.handleCommand command)
      (coreService.handleCommand command') := by
  cases alike with
  | save alike => exact shows_saveAssignment alike
  | refl =>
    cases command with
    | getSnapshot =>
      refine (shows_lock .loadSnapshotState).bind fun state state' same => ?_
      have same : state.profiles = state'.profiles := same
      rw [same]
      exact (shows_domain _).bind fun _ _ _ => Fallible.lockstep_pure trivial
    | listProfiles =>
      refine (shows_lock .listProfiles).bind fun profiles profiles' same => ?_
      obtain rfl : profiles = profiles' := same
      exact (shows_domain _).bind fun _ _ _ => Fallible.lockstep_pure trivial
    | createProfile name =>
      refine Fallible.Lockstep.bind (R := Eq) ?_ fun _ _ _ => Fallible.lockstep_pure trivial
      refine (Fallible.lockstep_lift shows_newUuid).bind fun uuid uuid' same => ?_
      subst same
      refine (shows_domain _).bind fun profile profile' same => ?_
      subst same
      exact (shows_lock _).bind fun _ _ _ => Fallible.lockstep_pure rfl
    | renameProfile profileId name =>
      refine Fallible.Lockstep.bind (R := Eq) ?_ fun _ _ _ => Fallible.lockstep_pure trivial
      refine (shows_lock .listProfiles).bind fun profiles profiles' same => ?_
      obtain rfl : profiles = profiles' := same
      split
      · exact Fallible.lockstep_throw _
      · refine (shows_domain _).bind fun profile profile' same => ?_
        subst same
        exact (shows_lock _).bind fun _ _ _ => Fallible.lockstep_pure rfl
    | setActiveProfile profileId =>
      exact (shows_lock (.setActiveProfile profileId)).bind fun _ _ _ =>
        Fallible.lockstep_pure trivial
    | saveAssignment assignment => exact shows_saveAssignment (.refl assignment)
    | clearAssignment profileId control =>
      exact (shows_lock (.clearAssignment profileId control)).bind fun _ _ _ =>
        Fallible.lockstep_pure trivial
    | virtualControlInput control =>
      exact (shows_routeVirtualControl control).bind fun _ _ _ => Fallible.lockstep_pure trivial

end Runs

/-! ## Connections -/

section Connections

variable [SerdeJson] [UuidCrate] [UrlCrate] [RusqliteCrate] {os : TargetOs}
  {inputs : ℕ → LaunchInput}

/-- The same line, or two requests to save an assignment whose URLs differ in secrets. -/
inductive LineAlike : String → String → Prop
  | same (line : String) : LineAlike line line
  | save {line line' requestId profileId : String} {control : ControlDto} {u v : SafeUrl}
      (differ : u.DifferInSecrets v)
      (decoded : decodeClientEnvelope line = .ok ⟨requestId,
        .saveAssignment { profileId, control, action := .openUrl u.asStr }⟩)
      (decoded' : decodeClientEnvelope line' = .ok ⟨requestId,
        .saveAssignment { profileId, control, action := .openUrl v.asStr }⟩) :
      LineAlike line line'

/-- Dispatches of two lines that are alike. -/
inductive ProtocolDispatch.Alike : ProtocolDispatch → ProtocolDispatch → Prop
  | refl (dispatch : ProtocolDispatch) : Alike dispatch dispatch
  | command (requestId : String) {command command' : CoreCommand}
      (alike : command.Alike command') :
      Alike (.command requestId command) (.command requestId command')

omit [SerdeJson] [RusqliteCrate] in
/-- The same is wrong with both requests, or both ask for the same up to secrets. -/
theorem commandFromMessage_alike {u v : SafeUrl} (alike : u.Alike v) (profileId : String)
    (control : ControlDto) : SameOutcome CoreCommand.Alike
      (commandFromMessage (.saveAssignment { profileId, control, action := .openUrl u.asStr }))
      (commandFromMessage (.saveAssignment { profileId, control, action := .openUrl v.asStr })) := by
  have read (url : SafeUrl) : actionFromDto (.openUrl url.asStr) = .ok (.openUrl url) :=
    actionFromDto_actionToDto (.openUrl url)
  have assignments : SameOutcome Assignment.Alike
      (assignmentFromDto { profileId, control, action := .openUrl u.asStr })
      (assignmentFromDto { profileId, control, action := .openUrl v.asStr }) := by
    unfold assignmentFromDto
    refine .bind_same fun id => .bind_same fun control => ?_
    dsimp only
    rw [read, read]
    exact .ok ⟨rfl, rfl, .cons alike .nil⟩
  exact assignments.bind fun a b alike => .ok (.save alike)

omit [RusqliteCrate] in
theorem receiveLine_alike (forgets : UrlCrate.RedactionForgets) {line line' : String}
    (alike : LineAlike line line') (session : ProtocolSession) :
    (session.receiveLine line).1.Alike (session.receiveLine line').1 ∧
      (session.receiveLine line).2 = (session.receiveLine line').2 := by
  cases alike with
  | same => exact ⟨.refl _, rfl⟩
  | @save _ requestId profileId control u v differ decoded decoded' =>
    have read := commandFromMessage_alike (differ.alike forgets) profileId control
    unfold ProtocolSession.receiveLine
    rw [decoded, decoded']
    obtain ⟨coreVersion, state⟩ := session
    cases state with
    | awaitingHandshake => exact ⟨.refl _, rfl⟩
    | established =>
      unfold ProtocolSession.dispatchEnvelope
      dsimp only
      generalize commandFromMessage (.saveAssignment ⟨profileId, control, .openUrl u.asStr⟩) = x,
        commandFromMessage (.saveAssignment ⟨profileId, control, .openUrl v.asStr⟩) = y at read
      cases read with
      | ok alike => exact ⟨.command requestId alike, rfl⟩
      | error error => exact ⟨.refl _, rfl⟩

omit [SerdeJson] in
/-- The replies to two dispatches are terminal; they may differ. -/
theorem shows_dispatchReply {dispatch dispatch' : ProtocolDispatch}
    (alike : dispatch.Alike dispatch') :
    Program.Lockstep (launched os inputs) (launched os inputs) StateAlike ShowAlike
      (fun reply reply' => reply = reply' ∨ reply.Terminal = true ∧ reply'.Terminal = true)
      (dispatchReply dispatch) (dispatchReply dispatch') := by
  have commands (requestId : String) {command command' : CoreCommand}
      (alike : command.Alike command') : Program.Lockstep (launched os inputs) (launched os inputs)
        StateAlike ShowAlike
        (fun reply reply' => reply = reply' ∨ reply.Terminal = true ∧ reply'.Terminal = true)
        (dispatchReply (.command requestId command))
        (dispatchReply (.command requestId command')) := by
    refine Program.Lockstep.bind (shows_handleCommand alike) fun result result' same => ?_
    cases same with
    | @ok response response' =>
      exact Program.lockstep_pure (.inr
        ⟨Option.isSome_of_eq_some (requestId?_responseFromCore requestId response),
          Option.isSome_of_eq_some (requestId?_responseFromCore requestId response')⟩)
    | error error =>
      exact Program.Lockstep.bind (shows_log _) fun _ _ _ => Program.lockstep_pure (.inl rfl)
  cases alike with
  | command requestId alike => exact commands requestId alike
  | refl =>
    cases dispatch with
    | immediate message => exact Program.lockstep_pure (.inl rfl)
    | command requestId command => exact commands requestId (.refl command)

theorem shows_handleDevLine (forgets : UrlCrate.RedactionForgets) {line line' : String}
    (alike : LineAlike line line') (session : ProtocolSession) :
    Program.Lockstep (launched os inputs) (launched os inputs) StateAlike ShowAlike Eq
      (handleDevLine session line) (handleDevLine session line') := by
  obtain ⟨dispatch, sessions⟩ := receiveLine_alike forgets alike session
  unfold handleDevLine
  rw [sessions]
  refine Program.Lockstep.bind (shows_dispatchReply dispatch) fun reply reply' replies => ?_
  refine Program.Lockstep.bind (shows_write replies) fun written written' same => ?_
  exact Program.lockstep_pure (congrArg (·, _) same)

theorem shows_connection (forgets : UrlCrate.RedactionForgets) {lines lines' : List String}
    (alike : List.Forall₂ LineAlike lines lines') (session : ProtocolSession) :
    Program.Lockstep (launched os inputs) (launched os inputs) StateAlike ShowAlike Eq
      (handleDevConnectionInner session lines) (handleDevConnectionInner session lines') := by
  induction alike generalizing session with
  | nil => exact Program.lockstep_pure rfl
  | cons head tail ih =>
    refine Program.Lockstep.bind (shows_handleDevLine forgets head session)
      fun answered answered' same => ?_
    subst same
    obtain ⟨written, session'⟩ := answered
    cases written with
    | ok _ => exact ih session'
    | error text => exact Program.lockstep_pure rfl

/-- What a connection of its own performs on the store, with the opener of the system. -/
def launchedActs (os : TargetOs) (inputs : ℕ → LaunchInput) (db : Db) (lines : List String) :
    List (Act CoreCalls) :=
  (handleDevConnectionInner (.new CARGO_PKG_VERSION) lines).acts (launched os inputs) (db, 0)

/-- The logs and the action events of a connection do not depend on the query and the fragment of
the URLs that it was asked to save. -/
theorem secrets_stay_hidden (forgets : UrlCrate.RedactionForgets) (os : TargetOs)
    (inputs : ℕ → LaunchInput) (db : Db) {lines lines' : List String}
    (alike : List.Forall₂ LineAlike lines lines') :
    logged (launchedActs os inputs db lines) = logged (launchedActs os inputs db lines') ∧
      sentEvents (launchedActs os inputs db lines) = sentEvents (launchedActs os inputs db lines') :=
  shown_eq (shows_connection forgets alike (.new CARGO_PKG_VERSION) (db, 0) (db, 0)
    ⟨.refl db, rfl⟩).1

end Connections

section Examples

open Reference

theorem redactionForgets : UrlCrate.RedactionForgets := fun _ _ _ => rfl

def tokenUrl : SafeUrl := ⟨"https://example.com/a?token=1#top", by decide +kernel⟩

def otherTokenUrl : SafeUrl := ⟨"https://example.com/a?token=2", by decide +kernel⟩

/-- A request to save a URL under the first key. -/
def saveUrlLine (url : SafeUrl) : String := clientLine "2" "save_assignment" [("assignment", .object [
  ("profile_id", .string (displayUuid (uuid 0))), ("control", firstKeyJson),
  ("action", .object [("kind", .string "open_url"), ("url", .string url.value)])])]

/-- The opener of the system exits with code 1. -/
def failingLaunch (n : ℕ) : LaunchInput where
  sql := (calm n).sql
  uuid := uuid n
  outcome := .exited (some 1)
  written := .ok ()

theorem secrets_stay_hidden_example :
    let db := (afterInitialize calm .empty).2
    let acts (url : SafeUrl) := launchedActs .windows failingLaunch db
      [handshakeLine, saveUrlLine url, firstKeyLine]
    logged (acts tokenUrl) = logged (acts otherTokenUrl) ∧
      sentEvents (acts tokenUrl) = sentEvents (acts otherTokenUrl) ∧
      (sentEvents (acts tokenUrl)).getLast? = some (.actionEvent (.failed (displayUuid (uuid 5))
        .openUrlFailed "URL opener exited with code Some(1) for https://example.com/a")) := by
  dsimp only
  have parsed : parseUrl tokenUrl.value =
      some ⟨"https", "", none, "example.com/a", some "token=1", some "top"⟩ := by decide +kernel
  have parsed' : parseUrl otherTokenUrl.value =
      some ⟨"https", "", none, "example.com/a", some "token=2", none⟩ := by decide +kernel
  have differ : tokenUrl.DifferInSecrets otherTokenUrl :=
    ⟨⟨"https", "", none, "example.com/a", none, none⟩, _, _, _, _, parsed, parsed'⟩
  have decoded : decodeClientEnvelope (saveUrlLine tokenUrl) = .ok ⟨"2", .saveAssignment
      ⟨displayUuid (uuid 0), .key 0 0, .openUrl tokenUrl.asStr⟩⟩ :=
    decode_rendered (by decide +kernel) (by decide +kernel) (by decide)
  have decoded' : decodeClientEnvelope (saveUrlLine otherTokenUrl) = .ok ⟨"2", .saveAssignment
      ⟨displayUuid (uuid 0), .key 0 0, .openUrl otherTokenUrl.asStr⟩⟩ :=
    decode_rendered (by decide +kernel) (by decide +kernel) (by decide)
  have hidden := secrets_stay_hidden redactionForgets .windows failingLaunch
    (afterInitialize calm .empty).2 (.cons (.same handshakeLine) (.cons
      (.save differ decoded decoded') (.cons (.same firstKeyLine) .nil)))
  refine ⟨hidden.1, hidden.2, ?_⟩
  unfold launchedActs
  rw [handleDevConnectionInner_decoded (.cons decoded_handshakeLine
    (.cons decoded (.cons decoded_firstKeyLine .nil)))]
  decide +kernel

end Examples

end KeyroCore
