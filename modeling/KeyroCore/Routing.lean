import KeyroCore.Effect.Paths
import KeyroCore.System

/-!
# Routing a control

The operations of `route_virtual_control`, as far as a run of it has come, and what it ends with:
two reads of the store and, when they find an action, its events with the opening of the URL
between them.
-/

open Effect Program Fallible

namespace KeyroCore

variable [UuidCrate] [UrlCrate]

/-- The operations of `IpcEventSink::emit`. -/
inductive EmitPath (event : CoreEvent) :
    List (Act CoreCalls) → Option (Except AppError Unit) → Prop
  | start : EmitPath event [] none
  | logged : EmitPath event [⟨.log (.coreEvent event), ()⟩] none
  | written : EmitPath event
      [⟨.log (.coreEvent event), ()⟩, ⟨.write (eventFromCore event), .ok ()⟩] (some (.ok ()))
  | failed (text : String) : EmitPath event
      [⟨.log (.coreEvent event), ()⟩, ⟨.write (eventFromCore event), .error text⟩]
      (some (.error (.eventSink ("failed to write action event to IPC client: " ++ text))))

/-- The event that reports what the opener answered. -/
def reportEvent (runId : ActionRunId) : Except OpenUrlError Unit → CoreEvent
  | .ok () => .actionSucceeded runId
  | .error error => .actionFailed runId .openUrlFailed error.message

/-- The operations that announce an action of the run `uuid`, up to the written event. -/
def announced (uuid : Uuid) (profileId : ProfileId) (control : ControlId) : List (Act CoreCalls) :=
  [⟨.newUuid, uuid⟩, ⟨.log (.coreEvent (.actionRunning ⟨uuid⟩ profileId control)), ()⟩,
    ⟨.write (eventFromCore (.actionRunning ⟨uuid⟩ profileId control)), .ok ()⟩]

/-- The operations that run one action. -/
inductive ActionPath (profileId : ProfileId) (control : ControlId) (url : SafeUrl) :
    List (Act CoreCalls) → Option (Except AppError Unit) → Prop
  | start : ActionPath profileId control url [] none
  | announcing {uuid : Uuid} {acts : List (Act CoreCalls)} {r : Option (Except AppError Unit)}
      (emit : EmitPath (.actionRunning ⟨uuid⟩ profileId control) acts r)
      (unwritten : r ≠ some (.ok ())) :
      ActionPath profileId control url (⟨.newUuid, uuid⟩ :: acts) r
  | opening (uuid : Uuid) : ActionPath profileId control url (announced uuid profileId control) none
  | reporting (uuid : Uuid) (opened : Except OpenUrlError Unit) {acts : List (Act CoreCalls)}
      {r : Option (Except AppError Unit)} (emit : EmitPath (reportEvent ⟨uuid⟩ opened) acts r) :
      ActionPath profileId control url
        (announced uuid profileId control ++ ⟨.openUrl url, opened⟩ :: acts)
        (r.map fun written => written.bind fun _ => opened.mapError .openUrl)

/-- The operations of `route_virtual_control`. -/
inductive RoutePath (control : ControlId) :
    List (Act CoreCalls) → Option (Except AppError Unit) → Prop
  | start : RoutePath control [] none
  | unlisted (error : AppError) :
      RoutePath control [⟨.lock .listProfiles, .error error⟩] (some (.error error))
  | ambiguous {profiles : List Profile} {error : DomainError}
      (not_one : ensureExactlyOneActive profiles = .error error) :
      RoutePath control [⟨.lock .listProfiles, .ok profiles⟩] (some (.error (.domain error)))
  | listed (profiles : List Profile) (one : ensureExactlyOneActive profiles = .ok ()) :
      RoutePath control [⟨.lock .listProfiles, .ok profiles⟩] none
  | unread {profiles : List Profile} {profile : Profile}
      (one : ensureExactlyOneActive profiles = .ok ())
      (active : (profiles.find? fun profile => profile.isActive) = some profile)
      (error : AppError) :
      RoutePath control [⟨.lock .listProfiles, .ok profiles⟩,
        ⟨.lock (.findAssignment profile.id control), .error error⟩] (some (.error error))
  | notFound {profiles : List Profile} {profile : Profile}
      (one : ensureExactlyOneActive profiles = .ok ())
      (active : (profiles.find? fun profile => profile.isActive) = some profile) :
      RoutePath control [⟨.lock .listProfiles, .ok profiles⟩,
        ⟨.lock (.findAssignment profile.id control), .ok none⟩]
        (some (.error .assignmentNotFound))
  | noAction {profiles : List Profile} {profile : Profile} {assignment : Assignment}
      (one : ensureExactlyOneActive profiles = .ok ())
      (active : (profiles.find? fun profile => profile.isActive) = some profile)
      (empty : assignment.firstAction = none) :
      RoutePath control [⟨.lock .listProfiles, .ok profiles⟩,
        ⟨.lock (.findAssignment profile.id control), .ok (some assignment)⟩]
        (some (.error .assignmentHasNoAction))
  | found {profiles : List Profile} {profile : Profile} {assignment : Assignment} {url : SafeUrl}
      {acts : List (Act CoreCalls)} {r : Option (Except AppError Unit)}
      (one : ensureExactlyOneActive profiles = .ok ())
      (active : (profiles.find? fun profile => profile.isActive) = some profile)
      (first : assignment.firstAction = some (.openUrl url))
      (path : ActionPath profile.id control url acts r) :
      RoutePath control (⟨.lock .listProfiles, .ok profiles⟩ ::
        ⟨.lock (.findAssignment profile.id control), .ok (some assignment)⟩ :: acts) r

omit [UuidCrate] in
theorem path_lock {r : Region} {acts : List (Act CoreCalls)}
    {x : Option (Except AppError r.Value)} (h : (lock r).run.Path acts x) :
    acts = [] ∧ x = none ∨ ∃ y, acts = [⟨.lock r, y⟩] ∧ x = some y := path_call_iff.1 h

omit [UuidCrate] in
theorem path_domain {α : Type} {result : Except DomainError α} {acts : List (Act CoreCalls)}
    {x : Option (Except AppError α)}
    (h : (domain result : Fallible CoreCalls AppError α).run.Path acts x) :
    acts = [] ∧ x = some (result.mapError .domain) := by
  rcases result with error | a <;> exact path_pure_iff.1 h

theorem emit_path {event : CoreEvent} {acts : List (Act CoreCalls)}
    {r : Option (Except AppError Unit)} (h : (ipcEventSink.emit event).run.Path acts r) :
    EmitPath event acts r := by
  rcases run_path_call_bind h with ⟨rfl, rfl⟩ | ⟨⟨⟩, rest, rfl, h₁⟩
  · exact .start
  rcases run_path_call_bind h₁ with ⟨rfl, rfl⟩ | ⟨written, rest, rfl, h₂⟩
  · exact .logged
  rcases written with text | ⟨⟩
  · obtain ⟨rfl, rfl⟩ := path_pure_iff.1 h₂
    exact .failed text
  · obtain ⟨rfl, rfl⟩ := path_pure_iff.1 h₂
    exact .written

/-- An emission that has succeeded has written its event. -/
theorem EmitPath.of_ok {event : CoreEvent} {acts : List (Act CoreCalls)}
    (h : EmitPath event acts (some (.ok ()))) :
    acts = [⟨.log (.coreEvent event), ()⟩, ⟨.write (eventFromCore event), .ok ()⟩] := by
  cases h
  rfl

theorem runAction_path {profile : Profile} {control : ControlId} {url : SafeUrl}
    {acts : List (Act CoreCalls)} {r : Option (Except AppError Unit)}
    (h : (coreService.runAction profile control (.openUrl url)).run.Path acts r) :
    ActionPath profile.id control url acts r := by
  rcases run_path_call_bind h with ⟨rfl, rfl⟩ | ⟨uuid, rest, rfl, h₁⟩
  · exact .start
  rcases run_path_bind h₁ with ⟨he, rfl⟩ | ⟨error, he, rfl⟩ | ⟨_, as₁, as₂, rfl, he, h₂⟩
  · exact .announcing (emit_path he) nofun
  · exact .announcing (emit_path he) nofun
  obtain rfl := (emit_path he).of_ok
  rcases run_path_call_bind h₂ with ⟨rfl, rfl⟩ | ⟨opened, rest, rfl, h₃⟩
  · exact .opening uuid
  rcases opened with error | ⟨⟩
  · rcases run_path_bind h₃ with ⟨he, rfl⟩ | ⟨error', he, rfl⟩ | ⟨_, as₁, as₂, rfl, he, h₄⟩
    · exact .reporting uuid (.error error) (emit_path he)
    · exact .reporting uuid (.error error) (emit_path he)
    · obtain ⟨rfl, rfl⟩ := path_pure_iff.1 h₄
      rw [List.append_nil]
      exact .reporting uuid (.error error) (emit_path he)
  · have reported : ActionPath profile.id control url _ _ := .reporting uuid (.ok ()) (emit_path h₃)
    have result : (r.map fun written => written.bind fun _ =>
        (Except.ok () : Except OpenUrlError Unit).mapError AppError.openUrl) = r := by
      rcases r with _ | (_ | ⟨⟨⟩⟩) <;> rfl
    rw [result] at reported
    exact reported

/-- `active_profile` performs one read. -/
theorem activeProfile_path {acts : List (Act CoreCalls)} {r : Option (Except AppError Profile)}
    (h : coreService.activeProfile.run.Path acts r) : acts = [] ∧ r = none ∨
      (∃ error, acts = [⟨.lock .listProfiles, .error error⟩] ∧ r = some (.error error)) ∨
        ∃ profiles, acts = [⟨.lock .listProfiles, .ok profiles⟩] ∧
          ((∃ error, ensureExactlyOneActive profiles = .error error ∧
            r = some (.error (.domain error))) ∨
          ∃ profile, ensureExactlyOneActive profiles = .ok () ∧
            (profiles.find? fun profile => profile.isActive) = some profile ∧
              r = some (.ok profile)) := by
  rcases run_path_bind h with ⟨hl, rfl⟩ | ⟨error, hl, rfl⟩ | ⟨profiles, as₁, as₂, rfl, hl, h₁⟩
  · rcases path_lock hl with ⟨rfl, -⟩ | ⟨y, -, ⟨⟩⟩
    exact .inl ⟨rfl, rfl⟩
  · rcases path_lock hl with ⟨-, ⟨⟩⟩ | ⟨y, rfl, same⟩
    cases same
    exact .inr (.inl ⟨error, rfl, rfl⟩)
  rcases path_lock hl with ⟨-, ⟨⟩⟩ | ⟨y, rfl, same⟩
  cases same
  refine .inr (.inr ⟨profiles, ?_⟩)
  rcases one : ensureExactlyOneActive profiles with error | ⟨⟩
  · rw [one] at h₁
    obtain ⟨rfl, rfl⟩ := path_pure_iff.1 h₁
    exact ⟨rfl, .inl ⟨error, rfl, rfl⟩⟩
  · obtain ⟨profile, active⟩ := exists_active_of_ensure one
    rw [one, active] at h₁
    obtain ⟨rfl, rfl⟩ := path_pure_iff.1 h₁
    exact ⟨rfl, .inr ⟨profile, rfl, active, rfl⟩⟩

/-- What a run of `route_virtual_control` has performed and ended with. -/
theorem route_path {control : ControlId} {acts : List (Act CoreCalls)}
    {r : Option (Except AppError Unit)}
    (h : (coreService.routeVirtualControl control).run.Path acts r) : RoutePath control acts r := by
  rcases run_path_bind h with ⟨ha, rfl⟩ | ⟨error, ha, rfl⟩ | ⟨profile, as₁, as₂, rfl, ha, h₁⟩
  · rcases activeProfile_path ha with ⟨rfl, -⟩ | ⟨_, -, ⟨⟩⟩ | ⟨_, -, ⟨_, -, ⟨⟩⟩ | ⟨_, -, -, ⟨⟩⟩⟩
    exact .start
  · rcases activeProfile_path ha with
      ⟨-, ⟨⟩⟩ | ⟨_, rfl, ⟨⟩⟩ | ⟨_, rfl, ⟨_, not_one, ⟨⟩⟩ | ⟨_, -, -, ⟨⟩⟩⟩
    · exact .unlisted _
    · exact .ambiguous not_one
  rcases activeProfile_path ha with
    ⟨-, ⟨⟩⟩ | ⟨_, -, ⟨⟩⟩ | ⟨profiles, rfl, ⟨_, -, ⟨⟩⟩ | ⟨_, one, active, ⟨⟩⟩⟩
  rcases run_path_bind h₁ with ⟨hf, rfl⟩ | ⟨error, hf, rfl⟩ | ⟨found, as₁, as₂, rfl, hf, h₂⟩
  · rcases path_lock hf with ⟨rfl, -⟩ | ⟨_, -, ⟨⟩⟩
    exact .listed profiles one
  · rcases path_lock hf with ⟨-, ⟨⟩⟩ | ⟨_, rfl, ⟨⟩⟩
    exact .unread one active error
  rcases path_lock hf with ⟨-, ⟨⟩⟩ | ⟨_, rfl, ⟨⟩⟩
  rcases found with _ | assignment
  · obtain ⟨rfl, rfl⟩ := path_pure_iff.1 h₂
    exact .notFound one active
  · dsimp only at h₂
    rcases first : assignment.firstAction with _ | ⟨url⟩
    · rw [first] at h₂
      obtain ⟨rfl, rfl⟩ := path_pure_iff.1 h₂
      exact .noAction one active first
    · rw [first] at h₂
      exact .found one active first (runAction_path h₂)

theorem command_path {command : CoreCommand} {acts : List (Act CoreCalls)}
    {r : Option (JobResult × Unit)} (h : (jobs () (.command command)).Path acts r) :
    ∃ r', (coreService.handleCommand command).run.Path acts r' ∧
      r = r'.map fun result => (.answered command result, ()) := by
  obtain ⟨r₁, h₁, rfl⟩ := path_bind_pure h
  obtain ⟨r₂, h₂, rfl⟩ := path_bind_pure h₁
  refine ⟨r₂, h₂, ?_⟩
  rw [Option.map_map]
  rfl

theorem virtualControlInput_path {control : ControlId} {acts : List (Act CoreCalls)}
    {r : Option (Except AppError CoreResponse)}
    (h : (coreService.handleCommand (.virtualControlInput control)).run.Path acts r) :
    ∃ r', RoutePath control acts r' ∧ r = r'.map fun result => result.map fun _ => .acknowledged := by
  rcases run_path_bind h with ⟨hp, rfl⟩ | ⟨error, hp, rfl⟩ | ⟨_, as₁, as₂, rfl, hp, h₁⟩
  · exact ⟨none, route_path hp, rfl⟩
  · exact ⟨some (.error error), route_path hp, rfl⟩
  · obtain ⟨rfl, rfl⟩ := path_pure_iff.1 h₁
    rw [List.append_nil]
    exact ⟨_, route_path hp, rfl⟩

/-- Operations inside Core, apart from the lookup of an assignment. -/
def CoreOp.Internal : CoreOp → Prop
  | .lock (.findAssignment _ _) => False
  | .lock _ | .newUuid => True
  | _ => False

/-- Only a virtual input looks up an assignment or acts on the outside. -/
theorem uses_handleCommand {command : CoreCommand}
    (other : ∀ control, command ≠ .virtualControlInput control) :
    (coreService.handleCommand command).run.Uses CoreOp.Internal := by
  have drawn : CoreOp.Internal .newUuid := trivial
  cases command with
  | getSnapshot | listProfiles =>
    refine Fallible.uses_bind (uses_lock trivial) fun _ => ?_
    exact Fallible.uses_bind (uses_domain _) fun _ => trivial
  | createProfile name =>
    refine Fallible.uses_bind ?_ fun _ => trivial
    refine Fallible.uses_bind (uses_lift (uses_call drawn)) fun uuid => ?_
    refine Fallible.uses_bind (uses_domain _) fun profile => ?_
    exact Fallible.uses_bind (uses_lock trivial) fun _ => trivial
  | renameProfile profileId name =>
    refine Fallible.uses_bind ?_ fun _ => trivial
    refine Fallible.uses_bind (uses_lock trivial) fun profiles => ?_
    split
    · exact trivial
    · refine Fallible.uses_bind (uses_domain _) fun profile => ?_
      exact Fallible.uses_bind (uses_lock trivial) fun _ => trivial
  | setActiveProfile | saveAssignment | clearAssignment =>
    exact Fallible.uses_bind (uses_lock trivial) fun _ => trivial
  | virtualControlInput control => exact absurd rfl (other control)

/-! ## What a path contains -/

/-- The events of one action. -/
inductive ActionEventOf (profileId : ProfileId) (control : ControlId) : CoreEvent → Prop
  | running (runId : ActionRunId) :
      ActionEventOf profileId control (.actionRunning runId profileId control)
  | report (runId : ActionRunId) (opened : Except OpenUrlError Unit) :
      ActionEventOf profileId control (reportEvent runId opened)

/-- A repository call. -/
def IsCall (a : Act CoreCalls) : Prop :=
  ∃ (r : Region) (x : Except AppError r.Value), a = ⟨.lock r, x⟩

omit [UuidCrate] in
theorem isCall_singleton (r : Region) (x : Except AppError r.Value) :
    ∀ a ∈ [(⟨.lock r, x⟩ : Act CoreCalls)], IsCall a := List.forall_mem_singleton.2 ⟨r, x, rfl⟩

omit [UuidCrate] in
theorem isCall_pair (r r' : Region) (x : Except AppError r.Value) (x' : Except AppError r'.Value) :
    ∀ a ∈ [(⟨.lock r, x⟩ : Act CoreCalls), ⟨.lock r', x'⟩], IsCall a :=
  List.forall_mem_cons.2 ⟨⟨r, x, rfl⟩, isCall_singleton r' x'⟩

/-- The operation opens a URL. -/
def Opens (a : Act CoreCalls) : Prop := ∃ url, a.op = CoreOp.openUrl url

/-- The operations of one action: it draws an identity, emits its events and opens its URL. -/
inductive ActionAct (profileId : ProfileId) (control : ControlId) (url : SafeUrl) :
    Act CoreCalls → Prop
  | drawn (uuid : Uuid) : ActionAct profileId control url ⟨.newUuid, uuid⟩
  | logged {event : CoreEvent} (of_action : ActionEventOf profileId control event) :
      ActionAct profileId control url ⟨.log (.coreEvent event), ()⟩
  | written {event : CoreEvent} (of_action : ActionEventOf profileId control event)
      (x : Except String Unit) : ActionAct profileId control url ⟨.write (eventFromCore event), x⟩
  | opened (x : Except OpenUrlError Unit) : ActionAct profileId control url ⟨.openUrl url, x⟩

section Contents

variable {profileId : ProfileId} {control : ControlId} {url : SafeUrl} {acts : List (Act CoreCalls)}
  {r : Option (Except AppError Unit)} {a : Act CoreCalls}

theorem EmitPath.actionAct {event : CoreEvent} (path : EmitPath event acts r)
    (of_action : ActionEventOf profileId control event) :
    ∀ a ∈ acts, ActionAct profileId control url a := by
  cases path with
  | start => exact fun _ ha => nomatch ha
  | logged => exact List.forall_mem_singleton.2 (.logged of_action)
  | written =>
    rw [List.forall_mem_cons, List.forall_mem_singleton]
    exact ⟨.logged of_action, .written of_action _⟩
  | failed text =>
    rw [List.forall_mem_cons, List.forall_mem_singleton]
    exact ⟨.logged of_action, .written of_action _⟩

theorem announced_actionAct (uuid : Uuid) :
    ∀ a ∈ announced uuid profileId control, ActionAct profileId control url a :=
  List.forall_mem_cons.2 ⟨.drawn uuid, EmitPath.written.actionAct (.running ⟨uuid⟩)⟩

theorem ActionPath.actionAct (path : ActionPath profileId control url acts r) :
    ∀ a ∈ acts, ActionAct profileId control url a := by
  cases path with
  | start => exact fun _ ha => nomatch ha
  | announcing emit => exact List.forall_mem_cons.2 ⟨.drawn _, emit.actionAct (.running _)⟩
  | opening uuid => exact announced_actionAct uuid
  | reporting uuid opened emit =>
    rw [List.forall_mem_append, List.forall_mem_cons]
    exact ⟨announced_actionAct _, .opened _, emit.actionAct (.report _ _)⟩

theorem ActionAct.openUrl_eq {url' : SafeUrl} {x : Except OpenUrlError Unit}
    (h : ActionAct profileId control url ⟨.openUrl url', x⟩) : url' = url := by
  cases h
  rfl

omit [UrlCrate] in
theorem ActionEventOf.running_eq {event : CoreEvent} (h : ActionEventOf profileId control event)
    {executionId profile : String} {dto : ControlDto}
    (message : eventFromCore event = .actionEvent (.running executionId profile dto)) :
    profile = profileId.toString := by
  cases h with
  | running runId =>
    cases message
    rfl
  | report runId opened => rcases opened with error | ⟨⟩ <;> cases message

/-- A running message of an action names its profile. -/
theorem ActionAct.running_eq {executionId profile : String} {dto : ControlDto}
    {x : Except String Unit} (h : ActionAct profileId control url
      ⟨.write (.actionEvent (.running executionId profile dto)), x⟩) :
    profile = profileId.toString := by
  generalize message : ServerMessage.actionEvent (.running executionId profile dto) = m at h
  cases h with
  | written of_action => exact of_action.running_eq message.symm

theorem EmitPath.not_opens {event : CoreEvent} (path : EmitPath event acts r) :
    ∀ a ∈ acts, ¬ Opens a := by
  cases path <;> simp [Opens]

theorem announced_not_opens (uuid : Uuid) :
    ∀ a ∈ announced uuid profileId control, ¬ Opens a := by
  simp [announced, Opens]

/-- An action opens its URL once it has announced itself. -/
theorem ActionPath.before_open {before after : List (Act CoreCalls)} {url' : SafeUrl}
    {x : Except OpenUrlError Unit} (path : ActionPath profileId control url acts r)
    (split : acts = before ++ ⟨.openUrl url', x⟩ :: after) :
    ∃ uuid, before = announced uuid profileId control ∧ url' = url := by
  have mem : (⟨.openUrl url', x⟩ : Act CoreCalls) ∈ acts := by simp [split]
  have opens : Opens (⟨.openUrl url', x⟩ : Act CoreCalls) := ⟨url', rfl⟩
  cases path with
  | start => cases mem
  | announcing emit =>
    rcases List.mem_cons.1 mem with same | mem
    · cases same
    · exact absurd opens (emit.not_opens _ mem)
  | opening uuid => exact absurd opens (announced_not_opens uuid _ mem)
  | reporting uuid opened emit =>
    obtain ⟨rfl, same⟩ := split_at_only split (announced_not_opens _) emit.not_opens opens
    cases same
    exact ⟨_, rfl, rfl⟩

/-- An event that cannot be written ends the action. -/
theorem EmitPath.after_failure {event : CoreEvent} {before after : List (Act CoreCalls)}
    {message : ServerMessage} {text : String} (path : EmitPath event acts r)
    (split : acts = before ++ ⟨.write message, .error text⟩ :: after) :
    after = [] ∧ ∃ text, r = some (.error (.eventSink text)) := by
  cases path with
  | start => cases before <;> cases split
  | logged =>
    rcases before with _ | ⟨a, _ | ⟨b, before⟩⟩ <;> cases split
  | written =>
    rcases before with _ | ⟨a, _ | ⟨b, _ | ⟨c, before⟩⟩⟩ <;> cases split
  | failed text =>
    rcases before with _ | ⟨a, _ | ⟨b, _ | ⟨c, before⟩⟩⟩ <;> cases split
    exact ⟨rfl, _, rfl⟩

theorem ActionPath.after_failure {before after : List (Act CoreCalls)} {message : ServerMessage}
    {text : String} (path : ActionPath profileId control url acts r)
    (split : acts = before ++ ⟨.write message, .error text⟩ :: after) :
    after = [] ∧ ∃ text, r = some (.error (.eventSink text)) := by
  have mem : (⟨.write message, .error text⟩ : Act CoreCalls) ∈ acts := by simp [split]
  cases path with
  | start => cases mem
  | @announcing uuid _ _ emit =>
    have apart : (⟨.write message, .error text⟩ : Act CoreCalls) ∉
        [(⟨.newUuid, uuid⟩ : Act CoreCalls)] := by simp
    obtain ⟨before', rfl, split'⟩ := split_after split apart
    exact emit.after_failure split'
  | opening uuid => exact absurd mem (by simp [announced])
  | @reporting uuid opened _ r emit =>
    have apart : (⟨.write message, .error text⟩ : Act CoreCalls) ∉
        announced uuid profileId control ++ [⟨.openUrl url, opened⟩] := by simp [announced]
    rw [List.append_cons] at split
    obtain ⟨before', rfl, split'⟩ := split_after split apart
    obtain ⟨rfl, text, rfl⟩ := emit.after_failure split'
    exact ⟨rfl, text, rfl⟩

/-- Every message was written. -/
def AllWritten (acts : List (Act CoreCalls)) : Prop :=
  ∀ m x, (⟨.write m, x⟩ : Act CoreCalls) ∈ acts → x = .ok ()

theorem EmitPath.complete {event : CoreEvent} (path : EmitPath event acts r) (ended : r ≠ none)
    (written : AllWritten acts) :
    acts = [⟨.log (.coreEvent event), ()⟩, ⟨.write (eventFromCore event), .ok ()⟩] ∧
      r = some (.ok ()) := by
  cases path with
  | start => exact absurd rfl ended
  | logged => exact absurd rfl ended
  | written => exact ⟨rfl, rfl⟩
  | failed text => exact nomatch written (eventFromCore event) (.error text) (by simp)

/-- An action that has ended and whose events were written. -/
theorem ActionPath.complete (path : ActionPath profileId control url acts r) (ended : r ≠ none)
    (written : AllWritten acts) : ∃ uuid opened,
      acts = announced uuid profileId control ++ [⟨.openUrl url, opened⟩,
        ⟨.log (.coreEvent (reportEvent ⟨uuid⟩ opened)), ()⟩,
        ⟨.write (eventFromCore (reportEvent ⟨uuid⟩ opened)), .ok ()⟩] ∧
      r = some (opened.mapError .openUrl) := by
  cases path with
  | start => exact absurd rfl ended
  | announcing emit unwritten =>
    have complete := emit.complete ended fun m x mem => written m x (List.mem_cons_of_mem _ mem)
    exact absurd complete.2 unwritten
  | opening uuid => exact absurd rfl ended
  | @reporting uuid opened _ r emit =>
    obtain ⟨rfl, rfl⟩ := emit.complete (by rintro rfl; exact ended rfl) fun m x mem =>
      written m x (List.mem_append_right _ (List.mem_cons_of_mem _ mem))
    exact ⟨uuid, opened, rfl, rfl⟩

/-- A route only reads the store, or it has found an action and runs it. -/
theorem RoutePath.reads_or_runs (path : RoutePath control acts r) : (∀ a ∈ acts, IsCall a) ∨
    ∃ profiles profile assignment url rest, ensureExactlyOneActive profiles = .ok () ∧
      (profiles.find? fun profile => profile.isActive) = some profile ∧
      assignment.firstAction = some (.openUrl url) ∧ ActionPath profile.id control url rest r ∧
      acts = [⟨.lock .listProfiles, .ok profiles⟩,
        ⟨.lock (.findAssignment profile.id control), .ok (some assignment)⟩] ++ rest := by
  cases path with
  | found one active first path => exact .inr ⟨_, _, _, _, _, one, active, first, path, rfl⟩
  | start => exact .inl (List.forall_mem_nil _)
  | unlisted | ambiguous | listed => exact .inl (isCall_singleton _ _)
  | unread | notFound | noAction => exact .inl (isCall_pair _ _ _ _)

/-- A route opens a URL once it has read the store and announced the action. -/
theorem RoutePath.before_open {before after : List (Act CoreCalls)} {x : Except OpenUrlError Unit}
    (path : RoutePath control acts r) (split : acts = before ++ ⟨.openUrl url, x⟩ :: after) :
    ∃ profiles profile assignment uuid, ensureExactlyOneActive profiles = .ok () ∧
      (profiles.find? fun profile => profile.isActive) = some profile ∧
      assignment.firstAction = some (.openUrl url) ∧
      before = [⟨.lock .listProfiles, .ok profiles⟩,
        ⟨.lock (.findAssignment profile.id control), .ok (some assignment)⟩] ++
          announced uuid profile.id control := by
  have mem : (⟨.openUrl url, x⟩ : Act CoreCalls) ∈ acts := by simp [split]
  rcases path.reads_or_runs with
    reads | ⟨profiles, profile, assignment, url', rest, one, active, first, runs, rfl⟩
  · obtain ⟨r, y, same⟩ := reads _ mem
    cases same
  · obtain ⟨before, rfl, split'⟩ := split_after split (by simp)
    obtain ⟨uuid, rfl, rfl⟩ := runs.before_open split'
    exact ⟨profiles, profile, assignment, uuid, one, active, first, rfl⟩

theorem RoutePath.after_failure {before after : List (Act CoreCalls)} {message : ServerMessage}
    {text : String} (path : RoutePath control acts r)
    (split : acts = before ++ ⟨.write message, .error text⟩ :: after) :
    after = [] ∧ ∃ text, r = some (.error (.eventSink text)) := by
  have mem : (⟨.write message, .error text⟩ : Act CoreCalls) ∈ acts := by simp [split]
  rcases path.reads_or_runs with
    reads | ⟨profiles, profile, assignment, url', rest, -, -, -, runs, rfl⟩
  · obtain ⟨r, y, same⟩ := reads _ mem
    cases same
  · obtain ⟨before, rfl, split'⟩ := split_after split (by simp)
    exact runs.after_failure split'

/-- An action fails with the error of its sink or of the opener. -/
theorem ActionPath.result {error : AppError}
    (path : ActionPath profileId control url acts (some (.error error))) :
    (∃ text, error = .eventSink text) ∨ ∃ refused, error = .openUrl refused := by
  generalize result : some (Except.error error) = r at path
  cases path with
  | start => cases result
  | opening => cases result
  | announcing emit =>
    cases emit with
    | failed text =>
      cases result
      exact .inl ⟨_, rfl⟩
    | _ => cases result
  | reporting uuid opened emit =>
    cases emit with
    | failed text =>
      cases result
      exact .inl ⟨_, rfl⟩
    | written =>
      rcases opened with refused | ⟨⟩
      · cases result
        exact .inr ⟨refused, rfl⟩
      · cases result
    | _ => cases result

end Contents

end KeyroCore
