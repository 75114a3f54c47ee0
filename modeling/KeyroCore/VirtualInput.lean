import KeyroCore.Effect.Clients
import KeyroCore.Routing
import KeyroCore.Storage.ActiveProfile
import KeyroCore.Storage.AssignmentMap

/-!
# Virtual input and concurrent changes

`route_virtual_control` reads the active profile and the assignment under two locks.  What it does
is right in one store state if the first action of the control changes between the two reads only
while its profile is active, and otherwise it may be right in none.
-/

open Effect Program Fallible Clients Results

namespace KeyroCore

section Store

variable [UuidCrate] [UrlCrate]

/-! ## What a store holds for a control -/

/-- The profile of the only active row. -/
def Db.activeProfileId (db : Db) : Option ProfileId :=
  match db.activeProfiles with
  | [row] => (decodeProfile row).toOption.map Profile.id
  | _ => none

/-- The first action of a control of a profile. -/
def Db.firstAction (db : Db) (profileId : ProfileId) (control : ControlId) : Option Action :=
  (db.assignmentMap.entry (profileId, control)).head?

/-- The active profile and the first action it has for the control. -/
def Db.activeAction (db : Db) (control : ControlId) : Option (ProfileId × Option Action) :=
  db.activeProfileId.map fun profileId => (profileId, db.firstAction profileId control)

/-- The outcome so far of a virtual input for `control` is the right one for the store `db`. -/
structure Db.Explains (db : Db) (control : ControlId) (acts : List (Act CoreCalls))
    (r : Option (JobResult × Unit)) : Prop where
  opened : ∀ url x, ⟨.openUrl url, x⟩ ∈ acts →
    ∃ profileId, db.activeAction control = some (profileId, some (.openUrl url))
  running : ∀ executionId profile dto x,
    ⟨.write (.actionEvent (.running executionId profile dto)), x⟩ ∈ acts →
      ∃ profileId first, db.activeAction control = some (profileId, first) ∧
        profileId.toString = profile
  not_found : ∀ command, r = some (.answered command (.error .assignmentNotFound), ()) →
    ∃ profileId, db.activeAction control = some (profileId, none)

/-- The times of the repository calls of a job. -/
def callTimes (past : Past CoreCalls) : List ℕ :=
  (past.filter fun p => match p.2.op with
    | .lock _ => true
    | _ => false).map Prod.fst

/-- An outcome is right in one state that the store passes through between two of these times. -/
def ExplainedBetween (db₀ : Db) (history : List (Entry CoreCalls Unit CoreJob Db))
    (control : ControlId) (times : List ℕ) (acts : List (Act CoreCalls))
    (r : Option (JobResult × Unit)) : Prop :=
  ∃ t₁ ∈ times, ∃ t₂ ∈ times, ∃ t, t₁ ≤ t ∧ t ≤ t₂ ∧
    (stateAt db₀ history t).Explains control acts r

/-- The outcome of a virtual input is right in one state between the first and the last repository
call of the command. -/
def AtomicInput (db₀ : Db) (history : List (Entry CoreCalls Unit CoreJob Db)) (control : ControlId)
    (f : Frame CoreCalls Unit CoreJob JobResult) : Prop :=
  ExplainedBetween db₀ history control (callTimes f.past) (f.past.map Prod.snd) f.rest.value?

/-- The first action that the profile read first has for the control changes, between the
repository calls of the command, only while this profile is active. -/
def Undisturbed (db₀ : Db) (history : List (Entry CoreCalls Unit CoreJob Db)) (control : ControlId)
    (past : Past CoreCalls) : Prop :=
  ∀ t₁ ∈ callTimes past, ∀ t₂ ∈ callTimes past, ∀ t, t₁ ≤ t → t < t₂ → ∀ profileId,
    (stateAt db₀ history t₁).activeProfileId = some profileId →
      (stateAt db₀ history (t + 1)).firstAction profileId control ≠
        (stateAt db₀ history t).firstAction profileId control →
      (stateAt db₀ history t).activeProfileId = some profileId

/-! ## The two reads -/

omit [UrlCrate] in
/-- The profile that `active_profile` picks from the list is the active profile of the store. -/
theorem Db.activeProfileId_of_listed {db : Db} {profiles : List Profile} {profile : Profile}
    (decoded : db.orderedProfiles.mapM decodeProfile = .ok profiles)
    (one : ensureExactlyOneActive profiles = .ok ())
    (active : (profiles.find? fun profile => profile.isActive) = some profile) :
    db.activeProfileId = some profile.id := by
  have decodedActive := filter_mapM_ok decoded fun _ _ _ => decodeProfile_isActive
  have single : (profiles.filter fun profile => profile.isActive) = [profile] := by
    obtain ⟨only, honly⟩ := List.length_eq_one_iff.1 (ensureExactlyOneActive_ok_iff.1 one)
    have head := List.head?_filter (p := fun profile : Profile => profile.isActive) (l := profiles)
    rw [active, honly] at head
    rw [honly, Option.some.inj head]
  rw [single] at decodedActive
  have perm := (Rows.orderBy_perm ProfileRow.order db.profiles).filter fun row => row.Active
  have related := mapM_ok_iff.1 decodedActive
  obtain ⟨row, hrow⟩ := List.length_eq_one_iff.1 related.length_eq
  unfold Db.orderedProfiles at hrow related
  rw [hrow] at perm related
  have activeRows : db.activeProfiles = [row] := List.perm_singleton.1 perm.symm
  unfold Db.activeProfileId
  cases related with
  | cons read _ =>
    rw [activeRows]
    dsimp only
    rw [read]
    rfl

/-- What `find_assignment` answers begins with the first action of the store. -/
theorem Db.firstAction_of_found {db : Db} {profileId : ProfileId} {control : ControlId}
    {actions : List Action}
    (decoded : (db.actionsOf (identityParams profileId control)).mapM decodeActionRow =
      .ok actions) : db.firstAction profileId control = actions.head? := by
  unfold Db.firstAction Db.assignmentMap
  rw [ListMap.entry_ofEntries, decoded]
  rfl

/-- A region changes profiles or assignments, not both. -/
theorem Region.Does.keeps_table {r : Region} {db db' : Db} {result : Except AppError r.Value}
    (does : Does r db result db') :
    db'.profiles = db.profiles ∨ db'.assignments = db.assignments := by
  cases does with
  | defaultInserted _ _ _ _ assignments => exact .inr assignments
  | profileInserted _ assignments => exact .inr assignments
  | nameUpdated _ _ assignments => exact .inr assignments
  | activated _ _ _ assignments => exact .inr assignments
  | assignmentSaved _ profiles => exact .inl profiles
  | assignmentCleared _ profiles => exact .inl profiles
  | _ => exact .inl rfl

omit [UrlCrate] in
theorem Db.activeProfileId_congr {db db' : Db} (profiles : db'.profiles = db.profiles) :
    db'.activeProfileId = db.activeProfileId := by
  unfold Db.activeProfileId Tables.activeProfiles
  rw [profiles]

theorem Db.firstAction_congr {db db' : Db} (assignments : db'.assignments = db.assignments)
    (profileId : ProfileId) (control : ControlId) :
    db'.firstAction profileId control = db.firstAction profileId control := by
  unfold Db.firstAction Db.assignmentMap Db.actionsOf
  rw [ListMap.entry_ofEntries, ListMap.entry_ofEntries, assignments]

variable [RusqliteCrate]

/-- An operation that changes a first action does not change which profile is active. -/
theorem activeProfileId_coreHandler {input : CoreInput} {o : CoreOp} {db : Db}
    {profileId : ProfileId} {control : ControlId}
    (changed : (coreHandler input o db).2.firstAction profileId control ≠
      db.firstAction profileId control) :
    (coreHandler input o db).2.activeProfileId = db.activeProfileId := by
  cases o with
  | lock r =>
    rcases Region.outcome input.sql r db with ⟨_, -, -, same⟩ | does
    · exact absurd (congrArg (Db.firstAction · profileId control) same) changed
    · rcases does.keeps_table with profiles | assignments
      · exact Db.activeProfileId_congr profiles
      · exact absurd (Db.firstAction_congr assignments _ _) changed
  | _ => rfl

/-- At every moment between the two reads, the first action is one that the profile read first had
at an earlier moment since then at which it was active. -/
theorem active_since {db₀ : Db} {c : Config CoreCalls Unit CoreJob JobResult Db}
    (hc : Traced jobs coreHandler db₀ c) {t₁ t₂ : ℕ} (ht₂ : t₂ ≤ c.history.length)
    {profileId : ProfileId} {control : ControlId}
    (active : (stateAt db₀ c.history t₁).activeProfileId = some profileId)
    (undisturbed : ∀ t, t₁ ≤ t → t < t₂ →
      (stateAt db₀ c.history (t + 1)).firstAction profileId control ≠
        (stateAt db₀ c.history t).firstAction profileId control →
      (stateAt db₀ c.history t).activeProfileId = some profileId) {t : ℕ} (le : t₁ ≤ t)
    (ht : t ≤ t₂) : ∃ t', t₁ ≤ t' ∧ t' ≤ t ∧
      (stateAt db₀ c.history t').activeProfileId = some profileId ∧
        (stateAt db₀ c.history t').firstAction profileId control =
          (stateAt db₀ c.history t).firstAction profileId control := by
  induction t, le using Nat.le_induction with
  | base => exact ⟨t₁, le_rfl, le_rfl, active, rfl⟩
  | succ t le ih =>
    by_cases changed : (stateAt db₀ c.history (t + 1)).firstAction profileId control =
        (stateAt db₀ c.history t).firstAction profileId control
    · obtain ⟨t', h₁, h₂, activeThen, same⟩ := ih (by omega)
      exact ⟨t', h₁, by omega, activeThen, same.trans changed.symm⟩
    · have activeNow := undisturbed t le (by omega) changed
      have lt : t < c.history.length := by omega
      obtain ⟨input, linked⟩ := hc.linked t _ (List.getElem?_eq_getElem lt)
      refine ⟨t + 1, by omega, le_rfl, ?_, rfl⟩
      rw [stateAt_succ (List.getElem?_eq_getElem lt)] at changed ⊢
      rw [← activeNow]
      have kept := @activeProfileId_coreHandler _ _ _ input c.history[t].act.op
        (stateAt db₀ c.history t) profileId control
      rw [linked] at kept
      exact kept changed

/-! ## The outcome -/

section Outcome

variable {db₀ : Db} {c : Config CoreCalls Unit CoreJob JobResult Db} {i t : ℕ}
  {past : Past CoreCalls} {profileId : ProfileId} {control : ControlId}

/-- A lock region that a job remembers had an outcome of the state at its time. -/
theorem outcome_of_recorded (hc : Traced jobs coreHandler db₀ c) (hr : Clients.Recorded c.history i past)
    {r : Region} {x : Except AppError r.Value} (mem : (t, ⟨.lock r, x⟩) ∈ past) :
    ∃ (input : CoreInput) (db' : Db), stateAt db₀ c.history (t + 1) = db' ∧
      Region.Outcome input.sql r (stateAt db₀ c.history t) x db' := by
  obtain ⟨e, he, -, act⟩ := hr.2 _ mem
  obtain ⟨input, linked⟩ := hc.linked t e he
  exact ⟨input, e.after, stateAt_succ he, outcome_of_handled act linked⟩

theorem active_of_recorded (hc : Traced jobs coreHandler db₀ c) (hr : Clients.Recorded c.history i past)
    {profiles : List Profile} {profile : Profile}
    (mem : (t, ⟨.lock .listProfiles, .ok profiles⟩) ∈ past)
    (one : ensureExactlyOneActive profiles = .ok ())
    (active : (profiles.find? fun profile => profile.isActive) = some profile) :
    (stateAt db₀ c.history t).activeProfileId = some profile.id := by
  obtain ⟨input, db', -, ⟨_, -, ⟨⟩, -⟩ | does⟩ := outcome_of_recorded hc hr mem
  cases does with
  | profilesListed decoded => exact Db.activeProfileId_of_listed decoded one active

theorem firstAction_of_recorded (hc : Traced jobs coreHandler db₀ c)
    (hr : Clients.Recorded c.history i past) {found : Option Assignment}
    (mem : (t, ⟨.lock (.findAssignment profileId control), .ok found⟩) ∈ past) :
    (stateAt db₀ c.history t).firstAction profileId control =
      found.bind Assignment.firstAction := by
  obtain ⟨input, db', -, ⟨_, -, ⟨⟩, -⟩ | does⟩ := outcome_of_recorded hc hr mem
  cases does with
  | @assignmentLookedUp _ _ _ actions decoded =>
    rw [Db.firstAction_of_found decoded]
    cases actions <;> rfl

/-- No lock region answers that an assignment was not found. -/
theorem known_of_recorded (hc : Traced jobs coreHandler db₀ c) (hr : Clients.Recorded c.history i past)
    {r : Region} {error : AppError} (mem : (t, ⟨.lock r, .error error⟩) ∈ past) :
    error ≠ .assignmentNotFound := by
  rintro rfl
  obtain ⟨input, db', -, ⟨_, -, ⟨⟩, -⟩ | does⟩ := outcome_of_recorded hc hr mem
  cases does

/-- The result of a virtual input, as the job of its client reports it. -/
def reported (control : ControlId) (r : Option (Except AppError Unit)) : Option (JobResult × Unit) :=
  r.map fun result =>
    (.answered (.virtualControlInput control) (result.map fun _ => .acknowledged), ())

omit [UuidCrate] [RusqliteCrate] in
theorem reported_not_found {r : Option (Except AppError Unit)} {command : CoreCommand}
    (h : reported control r = some (.answered command (.error .assignmentNotFound), ())) :
    r = some (.error .assignmentNotFound) := by
  rcases r with _ | (error | ⟨⟩)
  · cases h
  · cases h
    rfl
  · cases h

omit [RusqliteCrate] in
/-- An outcome that only reads explains itself in any state, unless it found no assignment. -/
theorem Db.Explains.of_reads {db : Db} {acts : List (Act CoreCalls)}
    {r : Option (Except AppError Unit)} (reads : ∀ a ∈ acts, IsCall a)
    (not_found : r = some (.error .assignmentNotFound) →
      ∃ profileId, db.activeAction control = some (profileId, none)) :
    db.Explains control acts (reported control r) := by
  refine ⟨fun url x mem => ?_, fun executionId profile dto x mem => ?_, fun command h => ?_⟩
  · obtain ⟨r, y, ⟨⟩⟩ := reads _ mem
  · obtain ⟨r, y, ⟨⟩⟩ := reads _ mem
  · exact not_found (reported_not_found h)

omit [RusqliteCrate] in
/-- An outcome of an action explains itself in a state that holds the action for the control. -/
theorem Db.Explains.of_action {db : Db} {url : SafeUrl} {acts : List (Act CoreCalls)}
    {r : Option (Except AppError Unit)} {a b : Act CoreCalls}
    (holds : db.activeAction control = some (profileId, some (.openUrl url)))
    (reads : ∀ x ∈ [a, b], IsCall x) (path : ActionPath profileId control url acts r) :
    db.Explains control ([a, b] ++ acts) (reported control r) := by
  refine ⟨fun url' x mem => ?_, fun executionId profile dto x mem => ?_, fun command h => ?_⟩
  · rcases List.mem_append.1 mem with mem | mem
    · obtain ⟨r, y, ⟨⟩⟩ := reads _ mem
    · rw [(path.actionAct _ mem).openUrl_eq]
      exact ⟨profileId, holds⟩
  · rcases List.mem_append.1 mem with mem | mem
    · obtain ⟨r, y, ⟨⟩⟩ := reads _ mem
    · exact ⟨profileId, _, holds, (path.actionAct _ mem).running_eq.symm⟩
  · rw [reported_not_found h] at path
    rcases path.result with ⟨text, ⟨⟩⟩ | ⟨refused, ⟨⟩⟩

omit [RusqliteCrate] in
theorem ExplainedBetween.of_reads {history : List (Entry CoreCalls Unit CoreJob Db)}
    {times : List ℕ} {acts : List (Act CoreCalls)} {r : Option (Except AppError Unit)}
    (called : times ≠ []) (reads : ∀ a ∈ acts, IsCall a)
    (known : r ≠ some (.error .assignmentNotFound)) :
    ExplainedBetween db₀ history control times acts (reported control r) := by
  obtain ⟨t, ht⟩ := List.exists_mem_of_ne_nil _ called
  exact ⟨t, ht, t, ht, t, le_rfl, le_rfl, .of_reads reads fun h => absurd h known⟩

omit [UuidCrate] [RusqliteCrate] in
theorem mem_callTimes {r : Region} {x : Except AppError r.Value}
    (mem : (t, ⟨.lock r, x⟩) ∈ past) : t ∈ callTimes past :=
  List.mem_map.2 ⟨_, List.mem_filter.2 ⟨mem, rfl⟩, rfl⟩

/-- Between the two reads there is a state in which the profile read first was active and had the
first action read second. -/
theorem exists_moment (hc : Traced jobs coreHandler db₀ c) (hr : Clients.Recorded c.history i past)
    (undisturbed : Undisturbed db₀ c.history control past) {t₁ t₂ : ℕ} {profiles : List Profile}
    {profile : Profile} {found : Option Assignment}
    (listed : (t₁, ⟨.lock .listProfiles, .ok profiles⟩) ∈ past)
    (looked : (t₂, ⟨.lock (.findAssignment profile.id control), .ok found⟩) ∈ past)
    (le : t₁ ≤ t₂) (one : ensureExactlyOneActive profiles = .ok ())
    (active : (profiles.find? fun profile => profile.isActive) = some profile) :
    ∃ t, t₁ ≤ t ∧ t ≤ t₂ ∧ (stateAt db₀ c.history t).activeAction control =
      some (profile.id, found.bind Assignment.firstAction) := by
  have activeFirst := active_of_recorded hc hr listed one active
  have lt : t₂ < c.history.length := hr.lt looked
  obtain ⟨t, ge, le, activeThen, same⟩ := active_since hc (Nat.le_of_lt lt) activeFirst
    (fun t ge lt => undisturbed t₁ (mem_callTimes listed) t₂ (mem_callTimes looked) t ge lt
      profile.id activeFirst) le le_rfl
  refine ⟨t, ge, le, ?_⟩
  unfold Db.activeAction
  rw [activeThen, Option.map_some, same, firstAction_of_recorded hc hr looked]

omit [UuidCrate] [RusqliteCrate] in
/-- The times of the first two operations. -/
theorem reads_of_map {history : List (Entry CoreCalls Unit CoreJob Db)}
    (hr : Clients.Recorded history i past) {a b : Act CoreCalls} {rest : List (Act CoreCalls)}
    (h : past.map Prod.snd = a :: b :: rest) :
    ∃ t₁ t₂, t₁ < t₂ ∧ (t₁, a) ∈ past ∧ (t₂, b) ∈ past := by
  obtain ⟨⟨t₁, a⟩, more, rfl, rfl, h₁⟩ := List.map_eq_cons_iff.1 h
  obtain ⟨⟨t₂, b⟩, more, rfl, rfl, h₂⟩ := List.map_eq_cons_iff.1 h₁
  have ordered := hr.1
  rw [List.map_cons, List.map_cons, List.pairwise_cons] at ordered
  refine ⟨t₁, t₂, ordered.1 t₂ (List.mem_cons_self ..), List.mem_cons_self .., ?_⟩
  exact List.mem_cons_of_mem _ (List.mem_cons_self ..)

/-- The outcome of a virtual input is right in one state if the first action of the control changes
between the two reads only while the profile read first is active. -/
theorem atomicInput_of_undisturbed (hc : Traced jobs coreHandler db₀ c)
    {f : Frame CoreCalls Unit CoreJob JobResult} (hf : c.clients i = .busy f)
    (job : f.job = .command (.virtualControlInput control)) (called : callTimes f.past ≠ [])
    (undisturbed : Undisturbed db₀ c.history control f.past) :
    AtomicInput db₀ c.history control f := by
  have follows := hc.frame_follows i f hf
  have hr := hc.frame_recorded i f hf
  rw [job] at follows
  obtain ⟨r₁, path₁, result⟩ := command_path follows.path
  obtain ⟨r, path, rfl⟩ := virtualControlInput_path path₁
  rw [Option.map_map] at result
  change f.rest.value? = reported control r at result
  unfold AtomicInput
  rw [result]
  generalize hp : f.past.map Prod.snd = acts at path ⊢
  cases path with
  | start =>
    rw [List.map_eq_nil_iff] at hp
    rw [hp] at called
    exact absurd rfl called
  | unlisted error =>
    obtain ⟨⟨t, a⟩, mem, rfl⟩ := List.mem_map.1 (hp ▸ List.mem_singleton_self _)
    have known := known_of_recorded hc hr mem
    exact .of_reads called (isCall_singleton _ _) (by simpa using known)
  | ambiguous not_one =>
    exact .of_reads called (isCall_singleton _ _) nofun
  | listed profiles one =>
    exact .of_reads called (isCall_singleton _ _) nofun
  | unread one active error =>
    obtain ⟨t₁, t₂, -, -, mem⟩ := reads_of_map hr hp
    have known := known_of_recorded hc hr mem
    exact .of_reads called (isCall_pair _ _ _ _)
      (by simpa using known)
  | noAction one active empty =>
    exact .of_reads called (isCall_pair _ _ _ _) nofun
  | @notFound profiles profile one active =>
    obtain ⟨t₁, t₂, lt, listed, looked⟩ := reads_of_map hr hp
    obtain ⟨t, ge, le, holds⟩ := exists_moment hc hr undisturbed listed looked lt.le one active
    refine ⟨t₁, mem_callTimes listed, t₂, mem_callTimes looked, t, ge, le, ?_⟩
    exact .of_reads (isCall_pair _ _ _ _)
      fun _ => ⟨profile.id, holds⟩
  | @found profiles profile assignment url acts _ one active first path =>
    obtain ⟨t₁, t₂, lt, listed, looked⟩ := reads_of_map hr hp
    obtain ⟨t, ge, le, holds⟩ := exists_moment hc hr undisturbed listed looked lt.le one active
    refine ⟨t₁, mem_callTimes listed, t₂, mem_callTimes looked, t, ge, le, ?_⟩
    rw [Option.bind_some, first] at holds
    exact .of_action holds (isCall_pair _ _ _ _) path

/-- In every run from any store, a virtual input is atomic if the first action of its control
changes, between its two reads, only while the profile that it read as active is active. -/
theorem virtual_input_atomic (db₀ : Db) (moves : List (Move CoreJob CoreInput)) (i : ℕ)
    (f : Frame CoreCalls Unit CoreJob JobResult) (control : ControlId)
    (busy : (run jobs coreHandler (begin db₀ ()) moves).clients i = .busy f)
    (job : f.job = .command (.virtualControlInput control)) (called : callTimes f.past ≠ [])
    (undisturbed : Undisturbed db₀ (run jobs coreHandler (begin db₀ ()) moves).history control
      f.past) :
    AtomicInput db₀ (run jobs coreHandler (begin db₀ ()) moves).history control f :=
  atomicInput_of_undisturbed (traced_run _ _ _) busy job called undisturbed

end Outcome

end Store

/-! ## Concrete runs -/

section Examples

open Reference

/-- Client 1 presses a key; client 0 assigns an action to it between the two reads. -/
def promptRun : Config CoreCalls Unit CoreJob JobResult Db :=
  run jobs coreHandler (begin (afterInitialize calm .empty).2 ())
    [.start 1 (.command (.virtualControlInput firstKey)), .go 1 (calm 2),
      .start 0 (.command (.saveAssignment ⟨⟨uuid 0⟩, firstKey, [.openUrl exampleUrl]⟩)),
      .go 0 (calm 2), .go 1 (calm 2), .go 1 (calm 2), .go 1 (calm 2), .go 1 (calm 2), .go 1 (calm 2)]

theorem virtual_input_atomic_example :
    ∃ f, promptRun.clients 1 = .busy f ∧
      AtomicInput (afterInitialize calm .empty).2 promptRun.history firstKey f := by
  obtain ⟨f, busy, job, times⟩ : ∃ f, promptRun.clients 1 = .busy f ∧
      f.job = .command (.virtualControlInput firstKey) ∧ callTimes f.past = [0, 2] :=
    ⟨_, rfl, rfl, by decide⟩
  have active : ∀ t < 3, (stateAt (afterInitialize calm .empty).2 promptRun.history t).activeProfileId =
      some ⟨uuid 0⟩ := by decide
  have called : callTimes f.past ≠ [] := by rw [times]; decide
  have undisturbed : Undisturbed (afterInitialize calm .empty).2 promptRun.history firstKey
      f.past := by
    intro t₁ ht₁ t₂ ht₂ t ge lt profileId was _
    rw [times] at ht₁ ht₂
    have h₁ : t₁ < 3 := by
      rcases List.mem_pair.1 ht₁ with rfl | rfl <;> decide
    have h₂ : t₂ < 3 := by
      rcases List.mem_pair.1 ht₂ with rfl | rfl <;> decide
    rw [active t₁ h₁] at was
    exact (active t (by omega)).trans was
  exact ⟨f, busy, virtual_input_atomic _ _ 1 f firstKey busy job called undisturbed⟩

/-- Client 1 presses a key.  Between its two reads client 0 activates another profile and then
assigns an action to the key in the profile that was active. -/
def staleRun : Config CoreCalls Unit CoreJob JobResult Db :=
  run jobs coreHandler (begin (afterInitialize calm .empty).2 ())
    [.start 0 (.command (.createProfile "Work")), .go 0 (calm 1), .go 0 (calm 1),
      .start 1 (.command (.virtualControlInput firstKey)), .go 1 (calm 2),
      .start 0 (.command (.setActiveProfile ⟨uuid 1⟩)), .go 0 (calm 2),
      .start 0 (.command (.saveAssignment ⟨⟨uuid 0⟩, firstKey, [.openUrl exampleUrl]⟩)),
      .go 0 (calm 2), .go 1 (calm 2), .go 1 (calm 2), .go 1 (calm 2), .go 1 (calm 2), .go 1 (calm 2)]

/-- The key opens a URL that no state between the two reads has for the active profile. -/
theorem virtual_input_not_atomic : ∃ f, staleRun.clients 1 = .busy f ∧
    f.job = .command (.virtualControlInput firstKey) ∧ callTimes f.past ≠ [] ∧
      ¬ AtomicInput (afterInitialize calm .empty).2 staleRun.history firstKey f := by
  obtain ⟨f, busy, job, times, opened⟩ : ∃ f, staleRun.clients 1 = .busy f ∧
      f.job = .command (.virtualControlInput firstKey) ∧ callTimes f.past = [2, 5] ∧
        .openUrl exampleUrl ∈ f.past.map fun p => p.2.op :=
    ⟨_, rfl, rfl, by decide, by decide⟩
  refine ⟨f, busy, job, by rw [times]; decide, ?_⟩
  rintro ⟨t₁, ht₁, t₂, ht₂, t, ge, le, explains⟩
  have unheld : ∀ t < 6, 2 ≤ t →
      ((stateAt (afterInitialize calm .empty).2 staleRun.history t).activeAction firstKey).bind
        Prod.snd ≠ some (.openUrl exampleUrl) := by decide
  obtain ⟨⟨time, op, x⟩, mem, rfl⟩ := List.mem_map.1 opened
  obtain ⟨profileId, holds⟩ := explains.opened exampleUrl x (List.mem_map.2 ⟨_, mem, rfl⟩)
  rw [times] at ht₁ ht₂
  have h₁ : 2 ≤ t₁ := by
    rcases List.mem_pair.1 ht₁ with rfl | rfl <;> decide
  have h₂ : t₂ < 6 := by
    rcases List.mem_pair.1 ht₂ with rfl | rfl <;> decide
  refine unheld t (by omega) (by omega) ?_
  rw [holds]
  rfl

end Examples

end KeyroCore
