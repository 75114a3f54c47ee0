import Mathlib.Logic.Equiv.Defs
import KeyroCore.Effect.Relation
import KeyroCore.Memory
import KeyroCore.Storage.ActiveProfile
import KeyroCore.Storage.AssignmentMap
import KeyroCore.Storage.Profiles

/-!
# The in-memory repository behaves as the SQLite repository

Both stores run under the same recording service.  `SameStore` relates a memory repository to a
database that holds the same profiles and assignments under other ids; every command keeps the two
related, answers the same up to the renaming, and records the same events and URLs.
-/

open Effect Program Results

namespace KeyroCore

/-! ## Renaming ids -/

section Relabel

variable (ρ : Equiv.Perm Uuid)

def ProfileId.relabel (id : ProfileId) : ProfileId := ⟨ρ id.uuid⟩

def Profile.relabel (profile : Profile) : Profile := { profile with id := profile.id.relabel ρ }

def CoreEvent.relabel : CoreEvent → CoreEvent
  | .actionRunning runId profileId control =>
      .actionRunning ⟨ρ runId.uuid⟩ (profileId.relabel ρ) control
  | .actionSucceeded runId => .actionSucceeded ⟨ρ runId.uuid⟩
  | .actionFailed runId failure message => .actionFailed ⟨ρ runId.uuid⟩ failure message

variable [UrlCrate]

def Assignment.relabel (a : Assignment) : Assignment := { a with profileId := a.profileId.relabel ρ }

def SnapshotAssignment.relabel (a : SnapshotAssignment) : SnapshotAssignment :=
  { a with profileId := a.profileId.relabel ρ }

def CoreCommand.relabel : CoreCommand → CoreCommand
  | .renameProfile profileId name => .renameProfile (profileId.relabel ρ) name
  | .setActiveProfile profileId => .setActiveProfile (profileId.relabel ρ)
  | .saveAssignment a => .saveAssignment (a.relabel ρ)
  | .clearAssignment profileId control => .clearAssignment (profileId.relabel ρ) control
  | .getSnapshot => .getSnapshot
  | .listProfiles => .listProfiles
  | .createProfile name => .createProfile name
  | .virtualControlInput control => .virtualControlInput control

def StepInput.relabel (input : StepInput) : StepInput := { input with fresh := ρ input.fresh }

def Step.relabel (step : Step) : Step where
  toStepInput := step.toStepInput.relabel ρ
  command := step.command.relabel ρ

end Relabel

section Relabelled

variable {ρ : Equiv.Perm Uuid}

theorem ProfileId.relabel_inj {id id' : ProfileId} : id.relabel ρ = id'.relabel ρ ↔ id = id' := by
  obtain ⟨uuid⟩ := id
  obtain ⟨uuid'⟩ := id'
  simp [relabel]

@[simp] theorem Profile.relabel_id (profile : Profile) :
    (profile.relabel ρ).id = profile.id.relabel ρ := rfl

@[simp] theorem Profile.relabel_isActive (profile : Profile) :
    (profile.relabel ρ).isActive = profile.isActive := rfl

theorem Profile.relabel_new {uuid : Uuid} {name : String} {isActive : Bool} :
    Profile.new (ρ uuid) name isActive = (Profile.new uuid name isActive).map (Profile.relabel ρ) := by
  unfold Profile.new
  cases validateProfileName name with
  | error error => rfl
  | ok name' => rfl

theorem Profile.relabel_rename {profile : Profile} {name : String} :
    (profile.relabel ρ).rename name = (profile.rename name).map (Profile.relabel ρ) := by
  unfold Profile.rename
  cases validateProfileName name with
  | error error => rfl
  | ok name' => rfl

variable [UrlCrate]

@[simp] theorem Assignment.relabel_profileId (a : Assignment) :
    (a.relabel ρ).profileId = a.profileId.relabel ρ := rfl

@[simp] theorem Assignment.relabel_control (a : Assignment) :
    (a.relabel ρ).control = a.control := rfl

@[simp] theorem Assignment.relabel_actions (a : Assignment) :
    (a.relabel ρ).actions = a.actions := rfl

end Relabelled

/-! ## The relation -/

section Relation

variable [UrlCrate]

/-- The actions under a control. -/
def MemoryRepository.entry (m : MemoryRepository) (profileId : ProfileId) (control : ControlId) :
    List Action :=
  ((m.assignments.find? fun assignment =>
    assignment.profileId = profileId ∧ assignment.control = control).map Assignment.actions).getD []

def Assignment.key (a : Assignment) : ProfileId × ControlId := (a.profileId, a.control)

/-- The store in which the assignments of a control are replaced by `extra`. -/
def MemoryRepository.replace (m : MemoryRepository) (profileId : ProfileId) (control : ControlId)
    (extra : Option Assignment) : MemoryRepository :=
  { m with assignments := m.others profileId control ++ extra.toList }

/-- The first assignment of another control is not among those removed. -/
theorem MemoryRepository.find_others (m : MemoryRepository) {profileId profileId' : ProfileId}
    {control control' : ControlId} (other : ¬ (profileId' = profileId ∧ control' = control)) :
    ((m.others profileId control).find? fun a => a.profileId = profileId' ∧ a.control = control') =
      m.assignments.find? fun a => a.profileId = profileId' ∧ a.control = control' := by
  unfold others
  rw [List.find?_filter]
  congr 1
  funext a
  by_cases found : a.profileId = profileId' ∧ a.control = control'
  · rw [found.1, found.2]
    simp [other]
  · simp [found]

theorem MemoryRepository.entry_replace (m : MemoryRepository) {profileId : ProfileId}
    {control : ControlId} {extra : Option Assignment}
    (own : ∀ a ∈ extra, a.key = (profileId, control)) (profileId' : ProfileId)
    (control' : ControlId) : (m.replace profileId control extra).entry profileId' control' =
      if profileId' = profileId ∧ control' = control then (extra.map Assignment.actions).getD []
      else m.entry profileId' control' := by
  unfold entry replace
  rw [List.find?_append]
  by_cases same : profileId' = profileId ∧ control' = control
  · obtain ⟨rfl, rfl⟩ := same
    have removed : ((m.others profileId' control').find? fun a =>
        a.profileId = profileId' ∧ a.control = control') = none := by
      apply List.find?_eq_none.2
      intro a ha
      have apart := (List.mem_filter.1 ha).2
      simp only [Bool.not_eq_true', decide_eq_false_iff_not] at apart
      simp only [decide_eq_true_eq]
      exact apart
    rw [if_pos ⟨rfl, rfl⟩, removed, Option.none_or]
    cases extra with
    | none => rfl
    | some a =>
      obtain ⟨rfl, rfl⟩ := Prod.mk.inj (own a rfl)
      simp
  · rw [if_neg same, m.find_others same]
    cases extra with
    | none => simp
    | some a =>
      obtain ⟨rfl, rfl⟩ := Prod.mk.inj (own a rfl)
      have apart : ¬ (a.profileId = profileId' ∧ a.control = control') :=
        fun eq => same ⟨eq.1.symm, eq.2.symm⟩
      simp [apart]

theorem MemoryRepository.keys_replace {m : MemoryRepository}
    (keys : (m.assignments.map Assignment.key).Nodup) {profileId : ProfileId} {control : ControlId}
    {extra : Option Assignment} (own : ∀ a ∈ extra, a.key = (profileId, control)) :
    ((m.replace profileId control extra).assignments.map Assignment.key).Nodup := by
  unfold replace others
  rw [List.map_append]
  have kept := keys.sublist ((List.filter_sublist (p := fun candidate =>
    !decide (candidate.profileId = profileId ∧ candidate.control = control))).map Assignment.key)
  cases extra with
  | none => simpa using kept
  | some a =>
    rw [List.nodup_append_comm]
    apply List.nodup_cons.2
    refine ⟨fun mem => ?_, kept⟩
    obtain ⟨a', ha', same⟩ := List.mem_map.1 mem
    have apart := (List.mem_filter.1 ha').2
    rw [own a rfl] at same
    obtain ⟨rfl, rfl⟩ := Prod.mk.inj same
    simp at apart

theorem Assignment.ext_key {a b : Assignment} (key : a.key = b.key) (actions : a.actions = b.actions) :
    a = b := by
  obtain ⟨profileId, control, _⟩ := a
  obtain ⟨profileId', control', _⟩ := b
  obtain ⟨rfl, rfl⟩ := Prod.mk.inj key
  cases actions
  rfl

/-- The first assignment of a control is the only one. -/
theorem MemoryRepository.find_iff {m : MemoryRepository}
    (keys : (m.assignments.map Assignment.key).Nodup) (a : Assignment) :
    a ∈ m.assignments ↔ (m.assignments.find? fun b =>
      b.profileId = a.profileId ∧ b.control = a.control) = some a := by
  constructor
  · intro mem
    apply Rows.find?_of_unique mem (by simp)
    intro b hb same
    have eq := of_decide_eq_true same
    exact List.inj_on_of_nodup_map keys hb mem (Prod.ext eq.1 eq.2)
  · exact List.mem_of_find?_eq_some

/-- The assignments are the entries that are not empty. -/
theorem MemoryRepository.mem_iff {m : MemoryRepository}
    (keys : (m.assignments.map Assignment.key).Nodup)
    (present : ∀ a ∈ m.assignments, a.actions ≠ []) (a : Assignment) :
    a ∈ m.assignments ↔ m.entry a.profileId a.control = a.actions ∧ a.actions ≠ [] := by
  unfold entry
  constructor
  · intro mem
    rw [(find_iff keys a).1 mem]
    exact ⟨rfl, present a mem⟩
  · rintro ⟨entry, filled⟩
    cases found : m.assignments.find? fun b =>
        b.profileId = a.profileId ∧ b.control = a.control with
    | none =>
      rw [found] at entry
      exact absurd entry.symm filled
    | some b =>
      rw [found] at entry
      have same : b.profileId = a.profileId ∧ b.control = a.control := by
        simpa using List.find?_some found
      rw [← Assignment.ext_key (Prod.ext same.1 same.2) entry]
      exact List.mem_of_find?_eq_some found

variable [UuidCrate]

/-- The database holds the content of the memory repository under the ids that `ρ` gives; the ids
of the profiles are among `used`. -/
structure SameStore (ρ : Equiv.Perm Uuid) (used : List Uuid) (m : MemoryRepository) (db : Db) : Prop
    where
  profiles : List.Forall₂ Encodes (m.profiles.map (Profile.relabel ρ)) db.profiles
  drawn : ∀ profile ∈ m.profiles, profile.id.uuid ∈ used
  oneActive : db.OneActive
  keys : (m.assignments.map Assignment.key).Nodup
  present : ∀ a ∈ m.assignments, a.actions ≠ []
  assignments : ∃ map, db.Represents map ∧ ∀ profileId control,
    map.entry (profileId.relabel ρ, control) = m.entry profileId control

/-- The stores hold the same, and the same was recorded. -/
structure SameState (ρ : Equiv.Perm Uuid) (used : List Uuid) (s₁ : Recorded MemoryRepository)
    (s₂ : Recorded Db) : Prop where
  store : SameStore ρ used s₁.store s₂.store
  opened : s₂.opened = s₁.opened
  events : s₂.events = s₁.events.map (CoreEvent.relabel ρ)

end Relation

/-! ## One call -/

section Calls

variable [UuidCrate] [UrlCrate] [RusqliteCrate] {ρ : Equiv.Perm Uuid} {used : List Uuid}
  {m : MemoryRepository} {db : Db} {env : ℕ → SqlChoice}

/-- Both stores answer a call in the same way and still hold the same. -/
structure Answers {α β : Type} (ρ : Equiv.Perm Uuid) (used : List Uuid) (R : α → β → Prop)
    (x : Except AppError α × MemoryRepository) (y : Except AppError β × Db) : Prop where
  outcome : SameOutcome R x.1 y.1
  store : SameStore ρ used x.2 y.2

/-- No statement fails. -/
def QuietSql (env : ℕ → SqlChoice) : Prop := ∀ n, (env n).failure = none

omit [UuidCrate] [UrlCrate] [RusqliteCrate] in
theorem QuietSql.not_faulty (quiet : QuietSql env) (error : SqlError) : ¬ Faulty env error := by
  rintro ⟨n, text, failure, -⟩
  rw [quiet n] at failure
  cases failure

/-- A region that draws no id does what it is meant to do. -/
theorem SameStore.does (hp : UuidCrate.ParseInverts) (h : SameStore ρ used m db)
    (quiet : QuietSql env) (r : Region)
    (stores : r ≠ .ensureDefaultProfile ∧ ∀ profile, r ≠ .insertProfile profile) :
    r.Does db (r.exec env db).1 (r.exec env db).2 := by
  obtain ⟨map, represents, -⟩ := h.assignments
  rcases r.outcome env db with ⟨error, fails, -, -⟩ | does
  · rcases fails.draws hp represents (quiet.not_faulty _) with same | ⟨profile, same⟩
    · exact absurd same stores.1
    · exact absurd same (stores.2 profile)
  · exact does

omit [RusqliteCrate] in
theorem SameStore.knows_iff (hp : UuidCrate.ParseInverts) (h : SameStore ρ used m db)
    (profileId : ProfileId) :
    m.knows profileId = true ↔ db.HasProfile (profileId.relabel ρ) := by
  rw [hasProfile_iff hp h.profiles, MemoryRepository.knows, List.any_eq_true]
  constructor
  · rintro ⟨profile, mem, same⟩
    refine ⟨profile.relabel ρ, List.mem_map_of_mem mem, ?_⟩
    rw [Profile.relabel_id, of_decide_eq_true same]
  · rintro ⟨_, mem, same⟩
    obtain ⟨profile, mem', rfl⟩ := List.mem_map.1 mem
    exact ⟨profile, mem', decide_eq_true (ProfileId.relabel_inj.1 same)⟩

theorem SameStore.listProfiles (hp : UuidCrate.ParseInverts) (h : SameStore ρ used m db)
    (quiet : QuietSql env) : Answers ρ used (fun ps qs => (ps.map (Profile.relabel ρ)).Perm qs)
      (.ok m.profiles, m) (Region.exec env .listProfiles db) := by
  have does := h.does hp quiet .listProfiles ⟨nofun, nofun⟩
  generalize Region.exec env .listProfiles db = ended at does ⊢
  obtain ⟨result, db'⟩ := ended
  cases does with
  | profilesListed decoded => exact ⟨.ok (listed_perm hp h.profiles decoded), h⟩

omit [RusqliteCrate] in
/-- The profiles are changed in the same way on both sides. -/
theorem SameStore.map_profiles (h : SameStore ρ used m db) {db' : Db} (f : Profile → Profile)
    (g : ProfileRow → ProfileRow) (id_eq : ∀ profile, (f profile).id = profile.id)
    (encodes : ∀ profile row, Encodes (profile.relabel ρ) row →
      Encodes ((f profile).relabel ρ) (g row)) (profiles : db'.profiles = db.profiles.map g)
    (assignments : db'.assignments = db.assignments) (readable : db'.Readable)
    (one : db'.OneActive) : SameStore ρ used { m with profiles := m.profiles.map f } db' := by
  obtain ⟨map, represents, entries⟩ := h.assignments
  refine ⟨?_, fun profile mem => ?_, one, h.keys, h.present, map,
    represents.of_assignments readable assignments, entries⟩
  · have stored := h.profiles
    rw [List.forall₂_map_left_iff] at stored
    rw [profiles, List.map_map, List.forall₂_map_left_iff, List.forall₂_map_right_iff]
    exact stored.imp fun profile row => encodes profile row
  · obtain ⟨profile', mem', rfl⟩ := List.mem_map.1 mem
    rw [id_eq]
    exact h.drawn profile' mem'

theorem SameStore.setActiveProfile (hp : UuidCrate.ParseInverts) (h : SameStore ρ used m db)
    (quiet : QuietSql env) (profileId : ProfileId) : Answers ρ used (fun _ _ => True)
      (m.setActiveProfile profileId)
      (Region.exec env (.setActiveProfile (profileId.relabel ρ)) db) := by
  have does := h.does hp quiet (.setActiveProfile (profileId.relabel ρ)) ⟨nofun, nofun⟩
  generalize Region.exec env (.setActiveProfile (profileId.relabel ρ)) db = ended at does ⊢
  obtain ⟨result, db'⟩ := ended
  have one := does.oneActive h.oneActive
  have readable := does.readable hp h.assignments.choose_spec.1.readable
  unfold MemoryRepository.setActiveProfile
  cases does with
  | activated known present profiles assignments =>
    rw [(h.knows_iff hp profileId).2 known]
    refine ⟨.ok trivial, h.map_profiles _ _ (fun _ => rfl) (fun profile row encodes => ?_) profiles
      assignments readable one⟩
    have same := encodes.id_iff hp (profileId.relabel ρ)
    rw [Profile.relabel_id, ProfileId.relabel_inj] at same
    refine ⟨encodes.id, encodes.name, ?_⟩
    by_cases eq : profile.id = profileId
    · simp [same, eq]
    · simp [same, eq]
  | notActivated unknown =>
    rw [Bool.eq_false_iff.2 (mt (h.knows_iff hp profileId).1 unknown)]
    exact ⟨.error _, h⟩
  | noneActive known missing =>
    have active := h.oneActive
    unfold Db.OneActive at active
    rw [missing] at active
    cases active

omit [RusqliteCrate] in
/-- The assignments of a control are replaced on both sides. -/
theorem SameStore.replace (h : SameStore ρ used m db) {db' : Db} {profileId : ProfileId}
    {control : ControlId} (extra : Option Assignment)
    (own : ∀ a ∈ extra, a.key = (profileId, control)) (present : ∀ a ∈ extra, a.actions ≠ [])
    (profiles : db'.profiles = db.profiles) (represents : ∀ map, db.Represents map →
      db'.Represents (map.put (profileId.relabel ρ, control)
        ((extra.map Assignment.actions).getD []))) :
    SameStore ρ used (m.replace profileId control extra) db' := by
  obtain ⟨map, represented, entries⟩ := h.assignments
  refine ⟨profiles ▸ h.profiles, h.drawn, ?_, MemoryRepository.keys_replace h.keys own,
    fun a mem => ?_, _, represents map represented, fun profileId' control' => ?_⟩
  · have one := h.oneActive
    unfold Db.OneActive Tables.activeProfiles at one ⊢
    rw [profiles]
    exact one
  · rcases List.mem_append.1 mem with mem | mem
    · exact h.present a (List.mem_filter.1 mem).1
    · exact present a (Option.mem_toList.1 mem)
  · rw [ListMap.entry_put, m.entry_replace own, entries]
    simp only [Prod.mk.injEq, ProfileId.relabel_inj]

theorem SameStore.saveAssignment (hp : UuidCrate.ParseInverts) (h : SameStore ρ used m db)
    (quiet : QuietSql env) {a : Assignment} (present : a.actions ≠ []) :
    Answers ρ used (fun _ _ => True) (m.saveAssignment a)
      (Region.exec env (.saveAssignment (a.relabel ρ)) db) := by
  have does := h.does hp quiet (.saveAssignment (a.relabel ρ)) ⟨nofun, nofun⟩
  generalize Region.exec env (.saveAssignment (a.relabel ρ)) db = ended at does ⊢
  obtain ⟨result, db'⟩ := ended
  have represents (map : AssignmentMap) (held : db.Represents map) := does.represents hp held
  unfold MemoryRepository.saveAssignment
  cases does with
  | assignmentSaved known profiles =>
    rw [(h.knows_iff hp a.profileId).2 known]
    refine ⟨.ok trivial, h.replace (some a) (fun b mem => ?_) (fun b mem => ?_) profiles
      represents⟩
    · rw [← Option.some.inj mem]
      rfl
    · rw [← Option.some.inj mem]
      exact present
  | assignmentNotSaved unknown =>
    rw [Bool.eq_false_iff.2 (mt (h.knows_iff hp a.profileId).1 unknown)]
    exact ⟨.error _, h⟩

theorem SameStore.clearAssignment (hp : UuidCrate.ParseInverts) (h : SameStore ρ used m db)
    (quiet : QuietSql env) (profileId : ProfileId) (control : ControlId) :
    Answers ρ used (fun _ _ => True) (m.clearAssignment profileId control)
      (Region.exec env (.clearAssignment (profileId.relabel ρ) control) db) := by
  have does := h.does hp quiet (.clearAssignment (profileId.relabel ρ) control) ⟨nofun, nofun⟩
  generalize Region.exec env (.clearAssignment (profileId.relabel ρ) control) db = ended at does ⊢
  obtain ⟨result, db'⟩ := ended
  have represents (map : AssignmentMap) (held : db.Represents map) := does.represents hp held
  unfold MemoryRepository.clearAssignment
  cases does with
  | assignmentCleared known profiles =>
    rw [(h.knows_iff hp profileId).2 known]
    have replaced := h.replace none nofun nofun profiles represents
    unfold MemoryRepository.replace at replaced
    rw [Option.toList_none, List.append_nil] at replaced
    exact ⟨.ok trivial, replaced⟩
  | assignmentNotCleared unknown =>
    rw [Bool.eq_false_iff.2 (mt (h.knows_iff hp profileId).1 unknown)]
    exact ⟨.error _, h⟩

omit [RusqliteCrate] in
/-- The assignments of a snapshot are those in memory, in some order. -/
theorem SameStore.assignments_perm (h : SameStore ρ used m db) {listed : List Assignment}
    (lists : ∀ map, db.Represents map → Lists listed map) :
    (m.assignments.map (Assignment.relabel ρ)).Perm listed := by
  obtain ⟨map, represents, entries⟩ := h.assignments
  obtain ⟨nodup, mem_iff⟩ := lists map represents
  have inj : Function.Injective (Assignment.relabel ρ) := by
    intro a b same
    obtain ⟨id, control, actions⟩ := Assignment.mk.inj same
    exact Assignment.ext_key (Prod.ext (ProfileId.relabel_inj.1 id) control) actions
  apply (List.perm_ext_iff_of_nodup (h.keys.of_map.map inj) nodup.of_map).2
  intro a
  obtain ⟨a, rfl⟩ : ∃ b : Assignment, b.relabel ρ = a := by
    refine ⟨{ a with profileId := ⟨ρ.symm a.profileId.uuid⟩ }, ?_⟩
    simp [Assignment.relabel, ProfileId.relabel]
  rw [List.mem_map_of_injective inj, MemoryRepository.mem_iff h.keys h.present, mem_iff,
    map.eq_value_entry, ListMap.map_val_value]
  simp only [Assignment.relabel_profileId, Assignment.relabel_control, entries,
    Assignment.relabel_actions]
  split_ifs with empty
  · rw [empty]
    exact ⟨fun ⟨same, filled⟩ => absurd same.symm filled, nofun⟩
  · rw [Option.some.injEq]
    exact ⟨fun h => h.1, fun same => ⟨same, same ▸ empty⟩⟩

theorem SameStore.loadSnapshotState (hp : UuidCrate.ParseInverts) (h : SameStore ρ used m db)
    (quiet : QuietSql env) : Answers ρ used (fun (state state' : SnapshotState) =>
        (state.profiles.map (Profile.relabel ρ)).Perm state'.profiles ∧
          (state.assignments.map (Assignment.relabel ρ)).Perm state'.assignments)
      (.ok ⟨m.profiles, m.assignments⟩, m)
      (Region.exec env .loadSnapshotState db) := by
  have does := h.does hp quiet .loadSnapshotState ⟨nofun, nofun⟩
  generalize Region.exec env .loadSnapshotState db = ended at does ⊢
  obtain ⟨result, db'⟩ := ended
  cases does with
  | snapshotLoaded decoded decodedRows =>
    have perm := h.assignments_perm fun map represents => represents.snapshot hp decodedRows
    exact ⟨.ok ⟨listed_perm hp h.profiles decoded, perm⟩, h⟩

theorem SameStore.findAssignment (hp : UuidCrate.ParseInverts) (h : SameStore ρ used m db)
    (quiet : QuietSql env) (profileId : ProfileId) (control : ControlId) :
    Answers ρ used (fun found found' => found' = found.map (Assignment.relabel ρ))
      (m.findAssignment profileId control)
      (Region.exec env (.findAssignment (profileId.relabel ρ) control) db) := by
  have does := h.does hp quiet (.findAssignment (profileId.relabel ρ) control) ⟨nofun, nofun⟩
  obtain ⟨map, represents, entries⟩ := h.assignments
  generalize Region.exec env (.findAssignment (profileId.relabel ρ) control) db = ended at does ⊢
  obtain ⟨result, db'⟩ := ended
  obtain ⟨same, answer⟩ := does.found represents
  dsimp only at same answer
  subst same answer
  refine ⟨.ok ?_, h⟩
  have entry := entries profileId control
  rw [represents.assignmentMap_eq, map.eq_value_entry, entry]
  unfold MemoryRepository.entry ListMap.value
  cases found : m.assignments.find? fun a => a.profileId = profileId ∧ a.control = control with
  | none => rfl
  | some a =>
    have filled := h.present a (List.mem_of_find?_eq_some found)
    obtain ⟨rfl, rfl⟩ : a.profileId = profileId ∧ a.control = control := by
      simpa using List.find?_some found
    rw [Option.map_some, Option.getD_some, dif_neg filled]
    rfl

end Calls

end KeyroCore
