import KeyroCore.Data.Catalog
import KeyroCore.Storage.AssignmentMap
import KeyroCore.Storage.Profiles

/-!
# The store holds a catalog

The abstract content of the store: the names of the profiles, the active one, and the actions under
the controls of each profile.  A lock region answers what the catalog says, and changes the tables
as it changes the catalog.
-/

open Effect Program Fallible Results

namespace KeyroCore

/-- The profiles with their names, the active one, and the actions under their controls. -/
abbrev CoreCatalog [UrlCrate] := Catalog ProfileId ControlId Action

variable [UrlCrate]

/-! ## Listed profiles -/

/-- The profiles are those of the catalog, each once. -/
structure ListsProfiles (profiles : List Profile) (cat : CoreCatalog) : Prop where
  nodup : (profiles.map Profile.id).Nodup
  mem_iff : ∀ profile, profile ∈ profiles ↔ cat.name profile.id = some profile.name ∧
    profile.isActive = decide (profile.id = cat.active)

namespace ListsProfiles

variable {profiles : List Profile} {cat : CoreCatalog}

theorem perm (h : ListsProfiles profiles cat) {listed : List Profile}
    (perm : profiles.Perm listed) : ListsProfiles listed cat :=
  ⟨(perm.map Profile.id).nodup_iff.1 h.nodup, fun _ => perm.mem_iff.symm.trans (h.mem_iff _)⟩

theorem known_iff (h : ListsProfiles profiles cat) {id : ProfileId} :
    cat.Known id ↔ ∃ profile ∈ profiles, profile.id = id := by
  unfold Catalog.Known
  rw [Option.isSome_iff_exists]
  constructor
  · rintro ⟨name, named⟩
    exact ⟨⟨id, name, decide (id = cat.active)⟩, (h.mem_iff _).2 ⟨named, rfl⟩, rfl⟩
  · rintro ⟨profile, mem, rfl⟩
    exact ⟨_, ((h.mem_iff _).1 mem).1⟩

theorem create (h : ListsProfiles profiles cat) {id : ProfileId} (name : String)
    (fresh : ¬ cat.Known id) :
    ListsProfiles (profiles ++ [⟨id, name, false⟩]) (cat.create id name) := by
  have absent : ∀ profile ∈ profiles, profile.id ≠ id := by
    intro profile mem same
    exact fresh (h.known_iff.2 ⟨profile, mem, same⟩)
  have other : id ≠ cat.active := by
    rintro rfl
    exact fresh cat.active_known
  constructor
  · rw [List.map_append, List.nodup_append_comm]
    apply List.nodup_cons.2
    refine ⟨fun mem => ?_, h.nodup⟩
    obtain ⟨profile, mem, same⟩ := List.mem_map.1 mem
    exact absent profile mem same
  · intro profile
    rw [List.mem_append, List.mem_singleton, h.mem_iff, Catalog.name_create,
      Catalog.active_create]
    by_cases same : profile.id = id
    · rw [if_pos same, same, decide_eq_false other]
      have unnamed : cat.name id = none := Option.not_isSome_iff_eq_none.1 fresh
      obtain ⟨id', name', isActive⟩ := profile
      obtain rfl : id' = id := same
      simp [unnamed, eq_comm]
    · rw [if_neg same]
      apply or_iff_left
      rintro rfl
      exact same rfl

theorem rename (h : ListsProfiles profiles cat) {id : ProfileId} (name : String)
    (known : cat.Known id) :
    ListsProfiles (profiles.map fun profile =>
      if profile.id = id then { profile with name } else profile) (cat.rename id name) := by
  have ids : Profile.id ∘ (fun profile : Profile =>
      if profile.id = id then { profile with name } else profile) = Profile.id := by
    funext profile
    show Profile.id (if _ then _ else _) = _
    split_ifs <;> rfl
  rw [Catalog.rename_of_known known]
  constructor
  · rw [List.map_map, ids]
    exact h.nodup
  · intro profile
    rw [List.mem_map, Catalog.name_create, Catalog.active_create]
    constructor
    · rintro ⟨before, mem, rfl⟩
      have listed := (h.mem_iff before).1 mem
      split_ifs with same <;> simp_all
    · rintro ⟨named, active⟩
      by_cases same : profile.id = id
      · rw [if_pos same] at named
        obtain ⟨before, mem, id_eq⟩ := h.known_iff.1 known
        have listed := (h.mem_iff before).1 mem
        refine ⟨before, mem, ?_⟩
        rw [if_pos id_eq]
        obtain ⟨id', name', isActive⟩ := profile
        obtain rfl : id' = id := same
        simp_all
      · rw [if_neg same] at named
        exact ⟨profile, (h.mem_iff _).2 ⟨named, active⟩, if_neg same⟩

theorem activate (h : ListsProfiles profiles cat) {id : ProfileId} (known : cat.Known id) :
    ListsProfiles (profiles.map fun profile => { profile with isActive := decide (profile.id = id) })
      (cat.activate id) := by
  constructor
  · rw [List.map_map]
    exact h.nodup
  · intro profile
    rw [List.mem_map, Catalog.name_activate, Catalog.active_activate known]
    constructor
    · rintro ⟨before, mem, rfl⟩
      exact ⟨((h.mem_iff before).1 mem).1, rfl⟩
    · rintro ⟨named, active⟩
      refine ⟨⟨profile.id, profile.name, decide (profile.id = cat.active)⟩,
        (h.mem_iff _).2 ⟨named, rfl⟩, ?_⟩
      rw [← active]

theorem put (h : ListsProfiles profiles cat) (id : ProfileId) (control : ControlId)
    (actions : List Action) : ListsProfiles profiles (cat.put id control actions) := by
  refine ⟨h.nodup, fun profile => ?_⟩
  rw [Catalog.name_put, Catalog.active_put, h.mem_iff]

/-- Exactly one of the listed profiles is active. -/
theorem ensure (h : ListsProfiles profiles cat) : ensureExactlyOneActive profiles = .ok () := by
  rw [ensureExactlyOneActive_ok_iff]
  obtain ⟨active, mem, id_eq⟩ := h.known_iff.1 cat.active_known
  have unique : (profiles.filter fun profile => profile.isActive) =
      profiles.filter fun profile => profile.id = active.id := by
    apply List.filter_congr
    intro profile mem
    rw [((h.mem_iff profile).1 mem).2, id_eq]
  rw [unique, ← List.countP_eq_length_filter]
  have count := List.count_eq_one_of_mem h.nodup (List.mem_map_of_mem mem)
  rw [List.count, List.countP_map] at count
  exact count

end ListsProfiles

/-! ## Regions on a catalog -/

/-- The catalog after a region that ended with the given result. -/
def Region.catalogAfter : (r : Region) → Except AppError r.Value → CoreCatalog → CoreCatalog
  | .insertProfile profile, .ok _, cat => cat.create profile.id profile.name
  | .updateProfileName profileId name, .ok _, cat => cat.rename profileId name
  | .setActiveProfile profileId, .ok _, cat => cat.activate profileId
  | .saveAssignment a, .ok _, cat => cat.put a.profileId a.control a.actions
  | .clearAssignment profileId control, .ok _, cat => cat.put profileId control []
  | _, _, cat => cat

/-- A write to a profile succeeds if the profile is known. -/
def ifKnown (cat : CoreCatalog) (profileId : ProfileId) : Except AppError Unit :=
  if cat.Known profileId then .ok () else .error .profileNotFound

/-- What a region answers on a catalog when no storage error stops it. -/
def Region.Answers : (r : Region) → CoreCatalog → Except AppError r.Value → Prop
  | .ensureDefaultProfile, cat, x => ∃ profile, x = .ok profile ∧ profile.id = cat.active ∧
      cat.name profile.id = some profile.name ∧ profile.isActive = true
  | .insertProfile profile, cat, x => x = .ok () ∧ ¬ cat.Known profile.id
  | .listProfiles, cat, x => ∃ profiles, x = .ok profiles ∧ ListsProfiles profiles cat
  | .updateProfileName profileId _, cat, x | .setActiveProfile profileId, cat, x
  | .clearAssignment profileId _, cat, x => x = ifKnown cat profileId
  | .saveAssignment a, cat, x => x = ifKnown cat a.profileId
  | .loadSnapshotState, cat, x => ∃ state, x = .ok state ∧ ListsProfiles state.profiles cat ∧
      Lists state.assignments cat.entries
  | .findAssignment profileId control, cat, x => x = .ok ((cat.entries (profileId, control)).map
      fun actions => { profileId, control, actions := actions.1 })

section Store

variable [UuidCrate] {db db' : Db} {cat : CoreCatalog}

/-- The tables hold the catalog. -/
structure Db.Holds (db : Db) (cat : CoreCatalog) : Prop where
  profiles : ∃ profiles, List.Forall₂ Encodes profiles db.profiles ∧ ListsProfiles profiles cat
  assignments : db.Represents cat.entries

theorem Db.Holds.known_iff (hp : UuidCrate.ParseInverts) (h : db.Holds cat)
    (profileId : ProfileId) : db.HasProfile profileId ↔ cat.Known profileId := by
  obtain ⟨profiles, stored, lists⟩ := h.profiles
  rw [hasProfile_iff hp stored, lists.known_iff]

theorem Db.Holds.lists (hp : UuidCrate.ParseInverts) (h : db.Holds cat) {profiles : List Profile}
    (decoded : db.orderedProfiles.mapM decodeProfile = .ok profiles) :
    ListsProfiles profiles cat := by
  obtain ⟨profiles', stored, lists⟩ := h.profiles
  exact lists.perm (listed_perm hp stored decoded)

/-- The active profile has an active row. -/
theorem Db.Holds.exists_active (h : db.Holds cat) : db.activeProfiles ≠ [] := by
  obtain ⟨profiles, stored, lists⟩ := h.profiles
  obtain ⟨profile, mem, same⟩ := lists.known_iff.1 cat.active_known
  have active : profile.isActive = true := by
    rw [((lists.mem_iff profile).1 mem).2, same, decide_eq_true rfl]
  obtain ⟨row, hr, encodes⟩ := exists_of_forall₂ stored mem
  exact List.ne_nil_of_mem (List.mem_filter.2 ⟨hr, decide_eq_true (encodes.active_iff.2 active)⟩)

/-- The profiles are changed in the tables as they are in the catalog. -/
theorem Db.Holds.map_profiles (h : db.Holds cat) {cat' : CoreCatalog} {f : Profile → Profile}
    {g : ProfileRow → ProfileRow} (encodes : ∀ profile row, Encodes profile row →
      Encodes (f profile) (g row)) (profiles : db'.profiles = db.profiles.map g)
    (lists : ∀ profiles, ListsProfiles profiles cat → ListsProfiles (profiles.map f) cat')
    (assignments : db'.Represents cat'.entries) : db'.Holds cat' := by
  obtain ⟨listed, stored, lists'⟩ := h.profiles
  refine ⟨⟨listed.map f, ?_, lists listed lists'⟩, assignments⟩
  rw [profiles, List.forall₂_map_left_iff, List.forall₂_map_right_iff]
  exact stored.imp encodes

/-- The new row of an inserted profile is that of an unknown id. -/
theorem Db.Holds.insert (h : db.Holds cat) {profile : Profile}
    {now : String} (profiles : db'.profiles = db.profiles ++ [profileRow profile 0 now])
    (assignments : db'.Represents cat.entries) :
    ¬ cat.Known profile.id ∧ db'.Holds (cat.create profile.id profile.name) := by
  obtain ⟨listed, stored, lists⟩ := h.profiles
  have encodes : Encodes ⟨profile.id, profile.name, false⟩ (profileRow profile 0 now) :=
    ⟨rfl, rfl, rfl⟩
  have stored' : List.Forall₂ Encodes (listed ++ [⟨profile.id, profile.name, false⟩])
      db'.profiles := by
    rw [profiles]
    exact List.rel_append stored (.cons encodes .nil)
  have fresh : ¬ cat.Known profile.id := by
    rw [lists.known_iff]
    rintro ⟨known, mem, same⟩
    have nodup := nodup_ids stored'
    rw [List.map_append, List.nodup_append] at nodup
    exact nodup.2.2 _ (List.mem_map_of_mem mem) _ (List.mem_singleton_self _) same
  exact ⟨fresh, ⟨_, stored', lists.create profile.name fresh⟩, assignments⟩

/-- The active row holds the active profile. -/
theorem Db.Holds.active (hp : UuidCrate.ParseInverts) (h : db.Holds cat) {row : ProfileRow}
    {profile : Profile} (mem : row ∈ db.activeProfiles) (decoded : decodeProfile row = .ok profile) :
    profile.id = cat.active ∧ cat.name profile.id = some profile.name ∧
      profile.isActive = true := by
  obtain ⟨profiles, stored, lists⟩ := h.profiles
  obtain ⟨hr, active⟩ := List.mem_filter.1 mem
  obtain ⟨listed, mem', encodes⟩ := exists_of_forall₂ stored.flip hr
  rw [encodes.decode hp] at decoded
  obtain rfl := Except.ok.inj decoded
  obtain ⟨named, isActive⟩ := (lists.mem_iff _).1 mem'
  have active := encodes.active_iff.1 (of_decide_eq_true active)
  exact ⟨of_decide_eq_true (isActive ▸ active), named, active⟩

theorem Db.Holds.put (h : db.Holds cat) {profileId : ProfileId} {control : ControlId}
    {actions : List Action} (known : cat.Known profileId) (profiles : db'.profiles = db.profiles)
    (represents : db'.Represents (cat.entries.put (profileId, control) actions)) :
    db'.Holds (cat.put profileId control actions) := by
  obtain ⟨listed, stored, lists⟩ := h.profiles
  refine ⟨⟨listed, profiles ▸ stored, lists.put _ _ _⟩, ?_⟩
  rw [Catalog.entries_put known]
  exact represents

/-- A region that no storage error stops answers what the catalog says, and leaves the tables with
the catalog after it. -/
theorem Region.Does.holds (hp : UuidCrate.ParseInverts) {r : Region}
    {x : Except AppError r.Value} (does : Does r db x db') (h : db.Holds cat) :
    r.Answers cat x ∧ db'.Holds (r.catalogAfter x cat) := by
  have represents := does.represents hp h.assignments
  have known := h.known_iff hp
  have active := h.exists_active
  cases does with
  | defaultPresent present decoded =>
    exact ⟨⟨_, rfl, h.active hp (present ▸ List.mem_cons_self ..) decoded⟩, h⟩
  | defaultInserted missing => exact absurd missing active
  | profileInserted profiles =>
    obtain ⟨fresh, holds⟩ := h.insert profiles represents
    exact ⟨⟨rfl, fresh⟩, holds⟩
  | profilesListed decoded => exact ⟨⟨_, rfl, h.lists hp decoded⟩, h⟩
  | @nameUpdated _ _ profileId name hasProfile profiles =>
    refine ⟨(if_pos ((known _).1 hasProfile)).symm, ?_⟩
    refine h.map_profiles (fun profile row encodes => ?_) profiles
      (fun _ lists => lists.rename name ((known _).1 hasProfile)) ?_
    · simp only [encodes.id_iff hp]
      split_ifs
      · exact ⟨encodes.id, rfl, encodes.isActive⟩
      · exact encodes
    · rw [Region.catalogAfter, Catalog.rename_of_known ((known _).1 hasProfile)]
      exact represents
  | nameNotUpdated unknown => exact ⟨(if_neg (mt (known _).2 unknown)).symm, h⟩
  | @activated _ _ profileId hasProfile present profiles =>
    refine ⟨(if_pos ((known _).1 hasProfile)).symm, ?_⟩
    refine h.map_profiles (fun profile row encodes => ?_) profiles
      (fun _ lists => lists.activate ((known _).1 hasProfile)) ?_
    · refine ⟨encodes.id, encodes.name, ?_⟩
      simp only [encodes.id_iff hp, decide_eq_true_eq]
    · rw [Region.catalogAfter, Catalog.entries_activate]
      exact represents
  | notActivated unknown => exact ⟨(if_neg (mt (known _).2 unknown)).symm, h⟩
  | noneActive _ missing => exact absurd missing active
  | assignmentSaved hasProfile profiles =>
    have known := (known _).1 hasProfile
    exact ⟨(if_pos known).symm, h.put known profiles represents⟩
  | assignmentNotSaved unknown => exact ⟨(if_neg (mt (known _).2 unknown)).symm, h⟩
  | assignmentCleared hasProfile profiles =>
    have known := (known _).1 hasProfile
    exact ⟨(if_pos known).symm, h.put known profiles represents⟩
  | assignmentNotCleared unknown => exact ⟨(if_neg (mt (known _).2 unknown)).symm, h⟩
  | snapshotLoaded decoded decodedRows =>
    exact ⟨⟨_, rfl, h.lists hp decoded, h.assignments.snapshot hp decodedRows⟩, h⟩
  | assignmentLookedUp decoded => exact ⟨congrArg _ (h.assignments.find decoded), h⟩

/-- The store with a single profile. -/
theorem Db.holds_single (hp : UuidCrate.ParseInverts) {profile : Profile} {now : String}
    (isActive : profile.isActive = true) (profiles : db.profiles = [profileRow profile 1 now])
    (assignments : db.assignments = []) :
    db.Holds (Catalog.single profile.id profile.name) := by
  have encodes : Encodes profile (profileRow profile 1 now) := by
    refine ⟨rfl, rfl, ?_⟩
    rw [isActive]
    rfl
  refine ⟨⟨[profile], ?_, List.nodup_singleton _, fun other => ?_⟩, ?_⟩
  · rw [profiles]
    exact .cons encodes .nil
  · obtain ⟨id, name, _⟩ := profile
    obtain ⟨id', name', isActive'⟩ := other
    obtain rfl : _ = true := isActive
    rw [List.mem_singleton, Catalog.single]
    dsimp only
    rw [Function.update_apply]
    by_cases same : id' = id
    · simp [same, eq_comm]
    · simp [same]
  · refine Db.represents_empty.of_assignments (fun row hr => ?_) assignments
    rw [profiles, List.mem_singleton] at hr
    exact ⟨profile, hr ▸ encodes.decode hp⟩

end Store

/-! ## Operations of Core -/

/-- The catalog after an operation of Core. -/
def afterAct (cat : CoreCatalog) : Act CoreCalls → CoreCatalog
  | ⟨.lock r, x⟩ => r.catalogAfter x cat
  | _ => cat

/-- A lock region is stopped by a storage error or answers what the catalog says. -/
def AnswersAct (cat : CoreCatalog) : Act CoreCalls → Prop
  | ⟨.lock r, x⟩ => (∃ text, x = .error (.storage text)) ∨ r.Answers cat x
  | _ => True

theorem catalogAfter_error (r : Region) (error : AppError) (cat : CoreCatalog) :
    r.catalogAfter (.error error) cat = cat := by
  cases r <;> rfl

/-- A profile that is known stays known. -/
theorem known_afterAct {cat : CoreCatalog} {id : ProfileId} (h : cat.Known id) (a : Act CoreCalls) :
    (afterAct cat a).Known id := by
  obtain ⟨o, x⟩ := a
  cases o with
  | lock r =>
    rcases x with error | value
    · show (r.catalogAfter (.error error) cat).Known id
      rw [catalogAfter_error]
      exact h
    · cases r with
      | insertProfile profile => exact h.create _ _
      | updateProfileName profileId name => exact h.rename _ _
      | setActiveProfile profileId => exact h.activate _
      | saveAssignment a => exact h.put _ _ _
      | clearAssignment profileId control => exact h.put _ _ _
      | _ => exact h
  | _ => exact h

section Runs

variable [UuidCrate] [RusqliteCrate]

theorem holds_coreHandler (hp : UuidCrate.ParseInverts) (input : CoreInput) (o : CoreOp) {db : Db}
    {cat : CoreCatalog} (h : db.Holds cat) :
    (coreHandler input o db).2.Holds (afterAct cat ⟨o, (coreHandler input o db).1⟩) ∧
      AnswersAct cat ⟨o, (coreHandler input o db).1⟩ := by
  cases o with
  | lock r =>
    show (r.exec input.sql db).2.Holds (r.catalogAfter (r.exec input.sql db).1 cat) ∧
      ((∃ text, (r.exec input.sql db).1 = .error (.storage text)) ∨
        r.Answers cat (r.exec input.sql db).1)
    rcases Region.outcome input.sql r db with ⟨error, -, failed, same⟩ | does
    · rw [failed, same, catalogAfter_error]
      exact ⟨h, .inl ⟨_, rfl⟩⟩
    · obtain ⟨answers, holds⟩ := does.holds hp h
      exact ⟨holds, .inr answers⟩
  | _ => exact ⟨h, trivial⟩

/-- A fresh store that has been initialized holds the default profile. -/
theorem holds_afterInitialize (hp : UuidCrate.ParseInverts) {inputs : ℕ → CoreInput}
    {profile : Profile} (initialized : (afterInitialize inputs .empty).1 = .ok profile) :
    (afterInitialize inputs .empty).2.Holds (Catalog.single profile.id profile.name) := by
  suffices h : Ends (timed coreHandler inputs) coreService.initializeCore (.empty, 0)
      fun result s => ∀ profile, result = .ok profile →
        s.1.Holds (Catalog.single profile.id profile.name) from h profile initialized
  unfold CoreService.initializeCore
  rw [ends_bind_iff]
  refine ends_lock fun x db₁ outcome => ?_
  rcases x with error | profile
  · exact fun _ h => by cases h
  have holds : db₁.Holds (Catalog.single profile.id profile.name) := by
    rcases outcome with ⟨_, -, ⟨⟩, -⟩ | does
    cases does with
    | defaultPresent active => cases active
    | defaultInserted missing isActive name profiles assignments =>
      exact Db.holds_single hp isActive profiles assignments
  dsimp only
  rw [ends_bind_iff]
  refine ends_lock fun x db₂ outcome => ?_
  rcases x with error | profiles
  · exact fun _ h => by cases h
  rcases outcome with ⟨_, -, ⟨⟩, -⟩ | does
  cases does with
  | profilesListed decoded =>
    dsimp only
    rw [ends_bind_iff]
    refine ends_domain (fun _ _ _ h => by cases h) fun _ _ => ?_
    rintro _ ⟨⟩
    exact holds

end Runs

end KeyroCore
