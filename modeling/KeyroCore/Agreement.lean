import KeyroCore.Ipc.Convert
import KeyroCore.Reference
import KeyroCore.Simulation

/-!
# The services over both stores agree

Every method of the repository, every part of a command and every command gives the same outcome
over both stores, up to the renaming of ids and the order of lists, and so does every sequence of
commands after `initialize`.
-/

open Effect Program Fallible Results

namespace KeyroCore

section Stores

variable [UuidCrate] [UrlCrate] [RusqliteCrate] {ρ : Equiv.Perm Uuid} {used : List Uuid}

/-! ## Methods of the repository -/

section Methods

variable {m : MemoryRepository} {db : Db} {env : ℕ → SqlChoice}

omit [RusqliteCrate] in
/-- A profile that is found by its id in memory is found in the database. -/
theorem SameStore.find_listed (h : SameStore ρ used m db) {listed : List Profile}
    (perm : (m.profiles.map (Profile.relabel ρ)).Perm listed) (profileId : ProfileId) :
    (listed.find? fun profile => profile.id = profileId.relabel ρ) =
      (m.profiles.find? fun profile => profile.id = profileId).map (Profile.relabel ρ) := by
  cases found : m.profiles.find? fun profile => profile.id = profileId with
  | none =>
    apply List.find?_eq_none.2
    intro profile' mem
    obtain ⟨profile, stored, rfl⟩ := List.mem_map.1 (perm.mem_iff.2 mem)
    have apart := List.find?_eq_none.1 found profile stored
    simpa [ProfileId.relabel_inj] using apart
  | some profile =>
    have same : profile.id = profileId := by simpa using List.find?_some found
    have mem := List.mem_map_of_mem (f := Profile.relabel ρ) (List.mem_of_find?_eq_some found)
    have unique := (perm.map Profile.id).nodup (nodup_ids h.profiles)
    apply Rows.find?_of_unique (perm.mem_iff.1 mem)
      (decide_eq_true (congrArg (ProfileId.relabel ρ) same))
    intro other mem' same'
    apply List.inj_on_of_nodup_map unique mem' (perm.mem_iff.1 mem)
    rw [of_decide_eq_true same', Profile.relabel_id, same]

omit [RusqliteCrate] in
theorem SameStore.unique (h : SameStore ρ used m db) : (m.profiles.map Profile.id).Nodup := by
  have unique := nodup_ids h.profiles
  rw [List.map_map] at unique
  apply List.Nodup.of_map (ProfileId.relabel ρ)
  rw [List.map_map]
  exact unique

omit [UuidCrate] [UrlCrate] [RusqliteCrate] in
/-- Replacing the first profile with the id renames every profile with the id. -/
theorem replaceF_eq_map {profiles : List Profile} (unique : (profiles.map Profile.id).Nodup)
    {profileId : ProfileId} {profile : Profile} {name : String}
    (found : (profiles.find? fun p => p.id = profileId) = some profile) :
    (profiles.replaceF fun p => if p.id = profileId then some { profile with name } else none) =
      profiles.map fun p => if p.id = profileId then { p with name } else p := by
  induction profiles with
  | nil => rfl
  | cons head rest ih =>
    rw [List.map_cons, List.nodup_cons] at unique
    rw [List.map_cons, List.replaceF_cons]
    by_cases same : head.id = profileId
    · rw [List.find?_cons_of_pos (by simpa using same), Option.some.injEq] at found
      have others : ∀ p ∈ rest, (if p.id = profileId then { p with name } else p) = p := by
        intro p mem
        apply if_neg
        intro eq
        exact unique.1 (same.trans eq.symm ▸ List.mem_map_of_mem mem)
      subst found
      rw [if_pos same, if_pos same, List.map_congr_left others, List.map_id']
    · rw [List.find?_cons_of_neg (by simpa using same)] at found
      simp only [same, if_false, ih unique.2 found]

/-- The name of a stored profile is changed on both sides. -/
theorem SameStore.updateProfileName (hp : UuidCrate.ParseInverts) (h : SameStore ρ used m db)
    (quiet : QuietSql env) {profileId : ProfileId} {name : String}
    (known : m.knows profileId = true) : Answers ρ used (fun _ _ => True)
      (.ok (), { m with
        profiles := m.profiles.map fun p => if p.id = profileId then { p with name } else p })
      (Region.exec env (.updateProfileName (profileId.relabel ρ) name) db) := by
  have does := h.does hp quiet (.updateProfileName (profileId.relabel ρ) name) ⟨nofun, nofun⟩
  generalize Region.exec env (.updateProfileName (profileId.relabel ρ) name) db = ended at does ⊢
  obtain ⟨result, db'⟩ := ended
  have one := does.oneActive h.oneActive
  have readable := does.readable hp h.assignments.choose_spec.1.readable
  cases does with
  | nameUpdated _ profiles assignments =>
    refine ⟨.ok trivial, h.map_profiles _ _ (fun profile => ?_) (fun profile row encodes => ?_)
      profiles assignments readable one⟩
    · split <;> rfl
    · have same := encodes.id_iff hp (profileId.relabel ρ)
      rw [Profile.relabel_id, ProfileId.relabel_inj] at same
      by_cases eq : profile.id = profileId
      · rw [if_pos eq, if_pos (same.2 eq)]
        exact ⟨encodes.id, rfl, encodes.isActive⟩
      · rw [if_neg eq, if_neg (mt same.1 eq)]
        exact encodes
  | nameNotUpdated unknown => exact absurd ((h.knows_iff hp profileId).1 known) unknown

omit [RusqliteCrate] in
/-- A fresh profile is added on both sides. -/
theorem SameStore.append (h : SameStore ρ used m db) {db' : Db} {fresh : Uuid} {profile : Profile}
    {n : ℤ} {now : String} (id : profile.id.uuid = fresh)
    (encodes : Encodes (profile.relabel ρ) (profileRow (profile.relabel ρ) n now))
    (profiles : db'.profiles = db.profiles ++ [profileRow (profile.relabel ρ) n now])
    (assignments : db'.assignments = db.assignments) (readable : db'.Readable)
    (one : db'.OneActive) :
    SameStore ρ (fresh :: used) { m with profiles := m.profiles ++ [profile] } db' := by
  obtain ⟨map, represents, entries⟩ := h.assignments
  refine ⟨?_, fun other mem => ?_, one, h.keys, h.present, map,
    represents.of_assignments readable assignments, entries⟩
  · rw [profiles, List.map_append]
    exact List.rel_append h.profiles (.cons encodes .nil)
  · rcases List.mem_append.1 mem with mem | mem
    · exact List.mem_cons_of_mem _ (h.drawn other mem)
    · rw [List.mem_singleton.1 mem, id]
      exact List.mem_cons_self

/-- A fresh profile is inserted. -/
theorem SameStore.insertProfile (hp : UuidCrate.ParseInverts) (h : SameStore ρ used m db)
    (quiet : QuietSql env) {profile : Profile} {fresh : Uuid} (id : profile.id.uuid = fresh)
    (isActive : profile.isActive = false) (unused : fresh ∉ used) :
    Answers ρ (fresh :: used) (fun _ _ => True)
      (.ok (), { m with profiles := m.profiles ++ [profile] })
      (Region.exec env (.insertProfile (profile.relabel ρ)) db) := by
  have outcome := Region.outcome env (.insertProfile (profile.relabel ρ)) db
  generalize Region.exec env (.insertProfile (profile.relabel ρ)) db = ended at outcome ⊢
  obtain ⟨result, db'⟩ := ended
  rcases outcome with ⟨error, fails, -, -⟩ | does
  · cases fails with
    | fault faulty => exact absurd faulty (quiet.not_faulty error)
    | idTaken taken =>
      obtain ⟨_, mem, same⟩ := (hasProfile_iff hp h.profiles _).1 taken
      obtain ⟨other, stored, rfl⟩ := List.mem_map.1 mem
      have drawn := h.drawn other stored
      rw [ProfileId.relabel_inj.1 same, id] at drawn
      exact absurd drawn unused
  · have one := does.oneActive h.oneActive
    have readable := does.readable hp h.assignments.choose_spec.1.readable
    cases does with
    | profileInserted profiles assignments =>
      refine ⟨.ok trivial, h.append id ⟨rfl, rfl, ?_⟩ profiles assignments readable one⟩
      rw [Profile.relabel_isActive, isActive]
      rfl

/-- One method over both stores, under the inputs of one step. -/
def RelatedCalls (ρ : Equiv.Perm Uuid) (used : List Uuid) (input : StepInput) {α β : Type}
    (R : α → β → Prop) (p : Fallible (ServiceCalls MemoryCalls) AppError α)
    (q : Fallible (ServiceCalls RegionCalls) AppError β) : Prop :=
  Fallible.Related (recording memoryStore input) (recording sqliteStore (input.relabel ρ))
    (SameState ρ used) R p q

/-- A lock region next to a call of the memory repository. -/
theorem related_store {input : StepInput} {c : RepositoryCall} {r : Region}
    {R : c.Value → r.Value → Prop}
    (answers : ∀ m db env, SameStore ρ used m db → QuietSql env →
      Answers ρ used R (m.perform input.fresh c) (r.exec env db)) :
    RelatedCalls ρ used input R
      (ExceptT.mk (call (S := ServiceCalls MemoryCalls) (.store c)))
      (ExceptT.mk (call (S := ServiceCalls RegionCalls) (.store r))) := by
  intro s₁ s₂ same
  obtain ⟨outcome, store⟩ := answers s₁.store s₂.store
    (fun n => ⟨none, ρ input.fresh, input.now n⟩) same.store fun _ => rfl
  exact ⟨outcome, store, same.opened, same.events⟩

/-- A lock region at the head of a method, whose memory counterpart succeeds. -/
theorem ends_answered {input : StepInput} {r : Region} {α β : Type} {v : α} {R : α → r.Value → Prop}
    {f : r.Value → Fallible (ServiceCalls RegionCalls) AppError β} {s : Recorded Db}
    {Q : Except AppError β → Recorded Db → Prop}
    (answers : ∀ env, QuietSql env → Answers ρ used R (.ok v, m) (r.exec env s.store))
    (ok : ∀ v' db', R v v' → SameStore ρ used m db' →
      Ends (recording sqliteStore input) (f v') { s with store := db' } Q) :
    Ends (recording sqliteStore input)
      (ExceptT.mk (call (S := ServiceCalls RegionCalls) (.store r)) >>= f) s Q := by
  obtain ⟨outcome, store⟩ := answers (fun n => ⟨none, input.fresh, input.now n⟩) fun _ => rfl
  have answered : Ends (recording sqliteStore input)
      (ExceptT.mk (call (S := ServiceCalls RegionCalls) (.store r))) s fun result s' =>
        SameOutcome R (.ok v) result ∧ SameStore ρ used m s'.store ∧ s' = { s with store := s'.store } :=
    ⟨outcome, store, rfl⟩
  refine answered.bind (fun _ _ h => nomatch h.1) fun v' s' h => ?_
  obtain ⟨outcome, store, same⟩ := h
  rw [same]
  cases outcome with
  | ok related => exact ok v' s'.store related store

/-- `rename_profile` lists the profiles of the database, and updates the row of the one it finds. -/
theorem related_renameProfile (hp : UuidCrate.ParseInverts) {input : StepInput}
    (profileId : ProfileId) (name : String) :
    RelatedCalls ρ used input (fun profile profile' => profile' = profile.relabel ρ)
      (memoryService.repository.renameProfile profileId name)
      (sqliteService.repository.renameProfile (profileId.relabel ρ) name) := by
  intro s₁ s₂ same
  show Ends (recording sqliteStore (input.relabel ρ))
    (sqliteService.repository.renameProfile (profileId.relabel ρ) name) s₂ fun result s =>
      SameOutcome _ (s₁.store.renameProfile profileId name).1 result ∧
        SameState ρ used { s₁ with store := (s₁.store.renameProfile profileId name).2 } s
  refine ends_answered (fun env quiet => same.store.listProfiles hp quiet) fun listed db' perm h => ?_
  unfold MemoryRepository.renameProfile
  rw [same.store.find_listed perm]
  cases found : s₁.store.profiles.find? fun profile => profile.id = profileId with
  | none => exact ⟨.error _, h, same.opened, same.events⟩
  | some profile =>
    have id : profile.id = profileId := by simpa using List.find?_some found
    have known : s₁.store.knows profileId = true :=
      List.any_eq_true.2 ⟨profile, List.mem_of_find?_eq_some found, by simpa using id⟩
    dsimp only [Option.map_some]
    rw [Profile.relabel_rename]
    cases change : profile.rename name with
    | error error => exact ⟨.error _, h, same.opened, same.events⟩
    | ok renamed =>
      obtain ⟨-, rfl⟩ := Profile.rename_ok_iff.1 change
      show Ends _ (ExceptT.mk _ >>= _) _ _
      refine ends_answered (fun env quiet => h.updateProfileName hp quiet known) fun _ db' _ h' => ?_
      refine ⟨.ok rfl, ?_, same.opened, same.events⟩
      dsimp only
      rw [replaceF_eq_map same.store.unique found]
      exact h'

omit [RusqliteCrate] in
theorem SameStore.mono {used' : List Uuid} (h : SameStore ρ used m db)
    (more : ∀ uuid ∈ used, uuid ∈ used') : SameStore ρ used' m db :=
  { h with drawn := fun profile mem => more _ (h.drawn profile mem) }

omit [RusqliteCrate] in
theorem SameState.mono {used' : List Uuid} {s₁ : Recorded MemoryRepository} {s₂ : Recorded Db}
    (h : SameState ρ used s₁ s₂) (more : ∀ uuid ∈ used, uuid ∈ used') : SameState ρ used' s₁ s₂ :=
  { h with store := h.store.mono more }

/-- `create_profile` draws an id that no profile has. -/
theorem related_createProfile (hp : UuidCrate.ParseInverts) {input : StepInput}
    (unused : input.fresh ∉ used) (name : String) :
    Program.Related (recording memoryStore input) (recording sqliteStore (input.relabel ρ))
      (SameState ρ used) (SameState ρ (input.fresh :: used))
      (SameOutcome fun profile profile' => profile' = profile.relabel ρ)
      (memoryService.repository.createProfile name).run
      (sqliteService.repository.createProfile name).run := by
  intro s₁ s₂ same
  show Ends (recording sqliteStore (input.relabel ρ)) (sqliteService.repository.createProfile name) s₂
    fun result s => SameOutcome _ (s₁.store.createProfile input.fresh name).1 result ∧
      SameState ρ (input.fresh :: used)
        { s₁ with store := (s₁.store.createProfile input.fresh name).2 } s
  show Ends _ (Fallible.lift _ >>= _) _ _
  rw [ends_lift_bind_iff]
  show Ends _ (domain (Profile.new (ρ input.fresh) name false) >>= _) s₂ _
  unfold MemoryRepository.createProfile
  rw [Profile.relabel_new]
  cases created : Profile.new input.fresh name false with
  | error error => exact ⟨.error _, same.mono fun _ => List.mem_cons_of_mem _⟩
  | ok profile =>
    obtain ⟨-, rfl⟩ := Profile.new_ok_iff.1 created
    show Ends _ (ExceptT.mk _ >>= _) _ _
    refine ends_answered (fun env quiet => same.store.insertProfile hp quiet rfl rfl unused)
      fun _ db' _ h => ?_
    exact ⟨.ok rfl, h, same.opened, same.events⟩

/-- The first call on an empty database inserts the default profile with the id that it draws. -/
theorem exec_ensureDefaultProfile_empty (quiet : QuietSql env) :
    (Region.exec env .ensureDefaultProfile .empty).1 = .ok ⟨⟨(env 1).uuid⟩, "Default", true⟩ ∧
      (∃ now, (Region.exec env .ensureDefaultProfile .empty).2.profiles =
        [profileRow ⟨⟨(env 1).uuid⟩, "Default", true⟩ 1 now]) ∧
      (Region.exec env .ensureDefaultProfile .empty).2.assignments = [] := by
  show Ends (sqlite env) ensureDefaultProfileLocked ⟨.empty, none, 0⟩ fun result c =>
    result = .ok ⟨⟨(env 1).uuid⟩, "Default", true⟩ ∧
      (∃ now, c.file.profiles = [profileRow ⟨⟨(env 1).uuid⟩, "Default", true⟩ 1 now]) ∧
      c.file.assignments = []
  unfold ensureDefaultProfileLocked loadActiveProfile
  rw [ends_bind_iff, ends_bind_iff]
  refine ends_query (fun _ => rfl) (fun error h => absurd h (quiet.not_faulty error)) ?_
  simp only [SqliteConnection.current_none, SqliteConnection.put_none, SqliteConnection.tick_mk]
  show Ends _ (pure none) _ _
  rw [ends_pure_iff]
  dsimp only
  rw [ends_lift_bind_iff, exec_call]
  obtain ⟨profile, new, same⟩ : ∃ profile, Profile.new (env 1).uuid "Default" true = .ok profile ∧
      profile = ⟨⟨(env 1).uuid⟩, "Default", true⟩ := ⟨_, Profile.new_ok_iff.2 ⟨by decide, rfl⟩, rfl⟩
  rw [← same]
  simp only [sqlite, SqliteConnection.tick_mk, new, domain]
  rw [ends_bind_iff, ends_pure_iff]
  dsimp only
  rw [ends_bind_iff]
  refine ends_insertProfile (c := ⟨.empty, none, 2⟩) (.inr ⟨rfl, rfl⟩)
    (fun error h => absurd h (quiet.not_faulty error))
    (fun taken => absurd taken List.not_mem_nil) fun db' now profiles assignments => ?_
  exact ⟨rfl, ⟨now, profiles⟩, assignments⟩

/-- `initialize` leaves the default profile in both stores. -/
theorem related_ensureDefaultProfile (hp : UuidCrate.ParseInverts) {input : StepInput} :
    Program.Related (recording memoryStore input) (recording sqliteStore (input.relabel ρ))
      (fun s₁ s₂ => s₁ = ⟨.new, [], []⟩ ∧ s₂ = ⟨.empty, [], []⟩) (SameState ρ [input.fresh])
      (SameOutcome fun profile profile' => profile' = profile.relabel ρ)
      memoryService.repository.ensureDefaultProfile.run
      sqliteService.repository.ensureDefaultProfile.run := by
  rintro s₁ s₂ ⟨rfl, rfl⟩
  let env : ℕ → SqlChoice := fun n => ⟨none, ρ input.fresh, input.now n⟩
  have default : MemoryRepository.new.ensureDefaultProfile input.fresh =
      (.ok ⟨⟨input.fresh⟩, "Default", true⟩, ⟨[⟨⟨input.fresh⟩, "Default", true⟩], []⟩) := rfl
  show SameOutcome _ (MemoryRepository.new.ensureDefaultProfile input.fresh).1
      (Region.exec env .ensureDefaultProfile .empty).1 ∧
    SameState ρ _ ⟨(MemoryRepository.new.ensureDefaultProfile input.fresh).2, [], []⟩
      ⟨(Region.exec env .ensureDefaultProfile .empty).2, [], []⟩
  have quiet : QuietSql env := fun _ => rfl
  obtain ⟨result, ⟨now, profiles⟩, assignments⟩ := exec_ensureDefaultProfile_empty quiet
  have represents : (Region.exec env .ensureDefaultProfile .empty).2.Represents
      (ListMap.ofEntries fun _ => []) := by
    refine Db.represents_empty.of_assignments (fun row hr => ?_) assignments
    rw [profiles] at hr
    rw [List.mem_singleton.1 hr]
    exact ⟨_, decodeProfile_profileRow hp _ 1 now⟩
  rw [result, default]
  refine ⟨.ok rfl, ⟨?_, ?_, ?_, List.nodup_nil, nofun, _, represents, ?_⟩, rfl, rfl⟩
  · rw [profiles]
    exact .cons ⟨rfl, rfl, rfl⟩ .nil
  · intro profile mem
    rw [List.mem_singleton.1 mem]
    exact List.mem_singleton_self _
  · unfold Db.OneActive Tables.activeProfiles
    rw [profiles]
    rfl
  · intro profileId control
    rw [ListMap.entry_ofEntries]
    rfl

end Methods

/-! ## Parts of a command -/

/-- The same response, up to the renaming and the order of lists. -/
inductive SameResponse (ρ : Equiv.Perm Uuid) : CoreResponse → CoreResponse → Prop
  | snapshot {s s' : CoreSnapshot} (layout : s'.layout = s.layout)
      (profiles : (s.profiles.map (Profile.relabel ρ)).Perm s'.profiles)
      (assignments : (s.assignments.map (SnapshotAssignment.relabel ρ)).Perm s'.assignments) :
      SameResponse ρ (.snapshot s) (.snapshot s')
  | profiles {ps qs : List Profile} (perm : (ps.map (Profile.relabel ρ)).Perm qs) :
      SameResponse ρ (.profiles ps) (.profiles qs)
  | profile (profile : Profile) : SameResponse ρ (.profile profile) (.profile (profile.relabel ρ))
  | acknowledged : SameResponse ρ .acknowledged .acknowledged

section Parts

variable {input : StepInput} {ps qs : List Profile}

omit [UuidCrate] [UrlCrate] [RusqliteCrate] in
/-- The check of the active profile depends on neither ids nor order. -/
theorem ensureExactlyOneActive_perm (perm : (ps.map (Profile.relabel ρ)).Perm qs) :
    ensureExactlyOneActive qs = ensureExactlyOneActive ps := by
  have count := (perm.filter fun profile => profile.isActive).length_eq
  rw [List.filter_map, List.length_map] at count
  unfold ensureExactlyOneActive
  rw [← count]
  rfl

omit [UuidCrate] [UrlCrate] [RusqliteCrate] in
/-- The one active profile is found in both lists. -/
theorem find_active (perm : (ps.map (Profile.relabel ρ)).Perm qs)
    (ensured : ensureExactlyOneActive ps = .ok ()) :
    ∃ profile, (ps.find? fun profile => profile.isActive) = some profile ∧
      (qs.find? fun profile => profile.isActive) = some (profile.relabel ρ) := by
  obtain ⟨profile, found⟩ := exists_active_of_ensure ensured
  have active : profile.isActive = true := List.find?_some found
  have mem := perm.mem_iff.1 (List.mem_map_of_mem (List.mem_of_find?_eq_some found))
  have one := ensureExactlyOneActive_ok_iff.1 ((ensureExactlyOneActive_perm perm).trans ensured)
  obtain ⟨only, single⟩ := List.length_eq_one_iff.1 one
  have unique : ∀ other ∈ qs, other.isActive = true → other = only := by
    intro other mem' active'
    have filtered := List.mem_filter.2 ⟨mem', active'⟩
    rw [single] at filtered
    exact List.mem_singleton.1 filtered
  refine ⟨profile, found, Rows.find?_of_unique mem active fun other mem' active' => ?_⟩
  rw [unique other mem' active', unique _ mem active]

theorem related_listProfiles (hp : UuidCrate.ParseInverts) :
    RelatedCalls ρ used input (fun ps qs => (ps.map (Profile.relabel ρ)).Perm qs)
      memoryService.repository.listProfiles sqliteService.repository.listProfiles :=
  related_store (c := .listProfiles) (r := .listProfiles) fun _ _ _ same quiet =>
    same.listProfiles hp quiet

theorem related_findAssignment (hp : UuidCrate.ParseInverts) (profileId : ProfileId)
    (control : ControlId) :
    RelatedCalls ρ used input (fun found found' => found' = found.map (Assignment.relabel ρ))
      (memoryService.repository.findAssignment profileId control)
      (sqliteService.repository.findAssignment (profileId.relabel ρ) control) :=
  related_store (c := .findAssignment profileId control)
    (r := .findAssignment (profileId.relabel ρ) control) fun _ _ _ same quiet =>
    same.findAssignment hp quiet profileId control

theorem related_ensure (perm : (ps.map (Profile.relabel ρ)).Perm qs) :
    RelatedCalls ρ used input (fun _ _ => ensureExactlyOneActive ps = .ok ())
      (domain (ensureExactlyOneActive ps)) (domain (ensureExactlyOneActive qs)) := by
  rw [ensureExactlyOneActive_perm perm]
  cases checked : ensureExactlyOneActive ps with
  | error error => exact related_throw _
  | ok _ => exact related_pure rfl

theorem related_activeProfile (hp : UuidCrate.ParseInverts) :
    RelatedCalls ρ used input (fun profile profile' => profile' = profile.relabel ρ)
      memoryService.activeProfile sqliteService.activeProfile := by
  unfold CoreService.activeProfile
  refine (related_listProfiles hp).bind fun ps qs perm => ?_
  refine (related_ensure perm).bind fun _ _ ensured => ?_
  obtain ⟨profile, found, found'⟩ := find_active perm ensured
  rw [found, found']
  exact related_pure rfl

theorem related_newUuid : Program.Related (recording memoryStore input)
    (recording sqliteStore (input.relabel ρ)) (SameState ρ used) (SameState ρ used)
    (fun uuid uuid' => uuid' = ρ uuid) memoryService.newUuid sqliteService.newUuid :=
  fun _ _ same => ⟨rfl, same⟩

theorem related_openUrl (url : SafeUrl) : Program.Related (recording memoryStore input)
    (recording sqliteStore (input.relabel ρ)) (SameState ρ used) (SameState ρ used)
    (fun result result' => result' = result) (memoryService.urlOpener.openUrl url)
    (sqliteService.urlOpener.openUrl url) :=
  fun _ _ same => ⟨rfl, same.store, congrArg (· ++ [url.asStr]) same.opened, same.events⟩

theorem related_emit (event : CoreEvent) : RelatedCalls ρ used input (fun _ _ => True)
    (memoryService.eventSink.emit event) (sqliteService.eventSink.emit (event.relabel ρ)) := by
  intro s₁ s₂ same
  show SameOutcome _ (input.emitted s₁.events.length) (input.emitted s₂.events.length) ∧
    SameState ρ used { s₁ with events := s₁.events ++ [event] }
      { s₂ with events := s₂.events ++ [event.relabel ρ] }
  refine ⟨?_, same.store, same.opened, ?_⟩
  · rw [same.events, List.length_map]
    cases input.emitted s₁.events.length with
    | error error => exact .error error
    | ok _ => exact .ok trivial
  · rw [List.map_append, same.events]
    rfl

theorem related_runAction (profile : Profile) (control : ControlId) (action : Action) :
    RelatedCalls ρ used input (fun _ _ => True) (memoryService.runAction profile control action)
      (sqliteService.runAction (profile.relabel ρ) control action) := by
  obtain ⟨url⟩ := action
  unfold CoreService.runAction
  refine (related_lift related_newUuid).bind fun uuid uuid' drawn => ?_
  subst drawn
  refine (related_emit (.actionRunning ⟨uuid⟩ profile.id control)).bind fun _ _ _ => ?_
  refine (related_lift (related_openUrl url)).bind fun result result' same => ?_
  subst same
  cases result' with
  | ok _ => exact related_emit (.actionSucceeded ⟨uuid⟩)
  | error error =>
    refine (related_emit (.actionFailed ⟨uuid⟩ .openUrlFailed error.message)).bind fun _ _ _ => ?_
    exact related_throw _

theorem related_routeVirtualControl (hp : UuidCrate.ParseInverts) (control : ControlId) :
    RelatedCalls ρ used input (fun _ _ => True) (memoryService.routeVirtualControl control)
      (sqliteService.routeVirtualControl control) := by
  unfold CoreService.routeVirtualControl
  refine (related_activeProfile hp).bind fun profile profile' same => ?_
  subst same
  refine (related_findAssignment hp profile.id control).bind fun found found' same => ?_
  subst same
  cases found with
  | none => exact related_throw _
  | some assignment =>
    dsimp only [Option.map_some]
    have first : (assignment.relabel ρ).firstAction = assignment.firstAction := rfl
    rw [first]
    cases assignment.firstAction with
    | none => exact related_throw _
    | some action => exact related_runAction profile control action

end Parts

/-! ## Commands -/

section Commands

variable {input : StepInput}

/-- What a saved assignment has when `command_from_message` builds it. -/
def CoreCommand.Filled : CoreCommand → Prop
  | .saveAssignment a => a.actions ≠ []
  | _ => True

omit [RusqliteCrate] in
theorem filled_of_message {message : ClientMessage} {command : CoreCommand}
    (h : commandFromMessage message = .ok command) : command.Filled := by
  cases command with
  | saveAssignment a =>
    obtain ⟨dto, -, read⟩ := assignmentFromDto_of_command h
    obtain ⟨-, -, action, -, actions⟩ := assignmentFromDto_ok_iff.1 read
    show a.actions ≠ []
    rw [actions]
    exact List.cons_ne_nil _ _
  | _ => trivial

/-- A call whose value is not part of the response. -/
theorem related_acknowledged {α β : Type}
    {p : Fallible (ServiceCalls MemoryCalls) AppError α}
    {q : Fallible (ServiceCalls RegionCalls) AppError β}
    (h : RelatedCalls ρ used input (fun _ _ => True) p q) :
    RelatedCalls ρ used input (SameResponse ρ) (p >>= fun _ => pure .acknowledged)
      (q >>= fun _ => pure .acknowledged) :=
  h.bind fun _ _ _ => related_pure .acknowledged

theorem related_loadSnapshotState (hp : UuidCrate.ParseInverts) :
    RelatedCalls ρ used input (fun state state' =>
        (state.profiles.map (Profile.relabel ρ)).Perm state'.profiles ∧
          (state.assignments.map (Assignment.relabel ρ)).Perm state'.assignments)
      memoryService.repository.loadSnapshotState sqliteService.repository.loadSnapshotState :=
  related_store (c := .loadSnapshotState) (r := .loadSnapshotState) fun _ _ _ same quiet =>
    same.loadSnapshotState hp quiet

theorem related_getSnapshot (hp : UuidCrate.ParseInverts) :
    RelatedCalls ρ used input (SameResponse ρ) (memoryService.handleCommand .getSnapshot)
      (sqliteService.handleCommand .getSnapshot) := by
  refine (related_loadSnapshotState hp).bind fun state state' same => ?_
  refine (related_ensure same.1).bind fun _ _ _ => ?_
  refine related_pure (.snapshot rfl same.1 ?_)
  have assignments := same.2.map fun a : Assignment =>
    ({ profileId := a.profileId, control := a.control, actions := a.actions } : SnapshotAssignment)
  rw [List.map_map] at assignments ⊢
  exact assignments

/-- Every command but `create_profile`, under the ids drawn so far. -/
theorem related_handleCommand (hp : UuidCrate.ParseInverts) {command : CoreCommand}
    (filled : command.Filled) (known : ∀ name, command ≠ .createProfile name) :
    RelatedCalls ρ used input (SameResponse ρ) (memoryService.handleCommand command)
      (sqliteService.handleCommand (command.relabel ρ)) := by
  cases command with
  | getSnapshot => exact related_getSnapshot hp
  | listProfiles =>
    refine (related_listProfiles hp).bind fun ps qs perm => ?_
    exact (related_ensure perm).bind fun _ _ _ => related_pure (.profiles perm)
  | createProfile name => exact absurd rfl (known name)
  | renameProfile profileId name =>
    refine (related_renameProfile hp profileId name).bind fun profile profile' same => ?_
    subst same
    exact related_pure (.profile profile)
  | setActiveProfile profileId =>
    exact related_acknowledged (related_store (c := .setActiveProfile profileId)
      (r := .setActiveProfile (profileId.relabel ρ)) fun _ _ _ same quiet =>
      same.setActiveProfile hp quiet profileId)
  | saveAssignment a =>
    exact related_acknowledged (related_store (c := .saveAssignment a)
      (r := .saveAssignment (a.relabel ρ)) fun _ _ _ same quiet =>
      same.saveAssignment hp quiet filled)
  | clearAssignment profileId control =>
    exact related_acknowledged (related_store (c := .clearAssignment profileId control)
      (r := .clearAssignment (profileId.relabel ρ) control) fun _ _ _ same quiet =>
      same.clearAssignment hp quiet profileId control)
  | virtualControlInput control =>
    exact related_acknowledged (related_routeVirtualControl hp control)

/-- One command, which may draw one id. -/
theorem related_step (hp : UuidCrate.ParseInverts) {step : Step} (filled : step.command.Filled)
    (unused : step.fresh ∉ used) :
    Program.Related (recording memoryStore step.toStepInput)
      (recording sqliteStore (step.toStepInput.relabel ρ)) (SameState ρ used)
      (SameState ρ (step.fresh :: used)) (SameOutcome (SameResponse ρ))
      (memoryService.handleCommand step.command).run
      (sqliteService.handleCommand (step.command.relabel ρ)).run := by
  by_cases creates : ∃ name, step.command = .createProfile name
  · obtain ⟨name, same⟩ := creates
    rw [same]
    show Program.Related _ _ _ _ _ (memoryService.repository.createProfile name >>= _).run
      (sqliteService.repository.createProfile name >>= _).run
    rw [run_bind, run_bind]
    refine (related_createProfile hp unused name).bind fun result result' same => ?_
    cases same with
    | @ok profile profile' same =>
      obtain rfl : profile' = profile.relabel ρ := same
      exact Program.related_pure (.ok (.profile profile))
    | error error => exact Program.related_pure (.error error)
  · have known : ∀ name, step.command ≠ .createProfile name := fun name same => creates ⟨name, same⟩
    exact (related_handleCommand hp filled known).mono (fun _ _ h => h)
      (fun _ _ h => h.mono fun _ => List.mem_cons_of_mem _) fun _ _ h => h

end Commands

/-! ## Sequences of commands -/

/-- Two runs with the same results, events and opened URLs, up to the renaming of ids and the order
of lists. -/
structure SameRun {σ₁ σ₂ : Type} (ρ : Equiv.Perm Uuid)
    (x : Except AppError Profile × List (Except AppError CoreResponse) × Recorded σ₁)
    (y : Except AppError Profile × List (Except AppError CoreResponse) × Recorded σ₂) : Prop where
  started : SameOutcome (fun profile profile' => profile' = profile.relabel ρ) x.1 y.1
  results : List.Forall₂ (SameOutcome (SameResponse ρ)) x.2.1 y.2.1
  opened : y.2.2.opened = x.2.2.opened
  events : y.2.2.events = x.2.2.events.map (CoreEvent.relabel ρ)

/-- The commands one after the other: the ids drawn so far grow, the relation of the states stays. -/
theorem related_steps (hp : UuidCrate.ParseInverts) {steps : List Step}
    (filled : ∀ step ∈ steps, step.command.Filled) {s₁ : Recorded MemoryRepository}
    {s₂ : Recorded Db} (same : SameState ρ used s₁ s₂)
    (unused : ∀ step ∈ steps, step.fresh ∉ used) (distinct : (steps.map fun step => step.fresh).Nodup) :
    List.Forall₂ (SameOutcome (SameResponse ρ)) (runSteps memoryService memoryStore steps s₁).1
        (runSteps sqliteService sqliteStore (steps.map (Step.relabel ρ)) s₂).1 ∧
      ∃ used', SameState ρ used' (runSteps memoryService memoryStore steps s₁).2
        (runSteps sqliteService sqliteStore (steps.map (Step.relabel ρ)) s₂).2 := by
  induction steps generalizing used s₁ s₂ with
  | nil => exact ⟨.nil, used, same⟩
  | cons step steps ih =>
    rw [List.forall_mem_cons] at filled unused
    rw [List.map_cons, List.nodup_cons] at distinct
    have ended := related_step hp filled.1 unused.1 s₁ s₂ same
    have later : ∀ next ∈ steps, next.fresh ∉ step.fresh :: used := by
      intro next mem drawn
      rcases List.mem_cons.1 drawn with eq | drawn
      · exact distinct.1 (eq ▸ List.mem_map_of_mem mem)
      · exact unused.2 next mem drawn
    obtain ⟨results, states⟩ := ih filled.2 ended.2 later distinct.2
    exact ⟨.cons ended.1 results, states⟩

/-- `initialize` over both stores. -/
theorem related_initialize (hp : UuidCrate.ParseInverts) (ρ : Equiv.Perm Uuid)
    (initial : StepInput) :
    Program.Related (recording memoryStore initial) (recording sqliteStore (initial.relabel ρ))
      (fun s₁ s₂ => s₁ = ⟨.new, [], []⟩ ∧ s₂ = ⟨.empty, [], []⟩) (SameState ρ [initial.fresh])
      (SameOutcome fun profile profile' => profile' = profile.relabel ρ)
      memoryService.initializeCore.run sqliteService.initializeCore.run := by
  unfold CoreService.initializeCore
  rw [run_bind, run_bind]
  refine (related_ensureDefaultProfile hp).bind fun result result' same => ?_
  cases same with
  | error error => exact Program.related_pure (.error error)
  | @ok profile profile' same =>
    refine (related_listProfiles hp).bind fun ps qs perm => ?_
    exact (related_ensure perm).bind fun _ _ _ => related_pure same

/-- The service over the memory repository behaves as the service over a fresh SQLite store. -/
theorem memory_behaves_as_sqlite (hp : UuidCrate.ParseInverts) (ρ : Equiv.Perm Uuid)
    (initial : StepInput) (steps : List Step)
    (commands : ∀ step ∈ steps, ∃ message, commandFromMessage message = .ok step.command)
    (distinct : (initial.fresh :: steps.map fun step => step.fresh).Nodup) :
    SameRun ρ (runService memoryService memoryStore .new initial steps)
      (runService sqliteService sqliteStore .empty (initial.relabel ρ)
        (steps.map (Step.relabel ρ))) := by
  rw [List.nodup_cons] at distinct
  have begun := related_initialize hp ρ initial ⟨.new, [], []⟩ ⟨.empty, [], []⟩
    ⟨rfl, rfl⟩
  have unused : ∀ step ∈ steps, step.fresh ∉ [initial.fresh] := by
    intro step mem drawn
    rw [List.mem_singleton] at drawn
    exact distinct.1 (drawn ▸ List.mem_map_of_mem mem)
  have filled : ∀ step ∈ steps, step.command.Filled := by
    intro step mem
    obtain ⟨message, converted⟩ := commands step mem
    exact filled_of_message converted
  obtain ⟨results, used, states⟩ := related_steps hp filled begun.2 unused distinct.2
  rw [runService_eq, runService_eq]
  constructor
  all_goals dsimp only
  · exact begun.1
  · exact results
  · exact states.opened
  · exact states.events

end Stores

section Example

open Reference

/-- A step in which every URL opens and every event is emitted. -/
def calmStep (n : ℕ) (command : CoreCommand) : Step where
  fresh := uuid n
  opened := fun _ => .ok ()
  emitted := fun _ => .ok ()
  now := fun _ => "2024-01-01 00:00:00"
  command := command

/-- A profile is created, an action is saved under the first key and run, and a snapshot is taken. -/
def calmSteps : List Step :=
  [calmStep 1 (.createProfile "Work"),
    calmStep 2 (.saveAssignment ⟨⟨uuid 0⟩, firstKey, [.openUrl exampleUrl]⟩),
    calmStep 3 (.virtualControlInput firstKey), calmStep 4 .getSnapshot]

/-- The two services draw different ids for the default profile and open the URL once. -/
theorem memory_behaves_as_sqlite_example :
    let memory := runService memoryService memoryStore .new (calmStep 0 .getSnapshot).toStepInput
      calmSteps
    memory.2.2.opened = ["https://example.com"] ∧
      SameRun (Equiv.swap (uuid 0) (uuid 5)) memory
        (runService sqliteService sqliteStore .empty
          ((calmStep 0 .getSnapshot).toStepInput.relabel (Equiv.swap (uuid 0) (uuid 5)))
          (calmSteps.map (Step.relabel (Equiv.swap (uuid 0) (uuid 5))))) := by
  refine ⟨by decide +kernel, memory_behaves_as_sqlite parseInverts _ _ _ ?_ (by decide)⟩
  unfold calmSteps
  simp only [List.forall_mem_cons]
  refine ⟨⟨.createProfile "Work", rfl⟩, ⟨.saveAssignment ⟨displayUuid (uuid 0), controlToDto firstKey,
    actionToDto (.openUrl exampleUrl)⟩, ?_⟩, ⟨.virtualControlInput (controlToDto firstKey), ?_⟩, ⟨.getSnapshot, rfl⟩, nofun⟩
  · exact bind_ok_iff.2 ⟨_,
      assignmentFromDto_toDto parseInverts ⟨uuid 0⟩ firstKey (.openUrl exampleUrl), rfl⟩
  · exact bind_ok_iff.2 ⟨_, controlFromDto_controlToDto firstKey, rfl⟩

end Example

end KeyroCore
