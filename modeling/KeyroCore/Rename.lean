import KeyroCore.VirtualInput

/-!
# Rename replies

`rename_profile` lists the profiles under one lock and updates the name under another, and answers
with what it listed.  The answer is the row that the update leaves if and only if the profile is
active at the update exactly when it was at the listing.
-/

open Effect Program Fallible Clients Results

namespace KeyroCore

section Store

variable [UuidCrate]

/-! ## Rows of a profile -/

/-- A profile of this identity is stored as active. -/
def Db.IsActive (db : Db) (profileId : ProfileId) : Prop :=
  ∃ row ∈ db.profiles, row.id = .text profileId.toString ∧ row.Active

instance (db : Db) (profileId : ProfileId) : Decidable (db.IsActive profileId) :=
  inferInstanceAs (Decidable (∃ row ∈ db.profiles, _))

/-- The row of the profile has its identity, its name and its activity. -/
def Db.Stores (db : Db) (profile : Profile) : Prop :=
  ∃ row ∈ db.profiles, row.id = .text profile.id.toString ∧ row.name = .text profile.name ∧
    row.isActive = .integer (if profile.isActive then 1 else 0)

instance (db : Db) (profile : Profile) : Decidable (db.Stores profile) :=
  inferInstanceAs (Decidable (∃ row ∈ db.profiles, _))

/-- The tables differ at most in the name of one profile. -/
structure Db.ChangesOnlyName (profileId : ProfileId) (db db' : Db) : Prop where
  profiles : List.Forall₂ (fun row row' =>
    row' = if row.id = .text profileId.toString then { row with name := row'.name } else row)
    db.profiles db'.profiles
  assignments : db'.assignments = db.assignments

/-- Every stored profile carries an identity as Core prints it. -/
def Db.Canonical (db : Db) : Prop :=
  ∀ row ∈ db.profiles, ∃ profileId : ProfileId, row.id = .text profileId.toString

theorem Db.canonical_empty : Db.empty.Canonical := List.forall_mem_nil _

omit [UuidCrate] in
theorem Db.unique_row {db : Db} {id : String} {row row' : ProfileRow} (mem : row ∈ db.profiles)
    (mem' : row' ∈ db.profiles) (hid : row.id = .text id) (hid' : row'.id = .text id) :
    row = row' := by
  have le := db.admits.length_filter_id_le id
  have h : row ∈ db.profiles.filter fun row => row.id = .text id := by simp [mem, hid]
  have h' : row' ∈ db.profiles.filter fun row => row.id = .text id := by simp [mem', hid']
  generalize db.profiles.filter (fun row => row.id = .text id) = rows at le h h'
  rcases rows with _ | ⟨only, _ | ⟨more, rows⟩⟩
  · cases h
  · rw [List.mem_singleton.1 h, List.mem_singleton.1 h']
  · simp at le

/-- The activity of a profile is that of its row. -/
theorem Db.isActive_iff {db : Db} {profileId : ProfileId} {row : ProfileRow}
    (mem : row ∈ db.profiles) (hid : row.id = .text profileId.toString) :
    db.IsActive profileId ↔ row.Active := by
  constructor
  · rintro ⟨row', mem', hid', active⟩
    rw [Db.unique_row mem mem' hid hid']
    exact active
  · intro active
    exact ⟨row, mem, hid, active⟩

theorem Db.exists_row {db : Db} {profileId : ProfileId} (known : db.HasProfile profileId) :
    ∃ row ∈ db.profiles, row.id = .text profileId.toString := List.mem_map.1 known

/-- A profile that is listed with an identity has the row of that identity. -/
theorem Db.listed_row (hp : UuidCrate.ParseInverts) {db : Db} (canonical : db.Canonical)
    {profiles : List Profile} {profile : Profile}
    (decoded : db.orderedProfiles.mapM decodeProfile = .ok profiles) (mem : profile ∈ profiles) :
    ∃ row ∈ db.profiles, row.id = .text profile.id.toString ∧
      (row.Active ↔ profile.isActive = true) := by
  obtain ⟨row, stored, read⟩ := exists_of_mem_mapM decoded mem
  obtain ⟨⟨text, htext, parsed⟩, -, -⟩ := decodeProfile_ok_iff.1 read
  rw [Db.orderedProfiles, Rows.mem_orderBy] at stored
  obtain ⟨profileId, hid⟩ := canonical row stored
  have same : text = profileId.toString := SqlValue.text.inj (htext.symm.trans hid)
  rw [same, ProfileId.parse_toString hp] at parsed
  refine ⟨row, stored, ?_, ?_⟩
  · rw [← Except.ok.inj parsed]
    exact hid
  · rw [← decodeProfile_isActive read, decide_eq_true_iff]

variable [UrlCrate]

theorem Region.Does.canonical {r : Region} {db db' : Db} {result : Except AppError r.Value}
    (does : Does r db result db') (h : db.Canonical) : db'.Canonical := by
  have inserted {profile : Profile} {n : ℤ} {now : String}
      (profiles : db'.profiles = db.profiles ++ [profileRow profile n now]) : db'.Canonical := by
    unfold Db.Canonical
    rw [profiles, List.forall_mem_append]
    refine ⟨h, fun row hr => ?_⟩
    rw [List.mem_singleton.1 hr]
    exact ⟨profile.id, rfl⟩
  have mapped {f : ProfileRow → ProfileRow} (id : ∀ row, (f row).id = row.id)
      (profiles : db'.profiles = db.profiles.map f) : db'.Canonical := by
    unfold Db.Canonical
    rw [profiles, List.forall_mem_map]
    intro row hr
    rw [id row]
    exact h row hr
  have kept (profiles : db'.profiles = db.profiles) : db'.Canonical := by
    unfold Db.Canonical
    exact profiles ▸ h
  cases does with
  | defaultInserted _ _ _ profiles => exact inserted profiles
  | profileInserted profiles => exact inserted profiles
  | nameUpdated _ profiles => exact mapped (fun row => by split_ifs <;> rfl) profiles
  | @activated _ _ profileId _ _ profiles =>
    exact mapped (f := fun row => { row with
      isActive := .integer (if row.id = .text profileId.toString then 1 else 0) })
      (fun _ => rfl) profiles
  | assignmentSaved _ profiles => exact kept profiles
  | assignmentCleared _ profiles => exact kept profiles
  | _ => exact h

variable [RusqliteCrate]

theorem canonical_coreHandler (input : CoreInput) (o : CoreOp) (db : Db) (h : db.Canonical) :
    (coreHandler input o db).2.Canonical := by
  cases o with
  | lock r =>
    rcases Region.outcome input.sql r db with ⟨_, -, -, same⟩ | does
    · show (r.exec input.sql db).2.Canonical
      rw [same]
      exact h
    · exact does.canonical h
  | _ => exact h

/-- Every store of a run that starts with a fresh database is canonical. -/
theorem canonical_of_run {c : Config CoreCalls Unit CoreJob JobResult Db}
    (hc : Traced jobs coreHandler .empty c) {t : ℕ} (ht : t ≤ c.history.length) :
    (stateAt .empty c.history t).Canonical :=
  hc.invariant Db.canonical_empty canonical_coreHandler ht

/-! ## The two regions of a rename -/

omit [RusqliteCrate] in
theorem renameProfile_path {profileId : ProfileId} {name : String} {profile : Profile}
    {acts : List (Act CoreCalls)}
    (h : (coreService.repository.renameProfile profileId name).run.Path acts
      (some (.ok profile))) :
    ∃ profiles listed, (profiles.find? fun profile => profile.id = profileId) = some listed ∧
      profile = { listed with name } ∧
      acts = [⟨.lock .listProfiles, .ok profiles⟩,
        ⟨.lock (.updateProfileName profileId name), .ok ()⟩] := by
  rcases run_path_bind h with ⟨-, ⟨⟩⟩ | ⟨_, -, ⟨⟩⟩ | ⟨profiles, as₁, as₂, rfl, hl, h₁⟩
  rcases path_lock hl with ⟨-, ⟨⟩⟩ | ⟨_, rfl, ⟨⟩⟩
  rcases found : profiles.find? (fun profile => profile.id = profileId) with _ | listed
  · rw [found] at h₁
    obtain ⟨-, ⟨⟩⟩ := path_pure_iff.1 h₁
  rw [found] at h₁
  rcases run_path_bind h₁ with ⟨-, ⟨⟩⟩ | ⟨_, -, ⟨⟩⟩ | ⟨renamed, as₁, as₂, rfl, hd, h₂⟩
  obtain ⟨rfl, accepted⟩ := path_domain hd
  rcases checked : listed.rename name with _ | renamed'
  · rw [checked] at accepted
    cases accepted
  rw [checked] at accepted
  cases accepted
  obtain ⟨-, rfl⟩ := Profile.rename_ok_iff.1 checked
  rcases run_path_bind h₂ with ⟨-, ⟨⟩⟩ | ⟨_, -, ⟨⟩⟩ | ⟨⟨⟩, as₁, as₂, rfl, hu, h₃⟩
  rcases path_lock hu with ⟨-, ⟨⟩⟩ | ⟨_, rfl, ⟨⟩⟩
  obtain ⟨rfl, same⟩ := path_pure_iff.1 h₃
  cases same
  exact ⟨profiles, listed, found, rfl, rfl⟩

/-- A rename was asked for and answered with a profile. -/
inductive RenameReply (profileId : ProfileId) (name : String) (profile : Profile) :
    CoreJob → JobResult → Prop
  | returned : RenameReply profileId name profile (.repository (.renameProfile profileId name))
      (.returned (.renameProfile profileId name) (.ok profile))
  | answered : RenameReply profileId name profile (.command (.renameProfile profileId name))
      (.answered (.renameProfile profileId name) (.ok (.profile profile)))

omit [RusqliteCrate] in
/-- A rename that was answered has listed the profiles and updated the name. -/
theorem RenameReply.path {profileId : ProfileId} {name : String} {profile : Profile} {job : CoreJob}
    {result : JobResult} (reply : RenameReply profileId name profile job result)
    {acts : List (Act CoreCalls)} (h : (jobs () job).Path acts (some (result, ()))) :
    ∃ profiles listed, (profiles.find? fun profile => profile.id = profileId) = some listed ∧
      profile = { listed with name } ∧
      acts = [⟨.lock .listProfiles, .ok profiles⟩,
        ⟨.lock (.updateProfileName profileId name), .ok ()⟩] := by
  cases reply with
  | returned =>
    obtain ⟨r₁, h₁, same⟩ := path_bind_pure h
    obtain ⟨r₂, h₂, rfl⟩ := path_bind_pure h₁
    rcases r₂ with _ | r₂
    · cases same
    cases same
    exact renameProfile_path h₂
  | answered =>
    obtain ⟨r₁, h₁, same⟩ := command_path h
    rcases r₁ with _ | r₁
    · cases same
    cases same
    rcases run_path_bind h₁ with ⟨-, ⟨⟩⟩ | ⟨_, -, ⟨⟩⟩ | ⟨renamed, as₁, as₂, rfl, hr, h₂⟩
    obtain ⟨rfl, same⟩ := path_pure_iff.1 h₂
    cases same
    rw [List.append_nil]
    exact renameProfile_path hr

/-- What a rename answers describes the store that its update leaves, and the update changes
nothing else. -/
def Db.RenamedTo (profileId : ProfileId) (name : String) (profile : Profile) (db db' : Db) : Prop :=
  profile.id = profileId ∧ profile.name = name ∧ db'.Stores profile ∧
    Db.ChangesOnlyName profileId db db'

omit [RusqliteCrate] in
/-- The update of a name, and what the answer says of the store it leaves. -/
theorem renamedTo_iff {db db' : Db} {profileId : ProfileId} {name : String} {profile : Profile}
    (does : Region.Does (.updateProfileName profileId name) db (.ok ()) db')
    (id : profile.id = profileId) (newName : profile.name = name) :
    Db.RenamedTo profileId name profile db db' ↔
      (db.IsActive profileId ↔ profile.isActive = true) := by
  cases does with
  | nameUpdated known profiles assignments =>
    obtain ⟨row, mem, hid⟩ := Db.exists_row known
    have mem' : { row with name := .text name } ∈ db'.profiles := by
      rw [profiles, List.mem_map]
      exact ⟨row, mem, if_pos hid⟩
    have only : Db.ChangesOnlyName profileId db db' := by
      refine ⟨?_, assignments⟩
      rw [profiles, List.forall₂_map_right_iff, List.forall₂_same]
      intro row' _
      split_ifs <;> rfl
    rw [Db.isActive_iff mem hid]
    constructor
    · rintro ⟨-, -, ⟨row', stored, hid', -, activity⟩, -⟩
      rw [id] at hid'
      obtain rfl := Db.unique_row mem' stored hid hid'
      show row.isActive = _ ↔ _
      dsimp only at activity
      rw [activity]
      cases profile.isActive <;> decide
    · intro same
      refine ⟨id, newName, ⟨_, mem', ?_, ?_, ?_⟩, only⟩
      · rw [id]
        exact hid
      · rw [newName]
      · have check := db.admits.is_active_check row mem
        by_cases active : profile.isActive = true
        · rw [if_pos active]
          exact same.2 active
        · rw [if_neg active]
          exact check.resolve_right fun h => active (same.1 h)

/-- In every run from a fresh database, a rename that is answered has listed the profiles and then
updated the name, and its answer is the row that the update leaves if and only if the profile is
active before the update exactly when it was at the listing. -/
theorem rename_reply (hp : UuidCrate.ParseInverts) (moves : List (Move CoreJob CoreInput)) (i : ℕ)
    (f : Frame CoreCalls Unit CoreJob JobResult) (profileId : ProfileId) (name : String)
    (profile : Profile) (result : JobResult)
    (busy : (run jobs coreHandler (begin .empty ()) moves).clients i = .busy f)
    (done : f.rest.value? = some (result, ()))
    (reply : RenameReply profileId name profile f.job result) :
    ∃ t₁ t₂ profiles, t₁ < t₂ ∧
      f.past = [(t₁, ⟨.lock .listProfiles, .ok profiles⟩),
        (t₂, ⟨.lock (.updateProfileName profileId name), .ok ()⟩)] ∧
      let store := stateAt .empty (run jobs coreHandler (begin .empty ()) moves).history
      (Db.RenamedTo profileId name profile (store t₂) (store (t₂ + 1)) ↔
        ((store t₂).IsActive profileId ↔ (store t₁).IsActive profileId)) := by
  have hc : Traced jobs coreHandler .empty (run jobs coreHandler (begin .empty ()) moves) :=
    traced_run _ _ _
  generalize run jobs coreHandler (begin .empty ()) moves = c at hc busy ⊢
  have path := (hc.frame_follows i f busy).path
  have recorded := hc.frame_recorded i f busy
  rw [done] at path
  obtain ⟨profiles, listed, found, rfl, hacts⟩ := reply.path path
  obtain ⟨⟨t₁, a⟩, more, hpast, rfl, h₁⟩ := List.map_eq_cons_iff.1 hacts
  obtain ⟨⟨t₂, b⟩, more, rfl, rfl, h₂⟩ := List.map_eq_cons_iff.1 h₁
  obtain rfl := List.map_eq_nil_iff.1 h₂
  have ordered := recorded.1
  rw [hpast] at recorded ordered
  have lt : t₁ < t₂ := by simpa using ordered
  refine ⟨t₁, t₂, profiles, lt, hpast, ?_⟩
  obtain ⟨input, db', -, ⟨_, -, ⟨⟩, -⟩ | listing⟩ :=
    outcome_of_recorded hc recorded (List.mem_cons_self ..)
  obtain ⟨input, db', next, ⟨_, -, ⟨⟩, -⟩ | update⟩ :=
    outcome_of_recorded hc recorded (List.mem_cons_of_mem _ (List.mem_singleton_self _))
  have id : listed.id = profileId := by simpa using List.find?_some found
  cases listing with
  | profilesListed decoded =>
    have canonical := canonical_of_run hc (Nat.le_of_lt (recorded.lt (List.mem_cons_self ..)))
    obtain ⟨row, mem, hid, activity⟩ :=
      Db.listed_row hp canonical decoded (List.mem_of_find?_eq_some found)
    rw [id] at hid
    dsimp only
    rw [next, Db.isActive_iff mem hid, activity]
    exact renamedTo_iff update id rfl

end Store

/-! ## Concrete runs -/

section Examples

open Reference

/-- Client 0 starts Core and creates a profile, which client 1 then renames. -/
def renameMoves : List (Move CoreJob CoreInput) :=
  [.start 0 .initializeCore, .go 0 (calm 0), .go 0 (calm 0),
    .start 0 (.command (.createProfile "Work")), .go 0 (calm 1), .go 0 (calm 1),
    .start 1 (.command (.renameProfile ⟨uuid 1⟩ "Play")), .go 1 (calm 2), .go 1 (calm 2)]

theorem rename_reply_example :
    ∃ f profile, (run jobs coreHandler (begin .empty ()) renameMoves).clients 1 = .busy f ∧
      let store := stateAt .empty (run jobs coreHandler (begin .empty ()) renameMoves).history
      Db.RenamedTo ⟨uuid 1⟩ "Play" profile (store 5) (store 6) := by
  obtain ⟨f, profile, busy, done, job, times⟩ : ∃ f profile,
      (run jobs coreHandler (begin .empty ()) renameMoves).clients 1 = .busy f ∧
      f.rest.value? = some (.answered (.renameProfile ⟨uuid 1⟩ "Play") (.ok (.profile profile)), ()) ∧
      f.job = .command (.renameProfile ⟨uuid 1⟩ "Play") ∧ f.past.map Prod.fst = [4, 5] :=
    ⟨_, _, rfl, rfl, rfl, rfl⟩
  have reply : RenameReply ⟨uuid 1⟩ "Play" profile f.job
      (.answered (.renameProfile ⟨uuid 1⟩ "Play") (.ok (.profile profile))) := job ▸ .answered
  obtain ⟨t₁, t₂, profiles, -, past, holds⟩ :=
    rename_reply parseInverts renameMoves 1 f _ _ profile _ busy done reply
  rw [past] at times
  cases times
  exact ⟨f, profile, busy, holds.2 (by decide)⟩

/-- Between the two regions of the rename, client 0 activates the profile. -/
def staleRenameMoves : List (Move CoreJob CoreInput) :=
  [.start 0 .initializeCore, .go 0 (calm 0), .go 0 (calm 0),
    .start 0 (.command (.createProfile "Work")), .go 0 (calm 1), .go 0 (calm 1),
    .start 1 (.command (.renameProfile ⟨uuid 1⟩ "Play")), .go 1 (calm 2),
    .start 0 (.command (.setActiveProfile ⟨uuid 1⟩)), .go 0 (calm 2), .go 1 (calm 2)]

/-- The answer says that the profile is inactive, but the update leaves it active. -/
theorem rename_reply_stale :
    ∃ f profile, (run jobs coreHandler (begin .empty ()) staleRenameMoves).clients 1 = .busy f ∧
      f.rest.value? = some (.answered (.renameProfile ⟨uuid 1⟩ "Play") (.ok (.profile profile)), ()) ∧
      f.past.getLast? = some (6, ⟨.lock (.updateProfileName ⟨uuid 1⟩ "Play"), .ok ()⟩) ∧
      let store := stateAt .empty (run jobs coreHandler (begin .empty ()) staleRenameMoves).history
      ¬ Db.RenamedTo ⟨uuid 1⟩ "Play" profile (store 6) (store 7) := by
  refine ⟨_, ⟨⟨uuid 1⟩, "Play", false⟩, rfl, rfl, rfl, ?_⟩
  intro store ⟨_, _, stored, _⟩
  exact absurd stored (by decide)

end Examples

end KeyroCore
