import KeyroCore.Data.ListMap
import KeyroCore.Storage.AllOrNothing
import KeyroCore.Reference

/-!
# The assignments table is a map

The abstract content of the store: a map from controls of profiles to non-empty lists of actions.
`Represents` says which tables hold which map.  Every lock region changes the represented map as
the map operations say, and both read paths rebuild it.
-/

open Effect Program Fallible Results

namespace KeyroCore

/-- The actions of every control of every profile. -/
abbrev AssignmentMap [UrlCrate] := ListMap (ProfileId × ControlId) Action

section Store

variable [UrlCrate]

/-! ## Encoded rows -/

theorem matches_actionRows {identity : AssignmentIdentity} {actions : List Action} {n : ℕ} :
    ∀ row ∈ actionRows identity n actions, row.Matches identity := by
  induction actions generalizing n with
  | nil => simp [actionRows]
  | cons action actions ih =>
    rw [actionRows, List.forall_mem_cons]
    exact ⟨⟨rfl, rfl, rfl, rfl, rfl⟩, ih⟩

/-- The position of an encoded row is an integer, not below the first. -/
theorem position_actionRows {identity : AssignmentIdentity} {actions : List Action} {n : ℕ} :
    ∀ row ∈ actionRows identity n actions, ∃ k ≥ n, row.actionPosition = .integer (k : ℕ) := by
  induction actions generalizing n with
  | nil => simp [actionRows]
  | cons action actions ih =>
    rw [actionRows, List.forall_mem_cons]
    refine ⟨⟨n, le_rfl, rfl⟩, fun row hr => ?_⟩
    obtain ⟨k, hk, position⟩ := ih row hr
    exact ⟨k, by omega, position⟩

theorem decode_actionRows (identity : AssignmentIdentity) (n : ℕ) (actions : List Action) :
    (actionRows identity n actions).mapM decodeActionRow = .ok actions := by
  rw [mapM_ok_iff]
  induction actions generalizing n with
  | nil => exact .nil
  | cons action actions ih => exact .cons (decodeActionRow_assignmentRow _ _ _) (ih _)

theorem mem_actionRows {identity : AssignmentIdentity} {actions : List Action} {n : ℕ}
    {row : AssignmentRow} (h : row ∈ actionRows identity n actions) :
    ∃ k : ℕ, ∃ action ∈ actions,
      row = assignmentRow identity k (encodeAction action).1 (encodeAction action).2 := by
  induction actions generalizing n with
  | nil => exact nomatch h
  | cons action actions ih =>
    rw [actionRows, List.mem_cons] at h
    rcases h with rfl | h
    · exact ⟨n, action, List.mem_cons_self .., rfl⟩
    · obtain ⟨k, action', mem, eq⟩ := ih h
      exact ⟨k, action', List.mem_cons_of_mem _ mem, eq⟩

/-- Encoded rows lie in strictly increasing order of their positions. -/
theorem pairwise_actionRows (identity : AssignmentIdentity) (n : ℕ) (actions : List Action) :
    (actionRows identity n actions).Pairwise fun a b =>
      compareOn AssignmentRow.actionPosition a b = .lt := by
  induction actions generalizing n with
  | nil => exact .nil
  | cons action actions ih =>
    refine .cons (fun row hr => ?_) (ih (n + 1))
    obtain ⟨k, hk, position⟩ := position_actionRows row hr
    show compare (SqlValue.integer n) row.actionPosition = .lt
    rw [position, SqlValue.compare_integer, compare_lt_iff_lt]
    omega

variable [UuidCrate]

theorem decodeAssignmentRow_actionRows (hp : UuidCrate.ParseInverts) (k : ProfileId × ControlId)
    (n : ℕ) (actions : List Action) :
    (actionRows (identityParams k.1 k.2) n actions).mapM decodeAssignmentRow =
      .ok (actions.map fun action => (k.1, k.2, action)) := by
  rw [mapM_ok_iff]
  induction actions generalizing n with
  | nil => exact .nil
  | cons action actions ih =>
    exact .cons (decodeAssignmentRow_assignmentRow hp _ _ _ _) (ih _)

/-! ## Representation -/

/-- The rows of one control, in rowid order. -/
def Db.rowsOf (db : Db) (k : ProfileId × ControlId) : List AssignmentRow :=
  db.assignments.filter fun row => row.Matches (identityParams k.1 k.2)

/-- The tables hold the map: every assignment row belongs to a control, and the rows of a control
encode its actions at the positions from zero on.  All profiles can be read. -/
structure Db.Represents (db : Db) (m : AssignmentMap) : Prop where
  readable : db.Readable
  identified : ∀ row ∈ db.assignments, ∃ k : ProfileId × ControlId,
    row.Matches (identityParams k.1 k.2)
  rows : ∀ k, db.rowsOf k = actionRows (identityParams k.1 k.2) 0 (m.entry k)

/-- The map that the rows of a store decode to. -/
def Db.assignmentMap (db : Db) : AssignmentMap := ListMap.ofEntries fun k =>
  ((db.actionsOf (identityParams k.1 k.2)).mapM decodeActionRow).toOption.getD []

theorem Db.Represents.actionsOf {db : Db} {m : AssignmentMap} (h : db.Represents m)
    (k : ProfileId × ControlId) : db.actionsOf (identityParams k.1 k.2) =
      actionRows (identityParams k.1 k.2) 0 (m.entry k) := by
  unfold Db.actionsOf
  have rows := h.rows k
  unfold Db.rowsOf at rows
  rw [rows]
  refine Rows.orderBy_eq_self ((pairwise_actionRows _ _ _).imp fun lt => ?_)
  rw [lt]
  rfl

/-- The represented map is the one that the rows decode to. -/
theorem Db.Represents.assignmentMap_eq {db : Db} {m : AssignmentMap} (h : db.Represents m) :
    db.assignmentMap = m := by
  refine ListMap.ext_entry fun k => ?_
  rw [Db.assignmentMap, ListMap.entry_ofEntries, h.actionsOf, decode_actionRows]
  rfl

/-- Every row encodes an action of a control. -/
theorem Db.Represents.encoded {db : Db} {m : AssignmentMap} (h : db.Represents m)
    {row : AssignmentRow} (hr : row ∈ db.assignments) :
    ∃ (k : ProfileId × ControlId) (n : ℕ) (action : Action), row =
      assignmentRow (identityParams k.1 k.2) n (encodeAction action).1 (encodeAction action).2 := by
  obtain ⟨k, matched⟩ := h.identified row hr
  have encoded : row ∈ db.rowsOf k := List.mem_filter.2 ⟨hr, decide_eq_true matched⟩
  rw [h.rows k] at encoded
  obtain ⟨n, action, -, eq⟩ := mem_actionRows encoded
  exact ⟨k, n, action, eq⟩

theorem Db.represents_empty : Db.empty.Represents (ListMap.ofEntries fun _ => []) where
  readable := fun _ hr => nomatch hr
  identified := fun _ hr => nomatch hr
  rows := fun k => by
    rw [ListMap.entry_ofEntries]
    rfl

/-! ## Writing -/

/-- Replacing the rows of a control replaces the entry of its key. -/
theorem Db.Represents.put (hp : UuidCrate.ParseInverts) {db db' : Db} {m : AssignmentMap}
    (h : db.Represents m) (readable : db'.Readable) {k : ProfileId × ControlId}
    {actions : List Action}
    (assignments : db'.assignments = db.otherAssignments (identityParams k.1 k.2) ++
      actionRows (identityParams k.1 k.2) 0 actions) : db'.Represents (m.put k actions) := by
  refine ⟨readable, fun row hr => ?_, fun k' => ?_⟩
  · rw [assignments] at hr
    rcases List.mem_append.1 hr with hr | hr
    · exact h.identified row (List.mem_filter.1 hr).1
    · exact ⟨k, matches_actionRows row hr⟩
  · rw [ListMap.entry_put, Db.rowsOf, assignments, List.filter_append, Db.otherAssignments,
      List.filter_filter]
    split_ifs with same
    · subst same
      have others : (db.assignments.filter fun row =>
          decide (row.Matches (identityParams k'.1 k'.2)) &&
            decide (¬ row.Matches (identityParams k'.1 k'.2))) = [] := by
        refine List.filter_eq_nil_iff.2 fun row _ => ?_
        simp
      rw [others, List.nil_append]
      refine List.filter_eq_self.2 fun row hr => ?_
      exact decide_eq_true (matches_actionRows row hr)
    · have apart : ∀ row : AssignmentRow, row.Matches (identityParams k'.1 k'.2) →
          ¬ row.Matches (identityParams k.1 k.2) := by
        intro row h₁ h₂
        obtain ⟨id, control⟩ := identityParams_inj hp (h₁.unique h₂)
        exact same (Prod.ext id control)
      have added : ((actionRows (identityParams k.1 k.2) 0 actions).filter fun row =>
          row.Matches (identityParams k'.1 k'.2)) = [] := by
        refine List.filter_eq_nil_iff.2 fun row hr matched => ?_
        exact apart row (of_decide_eq_true matched) (matches_actionRows row hr)
      rw [added, List.append_nil, ← h.rows k']
      refine List.filter_congr fun row _ => ?_
      by_cases matched : row.Matches (identityParams k'.1 k'.2)
      · simp [matched, apart row matched]
      · simp [matched]

theorem Db.Represents.of_assignments {db db' : Db} {m : AssignmentMap} (h : db.Represents m)
    (readable : db'.Readable) (assignments : db'.assignments = db.assignments) :
    db'.Represents m :=
  ⟨readable, assignments ▸ h.identified, fun k => by
    rw [Db.rowsOf, assignments]
    exact h.rows k⟩

/-- The map after a region that ended with the given result. -/
def Region.mapAfter : (r : Region) → Except AppError r.Value → AssignmentMap → AssignmentMap
  | .saveAssignment a, .ok _, m => m.put (a.profileId, a.control) a.actions
  | .clearAssignment profileId control, .ok _, m => m.put (profileId, control) []
  | _, _, m => m

/-- A region changes the tables as the map operations change the map. -/
theorem Region.Does.represents (hp : UuidCrate.ParseInverts) {r : Region} {db db' : Db}
    {result : Except AppError r.Value} {m : AssignmentMap} (does : Does r db result db')
    (h : db.Represents m) : db'.Represents (r.mapAfter result m) := by
  have readable := does.readable hp h.readable
  cases does with
  | defaultInserted _ _ _ _ assignments => exact h.of_assignments readable assignments
  | profileInserted _ assignments => exact h.of_assignments readable assignments
  | nameUpdated _ _ assignments => exact h.of_assignments readable assignments
  | activated _ _ _ assignments => exact h.of_assignments readable assignments
  | @assignmentSaved _ _ assignment _ _ assignments =>
    exact h.put hp readable (k := (assignment.profileId, assignment.control)) assignments
  | @assignmentCleared _ _ profileId control _ _ assignments =>
    refine h.put hp readable (k := (profileId, control)) (assignments.trans ?_)
    exact (List.append_nil _).symm
  | _ => exact h

/-! ## Reading -/

theorem Db.Represents.find {db : Db} {m : AssignmentMap} (h : db.Represents m)
    {profileId : ProfileId} {control : ControlId} {actions : List Action}
    (decoded : (db.actionsOf (identityParams profileId control)).mapM decodeActionRow =
      .ok actions) :
    (if actions.isEmpty then none else some { profileId, control, actions } : Option Assignment) =
      (m (profileId, control)).map fun actions =>
        { profileId, control, actions := actions.1 } := by
  rw [h.actionsOf (profileId, control), decode_actionRows] at decoded
  obtain rfl := Except.ok.inj decoded
  rw [m.eq_value_entry (profileId, control), ListMap.value]
  generalize m.entry (profileId, control) = actions
  cases actions <;> rfl

/-- The snapshot lists the entries of the map, each once. -/
structure Lists (assignments : List Assignment) (m : AssignmentMap) : Prop where
  nodup : (assignments.map fun a => (a.profileId, a.control)).Nodup
  mem_iff : ∀ a : Assignment, a ∈ assignments ↔
    (m (a.profileId, a.control)).map Subtype.val = some a.actions

def toAssignment (g : (ProfileId × ControlId) × List Action) : Assignment where
  profileId := g.1.1
  control := g.1.2
  actions := g.2

omit [UuidCrate] in
theorem pushAction_map (row : ProfileId × ControlId × Action)
    (groups : List ((ProfileId × ControlId) × List Action)) :
    pushAction (groups.map toAssignment) row =
      (Rows.pushGroup (row.1, row.2.1) row.2.2 groups).map toAssignment := by
  obtain ⟨profileId, control, action⟩ := row
  induction groups with
  | nil => rfl
  | cons group groups ih =>
    obtain ⟨⟨groupProfile, groupControl⟩, actions⟩ := group
    show (if groupProfile = profileId ∧ groupControl = control then _ else _) = _
    unfold Rows.pushGroup
    by_cases same : groupProfile = profileId ∧ groupControl = control
    · rw [if_pos same, if_pos (Prod.ext same.1 same.2)]
      rfl
    · rw [if_neg same, if_neg fun h => same (Prod.ext_iff.1 h)]
      exact congrArg _ ih

omit [UuidCrate] in
/-- The loop of `list_assignments_locked` groups the rows by their keys. -/
theorem foldl_pushAction (rows : List (ProfileId × ControlId × Action)) :
    rows.foldl pushAction [] =
      (Rows.groupRows (rows.map fun row => ((row.1, row.2.1), row.2.2))).map toAssignment := by
  have pushed : ∀ groups, rows.foldl pushAction (groups.map toAssignment) =
      ((rows.map fun row => ((row.1, row.2.1), row.2.2)).foldl
        (fun groups row => Rows.pushGroup row.1 row.2 groups) groups).map toAssignment := by
    induction rows with
    | nil => exact fun _ => rfl
    | cons row rows ih =>
      intro groups
      rw [List.foldl_cons, pushAction_map]
      exact ih _
  exact pushed []

/-- The ordered rows of a control are its rows in the order of their positions. -/
theorem Db.Represents.filter_ordered {db : Db} {m : AssignmentMap} (h : db.Represents m)
    (k : ProfileId × ControlId) :
    (db.orderedAssignments.filter fun row => row.Matches (identityParams k.1 k.2)) =
      actionRows (identityParams k.1 k.2) 0 (m.entry k) := by
  have perm := (Rows.orderBy_perm AssignmentRow.order db.assignments).filter
    fun row => row.Matches (identityParams k.1 k.2)
  have ordered := (Rows.pairwise_orderBy AssignmentRow.order db.assignments).filter
    fun row => row.Matches (identityParams k.1 k.2)
  rw [show (db.assignments.filter _) = _ from h.rows k] at perm
  refine Rows.eq_of_perm_of_lt perm ?_ (pairwise_actionRows _ _ _)
  refine ordered.imp_of_mem fun {row row'} hr hr' le => ?_
  rw [AssignmentRow.order_of_matches (of_decide_eq_true (List.mem_filter.1 hr).2)
    (of_decide_eq_true (List.mem_filter.1 hr').2)] at le
  exact le

/-- A row that is read as an action of a control is a row of this control. -/
theorem Db.Represents.matches_iff (hp : UuidCrate.ParseInverts) {db : Db} {m : AssignmentMap}
    (h : db.Represents m) {row : AssignmentRow} (hr : row ∈ db.assignments)
    {read : ProfileId × ControlId × Action} (decoded : decodeAssignmentRow row = .ok read)
    (k : ProfileId × ControlId) :
    row.Matches (identityParams k.1 k.2) ↔ (read.1, read.2.1) = k := by
  obtain ⟨k', n, action, rfl⟩ := h.encoded hr
  rw [decodeAssignmentRow_assignmentRow hp] at decoded
  cases decoded
  have matched : (assignmentRow (identityParams k'.1 k'.2) n (encodeAction action).1
      (encodeAction action).2).Matches (identityParams k'.1 k'.2) := ⟨rfl, rfl, rfl, rfl, rfl⟩
  constructor
  · intro matched'
    obtain ⟨id, control⟩ := identityParams_inj hp (matched.unique matched')
    exact Prod.ext id control
  · rintro rfl
    exact matched

theorem Db.Represents.readable_assignments (hp : UuidCrate.ParseInverts) {db : Db}
    {m : AssignmentMap} (h : db.Represents m) :
    ∃ rows, db.orderedAssignments.mapM decodeAssignmentRow = .ok rows := by
  refine exists_mapM_ok fun row hr => ?_
  obtain ⟨k, n, action, rfl⟩ := h.encoded (Rows.mem_orderBy.1 hr)
  exact ⟨_, decodeAssignmentRow_assignmentRow hp k.1 k.2 n action⟩

/-- The items that the snapshot groups under a key are the actions of its control. -/
theorem Db.Represents.itemsOf (hp : UuidCrate.ParseInverts) {db : Db} {m : AssignmentMap}
    (h : db.Represents m) {rows : List (ProfileId × ControlId × Action)}
    (decoded : db.orderedAssignments.mapM decodeAssignmentRow = .ok rows)
    (k : ProfileId × ControlId) :
    Rows.itemsOf k (rows.map fun row => ((row.1, row.2.1), row.2.2)) = m.entry k := by
  have filtered := filter_mapM_ok (p := fun row => row.Matches (identityParams k.1 k.2))
    (q := fun row => (row.1, row.2.1) = k) decoded fun row hr read hread =>
      decide_eq_decide.2 (h.matches_iff hp (Rows.mem_orderBy.1 hr) hread k)
  rw [h.filter_ordered, decodeAssignmentRow_actionRows hp] at filtered
  have same := Except.ok.inj filtered
  unfold Rows.itemsOf
  rw [List.filter_map, List.map_map]
  show (rows.filter fun row => (row.1, row.2.1) = k).map _ = _
  rw [← same, List.map_map]
  exact List.map_id _

theorem Db.Represents.snapshot (hp : UuidCrate.ParseInverts) {db : Db} {m : AssignmentMap}
    (h : db.Represents m) {rows : List (ProfileId × ControlId × Action)}
    (decoded : db.orderedAssignments.mapM decodeAssignmentRow = .ok rows) :
    Lists (rows.foldl pushAction []) m := by
  obtain ⟨nodup, groups⟩ :=
    Rows.groupRows_spec (rows.map fun row => ((row.1, row.2.1), row.2.2))
  rw [foldl_pushAction]
  refine ⟨?_, fun a => ?_⟩
  · rw [List.map_map]
    exact nodup
  · have mem : a ∈ (Rows.groupRows (rows.map fun row => ((row.1, row.2.1), row.2.2))).map
        toAssignment ↔ ((a.profileId, a.control), a.actions) ∈
          Rows.groupRows (rows.map fun row => ((row.1, row.2.1), row.2.2)) := by
      rw [List.mem_map]
      constructor
      · rintro ⟨group, hg, rfl⟩
        exact hg
      · exact fun hg => ⟨_, hg, rfl⟩
    rw [mem, groups, h.itemsOf hp decoded, m.eq_value_entry, ListMap.map_val_value]
    split_ifs with empty
    · rw [empty]
      exact ⟨fun ⟨h₁, h₂⟩ => absurd h₁ h₂, fun h => nomatch h⟩
    · rw [Option.some.injEq]
      exact ⟨fun h => h.1.symm, fun h => ⟨h.symm, h ▸ empty⟩⟩

/-! ## Calls of the repository -/

/-- The result and the store of one call of a repository method. -/
def performed [RusqliteCrate] (inputs : ℕ → CoreInput) (call : RepositoryCall) (s : Db × ℕ) :
    Except AppError call.Value × Db × ℕ :=
  (coreService.repository.perform call).run.exec (timed coreHandler inputs) s

/-- The store after a sequence of calls. -/
def afterCalls [RusqliteCrate] (inputs : ℕ → CoreInput) (calls : List RepositoryCall)
    (s : Db × ℕ) : Db × ℕ :=
  calls.foldl (fun s call => (performed inputs call s).2) s

/-- The store after `ensure_default_profile` on a fresh database and further calls. -/
def reached [RusqliteCrate] (inputs : ℕ → CoreInput) (calls : List RepositoryCall) : Db × ℕ :=
  afterCalls inputs (.ensureDefaultProfile :: calls) (.empty, 0)

/-- Saving or clearing on the store `db` left `db'`: the entry of the key is replaced if the
profile exists, and else nothing happens. -/
def Db.EntryReplaced (db : Db) (k : ProfileId × ControlId) (actions : List Action)
    (result : Except AppError Unit) (db' : Db) : Prop :=
  if db.HasProfile k.1 then
    result = .ok () ∧ db'.profiles = db.profiles ∧
      db'.assignmentMap = db.assignmentMap.put k actions
  else result = .error .profileNotFound ∧ db' = db

/-- A call acts on the represented map and reads it. -/
def Db.CallMeets (db : Db) :
    (call : RepositoryCall) → Except AppError call.Value → Db → Prop
  | .saveAssignment a, result, db' => db.EntryReplaced (a.profileId, a.control) a.actions result db'
  | .clearAssignment profileId control, result, db' =>
      db.EntryReplaced (profileId, control) [] result db'
  | .findAssignment profileId control, result, db' =>
      db' = db ∧ result = .ok ((db.assignmentMap (profileId, control)).map fun actions =>
        { profileId, control, actions := actions.1 })
  | .loadSnapshotState, result, db' =>
      db' = db ∧ ∃ state, result = .ok state ∧ Lists state.assignments db.assignmentMap
  | _, _, db' => db'.assignmentMap = db.assignmentMap

/-- Operations that do not write assignments. -/
def CoreOp.KeepsMap : CoreOp → Prop
  | .lock (.saveAssignment _) | .lock (.clearAssignment _ _) => False
  | _ => True

theorem uses_createProfile (name : String) :
    (coreService.repository.createProfile name).run.Uses CoreOp.KeepsMap := by
  refine Fallible.uses_bind (uses_lift (uses_call trivial)) fun uuid => ?_
  refine Fallible.uses_bind (uses_domain _) fun profile => ?_
  exact Fallible.uses_bind (uses_lock trivial) fun _ => trivial

theorem uses_renameProfile (profileId : ProfileId) (name : String) :
    (coreService.repository.renameProfile profileId name).run.Uses CoreOp.KeepsMap := by
  refine Fallible.uses_bind (uses_lock trivial) fun profiles => ?_
  split
  · exact trivial
  · refine Fallible.uses_bind (uses_domain _) fun profile => ?_
    exact Fallible.uses_bind (uses_lock trivial) fun _ => trivial

variable [RusqliteCrate] {inputs : ℕ → CoreInput} {s : Db × ℕ} {m : AssignmentMap}

omit [RusqliteCrate] in
/-- On a store that represents a map, and without faults, only a region that stores a fresh UUID
can fail. -/
theorem Region.Fails.draws (hp : UuidCrate.ParseInverts) {env : ℕ → SqlChoice} {r : Region}
    {db : Db} {error : SqlError} (fails : Fails env r db error) (h : db.Represents m)
    (quiet : ¬ Faulty env error) :
    r = .ensureDefaultProfile ∨ ∃ profile, r = .insertProfile profile := by
  have readable := h.readable.list
  cases fails with
  | fault faulty => exact absurd faulty quiet
  | defaultTaken => exact .inl rfl
  | activeUnreadable => exact .inl rfl
  | idTaken => exact .inr ⟨_, rfl⟩
  | profilesUnreadable unreadable =>
    obtain ⟨profiles, read⟩ := readable
    rw [read] at unreadable
    cases unreadable
  | snapshotProfilesUnreadable unreadable =>
    obtain ⟨profiles, read⟩ := readable
    rw [read] at unreadable
    cases unreadable
  | snapshotAssignmentsUnreadable unreadable =>
    obtain ⟨rows, read⟩ := h.readable_assignments hp
    rw [read] at unreadable
    cases unreadable
  | @actionsUnreadable _ profileId control _ unreadable =>
    rw [h.actionsOf (profileId, control), decode_actionRows] at unreadable
    cases unreadable

theorem Region.Outcome.represents (hp : UuidCrate.ParseInverts) {env : ℕ → SqlChoice} {r : Region}
    {db db' : Db} {result : Except AppError r.Value} (outcome : Outcome env r db result db')
    (h : db.Represents m) : db'.Represents (r.mapAfter result m) ∨
      (∃ error, Fails env r db error ∧ result = .error (toAppError error)) ∧ db' = db := by
  rcases outcome with ⟨error, fails, failed, same⟩ | does
  · exact .inr ⟨⟨error, fails, failed⟩, same⟩
  · exact .inl (does.represents hp h)

theorem represents_keepsMap (hp : UuidCrate.ParseInverts) (o : CoreOp) (s : Db × ℕ)
    (ho : o.KeepsMap) (h : s.1.Represents m) :
    () = () ∧ (timed coreHandler inputs o s).2.1.Represents m := by
  refine ⟨rfl, ?_⟩
  cases o with
  | lock r =>
    rcases (Region.outcome (inputs s.2).sql r s.1).represents hp h with represents | ⟨-, same⟩
    · cases r with
      | saveAssignment | clearAssignment => cases ho
      | _ => exact represents
    · show (r.exec _ _).2.Represents m
      rw [same]
      exact h
  | _ => exact h

/-- A call that does not write assignments keeps the map. -/
theorem performed_keepsMap (hp : UuidCrate.ParseInverts) {call : RepositoryCall}
    (uses : (coreService.repository.perform call).run.Uses CoreOp.KeepsMap)
    (h : s.1.Represents m) : (performed inputs call s).2.1.Represents m :=
  (uses.still (v := fun _ => ()) (represents_keepsMap hp) h).2

omit [RusqliteCrate] in
theorem Db.EntryReplaced.known {db db' : Db} {k : ProfileId × ControlId} {actions : List Action}
    (known : db.HasProfile k.1) (profiles : db'.profiles = db.profiles) (h : db.Represents m)
    (h' : db'.Represents (m.put k actions)) : db.EntryReplaced k actions (.ok ()) db' := by
  unfold Db.EntryReplaced
  rw [if_pos known, h.assignmentMap_eq, h'.assignmentMap_eq]
  exact ⟨rfl, profiles, rfl⟩

omit [RusqliteCrate] in
theorem Db.EntryReplaced.unknown {db : Db} {k : ProfileId × ControlId} {actions : List Action}
    (unknown : ¬ db.HasProfile k.1) : db.EntryReplaced k actions (.error .profileNotFound) db := by
  unfold Db.EntryReplaced
  rw [if_neg unknown]
  exact ⟨rfl, rfl⟩

/-- A lock region without faults on a store that represents a map. -/
theorem Region.exec_does (hp : UuidCrate.ParseInverts) (quiet : Quiet inputs) (r : Region)
    (stores : r ≠ .ensureDefaultProfile ∧ ∀ profile, r ≠ .insertProfile profile)
    (h : s.1.Represents m) :
    Does r s.1 (exec (inputs s.2).sql r s.1).1 (exec (inputs s.2).sql r s.1).2 := by
  rcases outcome (inputs s.2).sql r s.1 with ⟨error, fails, -, -⟩ | does
  · rcases fails.draws hp h (quiet.not_faulty _ _) with same | ⟨profile, same⟩
    · exact absurd same stores.1
    · exact absurd same (stores.2 profile)
  · exact does

section Does

variable {db db' : Db} {profileId : ProfileId} {control : ControlId}

omit [RusqliteCrate]

theorem Region.Does.saved (hp : UuidCrate.ParseInverts) {a : Assignment}
    {result : Except AppError Unit} (does : Does (.saveAssignment a) db result db')
    (h : db.Represents m) :
    db.EntryReplaced (a.profileId, a.control) a.actions result db' := by
  have h' := does.represents hp h
  cases does with
  | assignmentSaved known profiles => exact .known known profiles h h'
  | assignmentNotSaved unknown => exact .unknown unknown

theorem Region.Does.cleared (hp : UuidCrate.ParseInverts) {result : Except AppError Unit}
    (does : Does (.clearAssignment profileId control) db result db') (h : db.Represents m) :
    db.EntryReplaced (profileId, control) [] result db' := by
  have h' := does.represents hp h
  cases does with
  | assignmentCleared known profiles => exact .known known profiles h h'
  | assignmentNotCleared unknown => exact .unknown unknown

theorem Region.Does.loaded (hp : UuidCrate.ParseInverts) {result : Except AppError SnapshotState}
    (does : Does .loadSnapshotState db result db') (h : db.Represents m) :
    db.CallMeets .loadSnapshotState result db' := by
  cases does with
  | snapshotLoaded _ decoded =>
    refine ⟨rfl, _, rfl, ?_⟩
    rw [h.assignmentMap_eq]
    exact h.snapshot hp decoded

theorem Region.Does.found {result : Except AppError (Option Assignment)}
    (does : Does (.findAssignment profileId control) db result db') (h : db.Represents m) :
    db.CallMeets (.findAssignment profileId control) result db' := by
  cases does with
  | assignmentLookedUp decoded =>
    refine ⟨rfl, congrArg _ ?_⟩
    rw [h.assignmentMap_eq]
    exact h.find decoded

end Does

/-- Every call leaves a store that represents a map. -/
theorem performed_represents (hp : UuidCrate.ParseInverts) (call : RepositoryCall)
    (h : s.1.Represents m) : ∃ m', (performed inputs call s).2.1.Represents m' := by
  refine exec_keeps (I := fun s : Db × ℕ => ∃ m, s.1.Represents m) _ (fun o s h => ?_) ⟨m, h⟩ _
  obtain ⟨m, h⟩ := h
  cases o with
  | lock r =>
    rcases (Region.outcome (inputs s.2).sql r s.1).represents hp h with h' | ⟨-, same⟩
    · exact ⟨_, h'⟩
    · refine ⟨m, ?_⟩
      show (r.exec _ _).2.Represents m
      rw [same]
      exact h
  | _ => exact ⟨m, h⟩

/-- What one call answers and leaves on a store that represents a map. -/
theorem performed_meets (hp : UuidCrate.ParseInverts) (quiet : Quiet inputs) (call : RepositoryCall)
    (h : s.1.Represents m) :
    s.1.CallMeets call (performed inputs call s).1 (performed inputs call s).2.1 := by
  have keeps : (coreService.repository.perform call).run.Uses CoreOp.KeepsMap →
      (performed inputs call s).2.1.assignmentMap = s.1.assignmentMap := fun uses =>
    (performed_keepsMap hp uses h).assignmentMap_eq.trans h.assignmentMap_eq.symm
  cases call with
  | ensureDefaultProfile => exact keeps (uses_lock trivial)
  | createProfile name => exact keeps (uses_createProfile name)
  | listProfiles => exact keeps (uses_lock trivial)
  | renameProfile profileId name => exact keeps (uses_renameProfile profileId name)
  | setActiveProfile profileId => exact keeps (uses_lock trivial)
  | saveAssignment a =>
    exact (Region.exec_does hp quiet (.saveAssignment a) ⟨nofun, nofun⟩ h).saved hp h
  | clearAssignment profileId control =>
    exact (Region.exec_does hp quiet (.clearAssignment profileId control) ⟨nofun, nofun⟩ h).cleared
      hp h
  | loadSnapshotState =>
    exact (Region.exec_does hp quiet .loadSnapshotState ⟨nofun, nofun⟩ h).loaded hp h
  | findAssignment profileId control =>
    exact (Region.exec_does hp quiet (.findAssignment profileId control) ⟨nofun, nofun⟩ h).found h

/-- Every sequence of calls keeps a map represented. -/
theorem afterCalls_represents (hp : UuidCrate.ParseInverts)
    (calls : List RepositoryCall) (h : s.1.Represents m) :
    ∃ m', (afterCalls inputs calls s).1.Represents m' := by
  induction calls generalizing s m with
  | nil => exact ⟨m, h⟩
  | cons call calls ih =>
    obtain ⟨m', h'⟩ := performed_represents hp call h
    exact ih h'

/-- After every sequence of calls that starts with `ensure_default_profile` on a fresh database,
the assignments table represents the map it decodes to, and the next call acts on that map. -/
theorem assignments_implement_map (hp : UuidCrate.ParseInverts) (quiet : Quiet inputs)
    (calls : List RepositoryCall) (call : RepositoryCall) :
    (reached inputs calls).1.Represents (reached inputs calls).1.assignmentMap ∧
      (reached inputs calls).1.CallMeets call (performed inputs call (reached inputs calls)).1
        (performed inputs call (reached inputs calls)).2.1 := by
  obtain ⟨m, h⟩ : ∃ m, (reached inputs calls).1.Represents m :=
    afterCalls_represents hp (.ensureDefaultProfile :: calls) Db.represents_empty
  refine ⟨?_, performed_meets hp quiet call h⟩
  rw [h.assignmentMap_eq]
  exact h

end Store

open Reference in
/-- Looking up a saved assignment. -/
theorem assignments_implement_map_example :
    let s := reached calm [.saveAssignment ⟨⟨uuid 0⟩, .key ⟨0, by decide⟩ ⟨0, by decide⟩,
      [.openUrl ⟨"https://example.com", by decide⟩]⟩]
    s.1.Represents s.1.assignmentMap ∧
      s.1.CallMeets (.findAssignment ⟨uuid 0⟩ (.key ⟨0, by decide⟩ ⟨0, by decide⟩))
        (performed calm (.findAssignment ⟨uuid 0⟩ (.key ⟨0, by decide⟩ ⟨0, by decide⟩)) s).1
        (performed calm (.findAssignment ⟨uuid 0⟩ (.key ⟨0, by decide⟩ ⟨0, by decide⟩)) s).2.1 :=
  assignments_implement_map parseInverts (fun _ _ => rfl) _ _

end KeyroCore
