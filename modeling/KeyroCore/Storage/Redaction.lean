import KeyroCore.Effect.Relation
import KeyroCore.Storage.Repository

/-!
# Stores that differ in secrets

Two stores whose URLs differ only in what `redacted_for_log` leaves out.  A lock region does the
same on both: it fails with the same error, or it returns values that agree up to such URLs.
-/

open Effect Program Fallible

namespace KeyroCore

section Relations

variable [UrlCrate]

/-- The URLs look the same in a log. -/
def SafeUrl.Alike (u v : SafeUrl) : Prop := u.redactedForLog = v.redactedForLog

def Action.Alike : Action → Action → Prop
  | .openUrl u, .openUrl v => u.Alike v

structure Assignment.Alike (a b : Assignment) : Prop where
  profileId : a.profileId = b.profileId
  control : a.control = b.control
  actions : List.Forall₂ Action.Alike a.actions b.actions

/-- Columns that hold the same, or URLs that were accepted and look the same in a log. -/
inductive SqlValue.Alike : SqlValue → SqlValue → Prop
  | refl (v : SqlValue) : Alike v v
  | url {u v : SafeUrl} (alike : u.Alike v) : Alike (.text u.asStr) (.text v.asStr)

structure AssignmentRow.Alike (row row' : AssignmentRow) : Prop where
  columns : row' = { row with actionUrl := row'.actionUrl }
  url : row.actionUrl.Alike row'.actionUrl

structure Tables.Alike (t t' : Tables) : Prop where
  profiles : t.profiles = t'.profiles
  assignments : List.Forall₂ AssignmentRow.Alike t.assignments t'.assignments

def Db.Alike (db db' : Db) : Prop := db.toTables.Alike db'.toTables

theorem Action.Alike.refl (action : Action) : action.Alike action := by
  obtain ⟨url⟩ := action
  exact rfl

theorem Assignment.Alike.refl (a : Assignment) : a.Alike a :=
  ⟨rfl, rfl, List.forall₂_same.2 fun action _ => .refl action⟩

theorem AssignmentRow.Alike.refl (row : AssignmentRow) : row.Alike row := ⟨rfl, .refl _⟩

theorem Db.Alike.refl (db : Db) : db.Alike db :=
  ⟨rfl, List.forall₂_same.2 fun row _ => .refl row⟩

theorem AssignmentRow.Alike.symm {row row' : AssignmentRow} (h : row.Alike row') :
    row'.Alike row := by
  obtain ⟨columns, url⟩ := h
  have back : row = { row' with actionUrl := row.actionUrl } := by rw [columns]
  refine ⟨back, ?_⟩
  generalize row.actionUrl = v, row'.actionUrl = v' at url
  cases url with
  | refl => exact .refl _
  | url alike => exact .url alike.symm

theorem Tables.Alike.symm {t t' : Tables} (h : t.Alike t') : t'.Alike t :=
  ⟨h.profiles.symm, h.assignments.flip.imp fun _ _ alike => alike.symm⟩

/-- Whatever does not read the URLs is the same. -/
theorem Tables.Alike.map_eq {t t' : Tables} (h : t.Alike t') {β : Type} {f : AssignmentRow → β}
    (url : ∀ (row : AssignmentRow) v, f { row with actionUrl := v } = f row) :
    t'.assignments.map f = t.assignments.map f := by
  have eq : List.Forall₂ Eq (t'.assignments.map f) (t.assignments.map f) := by
    rw [List.forall₂_map_left_iff, List.forall₂_map_right_iff]
    refine h.assignments.flip.imp fun row' row alike => ?_
    have columns : row' = { row with actionUrl := row'.actionUrl } := alike.columns
    rw [columns, url]
  rwa [List.forall₂_eq_eq_eq] at eq

theorem Tables.Alike.admits {t t' : Tables} (h : t.Alike t') (admits : t.Admits) : t'.Admits := by
  have required := h.map_eq (f := AssignmentRow.required) fun _ _ => rfl
  have key := h.map_eq (f := AssignmentRow.primaryKey) fun _ _ => rfl
  have ids := h.map_eq (f := AssignmentRow.profileId) fun _ _ => rfl
  obtain ⟨notNull, check, primary, active, assigned, assignedKey, references⟩ := admits
  refine ⟨h.profiles ▸ notNull, h.profiles ▸ check, h.profiles ▸ primary, ?_, ?_, ?_, ?_⟩
  · unfold Tables.activeProfiles at active ⊢
    rw [← h.profiles]
    exact active
  · have all := (List.forall_mem_map (P := fun required : List SqlValue => .null ∉ required)).2 assigned
    rw [← required] at all
    exact (List.forall_mem_map (P := fun required : List SqlValue => .null ∉ required)).1 all
  · rw [key]
    exact assignedKey
  · have all := (List.forall_mem_map (P := fun id => id ∈ t.profiles.map ProfileRow.id)).2 references
    rw [← ids, h.profiles] at all
    exact List.forall_mem_map.1 all

/-! ## Statements -/

/-- A change of both stores is refused by both or leaves stores that differ in secrets. -/
theorem change_alike {t t' : Tables} (h : t.Alike t') {m n : ℕ} (count : m = n) :
    SameOutcome (fun x y : ℕ × Db => x.1 = y.1 ∧ x.2.Alike y.2) (Db.change t m) (Db.change t' n) := by
  subst count
  unfold Db.change Db.write
  by_cases admits : t.Admits
  · rw [dif_pos admits, dif_pos (h.admits admits)]
    exact .ok ⟨rfl, h⟩
  · rw [dif_neg admits, dif_neg fun admits' => admits (h.symm.admits admits')]
    exact .error _

/-- Results of a statement that agree up to secrets. -/
def Stmt.ResultAlike : (stmt : Stmt) → stmt.Result → stmt.Result → Prop
  | .selectAssignments | .selectActions _ => List.Forall₂ AssignmentRow.Alike
  | .selectActiveProfile | .selectProfiles | .selectProfile _ => Eq
  | .insertProfile _ _ _ | .updateProfileName _ _ | .deactivateProfiles | .activateProfile _
  | .deleteAssignment _ | .insertAssignment _ _ _ _ => Eq

theorem AssignmentRow.Alike.matches_iff {row row' : AssignmentRow} (h : row.Alike row')
    (identity : AssignmentIdentity) : row'.Matches identity ↔ row.Matches identity := by
  rw [h.columns]
  exact Iff.rfl

theorem filter_alike {rows rows' : List AssignmentRow}
    (h : List.Forall₂ AssignmentRow.Alike rows rows') (identity : AssignmentIdentity) :
    List.Forall₂ AssignmentRow.Alike (rows.filter fun row => row.Matches identity)
        (rows'.filter fun row => row.Matches identity) ∧
      List.Forall₂ AssignmentRow.Alike (rows.filter fun row => ¬ row.Matches identity)
        (rows'.filter fun row => ¬ row.Matches identity) := by
  constructor
  · refine List.rel_filter (fun row row' alike => ?_) h
    simp only [decide_eq_true_eq, alike.matches_iff]
  · refine List.rel_filter (fun row row' alike => ?_) h
    simp only [decide_eq_true_eq, alike.matches_iff]

variable {db db' : Db}

theorem eval_alike (h : db.Alike db') (now : String) (stmt : Stmt) :
    SameOutcome (fun x y : stmt.Result × Db => stmt.ResultAlike x.1 y.1 ∧ x.2.Alike y.2)
      (db.eval now stmt) (db'.eval now stmt) := by
  obtain ⟨profiles, assignments⟩ := h
  cases stmt with
  | selectActiveProfile =>
    refine .ok ⟨?_, profiles, assignments⟩
    show db.activeProfiles = db'.activeProfiles
    unfold Tables.activeProfiles
    rw [profiles]
  | selectProfiles =>
    refine .ok ⟨?_, profiles, assignments⟩
    exact congrArg (Rows.orderBy ProfileRow.order) profiles
  | selectProfile id =>
    refine .ok ⟨?_, profiles, assignments⟩
    exact congrArg (List.filter _) profiles
  | insertProfile id name isActive =>
    apply change_alike
    · exact ⟨congrArg (· ++ _) profiles, assignments⟩
    · rfl
  | updateProfileName name id =>
    apply change_alike
    · exact ⟨by dsimp only; rw [profiles], assignments⟩
    · rw [profiles]
  | deactivateProfiles =>
    apply change_alike
    · exact ⟨by dsimp only; rw [profiles], assignments⟩
    · rw [profiles]
  | activateProfile id =>
    apply change_alike
    · exact ⟨by dsimp only; rw [profiles], assignments⟩
    · rw [profiles]
  | deleteAssignment identity =>
    have kept := (filter_alike assignments identity).2
    apply change_alike
    · exact ⟨profiles, kept⟩
    · exact congrArg₂ (· - ·) assignments.length_eq kept.length_eq
  | insertAssignment identity position kind url =>
    apply change_alike
    · exact ⟨profiles, List.rel_append assignments (.cons (.refl _) .nil)⟩
    · rfl
  | selectAssignments =>
    refine .ok ⟨Rows.forall₂_orderBy (fun row row' other other' alike alike' => ?_) assignments,
      profiles, assignments⟩
    rw [alike.columns, alike'.columns]
    rfl
  | selectActions identity =>
    refine .ok ⟨Rows.forall₂_orderBy (fun row row' other other' alike alike' => ?_)
      (filter_alike assignments identity).1, profiles, assignments⟩
    rw [alike.columns, alike'.columns]
    rfl

/-- The row of an action, when the URLs look the same in a log. -/
theorem insert_alike (h : db.Alike db') (now : String) (identity : AssignmentIdentity)
    (position : ℤ) {action action' : Action} (alike : action.Alike action') :
    SameOutcome (fun x y : ℕ × Db => x.1 = y.1 ∧ x.2.Alike y.2)
      (db.eval now (.insertAssignment identity position (encodeAction action).1
        (encodeAction action).2))
      (db'.eval now (.insertAssignment identity position (encodeAction action').1
        (encodeAction action').2)) := by
  obtain ⟨url⟩ := action
  obtain ⟨url'⟩ := action'
  apply change_alike
  · exact ⟨h.profiles, List.rel_append h.assignments (.cons ⟨rfl, .url alike⟩ .nil)⟩
  · rfl

end Relations

/-! ## Rows that are read back -/

section Decoding

variable [UrlCrate]

/-- Accepted URLs are read again, whatever else the row says. -/
theorem decodeAction_alike (kind : String) {u v : SafeUrl} (alike : u.Alike v) :
    SameOutcome Action.Alike (decodeAction kind (some u.asStr))
      (decodeAction kind (some v.asStr)) := by
  unfold decodeAction
  split_ifs
  · dsimp only
    rw [SafeUrl.parse_asStr, SafeUrl.parse_asStr]
    exact .ok alike
  · exact .error _

/-- The actions of two rows are refused with the same error, or look the same in a log. -/
theorem decodeActionRow_alike (row row' : AssignmentRow) (h : row.Alike row') :
    SameOutcome Action.Alike (decodeActionRow row) (decodeActionRow row') := by
  obtain ⟨columns, url⟩ := h
  rw [columns]
  unfold decodeActionRow
  refine .bind_same fun kind => ?_
  dsimp only
  generalize row.actionUrl = v, row'.actionUrl = v' at url
  cases url with
  | refl => exact .of_eq Action.Alike.refl _
  | url alike => exact decodeAction_alike kind alike

variable [UuidCrate]

/-- Two rows are refused with the same error, or both are read. -/
theorem decodeAssignmentRow_alike (row row' : AssignmentRow) (h : row.Alike row') :
    SameOutcome (fun _ _ => True) (decodeAssignmentRow row) (decodeAssignmentRow row') := by
  obtain ⟨columns, url⟩ := h
  rw [columns]
  unfold decodeAssignmentRow
  refine .bind_same fun profileId => .bind_same fun page => .bind_same fun controlKind =>
    .bind_same fun controlIndex => .bind_same fun controlOperation => .bind_same fun actionKind => ?_
  dsimp only
  generalize row.actionUrl = v, row'.actionUrl = v' at url
  cases url with
  | refl => exact .of_eq (fun _ => trivial) _
  | @url u v alike =>
    refine .bind_same (x := (ProfileId.parse profileId).mapError domainToSqlReadError) fun id => ?_
    refine .bind_same fun control => ?_
    exact (decodeAction_alike actionKind alike).bind fun _ _ _ => .ok trivial

end Decoding

/-! ## Lock regions -/

section Regions

variable [UrlCrate] {env : ℕ → SqlChoice} {α β : Type} {R : α → β → Prop}

/-- Connections that have come equally far on stores that differ in secrets. -/
structure SqliteConnection.Alike (c c' : SqliteConnection) : Prop where
  file : c.file.Alike c'.file
  transaction : Option.Rel Db.Alike c.transaction c'.transaction
  clock : c.clock = c'.clock

theorem SqliteConnection.Alike.current {c c' : SqliteConnection} (h : c.Alike c') :
    c.current.Alike c'.current := by
  obtain ⟨file, transaction, -⟩ := h
  unfold SqliteConnection.current
  generalize c.transaction = t, c'.transaction = t' at transaction
  cases transaction with
  | none => exact file
  | some alike => exact alike

theorem SqliteConnection.Alike.put {c c' : SqliteConnection} (h : c.Alike c') {db db' : Db}
    (alike : db.Alike db') : (c.put db).Alike (c'.put db') := by
  obtain ⟨file, transaction, clock⟩ := h
  obtain ⟨file₁, transaction₁, clock₁⟩ := c
  obtain ⟨file₂, transaction₂, clock₂⟩ := c'
  cases transaction with
  | none => exact ⟨alike, .none, clock⟩
  | some _ => exact ⟨file, .some alike, clock⟩

theorem SqliteConnection.Alike.tick {c c' : SqliteConnection} (h : c.Alike c') :
    c.tick.Alike c'.tick :=
  ⟨h.file, h.transaction, congrArg (· + 1) h.clock⟩

theorem related_domain (result : Except DomainError α) : Fallible.Related (sqlite env) (sqlite env)
    SqliteConnection.Alike Eq (domain result : Sql α) (domain result) := by
  cases result with
  | ok a => exact Fallible.related_pure rfl
  | error error => exact Fallible.related_throw _

variable [RusqliteCrate]

theorem related_orAppError {x : Except SqlError α} {y : Except SqlError β}
    (same : SameOutcome R x y) : Fallible.Related (sqlite env) (sqlite env) SqliteConnection.Alike R
      (orAppError x) (orAppError y) := by
  cases same with
  | ok related => exact Fallible.related_pure related
  | error e => exact Fallible.related_throw _

/-- Statements whose meanings agree up to secrets. -/
theorem related_evaluated (stmt stmt' : Stmt) (R : stmt.Result → stmt'.Result → Prop)
    (evaluates : ∀ db db' now, Db.Alike db db' → SameOutcome
      (fun x y : _ × Db => R x.1 y.1 ∧ x.2.Alike y.2) (db.eval now stmt) (db'.eval now stmt')) :
    Fallible.Related (sqlite env) (sqlite env) SqliteConnection.Alike R (statement stmt)
      (statement stmt') := by
  refine Fallible.Related.bind (R := SameOutcome R) (Fallible.related_lift fun c c' alike => ?_)
    fun x y same => related_orAppError same
  rw [exec_call, exec_call]
  simp only [sqlite]
  rw [← alike.clock]
  cases (env c.clock).failure with
  | some text => exact ⟨.error _, alike.tick⟩
  | none =>
    dsimp only
    have evaluated := evaluates _ _ (env c.clock).now alike.current
    generalize c.current.eval _ stmt = x, c'.current.eval _ stmt' = y at evaluated
    cases evaluated with
    | error e => exact ⟨.error e, alike.tick⟩
    | ok both => exact ⟨.ok both.1, (alike.put both.2).tick⟩

theorem related_statement (stmt : Stmt) : Fallible.Related (sqlite env) (sqlite env)
    SqliteConnection.Alike stmt.ResultAlike (statement stmt) (statement stmt) :=
  related_evaluated _ _ _ fun _ _ now alike => eval_alike alike now stmt

theorem related_commit : Fallible.Related (sqlite env) (sqlite env) SqliteConnection.Alike
    (fun _ _ => True) commit commit := by
  refine Fallible.Related.bind (R := SameOutcome fun _ _ => True)
    (Fallible.related_lift fun c c' alike => ?_) fun x y same => related_orAppError same
  rw [exec_call, exec_call]
  simp only [sqlite]
  rw [← alike.clock]
  cases (env c.clock).failure with
  | some text => exact ⟨.error _, alike.file, .none, rfl⟩
  | none => exact ⟨.ok trivial, alike.current, .none, rfl⟩

theorem related_transaction {body : Sql α} {body' : Sql β} (related : Fallible.Related (sqlite env)
    (sqlite env) SqliteConnection.Alike R body body') : Fallible.Related (sqlite env) (sqlite env)
      SqliteConnection.Alike R (transaction body) (transaction body') := by
  refine Fallible.Related.bind (R := SameOutcome fun _ _ => True)
    (Fallible.related_lift fun c c' alike => ?_) fun x y same => ?_
  · rw [exec_call, exec_call]
    simp only [sqlite]
    rw [← alike.clock]
    cases (env c.clock).failure with
    | some text => exact ⟨.error _, alike.tick⟩
    | none => exact ⟨.ok trivial, alike.file, .some alike.file, rfl⟩
  · refine Fallible.Related.bind (related_orAppError same) fun _ _ _ => ?_
    refine Program.Related.bind related fun r r' outcome => ?_
    refine Program.Related.bind (R := fun _ _ => True) (J := SqliteConnection.Alike)
      (fun c c' alike => ?_) fun _ _ _ => Program.related_pure outcome
    exact ⟨trivial, alike.file, .none, congrArg (· + 1) alike.clock⟩

/-! ### Each region -/

variable [UuidCrate]

theorem related_profileExists (profileId : ProfileId) : Fallible.Related (sqlite env) (sqlite env)
    SqliteConnection.Alike Eq (profileExists profileId) (profileExists profileId) := by
  refine (related_statement _).bind fun rows rows' same => ?_
  obtain rfl : rows = rows' := same
  exact Fallible.related_pure rfl

/-- The region goes on only if the profile exists. -/
theorem related_known {body body' : Sql α} (profileId : ProfileId) {R : α → α → Prop}
    (related : Fallible.Related (sqlite env) (sqlite env) SqliteConnection.Alike R body body') :
    Fallible.Related (sqlite env) (sqlite env) SqliteConnection.Alike R
      (do
        if !(← profileExists profileId) then throw .profileNotFound
        body)
      (do
        if !(← profileExists profileId) then throw .profileNotFound
        body') := by
  refine (related_profileExists profileId).bind fun known known' same => ?_
  subst same
  cases known with
  | true => exact related
  | false => exact Fallible.related_throw _

omit [UuidCrate] in
theorem related_insertActions (identity : AssignmentIdentity) (position : ℕ)
    {actions actions' : List Action} (alike : List.Forall₂ Action.Alike actions actions') :
    Fallible.Related (sqlite env) (sqlite env) SqliteConnection.Alike (fun _ _ => True)
      (insertActions identity position actions) (insertActions identity position actions') := by
  induction alike generalizing position with
  | nil => exact Fallible.related_pure trivial
  | @cons action action' actions actions' head tail ih =>
    have inserted : Fallible.Related (sqlite env) (sqlite env) SqliteConnection.Alike
        (fun m n : ℕ => m = n)
        (statement (.insertAssignment identity position (encodeAction action).1
          (encodeAction action).2))
        (statement (.insertAssignment identity position (encodeAction action').1
          (encodeAction action').2)) :=
      related_evaluated (.insertAssignment _ _ _ _) (.insertAssignment _ _ _ _) _
        fun db db' now stores => insert_alike stores now identity position head
    exact inserted.bind fun _ _ _ => ih (position + 1)

theorem related_saveAssignment (env : ℕ → SqlChoice) {a b : Assignment} (alike : a.Alike b) :
    Fallible.Related (sqlite env) (sqlite env) SqliteConnection.Alike (fun _ _ => True)
      (saveAssignmentLocked a) (saveAssignmentLocked b) := by
  have identity : assignmentIdentityParams a = assignmentIdentityParams b := by
    rw [assignmentIdentityParams, assignmentIdentityParams, alike.profileId, alike.control]
  unfold saveAssignmentLocked
  rw [identity, alike.profileId]
  refine related_transaction (related_known b.profileId ?_)
  refine (related_statement _).bind fun _ _ _ => ?_
  exact (related_insertActions _ 0 alike.actions).bind fun _ _ _ => related_commit

/-- Values that a region returns on stores that differ in secrets. -/
def Region.ValueAlike : (r : Region) → r.Value → r.Value → Prop
  | .findAssignment _ _ => Option.Rel Assignment.Alike
  | .loadSnapshotState => fun state state' => state.profiles = state'.profiles
  | .ensureDefaultProfile | .listProfiles => Eq
  | .insertProfile _ | .updateProfileName _ _ | .setActiveProfile _ | .saveAssignment _
  | .clearAssignment _ _ => fun _ _ => True

theorem related_listProfilesLocked : Fallible.Related (sqlite env) (sqlite env)
    SqliteConnection.Alike Eq listProfilesLocked listProfilesLocked := by
  refine (related_statement _).bind fun rows rows' same => ?_
  obtain rfl : rows = rows' := same
  exact related_orAppError (.of_eq (fun _ => rfl) _)

theorem related_loadActiveProfile : Fallible.Related (sqlite env) (sqlite env)
    SqliteConnection.Alike Eq loadActiveProfile loadActiveProfile := by
  refine (related_statement _).bind fun rows rows' same => ?_
  obtain rfl : rows = rows' := same
  cases rows with
  | nil => exact Fallible.related_pure rfl
  | cons row rows =>
    refine (related_orAppError (R := Eq) (.of_eq (fun _ => rfl) _)).bind fun profile _ same => ?_
    exact Fallible.related_pure (congrArg some same)

theorem related_body (env : ℕ → SqlChoice) (r : Region) : Fallible.Related (sqlite env) (sqlite env)
    SqliteConnection.Alike r.ValueAlike r.body r.body := by
  cases r with
  | ensureDefaultProfile =>
    refine related_loadActiveProfile.bind fun found found' same => ?_
    subst same
    cases found with
    | some profile => exact Fallible.related_pure rfl
    | none =>
      refine (Fallible.related_lift (R := Eq) fun c c' alike => ?_).bind fun uuid uuid' same => ?_
      · rw [exec_call, exec_call]
        simp only [sqlite]
        rw [← alike.clock]
        exact ⟨rfl, alike.tick⟩
      · subst same
        refine (related_domain _).bind fun profile profile' same => ?_
        subst same
        exact (related_statement _).bind fun _ _ _ => Fallible.related_pure rfl
  | insertProfile profile =>
    exact (related_statement _).bind fun _ _ _ => Fallible.related_pure trivial
  | listProfiles => exact related_listProfilesLocked
  | updateProfileName profileId name =>
    refine (related_statement _).bind fun updated updated' same => ?_
    obtain rfl : updated = updated' := same
    split_ifs
    · exact Fallible.related_throw _
    · exact Fallible.related_pure trivial
  | setActiveProfile profileId =>
    refine related_transaction (related_known profileId ?_)
    refine (related_statement _).bind fun updated updated' same => ?_
    obtain rfl : updated = updated' := same
    split_ifs
    · exact Fallible.related_throw _
    · refine (related_statement _).bind fun activated activated' same => ?_
      obtain rfl : activated = activated' := same
      split_ifs
      · exact Fallible.related_throw _
      · exact related_commit
  | saveAssignment assignment =>
    exact related_saveAssignment env (.refl assignment)
  | clearAssignment profileId control =>
    exact related_known profileId
      ((related_statement _).bind fun _ _ _ => Fallible.related_pure trivial)
  | loadSnapshotState =>
    refine related_listProfilesLocked.bind fun profiles profiles' same => ?_
    subst same
    refine Fallible.Related.bind (R := fun _ _ => True) ?_ fun _ _ _ => Fallible.related_pure rfl
    refine (related_statement _).bind fun rows rows' alike => ?_
    have alike : List.Forall₂ AssignmentRow.Alike rows rows' := alike
    have read : SameOutcome (List.Forall₂ fun _ _ => True) (rows.mapM decodeAssignmentRow)
        (rows'.mapM decodeAssignmentRow) :=
      .mapM decodeAssignmentRow_alike alike
    exact (related_orAppError read).bind fun _ _ _ => Fallible.related_pure trivial
  | findAssignment profileId control =>
    refine (related_statement _).bind fun rows rows' alike => ?_
    have alike : List.Forall₂ AssignmentRow.Alike rows rows' := alike
    have read : SameOutcome (List.Forall₂ Action.Alike) (rows.mapM decodeActionRow)
        (rows'.mapM decodeActionRow) := .mapM decodeActionRow_alike alike
    refine (related_orAppError read).bind fun actions actions' alike => Fallible.related_pure ?_
    cases alike with
    | nil => exact .none
    | cons head tail => exact .some ⟨rfl, rfl, .cons head tail⟩

/-- Lock regions that agree up to secrets. -/
inductive Region.Alike : Region → Region → Prop
  | refl (r : Region) : Alike r r
  | save {a b : Assignment} (alike : a.Alike b) : Alike (.saveAssignment a) (.saveAssignment b)

/-- A region does the same on stores that differ in secrets. -/
theorem exec_alike {db db' : Db} (h : db.Alike db') (env : ℕ → SqlChoice) (r : Region) :
    SameOutcome r.ValueAlike (r.exec env db).1 (r.exec env db').1 ∧
      (r.exec env db).2.Alike (r.exec env db').2 := by
  obtain ⟨same, alike⟩ := related_body env r ⟨db, none, 0⟩ ⟨db', none, 0⟩ ⟨h, .none, rfl⟩
  exact ⟨same, alike.file⟩

theorem exec_save_alike {db db' : Db} (h : db.Alike db') (env : ℕ → SqlChoice)
    {a b : Assignment} (alike : a.Alike b) :
    SameOutcome (fun _ _ => True) (Region.exec env (.saveAssignment a) db).1
        (Region.exec env (.saveAssignment b) db').1 ∧
      (Region.exec env (.saveAssignment a) db).2.Alike
        (Region.exec env (.saveAssignment b) db').2 := by
  obtain ⟨same, alike⟩ := related_saveAssignment env alike ⟨db, none, 0⟩ ⟨db', none, 0⟩
    ⟨h, .none, rfl⟩
  exact ⟨same, alike.file⟩

end Regions

end KeyroCore
