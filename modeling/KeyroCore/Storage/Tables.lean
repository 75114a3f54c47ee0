import KeyroCore.Data.Rows
import KeyroCore.Domain

/-!
# The SQLite tables

The `profiles` and `assignments` tables with the constraints of the schema, and the SQL statements
that the repository issues on them.  A `Db` satisfies its constraints; a statement whose result
would break one fails and changes nothing.  Rows are kept in rowid order.
-/

namespace KeyroCore

/-- A stored value. -/
inductive SqlValue where
  | null
  | integer (n : ℤ)
  | text (s : String)
  | blob (bytes : List UInt8)
  deriving DecidableEq

namespace SqlValue

/-! ### The order of `ORDER BY`: by storage class, then within the class -/

def storageClass : SqlValue → ℕ
  | null => 0
  | integer _ => 1
  | text _ => 2
  | blob _ => 3

def integerPart : SqlValue → ℤ
  | integer n => n
  | _ => 0

def textPart : SqlValue → String
  | text s => s
  | _ => ""

def blobPart : SqlValue → List UInt8
  | blob bytes => bytes
  | _ => []

instance : Ord SqlValue where
  compare := compareLex (compareOn storageClass) (compareLex (compareOn integerPart)
    (compareLex (compareOn textPart) (compareOn blobPart)))

instance : Std.TransOrd SqlValue := inferInstanceAs (Std.TransCmp
  (compareLex (compareOn storageClass) (compareLex (compareOn integerPart)
    (compareLex (compareOn textPart) (compareOn blobPart)))))

instance : Std.LawfulEqOrd SqlValue where
  eq_of_compare := by
    intro a b h
    change (compare a.storageClass b.storageClass).then ((compare a.integerPart b.integerPart).then
      ((compare a.textPart b.textPart).then (compare a.blobPart b.blobPart))) = .eq at h
    simp only [Ordering.then_eq_eq, Std.LawfulEqCmp.compare_eq_iff_eq] at h
    obtain ⟨storage, integer, text, blob⟩ := h
    cases a <;> cases b <;> simp_all [storageClass, integerPart, textPart, blobPart]

theorem compare_integer (m n : ℤ) : compare (integer m) (integer n) = compare m n := by
  show compareLex _ _ _ _ = _
  simp [compareLex, compareOn, storageClass, integerPart, textPart, blobPart]

end SqlValue

/-- An error of `rusqlite`.  `sqliteFailure` carries the text SQLite reports for a statement that
fails from outside causes. -/
inductive SqlError where
  | sqliteFailure (text : String)
  | constraintViolation
  | invalidColumnType (index : ℕ)
  | fromSqlConversionFailure (index : ℕ) (error : DomainError)
  | toSqlConversionFailure (error : DomainError)
  | invalidQuery
  deriving DecidableEq

/-! ## Tables -/

structure ProfileRow where
  id : SqlValue
  name : SqlValue
  isActive : SqlValue
  createdAt : SqlValue
  deriving DecidableEq

structure AssignmentRow where
  profileId : SqlValue
  pageIndex : SqlValue
  controlKind : SqlValue
  controlIndex : SqlValue
  controlOperation : SqlValue
  actionPosition : SqlValue
  actionKind : SqlValue
  actionUrl : SqlValue
  deriving DecidableEq

/-- The five bound columns that identify a control of a profile. -/
structure AssignmentIdentity where
  profileId : String
  pageIndex : ℤ
  controlKind : String
  controlIndex : ℤ
  controlOperation : String
  deriving DecidableEq

namespace AssignmentRow

/-- The `WHERE` clause on the five identity columns. -/
def Matches (row : AssignmentRow) (identity : AssignmentIdentity) : Prop :=
  row.profileId = .text identity.profileId ∧ row.pageIndex = .integer identity.pageIndex ∧
    row.controlKind = .text identity.controlKind ∧
    row.controlIndex = .integer identity.controlIndex ∧
    row.controlOperation = .text identity.controlOperation

instance (row : AssignmentRow) (identity : AssignmentIdentity) :
    Decidable (row.Matches identity) :=
  inferInstanceAs (Decidable (_ ∧ _ ∧ _ ∧ _ ∧ _))

/-- The primary key columns. -/
def primaryKey (row : AssignmentRow) : List SqlValue :=
  [row.profileId, row.pageIndex, row.controlKind, row.controlIndex, row.controlOperation,
    row.actionPosition]

/-- The columns declared `NOT NULL`. -/
def required (row : AssignmentRow) : List SqlValue :=
  row.primaryKey ++ [row.actionKind]

end AssignmentRow

structure Tables where
  profiles : List ProfileRow
  assignments : List AssignmentRow
  deriving DecidableEq

def ProfileRow.Active (row : ProfileRow) : Prop := row.isActive = .integer 1

instance (row : ProfileRow) : Decidable row.Active := inferInstanceAs (Decidable (_ = _))

def Tables.activeProfiles (t : Tables) : List ProfileRow := t.profiles.filter fun row => row.Active

/-- The constraints of the schema. -/
structure Tables.Admits (t : Tables) : Prop where
  profile_not_null : ∀ row ∈ t.profiles, row.name ≠ .null ∧ row.createdAt ≠ .null
  is_active_check : ∀ row ∈ t.profiles, row.isActive = .integer 0 ∨ row.isActive = .integer 1
  profile_primary_key : ((t.profiles.map ProfileRow.id).filter (· ≠ .null)).Nodup
  only_one_active_profile : t.activeProfiles.length ≤ 1
  assignment_not_null : ∀ row ∈ t.assignments, .null ∉ row.required
  assignment_primary_key : (t.assignments.map AssignmentRow.primaryKey).Nodup
  profile_id_references : ∀ row ∈ t.assignments, row.profileId ∈ t.profiles.map ProfileRow.id

instance (t : Tables) : Decidable t.Admits :=
  decidable_of_iff
    ((∀ row ∈ t.profiles, row.name ≠ .null ∧ row.createdAt ≠ .null) ∧
      (∀ row ∈ t.profiles, row.isActive = .integer 0 ∨ row.isActive = .integer 1) ∧
      ((t.profiles.map ProfileRow.id).filter (· ≠ .null)).Nodup ∧
      t.activeProfiles.length ≤ 1 ∧
      (∀ row ∈ t.assignments, .null ∉ row.required) ∧
      (t.assignments.map AssignmentRow.primaryKey).Nodup ∧
      ∀ row ∈ t.assignments, row.profileId ∈ t.profiles.map ProfileRow.id)
    ⟨fun ⟨h₁, h₂, h₃, h₄, h₅, h₆, h₇⟩ => ⟨h₁, h₂, h₃, h₄, h₅, h₆, h₇⟩,
      fun ⟨h₁, h₂, h₃, h₄, h₅, h₆, h₇⟩ => ⟨h₁, h₂, h₃, h₄, h₅, h₆, h₇⟩⟩

/-- The content of a migrated database. -/
structure Db extends Tables where
  admits : toTables.Admits
  deriving DecidableEq

/-- The content of a fresh database. -/
def Db.empty : Db where
  profiles := []
  assignments := []
  admits := by decide

theorem Db.ext_rows {db db' : Db} (profiles : db.profiles = db'.profiles)
    (assignments : db.assignments = db'.assignments) : db = db' := by
  obtain ⟨⟨_, _⟩, _⟩ := db
  obtain ⟨⟨_, _⟩, _⟩ := db'
  cases profiles
  cases assignments
  rfl

/-- The content with new tables, if the constraints admit them. -/
def Db.write (t : Tables) : Except SqlError Db :=
  if h : t.Admits then .ok ⟨t, h⟩ else .error .constraintViolation

/-! ## Statements -/

/-- The SQL statements of the repository with their parameters. -/
inductive Stmt where
  /-- `SELECT id, name, is_active FROM profiles WHERE is_active = 1` -/
  | selectActiveProfile
  /-- `SELECT id, name, is_active FROM profiles ORDER BY created_at, name` -/
  | selectProfiles
  /-- `SELECT 1 FROM profiles WHERE id = ?1` -/
  | selectProfile (id : String)
  /-- `INSERT INTO profiles(id, name, is_active) VALUES (?1, ?2, isActive)` -/
  | insertProfile (id name : String) (isActive : ℤ)
  /-- `UPDATE profiles SET name = ?1 WHERE id = ?2` -/
  | updateProfileName (name id : String)
  /-- `UPDATE profiles SET is_active = 0 WHERE is_active = 1` -/
  | deactivateProfiles
  /-- `UPDATE profiles SET is_active = 1 WHERE id = ?1` -/
  | activateProfile (id : String)
  /-- `DELETE FROM assignments WHERE` the five identity columns match -/
  | deleteAssignment (identity : AssignmentIdentity)
  /-- `INSERT INTO assignments(...) VALUES (?1, ..., ?8)` -/
  | insertAssignment (identity : AssignmentIdentity) (position : ℤ) (kind : String)
      (url : Option String)
  /-- `SELECT ... FROM assignments ORDER BY` the primary key -/
  | selectAssignments
  /-- `SELECT action_kind, action_url FROM assignments WHERE` the five identity columns match
  `ORDER BY action_position` -/
  | selectActions (identity : AssignmentIdentity)

/-- A query returns rows, a change the number of rows it changed. -/
@[reducible] def Stmt.Result : Stmt → Type
  | .selectActiveProfile | .selectProfiles | .selectProfile _ => List ProfileRow
  | .selectAssignments | .selectActions _ => List AssignmentRow
  | .insertProfile _ _ _ | .updateProfileName _ _ | .deactivateProfiles | .activateProfile _
  | .deleteAssignment _ | .insertAssignment _ _ _ _ => ℕ

def ProfileRow.order : ProfileRow → ProfileRow → Ordering :=
  compareLex (compareOn (·.createdAt)) (compareOn (·.name))

def AssignmentRow.order : AssignmentRow → AssignmentRow → Ordering :=
  compareLex (compareOn (·.profileId)) <| compareLex (compareOn (·.pageIndex)) <|
    compareLex (compareOn (·.controlKind)) <| compareLex (compareOn (·.controlIndex)) <|
      compareLex (compareOn (·.controlOperation)) (compareOn (·.actionPosition))

instance : Std.TransCmp AssignmentRow.order := by
  unfold AssignmentRow.order
  infer_instance

/-- Rows that the order does not tell apart have the same primary key. -/
theorem AssignmentRow.primaryKey_eq_of_order {row row' : AssignmentRow}
    (h : AssignmentRow.order row row' = .eq) : row.primaryKey = row'.primaryKey := by
  simp only [AssignmentRow.order, compareLex, compareOn, Ordering.then_eq_eq,
    Std.LawfulEqCmp.compare_eq_iff_eq] at h
  obtain ⟨id, page, kind, index, operation, position⟩ := h
  simp only [primaryKey, id, page, kind, index, operation, position]

/-- Rows of one control are ordered by their positions. -/
theorem AssignmentRow.order_of_matches {identity : AssignmentIdentity} {row row' : AssignmentRow}
    (h : row.Matches identity) (h' : row'.Matches identity) :
    AssignmentRow.order row row' = compareOn AssignmentRow.actionPosition row row' := by
  obtain ⟨id, page, kind, index, operation⟩ := h
  obtain ⟨id', page', kind', index', operation'⟩ := h'
  simp only [AssignmentRow.order, compareLex, compareOn, id, page, kind, index, operation, id',
    page', kind', index', operation', Std.ReflCmp.compare_self, Ordering.eq_then]

/-- Replace the rows that satisfy `p`, and count them. -/
def updateWhere {α : Type} (p : α → Prop) [DecidablePred p] (f : α → α) (rows : List α) :
    List α × ℕ :=
  (rows.map fun row => if p row then f row else row, (rows.filter fun row => p row).length)

def assignmentRow (identity : AssignmentIdentity) (position : ℤ) (kind : String)
    (url : Option String) : AssignmentRow where
  profileId := .text identity.profileId
  pageIndex := .integer identity.pageIndex
  controlKind := .text identity.controlKind
  controlIndex := .integer identity.controlIndex
  controlOperation := .text identity.controlOperation
  actionPosition := .integer position
  actionKind := .text kind
  actionUrl := match url with
    | some url => .text url
    | none => .null

namespace Db

variable (db : Db)

/-- A change: write the new tables and report how many rows changed. -/
def change (t : Tables) (count : ℕ) : Except SqlError (ℕ × Db) := do
  return (count, ← Db.write t)

/-- The SQL meaning of a statement; `now` is `CURRENT_TIMESTAMP`. -/
def eval (now : String) : (stmt : Stmt) → Except SqlError (stmt.Result × Db)
  | .selectActiveProfile => .ok (db.activeProfiles, db)
  | .selectProfiles => .ok (Rows.orderBy ProfileRow.order db.profiles, db)
  | .selectProfile id => .ok (db.profiles.filter fun row => row.id = .text id, db)
  | .insertProfile id name isActive =>
      let row : ProfileRow :=
        { id := .text id, name := .text name, isActive := .integer isActive, createdAt := .text now }
      change { db.toTables with profiles := db.profiles ++ [row] } 1
  | .updateProfileName name id =>
      let updated := updateWhere (fun row => row.id = .text id)
        (fun row => { row with name := .text name }) db.profiles
      change { db.toTables with profiles := updated.1 } updated.2
  | .deactivateProfiles =>
      let updated := updateWhere ProfileRow.Active (fun row => { row with isActive := .integer 0 })
        db.profiles
      change { db.toTables with profiles := updated.1 } updated.2
  | .activateProfile id =>
      let updated := updateWhere (fun row => row.id = .text id)
        (fun row => { row with isActive := .integer 1 }) db.profiles
      change { db.toTables with profiles := updated.1 } updated.2
  | .deleteAssignment identity =>
      let kept := db.assignments.filter fun row => ¬ row.Matches identity
      change { db.toTables with assignments := kept } (db.assignments.length - kept.length)
  | .insertAssignment identity position kind url =>
      let row := assignmentRow identity position kind url
      change { db.toTables with assignments := db.assignments ++ [row] } 1
  | .selectAssignments => .ok (Rows.orderBy AssignmentRow.order db.assignments, db)
  | .selectActions identity =>
      .ok (Rows.orderBy (compareOn (·.actionPosition))
        (db.assignments.filter fun row => row.Matches identity), db)

end Db

/-! ## Changes that the constraints admit -/

theorem Db.change_eq_ok_iff {t : Tables} {count n : ℕ} {db' : Db} :
    Db.change t count = .ok (n, db') ↔ count = n ∧ t = db'.toTables := by
  unfold Db.change Db.write
  constructor
  · intro h
    split at h
    · cases h
      exact ⟨rfl, rfl⟩
    · cases h
  · rintro ⟨rfl, rfl⟩
    rw [dif_pos db'.admits]
    rfl

theorem Db.change_eq_error_iff {t : Tables} {count : ℕ} {error : SqlError} :
    Db.change t count = .error error ↔ error = .constraintViolation ∧ ¬ t.Admits := by
  unfold Db.change Db.write
  constructor
  · intro h
    split at h
    · cases h
    · next hn =>
      cases h
      exact ⟨rfl, hn⟩
  · rintro ⟨rfl, hn⟩
    rw [dif_neg hn]
    rfl

namespace Tables

variable {t : Tables}

/-- Changed profile rows are admitted when they keep their identity and name and at most one of
them is active. -/
theorem Admits.map_profiles (h : t.Admits) (f : ProfileRow → ProfileRow)
    (id_eq : ∀ row, (f row).id = row.id) (created : ∀ row, (f row).createdAt = row.createdAt)
    (name : ∀ row ∈ t.profiles, (f row).name ≠ .null)
    (check : ∀ row ∈ t.profiles, (f row).isActive = .integer 0 ∨ (f row).isActive = .integer 1)
    (active : (t.profiles.filter fun row => (f row).Active).length ≤ 1) :
    Tables.Admits { t with profiles := t.profiles.map f } := by
  have ids : (t.profiles.map f).map ProfileRow.id = t.profiles.map ProfileRow.id := by
    rw [List.map_map]
    exact List.map_congr_left fun row _ => id_eq row
  refine ⟨fun row hr => ?_, fun row hr => ?_, ?_, ?_, h.assignment_not_null,
    h.assignment_primary_key, ?_⟩
  · obtain ⟨old, ho, rfl⟩ := List.mem_map.1 hr
    exact ⟨name old ho, created old ▸ (h.profile_not_null old ho).2⟩
  · obtain ⟨old, ho, rfl⟩ := List.mem_map.1 hr
    exact check old ho
  · simpa only [ids] using h.profile_primary_key
  · rw [activeProfiles, List.filter_map, List.length_map]
    exact active
  · simpa only [ids] using h.profile_id_references

theorem Admits.filter_assignments (h : t.Admits) (p : AssignmentRow → Bool) :
    Tables.Admits { t with assignments := t.assignments.filter p } where
  profile_not_null := h.profile_not_null
  is_active_check := h.is_active_check
  profile_primary_key := h.profile_primary_key
  only_one_active_profile := h.only_one_active_profile
  assignment_not_null := fun row hr => h.assignment_not_null row (List.mem_filter.1 hr).1
  assignment_primary_key := h.assignment_primary_key.sublist (List.filter_sublist.map _)
  profile_id_references := fun row hr => h.profile_id_references row (List.mem_filter.1 hr).1

theorem Admits.append_assignment (h : t.Admits) {row : AssignmentRow}
    (required : .null ∉ row.required) (fresh : row.primaryKey ∉ t.assignments.map (·.primaryKey))
    (known : row.profileId ∈ t.profiles.map ProfileRow.id) :
    Tables.Admits { t with assignments := t.assignments ++ [row] } where
  profile_not_null := h.profile_not_null
  is_active_check := h.is_active_check
  profile_primary_key := h.profile_primary_key
  only_one_active_profile := h.only_one_active_profile
  assignment_not_null := by
    intro row' hr
    rcases List.mem_append.1 hr with hr | hr
    · exact h.assignment_not_null row' hr
    · exact List.mem_singleton.1 hr ▸ required
  assignment_primary_key := by
    rw [List.map_append, List.map_singleton]
    exact List.nodup_append_comm.1 (List.nodup_cons.2 ⟨fresh, h.assignment_primary_key⟩)
  profile_id_references := by
    intro row' hr
    rcases List.mem_append.1 hr with hr | hr
    · exact h.profile_id_references row' hr
    · exact List.mem_singleton.1 hr ▸ known

/-- At most one row carries a given non-null identity. -/
theorem Admits.length_filter_id_le (h : t.Admits) (id : String) :
    (t.profiles.filter fun row => row.id = .text id).length ≤ 1 := by
  have key := h.profile_primary_key
  have eq : (t.profiles.filter fun row => row.id = .text id).length =
      ((t.profiles.map ProfileRow.id).filter (· ≠ .null)).count (.text id) := by
    rw [List.count_filter (by simp), List.count, List.countP_map, List.countP_eq_length_filter]
    congr 1
  rw [eq]
  exact List.nodup_iff_count_le_one.1 key _

end Tables

/-! ## Views of the content -/

/-- The row that inserting a profile stores. -/
def profileRow [UuidCrate] (profile : Profile) (isActive : ℤ) (now : String) : ProfileRow where
  id := .text profile.id.toString
  name := .text profile.name
  isActive := .integer isActive
  createdAt := .text now

namespace Db

variable (db : Db)

/-- The rows of the other controls. -/
def otherAssignments (identity : AssignmentIdentity) : List AssignmentRow :=
  db.assignments.filter fun row => ¬ row.Matches identity

/-- The rows of a control in the order of their positions. -/
def actionsOf (identity : AssignmentIdentity) : List AssignmentRow :=
  Rows.orderBy (compareOn (·.actionPosition)) (db.assignments.filter fun row => row.Matches identity)

def orderedProfiles : List ProfileRow := Rows.orderBy ProfileRow.order db.profiles

def orderedAssignments : List AssignmentRow := Rows.orderBy AssignmentRow.order db.assignments

variable {db} in
/-- The order of the rows does not depend on their rowids. -/
theorem orderedAssignments_congr {db' : Db} (h : db.assignments.Perm db'.assignments) :
    db.orderedAssignments = db'.orderedAssignments := by
  have perm := ((Rows.orderBy_perm AssignmentRow.order db.assignments).trans h).trans
    (Rows.orderBy_perm AssignmentRow.order db'.assignments).symm
  refine perm.eq_of_pairwise (fun row row' hr hr' le ge => ?_) (Rows.pairwise_orderBy _ _)
    (Rows.pairwise_orderBy _ _)
  have same : AssignmentRow.order row row' = .eq := Std.OrientedCmp.isLE_antisymm le ge
  unfold orderedAssignments at hr hr'
  rw [Rows.mem_orderBy] at hr hr'
  exact List.inj_on_of_nodup_map db.admits.assignment_primary_key hr (h.mem_iff.2 hr')
    (AssignmentRow.primaryKey_eq_of_order same)

/-- `set_active_profile` first deactivates every row. -/
theorem deactivate_eq : (updateWhere ProfileRow.Active
    (fun row => { row with isActive := .integer 0 }) db.profiles).1 =
      db.profiles.map fun row => { row with isActive := .integer 0 } := by
  refine List.map_congr_left fun row hr => ?_
  split_ifs with active
  · rfl
  · rcases db.admits.is_active_check row hr with h | h
    · rw [← h]
    · exact absurd h active

theorem filter_active_nil (f : ProfileRow → ProfileRow) (rows : List ProfileRow)
    (h : ∀ row, (f row).isActive = .integer 0) : (rows.filter fun row => (f row).Active) = [] := by
  refine List.filter_eq_nil_iff.2 fun row _ => ?_
  simp [ProfileRow.Active, h row]

theorem admits_deactivate : Tables.Admits { db.toTables with
    profiles := db.profiles.map fun row => { row with isActive := .integer 0 } } := by
  refine db.admits.map_profiles _ (fun _ => rfl) (fun _ => rfl)
    (fun row hr => (db.admits.profile_not_null row hr).1) (fun _ _ => .inl rfl) ?_
  rw [filter_active_nil _ _ fun _ => rfl]
  exact Nat.zero_le 1

variable {db} in
/-- An assignment row is admitted at a position that the rows of its control have not reached. -/
theorem admits_append_assignment {identity : AssignmentIdentity} {position : ℕ} {kind : String}
    {url : Option String} (known : .text identity.profileId ∈ db.profiles.map ProfileRow.id)
    (below : ∀ row ∈ db.assignments, row.Matches identity →
      ∃ k < position, row.actionPosition = .integer (k : ℕ)) :
    Tables.Admits { db.toTables with
      assignments := db.assignments ++ [assignmentRow identity position kind url] } := by
  refine db.admits.append_assignment ?_ (fun hm => ?_) known
  · simp [AssignmentRow.required, AssignmentRow.primaryKey, assignmentRow]
  · obtain ⟨row, hr, key⟩ := List.mem_map.1 hm
    simp only [AssignmentRow.primaryKey, assignmentRow, List.cons.injEq] at key
    obtain ⟨h₁, h₂, h₃, h₄, h₅, h₆, -⟩ := key
    obtain ⟨k, lt, hk⟩ := below row hr ⟨h₁, h₂, h₃, h₄, h₅⟩
    rw [h₆, SqlValue.integer.injEq] at hk
    omega

variable [UuidCrate]

def HasProfile (profileId : ProfileId) : Prop :=
  .text profileId.toString ∈ db.profiles.map ProfileRow.id

instance (profileId : ProfileId) : Decidable (db.HasProfile profileId) :=
  inferInstanceAs (Decidable (_ ∈ _))

variable {db}

theorem hasProfile_iff_filter {profileId : ProfileId} : db.HasProfile profileId ↔
    (db.profiles.filter fun row => row.id = .text profileId.toString) ≠ [] := by
  rw [Ne, List.filter_eq_nil_iff, HasProfile, List.mem_map]
  simp

/-- The number of rows that a change of one profile reports. -/
theorem count_profile (profileId : ProfileId) :
    (db.profiles.filter fun row => row.id = .text profileId.toString).length =
      if db.HasProfile profileId then 1 else 0 := by
  have le := db.admits.length_filter_id_le profileId.toString
  split_ifs with h
  · have := List.length_pos_iff.2 (hasProfile_iff_filter.1 h)
    omega
  · rw [List.length_eq_zero_iff]
    exact not_not.1 fun hne => h (hasProfile_iff_filter.2 hne)

/-- A change of the rows with a given identity leaves the content alone when there is none. -/
theorem updateWhere_unknown {profileId : ProfileId} (unknown : ¬ db.HasProfile profileId)
    (f : ProfileRow → ProfileRow) :
    (updateWhere (fun row => row.id = .text profileId.toString) f db.profiles).1 = db.profiles := by
  unfold updateWhere
  conv_rhs => rw [← List.map_id db.profiles]
  refine List.map_congr_left fun row hr => if_neg fun hid => unknown ?_
  exact List.mem_map.2 ⟨row, hr, hid⟩

variable (db) in
theorem admits_rename (profileId : ProfileId) (name : String) :
    Tables.Admits { db.toTables with
      profiles := (updateWhere (fun row => row.id = .text profileId.toString)
        (fun row => { row with name := .text name }) db.profiles).1 } := by
  refine db.admits.map_profiles _ (fun row => ?_) (fun row => ?_) (fun row hr => ?_)
    (fun row hr => ?_) ?_
  · split_ifs <;> rfl
  · split_ifs <;> rfl
  · split_ifs
    · simp
    · exact (db.admits.profile_not_null row hr).1
  · have check := db.admits.is_active_check row hr
    split_ifs <;> exact check
  · refine le_of_eq_of_le ?_ db.admits.only_one_active_profile
    refine congrArg List.length (List.filter_congr fun row _ => ?_)
    unfold ProfileRow.Active
    split_ifs <;> rfl

variable (db) in
/-- The content that `set_active_profile` commits. -/
theorem admits_activate (profileId : ProfileId) : Tables.Admits { db.toTables with
    profiles := db.profiles.map fun row =>
      { row with isActive := .integer (if row.id = .text profileId.toString then 1 else 0) } } := by
  refine db.admits.map_profiles _ (fun _ => rfl) (fun _ => rfl)
    (fun row hr => (db.admits.profile_not_null row hr).1) (fun row _ => ?_) ?_
  · dsimp only
    split_ifs
    · exact .inr rfl
    · exact .inl rfl
  · refine le_of_eq_of_le ?_ (db.admits.length_filter_id_le profileId.toString)
    refine congrArg List.length (List.filter_congr fun row _ => ?_)
    unfold ProfileRow.Active
    dsimp only
    split_ifs with h <;> simp [h]

theorem activate_deactivated (profileId : ProfileId) (rows : List ProfileRow) :
    (updateWhere (fun row => row.id = .text profileId.toString)
      (fun row => { row with isActive := .integer 1 })
      (rows.map fun row => { row with isActive := .integer 0 })).1 =
        rows.map fun row =>
          { row with isActive := .integer (if row.id = .text profileId.toString then 1 else 0) } := by
  unfold updateWhere
  rw [List.map_map]
  refine List.map_congr_left fun row _ => ?_
  dsimp only [Function.comp_apply]
  split_ifs <;> rfl

theorem admits_append_profile {profile : Profile} {isActive : ℤ} {now : String}
    (unknown : ¬ db.HasProfile profile.id)
    (check : isActive = 0 ∨ isActive = 1 ∧ db.activeProfiles = []) :
    Tables.Admits { db.toTables with profiles := db.profiles ++ [profileRow profile isActive now] }
    where
  profile_not_null := by
    intro row hr
    rcases List.mem_append.1 hr with hr | hr
    · exact db.admits.profile_not_null row hr
    · rw [List.mem_singleton.1 hr]
      simp [profileRow]
  is_active_check := by
    intro row hr
    rcases List.mem_append.1 hr with hr | hr
    · exact db.admits.is_active_check row hr
    · rw [List.mem_singleton.1 hr]
      rcases check with rfl | ⟨rfl, -⟩
      · exact .inl rfl
      · exact .inr rfl
  profile_primary_key := by
    rw [List.map_append, List.filter_append]
    refine List.nodup_append_comm.1 (List.nodup_cons.2 ⟨fun hm => ?_, ?_⟩)
    · exact unknown (List.mem_filter.1 hm).1
    · exact db.admits.profile_primary_key
  only_one_active_profile := by
    have one := db.admits.only_one_active_profile
    rw [Tables.activeProfiles] at one
    rw [Tables.activeProfiles, List.filter_append, List.length_append]
    rcases check with rfl | ⟨rfl, hn⟩
    · simpa [ProfileRow.Active, profileRow] using one
    · rw [Tables.activeProfiles] at hn
      rw [hn, List.length_nil, Nat.zero_add]
      exact List.length_filter_le _ [profileRow profile 1 now]
  assignment_not_null := db.admits.assignment_not_null
  assignment_primary_key := db.admits.assignment_primary_key
  profile_id_references := by
    intro row hr
    rw [List.map_append]
    exact List.mem_append_left _ (db.admits.profile_id_references row hr)

end Db

end KeyroCore
