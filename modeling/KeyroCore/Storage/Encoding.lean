import KeyroCore.Data.Results
import KeyroCore.Storage.Tables

/-!
# Encoding of rows

How the repository writes profiles, controls and actions into columns and reads them back.
-/

open Results

namespace KeyroCore

/-! ## Columns -/

def getString (index : ℕ) : SqlValue → Except SqlError String
  | .text s => .ok s
  | _ => .error (.invalidColumnType index)

def getOptionString (index : ℕ) : SqlValue → Except SqlError (Option String)
  | .null => .ok none
  | .text s => .ok (some s)
  | _ => .error (.invalidColumnType index)

def getI64 (index : ℕ) : SqlValue → Except SqlError ℤ
  | .integer n => .ok n
  | _ => .error (.invalidColumnType index)

theorem getString_ok_iff {index : ℕ} {value : SqlValue} {s : String} :
    getString index value = .ok s ↔ value = .text s := by
  cases value <;> simp [getString]

theorem getOptionString_ok_iff {index : ℕ} {value : SqlValue} {s : Option String} :
    getOptionString index value = .ok s ↔ value = (s.map SqlValue.text).getD .null := by
  cases value <;> cases s <;> simp [getOptionString]

theorem getI64_ok_iff {index : ℕ} {value : SqlValue} {n : ℤ} :
    getI64 index value = .ok n ↔ value = .integer n := by
  cases value <;> simp [getI64]

def domainToSqlError (error : DomainError) : SqlError := .toSqlConversionFailure error

def domainToSqlReadError (error : DomainError) : SqlError := .fromSqlConversionFailure 0 error

/-! ## Profiles -/

section Profiles

variable [UuidCrate]

/-- The closure that `list_profiles` and `load_active_profile` read a row with. -/
def decodeProfile (row : ProfileRow) : Except SqlError Profile := do
  let id ← getString 0 row.id
  let id ← (ProfileId.parse id).mapError domainToSqlReadError
  let name ← getString 1 row.name
  let isActive ← getI64 2 row.isActive
  return { id, name, isActive := isActive = 1 }

theorem decodeProfile_ok_iff {row : ProfileRow} {profile : Profile} :
    decodeProfile row = .ok profile ↔
      (∃ id, row.id = .text id ∧ ProfileId.parse id = .ok profile.id) ∧
        row.name = .text profile.name ∧
          ∃ n, row.isActive = .integer n ∧ profile.isActive = decide (n = 1) := by
  unfold decodeProfile
  simp only [bind_ok_iff, mapError_ok_iff, pure_ok_iff, getString_ok_iff, getI64_ok_iff]
  constructor
  · rintro ⟨id, hid, profileId, hp, name, hname, n, hn, rfl⟩
    exact ⟨⟨id, hid, hp⟩, hname, n, hn, rfl⟩
  · rintro ⟨⟨id, hid, hp⟩, hname, n, hn, hactive⟩
    refine ⟨id, hid, profile.id, hp, profile.name, hname, n, hn, ?_⟩
    rw [← hactive]

theorem decodeProfile_isActive {row : ProfileRow} {profile : Profile}
    (h : decodeProfile row = .ok profile) : decide row.Active = profile.isActive := by
  obtain ⟨-, -, n, hn, hactive⟩ := decodeProfile_ok_iff.1 h
  rw [hactive]
  refine decide_eq_decide.2 ?_
  show row.isActive = _ ↔ _
  rw [hn, SqlValue.integer.injEq]

/-- Every stored profile can be read back. -/
def Db.Readable (db : Db) : Prop := ∀ row ∈ db.profiles, ∃ profile, decodeProfile row = .ok profile

theorem Db.Readable.list {db : Db} (h : db.Readable) :
    ∃ profiles, db.orderedProfiles.mapM decodeProfile = .ok profiles :=
  exists_mapM_ok fun row hr => h row (Rows.mem_orderBy.1 hr)

theorem decodeProfile_profileRow (hp : UuidCrate.ParseInverts) (profile : Profile) (n : ℤ)
    (now : String) : decodeProfile (profileRow profile n now) =
      .ok { profile with isActive := decide (n = 1) } :=
  decodeProfile_ok_iff.2 ⟨⟨_, rfl, ProfileId.parse_toString hp _⟩, rfl, n, rfl, rfl⟩

end Profiles

/-! ## Controls -/

def encodeEncoderOperation : EncoderOperation → String
  | .left => "left"
  | .right => "right"
  | .press => "press"

def decodeEncoderOperation (value : String) : Except SqlError EncoderOperation :=
  if value = "left" then .ok .left
  else if value = "right" then .ok .right
  else if value = "press" then .ok .press
  else .error .invalidQuery

def encodeControl : ControlId → ℤ × String × ℤ × String
  | .key page key => (page.get.toNat, "key", key.get.toNat, "press")
  | .encoder page encoder operation =>
      (page.get.toNat, "encoder", encoder.get.toNat, encodeEncoderOperation operation)

/-- `u8::try_from` on an `i64`. -/
def u8TryFrom (n : ℤ) : Except SqlError UInt8 :=
  if 0 ≤ n ∧ n < 256 then .ok (UInt8.ofNat n.toNat) else .error .invalidQuery

def decodeControl (page : ℤ) (controlKind : String) (controlIndex : ℤ)
    (controlOperation : String) : Except SqlError ControlId := do
  let page ← u8TryFrom page
  let controlIndex ← u8TryFrom controlIndex
  if controlKind = "key" then
    if controlOperation = "press" then
      (ControlId.newKey page controlIndex).mapError domainToSqlReadError
    else .error .invalidQuery
  else if controlKind = "encoder" then
    let operation ← decodeEncoderOperation controlOperation
    (ControlId.newEncoder page controlIndex operation).mapError domainToSqlReadError
  else .error .invalidQuery

theorem u8TryFrom_toNat (value : UInt8) : u8TryFrom value.toNat = .ok value := by
  have lt : value.toNat < 256 := value.toNat_lt
  rw [u8TryFrom, if_pos (by omega), Int.toNat_natCast, UInt8.ofNat_toNat]

theorem decodeEncoderOperation_encode (operation : EncoderOperation) :
    decodeEncoderOperation (encodeEncoderOperation operation) = .ok operation := by
  cases operation <;> decide

/-- The stored columns of a control are read back as the same control. -/
theorem decodeControl_encodeControl (control : ControlId) :
    decodeControl (encodeControl control).1 (encodeControl control).2.1
      (encodeControl control).2.2.1 (encodeControl control).2.2.2 = .ok control := by
  cases control with
  | key page key =>
    unfold decodeControl encodeControl
    rw [u8TryFrom_toNat, u8TryFrom_toNat]
    show (ControlId.newKey page.get key.get).mapError domainToSqlReadError = _
    rw [ControlId.newKey_get]
    rfl
  | encoder page encoder operation =>
    unfold decodeControl encodeControl
    dsimp only
    rw [u8TryFrom_toNat, u8TryFrom_toNat, decodeEncoderOperation_encode]
    show (ControlId.newEncoder page.get encoder.get operation).mapError domainToSqlReadError = _
    rw [ControlId.newEncoder_get]
    rfl

theorem encodeControl_injective {control control' : ControlId}
    (h : encodeControl control = encodeControl control') : control = control' := by
  have := decodeControl_encodeControl control
  rw [h, decodeControl_encodeControl] at this
  exact (Except.ok.inj this).symm

/-! ## Actions and identities -/

section Actions

variable [UrlCrate]

def encodeAction : Action → String × Option String
  | .openUrl url => ("open_url", some url.asStr)

def decodeAction (kind : String) (url : Option String) : Except SqlError Action :=
  if kind = "open_url" then
    match url with
    | none => .error .invalidQuery
    | some url => do
      let url ← (SafeUrl.parse url).mapError domainToSqlError
      return .openUrl url
  else .error .invalidQuery

/-- The closure that `find_assignment` reads a row with. -/
def decodeActionRow (row : AssignmentRow) : Except SqlError Action := do
  decodeAction (← getString 0 row.actionKind) (← getOptionString 1 row.actionUrl)

/-- The stored columns of an action are read back as the same action: its URL is parsed again. -/
theorem decodeAction_encodeAction (action : Action) :
    decodeAction (encodeAction action).1 (encodeAction action).2 = .ok action := by
  obtain ⟨url⟩ := action
  unfold decodeAction encodeAction
  dsimp only
  rw [if_pos rfl, SafeUrl.parse_asStr]
  rfl

theorem decodeActionRow_assignmentRow (identity : AssignmentIdentity) (position : ℤ)
    (action : Action) : decodeActionRow
      (assignmentRow identity position (encodeAction action).1 (encodeAction action).2) =
        .ok action := by
  obtain ⟨url⟩ := action
  exact decodeAction_encodeAction (.openUrl url)

end Actions

theorem AssignmentRow.Matches.unique {row : AssignmentRow} {identity identity' : AssignmentIdentity}
    (h : row.Matches identity) (h' : row.Matches identity') : identity = identity' := by
  obtain ⟨id, page, kind, index, operation⟩ := h
  obtain ⟨id', page', kind', index', operation'⟩ := h'
  rw [id, SqlValue.text.injEq] at id'
  rw [page, SqlValue.integer.injEq] at page'
  rw [kind, SqlValue.text.injEq] at kind'
  rw [index, SqlValue.integer.injEq] at index'
  rw [operation, SqlValue.text.injEq] at operation'
  cases identity
  cases identity'
  simp_all

variable [UuidCrate]

/-- The identity columns of a control of a profile. -/
def identityParams (profileId : ProfileId) (control : ControlId) : AssignmentIdentity :=
  let (page, controlKind, controlIndex, operation) := encodeControl control
  { profileId := profileId.toString, pageIndex := page, controlKind, controlIndex,
    controlOperation := operation }

theorem identityParams_inj (hp : UuidCrate.ParseInverts) {profileId profileId' : ProfileId}
    {control control' : ControlId}
    (h : identityParams profileId control = identityParams profileId' control') :
    profileId = profileId' ∧ control = control' := by
  simp only [identityParams, AssignmentIdentity.mk.injEq] at h
  obtain ⟨id, page, kind, index, operation⟩ := h
  exact ⟨(ProfileId.toString_inj hp).1 id, encodeControl_injective
    (Prod.ext page (Prod.ext kind (Prod.ext index operation)))⟩

variable [UrlCrate]

def assignmentIdentityParams (assignment : Assignment) : AssignmentIdentity :=
  identityParams assignment.profileId assignment.control

/-- The closure that `list_assignments_locked` reads a row with. -/
def decodeAssignmentRow (row : AssignmentRow) : Except SqlError (ProfileId × ControlId × Action) := do
  let profileId ← getString 0 row.profileId
  let page ← getI64 1 row.pageIndex
  let controlKind ← getString 2 row.controlKind
  let controlIndex ← getI64 3 row.controlIndex
  let controlOperation ← getString 4 row.controlOperation
  let actionKind ← getString 5 row.actionKind
  let actionUrl ← getOptionString 6 row.actionUrl
  return (← (ProfileId.parse profileId).mapError domainToSqlReadError,
    ← decodeControl page controlKind controlIndex controlOperation,
    ← decodeAction actionKind actionUrl)

theorem decodeAssignmentRow_assignmentRow (hp : UuidCrate.ParseInverts) (profileId : ProfileId)
    (control : ControlId) (position : ℤ) (action : Action) : decodeAssignmentRow
      (assignmentRow (identityParams profileId control) position (encodeAction action).1
        (encodeAction action).2) = .ok (profileId, control, action) := by
  have id := ProfileId.parse_toString hp profileId
  have controlRead := decodeControl_encodeControl control
  have actionRead := decodeAction_encodeAction action
  obtain ⟨url⟩ := action
  unfold decodeAssignmentRow
  simp only [bind_ok_iff, mapError_ok_iff, pure_ok_iff, getString_ok_iff, getI64_ok_iff,
    getOptionString_ok_iff]
  exact ⟨_, rfl, _, rfl, _, rfl, _, rfl, _, rfl, _, rfl, some url.asStr, rfl, _, id, _,
    controlRead, _, actionRead, rfl⟩

end KeyroCore
