import Mathlib.Logic.Basic
import Mathlib.Tactic.SplitIfs
import KeyroCore.Crates
import KeyroCore.Data.Results

/-!
# Domain model

The types of `core-domain` with the checks of their constructors.  An index, a URL or a control
that exists has passed its check.
-/

open Results

namespace KeyroCore

def PAGE_COUNT : UInt8 := 4
def KEY_ROWS : UInt8 := 3
def KEY_COLUMNS : UInt8 := 4
def KEYS_PER_PAGE : UInt8 := KEY_ROWS * KEY_COLUMNS
def ENCODERS_PER_PAGE : UInt8 := 2

inductive DomainError where
  | emptyProfileName
  | invalidProfileId (value : String)
  | invalidPageIndex (value : UInt8)
  | invalidKeyIndex (value : UInt8)
  | invalidEncoderIndex (value : UInt8)
  | invalidUrl (value : String)
  | unsupportedUrlScheme (scheme : String)
  | urlCredentialsNotAllowed
  | activeProfileInvariant (activeCount : ℕ)
  deriving DecidableEq

/-- The `thiserror` texts. -/
def DomainError.display : DomainError → String
  | .emptyProfileName => "profile name cannot be empty"
  | .invalidProfileId value => "invalid profile id: " ++ value
  | .invalidPageIndex value =>
      "page index " ++ toString value ++ " is outside the supported range 0..4"
  | .invalidKeyIndex value =>
      "key index " ++ toString value ++ " is outside the supported range 0..12"
  | .invalidEncoderIndex value =>
      "encoder index " ++ toString value ++ " is outside the supported range 0..2"
  | .invalidUrl value => "invalid url: " ++ value
  | .unsupportedUrlScheme scheme => "unsupported url scheme: " ++ scheme
  | .urlCredentialsNotAllowed => "url credentials are not allowed"
  | .activeProfileInvariant activeCount =>
      "expected exactly one active profile, found " ++ toString activeCount

/-! ## Profiles -/

/-- `char::is_whitespace`: the Unicode property `White_Space`. -/
def isWhitespace (c : Char) : Bool :=
  let n := c.toNat
  (9 ≤ n && n ≤ 13) || n == 32 || n == 0x85 || n == 0xA0 || n == 0x1680 ||
    (0x2000 ≤ n && n ≤ 0x200A) || n == 0x2028 || n == 0x2029 || n == 0x202F || n == 0x205F ||
    n == 0x3000

/-- `text.trim().is_empty()`. -/
def isBlank (text : String) : Bool := text.toList.all isWhitespace

theorem ne_empty_of_not_blank {text : String} (h : isBlank text = false) : text ≠ "" := by
  rintro rfl
  simp [isBlank] at h

structure ProfileId where
  uuid : Uuid
  deriving DecidableEq

namespace ProfileId

variable [UuidCrate]

def parse (value : String) : Except DomainError ProfileId :=
  match UuidCrate.parseStr value with
  | some uuid => .ok ⟨uuid⟩
  | none => .error (.invalidProfileId value)

def toString (id : ProfileId) : String := UuidCrate.display id.uuid

theorem parse_toString (h : UuidCrate.ParseInverts) (id : ProfileId) :
    parse id.toString = .ok id := by
  simp [parse, toString, h id.uuid]

theorem toString_inj (h : UuidCrate.ParseInverts) {id id' : ProfileId} :
    id.toString = id'.toString ↔ id = id' := by
  constructor
  · intro e
    cases id
    cases id'
    exact congrArg ProfileId.mk (h.display_injective e)
  · rintro rfl
    rfl

end ProfileId

structure Profile where
  id : ProfileId
  name : String
  isActive : Bool
  deriving DecidableEq

def validateProfileName (name : String) : Except DomainError String :=
  if isBlank name then .error .emptyProfileName else .ok name

/-- `Profile::new`, with the UUID that `ProfileId::new` draws. -/
def Profile.new (uuid : Uuid) (name : String) (isActive : Bool) : Except DomainError Profile := do
  let name ← validateProfileName name
  return { id := ⟨uuid⟩, name, isActive }

def Profile.rename (profile : Profile) (name : String) : Except DomainError Profile := do
  let name ← validateProfileName name
  return { profile with name }

theorem validateProfileName_ok_iff {name name' : String} :
    validateProfileName name = .ok name' ↔ isBlank name = false ∧ name = name' := by
  unfold validateProfileName
  split <;> simp_all

/-- A profile that is built from a checked name. -/
theorem named_ok_iff {name : String} {build : String → Profile} {profile : Profile} :
    (validateProfileName name >>= fun name => pure (build name)) = .ok profile ↔
      isBlank name = false ∧ build name = profile := by
  rw [bind_ok_iff]
  constructor
  · rintro ⟨checked, valid, built⟩
    obtain ⟨filled, rfl⟩ := validateProfileName_ok_iff.1 valid
    exact ⟨filled, pure_ok_iff.1 built⟩
  · rintro ⟨filled, rfl⟩
    exact ⟨name, validateProfileName_ok_iff.2 ⟨filled, rfl⟩, rfl⟩

theorem Profile.new_ok_iff {uuid : Uuid} {name : String} {isActive : Bool} {profile : Profile} :
    Profile.new uuid name isActive = .ok profile ↔
      isBlank name = false ∧ ⟨⟨uuid⟩, name, isActive⟩ = profile := by
  unfold Profile.new
  exact named_ok_iff

/-- The default profile passes its own check. -/
theorem Profile.new_default (uuid : Uuid) : ∃ profile,
    Profile.new uuid "Default" true = .ok profile ∧ profile.isActive = true ∧
      profile.name = "Default" :=
  ⟨_, Profile.new_ok_iff.2 ⟨by decide, rfl⟩, rfl, rfl⟩

theorem Profile.rename_ok_iff {profile profile' : Profile} {name : String} :
    profile.rename name = .ok profile' ↔
      isBlank name = false ∧ { profile with name } = profile' := by
  unfold Profile.rename
  exact named_ok_iff

def ensureExactlyOneActive (profiles : List Profile) : Except DomainError Unit :=
  let activeCount := (profiles.filter fun profile => profile.isActive).length
  if activeCount = 1 then .ok () else .error (.activeProfileInvariant activeCount)

theorem ensureExactlyOneActive_ok_iff {profiles : List Profile} :
    ensureExactlyOneActive profiles = .ok () ↔
      (profiles.filter fun profile => profile.isActive).length = 1 := by
  unfold ensureExactlyOneActive
  dsimp only
  split <;> simp_all

/-- A checked list has an active profile. -/
theorem exists_active_of_ensure {profiles : List Profile}
    (h : ensureExactlyOneActive profiles = .ok ()) :
    ∃ profile, (profiles.find? fun profile => profile.isActive) = some profile := by
  have one := ensureExactlyOneActive_ok_iff.1 h
  obtain ⟨profile, hp⟩ := List.exists_mem_of_length_pos (one ▸ Nat.one_pos)
  rw [List.mem_filter] at hp
  exact Option.isSome_iff_exists.1 (List.find?_isSome.2 ⟨profile, hp⟩)

theorem validateProfileName_error {name : String} {error : DomainError}
    (h : validateProfileName name = .error error) : error = .emptyProfileName := by
  unfold validateProfileName at h
  split at h
  · exact (Except.error.inj h).symm
  · cases h

theorem named_error {name : String} {build : String → Profile} {error : DomainError}
    (h : (validateProfileName name >>= fun name => pure (build name)) = .error error) :
    error = .emptyProfileName := by
  rcases hv : validateProfileName name with e | v
  · rw [hv] at h
    cases h
    exact validateProfileName_error hv
  · rw [hv] at h
    cases h

theorem Profile.new_error {uuid : Uuid} {name : String} {isActive : Bool} {error : DomainError}
    (h : Profile.new uuid name isActive = .error error) : error = .emptyProfileName := by
  unfold Profile.new at h
  exact named_error h

theorem Profile.rename_error {profile : Profile} {name : String} {error : DomainError}
    (h : profile.rename name = .error error) : error = .emptyProfileName := by
  unfold Profile.rename at h
  exact named_error h

/-! ## Controls -/

structure PageIndex where
  get : UInt8
  lt : get < PAGE_COUNT
  deriving DecidableEq

structure KeyIndex where
  get : UInt8
  lt : get < KEYS_PER_PAGE
  deriving DecidableEq

structure EncoderIndex where
  get : UInt8
  lt : get < ENCODERS_PER_PAGE
  deriving DecidableEq

def PageIndex.new (value : UInt8) : Except DomainError PageIndex :=
  if h : value < PAGE_COUNT then .ok ⟨value, h⟩ else .error (.invalidPageIndex value)

def KeyIndex.new (value : UInt8) : Except DomainError KeyIndex :=
  if h : value < KEYS_PER_PAGE then .ok ⟨value, h⟩ else .error (.invalidKeyIndex value)

def EncoderIndex.new (value : UInt8) : Except DomainError EncoderIndex :=
  if h : value < ENCODERS_PER_PAGE then .ok ⟨value, h⟩ else .error (.invalidEncoderIndex value)

inductive EncoderOperation where
  | left
  | right
  | press
  deriving DecidableEq

inductive ControlId where
  | key (page : PageIndex) (key : KeyIndex)
  | encoder (page : PageIndex) (encoder : EncoderIndex) (operation : EncoderOperation)
  deriving DecidableEq

/-- `ControlId::key`. -/
def ControlId.newKey (page key : UInt8) : Except DomainError ControlId := do
  return .key (← PageIndex.new page) (← KeyIndex.new key)

/-- `ControlId::encoder`. -/
def ControlId.newEncoder (page encoder : UInt8) (operation : EncoderOperation) :
    Except DomainError ControlId := do
  return .encoder (← PageIndex.new page) (← EncoderIndex.new encoder) operation

@[simp] theorem ControlId.newKey_get (page : PageIndex) (key : KeyIndex) :
    ControlId.newKey page.get key.get = .ok (.key page key) := by
  simp [ControlId.newKey, PageIndex.new, KeyIndex.new, page.lt, key.lt, bind, Except.bind, pure,
    Except.pure]

@[simp] theorem ControlId.newEncoder_get (page : PageIndex) (encoder : EncoderIndex)
    (operation : EncoderOperation) :
    ControlId.newEncoder page.get encoder.get operation = .ok (.encoder page encoder operation) := by
  simp [ControlId.newEncoder, PageIndex.new, EncoderIndex.new, page.lt, encoder.lt, bind,
    Except.bind, pure, Except.pure]

/-! ## Actions -/

section Url

variable [UrlCrate]

/-- Why `SafeUrl::parse` refuses a text, if it does. -/
def SafeUrl.refusal (value : String) : Option DomainError :=
  match UrlCrate.parse value with
  | none => some (.invalidUrl value)
  | some parsed =>
    if UrlCrate.username parsed ≠ "" ∨ (UrlCrate.password parsed).isSome then
      some .urlCredentialsNotAllowed
    else if UrlCrate.scheme parsed = "http" ∨ UrlCrate.scheme parsed = "https" then none
    else some (.unsupportedUrlScheme (UrlCrate.scheme parsed))

/-- The text of a URL that `SafeUrl::parse` accepted, byte for byte. -/
structure SafeUrl where
  value : String
  accepted : SafeUrl.refusal value = none
  deriving DecidableEq

namespace SafeUrl

def parse (value : String) : Except DomainError SafeUrl :=
  match h : refusal value with
  | none => .ok ⟨value, h⟩
  | some error => .error error

def asStr (url : SafeUrl) : String := url.value

def redactedForLog (url : SafeUrl) : String :=
  match UrlCrate.parse url.value with
  | some parsed =>
    UrlCrate.toString (UrlCrate.setFragment (UrlCrate.setQuery parsed none) none)
  | none => "<invalid-url>"

@[simp] theorem parse_asStr (url : SafeUrl) : parse url.asStr = .ok url := by
  unfold parse asStr
  split
  · rfl
  · next h => rw [url.accepted] at h; cases h

theorem asStr_of_parse {value : String} {url : SafeUrl} (h : parse value = .ok url) :
    url.asStr = value := by
  unfold parse at h
  split at h
  · cases h; rfl
  · cases h

/-- What acceptance means: an `http` or `https` URL without user name and password. -/
theorem accepted_parts (url : SafeUrl) : ∃ parsed, UrlCrate.parse url.asStr = some parsed ∧
    (UrlCrate.scheme parsed = "http" ∨ UrlCrate.scheme parsed = "https") ∧
    UrlCrate.username parsed = "" ∧ UrlCrate.password parsed = none := by
  have h := url.accepted
  unfold refusal at h
  split at h
  · cases h
  · next parsed hp =>
    split_ifs at h with hc hs
    simp only [not_or, not_not, Bool.not_eq_true, Option.isSome_eq_false_iff,
      Option.isNone_iff_eq_none] at hc
    exact ⟨parsed, hp, hs, hc.1, hc.2⟩

end SafeUrl

inductive Action where
  | openUrl (url : SafeUrl)
  deriving DecidableEq

structure Assignment where
  profileId : ProfileId
  control : ControlId
  actions : List Action
  deriving DecidableEq

def Assignment.single (profileId : ProfileId) (control : ControlId) (action : Action) :
    Except DomainError Assignment :=
  .ok { profileId, control, actions := [action] }

def Assignment.firstAction (assignment : Assignment) : Option Action := assignment.actions.head?

end Url

end KeyroCore
