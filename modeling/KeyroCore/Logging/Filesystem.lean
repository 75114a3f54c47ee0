import KeyroCore.Effect.Program
import KeyroCore.Logging.Disk
import Mathlib.Algebra.Group.Int.Defs
import Mathlib.Algebra.Group.Nat.Defs

/-!
# File-system calls

What the log writer asks of the operating system, and the log directory that answers.  The
environment decides which calls fail, the clock, the order in which a directory is listed, how many
bytes a write accepts and how a change is stamped.
-/

open Effect Program Fallible

namespace KeyroCore

inductive ErrorKind where
  | interrupted
  | invalidInput
  | notFound
  | writeZero
  | other
  deriving DecidableEq

/-- `io::Error`. -/
structure IoError where
  kind : ErrorKind
  message : String
  deriving DecidableEq

structure Metadata where
  len : ℕ
  /-- `modified()` may be unavailable. -/
  modified : Option Time
  deriving DecidableEq

/-- The calls; those without a name act on the open file of the writer. -/
inductive FsOp where
  | now
  | createDirAll
  | readDir
  | entryMetadata (name : FileName)
  | exists (name : FileName)
  | removeFile (name : FileName)
  | rename (source target : FileName)
  | openAppend (name : FileName)
  /-- Replace the open file of the writer. -/
  | setFile (file : ℕ)
  | metadata
  | flush
  | write (bytes : List UInt8)
  deriving DecidableEq

@[reducible] def FsOp.Ans : FsOp → Type
  | .now => Time
  | .createDirAll | .removeFile _ | .rename _ _ | .flush => Except IoError Unit
  | .readDir => Except IoError (List (Except IoError FileName))
  | .entryMetadata _ | .metadata => Except IoError Metadata
  | .exists _ => Bool
  | .openAppend _ | .write _ => Except IoError ℕ
  | .setFile _ => Unit

abbrev FsCalls : Signature := ⟨FsOp, FsOp.Ans⟩

/-- An order in which a directory is listed. -/
structure Listing where
  arrange : List FileName → List FileName
  perm : ∀ names, (arrange names).Perm names

/-- The entries of a listing, which breaks off after some of them if an entry cannot be read. -/
def Listing.entries (l : Listing) (broken : Option (ℕ × IoError)) (names : List FileName) :
    List (Except IoError FileName) :=
  match broken with
  | none => (l.arrange names).map .ok
  | some (n, error) => ((l.arrange names).take n).map .ok ++ [.error error]

/-- What the environment decides at one call. -/
structure FsInput where
  /-- The call fails. -/
  failure : Option IoError
  /-- The metadata of a directory entry cannot be read. -/
  unreadable : Option IoError
  /-- Modification times are available. -/
  dated : Bool
  now : Time
  listing : Listing
  broken : Option (ℕ × IoError)
  /-- The most bytes that a write accepts. -/
  accepts : ℕ
  /-- The modification time of a file that is created or extended. -/
  stamp : Time

/-- The log directory and the open file of the writer. -/
structure LogDir where
  disk : Disk
  file : ℕ
  deriving DecidableEq

/-- The log directory without the names in `gone`. -/
def LogDir.unlink (s : LogDir) (gone : List FileName) : LogDir :=
  { s with disk := s.disk.unlink gone }

@[simp] theorem LogDir.unlink_nil (s : LogDir) : s.unlink [] = s := by
  unfold LogDir.unlink
  rw [Disk.unlink_nil]

theorem LogDir.unlink_unlink (s : LogDir) (gone gone' : List FileName) :
    (s.unlink gone).unlink gone' = s.unlink (gone ++ gone') := by
  unfold LogDir.unlink
  rw [Disk.unlink_unlink]

def notFound : IoError := ⟨.notFound, "No such file or directory (os error 2)"⟩

def badDescriptor : IoError := ⟨.other, "Bad file descriptor (os error 9)"⟩

def FsInput.metadata (input : FsInput) (f : Inode) : Metadata where
  len := f.content.length
  modified := if input.dated then some f.modified else none

/-- Perform a call unless it fails. -/
def FsInput.attempt {α : Type} (input : FsInput) (s : LogDir) (act : Except IoError α × LogDir) :
    Except IoError α × LogDir :=
  match input.failure with
  | some error => (.error error, s)
  | none => act

def filesystem (input : FsInput) : Handler FsCalls LogDir
  | .now, s => (input.now, s)
  | .createDirAll, s => input.attempt s (.ok (), s)
  | .readDir, s =>
    input.attempt s (.ok (input.listing.entries input.broken s.disk.names), s)
  | .entryMetadata name, s =>
    match input.unreadable, s.disk.lookup name with
    | some error, _ => (.error error, s)
    | none, none => (.error notFound, s)
    | none, some f => (.ok (input.metadata f), s)
  | .exists name, s => (input.unreadable.isNone && (s.disk.find name).isSome, s)
  | .removeFile name, s => input.attempt s <|
    match s.disk.find name with
    | none => (.error notFound, s)
    | some _ => (.ok (), s.unlink [name])
  | .rename source target, s => input.attempt s <|
    match s.disk.find source with
    | none => (.error notFound, s)
    | some _ => (.ok (), { s with disk := s.disk.rename source target })
  | .openAppend name, s => input.attempt s <|
    match h : s.disk.find name with
    | none => (.ok s.disk.files.length, { s with disk := s.disk.create name input.stamp h })
    | some i => (.ok i, s)
  | .setFile file, s => ((), { s with file })
  | .metadata, s => input.attempt s <|
    match s.disk.files[s.file]? with
    | none => (.error badDescriptor, s)
    | some f => (.ok (input.metadata f), s)
  | .flush, s => input.attempt s (.ok (), s)
  | .write bytes, s => input.attempt s <|
    match s.disk.files[s.file]? with
    | none => (.error badDescriptor, s)
    | some _ =>
      let n := min input.accepts bytes.length
      (.ok n, if n = 0 then s else
        { s with disk := s.disk.append s.file (bytes.take n) input.stamp })

/-- An environment in which every call succeeds and each reads a later time. -/
def undisturbed (n : ℕ) : FsInput where
  failure := none
  unreadable := none
  dated := true
  now := n
  listing := ⟨id, fun _ => .refl _⟩
  broken := none
  accepts := 2 ^ 20
  stamp := n

/-! ## Calls as programs -/

abbrev Fs := Fallible FsCalls IoError

namespace Fs

/-- Perform a call that does not fail, or whose failure is handled. -/
def ask (o : FsOp) : Fs o.Ans := Fallible.lift (call (S := FsCalls) o)

def createDirAll : Fs Unit := ExceptT.mk (call (S := FsCalls) .createDirAll)

def readDir : Fs (List (Except IoError FileName)) := ExceptT.mk (call (S := FsCalls) .readDir)

def removeFile (name : FileName) : Fs Unit := ExceptT.mk (call (S := FsCalls) (.removeFile name))

def rename (source target : FileName) : Fs Unit :=
  ExceptT.mk (call (S := FsCalls) (.rename source target))

def openAppend (name : FileName) : Fs ℕ := ExceptT.mk (call (S := FsCalls) (.openAppend name))

def metadata : Fs Metadata := ExceptT.mk (call (S := FsCalls) .metadata)

def flush : Fs Unit := ExceptT.mk (call (S := FsCalls) .flush)

def write (bytes : List UInt8) : Fs ℕ := ExceptT.mk (call (S := FsCalls) (.write bytes))

/-- `?` on a result at hand. -/
def orFail {α : Type} : Except IoError α → Fs α
  | .ok a => pure a
  | .error error => throw error

end Fs

/-! ### What a call can do -/

section Calls

variable (input : FsInput) (s : LogDir)

theorem filesystem_readDir : (∃ error, filesystem input .readDir s = (.error error, s)) ∨
    filesystem input .readDir s =
      (.ok (input.listing.entries input.broken s.disk.names), s) := by
  simp only [filesystem, FsInput.attempt]
  cases input.failure with
  | some error => exact .inl ⟨error, rfl⟩
  | none => exact .inr rfl

theorem filesystem_removeFile (name : FileName) :
    (∃ error, filesystem input (.removeFile name) s = (.error error, s)) ∨
      name ∈ s.disk.names ∧ filesystem input (.removeFile name) s =
        (.ok (), s.unlink [name]) := by
  simp only [filesystem, FsInput.attempt]
  rw [← Disk.find_isSome_iff]
  cases input.failure with
  | some error => exact .inl ⟨error, rfl⟩
  | none =>
    cases s.disk.find name with
    | none => exact .inl ⟨_, rfl⟩
    | some i => exact .inr ⟨rfl, rfl⟩

theorem filesystem_rename (source target : FileName) :
    (∃ error, filesystem input (.rename source target) s = (.error error, s)) ∨
      source ∈ s.disk.names ∧ filesystem input (.rename source target) s =
        (.ok (), { s with disk := s.disk.rename source target }) := by
  simp only [filesystem, FsInput.attempt]
  rw [← Disk.find_isSome_iff]
  cases input.failure with
  | some error => exact .inl ⟨error, rfl⟩
  | none =>
    cases s.disk.find source with
    | none => exact .inl ⟨_, rfl⟩
    | some i => exact .inr ⟨rfl, rfl⟩

theorem filesystem_openAppend (name : FileName) :
    (∃ error, filesystem input (.openAppend name) s = (.error error, s)) ∨
      (∃ i, s.disk.find name = some i ∧ filesystem input (.openAppend name) s = (.ok i, s)) ∨
        ∃ absent : s.disk.find name = none, filesystem input (.openAppend name) s =
          (.ok s.disk.files.length, { s with disk := s.disk.create name input.stamp absent }) := by
  simp only [filesystem, FsInput.attempt]
  cases input.failure with
  | some error => exact .inl ⟨error, rfl⟩
  | none =>
    dsimp only
    split
    · next absent => exact .inr (.inr ⟨absent, rfl⟩)
    · next i found => exact .inr (.inl ⟨i, found, rfl⟩)

theorem filesystem_metadata : (∃ error, filesystem input .metadata s = (.error error, s)) ∨
    ∃ f, s.disk.files[s.file]? = some f ∧
      filesystem input .metadata s = (.ok (input.metadata f), s) := by
  simp only [filesystem, FsInput.attempt]
  cases input.failure with
  | some error => exact .inl ⟨error, rfl⟩
  | none =>
    cases s.disk.files[s.file]? with
    | none => exact .inl ⟨_, rfl⟩
    | some f => exact .inr ⟨f, rfl, rfl⟩

theorem filesystem_flush : (∃ error, filesystem input .flush s = (.error error, s)) ∨
    filesystem input .flush s = (.ok (), s) := by
  simp only [filesystem, FsInput.attempt]
  cases input.failure with
  | some error => exact .inl ⟨error, rfl⟩
  | none => exact .inr rfl

theorem filesystem_write (bytes : List UInt8) :
    (∃ error, filesystem input (.write bytes) s = (.error error, s)) ∨
      s.file < s.disk.files.length ∧ ∃ n, n = min input.accepts bytes.length ∧
        filesystem input (.write bytes) s = (.ok n, if n = 0 then s else
          { s with disk := s.disk.append s.file (bytes.take n) input.stamp }) := by
  simp only [filesystem, FsInput.attempt]
  cases input.failure with
  | some error => exact .inl ⟨error, rfl⟩
  | none =>
    cases h : s.disk.files[s.file]? with
    | none => exact .inl ⟨_, rfl⟩
    | some f => exact .inr ⟨(List.getElem?_eq_some_iff.1 h).1, _, rfl, rfl⟩

end Calls

/-! ### Rules -/

section Rules

variable {inputs : ℕ → FsInput} {s : LogDir} {n : ℕ}

theorem ends_ask_iff {o : FsOp} {Q : Except IoError o.Ans → LogDir × ℕ → Prop} :
    Ends (timed filesystem inputs) (Fs.ask o) (s, n) Q ↔
      Q (.ok (filesystem (inputs n) o s).1) ((filesystem (inputs n) o s).2, n + 1) := Iff.rfl

theorem ends_readDir {Q : Except IoError (List (Except IoError FileName)) → LogDir × ℕ → Prop}
    (fail : ∀ error, Q (.error error) (s, n + 1))
    (ok : Q (.ok ((inputs n).listing.entries (inputs n).broken s.disk.names)) (s, n + 1)) :
    Ends (timed filesystem inputs) Fs.readDir (s, n) Q := by
  show Q (filesystem (inputs n) .readDir s).1 ((filesystem (inputs n) .readDir s).2, n + 1)
  rcases filesystem_readDir (inputs n) s with ⟨error, eq⟩ | eq
  · rw [eq]
    exact fail error
  · rw [eq]
    exact ok

theorem ends_removeFile {name : FileName} {Q : Except IoError Unit → LogDir × ℕ → Prop}
    (fail : ∀ error, Q (.error error) (s, n + 1))
    (ok : name ∈ s.disk.names → Q (.ok ()) (s.unlink [name], n + 1)) :
    Ends (timed filesystem inputs) (Fs.removeFile name) (s, n) Q := by
  show Q (filesystem (inputs n) (.removeFile name) s).1
    ((filesystem (inputs n) (.removeFile name) s).2, n + 1)
  rcases filesystem_removeFile (inputs n) s name with ⟨error, eq⟩ | ⟨known, eq⟩
  · rw [eq]
    exact fail error
  · rw [eq]
    exact ok known

theorem ends_rename {source target : FileName} {Q : Except IoError Unit → LogDir × ℕ → Prop}
    (fail : ∀ error, Q (.error error) (s, n + 1))
    (ok : source ∈ s.disk.names →
      Q (.ok ()) ({ s with disk := s.disk.rename source target }, n + 1)) :
    Ends (timed filesystem inputs) (Fs.rename source target) (s, n) Q := by
  show Q (filesystem (inputs n) (.rename source target) s).1
    ((filesystem (inputs n) (.rename source target) s).2, n + 1)
  rcases filesystem_rename (inputs n) s source target with ⟨error, eq⟩ | ⟨known, eq⟩
  · rw [eq]
    exact fail error
  · rw [eq]
    exact ok known

theorem ends_openAppend {name : FileName} {Q : Except IoError ℕ → LogDir × ℕ → Prop}
    (fail : ∀ error, Q (.error error) (s, n + 1))
    (found : ∀ i, s.disk.find name = some i → Q (.ok i) (s, n + 1))
    (created : ∀ absent : s.disk.find name = none, Q (.ok s.disk.files.length)
      ({ s with disk := s.disk.create name (inputs n).stamp absent }, n + 1)) :
    Ends (timed filesystem inputs) (Fs.openAppend name) (s, n) Q := by
  show Q (filesystem (inputs n) (.openAppend name) s).1
    ((filesystem (inputs n) (.openAppend name) s).2, n + 1)
  rcases filesystem_openAppend (inputs n) s name with ⟨error, eq⟩ | ⟨i, h, eq⟩ | ⟨absent, eq⟩
  · rw [eq]
    exact fail error
  · rw [eq]
    exact found i h
  · rw [eq]
    exact created absent

theorem ends_metadata {Q : Except IoError Metadata → LogDir × ℕ → Prop}
    (fail : ∀ error, Q (.error error) (s, n + 1))
    (ok : ∀ f, s.disk.files[s.file]? = some f → Q (.ok ((inputs n).metadata f)) (s, n + 1)) :
    Ends (timed filesystem inputs) Fs.metadata (s, n) Q := by
  show Q (filesystem (inputs n) .metadata s).1 ((filesystem (inputs n) .metadata s).2, n + 1)
  rcases filesystem_metadata (inputs n) s with ⟨error, eq⟩ | ⟨f, hf, eq⟩
  · rw [eq]
    exact fail error
  · rw [eq]
    exact ok f hf

theorem ends_createDirAll {Q : Except IoError Unit → LogDir × ℕ → Prop}
    (fail : ∀ error, Q (.error error) (s, n + 1)) (ok : Q (.ok ()) (s, n + 1)) :
    Ends (timed filesystem inputs) Fs.createDirAll (s, n) Q := by
  show Q (filesystem (inputs n) .createDirAll s).1 ((filesystem (inputs n) .createDirAll s).2, n + 1)
  simp only [filesystem, FsInput.attempt]
  cases (inputs n).failure with
  | some error => exact fail error
  | none => exact ok

theorem ends_flush {Q : Except IoError Unit → LogDir × ℕ → Prop}
    (fail : ∀ error, Q (.error error) (s, n + 1)) (ok : Q (.ok ()) (s, n + 1)) :
    Ends (timed filesystem inputs) Fs.flush (s, n) Q := by
  show Q (filesystem (inputs n) .flush s).1 ((filesystem (inputs n) .flush s).2, n + 1)
  rcases filesystem_flush (inputs n) s with ⟨error, eq⟩ | eq
  · rw [eq]
    exact fail error
  · rw [eq]
    exact ok

theorem ends_write {bytes : List UInt8} {Q : Except IoError ℕ → LogDir × ℕ → Prop}
    (fail : ∀ error, Q (.error error) (s, n + 1))
    (ok : s.file < s.disk.files.length → ∀ k, k = min (inputs n).accepts bytes.length →
      Q (.ok k) (if k = 0 then s else
        { s with disk := s.disk.append s.file (bytes.take k) (inputs n).stamp }, n + 1)) :
    Ends (timed filesystem inputs) (Fs.write bytes) (s, n) Q := by
  show Q (filesystem (inputs n) (.write bytes) s).1
    ((filesystem (inputs n) (.write bytes) s).2, n + 1)
  rcases filesystem_write (inputs n) s bytes with ⟨error, eq⟩ | ⟨lt, k, hk, eq⟩
  · rw [eq]
    exact fail error
  · rw [eq]
    exact ok lt k hk

end Rules

end KeyroCore
