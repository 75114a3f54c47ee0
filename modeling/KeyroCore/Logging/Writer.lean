import KeyroCore.Data.Rows
import KeyroCore.Logging.Filesystem

/-!
# The rotating log writer

`LogRetention`, `LogState` and the functions of the log directory, as programs of file-system calls.
The open file of a `LogState` is the open file of the log directory, so an early return keeps the
assignments made before it.
-/

open Effect Program Fallible

namespace KeyroCore

def LOG_FILE_NAME : String := "keyro-core.log"

structure LogRetention where
  maxFileBytes : UInt64
  maxTotalBytes : UInt64
  maxFiles : ℕ
  /-- In nanoseconds. -/
  maxAge : ℕ
  deriving DecidableEq

/-- `u64::saturating_add`. -/
def saturatingAdd (a b : ℕ) : ℕ := min (a + b) (2 ^ 64 - 1)

def invalidInput (message : String) : IoError := ⟨.invalidInput, message⟩

def validateRetention (retention : LogRetention) : Except IoError Unit :=
  if retention.maxFileBytes = 0 then
    .error (invalidInput "log max_file_bytes must be greater than zero")
  else if retention.maxTotalBytes = 0 then
    .error (invalidInput "log max_total_bytes must be greater than zero")
  else if retention.maxFiles = 0 then
    .error (invalidInput "log max_files must be greater than zero")
  else if retention.maxTotalBytes < retention.maxFileBytes then
    .error (invalidInput "log max_total_bytes must be at least max_file_bytes")
  else .ok ()

/-- `LogRetention::default`. -/
def LogRetention.standard : LogRetention where
  maxFileBytes := 5 * 1024 * 1024
  maxTotalBytes := 50 * 1024 * 1024
  maxFiles := 10
  maxAge := 14 * 24 * 60 * 60 * 10 ^ 9

/-- The default retention passes its own check. -/
theorem validateRetention_standard : validateRetention .standard = .ok () := by decide

/-! ## Names -/

def currentLog : FileName := .text LOG_FILE_NAME

/-- `rotated_log_path`. -/
def rotatedLog (index : ℕ) : FileName := .text ("keyro-core." ++ toString index ++ ".log")

def isKeyroLog : FileName → Bool
  | .text name =>
    name = LOG_FILE_NAME || "keyro-core.".toList.isPrefixOf name.toList &&
      ".log".toList.isSuffixOf name.toList
  | .raw _ => false

/-! ## Clean-up -/

/-- The earliest `SystemTime`: seconds are an `i64`. -/
def earliestTime : Time := -2 ^ 63 * 10 ^ 9

/-- `SystemTime::checked_sub`. -/
def checkedSub (time : Time) (age : ℕ) : Option Time :=
  if earliestTime ≤ time - age then some (time - age) else none

def retentionCutoff (retention : LogRetention) : Fs Time := do
  match checkedSub (← Fs.ask .now) retention.maxAge with
  | some cutoff => return cutoff
  | none => throw ⟨.other, "invalid log retention age"⟩

structure LogFile where
  isCurrent : Bool
  path : FileName
  modified : Time
  size : ℕ
  deriving DecidableEq

/-- The loop of `cleanup_logs` over the entries of the directory. -/
def retainLogs (retention : LogRetention) (cutoff : Time) :
    List (Except IoError FileName) → List LogFile → Fs (List LogFile)
  | [], retained => return retained
  | entry :: entries, retained => do
    let path ← Fs.orFail entry
    if !isKeyroLog path then retainLogs retention cutoff entries retained
    else
      match ← Fs.ask (.entryMetadata path) with
      | .error _ => retainLogs retention cutoff entries retained
      | .ok metadata =>
        match metadata.modified with
        | none => retainLogs retention cutoff entries retained
        | some modified =>
          if modified < cutoff ∨ metadata.len > retention.maxFileBytes.toNat then do
            Fs.removeFile path
            retainLogs retention cutoff entries retained
          else
            retainLogs retention cutoff entries (retained ++
              [{ isCurrent := path = currentLog, path, modified, size := metadata.len }])

/-- The loop of `cleanup_logs` over the retained files, from the given index on. -/
def enforceLimits (retention : LogRetention) (currentIndex : Option ℕ) :
    ℕ → List LogFile → ℕ → ℕ → Fs Unit
  | _, [], _, _ => return ()
  | index, logFile :: rest, keptFiles, totalBytes =>
    if some index = currentIndex then
      enforceLimits retention currentIndex (index + 1) rest keptFiles totalBytes
    else if keptFiles ≥ retention.maxFiles ∨
        saturatingAdd totalBytes logFile.size > retention.maxTotalBytes.toNat then do
      Fs.removeFile logFile.path
      enforceLimits retention currentIndex (index + 1) rest keptFiles totalBytes
    else
      enforceLimits retention currentIndex (index + 1) rest (keptFiles + 1)
        (saturatingAdd totalBytes logFile.size)

/-- `sort_by_key` with `Reverse(modified)`. -/
def newestFirst (logFiles : List LogFile) : List LogFile :=
  Rows.orderBy (fun a b => compare b.modified a.modified) logFiles

def cleanupLogs (retention : LogRetention) : Fs Unit := do
  let cutoff ← retentionCutoff retention
  let entries ← Fs.readDir
  let retained ← retainLogs retention cutoff entries []
  let retained := newestFirst retained
  let currentIndex := retained.findIdx? fun logFile => logFile.isCurrent
  let totalBytes := ((currentIndex.bind fun index => retained[index]?).map LogFile.size).getD 0
  let keptFiles := if currentIndex.isSome then 1 else 0
  enforceLimits retention currentIndex 0 retained keptFiles totalBytes

/-! ## Rotation -/

def openCurrentLog : Fs ℕ := Fs.openAppend currentLog

/-- `if path.exists() { fs::remove_file(path)?; }` -/
def removeIfExists (path : FileName) : Fs Unit := do
  if ← Fs.ask (.exists path) then Fs.removeFile path

/-- `if source.exists() { fs::rename(source, target)?; }` -/
def renameIfExists (source target : FileName) : Fs Unit := do
  if ← Fs.ask (.exists source) then Fs.rename source target

/-- The shifting loop of `rotate_logs`: the file of each index below the given one moves up. -/
def shiftLogs : ℕ → Fs Unit
  | 0 => return ()
  | index + 1 => do
    renameIfExists (rotatedLog index) (rotatedLog (index + 1))
    shiftLogs index

/-- The moves of `rotate_logs` when rotated files are kept. -/
def moveLogs (maxRotatedFiles : ℕ) : Fs Unit := do
  removeIfExists (rotatedLog (maxRotatedFiles - 1))
  shiftLogs (maxRotatedFiles - 1)
  renameIfExists currentLog (rotatedLog 0)

def rotateLogs (retention : LogRetention) : Fs Unit := do
  let maxRotatedFiles := retention.maxFiles - 1
  if maxRotatedFiles = 0 then removeIfExists currentLog
  else do
    moveLogs maxRotatedFiles
    cleanupLogs retention

def currentLogNeedsRotation (retention : LogRetention) : Fs Bool := do
  let metadata ← Fs.metadata
  if metadata.len ≥ retention.maxFileBytes.toNat then return true
  else do
    let cutoff ← retentionCutoff retention
    return metadata.modified.any fun modified => modified < cutoff

namespace LogState

/-- `LogState::rotate`. -/
def rotate (retention : LogRetention) : Fs Unit := do
  Fs.flush
  rotateLogs retention
  let file ← openCurrentLog
  Fs.ask (.setFile file)

/-- `if needed { self.rotate()?; }` -/
def rotateIf (retention : LogRetention) (needed : Bool) : Fs Unit :=
  if needed then rotate retention else pure ()

def cleanupRetention (retention : LogRetention) : Fs Unit := do
  rotateIf retention (← currentLogNeedsRotation retention)
  cleanupLogs retention

/-- The test that starts `LogState::write`. -/
def WriteRotates (retention : LogRetention) (currentSize : ℕ) (buf : List UInt8) : Prop :=
  currentSize ≥ retention.maxFileBytes.toNat ∨
    currentSize > 0 ∧ saturatingAdd currentSize buf.length > retention.maxFileBytes.toNat

instance (retention : LogRetention) (currentSize : ℕ) (buf : List UInt8) :
    Decidable (WriteRotates retention currentSize buf) := inferInstanceAs (Decidable (_ ∨ _))

def write (retention : LogRetention) (buf : List UInt8) : Fs ℕ := do
  if buf.isEmpty then return 0
  else do
    let currentSize := (← Fs.metadata).len
    rotateIf retention (WriteRotates retention currentSize buf)
    let currentSize := (← Fs.metadata).len
    let availableBytes := retention.maxFileBytes.toNat - currentSize
    let writeLen := min availableBytes buf.length
    let written ← Fs.write (buf.take writeLen)
    cleanupRetention retention
    return written

end LogState

/-- `RotatingLogWriter::new`, up to the start of the maintenance thread. -/
def RotatingLogWriter.new (retention : LogRetention) : Fs Unit := do
  Fs.orFail (validateRetention retention)
  Fs.createDirAll
  cleanupLogs retention
  let file ← openCurrentLog
  Fs.ask (.setFile file)

/-- `Write::write_all` over the writer, for at most `fuel` calls of `write`; `none` when it has not
returned by then. -/
def RotatingLogHandle.writeAll (retention : LogRetention) : ℕ → List UInt8 → Fs (Option Unit)
  | _, [] => return some ()
  | 0, _ :: _ => return none
  | fuel + 1, buf => do
    match ← Fallible.lift (LogState.write retention buf).run with
    | .ok 0 => throw ⟨.writeZero, "failed to write whole buffer"⟩
    | .ok n => writeAll retention fuel (buf.drop n)
    | .error error =>
      if error.kind = .interrupted then writeAll retention fuel buf else throw error

end KeyroCore
