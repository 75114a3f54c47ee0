import KeyroCore.App
import KeyroCore.Effect.Processes
import KeyroCore.Logging.Filesystem
import KeyroCore.Storage.Tables

/-!
# Starting the core

`main` on the Unix targets, down to the calls it makes of the host: the lock of the data directory,
the logs, the database and the socket.  Each of the last three is one call here; what it does inside
is the subject of other modules.  So is what the threads do that the process starts, the one that
maintains the logs and the ones that serve connections: their calls are not among those of `main`.
-/

open Effect Program

namespace KeyroCore

/-! ## Paths -/

/-- The Unix targets; they differ in their directories. -/
inductive UnixTarget where
  | macos
  | other
  deriving DecidableEq

/-- A directory with the separator that `PathBuf::join` puts after it. -/
def separated (base : String) : String :=
  if base = "" ∨ base.toList.getLast? = some '/' then base else base ++ "/"

/-- `base.join(name)` for a relative name. -/
def joinPath (base name : String) : String := separated base ++ name

def UnixTarget.dataDir : UnixTarget → String
  | .macos => "Library/Application Support/Keyro/Core"
  | .other => ".local/share/keyro/core"

def UnixTarget.logDir : UnixTarget → String
  | .macos => "Library/Logs/Keyro/Core"
  | .other => ".local/state/keyro/core/logs"

/-- `default_data_dir`, from the value of `HOME`. -/
def defaultDataDir (target : UnixTarget) (home : Option String) : Option String :=
  home.map (joinPath · target.dataDir)

def defaultLogDir (target : UnixTarget) (home : Option String) : Option String :=
  home.map (joinPath · target.logDir)

/-! ## Calls -/

/-- The lock file, open for reading and writing. -/
structure LockHandle where
  path : String
  deriving DecidableEq

/-- `try_lock_exclusive` fails because the file is locked, or for another reason. -/
inductive TryLockError where
  | wouldBlock
  | other (error : IoError)
  deriving DecidableEq

/-- The subscriber that `init_logging` installs, by the directory of its writer. -/
structure Subscriber where
  logDir : String
  deriving DecidableEq

inductive Level where
  | info
  | warn
  deriving DecidableEq

/-- A field of a log record. -/
inductive Field where
  | profileId (id : ProfileId)
  | profileName (name : String)
  | path (path : String)
  | error (error : IoError)
  deriving DecidableEq

/-- What `main` asks of the host.  `close` is the end of the scope of the lock file, `closeDatabase`
that of the last connection. -/
inductive HostOp where
  | createDirAll (path : String)
  | openLockFile (path : String)
  | tryLockExclusive (file : LockHandle)
  | setLen (file : LockHandle) (len : ℕ)
  | processId
  | writeAll (file : LockHandle) (bytes : List UInt8)
  | unlock (file : LockHandle)
  | close (file : LockHandle)
  | newLogWriter (logDir : String)
  | record (subscriber : Subscriber) (level : Level) (fields : List Field)
    (message : String)
  | openDatabase (path : String)
  | closeDatabase (path : String)
  | initializeCore (path : String)
  | pathExists (path : String)
  | removeFile (path : String)
  | bind (path : String)
  | accept (path : String)
  | serve (stream : ℕ) (path : String)

@[reducible] def HostOp.Ans : HostOp → Type
  | .createDirAll _ | .setLen _ _ | .writeAll _ _ | .unlock _ | .newLogWriter _ | .removeFile _
  | .openLockFile _ | .bind _ | .serve _ _ => Except IoError Unit
  | .tryLockExclusive _ => Except TryLockError Unit
  | .processId => ℕ
  | .close _ | .record _ _ _ _ | .closeDatabase _ => Unit
  | .openDatabase _ => Except SqlError Unit
  | .initializeCore _ => Except AppError Profile
  | .pathExists _ => Bool
  | .accept _ => Except IoError ℕ

abbrev HostCalls : Signature := ⟨HostOp, HostOp.Ans⟩

def onHost (o : HostOp) : Program HostCalls o.Ans := call (S := HostCalls) o

/-! ## The code -/

/-- The error below a context. -/
inductive Cause where
  | io (error : IoError)
  | storage (error : SqlError)
  | app (error : AppError)
  deriving DecidableEq

/-- `anyhow::Error`; without a source it was made by `bail!` or from an `Option`. -/
structure AnyhowError where
  context : String
  source : Option Cause
  deriving DecidableEq

abbrev Main := Fallible HostCalls AnyhowError

/-- `with_context` on the result of a call. -/
def withContext {α ε : Type} (cause : ε → Cause) (text : String)
    (p : Program HostCalls (Except ε α)) : Main α :=
  ExceptT.mk (p >>= fun r => Pure.pure (r.mapError fun error => ⟨text, some (cause error)⟩))

structure SingleInstanceGuard where
  file : LockHandle
  deriving DecidableEq

/-- The part of `acquire` that has the lock file open. -/
def lockAndSign (lockPath : String) (file : LockHandle) : Main Unit := do
  match ← Fallible.lift (onHost (.tryLockExclusive file)) with
  | .error .wouldBlock =>
    throw ⟨"another Keyro Core instance is already running; lock file is " ++ lockPath, none⟩
  | .error (.other error) =>
    throw ⟨"failed to acquire exclusive Keyro Core lock at " ++ lockPath, some (.io error)⟩
  | .ok () => do
    withContext .io "failed to truncate Keyro Core lock file" (onHost (.setLen file 0))
    let pid ← Fallible.lift (onHost .processId)
    withContext .io "failed to write Keyro Core lock owner pid"
      (onHost (.writeAll file (toString (pid : ℕ)).toUTF8.toList))

namespace SingleInstanceGuard

def acquire (dataDir : String) : Main SingleInstanceGuard := do
  withContext .io ("failed to create data directory before acquiring lock at " ++ dataDir)
    (onHost (.createDirAll dataDir))
  let lockPath := joinPath dataDir "keyro-core.lock"
  withContext .io ("failed to open lock file at " ++ lockPath) (onHost (.openLockFile lockPath))
  let file : LockHandle := ⟨lockPath⟩
  match ← Fallible.lift (lockAndSign lockPath file).run with
  | .ok () => return ⟨file⟩
  | .error error => do
    Fallible.lift (onHost (.close file))
    throw error

def drop (guard : SingleInstanceGuard) : Program HostCalls Unit := do
  let _ ← onHost (.unlock guard.file)
  onHost (.close guard.file)

end SingleInstanceGuard

def initLogging (target : UnixTarget) (home : Option String) : Main Subscriber := do
  match defaultLogDir target home with
  | none => throw ⟨"failed to resolve Keyro log directory", none⟩
  | some logDir => do
    withContext .io "failed to create rotating log writer" (onHost (.newLogWriter logDir))
    return ⟨logDir⟩

/-- One turn of the loop over `listener.incoming()`. -/
def handleIncoming (subscriber : Subscriber) (dbPath : String) :
    Except IoError ℕ → Program HostCalls Unit
  | .ok stream => do
    match ← onHost (.serve stream dbPath) with
    | .ok () => return ()
    | .error error => onHost (.record subscriber .warn [.error error]
        "failed to start development IPC connection worker")
  | .error error =>
    onHost (.record subscriber .warn [.error error] "development IPC accept failed")

/-- The loop, for a number of turns. -/
def acceptLoop (subscriber : Subscriber) (dbPath socketPath : String) :
    ℕ → Program HostCalls Unit
  | 0 => return ()
  | turns + 1 => do
    let stream ← onHost (.accept socketPath)
    handleIncoming subscriber dbPath stream
    acceptLoop subscriber dbPath socketPath turns

def runDevIpc (subscriber : Subscriber) (dbPath socketPath : String) (turns : ℕ) : Main Unit := do
  if ← Fallible.lift (onHost (.pathExists socketPath)) then
    withContext .io ("failed to remove stale development IPC socket at " ++ socketPath)
      (onHost (.removeFile socketPath))
  withContext .io ("failed to bind development IPC socket at " ++ socketPath)
    (onHost (.bind socketPath))
  Fallible.lift (onHost (.record subscriber .info [.path socketPath]
    "development IPC listener started"))
  Fallible.lift (acceptLoop subscriber dbPath socketPath turns)

/-- The part of `main` that has the database open. -/
def initializeAndListen (subscriber : Subscriber) (dbPath socketPath : String) (turns : ℕ) :
    Main Unit := do
  let profile ← withContext .app "failed to initialize Core state" (onHost (.initializeCore dbPath))
  Fallible.lift (onHost (.record subscriber .info
    [.profileId profile.id, .profileName profile.name] "Keyro Core initialized"))
  Fallible.lift (onHost (.record subscriber .warn []
    ("running development IPC listener; production framing and backpressure are not " ++
      "implemented yet")))
  runDevIpc subscriber dbPath socketPath turns

/-- The part of `main` that holds the lock. -/
def runGuarded (target : UnixTarget) (home : Option String) (turns : ℕ) (dataDir : String) :
    Main Unit := do
  let subscriber ← initLogging target home
  let dbPath := joinPath dataDir "keyro-core.sqlite3"
  withContext .storage ("failed to open SQLite database at " ++ dbPath)
    (onHost (.openDatabase dbPath))
  let result ← Fallible.lift (initializeAndListen subscriber dbPath
    (joinPath dataDir "keyro-core-dev.sock") turns).run
  Fallible.lift (onHost (.closeDatabase dbPath))
  match result with
  | .ok () => return ()
  | .error error => throw error

/-- `main`, with the value of `HOME` and a number of turns of its listener. -/
def main (target : UnixTarget) (job : Option String × ℕ) : Main Unit := do
  match defaultDataDir target job.1 with
  | none => throw ⟨"failed to resolve Keyro data directory", none⟩
  | some dataDir => do
    withContext .io "failed to create Keyro data directory" (onHost (.createDirAll dataDir))
    let guard ← SingleInstanceGuard.acquire dataDir
    let result ← Fallible.lift (runGuarded target job.1 job.2 dataDir).run
    Fallible.lift guard.drop
    match result with
    | .ok () => return ()
    | .error error => throw error

/-! ## The host -/

structure Host where
  /-- Lock files by path, with their contents. -/
  lockFiles : String → Option (List UInt8)
  /-- The process that has locked the file. -/
  lockedBy : String → Option ℕ
  /-- Socket files by path, with the process that bound them. -/
  sockets : String → Option ℕ

/-- What the environment decides about one call. -/
structure Weather where
  failure : Option IoError
  /-- How many bytes a failing write has written. -/
  written : ℕ
  opened : Except SqlError Unit
  initialized : Except AppError Profile
  stream : ℕ

/-- A file after a write at its start. -/
def overwrite (content bytes : List UInt8) : List UInt8 := bytes ++ content.drop bytes.length

namespace Host

def setLockFile (s : Host) (path : String) (content : List UInt8) : Host :=
  { s with lockFiles := Function.update s.lockFiles path (some content) }

def setHolder (s : Host) (path : String) (holder : Option ℕ) : Host :=
  { s with lockedBy := Function.update s.lockedBy path holder }

def setSocket (s : Host) (path : String) (owner : Option ℕ) : Host :=
  { s with sockets := Function.update s.sockets path owner }

/-- The operating system releases the locks of a process that ends.  Its files stay. -/
def exit (i : ℕ) (s : Host) : Host :=
  { s with lockedBy := fun path => if s.lockedBy path = some i then none else s.lockedBy path }

end Host

/-- The answers that process `i` gets, whose number is `pid i`.  Files are told apart by their
paths, and nobody but these processes removes or writes them. -/
def answer (pid : ℕ → ℕ) (weather : Weather) (i : ℕ) : Handler HostCalls Host
  | .createDirAll _, s | .newLogWriter _, s | .serve _ _, s =>
    (match weather.failure with | some error => .error error | none => .ok (), s)
  | .openLockFile path, s =>
    match weather.failure with
    | some error => (.error error, s)
    | none => (.ok (), s.setLockFile path ((s.lockFiles path).getD []))
  | .tryLockExclusive file, s =>
    if s.lockedBy file.path ≠ none then (.error .wouldBlock, s)
    else match weather.failure with
      | some error => (.error (.other error), s)
      | none => (.ok (), s.setHolder file.path (some i))
  | .setLen file len, s =>
    match weather.failure with
    | some error => (.error error, s)
    | none => (.ok (), s.setLockFile file.path (((s.lockFiles file.path).getD []).take len))
  | .processId, s => (pid i, s)
  | .writeAll file bytes, s =>
    match weather.failure with
    | some error => (.error error, s.setLockFile file.path
        (overwrite ((s.lockFiles file.path).getD []) (bytes.take weather.written)))
    | none => (.ok (), s.setLockFile file.path
        (overwrite ((s.lockFiles file.path).getD []) bytes))
  | .unlock file, s =>
    match weather.failure with
    | some error => (.error error, s)
    | none => (.ok (), if s.lockedBy file.path = some i then s.setHolder file.path none else s)
  | .close file, s => ((), if s.lockedBy file.path = some i then s.setHolder file.path none else s)
  | .record _ _ _ _, s | .closeDatabase _, s => ((), s)
  | .openDatabase _, s => (weather.opened, s)
  | .initializeCore _, s => (weather.initialized, s)
  | .pathExists path, s => ((s.sockets path).isSome, s)
  | .removeFile path, s =>
    match weather.failure, s.sockets path with
    | some error, _ => (.error error, s)
    | none, none => (.error ⟨.notFound, "entity not found"⟩, s)
    | none, some _ => (.ok (), s.setSocket path none)
  | .bind path, s =>
    match weather.failure, s.sockets path with
    | some error, _ => (.error error, s)
    | none, some _ => (.error ⟨.other, "Address already in use"⟩, s)
    | none, none => (.ok (), s.setSocket path (some i))
  | .accept _, s =>
    (match weather.failure with | some error => .error error | none => .ok weather.stream, s)

end KeyroCore
