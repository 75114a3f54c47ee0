import KeyroCore.Effect.Crash
import KeyroCore.Ipc.Convert
import KeyroCore.Storage.Regions

/-!
# Core and its environment

The operations by which Core acts on the outside: lock regions of the store, fresh UUIDs, opening a
URL, writing a message to the client and logging.  `coreService` is the service of one connection,
with the event sink that writes to its client.
-/

open Effect Program Fallible

namespace KeyroCore

variable [UrlCrate]

/-- What Core logs while it serves a connection. -/
inductive LogRecord where
  /-- `info!(?event, "Core event")` -/
  | coreEvent (event : CoreEvent)
  /-- `warn!(%request_id, %error, "Core command failed")` -/
  | commandFailed (requestId error : String)
  deriving DecidableEq

inductive CoreOp where
  | lock (r : Region)
  | newUuid
  | openUrl (url : SafeUrl)
  | write (message : ServerMessage)
  | log (record : LogRecord)
  deriving DecidableEq

@[reducible] def CoreOp.Ans : CoreOp → Type
  | .lock r => Except AppError r.Value
  | .newUuid => Uuid
  | .openUrl _ => Except OpenUrlError Unit
  | .write _ => Except String Unit
  | .log _ => Unit

abbrev CoreCalls : Signature := ⟨CoreOp, CoreOp.Ans⟩

/-- What the environment decides at one operation. -/
structure CoreInput where
  sql : ℕ → SqlChoice
  uuid : Uuid
  opened : SafeUrl → Except OpenUrlError Unit
  written : Except String Unit

/-! ## The service -/

/-- Perform one lock region. -/
def lock (r : Region) : Fallible CoreCalls AppError r.Value :=
  ExceptT.mk (call (S := CoreCalls) (.lock r))

def newUuid : Program CoreCalls Uuid := call (S := CoreCalls) .newUuid

theorem assures_lock_iff {G : Act CoreCalls → Prop} {r : Region} {R : Except AppError r.Value → Prop} :
    Fallible.Assures G (lock r) R ↔ ∀ x, G ⟨.lock r, x⟩ → R x := Iff.rfl

theorem uses_lock {O : CoreOp → Prop} {r : Region} (h : O (.lock r)) : (lock r).run.Uses O :=
  uses_call (S := CoreCalls) (o := .lock r) h

theorem uses_domain {α : Type} {O : CoreOp → Prop} (result : Except DomainError α) :
    (domain result : Fallible CoreCalls AppError α).run.Uses O := by
  rcases result with error | a <;> exact trivial

variable [UuidCrate]

/-- `IpcEventSink::emit`. -/
def ipcEventSink : EventSink CoreCalls where
  emit event := do
    Fallible.lift (call (S := CoreCalls) (.log (.coreEvent event)))
    match ← Fallible.lift (call (S := CoreCalls) (.write (eventFromCore event))) with
    | .ok () => return ()
    | .error text => throw (.eventSink ("failed to write action event to IPC client: " ++ text))

/-- An event is written or the sink fails. -/
theorem assures_emit {G : Act CoreCalls → Prop} {event : CoreEvent}
    {R : Except AppError Unit → Prop} (ok : R (.ok ()))
    (fail : ∀ text, R (.error (.eventSink text))) :
    Fallible.Assures G (ipcEventSink.emit event) R := by
  unfold ipcEventSink
  rw [Fallible.assures_lift_bind_iff]
  intro _ _
  rw [Fallible.assures_lift_bind_iff]
  rintro (text | ⟨⟩) _
  · exact fail _
  · exact ok

/-- The service of one connection. -/
def coreService : CoreService CoreCalls where
  repository := sqliteProfileRepository lock newUuid
  urlOpener := { openUrl := fun url => call (S := CoreCalls) (.openUrl url) }
  eventSink := ipcEventSink
  newUuid := newUuid

/-! ## Jobs -/

/-- What a client of the shared repository does: start Core, call a repository method, or run a
command through the service of its connection. -/
inductive CoreJob where
  | initializeCore
  | repository (call : RepositoryCall)
  | command (command : CoreCommand)
  deriving DecidableEq

inductive JobResult where
  | initialized (result : Except AppError Profile)
  | returned (call : RepositoryCall) (result : Except AppError call.Value)
  | answered (command : CoreCommand) (result : Except AppError CoreResponse)

/-- The error that a job ended with. -/
def JobResult.error? : JobResult → Option AppError
  | .initialized (.error error) | .returned _ (.error error) | .answered _ (.error error) =>
      some error
  | _ => none

def CoreJob.body : CoreJob → Program CoreCalls JobResult
  | .initializeCore => do return .initialized (← coreService.initializeCore.run)
  | .repository c => do return .returned c (← (coreService.repository.perform c).run)
  | .command c => do return .answered c (← (coreService.handleCommand c).run)

/-- The jobs of clients, which have no state of their own. -/
def jobs (_ : Unit) (job : CoreJob) : Program CoreCalls (JobResult × Unit) := do
  return (← job.body, ())

/-! ## The environment -/

variable [RusqliteCrate]

def coreHandler (input : CoreInput) : Handler CoreCalls Db
  | .lock r, db => r.exec input.sql db
  | .newUuid, db => (input.uuid, db)
  | .openUrl url, db => (input.opened url, db)
  | .write _, db => (input.written, db)
  | .log _, db => ((), db)

/-- What a lock region answered and left is an outcome of it. -/
theorem outcome_of_handled {input : CoreInput} {db db' : Db} {a : Act CoreCalls} {r : Region}
    {x : Except AppError r.Value} (ha : a = ⟨.lock r, x⟩)
    (h : coreHandler input a.op db = (a.ans, db')) : Region.Outcome input.sql r db x db' := by
  subst ha
  have outcome := Region.outcome input.sql r db
  rw [show r.exec input.sql db = (x, db') from h] at outcome
  exact outcome

/-- A lock region of a program that runs alone. -/
theorem ends_lock {inputs : ℕ → CoreInput} {r : Region} {db : Db} {n : ℕ}
    {Q : Except AppError r.Value → Db × ℕ → Prop}
    (h : ∀ x db', Region.Outcome (inputs n).sql r db x db' → Q x (db', n + 1)) :
    Fallible.Ends (timed coreHandler inputs) (lock r) (db, n) Q :=
  h _ _ (Region.outcome _ r db)

end KeyroCore
