import KeyroCore.Data.SwapRemove
import KeyroCore.Effect.Monitor
import KeyroCore.Logging.Filesystem

/-!
# Admission of connections

`DevConnections::accept` reaps finished workers and starts a worker for a new stream unless the
limit is reached.  Workers are threads of the operating system: they finish, and drop their streams,
at any moment between two calls of the listener.
-/

open Effect Program

namespace KeyroCore

def MAX_DEV_CONNECTIONS : ℕ := 8

/-! ## Calls -/

/-- `JoinHandle<()>`, by the number of its thread. -/
structure JoinHandle where
  thread : ℕ
  deriving DecidableEq

/-- `DevStream`, by the number of its pipe instance. -/
structure DevStream where
  pipe : ℕ
  deriving DecidableEq

/-- `CreateNamedPipeW` fails because all instances of the name are alive, or for another reason. -/
inductive PipeError where
  | allInstancesBusy
  | other (error : IoError)
  deriving DecidableEq

/-- What the listener asks of the operating system.  A check shows the vector it is made on; `drop`
is the end of the scope of a stream. -/
inductive ListenerOp where
  | isFinished (workers : List JoinHandle) (index : Fin workers.length)
  | join (worker : JoinHandle)
  | spawn (connectionId : UInt64) (stream : DevStream)
  | drop (stream : DevStream)
  | connectPipe (pipe : DevStream)
  | createPipe (first : Bool)
  | warn (message : String)

@[reducible] def ListenerOp.Ans : ListenerOp → Type
  | .isFinished _ _ => Bool
  | .join _ => Except Unit Unit
  | .spawn _ _ => Except IoError JoinHandle
  | .drop _ | .warn _ => Unit
  | .connectPipe _ => Except IoError Unit
  | .createPipe _ => Except PipeError DevStream

abbrev ListenerCalls : Signature := ⟨ListenerOp, ListenerOp.Ans⟩

def warn (message : String) : Program ListenerCalls Unit :=
  call (S := ListenerCalls) (.warn message)

def dropStream (stream : DevStream) : Program ListenerCalls Unit :=
  call (S := ListenerCalls) (.drop stream)

/-! ## The code -/

structure DevConnections where
  workers : List JoinHandle
  nextId : UInt64
  deriving DecidableEq

/-- `DevConnections::default`. -/
def DevConnections.none : DevConnections where
  workers := []
  nextId := 0

def workerPanicked : String := "development IPC connection worker panicked"

/-- `join`, with its warning. -/
def joinWorker (worker : JoinHandle) : Program ListenerCalls Unit := do
  match ← call (S := ListenerCalls) (.join worker) with
  | .ok () => return ()
  | .error () => warn workerPanicked

/-- The loop that reaps finished workers, from the given index on. -/
def reap (workers : List JoinHandle) (index : ℕ) : Program ListenerCalls (List JoinHandle) :=
  if h : index < workers.length then do
    if ← call (S := ListenerCalls) (.isFinished workers ⟨index, h⟩) then
      joinWorker workers[index]
      reap (workers.swapRemove index) index
    else reap workers (index + 1)
  else return workers
termination_by workers.length - index
decreasing_by
  · rw [List.length_swapRemove h]
    omega
  · omega

def limitReached : String :=
  "development IPC connection limit reached; closing new connection"

/-- `DevConnections::accept`; the stream is dropped unless a worker takes it. -/
def DevConnections.accept (connections : DevConnections) (stream : DevStream) :
    Program ListenerCalls (Except IoError Unit × DevConnections) := do
  let workers ← reap connections.workers 0
  if workers.length ≥ MAX_DEV_CONNECTIONS then
    warn limitReached
    dropStream stream
    return (.ok (), { connections with workers })
  else
    let connectionId := connections.nextId
    let nextId := connections.nextId + 1
    match ← call (S := ListenerCalls) (.spawn connectionId stream) with
    | .error error => return (.error error, { workers, nextId })
    | .ok worker => return (.ok (), { workers := workers ++ [worker], nextId })

/-! ## One pass -/

section Pass

/-- The workers that were checked, with the answers, oldest first. -/
def checks (acts : List (Act ListenerCalls)) : List (JoinHandle × Bool) :=
  acts.filterMap fun
    | ⟨.isFinished workers index, finished⟩ => some (workers.get index, finished)
    | _ => none

def seenRunning (acts : List (Act ListenerCalls)) : List JoinHandle :=
  ((checks acts).filter fun check => !check.2).map Prod.fst

def seenFinished (acts : List (Act ListenerCalls)) : List JoinHandle :=
  ((checks acts).filter fun check => check.2).map Prod.fst

def joined (acts : List (Act ListenerCalls)) : List JoinHandle :=
  acts.filterMap fun
    | ⟨.join worker, _⟩ => some worker
    | _ => none

variable {σ : Type} (h : Handler ListenerCalls σ)

/-- What a pass does from the given index on, whatever the checks answer. -/
structure Reaps (workers : List JoinHandle) (index : ℕ) (s : σ) : Prop where
  checked : ((checks ((reap workers index).acts h s)).map Prod.fst).Perm (workers.drop index)
  kept : ((reap workers index).exec h s).1.Perm
    (workers.take index ++ seenRunning ((reap workers index).acts h s))
  joins : joined ((reap workers index).acts h s) = seenFinished ((reap workers index).acts h s)

theorem checks_append (as bs : List (Act ListenerCalls)) :
    checks (as ++ bs) = checks as ++ checks bs := List.filterMap_append

theorem joined_append (as bs : List (Act ListenerCalls)) :
    joined (as ++ bs) = joined as ++ joined bs := List.filterMap_append

theorem checks_cons_isFinished (workers : List JoinHandle) (index : Fin workers.length)
    (finished : Bool) (acts : List (Act ListenerCalls)) :
    checks (⟨.isFinished workers index, finished⟩ :: acts) =
      (workers.get index, finished) :: checks acts := rfl

theorem joined_cons_isFinished (workers : List JoinHandle) (index : Fin workers.length)
    (finished : Bool) (acts : List (Act ListenerCalls)) :
    joined (⟨.isFinished workers index, finished⟩ :: acts) = joined acts := rfl

theorem seenRunning_of_checks {as bs : List (Act ListenerCalls)} {worker : JoinHandle}
    {finished : Bool} (first : checks as = (worker, finished) :: checks bs) :
    seenRunning as = (if finished then [] else [worker]) ++ seenRunning bs := by
  unfold seenRunning
  rw [first]
  cases finished <;> rfl

theorem seenFinished_of_checks {as bs : List (Act ListenerCalls)} {worker : JoinHandle}
    {finished : Bool} (first : checks as = (worker, finished) :: checks bs) :
    seenFinished as = (if finished then [worker] else []) ++ seenFinished bs := by
  unfold seenFinished
  rw [first]
  cases finished <;> rfl

theorem checks_joinWorker (worker : JoinHandle) (s : σ) :
    checks ((joinWorker worker).acts h s) = [] := by
  unfold joinWorker
  rw [acts_bind]
  cases (exec h (call (S := ListenerCalls) (.join worker)) s).1 <;> rfl

theorem joined_joinWorker (worker : JoinHandle) (s : σ) :
    joined ((joinWorker worker).acts h s) = [worker] := by
  unfold joinWorker
  rw [acts_bind]
  cases (exec h (call (S := ListenerCalls) (.join worker)) s).1 <;> rfl

section Turns

variable {h} {workers : List JoinHandle} {index : ℕ} (inside : index < workers.length) {s : σ}

/-- A turn of the loop that finds a finished worker. -/
theorem reap_finished (finished : (h (.isFinished workers ⟨index, inside⟩) s).1 = true) :
    let s₁ := (h (.isFinished workers ⟨index, inside⟩) s).2
    let s₂ := ((joinWorker workers[index]).exec h s₁).2
    (reap workers index).exec h s = (reap (workers.swapRemove index) index).exec h s₂ ∧
      (reap workers index).trace h s = (s, ⟨.isFinished workers ⟨index, inside⟩, true⟩) ::
        ((joinWorker workers[index]).trace h s₁ ++
          (reap (workers.swapRemove index) index).trace h s₂) := by
  dsimp only
  rw [reap, dif_pos inside, exec_bind, trace_bind, exec_call, trace_call, finished, if_pos rfl,
    exec_bind, trace_bind]
  exact ⟨rfl, rfl⟩

/-- A turn of the loop that finds a running worker. -/
theorem reap_running (running : (h (.isFinished workers ⟨index, inside⟩) s).1 = false) :
    (reap workers index).exec h s = (reap workers (index + 1)).exec h
        (h (.isFinished workers ⟨index, inside⟩) s).2 ∧
      (reap workers index).trace h s = (s, ⟨.isFinished workers ⟨index, inside⟩, false⟩) ::
        (reap workers (index + 1)).trace h (h (.isFinished workers ⟨index, inside⟩) s).2 := by
  rw [reap, dif_pos inside, exec_bind, trace_bind, exec_call, trace_call, running]
  exact ⟨rfl, rfl⟩

theorem acts_reap_finished (finished : (h (.isFinished workers ⟨index, inside⟩) s).1 = true) :
    let s₁ := (h (.isFinished workers ⟨index, inside⟩) s).2
    let s₂ := ((joinWorker workers[index]).exec h s₁).2
    (reap workers index).acts h s = ⟨.isFinished workers ⟨index, inside⟩, true⟩ ::
      ((joinWorker workers[index]).acts h s₁ ++
        (reap (workers.swapRemove index) index).acts h s₂) := by
  dsimp only
  rw [← map_trace, (reap_finished inside finished).2, List.map_cons, List.map_append, map_trace,
    map_trace]

theorem checks_reap_finished (finished : (h (.isFinished workers ⟨index, inside⟩) s).1 = true) :
    let s₁ := (h (.isFinished workers ⟨index, inside⟩) s).2
    let s₂ := ((joinWorker workers[index]).exec h s₁).2
    checks ((reap workers index).acts h s) = (workers[index], true) ::
      checks ((reap (workers.swapRemove index) index).acts h s₂) := by
  dsimp only
  rw [acts_reap_finished inside finished, checks_cons_isFinished, checks_append, checks_joinWorker,
    List.nil_append]
  rfl

theorem acts_reap_running (running : (h (.isFinished workers ⟨index, inside⟩) s).1 = false) :
    (reap workers index).acts h s = ⟨.isFinished workers ⟨index, inside⟩, false⟩ ::
      (reap workers (index + 1)).acts h (h (.isFinished workers ⟨index, inside⟩) s).2 := by
  rw [← map_trace, (reap_running inside running).2, List.map_cons, map_trace]

theorem checks_reap_running (running : (h (.isFinished workers ⟨index, inside⟩) s).1 = false) :
    checks ((reap workers index).acts h s) = (workers[index], false) ::
      checks ((reap workers (index + 1)).acts h (h (.isFinished workers ⟨index, inside⟩) s).2) := by
  rw [acts_reap_running inside running, checks_cons_isFinished]
  rfl

theorem reap_end (h : Handler ListenerCalls σ) {workers : List JoinHandle} {index : ℕ}
    (past : workers.length ≤ index) (s : σ) :
    (reap workers index).exec h s = (workers, s) ∧ (reap workers index).trace h s = [] := by
  rw [reap, dif_neg (Nat.not_lt.2 past)]
  exact ⟨rfl, rfl⟩

/-- Induction over the turns of the loop, on the part of the vector that is not checked. -/
theorem reap_induction {P : List JoinHandle → ℕ → σ → Prop}
    (past : ∀ workers index s, workers.length ≤ index → P workers index s)
    (finished : ∀ workers index s (inside : index < workers.length),
      (h (.isFinished workers ⟨index, inside⟩) s).1 = true →
      P (workers.swapRemove index) index
        ((joinWorker workers[index]).exec h (h (.isFinished workers ⟨index, inside⟩) s).2).2 →
      P workers index s)
    (running : ∀ workers index s (inside : index < workers.length),
      (h (.isFinished workers ⟨index, inside⟩) s).1 = false →
      P workers (index + 1) (h (.isFinished workers ⟨index, inside⟩) s).2 → P workers index s)
    (workers : List JoinHandle) (index : ℕ) (s : σ) : P workers index s := by
  induction left : workers.length - index using Nat.strong_induction_on generalizing workers index s
    with
  | _ left ih =>
    by_cases inside : index < workers.length
    · cases answer : (h (.isFinished workers ⟨index, inside⟩) s).1 with
      | true =>
        refine finished _ _ _ inside answer (ih _ ?_ _ _ _ rfl)
        rw [List.length_swapRemove inside]
        omega
      | false => exact running _ _ _ inside answer (ih _ (by omega) _ _ _ rfl)
    · exact past _ _ _ (Nat.not_lt.1 inside)

end Turns

/-- A pass checks every worker from the index on once, joins those it saw finished and keeps those it
saw running. -/
theorem reaps (workers : List JoinHandle) (index : ℕ) (s : σ) : Reaps h workers index s := by
  refine reap_induction (h := h) (P := Reaps h) (fun workers index s past => ?_)
    (fun workers index s inside finished ih => ?_) (fun workers index s inside running ih => ?_)
    workers index s
  · obtain ⟨exec, trace⟩ := reap_end h past s
    have acts : (reap workers index).acts h s = [] := by rw [← map_trace, trace, List.map_nil]
    refine ⟨?_, ?_, ?_⟩
    · rw [acts, List.drop_of_length_le past]
      exact .refl _
    · rw [exec, acts, List.take_of_length_le past]
      show workers.Perm (workers ++ [])
      rw [List.append_nil]
    · rw [acts]
      rfl
  · obtain ⟨exec, trace⟩ := reap_finished inside finished
    set s₁ := (h (.isFinished workers ⟨index, inside⟩) s).2
    set s₂ := ((joinWorker workers[index]).exec h s₁).2
    have acts := acts_reap_finished inside finished
    have checked := checks_reap_finished inside finished
    have joins : joined ((reap workers index).acts h s) = workers[index] ::
        joined ((reap (workers.swapRemove index) index).acts h s₂) := by
      rw [acts, joined_cons_isFinished, joined_append, joined_joinWorker, List.singleton_append]
    refine ⟨?_, ?_, ?_⟩
    · rw [checked, List.map_cons]
      exact (ih.checked.cons _).trans (List.drop_swapRemove_perm inside)
    · rw [exec, seenRunning_of_checks checked]
      have kept := ih.kept
      rw [List.take_swapRemove inside] at kept
      exact kept
    · rw [joins, seenFinished_of_checks checked, ih.joins]
      rfl
  · obtain ⟨exec, trace⟩ := reap_running inside running
    set s₁ := (h (.isFinished workers ⟨index, inside⟩) s).2
    have acts := acts_reap_running inside running
    have checked := checks_reap_running inside running
    refine ⟨?_, ?_, ?_⟩
    · rw [checked, List.map_cons, List.drop_eq_getElem_cons inside]
      exact ih.checked.cons _
    · rw [exec, seenRunning_of_checks checked]
      have kept := ih.kept
      rw [List.take_add_one, List.getElem?_eq_getElem inside, Option.toList_some,
        List.append_assoc] at kept
      exact kept
    · rw [seenFinished_of_checks checked, acts, joined_cons_isFinished, ih.joins]
      rfl

end Pass

/-! ## One call of `accept` -/

section Accept

variable {σ : Type} {h : Handler ListenerCalls σ} {connections : DevConnections} {stream : DevStream}
  {s s' : σ}

/-- What follows the pass: the limit is reached, no thread can be started, or a worker is started. -/
inductive Accepts (h : Handler ListenerCalls σ) (connections : DevConnections) (stream : DevStream) :
    List JoinHandle → σ → List (σ × Act ListenerCalls) → DevConnections → σ → Prop
  | full {workers : List JoinHandle} {s : σ} (limit : MAX_DEV_CONNECTIONS ≤ workers.length) :
      Accepts h connections stream workers s
        [(s, ⟨.warn limitReached, (h (.warn limitReached) s).1⟩),
          ((h (.warn limitReached) s).2,
            ⟨.drop stream, (h (.drop stream) (h (.warn limitReached) s).2).1⟩)]
        { connections with workers } (h (.drop stream) (h (.warn limitReached) s).2).2
  | notStarted {workers : List JoinHandle} {s : σ} {error : IoError}
      (room : workers.length < MAX_DEV_CONNECTIONS)
      (answer : (h (.spawn connections.nextId stream) s).1 = .error error) :
      Accepts h connections stream workers s [(s, ⟨.spawn connections.nextId stream, .error error⟩)]
        { workers, nextId := connections.nextId + 1 } (h (.spawn connections.nextId stream) s).2
  | started {workers : List JoinHandle} {s : σ} {worker : JoinHandle}
      (room : workers.length < MAX_DEV_CONNECTIONS)
      (answer : (h (.spawn connections.nextId stream) s).1 = .ok worker) :
      Accepts h connections stream workers s [(s, ⟨.spawn connections.nextId stream, .ok worker⟩)]
        { workers := workers ++ [worker], nextId := connections.nextId + 1 }
        (h (.spawn connections.nextId stream) s).2

/-- `accept` is a pass and what follows it. -/
theorem accept_accepts (h : Handler ListenerCalls σ) (connections : DevConnections)
    (stream : DevStream) (s : σ) : ∃ after,
      (connections.accept stream).trace h s = (reap connections.workers 0).trace h s ++ after ∧
      Accepts h connections stream ((reap connections.workers 0).exec h s).1
        ((reap connections.workers 0).exec h s).2 after
        ((connections.accept stream).exec h s).1.2 ((connections.accept stream).exec h s).2 := by
  unfold DevConnections.accept
  rw [trace_bind, exec_bind]
  generalize (reap connections.workers 0).exec h s = passed
  obtain ⟨workers, s'⟩ := passed
  dsimp only
  by_cases limit : MAX_DEV_CONNECTIONS ≤ workers.length
  · rw [if_pos limit]
    exact ⟨_, rfl, .full limit⟩
  · rw [if_neg limit]
    refine ⟨_, rfl, ?_⟩
    rw [exec_bind, trace_bind, exec_call, trace_call]
    cases answer : (h (.spawn connections.nextId stream) s').1 with
    | error error => exact .notStarted (Nat.lt_of_not_le limit) answer
    | ok worker => exact .started (Nat.lt_of_not_le limit) answer

end Accept

/-! ## The operating system -/

/-- The worker threads that have not finished, the streams they have not dropped, and the streams
that the listener holds.  A thread has dropped its stream once it has finished. -/
structure Threads where
  running : List JoinHandle
  held : List (JoinHandle × DevStream)
  owned : List DevStream
  spawned : ℕ
  created : ℕ
  nodup_running : running.Nodup
  started : ∀ worker ∈ running, worker.thread < spawned
  holding : ∀ p ∈ held, p.1 ∈ running
  nodup_held : (held.map Prod.fst).Nodup

namespace Threads

/-- Before the listener starts. -/
def idle : Threads where
  running := []
  held := []
  owned := []
  spawned := 0
  created := 0
  nodup_running := List.nodup_nil
  started := nofun
  holding := nofun
  nodup_held := List.nodup_nil

/-- The pipe instances that are alive. -/
def alive (s : Threads) : List DevStream := s.owned ++ s.held.map Prod.snd

/-- Some workers finish. -/
def finish (gone : List JoinHandle) (s : Threads) : Threads where
  running := s.running.filter (· ∉ gone)
  held := s.held.filter (·.1 ∉ gone)
  owned := s.owned
  spawned := s.spawned
  created := s.created
  nodup_running := s.nodup_running.filter _
  started worker mem := s.started worker (List.mem_filter.1 mem).1
  holding p mem := List.mem_filter.2
    ⟨s.holding p (List.mem_filter.1 mem).1, (List.mem_filter.1 mem).2⟩
  nodup_held := s.nodup_held.sublist (List.filter_sublist.map _)

/-- Some workers drop their streams. -/
def release (gone : List JoinHandle) (s : Threads) : Threads where
  running := s.running
  held := s.held.filter (·.1 ∉ gone)
  owned := s.owned
  spawned := s.spawned
  created := s.created
  nodup_running := s.nodup_running
  started := s.started
  holding p mem := s.holding p (List.mem_filter.1 mem).1
  nodup_held := s.nodup_held.sublist (List.filter_sublist.map _)

/-- The listener drops a stream, or gives it away. -/
def disown (stream : DevStream) (s : Threads) : Threads :=
  { s with owned := s.owned.erase stream }

/-- The thread that is started next. -/
def next (s : Threads) : JoinHandle := ⟨s.spawned⟩

theorem next_not_mem (s : Threads) : s.next ∉ s.running := fun mem =>
  Nat.lt_irrefl _ (s.started _ mem)

/-- Start a thread that owns the stream. -/
def start (stream : DevStream) (s : Threads) : Threads where
  running := s.running ++ [s.next]
  held := s.held ++ [(s.next, stream)]
  owned := s.owned.erase stream
  spawned := s.spawned + 1
  created := s.created
  nodup_running := by
    rw [List.nodup_append_comm]
    exact List.nodup_cons.2 ⟨s.next_not_mem, s.nodup_running⟩
  started worker mem := by
    rcases List.mem_append.1 mem with mem | mem
    · exact Nat.lt_succ_of_lt (s.started worker mem)
    · rw [List.mem_singleton.1 mem]
      exact Nat.lt_succ_self _
  holding p mem := by
    rcases List.mem_append.1 mem with mem | mem
    · exact List.mem_append_left _ (s.holding p mem)
    · rw [List.mem_singleton.1 mem]
      exact List.mem_append_right _ (List.mem_singleton_self _)
  nodup_held := by
    rw [List.map_append, List.map_singleton, List.nodup_append_comm]
    refine List.nodup_cons.2 ⟨fun mem => ?_, s.nodup_held⟩
    obtain ⟨p, mem, same⟩ := List.mem_map.1 mem
    have same : p.1 = s.next := same
    exact s.next_not_mem (same ▸ s.holding p mem)

/-- Create an instance, which the listener holds. -/
def create (s : Threads) : Threads :=
  { s with owned := s.owned ++ [⟨s.created⟩], created := s.created + 1 }

end Threads

/-- What the environment decides at one call: how it ends, and which workers finish or drop their
streams before the next one. -/
structure Happening where
  panicked : Bool
  spawnFailure : Option IoError
  connected : Except IoError Unit
  pipeFailure : Option IoError
  finishing : List JoinHandle
  releasing : List JoinHandle

/-- The instances of the pipe that `CreateNamedPipeW` allows. -/
def MAX_PIPE_INSTANCES : ℕ := MAX_DEV_CONNECTIONS + 2

/-- The effect of a call. -/
def serve (input : Happening) : Handler ListenerCalls Threads
  | .isFinished workers index, s => (decide (workers.get index ∉ s.running), s)
  | .join worker, s => (if input.panicked then .error () else .ok (), s.finish [worker])
  | .spawn _ stream, s =>
    match input.spawnFailure with
    | some error => (.error error, s.disown stream)
    | none => (.ok s.next, s.start stream)
  | .drop stream, s => ((), s.disown stream)
  | .connectPipe _, s => (input.connected, s)
  | .createPipe _, s =>
    match input.pipeFailure with
    | some error => (.error (.other error), s)
    | none =>
      if MAX_PIPE_INSTANCES ≤ s.alive.length then (.error .allInstancesBusy, s)
      else (.ok ⟨s.created⟩, s.create)
  | .warn _, s => ((), s)

/-- A call, and what the workers do before the next one. -/
def system (input : Happening) : Handler ListenerCalls Threads := fun o s =>
  ((serve input o s).1, ((serve input o s).2.finish input.finishing).release input.releasing)

/-! ## Admission -/

section Admission

variable (inputs : ℕ → Happening)

/-- Calls that start no thread. -/
def ListenerOp.StartsNone : ListenerOp → Prop
  | .spawn _ _ => False
  | _ => True

def ListenerOp.ChecksNone : ListenerOp → Prop
  | .isFinished _ _ => False
  | _ => True

/-- No thread was started in between. -/
structure Threads.Quieter (s s' : Threads) : Prop where
  running : ∀ worker ∈ s'.running, worker ∈ s.running
  spawned : s'.spawned = s.spawned

theorem serve_createPipe (input : Happening) (first : Bool) (s : Threads) :
    (serve input (.createPipe first) s).2 = s ∨ (serve input (.createPipe first) s).2 = s.create := by
  simp only [serve]
  cases input.pipeFailure with
  | some error => exact .inl rfl
  | none =>
    dsimp only
    split_ifs
    · exact .inl rfl
    · exact .inr rfl

/-- Threads only finish during a call that starts none. -/
theorem quieter_serve (input : Happening) (o : ListenerOp) (startsNone : o.StartsNone)
    (s : Threads) : s.Quieter (serve input o s).2 := by
  cases o with
  | isFinished workers index => exact ⟨fun _ mem => mem, rfl⟩
  | join worker => exact ⟨fun _ mem => (List.mem_filter.1 mem).1, rfl⟩
  | spawn connectionId stream => exact absurd startsNone not_false
  | drop stream => exact ⟨fun _ mem => mem, rfl⟩
  | connectPipe pipe => exact ⟨fun _ mem => mem, rfl⟩
  | createPipe first =>
    rcases serve_createPipe input first s with same | created
    · rw [same]
      exact ⟨fun _ mem => mem, rfl⟩
    · rw [created]
      exact ⟨fun _ mem => mem, rfl⟩
  | warn message => exact ⟨fun _ mem => mem, rfl⟩

theorem quieter_system (input : Happening) (o : ListenerOp) (startsNone : o.StartsNone)
    (s : Threads) : s.Quieter (system input o s).2 := by
  obtain ⟨running, spawned⟩ := quieter_serve input o startsNone s
  exact ⟨fun worker mem => running worker (List.mem_filter.1 mem).1, spawned⟩

theorem Threads.Quieter.trans {s₁ s₂ s₃ : Threads} (h : s₁.Quieter s₂) (h' : s₂.Quieter s₃) :
    s₁.Quieter s₃ :=
  ⟨fun worker mem => h.running worker (h'.running worker mem), h'.spawned.trans h.spawned⟩

/-- A program that starts no thread. -/
theorem quieter_exec {α : Type} {p : Program ListenerCalls α} (uses : p.Uses ListenerOp.StartsNone)
    (s : Threads × ℕ) : s.1.Quieter (p.exec (timed system inputs) s).2.1 :=
  (uses.keeps (I := fun s' : Threads × ℕ => s.1.Quieter s'.1)
    (fun o s' startsNone h => h.trans (quieter_system (inputs s'.2) o startsNone s'.1))
    ⟨fun _ mem => mem, rfl⟩).1

/-- Every moment of a program that starts no thread. -/
theorem quieter_trace {α : Type} {p : Program ListenerCalls α}
    (uses : p.Uses ListenerOp.StartsNone) (s : Threads × ℕ) :
    ∀ x ∈ p.trace (timed system inputs) s, s.1.Quieter x.1.1 :=
  (uses.keeps (I := fun s' : Threads × ℕ => s.1.Quieter s'.1)
    (fun o s' startsNone h => h.trans (quieter_system (inputs s'.2) o startsNone s'.1))
    ⟨fun _ mem => mem, rfl⟩).2

theorem uses_joinWorker {O : ListenerOp → Prop} {worker : JoinHandle} (join : O (.join worker))
    (warn : O (.warn workerPanicked)) : (joinWorker worker).Uses O := by
  unfold joinWorker
  refine Program.uses_bind (Program.uses_call join) fun result => ?_
  cases result with
  | ok _ => exact Program.uses_pure _
  | error _ => exact Program.uses_call warn

theorem uses_reap {O : ListenerOp → Prop} (check : ∀ workers index, O (.isFinished workers index))
    (join : ∀ worker, O (.join worker)) (warn : O (.warn workerPanicked))
    (workers : List JoinHandle) (index : ℕ) : (reap workers index).Uses O := by
  fun_induction reap workers index with
  | case1 workers index inside ih₁ ih₂ =>
    refine Program.uses_bind (Program.uses_call (check _ _)) fun finished => ?_
    cases finished with
    | true => exact Program.uses_bind (uses_joinWorker (join _) warn) fun _ => ih₁
    | false => exact ih₂
  | case2 workers index past => exact Program.uses_pure _

theorem reap_startsNone (workers : List JoinHandle) (index : ℕ) :
    (reap workers index).Uses ListenerOp.StartsNone :=
  uses_reap (fun _ _ => trivial) (fun _ => trivial) trivial workers index

/-- The vector of the listener and the threads of its workers. -/
structure Admitted (workers : List JoinHandle) (s : Threads) : Prop where
  listed : ∀ worker ∈ s.running, worker ∈ workers
  bounded : workers.length ≤ MAX_DEV_CONNECTIONS
  nodup : workers.Nodup
  known : ∀ worker ∈ workers, worker.thread < s.spawned

/-- At most as many threads run as the vector has places. -/
theorem Admitted.running_le {workers : List JoinHandle} {s : Threads} (h : Admitted workers s) :
    s.running.length ≤ MAX_DEV_CONNECTIONS :=
  (List.subperm_of_subset s.nodup_running h.listed).length_le.trans h.bounded

/-- What a pass keeps, and what its checks see. -/
structure PassKeeps (inputs : ℕ → Happening) (workers : List JoinHandle) (index : ℕ)
    (s : Threads × ℕ) : Prop where
  listed : ∀ worker ∈ ((reap workers index).exec (timed system inputs) s).2.1.running,
    worker ∈ ((reap workers index).exec (timed system inputs) s).1
  checks : ∀ x ∈ (reap workers index).trace (timed system inputs) s,
    ∀ (vector : List JoinHandle) (place : Fin vector.length), x.2.op = .isFinished vector place →
      vector.length ≤ workers.length ∧ ∀ worker ∈ x.1.1.running, worker ∈ vector
  running : ∀ worker ∈ seenRunning ((reap workers index).acts (timed system inputs) s),
    worker ∈ s.1.running

theorem passKeeps (workers : List JoinHandle) (index : ℕ) (s : Threads × ℕ)
    (listed : ∀ worker ∈ s.1.running, worker ∈ workers) : PassKeeps inputs workers index s := by
  revert listed
  refine reap_induction (h := timed system inputs)
    (P := fun workers index s => (∀ worker ∈ s.1.running, worker ∈ workers) →
      PassKeeps inputs workers index s) (fun workers index s past listed => ?_)
    (fun workers index s inside finished ih listed => ?_)
    (fun workers index s inside running ih listed => ?_) workers index s
  · obtain ⟨exec, trace⟩ := reap_end (timed system inputs) past s
    have acts : (reap workers index).acts (timed system inputs) s = [] := by
      rw [← map_trace, trace, List.map_nil]
    refine ⟨?_, ?_, ?_⟩
    · rw [exec]
      exact listed
    · rw [trace]
      exact nofun
    · rw [acts]
      exact nofun
  · have gone : workers[index] ∉ s.1.running := of_decide_eq_true finished
    have checked : s.1.Quieter (timed system inputs (.isFinished workers ⟨index, inside⟩) s).2.1 :=
      quieter_system (inputs s.2) (.isFinished workers ⟨index, inside⟩) trivial s.1
    have joins : (joinWorker workers[index]).Uses ListenerOp.StartsNone :=
      uses_joinWorker trivial trivial
    have quiet := checked.trans (quieter_exec inputs joins _)
    obtain ⟨exec, trace⟩ := reap_finished inside finished
    have rest := ih fun worker mem => by
      have before := quiet.running worker mem
      rcases List.mem_cons.1 ((List.swapRemove_perm inside).mem_iff.2 (listed worker before)) with
        same | kept
      · exact absurd (same ▸ before) gone
      · exact kept
    refine ⟨?_, ?_, ?_⟩
    · rw [exec]
      exact rest.listed
    · rw [trace]
      intro x mem vector place same
      rcases List.mem_cons.1 mem with rfl | mem
      · cases same
        exact ⟨Nat.le_refl _, listed⟩
      · rcases List.mem_append.1 mem with mem | mem
        · have joins : (joinWorker workers[index]).Uses ListenerOp.ChecksNone :=
            uses_joinWorker trivial trivial
          have none := joins.trace _ _ x mem
          rw [same] at none
          exact absurd none not_false
        · obtain ⟨le, seen⟩ := rest.checks x mem vector place same
          rw [List.length_swapRemove inside] at le
          exact ⟨le.trans (Nat.sub_le _ _), seen⟩
    · rw [seenRunning_of_checks (checks_reap_finished inside finished)]
      exact fun worker mem => quiet.running worker (rest.running worker mem)
  · have here : workers[index] ∈ s.1.running := not_not.1 (of_decide_eq_false running)
    have quiet : s.1.Quieter (timed system inputs (.isFinished workers ⟨index, inside⟩) s).2.1 :=
      quieter_system (inputs s.2) (.isFinished workers ⟨index, inside⟩) trivial s.1
    obtain ⟨exec, trace⟩ := reap_running inside running
    have rest := ih fun worker mem => listed worker (quiet.running worker mem)
    refine ⟨?_, ?_, ?_⟩
    · rw [exec]
      exact rest.listed
    · rw [trace]
      intro x mem vector place same
      rcases List.mem_cons.1 mem with rfl | mem
      · cases same
        exact ⟨Nat.le_refl _, listed⟩
      · exact rest.checks x mem vector place same
    · rw [seenRunning_of_checks (checks_reap_running inside running)]
      intro worker mem
      rcases List.mem_cons.1 mem with rfl | mem
      · exact here
      · exact quiet.running worker (rest.running worker mem)

theorem Admitted.quieter {workers : List JoinHandle} {s s' : Threads} (h : Admitted workers s)
    (quiet : s.Quieter s') : Admitted workers s' where
  listed worker mem := h.listed worker (quiet.running worker mem)
  bounded := h.bounded
  nodup := h.nodup
  known worker mem := quiet.spawned ▸ h.known worker mem

/-- The workers that a pass keeps are among those it started with. -/
theorem kept_subperm {σ : Type} (h : Handler ListenerCalls σ) (workers : List JoinHandle) (s : σ) :
    ((reap workers 0).exec h s).1.Subperm workers := by
  obtain ⟨checked, kept, -⟩ := reaps h workers 0 s
  have seen : (seenRunning ((reap workers 0).acts h s)).Sublist
      ((checks ((reap workers 0).acts h s)).map Prod.fst) := List.filter_sublist.map _
  exact kept.subperm.trans (seen.subperm.trans checked.subperm)

theorem Admitted.reap {workers : List JoinHandle} {s : Threads × ℕ} (h : Admitted workers s.1) :
    Admitted ((KeyroCore.reap workers 0).exec (timed system inputs) s).1
      ((KeyroCore.reap workers 0).exec (timed system inputs) s).2.1 := by
  have kept := kept_subperm (timed system inputs) workers s
  have quiet := quieter_exec inputs (reap_startsNone workers 0) s
  refine ⟨(passKeeps inputs workers 0 s h.listed).listed, kept.length_le.trans h.bounded, ?_, ?_⟩
  · obtain ⟨sub, perm, sublist⟩ := kept
    exact perm.nodup_iff.1 (h.nodup.sublist sublist)
  · intro worker mem
    rw [quiet.spawned]
    exact h.known worker (kept.subset mem)

/-- Starting a thread fails, or adds the next thread. -/
theorem system_spawn (input : Happening) (connectionId : UInt64) (stream : DevStream)
    (s : Threads) :
    (∃ error, (system input (.spawn connectionId stream) s).1 = .error error ∧
      s.Quieter (system input (.spawn connectionId stream) s).2) ∨
    (system input (.spawn connectionId stream) s).1 = .ok s.next ∧
      (∀ worker ∈ (system input (.spawn connectionId stream) s).2.running,
        worker ∈ s.running ++ [s.next]) ∧
      (system input (.spawn connectionId stream) s).2.spawned = s.spawned + 1 := by
  simp only [system, serve]
  cases input.spawnFailure with
  | some error => exact .inl ⟨error, rfl, fun _ mem => (List.mem_filter.1 mem).1, rfl⟩
  | none => exact .inr ⟨rfl, fun _ mem => (List.mem_filter.1 mem).1, rfl⟩

theorem Admitted.accept {connections : DevConnections} {s : Threads × ℕ}
    (h : Admitted connections.workers s.1) (stream : DevStream) :
    Admitted ((connections.accept stream).exec (timed system inputs) s).1.2.workers
      ((connections.accept stream).exec (timed system inputs) s).2.1 := by
  obtain ⟨after, -, accepts⟩ := accept_accepts (timed system inputs) connections stream s
  have passed := h.reap inputs
  generalize (KeyroCore.reap connections.workers 0).exec (timed system inputs) s = mid at accepts passed
  obtain ⟨workers, s₁⟩ := mid
  generalize (connections.accept stream).exec (timed system inputs) s = final at accepts ⊢
  obtain ⟨⟨result, connections'⟩, s₂⟩ := final
  dsimp only at accepts passed ⊢
  have spawned := system_spawn (inputs s₁.2) connections.nextId stream s₁.1
  cases accepts with
  | full limit =>
    have warned := quieter_system (inputs s₁.2) (.warn limitReached) trivial s₁.1
    exact passed.quieter (warned.trans (quieter_system (inputs (s₁.2 + 1)) (.drop stream) trivial _))
  | notStarted room answer =>
    rcases spawned with ⟨_, -, quiet⟩ | ⟨started, -⟩
    · exact passed.quieter quiet
    · have answer : (system (inputs s₁.2) (.spawn connections.nextId stream) s₁.1).1 = _ := answer
      rw [started] at answer
      cases answer
  | started room answer =>
    have answer : (system (inputs s₁.2) (.spawn connections.nextId stream) s₁.1).1 = _ := answer
    rcases spawned with ⟨_, failed, -⟩ | ⟨started, running, count⟩
    · rw [failed] at answer
      cases answer
    · rw [started] at answer
      cases answer
      refine ⟨fun worker mem => ?_, ?_, ?_, fun worker mem => ?_⟩
      · rcases List.mem_append.1 (running worker mem) with mem | mem
        · exact List.mem_append_left _ (passed.listed worker mem)
        · exact List.mem_append_right _ mem
      · rw [List.length_append, List.length_singleton]
        exact room
      · rw [List.nodup_append_comm]
        exact List.nodup_cons.2 ⟨fun mem => Nat.lt_irrefl _ (passed.known _ mem), passed.nodup⟩
      · have count : (timed system inputs (.spawn connections.nextId stream) s₁).2.1.spawned =
            s₁.1.spawned + 1 := count
        rw [count]
        rcases List.mem_append.1 mem with mem | mem
        · exact Nat.lt_succ_of_lt (passed.known worker mem)
        · rw [List.mem_singleton.1 mem]
          exact Nat.lt_succ_self _

/-- The limit is reported. -/
def TurnsAway (acts : List (Act ListenerCalls)) : Prop := ∃ a ∈ acts, a.op = .warn limitReached

/-- What `accept` does in a state: it joins the workers that it saw finished, keeps those that it saw
running, each once, and turns the stream away exactly if it saw all places taken. -/
structure AcceptsFairly (inputs : ℕ → Happening) (connections : DevConnections)
    (stream : DevStream) (s : Threads × ℕ) (acts : List (Act ListenerCalls))
    (connections' : DevConnections) : Prop where
  checked : ((checks acts).map Prod.fst).Perm connections.workers
  joins : joined acts = seenFinished acts
  kept : ∃ kept : List JoinHandle, kept.Perm (seenRunning acts) ∧ kept.Nodup ∧
    (connections'.workers = kept ∨ ∃ worker ∉ kept,
      ⟨.spawn connections.nextId stream, .ok worker⟩ ∈ acts ∧
        connections'.workers = kept ++ [worker])
  turnsAway : TurnsAway acts ↔ (seenRunning acts).length = MAX_DEV_CONNECTIONS
  closed : TurnsAway acts → ⟨.drop stream, ()⟩ ∈ acts ∧ ∀ a ∈ acts, a.op.StartsNone
  offered : ¬ TurnsAway acts → ∃ result, ⟨.spawn connections.nextId stream, result⟩ ∈ acts
  reusable : s.1.running.length < MAX_DEV_CONNECTIONS → ¬ TurnsAway acts

def ListenerOp.KeepsQuiet (o : ListenerOp) : Prop := o ≠ .warn limitReached

/-- A pass does not report the limit. -/
theorem not_turnsAway_reap {σ : Type} (h : Handler ListenerCalls σ) (workers : List JoinHandle)
    (s : σ) : ¬ TurnsAway ((reap workers 0).acts h s) := by
  have other : (ListenerOp.warn workerPanicked).KeepsQuiet := fun same =>
    absurd (ListenerOp.warn.inj same) (by decide)
  have quiet : (reap workers 0).Uses ListenerOp.KeepsQuiet :=
    uses_reap (fun _ _ => nofun) (fun _ => nofun) other workers 0
  rintro ⟨a, mem, same⟩
  rw [← map_trace] at mem
  obtain ⟨x, stored, rfl⟩ := List.mem_map.1 mem
  exact quiet.trace h s x stored same

/-- What follows a pass checks and joins nobody, and reports the limit if it is reached. -/
theorem Accepts.after {σ : Type} {h : Handler ListenerCalls σ} {connections : DevConnections}
    {stream : DevStream} {workers : List JoinHandle} {s s' : σ}
    {after : List (σ × Act ListenerCalls)} {connections' : DevConnections}
    (accepts : Accepts h connections stream workers s after connections' s') :
    checks (after.map Prod.snd) = [] ∧ joined (after.map Prod.snd) = [] ∧
      (TurnsAway (after.map Prod.snd) ↔ MAX_DEV_CONNECTIONS ≤ workers.length) := by
  cases accepts with
  | full limit =>
    refine ⟨rfl, rfl, iff_of_true ⟨_, List.mem_cons_self, rfl⟩ limit⟩
  | notStarted room answer =>
    refine ⟨rfl, rfl, iff_of_false ?_ (Nat.not_le.2 room)⟩
    rintro ⟨a, mem, same⟩
    obtain rfl := List.mem_singleton.1 mem
    cases same
  | started room answer =>
    refine ⟨rfl, rfl, iff_of_false ?_ (Nat.not_le.2 room)⟩
    rintro ⟨a, mem, same⟩
    obtain rfl := List.mem_singleton.1 mem
    cases same

/-- A stream that is turned away is dropped, and any other is offered to a new thread. -/
theorem Accepts.outcome {σ : Type} {h : Handler ListenerCalls σ} {connections : DevConnections}
    {stream : DevStream} {workers : List JoinHandle} {s s' : σ}
    {after : List (σ × Act ListenerCalls)} {connections' : DevConnections}
    (accepts : Accepts h connections stream workers s after connections' s') :
    (MAX_DEV_CONNECTIONS ≤ workers.length → ⟨.drop stream, ()⟩ ∈ after.map Prod.snd ∧
      ∀ a ∈ after.map Prod.snd, a.op.StartsNone) ∧
    (workers.length < MAX_DEV_CONNECTIONS →
      ∃ result, ⟨.spawn connections.nextId stream, result⟩ ∈ after.map Prod.snd) := by
  cases accepts with
  | full limit =>
    refine ⟨fun _ => ⟨List.mem_cons_of_mem _ List.mem_cons_self, fun a mem => ?_⟩,
      fun room => absurd limit (Nat.not_le.2 room)⟩
    rcases List.mem_cons.1 mem with rfl | mem
    · trivial
    · rw [List.mem_singleton.1 mem]
      trivial
  | notStarted room answer =>
    exact ⟨fun limit => absurd limit (Nat.not_le.2 room), fun _ => ⟨_, List.mem_singleton_self _⟩⟩
  | started room answer =>
    exact ⟨fun limit => absurd limit (Nat.not_le.2 room), fun _ => ⟨_, List.mem_singleton_self _⟩⟩

/-- The vector after `accept` is what the pass kept, or that and the thread that was started. -/
theorem Accepts.workers {connections : DevConnections} {stream : DevStream}
    {workers : List JoinHandle} {s s' : Threads × ℕ} {after : List ((Threads × ℕ) × Act ListenerCalls)}
    {connections' : DevConnections}
    (accepts : Accepts (timed system inputs) connections stream workers s after connections' s') :
    connections'.workers = workers ∨ ∃ worker : JoinHandle, worker.thread = s.1.spawned ∧
      ⟨.spawn connections.nextId stream, .ok worker⟩ ∈ after.map Prod.snd ∧
      connections'.workers = workers ++ [worker] := by
  cases accepts with
  | full limit => exact .inl rfl
  | notStarted room answer => exact .inl rfl
  | @started worker room answer =>
    refine .inr ⟨worker, ?_, List.mem_singleton_self _, rfl⟩
    have answer : (system (inputs s.2) (.spawn connections.nextId stream) s.1).1 = _ := answer
    rcases system_spawn (inputs s.2) connections.nextId stream s.1 with ⟨_, failed, -⟩ | ⟨started, -⟩
    · rw [failed] at answer
      cases answer
    · rw [started] at answer
      cases answer
      rfl

theorem Admitted.acceptsFairly {connections : DevConnections} {s : Threads × ℕ}
    (h : Admitted connections.workers s.1) (stream : DevStream) :
    AcceptsFairly inputs connections stream s
      ((connections.accept stream).acts (timed system inputs) s)
      ((connections.accept stream).exec (timed system inputs) s).1.2 := by
  obtain ⟨after, trace, accepts⟩ := accept_accepts (timed system inputs) connections stream s
  have acts : (connections.accept stream).acts (timed system inputs) s =
      (KeyroCore.reap connections.workers 0).acts (timed system inputs) s ++ after.map Prod.snd := by
    rw [← map_trace, trace, List.map_append, map_trace]
  obtain ⟨checked, kept, joins⟩ := reaps (timed system inputs) connections.workers 0 s
  have running := (passKeeps inputs connections.workers 0 s h.listed).running
  have passed := h.reap inputs
  have silent := not_turnsAway_reap (timed system inputs) connections.workers s
  obtain ⟨noChecks, noJoins, reports⟩ := accepts.after
  have sameChecks : checks ((connections.accept stream).acts (timed system inputs) s) =
      checks ((KeyroCore.reap connections.workers 0).acts (timed system inputs) s) := by
    rw [acts, checks_append, noChecks, List.append_nil]
  have seen : seenRunning ((connections.accept stream).acts (timed system inputs) s) =
      seenRunning ((KeyroCore.reap connections.workers 0).acts (timed system inputs) s) := by
    unfold seenRunning
    rw [sameChecks]
  have count := kept.length_eq
  rw [List.take_zero, List.nil_append] at kept count
  have turns : TurnsAway ((connections.accept stream).acts (timed system inputs) s) ↔
      MAX_DEV_CONNECTIONS ≤ ((KeyroCore.reap connections.workers 0).exec (timed system inputs) s).1.length := by
    rw [← reports, acts]
    unfold TurnsAway at silent ⊢
    simp only [List.mem_append, or_and_right, exists_or, silent, false_or]
  obtain ⟨full, room⟩ := accepts.outcome
  refine ⟨?_, ?_, ?_, ?_, ?_, ?_, ?_⟩
  · rw [sameChecks]
    exact checked
  · rw [acts, joined_append, noJoins, List.append_nil, joins, seenFinished, seenFinished, ← acts,
      sameChecks]
  · rw [seen, acts]
    refine ⟨_, kept, passed.nodup, ?_⟩
    rcases accepts.workers inputs with same | ⟨worker, fresh, started, same⟩
    · exact .inl same
    · have fresh : worker ∉ ((KeyroCore.reap connections.workers 0).exec (timed system inputs) s).1 :=
        fun mem => Nat.lt_irrefl _ (fresh ▸ passed.known worker mem)
      exact .inr ⟨worker, fresh, List.mem_append_right _ started, same⟩
  · rw [turns, seen, ← count]
    exact ⟨fun limit => Nat.le_antisymm passed.bounded limit, fun same => same ▸ Nat.le_refl _⟩
  · intro away
    obtain ⟨dropped, startsNone⟩ := full (turns.1 away)
    rw [acts]
    refine ⟨List.mem_append_right _ dropped, fun a mem => ?_⟩
    rcases List.mem_append.1 mem with mem | mem
    · rw [← map_trace] at mem
      obtain ⟨x, stored, rfl⟩ := List.mem_map.1 mem
      exact (reap_startsNone connections.workers 0).trace _ s x stored
    · exact startsNone a mem
  · intro kept
    obtain ⟨result, offered⟩ := room (Nat.lt_of_not_le fun limit => kept (turns.2 limit))
    rw [acts]
    exact ⟨result, List.mem_append_right _ offered⟩
  · intro room
    rw [turns, count]
    have few : (seenRunning ((KeyroCore.reap connections.workers 0).acts (timed system inputs)
        s)).length ≤ s.1.running.length :=
      (List.subperm_of_subset (kept.nodup_iff.1 passed.nodup) running).length_le
    omega

/-! ## Every sequence of calls -/

/-- One `accept` after the other. -/
def acceptAll : List DevStream → DevConnections → Program ListenerCalls DevConnections
  | [], connections => return connections
  | stream :: streams, connections => do
    let (_, connections) ← connections.accept stream
    acceptAll streams connections

/-- The moments of a run: no more threads run than the vector has places, and a check sees a vector
that lists them all. -/
def Moments (trace : List ((Threads × ℕ) × Act ListenerCalls)) : Prop :=
  ∀ x ∈ trace, x.1.1.running.length ≤ MAX_DEV_CONNECTIONS ∧
    ∀ (vector : List JoinHandle) (place : Fin vector.length), x.2.op = .isFinished vector place →
      vector.length ≤ MAX_DEV_CONNECTIONS ∧ ∀ worker ∈ x.1.1.running, worker ∈ vector

/-- What follows a pass happens while no more threads run than after the pass. -/
theorem Accepts.moments {connections : DevConnections} {stream : DevStream}
    {workers : List JoinHandle} {s s' : Threads × ℕ} {after : List ((Threads × ℕ) × Act ListenerCalls)}
    {connections' : DevConnections}
    (accepts : Accepts (timed system inputs) connections stream workers s after connections' s') :
    ∀ x ∈ after, s.1.Quieter x.1.1 ∧ x.2.op.ChecksNone := by
  have still : s.1.Quieter s.1 := ⟨fun _ mem => mem, rfl⟩
  cases accepts with
  | full limit =>
    intro x mem
    rcases List.mem_cons.1 mem with rfl | mem
    · exact ⟨still, trivial⟩
    · obtain rfl := List.mem_singleton.1 mem
      exact ⟨quieter_system (inputs s.2) (.warn limitReached) trivial s.1, trivial⟩
  | notStarted room answer =>
    intro x mem
    obtain rfl := List.mem_singleton.1 mem
    exact ⟨still, trivial⟩
  | started room answer =>
    intro x mem
    obtain rfl := List.mem_singleton.1 mem
    exact ⟨still, trivial⟩

theorem Admitted.moments {connections : DevConnections} {s : Threads × ℕ}
    (h : Admitted connections.workers s.1) (stream : DevStream) :
    Moments ((connections.accept stream).trace (timed system inputs) s) := by
  obtain ⟨after, trace, accepts⟩ := accept_accepts (timed system inputs) connections stream s
  have passed := h.reap inputs
  intro x mem
  rw [trace] at mem
  rcases List.mem_append.1 mem with mem | mem
  · have quiet := quieter_trace inputs (reap_startsNone connections.workers 0) s x mem
    refine ⟨(h.quieter quiet).running_le, fun vector place check => ?_⟩
    obtain ⟨le, seen⟩ := (passKeeps inputs connections.workers 0 s h.listed).checks x mem vector place check
    exact ⟨le.trans h.bounded, seen⟩
  · obtain ⟨quiet, checksNone⟩ := accepts.moments inputs x mem
    refine ⟨(passed.quieter quiet).running_le, fun vector place check => ?_⟩
    rw [check] at checksNone
    exact absurd checksNone not_false

/-- An admitted state stays admitted through any sequence of calls. -/
theorem Admitted.acceptAll (streams : List DevStream) {connections : DevConnections}
    {s : Threads × ℕ} (h : Admitted connections.workers s.1) :
    Admitted ((KeyroCore.acceptAll streams connections).exec (timed system inputs) s).1.workers
        ((KeyroCore.acceptAll streams connections).exec (timed system inputs) s).2.1 ∧
      Moments ((KeyroCore.acceptAll streams connections).trace (timed system inputs) s) := by
  induction streams generalizing connections s with
  | nil => exact ⟨h, nofun⟩
  | cons stream streams ih =>
    obtain ⟨admitted, later⟩ := ih (h.accept inputs stream)
    rw [KeyroCore.acceptAll, exec_bind, trace_bind]
    refine ⟨admitted, fun x mem => ?_⟩
    rcases List.mem_append.1 mem with mem | mem
    · exact h.moments inputs stream x mem
    · exact later x mem

theorem admitted_none : Admitted DevConnections.none.workers Threads.idle :=
  ⟨nofun, Nat.zero_le _, List.nodup_nil, nofun⟩

/-- The listener after any sequence of streams, while workers finish at any moments. -/
structure AdmitsConnections (inputs : ℕ → Happening) (streams : List DevStream)
    (connections : DevConnections) (s : Threads × ℕ)
    (trace : List ((Threads × ℕ) × Act ListenerCalls)) : Prop where
  admitted : Admitted connections.workers s.1
  running : s.1.running.length ≤ MAX_DEV_CONNECTIONS
  moments : Moments trace
  next : ∀ stream, AcceptsFairly inputs connections stream s
    ((connections.accept stream).acts (timed system inputs) s)
    ((connections.accept stream).exec (timed system inputs) s).1.2

theorem connections_admitted (inputs : ℕ → Happening) (streams : List DevStream) :
    let run := KeyroCore.acceptAll streams .none
    AdmitsConnections inputs streams (run.exec (timed system inputs) (.idle, 0)).1
      (run.exec (timed system inputs) (.idle, 0)).2 (run.trace (timed system inputs) (.idle, 0)) := by
  dsimp only
  obtain ⟨admitted, moments⟩ := Admitted.acceptAll inputs (s := (.idle, 0)) streams
    admitted_none
  exact ⟨admitted, admitted.running_le, moments, admitted.acceptsFairly inputs⟩

end Admission

end KeyroCore
