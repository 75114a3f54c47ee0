import KeyroCore.Admission

/-!
# The Windows listener

`run` keeps one pipe instance pending and replaces it before it hands the connected one over, so an
instance that no worker owns exists at every moment.  Workers, the connected instance and its
replacement are never more than `CreateNamedPipeW` allows.
-/

open Effect Program

namespace KeyroCore

/-! ## The code -/

/-- An error of `run`, with its context. -/
structure ListenerError where
  context : String
  source : PipeError
  deriving DecidableEq

/-- What `run` does with the stream of a round. -/
def handOver (connected : Except IoError Unit) (stream : DevStream) (connections : DevConnections) :
    Program ListenerCalls DevConnections :=
  match connected with
  | .ok () => do
    let (result, connections) ← connections.accept stream
    match result with
    | .ok () => return connections
    | .error _ => do
      warn "failed to start development IPC connection worker"
      return connections
  | .error _ => do
    warn "development IPC accept failed"
    dropStream stream
    return connections

/-- The loop of `run`, for a number of rounds. -/
def listen : ℕ → DevStream → DevConnections →
    Program ListenerCalls (Except ListenerError (DevStream × DevConnections))
  | 0, pending, connections => return .ok (pending, connections)
  | rounds + 1, pending, connections => do
    let connected ← call (S := ListenerCalls) (.connectPipe pending)
    match ← call (S := ListenerCalls) (.createPipe false) with
    | .error source => do
      dropStream pending
      return .error ⟨"failed to renew development IPC pipe", source⟩
    | .ok next => do
      let connections ← handOver connected pending connections
      listen rounds next connections

/-- `run`, seen for a number of rounds. -/
def WindowsIpc.run (rounds : ℕ) :
    Program ListenerCalls (Except ListenerError (DevStream × DevConnections)) := do
  match ← call (S := ListenerCalls) (.createPipe true) with
  | .error source => return .error ⟨"failed to create development IPC pipe", source⟩
  | .ok pending => listen rounds pending .none

/-! ## Pipe instances -/

namespace Threads

/-- An instance exists that no worker owns. -/
def Spare (s : Threads) : Prop := ∃ pipe ∈ s.owned, pipe ∉ s.held.map Prod.snd

/-- The listener holds the pipes, and no instance is held twice. -/
structure Owns (pipes : List DevStream) (s : Threads) : Prop where
  owned : s.owned = pipes
  nodup : s.alive.Nodup
  fresh : ∀ pipe ∈ s.alive, pipe.pipe < s.created

variable {pipes : List DevStream} {s s' : Threads} {pipe stream : DevStream}

theorem Owns.alive (h : s.Owns pipes) : s.alive = pipes ++ s.held.map Prod.snd := by
  rw [Threads.alive, h.owned]

theorem Owns.not_held (h : s.Owns (pipe :: pipes)) : pipe ∉ s.held.map Prod.snd := fun mem => by
  have nodup := h.nodup
  rw [h.alive, List.cons_append] at nodup
  exact (List.nodup_cons.1 nodup).1 (List.mem_append_right _ mem)

theorem Owns.spare (h : s.Owns (pipe :: pipes)) : s.Spare :=
  ⟨pipe, h.owned ▸ List.mem_cons_self, h.not_held⟩

/-- Workers give up instances. -/
theorem Owns.sublist (h : s.Owns pipes) (owned : s'.owned = s.owned)
    (held : s'.held.Sublist s.held) (created : s'.created = s.created) : s'.Owns pipes := by
  have sub : s'.alive.Sublist s.alive := by
    rw [Threads.alive, owned]
    exact (held.map _).append_left _
  refine ⟨owned.trans h.owned, h.nodup.sublist sub, fun pipe mem => ?_⟩
  rw [created]
  exact h.fresh pipe (sub.subset mem)

theorem Owns.finish (h : s.Owns pipes) (gone : List JoinHandle) : (s.finish gone).Owns pipes :=
  h.sublist rfl List.filter_sublist rfl

theorem Owns.release (h : s.Owns pipes) (gone : List JoinHandle) : (s.release gone).Owns pipes :=
  h.sublist rfl List.filter_sublist rfl

/-- The listener drops an instance, or a worker takes it. -/
theorem Owns.disown (h : s.Owns (stream :: pipes)) : (s.disown stream).Owns pipes := by
  have owned : (s.disown stream).owned = pipes := by
    rw [Threads.disown, h.owned, List.erase_cons_head]
  have sub : (s.disown stream).alive.Sublist s.alive := by
    rw [Threads.alive, owned, h.alive, List.cons_append]
    exact List.sublist_cons_self _ _
  exact ⟨owned, h.nodup.sublist sub, fun pipe mem => h.fresh pipe (sub.subset mem)⟩

theorem Owns.start (h : s.Owns (stream :: pipes)) : (s.start stream).Owns pipes := by
  have owned : (s.start stream).owned = pipes := by
    rw [Threads.start, h.owned, List.erase_cons_head]
  have perm : (s.start stream).alive.Perm s.alive := by
    rw [Threads.alive, owned, h.alive, Threads.start, List.map_append, List.map_singleton,
      ← List.append_assoc, List.cons_append]
    exact List.perm_append_singleton _ _
  exact ⟨owned, perm.nodup_iff.2 h.nodup, fun pipe mem => h.fresh pipe (perm.mem_iff.1 mem)⟩

theorem Owns.create (h : s.Owns pipes) : s.create.Owns (pipes ++ [⟨s.created⟩]) := by
  have perm : s.create.alive.Perm (⟨s.created⟩ :: s.alive) := by
    rw [Threads.alive, Threads.alive, Threads.create, List.append_assoc]
    exact List.perm_middle
  refine ⟨?_, ?_, ?_⟩
  · rw [Threads.create, h.owned]
  · rw [perm.nodup_iff]
    exact List.nodup_cons.2 ⟨fun mem => Nat.lt_irrefl _ (h.fresh _ mem), h.nodup⟩
  · intro pipe mem
    rcases List.mem_cons.1 (perm.mem_iff.1 mem) with rfl | mem
    · exact Nat.lt_succ_self _
    · exact Nat.lt_succ_of_lt (h.fresh pipe mem)

/-- Each worker owns one instance at most. -/
theorem held_le (s : Threads) : s.held.length ≤ s.running.length := by
  have sub : (s.held.map Prod.fst).Subperm s.running :=
    List.subperm_of_subset s.nodup_held fun worker mem => by
      obtain ⟨p, held, rfl⟩ := List.mem_map.1 mem
      exact s.holding p held
  rw [← List.length_map]
  exact sub.length_le

theorem Owns.alive_le (h : s.Owns pipes) {workers : List JoinHandle} (admitted : Admitted workers s) :
    s.alive.length ≤ pipes.length + MAX_DEV_CONNECTIONS := by
  have held := s.held_le
  have running := admitted.running_le
  rw [h.alive, List.length_append, List.length_map]
  omega

end Threads

/-! ## What a call does to the instances -/

section Calls

variable (inputs : ℕ → Happening) {pipes : List DevStream} {stream next : DevStream}
  {s : Threads × ℕ}

/-- Calls that neither create nor pass on an instance. -/
def ListenerOp.KeepsPipes : ListenerOp → Prop
  | .isFinished _ _ | .join _ | .connectPipe _ | .warn _ => True
  | _ => False

theorem Threads.Owns.then (h : (serve (inputs s.2) o s.1).2.Owns pipes) :
    (timed system inputs o s).2.1.Owns pipes :=
  (h.finish _).release _

theorem Threads.Owns.kept {o : ListenerOp} (keeps : o.KeepsPipes) (h : s.1.Owns pipes) :
    (timed system inputs o s).2.1.Owns pipes := by
  refine Owns.then inputs ?_
  cases o with
  | isFinished workers index => exact h
  | join worker => exact h.finish _
  | connectPipe pipe => exact h
  | warn message => exact h
  | spawn connectionId stream => exact absurd keeps not_false
  | drop stream => exact absurd keeps not_false
  | createPipe first => exact absurd keeps not_false

theorem Threads.Owns.dropped (h : s.1.Owns (stream :: pipes)) :
    (timed system inputs (.drop stream) s).2.1.Owns pipes :=
  h.disown.then

theorem Threads.Owns.spawned (h : s.1.Owns (stream :: pipes)) (connectionId : UInt64) :
    (timed system inputs (.spawn connectionId stream) s).2.1.Owns pipes := by
  refine Owns.then inputs ?_
  simp only [serve]
  cases (inputs s.2).spawnFailure with
  | some error => exact h.disown
  | none => exact h.start

/-- A creation fails for another reason than the number of instances if it is not exhausted. -/
theorem Threads.Owns.created (h : s.1.Owns pipes) (first : Bool)
    (room : s.1.alive.length < MAX_PIPE_INSTANCES) :
    (∃ error, (timed system inputs (.createPipe first) s).1 = .error (.other error) ∧
      (timed system inputs (.createPipe first) s).2.1.Owns pipes) ∨
    ∃ pipe, (timed system inputs (.createPipe first) s).1 = .ok pipe ∧
      (timed system inputs (.createPipe first) s).2.1.Owns (pipes ++ [pipe]) := by
  have served : (∃ error, (serve (inputs s.2) (.createPipe first) s.1) = (.error (.other error), s.1)) ∨
      serve (inputs s.2) (.createPipe first) s.1 = (.ok ⟨s.1.created⟩, s.1.create) := by
    simp only [serve]
    cases (inputs s.2).pipeFailure with
    | some error => exact .inl ⟨error, rfl⟩
    | none =>
      refine .inr ?_
      dsimp only
      rw [if_neg (Nat.not_le.2 room)]
  rcases served with ⟨error, served⟩ | served
  · refine .inl ⟨error, congrArg Prod.fst served, Owns.then inputs ?_⟩
    rw [served]
    exact h
  · refine .inr ⟨_, congrArg Prod.fst served, Owns.then inputs ?_⟩
    rw [served]
    exact h.create

end Calls

/-! ## One round -/

section Rounds

variable (inputs : ℕ → Happening) {stream next : DevStream} {s : Threads × ℕ}

/-- After the first creation an instance is spare, and a creation neither finds too many instances
nor fails for that. -/
def Supplied (x : (Threads × ℕ) × Act ListenerCalls) : Prop :=
  (0 < x.1.1.created → x.1.1.Spare) ∧ ∀ first answer, x.2 = ⟨.createPipe first, answer⟩ →
    x.1.1.alive.length ≤ MAX_DEV_CONNECTIONS + 1 ∧ answer ≠ .error .allInstancesBusy

/-- Calls that pass on no other instance than the stream, and create none. -/
def ListenerOp.PassesOn (stream : DevStream) : ListenerOp → Prop
  | .spawn _ given => given = stream
  | .drop dropped => dropped = stream
  | .createPipe _ => False
  | _ => True

/-- The listener holds the instance, and no worker does. -/
def Threads.Keeps (pipe : DevStream) (s : Threads) : Prop :=
  pipe ∈ s.owned ∧ pipe ∉ s.held.map Prod.snd

theorem Threads.Keeps.sublist {pipe : DevStream} {s s' : Threads} (h : s.Keeps pipe)
    (owned : s'.owned = s.owned) (held : s'.held.Sublist s.held) : s'.Keeps pipe :=
  ⟨owned ▸ h.1, fun mem => h.2 ((held.map _).subset mem)⟩

/-- An instance stays with the listener while another one is passed on. -/
theorem Threads.Keeps.kept {pipe : DevStream} (other : pipe ≠ stream) {o : ListenerOp}
    (passes : o.PassesOn stream) (h : s.1.Keeps pipe) :
    (timed system inputs o s).2.1.Keeps pipe := by
  have later : ∀ s' : Threads, s'.Keeps pipe →
      ((s'.finish (inputs s.2).finishing).release (inputs s.2).releasing).Keeps pipe := by
    intro s' h
    have finished : (s'.finish (inputs s.2).finishing).Keeps pipe :=
      h.sublist rfl List.filter_sublist
    exact finished.sublist rfl List.filter_sublist
  refine later _ ?_
  have disowned : (s.1.disown stream).Keeps pipe := ⟨(List.mem_erase_of_ne other).2 h.1, h.2⟩
  cases o with
  | isFinished workers index => exact h
  | join worker => exact h.sublist rfl List.filter_sublist
  | connectPipe pipe => exact h
  | warn message => exact h
  | drop dropped => exact passes ▸ disowned
  | createPipe first => exact absurd passes not_false
  | spawn connectionId given =>
    obtain rfl : given = stream := passes
    simp only [serve]
    cases (inputs s.2).spawnFailure with
    | some error => exact disowned
    | none =>
      refine ⟨disowned.1, fun mem => ?_⟩
      rw [Threads.start, List.map_append, List.map_singleton] at mem
      rcases List.mem_append.1 mem with mem | mem
      · exact h.2 mem
      · exact other (List.mem_singleton.1 mem)

theorem uses_accept (connections : DevConnections) (stream : DevStream) :
    (connections.accept stream).Uses (ListenerOp.PassesOn stream) := by
  unfold DevConnections.accept
  refine Program.uses_bind (uses_reap (fun _ _ => trivial) (fun _ => trivial) trivial _ _)
    fun workers => ?_
  split_ifs
  · exact Program.uses_bind (Program.uses_call trivial) fun _ =>
      Program.uses_bind (Program.uses_call rfl) fun _ => Program.uses_pure _
  · refine Program.uses_bind (Program.uses_call rfl) fun result => ?_
    cases result with
    | error error => exact Program.uses_pure _
    | ok worker => exact Program.uses_pure _

theorem uses_handOver (connected : Except IoError Unit) (stream : DevStream)
    (connections : DevConnections) :
    (handOver connected stream connections).Uses (ListenerOp.PassesOn stream) := by
  cases connected with
  | ok _ =>
    refine Program.uses_bind (uses_accept connections stream) fun accepted => ?_
    obtain ⟨result, connections⟩ := accepted
    cases result with
    | ok _ => exact Program.uses_pure _
    | error error => exact Program.uses_bind (Program.uses_call trivial) fun _ => Program.uses_pure _
  | error error =>
    exact Program.uses_bind (Program.uses_call trivial) fun _ =>
      Program.uses_bind (Program.uses_call rfl) fun _ => Program.uses_pure _

/-- An instance is spare at every moment of the hand-over. -/
theorem handOver_supplied (connected : Except IoError Unit) (connections : DevConnections)
    (owns : s.1.Owns [stream, next]) :
    ∀ x ∈ (handOver connected stream connections).trace (timed system inputs) s, Supplied x := by
  have uses := uses_handOver connected stream connections
  have nodup := owns.nodup
  rw [owns.alive, List.cons_append, List.cons_append, List.nil_append, List.nodup_cons,
    List.nodup_cons] at nodup
  have other : next ≠ stream := fun same => nodup.1 (same ▸ List.mem_cons_self)
  have keeps : s.1.Keeps next :=
    ⟨owns.owned ▸ List.mem_cons_of_mem _ List.mem_cons_self, nodup.2.1⟩
  intro x mem
  have kept := (uses.keeps (I := fun s : Threads × ℕ => s.1.Keeps next)
    (fun _ _ passes h => h.kept inputs other passes) keeps).2 x mem
  have passes := uses.trace _ s x mem
  refine ⟨fun _ => ⟨next, kept⟩, fun first answer same => ?_⟩
  rw [same] at passes
  exact absurd passes not_false

theorem reap_owns {pipes : List DevStream} (workers : List JoinHandle) (owns : s.1.Owns pipes) :
    ((reap workers 0).exec (timed system inputs) s).2.1.Owns pipes :=
  ((uses_reap (O := ListenerOp.KeepsPipes) (fun _ _ => trivial) (fun _ => trivial) trivial workers
    0).keeps (I := fun s : Threads × ℕ => s.1.Owns pipes) (fun _ _ keeps h => h.kept inputs keeps) owns).1

/-- `accept` passes the stream on. -/
theorem accept_owns (connections : DevConnections) (owns : s.1.Owns [stream, next]) :
    ((connections.accept stream).exec (timed system inputs) s).2.1.Owns [next] := by
  obtain ⟨after, -, accepts⟩ := accept_accepts (timed system inputs) connections stream s
  have passed := reap_owns inputs connections.workers owns
  generalize (reap connections.workers 0).exec (timed system inputs) s = mid at accepts passed
  obtain ⟨workers, s₁⟩ := mid
  generalize (connections.accept stream).exec (timed system inputs) s = final at accepts ⊢
  obtain ⟨⟨result, connections'⟩, s₂⟩ := final
  dsimp only at accepts passed ⊢
  cases accepts with
  | full limit => exact (passed.kept inputs (o := .warn limitReached) trivial).dropped inputs
  | notStarted room answer => exact passed.spawned inputs connections.nextId
  | started room answer => exact passed.spawned inputs connections.nextId

/-- What holds whenever the loop of `run` begins a round. -/
structure Listens (pending : DevStream) (connections : DevConnections) (s : Threads × ℕ) : Prop where
  owns : s.1.Owns [pending]
  admitted : Admitted connections.workers s.1

theorem handOver_listens (connected : Except IoError Unit) {connections : DevConnections}
    (owns : s.1.Owns [stream, next]) (admitted : Admitted connections.workers s.1) :
    Listens next ((handOver connected stream connections).exec (timed system inputs) s).1
      ((handOver connected stream connections).exec (timed system inputs) s).2 := by
  cases connected with
  | ok _ =>
    have owns := accept_owns inputs connections owns
    have admitted := admitted.accept inputs stream
    rw [handOver, exec_bind]
    generalize (connections.accept stream).exec (timed system inputs) s = accepted at owns admitted ⊢
    obtain ⟨⟨result, connections'⟩, s'⟩ := accepted
    cases result with
    | ok _ => exact ⟨owns, admitted⟩
    | error error =>
      exact ⟨owns.kept inputs (o := .warn _) trivial,
        admitted.quieter (quieter_system (inputs s'.2) (.warn _) trivial s'.1)⟩
  | error error =>
    have warned := quieter_system (inputs s.2) (.warn "development IPC accept failed") trivial s.1
    exact ⟨(owns.kept inputs (o := .warn _) trivial).dropped inputs,
      admitted.quieter (warned.trans (quieter_system _ (.drop stream) trivial _))⟩

theorem Listens.connected {pending : DevStream} {connections : DevConnections}
    (h : Listens pending connections s) (pipe : DevStream) :
    Listens pending connections (timed system inputs (.connectPipe pipe) s).2 :=
  ⟨h.owns.kept inputs (o := .connectPipe pipe) trivial,
    h.admitted.quieter (quieter_system (inputs s.2) (.connectPipe pipe) trivial s.1)⟩

/-- The replacement of the pending instance. -/
theorem Listens.renewed {pending : DevStream} {connections : DevConnections}
    (h : Listens pending connections s) :
    Supplied (s, ⟨.createPipe false, (timed system inputs (.createPipe false) s).1⟩) ∧
      Admitted connections.workers (timed system inputs (.createPipe false) s).2.1 ∧
      ((∃ error, (timed system inputs (.createPipe false) s).1 = .error (.other error) ∧
        (timed system inputs (.createPipe false) s).2.1.Owns [pending]) ∨
      ∃ next, (timed system inputs (.createPipe false) s).1 = .ok next ∧
        (timed system inputs (.createPipe false) s).2.1.Owns [pending, next]) := by
  have few : s.1.alive.length ≤ MAX_DEV_CONNECTIONS + 1 := by
    have few := h.owns.alive_le h.admitted
    rw [List.length_singleton, Nat.add_comm] at few
    exact few
  have created := h.owns.created inputs false (Nat.lt_of_le_of_lt few (by decide))
  refine ⟨⟨fun _ => h.owns.spare, fun first answer same => ⟨few, fun busy => ?_⟩⟩,
    h.admitted.quieter (quieter_system (inputs s.2) (.createPipe false) trivial s.1), created⟩
  cases same
  rw [busy] at created
  rcases created with ⟨error, failed, -⟩ | ⟨next, renewed, -⟩
  · cases failed
  · cases renewed

/-! ## Every run -/

/-- How a run of the loop may stand. -/
def Stands : Except ListenerError (DevStream × DevConnections) → Threads × ℕ → Prop
  | .ok (pending, connections), s => Listens pending connections s
  | .error error, _ => ∃ source, error.source = .other source

theorem listen_supplied (rounds : ℕ) {pending : DevStream} {connections : DevConnections}
    {s : Threads × ℕ} (listens : Listens pending connections s) :
    (∀ x ∈ (listen rounds pending connections).trace (timed system inputs) s, Supplied x) ∧
      Stands ((listen rounds pending connections).exec (timed system inputs) s).1
        ((listen rounds pending connections).exec (timed system inputs) s).2 := by
  induction rounds generalizing pending connections s with
  | zero => exact ⟨nofun, listens⟩
  | succ rounds ih =>
    rw [listen, exec_bind, trace_bind, exec_call, trace_call, exec_bind, trace_bind, exec_call,
      trace_call]
    have spare : Supplied (s, ⟨.connectPipe pending,
        (timed system inputs (.connectPipe pending) s).1⟩) := ⟨fun _ => listens.owns.spare, nofun⟩
    have connected := listens.connected inputs pending
    generalize timed system inputs (.connectPipe pending) s = answered at spare connected ⊢
    obtain ⟨result, s₁⟩ := answered
    obtain ⟨supplied, admitted, created⟩ := connected.renewed inputs
    dsimp only at supplied admitted created ⊢
    generalize timed system inputs (.createPipe false) s₁ = answered at supplied admitted created ⊢
    obtain ⟨answer, s₂⟩ := answered
    rcases created with ⟨error, rfl, owns⟩ | ⟨next, rfl, owns⟩
    · refine ⟨fun x mem => ?_, error, rfl⟩
      rcases List.mem_cons.1 mem with rfl | mem
      · exact spare
      · rcases List.mem_cons.1 mem with rfl | mem
        · exact supplied
        · obtain rfl := List.mem_singleton.1 mem
          exact ⟨fun _ => owns.spare, nofun⟩
    · obtain ⟨later, stands⟩ := ih (handOver_listens inputs result owns admitted)
      dsimp only
      rw [exec_bind, trace_bind, List.singleton_append, List.singleton_append]
      refine ⟨fun x mem => ?_, stands⟩
      rcases List.mem_cons.1 mem with rfl | mem
      · exact spare
      · rcases List.mem_cons.1 mem with rfl | mem
        · exact supplied
        · rcases List.mem_append.1 mem with mem | mem
          · exact handOver_supplied inputs result connections owns x mem
          · exact later x mem

theorem owns_idle : Threads.idle.Owns [] :=
  ⟨rfl, List.nodup_nil, nofun⟩

/-- The listener over any number of rounds: no creation fails for lack of instances, nothing else
ends the loop, and an instance is spare from the first creation on. -/
structure NeverExhausts (trace : List ((Threads × ℕ) × Act ListenerCalls))
    (result : Except ListenerError (DevStream × DevConnections)) (s : Threads) : Prop where
  supplied : ∀ x ∈ trace, Supplied x
  ended : ∀ error, result = .error error → ∃ source, error.source = .other source
  spare : ∀ connected, result = .ok connected → s.Spare

theorem listener_never_exhausts (inputs : ℕ → Happening) (rounds : ℕ) :
    NeverExhausts ((WindowsIpc.run rounds).trace (timed system inputs) (.idle, 0))
      ((WindowsIpc.run rounds).exec (timed system inputs) (.idle, 0)).1
      ((WindowsIpc.run rounds).exec (timed system inputs) (.idle, 0)).2.1 := by
  have created := owns_idle.created inputs (s := (.idle, 0)) true (by decide)
  have admitted := admitted_none.quieter (quieter_system (inputs 0) (.createPipe true) trivial .idle)
  have first : Supplied ((.idle, 0),
      ⟨.createPipe true, (timed system inputs (.createPipe true) (.idle, 0)).1⟩) := by
    refine ⟨nofun, fun first answer same => ⟨Nat.zero_le _, fun busy => ?_⟩⟩
    cases same
    rw [busy] at created
    rcases created with ⟨error, failed, -⟩ | ⟨next, renewed, -⟩
    · cases failed
    · cases renewed
  change Admitted _ (timed system inputs (.createPipe true) (.idle, 0)).2.1 at admitted
  rw [WindowsIpc.run, exec_bind, trace_bind, exec_call, trace_call]
  generalize timed system inputs (.createPipe true) (.idle, 0) = answered
    at created admitted first ⊢
  obtain ⟨answer, s⟩ := answered
  rcases created with ⟨error, rfl, -⟩ | ⟨pending, rfl, owns⟩
  · refine ⟨fun x mem => ?_, fun failure same => ?_, nofun⟩
    · exact List.mem_singleton.1 mem ▸ first
    · cases same
      exact ⟨error, rfl⟩
  · obtain ⟨later, stands⟩ := listen_supplied inputs rounds
      (s := s) (⟨owns, admitted⟩ : Listens pending .none s)
    dsimp only
    generalize (listen rounds pending .none).exec (timed system inputs) s = final at stands ⊢
    obtain ⟨result, s'⟩ := final
    refine ⟨fun x mem => ?_, fun error same => ?_, fun connected same => ?_⟩
    · rcases List.mem_cons.1 mem with rfl | mem
      · exact first
      · exact later x mem
    · obtain rfl : result = .error error := same
      exact stands
    · obtain rfl : result = .ok connected := same
      exact stands.owns.spare

end Rounds

end KeyroCore
