import Mathlib.Logic.Function.Basic
import KeyroCore.Effect.Crash

/-!
# Clients of a shared state

Any number of clients run programs against one shared state, one operation at a time and in any
order.  A client at rest starts a job, whose program depends on the client's location and ends with
a result and the next location.  The history records every operation with the job it belongs to,
what that job had done before, and the state left.

`Traced` collects what holds of every run: jobs follow their programs, what a job remembers is in
the history, and consecutive states of the history are linked by the handler.
-/

namespace Effect

open Program

/-- What one job has done: its operations, each with its place in the history. -/
abbrev Past (S : Signature) := List (ℕ × Act S)

/-- A job in progress, or finished when nothing is left to perform. -/
structure Frame (S : Signature) (Loc Job Res : Type) where
  loc : Loc
  job : Job
  past : Past S
  rest : Program S (Res × Loc)

inductive Client (S : Signature) (Loc Job Res : Type) where
  | idle (loc : Loc)
  | busy (frame : Frame S Loc Job Res)

/-- One operation of a run. -/
structure Entry (S : Signature) (Loc Job σ : Type) where
  client : ℕ
  loc : Loc
  job : Job
  past : Past S
  act : Act S
  after : σ

structure Config (S : Signature) (Loc Job Res σ : Type) where
  shared : σ
  clients : ℕ → Client S Loc Job Res
  history : List (Entry S Loc Job σ)

/-- A client starts a job, or performs its next operation under the input `input`. -/
inductive Move (Job ι : Type) where
  | start (client : ℕ) (job : Job)
  | go (client : ℕ) (input : ι)

namespace Clients

variable {S : Signature} {Loc Job Res σ ι : Type} (body : Loc → Job → Program S (Res × Loc))
  (h : ι → Handler S σ)

/-- Nothing has happened yet. -/
def begin (s : σ) (loc : Loc) : Config S Loc Job Res σ where
  shared := s
  clients := fun _ => .idle loc
  history := []

def startJob (c : Config S Loc Job Res σ) (i : ℕ) (loc : Loc) (job : Job) :
    Config S Loc Job Res σ :=
  { c with clients := Function.update c.clients i (.busy ⟨loc, job, [], body loc job⟩) }

/-- Client `i` has performed `act` with the shared state `s` left. -/
def record (c : Config S Loc Job Res σ) (i : ℕ) (f : Frame S Loc Job Res) (act : Act S)
    (rest : Program S (Res × Loc)) (s : σ) : Config S Loc Job Res σ where
  shared := s
  clients := Function.update c.clients i
    (.busy ⟨f.loc, f.job, f.past ++ [(c.history.length, act)], rest⟩)
  history := c.history ++ [⟨i, f.loc, f.job, f.past, act, s⟩]

section Fields

variable {body} (c : Config S Loc Job Res σ) (i : ℕ) (loc : Loc) (job : Job)
  (f : Frame S Loc Job Res) (act : Act S) (rest : Program S (Res × Loc)) (s : σ)

theorem clients_startJob : (startJob body c i loc job).clients =
    Function.update c.clients i (.busy ⟨loc, job, [], body loc job⟩) := rfl

theorem clients_record : (record c i f act rest s).clients = Function.update c.clients i
    (.busy ⟨f.loc, f.job, f.past ++ [(c.history.length, act)], rest⟩) := rfl

theorem history_record : (record c i f act rest s).history =
    c.history ++ [⟨i, f.loc, f.job, f.past, act, s⟩] := rfl

end Fields

/-- A move that does not fit the client changes nothing. -/
def step (c : Config S Loc Job Res σ) : Move Job ι → Config S Loc Job Res σ
  | .start i job =>
    match c.clients i with
    | .idle loc => startJob body c i loc job
    | .busy ⟨_, _, _, .pure (_, loc)⟩ => startJob body c i loc job
    | .busy _ => c
  | .go i input =>
    match c.clients i with
    | .busy ⟨loc, job, past, .perform o next⟩ =>
      record c i ⟨loc, job, past, .perform o next⟩ ⟨o, (h input o c.shared).1⟩
        (next (h input o c.shared).1) (h input o c.shared).2
    | _ => c

def run (c : Config S Loc Job Res σ) (moves : List (Move Job ι)) : Config S Loc Job Res σ :=
  moves.foldl (step body h) c

variable {body h}

variable (body h) in
/-- What one move can do. -/
theorem step_cases (c : Config S Loc Job Res σ) (m : Move Job ι) :
    step body h c m = c ∨
    (∃ i loc job, (c.clients i = .idle loc ∨
        ∃ f r, c.clients i = .busy f ∧ f.rest = .pure (r, loc)) ∧
      step body h c m = startJob body c i loc job) ∨
    ∃ i input f o next, c.clients i = .busy f ∧ f.rest = .perform o next ∧
      step body h c m = record c i f ⟨o, (h input o c.shared).1⟩ (next (h input o c.shared).1)
        (h input o c.shared).2 := by
  cases m with
  | start i job =>
    rcases hc : c.clients i with loc | ⟨loc, job', past, ⟨r, loc'⟩ | ⟨o, next⟩⟩
    · exact .inr (.inl ⟨i, loc, job, .inl hc, by simp only [step, hc]⟩)
    · exact .inr (.inl ⟨i, loc', job, .inr ⟨_, r, hc, rfl⟩, by simp only [step, hc]⟩)
    · exact .inl (by simp only [step, hc])
  | go i input =>
    rcases hc : c.clients i with loc | ⟨loc, job, past, ⟨r, loc'⟩ | ⟨o, next⟩⟩
    · exact .inl (by simp only [step, hc])
    · exact .inl (by simp only [step, hc])
    · exact .inr (.inr ⟨i, input, _, o, next, hc, rfl, by simp only [step, hc]⟩)

/-- What every move preserves holds after every run. -/
theorem run_induction {P : Config S Loc Job Res σ → Prop} {c : Config S Loc Job Res σ}
    (hc : P c) (hstep : ∀ c m, P c → P (step body h c m)) (moves : List (Move Job ι)) :
    P (run body h c moves) := by
  induction moves generalizing c with
  | nil => exact hc
  | cons m moves ih => exact ih (hstep c m hc)

/-! ## Histories -/

/-- The shared state before the `t`-th operation. -/
def stateAt (s : σ) (history : List (Entry S Loc Job σ)) : ℕ → σ
  | 0 => s
  | t + 1 => (history[t]?.map Entry.after).getD s

/-- What a job remembers stands in the history, in the order in which it happened. -/
def Recorded (history : List (Entry S Loc Job σ)) (i : ℕ) (past : Past S) : Prop :=
  (past.map Prod.fst).Pairwise (· < ·) ∧
    ∀ p ∈ past, ∃ e, history[p.1]? = some e ∧ e.client = i ∧ e.act = p.2

/-- What holds of every configuration that runs reach from the shared state `s`. -/
structure Traced (body : Loc → Job → Program S (Res × Loc)) (h : ι → Handler S σ) (s : σ)
    (c : Config S Loc Job Res σ) : Prop where
  shared_eq : c.shared = stateAt s c.history c.history.length
  linked : ∀ t e, c.history[t]? = some e → ∃ input,
    h input e.act.op (stateAt s c.history t) = (e.act.ans, e.after)
  frame_follows : ∀ i f, c.clients i = .busy f →
    Follows (body f.loc f.job) (f.past.map Prod.snd) f.rest
  frame_recorded : ∀ i f, c.clients i = .busy f → Recorded c.history i f.past
  entry_follows : ∀ e ∈ c.history, ∃ q,
    Follows (body e.loc e.job) (e.past.map Prod.snd ++ [e.act]) q
  entry_recorded : ∀ t e, c.history[t]? = some e → Recorded (c.history.take t) e.client e.past

theorem Recorded.append {history : List (Entry S Loc Job σ)} {i : ℕ} {past : Past S}
    (hr : Recorded history i past) (more : List (Entry S Loc Job σ)) :
    Recorded (history ++ more) i past := by
  refine ⟨hr.1, fun p hp => ?_⟩
  obtain ⟨e, he, rest⟩ := hr.2 p hp
  exact ⟨e, List.getElem?_append_left (List.getElem?_eq_some_iff.1 he).1 ▸ he, rest⟩

theorem Recorded.lt {history : List (Entry S Loc Job σ)} {i : ℕ} {past : Past S}
    (hr : Recorded history i past) {p : ℕ × Act S} (hp : p ∈ past) : p.1 < history.length := by
  obtain ⟨e, he, -⟩ := hr.2 p hp
  exact (List.getElem?_eq_some_iff.1 he).1

theorem stateAt_append {s : σ} {history : List (Entry S Loc Job σ)} {t : ℕ}
    (ht : t ≤ history.length) (more : List (Entry S Loc Job σ)) :
    stateAt s (history ++ more) t = stateAt s history t := by
  cases t with
  | zero => rfl
  | succ t => rw [stateAt, stateAt, List.getElem?_append_left ht]

theorem stateAt_succ {s : σ} {history : List (Entry S Loc Job σ)} {t : ℕ}
    {e : Entry S Loc Job σ} (he : history[t]? = some e) : stateAt s history (t + 1) = e.after := by
  rw [stateAt, he]
  rfl

theorem traced_begin (s : σ) (loc : Loc) : Traced body h s (begin s loc) where
  shared_eq := rfl
  linked := fun t e he => by cases he
  frame_follows := fun i f hf => by cases hf
  frame_recorded := fun i f hf => by cases hf
  entry_follows := fun e he => by cases he
  entry_recorded := fun t e he => by cases he

theorem getElem?_concat_cases {α : Type} {l : List α} {a b : α} {t : ℕ}
    (h : (l ++ [a])[t]? = some b) : (t < l.length ∧ l[t]? = some b) ∨ (t = l.length ∧ b = a) := by
  rcases Nat.lt_or_ge t l.length with lt | ge
  · rw [List.getElem?_append_left lt] at h
    exact .inl ⟨lt, h⟩
  · have := (List.getElem?_eq_some_iff.1 h).1
    rw [List.length_append, List.length_singleton] at this
    obtain rfl : t = l.length := by omega
    rw [List.getElem?_concat_length] at h
    exact .inr ⟨rfl, (Option.some.inj h).symm⟩

theorem Traced.startJob {s : σ} {c : Config S Loc Job Res σ} (hc : Traced body h s c) (i : ℕ)
    (loc : Loc) (job : Job) : Traced body h s (startJob body c i loc job) := by
  refine ⟨hc.shared_eq, hc.linked, fun j f hf => ?_, fun j f hf => ?_, hc.entry_follows,
    hc.entry_recorded⟩
  · rw [clients_startJob] at hf
    by_cases hj : j = i
    · subst hj
      rw [Function.update_self] at hf
      cases hf
      exact .nil _
    · rw [Function.update_of_ne hj] at hf
      exact hc.frame_follows j f hf
  · rw [clients_startJob] at hf
    by_cases hj : j = i
    · subst hj
      rw [Function.update_self] at hf
      cases hf
      exact ⟨.nil, by simp⟩
    · rw [Function.update_of_ne hj] at hf
      exact hc.frame_recorded j f hf

/-- An operation at the end of the history is the last that its job remembers. -/
theorem Recorded.snoc {history : List (Entry S Loc Job σ)} {i : ℕ} {past : Past S} {act : Act S}
    (hr : Recorded history i past) (loc : Loc) (job : Job) (s : σ) :
    Recorded (history ++ [⟨i, loc, job, past, act, s⟩]) i (past ++ [(history.length, act)]) := by
  constructor
  · rw [List.map_append, List.pairwise_append]
    refine ⟨hr.1, List.pairwise_singleton _ _, fun t ht t' ht' => ?_⟩
    obtain ⟨p, hp, rfl⟩ := List.mem_map.1 ht
    rw [List.mem_singleton.1 ht']
    exact hr.lt hp
  · intro p hp
    rcases List.mem_append.1 hp with hp | hp
    · exact (hr.append _).2 p hp
    · rw [List.mem_singleton.1 hp]
      exact ⟨_, List.getElem?_concat_length, rfl, rfl⟩

theorem Traced.record {s : σ} {c : Config S Loc Job Res σ} (hc : Traced body h s c) {i : ℕ}
    {input : ι} {f : Frame S Loc Job Res} {o : S.Op} {next : S.Ans o → Program S (Res × Loc)}
    (hf : c.clients i = .busy f) (hrest : f.rest = .perform o next) :
    Traced body h s (record c i f ⟨o, (h input o c.shared).1⟩ (next (h input o c.shared).1)
      (h input o c.shared).2) := by
  have follows := (hc.frame_follows i f hf).snoc hrest (h input o c.shared).1
  have recorded := hc.frame_recorded i f hf
  refine ⟨?_, fun t e he => ?_, fun j f' hf' => ?_, fun j f' hf' => ?_, fun e he => ?_,
    fun t e he => ?_⟩
  · rw [history_record, List.length_append, List.length_singleton]
    rw [stateAt, List.getElem?_concat_length]
    rfl
  · rw [history_record] at he ⊢
    rcases getElem?_concat_cases he with ⟨lt, he⟩ | ⟨rfl, rfl⟩
    · rw [stateAt_append (Nat.le_of_lt lt)]
      exact hc.linked t e he
    · rw [stateAt_append (Nat.le_refl _), ← hc.shared_eq]
      exact ⟨input, rfl⟩
  · rw [clients_record] at hf'
    by_cases hj : j = i
    · subst hj
      rw [Function.update_self] at hf'
      cases hf'
      rw [List.map_append, List.map_singleton]
      exact follows
    · rw [Function.update_of_ne hj] at hf'
      exact hc.frame_follows j f' hf'
  · rw [clients_record] at hf'
    by_cases hj : j = i
    · subst hj
      rw [Function.update_self] at hf'
      cases hf'
      exact recorded.snoc _ _ _
    · rw [Function.update_of_ne hj] at hf'
      exact (hc.frame_recorded j f' hf').append _
  · rw [history_record] at he
    rcases List.mem_append.1 he with he | he
    · exact hc.entry_follows e he
    · rw [List.mem_singleton.1 he]
      exact ⟨_, follows⟩
  · rw [history_record] at he ⊢
    rcases getElem?_concat_cases he with ⟨lt, he⟩ | ⟨rfl, rfl⟩
    · rw [List.take_append_of_le_length (Nat.le_of_lt lt)]
      exact hc.entry_recorded t e he
    · rw [List.take_left]
      exact recorded

/-- Every run is traced. -/
theorem traced_run (s : σ) (loc : Loc) (moves : List (Move Job ι)) :
    Traced body h s (run body h (begin s loc) moves) := by
  refine run_induction (traced_begin s loc) (fun c m hc => ?_) moves
  rcases step_cases body h c m with
    eq | ⟨i, loc, job, -, eq⟩ | ⟨i, input, f, o, next, hf, hrest, eq⟩
  · rw [eq]
    exact hc
  · rw [eq]
    exact hc.startJob i loc job
  · rw [eq]
    exact hc.record hf hrest

/-! ## Locations -/

/-- What the history says about the location at which a client is. -/
abbrev AtLoc (S : Signature) (Loc Job σ : Type) := List (Entry S Loc Job σ) → ℕ → Loc → Prop

/-- `L` holds of every client and, before each operation, of the client that performs it. -/
structure Located (L : AtLoc S Loc Job σ) (c : Config S Loc Job Res σ) : Prop where
  idle : ∀ i loc, c.clients i = .idle loc → L c.history i loc
  busy : ∀ i f, c.clients i = .busy f → L c.history i f.loc
  entry : ∀ t e, c.history[t]? = some e → L (c.history.take t) e.client e.loc

/-- What holds of the first location, is not lost as the history grows, and is handed on by every
finished job holds at all times. -/
theorem located_run {L : AtLoc S Loc Job σ} {loc₀ : Loc} (first : ∀ i, L [] i loc₀)
    (grow : ∀ history e i loc, L history i loc → L (history ++ [e]) i loc)
    (finish : ∀ history i loc job past r loc', L history i loc → Recorded history i past →
      Follows (body loc job) (past.map Prod.snd) (.pure (r, loc')) → L history i loc')
    (s : σ) (moves : List (Move Job ι)) : Located L (run body h (begin s loc₀) moves) := by
  suffices both : Traced body h s (run body h (begin s loc₀) moves) ∧
      Located L (run body h (begin s loc₀) moves) from both.2
  have start : Located L (begin s loc₀ : Config S Loc Job Res σ) := by
    refine ⟨fun i loc hi => ?_, fun i f hf => (nomatch hf), fun t e he => (by cases he)⟩
    cases hi
    exact first i
  refine run_induction (P := fun c => Traced body h s c ∧ Located L c) ⟨traced_begin s loc₀, start⟩
    (fun c m ⟨traced, located⟩ => ?_) moves
  rcases step_cases body h c m with
    eq | ⟨i, loc, job, at_loc, eq⟩ | ⟨i, input, f, o, next, hf, hrest, eq⟩
  · rw [eq]
    exact ⟨traced, located⟩
  · rw [eq]
    have here : L c.history i loc := by
      rcases at_loc with hi | ⟨f, r, hf, ended⟩
      · exact located.idle i loc hi
      · have follows := traced.frame_follows i f hf
        rw [ended] at follows
        exact finish _ _ _ _ _ _ _ (located.busy i f hf) (traced.frame_recorded i f hf) follows
    refine ⟨traced.startJob i loc job, fun j loc' hj => ?_, fun j f' hf' => ?_, located.entry⟩
    · rw [clients_startJob] at hj
      by_cases same : j = i
      · subst same
        rw [Function.update_self] at hj
        cases hj
      · rw [Function.update_of_ne same] at hj
        exact located.idle j loc' hj
    · rw [clients_startJob] at hf'
      by_cases same : j = i
      · subst same
        rw [Function.update_self] at hf'
        cases hf'
        exact here
      · rw [Function.update_of_ne same] at hf'
        exact located.busy j f' hf'
  · rw [eq]
    refine ⟨traced.record hf hrest, fun j loc' hj => ?_, fun j f' hf' => ?_, fun t e he => ?_⟩
    · rw [clients_record] at hj
      by_cases same : j = i
      · subst same
        rw [Function.update_self] at hj
        cases hj
      · rw [Function.update_of_ne same] at hj
        exact grow _ _ _ _ (located.idle j loc' hj)
    · rw [clients_record] at hf'
      by_cases same : j = i
      · subst same
        rw [Function.update_self] at hf'
        cases hf'
        exact grow _ _ _ _ (located.busy j f hf)
      · rw [Function.update_of_ne same] at hf'
        exact grow _ _ _ _ (located.busy j f' hf')
    · rw [history_record] at he ⊢
      rcases getElem?_concat_cases he with ⟨lt, he⟩ | ⟨rfl, rfl⟩
      · rw [List.take_append_of_le_length (Nat.le_of_lt lt)]
        exact located.entry t e he
      · rw [List.take_left]
        exact located.busy i f hf

/-! ## Abstract states -/

section Abstract

variable {τ : Type} (next : τ → Act S → τ) (a : τ) (history : List (Entry S Loc Job σ))

/-- The abstract state before the `t`-th operation, when every operation moves it by `next`. -/
def abstractAt (t : ℕ) : τ := (history.take t).foldl (fun a e => next a e.act) a

variable {next a history}

theorem abstractAt_succ {t : ℕ} {e : Entry S Loc Job σ} (he : history[t]? = some e) :
    abstractAt next a history (t + 1) = next (abstractAt next a history t) e.act := by
  unfold abstractAt
  rw [List.take_add_one, he, Option.toList_some, List.foldl_append]
  rfl

/-- A relation between shared and abstract states that the handler keeps holds at all times, and the
answers of the handler are those that the abstract states allow. -/
theorem Traced.simulated {s : σ} {c : Config S Loc Job Res σ} (hc : Traced body h s c)
    {H : σ → τ → Prop} {G : τ → Act S → Prop} (first : H s a)
    (keep : ∀ input o s a, H s a →
      H (h input o s).2 (next a ⟨o, (h input o s).1⟩) ∧ G a ⟨o, (h input o s).1⟩) :
    (∀ t ≤ c.history.length, H (stateAt s c.history t) (abstractAt next a c.history t)) ∧
      ∀ t e, c.history[t]? = some e → G (abstractAt next a c.history t) e.act := by
  have stepped {t : ℕ} {e : Entry S Loc Job σ} (he : c.history[t]? = some e)
      (held : H (stateAt s c.history t) (abstractAt next a c.history t)) :
      H e.after (next (abstractAt next a c.history t) e.act) ∧
        G (abstractAt next a c.history t) e.act := by
    obtain ⟨input, linked⟩ := hc.linked t e he
    have kept := keep input e.act.op _ _ held
    rw [linked] at kept
    exact kept
  have holds : ∀ t ≤ c.history.length,
      H (stateAt s c.history t) (abstractAt next a c.history t) := by
    intro t
    induction t with
    | zero => exact fun _ => first
    | succ t ih =>
      intro le
      have he := List.getElem?_eq_getElem le
      rw [stateAt_succ he, abstractAt_succ he]
      exact (stepped he (ih (Nat.le_of_lt le))).1
  refine ⟨holds, fun t e he => ?_⟩
  have lt := (List.getElem?_eq_some_iff.1 he).1
  exact (stepped he (holds t (Nat.le_of_lt lt))).2

end Abstract

namespace Traced

variable {s : σ} {c : Config S Loc Job Res σ} {I : σ → Prop} {G : Act S → Prop}

/-- A job performs only operations that its program uses. -/
theorem used (hc : Traced body h s c) {O : Loc → Job → S.Op → Prop}
    (uses : ∀ loc job, (body loc job).Uses (O loc job)) {e : Entry S Loc Job σ}
    (he : e ∈ c.history) : O e.loc e.job e.act.op := by
  obtain ⟨q, follows⟩ := hc.entry_follows e he
  exact (uses e.loc e.job).follows follows e.act
    (List.mem_append_right _ (List.mem_singleton_self _))

/-- What every operation of the run preserves holds of every state that the run passes through. -/
theorem invariant_of_ops (hc : Traced body h s c) (hs : I s) {O : S.Op → Prop}
    (ops : ∀ e ∈ c.history, O e.act.op) (keep : ∀ input o s, O o → I s → I (h input o s).2) {t : ℕ}
    (ht : t ≤ c.history.length) : I (stateAt s c.history t) := by
  induction t with
  | zero => exact hs
  | succ t ih =>
    obtain ⟨input, linked⟩ := hc.linked t _ (List.getElem?_eq_getElem ht)
    rw [stateAt_succ (List.getElem?_eq_getElem ht)]
    have kept := keep input c.history[t].act.op _ (ops _ (List.getElem_mem ht))
      (ih (Nat.le_of_lt ht))
    rw [linked] at kept
    exact kept

/-- What every operation preserves holds of every state that the run passes through. -/
theorem invariant (hc : Traced body h s c) (hs : I s)
    (keep : ∀ input o s, I s → I (h input o s).2) {t : ℕ} (ht : t ≤ c.history.length) :
    I (stateAt s c.history t) :=
  hc.invariant_of_ops (O := fun _ => True) hs (fun _ _ => trivial) (fun input o s _ => keep input o s)
    ht

theorem invariant_shared (hc : Traced body h s c) (hs : I s)
    (keep : ∀ input o s, I s → I (h input o s).2) : I c.shared :=
  hc.shared_eq ▸ hc.invariant hs keep (Nat.le_refl _)

/-- The answers of the handler to a job, when the invariant makes them good. -/
theorem past_good (hc : Traced body h s c) (hs : I s)
    (keep : ∀ input o s, I s → I (h input o s).2)
    (good : ∀ input o s, I s → G ⟨o, (h input o s).1⟩) {i : ℕ} {f : Frame S Loc Job Res}
    (hf : c.clients i = .busy f) : ∀ a ∈ f.past.map Prod.snd, G a := by
  intro a ha
  obtain ⟨p, hp, rfl⟩ := List.mem_map.1 ha
  obtain ⟨e, he, -, hact⟩ := (hc.frame_recorded i f hf).2 p hp
  obtain ⟨input, linked⟩ := hc.linked p.1 e he
  have lt := (List.getElem?_eq_some_iff.1 he).1
  have := good input e.act.op _ (hc.invariant hs keep (Nat.le_of_lt lt))
  rw [linked] at this
  exact hact ▸ this

/-- The result of a finished job satisfies what its program guarantees under good answers. -/
theorem finished (hc : Traced body h s c) (hs : I s)
    (keep : ∀ input o s, I s → I (h input o s).2)
    (good : ∀ input o s, I s → G ⟨o, (h input o s).1⟩) {i : ℕ} {f : Frame S Loc Job Res}
    (hf : c.clients i = .busy f) {R : Res × Loc → Prop} (always : (body f.loc f.job).Always G R)
    {r : Res × Loc} (done : f.rest = .pure r) : R r := by
  have := (hc.frame_follows i f hf).always always (hc.past_good hs keep good hf)
  rw [done] at this
  exact this

end Traced

end Clients

/-! ## Jobs under other names -/

section MapJob

variable {S : Signature} {Loc Job Job' Res σ ι : Type}

/-- The job stands for another one. -/
def Frame.mapJob (g : Job' → Job) (f : Frame S Loc Job' Res) : Frame S Loc Job Res where
  loc := f.loc
  job := g f.job
  past := f.past
  rest := f.rest

def Client.mapJob (g : Job' → Job) : Client S Loc Job' Res → Client S Loc Job Res
  | .idle loc => .idle loc
  | .busy f => .busy (f.mapJob g)

def Entry.mapJob (g : Job' → Job) (e : Entry S Loc Job' σ) : Entry S Loc Job σ where
  client := e.client
  loc := e.loc
  job := g e.job
  past := e.past
  act := e.act
  after := e.after

def Config.mapJob (g : Job' → Job) (c : Config S Loc Job' Res σ) : Config S Loc Job Res σ where
  shared := c.shared
  clients := fun i => (c.clients i).mapJob g
  history := c.history.map (Entry.mapJob g)

def Move.mapJob (g : Job' → Job) : Move Job' ι → Move Job ι
  | .start i job => .start i (g job)
  | .go i input => .go i input

namespace Clients

variable (body : Loc → Job → Program S (Res × Loc)) (h : ι → Handler S σ) (g : Job' → Job)

theorem mapJob_update (clients : ℕ → Client S Loc Job' Res) (i : ℕ)
    (client : Client S Loc Job' Res) :
    (fun j => (Function.update clients i client j).mapJob g) =
      Function.update (fun j => (clients j).mapJob g) i (client.mapJob g) := by
  funext j
  exact Function.apply_update (fun _ => Client.mapJob g) clients i client j

variable {body} in
theorem mapJob_startJob (c : Config S Loc Job' Res σ) (i : ℕ) (loc : Loc) (job : Job') :
    (startJob (fun loc job => body loc (g job)) c i loc job).mapJob g =
      startJob body (c.mapJob g) i loc (g job) :=
  congrArg (fun clients => Config.mk c.shared clients (c.history.map (Entry.mapJob g)))
    (mapJob_update g c.clients i _)

theorem mapJob_record (c : Config S Loc Job' Res σ) (i : ℕ) (f : Frame S Loc Job' Res)
    (act : Act S) (rest : Program S (Res × Loc)) (s : σ) :
    (record c i f act rest s).mapJob g = record (c.mapJob g) i (f.mapJob g) act rest s := by
  have history : (c.mapJob g).history.length = c.history.length := List.length_map _
  unfold record
  rw [history]
  show Config.mk _ _ _ = Config.mk _ _ _
  rw [mapJob_update, List.map_append]
  rfl

theorem step_mapJob (c : Config S Loc Job' Res σ) (m : Move Job' ι) :
    step body h (c.mapJob g) (m.mapJob g) =
      (step (fun loc job => body loc (g job)) h c m).mapJob g := by
  have client (i : ℕ) : (c.mapJob g).clients i = (c.clients i).mapJob g := rfl
  cases m with
  | start i job =>
    rcases hc : c.clients i with loc | ⟨loc, job', past, ⟨r, loc'⟩ | ⟨o, next⟩⟩ <;>
      simp only [Move.mapJob, step, client, hc, Client.mapJob, Frame.mapJob, mapJob_startJob]
  | go i input =>
    rcases hc : c.clients i with loc | ⟨loc, job', past, ⟨r, loc'⟩ | ⟨o, next⟩⟩ <;>
      simp only [Move.mapJob, step, client, hc, Client.mapJob, Frame.mapJob, mapJob_record]
    rfl

/-- A run of jobs that stand for others is the run of these. -/
theorem run_mapJob (c : Config S Loc Job' Res σ) (moves : List (Move Job' ι)) :
    run body h (c.mapJob g) (moves.map (Move.mapJob g)) =
      (run (fun loc job => body loc (g job)) h c moves).mapJob g := by
  induction moves generalizing c with
  | nil => rfl
  | cons m moves ih =>
    show run body h (step body h (c.mapJob g) (m.mapJob g)) _ = _
    rw [step_mapJob, ih]
    rfl

end Clients

end MapJob

end Effect
