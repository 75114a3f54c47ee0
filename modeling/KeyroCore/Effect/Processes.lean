import Mathlib.Logic.Function.Basic
import KeyroCore.Effect.Program

/-!
# Processes on one host

Any number of processes run programs against one shared state, one operation at a time and in any
order.  A process may end or be killed between any two operations, and what the host does then is
`exit`.  `deeds` lists the operations of a run, each with the world before it.

A typestate says which operations a program may perform after what it has done, without a look at
the shared state.  `Obeys` is the weakest precondition for programs that keep to one.
-/

namespace Effect

open Program

/-- A process that has started: what it has done, and what it has yet to do. -/
structure Running (S : Signature) (α : Type) where
  past : List (Act S)
  rest : Program S α

/-- A process that is gone does not come back; a restart is another process. -/
inductive Process (S : Signature) (α : Type) where
  | unborn
  | live (running : Running S α)
  | gone

structure World (S : Signature) (α σ : Type) where
  shared : σ
  processes : ℕ → Process S α

inductive Event (Job ι : Type) where
  | start (i : ℕ) (job : Job)
  | go (i : ℕ) (input : ι)
  | stop (i : ℕ)

/-- One operation of a run. -/
structure Deed (S : Signature) (α σ : Type) where
  before : World S α σ
  process : ℕ
  act : Act S

namespace World

variable {S : Signature} {α σ ι Job : Type} (main : Job → Program S α)
  (h : ι → ℕ → Handler S σ) (exit : ℕ → σ → σ)

/-- No process has started. -/
def begin (s : σ) : World S α σ := ⟨s, fun _ => .unborn⟩

def become (w : World S α σ) (i : ℕ) (p : Process S α) (s : σ) : World S α σ :=
  ⟨s, Function.update w.processes i p⟩

@[simp] theorem shared_become (w : World S α σ) (i : ℕ) (p : Process S α) (s : σ) :
    (w.become i p s).shared = s := rfl

@[simp] theorem processes_become_self (w : World S α σ) (i : ℕ) (p : Process S α) (s : σ) :
    (w.become i p s).processes i = p := Function.update_self _ _ _

theorem processes_become_of_ne (w : World S α σ) {i j : ℕ} (hj : j ≠ i) (p : Process S α) (s : σ) :
    (w.become i p s).processes j = w.processes j := Function.update_of_ne hj _ _

theorem become_cases {w : World S α σ} {i j : ℕ} {p q : Process S α} {s : σ}
    (hq : (w.become i p s).processes j = q) : j = i ∧ q = p ∨ j ≠ i ∧ w.processes j = q := by
  by_cases hj : j = i
  · subst hj
    rw [processes_become_self] at hq
    exact .inl ⟨rfl, hq.symm⟩
  · rw [processes_become_of_ne _ hj] at hq
    exact .inr ⟨hj, hq⟩

/-- An event that does not fit the process changes nothing. -/
def step (w : World S α σ) : Event Job ι → World S α σ
  | .start i job =>
    match w.processes i with
    | .unborn => w.become i (.live ⟨[], main job⟩) w.shared
    | _ => w
  | .go i input =>
    match w.processes i with
    | .live ⟨past, .perform o next⟩ =>
      w.become i (.live ⟨past ++ [⟨o, (h input i o w.shared).1⟩], next (h input i o w.shared).1⟩)
        (h input i o w.shared).2
    | _ => w
  | .stop i =>
    match w.processes i with
    | .live _ => w.become i .gone (exit i w.shared)
    | _ => w

def deed? (w : World S α σ) : Event Job ι → Option (Deed S α σ)
  | .go i input =>
    match w.processes i with
    | .live ⟨_, .perform o _⟩ => some ⟨w, i, ⟨o, (h input i o w.shared).1⟩⟩
    | _ => none
  | _ => none

def run (w : World S α σ) (events : List (Event Job ι)) : World S α σ :=
  events.foldl (step main h exit) w

/-- The operations of a run, oldest first. -/
def deeds : World S α σ → List (Event Job ι) → List (Deed S α σ)
  | _, [] => []
  | w, e :: events => (deed? h w e).toList ++ deeds (step main h exit w e) events

variable {main h exit} {w : World S α σ}

variable (main h exit w) in
/-- What one event can do. -/
theorem step_cases (e : Event Job ι) :
    (step main h exit w e = w ∧ deed? h w e = none) ∨
    (∃ i job, w.processes i = .unborn ∧
      step main h exit w e = w.become i (.live ⟨[], main job⟩) w.shared ∧ deed? h w e = none) ∨
    (∃ i input past o next, w.processes i = .live ⟨past, .perform o next⟩ ∧
      step main h exit w e = w.become i
        (.live ⟨past ++ [⟨o, (h input i o w.shared).1⟩], next (h input i o w.shared).1⟩)
        (h input i o w.shared).2 ∧
      deed? h w e = some ⟨w, i, ⟨o, (h input i o w.shared).1⟩⟩) ∨
    ∃ i r, w.processes i = .live r ∧
      step main h exit w e = w.become i .gone (exit i w.shared) ∧ deed? h w e = none := by
  cases e with
  | start i job =>
    cases hi : w.processes i with
    | unborn => exact .inr (.inl ⟨i, job, hi, by simp only [step, hi], rfl⟩)
    | live r => exact .inl ⟨by simp only [step, hi], rfl⟩
    | gone => exact .inl ⟨by simp only [step, hi], rfl⟩
  | go i input =>
    cases hi : w.processes i with
    | unborn => exact .inl ⟨by simp only [step, hi], by simp only [deed?, hi]⟩
    | live r =>
      obtain ⟨past, rest⟩ := r
      cases rest with
      | pure a => exact .inl ⟨by simp only [step, hi], by simp only [deed?, hi]⟩
      | perform o next =>
        exact .inr (.inr (.inl ⟨i, input, past, o, next, hi, by simp only [step, hi],
          by simp only [deed?, hi]⟩))
    | gone => exact .inl ⟨by simp only [step, hi], by simp only [deed?, hi]⟩
  | stop i =>
    cases hi : w.processes i with
    | unborn => exact .inl ⟨by simp only [step, hi], rfl⟩
    | live r => exact .inr (.inr (.inr ⟨i, r, hi, by simp only [step, hi], rfl⟩))
    | gone => exact .inl ⟨by simp only [step, hi], rfl⟩

/-- What every event preserves holds after every run. -/
theorem run_induction {P : World S α σ → Prop} (hw : P w)
    (hstep : ∀ w e, P w → P (step main h exit w e)) (events : List (Event Job ι)) :
    P (run main h exit w events) := by
  induction events generalizing w with
  | nil => exact hw
  | cons e events ih => exact ih (hstep w e hw)

theorem step_gone {i : ℕ} (gone : w.processes i = .gone) (e : Event Job ι) :
    (step main h exit w e).processes i = .gone := by
  have other {j : ℕ} (hj : w.processes j ≠ .gone) : i ≠ j := by
    rintro rfl
    exact hj gone
  rcases step_cases main h exit w e with
    ⟨eq, -⟩ | ⟨j, job, unborn, eq, -⟩ | ⟨j, input, past, o, next, live, eq, -⟩ | ⟨j, r, live, eq, -⟩
  · rw [eq, gone]
  · rw [eq, processes_become_of_ne _ (other (by simp [unborn])), gone]
  · rw [eq, processes_become_of_ne _ (other (by simp [live])), gone]
  · rw [eq, processes_become_of_ne _ (other (by simp [live])), gone]

/-- An operation of a run splits its events. -/
theorem deeds_split {x : Deed S α σ} {later : List (Deed S α σ)} {events : List (Event Job ι)}
    (sub : (x :: later).Sublist (deeds main h exit w events)) :
    ∃ before e after, events = before ++ e :: after ∧
      deed? h (run main h exit w before) e = some x ∧
      later.Sublist (deeds main h exit (step main h exit (run main h exit w before) e) after) := by
  induction events generalizing w with
  | nil => cases sub
  | cons e events ih =>
    rw [deeds] at sub
    have tail (sub : (x :: later).Sublist (deeds main h exit (step main h exit w e) events)) :
        ∃ before e' after, e :: events = before ++ e' :: after ∧
          deed? h (run main h exit w before) e' = some x ∧
          later.Sublist
            (deeds main h exit (step main h exit (run main h exit w before) e') after) := by
      obtain ⟨before, e', after, rfl, here, rest⟩ := ih sub
      exact ⟨e :: before, e', after, rfl, here, rest⟩
    cases hd : deed? h w e with
    | none =>
      rw [hd] at sub
      exact tail sub
    | some y =>
      rw [hd] at sub
      cases sub with
      | cons _ sub => exact tail sub
      | cons_cons _ sub => exact ⟨[], e, events, rfl, hd, sub⟩

/-- The process of an operation was about to perform it. -/
theorem deed_cases {x : Deed S α σ} {e : Event Job ι} (he : deed? h w e = some x) :
    x.before = w ∧ ∃ past next input, w.processes x.process = .live ⟨past, .perform x.act.op next⟩ ∧
      x.act.ans = (h input x.process x.act.op w.shared).1 := by
  cases e with
  | start i job => cases he
  | stop i => cases he
  | go i input =>
    cases hi : w.processes i with
    | unborn =>
      simp only [deed?, hi] at he
      cases he
    | gone =>
      simp only [deed?, hi] at he
      cases he
    | live r =>
      obtain ⟨past, rest⟩ := r
      cases rest with
      | pure a =>
        simp only [deed?, hi] at he
        cases he
      | perform o next =>
        simp only [deed?, hi] at he
        cases he
        exact ⟨rfl, past, next, input, hi, rfl⟩

end World

/-! ## Typestates -/

structure Typestate (S : Signature) (τ : Type) where
  first : τ
  next : τ → Act S → τ
  allows : τ → S.Op → Prop

variable {S : Signature} {τ α β ε : Type}

/-- The typestate after the operations a process has performed. -/
def Typestate.after (T : Typestate S τ) (past : List (Act S)) : τ := past.foldl T.next T.first

@[simp] theorem Typestate.after_concat (T : Typestate S τ) (past : List (Act S)) (a : Act S) :
    T.after (past ++ [a]) = T.next (T.after past) a := List.foldl_concat ..

/-- What one operation brings about and none undoes. -/
theorem Typestate.after_of_mem {T : Typestate S τ} {P : τ → Prop} {a : Act S}
    (raise : ∀ t, P (T.next t a)) (keep : ∀ t b, P t → P (T.next t b)) {past : List (Act S)}
    (mem : a ∈ past) : P (T.after past) := by
  obtain ⟨first, later, rfl⟩ := List.append_of_mem mem
  rw [Typestate.after, List.foldl_append, List.foldl_cons]
  exact List.foldlRecOn later T.next (raise _) fun t h b _ => keep t b h

namespace Program

/-- From typestate `t` the program performs only what is allowed, and ends in `Q`. -/
def Obeys (T : Typestate S τ) : Program S α → τ → (α → τ → Prop) → Prop
  | .pure a, t, Q => Q a t
  | .perform o next, t, Q => T.allows t o ∧ ∀ x, (next x).Obeys T (T.next t ⟨o, x⟩) Q

variable {T : Typestate S τ} {t : τ}

theorem obeys_bind_iff {p : Program S α} {f : α → Program S β} {Q : β → τ → Prop} :
    (p >>= f).Obeys T t Q ↔ p.Obeys T t fun a t' => (f a).Obeys T t' Q := by
  induction p generalizing t with
  | pure a => rfl
  | perform o next ih => exact and_congr_right fun _ => forall_congr' fun x => ih x

theorem Obeys.mono {p : Program S α} {Q R : α → τ → Prop} (hp : p.Obeys T t Q)
    (weaker : ∀ a t, Q a t → R a t) : p.Obeys T t R := by
  induction p generalizing t with
  | pure a => exact weaker a t hp
  | perform o next ih => exact ⟨hp.1, fun x => ih x (hp.2 x)⟩

end Program

namespace Fallible

variable {T : Typestate S τ} {t : τ}

/-- `Obeys` for programs that may stop early. -/
def Obeys (T : Typestate S τ) (p : Fallible S ε α) (t : τ) (Q : Except ε α → τ → Prop) : Prop :=
  p.run.Obeys T t Q

theorem Obeys.bind {p : Fallible S ε α} {f : α → Fallible S ε β} {Q : Except ε α → τ → Prop}
    {R : Except ε β → τ → Prop} (hp : p.Obeys T t Q) (fail : ∀ e t, Q (.error e) t → R (.error e) t)
    (ok : ∀ a t, Q (.ok a) t → (f a).Obeys T t R) : (p >>= f).Obeys T t R := by
  unfold Obeys at hp ⊢
  rw [run_bind, Program.obeys_bind_iff]
  refine hp.mono fun r t' hr => ?_
  cases r with
  | ok a => exact ok a t' hr
  | error e => exact fail e t' hr

theorem obeys_lift_bind_iff {p : Program S α} {f : α → Fallible S ε β} {Q : Except ε β → τ → Prop} :
    (lift p >>= f).Obeys T t Q ↔ p.Obeys T t fun a t' => (f a).Obeys T t' Q := by
  unfold Obeys
  rw [run_bind, lift, ExceptT.run_mk, Program.obeys_bind_iff, Program.obeys_bind_iff]
  rfl

end Fallible

/-- Every process still has a program that keeps to the typestate. -/
def World.Conforms (T : Typestate S τ) {σ : Type} (w : World S α σ) : Prop :=
  ∀ i r, w.processes i = .live r → r.rest.Obeys T (T.after r.past) fun _ _ => True

namespace World

variable {T : Typestate S τ} {Job σ ι : Type} {main : Job → Program S α}
  {h : ι → ℕ → Handler S σ} {exit : ℕ → σ → σ} {w : World S α σ}

theorem conforms_begin (s : σ) : (begin s : World S α σ).Conforms T := fun i r hr => by cases hr

theorem Conforms.step (obeys : ∀ job, (main job).Obeys T T.first fun _ _ => True)
    (conforms : w.Conforms T) (e : Event Job ι) : (w.step main h exit e).Conforms T := by
  rcases step_cases main h exit w e with
    ⟨eq, -⟩ | ⟨i, job, -, eq, -⟩ | ⟨i, input, past, o, next, live, eq, -⟩ | ⟨i, r, -, eq, -⟩
  · rw [eq]
    exact conforms
  · rw [eq]
    intro j r hr
    rcases become_cases hr with ⟨-, born⟩ | ⟨-, hr⟩
    · cases born
      exact obeys job
    · exact conforms j r hr
  · rw [eq]
    intro j r hr
    rcases become_cases hr with ⟨-, moved⟩ | ⟨-, hr⟩
    · cases moved
      rw [Typestate.after_concat]
      exact (conforms i _ live).2 _
    · exact conforms j r hr
  · rw [eq]
    intro j r hr
    rcases become_cases hr with ⟨-, ended⟩ | ⟨-, hr⟩
    · cases ended
    · exact conforms j r hr

end World

end Effect
