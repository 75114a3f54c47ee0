import Mathlib.Data.List.Forall2
import KeyroCore.Effect.Program

/-!
# Programs side by side

`Related h₁ h₂ I J R p₁ p₂` compares two programs over different handlers: from states related by
`I` they end with results related by `R` and leave states related by `J`.  Fallible programs are
compared under one relation of states, and fail with the same error.  `Lockstep h₁ h₂ I A R p₁ p₂`
moreover compares the operations one by one: each is related by `A` to its counterpart.
-/

namespace Effect

variable {S₁ S₂ : Signature} {σ₁ σ₂ α₁ α₂ β₁ β₂ ε : Type}

namespace Program

def Related (h₁ : Handler S₁ σ₁) (h₂ : Handler S₂ σ₂) (I J : σ₁ → σ₂ → Prop) (R : α₁ → α₂ → Prop)
    (p₁ : Program S₁ α₁) (p₂ : Program S₂ α₂) : Prop :=
  ∀ s₁ s₂, I s₁ s₂ → R (p₁.exec h₁ s₁).1 (p₂.exec h₂ s₂).1 ∧
    J (p₁.exec h₁ s₁).2 (p₂.exec h₂ s₂).2

variable {h₁ : Handler S₁ σ₁} {h₂ : Handler S₂ σ₂} {I J K : σ₁ → σ₂ → Prop}
  {R R' : α₁ → α₂ → Prop} {Q : β₁ → β₂ → Prop}

theorem related_pure {a₁ : α₁} {a₂ : α₂} (h : R a₁ a₂) :
    Related h₁ h₂ I I R (Pure.pure a₁) (Pure.pure a₂) := fun _ _ hs => ⟨h, hs⟩

theorem Related.bind {p₁ : Program S₁ α₁} {p₂ : Program S₂ α₂} {f₁ : α₁ → Program S₁ β₁}
    {f₂ : α₂ → Program S₂ β₂} (first : Related h₁ h₂ I J R p₁ p₂)
    (rest : ∀ a₁ a₂, R a₁ a₂ → Related h₁ h₂ J K Q (f₁ a₁) (f₂ a₂)) :
    Related h₁ h₂ I K Q (p₁ >>= f₁) (p₂ >>= f₂) := by
  intro s₁ s₂ hs
  obtain ⟨result, states⟩ := first s₁ s₂ hs
  rw [exec_bind, exec_bind]
  exact rest _ _ result _ _ states

theorem Related.mono {p₁ : Program S₁ α₁} {p₂ : Program S₂ α₂} {I' J' : σ₁ → σ₂ → Prop}
    (related : Related h₁ h₂ I J R p₁ p₂) (pre : ∀ s₁ s₂, I' s₁ s₂ → I s₁ s₂)
    (post : ∀ s₁ s₂, J s₁ s₂ → J' s₁ s₂) (result : ∀ a₁ a₂, R a₁ a₂ → R' a₁ a₂) :
    Related h₁ h₂ I' J' R' p₁ p₂ := by
  intro s₁ s₂ hs
  obtain ⟨values, states⟩ := related s₁ s₂ (pre _ _ hs)
  exact ⟨result _ _ values, post _ _ states⟩

/-- Both programs perform related operations one after the other. -/
def Lockstep (h₁ : Handler S₁ σ₁) (h₂ : Handler S₂ σ₂) (I : σ₁ → σ₂ → Prop)
    (A : Act S₁ → Act S₂ → Prop) (R : α₁ → α₂ → Prop) (p₁ : Program S₁ α₁) (p₂ : Program S₂ α₂) :
    Prop :=
  ∀ s₁ s₂, I s₁ s₂ → List.Forall₂ A (p₁.acts h₁ s₁) (p₂.acts h₂ s₂) ∧
    R (p₁.exec h₁ s₁).1 (p₂.exec h₂ s₂).1 ∧ I (p₁.exec h₁ s₁).2 (p₂.exec h₂ s₂).2

variable {A : Act S₁ → Act S₂ → Prop}

theorem lockstep_pure {a₁ : α₁} {a₂ : α₂} (h : R a₁ a₂) :
    Lockstep h₁ h₂ I A R (Pure.pure a₁) (Pure.pure a₂) := fun _ _ hs => ⟨.nil, h, hs⟩

theorem lockstep_call {o₁ : S₁.Op} {o₂ : S₂.Op} {R : S₁.Ans o₁ → S₂.Ans o₂ → Prop}
    (h : ∀ s₁ s₂, I s₁ s₂ → A ⟨o₁, (h₁ o₁ s₁).1⟩ ⟨o₂, (h₂ o₂ s₂).1⟩ ∧
      R (h₁ o₁ s₁).1 (h₂ o₂ s₂).1 ∧ I (h₁ o₁ s₁).2 (h₂ o₂ s₂).2) :
    Lockstep h₁ h₂ I A R (call o₁) (call o₂) := by
  intro s₁ s₂ hs
  obtain ⟨act, answers, states⟩ := h s₁ s₂ hs
  exact ⟨.cons act .nil, answers, states⟩

theorem Lockstep.bind {p₁ : Program S₁ α₁} {p₂ : Program S₂ α₂} {f₁ : α₁ → Program S₁ β₁}
    {f₂ : α₂ → Program S₂ β₂} (first : Lockstep h₁ h₂ I A R p₁ p₂)
    (rest : ∀ a₁ a₂, R a₁ a₂ → Lockstep h₁ h₂ I A Q (f₁ a₁) (f₂ a₂)) :
    Lockstep h₁ h₂ I A Q (p₁ >>= f₁) (p₂ >>= f₂) := by
  intro s₁ s₂ hs
  obtain ⟨acts, result, states⟩ := first s₁ s₂ hs
  obtain ⟨more, final⟩ := rest _ _ result _ _ states
  rw [exec_bind, exec_bind, acts_bind, acts_bind]
  exact ⟨List.rel_append acts more, final⟩

end Program

/-- Both computations succeed with related values, or fail with the same error. -/
inductive SameOutcome (R : α₁ → α₂ → Prop) : Except ε α₁ → Except ε α₂ → Prop
  | ok {a₁ : α₁} {a₂ : α₂} (related : R a₁ a₂) : SameOutcome R (.ok a₁) (.ok a₂)
  | error (e : ε) : SameOutcome R (.error e) (.error e)

namespace SameOutcome

variable {R : α₁ → α₂ → Prop} {Q : β₁ → β₂ → Prop}

theorem of_eq {R : α₁ → α₁ → Prop} (refl : ∀ a, R a a) (x : Except ε α₁) : SameOutcome R x x := by
  cases x with
  | ok a => exact .ok (refl a)
  | error e => exact .error e

theorem bind {x₁ : Except ε α₁} {x₂ : Except ε α₂} {f₁ : α₁ → Except ε β₁}
    {f₂ : α₂ → Except ε β₂} (first : SameOutcome R x₁ x₂)
    (rest : ∀ a₁ a₂, R a₁ a₂ → SameOutcome Q (f₁ a₁) (f₂ a₂)) :
    SameOutcome Q (x₁ >>= f₁) (x₂ >>= f₂) := by
  cases first with
  | ok related => exact rest _ _ related
  | error e => exact .error e

/-- Two computations that begin in the same way. -/
theorem bind_same {x : Except ε α₁} {f₁ : α₁ → Except ε β₁} {f₂ : α₁ → Except ε β₂}
    (rest : ∀ a, SameOutcome Q (f₁ a) (f₂ a)) : SameOutcome Q (x >>= f₁) (x >>= f₂) := by
  cases x with
  | ok a => exact rest a
  | error e => exact .error e

/-- Related items are mapped to related results, or the first failures are the same. -/
theorem mapM {f₁ : α₁ → Except ε β₁} {f₂ : α₂ → Except ε β₂}
    (each : ∀ a₁ a₂, R a₁ a₂ → SameOutcome Q (f₁ a₁) (f₂ a₂)) {l₁ : List α₁} {l₂ : List α₂}
    (h : List.Forall₂ R l₁ l₂) : SameOutcome (List.Forall₂ Q) (l₁.mapM f₁) (l₂.mapM f₂) := by
  induction h with
  | nil => exact .ok .nil
  | cons head tail ih =>
    rw [List.mapM_cons, List.mapM_cons]
    refine (each _ _ head).bind fun b₁ b₂ first => ?_
    exact ih.bind fun bs₁ bs₂ rest => .ok (.cons first rest)

end SameOutcome

namespace Fallible

open Program

/-- `Related` for programs that may stop early. -/
def Related (h₁ : Handler S₁ σ₁) (h₂ : Handler S₂ σ₂) (I : σ₁ → σ₂ → Prop) (R : α₁ → α₂ → Prop)
    (p₁ : Fallible S₁ ε α₁) (p₂ : Fallible S₂ ε α₂) : Prop :=
  Program.Related h₁ h₂ I I (SameOutcome R) p₁.run p₂.run

variable {h₁ : Handler S₁ σ₁} {h₂ : Handler S₂ σ₂} {I : σ₁ → σ₂ → Prop} {R : α₁ → α₂ → Prop}
  {Q : β₁ → β₂ → Prop}

theorem related_pure {a₁ : α₁} {a₂ : α₂} (h : R a₁ a₂) :
    Related h₁ h₂ I R (pure a₁ : Fallible S₁ ε α₁) (pure a₂ : Fallible S₂ ε α₂) :=
  fun _ _ hs => ⟨.ok h, hs⟩

theorem related_throw (e : ε) :
    Related h₁ h₂ I R (throw e : Fallible S₁ ε α₁) (throw e : Fallible S₂ ε α₂) :=
  fun _ _ hs => ⟨.error e, hs⟩

theorem Related.bind {p₁ : Fallible S₁ ε α₁} {p₂ : Fallible S₂ ε α₂}
    {f₁ : α₁ → Fallible S₁ ε β₁} {f₂ : α₂ → Fallible S₂ ε β₂} (first : Related h₁ h₂ I R p₁ p₂)
    (rest : ∀ a₁ a₂, R a₁ a₂ → Related h₁ h₂ I Q (f₁ a₁) (f₂ a₂)) :
    Related h₁ h₂ I Q (p₁ >>= f₁) (p₂ >>= f₂) := by
  unfold Related
  rw [run_bind, run_bind]
  apply Program.Related.bind first
  intro r₁ r₂ same
  cases same with
  | ok values => exact rest _ _ values
  | error e => exact fun _ _ hs => ⟨.error e, hs⟩

theorem related_lift {p₁ : Program S₁ α₁} {p₂ : Program S₂ α₂}
    (h : Program.Related h₁ h₂ I I R p₁ p₂) :
    Related h₁ h₂ I R (lift p₁ : Fallible S₁ ε α₁) (lift p₂ : Fallible S₂ ε α₂) := by
  unfold Related lift
  rw [ExceptT.run_mk, ExceptT.run_mk]
  apply Program.Related.bind h
  exact fun _ _ values => Program.related_pure (.ok values)

/-- `Lockstep` for programs that may stop early. -/
def Lockstep (h₁ : Handler S₁ σ₁) (h₂ : Handler S₂ σ₂) (I : σ₁ → σ₂ → Prop)
    (A : Act S₁ → Act S₂ → Prop) (R : α₁ → α₂ → Prop) (p₁ : Fallible S₁ ε α₁)
    (p₂ : Fallible S₂ ε α₂) : Prop :=
  Program.Lockstep h₁ h₂ I A (SameOutcome R) p₁.run p₂.run

variable {A : Act S₁ → Act S₂ → Prop}

theorem lockstep_pure {a₁ : α₁} {a₂ : α₂} (h : R a₁ a₂) :
    Lockstep h₁ h₂ I A R (pure a₁ : Fallible S₁ ε α₁) (pure a₂ : Fallible S₂ ε α₂) :=
  fun _ _ hs => ⟨.nil, .ok h, hs⟩

theorem lockstep_throw (e : ε) :
    Lockstep h₁ h₂ I A R (throw e : Fallible S₁ ε α₁) (throw e : Fallible S₂ ε α₂) :=
  fun _ _ hs => ⟨.nil, .error e, hs⟩

theorem Lockstep.bind {p₁ : Fallible S₁ ε α₁} {p₂ : Fallible S₂ ε α₂}
    {f₁ : α₁ → Fallible S₁ ε β₁} {f₂ : α₂ → Fallible S₂ ε β₂}
    (first : Lockstep h₁ h₂ I A R p₁ p₂)
    (rest : ∀ a₁ a₂, R a₁ a₂ → Lockstep h₁ h₂ I A Q (f₁ a₁) (f₂ a₂)) :
    Lockstep h₁ h₂ I A Q (p₁ >>= f₁) (p₂ >>= f₂) := by
  unfold Lockstep
  rw [run_bind, run_bind]
  apply Program.Lockstep.bind first
  intro r₁ r₂ same
  cases same with
  | ok values => exact rest _ _ values
  | error e => exact fun _ _ hs => ⟨.nil, .error e, hs⟩

theorem lockstep_lift {p₁ : Program S₁ α₁} {p₂ : Program S₂ α₂}
    (h : Program.Lockstep h₁ h₂ I A R p₁ p₂) :
    Lockstep h₁ h₂ I A R (lift p₁ : Fallible S₁ ε α₁) (lift p₂ : Fallible S₂ ε α₂) := by
  unfold Lockstep lift
  rw [ExceptT.run_mk, ExceptT.run_mk]
  apply Program.Lockstep.bind h
  exact fun _ _ values => Program.lockstep_pure (.ok values)

end Fallible

end Effect
