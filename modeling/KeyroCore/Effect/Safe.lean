import KeyroCore.Effect.Program

/-!
# Safe programs

`Safe h I A R p` says that a run of `p` from a state in `I` performs only operations in `A`, each
with its answer, ends with a value in `R` and leaves a state in `I`.  It is closed under sequencing,
so a program is safe if its operations are.
-/

namespace Effect

variable {S : Signature} {σ α β ε : Type}

namespace Program

def Safe (h : Handler S σ) (I : σ → Prop) (A : Act S → Prop) (R : α → Prop) (p : Program S α) :
    Prop :=
  ∀ s, I s → (∀ a ∈ p.acts h s, A a) ∧ R (p.exec h s).1 ∧ I (p.exec h s).2

variable {h : Handler S σ} {I : σ → Prop} {A : Act S → Prop} {R : α → Prop} {Q : β → Prop}

theorem safe_pure {a : α} (result : R a) : Safe h I A R (Pure.pure a) :=
  fun _ hs => ⟨List.forall_mem_nil _, result, hs⟩

theorem safe_call {o : S.Op} {R : S.Ans o → Prop}
    (step : ∀ s, I s → A ⟨o, (h o s).1⟩ ∧ R (h o s).1 ∧ I (h o s).2) :
    Safe h I A R (call o) := by
  intro s hs
  obtain ⟨act, answer, state⟩ := step s hs
  exact ⟨List.forall_mem_singleton.2 act, answer, state⟩

theorem Safe.bind {p : Program S α} {f : α → Program S β} (first : Safe h I A R p)
    (rest : ∀ a, R a → Safe h I A Q (f a)) : Safe h I A Q (p >>= f) := by
  intro s hs
  obtain ⟨acts, result, state⟩ := first s hs
  obtain ⟨more, final⟩ := rest _ result _ state
  rw [exec_bind, acts_bind]
  exact ⟨List.forall_mem_append.2 ⟨acts, more⟩, final⟩

end Program

namespace Fallible

open Program

/-- `Safe` for programs that may stop early; an error is always in order. -/
def Safe (h : Handler S σ) (I : σ → Prop) (A : Act S → Prop) (R : α → Prop)
    (p : Fallible S ε α) : Prop :=
  Program.Safe h I A (fun r => ∀ a, r = .ok a → R a) p.run

variable {h : Handler S σ} {I : σ → Prop} {A : Act S → Prop} {R : α → Prop} {Q : β → Prop}

theorem safe_pure {a : α} (result : R a) : Safe h I A R (pure a : Fallible S ε α) := by
  apply Program.safe_pure
  rintro _ ⟨⟩
  exact result

theorem safe_throw (e : ε) : Safe h I A R (throw e : Fallible S ε α) := by
  apply Program.safe_pure
  rintro _ ⟨⟩

theorem Safe.bind {p : Fallible S ε α} {f : α → Fallible S ε β} (first : Safe h I A R p)
    (rest : ∀ a, R a → Safe h I A Q (f a)) : Safe h I A Q (p >>= f) := by
  unfold Safe
  rw [run_bind]
  apply Program.Safe.bind first
  intro r result
  cases r with
  | ok a => exact rest a (result a rfl)
  | error e => exact safe_throw e

theorem safe_lift {p : Program S α} (safe : Program.Safe h I A R p) :
    Safe h I A R (lift p : Fallible S ε α) := by
  apply Program.Safe.bind safe
  intro a result
  exact safe_pure result

end Fallible

end Effect
