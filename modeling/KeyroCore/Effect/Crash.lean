import KeyroCore.Effect.Program

/-!
# Programs cut short

A view `v` of the state is what survives when a program is stopped between two operations.  A
program is still when no prefix of it changes the view, and atomic when every prefix leaves the
view as it was or as the whole program leaves it.  A program is still when it uses only operations
that keep the view, and atomic when at most one of its steps is not still.
-/

namespace Effect.Program

variable {S : Signature} {α β σ τ : Type}

/-- Every operation that the program may perform is in `O`. -/
def Uses (O : S.Op → Prop) : Program S α → Prop
  | .pure _ => True
  | .perform o next => O o ∧ ∀ x, (next x).Uses O

section Uses

variable {O : S.Op → Prop}

theorem uses_pure (a : α) : (Pure.pure a : Program S α).Uses O := trivial

theorem uses_call {o : S.Op} (ho : O o) : (call o).Uses O := ⟨ho, fun _ => trivial⟩

theorem uses_bind {p : Program S α} {f : α → Program S β} (hp : p.Uses O)
    (hf : ∀ a, (f a).Uses O) : (p >>= f).Uses O := by
  induction p with
  | pure a => exact hf a
  | perform o next ih => exact ⟨hp.1, fun x => ih x (hp.2 x)⟩

theorem Uses.mono {O' : S.Op → Prop} {p : Program S α} (hp : p.Uses O) (h : ∀ o, O o → O' o) :
    p.Uses O' := by
  induction p with
  | pure a => trivial
  | perform o next ih => exact ⟨h o hp.1, fun x => ih x (hp.2 x)⟩

theorem Uses.follows {p q : Program S α} {as : List (Act S)} (hp : p.Uses O)
    (f : Follows p as q) : ∀ a ∈ as, O a.op := by
  induction f with
  | nil p => exact fun _ ha => nomatch ha
  | cons rest ih => exact List.forall_mem_cons.2 ⟨hp.1, ih (hp.2 _)⟩

end Uses

variable (h : Handler S σ) (v : σ → τ)

/-- No prefix of the program changes the view. -/
def Still (p : Program S α) (s : σ) : Prop := ∀ n, v (p.after h n s) = v s

/-- Every prefix of the program leaves the view as it was or as the program leaves it. -/
def Atomic (p : Program S α) (s : σ) : Prop :=
  ∀ n, v (p.after h n s) = v s ∨ v (p.after h n s) = v (p.exec h s).2

variable {h v} {p : Program S α} {f : α → Program S β} {s : σ}

theorem exists_after_eq_exec (h : Handler S σ) (p : Program S α) (s : σ) :
    ∃ n, p.after h n s = (p.exec h s).2 := by
  induction p generalizing s with
  | pure a => exact ⟨0, rfl⟩
  | perform o next ih =>
    obtain ⟨n, hn⟩ := ih (h o s).1 (h o s).2
    exact ⟨n + 1, hn⟩

/-- A prefix of a sequence is a prefix of the first program, or all of it and a prefix of the
second. -/
theorem after_bind (h : Handler S σ) (p : Program S α) (f : α → Program S β) (s : σ) (n : ℕ) :
    (∃ m, (p >>= f).after h n s = p.after h m s) ∨
      ∃ m, (p >>= f).after h n s = (f (p.exec h s).1).after h m (p.exec h s).2 := by
  induction p generalizing s n with
  | pure a => exact .inr ⟨n, rfl⟩
  | perform o next ih =>
    cases n with
    | zero => exact .inl ⟨0, rfl⟩
    | succ n =>
      rcases ih (h o s).1 (h o s).2 n with ⟨m, hm⟩ | ⟨m, hm⟩
      · exact .inl ⟨m + 1, hm⟩
      · exact .inr ⟨m, hm⟩

/-- The pending operation leads from one prefix to the next. -/
theorem after_succ_of_pending {k : ℕ} {o : S.Op} (pending : p.pending h k s = some o) :
    p.after h (k + 1) s = (h o (p.after h k s)).2 := by
  induction p generalizing k s with
  | pure a => cases k <;> cases pending
  | perform o' next ih =>
    cases k with
    | zero =>
      cases pending
      cases next (h o s).1 <;> rfl
    | succ k => exact ih _ pending

theorem Still.exec (hp : Still h v p s) : v (p.exec h s).2 = v s := by
  obtain ⟨n, hn⟩ := exists_after_eq_exec h p s
  rw [← hn]
  exact hp n

theorem still_pure (a : α) : Still h v (Pure.pure a : Program S α) s := fun n => by
  cases n <;> rfl

theorem still_call {o : S.Op} (ho : v (h o s).2 = v s) : Still h v (call o) s := fun n => by
  rcases n with _ | _ | n
  · rfl
  · exact ho
  · exact ho

theorem Still.atomic (hp : Still h v p s) : Atomic h v p s := fun n => .inl (hp n)

theorem atomic_call (o : S.Op) : Atomic h v (call o) s := fun n => by
  rcases n with _ | _ | n
  · exact .inl rfl
  · exact .inr rfl
  · exact .inr rfl

/-- Only the second part of a sequence changes the view. -/
theorem Still.bind_atomic (hp : Still h v p s)
    (hf : Atomic h v (f (p.exec h s).1) (p.exec h s).2) : Atomic h v (p >>= f) s := by
  intro n
  rw [exec_bind]
  rcases after_bind h p f s n with ⟨m, hm⟩ | ⟨m, hm⟩
  · rw [hm]
    exact .inl (hp m)
  · rw [hm, ← hp.exec]
    exact hf m

/-- Only the first part of a sequence changes the view. -/
theorem Atomic.bind_still (hp : Atomic h v p s)
    (hf : Still h v (f (p.exec h s).1) (p.exec h s).2) : Atomic h v (p >>= f) s := by
  intro n
  rw [exec_bind, hf.exec]
  rcases after_bind h p f s n with ⟨m, hm⟩ | ⟨m, hm⟩
  · rw [hm]
    exact hp m
  · rw [hm]
    exact .inr (hf m)

theorem Still.bind_pure (hp : Still h v p s) (g : α → β) :
    Still h v (p >>= fun a => Pure.pure (g a)) s := by
  intro n
  rcases after_bind h p (fun a => Pure.pure (g a)) s n with ⟨m, hm⟩ | ⟨m, hm⟩
  · rw [hm]
    exact hp m
  · rw [hm]
    exact (still_pure _ m).trans hp.exec

/-- A program whose operations keep the view, while an invariant holds, is still and keeps the
invariant. -/
theorem Uses.still {O : S.Op → Prop} {I : σ → Prop} (hp : p.Uses O)
    (keep : ∀ o s, O o → I s → v (h o s).2 = v s ∧ I (h o s).2) (hs : I s) :
    Still h v p s ∧ I (p.exec h s).2 := by
  induction p generalizing s with
  | pure a => exact ⟨still_pure a, hs⟩
  | perform o next ih =>
    obtain ⟨view, hs'⟩ := keep o s hp.1 hs
    obtain ⟨rest, inv⟩ := ih _ (hp.2 _) hs'
    refine ⟨fun n => ?_, inv⟩
    cases n with
    | zero => rfl
    | succ n => exact (rest n).trans view

end Effect.Program

/-! ## Fallible programs -/

namespace Effect.Fallible

open Program

variable {S : Signature} {ε α β σ τ : Type} {O : S.Op → Prop}

theorem uses_lift {p : Program S α} (hp : p.Uses O) : (lift p : Fallible S ε α).run.Uses O :=
  Program.uses_bind hp fun _ => trivial

theorem uses_bind {p : Fallible S ε α} {f : α → Fallible S ε β} (hp : p.run.Uses O)
    (hf : ∀ a, (f a).run.Uses O) : (p >>= f).run.Uses O := by
  rw [run_bind]
  refine Program.uses_bind hp fun r => ?_
  rcases r with e | a
  · exact trivial
  · exact hf a

variable {h : Handler S σ} {v : σ → τ} {p : Fallible S ε α} {f : α → Fallible S ε β} {s : σ}

theorem bind_atomic (hp : Still h v p.run s)
    (hf : ∀ a, Atomic h v (f a).run (p.run.exec h s).2) : Atomic h v (p >>= f).run s := by
  rw [run_bind]
  refine hp.bind_atomic ?_
  rcases (p.run.exec h s).1 with e | a
  · exact (still_pure _).atomic
  · exact hf a

/-- After a part whose operations keep the view, with the invariant that they keep. -/
theorem uses_bind_atomic {I : σ → Prop} (hp : p.run.Uses O)
    (keep : ∀ o s, O o → I s → v (h o s).2 = v s ∧ I (h o s).2) (hs : I s)
    (hf : ∀ a s', I s' → Atomic h v (f a).run s') : Atomic h v (p >>= f).run s := by
  obtain ⟨still, inv⟩ := hp.still keep hs
  exact bind_atomic still fun a => hf a _ inv

theorem bind_still (hp : Atomic h v p.run s)
    (hf : ∀ a, Still h v (f a).run (p.run.exec h s).2) : Atomic h v (p >>= f).run s := by
  rw [run_bind]
  refine hp.bind_still ?_
  rcases (p.run.exec h s).1 with e | a
  · exact still_pure _
  · exact hf a

end Effect.Fallible
