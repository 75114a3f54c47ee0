import KeyroCore.Effect.Paths

/-!
# Failures of programs

`FailsBy F c p` says that a complete path of `p` ends with an error exactly if `c` holds or one of
its answers is in `F`.  It is closed under sequencing, so a program that hands every failure on
fails exactly if one of its calls does.
-/

namespace Effect.Fallible

open Program

variable {S : Signature} {ε α β : Type}

def FailsBy (F : Act S → Prop) (c : Prop) (p : Fallible S ε α) : Prop :=
  ∀ acts r, p.run.Path acts (some r) → ((∃ e, r = .error e) ↔ c ∨ ∃ a ∈ acts, F a)

variable {F : Act S → Prop} {c : Prop}

theorem failsBy_pure (a : α) : FailsBy F False (pure a : Fallible S ε α) := by
  intro acts r path
  obtain ⟨rfl, hr⟩ := path_pure_iff.1 path
  cases hr
  simp

theorem failsBy_throw (e : ε) : FailsBy F True (throw e : Fallible S ε α) := by
  intro acts r path
  obtain ⟨rfl, hr⟩ := path_pure_iff.1 path
  cases hr
  exact iff_of_true ⟨e, rfl⟩ (.inl trivial)

theorem failsBy_seq {b : Prop} {p : Fallible S ε α} {f : α → Fallible S ε β} (hp : FailsBy F b p)
    (hf : ∀ a, FailsBy F c (f a)) : FailsBy F (b ∨ c) (p >>= f) := by
  intro acts r path
  rcases run_path_bind path with ⟨-, h⟩ | ⟨e, ended, h⟩ | ⟨a, as₁, as₂, rfl, ended, rest⟩
  · cases h
  · cases h
    refine iff_of_true ⟨e, rfl⟩ ?_
    rcases (hp acts _ ended).1 ⟨e, rfl⟩ with known | failed
    · exact .inl (.inl known)
    · exact .inr failed
  · have first : ¬ (b ∨ ∃ a ∈ as₁, F a) := fun failed => by
      obtain ⟨e, he⟩ := (hp as₁ _ ended).2 failed
      cases he
    rw [not_or] at first
    rw [hf a as₂ r rest]
    simp only [List.mem_append, or_and_right, exists_or, first, false_or]

/-- A sequence whose first part fails by its calls alone. -/
theorem failsBy_bind {p : Fallible S ε α} {f : α → Fallible S ε β} (hp : FailsBy F False p)
    (hf : ∀ a, FailsBy F c (f a)) : FailsBy F c (p >>= f) :=
  false_or c ▸ failsBy_seq hp hf

/-- One call and its answer. -/
theorem run_path_perform {o : S.Op} (enc : S.Ans o → Except ε α) {acts : List (Act S)}
    {r : Except ε α}
    (path : (ExceptT.mk (.perform o fun x => .pure (enc x)) : Fallible S ε α).run.Path acts
      (some r)) : ∃ x, acts = [⟨o, x⟩] ∧ enc x = r := by
  obtain ⟨r', called, hr⟩ := path_bind_pure (p := call o) (g := enc) path
  rcases path_call_iff.1 called with ⟨-, rfl⟩ | ⟨x, rfl, rfl⟩
  · cases hr
  · exact ⟨x, rfl, (Option.some.inj hr).symm⟩

/-- A call whose answer is an error or a value. -/
theorem failsBy_perform {o : S.Op} (enc : S.Ans o → Except ε α)
    (fails : ∀ x, F ⟨o, x⟩ ↔ ∃ e, enc x = .error e) :
    FailsBy F False (ExceptT.mk (.perform o fun x => .pure (enc x)) : Fallible S ε α) := by
  intro acts r path
  obtain ⟨x, rfl, rfl⟩ := run_path_perform enc path
  rw [false_or, ← fails x]
  simp

/-- A call whose answer may make the rest of the program fail. -/
theorem failsBy_perform_bind {o : S.Op} (enc : S.Ans o → Except ε α) {f : α → Fallible S ε β}
    {b : α → Prop} (fails : ∀ x, F ⟨o, x⟩ ↔ ∀ a, enc x = .ok a → b a)
    (hf : ∀ a, FailsBy F (b a) (f a)) :
    FailsBy F False (ExceptT.mk (.perform o fun x => .pure (enc x)) >>= f) := by
  intro acts r path
  rcases run_path_bind path with ⟨-, h⟩ | ⟨e, ended, h⟩ | ⟨a, as₁, as₂, rfl, ended, rest⟩
  · cases h
  · cases h
    obtain ⟨x, rfl, hx⟩ := run_path_perform enc ended
    have failed : F ⟨o, x⟩ := (fails x).2 fun a ha => by
      rw [hx] at ha
      cases ha
    exact iff_of_true ⟨e, rfl⟩ (.inr ⟨_, List.mem_singleton_self _, failed⟩)
  · obtain ⟨x, rfl, ok⟩ := run_path_perform enc ended
    have here : F ⟨o, x⟩ ↔ b a := by
      rw [fails x, ok]
      exact ⟨fun h => h a rfl, fun h a' ha => Except.ok.inj ha ▸ h⟩
    rw [hf a as₂ r rest, false_or, List.singleton_append]
    simp only [List.mem_cons, exists_eq_or_imp, here]

theorem failsBy_ite {d : Prop} {_ : Decidable d} {p q : Fallible S ε α} (hp : FailsBy F c p)
    (hq : FailsBy F c q) : FailsBy F c (if d then p else q) := by
  split_ifs
  · exact hp
  · exact hq

/-- A run that ended well made no call that fails. -/
theorem FailsBy.ok {p : Fallible S ε α} (hp : FailsBy F c p) {acts : List (Act S)} {a : α}
    (path : p.run.Path acts (some (.ok a))) : ∀ x ∈ acts, ¬ F x := fun x hx failed => by
  obtain ⟨e, he⟩ := (hp acts _ path).2 (.inr ⟨x, hx, failed⟩)
  cases he

end Effect.Fallible
