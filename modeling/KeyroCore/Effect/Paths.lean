import KeyroCore.Effect.Crash

/-!
# Paths of programs

`Path p acts r` says that `p` may perform exactly the operations of `acts`, with the answers
recorded there, and has then ended with `r`, or is still running when `r` is `none`.  The rules
read off the paths of a program from its text.
-/

namespace Effect

namespace Program

variable {S : Signature} {α β σ : Type}

/-- The value of a program that has ended. -/
def value? : Program S α → Option α
  | .pure a => some a
  | .perform _ _ => none

def Path (p : Program S α) (acts : List (Act S)) (r : Option α) : Prop :=
  ∃ q, Follows p acts q ∧ q.value? = r

theorem Follows.path {p q : Program S α} {acts : List (Act S)} (f : Follows p acts q) :
    p.Path acts q.value? := ⟨q, f, rfl⟩

/-- A run on a handler is a path to the end of the program. -/
theorem path_acts (h : Handler S σ) (p : Program S α) (s : σ) :
    p.Path (p.acts h s) (some (p.exec h s).1) := (follows_acts h p s).path

theorem path_pure_iff {a : α} {acts : List (Act S)} {r : Option α} :
    (Pure.pure a : Program S α).Path acts r ↔ acts = [] ∧ r = some a := by
  constructor
  · rintro ⟨q, f, rfl⟩
    obtain ⟨rfl, rfl⟩ := follows_pure_iff.1 f
    exact ⟨rfl, rfl⟩
  · rintro ⟨rfl, rfl⟩
    exact ⟨_, .nil _, rfl⟩

theorem path_call_iff {o : S.Op} {acts : List (Act S)} {r : Option (S.Ans o)} :
    (call o).Path acts r ↔ acts = [] ∧ r = none ∨ ∃ x, acts = [⟨o, x⟩] ∧ r = some x := by
  constructor
  · rintro ⟨q, f, rfl⟩
    cases f with
    | nil => exact .inl ⟨rfl, rfl⟩
    | @cons _ _ x _ _ rest =>
      obtain ⟨rfl, rfl⟩ := follows_pure_iff.1 rest
      exact .inr ⟨x, rfl, rfl⟩
  · rintro (⟨rfl, rfl⟩ | ⟨x, rfl, rfl⟩)
    · exact ⟨_, .nil _, rfl⟩
    · exact ⟨_, .cons (.nil _), rfl⟩

/-- A path of a sequence ends in the first program, or runs through it and on in the second. -/
theorem path_bind {p : Program S α} {f : α → Program S β} {acts : List (Act S)} {r : Option β}
    (h : (p >>= f).Path acts r) : p.Path acts none ∧ r = none ∨
      ∃ a as₁ as₂, acts = as₁ ++ as₂ ∧ p.Path as₁ (some a) ∧ (f a).Path as₂ r := by
  obtain ⟨q, follows, rfl⟩ := h
  rcases follows_bind follows with ⟨p', hp, rfl⟩ | ⟨a, as₁, as₂, rfl, h₁, h₂⟩
  · cases p' with
    | pure a => exact .inr ⟨a, acts, [], (List.append_nil _).symm, hp.path, (Follows.nil _).path⟩
    | perform o next => exact .inl ⟨hp.path, rfl⟩
  · exact .inr ⟨a, as₁, as₂, rfl, h₁.path, h₂.path⟩

theorem path_bind_pure {p : Program S α} {g : α → β} {acts : List (Act S)} {r : Option β}
    (h : (p >>= fun a => Pure.pure (g a)).Path acts r) :
    ∃ r', p.Path acts r' ∧ r = r'.map g := by
  rcases path_bind h with ⟨hp, rfl⟩ | ⟨a, as₁, as₂, rfl, hp, rest⟩
  · exact ⟨none, hp, rfl⟩
  · obtain ⟨rfl, rfl⟩ := path_pure_iff.1 rest
    rw [List.append_nil]
    exact ⟨some a, hp, rfl⟩

theorem Path.uses {p : Program S α} {acts : List (Act S)} {r : Option α} {O : S.Op → Prop}
    (path : p.Path acts r) (hp : p.Uses O) : ∀ a ∈ acts, O a.op := by
  obtain ⟨q, follows, -⟩ := path
  exact hp.follows follows

/-- An operation of two lists in a row stands in the first or in the second. -/
theorem split_append {as bs before after : List (Act S)} {a : Act S}
    (split : as ++ bs = before ++ a :: after) :
    (∃ after', as = before ++ a :: after' ∧ after = after' ++ bs) ∨
      ∃ before', before = as ++ before' ∧ bs = before' ++ a :: after := by
  rcases List.append_eq_append_iff.1 split with ⟨l, rfl, h⟩ | ⟨l, rfl, h⟩
  · exact .inr ⟨l, rfl, h⟩
  · rcases l with _ | ⟨x, l⟩
    · exact .inr ⟨[], by simp, h.symm⟩
    · cases h
      exact .inl ⟨l, rfl, rfl⟩

theorem split_after {as bs before after : List (Act S)} {a : Act S}
    (split : as ++ bs = before ++ a :: after) (ha : a ∉ as) :
    ∃ before', before = as ++ before' ∧ bs = before' ++ a :: after := by
  refine (split_append split).resolve_left ?_
  rintro ⟨after', rfl, -⟩
  exact ha (List.mem_append_right _ (List.mem_cons_self ..))

theorem split_before {as bs before after : List (Act S)} {a : Act S}
    (split : as ++ bs = before ++ a :: after) (hb : a ∉ bs) :
    ∃ after', as = before ++ a :: after' ∧ after = after' ++ bs := by
  refine (split_append split).resolve_right ?_
  rintro ⟨before', -, rfl⟩
  exact hb (List.mem_append_right _ (List.mem_cons_self ..))

/-- Two splits of a list at its only operation of some kind agree. -/
theorem split_at_only {P : Act S → Prop} {as bs before after : List (Act S)} {a b : Act S}
    (split : as ++ a :: bs = before ++ b :: after) (has : ∀ x ∈ as, ¬ P x) (hbs : ∀ x ∈ bs, ¬ P x)
    (hb : P b) : before = as ∧ b = a := by
  obtain ⟨l, rfl, h⟩ := split_after split fun mem => has b mem hb
  rcases l with _ | ⟨x, l⟩
  · cases h
    exact ⟨List.append_nil _, rfl⟩
  · cases h
    exact absurd hb (hbs b (List.mem_append_right _ (List.mem_cons_self ..)))

end Program

namespace Fallible

open Program

variable {S : Signature} {ε α β : Type} {acts : List (Act S)}

theorem run_path_lift {p : Program S α} {r : Option (Except ε α)}
    (h : (lift p : Fallible S ε α).run.Path acts r) :
    ∃ r', p.Path acts r' ∧ r = r'.map .ok := path_bind_pure h

/-- A path of a sequence ends in the first program, possibly with its error, or runs through it
and on in the second. -/
theorem run_path_bind {p : Fallible S ε α} {f : α → Fallible S ε β} {r : Option (Except ε β)}
    (h : (p >>= f).run.Path acts r) : p.run.Path acts none ∧ r = none ∨
      (∃ e, p.run.Path acts (some (.error e)) ∧ r = some (.error e)) ∨
        ∃ a as₁ as₂, acts = as₁ ++ as₂ ∧ p.run.Path as₁ (some (.ok a)) ∧
          (f a).run.Path as₂ r := by
  rw [run_bind] at h
  rcases path_bind h with ⟨hp, rfl⟩ | ⟨e | a, as₁, as₂, rfl, hp, rest⟩
  · exact .inl ⟨hp, rfl⟩
  · obtain ⟨rfl, rfl⟩ := path_pure_iff.1 rest
    rw [List.append_nil]
    exact .inr (.inl ⟨e, hp, rfl⟩)
  · exact .inr (.inr ⟨a, as₁, as₂, rfl, hp, rest⟩)

/-- A path of a sequence whose first operation cannot fail. -/
theorem run_path_call_bind {o : S.Op} {f : S.Ans o → Fallible S ε β} {r : Option (Except ε β)}
    (h : (lift (call o) >>= f).run.Path acts r) : acts = [] ∧ r = none ∨
      ∃ x rest, acts = ⟨o, x⟩ :: rest ∧ (f x).run.Path rest r := by
  rcases run_path_bind h with ⟨hp, rfl⟩ | ⟨e, hp, -⟩ | ⟨a, as₁, as₂, rfl, hp, rest⟩
  · obtain ⟨r', hp, hr⟩ := run_path_lift hp
    rcases path_call_iff.1 hp with ⟨rfl, rfl⟩ | ⟨x, rfl, rfl⟩
    · exact .inl ⟨rfl, rfl⟩
    · cases hr
  · obtain ⟨r', hp, hr⟩ := run_path_lift hp
    rcases path_call_iff.1 hp with ⟨rfl, rfl⟩ | ⟨x, rfl, rfl⟩ <;> cases hr
  · obtain ⟨r', hp, hr⟩ := run_path_lift hp
    rcases path_call_iff.1 hp with ⟨rfl, rfl⟩ | ⟨x, rfl, rfl⟩
    · cases hr
    · cases hr
      exact .inr ⟨_, as₂, rfl, rest⟩

end Fallible

end Effect
