import Mathlib.Data.List.Basic

/-!
# Programs over an effect signature

A program performs operations one at a time and branches on their answers.  `exec` runs a program
against a handler that owns a state, `acts` lists the operations it performs there together with
the answers, and `after` stops it after a given number of operations.  `Follows p acts q` is the
handler-free view: `q` is what remains of `p` once the operations of `acts` have received the
answers recorded there, and `Always G p R` says that `p` ends in `R` whenever all answers are in
`G`.  `Ends` is the weakest precondition of a fallible program.
-/

namespace Effect

/-- The operations of an interface, each with the type of its answer. -/
structure Signature where
  Op : Type
  Ans : Op → Type

/-- A program over `S` that ends with a value of type `α`. -/
inductive Program (S : Signature) (α : Type) where
  | pure (a : α)
  | perform (o : S.Op) (next : S.Ans o → Program S α)

/-- An operation together with the answer it received. -/
structure Act (S : Signature) where
  op : S.Op
  ans : S.Ans op

/-- A handler answers every operation and moves its own state. -/
abbrev Handler (S : Signature) (σ : Type) := (o : S.Op) → σ → S.Ans o × σ

/-- Programs that may stop early with an error of type `ε`. -/
abbrev Fallible (S : Signature) (ε : Type) := ExceptT ε (Program S)

namespace Program

variable {S : Signature} {α β σ : Type}

def bind : Program S α → (α → Program S β) → Program S β
  | .pure a, f => f a
  | .perform o next, f => .perform o fun x => (next x).bind f

instance : Monad (Program S) where
  pure := .pure
  bind := bind

theorem bind_assoc {γ : Type} (p : Program S α) (f : α → Program S β) (g : β → Program S γ) :
    (p >>= f) >>= g = p >>= fun a => f a >>= g := by
  induction p with
  | pure a => rfl
  | perform o next ih => exact congrArg (Program.perform o) (funext ih)

/-- Perform one operation and return its answer. -/
def call (o : S.Op) : Program S (S.Ans o) := .perform o .pure

/-! ## Running a program -/

/-- The value a program ends with, and the state it leaves. -/
def exec (h : Handler S σ) : Program S α → σ → α × σ
  | .pure a, s => (a, s)
  | .perform o next, s => (next (h o s).1).exec h (h o s).2

/-- The operations a program performs, oldest first. -/
def acts (h : Handler S σ) : Program S α → σ → List (Act S)
  | .pure _, _ => []
  | .perform o next, s => ⟨o, (h o s).1⟩ :: (next (h o s).1).acts h (h o s).2

/-- The state once the first `n` operations have been performed, or all of them if the program has
fewer. -/
def after (h : Handler S σ) : ℕ → Program S α → σ → σ
  | 0, _, s => s
  | _ + 1, .pure _, s => s
  | n + 1, .perform o next, s => (next (h o s).1).after h n (h o s).2

/-- The operation a program is about to perform after its first `n` operations. -/
def pending (h : Handler S σ) : ℕ → Program S α → σ → Option S.Op
  | _, .pure _, _ => none
  | 0, .perform o _, _ => some o
  | n + 1, .perform o next, s => (next (h o s).1).pending h n (h o s).2

/-- A handler whose environment supplies one input for each operation. -/
def timed {ι : Type} (h : ι → Handler S σ) (inputs : ℕ → ι) : Handler S (σ × ℕ) := fun o s =>
  ((h (inputs s.2) o s.1).1, ((h (inputs s.2) o s.1).2, s.2 + 1))

section Exec

variable (h : Handler S σ) (s : σ)

@[simp] theorem exec_pure (a : α) : exec h (Pure.pure a) s = (a, s) := rfl

@[simp] theorem exec_call (o : S.Op) : exec h (call o) s = h o s := rfl

@[simp] theorem exec_bind (p : Program S α) (f : α → Program S β) :
    exec h (p >>= f) s = exec h (f (exec h p s).1) (exec h p s).2 := by
  induction p generalizing s with
  | pure a => rfl
  | perform o next ih => exact ih _ _

@[simp] theorem acts_pure (a : α) : acts h (Pure.pure a : Program S α) s = [] := rfl

@[simp] theorem acts_call (o : S.Op) : acts h (call o) s = [⟨o, (h o s).1⟩] := rfl

@[simp] theorem acts_bind (p : Program S α) (f : α → Program S β) :
    acts h (p >>= f) s = acts h p s ++ acts h (f (exec h p s).1) (exec h p s).2 := by
  induction p generalizing s with
  | pure a => rfl
  | perform o next ih => exact congrArg (_ :: ·) (ih _ _)

/-- Every operation performed was answered by the handler, in a state that has what it keeps. -/
theorem mem_acts_of_keeps {h : Handler S σ} {I : σ → Prop} (keep : ∀ o s, I s → I (h o s).2)
    {p : Program S α} {s : σ} (hs : I s) {a : Act S} (ha : a ∈ p.acts h s) :
    ∃ s', I s' ∧ (h a.op s').1 = a.ans := by
  induction p generalizing s with
  | pure a => cases ha
  | perform o next ih =>
    rcases List.mem_cons.1 ha with rfl | ha
    · exact ⟨s, hs, rfl⟩
    · exact ih _ (keep o s hs) ha

theorem mem_acts {h : Handler S σ} {p : Program S α} {s : σ} {a : Act S} (ha : a ∈ p.acts h s) :
    ∃ s', (h a.op s').1 = a.ans := by
  obtain ⟨s', -, answered⟩ := mem_acts_of_keeps (I := fun _ => True) (fun _ _ h => h) trivial ha
  exact ⟨s', answered⟩

/-- The first operation was answered in the first state. -/
theorem acts_head {h : Handler S σ} {p : Program S α} {s : σ} {a : Act S} {rest : List (Act S)}
    (ha : p.acts h s = a :: rest) : (h a.op s).1 = a.ans := by
  cases p with
  | pure a => cases ha
  | perform o next =>
    cases ha
    rfl

theorem exec_keeps {I : σ → Prop} (keep : ∀ o s, I s → I (h o s).2) {s : σ} (hs : I s)
    (p : Program S α) : I (p.exec h s).2 := by
  induction p generalizing s with
  | pure a => exact hs
  | perform o next ih => exact ih _ (keep o s hs)

end Exec

/-! ## Following recorded answers -/

/-- `q` is what remains of a program after the operations and answers in the list. -/
inductive Follows : Program S α → List (Act S) → Program S α → Prop where
  | nil (p : Program S α) : Follows p [] p
  | cons {o : S.Op} {next : S.Ans o → Program S α} {x : S.Ans o} {as : List (Act S)}
      {q : Program S α} (rest : Follows (next x) as q) :
      Follows (.perform o next) (⟨o, x⟩ :: as) q

theorem Follows.snoc {p q : Program S α} {as : List (Act S)} {o : S.Op}
    {next : S.Ans o → Program S α} (f : Follows p as q) (hq : q = .perform o next) (x : S.Ans o) :
    Follows p (as ++ [⟨o, x⟩]) (next x) := by
  induction f with
  | nil p => subst hq; exact .cons (.nil _)
  | cons rest ih => exact .cons (ih hq)

theorem follows_nil_iff {p q : Program S α} : Follows p [] q ↔ q = p := by
  constructor
  · rintro ⟨⟩
    rfl
  · rintro rfl
    exact .nil _

theorem follows_pure_iff {a : α} {as : List (Act S)} {q : Program S α} :
    Follows (Pure.pure a) as q ↔ as = [] ∧ q = Pure.pure a := by
  constructor
  · rintro ⟨⟩
    exact ⟨rfl, rfl⟩
  · rintro ⟨rfl, rfl⟩
    exact .nil _

/-- The operations of a complete run, with the answers of the handler, are followed to the end. -/
theorem follows_acts (h : Handler S σ) (p : Program S α) (s : σ) :
    Follows p (acts h p s) (.pure (exec h p s).1) := by
  induction p generalizing s with
  | pure a => exact .nil _
  | perform o next ih => exact .cons (ih _ _)

/-- A path through a sequence either stops in the first program, or ends it and goes on in the
second. -/
theorem follows_bind {p : Program S α} {f : α → Program S β} {as : List (Act S)}
    {q : Program S β} (hf : Follows (p >>= f) as q) :
    (∃ p', Follows p as p' ∧ q = p' >>= f) ∨
      ∃ a as₁ as₂, as = as₁ ++ as₂ ∧ Follows p as₁ (.pure a) ∧ Follows (f a) as₂ q := by
  induction p generalizing as with
  | pure a => exact .inr ⟨a, [], as, rfl, .nil _, hf⟩
  | perform o next ih =>
    cases hf with
    | nil => exact .inl ⟨_, .nil _, rfl⟩
    | cons rest =>
      rcases ih _ rest with ⟨p', hp, rfl⟩ | ⟨a, as₁, as₂, rfl, h₁, h₂⟩
      · exact .inl ⟨p', .cons hp, rfl⟩
      · exact .inr ⟨a, _ :: as₁, as₂, rfl, .cons h₁, h₂⟩

/-- If all operations receive answers in `G`, the program ends with a value in `R`. -/
def Always (G : Act S → Prop) : Program S α → (α → Prop) → Prop
  | .pure a, R => R a
  | .perform o next, R => ∀ x, G ⟨o, x⟩ → (next x).Always G R

section Always

variable {G : Act S → Prop}

theorem always_call_iff {o : S.Op} {R : S.Ans o → Prop} :
    (call o).Always G R ↔ ∀ x, G ⟨o, x⟩ → R x := Iff.rfl

theorem always_bind {p : Program S α} {f : α → Program S β} {R : β → Prop} :
    (p >>= f).Always G R ↔ p.Always G fun a => (f a).Always G R := by
  induction p with
  | pure a => rfl
  | perform o next ih => exact forall_congr' fun x => forall_congr' fun _ => ih x

theorem Always.mono {p : Program S α} {R R' : α → Prop} (hp : p.Always G R)
    (hR : ∀ a, R a → R' a) : p.Always G R' := by
  induction p with
  | pure a => exact hR a hp
  | perform o next ih => exact fun x hx => ih x (hp x hx)

theorem Follows.always {p q : Program S α} {as : List (Act S)} {R : α → Prop} (f : Follows p as q)
    (hp : p.Always G R) (has : ∀ a ∈ as, G a) : q.Always G R := by
  induction f with
  | nil p => exact hp
  | cons rest ih =>
    rw [List.forall_mem_cons] at has
    exact ih (hp _ has.1) has.2

end Always

end Program

/-! ## Weakest preconditions of fallible programs -/

namespace Fallible

variable {S : Signature} {ε α β σ : Type} (h : Handler S σ)

/-- A program that cannot fail. -/
def lift (p : Program S α) : Fallible S ε α := ExceptT.mk (p >>= fun a => pure (.ok a))

theorem run_bind (p : Fallible S ε β) (f : β → Fallible S ε α) :
    (p >>= f).run = p.run >>= fun r =>
      match r with
      | .ok b => (f b).run
      | .error e => pure (.error e) := rfl

/-- Every way the program can end from `s` satisfies `Q`. -/
def Ends (p : Fallible S ε α) (s : σ) (Q : Except ε α → σ → Prop) : Prop :=
  Q (Program.exec h p.run s).1 (Program.exec h p.run s).2

variable {h} {s : σ} {Q : Except ε α → σ → Prop}

theorem ends_pure_iff (a : α) : Ends h (pure a : Fallible S ε α) s Q ↔ Q (.ok a) s := Iff.rfl

theorem ends_throw_iff (e : ε) : Ends h (throw e : Fallible S ε α) s Q ↔ Q (.error e) s := Iff.rfl

theorem ends_bind_iff (p : Fallible S ε β) (f : β → Fallible S ε α) :
    Ends h (p >>= f) s Q ↔ Ends h p s fun r s' =>
      match r with
      | .ok b => Ends h (f b) s' Q
      | .error e => Q (.error e) s' := by
  simp only [Ends, run_bind, Program.exec_bind]
  rcases (Program.exec h p.run s).1 with e | b <;> rfl

/-- A sequence whose first part has a known effect. -/
theorem Ends.bind {p : Fallible S ε β} {f : β → Fallible S ε α} {R : Except ε β → σ → Prop}
    (hp : Ends h p s R) (fail : ∀ e s', R (.error e) s' → Q (.error e) s')
    (ok : ∀ b s', R (.ok b) s' → Ends h (f b) s' Q) : Ends h (p >>= f) s Q := by
  rw [ends_bind_iff]
  unfold Ends at hp ⊢
  rcases hr : (Program.exec h p.run s).1 with e | b
  · rw [hr] at hp
    exact fail e _ hp
  · rw [hr] at hp
    exact ok b _ hp

theorem Ends.and {p : Fallible S ε α} {Q' : Except ε α → σ → Prop} (hp : Ends h p s Q)
    (hp' : Ends h p s Q') : Ends h p s fun r s' => Q r s' ∧ Q' r s' := ⟨hp, hp'⟩

theorem ends_lift_iff (p : Program S α) : Ends h (lift p : Fallible S ε α) s Q ↔
    Q (.ok (Program.exec h p s).1) (Program.exec h p s).2 := by
  unfold Ends lift
  simp only [ExceptT.run_mk, Program.exec_bind, Program.exec_pure]

theorem ends_lift_bind_iff (p : Program S β) (f : β → Fallible S ε α) :
    Ends h (lift p >>= f) s Q ↔ Ends h (f (Program.exec h p s).1) (Program.exec h p s).2 Q := by
  rw [ends_bind_iff, ends_lift_iff]

theorem ends_throw_bind_iff (e : ε) (f : β → Fallible S ε α) :
    Ends h (throw e >>= f) s Q ↔ Q (.error e) s := Iff.rfl

theorem ends_ite_iff {c : Prop} {_ : Decidable c} (p q : Fallible S ε α) :
    Ends h (if c then p else q) s Q ↔ (c → Ends h p s Q) ∧ (¬ c → Ends h q s Q) := by
  split <;> simp_all

section Assures

variable {G : Act S → Prop} {R : Except ε α → Prop}

/-- `Always` for a program that may stop early. -/
def Assures (G : Act S → Prop) (p : Fallible S ε α) (R : Except ε α → Prop) : Prop :=
  p.run.Always G R

theorem assures_bind_iff (p : Fallible S ε β) (f : β → Fallible S ε α) :
    Assures G (p >>= f) R ↔ Assures G p fun r =>
      match r with
      | .ok b => Assures G (f b) R
      | .error e => R (.error e) := by
  unfold Assures
  rw [run_bind, Program.always_bind]
  constructor <;> refine fun hp => hp.mono fun r hr => ?_
  · rcases r with e | b <;> exact hr
  · rcases r with e | b <;> exact hr

theorem assures_lift_bind_iff (p : Program S β) (f : β → Fallible S ε α) :
    Assures G (lift p >>= f) R ↔ p.Always G fun b => Assures G (f b) R := by
  rw [assures_bind_iff]
  unfold Assures lift
  rw [ExceptT.run_mk, Program.always_bind]
  rfl

end Assures

theorem Ends.mono {p : Fallible S ε α} {Q' : Except ε α → σ → Prop} (hp : Ends h p s Q)
    (hQ : ∀ r s', Q r s' → Q' r s') : Ends h p s Q' := hQ _ _ hp

end Fallible

end Effect
