import KeyroCore.Effect.Failure

/-!
# Monitored runs

`trace` lists the operations of a run, each with the state before it.  A monitor reads a trace from
left to right: it moves a state of its own and says which operations it allows.  `Watched` is the
weakest precondition of a fallible program for the runs that a monitor accepts, with the final state
of the monitor at hand.
-/

namespace Effect

namespace Program

variable {S : Signature} {α β σ : Type} (h : Handler S σ)

/-- The operations a program performs, each with the state before it. -/
def trace : Program S α → σ → List (σ × Act S)
  | .pure _, _ => []
  | .perform o next, s => (s, ⟨o, (h o s).1⟩) :: (next (h o s).1).trace (h o s).2

@[simp] theorem trace_pure (a : α) (s : σ) : trace h (Pure.pure a : Program S α) s = [] := rfl

@[simp] theorem trace_call (o : S.Op) (s : σ) : trace h (call o) s = [(s, ⟨o, (h o s).1⟩)] := rfl

@[simp] theorem trace_bind (p : Program S α) (f : α → Program S β) (s : σ) :
    trace h (p >>= f) s = trace h p s ++ trace h (f (exec h p s).1) (exec h p s).2 := by
  induction p generalizing s with
  | pure a => rfl
  | perform o next ih => exact congrArg (_ :: ·) (ih _ _)

theorem map_trace (p : Program S α) (s : σ) : (trace h p s).map Prod.snd = acts h p s := by
  induction p generalizing s with
  | pure a => rfl
  | perform o next ih => exact congrArg (_ :: ·) (ih _ _)

theorem Uses.trace {O : S.Op → Prop} {p : Program S α} (hp : p.Uses O) (s : σ) :
    ∀ x ∈ p.trace h s, O x.2.op := by
  induction p generalizing s with
  | pure a => exact List.forall_mem_nil _
  | perform o next ih => exact List.forall_mem_cons.2 ⟨hp.1, ih _ (hp.2 _) _⟩

/-- What the operations of a program keep holds at every moment of a run. -/
theorem Uses.keeps {h : Handler S σ} {O : S.Op → Prop} {I : σ → Prop}
    (keep : ∀ o s, O o → I s → I (h o s).2) {p : Program S α} (hp : p.Uses O) {s : σ} (hs : I s) :
    I (p.exec h s).2 ∧ ∀ x ∈ p.trace h s, I x.1 := by
  induction p generalizing s with
  | pure a => exact ⟨hs, List.forall_mem_nil _⟩
  | perform o next ih =>
    obtain ⟨final, moments⟩ := ih _ (hp.2 _) (keep o s hp.1 hs)
    exact ⟨final, List.forall_mem_cons.2 ⟨hs, moments⟩⟩

end Program

/-- A reader of traces. -/
structure Monitor (S : Signature) (σ μ : Type) where
  allows : μ → σ → Act S → Prop
  next : μ → σ → Act S → μ

namespace Monitor

variable {S : Signature} {σ μ : Type} (m : Monitor S σ μ)

/-- Every operation of the trace is allowed when the monitor reaches it. -/
def Accepts : μ → List (σ × Act S) → Prop
  | _, [] => True
  | w, (s, a) :: rest => m.allows w s a ∧ Accepts (m.next w s a) rest

instance decidableAccepts [∀ w s, DecidablePred (m.allows w s)] :
    (w : μ) → (trace : List (σ × Act S)) → Decidable (m.Accepts w trace)
  | _, [] => .isTrue trivial
  | w, (s, a) :: rest =>
    have := decidableAccepts (m.next w s a) rest
    inferInstanceAs (Decidable (m.allows w s a ∧ m.Accepts (m.next w s a) rest))

/-- The state of the monitor after a trace. -/
def after (w : μ) (trace : List (σ × Act S)) : μ := trace.foldl (fun w x => m.next w x.1 x.2) w

theorem accepts_append {w : μ} {as bs : List (σ × Act S)} :
    m.Accepts w (as ++ bs) ↔ m.Accepts w as ∧ m.Accepts (m.after w as) bs := by
  induction as generalizing w with
  | nil => exact (iff_of_eq (true_and _)).symm
  | cons x as ih =>
    rw [List.cons_append, Accepts, Accepts, ih, and_assoc]
    rfl

@[simp] theorem after_append (w : μ) (as bs : List (σ × Act S)) :
    m.after w (as ++ bs) = m.after (m.after w as) bs := List.foldl_append

/-- A monitor that no operation of a trace moves. -/
theorem after_eq_self {w : μ} {as : List (σ × Act S)}
    (still : ∀ x ∈ as, ∀ w, m.next w x.1 x.2 = w) : m.after w as = w := by
  induction as generalizing w with
  | nil => rfl
  | cons x as ih =>
    rw [List.forall_mem_cons] at still
    show m.after (m.next w x.1 x.2) as = w
    rw [still.1 w, ih still.2]

/-- The monitor that also asks for `G` of every operation. -/
def guard (G : σ → Act S → Prop) : Monitor S σ μ where
  allows w s a := m.allows w s a ∧ G s a
  next := m.next

theorem accepts_guard_iff {G : σ → Act S → Prop} {w : μ} {trace : List (σ × Act S)} :
    (m.guard G).Accepts w trace ↔ m.Accepts w trace ∧ ∀ x ∈ trace, G x.1 x.2 := by
  induction trace generalizing w with
  | nil => exact iff_of_true trivial ⟨trivial, List.forall_mem_nil _⟩
  | cons x trace ih =>
    rw [List.forall_mem_cons]
    show ((m.allows w x.1 x.2 ∧ G x.1 x.2) ∧ (m.guard G).Accepts (m.next w x.1 x.2) trace) ↔ _
    rw [ih, and_and_and_comm]
    rfl

theorem after_guard (G : σ → Act S → Prop) (w : μ) (trace : List (σ × Act S)) :
    (m.guard G).after w trace = m.after w trace := rfl

end Monitor

namespace Fallible

open Program

variable {S : Signature} {ε α β σ μ : Type} {m : Monitor S σ μ} {h : Handler S σ} {s : σ} {w : μ}

/-- The program ends well with the given value, state and trace. -/
def Completes (h : Handler S σ) (p : Fallible S ε α) (s : σ) (a : α) (s' : σ)
    (trace : List (σ × Act S)) : Prop :=
  p.run.exec h s = (.ok a, s') ∧ p.run.trace h s = trace

theorem completes_pure (a : α) : Completes h (pure a : Fallible S ε α) s a s [] := ⟨rfl, rfl⟩

theorem Completes.bind {p : Fallible S ε β} {f : β → Fallible S ε α} {b : β} {a : α} {s₁ s₂ : σ}
    {t₁ t₂ : List (σ × Act S)} (hp : Completes h p s b s₁ t₁) (hf : Completes h (f b) s₁ a s₂ t₂) :
    Completes h (p >>= f) s a s₂ (t₁ ++ t₂) := by
  obtain ⟨exec₁, trace₁⟩ := hp
  obtain ⟨exec₂, trace₂⟩ := hf
  unfold Completes
  rw [run_bind, exec_bind, trace_bind, exec₁, trace₁]
  exact ⟨exec₂, congrArg (t₁ ++ ·) trace₂⟩

/-- A program known to end well. -/
theorem Ends.completes {p : Fallible S ε α} {a : α} {R : σ → Prop}
    (hp : Ends h p s fun r s' => r = .ok a ∧ R s') :
    ∃ s', R s' ∧ Completes h p s a s' (p.run.trace h s) :=
  ⟨_, hp.2, Prod.ext hp.1 rfl, rfl⟩

/-- Every way the program can end from `s`, when the monitor accepts the run, satisfies `Q`. -/
def Watched (m : Monitor S σ μ) (h : Handler S σ) (p : Fallible S ε α) (s : σ) (w : μ)
    (Q : Except ε α → σ → μ → Prop) : Prop :=
  m.Accepts w (p.run.trace h s) →
    Q (p.run.exec h s).1 (p.run.exec h s).2 (m.after w (p.run.trace h s))

variable {Q : Except ε α → σ → μ → Prop}

theorem watched_pure_iff {a : α} :
    Watched m h (pure a : Fallible S ε α) s w Q ↔ Q (.ok a) s w := true_imp_iff

theorem watched_throw_iff {e : ε} :
    Watched m h (throw e : Fallible S ε α) s w Q ↔ Q (.error e) s w := true_imp_iff

theorem watched_bind_iff {p : Fallible S ε β} {f : β → Fallible S ε α} :
    Watched m h (p >>= f) s w Q ↔ Watched m h p s w fun r s' w' =>
      match r with
      | .ok b => Watched m h (f b) s' w' Q
      | .error e => Q (.error e) s' w' := by
  unfold Watched
  rw [run_bind, trace_bind, exec_bind, Monitor.accepts_append, Monitor.after_append, and_imp]
  refine imp_congr_right fun _ => ?_
  rcases (p.run.exec h s).1 with e | b
  · exact true_imp_iff
  · exact Iff.rfl

theorem watched_call_iff {o : S.Op} {Q : Except ε (S.Ans o) → σ → μ → Prop} :
    Watched m h (lift (call o)) s w Q ↔ (m.allows w s ⟨o, (h o s).1⟩ →
      Q (.ok (h o s).1) (h o s).2 (m.next w s ⟨o, (h o s).1⟩)) := by
  unfold Watched
  exact imp_congr_left (iff_of_eq (and_true _))

theorem Watched.mono {p : Fallible S ε α} {Q' : Except ε α → σ → μ → Prop}
    (hp : Watched m h p s w Q) (hQ : ∀ r s' w', Q r s' w' → Q' r s' w') :
    Watched m h p s w Q' := fun accepts => hQ _ _ _ (hp accepts)

/-- What holds of every run holds of the accepted ones. -/
theorem Watched.and_ends {p : Fallible S ε α} {E : Except ε α → σ → Prop}
    (hp : Watched m h p s w Q) (ends : Ends h p s E) :
    Watched m h p s w fun r s' w' => Q r s' w' ∧ E r s' := fun accepts => ⟨hp accepts, ends⟩

theorem Watched.bind {p : Fallible S ε β} {f : β → Fallible S ε α} {R : Except ε β → σ → μ → Prop}
    (hp : Watched m h p s w R) (fail : ∀ e s' w', R (.error e) s' w' → Q (.error e) s' w')
    (ok : ∀ b s' w', R (.ok b) s' w' → Watched m h (f b) s' w' Q) :
    Watched m h (p >>= f) s w Q := by
  rw [watched_bind_iff]
  refine hp.mono fun r s' w' hr => ?_
  rcases r with e | b
  · exact fail e s' w' hr
  · exact ok b s' w' hr

theorem watched_perform_iff {o : S.Op} {g : S.Ans o → Except ε α} :
    Watched m h (ExceptT.mk (.perform o fun x => .pure (g x))) s w Q ↔
      (m.allows w s ⟨o, (h o s).1⟩ →
        Q (g (h o s).1) (h o s).2 (m.next w s ⟨o, (h o s).1⟩)) := by
  unfold Watched
  exact imp_congr_left (iff_of_eq (and_true _))

section Invariant

variable {O : S.Op → Prop} {I : σ → μ → Prop}
  (step : ∀ o s w, O o → m.allows w s ⟨o, (h o s).1⟩ → I s w →
    I (h o s).2 (m.next w s ⟨o, (h o s).1⟩))

include step

/-- An invariant of the operations of a program, over an accepted run. -/
theorem trace_invariant {p : Program S α} (uses : p.Uses O) (accepts : m.Accepts w (p.trace h s))
    (hI : I s w) : I (p.exec h s).2 (m.after w (p.trace h s)) ∧
      ∀ x ∈ p.trace h s, ∃ w', I x.1 w' ∧ m.allows w' x.1 x.2 := by
  induction p generalizing s w with
  | pure a => exact ⟨hI, nofun⟩
  | perform o next ih =>
    obtain ⟨final, rest⟩ := ih _ (uses.2 _) accepts.2 (step o s w uses.1 accepts.1 hI)
    exact ⟨final, List.forall_mem_cons.2 ⟨⟨w, hI, accepts.1⟩, rest⟩⟩

theorem watched_invariant {p : Fallible S ε α} (uses : p.run.Uses O) (hI : I s w) :
    Watched m h p s w fun _ s' w' => I s' w' :=
  fun accepts => (trace_invariant step uses accepts hI).1

/-- A program that makes no call that fails while the invariant holds. -/
theorem watched_ok {F : Act S → Prop} {p : Fallible S ε α} (fails : FailsBy F False p)
    (uses : p.run.Uses O) (never : ∀ s w a, I s w → m.allows w s a → ¬ F a) (hI : I s w) :
    Watched m h p s w fun r s' w' => (∃ a, r = .ok a) ∧ I s' w' := by
  intro accepts
  obtain ⟨final, allowed⟩ := trace_invariant step uses accepts hI
  refine ⟨?_, final⟩
  rcases hr : (p.run.exec h s).1 with e | a
  · have path := path_acts h p.run s
    rw [hr] at path
    obtain ⟨a, ha, failed⟩ := ((fails _ _ path).1 ⟨e, rfl⟩).resolve_left id
    rw [← map_trace] at ha
    obtain ⟨x, hx, rfl⟩ := List.mem_map.1 ha
    obtain ⟨w', hI', allows⟩ := allowed x hx
    exact absurd failed (never x.1 w' x.2 hI' allows)
  · exact ⟨a, rfl⟩

end Invariant

/-- A program whose operations do not move the monitor. -/
theorem Ends.watched {p : Fallible S ε α} {O : S.Op → Prop} {E : Except ε α → σ → Prop}
    (ends : Ends h p s E) (uses : p.run.Uses O)
    (still : ∀ w s a, O a.op → m.next w s a = w) :
    Watched m h p s w fun r s' w' => w' = w ∧ E r s' := by
  refine fun _ => ⟨?_, ends⟩
  exact m.after_eq_self fun x hx w => still w x.1 x.2 (uses.trace h s x hx)

end Fallible

end Effect
