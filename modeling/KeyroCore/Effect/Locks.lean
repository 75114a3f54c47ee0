import KeyroCore.Effect.Processes

/-!
# Processes that take locks

Locks are held by processes, and end with them.  A process takes one lock in its life, uses what
the lock protects while it holds it, and gives it up at most once.  Then a lock is held exactly by
the live process that took it and has not given it up, what it protects is used by its holder alone,
and uses by different processes do not interleave.

`Locking.Stable` is the rely-guarantee rule: what a process knows of the shared state holds on if
its own operations keep it and those of others, under other locks, do not touch it.
-/

namespace Effect

open Program

inductive Standing (D : Type) where
  | fresh
  | holding (lock : D)
  | spent

/-- What one operation of process `i` does to its standing and to the holders of the locks. -/
inductive Passes {D : Type} [DecidableEq D] (i : ℕ) :
    Standing D → (D → Option ℕ) → Standing D → (D → Option ℕ) → Prop where
  | keep (standing : Standing D) (holder : D → Option ℕ) : Passes i standing holder standing holder
  | take (lock : D) (holder : D → Option ℕ) (free : holder lock = none) :
      Passes i .fresh holder (.holding lock) (Function.update holder lock (some i))
  | give (lock : D) (holder : D → Option ℕ) :
      Passes i (.holding lock) holder .spent (Function.update holder lock none)

variable {S : Signature} {τ σ ι D : Type}

namespace Passes

variable [DecidableEq D] {i : ℕ} {st st' : Standing D} {holder holder' : D → Option ℕ}

/-- The process of the operation holds what its standing says. -/
theorem mine (passes : Passes i st holder st' holder')
    (own : ∀ d, holder d = some i ↔ st = .holding d) (d : D) :
    holder' d = some i ↔ st' = .holding d := by
  cases passes with
  | keep => exact own d
  | take lock _ free =>
    by_cases hd : d = lock
    · subst hd
      rw [Function.update_self]
      exact iff_of_true rfl rfl
    · rw [Function.update_of_ne hd, own d]
      simp [Ne.symm hd]
  | give lock _ =>
    by_cases hd : d = lock
    · subst hd
      rw [Function.update_self]
      simp
    · rw [Function.update_of_ne hd, own d]
      simp [Ne.symm hd]

/-- Others hold what they held. -/
theorem others (passes : Passes i st holder st' holder')
    (own : ∀ d, holder d = some i ↔ st = .holding d) {j : ℕ} (hj : j ≠ i) (d : D) :
    holder' d = some j ↔ holder d = some j := by
  cases passes with
  | keep => rfl
  | take lock _ free =>
    by_cases hd : d = lock
    · subst hd
      rw [Function.update_self, free]
      simp [Ne.symm hj]
    · rw [Function.update_of_ne hd]
  | give lock _ =>
    by_cases hd : d = lock
    · subst hd
      rw [Function.update_self, (own d).2 rfl]
      simp [Ne.symm hj]
    · rw [Function.update_of_ne hd]

theorem of_holding {d : D} (passes : Passes i (.holding d) holder st' holder') :
    st' = .holding d ∨ st' = .spent := by
  cases passes with
  | keep => exact .inl rfl
  | give => exact .inr rfl

theorem of_spent (passes : Passes i .spent holder st' holder') : st' = .spent := by
  cases passes with
  | keep => rfl

end Passes

/-- Process `i` with typestate `t` holds exactly the lock that its standing names. -/
def Own (standing : τ → Standing D) (holder : σ → D → Option ℕ) (i : ℕ) (t : τ) (s : σ) : Prop :=
  ∀ d, holder s d = some i ↔ standing t = .holding d

/-- The typestate keeps to the discipline, and the host answers as locks do. -/
structure Locking [DecidableEq D] (T : Typestate S τ) (h : ι → ℕ → Handler S σ) (exit : ℕ → σ → σ)
    (standing : τ → Standing D) (holder : σ → D → Option ℕ) (Uses : S.Op → D → Prop) : Prop where
  first : standing T.first = .fresh
  passes : ∀ input i o s t, T.allows t o → Own standing holder i t s →
    Passes i (standing t) (holder s) (standing (T.next t ⟨o, (h input i o s).1⟩))
      (holder (h input i o s).2)
  exits : ∀ i s d, holder (exit i s) d = if holder s d = some i then none else holder s d
  uses : ∀ t o d, T.allows t o → Uses o d → standing t = .holding d

namespace Locking

variable {α Job : Type} {T : Typestate S τ} {h : ι → ℕ → Handler S σ} {exit : ℕ → σ → σ}
  {standing : τ → Standing D} {holder : σ → D → Option ℕ} {Uses : S.Op → D → Prop}
  {main : Job → Program S α} {w : World S α σ} {s : σ}

/-- A live process has taken the lock and has not given it up. -/
def Holds (T : Typestate S τ) (standing : τ → Standing D) (w : World S α σ) (i : ℕ) (d : D) :
    Prop :=
  ∃ r, w.processes i = .live r ∧ standing (T.after r.past) = .holding d

/-- Locks are held exactly by the processes that took them. -/
def Sound (T : Typestate S τ) (standing : τ → Standing D) (holder : σ → D → Option ℕ)
    (w : World S α σ) : Prop :=
  ∀ i d, holder w.shared d = some i ↔ Holds T standing w i d

theorem holds_become_self {i : ℕ} {d : D} {past : List (Act S)} {rest : Program S α} :
    Holds T standing (w.become i (.live ⟨past, rest⟩) s) i d ↔
      standing (T.after past) = .holding d := by
  constructor
  · rintro ⟨r, live, hd⟩
    rw [World.processes_become_self] at live
    cases live
    exact hd
  · exact fun hd => ⟨_, World.processes_become_self .., hd⟩

theorem holds_become_of_ne {i j : ℕ} (hj : j ≠ i) {d : D} {p : Process S α} :
    Holds T standing (w.become i p s) j d ↔ Holds T standing w j d := by
  unfold Holds
  rw [World.processes_become_of_ne _ hj]

theorem not_holds_gone {i : ℕ} {d : D} : ¬ Holds T standing (w.become i .gone s) i d := by
  rintro ⟨r, live, -⟩
  rw [World.processes_become_self] at live
  cases live

theorem holds_live {i : ℕ} {d : D} {r : Running S α} (live : w.processes i = .live r) :
    Holds T standing w i d ↔ standing (T.after r.past) = .holding d := by
  constructor
  · rintro ⟨r', live', hd⟩
    rw [live] at live'
    cases live'
    exact hd
  · exact fun hd => ⟨r, live, hd⟩

theorem not_holds_unborn {i : ℕ} {d : D} (unborn : w.processes i = .unborn) :
    ¬ Holds T standing w i d := by
  rintro ⟨r, live, -⟩
  rw [unborn] at live
  cases live

theorem Sound.own (sound : Sound T standing holder w) {i : ℕ} {r : Running S α}
    (live : w.processes i = .live r) : Own standing holder i (T.after r.past) w.shared :=
  fun d => (sound i d).trans (holds_live live)

theorem sound_begin (free : ∀ d, holder s d = none) :
    Sound T standing holder (World.begin s : World S α σ) := by
  intro i d
  show holder s d = some i ↔ _
  rw [free d]
  exact iff_of_false (by simp) (not_holds_unborn rfl)

variable [DecidableEq D] (locking : Locking T h exit standing holder Uses)

include locking

theorem Sound.start (sound : Sound T standing holder w) {i : ℕ} (unborn : w.processes i = .unborn)
    (job : Job) : Sound T standing holder (w.become i (.live ⟨[], main job⟩) w.shared) := by
  intro j d
  rw [World.shared_become, sound j d]
  by_cases hj : j = i
  · subst hj
    rw [holds_become_self]
    have fresh : standing (T.after []) = .fresh := locking.first
    rw [fresh]
    exact iff_of_false (not_holds_unborn unborn) (by simp)
  · rw [holds_become_of_ne hj]

theorem Sound.go (sound : Sound T standing holder w) {i : ℕ} (input : ι) {past : List (Act S)}
    {o : S.Op} {next : S.Ans o → Program S α}
    (live : w.processes i = .live ⟨past, .perform o next⟩) (allowed : T.allows (T.after past) o) :
    Sound T standing holder (w.become i
      (.live ⟨past ++ [⟨o, (h input i o w.shared).1⟩], next (h input i o w.shared).1⟩)
      (h input i o w.shared).2) := by
  intro j d
  have passes := locking.passes input i o w.shared (T.after past) allowed (sound.own live)
  rw [World.shared_become]
  by_cases hj : j = i
  · subst hj
    rw [holds_become_self, Typestate.after_concat]
    exact passes.mine (sound.own live) d
  · rw [holds_become_of_ne hj, ← sound j d]
    exact passes.others (sound.own live) hj d

theorem Sound.stop (sound : Sound T standing holder w) (i : ℕ) :
    Sound T standing holder (w.become i .gone (exit i w.shared)) := by
  intro j d
  rw [World.shared_become, locking.exits]
  by_cases hj : j = i
  · subst hj
    refine iff_of_false (fun held => ?_) not_holds_gone
    split_ifs at held with hd
    exact hd held
  · rw [holds_become_of_ne hj, ← sound j d]
    split_ifs with hd
    · rw [hd]
      simp [Ne.symm hj]
    · rfl

omit locking

variable (T h exit standing holder Uses) in
/-- The processes keep to the discipline, and the locks are theirs. -/
structure Orderly (w : World S α σ) : Prop where
  locking : Locking T h exit standing holder Uses
  conforms : w.Conforms T
  sound : Sound T standing holder w

theorem orderly_begin (locking : Locking T h exit standing holder Uses)
    (free : ∀ d, holder s d = none) :
    Orderly T h exit standing holder Uses (World.begin s : World S α σ) :=
  ⟨locking, World.conforms_begin s, sound_begin free⟩

theorem Orderly.step (obeys : ∀ job, (main job).Obeys T T.first fun _ _ => True)
    (orderly : Orderly T h exit standing holder Uses w) (e : Event Job ι) :
    Orderly T h exit standing holder Uses (w.step main h exit e) := by
  obtain ⟨locking, conforms, sound⟩ := orderly
  refine ⟨locking, conforms.step obeys e, ?_⟩
  rcases World.step_cases main h exit w e with
    ⟨eq, -⟩ | ⟨i, job, unborn, eq, -⟩ | ⟨i, input, past, o, next, live, eq, -⟩ | ⟨i, r, live, eq, -⟩
  · rw [eq]
    exact sound
  · rw [eq]
    exact sound.start locking unborn job
  · rw [eq]
    exact sound.go locking input live (conforms i _ live).1
  · rw [eq]
    exact sound.stop locking i

/-- Locks are held exactly by the processes that took them, in every run. -/
theorem Orderly.run (obeys : ∀ job, (main job).Obeys T T.first fun _ _ => True)
    (orderly : Orderly T h exit standing holder Uses w) (events : List (Event Job ι)) :
    Orderly T h exit standing holder Uses (w.run main h exit events) :=
  World.run_induction orderly (fun _ e hw => hw.step obeys e) events

/-! ## What locks protect -/

section Uses

variable (orderly : Orderly T h exit standing holder Uses w)

include orderly

/-- The process of an operation that uses what a lock protects holds the lock. -/
theorem Orderly.holds {e : Event Job ι} {x : Deed S α σ} (done : w.deed? h e = some x) {d : D}
    (uses : Uses x.act.op d) : Holds T standing w x.process d := by
  obtain ⟨-, past, next, input, live, -⟩ := World.deed_cases done
  exact ⟨_, live, orderly.locking.uses _ _ _ (orderly.conforms _ _ live).1 uses⟩

/-- What the standing of a process becomes by one event. -/
theorem Orderly.standing_step (e : Event Job ι) {i : ℕ} {r : Running S α}
    (live : w.processes i = .live r) :
    (w.step main h exit e).processes i = .gone ∨
    ∃ r', (w.step main h exit e).processes i = .live r' ∧
      ∃ holder', Passes i (standing (T.after r.past)) (holder w.shared)
        (standing (T.after r'.past)) holder' := by
  rcases World.step_cases main h exit w e with
    ⟨eq, -⟩ | ⟨j, job, unborn, eq, -⟩ | ⟨j, input, past, o, next, live', eq, -⟩ |
    ⟨j, r', live', eq, -⟩
  · rw [eq]
    exact .inr ⟨r, live, _, .keep _ _⟩
  · have other : i ≠ j := by
      rintro rfl
      rw [unborn] at live
      cases live
    rw [eq, World.processes_become_of_ne _ other]
    exact .inr ⟨r, live, _, .keep _ _⟩
  · rw [eq]
    by_cases other : i = j
    · subst other
      rw [live'] at live
      cases live
      refine .inr ⟨_, World.processes_become_self .., holder (h input i o w.shared).2, ?_⟩
      rw [Typestate.after_concat]
      exact orderly.locking.passes input i o w.shared _ (orderly.conforms i _ live').1
        (orderly.sound.own live')
    · rw [World.processes_become_of_ne _ other]
      exact .inr ⟨r, live, _, .keep _ _⟩
  · rw [eq]
    by_cases other : i = j
    · subst other
      exact .inl (World.processes_become_self ..)
    · rw [World.processes_become_of_ne _ other]
      exact .inr ⟨r, live, _, .keep _ _⟩

end Uses

/-- A process that has given its lock up, or is gone. -/
def Left (T : Typestate S τ) (standing : τ → Standing D) (w : World S α σ) (i : ℕ) : Prop :=
  w.processes i = .gone ∨ ∃ r, w.processes i = .live r ∧ standing (T.after r.past) = .spent

omit [DecidableEq D] in
theorem Left.not_holds {i : ℕ} {d : D} (left : Left T standing w i) : ¬ Holds T standing w i d := by
  rintro ⟨r, live, hd⟩
  rcases left with gone | ⟨r', live', spent⟩
  · rw [gone] at live
    cases live
  · rw [live] at live'
    cases live'
    rw [hd] at spent
    cases spent

theorem Left.step (orderly : Orderly T h exit standing holder Uses w) (e : Event Job ι) {i : ℕ}
    (left : Left T standing w i) : Left T standing (w.step main h exit e) i := by
  rcases left with gone | ⟨r, live, spent⟩
  · exact .inl (World.step_gone gone e)
  · rcases orderly.standing_step e live with gone | ⟨r', live', _, passes⟩
    · exact .inl gone
    · rw [spent] at passes
      exact .inr ⟨r', live', passes.of_spent⟩

theorem Holds.step (orderly : Orderly T h exit standing holder Uses w) (e : Event Job ι) {i : ℕ}
    {d : D} (holds : Holds T standing w i d) :
    Holds T standing (w.step main h exit e) i d ∨ Left T standing (w.step main h exit e) i := by
  obtain ⟨r, live, hd⟩ := holds
  rcases orderly.standing_step e live with gone | ⟨r', live', _, passes⟩
  · exact .inr (.inl gone)
  · rw [hd] at passes
    rcases passes.of_holding with still | spent
    · exact .inl ⟨r', live', still⟩
    · exact .inr (.inr ⟨r', live', spent⟩)

section Order

variable (obeys : ∀ job, (main job).Obeys T T.first fun _ _ => True)
  (orderly : Orderly T h exit standing holder Uses w)

include obeys orderly

theorem Left.run {i : ℕ} (left : Left T standing w i) (events : List (Event Job ι)) :
    Left T standing (w.run main h exit events) i := by
  refine (World.run_induction (P := fun w => Orderly T h exit standing holder Uses w ∧
    Left T standing w i) ⟨orderly, left⟩ (fun w e hw => ?_) events).2
  exact ⟨hw.1.step obeys e, hw.2.step hw.1 e⟩

theorem Holds.run {i : ℕ} {d : D} (holds : Holds T standing w i d) (events : List (Event Job ι)) :
    Holds T standing (w.run main h exit events) i d ∨
      Left T standing (w.run main h exit events) i := by
  refine (World.run_induction (P := fun w => Orderly T h exit standing holder Uses w ∧
    (Holds T standing w i d ∨ Left T standing w i)) ⟨orderly, .inl holds⟩ (fun w e hw => ?_)
    events).2
  refine ⟨hw.1.step obeys e, ?_⟩
  rcases hw.2 with holds | left
  · exact holds.step hw.1 e
  · exact .inr (left.step hw.1 e)

/-- Uses by different processes do not interleave. -/
theorem Orderly.not_interleaved {events : List (Event Job ι)} {x y z : Deed S α σ} {d : D}
    (order : [x, y, z].Sublist (w.deeds main h exit events))
    (hx : Uses x.act.op d) (hy : Uses y.act.op d) (hz : Uses z.act.op d)
    (same : x.process = z.process) : y.process = x.process := by
  obtain ⟨es₁, e₁, after₁, -, done₁, order⟩ := World.deeds_split order
  obtain ⟨es₂, e₂, after₂, -, done₂, order⟩ := World.deeds_split order
  obtain ⟨es₃, e₃, after₃, -, done₃, -⟩ := World.deeds_split order
  have orderly₁ := orderly.run obeys es₁
  have orderly₂ := orderly₁.run obeys (e₁ :: es₂)
  have orderly₃ := orderly₂.run obeys (e₂ :: es₃)
  have holds₃ := orderly₃.holds done₃ hz
  rw [← same] at holds₃
  have still :
      Holds T standing ((w.run main h exit es₁).run main h exit (e₁ :: es₂)) x.process d := by
    rcases (orderly₁.holds done₁ hx).run obeys orderly₁ (e₁ :: es₂) with holds | left
    · exact holds
    · exact absurd holds₃ (left.run obeys orderly₂ (e₂ :: es₃)).not_holds
  have mine := (orderly₂.sound x.process d).2 still
  rw [(orderly₂.sound y.process d).2 (orderly₂.holds done₂ hy)] at mine
  exact Option.some.inj mine

end Order

/-! ## What processes know -/

/-- What a process knows of the shared state from its typestate, whatever the others do. -/
structure Stable (T : Typestate S τ) (h : ι → ℕ → Handler S σ) (exit : ℕ → σ → σ)
    (standing : τ → Standing D) (holder : σ → D → Option ℕ) (K : ℕ → τ → σ → Prop) : Prop where
  first : ∀ i s, K i T.first s
  own : ∀ input i o s t, T.allows t o → Own standing holder i t s → K i t s →
    K i (T.next t ⟨o, (h input i o s).1⟩) (h input i o s).2
  others : ∀ input i o s t j u, i ≠ j → T.allows t o → Own standing holder i t s →
    Own standing holder j u s → K j u s → K j u (h input i o s).2
  exits : ∀ i s j u, i ≠ j → Own standing holder j u s → K j u s → K j u (exit i s)

/-- Every live process knows what its typestate says. -/
def Knows (T : Typestate S τ) (K : ℕ → τ → σ → Prop) (w : World S α σ) : Prop :=
  ∀ i r, w.processes i = .live r → K i (T.after r.past) w.shared

variable {K : ℕ → τ → σ → Prop}

theorem Stable.step (stable : Stable T h exit standing holder K)
    (orderly : Orderly T h exit standing holder Uses w) (knows : Knows T K w) (e : Event Job ι) :
    Knows T K (w.step main h exit e) := by
  rcases World.step_cases main h exit w e with
    ⟨eq, -⟩ | ⟨i, job, unborn, eq, -⟩ | ⟨i, input, past, o, next, live, eq, -⟩ | ⟨i, r, live, eq, -⟩
  · rw [eq]
    exact knows
  · rw [eq]
    intro j r hr
    rcases World.become_cases hr with ⟨-, born⟩ | ⟨-, hr⟩
    · cases born
      exact stable.first j _
    · exact knows j r hr
  · rw [eq]
    have allowed := (orderly.conforms i _ live).1
    have own := orderly.sound.own live
    intro j r hr
    rcases World.become_cases hr with ⟨rfl, moved⟩ | ⟨other, hr⟩
    · cases moved
      rw [Typestate.after_concat]
      exact stable.own input j o w.shared _ allowed own (knows j _ live)
    · exact stable.others input i o w.shared _ j _ other.symm allowed own (orderly.sound.own hr)
        (knows j r hr)
  · rw [eq]
    intro j r' hr
    rcases World.become_cases hr with ⟨-, ended⟩ | ⟨other, hr⟩
    · cases ended
    · exact stable.exits i w.shared j _ other.symm (orderly.sound.own hr) (knows j r' hr)

theorem Stable.run (stable : Stable T h exit standing holder K)
    (obeys : ∀ job, (main job).Obeys T T.first fun _ _ => True)
    (orderly : Orderly T h exit standing holder Uses w) (knows : Knows T K w)
    (events : List (Event Job ι)) : Knows T K (w.run main h exit events) :=
  (World.run_induction (P := fun w => Orderly T h exit standing holder Uses w ∧ Knows T K w)
    ⟨orderly, knows⟩ (fun _ e hw => ⟨hw.1.step obeys e, stable.step hw.1 hw.2 e⟩) events).2

end Locking

end Effect
