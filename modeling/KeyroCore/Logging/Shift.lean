import Mathlib.Data.List.Count
import KeyroCore.Effect.Monitor
import KeyroCore.Logging.Rotation

/-!
# The moves of a rotation overwrite nothing

Each rename of a rotation finds its target free, also when calls fail.  Without errors the moves
give every log file the next index and lose the file of the last index alone.
-/

open Effect Program Fallible

namespace KeyroCore

/-! ## Renames -/

/-- A rename does not replace a file. -/
def FreeTarget (x : (LogDir × ℕ) × Act FsCalls) : Prop :=
  ∀ source target, x.2.op = .rename source target → target ∉ x.1.1.disk.names

section Safe

variable {inputs : ℕ → FsInput}

/-- Every rename of a run finds its target free. -/
def RenamesSafely {α : Type} (inputs : ℕ → FsInput) (p : Fs α) (s : LogDir × ℕ) : Prop :=
  ∀ x ∈ p.run.trace (timed filesystem inputs) s, FreeTarget x

theorem renamesSafely_pure {α : Type} (a : α) (s : LogDir × ℕ) :
    RenamesSafely inputs (pure a) s := List.forall_mem_nil _

theorem RenamesSafely.bind {α β : Type} {p : Fs α} {f : α → Fs β} {s : LogDir × ℕ}
    {R : Except IoError α → LogDir × ℕ → Prop} (first : RenamesSafely inputs p s)
    (ends : Ends (timed filesystem inputs) p s R)
    (rest : ∀ a s', R (.ok a) s' → RenamesSafely inputs (f a) s') :
    RenamesSafely inputs (p >>= f) s := by
  unfold RenamesSafely
  rw [run_bind, trace_bind, List.forall_mem_append]
  refine ⟨first, ?_⟩
  unfold Ends at ends
  cases result : (p.run.exec (timed filesystem inputs) s).1 with
  | error error => exact List.forall_mem_nil _
  | ok a =>
    rw [result] at ends
    exact rest a _ ends

theorem renamesSafely_ask {o : FsOp} (other : ∀ source target, o ≠ .rename source target)
    (s : LogDir × ℕ) : RenamesSafely inputs (Fs.ask o) s := by
  intro x mem source target same
  obtain rfl := List.mem_singleton.1 mem
  exact absurd same (other source target)

theorem renamesSafely_removeIfExists (name : FileName) (s : LogDir × ℕ) :
    RenamesSafely inputs (removeIfExists name) s := by
  unfold removeIfExists
  have looks : RenamesSafely inputs (Fs.ask (.exists name)) s :=
    renamesSafely_ask (o := .exists name) (fun _ _ => nofun) s
  refine looks.bind (R := fun _ _ => True) trivial fun known s' _ => ?_
  split
  · intro x mem source target same
    obtain rfl := List.mem_singleton.1 mem
    cases same
  · exact renamesSafely_pure _ _

theorem renamesSafely_renameIfExists {source target : FileName} {s : LogDir}
    (free : target ∉ s.disk.names) (n : ℕ) :
    RenamesSafely inputs (renameIfExists source target) (s, n) := by
  unfold renameIfExists
  have looks : RenamesSafely inputs (Fs.ask (.exists source)) (s, n) :=
    renamesSafely_ask (o := .exists source) (fun _ _ => nofun) _
  refine looks.bind (R := fun _ s' => s'.1 = s) rfl fun known s' unchanged => ?_
  split
  · intro x mem source' target' same
    obtain rfl := List.mem_singleton.1 mem
    cases same
    show target ∉ s'.1.disk.names
    rw [unchanged]
    exact free
  · exact renamesSafely_pure _ _

/-- By induction on the index: each rename frees the name that the next one gives. -/
theorem renamesSafely_shiftLogs (visible : Visible inputs) (index : ℕ) {s : LogDir}
    (free : rotatedLog index ∉ s.disk.names) (n : ℕ) :
    RenamesSafely inputs (shiftLogs index) (s, n) := by
  induction index generalizing s n with
  | zero => exact renamesSafely_pure _ _
  | succ index ih =>
    refine (renamesSafely_renameIfExists free n).bind (ends_renameIfExists visible free n)
      fun _ s' moved => ?_
    apply ih
    rw [moved rfl]
    exact free_moving s index

theorem renamesSafely_moveLogs (visible : Visible inputs) (m : ℕ) (s : LogDir) (n : ℕ) :
    RenamesSafely inputs (moveLogs m) (s, n) := by
  unfold moveLogs
  refine (renamesSafely_removeIfExists _ _).bind (ends_removeIfExists visible _ s n)
    fun _ s₁ removed => ?_
  have free : rotatedLog (m - 1) ∉ s₁.1.disk.names := by
    rw [removed rfl]
    exact free_without s _
  refine (renamesSafely_shiftLogs visible _ free s₁.2).bind (ends_shiftLogs visible _ free s₁.2)
    fun _ s₂ shifted => ?_
  apply renamesSafely_renameIfExists
  rw [shifted rfl]
  exact free_shifting free

end Safe

/-! ## Where the files go -/

/-- The name that the moves give to a file, if it keeps one; `m` is the number of rotated files. -/
inductive MovesTo (m : ℕ) : FileName → Option FileName → Prop
  | oldest : MovesTo m (rotatedLog (m - 1)) none
  | shifted {i : ℕ} (below : i + 1 < m) : MovesTo m (rotatedLog i) (some (rotatedLog (i + 1)))
  | current : MovesTo m currentLog (some (rotatedLog 0))
  | beyond {i : ℕ} (kept : m ≤ i) : MovesTo m (rotatedLog i) (some (rotatedLog i))
  | other {name : FileName} (notCurrent : name ≠ currentLog) (notRotated : ∀ i, name ≠ rotatedLog i) :
      MovesTo m name (some name)

/-- The first log is newer than the second one. -/
inductive Newer : FileName → FileName → Prop
  | current (i : ℕ) : Newer currentLog (rotatedLog i)
  | rotated {i j : ℕ} (lt : i < j) : Newer (rotatedLog i) (rotatedLog j)

theorem movesTo_rotation {m : ℕ} (pos : 0 < m) (name : FileName) :
    MovesTo m name (rotation m name) := by
  by_cases rotated : ∃ i, name = rotatedLog i
  · obtain ⟨i, rfl⟩ := rotated
    rw [rotation_rotatedLog pos]
    split_ifs with below last
    · exact .shifted below
    · obtain rfl : i = m - 1 := by omega
      exact .oldest
    · exact .beyond (by omega)
  · have notRotated : ∀ i, name ≠ rotatedLog i := fun i same => rotated ⟨i, same⟩
    by_cases current : name = currentLog
    · rw [current, rotation_currentLog]
      exact .current
    · rw [rotation_other notRotated current]
      exact .other current notRotated

/-- A name moves to one place. -/
theorem MovesTo.eq_rotation {m : ℕ} (pos : 0 < m) {name : FileName} {name' : Option FileName}
    (h : MovesTo m name name') : name' = rotation m name := by
  cases h with
  | oldest => rw [rotation_rotatedLog pos, if_neg (by omega), if_pos (by omega)]
  | shifted below => rw [rotation_rotatedLog pos, if_pos below]
  | current => rw [rotation_currentLog]
  | beyond kept => rw [rotation_rotatedLog pos, if_neg (by omega), if_neg (by omega)]
  | other notCurrent notRotated => rw [rotation_other notRotated notCurrent]

/-- The moves keep the order of the logs. -/
theorem MovesTo.newer {m : ℕ} (pos : 0 < m) {a b a' b' : FileName} (ha : MovesTo m a (some a'))
    (hb : MovesTo m b (some b')) (newer : Newer a b) : Newer a' b' := by
  have ha := ha.eq_rotation pos
  have hb := hb.eq_rotation pos
  cases newer with
  | current i =>
    rw [rotation_currentLog, Option.some.injEq] at ha
    rw [rotation_rotatedLog pos] at hb
    split_ifs at hb with below last
    · rw [ha, Option.some.inj hb]
      exact .rotated (by omega)
    · rw [ha, Option.some.inj hb]
      exact .rotated (by omega)
  | @rotated i j lt =>
    rw [rotation_rotatedLog pos] at ha hb
    split_ifs at ha hb
    all_goals rw [Option.some.inj ha, Option.some.inj hb]
    all_goals exact .rotated (by omega)

/-- What the moves do to the directory. -/
structure Shifts (m : ℕ) (d d' : Disk) : Prop where
  files : d'.files.length = d.files.length
  moved : ∀ (i : ℕ) (f : Inode) (name : FileName), d.files[i]? = some f → f.name = some name →
    ∃ name', MovesTo m name name' ∧ d'.files[i]? = some { f with name := name' }
  unnamed : ∀ (i : ℕ) (f : Inode), d.files[i]? = some f → f.name = none → d'.files[i]? = some f
  lost : d'.names.length + (if rotatedLog (m - 1) ∈ d.names then 1 else 0) = d.names.length
  ordered : ∀ a b a' b', MovesTo m a (some a') → MovesTo m b (some b') → Newer a b → Newer a' b'

/-- The moves take one name away, that of the oldest log. -/
theorem rotation_eq_none_iff {m : ℕ} (pos : 0 < m) {name : FileName} :
    rotation m name = none ↔ name = rotatedLog (m - 1) := by
  constructor
  · intro gone
    have moves := movesTo_rotation pos name
    rw [gone] at moves
    cases moves
    rfl
  · rintro rfl
    exact (MovesTo.oldest.eq_rotation pos).symm

/-- A partial map that drops one element takes one element from a list that has it. -/
theorem length_filterMap_of_drops {α β : Type} [DecidableEq α] {l : List α} (nodup : l.Nodup)
    {f : α → Option β} {x : α} (drops : ∀ a, f a = none ↔ a = x) :
    (l.filterMap f).length + (if x ∈ l then 1 else 0) = l.length := by
  induction l with
  | nil => rfl
  | cons a l ih =>
    rw [List.nodup_cons] at nodup
    have rest := ih nodup.2
    rw [List.length_cons]
    by_cases same : a = x
    · rw [List.filterMap_cons_none ((drops a).2 same), if_pos (same ▸ List.mem_cons_self)]
      rw [if_neg (same ▸ nodup.1)] at rest
      omega
    · obtain ⟨b, kept⟩ := Option.ne_none_iff_exists'.1 (mt (drops a).1 same)
      rw [List.filterMap_cons_some kept, List.length_cons]
      have head : x ∈ a :: l ↔ x ∈ l := by
        rw [List.mem_cons, or_iff_right (Ne.symm same)]
      simp only [head]
      omega

theorem shifts_rotation {m : ℕ} (pos : 0 < m) (d : Disk) : Shifts m d (d.relabel (rotation m)) := by
  refine ⟨d.length_relabel _, fun i f name hf hn => ?_, fun i f hf hn => ?_, ?_,
    fun a b a' b' ha hb newer => ha.newer pos hb newer⟩
  · refine ⟨rotation m name, movesTo_rotation pos name, ?_⟩
    rw [Disk.getElem?_relabel, hf, Option.map_some, hn]
    rfl
  · rw [Disk.getElem?_relabel, hf, Option.map_some, hn, Option.bind_none, ← hn]
  · rw [Disk.names_relabel]
    exact length_filterMap_of_drops d.nodup_names fun name => rotation_eq_none_iff pos

/-- Without errors the moves of a rotation, which come before its clean-up, succeed, rename no file
onto another one, and shift the logs. -/
theorem rotation_shifts {retention : LogRetention} (two : 2 ≤ retention.maxFiles)
    {inputs : ℕ → FsInput} (noErrors : NoErrors inputs) (s : LogDir) (n : ℕ) :
    rotateLogs retention = (do
      moveLogs (retention.maxFiles - 1)
      cleanupLogs retention) ∧
    Ends (timed filesystem inputs) (moveLogs (retention.maxFiles - 1)) (s, n) (fun result s' =>
      result = .ok () ∧ s'.1.file = s.file ∧ Shifts (retention.maxFiles - 1) s.disk s'.1.disk) ∧
    ∀ x ∈ (moveLogs (retention.maxFiles - 1)).run.trace (timed filesystem inputs) (s, n),
      FreeTarget x := by
  refine ⟨?_, ?_, renamesSafely_moveLogs noErrors.visible _ s n⟩
  · unfold rotateLogs
    dsimp only
    rw [if_neg (by omega)]
  · have moved := ends_moveLogs noErrors.visible (retention.maxFiles - 1) s n
    refine ((noErrors.ok_moveLogs _ s n).and moved).mono fun result s' h => ?_
    refine ⟨h.1, ?_, ?_⟩
    · rw [h.2 h.1]
      rfl
    · rw [h.2 h.1]
      exact shifts_rotation (by omega) s.disk

/-- Three log files are kept; the directory has two rotated ones, an old one beyond them and a file
of another program. -/
def shiftedDirectory : LogDir where
  disk := ⟨[⟨some (rotatedLog 1), [1], 1⟩, ⟨some (rotatedLog 0), [2], 2⟩, ⟨some currentLog, [3], 3⟩,
    ⟨some (rotatedLog 4), [4], 0⟩, ⟨some (.text "studio.log"), [5], 5⟩], by decide⟩
  file := 2

/-- The oldest log goes, the others move by one. -/
theorem rotation_shifts_example :
    let moves := (moveLogs 2).run
    (moves.exec (timed filesystem undisturbed) (shiftedDirectory, 0)).2.1.disk.names =
        [rotatedLog 1, rotatedLog 0, rotatedLog 4, .text "studio.log"] ∧
      Shifts 2 shiftedDirectory.disk
        (moves.exec (timed filesystem undisturbed) (shiftedDirectory, 0)).2.1.disk :=
  have shifts := rotation_shifts (show 2 ≤ LogRetention.maxFiles ⟨4, 16, 3, 1000⟩ by decide)
    ⟨fun _ => rfl, fun _ => rfl⟩ shiftedDirectory 0
  ⟨by decide +kernel, shifts.2.1.2.2⟩

end KeyroCore
