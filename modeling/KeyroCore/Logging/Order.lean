import KeyroCore.Logging.Handle
import Mathlib.Data.List.Nodup

/-!
# The order of the log

Whatever fails and however the clock runs, the log files hold what was written in order.  Read from
the oldest rotated file to the current log, they are the files that the writer found and those that
it has opened since, in the order of their opening, with some files left out.
-/

open Effect Program Fallible

namespace KeyroCore

/-! ## Ages -/

/-- The current log, and then the rotated ones. -/
def agedLog : ℕ → FileName
  | 0 => currentLog
  | age + 1 => rotatedLog age

theorem agedLog_inj {a b : ℕ} : agedLog a = agedLog b ↔ a = b := by
  cases a with
  | zero =>
    cases b with
    | zero => exact iff_of_true rfl rfl
    | succ b => exact iff_of_false (rotatedLog_ne_currentLog b).symm (by omega)
  | succ a =>
    cases b with
    | zero => exact iff_of_false (rotatedLog_ne_currentLog a) (by omega)
    | succ b => simp [agedLog, rotatedLog_inj]

namespace Disk

variable {d d' : Disk}

/-- The log files below an age, the oldest first. -/
def reading (d : Disk) : ℕ → List ℕ
  | 0 => []
  | age + 1 => (d.find (agedLog age)).toList ++ d.reading age

theorem reading_congr {n : ℕ} (same : ∀ age < n, d'.find (agedLog age) = d.find (agedLog age)) :
    d'.reading n = d.reading n := by
  induction n with
  | zero => rfl
  | succ n ih =>
    have rest : d'.reading n = d.reading n := ih fun age lt => same age (by omega)
    rw [reading, reading, rest, same n (by omega)]

/-- Above an age the files are the same. -/
theorem reading_sublist_of_le {k n : ℕ} (le : k ≤ n)
    (below : (d'.reading k).Sublist (d.reading k))
    (same : ∀ age, k ≤ age → d'.find (agedLog age) = d.find (agedLog age)) :
    (d'.reading n).Sublist (d.reading n) := by
  induction n, le using Nat.le_induction with
  | base => exact below
  | succ n le ih =>
    rw [reading, reading, same n le]
    exact ih.append_left _

theorem mem_reading {i n : ℕ} : i ∈ d.reading n ↔ ∃ age < n, d.find (agedLog age) = some i := by
  induction n with
  | zero => simp [reading]
  | succ n ih =>
    rw [reading, List.mem_append, Option.mem_toList, ih]
    constructor
    · rintro (found | ⟨age, lt, found⟩)
      · exact ⟨n, by omega, found⟩
      · exact ⟨age, by omega, found⟩
    · rintro ⟨age, lt, found⟩
      by_cases eq : age = n
      · exact .inl (eq ▸ found)
      · exact .inr ⟨age, by omega, found⟩

/-- A file has one age. -/
theorem age_unique {a b i : ℕ} (ha : d.find (agedLog a) = some i)
    (hb : d.find (agedLog b) = some i) : a = b := by
  obtain ⟨f, hf, named⟩ := find_eq_some_iff.1 ha
  obtain ⟨g, hg, named'⟩ := find_eq_some_iff.1 hb
  obtain rfl : f = g := Option.some.inj (hf.symm.trans hg)
  exact agedLog_inj.1 (Option.some.inj (named.symm.trans named'))

theorem nodup_reading (d : Disk) (n : ℕ) : (d.reading n).Nodup := by
  induction n with
  | zero => exact List.nodup_nil
  | succ n ih =>
    rw [reading]
    cases found : d.find (agedLog n) with
    | none => exact ih
    | some i =>
      refine List.nodup_cons.2 ⟨fun mem => ?_, ih⟩
      obtain ⟨age, lt, found'⟩ := mem_reading.1 mem
      have same := age_unique found found'
      omega

theorem reading_unlink (d : Disk) (gone : List FileName) (n : ℕ) :
    ((d.unlink gone).reading n).Sublist (d.reading n) := by
  induction n with
  | zero => exact .refl _
  | succ n ih =>
    rw [reading, reading, find_unlink]
    split_ifs
    · exact ih.trans (List.sublist_append_right _ _)
    · exact ih.append_left _

/-- A log that grows older by one passes no other; one that has this age is left out. -/
theorem reading_rename (d : Disk) (age n : ℕ) :
    ((d.rename (agedLog age) (agedLog (age + 1))).reading n).Sublist (d.reading n) := by
  set d' := d.rename (agedLog age) (agedLog (age + 1)) with hd'
  have left : d'.find (agedLog age) = none := by
    refine find_relabel_none fun name => ?_
    rw [moving_apply]
    split_ifs with source target
    · simp [agedLog_inj]
    · simp
    · simpa using source
  have older : d'.find (agedLog (age + 1)) = d.find (agedLog age) := by
    apply find_relabel
    rw [moving_apply, if_pos rfl]
  have other {a : ℕ} (h : a ≠ age) (h' : a ≠ age + 1) :
      d'.find (agedLog a) = d.find (agedLog a) := by
    apply find_relabel
    rw [moving_apply, if_neg (by simpa [agedLog_inj]), if_neg (by simpa [agedLog_inj])]
  have low {k : ℕ} (le : k ≤ age) : d'.reading k = d.reading k :=
    reading_congr fun a lt => other (by omega) (by omega)
  have next : (d'.reading (age + 1)).Sublist (d.reading (age + 1)) := by
    rw [reading, reading, left, low (Nat.le_refl _)]
    exact List.sublist_append_right _ _
  by_cases le : n ≤ age
  · rw [low le]
  · by_cases eq : n = age + 1
    · rw [eq]
      exact next
    · refine reading_sublist_of_le (k := age + 2) (by omega) ?_ fun a ha =>
        other (by omega) (by omega)
      rw [reading, reading, reading, reading, older, left, low (Nat.le_refl _)]
      exact List.sublist_append_right _ _

theorem reading_create {stamp : Time} (absent : d.find currentLog = none) {n : ℕ} (pos : 0 < n) :
    (d.create currentLog stamp absent).reading n = d.reading n ++ [d.files.length] := by
  have found (age : ℕ) : (d.create currentLog stamp absent).find (agedLog age) =
      if age = 0 then some d.files.length else d.find (agedLog age) := by
    rw [find_create]
    congr 1
    exact propext (agedLog_inj (b := 0))
  induction n, pos using Nat.le_induction with
  | base =>
    rw [reading, reading, reading, reading, found, if_pos rfl]
    show _ = (d.find currentLog).toList ++ [] ++ _
    rw [absent]
    rfl
  | succ n pos ih =>
    rw [reading, reading, ih, found, if_neg (by omega), List.append_assoc]

end Disk

/-! ## A run of the writer -/

/-- The files that were created after those of `d`. -/
def Disk.created (d d' : Disk) : List ℕ :=
  List.range' d.files.length (d'.files.length - d.files.length)

/-- The bytes `bytes` were written since the writer started at `s₀`. -/
structure LogDir.Since (s₀ s : LogDir) (bytes : List UInt8) : Prop where
  length_le : s₀.disk.files.length ≤ s.disk.files.length
  kept : ∀ n, 0 < n →
    (s.disk.reading n).Sublist (s₀.disk.reading n ++ s₀.disk.created s.disk)
  current : ∀ i, s.disk.find currentLog = some i → i = s.file
  /-- The open file is the last one that was created, or the one that the writer started with. -/
  last : ∃ before, s₀.file :: s₀.disk.created s.disk = before ++ [s.file]
  content : (s₀.file :: s₀.disk.created s.disk).flatMap s.disk.content =
    s₀.disk.content s₀.file ++ bytes
  untouched : ∀ i < s₀.disk.files.length, i ≠ s₀.file → s.disk.content i = s₀.disk.content i

section Since

variable {s₀ s : LogDir} {bytes : List UInt8}

theorem Disk.created_self (d : Disk) : d.created d = [] := by
  rw [Disk.created, Nat.sub_self, List.range'_zero]

theorem Disk.created_congr {d d₁ d₂ : Disk} (same : d₁.files.length = d₂.files.length) :
    d.created d₁ = d.created d₂ := by
  rw [Disk.created, Disk.created, same]

theorem Disk.created_succ {d d₁ d₂ : Disk} (le : d.files.length ≤ d₁.files.length)
    (more : d₂.files.length = d₁.files.length + 1) :
    d.created d₂ = d.created d₁ ++ [d₁.files.length] := by
  have count : d₂.files.length - d.files.length = (d₁.files.length - d.files.length) + 1 := by omega
  have place : d.files.length + (d₁.files.length - d.files.length) = d₁.files.length := by omega
  rw [Disk.created, Disk.created, count, List.range'_concat, Nat.one_mul, place]

theorem Disk.mem_created {d d' : Disk} {i : ℕ} (mem : i ∈ d.created d') :
    d.files.length ≤ i ∧ i < d'.files.length := by
  rw [Disk.created, List.mem_range'_1] at mem
  omega

theorem LogDir.Attached.since (attached : s.Attached) : s.Since s [] where
  length_le := Nat.le_refl _
  kept := fun n _ => by simp [Disk.created_self]
  current := fun i found => Option.some.inj (found.symm.trans attached)
  last := ⟨[], by rw [Disk.created_self, List.nil_append]⟩
  content := by simp [Disk.created_self]
  untouched := fun _ _ _ => rfl

theorem Disk.nodup_created {d : Disk} {i : ℕ} (old : i < d.files.length) (d' : Disk) :
    (i :: d.created d').Nodup := by
  rw [List.nodup_cons]
  refine ⟨fun mem => ?_, List.nodup_range'⟩
  have bounds := Disk.mem_created mem
  omega

namespace LogDir.Since

/-- Names change, and the open file may grow. -/
theorem steady (since : s₀.Since s bytes) (opened : s₀.file < s₀.disk.files.length) {s' : LogDir}
    {more : List UInt8} (file : s'.file = s.file)
    (length : s'.disk.files.length = s.disk.files.length)
    (reading : ∀ n, (s'.disk.reading n).Sublist (s.disk.reading n))
    (current : ∀ i, s'.disk.find currentLog = some i → s.disk.find currentLog = some i)
    (content : ∀ i, s'.disk.content i = s.disk.content i ++ if s.file = i then more else []) :
    s₀.Since s' (bytes ++ more) := by
  have created : s₀.disk.created s'.disk = s₀.disk.created s.disk := Disk.created_congr length
  obtain ⟨before, split⟩ := since.last
  have apart : s.file ∉ before := by
    have nodup := Disk.nodup_created opened s.disk
    rw [split] at nodup
    exact fun mem => (List.nodup_append.1 nodup).2.2 _ mem _ (List.mem_singleton_self _) rfl
  constructor
  · rw [length]
    exact since.length_le
  · intro n pos
    rw [created]
    exact (reading n).trans (since.kept n pos)
  · intro i found
    rw [file]
    exact since.current i (current i found)
  · rw [created, file]
    exact since.last
  · have same : before.flatMap s'.disk.content = before.flatMap s.disk.content := by
      refine List.flatMap_congr fun i mem => ?_
      have closed : s.file ≠ i := fun eq => apart (by rwa [eq])
      rw [content, if_neg closed, List.append_nil]
    have grown : s'.disk.content s.file = s.disk.content s.file ++ more := by
      rw [content, if_pos rfl]
    rw [created, split, List.flatMap_append, same, List.flatMap_singleton, grown,
      ← List.append_assoc, ← List.append_assoc, ← since.content, split, List.flatMap_append,
      List.flatMap_singleton]
  · intro i lt ne
    have closed : s.file ≠ i := by
      intro eq
      have mem : i ∈ s₀.file :: s₀.disk.created s.disk := by
        rw [split, ← eq]
        simp
      obtain rfl | mem := List.mem_cons.1 mem
      · exact ne rfl
      · have bounds := Disk.mem_created mem
        omega
    rw [content, if_neg closed, List.append_nil]
    exact since.untouched i lt ne

/-- A current log is created and opened. -/
theorem create (since : s₀.Since s bytes) (stamp : Time) (absent : s.disk.find currentLog = none) :
    s₀.Since ⟨s.disk.create currentLog stamp absent, s.disk.files.length⟩ bytes := by
  have length := Disk.length_create s.disk stamp absent
  have created : s₀.disk.created (s.disk.create currentLog stamp absent) =
      s₀.disk.created s.disk ++ [s.disk.files.length] :=
    Disk.created_succ since.length_le length
  have content (i : ℕ) : (s.disk.create currentLog stamp absent).content i = s.disk.content i :=
    Disk.content_create s.disk stamp absent i
  have empty : s.disk.content s.disk.files.length = [] := by simp [Disk.content]
  constructor
  · have le := since.length_le
    dsimp only
    omega
  · intro n pos
    dsimp only
    rw [Disk.reading_create absent pos, created, ← List.append_assoc]
    exact (since.kept n pos).append_right _
  · intro i found
    rw [Disk.find_create, if_pos rfl] at found
    exact (Option.some.inj found).symm
  · exact ⟨_, by rw [created, ← List.cons_append]⟩
  · dsimp only
    rw [created, ← List.cons_append, List.flatMap_append, List.flatMap_singleton, content, empty,
      List.append_nil, ← since.content]
    exact List.flatMap_congr fun i _ => content i
  · intro i lt ne
    exact (content i).trans (since.untouched i lt ne)

end LogDir.Since

/-- The call opens no file, and it renames logs to the next age only. -/
def FsOp.Ages : FsOp → Prop
  | .rename source target => ∃ age, source = agedLog age ∧ target = agedLog (age + 1)
  | .openAppend _ | .setFile _ => False
  | _ => True

theorem LogDir.Since.call (since : s₀.Since s bytes) (opened : s₀.file < s₀.disk.files.length)
    {o : FsOp} (ages : o.Ages) (input : FsInput) : s₀.Since (filesystem input o s).2
      (bytes ++ appended ⟨o, (filesystem input o s).1⟩) := by
  have content := content_filesystem input o s
  -- The directory and the open file are the same.
  have same {x : FsCalls.Ans o} (eq : filesystem input o s = (x, s)) :
      s₀.Since (filesystem input o s).2 (bytes ++ appended ⟨o, (filesystem input o s).1⟩) := by
    rw [eq] at content ⊢
    exact since.steady opened rfl rfl (fun _ => .refl _) (fun _ => id) content
  cases o with
  | removeFile name =>
    rcases filesystem_removeFile input s name with ⟨error, eq⟩ | ⟨-, eq⟩
    · exact same eq
    · rw [eq] at content ⊢
      refine since.steady opened rfl (Disk.length_relabel _ _) (Disk.reading_unlink _ _) ?_ content
      intro i found
      have found : (s.disk.unlink [name]).find currentLog = some i := found
      rw [Disk.find_unlink] at found
      split_ifs at found
      exact found
  | rename source target =>
    obtain ⟨age, rfl, rfl⟩ := ages
    rcases filesystem_rename input s (agedLog age) (agedLog (age + 1)) with ⟨error, eq⟩ | ⟨-, eq⟩
    · exact same eq
    · rw [eq] at content ⊢
      refine since.steady opened rfl (Disk.length_relabel _ _) (Disk.reading_rename _ _) ?_ content
      intro i found
      have one := Disk.reading_rename s.disk age 1
      have found : (s.disk.rename (agedLog age) (agedLog (age + 1))).find (agedLog 0) = some i :=
        found
      rw [Disk.reading, Disk.reading, Disk.reading, Disk.reading, found] at one
      have mem : i ∈ (s.disk.find (agedLog 0)).toList ++ [] := one.subset (by simp)
      rw [List.append_nil, Option.mem_toList] at mem
      exact mem
  | openAppend name => exact ages.elim
  | setFile file => exact ages.elim
  | write data =>
    rcases filesystem_write input s data with ⟨error, eq⟩ | ⟨-, n, -, eq⟩
    · exact same eq
    · by_cases zero : n = 0
      · rw [if_pos zero] at eq
        exact same eq
      · rw [if_neg zero] at eq
        rw [eq] at content ⊢
        refine since.steady opened rfl (Disk.length_append _ _ _ _) (fun k => ?_)
          (fun i found => ?_) content
        · rw [Disk.reading_congr fun _ _ => Disk.find_append _ _ _ _]
        · exact (Disk.find_append _ _ _ _).symm.trans found
  | metadata =>
    rcases filesystem_metadata input s with ⟨error, eq⟩ | ⟨f, -, eq⟩
    · exact same eq
    · exact same eq
  | readDir =>
    rcases filesystem_readDir input s with ⟨error, eq⟩ | eq
    · exact same eq
    · exact same eq
  | flush =>
    rcases filesystem_flush input s with ⟨error, eq⟩ | eq
    · exact same eq
    · exact same eq
  | createDirAll =>
    refine same (x := (filesystem input .createDirAll s).1) (Prod.ext rfl ?_)
    simp only [filesystem, FsInput.attempt]
    split <;> rfl
  | entryMetadata name =>
    refine same (x := (filesystem input (.entryMetadata name) s).1) (Prod.ext rfl ?_)
    simp only [filesystem]
    split <;> rfl
  | _ => exact same rfl

end Since

/-! ## Programs -/

/-- Collect the bytes that are written. -/
def collecting : Monitor FsCalls (LogDir × ℕ) (List UInt8) where
  allows _ _ _ := True
  next bytes _ a := bytes ++ appended a

theorem collecting_accepts (bytes : List UInt8) (trace : List ((LogDir × ℕ) × Act FsCalls)) :
    collecting.Accepts bytes trace := by
  induction trace generalizing bytes with
  | nil => exact trivial
  | cons x trace ih => exact ⟨trivial, ih _⟩

theorem collecting_after (bytes : List UInt8) (trace : List ((LogDir × ℕ) × Act FsCalls)) :
    collecting.after bytes trace = bytes ++ trace.flatMap fun x => appended x.2 := by
  induction trace generalizing bytes with
  | nil => exact (List.append_nil _).symm
  | cons x trace ih =>
    show collecting.after (bytes ++ appended x.2) trace = _
    rw [ih, List.flatMap_cons, List.append_assoc]

section Programs

variable {retention : LogRetention} {inputs : ℕ → FsInput} {s₀ : LogDir} {s : LogDir × ℕ}
  {bytes : List UInt8} (opened : s₀.file < s₀.disk.files.length)

include opened

theorem since_aging {α : Type} {p : Fs α} (uses : p.run.Uses FsOp.Ages)
    (since : s₀.Since s.1 bytes) : Watched collecting (timed filesystem inputs) p s bytes
      fun _ s' bytes' => s₀.Since s'.1 bytes' :=
  watched_invariant (I := fun (s : LogDir × ℕ) bytes => s₀.Since s.1 bytes)
    (fun _ _ _ ages _ since => since.call opened ages _) uses since

omit opened in
theorem ages_cleanupLogs : (cleanupLogs retention).run.Uses FsOp.Ages :=
  uses_cleanupLogs trivial trivial (fun _ => trivial) fun _ => trivial

omit opened in
theorem ages_rotateLogs : (rotateLogs retention).run.Uses FsOp.Ages := by
  unfold rotateLogs
  dsimp only
  split_ifs
  · exact uses_removeIfExists trivial trivial
  · refine Fallible.uses_bind ?_ fun _ => ages_cleanupLogs
    refine Fallible.uses_bind (uses_removeIfExists trivial trivial) fun _ => ?_
    refine Fallible.uses_bind (uses_shiftLogs (fun _ => trivial) (fun i => ⟨i + 1, rfl, rfl⟩) _)
      fun _ => ?_
    exact uses_renameIfExists trivial ⟨0, rfl, rfl⟩

/-- A rotation opens the current log that is there, or a new one. -/
theorem since_rotate (since : s₀.Since s.1 bytes) :
    Watched collecting (timed filesystem inputs) (LogState.rotate retention) s bytes
      fun _ s' bytes' => s₀.Since s'.1 bytes' := by
  unfold LogState.rotate
  have flushed : (Fs.flush).run.Uses FsOp.Ages := Program.uses_call trivial
  refine (since_aging opened flushed since).bind (fun _ _ _ h => h) fun _ s₁ bytes₁ since₁ => ?_
  refine (since_aging opened ages_rotateLogs since₁).bind (fun _ _ _ h => h)
    fun _ s₂ bytes₂ since₂ => ?_
  rw [watched_bind_iff]
  refine watched_perform_iff (S := FsCalls) (o := .openAppend currentLog) (g := id) |>.2
    fun _ => ?_
  have silent (x : FsCalls.Ans (.openAppend currentLog)) :
      collecting.next bytes₂ s₂ ⟨.openAppend currentLog, x⟩ = bytes₂ := List.append_nil _
  have unchanged (file : ℕ) (s : LogDir × ℕ) :
      collecting.next bytes₂ s ⟨.setFile file, ()⟩ = bytes₂ := List.append_nil _
  rw [silent]
  rcases filesystem_openAppend (inputs s₂.2) s₂.1 currentLog with
    ⟨error, eq⟩ | ⟨i, found, eq⟩ | ⟨absent, eq⟩
  · simp only [timed, eq]
    exact since₂
  · simp only [timed, eq]
    refine watched_call_iff.2 fun _ => ?_
    obtain rfl := since₂.current i found
    exact (unchanged _ _).symm ▸ since₂
  · simp only [timed, eq]
    refine watched_call_iff.2 fun _ => ?_
    exact (unchanged _ _).symm ▸ since₂.create _ absent

theorem since_rotateIf (needed : Bool) (since : s₀.Since s.1 bytes) :
    Watched collecting (timed filesystem inputs) (LogState.rotateIf retention needed) s bytes
      fun _ s' bytes' => s₀.Since s'.1 bytes' := by
  unfold LogState.rotateIf
  split_ifs
  · exact since_rotate opened since
  · exact watched_pure_iff.2 since

theorem since_cleanupRetention (since : s₀.Since s.1 bytes) :
    Watched collecting (timed filesystem inputs) (LogState.cleanupRetention retention) s bytes
      fun _ s' bytes' => s₀.Since s'.1 bytes' := by
  unfold LogState.cleanupRetention
  have check : (currentLogNeedsRotation retention).run.Uses FsOp.Ages :=
    uses_currentLogNeedsRotation trivial trivial
  refine (since_aging opened check since).bind (fun _ _ _ h => h) fun needed s₁ bytes₁ since₁ => ?_
  refine (since_rotateIf opened needed since₁).bind (fun _ _ _ h => h)
    fun _ s₂ bytes₂ since₂ => ?_
  exact since_aging opened ages_cleanupLogs since₂

theorem since_write (buf : List UInt8) (since : s₀.Since s.1 bytes) :
    Watched collecting (timed filesystem inputs) (LogState.write retention buf) s bytes
      fun _ s' bytes' => s₀.Since s'.1 bytes' := by
  unfold LogState.write
  split_ifs
  · exact watched_pure_iff.2 since
  have size : (Fs.metadata).run.Uses FsOp.Ages := Program.uses_call trivial
  have data (buf : List UInt8) : (Fs.write buf).run.Uses FsOp.Ages := Program.uses_call trivial
  refine (since_aging opened size since).bind (fun _ _ _ h => h) fun _ s₁ bytes₁ since₁ => ?_
  refine (since_rotateIf opened _ since₁).bind (fun _ _ _ h => h) fun _ s₂ bytes₂ since₂ => ?_
  refine (since_aging opened size since₂).bind (fun _ _ _ h => h) fun _ s₃ bytes₃ since₃ => ?_
  refine (since_aging opened (data _) since₃).bind (fun _ _ _ h => h)
    fun written s₄ bytes₄ since₄ => ?_
  refine (since_cleanupRetention opened since₄).bind (fun _ _ _ h => h)
    fun _ s₅ bytes₅ since₅ => ?_
  exact watched_pure_iff.2 since₅

omit opened in
/-- Every run is watched to its end. -/
theorem since_of_watched {α : Type} {p : Fs α} (watched : Watched collecting
      (timed filesystem inputs) p s bytes fun _ s' bytes' => s₀.Since s'.1 bytes') :
    s₀.Since (p.run.exec (timed filesystem inputs) s).2.1
      (bytes ++ (p.run.acts (timed filesystem inputs) s).flatMap appended) := by
  have since' := watched (collecting_accepts _ _)
  rw [collecting_after] at since'
  rw [← map_trace, List.flatMap_map]
  exact since'

theorem since_perform (call : LogCall) (since : s₀.Since s.1 bytes) :
    s₀.Since ((call.perform retention).exec (timed filesystem inputs) s).2.1
      (bytes ++ ((call.perform retention).acts (timed filesystem inputs) s).flatMap appended) := by
  cases call with
  | write buf =>
    unfold LogCall.perform
    rw [exec_bind, acts_bind, acts_pure, List.append_nil]
    exact since_of_watched (since_write opened buf since)
  | maintain =>
    unfold LogCall.perform
    rw [exec_bind, acts_bind, acts_pure, List.append_nil]
    exact since_of_watched (since_cleanupRetention opened since)

theorem since_performAll (calls : List LogCall) (since : s₀.Since s.1 bytes) :
    s₀.Since ((performAll retention calls).exec (timed filesystem inputs) s).2.1
      (bytes ++
        ((performAll retention calls).acts (timed filesystem inputs) s).flatMap appended) := by
  induction calls generalizing s bytes with
  | nil =>
    show s₀.Since s.1 (bytes ++ [])
    rw [List.append_nil]
    exact since
  | cons call calls ih =>
    unfold performAll
    rw [exec_bind, acts_bind, List.flatMap_append, ← List.append_assoc]
    exact ih (since_perform opened call since)

end Programs

/-! ## Lives of the writer -/

namespace Disk

/-- The file that a writer goes on with. -/
def currentFile (d : Disk) : List ℕ := (d.find currentLog).toList

theorem mem_currentFile {d : Disk} {i : ℕ} : i ∈ d.currentFile ↔ d.find currentLog = some i :=
  Option.mem_toList

/-- The directory `d'` goes on from `d` after `bytes` were written. -/
structure Continues (d d' : Disk) (bytes : List UInt8) : Prop where
  length_le : d.files.length ≤ d'.files.length
  kept : ∀ n, 0 < n → (d'.reading n).Sublist (d.reading n ++ d.created d')
  current : ∀ i, d'.find currentLog = some i →
    ∃ before, d.currentFile ++ d.created d' = before ++ [i]
  content : (d.currentFile ++ d.created d').flatMap d'.content =
    d.currentFile.flatMap d.content ++ bytes
  untouched : ∀ i < d.files.length, i ∉ d.currentFile → d'.content i = d.content i

section Continues

variable {d d' d'' : Disk} {bytes more : List UInt8}

theorem created_trans (le : d.files.length ≤ d'.files.length)
    (le' : d'.files.length ≤ d''.files.length) :
    d.created d'' = d.created d' ++ d'.created d'' := by
  have start : d.files.length + (d'.files.length - d.files.length) = d'.files.length := by omega
  have count : d''.files.length - d.files.length =
      (d'.files.length - d.files.length) + (d''.files.length - d'.files.length) := by omega
  rw [created, created, created, count, ← List.range'_append_1, start]

/-- The files that are written to after `d` are different files. -/
theorem nodup_written (d d' : Disk) : (d.currentFile ++ d.created d').Nodup := by
  unfold currentFile
  cases found : d.find currentLog with
  | none => exact List.nodup_range'
  | some i => exact nodup_created (lt_of_find found) d'

theorem lt_of_written (le : d.files.length ≤ d'.files.length) {i : ℕ}
    (mem : i ∈ d.currentFile ++ d.created d') : i < d'.files.length := by
  rcases List.mem_append.1 mem with mem | mem
  · have lt := lt_of_find (mem_currentFile.1 mem)
    omega
  · exact (mem_created mem).2

theorem Continues.trans (first : d.Continues d' bytes) (second : d'.Continues d'' more) :
    d.Continues d'' (bytes ++ more) := by
  have created := created_trans first.length_le second.length_le
  constructor
  · exact Nat.le_trans first.length_le second.length_le
  · intro n pos
    rw [created, ← List.append_assoc]
    exact (second.kept n pos).trans ((first.kept n pos).append_right _)
  · intro i found
    obtain ⟨before, split⟩ := second.current i found
    cases new : d'.created d'' using List.reverseRecOn with
    | nil =>
      rw [new, List.append_nil] at split
      have open_ : d'.find currentLog = some i := mem_currentFile.1 (by simp [split])
      obtain ⟨before', split'⟩ := first.current i open_
      exact ⟨before', by rw [created, new, List.append_nil, split']⟩
    | append_singleton rest last =>
      rw [new, ← List.append_assoc] at split
      obtain rfl : last = i := by simpa using (List.append_inj' split rfl).2
      exact ⟨d.currentFile ++ d.created d' ++ rest, by rw [created, new]; simp⟩
  · -- What was written in the second life follows on what was written in the first.
    have frozen (l : List ℕ) (old : ∀ i ∈ l, i < d'.files.length ∧ i ∉ d'.currentFile) :
        l.flatMap d''.content = l.flatMap d'.content :=
      List.flatMap_congr fun i mem => second.untouched i (old i mem).1 (old i mem).2
    have sofar := first.content
    have since := second.content
    rw [created, ← List.append_assoc, List.flatMap_append]
    cases found : d'.find currentLog with
    | none =>
      have none : d'.currentFile = [] := by simp [currentFile, found]
      rw [none, List.nil_append, List.flatMap_nil, List.nil_append] at since
      rw [since, frozen _ fun i mem => ⟨lt_of_written first.length_le mem, by simp [none]⟩, sofar,
        List.append_assoc]
    | some i =>
      have one : d'.currentFile = [i] := by simp [currentFile, found]
      obtain ⟨before, split⟩ := first.current i found
      have apart : i ∉ before := by
        have nodup := nodup_written d d'
        rw [split] at nodup
        exact fun mem => (List.nodup_append.1 nodup).2.2 _ mem _ (List.mem_singleton_self _) rfl
      have old : ∀ j ∈ before, j < d'.files.length ∧ j ∉ d'.currentFile := by
        intro j mem
        refine ⟨lt_of_written first.length_le (by rw [split]; simp [mem]), ?_⟩
        rw [one, List.mem_singleton]
        rintro rfl
        exact apart mem
      rw [one, List.flatMap_append] at since
      rw [split, List.flatMap_append, frozen before old, List.append_assoc, since,
        ← List.append_assoc, ← List.flatMap_append, ← split, sofar, List.append_assoc]
  · intro i lt old
    have le := first.length_le
    rw [second.untouched i (by omega), first.untouched i lt old]
    intro mem
    obtain ⟨before, split⟩ := first.current i (mem_currentFile.1 mem)
    have written : i ∈ d.currentFile ++ d.created d' := by simp [split]
    rcases List.mem_append.1 written with mem | mem
    · exact old mem
    · have bounds := mem_created mem
      omega

theorem continues_unlink (d : Disk) (gone : List FileName) : d.Continues (d.unlink gone) [] := by
  have length : (d.unlink gone).files.length = d.files.length := length_relabel _ _
  have created : d.created (d.unlink gone) = [] := (created_congr length).trans (created_self d)
  have content : (d.unlink gone).content = d.content := funext fun i => content_unlink d gone i
  constructor
  · omega
  · intro n _
    rw [created, List.append_nil]
    exact reading_unlink d gone n
  · intro i found
    rw [find_unlink] at found
    split_ifs at found
    exact ⟨[], by simp [currentFile, found, created]⟩
  · rw [created, content]
    simp
  · exact fun i _ _ => congrFun content i

theorem continues_create (d : Disk) (stamp : Time) (absent : d.find currentLog = none) :
    d.Continues (d.create currentLog stamp absent) [] := by
  have length := length_create d stamp absent
  have created : d.created (d.create currentLog stamp absent) = [d.files.length] := by
    rw [created_succ (Nat.le_refl _) length, created_self, List.nil_append]
  have empty : d.content d.files.length = [] := by simp [Disk.content]
  have none : d.currentFile = [] := by simp [currentFile, absent]
  constructor
  · omega
  · intro n pos
    rw [created, reading_create absent pos]
  · intro i found
    rw [find_create, if_pos rfl] at found
    exact ⟨[], by rw [none, created, Option.some.inj found]⟩
  · rw [none, created]
    simp [empty]
  · exact fun i _ _ => content_create d stamp absent i

theorem reading_eq_older (d : Disk) (n : ℕ) : ∃ older, d.reading (n + 1) = older ++ d.currentFile ∧
    ∀ i ∈ older, i < d.files.length ∧ i ∉ d.currentFile := by
  induction n with
  | zero => exact ⟨[], by simp [reading, currentFile, agedLog], by simp⟩
  | succ n ih =>
    obtain ⟨older, split, old⟩ := ih
    refine ⟨(d.find (agedLog (n + 1))).toList ++ older, ?_, ?_⟩
    · rw [reading, split, List.append_assoc]
    · intro i mem
      rcases List.mem_append.1 mem with mem | mem
      · have found := Option.mem_toList.1 mem
        refine ⟨lt_of_find found, fun current => ?_⟩
        have same := age_unique (b := 0) found (mem_currentFile.1 current)
        omega
      · exact old i mem

theorem nodup_reading_created (d d' : Disk) (n : ℕ) : (d.reading n ++ d.created d').Nodup := by
  refine List.nodup_append.2 ⟨d.nodup_reading n, List.nodup_range', fun i mem j mem' => ?_⟩
  obtain ⟨age, -, found⟩ := mem_reading.1 mem
  have old := lt_of_find found
  have new := mem_created mem'
  omega

/-- The bytes of the files that were found and of those that were created since. -/
theorem Continues.bytes_eq (continues : d.Continues d' bytes) (n : ℕ) :
    (d.reading (n + 1) ++ d.created d').flatMap d'.content =
      (d.reading (n + 1)).flatMap d.content ++ bytes := by
  obtain ⟨older, split, old⟩ := d.reading_eq_older n
  have frozen : older.flatMap d'.content = older.flatMap d.content :=
    List.flatMap_congr fun i mem => continues.untouched i (old i mem).1 (old i mem).2
  rw [split, List.append_assoc, List.flatMap_append, continues.content, frozen, List.flatMap_append,
    List.append_assoc]

end Continues

end Disk

/-- What a writer has added since it started goes on from the directory at its start. -/
theorem LogDir.Since.continues {s₀ s : LogDir} {bytes : List UInt8} (attached : s₀.Attached)
    (since : s₀.Since s bytes) : s₀.disk.Continues s.disk bytes := by
  have one : s₀.disk.currentFile = [s₀.file] := by
    unfold Disk.currentFile
    rw [attached]
    rfl
  constructor
  · exact since.length_le
  · exact since.kept
  · intro i found
    obtain rfl := since.current i found
    rw [one]
    exact since.last
  · rw [one, List.flatMap_singleton]
    exact since.content
  · intro i lt old
    rw [one, List.mem_singleton] at old
    exact since.untouched i lt old

/-! ### Startup -/

section Startup

variable {retention : LogRetention} {inputs : ℕ → FsInput}

/-- The call changes the directory by removing files only. -/
def FsOp.Tidies : FsOp → Prop
  | .rename _ _ | .openAppend _ | .setFile _ | .write _ => False
  | _ => True

/-- Files of `d` were removed. -/
def Disk.Tidied (d : Disk) (s : LogDir) : Prop := ∃ gone, s.disk = d.unlink gone

theorem tidied_call {d : Disk} {s : LogDir} (tidied : d.Tidied s) {o : FsOp} (tidies : o.Tidies)
    (input : FsInput) : d.Tidied (filesystem input o s).2 := by
  cases o with
  | removeFile name =>
    rcases filesystem_removeFile input s name with ⟨error, eq⟩ | ⟨-, eq⟩
    · rw [eq]
      exact tidied
    · obtain ⟨gone, same⟩ := tidied
      rw [eq]
      refine ⟨gone ++ [name], ?_⟩
      show s.disk.unlink [name] = _
      rw [same, Disk.unlink_unlink]
  | rename => exact tidies.elim
  | openAppend => exact tidies.elim
  | setFile => exact tidies.elim
  | write => exact tidies.elim
  | metadata =>
    rcases filesystem_metadata input s with ⟨error, eq⟩ | ⟨f, -, eq⟩
    · rw [eq]
      exact tidied
    · rw [eq]
      exact tidied
  | entryMetadata name =>
    simp only [filesystem]
    split <;> exact tidied
  | createDirAll | readDir | flush =>
    simp only [filesystem, FsInput.attempt]
    split <;> exact tidied
  | _ => exact tidied

theorem ends_tidying {α : Type} {p : Fs α} (uses : p.run.Uses FsOp.Tidies) {d : Disk}
    {s : LogDir × ℕ} (tidied : d.Tidied s.1) :
    Ends (timed filesystem inputs) p s fun _ s' => d.Tidied s'.1 :=
  (uses.keeps (h := timed filesystem inputs) (I := fun s => d.Tidied s.1)
    (fun _ _ tidies tidied => tidied_call tidied tidies _) tidied).1

/-- A startup removes files and opens the current log that is left, or a new one. -/
theorem continues_new (s : LogDir × ℕ) :
    Ends (timed filesystem inputs) (RotatingLogWriter.new retention) s fun _ s' =>
      s.1.disk.Continues s'.1.disk [] := by
  unfold RotatingLogWriter.new
  have still : s.1.disk.Tidied s.1 := ⟨[], (Disk.unlink_nil _).symm⟩
  have gone {s' : LogDir × ℕ} (tidied : s.1.disk.Tidied s'.1) :
      s.1.disk.Continues s'.1.disk [] := by
    obtain ⟨gone, same⟩ := tidied
    rw [same]
    exact Disk.continues_unlink _ _
  have checked : (Fs.orFail (validateRetention retention)).run.Uses FsOp.Tidies := by
    cases validateRetention retention <;> exact trivial
  refine (ends_tidying checked still).bind (fun _ _ h => gone h) fun _ s₁ tidied₁ => ?_
  refine (ends_tidying (Program.uses_call (S := FsCalls) (o := .createDirAll) trivial) tidied₁).bind
    (fun _ _ h => gone h) fun _ s₂ tidied₂ => ?_
  have cleaned : (cleanupLogs retention).run.Uses FsOp.Tidies :=
    uses_cleanupLogs trivial trivial (fun _ => trivial) fun _ => trivial
  refine (ends_tidying cleaned tidied₂).bind (fun _ _ h => gone h) fun _ s₃ tidied₃ => ?_
  obtain ⟨s₃, k⟩ := s₃
  have sofar := gone tidied₃
  rw [ends_bind_iff]
  refine ends_openAppend (fun _ => sofar) (fun i _ => sofar) fun absent => ?_
  exact sofar.trans (Disk.continues_create s₃.disk (inputs k).stamp absent)

end Startup

/-- One life of the process: its environment, and the writes and ticks of all its threads in the
order in which they hold the lock. -/
structure LogLife where
  retention : LogRetention
  inputs : ℕ → FsInput
  calls : List LogCall

namespace LogLife

variable (life : LogLife)

/-- The writer is used when its startup has succeeded. -/
def live : Program FsCalls Unit := do
  match ← (RotatingLogWriter.new life.retention).run with
  | .ok () => performAll life.retention life.calls
  | .error _ => return ()

/-- The log directory after the life. -/
def leaves (d : Disk) : Disk :=
  (life.live.exec (timed filesystem life.inputs) (⟨d, 0⟩, 0)).2.1.disk

/-- The bytes that the life has added to log files. -/
def writes (d : Disk) : List UInt8 :=
  (life.live.acts (timed filesystem life.inputs) (⟨d, 0⟩, 0)).flatMap appended

theorem continues (d : Disk) : d.Continues (life.leaves d) (life.writes d) := by
  have started : Ends (timed filesystem life.inputs) (RotatingLogWriter.new life.retention)
      (⟨d, 0⟩, 0) fun _ s => d.Continues s.1.disk [] := continues_new _
  have attached : Ends (timed filesystem life.inputs) (RotatingLogWriter.new life.retention)
      (⟨d, 0⟩, 0) fun result s => result = .ok () → s.1.Attached := attached_new _
  unfold leaves writes live
  rw [exec_bind, acts_bind, List.flatMap_append, appended_of_keepsBytes keepsBytes_new,
    List.nil_append]
  unfold Ends at started attached
  rcases result : (RotatingLogWriter.new life.retention).run.exec (timed filesystem life.inputs)
    (⟨d, 0⟩, 0) with ⟨error | ⟨⟩, s⟩
  · rw [result] at started
    exact started
  · rw [result] at started attached
    have attached := attached rfl
    exact started.trans
      ((since_performAll (Disk.lt_of_find attached) life.calls attached.since).continues attached)

end LogLife

/-- The directory after some lives. -/
def leftByLives (lives : List LogLife) (d : Disk) : Disk :=
  lives.foldl (fun d life => life.leaves d) d

/-- What all of them have written. -/
def writtenByLives : List LogLife → Disk → List UInt8
  | [], _ => []
  | life :: lives, d => life.writes d ++ writtenByLives lives (life.leaves d)

theorem continues_lives (lives : List LogLife) (d : Disk) :
    d.Continues (leftByLives lives d) (writtenByLives lives d) := by
  induction lives generalizing d with
  | nil =>
    have same := Disk.continues_unlink d []
    rw [Disk.unlink_nil] at same
    exact same
  | cons life lives ih => exact (life.continues d).trans (ih (life.leaves d))

/-- Whatever fails in any life of the process, the log reads as what was there before, followed by
what was written since, with the bytes of some files left out.  Only the file that was current
before has grown: the backups keep their bytes until they are removed. -/
theorem log_keeps_order (lives : List LogLife) (d : Disk) (n : ℕ) :
    let ended := leftByLives lives d
    let files := d.reading (n + 1) ++ d.created ended
    (ended.reading (n + 1)).Sublist files ∧ files.Nodup ∧
      files.flatMap ended.content =
        (d.reading (n + 1)).flatMap d.content ++ writtenByLives lives d ∧
      ∀ i < d.files.length, d.find currentLog ≠ some i → ended.content i = d.content i := by
  have continues := continues_lives lives d
  refine ⟨continues.kept (n + 1) (by omega), Disk.nodup_reading_created d _ _,
    continues.bytes_eq n, fun i lt old => continues.untouched i lt fun mem => old ?_⟩
  exact Disk.mem_currentFile.1 mem

end KeyroCore
