import KeyroCore.Logging.Handle

/-!
# Progress of writes

Without failing calls a write appends at least one byte of its buffer to the open file, so the loop
of writes ends with the whole buffer appended.  The open file is the current log unless the current
log was lost before and the write does not rotate.
-/

open Effect Program Fallible

namespace KeyroCore

/-- No call fails: entries can be examined, listings are complete, the cutoff is representable, and
a write of some bytes accepts at least one. -/
structure Faultless (retention : LogRetention) (inputs : ℕ → FsInput) : Prop where
  calls : ∀ n, (inputs n).failure = none
  entries : Readable inputs
  listings : ∀ n, (inputs n).broken = none
  clock : ∀ n, (checkedSub (inputs n).now retention.maxAge).isSome
  accepts : ∀ n, 0 < (inputs n).accepts

variable {retention : LogRetention} {inputs : ℕ → FsInput}

theorem Faultless.noErrors (h : Faultless retention inputs) : NoErrors inputs :=
  ⟨h.calls, h.entries.visible⟩

namespace Faultless

variable (h : Faultless retention inputs)

include h

theorem ends_metadata {s : LogDir} {f : Inode} (hf : s.disk.files[s.file]? = some f) (n : ℕ) :
    Ends (timed filesystem inputs) Fs.metadata (s, n) fun result s' =>
      result = .ok ((inputs n).metadata f) ∧ s' = (s, n + 1) := by
  have answer : filesystem (inputs n) .metadata s = (.ok ((inputs n).metadata f), s) := by
    simp only [filesystem, h.noErrors.attempt, hf]
  show (filesystem (inputs n) .metadata s).1 = _ ∧ ((filesystem (inputs n) .metadata s).2, n + 1) = _
  rw [answer]
  exact ⟨rfl, rfl⟩

theorem ok_retentionCutoff (s : LogDir) (n : ℕ) :
    Ends (timed filesystem inputs) (retentionCutoff retention) (s, n) fun result s' =>
      (∃ cutoff, result = .ok cutoff) ∧ s' = (s, n + 1) := by
  refine ends_retentionCutoff (fun none => ?_) fun cutoff _ => ⟨⟨cutoff, rfl⟩, rfl⟩
  have some := h.clock n
  rw [none] at some
  cases some

theorem ends_readDir (s : LogDir) (n : ℕ) :
    Ends (timed filesystem inputs) Fs.readDir (s, n) fun result s' =>
      result = .ok (((inputs n).listing.arrange s.disk.names).map .ok) ∧ s' = (s, n + 1) := by
  have answer : filesystem (inputs n) .readDir s =
      (.ok (((inputs n).listing.arrange s.disk.names).map .ok), s) := by
    simp only [filesystem, h.noErrors.attempt, Listing.entries, h.listings n]
  show (filesystem (inputs n) .readDir s).1 = _ ∧ ((filesystem (inputs n) .readDir s).2, n + 1) = _
  rw [answer]
  exact ⟨rfl, rfl⟩

/-! ### The loops of a clean-up -/

theorem ok_retainLogs {cutoff : Time} (names : List FileName) (retained : List LogFile)
    (s : LogDir) (n : ℕ) : Ends (timed filesystem inputs)
      (retainLogs retention cutoff (names.map .ok) retained) (s, n) fun result _ =>
        ∃ all, result = .ok all := by
  induction names generalizing retained s n with
  | nil => exact ⟨retained, rfl⟩
  | cons path names ih =>
    show Ends _ (if !isKeyroLog path then _ else _) (s, n) _
    rw [ends_ite_iff]
    refine ⟨fun _ => ih retained s n, fun _ => ?_⟩
    rw [ends_bind_iff, ends_ask_iff]
    rcases found : s.disk.lookup path with _ | f
    · have answer : filesystem (inputs n) (.entryMetadata path) s = (.error notFound, s) := by
        simp only [filesystem, (h.entries n).1, found]
      rw [answer]
      exact ih retained s (n + 1)
    · have answer : filesystem (inputs n) (.entryMetadata path) s =
          (.ok ⟨f.content.length, some f.modified⟩, s) := by
        simp only [filesystem, (h.entries n).1, found, FsInput.metadata, (h.entries n).2]
        rfl
      have known : path ∈ s.disk.names := by
        obtain ⟨mem, hn⟩ := Disk.lookup_eq_some_iff.1 found
        exact List.mem_filterMap.2 ⟨f, mem, hn⟩
      rw [answer]
      show Ends _ (if _ then _ else _) (s, n + 1) _
      rw [ends_ite_iff]
      refine ⟨fun _ => ?_, fun _ => ih _ s (n + 1)⟩
      refine (h.noErrors.ends_removeFile known (n + 1)).bind (fun e s' h => by cases h.1) fun _ s₁ _ => ?_
      exact ih retained s₁.1 s₁.2

theorem ok_enforceLimits {currentIndex : Option ℕ} (rest : List LogFile)
    (index keptFiles totalBytes : ℕ) {s : LogDir} (nodup : (rest.map LogFile.path).Nodup)
    (known : ∀ logFile ∈ rest, logFile.path ∈ s.disk.names) (n : ℕ) :
    Ends (timed filesystem inputs)
      (enforceLimits retention currentIndex index rest keptFiles totalBytes) (s, n)
        fun result _ => result = .ok () := by
  induction rest generalizing index keptFiles totalBytes s n with
  | nil => rfl
  | cons logFile rest ih =>
    rw [List.map_cons, List.nodup_cons] at nodup
    rw [List.forall_mem_cons] at known
    unfold enforceLimits
    rw [ends_ite_iff]
    refine ⟨fun _ => ih _ _ _ nodup.2 known.2 n, fun _ => ?_⟩
    rw [ends_ite_iff]
    refine ⟨fun _ => ?_, fun _ => ih _ _ _ nodup.2 known.2 n⟩
    refine (h.noErrors.ends_removeFile known.1 n).bind (fun e s' h => by cases h.1) fun _ s₁ h₁ => ?_
    refine ih _ _ _ nodup.2 (fun logFile' mem => ?_) s₁.2
    rw [h₁.2]
    show logFile'.path ∈ (s.disk.unlink _).names
    rw [Disk.names_unlink, List.mem_filter]
    refine ⟨known.2 logFile' mem, decide_eq_true fun same => nodup.1 ?_⟩
    rw [← List.mem_singleton.1 same]
    exact List.mem_map_of_mem mem

omit h in
/-- The files that may be kept are still there when those that may not are gone. -/
theorem eligible_known {d : Disk} {order : List FileName} (perm : order.Perm d.names)
    {cutoff : Time} {logFile : LogFile}
    (mem : logFile ∈ retention.eligible cutoff (d.listedLogs order)) : logFile.path ∈
      (d.unlink ((retention.discarded cutoff (d.listedLogs order)).map LogFile.path)).names := by
  have nodup : ((d.listedLogs order).map LogFile.path).Nodup :=
    ((Disk.listedLogs_perm perm).map LogFile.path).nodup_iff.2 Disk.nodup_paths
  obtain ⟨listed, keeps⟩ := List.mem_filter.1 mem
  rw [Disk.names_unlink, List.mem_filter]
  constructor
  · have known := List.mem_map_of_mem (f := LogFile.path)
      ((Disk.listedLogs_perm perm).mem_iff.1 listed)
    rw [Disk.paths_logFiles] at known
    exact (List.mem_filter.1 known).1
  · refine decide_eq_true fun gone => ?_
    obtain ⟨other, mem', same⟩ := List.mem_map.1 gone
    obtain ⟨listed', discards⟩ := List.mem_filter.1 mem'
    have eq := List.inj_on_of_nodup_map nodup listed' listed same
    subst eq
    exact of_decide_eq_true keeps (of_decide_eq_true discards)

theorem ok_cleanupLogs (s : LogDir) (n : ℕ) :
    Ends (timed filesystem inputs) (cleanupLogs retention) (s, n) fun result _ =>
      result = .ok () := by
  unfold cleanupLogs
  refine (h.ok_retentionCutoff s n).bind (fun e _ h => ?_) fun cutoff s₁ h₁ => ?_
  · obtain ⟨⟨cutoff, hc⟩, -⟩ := h
    cases hc
  obtain rfl := h₁.2
  refine (h.ends_readDir s (n + 1)).bind (fun e _ h => nomatch h.1) fun entries s₂ h₂ => ?_
  obtain ⟨hentries, rfl⟩ := h₂
  cases hentries
  have perm := (inputs (n + 1)).listing.perm s.disk.names
  set order := (inputs (n + 1)).listing.arrange s.disk.names
  refine ((h.ok_retainLogs order [] s (n + 2)).and
    (ends_retainLogs h.entries (order.map .ok) [] s (n + 2))).bind (fun e _ h => ?_)
    fun retained s₃ h₃ => ?_
  · obtain ⟨⟨all, hall⟩, -⟩ := h
    cases hall
  obtain ⟨names, same, rest⟩ := h₃.2 retained rfl
  obtain rfl := List.map_injective_iff.2 (fun _ _ => Except.ok.inj) same
  obtain ⟨left, kept⟩ := rest (perm.nodup_iff.2 s.disk.nodup_names) fun name => perm.mem_iff.1
  rw [List.nil_append] at kept
  subst kept
  have sorted := Rows.orderBy_perm (fun a b : LogFile => compare b.modified a.modified)
    (retention.eligible cutoff (s.disk.listedLogs order))
  refine h.ok_enforceLimits _ _ _ _ ?_ (fun logFile mem => ?_) s₃.2
  · refine (sorted.map LogFile.path).nodup_iff.2 ?_
    have nodup := ((Disk.listedLogs_perm perm).map LogFile.path).nodup_iff.2 Disk.nodup_paths
    exact nodup.sublist (List.filter_sublist.map _)
  · rw [left]
    exact eligible_known perm (sorted.mem_iff.1 mem)

/-! ### Rotation -/

theorem ok_rotateLogs (s : LogDir) (n : ℕ) :
    Ends (timed filesystem inputs) (rotateLogs retention) (s, n) fun result _ =>
      result = .ok () := by
  unfold rotateLogs
  dsimp only
  rw [ends_ite_iff]
  refine ⟨fun _ => h.noErrors.ok_removeIfExists _ s n, fun _ => ?_⟩
  exact (h.noErrors.ok_moveLogs _ s n).bind (fun _ _ h => nomatch h) fun _ s₁ _ => h.ok_cleanupLogs s₁.1 s₁.2

theorem ok_openAppend (name : FileName) (s : LogDir) (n : ℕ) :
    Ends (timed filesystem inputs) (Fs.openAppend name) (s, n) fun result _ =>
      ∃ i, result = .ok i := by
  show ∃ i, (filesystem (inputs n) (.openAppend name) s).1 = .ok i
  simp only [filesystem, h.noErrors.attempt]
  split
  · exact ⟨_, rfl⟩
  · exact ⟨_, rfl⟩

theorem ok_flush (s : LogDir) (n : ℕ) : Ends (timed filesystem inputs) Fs.flush (s, n)
    fun result _ => result = .ok () := by
  show (filesystem (inputs n) .flush s).1 = _
  simp only [filesystem, h.noErrors.attempt]

theorem ok_rotate (s : LogDir) (n : ℕ) :
    Ends (timed filesystem inputs) (LogState.rotate retention) (s, n) fun result _ =>
      result = .ok () := by
  unfold LogState.rotate
  refine (h.ok_flush s n).bind (fun _ _ h => nomatch h) fun _ s₁ _ => ?_
  refine (h.ok_rotateLogs s₁.1 s₁.2).bind (fun _ _ h => nomatch h) fun _ s₂ _ => ?_
  refine (h.ok_openAppend currentLog s₂.1 s₂.2).bind (fun _ _ h => ?_) fun i s₃ _ => rfl
  obtain ⟨i, hi⟩ := h
  cases hi

/-- A rotation, if it is needed, opens an empty current log. -/
theorem ends_rotateIf (needed : Bool) {s : LogDir} (opened : s.file < s.disk.files.length) (n : ℕ) :
    Ends (timed filesystem inputs) (LogState.rotateIf retention needed) (s, n) fun result s' =>
      result = .ok () ∧ s'.1.file < s'.1.disk.files.length ∧
        (needed = true → s'.1.Attached ∧ s'.1.disk.content s'.1.file = []) ∧
          (needed = false → s'.1 = s) := by
  unfold LogState.rotateIf
  rw [ends_ite_iff]
  constructor
  · intro needs
    refine ((h.ok_rotate s n).and (ends_rotate_current h.entries s n)).mono fun result s' h => ?_
    obtain ⟨attached, f, hf, empty⟩ := h.2 h.1
    refine ⟨h.1, (List.getElem?_eq_some_iff.1 hf).1, fun _ => ⟨attached, ?_⟩, ?_⟩
    · unfold Disk.content
      rw [hf]
      exact empty
    · rw [needs]
      nofun
  · intro stays
    exact ⟨rfl, opened, fun needs => absurd needs stays, fun _ => rfl⟩

theorem ends_cleanupRetention {s : LogDir} (opened : s.file < s.disk.files.length) (n : ℕ) :
    Ends (timed filesystem inputs) (LogState.cleanupRetention retention) (s, n) fun result s' =>
      result = .ok () ∧ s'.1.file < s'.1.disk.files.length := by
  unfold LogState.cleanupRetention
  have check : Ends (timed filesystem inputs) (currentLogNeedsRotation retention) (s, n)
      fun result s' => (∃ needed, result = .ok needed) ∧ s'.1 = s := by
    unfold currentLogNeedsRotation
    refine (h.ends_metadata (List.getElem?_eq_getElem opened) n).bind (fun _ _ h => nomatch h.1)
      fun metadata s₁ h₁ => ?_
    obtain rfl := h₁.2
    rw [ends_ite_iff]
    refine ⟨fun _ => ⟨⟨_, rfl⟩, rfl⟩, fun _ => ?_⟩
    refine (h.ok_retentionCutoff s (n + 1)).bind (fun _ _ h => ?_) fun cutoff s₂ h₂ => ?_
    · obtain ⟨⟨cutoff, hc⟩, -⟩ := h
      cases hc
    · obtain rfl := h₂.2
      exact ⟨⟨_, rfl⟩, rfl⟩
  refine check.bind (fun _ _ h => ?_) fun needed s₁ h₁ => ?_
  · obtain ⟨⟨needed, hn⟩, -⟩ := h
    cases hn
  obtain ⟨s₁, n₁⟩ := s₁
  obtain rfl : s₁ = s := h₁.2
  refine (h.ends_rotateIf needed opened n₁).bind (fun _ _ h => nomatch h.1) fun _ s₂ h₂ => ?_
  refine ((h.ok_cleanupLogs s₂.1 s₂.2).and (ends_cleanupLogs h.entries s₂.1 s₂.2)).mono
    fun result s' h => ⟨h.1, ?_⟩
  obtain ⟨cutoff, -, eq⟩ := h.2 h.1
  rw [eq]
  exact (Disk.length_relabel _ _).symm ▸ h₂.2.1

theorem ends_write (bytes : List UInt8) {s : LogDir} (opened : s.file < s.disk.files.length)
    (n : ℕ) : Ends (timed filesystem inputs) (Fs.write bytes) (s, n) fun result s' =>
      result = .ok (min (inputs n).accepts bytes.length) ∧ s'.1.file = s.file ∧
        s'.1.disk.files.length = s.disk.files.length := by
  rcases filesystem_write (inputs n) s bytes with ⟨error, eq⟩ | ⟨-, k, hk, eq⟩
  · simp only [filesystem, h.noErrors.attempt, List.getElem?_eq_getElem opened] at eq
    cases eq
  · show (filesystem (inputs n) (.write bytes) s).1 = _ ∧ _ ∧ _
    show _ ∧ (filesystem (inputs n) (.write bytes) s).2.file = _ ∧
      (filesystem (inputs n) (.write bytes) s).2.disk.files.length = _
    rw [eq, ← hk]
    refine ⟨rfl, ?_⟩
    dsimp only
    split_ifs
    · exact ⟨rfl, rfl⟩
    · exact ⟨rfl, Disk.length_append _ _ _ _⟩

omit h in
theorem quiet_of_uses {α : Type} (inputs : ℕ → FsInput) {p : Fs α}
    (uses : p.run.Uses FsOp.KeepsBytes) (s : LogDir × ℕ) :
    ∀ x ∈ p.run.trace (timed filesystem inputs) s, appended x.2 = [] :=
  fun x hx => appended_of_ne (uses.trace _ s x hx)

/-- A write appends at least one byte, the whole buffer if a file and the call have room for it, and
the open file is the current log at that moment if it was before or the write rotates first. -/
theorem write_completes (valid : validateRetention retention = .ok ()) {s : LogDir}
    (opened : s.file < s.disk.files.length) {buf : List UInt8} (nonempty : buf ≠ []) (n : ℕ) :
    ∃ k before s₁ bytes after s', Completes (timed filesystem inputs)
        (LogState.write retention buf) (s, n) k s'
        (before ++ (s₁, ⟨.write bytes, .ok k⟩) :: after) ∧
      1 ≤ k ∧ k ≤ buf.length ∧ bytes.take k = buf.take k ∧
        (∀ x ∈ before ++ after, appended x.2 = []) ∧
          (s₁.1.Attached ↔ s.Attached ∨
            LogState.WriteRotates retention (s.disk.content s.file).length buf) ∧
            s'.1.file < s'.1.disk.files.length ∧
              (retention.maxFileBytes.toNat < 2 ^ 64 - 1 →
                buf.length ≤ retention.maxFileBytes.toNat →
                  (∀ n, buf.length ≤ (inputs n).accepts) → k = buf.length) := by
  obtain ⟨places, -, -⟩ := validateRetention_ok_iff.1 valid
  have some {s : LogDir} (opened : s.file < s.disk.files.length) :
      s.disk.files[s.file]? = some s.disk.files[s.file] := List.getElem?_eq_getElem opened
  have size {s : LogDir} (opened : s.file < s.disk.files.length) :
      s.disk.files[s.file].content = s.disk.content s.file := by
    unfold Disk.content
    rw [some opened]
    rfl
  unfold LogState.write
  rw [if_neg (by simpa using nonempty)]
  obtain ⟨_, rfl, first⟩ := (h.ends_metadata (some opened) n).completes
  set needed := decide (LogState.WriteRotates retention
    ((inputs n).metadata s.disk.files[s.file]).len buf) with hneeded
  obtain ⟨⟨s₁, n₁⟩, ⟨opened₁, rotated, stayed⟩, second⟩ :=
    (h.ends_rotateIf needed opened (n + 1)).completes
  dsimp only at opened₁ rotated stayed
  obtain ⟨_, rfl, third⟩ := (h.ends_metadata (some opened₁) n₁).completes
  have len {s : LogDir} (opened : s.file < s.disk.files.length) (n : ℕ) :
      ((inputs n).metadata s.disk.files[s.file]).len = (s.disk.content s.file).length :=
    congrArg List.length (size opened)
  rw [len opened] at hneeded
  have room : (s₁.disk.content s₁.file).length < retention.maxFileBytes.toNat := by
    cases hn : needed with
    | true =>
      rw [(rotated hn).2]
      exact places
    | false =>
      obtain rfl : s₁ = s := stayed hn
      rw [hn] at hneeded
      have below := of_decide_eq_false hneeded.symm
      unfold LogState.WriteRotates at below
      omega
  set bytes := buf.take (min (retention.maxFileBytes.toNat -
    ((inputs n₁).metadata s₁.disk.files[s₁.file]).len) buf.length) with hbytes
  have part : bytes.length = min (retention.maxFileBytes.toNat -
      (s₁.disk.content s₁.file).length) buf.length := by
    rw [hbytes, len opened₁, List.length_take, Nat.min_eq_left (Nat.min_le_right _ _)]
  obtain ⟨⟨s₂, n₂⟩, ⟨same, length⟩, fourth⟩ := (h.ends_write bytes opened₁ (n₁ + 1)).completes
  set k := min (inputs (n₁ + 1)).accepts bytes.length with hk
  have opened₂ : s₂.file < s₂.disk.files.length := by
    rw [same, length]
    exact opened₁
  have answered : (timed filesystem inputs (.write bytes) (s₁, n₁ + 1)).1 = .ok k :=
    congrArg Prod.fst fourth.1
  have one : (Fs.write bytes).run.trace (timed filesystem inputs) (s₁, n₁ + 1) =
      [((s₁, n₁ + 1), ⟨.write bytes, .ok k⟩)] := by
    rw [← answered]
    rfl
  rw [one] at fourth
  obtain ⟨s₃, opened₃, fifth⟩ := (h.ends_cleanupRetention opened₂ n₂).completes
  have positive := h.accepts (n₁ + 1)
  have nonempty' : 0 < buf.length := List.length_pos_iff.2 nonempty
  refine ⟨k, Fs.metadata.run.trace (timed filesystem inputs) (s, n) ++
    ((LogState.rotateIf retention needed).run.trace (timed filesystem inputs) (s, n + 1) ++
      Fs.metadata.run.trace (timed filesystem inputs) (s₁, n₁)), (s₁, n₁ + 1), bytes,
    (LogState.cleanupRetention retention).run.trace (timed filesystem inputs) (s₂, n₂), s₃, ?_,
    by omega, by omega, ?_, ?_, ?_, opened₃, fun bounded fits accepted => ?_⟩
  · have whole := fifth.bind (f := fun _ => pure k) (completes_pure k)
    rw [List.append_nil] at whole
    rw [List.append_assoc, List.append_assoc]
    exact first.bind (second.bind (third.bind (fourth.bind whole)))
  · have stays := len opened₁ n₁
    rw [hbytes, List.take_take]
    congr 1
    omega
  · have size (s : LogDir × ℕ) := quiet_of_uses inputs (p := Fs.metadata)
      (Program.uses_call nofun) s
    simp only [List.forall_mem_append]
    exact ⟨⟨size _, quiet_of_uses inputs (keepsBytes_rotateIf needed) _, size _⟩,
      quiet_of_uses inputs keepsBytes_cleanupRetention _⟩
  · cases hn : needed with
    | true =>
      rw [hn] at hneeded
      exact iff_of_true (rotated hn).1 (.inr (of_decide_eq_true hneeded.symm))
    | false =>
      obtain rfl : s₁ = s := stayed hn
      rw [hn] at hneeded
      exact (or_iff_left (of_decide_eq_false hneeded.symm)).symm
  · have spare : (s₁.disk.content s₁.file).length + buf.length ≤ retention.maxFileBytes.toNat := by
      cases hn : needed with
      | true =>
        rw [(rotated hn).2, List.length_nil, Nat.zero_add]
        exact fits
      | false =>
        obtain rfl : s₁ = s := stayed hn
        rw [hn] at hneeded
        have below := of_decide_eq_false hneeded.symm
        unfold LogState.WriteRotates saturatingAdd at below
        omega
    have takes := accepted (n₁ + 1)
    omega

/-- What a write returns, and what it has appended by then. -/
theorem write_ends (valid : validateRetention retention = .ok ()) {s : LogDir}
    (opened : s.file < s.disk.files.length) {buf : List UInt8} (nonempty : buf ≠ []) (n : ℕ) :
    let write := (LogState.write retention buf).run
    ∃ k s', write.exec (timed filesystem inputs) (s, n) = (.ok k, s') ∧
      (write.acts (timed filesystem inputs) (s, n)).flatMap appended = buf.take k ∧
        1 ≤ k ∧ k ≤ buf.length ∧ s'.1.file < s'.1.disk.files.length ∧
          (retention.maxFileBytes.toNat < 2 ^ 64 - 1 →
            buf.length ≤ retention.maxFileBytes.toNat →
              (∀ n, buf.length ≤ (inputs n).accepts) → k = buf.length) := by
  obtain ⟨k, before, s₁, bytes, after, s', ⟨ended, traced⟩, positive, within, same, quiet, -,
    opened', whole⟩ := h.write_completes valid opened nonempty n
  refine ⟨k, s', ended, ?_, positive, within, opened', whole⟩
  rw [List.forall_mem_append] at quiet
  rw [← map_trace, traced, List.flatMap_map, List.flatMap_append, List.flatMap_cons,
    List.flatMap_eq_nil_iff.2 quiet.1, List.flatMap_eq_nil_iff.2 quiet.2, List.nil_append,
    List.append_nil]
  exact same

theorem writeAll_completes (valid : validateRetention retention = .ok ()) (fuel : ℕ)
    {buf : List UInt8} (le : buf.length ≤ fuel) {s : LogDir}
    (opened : s.file < s.disk.files.length) (n : ℕ) :
    let loop := (RotatingLogHandle.writeAll retention fuel buf).run
    (loop.exec (timed filesystem inputs) (s, n)).1 = .ok (some ()) ∧
      (loop.acts (timed filesystem inputs) (s, n)).flatMap appended = buf := by
  induction fuel generalizing buf s n with
  | zero =>
    obtain rfl := List.length_eq_zero_iff.1 (Nat.le_zero.1 le)
    exact ⟨rfl, rfl⟩
  | succ fuel ih =>
    cases buf with
    | nil => exact ⟨rfl, rfl⟩
    | cons b buf =>
    obtain ⟨k, ⟨s', n'⟩, ended, added, positive, -, opened', -⟩ :=
      h.write_ends valid opened (List.cons_ne_nil b buf) n
    obtain ⟨j, rfl⟩ : ∃ j, k = j + 1 := ⟨k - 1, by omega⟩
    have shorter : ((b :: buf).drop (j + 1)).length ≤ fuel := by
      rw [List.length_drop]
      omega
    obtain ⟨rest, added'⟩ := ih shorter opened' n'
    dsimp only
    unfold RotatingLogHandle.writeAll
    rw [RotatingLogHandle.acts_lift_bind, List.flatMap_append, added,
      RotatingLogHandle.exec_lift_bind, ended]
    refine ⟨rest, ?_⟩
    conv_rhs => rw [← List.take_append_drop (j + 1) (b :: buf)]
    exact congrArg _ added'

end Faultless

/-- Without failing calls, a write of some bytes to an open file returns a positive number of bytes
within its buffer and has appended exactly these; they went to the current log if and only if the
open file was the current log before or the write rotated first.  The loop of writes ends with the
whole buffer appended. -/
theorem write_progress (retention : LogRetention) (valid : validateRetention retention = .ok ())
    (inputs : ℕ → FsInput) (faultless : Faultless retention inputs) (s : LogDir)
    (opened : s.file < s.disk.files.length) (buf : List UInt8) :
    (buf ≠ [] →
      let write := (LogState.write retention buf).run
      ∃ written before s₁ bytes after,
        (write.exec (timed filesystem inputs) (s, 0)).1 = .ok written ∧
          1 ≤ written ∧ written ≤ buf.length ∧
        write.trace (timed filesystem inputs) (s, 0) =
          before ++ (s₁, ⟨.write bytes, .ok written⟩) :: after ∧
        bytes.take written = buf.take written ∧ (∀ x ∈ before ++ after, appended x.2 = []) ∧
        (s₁.1.Attached ↔
          s.Attached ∨ LogState.WriteRotates retention (s.disk.content s.file).length buf)) ∧
    ∀ fuel, buf.length ≤ fuel →
      let loop := (RotatingLogHandle.writeAll retention fuel buf).run
      (loop.exec (timed filesystem inputs) (s, 0)).1 = .ok (some ()) ∧
        (loop.acts (timed filesystem inputs) (s, 0)).flatMap appended = buf := by
  refine ⟨fun nonempty => ?_, fun fuel le => faultless.writeAll_completes valid fuel le opened 0⟩
  obtain ⟨k, before, s₁, bytes, after, s', ⟨ended, traced⟩, positive, within, same, quiet, current,
    -⟩ := faultless.write_completes valid opened nonempty 0
  exact ⟨k, before, s₁, bytes, after, congrArg Prod.fst ended, positive, within, traced, same, quiet,
    current⟩

theorem faultless_undisturbed {retention : LogRetention} (age : retention.maxAge ≤ 1000) :
    Faultless retention undisturbed where
  calls := fun _ => rfl
  entries := readable_undisturbed
  listings := fun _ => rfl
  clock := fun n => by
    unfold checkedSub
    rw [if_pos]
    · rfl
    · show (-9223372036854775808000000000 : ℤ) ≤ (n : ℤ) - retention.maxAge
      omega
  accepts := fun _ => Nat.two_pow_pos 20

/-- A buffer that is larger than two files. -/
theorem write_progress_example :
    (∃ written, ((LogState.write narrowRetention [4, 5]).run.exec (timed filesystem undisturbed)
      (openDirectory, 0)).1 = .ok written ∧ 1 ≤ written) ∧
    ((RotatingLogHandle.writeAll narrowRetention 9 [1, 2, 3, 4, 5, 6, 7, 8, 9]).run.acts
      (timed filesystem undisturbed) (openDirectory, 0)).flatMap appended =
        [1, 2, 3, 4, 5, 6, 7, 8, 9] := by
  have progress := write_progress narrowRetention (by decide) undisturbed
    (faultless_undisturbed (by decide)) openDirectory (by decide)
  obtain ⟨written, _, _, _, _, ended, positive, -⟩ := (progress [4, 5]).1 (by decide)
  exact ⟨⟨written, ended, positive⟩, ((progress _).2 9 (by decide)).2⟩

/-- A tick has lost the current log; the next write returns the number of bytes that it appended to
a file without a name. -/
theorem write_progress_lost :
    let retention : LogRetention := ⟨10, 20, 2, 3⟩
    let (started, s) := (RotatingLogWriter.new retention).run.exec (timed filesystem undisturbed)
      (emptyDirectory, 0)
    let (ticked, s') := (LogState.cleanupRetention retention).run.exec
      (timed filesystem undisturbed) s
    let (result, s'', _) := (LogState.write retention [1]).run.exec (timed filesystem undisturbed) s'
    started = .ok () ∧ ticked = .ok () ∧ result = .ok 1 ∧ s''.disk.content 0 = [1] ∧
      s''.disk.files.map Inode.name = [none] := by
  decide +kernel

end KeyroCore
