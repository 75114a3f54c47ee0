import KeyroCore.Linearization

/-!
# What clients see of each other

Every snapshot that is sent depicts one catalog of the run, so it is consistent in itself.  A write
that a client was told of is what all later reads find, until the control is written again.
-/

open Effect Program Fallible Clients Results

namespace KeyroCore

section Service

variable [UrlCrate]

/-! ## Writes under a control -/

/-- What an operation writes under a control, if it does. -/
def writesUnder (k : ProfileId × ControlId) : Act CoreCalls → Option (List Action)
  | ⟨.lock (.saveAssignment a), .ok _⟩ =>
      if k = (a.profileId, a.control) then some a.actions else none
  | ⟨.lock (.clearAssignment profileId control), .ok _⟩ =>
      if k = (profileId, control) then some [] else none
  | _ => none

theorem entry_put_of_known {cat : CoreCatalog} {profileId : ProfileId} (known : cat.Known profileId)
    (control : ControlId) (actions : List Action) (k : ProfileId × ControlId) :
    (cat.put profileId control actions).entries.entry k =
      ((if k = (profileId, control) then some actions else none).getD (cat.entries.entry k)) := by
  rw [Catalog.entries_put known, ListMap.entry_put]
  split_ifs <;> rfl

/-- An operation changes the entries that it writes, and no others. -/
theorem entry_afterAct {cat : CoreCatalog} {a : Act CoreCalls} (answers : AnswersAct cat a)
    (k : ProfileId × ControlId) :
    (afterAct cat a).entries.entry k = (writesUnder k a).getD (cat.entries.entry k) := by
  obtain ⟨o, x⟩ := a
  cases o with
  | lock r =>
    rcases x with error | value
    · show (r.catalogAfter (.error error) cat).entries.entry k = _
      rw [catalogAfter_error]
      cases r <;> rfl
    · have served : r.Answers cat (.ok value) := by
        rcases answers with ⟨_, same⟩ | served
        · cases same
        · exact served
      cases r with
      | updateProfileName profileId name =>
        show (cat.rename profileId name).entries.entry k = _
        rw [Catalog.rename_of_known (ifKnown_ok served)]
        rfl
      | setActiveProfile profileId =>
        show (cat.activate profileId).entries.entry k = _
        rw [Catalog.entries_activate]
        rfl
      | saveAssignment a => exact entry_put_of_known (ifKnown_ok served) a.control a.actions k
      | clearAssignment profileId control =>
        exact entry_put_of_known (ifKnown_ok served) control [] k
      | _ => rfl
  | _ => rfl

/-- The commands that write under a control, with what they write. -/
inductive CoreCommand.Puts : CoreCommand → ProfileId × ControlId → List Action → Prop
  | save (a : Assignment) : Puts (.saveAssignment a) (a.profileId, a.control) a.actions
  | clear (profileId : ProfileId) (control : ControlId) :
      Puts (.clearAssignment profileId control) (profileId, control) []

/-- A write that succeeded is the entry of the catalog that it leaves. -/
theorem Performs.put {cat cat' : CoreCatalog} {command : CoreCommand} {response : CoreResponse}
    {k : ProfileId × ControlId} {actions : List Action} (puts : command.Puts k actions)
    (performs : Performs cat command (.ok response) cat') : cat'.entries.entry k = actions := by
  cases puts with
  | save a =>
    cases performs with
    | saved known =>
      rw [entry_put_of_known known, if_pos rfl]
      rfl
  | clear profileId control =>
    cases performs with
    | cleared known =>
      rw [entry_put_of_known known, if_pos rfl]
      rfl

/-- A successful write takes one region. -/
theorem Explained.put {cat : ℕ → CoreCatalog} {past : Past CoreCalls} {command : CoreCommand}
    {response : CoreResponse} {k : ProfileId × ControlId} {actions : List Action}
    (puts : command.Puts k actions) (explained : Explained cat past command (.ok response)) :
    ∃ t, lockTimes past = [t] ∧ (cat (t + 1)).entries.entry k = actions := by
  cases explained with
  | alone only performs => exact ⟨_, only, performs.put puts⟩
  | renamed => cases puts
  | ran => cases puts

/-! ## Snapshots -/

section Snapshots

variable [UuidCrate]

/-- The parts of a snapshot message list the profiles and the entries of the catalog. -/
structure Depicts (cat : CoreCatalog) (layout : DeviceLayoutDto) (profiles : List ProfileDto)
    (assignments : List SnapshotAssignmentDto) : Prop where
  layout : layout = layoutToDto MVP_DEVICE_LAYOUT
  profiles : ∃ listed, ListsProfiles listed cat ∧ profiles = listed.map profileToDto
  assignments : ∃ listed, Lists listed cat.entries ∧ assignments = listed.map fun a =>
    ⟨a.profileId.toString, controlToDto a.control, a.actions.map actionToDto⟩

/-- A snapshot message that is consistent in itself. -/
structure Consistent (layout : DeviceLayoutDto) (profiles : List ProfileDto)
    (assignments : List SnapshotAssignmentDto) : Prop where
  ids : (profiles.map ProfileDto.id).Nodup
  one_active : (profiles.filter fun profile => profile.isActive).length = 1
  controls : (assignments.map fun a => (a.profileId, a.control)).Nodup
  listed : ∀ a ∈ assignments, a.profileId ∈ profiles.map ProfileDto.id
  filled : ∀ a ∈ assignments, a.actions ≠ []
  on_layout : ∀ a ∈ assignments, match a.control with
    | .key page key => page < layout.pageCount ∧ key < layout.keyRows * layout.keyColumns
    | .encoder page encoder _ => page < layout.pageCount ∧ encoder < layout.encoderCount

omit [UrlCrate] [UuidCrate] in
theorem toUInt16_lt {a b : UInt8} (lt : a < b) : a.toUInt16 < b.toUInt16 := by
  rw [UInt16.lt_iff_toNat_lt, UInt8.toNat_toUInt16, UInt8.toNat_toUInt16]
  exact UInt8.lt_iff_toNat_lt.1 lt

omit [UrlCrate] [UuidCrate] in
theorem controlToDto_inj {control control' : ControlId}
    (same : controlToDto control = controlToDto control') : control = control' := by
  have read := controlFromDto_controlToDto control
  rw [same, controlFromDto_controlToDto] at read
  exact (Except.ok.inj read).symm

/-- What depicts a catalog is consistent. -/
theorem Depicts.consistent (hp : UuidCrate.ParseInverts) {cat : CoreCatalog}
    {layout : DeviceLayoutDto} {profiles : List ProfileDto}
    {assignments : List SnapshotAssignmentDto} (depicts : Depicts cat layout profiles assignments) :
    Consistent layout profiles assignments := by
  obtain ⟨rfl, ⟨listed, lists, rfl⟩, ⟨saved, entries, rfl⟩⟩ := depicts
  have present : ∀ a ∈ saved, cat.Known a.profileId ∧ a.actions ≠ [] := by
    intro a mem
    have entry := (entries.mem_iff a).1 mem
    obtain ⟨⟨actions, filled⟩, stored, same⟩ := Option.map_eq_some_iff.1 entry
    obtain rfl : actions = a.actions := same
    refine ⟨cat.entries_known a.profileId a.control ?_, filled⟩
    unfold ListMap.entry
    rw [stored]
    exact filled
  refine ⟨?_, ?_, ?_, ?_, ?_, ?_⟩
  · rw [List.map_map]
    have ids : ProfileDto.id ∘ profileToDto = ProfileId.toString ∘ Profile.id := rfl
    rw [ids, ← List.map_map]
    exact lists.nodup.map fun _ _ => (ProfileId.toString_inj hp).1
  · rw [List.filter_map, List.length_map]
    exact ensureExactlyOneActive_ok_iff.1 lists.ensure
  · rw [List.map_map]
    have keys : (fun a : SnapshotAssignmentDto => (a.profileId, a.control)) ∘ (fun a : Assignment =>
        (⟨a.profileId.toString, controlToDto a.control, a.actions.map actionToDto⟩ :
          SnapshotAssignmentDto)) =
      (fun k : ProfileId × ControlId => (k.1.toString, controlToDto k.2)) ∘
        fun a => (a.profileId, a.control) := rfl
    rw [keys, ← List.map_map]
    apply entries.nodup.map
    rintro ⟨profileId, control⟩ ⟨profileId', control'⟩ same
    obtain ⟨ids, controls⟩ := Prod.mk.inj same
    obtain rfl : profileId = profileId' := (ProfileId.toString_inj hp).1 ids
    obtain rfl : control = control' := controlToDto_inj controls
    rfl
  · rw [List.forall_mem_map]
    intro a mem
    obtain ⟨profile, stored, same⟩ := lists.known_iff.1 (present a mem).1
    rw [List.map_map]
    exact List.mem_map.2 ⟨profile, stored, congrArg ProfileId.toString same⟩
  · rw [List.forall_mem_map]
    intro a mem empty
    exact (present a mem).2 (List.map_eq_nil_iff.1 empty)
  · rw [List.forall_mem_map]
    intro a mem
    dsimp only
    cases a.control with
    | key page key => exact ⟨toUInt16_lt page.lt, toUInt16_lt key.lt⟩
    | encoder page encoder operation => exact ⟨toUInt16_lt page.lt, toUInt16_lt encoder.lt⟩

/-- The actions that the parts of a snapshot message list under a control. -/
theorem Depicts.mem_iff (hp : UuidCrate.ParseInverts) {cat : CoreCatalog} {layout : DeviceLayoutDto}
    {profiles : List ProfileDto} {assignments : List SnapshotAssignmentDto}
    (depicts : Depicts cat layout profiles assignments) (k : ProfileId × ControlId)
    (listed : List ActionDto) : ⟨k.1.toString, controlToDto k.2, listed⟩ ∈ assignments ↔
      cat.entries.entry k ≠ [] ∧ listed = (cat.entries.entry k).map actionToDto := by
  obtain ⟨-, -, saved, entries, rfl⟩ := depicts
  have stored (actions : List Action) : (⟨k.1, k.2, actions⟩ : Assignment) ∈ saved ↔
      cat.entries.entry k ≠ [] ∧ cat.entries.entry k = actions := by
    rw [entries.mem_iff, cat.entries.eq_value_entry, ListMap.map_val_value]
    show (if cat.entries.entry k = [] then none else some _) = some actions ↔ _
    split_ifs with empty
    · simp [empty]
    · simp [empty]
  rw [List.mem_map]
  constructor
  · rintro ⟨⟨profileId, control, actions⟩, mem, same⟩
    obtain ⟨ids, controls, rfl⟩ := SnapshotAssignmentDto.mk.inj same
    obtain rfl : profileId = k.1 := (ProfileId.toString_inj hp).1 ids
    obtain rfl : control = k.2 := controlToDto_inj controls
    obtain ⟨filled, rfl⟩ := (stored actions).1 mem
    exact ⟨filled, rfl⟩
  · rintro ⟨filled, rfl⟩
    exact ⟨_, (stored _).2 ⟨filled, rfl⟩, rfl⟩

end Snapshots

/-! ## Runs -/

section Runs

variable [SerdeJson] [UuidCrate] [RusqliteCrate] {db : Db} {cat : CoreCatalog} {c : Lines} {t : ℕ}
  {e : LineEntry}

omit [SerdeJson] [RusqliteCrate] in
theorem Performs.depicts {cat cat' : CoreCatalog} {command : CoreCommand} {response : CoreResponse}
    {requestId requestId' : String} {layout : DeviceLayoutDto} {profiles : List ProfileDto}
    {assignments : List SnapshotAssignmentDto} (performs : Performs cat command (.ok response) cat')
    (reply : .snapshot requestId layout profiles assignments =
      responseFromCore requestId' response) : Depicts cat layout profiles assignments := by
  cases performs with
  | snapshot lists entries =>
    cases reply
    refine ⟨rfl, ⟨_, lists, rfl⟩, ⟨_, entries, ?_⟩⟩
    rw [SnapshotState.snapshot, List.map_map]
    rfl
  | _ => cases reply

omit [SerdeJson] [RusqliteCrate] in
/-- A command that answers a snapshot depicts the catalog of its region. -/
theorem Explained.snapshot {cat : ℕ → CoreCatalog} {past : Past CoreCalls} {command : CoreCommand}
    {result : Except AppError CoreResponse} {requestId requestId' : String} {layout : DeviceLayoutDto}
    {profiles : List ProfileDto} {assignments : List SnapshotAssignmentDto}
    (explained : Explained cat past command result)
    (reply : .snapshot requestId layout profiles assignments = commandReply requestId' result) :
    ∃ t, lockTimes past = [t] ∧ Depicts (cat t) layout profiles assignments := by
  rcases result with error | response
  · cases error <;> cases reply
  cases explained with
  | alone only performs => exact ⟨_, only, performs.depicts reply⟩
  | renamed => cases reply
  | ran _ _ _ ran =>
    cases ran
    cases reply

/-- A snapshot message of a run depicts the catalog of the moment at which its job has locked the
store. -/
theorem Linearizes.snapshot (lin : Linearizes db cat c)
    (traced : Traced connections coreHandler db c) (he : c.history[t]? = some e)
    {requestId : String} {layout : DeviceLayoutDto} {profiles : List ProfileDto}
    {assignments : List SnapshotAssignmentDto} {written : Except String Unit}
    (act : e.act = ⟨.write (.snapshot requestId layout profiles assignments), written⟩) :
    ∃ t' < t, lockTimes e.past = [t'] ∧
      Depicts (catalogAt cat c t') layout profiles assignments := by
  obtain ⟨session, r, open_, path⟩ := linePath_of_entry traced (List.mem_of_getElem? he)
  rcases received : (session.receiveLine e.job).1 with message | ⟨requestId', command⟩
  · rw [act] at path
    rcases path.of_immediate (Prod.ext received rfl) with ⟨nothing, -⟩ | ⟨written', only, -⟩
    · exact absurd nothing (by simp)
    · rcases List.append_eq_singleton_iff.1 only with ⟨-, same⟩ | ⟨-, same⟩ <;> cases same
      rcases immediate_cases received with ⟨_, same⟩ | ⟨_, _, same⟩ <;> cases same
  · obtain ⟨result, reply, before, explained⟩ :=
      lin.explained t e session requestId' command _ written he open_ received act rfl
    obtain ⟨t', only, depicts⟩ := explained.snapshot reply
    refine ⟨t', before t' ?_, only, depicts⟩
    rw [only]
    exact List.mem_singleton_self _

/-- Every snapshot that a run sends, whatever runs at the same time, is consistent in itself. -/
theorem snapshots_consistent (hp : UuidCrate.ParseInverts) (h : db.Holds cat)
    (moves : List (Move String CoreInput)) :
    ∀ e ∈ (run connections coreHandler (listening db) moves).history,
      ∀ requestId layout profiles assignments written,
        e.act = ⟨.write (.snapshot requestId layout profiles assignments), written⟩ →
          Consistent layout profiles assignments := by
  have traced : Traced connections coreHandler db
      (run connections coreHandler (listening db) moves) := traced_run _ _ _
  intro e mem requestId layout profiles assignments written act
  obtain ⟨t, he⟩ := List.getElem?_of_mem mem
  obtain ⟨t', -, -, depicts⟩ := (linearizes_of_traced hp h traced).snapshot traced he act
  exact depicts.consistent hp

/-! ## Reads after a write -/

/-- No operation from the moment `s` to the moment `t` writes under the control. -/
def Untouched (history : List LineEntry) (k : ProfileId × ControlId) (s t : ℕ) : Prop :=
  ∀ u e, s ≤ u → u < t → history[u]? = some e → writesUnder k e.act = none

omit [SerdeJson] [UuidCrate] [RusqliteCrate] in
/-- The entry of a control stays until it is written. -/
theorem entry_untouched
    (answers : ∀ t e, c.history[t]? = some e → AnswersAct (catalogAt cat c t) e.act)
    {k : ProfileId × ControlId} {s t : ℕ} (le : s ≤ t) (ht : t ≤ c.history.length)
    (untouched : Untouched c.history k s t) :
    (catalogAt cat c t).entries.entry k = (catalogAt cat c s).entries.entry k := by
  induction t, le using Nat.le_induction with
  | base => rfl
  | succ t le ih =>
    have he : c.history[t]? = some c.history[t] := List.getElem?_eq_getElem ht
    have next : catalogAt cat c (t + 1) = afterAct (catalogAt cat c t) c.history[t].act :=
      abstractAt_succ he
    rw [next, entry_afterAct (answers t _ he), untouched t _ le (Nat.lt_succ_self t) he,
      Option.getD_none]
    exact ih (Nat.le_of_lt ht) fun u e le' lt => untouched u e le' (Nat.lt_succ_of_lt lt)

/-- The actions under a control are what every read finds that comes after the moment `s`, as long
as nothing else is written under the control. -/
structure VisibleAfter (cat : CoreCatalog) (c : Lines) (s : ℕ) (k : ProfileId × ControlId)
    (actions : List Action) : Prop where
  /-- A snapshot lists them, or omits the control if there are none. -/
  snapshot : ∀ e ∈ c.history, ∀ requestId layout profiles assignments written t,
    e.act = ⟨.write (.snapshot requestId layout profiles assignments), written⟩ →
    lockTimes e.past = [t] → s < t → Untouched c.history k (s + 1) t →
    ∀ listed, ⟨k.1.toString, controlToDto k.2, listed⟩ ∈ assignments ↔
      actions ≠ [] ∧ listed = actions.map actionToDto
  /-- A virtual input that is acknowledged, and found the profile active, has opened the first. -/
  pressed : ∀ e ∈ c.history, ∀ session requestId written t t', e.loc = some session →
    (session.receiveLine e.job).1 = .command requestId (.virtualControlInput k.2) →
    e.act = ⟨.write (.acknowledged requestId), written⟩ →
    lockTimes e.past = [t, t'] → (catalogAt cat c t).active = k.1 → s < t' →
    Untouched c.history k (s + 1) t' →
    ∃ url rest, actions = .openUrl url :: rest ∧ ⟨.openUrl url, .ok ()⟩ ∈ e.past.map Prod.snd

omit [SerdeJson] [UuidCrate] [RusqliteCrate] in
/-- An acknowledged virtual input has run the first action that it found. -/
theorem Explained.pressed {cat : ℕ → CoreCatalog} {past : Past CoreCalls} {control : ControlId}
    {response : CoreResponse}
    (explained : Explained cat past (.virtualControlInput control) (.ok response)) :
    ∃ t t' url rest, lockTimes past = [t, t'] ∧
      (cat t').entries.entry ((cat t).active, control) = .openUrl url :: rest ∧
        ⟨.openUrl url, .ok ()⟩ ∈ past.map Prod.snd := by
  cases explained with
  | alone only performs =>
    generalize cat (_ + 1) = cat' at performs
    cases performs
  | ran only next first ran =>
    cases ran with
    | opened performed => exact ⟨_, _, _, _, only, first, performed⟩

omit [SerdeJson] [RusqliteCrate] in
/-- A result that is acknowledged is a success. -/
theorem result_of_acknowledged {requestId requestId' : String}
    {result : Except AppError CoreResponse}
    (reply : .acknowledged requestId = commandReply requestId' result) :
    ∃ response, result = .ok response := by
  rcases result with error | response
  · cases error <;> cases reply
  · exact ⟨response, rfl⟩

/-- In every run, whatever the connections send and however their operations interleave, a write
that was acknowledged took effect in one region before its reply, and is what all reads after that
region find until the control is written again. -/
theorem acknowledged_visible (hp : UuidCrate.ParseInverts) (h : db.Holds cat)
    (moves : List (Move String CoreInput)) :
    let c := run connections coreHandler (listening db) moves
    ∀ t e session requestId command k actions written, c.history[t]? = some e →
      e.loc = some session → (session.receiveLine e.job).1 = .command requestId command →
      command.Puts k actions → e.act = ⟨.write (.acknowledged requestId), written⟩ →
      ∃ s < t, lockTimes e.past = [s] ∧ VisibleAfter cat c s k actions := by
  have traced : Traced connections coreHandler db
      (run connections coreHandler (listening db) moves) := traced_run _ _ _
  intro c t e session requestId command k actions written he open_ received puts act
  change Traced connections coreHandler db c at traced
  have lin := linearizes_of_traced hp h traced
  obtain ⟨-, answers⟩ := simulated_of_traced hp h traced
  obtain ⟨result, reply, before, explained⟩ :=
    lin.explained t e session requestId command _ written he open_ received act rfl
  obtain ⟨response, rfl⟩ := result_of_acknowledged reply
  obtain ⟨s, only, entry⟩ := explained.put puts
  have lt : s < t := before s (only ▸ List.mem_singleton_self s)
  refine ⟨s, lt, only, ⟨?_, ?_⟩⟩
  · intro e' mem requestId' layout profiles assignments written' t' act' only' after untouched listed
    obtain ⟨n, he'⟩ := List.getElem?_of_mem mem
    obtain ⟨u, lt', only'', depicts⟩ := lin.snapshot traced he' act'
    obtain rfl : t' = u := List.head_eq_of_cons_eq (only'.symm.trans only'')
    have inside := (List.getElem?_eq_some_iff.1 he').1
    rw [depicts.mem_iff hp, entry_untouched answers after (by omega) untouched, entry]
  · intro e' mem session' requestId' written' u u' open' received' act' only' active after untouched
    obtain ⟨n, he'⟩ := List.getElem?_of_mem mem
    obtain ⟨result', reply', before', explained'⟩ :=
      lin.explained n e' session' requestId' _ _ written' he' open' received' act' rfl
    obtain ⟨response', rfl⟩ := result_of_acknowledged reply'
    obtain ⟨v, v', url, rest, only'', first, performed⟩ := explained'.pressed
    rw [only'] at only''
    obtain ⟨rfl, same⟩ := List.cons_eq_cons.1 only''
    obtain ⟨rfl, -⟩ := List.cons_eq_cons.1 same
    have inside := (List.getElem?_eq_some_iff.1 he').1
    have place : u' < n := before' u' (by simp [only'])
    rw [active, entry_untouched answers after (by omega) untouched, entry] at first
    exact ⟨url, rest, first, performed⟩

end Runs

end Service

section Example

open Reference

theorem snapshots_consistent_example :
    Consistent (layoutToDto MVP_DEVICE_LAYOUT) [profileToDto ⟨⟨uuid 0⟩, "Default", true⟩]
      [⟨displayUuid (uuid 0), controlToDto firstKey, [.openUrl exampleUrl.value]⟩] := by
  obtain ⟨e, he, -, -, act⟩ := watching_entry (n := 5) (congrArg (·[5]?) watching_entries)
  exact snapshots_consistent parseInverts holds_default watchingMoves e (List.mem_of_getElem? he) _
    _ _ _ _ act

theorem acknowledged_visible_example :
    let c := run connections coreHandler (listening (afterInitialize calm .empty).2) watchingMoves
    ∃ s < 2, VisibleAfter (Catalog.single ⟨uuid 0⟩ "Default") c s (⟨uuid 0⟩, firstKey)
      [.openUrl exampleUrl] := by
  obtain ⟨e, he, open_, job, act⟩ := watching_entry (n := 2) (congrArg (·[2]?) watching_entries)
  have received : (ProtocolSession.receiveLine ⟨CARGO_PKG_VERSION, .established⟩ e.job).1 =
      .command "2" (.saveAssignment ⟨⟨uuid 0⟩, firstKey, [.openUrl exampleUrl]⟩) := by
    rw [job]
    exact ProtocolSession.receiveLine_command_iff.2 ⟨rfl, _, decoded_saveLine, by decide⟩
  obtain ⟨s, lt, -, visible⟩ := acknowledged_visible parseInverts holds_default watchingMoves 2 e _
    "2" _ _ _ (.ok ()) he open_ received (.save _) act
  exact ⟨s, lt, visible⟩

end Example

end KeyroCore
