import KeyroCore.Storage.Migration
import KeyroCore.Visibility

/-!
# Restarts

The process lives several times on one database file, and each life may be killed anywhere: between
two statements of the migration, inside `initialize`, or while a connection is inside a lock region.
The file always stands for the catalog that the operations of all lives have made, where a region
that was cut short counts if it has changed the file.
-/

open Effect Program Fallible Clients Results

namespace KeyroCore

section Service

variable [UrlCrate]

/-! ## The catalog over several lives -/

/-- An operation on the catalog, which exists once the default profile has been inserted. -/
def bootAct : Option CoreCatalog → Act CoreCalls → Option CoreCatalog
  | some cat, a => some (afterAct cat a)
  | none, ⟨.lock .ensureDefaultProfile, .ok profile⟩ =>
      some (Catalog.single profile.id profile.name)
  | none, _ => none

/-- What the last write under a control has left there. -/
def lastWritten (k : ProfileId × ControlId) (acts : List (Act CoreCalls)) : List Action :=
  acts.foldl (fun actions a => (writesUnder k a).getD actions) []

theorem lastWritten_concat (k : ProfileId × ControlId) (acts : List (Act CoreCalls))
    (a : Act CoreCalls) : lastWritten k (acts ++ [a]) =
      (writesUnder k a).getD (lastWritten k acts) := List.foldl_concat ..

variable [UuidCrate]

/-- The store holds the catalog that the operations have made. -/
structure Carries (db : Db) (acts : List (Act CoreCalls)) (cat : CoreCatalog) : Prop where
  made : acts.foldl bootAct none = some cat
  holds : db.Holds cat
  last : ∀ k, cat.entries.entry k = lastWritten k acts

theorem Carries.act {db db' : Db} {acts : List (Act CoreCalls)} {cat : CoreCatalog}
    (carries : Carries db acts cat) {a : Act CoreCalls} (answers : AnswersAct cat a)
    (holds : db'.Holds (afterAct cat a)) : Carries db' (acts ++ [a]) (afterAct cat a) := by
  refine ⟨?_, holds, fun k => ?_⟩
  · rw [List.foldl_concat, carries.made]
    rfl
  · rw [entry_afterAct answers, carries.last, lastWritten_concat]

variable [RusqliteCrate]

/-- An operation of Core is one more. -/
theorem Carries.handled (hp : UuidCrate.ParseInverts) {db : Db} {acts : List (Act CoreCalls)}
    {cat : CoreCatalog} (carries : Carries db acts cat) (input : CoreInput) (o : CoreOp) :
    Carries (coreHandler input o db).2 (acts ++ [⟨o, (coreHandler input o db).1⟩])
      (afterAct cat ⟨o, (coreHandler input o db).1⟩) := by
  obtain ⟨holds, answers⟩ := holds_coreHandler hp input o carries.holds
  exact carries.act answers holds

/-- A program of Core. -/
theorem Carries.exec (hp : UuidCrate.ParseInverts) {α : Type} (inputs : ℕ → CoreInput)
    (p : Program CoreCalls α) {db : Db} {n : ℕ} {acts : List (Act CoreCalls)} {cat : CoreCatalog}
    (carries : Carries db acts cat) : ∃ cat', Carries (p.exec (timed coreHandler inputs) (db, n)).2.1
      (acts ++ p.acts (timed coreHandler inputs) (db, n)) cat' := by
  induction p generalizing db n acts cat with
  | pure a =>
    rw [Program.acts, List.append_nil]
    exact ⟨cat, carries⟩
  | perform o next ih =>
    obtain ⟨cat', rest⟩ := ih _ (n := n + 1) (carries.handled hp (inputs n) o)
    rw [List.append_assoc] at rest
    exact ⟨cat', rest⟩

/-! ## Regions that are cut short -/

/-- The operation of a region that was cut after `n` statements, if it has changed the file. -/
def cutActs (env : ℕ → SqlChoice) (n : ℕ) (r : Region) (db : Db) : List (Act CoreCalls) :=
  if r.fileAfter env n db = db then [] else [⟨.lock r, (r.exec env db).1⟩]

theorem Carries.cut (hp : UuidCrate.ParseInverts) {db : Db} {acts : List (Act CoreCalls)}
    {cat : CoreCatalog} (carries : Carries db acts cat) (input : CoreInput) (n : ℕ) (r : Region) :
    ∃ cat', Carries (r.fileAfter input.sql n db) (acts ++ cutActs input.sql n r db) cat' := by
  unfold cutActs
  split_ifs with same
  · rw [same, List.append_nil]
    exact ⟨cat, carries⟩
  · have done := (Region.fileAfter_eq input.sql n r db).resolve_left same
    rw [done]
    exact ⟨_, carries.handled hp input (.lock r)⟩

/-! ## Starting Core -/

/-- A store on which Core has not inserted the default profile yet. -/
structure Unstarted (db : Db) (acts : List (Act CoreCalls)) : Prop where
  empty : db = .empty
  made : acts.foldl bootAct none = none
  last : ∀ k, lastWritten k acts = []

/-- What the lives so far have left in the store. -/
def Inherited (db : Db) (acts : List (Act CoreCalls)) : Prop :=
  Unstarted db acts ∨ ∃ cat, Carries db acts cat

/-- The operations of `initialize`. -/
def initializeActs (inputs : ℕ → CoreInput) (db : Db) : List (Act CoreCalls) :=
  coreService.initializeCore.run.acts (timed coreHandler inputs) (db, 0)

omit [RusqliteCrate] in
/-- `initialize` begins with one region, and stops if it fails. -/
theorem initializeCore_run : ∃ rest : Except AppError Profile →
      Program CoreCalls (Except AppError Profile),
    coreService.initializeCore.run = .perform (.lock .ensureDefaultProfile) rest ∧
      ∀ error, rest (.error error) = .pure (.error error) :=
  ⟨_, rfl, fun _ => rfl⟩

/-- The first region of `initialize` on a store that is still empty. -/
theorem Unstarted.ensureDefaultProfile (hp : UuidCrate.ParseInverts) {db : Db}
    {acts : List (Act CoreCalls)} (h : Unstarted db acts) (env : ℕ → SqlChoice) :
    (∃ error, (Region.exec env .ensureDefaultProfile db).1 = .error error ∧
      Unstarted (Region.exec env .ensureDefaultProfile db).2
        (acts ++ [⟨.lock .ensureDefaultProfile, .error error⟩])) ∨
    ∃ profile, (Region.exec env .ensureDefaultProfile db).1 = .ok profile ∧
      Carries (Region.exec env .ensureDefaultProfile db).2
        (acts ++ [⟨.lock .ensureDefaultProfile, .ok profile⟩])
        (Catalog.single profile.id profile.name) := by
  obtain ⟨rfl, made, last⟩ := h
  rcases Region.outcome env .ensureDefaultProfile .empty with ⟨error, -, failed, same⟩ | does
  · refine .inl ⟨_, failed, same, ?_, fun k => ?_⟩
    · rw [List.foldl_concat, made]
      rfl
    · rw [lastWritten_concat, last]
      rfl
  · generalize (Region.exec env .ensureDefaultProfile .empty).1 = result,
      (Region.exec env .ensureDefaultProfile .empty).2 = db' at does
    cases does with
    | defaultPresent active => cases active
    | defaultInserted missing isActive name profiles assignments =>
      refine .inr ⟨_, rfl, ?_, Db.holds_single hp isActive profiles assignments, fun k => ?_⟩
      · rw [List.foldl_concat, made]
        rfl
      · rw [lastWritten_concat, last]
        exact ListMap.entry_ofEntries (fun _ => []) k

theorem Inherited.initialized (hp : UuidCrate.ParseInverts) {db : Db} {acts : List (Act CoreCalls)}
    (inherited : Inherited db acts) (inputs : ℕ → CoreInput) :
    Inherited (afterInitialize inputs db).2 (acts ++ initializeActs inputs db) ∧
      ∀ profile, (afterInitialize inputs db).1 = .ok profile →
        ∃ cat, Carries (afterInitialize inputs db).2 (acts ++ initializeActs inputs db) cat := by
  unfold initializeActs afterInitialize
  rcases inherited with unstarted | ⟨cat, carries⟩
  · obtain ⟨rest, run, stops⟩ := initializeCore_run
    rw [run]
    have first : timed coreHandler inputs (.lock .ensureDefaultProfile) (db, 0) =
        ((Region.exec (inputs 0).sql .ensureDefaultProfile db).1,
          (Region.exec (inputs 0).sql .ensureDefaultProfile db).2, 1) := rfl
    have ensured := unstarted.ensureDefaultProfile hp (inputs 0).sql
    simp only [Program.exec, Program.acts, first]
    generalize Region.exec (inputs 0).sql .ensureDefaultProfile db = ended at ensured
    obtain ⟨x, db₁⟩ := ended
    rcases ensured with ⟨error, failed, h⟩ | ⟨profile, inserted, h⟩
    · obtain rfl : x = .error error := failed
      rw [stops]
      exact ⟨.inl h, fun _ same => by cases same⟩
    · obtain rfl : x = .ok profile := inserted
      have carried := h.exec hp inputs (rest (.ok profile)) (n := 1)
      rw [List.append_assoc] at carried
      exact ⟨.inr carried, fun _ _ => carried⟩
  · have carried := carries.exec hp inputs coreService.initializeCore.run (n := 0)
    exact ⟨.inr carried, fun _ _ => carried⟩

omit [RusqliteCrate] in
/-- A store that holds a catalog is one that Core can start on. -/
theorem Db.Holds.started {db : Db} {cat : CoreCatalog} (h : db.Holds cat) : db.Started := by
  refine ⟨?_, h.assignments.readable⟩
  have le : db.activeProfiles.length ≤ 1 := db.admits.only_one_active_profile
  have pos := List.length_pos_iff.2 h.exists_active
  unfold Db.OneActive
  omega

/-- The end of `initialize` on a store that can be read. -/
theorem ends_initialized {inputs : ℕ → CoreInput} (quiet : Quiet inputs) {db : Db}
    (started : db.Started) (profile : Profile) (n : ℕ) :
    Ends (timed coreHandler inputs) (do
      let profiles ← lock .listProfiles
      domain (ensureExactlyOneActive profiles)
      return profile) (db, n) fun result _ => result = .ok profile := by
  obtain ⟨profiles, decoded⟩ := started.readable.list
  rw [ends_bind_iff]
  refine ends_lock fun x db₁ outcome => ?_
  rcases outcome with ⟨error, fails, -, -⟩ | does
  · cases fails with
    | fault faulty => exact absurd faulty (quiet.not_faulty _ _)
    | profilesUnreadable unreadable =>
      rw [decoded] at unreadable
      cases unreadable
  · cases does with
    | profilesListed decoded' =>
      dsimp only
      rw [db.ensure_of_decoded started.one_active decoded']
      rfl

/-- Unless the store fails, Core starts on what earlier lives have left. -/
theorem Inherited.starts (hp : UuidCrate.ParseInverts) {db : Db} {acts : List (Act CoreCalls)}
    (inherited : Inherited db acts) {inputs : ℕ → CoreInput} (quiet : Quiet inputs) :
    ∃ profile, (afterInitialize inputs db).1 = .ok profile := by
  rcases inherited with ⟨rfl, -, -⟩ | ⟨cat, carries⟩
  · suffices goal : Ends (timed coreHandler inputs) coreService.initializeCore (.empty, 0)
        fun result _ => ∃ profile, result = .ok profile from goal
    unfold CoreService.initializeCore
    rw [ends_bind_iff]
    refine ends_lock fun x db₁ outcome => ?_
    rcases outcome with ⟨error, fails, -, -⟩ | does
    · cases fails with
      | fault faulty => exact absurd faulty (quiet.not_faulty _ _)
      | defaultTaken missing taken => cases taken
      | activeUnreadable active => cases active
    · cases does with
      | defaultPresent active => cases active
      | defaultInserted missing isActive name profiles assignments =>
        have holds := Db.holds_single hp isActive profiles assignments
        exact (ends_initialized quiet holds.started _ _).mono fun result _ same => ⟨_, same⟩
  · obtain ⟨row, profile, -, -, found⟩ := (afterInitialize_started carries.holds.started).2 quiet
    exact ⟨profile, found⟩

/-- Cut short, the first region of `initialize` has run or not. -/
theorem Inherited.cut (hp : UuidCrate.ParseInverts) {db : Db} {acts : List (Act CoreCalls)}
    (inherited : Inherited db acts) (input : CoreInput) (n : ℕ) :
    Inherited (Region.fileAfter input.sql n .ensureDefaultProfile db)
      (acts ++ cutActs input.sql n .ensureDefaultProfile db) := by
  rcases inherited with unstarted | ⟨cat, carries⟩
  · unfold cutActs
    split_ifs with same
    · rw [same, List.append_nil]
      exact .inl unstarted
    · have done := (Region.fileAfter_eq input.sql n .ensureDefaultProfile db).resolve_left same
      rw [done]
      rcases unstarted.ensureDefaultProfile hp input.sql with
        ⟨error, failed, h⟩ | ⟨profile, inserted, h⟩
      · rw [failed]
        exact .inl h
      · rw [inserted]
        exact .inr ⟨_, h⟩
  · exact .inr (carries.cut hp input n .ensureDefaultProfile)

/-! ## Serving connections -/

variable [SerdeJson]

theorem Carries.serving (hp : UuidCrate.ParseInverts) {db : Db} {acts : List (Act CoreCalls)}
    {cat : CoreCatalog} (carries : Carries db acts cat) (moves : List (Move String CoreInput)) :
    ∃ cat', Carries (run connections coreHandler (listening db) moves).shared
      (acts ++ (run connections coreHandler (listening db) moves).history.map Entry.act) cat' := by
  refine run_induction (P := fun c => ∃ cat', Carries c.shared (acts ++ c.history.map Entry.act) cat')
    ?_ (fun c m ⟨cat', held⟩ => ?_) moves
  · rw [listening, begin, List.map_nil, List.append_nil]
    exact ⟨cat, carries⟩
  · rcases step_cases connections coreHandler c m with
      same | ⟨i, loc, job, -, started⟩ | ⟨i, input, f, o, next, -, -, recorded⟩
    · rw [same]
      exact ⟨cat', held⟩
    · rw [started]
      exact ⟨cat', held⟩
    · rw [recorded, history_record, List.map_append, ← List.append_assoc]
      exact ⟨_, held.handled hp input o⟩

/-- A life of the process: the inputs of its start, what its connections do, and where it is killed
at the latest. -/
structure Life where
  now : String
  initial : ℕ → CoreInput
  moves : List (Move String CoreInput)
  /-- The connection that is inside a lock region when the process is killed. -/
  client : ℕ
  input : CoreInput
  statements : ℕ

namespace Life

variable (life : Life)

/-- The connections on the store `db`. -/
def serve (db : Db) : Lines := run connections coreHandler (listening db) life.moves

/-- The region that the kill cuts. -/
def region? (c : Lines) : Option Region :=
  match c.clients life.client with
  | .busy ⟨_, _, _, .perform (.lock r) _⟩ => some r
  | _ => none

/-- The store that the kill leaves. -/
def left (c : Lines) : Db :=
  match life.region? c with
  | some r => r.fileAfter life.input.sql life.statements c.shared
  | none => c.shared

/-- The operations of the connections, with the one that the kill cuts. -/
def served (c : Lines) : List (Act CoreCalls) :=
  c.history.map Entry.act ++
    match life.region? c with
    | some r => cutActs life.input.sql life.statements r c.shared
    | none => []

/-- The file that a life leaves, with the operations that it has performed on the store. -/
inductive Leaves (f : DbFile) : DbFile → List (Act CoreCalls) → Prop
  /-- Killed in the migration. -/
  | migrating {f' : DbFile} (cut : (DbFile.migrationBatch.take life.statements).foldlM
      (DbFile.runMigration life.now) f = .ok f') : Leaves f f' []
  /-- Killed inside `ensure_default_profile`. -/
  | initializing {f' : DbFile} {db : Db} (migrated : f.migrate life.now = .ok f')
      (holds : f'.Holds db) : Leaves f
        (f'.put (Region.fileAfter life.input.sql life.statements .ensureDefaultProfile db))
        (cutActs life.input.sql life.statements .ensureDefaultProfile db)
  /-- `initialize` has failed, and the process has ended. -/
  | refused {f' : DbFile} {db : Db} {error : AppError} (migrated : f.migrate life.now = .ok f')
      (holds : f'.Holds db) (refused : (afterInitialize life.initial db).1 = .error error) :
      Leaves f (f'.put (afterInitialize life.initial db).2) (initializeActs life.initial db)
  /-- Killed while it serves connections. -/
  | served {f' : DbFile} {db : Db} {profile : Profile} (migrated : f.migrate life.now = .ok f')
      (holds : f'.Holds db) (initialized : (afterInitialize life.initial db).1 = .ok profile) :
      Leaves f (f'.put (life.left (life.serve (afterInitialize life.initial db).2)))
        (initializeActs life.initial db ++
          life.served (life.serve (afterInitialize life.initial db).2))

end Life

/-- The file after some lives on a fresh one, with the operations of all of them. -/
inductive Reaches : DbFile → List (Act CoreCalls) → Prop
  | fresh : Reaches .fresh []
  | live {f f' : DbFile} {acts more : List (Act CoreCalls)} (earlier : Reaches f acts) (life : Life)
      (leaves : life.Leaves f f' more) : Reaches f' (acts ++ more)

/-- The file always stands for the catalog that the operations of all lives have made. -/
theorem Reaches.inherited (hp : UuidCrate.ParseInverts) {f : DbFile} {acts : List (Act CoreCalls)}
    (reaches : Reaches f acts) : ∃ db, f.Prepared db ∧ Inherited db acts := by
  induction reaches with
  | fresh => exact ⟨.empty, DbFile.prepared_fresh, .inl ⟨rfl, rfl, fun _ => rfl⟩⟩
  | @live f f' acts more earlier life leaves ih =>
    obtain ⟨db, prepared, inherited⟩ := ih
    cases leaves with
    | migrating cut =>
      rw [List.append_nil]
      exact ⟨db, prepared.cut cut, inherited⟩
    | initializing migrated holds =>
      obtain rfl := prepared.content migrated holds
      exact ⟨_, DbFile.prepared_put _ _, inherited.cut hp _ _⟩
    | refused migrated holds refused =>
      obtain rfl := prepared.content migrated holds
      exact ⟨_, DbFile.prepared_put _ _, (inherited.initialized hp _).1⟩
    | served migrated holds initialized =>
      obtain rfl := prepared.content migrated holds
      obtain ⟨cat, carries⟩ := (inherited.initialized hp _).2 _ initialized
      obtain ⟨cat', carries'⟩ := carries.serving hp life.moves
      refine ⟨_, DbFile.prepared_put _ _, .inr ?_⟩
      unfold Life.left Life.served
      rw [← List.append_assoc, ← List.append_assoc]
      split
      · exact carries'.cut hp _ _ _
      · rw [List.append_nil]
        exact ⟨cat', carries'⟩

omit [SerdeJson] [UuidCrate] [RusqliteCrate] in
/-- Operations that keep the assignments write under no control. -/
theorem lastWritten_append {k : ProfileId × ControlId} {acts more : List (Act CoreCalls)}
    (keep : ∀ a ∈ more, a.op.KeepsMap) : lastWritten k (acts ++ more) = lastWritten k acts := by
  induction more generalizing acts with
  | nil => rw [List.append_nil]
  | cons a more ih =>
    rw [List.forall_mem_cons] at keep
    rw [List.append_cons, ih keep.2, lastWritten_concat]
    obtain ⟨o, x⟩ := a
    have kept := keep.1
    cases o with
    | lock r =>
      cases r with
      | saveAssignment | clearAssignment => cases kept
      | _ => rfl
    | _ => rfl

omit [SerdeJson] in
theorem initializeActs_keepsMap (inputs : ℕ → CoreInput) (db : Db) :
    ∀ a ∈ initializeActs inputs db, a.op.KeepsMap := by
  have uses : coreService.initializeCore.run.Uses CoreOp.KeepsMap := by
    refine Fallible.uses_bind (uses_lock trivial) fun profile => ?_
    refine Fallible.uses_bind (uses_lock trivial) fun profiles => ?_
    exact Fallible.uses_bind (uses_domain _) fun _ => trivial
  exact uses.follows (follows_acts _ _ _)

/-- However often the process has lived on a file, and wherever it was killed, the file can be
migrated, and unless the store fails Core starts on the catalog that the operations of all lives
have made: under every control it finds what was written there last. -/
theorem lives_keep_writes (hp : UuidCrate.ParseInverts) {f : DbFile} {acts : List (Act CoreCalls)}
    (reaches : Reaches f acts) (now : String) (initial : ℕ → CoreInput) :
    ∃ f' db, f.migrate now = .ok f' ∧ f'.Holds db ∧
      (Quiet initial → ∃ profile, (afterInitialize initial db).1 = .ok profile) ∧
      ∀ profile, (afterInitialize initial db).1 = .ok profile → ∃ cat,
        (acts ++ initializeActs initial db).foldl bootAct none = some cat ∧
        (∀ k, cat.entries.entry k = lastWritten k acts) ∧
        ∀ moves, Linearizes (afterInitialize initial db).2 cat
          (run connections coreHandler (listening (afterInitialize initial db).2) moves) := by
  obtain ⟨db, prepared, inherited⟩ := reaches.inherited hp
  obtain ⟨f', migrated, holds⟩ := prepared.migrate now
  refine ⟨f', db, migrated, holds, inherited.starts hp, fun profile initialized => ?_⟩
  obtain ⟨cat, carries⟩ := (inherited.initialized hp initial).2 profile initialized
  refine ⟨cat, carries.made, fun k => ?_, fun moves => ?_⟩
  · rw [carries.last, lastWritten_append (initializeActs_keepsMap initial db)]
  · exact linearizes_of_traced hp carries.holds (traced_run _ _ _)

end Service

section Example

open Reference

/-- A life that is killed inside the region that saves an action, after its last statement. -/
def savingLife : Life where
  now := "2024-01-01 00:00:00"
  initial := calm
  moves := [.start 0 handshakeLine, .go 0 (calm 1), .start 0 saveLine]
  client := 0
  input := calm 2
  statements := 5

def savingScript : List (Move ScriptLine CoreInput) :=
  [.start 0 .handshake, .go 0 (calm 1), .start 0 .save]

/-- The operations of that life on a fresh file. -/
def savingActs : List (Act CoreCalls) := initializeActs calm .empty ++
  savingLife.served (savingLife.serve (afterInitialize calm .empty).2)

/-- The action was saved although its client was never told, and the next life finds it. -/
theorem lives_keep_writes_example : ∃ (f : DbFile) (db : Db) (cat : CoreCatalog), f.Holds db ∧
    (savingActs ++ initializeActs calm db).foldl bootAct none = some cat ∧
      cat.entries.entry (⟨uuid 0⟩, firstKey) = [.openUrl exampleUrl] := by
  have written : lastWritten (⟨uuid 0⟩, firstKey) savingActs = [.openUrl exampleUrl] := by
    have scripted : savingLife.moves = savingScript.map (Move.mapJob ScriptLine.text) := rfl
    rw [savingActs, Life.serve, scripted, run_decoded ScriptLine.decoded]
    decide +kernel
  obtain ⟨f₁, migrated₁, holds₁⟩ := DbFile.migrate_fresh "2024-01-01 00:00:00"
  have initialized : (afterInitialize calm .empty).1 = .ok ⟨⟨uuid 0⟩, "Default", true⟩ := by decide
  have reaches : Reaches
      (f₁.put (savingLife.left (savingLife.serve (afterInitialize calm .empty).2)))
      ([] ++ savingActs) := .live .fresh savingLife (.served migrated₁ holds₁ initialized)
  rw [List.nil_append] at reaches
  obtain ⟨f, db, -, holds, starts, finds⟩ :=
    lives_keep_writes parseInverts reaches "2024-01-02 00:00:00" calm
  obtain ⟨profile, started⟩ := starts fun _ _ => rfl
  obtain ⟨cat, made, last, -⟩ := finds profile started
  exact ⟨f, db, cat, holds, made, (last _).trans written⟩

end Example

end KeyroCore
