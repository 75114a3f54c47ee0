import KeyroCore.Storage.Tables

/-!
# Migration

`SqliteProfileRepository::migrate` on a database file, whose tables may not exist yet.
-/

namespace KeyroCore

/-- A database file: the tables and the index that exist in it. -/
structure DbFile where
  schemaMigrations : Option (List (ℤ × String))
  profiles : Option (List ProfileRow)
  onlyOneActiveProfile : Bool
  assignments : Option (List AssignmentRow)
  deriving DecidableEq

/-- The statements of the migration batch. -/
inductive MigrationStmt where
  /-- `CREATE TABLE IF NOT EXISTS schema_migrations` -/
  | createSchemaMigrations
  /-- `CREATE TABLE IF NOT EXISTS profiles` -/
  | createProfiles
  /-- `CREATE UNIQUE INDEX IF NOT EXISTS only_one_active_profile` -/
  | createOnlyOneActiveProfile
  /-- `CREATE TABLE IF NOT EXISTS assignments` -/
  | createAssignments
  /-- `INSERT OR IGNORE INTO schema_migrations(version) VALUES (1)` -/
  | insertVersion
  deriving DecidableEq

namespace DbFile

/-- A file that holds nothing yet. -/
def fresh : DbFile where
  schemaMigrations := none
  profiles := none
  onlyOneActiveProfile := false
  assignments := none

/-- The file holds this content. -/
structure Holds (f : DbFile) (db : Db) : Prop where
  profiles : f.profiles = some db.profiles
  assignments : f.assignments = some db.assignments

def runMigration (now : String) (f : DbFile) : MigrationStmt → Except SqlError DbFile
  | .createSchemaMigrations =>
      .ok { f with schemaMigrations := some (f.schemaMigrations.getD []) }
  | .createProfiles => .ok { f with profiles := some (f.profiles.getD []) }
  | .createOnlyOneActiveProfile =>
    if f.onlyOneActiveProfile then .ok f
    else match f.profiles with
      | none => .error (.sqliteFailure "no such table: main.profiles")
      | some rows =>
        if (rows.filter fun row => row.Active).length ≤ 1 then
          .ok { f with onlyOneActiveProfile := true }
        else .error .constraintViolation
  | .createAssignments => .ok { f with assignments := some (f.assignments.getD []) }
  | .insertVersion =>
    match f.schemaMigrations with
    | none => .error (.sqliteFailure "no such table: schema_migrations")
    | some rows =>
      if ∃ row ∈ rows, row.1 = 1 then .ok f
      else .ok { f with schemaMigrations := some (rows ++ [(1, now)]) }

/-- The batch that `migrate` executes. -/
def migrationBatch : List MigrationStmt :=
  [.createSchemaMigrations, .createProfiles, .createOnlyOneActiveProfile, .createAssignments,
    .insertVersion]

def migrate (now : String) (f : DbFile) : Except SqlError DbFile :=
  migrationBatch.foldlM (runMigration now) f

/-! ## What a migration keeps -/

/-- The file holds this content, where tables that do not exist yet count as empty. -/
structure Prepared (f : DbFile) (db : Db) : Prop where
  profiles : f.profiles.getD [] = db.profiles
  assignments : f.assignments.getD [] = db.assignments

theorem Holds.prepared {f : DbFile} {db : Db} (h : f.Holds db) : f.Prepared db := by
  constructor
  · rw [h.profiles, Option.getD_some]
  · rw [h.assignments, Option.getD_some]

theorem prepared_fresh : fresh.Prepared .empty := ⟨rfl, rfl⟩

/-- The file with another content. -/
def put (f : DbFile) (db : Db) : DbFile :=
  { f with profiles := some db.profiles, assignments := some db.assignments }

theorem prepared_put (f : DbFile) (db : Db) : (f.put db).Prepared db := ⟨rfl, rfl⟩

/-- A statement succeeds once the tables that it needs exist. -/
theorem Prepared.runMigration {f : DbFile} {db : Db} (h : f.Prepared db)
    (migrations : f.schemaMigrations.isSome = true) (profiles : f.profiles.isSome = true)
    (now : String) (stmt : MigrationStmt) :
    ∃ f', f.runMigration now stmt = .ok f' ∧ f'.Prepared db ∧
      f'.schemaMigrations.isSome = true ∧ f'.profiles.isSome = true ∧
        (f.assignments.isSome = true ∨ stmt = .createAssignments →
          f'.assignments.isSome = true) := by
  cases stmt with
  | createSchemaMigrations =>
    exact ⟨_, rfl, ⟨h.profiles, h.assignments⟩, rfl, profiles, fun h => h.resolve_right (by simp)⟩
  | createProfiles =>
    exact ⟨_, rfl, ⟨h.profiles, h.assignments⟩, migrations, rfl, fun h => h.resolve_right (by simp)⟩
  | createOnlyOneActiveProfile =>
    unfold DbFile.runMigration
    split_ifs
    · exact ⟨f, rfl, h, migrations, profiles, fun h => h.resolve_right (by simp)⟩
    · obtain ⟨rows, hr⟩ := Option.isSome_iff_exists.1 profiles
      have stored : rows = db.profiles := by
        rw [← h.profiles, hr]
        rfl
      have one : (rows.filter fun row => row.Active).length ≤ 1 := by
        rw [stored]
        exact db.admits.only_one_active_profile
      rw [hr]
      exact ⟨_, if_pos one, ⟨stored, h.assignments⟩, migrations, rfl,
        fun h => h.resolve_right (by simp)⟩
  | createAssignments =>
    exact ⟨_, rfl, ⟨h.profiles, h.assignments⟩, migrations, profiles, fun _ => rfl⟩
  | insertVersion =>
    unfold DbFile.runMigration
    obtain ⟨rows, hr⟩ := Option.isSome_iff_exists.1 migrations
    rw [hr]
    dsimp only
    split_ifs
    · exact ⟨f, rfl, h, migrations, profiles, fun h => h.resolve_right (by simp)⟩
    · exact ⟨_, rfl, ⟨h.profiles, h.assignments⟩, rfl, profiles, fun h => h.resolve_right (by simp)⟩

theorem Prepared.runMigrations {f : DbFile} {db : Db} (h : f.Prepared db)
    (migrations : f.schemaMigrations.isSome = true) (profiles : f.profiles.isSome = true)
    (now : String) (stmts : List MigrationStmt) :
    ∃ f', stmts.foldlM (DbFile.runMigration now) f = .ok f' ∧ f'.Prepared db ∧
      f'.profiles.isSome = true ∧ (f.assignments.isSome = true ∨ .createAssignments ∈ stmts →
        f'.assignments.isSome = true) := by
  induction stmts generalizing f with
  | nil => exact ⟨f, rfl, h, profiles, fun h => h.resolve_right List.not_mem_nil⟩
  | cons stmt stmts ih =>
    obtain ⟨f₁, run, h₁, migrations₁, profiles₁, assigned⟩ :=
      h.runMigration migrations profiles now stmt
    obtain ⟨f₂, rest, h₂, profiles₂, assigned'⟩ := ih h₁ migrations₁ profiles₁
    refine ⟨f₂, ?_, h₂, profiles₂, fun some_or => ?_⟩
    · rw [List.foldlM_cons, run]
      exact rest
    · apply assigned'
      rw [List.mem_cons] at some_or
      rcases some_or with there | rfl | later
      · exact .inl (assigned (.inl there))
      · exact .inl (assigned (.inr rfl))
      · exact .inr later

/-- The first two statements create their tables. -/
theorem Prepared.created {f : DbFile} {db : Db} (h : f.Prepared db) (now : String)
    (stmts : List MigrationStmt) : ∃ f₂, f₂.Prepared db ∧ f₂.schemaMigrations.isSome = true ∧
      f₂.profiles.isSome = true ∧
      (.createSchemaMigrations :: .createProfiles :: stmts).foldlM (DbFile.runMigration now) f =
        stmts.foldlM (DbFile.runMigration now) f₂ :=
  ⟨{ f with schemaMigrations := some (f.schemaMigrations.getD [])
            profiles := some (f.profiles.getD []) }, ⟨h.profiles, h.assignments⟩, rfl, rfl, rfl⟩

/-- Cut short anywhere, a migration keeps the content. -/
theorem Prepared.cut {f f' : DbFile} {db : Db} (h : f.Prepared db) {now : String} {n : ℕ}
    (cut : (migrationBatch.take n).foldlM (DbFile.runMigration now) f = .ok f') :
    f'.Prepared db := by
  rcases n with _ | _ | n
  · cases cut
    exact h
  · cases cut
    exact ⟨h.profiles, h.assignments⟩
  · obtain ⟨f₂, h₂, migrations, profiles, rest⟩ := h.created now
      (([.createOnlyOneActiveProfile, .createAssignments, .insertVersion] :
        List MigrationStmt).take n)
    obtain ⟨f₃, run, h₃, -⟩ := h₂.runMigrations migrations profiles now
      (([.createOnlyOneActiveProfile, .createAssignments, .insertVersion] :
        List MigrationStmt).take n)
    rw [← rest] at run
    obtain rfl : f₃ = f' := Except.ok.inj (run.symm.trans cut)
    exact h₃

/-- A migration succeeds on whatever earlier ones have left. -/
theorem Prepared.migrate {f : DbFile} {db : Db} (h : f.Prepared db) (now : String) :
    ∃ f', f.migrate now = .ok f' ∧ f'.Holds db := by
  obtain ⟨f₂, h₂, migrations, profiles, rest⟩ := h.created now
    [.createOnlyOneActiveProfile, .createAssignments, .insertVersion]
  obtain ⟨f₃, run, h₃, profiles₃, assigned⟩ := h₂.runMigrations migrations profiles now
    [.createOnlyOneActiveProfile, .createAssignments, .insertVersion]
  obtain ⟨rows, hr⟩ := Option.isSome_iff_exists.1 profiles₃
  obtain ⟨rows', hr'⟩ := Option.isSome_iff_exists.1 (assigned (.inr (by simp)))
  refine ⟨f₃, rest.trans run, ?_, ?_⟩
  · rw [← h₃.profiles, hr]
    rfl
  · rw [← h₃.assignments, hr']
    rfl

/-- Migrating a file that holds a content succeeds and keeps the content. -/
theorem Holds.migrate {f : DbFile} {db : Db} (h : f.Holds db) (now : String) :
    ∃ f', f.migrate now = .ok f' ∧ f'.Holds db := h.prepared.migrate now

theorem migrate_fresh (now : String) : ∃ f', fresh.migrate now = .ok f' ∧ f'.Holds .empty :=
  prepared_fresh.migrate now

/-- A migrated file holds the content that it was prepared for. -/
theorem Prepared.content {f f' : DbFile} {db db' : Db} (h : f.Prepared db) {now : String}
    (migrated : f.migrate now = .ok f') (holds : f'.Holds db') : db' = db := by
  obtain ⟨f'', migrated', holds'⟩ := h.migrate now
  obtain rfl : f'' = f' := Except.ok.inj (migrated'.symm.trans migrated)
  apply Db.ext_rows
  · exact Option.some.inj (holds.profiles.symm.trans holds'.profiles)
  · exact Option.some.inj (holds.assignments.symm.trans holds'.assignments)

end DbFile

end KeyroCore
