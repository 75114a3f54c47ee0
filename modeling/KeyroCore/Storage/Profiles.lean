import KeyroCore.Data.Results
import KeyroCore.Storage.Regions
import Mathlib.Data.List.Perm.Basic

/-!
# Profiles in rows

A row of the profiles table holds a profile as Core writes it.  What the queries list and which ids
they know is read off the profiles that the rows hold.
-/

open Results

namespace KeyroCore

variable [UuidCrate]

/-- The row holds the profile. -/
structure Encodes (profile : Profile) (row : ProfileRow) : Prop where
  id : row.id = .text profile.id.toString
  name : row.name = .text profile.name
  isActive : row.isActive = .integer (if profile.isActive then 1 else 0)

theorem Encodes.decode (hp : UuidCrate.ParseInverts) {profile : Profile} {row : ProfileRow}
    (h : Encodes profile row) : decodeProfile row = .ok profile := by
  rw [decodeProfile_ok_iff]
  refine ⟨⟨_, h.id, ProfileId.parse_toString hp _⟩, h.name, _, h.isActive, ?_⟩
  cases profile.isActive <;> decide

theorem Encodes.id_iff (hp : UuidCrate.ParseInverts) {profile : Profile} {row : ProfileRow}
    (h : Encodes profile row) (profileId : ProfileId) :
    row.id = .text profileId.toString ↔ profile.id = profileId := by
  rw [h.id, SqlValue.text.injEq, ProfileId.toString_inj hp]

theorem Encodes.active_iff {profile : Profile} {row : ProfileRow} (h : Encodes profile row) :
    row.Active ↔ profile.isActive = true := by
  unfold ProfileRow.Active
  rw [h.isActive]
  cases profile.isActive <;> decide

variable {profiles : List Profile} {db : Db}

/-- The profiles of the table, in rowid order. -/
theorem hasProfile_iff (hp : UuidCrate.ParseInverts)
    (h : List.Forall₂ Encodes profiles db.profiles) (profileId : ProfileId) :
    db.HasProfile profileId ↔ ∃ profile ∈ profiles, profile.id = profileId := by
  unfold Db.HasProfile
  generalize db.profiles = rows at h
  induction h with
  | nil => simp
  | cons encodes _ ih =>
    rw [List.map_cons, List.mem_cons, List.exists_mem_cons_iff, ih, eq_comm, encodes.id_iff hp]

/-- The listed profiles are those of the table in some order. -/
theorem listed_perm (hp : UuidCrate.ParseInverts) (h : List.Forall₂ Encodes profiles db.profiles)
    {listed : List Profile} (decoded : db.orderedProfiles.mapM decodeProfile = .ok listed) :
    profiles.Perm listed := by
  have unique : Relator.RightUnique fun (row : ProfileRow) profile =>
      decodeProfile row = .ok profile := by
    intro row profile profile' read read'
    rw [read] at read'
    exact Except.ok.inj read'
  have stored : List.Forall₂ (fun row profile => decodeProfile row = .ok profile) db.profiles
      profiles := (h.imp fun _ _ encodes => encodes.decode hp).flip
  exact List.rel_perm_imp unique stored (mapM_ok_iff.1 decoded) (Rows.orderBy_perm _ _).symm

/-- Stored profiles have different ids. -/
theorem nodup_ids (h : List.Forall₂ Encodes profiles db.profiles) :
    (profiles.map Profile.id).Nodup := by
  have ids : db.profiles.map ProfileRow.id =
      profiles.map fun profile => .text profile.id.toString := by
    generalize db.profiles = rows at h
    induction h with
    | nil => rfl
    | cons encodes _ ih => rw [List.map_cons, List.map_cons, encodes.id, ih]
  have key := db.admits.profile_primary_key
  rw [ids, List.filter_eq_self.2 (by simp)] at key
  apply List.Nodup.of_map fun id : ProfileId => SqlValue.text id.toString
  rw [List.map_map]
  exact key

end KeyroCore
