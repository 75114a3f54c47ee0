import KeyroCore.Framing
import KeyroCore.Provenance
import KeyroCore.Storage.Catalog

/-!
# Commands take effect one after the other

The catalog of a run moves at the lock regions of the history and at nothing else.  Every reply to a
command is explained by it: a command with one region answers as if it ran alone, at the moment of
that region; a rename and a virtual input, which lock twice, answer from the catalogs of both
moments.
-/

open Effect Program Fallible Clients Results

namespace KeyroCore

section Service

variable [UrlCrate]

/-! ## Commands on a catalog -/

/-- The profile that a command changes. -/
def CoreCommand.target? : CoreCommand → Option ProfileId
  | .renameProfile profileId _ | .setActiveProfile profileId | .clearAssignment profileId _ =>
      some profileId
  | .saveAssignment assignment => some assignment.profileId
  | _ => none

/-- The snapshot that `GetSnapshot` answers. -/
def SnapshotState.snapshot (state : SnapshotState) : CoreSnapshot where
  layout := MVP_DEVICE_LAYOUT
  profiles := state.profiles
  assignments := state.assignments.map fun assignment =>
    { profileId := assignment.profileId, control := assignment.control
      actions := assignment.actions }

/-- What a command answers when it runs alone on a catalog, and the catalog it leaves. -/
inductive Performs (cat : CoreCatalog) :
    CoreCommand → Except AppError CoreResponse → CoreCatalog → Prop
  | snapshot {state : SnapshotState} (profiles : ListsProfiles state.profiles cat)
      (assignments : Lists state.assignments cat.entries) :
      Performs cat .getSnapshot (.ok (.snapshot state.snapshot)) cat
  | listed {profiles : List Profile} (lists : ListsProfiles profiles cat) :
      Performs cat .listProfiles (.ok (.profiles profiles)) cat
  | created {profileId : ProfileId} {name : String} (named : isBlank name = false)
      (fresh : ¬ cat.Known profileId) :
      Performs cat (.createProfile name) (.ok (.profile ⟨profileId, name, false⟩))
        (cat.create profileId name)
  | activated {profileId : ProfileId} (known : cat.Known profileId) :
      Performs cat (.setActiveProfile profileId) (.ok .acknowledged) (cat.activate profileId)
  | saved {assignment : Assignment} (known : cat.Known assignment.profileId) :
      Performs cat (.saveAssignment assignment) (.ok .acknowledged)
        (cat.put assignment.profileId assignment.control assignment.actions)
  | cleared {profileId : ProfileId} {control : ControlId} (known : cat.Known profileId) :
      Performs cat (.clearAssignment profileId control) (.ok .acknowledged)
        (cat.put profileId control [])
  | unknown {command : CoreCommand} {profileId : ProfileId}
      (target : command.target? = some profileId) (unknown : ¬ cat.Known profileId) :
      Performs cat command (.error .profileNotFound) cat
  | unnamed {profileId : ProfileId} {name : String} (known : cat.Known profileId)
      (blank : isBlank name = true) :
      Performs cat (.renameProfile profileId name) (.error (.domain .emptyProfileName)) cat
  | failed {command : CoreCommand} (text : String) :
      Performs cat command (.error (.storage text)) cat

/-- How an action ended that the operations ran. -/
inductive Ran (acts : List (Act CoreCalls)) (url : SafeUrl) : Except AppError CoreResponse → Prop
  | opened (performed : ⟨.openUrl url, .ok ()⟩ ∈ acts) : Ran acts url (.ok .acknowledged)
  | refused {error : OpenUrlError} (performed : ⟨.openUrl url, .error error⟩ ∈ acts) :
      Ran acts url (.error (.openUrl error))
  | unwritten {message : ServerMessage} {text : String}
      (performed : ⟨.write message, .error text⟩ ∈ acts) :
      Ran acts url (.error (.eventSink ("failed to write action event to IPC client: " ++ text)))

/-! ## Regions of a job -/

/-- The places of the lock regions that a job has performed. -/
def lockTimes (past : Past CoreCalls) : List ℕ :=
  past.filterMap fun p => match p.2.op with
    | .lock _ => some p.1
    | _ => none

/-- The answer to a command, given the catalog before each operation of the history. -/
inductive Explained (cat : ℕ → CoreCatalog) (past : Past CoreCalls) :
    CoreCommand → Except AppError CoreResponse → Prop
  /-- It took effect in its only region. -/
  | alone {t : ℕ} {command : CoreCommand} {result : Except AppError CoreResponse}
      (only : lockTimes past = [t]) (performs : Performs (cat t) command result (cat (t + 1))) :
      Explained cat past command result
  /-- A blank name is refused before the store is locked. -/
  | unnamed {name : String} (only : lockTimes past = []) (blank : isBlank name = true) :
      Explained cat past (.createProfile name) (.error (.domain .emptyProfileName))
  /-- The profile was known at the listing and is renamed at the update; its activity is that of the
  listing. -/
  | renamed {t t' : ℕ} {profileId : ProfileId} {name : String} (only : lockTimes past = [t, t'])
      (known : (cat t).Known profileId) (named : isBlank name = false)
      (next : cat (t + 1) = cat t ∧ cat (t' + 1) = (cat t').rename profileId name) :
      Explained cat past (.renameProfile profileId name)
        (.ok (.profile ⟨profileId, name, decide (profileId = (cat t).active)⟩))
  /-- The second region failed. -/
  | failed {t t' : ℕ} {command : CoreCommand} (only : lockTimes past = [t, t'])
      (next : cat (t + 1) = cat t ∧ cat (t' + 1) = cat t') (text : String) :
      Explained cat past command (.error (.storage text))
  /-- The profile that was active at the listing has nothing under the control at the lookup. -/
  | unassigned {t t' : ℕ} {control : ControlId} (only : lockTimes past = [t, t'])
      (next : cat (t + 1) = cat t ∧ cat (t' + 1) = cat t')
      (nothing : (cat t').entries.entry ((cat t).active, control) = []) :
      Explained cat past (.virtualControlInput control) (.error .assignmentNotFound)
  /-- The first action under the control of the profile that was active at the listing has run. -/
  | ran {t t' : ℕ} {control : ControlId} {url : SafeUrl} {actions : List Action}
      {result : Except AppError CoreResponse} (only : lockTimes past = [t, t'])
      (next : cat (t + 1) = cat t ∧ cat (t' + 1) = cat t')
      (first : (cat t').entries.entry ((cat t).active, control) = .openUrl url :: actions)
      (ran : Ran (past.map Prod.snd) url result) :
      Explained cat past (.virtualControlInput control) result

theorem lockTimes_append (past more : Past CoreCalls) :
    lockTimes (past ++ more) = lockTimes past ++ lockTimes more := List.filterMap_append

theorem lockTimes_lock (t : ℕ) (r : Region) (x : Except AppError r.Value) (past : Past CoreCalls) :
    lockTimes ((t, ⟨.lock r, x⟩) :: past) = t :: lockTimes past := rfl

/-- No operation locks a region. -/
def Unlocked (acts : List (Act CoreCalls)) : Prop := ∀ a ∈ acts, ∀ r, a.op ≠ .lock r

theorem unlocked_nil : Unlocked [] := List.forall_mem_nil _

theorem lockTimes_eq_nil {past : Past CoreCalls} (unlocked : Unlocked (past.map Prod.snd)) :
    lockTimes past = [] := by
  unfold lockTimes
  rw [List.filterMap_eq_nil_iff]
  intro p mem
  have apart := unlocked p.2 (List.mem_map_of_mem mem)
  generalize p.2.op = o at apart
  cases o with
  | lock r => exact absurd rfl (apart r)
  | _ => rfl

/-- The catalogs before the operations of the history, as a job of it has seen them. -/
structure Tracks (cat : ℕ → CoreCatalog) (past : Past CoreCalls) : Prop where
  ordered : (past.map Prod.fst).Pairwise (· < ·)
  answers : ∀ p ∈ past, AnswersAct (cat p.1) p.2
  next : ∀ p ∈ past, cat (p.1 + 1) = afterAct (cat p.1) p.2
  stay : ∀ profileId t t', t ≤ t' → (cat t).Known profileId → (cat t').Known profileId

/-- A region failed, or answered from the catalog of its moment and moved it. -/
def Region.Serves (cat : ℕ → CoreCatalog) (t : ℕ) (r : Region) (x : Except AppError r.Value) :
    Prop :=
  (∃ text, x = .error (.storage text) ∧ cat (t + 1) = cat t) ∨
    r.Answers (cat t) x ∧ cat (t + 1) = r.catalogAfter x (cat t)

section Tracks

variable {cat : ℕ → CoreCatalog} {past : Past CoreCalls} {t : ℕ} {r r' : Region}
  {x : Except AppError r.Value} {x' : Except AppError r'.Value}
  {before after : List (Act CoreCalls)}

theorem Tracks.serves (tracks : Tracks cat past) (mem : (t, ⟨.lock r, x⟩) ∈ past) :
    r.Serves cat t x := by
  have next : cat (t + 1) = r.catalogAfter x (cat t) := tracks.next _ mem
  have answers : (∃ text, x = .error (.storage text)) ∨ r.Answers (cat t) x := tracks.answers _ mem
  rcases answers with ⟨text, rfl⟩ | answers
  · rw [catalogAfter_error] at next
    exact .inl ⟨text, rfl, next⟩
  · exact .inr ⟨answers, next⟩

/-- A job that has locked once. -/
theorem Tracks.once (tracks : Tracks cat past)
    (split : past.map Prod.snd = before ++ ⟨.lock r, x⟩ :: after) (unlocked : Unlocked before)
    (unlocked' : Unlocked after) : ∃ t, lockTimes past = [t] ∧ r.Serves cat t x := by
  obtain ⟨past₀, past₁, rfl, rfl, rest⟩ := List.map_eq_append_iff.1 split
  obtain ⟨⟨t, a⟩, past₂, rfl, same, rfl⟩ := List.map_eq_cons_iff.1 rest
  obtain rfl : a = _ := same
  refine ⟨t, ?_, tracks.serves (List.mem_append_right _ (List.mem_cons_self ..))⟩
  rw [lockTimes_append, lockTimes_eq_nil unlocked, lockTimes_lock, lockTimes_eq_nil unlocked']
  rfl

theorem Tracks.first (tracks : Tracks cat past) (split : past.map Prod.snd = ⟨.lock r, x⟩ :: after)
    (unlocked : Unlocked after) : ∃ t, lockTimes past = [t] ∧ r.Serves cat t x :=
  tracks.once (split.trans (List.nil_append _).symm) unlocked_nil unlocked

/-- A job that has locked twice. -/
theorem Tracks.twice (tracks : Tracks cat past)
    (split : past.map Prod.snd = ⟨.lock r, x⟩ :: ⟨.lock r', x'⟩ :: after)
    (unlocked : Unlocked after) : ∃ t t', t ≤ t' ∧ lockTimes past = [t, t'] ∧
      r.Serves cat t x ∧ r'.Serves cat t' x' := by
  obtain ⟨⟨t, a⟩, past₁, rfl, same, rest⟩ := List.map_eq_cons_iff.1 split
  obtain rfl : a = _ := same
  obtain ⟨⟨t', a⟩, past₂, rfl, same, rfl⟩ := List.map_eq_cons_iff.1 rest
  obtain rfl : a = _ := same
  have lt : t < t' := (List.pairwise_cons.1 tracks.ordered).1 t' (List.mem_cons_self ..)
  refine ⟨t, t', Nat.le_of_lt lt, ?_, tracks.serves (List.mem_cons_self ..),
    tracks.serves (List.mem_cons_of_mem _ (List.mem_cons_self ..))⟩
  rw [lockTimes_lock, lockTimes_lock, lockTimes_eq_nil unlocked]

end Tracks

/-! ## Paths of commands -/

section Paths

variable {α : Type} {r : Region} {acts : List (Act CoreCalls)} {result : Except AppError α}

theorem path_lock_bind {f : r.Value → Fallible CoreCalls AppError α}
    (h : (lock r >>= f).run.Path acts (some result)) :
    (∃ error, acts = [⟨.lock r, .error error⟩] ∧ result = .error error) ∨
      ∃ value rest, acts = ⟨.lock r, .ok value⟩ :: rest ∧
        (f value).run.Path rest (some result) := by
  rcases run_path_bind h with ⟨-, ended⟩ | ⟨error, hl, ended⟩ | ⟨value, as₁, as₂, rfl, hl, rest⟩
  · cases ended
  · rcases path_lock hl with ⟨-, same⟩ | ⟨x, rfl, same⟩
    · cases same
    · cases same
      cases ended
      exact .inl ⟨error, rfl, rfl⟩
  · rcases path_lock hl with ⟨-, same⟩ | ⟨x, rfl, same⟩
    · cases same
    · cases same
      exact .inr ⟨value, as₂, rfl, rest⟩

theorem path_domain_bind {β : Type} {checked : Except DomainError β}
    {f : β → Fallible CoreCalls AppError α}
    (h : (domain checked >>= f).run.Path acts (some result)) :
    (∃ error, checked = .error error ∧ acts = [] ∧ result = .error (.domain error)) ∨
      ∃ value, checked = .ok value ∧ (f value).run.Path acts (some result) := by
  rcases checked with error | value
  · obtain ⟨rfl, ended⟩ := path_pure_iff.1 h
    cases ended
    exact .inl ⟨error, rfl, rfl, rfl⟩
  · exact .inr ⟨value, rfl, h⟩

end Paths

/-! ## Every command is explained -/

theorem ifKnown_ok {cat : CoreCatalog} {profileId : ProfileId}
    (h : .ok () = ifKnown cat profileId) : cat.Known profileId := by
  unfold ifKnown at h
  by_contra unknown
  rw [if_neg unknown] at h
  cases h

theorem ifKnown_error {cat : CoreCatalog} {profileId : ProfileId} {error : AppError}
    (h : .error error = ifKnown cat profileId) :
    ¬ cat.Known profileId ∧ error = .profileNotFound := by
  unfold ifKnown at h
  split_ifs at h with known
  exact ⟨known, Except.error.inj h⟩

section Commands

variable {cat : ℕ → CoreCatalog} {past : Past CoreCalls} {t : ℕ}
  {acts more : List (Act CoreCalls)} {command : CoreCommand}
  {result : Except AppError CoreResponse}

/-- A region that reads does not answer an error of its own. -/
theorem Region.Serves.failed {r : Region} {error : AppError}
    (serves : r.Serves cat t (.error error)) (reads : ¬ r.Answers (cat t) (.error error)) :
    Performs (cat t) command (.error error) (cat (t + 1)) := by
  rcases serves with ⟨text, same, next⟩ | ⟨answers, -⟩
  · obtain rfl : error = .storage text := Except.error.inj same
    rw [next]
    exact .failed text
  · exact absurd answers reads

/-- A region that changes a profile fails or does not know the profile. -/
theorem Region.Serves.unknown {r : Region} {error : AppError} {profileId : ProfileId}
    (serves : r.Serves cat t (.error error)) (target : command.target? = some profileId)
    (changes : r.Answers (cat t) (.error error) → .error error = ifKnown (cat t) profileId) :
    Performs (cat t) command (.error error) (cat (t + 1)) := by
  rcases serves with ⟨text, same, next⟩ | ⟨answers, next⟩
  · obtain rfl : error = .storage text := Except.error.inj same
    rw [next]
    exact .failed text
  · obtain ⟨unknown, rfl⟩ := ifKnown_error (changes answers)
    rw [next, catalogAfter_error]
    exact .unknown target unknown

theorem Region.Serves.ok {r : Region} {value : r.Value} (serves : r.Serves cat t (.ok value)) :
    r.Answers (cat t) (.ok value) ∧ cat (t + 1) = r.catalogAfter (.ok value) (cat t) := by
  rcases serves with ⟨text, same, -⟩ | served
  · cases same
  · exact served

/-- A command that is one region which changes a profile. -/
theorem Tracks.change (tracks : Tracks cat past) (split : past.map Prod.snd = acts ++ more)
    (unlocked : Unlocked more) {r : Region} {profileId : ProfileId}
    (path : (lock r >>= fun _ => (pure .acknowledged : Fallible CoreCalls AppError _)).run.Path acts
      (some result)) (target : command.target? = some profileId)
    (changes : ∀ t error, r.Answers (cat t) (.error error) →
      .error error = ifKnown (cat t) profileId)
    (done : ∀ t value, r.Answers (cat t) (.ok value) →
      Performs (cat t) command (.ok .acknowledged) (r.catalogAfter (.ok value) (cat t))) :
    Explained cat past command result := by
  rcases path_lock_bind path with ⟨error, rfl, rfl⟩ | ⟨value, rest, rfl, ended⟩
  · obtain ⟨t, only, serves⟩ := tracks.first split unlocked
    exact .alone only (serves.unknown target (changes t error))
  · obtain ⟨rfl, same⟩ := path_pure_iff.1 ended
    cases same
    obtain ⟨t, only, serves⟩ := tracks.first split unlocked
    obtain ⟨answers, next⟩ := serves.ok
    refine .alone only ?_
    rw [next]
    exact done t value answers

/-- A command that is one region which reads, and a check of the profiles it found. -/
theorem Tracks.read (tracks : Tracks cat past) (split : past.map Prod.snd = acts ++ more)
    (unlocked : Unlocked more) {r : Region} {profiles : r.Value → List Profile}
    {response : r.Value → CoreResponse}
    (path : (lock r >>= fun value => domain (ensureExactlyOneActive (profiles value)) >>= fun _ =>
      (pure (response value) : Fallible CoreCalls AppError _)).run.Path acts (some result))
    (reads : ∀ t error, ¬ r.Answers (cat t) (.error error))
    (kept : ∀ t value, r.catalogAfter (.ok value) (cat t) = cat t)
    (done : ∀ t value, r.Answers (cat t) (.ok value) → ListsProfiles (profiles value) (cat t) ∧
      Performs (cat t) command (.ok (response value)) (cat t)) :
    Explained cat past command result := by
  rcases path_lock_bind path with ⟨error, rfl, rfl⟩ | ⟨value, rest, rfl, checked⟩
  · obtain ⟨t, only, serves⟩ := tracks.first split unlocked
    exact .alone only (serves.failed (reads t error))
  · have locked : ∀ a ∈ rest ++ more, ∀ r, a.op ≠ .lock r := by
      rcases path_domain_bind checked with ⟨_, -, rfl, -⟩ | ⟨_, -, ended⟩
      · exact unlocked
      · obtain ⟨rfl, -⟩ := path_pure_iff.1 ended
        exact unlocked
    obtain ⟨t, only, serves⟩ := tracks.first split locked
    obtain ⟨answers, next⟩ := serves.ok
    obtain ⟨lists, performs⟩ := done t value answers
    rw [kept] at next
    rcases path_domain_bind checked with ⟨error, refused, -, -⟩ | ⟨_, -, ended⟩
    · rw [lists.ensure] at refused
      cases refused
    · obtain ⟨-, same⟩ := path_pure_iff.1 ended
      cases same
      refine .alone only ?_
      rw [next]
      exact performs

variable [UuidCrate]

/-- `create_profile` draws an id, checks the name and inserts the profile. -/
theorem Tracks.createProfile (tracks : Tracks cat past)
    (split : past.map Prod.snd = acts ++ more) (unlocked : Unlocked more) {name : String}
    (path : (coreService.handleCommand (.createProfile name)).run.Path acts (some result)) :
    Explained cat past (.createProfile name) result := by
  rcases run_path_bind path with ⟨-, ended⟩ | ⟨error, created, ended⟩ |
    ⟨profile, as₁, as₂, rfl, created, ended⟩
  · cases ended
  · cases ended
    rcases run_path_call_bind created with ⟨-, same⟩ | ⟨uuid, rest, rfl, checked⟩
    · cases same
    have drawn : Unlocked [⟨.newUuid, uuid⟩] := by simp [Unlocked]
    rcases path_domain_bind checked with ⟨error', refused, rfl, same⟩ | ⟨profile, -, inserted⟩
    · cases same
      obtain rfl := Profile.new_error refused
      refine .unnamed (lockTimes_eq_nil ?_) ?_
      · rw [split]
        exact List.forall_mem_append.2 ⟨drawn, unlocked⟩
      · by_contra named
        have new : Profile.new uuid name false = .ok ⟨⟨uuid⟩, name, false⟩ :=
          Profile.new_ok_iff.2 ⟨Bool.eq_false_iff.2 named, rfl⟩
        rw [refused] at new
        cases new
    · rcases path_lock_bind inserted with ⟨error', rfl, same⟩ | ⟨_, _, -, ended⟩
      · cases same
        have split' : past.map Prod.snd = [⟨.newUuid, uuid⟩] ++ ⟨.lock (.insertProfile profile),
          .error error⟩ :: more := split
        obtain ⟨t, only, serves⟩ := tracks.once split' drawn unlocked
        refine .alone only (serves.failed ?_)
        rintro ⟨same, -⟩
        cases same
      · obtain ⟨-, same⟩ := path_pure_iff.1 ended
        cases same
  · obtain ⟨rfl, same⟩ := path_pure_iff.1 ended
    cases same
    rcases run_path_call_bind created with ⟨-, same⟩ | ⟨uuid, rest, rfl, checked⟩
    · cases same
    have drawn : Unlocked [⟨.newUuid, uuid⟩] := by simp [Unlocked]
    rcases path_domain_bind checked with ⟨_, -, -, same⟩ | ⟨profile', new, inserted⟩
    · cases same
    rcases path_lock_bind inserted with ⟨_, -, same⟩ | ⟨value, rest, rfl, ended⟩
    · cases same
    obtain ⟨rfl, same⟩ := path_pure_iff.1 ended
    cases same
    obtain ⟨named, rfl⟩ := Profile.new_ok_iff.1 new
    have split' : past.map Prod.snd = [⟨.newUuid, uuid⟩] ++ ⟨.lock (.insertProfile
        ⟨⟨uuid⟩, name, false⟩), .ok value⟩ :: more := by
      rw [split, List.append_nil]
      rfl
    obtain ⟨t, only, serves⟩ := tracks.once split' drawn unlocked
    obtain ⟨⟨-, fresh⟩, next⟩ := serves.ok
    refine .alone only ?_
    rw [next]
    exact .created named fresh

/-- `rename_profile` lists the profiles, checks the name and updates the row of the profile. -/
theorem Tracks.renameProfile (tracks : Tracks cat past)
    (split : past.map Prod.snd = acts ++ more) (unlocked : Unlocked more) {profileId : ProfileId}
    {name : String}
    (path : (coreService.handleCommand (.renameProfile profileId name)).run.Path acts
      (some result)) : Explained cat past (.renameProfile profileId name) result := by
  have renamed : ∃ outcome, (coreService.repository.renameProfile profileId name).run.Path acts
      (some outcome) ∧ result = outcome.map .profile := by
    rcases run_path_bind path with ⟨-, ended⟩ | ⟨error, renamed, ended⟩ |
      ⟨profile, as₁, as₂, rfl, renamed, ended⟩
    · cases ended
    · cases ended
      exact ⟨_, renamed, rfl⟩
    · obtain ⟨rfl, same⟩ := path_pure_iff.1 ended
      cases same
      rw [List.append_nil]
      exact ⟨_, renamed, rfl⟩
  obtain ⟨outcome, listed, rfl⟩ := renamed
  rcases path_lock_bind listed with ⟨error, rfl, rfl⟩ | ⟨profiles, rest, rfl, found⟩
  · obtain ⟨t, only, serves⟩ := tracks.first split unlocked
    refine .alone only (serves.failed ?_)
    rintro ⟨_, same, -⟩
    cases same
  cases find : profiles.find? fun profile => profile.id = profileId with
  | none =>
    rw [find] at found
    obtain ⟨rfl, same⟩ := path_pure_iff.1 found
    cases same
    obtain ⟨t, only, serves⟩ := tracks.first split unlocked
    obtain ⟨⟨_, same, lists⟩, next⟩ := serves.ok
    cases same
    refine .alone only ?_
    rw [next]
    apply Performs.unknown rfl
    rw [lists.known_iff]
    rintro ⟨profile, mem, same⟩
    exact List.find?_eq_none.1 find profile mem (decide_eq_true same)
  | some profile =>
    rw [find] at found
    have id : profile.id = profileId := by simpa using List.find?_some find
    have mem := List.mem_of_find?_eq_some find
    rcases path_domain_bind found with ⟨error, refused, rfl, rfl⟩ | ⟨profile', accepted, updated⟩
    · obtain ⟨t, only, serves⟩ := tracks.first split unlocked
      obtain ⟨⟨_, same, lists⟩, next⟩ := serves.ok
      cases same
      obtain rfl := Profile.rename_error refused
      refine .alone only ?_
      rw [next]
      refine .unnamed (lists.known_iff.2 ⟨profile, mem, id⟩) ?_
      by_contra named
      have renamed : profile.rename name = .ok { profile with name } :=
        Profile.rename_ok_iff.2 ⟨Bool.eq_false_iff.2 named, rfl⟩
      rw [refused] at renamed
      cases renamed
    obtain ⟨named, rfl⟩ := Profile.rename_ok_iff.1 accepted
    rcases path_lock_bind updated with ⟨error, rfl, rfl⟩ | ⟨value, rest, rfl, ended⟩
    · obtain ⟨t, t', le, only, serves, serves'⟩ := tracks.twice split unlocked
      obtain ⟨⟨_, same, lists⟩, next⟩ := serves.ok
      cases same
      have known := tracks.stay _ _ _ le (lists.known_iff.2 ⟨profile, mem, id⟩)
      rcases serves' with ⟨text, same, next'⟩ | ⟨answers, -⟩
      · cases same
        exact .failed only ⟨next, next'⟩ text
      · exact absurd known (ifKnown_error answers).1
    · obtain ⟨rfl, same⟩ := path_pure_iff.1 ended
      cases same
      obtain ⟨t, t', le, only, serves, serves'⟩ := tracks.twice split unlocked
      obtain ⟨⟨_, same, lists⟩, next⟩ := serves.ok
      cases same
      obtain ⟨-, next'⟩ := serves'.ok
      have active := ((lists.mem_iff profile).1 mem).2
      have answer : ({ profile with name } : Profile) =
          ⟨profileId, name, decide (profileId = (cat t).active)⟩ := by
        rw [← id, ← active]
      show Explained cat past (.renameProfile profileId name) (.ok (.profile _))
      rw [answer]
      exact .renamed only (lists.known_iff.2 ⟨profile, mem, id⟩) named ⟨next, next'⟩

/-! ### Virtual inputs -/

omit [UuidCrate] in
theorem Ran.mono {url : SafeUrl} (ran : Ran acts url result) (sub : ∀ a ∈ acts, a ∈ more) :
    Ran more url result := by
  cases ran with
  | opened performed => exact .opened (sub _ performed)
  | refused performed => exact .refused (sub _ performed)
  | unwritten performed => exact .unwritten (sub _ performed)

theorem EmitPath.unwritten {event : CoreEvent} {url : SafeUrl} {error : AppError}
    (path : EmitPath event acts (some (.error error))) : Ran acts url (.error error) := by
  cases path with
  | failed text =>
    have performed : (⟨.write (eventFromCore event), .error text⟩ : Act CoreCalls) ∈
        [⟨.log (.coreEvent event), ()⟩, ⟨.write (eventFromCore event), .error text⟩] := by simp
    exact .unwritten performed

theorem ActionPath.ran {profileId : ProfileId} {control : ControlId} {url : SafeUrl}
    {outcome : Except AppError Unit} (path : ActionPath profileId control url acts (some outcome)) :
    Ran acts url (outcome.map fun _ => .acknowledged) := by
  generalize ended : some outcome = r at path
  cases path with
  | start => cases ended
  | opening => cases ended
  | announcing emit unwritten =>
    subst ended
    rcases outcome with error | ⟨⟩
    · exact emit.unwritten.mono fun a mem => List.mem_cons_of_mem _ mem
    · exact absurd rfl unwritten
  | @reporting uuid opened _ r emit =>
    rcases r with _ | (error | ⟨⟩)
    · cases ended
    · cases ended
      refine emit.unwritten.mono fun a mem => ?_
      exact List.mem_append_right _ (List.mem_cons_of_mem _ mem)
    · rcases opened with error | ⟨⟩
      · cases ended
        exact .refused (by simp)
      · cases ended
        exact .opened (by simp)

theorem ActionPath.unlocked {profileId : ProfileId} {control : ControlId} {url : SafeUrl}
    {r : Option (Except AppError Unit)} (path : ActionPath profileId control url acts r) :
    Unlocked acts := by
  intro a mem r locks
  have act := path.actionAct a mem
  cases act <;> cases locks

omit [UuidCrate] in
/-- The listed profile that is active. -/
theorem ListsProfiles.active {profiles : List Profile} {cat : CoreCatalog} {profile : Profile}
    (lists : ListsProfiles profiles cat)
    (active : (profiles.find? fun profile => profile.isActive) = some profile) :
    profile.id = cat.active := by
  have isActive : profile.isActive = true := List.find?_some active
  rw [((lists.mem_iff profile).1 (List.mem_of_find?_eq_some active)).2] at isActive
  exact of_decide_eq_true isActive

omit [UuidCrate] in
/-- What a lookup found is the entry of the catalog. -/
theorem entry_of_found {cat : CoreCatalog} {profileId : ProfileId} {control : ControlId}
    {found : Option Assignment}
    (answers : Region.Answers (.findAssignment profileId control) cat (.ok found)) :
    cat.entries.entry (profileId, control) = (found.map Assignment.actions).getD [] ∧
      ∀ assignment, found = some assignment → assignment.actions ≠ [] := by
  obtain rfl := Except.ok.inj answers
  unfold ListMap.entry
  rcases cat.entries (profileId, control) with _ | ⟨actions, filled⟩
  · exact ⟨rfl, fun _ h => by cases h⟩
  · refine ⟨rfl, ?_⟩
    rintro _ ⟨⟩
    exact filled

/-- `route_virtual_control` reads the active profile, then the assignment, and runs its action. -/
theorem Tracks.virtualControlInput (tracks : Tracks cat past)
    (split : past.map Prod.snd = acts ++ more) (unlocked : Unlocked more) {control : ControlId}
    (path : (coreService.handleCommand (.virtualControlInput control)).run.Path acts
      (some result)) : Explained cat past (.virtualControlInput control) result := by
  obtain ⟨outcome, route, same⟩ := virtualControlInput_path path
  rcases outcome with _ | outcome
  · cases same
  obtain rfl := Option.some.inj same
  generalize ended : some outcome = r at route
  cases route with
  | start => cases ended
  | listed => cases ended
  | unlisted error =>
    cases ended
    obtain ⟨t, only, serves⟩ := tracks.first split unlocked
    refine .alone only (serves.failed ?_)
    rintro ⟨_, same, -⟩
    cases same
  | ambiguous not_one =>
    obtain ⟨t, only, serves⟩ := tracks.first split unlocked
    obtain ⟨⟨_, same, lists⟩, -⟩ := serves.ok
    cases same
    rw [lists.ensure] at not_one
    cases not_one
  | unread one active error =>
    cases ended
    obtain ⟨t, t', -, only, serves, serves'⟩ := tracks.twice split unlocked
    obtain ⟨-, next⟩ := serves.ok
    rcases serves' with ⟨text, same, next'⟩ | ⟨answers, -⟩
    · cases same
      exact .failed only ⟨next, next'⟩ text
    · cases answers
  | notFound one active =>
    cases ended
    obtain ⟨t, t', -, only, serves, serves'⟩ := tracks.twice split unlocked
    obtain ⟨⟨_, same, lists⟩, next⟩ := serves.ok
    cases same
    obtain ⟨answers, next'⟩ := serves'.ok
    refine .unassigned only ⟨next, next'⟩ ?_
    rw [← lists.active active]
    exact (entry_of_found answers).1
  | noAction one active empty =>
    obtain ⟨t, t', -, only, serves, serves'⟩ := tracks.twice split unlocked
    have filled := (entry_of_found serves'.ok.1).2 _ rfl
    exact absurd (List.head?_eq_none_iff.1 empty) filled
  | @found profiles profile assignment url rest _ one active first path =>
    subst ended
    have unlocked' : Unlocked (rest ++ more) :=
      List.forall_mem_append.2 ⟨path.unlocked, unlocked⟩
    obtain ⟨t, t', -, only, serves, serves'⟩ := tracks.twice split unlocked'
    obtain ⟨⟨_, same, lists⟩, next⟩ := serves.ok
    cases same
    obtain ⟨answers, next'⟩ := serves'.ok
    obtain ⟨actions, filled⟩ := List.head?_eq_some_iff.1 first
    have entry : (cat t').entries.entry ((cat t).active, control) = .openUrl url :: actions := by
      rw [← lists.active active, (entry_of_found answers).1]
      exact filled
    refine .ran only ⟨next, next'⟩ entry (path.ran.mono fun a mem => ?_)
    rw [split]
    simp [mem]

/-- What a command answered is explained by the catalogs that its job has seen. -/
theorem Tracks.explained (tracks : Tracks cat past) (split : past.map Prod.snd = acts ++ more)
    (unlocked : Unlocked more)
    (path : (coreService.handleCommand command).run.Path acts (some result)) :
    Explained cat past command result := by
  cases command with
  | getSnapshot =>
    apply tracks.read (r := .loadSnapshotState) split unlocked path
    · rintro t error ⟨_, same, -⟩
      cases same
    · intro t state
      rfl
    · rintro t _ ⟨state, ⟨⟩, lists, assignments⟩
      exact ⟨lists, .snapshot lists assignments⟩
  | listProfiles =>
    apply tracks.read (r := .listProfiles) split unlocked path
    · rintro t error ⟨_, same, -⟩
      cases same
    · intro t profiles
      rfl
    · rintro t _ ⟨profiles, ⟨⟩, lists⟩
      exact ⟨lists, .listed lists⟩
  | createProfile name => exact tracks.createProfile split unlocked path
  | renameProfile profileId name => exact tracks.renameProfile split unlocked path
  | setActiveProfile profileId =>
    exact tracks.change (r := .setActiveProfile profileId) split unlocked path rfl
      (fun t error answers => answers) fun t value answers => .activated (ifKnown_ok answers)
  | saveAssignment assignment =>
    exact tracks.change (r := .saveAssignment assignment) split unlocked path rfl
      (fun t error answers => answers) fun t value answers => .saved (ifKnown_ok answers)
  | clearAssignment profileId control =>
    exact tracks.change (r := .clearAssignment profileId control) split unlocked path rfl
      (fun t error answers => answers) fun t value answers => .cleared (ifKnown_ok answers)
  | virtualControlInput control => exact tracks.virtualControlInput split unlocked path

end Commands

/-! ## Runs -/

section Runs

variable [SerdeJson] [UuidCrate]

/-- The reply to a command is that to its result, and nothing is locked between the two. -/
theorem LinePath.replied_command {session : ProtocolSession} {line requestId : String}
    {command : CoreCommand} {before : List (Act CoreCalls)} {reply : ServerMessage}
    {written : Except String Unit} {r : Option (Except String Unit × ProtocolSession)}
    (path : LinePath session line (before ++ [⟨.write reply, written⟩]) r)
    (received : (session.receiveLine line).1 = .command requestId command)
    (terminal : reply.Terminal = true) : ∃ acts more result, before = acts ++ more ∧
      Unlocked more ∧ (coreService.handleCommand command).run.Path acts (some result) ∧
      reply = commandReply requestId result := by
  generalize performed : before ++ [⟨.write reply, written⟩] = all at path
  cases path with
  | dispatching dispatched =>
    rw [received] at dispatched
    cases dispatched with
    | command handled replying =>
      have mem : (⟨.write reply, written⟩ : Act CoreCalls) ∈ before ++ [⟨.write reply, written⟩] :=
        List.mem_append_right _ (List.mem_singleton_self _)
      rw [performed, List.mem_append] at mem
      rcases mem with mem | mem
      · have event := handled.uses (uses_handleCommand_events command) _ mem
        rw [CoreOp.WritesEvents, terminal] at event
        cases event
      · obtain ⟨_, same⟩ := replying.logs _ mem
        cases same
  | replied dispatched written' =>
    obtain ⟨rfl, same⟩ := List.append_inj' performed rfl
    cases same
    rw [received] at dispatched
    generalize ended : some reply = r at dispatched
    cases dispatched with
    | command handled replying =>
      subst ended
      have logs := replying.logs
      obtain ⟨result, rfl, rfl, -⟩ := replying.complete
      refine ⟨_, _, result, rfl, fun a mem r locks => ?_, handled, rfl⟩
      obtain ⟨record, rfl⟩ := logs a mem
      cases locks

variable [RusqliteCrate]

/-- The catalog before each operation of a run that starts on the catalog `cat`. -/
def catalogAt (cat : CoreCatalog) (c : Lines) : ℕ → CoreCatalog := abstractAt afterAct cat c.history

/-- The tables hold the catalog at all times, and every reply to a command is explained by it. -/
structure Linearizes (db : Db) (cat : CoreCatalog) (c : Lines) : Prop where
  holds : ∀ t ≤ c.history.length, (stateAt db c.history t).Holds (catalogAt cat c t)
  explained : ∀ t e session requestId command reply written, c.history[t]? = some e →
    e.loc = some session → (session.receiveLine e.job).1 = .command requestId command →
    e.act = ⟨.write reply, written⟩ → reply.Terminal = true →
    ∃ result, reply = commandReply requestId result ∧ (∀ t' ∈ lockTimes e.past, t' < t) ∧
      Explained (catalogAt cat c) e.past command result

section Catalogs

variable {db : Db} {cat : CoreCatalog} {c : Lines}

omit [SerdeJson] [UuidCrate] [RusqliteCrate] in
/-- A profile that is known stays known for the rest of the run. -/
theorem known_catalogAt {profileId : ProfileId} {t t' : ℕ} (le : t ≤ t')
    (known : (catalogAt cat c t).Known profileId) : (catalogAt cat c t').Known profileId := by
  induction t', le using Nat.le_induction with
  | base => exact known
  | succ t' le ih =>
    rcases he : c.history[t']? with _ | e
    · unfold catalogAt abstractAt at ih ⊢
      rw [List.take_add_one, he, Option.toList_none, List.append_nil]
      exact ih
    · unfold catalogAt at ih ⊢
      rw [abstractAt_succ he]
      exact known_afterAct ih e.act

omit [SerdeJson] [UuidCrate] [RusqliteCrate] in
/-- The places of a job lie before those of the operations that it still performs. -/
theorem lockTimes_lt {history : List LineEntry} {i t : ℕ} {past : Past CoreCalls}
    (recorded : Clients.Recorded (history.take t) i past) : ∀ t' ∈ lockTimes past, t' < t := by
  intro t' mem
  obtain ⟨p, hp, place⟩ := List.mem_filterMap.1 mem
  have lt := recorded.lt hp
  rw [List.length_take] at lt
  have same : p.1 = t' := by
    generalize p.2.op = o at place
    cases o <;> cases place
    rfl
  omega

theorem tracks_past (traced : Traced connections coreHandler db c)
    (answers : ∀ t e, c.history[t]? = some e → AnswersAct (catalogAt cat c t) e.act) {t : ℕ}
    {e : LineEntry} (he : c.history[t]? = some e) : Tracks (catalogAt cat c) e.past := by
  have recorded := traced.entry_recorded t e he
  have entry : ∀ p ∈ e.past, ∃ e', c.history[p.1]? = some e' ∧ e'.act = p.2 := by
    intro p mem
    obtain ⟨e', he', -, act⟩ := recorded.2 p mem
    have lt := recorded.lt mem
    rw [List.length_take] at lt
    rw [List.getElem?_take_of_lt (by omega)] at he'
    exact ⟨e', he', act⟩
  refine ⟨recorded.1, fun p mem => ?_, fun p mem => ?_, fun _ _ _ => known_catalogAt⟩
  · obtain ⟨e', he', act⟩ := entry p mem
    rw [← act]
    exact answers _ _ he'
  · obtain ⟨e', he', act⟩ := entry p mem
    rw [← act]
    exact abstractAt_succ he'

end Catalogs

/-- In a run on a store that holds a catalog, the tables always hold the catalog of the moment, and
every region answers from it. -/
theorem simulated_of_traced (hp : UuidCrate.ParseInverts) {db : Db} {cat : CoreCatalog}
    (h : db.Holds cat) {c : Lines} (traced : Traced connections coreHandler db c) :
    (∀ t ≤ c.history.length, (stateAt db c.history t).Holds (catalogAt cat c t)) ∧
      ∀ t e, c.history[t]? = some e → AnswersAct (catalogAt cat c t) e.act :=
  traced.simulated h fun input o _ _ => holds_coreHandler hp input o

theorem linearizes_of_traced (hp : UuidCrate.ParseInverts) {db : Db} {cat : CoreCatalog}
    (h : db.Holds cat) {c : Lines} (traced : Traced connections coreHandler db c) :
    Linearizes db cat c := by
  obtain ⟨holds, answers⟩ := simulated_of_traced hp h traced
  refine ⟨holds, fun t e session requestId command reply written he open_ received act
    terminal => ?_⟩
  obtain ⟨session', r, open', path⟩ := linePath_of_entry traced (List.mem_of_getElem? he)
  rw [open_] at open'
  cases open'
  rw [act] at path
  obtain ⟨acts, more, result, split, unlocked, handled, rfl⟩ :=
    path.replied_command received terminal
  exact ⟨result, rfl, lockTimes_lt (traced.entry_recorded t e he),
    (tracks_past traced answers he).explained split unlocked handled⟩

/-- In every run on a store that holds a catalog, whatever the connections send and however their
operations interleave, the tables hold the catalog that the regions of the history make of it, and
every reply to a command is what the command answers on it. -/
theorem linearizes (hp : UuidCrate.ParseInverts) {db : Db} {cat : CoreCatalog} (h : db.Holds cat)
    (moves : List (Move String CoreInput)) :
    Linearizes db cat (run connections coreHandler (listening db) moves) :=
  linearizes_of_traced hp h (traced_run _ _ _)

end Runs

end Service

section Example

open Reference

/-- One client saves an action under the first key, and then another one asks for the snapshot. -/
def watchingMoves : List (Move String CoreInput) :=
  [.start 0 handshakeLine, .go 0 (calm 1), .start 0 saveLine, .go 0 (calm 2), .go 0 (calm 3),
    .start 1 handshakeLine, .go 1 (calm 4), .start 1 snapshotLine, .go 1 (calm 5), .go 1 (calm 6)]

theorem holds_default :
    (afterInitialize calm .empty).2.Holds (Catalog.single ⟨uuid 0⟩ "Default") :=
  holds_afterInitialize parseInverts
    (show (afterInitialize calm .empty).1 = .ok ⟨⟨uuid 0⟩, "Default", true⟩ by decide)

def watchingScript : List (Move ScriptLine CoreInput) :=
  [.start 0 .handshake, .go 0 (calm 1), .start 0 .save, .go 0 (calm 2), .go 0 (calm 3),
    .start 1 .handshake, .go 1 (calm 4), .start 1 .snapshot, .go 1 (calm 5), .go 1 (calm 6)]

/-- The lines of the jobs and the messages that they write. -/
theorem watchingScript_entries :
    (run (fun loc line => answerEnvelope loc (ScriptLine.envelope line)) coreHandler
      (begin (afterInitialize calm .empty).2 (some (.new CARGO_PKG_VERSION)))
      watchingScript).history.map (fun e => (e.loc, e.job, written? e.act)) =
    [(some ⟨CARGO_PKG_VERSION, .awaitingHandshake⟩, .handshake,
        some (.handshakeAccepted "1" CARGO_PKG_VERSION ProtocolVersion.current)),
      (some ⟨CARGO_PKG_VERSION, .established⟩, .save, none),
      (some ⟨CARGO_PKG_VERSION, .established⟩, .save, some (.acknowledged "2")),
      (some ⟨CARGO_PKG_VERSION, .awaitingHandshake⟩, .handshake,
        some (.handshakeAccepted "1" CARGO_PKG_VERSION ProtocolVersion.current)),
      (some ⟨CARGO_PKG_VERSION, .established⟩, .snapshot, none),
      (some ⟨CARGO_PKG_VERSION, .established⟩, .snapshot,
        some (.snapshot "3" (layoutToDto MVP_DEVICE_LAYOUT)
          [profileToDto ⟨⟨uuid 0⟩, "Default", true⟩]
          [⟨displayUuid (uuid 0), controlToDto firstKey, [.openUrl exampleUrl.value]⟩]))] := by
  decide +kernel

theorem watching_entries :
    (run connections coreHandler (listening (afterInitialize calm .empty).2) watchingMoves).history.map
      (fun e => (e.loc, e.job, written? e.act)) =
    [(some ⟨CARGO_PKG_VERSION, .awaitingHandshake⟩, handshakeLine,
        some (.handshakeAccepted "1" CARGO_PKG_VERSION ProtocolVersion.current)),
      (some ⟨CARGO_PKG_VERSION, .established⟩, saveLine, none),
      (some ⟨CARGO_PKG_VERSION, .established⟩, saveLine, some (.acknowledged "2")),
      (some ⟨CARGO_PKG_VERSION, .awaitingHandshake⟩, handshakeLine,
        some (.handshakeAccepted "1" CARGO_PKG_VERSION ProtocolVersion.current)),
      (some ⟨CARGO_PKG_VERSION, .established⟩, snapshotLine, none),
      (some ⟨CARGO_PKG_VERSION, .established⟩, snapshotLine,
        some (.snapshot "3" (layoutToDto MVP_DEVICE_LAYOUT)
          [profileToDto ⟨⟨uuid 0⟩, "Default", true⟩]
          [⟨displayUuid (uuid 0), controlToDto firstKey, [.openUrl exampleUrl.value]⟩]))] := by
  have scripted : watchingMoves = watchingScript.map (Move.mapJob ScriptLine.text) := rfl
  rw [scripted, run_decoded ScriptLine.decoded]
  unfold Config.mapJob
  rw [List.map_map]
  have entries := congrArg (List.map fun e => (e.1, e.2.1.text, e.2.2)) watchingScript_entries
  rw [List.map_map] at entries
  exact entries

/-- An entry of the run, read off the list above. -/
theorem watching_entry {n : ℕ} {loc : Option ProtocolSession} {line : String}
    {message : ServerMessage}
    (entry : ((run connections coreHandler (listening (afterInitialize calm .empty).2)
      watchingMoves).history.map fun e => (e.loc, e.job, written? e.act))[n]? =
        some (loc, line, some message)) :
    ∃ e, (run connections coreHandler (listening (afterInitialize calm .empty).2)
        watchingMoves).history[n]? = some e ∧ e.loc = loc ∧ e.job = line ∧
      e.act = ⟨.write message, .ok ()⟩ := by
  rw [List.getElem?_map] at entry
  obtain ⟨e, he, parts⟩ := Option.map_eq_some_iff.1 entry
  obtain ⟨rfl, rest⟩ := Prod.mk.inj parts
  obtain ⟨rfl, written⟩ := Prod.mk.inj rest
  exact ⟨e, he, rfl, rfl, act_of_written written⟩

/-- Two clients take turns, and the second sees what the first has saved. -/
theorem linearizes_example :
    let c := run connections coreHandler (listening (afterInitialize calm .empty).2) watchingMoves
    c.history.length = 6 ∧
      Linearizes (afterInitialize calm .empty).2 (Catalog.single ⟨uuid 0⟩ "Default") c := by
  have entries := congrArg List.length watching_entries
  rw [List.length_map] at entries
  exact ⟨entries, linearizes parseInverts holds_default watchingMoves⟩

end Example

end KeyroCore
