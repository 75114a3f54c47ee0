import KeyroCore.Connection

/-!
# Handshake gating

A session is established by the first line that asks for exactly the version of Core, stays
established, and treats every later line by itself.  Before that a connection only writes replies.
-/

open Effect Program Fallible

namespace KeyroCore

variable [SerdeJson] [UuidCrate] [UrlCrate]

open ProtocolSession

/-- The session of a fresh connection after these lines. -/
def sessionAfter (coreVersion : String) (lines : List String) : ProtocolSession :=
  lines.foldl (fun session line => (session.receiveLine line).2) (ProtocolSession.new coreVersion)

/-- What the session does with the `i`-th line. -/
def dispatchAt (coreVersion : String) (lines : List String) (i : ℕ) : Option ProtocolDispatch :=
  lines[i]?.map fun line => ((sessionAfter coreVersion (lines.take i)).receiveLine line).1

/-- The `i`-th line is answered with `HandshakeAccepted`. -/
def AcceptedAt (coreVersion : String) (lines : List String) (i : ℕ) : Prop :=
  ∃ requestId version protocol,
    dispatchAt coreVersion lines i = some (.immediate (.handshakeAccepted requestId version protocol))

/-- The gating of a connection that receives these lines. -/
structure HandshakeGated (coreVersion : String) (lines : List String) : Prop where
  once : ∀ i j, AcceptedAt coreVersion lines i → AcceptedAt coreVersion lines j → i = j
  command : ∀ i requestId command,
    dispatchAt coreVersion lines i = some (.command requestId command) → ∃ j < i, ∃ requestId,
      dispatchAt coreVersion lines j =
        some (.immediate (.handshakeAccepted requestId coreVersion ProtocolVersion.current))
  silent : ∀ acts r, (handleDevConnectionInner (.new coreVersion) lines).Path acts r →
    ∀ before a after, acts = before ++ a :: after →
      (∃ region, a.op = .lock region) ∨ (∃ url, a.op = .openUrl url) → ∃ requestId,
        ⟨.write (.handshakeAccepted requestId coreVersion ProtocolVersion.current), .ok ()⟩ ∈ before
  retry : ∀ i line requestId, lines[i]? = some line → AsksExactly line requestId →
    (∀ j < i, ¬ AcceptedAt coreVersion lines j) → dispatchAt coreVersion lines i =
      some (.immediate (.handshakeAccepted requestId coreVersion ProtocolVersion.current))
  stays : ∀ i j, i < j → AcceptedAt coreVersion lines i →
    (sessionAfter coreVersion (lines.take j)).state = .established
  alone : ∀ i j line, i < j → AcceptedAt coreVersion lines i → lines[j]? = some line →
    dispatchAt coreVersion lines j = some (establishedDispatch line)
  refused : ∀ i j line requestId message, i < j → AcceptedAt coreVersion lines i →
    lines[j]? = some line → decodeClientEnvelope line = .ok ⟨requestId, .handshake message⟩ →
      ∃ text, dispatchAt coreVersion lines j =
        some (.immediate (.error (some requestId) { code := .validationFailed, message := text }))

section Sessions

variable {coreVersion : String} {lines : List String} {i j : ℕ} {line : String}

theorem sessionAfter_succ (h : lines[i]? = some line) :
    sessionAfter coreVersion (lines.take (i + 1)) =
      ((sessionAfter coreVersion (lines.take i)).receiveLine line).2 := by
  rw [sessionAfter, List.take_add_one, h, List.foldl_append]
  rfl

theorem sessionAfter_succ_none (h : lines[i]? = none) :
    sessionAfter coreVersion (lines.take (i + 1)) = sessionAfter coreVersion (lines.take i) := by
  rw [List.take_add_one, h]
  exact congrArg _ (List.append_nil _)

theorem dispatchAt_eq (h : lines[i]? = some line) : dispatchAt coreVersion lines i =
    some ((sessionAfter coreVersion (lines.take i)).receiveLine line).1 := by
  rw [dispatchAt, h]
  rfl

theorem coreVersion_receiveLine (session : ProtocolSession) (line : String) :
    (session.receiveLine line).2.coreVersion = session.coreVersion := by
  rcases receiveLine_cases session line with
    ⟨-, eq⟩ | ⟨-, requestId, -, eq⟩ | ⟨-, -, requestId, error, eq⟩ <;> rw [eq]

theorem coreVersion_sessionAfter (i : ℕ) :
    (sessionAfter coreVersion (lines.take i)).coreVersion = coreVersion := by
  induction i with
  | zero => rfl
  | succ i ih =>
    rcases h : lines[i]? with _ | line
    · rw [sessionAfter_succ_none h]
      exact ih
    · rw [sessionAfter_succ h, coreVersion_receiveLine]
      exact ih

/-- An accepted line found the session waiting and asked for exactly the version. -/
theorem AcceptedAt.spec (h : AcceptedAt coreVersion lines i) :
    (sessionAfter coreVersion (lines.take i)).state = .awaitingHandshake ∧
      (sessionAfter coreVersion (lines.take (i + 1))).state = .established := by
  obtain ⟨requestId, version, protocol, accepted⟩ := h
  obtain ⟨line, hline, dispatched⟩ := Option.map_eq_some_iff.1 accepted
  rw [sessionAfter_succ hline]
  rcases receiveLine_cases (sessionAfter coreVersion (lines.take i)) line with
    ⟨-, eq⟩ | ⟨awaiting, _, -, eq⟩ | ⟨-, -, _, _, eq⟩
  · rw [eq] at dispatched
    exact absurd dispatched (establishedDispatch_ne_accepted _ _ _ _)
  · rw [eq]
    exact ⟨awaiting, rfl⟩
  · rw [eq] at dispatched
    cases dispatched

theorem established_mono (le : i ≤ j)
    (h : (sessionAfter coreVersion (lines.take i)).state = .established) :
    (sessionAfter coreVersion (lines.take j)).state = .established := by
  induction j, le using Nat.le_induction with
  | base => exact h
  | succ j _ ih =>
    rcases hline : lines[j]? with _ | line
    · rw [sessionAfter_succ_none hline]
      exact ih
    · rw [sessionAfter_succ hline, receiveLine_established ih]
      exact ih

/-- A session is established only by an accepted line. -/
theorem exists_accepted (h : (sessionAfter coreVersion (lines.take i)).state = .established) :
    ∃ j < i, ∃ requestId, dispatchAt coreVersion lines j =
      some (.immediate (.handshakeAccepted requestId coreVersion ProtocolVersion.current)) := by
  induction i with
  | zero => cases h
  | succ i ih =>
    rcases hline : lines[i]? with _ | line
    · rw [sessionAfter_succ_none hline] at h
      obtain ⟨j, lt, accepted⟩ := ih h
      exact ⟨j, by omega, accepted⟩
    · rw [sessionAfter_succ hline] at h
      rcases receiveLine_cases (sessionAfter coreVersion (lines.take i)) line with
        ⟨established, -⟩ | ⟨-, requestId, -, eq⟩ | ⟨awaiting, -, _, _, eq⟩
      · obtain ⟨j, lt, accepted⟩ := ih established
        exact ⟨j, by omega, accepted⟩
      · refine ⟨i, by omega, requestId, ?_⟩
        rw [dispatchAt_eq hline, eq, coreVersion_sessionAfter]
      · rw [eq, awaiting] at h
        cases h

theorem AcceptedAt.established (h : AcceptedAt coreVersion lines i) (lt : i < j) :
    (sessionAfter coreVersion (lines.take j)).state = .established :=
  established_mono (Nat.succ_le_of_lt lt) h.spec.2

theorem AcceptedAt.not_lt (h : AcceptedAt coreVersion lines i)
    (h' : AcceptedAt coreVersion lines j) : ¬ i < j := by
  intro lt
  have established := h.established lt
  rw [h'.spec.1] at established
  cases established

end Sessions

/-- A waiting connection performs nothing but writes until it has written an acceptance. -/
theorem silent_path {session : ProtocolSession} {lines : List String} {acts : List (Act CoreCalls)}
    {r : Option (Except String Unit)} (awaiting : session.state = .awaitingHandshake)
    (path : (handleDevConnectionInner session lines).Path acts r) {before after : List (Act CoreCalls)}
    {a : Act CoreCalls} (split : acts = before ++ a :: after) (effect : ∀ m, a.op ≠ .write m) :
    ∃ requestId,
      ⟨.write (.handshakeAccepted requestId session.coreVersion ProtocolVersion.current), .ok ()⟩ ∈
        before := by
  induction lines generalizing session acts before with
  | nil =>
    obtain ⟨rfl, -⟩ := path_pure_iff.1 path
    exact absurd split.symm (by simp)
  | cons line lines ih =>
    -- Whatever the line is, it is answered at once, with an acceptance or without effect on the
    -- session.
    obtain ⟨message, session', received, known⟩ : ∃ message session',
        session.receiveLine line = (.immediate message, session') ∧
          ((∃ requestId, message = .handshakeAccepted requestId session.coreVersion
            ProtocolVersion.current) ∨ session' = session) := by
      rcases receiveLine_cases session line with
        ⟨established, -⟩ | ⟨-, requestId, -, eq⟩ | ⟨-, -, requestId, error, eq⟩
      · rw [awaiting] at established
        cases established
      · exact ⟨_, _, eq, .inl ⟨requestId, rfl⟩⟩
      · exact ⟨_, _, eq, .inr rfl⟩
    have only {acts : List (Act CoreCalls)} {r : Option (Except String Unit × ProtocolSession)}
        (path : LinePath session line acts r) : ∀ b ∈ acts, ∃ written, b = ⟨.write message, written⟩ := by
      rcases path.of_immediate received with ⟨rfl, -⟩ | ⟨written, rfl, -⟩
      · simp
      · simp
    have apart {acts : List (Act CoreCalls)} {r : Option (Except String Unit × ProtocolSession)}
        (path : LinePath session line acts r) : a ∉ acts := by
      intro mem
      obtain ⟨written, rfl⟩ := only path a mem
      exact effect message rfl
    rcases handleDevConnectionInner_path path with
      ⟨hl, -⟩ | ⟨text, s', hl, -⟩ | ⟨s', as₁, as₂, rfl, hl, rest⟩
    · exact absurd (split ▸ by simp) (apart hl)
    · exact absurd (split ▸ by simp) (apart hl)
    rcases hl.of_immediate received with ⟨-, ⟨⟩⟩ | ⟨_, rfl, ⟨⟩⟩
    rcases before with _ | ⟨b, before⟩
    · rw [List.nil_append, List.singleton_append, List.cons.injEq] at split
      obtain ⟨rfl, -⟩ := split
      exact absurd rfl (effect message)
    rw [List.singleton_append, List.cons_append, List.cons.injEq] at split
    obtain ⟨rfl, split⟩ := split
    rcases known with ⟨requestId, rfl⟩ | rfl
    · exact ⟨requestId, List.mem_cons_self ..⟩
    · obtain ⟨requestId, mem⟩ := ih awaiting rest split
      exact ⟨requestId, List.mem_cons_of_mem _ mem⟩

/-- Every connection is gated by its handshake, whatever lines it receives. -/
theorem handshake_gated (coreVersion : String) (lines : List String) :
    HandshakeGated coreVersion lines where
  once := by
    intro i j hi hj
    have h₁ := hi.not_lt hj
    have h₂ := hj.not_lt hi
    omega
  command := by
    intro i requestId command dispatched
    obtain ⟨line, hline, eq⟩ := Option.map_eq_some_iff.1 dispatched
    refine exists_accepted ?_
    rcases receiveLine_cases (sessionAfter coreVersion (lines.take i)) line with
      ⟨established, -⟩ | ⟨-, _, -, received⟩ | ⟨-, -, _, _, received⟩
    · exact established
    · rw [received] at eq
      cases eq
    · rw [received] at eq
      cases eq
  silent := by
    intro acts r path before a after split effect
    refine silent_path rfl path split fun m write => ?_
    rcases effect with ⟨region, eq⟩ | ⟨url, eq⟩
    · rw [write] at eq
      cases eq
    · rw [write] at eq
      cases eq
  retry := by
    intro i line requestId hline asks unaccepted
    rw [dispatchAt_eq hline]
    rcases state : (sessionAfter coreVersion (lines.take i)).state
    · rw [receiveLine_exactly state asks, coreVersion_sessionAfter]
    · obtain ⟨j, lt, requestId, accepted⟩ := exists_accepted state
      exact absurd ⟨_, _, _, accepted⟩ (unaccepted j lt)
  stays := fun i j lt accepted => accepted.established lt
  alone := by
    intro i j line lt accepted hline
    rw [dispatchAt_eq hline, receiveLine_established (accepted.established lt)]
  refused := by
    intro i j line requestId message lt accepted hline decoded
    rw [dispatchAt_eq hline, receiveLine_established (accepted.established lt)]
    unfold establishedDispatch
    rw [decoded]
    exact ⟨_, rfl⟩

end KeyroCore
