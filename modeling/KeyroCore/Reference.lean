import KeyroCore.Protocol.Decode
import KeyroCore.System
import Mathlib.Algebra.Group.Nat.Defs

/-!
# Executable crates

Instances of the crates Core depends on, which compute what the crates answer on the inputs of the
concrete runs in this development.
-/

namespace KeyroCore.Reference

/-! ## UUIDs -/

def hexDigit (d : Fin 16) : Char :=
  if d.val < 10 then Char.ofNat (48 + d.val) else Char.ofNat (87 + d.val)

def hexValue (c : Char) : Option (Fin 16) :=
  if '0' ≤ c ∧ c ≤ '9' then some (Fin.ofNat 16 (c.toNat - 48))
  else if 'a' ≤ c ∧ c ≤ 'f' then some (Fin.ofNat 16 (c.toNat - 87))
  else if 'A' ≤ c ∧ c ≤ 'F' then some (Fin.ofNat 16 (c.toNat - 55))
  else none

theorem hexValue_hexDigit (d : Fin 16) : hexValue (hexDigit d) = some d := by
  revert d
  decide

theorem mapM_hexValue (digits : List (Fin 16)) :
    (digits.map hexDigit).mapM hexValue = some digits := by
  induction digits with
  | nil => rfl
  | cons d digits ih =>
    rw [List.map_cons, List.mapM_cons, hexValue_hexDigit, ih]
    rfl

theorem hexDigit_ne_hyphen (d : Fin 16) : hexDigit d ≠ '-' := by
  revert d
  decide

def ofDigits (cs : List Char) : Option Uuid :=
  match cs.mapM hexValue with
  | some digits => if h : digits.length = 32 then some ⟨digits, h⟩ else none
  | none => none

/-- The digits of a text of the shape `8-4-4-4-12`. -/
def unhyphenate (cs : List Char) : Option (List Char) :=
  if (cs.splitOn '-').map List.length = [8, 4, 4, 4, 12] then some (cs.splitOn '-').flatten else none

def groups {α : Type} (l : List α) : List (List α) :=
  [l.take 8, (l.drop 8).take 4, (l.drop 12).take 4, (l.drop 16).take 4, l.drop 20]

def displayUuid (u : Uuid) : String :=
  String.ofList (List.intercalate ['-'] (groups (u.digits.map hexDigit)))

/-- The hyphenated, simple, braced and URN forms. -/
def parseUuid (text : String) : Option Uuid :=
  let cs := text.toList
  let hyphenated := fun cs => (unhyphenate cs).bind ofDigits
  if (unhyphenate cs).isSome then hyphenated cs
  else if cs.length = 32 then ofDigits cs
  else if cs.head? = some '{' ∧ cs.getLast? = some '}' then hyphenated cs.tail.dropLast
  else if cs.take 9 = "urn:uuid:".toList then hyphenated (cs.drop 9)
  else none

theorem flatten_groups {α : Type} (l : List α) : (groups l).flatten = l := by
  have step (i n : ℕ) : (l.drop i).take n ++ l.drop (i + n) = l.drop i := by
    rw [← List.drop_drop, List.take_append_drop]
  simp only [groups, List.flatten_cons, List.flatten_nil, List.append_nil]
  rw [step 16 4, step 12 4, step 8 4, List.take_append_drop]

theorem length_groups {α : Type} {l : List α} (h : l.length = 32) :
    (groups l).map List.length = [8, 4, 4, 4, 12] := by
  simp [groups, h]

theorem splitOn_displayUuid (u : Uuid) :
    (displayUuid u).toList.splitOn '-' = groups (u.digits.map hexDigit) := by
  rw [displayUuid, String.toList_ofList, List.splitOn_intercalate]
  · intro group hg hm
    have : '-' ∈ u.digits.map hexDigit := by
      rw [← flatten_groups (u.digits.map hexDigit)]
      exact List.mem_flatten.2 ⟨group, hg, hm⟩
    obtain ⟨d, -, hd⟩ := List.mem_map.1 this
    exact hexDigit_ne_hyphen d hd
  · simp [groups]

theorem length_splitOn_displayUuid (u : Uuid) :
    ((displayUuid u).toList.splitOn '-').map List.length = [8, 4, 4, 4, 12] := by
  rw [splitOn_displayUuid]
  exact length_groups (by rw [List.length_map, u.length_eq])

theorem parseUuid_displayUuid (u : Uuid) : parseUuid (displayUuid u) = some u := by
  have digits : unhyphenate (displayUuid u).toList = some (u.digits.map hexDigit) := by
    rw [unhyphenate, if_pos (length_splitOn_displayUuid u), splitOn_displayUuid, flatten_groups]
  unfold parseUuid
  simp only [digits, Option.isSome_some, if_true, Option.bind_some]
  rw [ofDigits, mapM_hexValue]
  simp [u.length_eq]

instance : UuidCrate where
  parseStr := parseUuid
  display := displayUuid

theorem parseInverts : UuidCrate.ParseInverts := parseUuid_displayUuid

/-- The UUID whose digits spell `n` in hexadecimal. -/
def uuid (n : ℕ) : Uuid where
  digits := (List.range 32).reverse.map fun i => Fin.ofNat 16 (n / 16 ^ i)
  length_eq := by simp

/-! ## URLs -/

structure Url where
  scheme : String
  username : String
  password : Option String
  /-- Host, port and path. -/
  location : String
  query : Option String
  fragment : Option String
  deriving DecidableEq

/-- Split at the first occurrence of a character, which is dropped. -/
def splitFirst (c : Char) (cs : List Char) : List Char × Option (List Char) :=
  match cs.dropWhile (· ≠ c) with
  | [] => (cs, none)
  | _ :: rest => (cs.takeWhile (· ≠ c), some rest)

def isC0OrSpace (c : Char) : Bool := c.toNat ≤ 0x20

/-- A URL with a special scheme: surrounding controls and spaces are trimmed, tabs and newlines are
dropped, the scheme is lower-cased and any number of slashes may follow it. -/
def parseUrl (text : String) : Option Url :=
  let trimmed := ((text.toList.dropWhile isC0OrSpace).reverse.dropWhile isC0OrSpace).reverse
  let cs := trimmed.filter fun c => c ≠ '\t' ∧ c ≠ '\n' ∧ c ≠ '\r'
  match splitFirst ':' cs with
  | (_, none) => none
  | (scheme, some rest) =>
    let (rest, fragment) := splitFirst '#' (rest.dropWhile fun c => c = '/' ∨ c = '\\')
    let (rest, query) := splitFirst '?' rest
    let (authority, path) := splitFirst '/' rest
    let (userinfo, host) := match splitFirst '@' authority with
      | (host, none) => ([], host)
      | (userinfo, some host) => (userinfo, host)
    let (username, password) := splitFirst ':' userinfo
    if host = [] then none
    else some
      { scheme := String.ofList (scheme.map Char.toLower)
        username := String.ofList username
        password := password.map String.ofList
        location := String.ofList (host.map Char.toLower ++ '/' :: path.getD [])
        query := query.map String.ofList
        fragment := fragment.map String.ofList }

def Url.toString (url : Url) : String :=
  url.scheme ++ "://" ++ url.location ++ (url.query.map ("?" ++ ·)).getD "" ++
    (url.fragment.map ("#" ++ ·)).getD ""

instance : UrlCrate where
  Url := Url
  parse := parseUrl
  scheme := Url.scheme
  username := Url.username
  password := Url.password
  setQuery url query := { url with query }
  setFragment url fragment := { url with fragment }
  toString := Url.toString

instance : RusqliteCrate where
  errorText
    | .sqliteFailure text => text
    | .constraintViolation => "constraint failed"
    | .invalidColumnType _ => "Invalid column type"
    | .fromSqlConversionFailure _ error => "Conversion error: " ++ error.display
    | .toSqlConversionFailure error => error.display
    | .invalidQuery => "Query is not read-only"

/-! ## JSON texts

Texts without spaces whose strings need no escapes and whose numbers are natural.
-/

def quoted (s : String) : List Char := '"' :: s.toList ++ ['"']

mutual
def renderJson : Json → List Char
  | .null => "null".toList
  | .bool b => (if b then "true" else "false").toList
  | .number (.integer n) => (toString n).toList
  | .number (.float value) => (toString value).toList
  | .string s => quoted s
  | .array items => '[' :: ((renderItems items).intersperse [',']).flatten ++ [']']
  | .object members => '{' :: ((renderMembers members).intersperse [',']).flatten ++ ['}']

def renderItems : List Json → List (List Char)
  | [] => []
  | item :: items => renderJson item :: renderItems items

def renderMembers : List (String × Json) → List (List Char)
  | [] => []
  | (name, value) :: members => (quoted name ++ ':' :: renderJson value) :: renderMembers members
end

def digitValue (c : Char) : Option ℕ :=
  if '0' ≤ c ∧ c ≤ '9' then some (c.toNat - 48) else none

/-- The number that the leading digits spell, from the digits read so far. -/
def readNat : ℕ → List Char → ℕ × List Char
  | n, c :: cs =>
    match digitValue c with
    | some d => readNat (10 * n + d) cs
    | none => (n, c :: cs)
  | n, [] => (n, [])

def readString (cs : List Char) : Option (String × List Char) :=
  match splitFirst '"' cs with
  | (body, some rest) => if '\\' ∈ body then none else some (String.ofList body, rest)
  | (_, none) => none

mutual

def readValue : ℕ → List Char → Option (Json × List Char)
  | 0, _ => none
  | fuel + 1, cs =>
    match cs with
    | '"' :: cs => do
      let (s, cs) ← readString cs
      return (.string s, cs)
    | '[' :: ']' :: cs => some (.array [], cs)
    | '[' :: cs => do
      let (items, cs) ← readItems fuel cs
      return (.array items, cs)
    | '{' :: '}' :: cs => some (.object [], cs)
    | '{' :: cs => do
      let (members, cs) ← readMembers fuel cs
      return (.object members, cs)
    | 'n' :: 'u' :: 'l' :: 'l' :: cs => some (.null, cs)
    | 't' :: 'r' :: 'u' :: 'e' :: cs => some (.bool true, cs)
    | 'f' :: 'a' :: 'l' :: 's' :: 'e' :: cs => some (.bool false, cs)
    | c :: cs => do
      let d ← digitValue c
      let (n, cs) := readNat d cs
      return (.number (.integer n), cs)
    | [] => none

def readItems : ℕ → List Char → Option (List Json × List Char)
  | 0, _ => none
  | fuel + 1, cs => do
    match ← readValue fuel cs with
    | (item, ',' :: cs) => do
      let (items, cs) ← readItems fuel cs
      return (item :: items, cs)
    | (item, ']' :: cs) => some ([item], cs)
    | _ => none

def readMembers : ℕ → List Char → Option (List (String × Json) × List Char)
  | 0, _ => none
  | fuel + 1, cs => do
    match cs with
    | '"' :: cs => do
      match ← readString cs with
      | (name, ':' :: cs) => do
        match ← readValue fuel cs with
        | (value, ',' :: cs) => do
          let (members, cs) ← readMembers fuel cs
          return ((name, value) :: members, cs)
        | (value, '}' :: cs) => some ([(name, value)], cs)
        | _ => none
      | _ => none
    | _ => none
end

def parseJson (text : String) : Option Json :=
  match readValue text.length text.toList with
  | some (json, []) => some json
  | _ => none

instance : SerdeJson where
  parse := parseJson
  errorText _ := "expected value at line 1 column 1"

/-- A rendered text is parsed as what the parser reads off its characters. -/
theorem parse_rendered {json : Json}
    (read : readValue (renderJson json).length (renderJson json) = some (json, [])) :
    SerdeJson.parse (String.ofList (renderJson json)) = some json := by
  show parseJson _ = _
  unfold parseJson
  rw [String.toList_ofList, String.length_ofList, read]

theorem decode_rendered {json : Json} {envelope : ClientEnvelope}
    (read : readValue (renderJson json).length (renderJson json) = some (json, []))
    (deserialized : ClientEnvelope.deserialize json = some envelope)
    (named : isBlank envelope.requestId = false) :
    decodeClientEnvelope (String.ofList (renderJson json)) = .ok envelope :=
  decodeClientEnvelope_ok_iff.2 ⟨named, json, parse_rendered read, deserialized⟩

/-- A line of a client. -/
def clientLine (requestId type : String) (members : List (String × Json)) : String :=
  String.ofList (renderJson (.object [("request_id", .string requestId),
    ("message", .object (("type", .string type) :: members))]))

/-! ## Environments -/

/-- An environment in which nothing fails and that draws the UUID `n`. -/
def calm (n : ℕ) : CoreInput where
  sql := fun _ => { failure := none, uuid := uuid n, now := "2024-01-01 00:00:00" }
  uuid := uuid n
  opened := fun _ => .ok ()
  written := .ok ()

/-! ## Values -/

def firstKey : ControlId := .key ⟨0, by decide⟩ ⟨0, by decide⟩

/-- The lines of a client that completes the handshake and presses the first key. -/
def handshakeLine : String := clientLine "1" "handshake" [("component", .string "studio"),
  ("component_version", .string "0.1.0"),
  ("protocol", .object [("major", .number (.integer 0)), ("minor", .number (.integer 3))])]

def firstKeyJson : Json := .object [("kind", .string "key"), ("page", .number (.integer 0)),
  ("key", .number (.integer 0))]

def firstKeyLine : String := clientLine "2" "virtual_control_input" [("control", firstKeyJson)]

def exampleUrl : SafeUrl := ⟨"https://example.com", by decide⟩

/-- The lines of a client that saves an action under the first key and asks for the snapshot. -/
def saveLine : String := clientLine "2" "save_assignment" [("assignment", .object [
  ("profile_id", .string (displayUuid (uuid 0))), ("control", firstKeyJson),
  ("action", .object [("kind", .string "open_url"), ("url", .string exampleUrl.value)])])]

def snapshotLine : String := clientLine "3" "get_snapshot" []

theorem decoded_handshakeLine : decodeClientEnvelope handshakeLine =
    .ok ⟨"1", .handshake ⟨.studio, "0.1.0", ⟨0, 3⟩⟩⟩ :=
  decode_rendered (by decide +kernel) (by decide +kernel) (by decide)

theorem decoded_firstKeyLine : decodeClientEnvelope firstKeyLine =
    .ok ⟨"2", .virtualControlInput (.key 0 0)⟩ :=
  decode_rendered (by decide +kernel) (by decide +kernel) (by decide)

theorem decoded_saveLine : decodeClientEnvelope saveLine = .ok ⟨"2", .saveAssignment
    ⟨displayUuid (uuid 0), .key 0 0, .openUrl exampleUrl.value⟩⟩ :=
  decode_rendered (by decide +kernel) (by decide +kernel) (by decide)

theorem decoded_snapshotLine : decodeClientEnvelope snapshotLine = .ok ⟨"3", .getSnapshot⟩ :=
  decode_rendered (by decide +kernel) (by decide +kernel) (by decide)

/-- The lines above. -/
inductive ScriptLine where
  | handshake
  | firstKey
  | save
  | snapshot
  deriving DecidableEq

namespace ScriptLine

def text : ScriptLine → String
  | handshake => handshakeLine
  | firstKey => firstKeyLine
  | save => saveLine
  | snapshot => snapshotLine

def envelope : ScriptLine → ClientEnvelope
  | handshake => ⟨"1", .handshake ⟨.studio, "0.1.0", ⟨0, 3⟩⟩⟩
  | firstKey => ⟨"2", .virtualControlInput (.key 0 0)⟩
  | save => ⟨"2", .saveAssignment ⟨displayUuid (uuid 0), .key 0 0, .openUrl exampleUrl.value⟩⟩
  | snapshot => ⟨"3", .getSnapshot⟩

theorem decoded (line : ScriptLine) : decodeClientEnvelope line.text = .ok line.envelope := by
  cases line with
  | handshake => exact decoded_handshakeLine
  | firstKey => exact decoded_firstKeyLine
  | save => exact decoded_saveLine
  | snapshot => exact decoded_snapshotLine

end ScriptLine

end KeyroCore.Reference
