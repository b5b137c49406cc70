import Recall.Instant.Text
import Recall.Json.Record
import Recall.Message.Basic

/-!
# Messages in JSON

A message is written as an object of its parts, the importance only where it is
set; an importance that is not finite is written as `null`. Reading a message
takes the parts in any order and asks for all but the metadata and the
importance.
-/

namespace Recall

open Json (Failure RecordField Found Mismatch Reading)

namespace Role

/-- The role of a name that was read. -/
def ofName (name : String) : Except Mismatch Role :=
  match ofText? name with
  | some role => .ok role
  | none => .error (.unknownVariant name (all.map text))

/-- Reads the name of a role, which stands between quotes. -/
def readName (s : List Char) : Except Failure (Role × List Char) := do
  let (name, s) ← Json.readKey Json.keyContents (Json.skipBlanks s)
  match ofName name with
  | .ok role => return (role, s)
  | .error mismatch => .error (.unfit mismatch)

/-- The value that a role named inside an object must have. -/
def ofUnit : Found → Except Mismatch Unit
  | .null => .ok ()
  | found => .error (.invalidType found "unit")

/-- Reads a role: its name, or an object with the name as the only key and `null` as
its value. -/
def read (s : List Char) : Except Failure (Role × List Char) :=
  match Json.skipBlanks s with
  | [] => .error .ended
  | '"' :: s => readName ('"' :: s)
  | '{' :: s => do
    let (role, s) ← readName s
    let s ← Json.readColon s
    let ((), s) ← Json.readScalar ofUnit s
    let s ← Json.closeObject s
    return (role, s)
  | _ => .error .grammar

def ofJson (text : String) : Except Failure Role := Json.readAll read text

def json (role : Role) : List Char := Json.quote role.text

end Role

namespace Message

/-! ## Writing -/

def importanceText (x : Single) : List Char :=
  (Decimal.Layout.single.text? x).getD ['n', 'u', 'l', 'l']

def jsonWith (entries : List (String × Json)) (m : Message) : List Char :=
  Json.objectText <|
    [("id", Json.quote m.id),
      ("role", m.role.json),
      ("content", Json.quote m.content),
      ("timestamp", '"' :: m.timestamp.text ++ ['"']),
      ("metadata", Json.objectText (Json.memberTexts entries))] ++
    (match m.importance with
      | none => []
      | some x => [("importance", importanceText x)]) ++
    [("token_count", Decimal.naturalText m.tokenCount)]

def json (m : Message) : List Char := m.jsonWith m.metadata

/-! ## Reading -/

/-- An instant written as a string. -/
def asInstant : Found → Except Mismatch Instant
  | .string s =>
    match Instant.ofText s.toList with
    | .ok t => .ok t
    | .error fault => .error (.refused fault.text)
  | found => .error (.invalidType found "an RFC 3339 formatted date and time string")

/-- Reads metadata. The record and the metadata are around every value. -/
def readMetadata (s : List Char) : Except Failure (List (String × Json) × List Char) := do
  let (head, s) ← Json.readHead s
  match head with
  | .object =>
    let (members, s) ←
      Json.readMembers (Json.readValue (Json.depthLimit - 2)) (s.length + 1) true s
    return (Keyed.ofList members, s)
  | found => .error (.unfit (.invalidType found "a map"))

def fields : List (RecordField Message) :=
  [.scalar "id" Found.asString fun m id => { m with id },
    ⟨"role", true, fun m s => (Role.read s).map fun (role, s) => ({ m with role }, s)⟩,
    .scalar "content" Found.asString fun m content => { m with content },
    .scalar "timestamp" asInstant fun m timestamp => { m with timestamp },
    ⟨"metadata", false, fun m s =>
      (readMetadata s).map fun (metadata, s) => ({ m with metadata }, s)⟩,
    (RecordField.scalar "importance" (Found.orNull Found.asSingle)
      fun m importance => { m with importance }).optional,
    .scalar "token_count" Found.asSize fun m tokenCount => { m with tokenCount }]

/-- The message that reading starts from. -/
def blank : Message := ⟨"", .user, "", .epoch, [], none, 0⟩

def ofJson (text : String) : Except Failure Message :=
  Json.readAll (Json.readRecord "struct Message" fields blank) text

end Message

end Recall
