import Recall.Instant.Basic
import Recall.Json.Value

/-!
# Messages

A message is the unit that every memory keeps, moves and forgets. Its token count
is an estimate that is fixed when the message is made: one token for four bytes
of content. Callers may replace any part afterwards, so a memory takes the count
that it finds.
-/

namespace Recall

/-- Who a message is from. -/
inductive Role where
  | user
  | assistant
  | system
  deriving DecidableEq, Repr

namespace Role

def text : Role → String
  | user => "user"
  | assistant => "assistant"
  | system => "system"

def all : List Role := [user, assistant, system]

def ofText? (name : String) : Option Role := all.find? (·.text == name)

theorem ofText?_text (role : Role) : ofText? role.text = some role := by
  cases role <;> decide

end Role

/-- The estimated number of tokens of a text. -/
def estimateTokens (text : String) : Nat := text.utf8ByteSize / 4

/-- A message of a conversation. The metadata are listed in the order of their
keys. -/
structure Message where
  id : String
  role : Role
  content : String
  timestamp : Instant
  metadata : List (String × Json)
  importance : Option Single
  tokenCount : Nat

namespace Message

def make (id : String) (now : Instant) (role : Role) (content : String) : Message :=
  ⟨id, role, content, now, [], none, estimateTokens content⟩

/-- Sets the importance, moved into the interval from 0 to 1. -/
def withImportance (m : Message) (x : Single) : Message :=
  { m with importance := some (x.clamp 0 1) }

/-- Attaches a metadata entry, in place of one with the same key. -/
def withMetadata (m : Message) (key : String) (value : Json) : Message :=
  { m with metadata := Keyed.insert key value m.metadata }

/-- The messages are equal. Numbers are compared as numbers, so a message whose
importance is not a number differs from itself. -/
def same (m n : Message) : Bool :=
  m.id == n.id && m.role == n.role && m.content == n.content && m.timestamp == n.timestamp &&
    Json.sameMembers m.metadata n.metadata &&
    (match m.importance, n.importance with
      | none, none => true
      | some x, some y => x.numEq y
      | _, _ => false) &&
    m.tokenCount == n.tokenCount

end Message

/-- The tokens of some messages, added up as numbers: the sum is exact, whether it fits
a word or not. -/
def totalTokens : List Message → Nat
  | [] => 0
  | m :: messages => m.tokenCount + totalTokens messages

theorem totalTokens_append (messages others : List Message) :
    totalTokens (messages ++ others) = totalTokens messages + totalTokens others := by
  induction messages with
  | nil => simp [totalTokens]
  | cons m messages ih => simp [totalTokens, ih, Nat.add_assoc]

def ids (messages : List Message) : List String := messages.map (·.id)

end Recall
