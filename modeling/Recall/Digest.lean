import Recall.Message.Basic

/-!
# Digests

A digest is the plainest summary: the number of messages, and for each message its
role and the first characters of its content.
-/

namespace Recall.Digest

/-- The number of characters of a content that a digest shows. -/
def excerptLength : Nat := 200

/-- The start of a content, with dots where something is left out. -/
def excerpt (content : String) : List Char :=
  let cs := content.toList
  if excerptLength < cs.length then cs.take excerptLength ++ ['.', '.', '.'] else cs

/-- The part of a digest that stands for one message. -/
def part (m : Message) : List Char := m.role.text.toList ++ ':' :: ' ' :: excerpt m.content

/-- The digest of some messages; of none it is empty. -/
def ofMessages (messages : List Message) : String :=
  if messages.isEmpty then ""
  else
    String.ofList
      ("Conversation with ".toList ++ Decimal.naturalText messages.length ++
        " exchanges covering: ".toList ++ [';', ' '].intercalate (messages.map part))

end Recall.Digest
