import Recall.Json.Record
import Recall.Message.Basic

/-!
# Occupancy

What a memory holds and how much of it the model sees, in messages and tokens.
The compression rate is the share of the tokens that is active; it is 1 when
nothing was compacted. Occupancy is computed from a memory when it is asked for
and never stored.
-/

namespace Recall

structure Occupancy where
  totalMessages : Nat
  totalTokens : Nat
  activeMessages : Nat
  activeTokens : Nat
  compressionRate : Double
  deriving DecidableEq

namespace Occupancy

/-- The occupancy of a memory without messages. -/
def empty : Occupancy := ⟨0, 0, 0, 0, 1⟩

/-- The occupancy of a memory that shows all its messages. -/
def uncompressed (messages : List Message) : Occupancy :=
  ⟨messages.length, Recall.totalTokens messages, messages.length, Recall.totalTokens messages, 1⟩

def isEmpty (o : Occupancy) : Bool := o.totalMessages == 0

/-- A sum of tokens in a word of 64 bits: one that is too large starts over at zero. -/
def wrapped (tokens : Nat) : Nat := tokens % UInt64.size

theorem wrapped_of_lt {tokens : Nat} (h : tokens < UInt64.size) : wrapped tokens = tokens :=
  Nat.mod_eq_of_lt h

/-- The ratio of active to total tokens, which is 1 where there are none. -/
def rate (active total : Nat) : Double :=
  if total = 0 then 1 else Binary.ofNat active / Binary.ofNat total

def json (o : Occupancy) : List Char :=
  Json.objectText
    [("total_messages", Decimal.naturalText o.totalMessages),
      ("total_tokens", Decimal.naturalText o.totalTokens),
      ("active_messages", Decimal.naturalText o.activeMessages),
      ("active_tokens", Decimal.naturalText o.activeTokens),
      ("compression_rate", (Json.Number.real o.compressionRate).text)]

open Json (RecordField Found)

def fields : List (RecordField Occupancy) :=
  [.scalar "total_messages" Found.asSize fun o totalMessages => { o with totalMessages },
    .scalar "total_tokens" Found.asSize fun o totalTokens => { o with totalTokens },
    .scalar "active_messages" Found.asSize fun o activeMessages => { o with activeMessages },
    .scalar "active_tokens" Found.asSize fun o activeTokens => { o with activeTokens },
    .scalar "compression_rate" Found.asDouble
      fun o compressionRate => { o with compressionRate }]

def ofJson (text : String) : Except Json.Failure Occupancy :=
  Json.readAll (Json.readRecord "struct MemoryStats" fields empty) text

end Occupancy

end Recall
