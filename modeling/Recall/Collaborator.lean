import Recall.Digest
import Recall.Embedding
import Recall.Event
import Recall.Importance

/-!
# Collaborators

A memory may ask others: a summarizer for a summary, an embedder for an embedding, a
scorer for an importance, a clock for the time, and a supply for fresh ids. What
they answer is not the business of the library, so each is a function of the number
of times it has been asked before and of the question. It may fail at any question
and may answer the same question differently later on.

The journal records all that a memory asks and reports. The number of a question is
the number of those recorded before it, so the same journal and the same question
always have the same answer.
-/

namespace Recall

/-- Condenses messages into a text. -/
structure Summarizer where
  summarize : Nat → List Message → Except MemoryError String

/-- Places texts in a vector space. -/
structure Embedder where
  name : String
  dimension : Nat
  embed : Nat → String → Except MemoryError Embedding

/-- Judges the importance of a message at an instant. -/
structure Scorer where
  name : String
  score : Nat → Instant → Message → Single

/-- The clock and the fresh ids. -/
structure Supply where
  clock : Nat → Instant
  freshId : Nat → String

/-! ## Built-in collaborators -/

/-- The summarizer that makes digests. -/
def Summarizer.digest : Summarizer := ⟨fun _ messages => .ok (Digest.ofMessages messages)⟩

/-- The embedder that counts characters. -/
def Embedder.hashed (dimension : Nat) : Embedder where
  name := "mnemo_memory::embedding::HashEmbedder"
  dimension := Embedding.orDefaultDimension dimension
  embed _ text := .ok (Embedding.hashed dimension text)

/-- The scorer that guesses from role, size and age. -/
def Scorer.heuristic (window : Int) : Scorer where
  name := "mnemo_memory::importance::HeuristicImportanceScorer"
  score _ now m := Importance.score window now m

/-! ## The journal -/

/-- What was asked and reported so far, in order. -/
structure Journal where
  readings : Nat
  issued : Nat
  batches : List (List Message)
  texts : List String
  scored : List Message
  events : List Event

namespace Journal

def empty : Journal := ⟨0, 0, [], [], [], []⟩

def report (j : Journal) (e : Event) : Journal := { j with events := j.events ++ [e] }

def now (supply : Supply) (j : Journal) : Instant × Journal :=
  (supply.clock j.readings, { j with readings := j.readings + 1 })

/-- Makes a message with a fresh id at the present time. -/
def compose (supply : Supply) (role : Role) (content : String) (j : Journal) :
    Message × Journal :=
  (.make (supply.freshId j.issued) (supply.clock j.readings) role content,
    { j with readings := j.readings + 1, issued := j.issued + 1 })

end Journal

def Summarizer.ask (s : Summarizer) (batch : List Message) (j : Journal) :
    Except MemoryError String × Journal :=
  (s.summarize j.batches.length batch, { j with batches := j.batches ++ [batch] })

def Embedder.ask (e : Embedder) (text : String) (j : Journal) :
    Except MemoryError Embedding × Journal :=
  (e.embed j.texts.length text, { j with texts := j.texts ++ [text] })

def Scorer.ask (s : Scorer) (supply : Supply) (m : Message) (j : Journal) : Single × Journal :=
  (s.score j.scored.length (supply.clock j.readings) m,
    { j with readings := j.readings + 1, scored := j.scored ++ [m] })

end Recall
