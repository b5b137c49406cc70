import Recall.Collaborator
import Recall.Keyed
import Recall.Occupancy

/-!
# Retrieving memory

A retrieving memory embeds every message once, when it comes. A query is embedded
and compared with all of them; the context is the most similar messages, the best
first. Messages that are equally similar keep the order in which they came.

A message whose embedding fails is not kept. Embeddings are found by the id of the
message, so of two messages with one id the later embedding counts for both.
-/

namespace Recall.Memory

structure Retrieval where
  topK : Nat
  embedder : Embedder
  messages : List Message
  embeddings : List (String × Embedding)

namespace Retrieval

/-- Opens an empty memory; a limit of zero stands for the default. -/
def opened (limits : Config.Retrieval) (embedder : Embedder) (j : Journal) :
    Retrieval × Journal :=
  let topK := limits.normalized.topK
  (⟨topK, embedder, [], []⟩, j.report (.retrievalOpened topK embedder.name embedder.dimension))

def add (m : Message) (r : Retrieval) (j : Journal) :
    (Except MemoryError Unit × Retrieval) × Journal :=
  let answer := r.embedder.ask m.content j
  match answer.1 with
  | .error e => ((.error (.embedding ("failed to generate embedding: " ++ e.text)), r), answer.2)
  | .ok embedding =>
    let messages := r.messages ++ [m]
    -- Messages with the same id share the embedding of the last.
    let embeddings := Keyed.insert m.id embedding r.embeddings
    ((.ok (), { r with messages, embeddings }), answer.2.report (.indexed m.id))

/-- How similar a stored message is to a query; zero if it has no embedding. -/
def similarity (r : Retrieval) (query : Embedding) (m : Message) : Single :=
  match Keyed.find? m.id r.embeddings with
  | some embedding => Embedding.cosine query embedding
  | none => 0

/-- The stored messages, the most similar first. -/
def ranking (r : Retrieval) (query : Embedding) : List (Message × Single) :=
  (r.messages.map fun m => (m, r.similarity query m)).mergeSort fun a b => b.2.totalLE a.2

/-- The number of messages in an answer. -/
def answerSize (r : Retrieval) : Nat := min r.topK r.messages.length

/-- The messages that the model sees for a query. An empty memory asks nobody. -/
def context (query : String) (r : Retrieval) (j : Journal) :
    Except MemoryError (List Message) × Journal :=
  if r.messages.isEmpty then (.ok [], j)
  else
    let answer := r.embedder.ask query j
    match answer.1 with
    | .error e =>
      (.error (.embedding ("failed to generate query embedding: " ++ e.text)), answer.2)
    | .ok embedding =>
      (.ok (((r.ranking embedding).take r.answerSize).map Prod.fst),
        answer.2.report (.retrieved r.answerSize r.messages.length query.utf8ByteSize))

/-- Changes the number of messages in an answer; zero changes nothing. -/
def setTopK (k : Nat) (r : Retrieval) : Retrieval := if k = 0 then r else { r with topK := k }

def clear (r : Retrieval) (j : Journal) : Retrieval × Journal :=
  ({ r with messages := [], embeddings := [] }, j.report (.cleared .retrieval))

/-- The occupancy of the memory. The oldest messages stand for those of an answer. -/
def occupancy (r : Retrieval) : Occupancy :=
  let total := totalTokens r.messages
  let active := totalTokens (r.messages.take r.answerSize)
  ⟨r.messages.length, total, r.answerSize, active, Occupancy.rate active total⟩

end Retrieval

end Recall.Memory
