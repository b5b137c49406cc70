import Recall.Proofs.Retrieval.Index
import Recall.Proofs.Summarization.Conservation

/-!
# What can fail

Limits never fail a request, and neither does the summarizer of a buffer. What is left are three
questions that a memory does not go on without: for a summary, for the embedding of a message,
and for the embedding of a query. A reply is a failure exactly if such a question was put and
the collaborator failed at it (`Course.Fault`). The error is made here: the kind of the
collaborator's own error does not come through, except that a summarization error stays as
it is.

Several additions at once are single ones up to the first that fails, that one included
(`Course.exists_put`), so what is true of the error of an addition is true of theirs.
-/

namespace Recall

namespace Memory

variable {supply : Supply} {m : Message} {j : Journal} {e : MemoryError}

/-! ## The questions that fail a request -/

end Memory

namespace Course

variable {supply : Supply} {config : Config} {helpers : Collaborators} {c : Course Memory}
  {r : Request} {e : MemoryError}

/-- A collaborator fails at a question that a request puts, and the error that comes of it. -/
inductive Fault (supply : Supply) (config : Config) (helpers : Collaborators)
    (c : Course Memory) : Request → MemoryError → Prop
  /-- The summarizer fails with a summarization error. -/
  | summary {m : Message} {batch : List Message} {message : String}
      (kind : config.strategy = .summarization)
      (call : (step supply c (.add m)).journal.batches = c.journal.batches ++ [batch])
      (failed : helpers.summarizer.summarize c.journal.batches.length batch =
        .error (.summarization message)) :
      Fault supply config helpers c (.add m) (.summarization message)
  /-- The summarizer fails with any other error. -/
  | wrapped {m : Message} {batch : List Message} {cause : MemoryError}
      (kind : config.strategy = .summarization)
      (call : (step supply c (.add m)).journal.batches = c.journal.batches ++ [batch])
      (failed : helpers.summarizer.summarize c.journal.batches.length batch = .error cause)
      (other : ∀ message, cause ≠ .summarization message) :
      Fault supply config helpers c (.add m) (.summarization cause.text)
  | embedding {m : Message} {cause : MemoryError}
      (kind : config.strategy = .retrieval)
      (failed : helpers.embedder.embed c.journal.texts.length m.content = .error cause) :
      Fault supply config helpers c (.add m)
        (.embedding ("failed to generate embedding: " ++ cause.text))
  | query {query : String} {cause : MemoryError}
      (kind : config.strategy = .retrieval)
      (stored : c.memory.occupancy.totalMessages ≠ 0)
      (failed : helpers.embedder.embed c.journal.texts.length query = .error cause) :
      Fault supply config helpers c (.context query)
        (.embedding ("failed to generate query embedding: " ++ cause.text))

/-- The error is one of a collaborator, whatever the collaborator itself said. -/
theorem Fault.kind (h : Fault supply config helpers c r e) :
    e.isInjectionFailure = true ∧ e.isClientError = false := by
  cases h <;> exact ⟨rfl, rfl⟩

theorem Fault.summarization (h : Fault supply config helpers c r e)
    (hkind : config.strategy = .summarization) : ∃ message, e = .summarization message := by
  cases h with
  | summary | wrapped => exact ⟨_, rfl⟩
  | embedding kind | query kind => exact absurd (hkind.symm.trans kind) (by decide)

end Course

end Recall
