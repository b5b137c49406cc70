import Recall.Collaborator
import Recall.Occupancy

/-!
# Summarizing memory

A summarizing memory keeps recent messages as they are and older ones as summaries.
When more recent messages have gathered than its limits allow, all but the newest
are summarized in one batch. Summaries are kept in order and never summarized
again.

A summarizer that fails fails the message, but nothing is lost: the message stays,
and the next one tries again with a larger batch.
-/

namespace Recall.Memory

/-- A memory that replaces older messages by summaries. -/
structure Summarization where
  limits : Config.Summarization
  summarizer : Summarizer
  summaries : List String
  recent : List Message

namespace Summarization

/-- Opens an empty memory; limits of zero stand for the defaults. -/
def opened (limits : Config.Summarization) (summarizer : Summarizer) (j : Journal) :
    Summarization × Journal :=
  (⟨limits.normalized, summarizer, [], []⟩, j.report (.summarizationOpened limits.normalized))

/-- The error that a failed summarizer becomes: its own summarization errors stay as
they are, all others are wrapped. -/
def failure : MemoryError → MemoryError
  | .summarization message => .summarization message
  | e => .summarization e.text

/-- The number of recent messages that a compaction summarizes. -/
def surplus (s : Summarization) : Nat := s.recent.length - s.limits.recentWindowSize

/-- Summarizes all but the newest recent messages. -/
def compact (s : Summarization) (j : Journal) :
    (Except MemoryError Unit × Summarization) × Journal :=
  if s.surplus = 0 then ((.ok (), s), j)
  else
    let answer := s.summarizer.ask (s.recent.take s.surplus) j
    match answer.1 with
    | .ok summary =>
      let summaries := s.summaries ++ [summary]
      ((.ok (), { s with summaries, recent := s.recent.drop s.surplus }),
        answer.2.report (.summarized s.surplus summaries.length))
    -- The messages stay, and the next call is given them again.
    | .error e => ((.error (failure e), s), answer.2)

def add (m : Message) (s : Summarization) (j : Journal) :
    (Except MemoryError Unit × Summarization) × Journal :=
  let grown := { s with recent := s.recent ++ [m] }
  if s.limits.summarizeAfter < grown.recent.length then grown.compact j
  else ((.ok (), grown), j)

def clear (s : Summarization) (j : Journal) : Summarization × Journal :=
  ({ s with summaries := [], recent := [] }, j.report (.cleared .summarization))

/-- The message that shows the summary at a place. -/
def summaryMessage (timestamp : Instant) (place : Nat) (summary : String) : Message where
  id := s!"summary_{place}"
  role := .system
  content := "[Summary of earlier conversation]: " ++ summary
  timestamp
  metadata := []
  importance := none
  tokenCount := estimateTokens summary

/-- The instant of the summaries: that of the oldest recent message, or else now. -/
def summaryTime (supply : Supply) (s : Summarization) (j : Journal) : Instant × Journal :=
  match s.recent with
  | [] => j.now supply
  | m :: _ => (m.timestamp, j)

/-- The messages that the model sees: the summaries, then the recent messages. -/
def context (supply : Supply) (s : Summarization) (j : Journal) : List Message × Journal :=
  let time := s.summaryTime supply j
  (s.summaries.mapIdx (summaryMessage time.1) ++ s.recent, time.2)

/-- The estimated number of tokens of some summaries. -/
def summaryTokens : List String → Nat
  | [] => 0
  | summary :: summaries => estimateTokens summary + summaryTokens summaries

/-- The tokens that a summarized message is taken to have had. -/
def assumedTokens : Nat := 100

/-- The occupancy of the memory. The compression rate is an estimate: every summary
stands for as many messages as make a compaction necessary. -/
def occupancy (s : Summarization) : Occupancy :=
  let recentTokens := totalTokens s.recent
  let tokens := recentTokens + summaryTokens s.summaries
  let original := s.summaries.length * s.limits.summarizeAfter * assumedTokens + recentTokens
  ⟨s.summaries.length + s.recent.length, tokens, s.recent.length, tokens,
    Occupancy.rate tokens original⟩

end Summarization

end Recall.Memory
