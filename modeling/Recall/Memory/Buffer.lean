import Recall.Collaborator
import Recall.Occupancy

/-!
# Buffer memory

A buffer is bounded by a number of messages and a number of tokens. After each
message the oldest are compacted: first those beyond the message limit, then those
older than the message that crosses the token limit, counted from the newest back.
The crossing message itself stays.

Compacted messages are dropped, or replaced by a summary that stands in front as a
message of its own. The summary is an ordinary message from then on and goes into
the next batch. A summarizer that fails never fails the buffer; the batch is then
dropped without a summary.

The tokens that are counted are taken to fit a word. Nothing here asks whether they do.
-/

namespace Recall.Memory

/-- A memory that is bounded by messages and tokens. -/
structure Buffer where
  limits : Config.Buffer
  summarizer : Summarizer
  messages : List Message

namespace Buffer

/-- Opens an empty buffer. -/
def opened (limits : Config.Buffer) (summarizer : Summarizer) (j : Journal) : Buffer × Journal :=
  (⟨limits, summarizer, []⟩, j.report (.bufferOpened limits))

/-- The number of messages older than the one that lifts the total above the limit,
in a list from the newest to the oldest; zero if none does. -/
def olderThanCrossing (limit : Nat) : Nat → List Message → Nat
  | _, [] => 0
  | total, m :: older =>
    if limit < total + m.tokenCount then older.length
    else olderThanCrossing limit (total + m.tokenCount) older

/-- The crossing message is not among the older ones. -/
theorem olderThanCrossing_le (limit total : Nat) (messages : List Message) :
    olderThanCrossing limit total messages ≤ messages.length - 1 := by
  induction messages generalizing total with
  | nil => simp [olderThanCrossing]
  | cons m older ih =>
    simp only [olderThanCrossing]
    split
    · simp
    · have := ih (total + m.tokenCount)
      simp only [List.length_cons]
      omega

/-- The number of messages beyond the message limit; zero is no limit. -/
def messageSurplus (limits : Config.Buffer) (messages : List Message) : Nat :=
  if limits.maxMessages = 0 then 0 else messages.length - limits.maxMessages

/-- The number of messages beyond the token limit; zero is no limit. -/
def tokenSurplus (limits : Config.Buffer) (messages : List Message) : Nat :=
  if limits.maxTokens = 0 then 0 else olderThanCrossing limits.maxTokens 0 messages.reverse

/-- Removes the oldest `count` messages, putting a summary in their place if
summaries are wanted and the summarizer gives one. -/
def compact (supply : Supply) (count : Nat) (pressure : Pressure) (b : Buffer) (j : Journal) :
    Buffer × Journal :=
  let rest := b.messages.drop count
  if count = 0 then (b, j)
  else if !b.limits.autoSummarize then
    ({ b with messages := rest }, j.report (.bufferTrimmed count pressure))
  else
    let answer := b.summarizer.ask (b.messages.take count) j
    match answer.1 with
    | .ok summary =>
      let composed := answer.2.compose supply .system summary
      ({ b with messages := composed.1 :: rest },
        composed.2.report (.bufferSummarized count pressure))
    | .error e =>
      ({ b with messages := rest }, answer.2.report (.bufferSummaryFailed count pressure e))

def add (supply : Supply) (m : Message) (b : Buffer) (j : Journal) : Buffer × Journal :=
  let grown := { b with messages := b.messages ++ [m] }
  let bounded := grown.compact supply (messageSurplus b.limits grown.messages) .messageLimit j
  -- The token limit counts what is left, the summary included.
  bounded.1.compact supply (tokenSurplus b.limits bounded.1.messages) .tokenLimit bounded.2

/-- Replaces the contents. The limits are applied at the next message. -/
def load (messages : List Message) (b : Buffer) (j : Journal) : Buffer × Journal :=
  ({ b with messages }, j.report (.bufferLoaded messages.length))

def clear (b : Buffer) (j : Journal) : Buffer × Journal :=
  ({ b with messages := [] }, j.report (.cleared .buffer))

def context (b : Buffer) : List Message := b.messages

def occupancy (b : Buffer) : Occupancy := .uncompressed b.messages

end Buffer

end Recall.Memory
