import Recall.Config.Basic

/-!
# Events

What the library reports while it works. An event names what happened; its level
and its wording are fixed here, in one place.
-/

namespace Recall

/-- How much an event matters. -/
inductive Level where
  | debug
  | info
  | warn
  deriving DecidableEq, Repr

def Level.text : Level → String
  | debug => "DEBUG"
  | info => "INFO"
  | warn => "WARN"

/-- The limit that made a buffer drop messages. -/
inductive Pressure where
  | messageLimit
  | tokenLimit
  deriving DecidableEq, Repr

def Pressure.text : Pressure → String
  | messageLimit => "message limit"
  | tokenLimit => "token limit"

/-- Something that happened. -/
inductive Event where
  | configParsed (strategy : Strategy)
  | defaultSummarizer
  | defaultEmbedder
  | defaultScorer
  | created (strategy : Strategy)
  | cleared (strategy : Strategy)
  | sequentialOpened
  | appended (id : String)
  | windowOpened (size : Nat)
  | windowResized (size dropped : Nat)
  | windowEvicted (count : Nat)
  | bufferOpened (limits : Config.Buffer)
  | bufferLoaded (count : Nat)
  | bufferTrimmed (count : Nat) (pressure : Pressure)
  | bufferSummarized (count : Nat) (pressure : Pressure)
  | bufferSummaryFailed (count : Nat) (pressure : Pressure) (error : MemoryError)
  | summarizationOpened (limits : Config.Summarization)
  | summarized (count stored : Nat)
  | retrievalOpened (topK : Nat) (embedder : String) (dimension : Nat)
  | indexed (id : String)
  | retrieved (count stored queryBytes : Nat)
  | hierarchyOpened (limits : Config.Hierarchical) (scorer : String)
  | promoted (id : String)
  | promotedDropped (id : String)
  | recentArchived (id : String)
  | importantArchived (id : String)
  deriving DecidableEq

namespace Event

/-- The level of an event: memories that open or clear inform, a summary that failed
warns. -/
def level : Event → Level
  | created _ | cleared _ | sequentialOpened | windowOpened _ | bufferOpened _
  | summarizationOpened _ | retrievalOpened _ _ _ | hierarchyOpened _ _ => .info
  | bufferSummaryFailed _ _ _ => .warn
  | _ => .debug

/-- What a cleared memory is called. -/
def clearedName : Strategy → String
  | .slidingWindow => "sliding window"
  | strategy => strategy.text

/-- A number as it stands in a wording. -/
def numeral (n : Nat) : String := String.ofList (Decimal.naturalText n)

def words : Event → List String
  | configParsed strategy => ["Parsed ", strategy.text, " memory configuration"]
  | defaultSummarizer => ["No summarizer registered, using ConcatSummarizer"]
  | defaultEmbedder => ["No embedder registered, using HashEmbedder"]
  | defaultScorer => ["No importance scorer registered, using HeuristicImportanceScorer"]
  | created strategy => ["Created ", strategy.text, " memory"]
  | cleared strategy => ["Cleared ", clearedName strategy, " memory"]
  | sequentialOpened => ["Creating SequentialMemory"]
  | appended id => ["Appending message ", id, " to sequential memory"]
  | windowOpened size => ["Creating SlidingWindowMemory (window_size=", numeral size, ")"]
  | windowResized size dropped =>
    ["Resized sliding window to ", numeral size, " (dropped ", numeral dropped, ")"]
  | windowEvicted count => ["Sliding window evicted ", numeral count, " message(s)"]
  | bufferOpened limits =>
    ["Creating BufferMemory (max_messages=", numeral limits.maxMessages,
      ", max_tokens=", numeral limits.maxTokens,
      ", auto_summarize=", String.ofList (Json.boolText limits.autoSummarize), ")"]
  | bufferLoaded count => ["Loaded ", numeral count, " messages into buffer"]
  | bufferTrimmed count pressure =>
    ["Trimmed ", numeral count, " message(s) from buffer (", pressure.text, ")"]
  | bufferSummarized count pressure =>
    ["Summarized ", numeral count, " message(s) in buffer (", pressure.text, ")"]
  | bufferSummaryFailed count pressure error =>
    ["Buffer summarizer failed, trimming ", numeral count, " message(s) without summary (",
      pressure.text, "): ", error.text]
  | summarizationOpened limits =>
    ["Creating SummarizationMemory (recent_window_size=", numeral limits.recentWindowSize,
      ", summarize_after=", numeral limits.summarizeAfter, ")"]
  | summarized count stored =>
    ["Summarized ", numeral count, " message(s); ", numeral stored, " summaries stored"]
  | retrievalOpened topK embedder dimension =>
    ["Creating RetrievalMemory (top_k=", numeral topK, ", embedder=", embedder,
      ", dimension=", numeral dimension, ")"]
  | indexed id => ["Indexed message ", id, " for retrieval"]
  | retrieved count stored queryBytes =>
    ["Retrieved ", numeral count, " of ", numeral stored, " messages for query (",
      numeral queryBytes, " chars)"]
  | hierarchyOpened limits scorer =>
    ["Creating HierarchicalMemory (recent_limit=", numeral limits.recentLimit,
      ", important_limit=", numeral limits.importantLimit, ", scorer=", scorer, ")"]
  | promoted id => ["Promoted message ", id, " to important layer"]
  | promotedDropped id => ["Dropped promoted message ", id, " from recent layer"]
  | recentArchived id => ["Archived message ", id, " from recent layer"]
  | importantArchived id => ["Archived message ", id, " from important layer"]

def text (e : Event) : String := String.join e.words

/-- The event with the message ids in it changed. -/
def mapId (f : String → String) : Event → Event
  | appended id => appended (f id)
  | indexed id => indexed (f id)
  | promoted id => promoted (f id)
  | promotedDropped id => promotedDropped (f id)
  | recentArchived id => recentArchived (f id)
  | importantArchived id => importantArchived (f id)
  | event => event

/-- The line that reports an event. -/
def line (e : Event) : String := e.level.text ++ " " ++ e.text

end Event

end Recall
