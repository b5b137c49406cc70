import Recall.MemoryError

/-!
# Configurations

A configuration selects a strategy and its limits. A limit of zero stands for the
default, which `normalized` puts in its place; only the limits of a buffer mean
no limit at all where they are zero. A buffer that is to summarize needs a limit,
or nothing would ever be summarized.
-/

namespace Recall

/-- The ways to keep a conversation. -/
inductive Strategy where
  | sequential
  | slidingWindow
  | buffer
  | summarization
  | retrieval
  | hierarchical
  deriving DecidableEq, Repr

namespace Strategy

def text : Strategy → String
  | sequential => "sequential"
  | slidingWindow => "sliding_window"
  | buffer => "buffer"
  | summarization => "summarization"
  | retrieval => "retrieval"
  | hierarchical => "hierarchical"

def all : List Strategy :=
  [sequential, slidingWindow, buffer, summarization, retrieval, hierarchical]

def ofText? (name : String) : Option Strategy := all.find? (·.text == name)

theorem ofText?_text (strategy : Strategy) : ofText? strategy.text = some strategy := by
  cases strategy <;> decide

end Strategy

namespace Config

/-- A limit, or its default where it is zero. -/
def orDefault (limit default : Nat) : Nat := if limit = 0 then default else limit

theorem orDefault_pos {default : Nat} (h : 0 < default) (limit : Nat) :
    0 < orDefault limit default := by
  unfold orDefault
  split <;> omega

/-- The limit of a sliding window: the number of messages kept. -/
structure SlidingWindow where
  windowSize : Nat
  deriving DecidableEq, Repr

/-- The limits of a buffer, and whether messages beyond them are summarized. -/
structure Buffer where
  maxMessages : Nat
  maxTokens : Nat
  autoSummarize : Bool
  deriving DecidableEq, Repr

/-- The limits of a summarizing memory: how many recent messages stay after a
compaction, and how many make it necessary. -/
structure Summarization where
  recentWindowSize : Nat
  summarizeAfter : Nat
  deriving DecidableEq, Repr

/-- The limit of a retrieving memory: the number of messages in an answer. -/
structure Retrieval where
  topK : Nat
  deriving DecidableEq, Repr

/-- The limits of a hierarchical memory: the sizes of its layers. -/
structure Hierarchical where
  recentLimit : Nat
  importantLimit : Nat
  deriving DecidableEq, Repr

namespace SlidingWindow

def default : SlidingWindow := ⟨10⟩

def normalized (c : SlidingWindow) : SlidingWindow :=
  ⟨orDefault c.windowSize default.windowSize⟩

end SlidingWindow

namespace Buffer

/-- A buffer without limits. -/
def default : Buffer := ⟨0, 0, false⟩

/-- Summarizing needs a limit. -/
def validate (c : Buffer) : Except MemoryError Unit :=
  if c.autoSummarize && c.maxMessages == 0 && c.maxTokens == 0 then
    .error (.configuration "auto_summarize requires max_messages or max_tokens to be set")
  else .ok ()

end Buffer

namespace Summarization

def default : Summarization := ⟨10, 20⟩

def normalized (c : Summarization) : Summarization :=
  ⟨orDefault c.recentWindowSize default.recentWindowSize,
    orDefault c.summarizeAfter default.summarizeAfter⟩

end Summarization

namespace Retrieval

def default : Retrieval := ⟨5⟩

def normalized (c : Retrieval) : Retrieval := ⟨orDefault c.topK default.topK⟩

end Retrieval

namespace Hierarchical

def default : Hierarchical := ⟨10, 20⟩

def normalized (c : Hierarchical) : Hierarchical :=
  ⟨orDefault c.recentLimit default.recentLimit,
    orDefault c.importantLimit default.importantLimit⟩

end Hierarchical

end Config

/-- A configuration: a strategy with its limits. -/
inductive Config where
  | sequential
  | slidingWindow (limits : Config.SlidingWindow)
  | buffer (limits : Config.Buffer)
  | summarization (limits : Config.Summarization)
  | retrieval (limits : Config.Retrieval)
  | hierarchical (limits : Config.Hierarchical)
  deriving DecidableEq, Repr

namespace Config

/-- The configuration where none is given: a buffer of ten messages. -/
def default : Config := buffer { Buffer.default with maxMessages := 10 }

def strategy : Config → Strategy
  | sequential => .sequential
  | slidingWindow _ => .slidingWindow
  | buffer _ => .buffer
  | summarization _ => .summarization
  | retrieval _ => .retrieval
  | hierarchical _ => .hierarchical

/-- The configuration can be used. -/
def validate : Config → Except MemoryError Unit
  | buffer limits => limits.validate
  | _ => .ok ()

/-- The configuration with the defaults in place of zeros; a buffer has none. -/
def normalized : Config → Config
  | slidingWindow limits => slidingWindow limits.normalized
  | summarization limits => summarization limits.normalized
  | retrieval limits => retrieval limits.normalized
  | hierarchical limits => hierarchical limits.normalized
  | config => config

end Config

end Recall
