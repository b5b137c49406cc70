import Recall.Machine
import Recall.Memory.Basic

/-!
# Opening a memory

A memory is opened from a configuration and collaborators. A workshop does so with
the collaborators registered in it and the built-in ones in place of others; it
refuses a configuration that cannot be used. On a machine there has to be room for
the memory: a program that opens a window too large for it crashes.
-/

namespace Recall

/-- The collaborators of any memory; each kind of memory uses one of them or none. -/
structure Collaborators where
  summarizer : Summarizer
  embedder : Embedder
  scorer : Scorer

def Collaborators.builtIn : Collaborators where
  summarizer := .digest
  embedder := .hashed 0
  scorer := .heuristic Importance.defaultWindow

namespace Memory

/-- Opens the memory that a configuration selects. -/
def opened (config : Config) (helpers : Collaborators) (j : Journal) : Memory × Journal :=
  match config with
  | .sequential =>
    let m := Sequential.opened j
    (sequential m.1, m.2)
  | .slidingWindow limits =>
    let m := SlidingWindow.opened limits j
    (slidingWindow m.1, m.2)
  | .buffer limits =>
    let m := Buffer.opened limits helpers.summarizer j
    (buffer m.1, m.2)
  | .summarization limits =>
    let m := Summarization.opened limits helpers.summarizer j
    (summarization m.1, m.2)
  | .retrieval limits =>
    let m := Retrieval.opened limits helpers.embedder j
    (retrieval m.1, m.2)
  | .hierarchical limits =>
    let m := Hierarchical.opened limits helpers.scorer j
    (hierarchical m.1, m.2)

end Memory

/-- Reserves the room that a memory asks for when it is opened. Only a sliding window
asks for any. -/
def Machine.makeRoom (machine : Machine) : Config → Except Crash Unit
  | .slidingWindow limits => machine.reserve limits.normalized.windowSize
  | .sequential | .buffer _ | .summarization _ | .retrieval _ | .hierarchical _ => .ok ()

/-- Opens the memory that a configuration selects, on a machine. -/
def Memory.openedOn (machine : Machine) (config : Config) (helpers : Collaborators)
    (j : Journal) : Except Crash (Memory × Journal) :=
  (machine.makeRoom config).map fun () => Memory.opened config helpers j

/-- The configuration with the default limits of a strategy. -/
def Strategy.defaultConfig : Strategy → Config
  | sequential => .sequential
  | slidingWindow => .slidingWindow .default
  | buffer => .buffer .default
  | summarization => .summarization .default
  | retrieval => .retrieval .default
  | hierarchical => .hierarchical .default

/-- A workshop: the collaborators that were registered. -/
structure Workshop where
  summarizer : Option Summarizer
  embedder : Option Embedder
  scorer : Option Scorer

namespace Workshop

def empty : Workshop := ⟨none, none, none⟩

def collaborators (w : Workshop) : Collaborators where
  summarizer := w.summarizer.getD Collaborators.builtIn.summarizer
  embedder := w.embedder.getD Collaborators.builtIn.embedder
  scorer := w.scorer.getD Collaborators.builtIn.scorer

/-- The report that a built-in collaborator is used, for a strategy that has one. -/
def substitution? (w : Workshop) : Strategy → Option Event
  | .sequential | .slidingWindow => none
  | .buffer | .summarization => if w.summarizer.isNone then some .defaultSummarizer else none
  | .retrieval => if w.embedder.isNone then some .defaultEmbedder else none
  | .hierarchical => if w.scorer.isNone then some .defaultScorer else none

/-- Opens the memory that a configuration selects, if the configuration can be
used. Whether there is room for it is asked before (`createOn`). -/
def create (w : Workshop) (config : Config) (j : Journal) :
    Except MemoryError Memory × Journal :=
  match config.validate with
  | .error e => (.error e, j)
  | .ok () =>
    let j := match w.substitution? config.strategy with
      | some event => j.report event
      | none => j
    let m := Memory.opened config w.collaborators j
    (.ok m.1, m.2.report (.created config.strategy))

/-- Opens the memory that a configuration selects, on a machine. A configuration that is
refused asks for no room. -/
def createOn (w : Workshop) (machine : Machine) (config : Config) (j : Journal) :
    Except Crash (Except MemoryError Memory × Journal) :=
  match config.validate with
  | .error e => .ok (.error e, j)
  | .ok () => (machine.makeRoom config).map fun () => w.create config j

end Workshop

end Recall
