import Recall.Memory.Buffer
import Recall.Memory.Hierarchical
import Recall.Memory.Retrieval
import Recall.Memory.Sequential
import Recall.Memory.SlidingWindow
import Recall.Memory.Summarization

/-!
# Memories

A memory is one of the six kinds. All of them take messages, give a context for a
query, forget, and tell their occupancy. Taking a message fails only in a
summarizing or retrieving memory, and giving a context only in a retrieving one.
Several messages are taken one by one, up to the first that fails.
-/

namespace Recall

/-- A memory of any kind. -/
inductive Memory where
  | sequential (memory : Memory.Sequential)
  | slidingWindow (memory : Memory.SlidingWindow)
  | buffer (memory : Memory.Buffer)
  | summarization (memory : Memory.Summarization)
  | retrieval (memory : Memory.Retrieval)
  | hierarchical (memory : Memory.Hierarchical)

namespace Memory

/-- The kind of a memory. -/
def strategy : Memory → Strategy
  | sequential _ => .sequential
  | slidingWindow _ => .slidingWindow
  | buffer _ => .buffer
  | summarization _ => .summarization
  | retrieval _ => .retrieval
  | hierarchical _ => .hierarchical

def name (memory : Memory) : String := memory.strategy.text

def add (supply : Supply) (m : Message) (memory : Memory) (j : Journal) :
    (Except MemoryError Unit × Memory) × Journal :=
  match memory with
  | sequential s =>
    let next := s.add m j
    ((.ok (), sequential next.1), next.2)
  | slidingWindow w =>
    let next := w.add m j
    ((.ok (), slidingWindow next.1), next.2)
  | buffer b =>
    let next := b.add supply m j
    ((.ok (), buffer next.1), next.2)
  | summarization s =>
    let next := s.add m j
    ((next.1.1, summarization next.1.2), next.2)
  | retrieval r =>
    let next := r.add m j
    ((next.1.1, retrieval next.1.2), next.2)
  | hierarchical h =>
    let next := h.add supply m j
    ((.ok (), hierarchical next.1), next.2)

/-- Adds messages one by one, up to the first that fails. -/
def addAll (supply : Supply) : List Message → Memory → Journal →
    (Except MemoryError Unit × Memory) × Journal
  | [], memory, j => ((.ok (), memory), j)
  | m :: messages, memory, j =>
    let next := memory.add supply m j
    match next.1.1 with
    | .error e => ((.error e, next.1.2), next.2)
    | .ok () => addAll supply messages next.1.2 next.2

/-- The messages that the model sees for a query. -/
def context (supply : Supply) (query : String) (memory : Memory) (j : Journal) :
    Except MemoryError (List Message) × Journal :=
  match memory with
  | sequential s => (.ok s.context, j)
  | slidingWindow w => (.ok w.context, j)
  | buffer b => (.ok b.context, j)
  | summarization s =>
    let shown := s.context supply j
    (.ok shown.1, shown.2)
  | retrieval r => r.context query j
  | hierarchical h => (.ok h.context, j)

def clear (memory : Memory) (j : Journal) : Memory × Journal :=
  match memory with
  | sequential s => (sequential (s.clear j).1, (s.clear j).2)
  | slidingWindow w => (slidingWindow (w.clear j).1, (w.clear j).2)
  | buffer b => (buffer (b.clear j).1, (b.clear j).2)
  | summarization s => (summarization (s.clear j).1, (s.clear j).2)
  | retrieval r => (retrieval (r.clear j).1, (r.clear j).2)
  | hierarchical h => (hierarchical (h.clear j).1, (h.clear j).2)

def occupancy : Memory → Occupancy
  | sequential s => s.occupancy
  | slidingWindow w => w.occupancy
  | buffer b => b.occupancy
  | summarization s => s.occupancy
  | retrieval r => r.occupancy
  | hierarchical h => h.occupancy

end Memory

end Recall
