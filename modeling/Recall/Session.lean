import Recall.Memory.Opening

/-!
# Sessions

A session puts requests to one memory and takes its replies. Some requests are only
for memories of one kind; the others refuse them. A request that fails leaves the
session usable.
-/

namespace Recall

/-- What a session may ask of its memory. -/
inductive Request where
  | add (message : Message)
  | addAll (messages : List Message)
  | clear
  | context (query : String)
  | occupancy
  | resize (size : Nat)
  | windowSize
  | load (messages : List Message)
  | messages
  | limits
  | summaries
  | setTopK (k : Nat)
  | topK
  | archived

/-- What a memory replies. -/
inductive Reply where
  | done
  | messages (messages : List Message)
  | occupancy (occupancy : Occupancy)
  | size (size : Nat)
  | limits (config : Config)
  | summaries (summaries : List String)
  | failed (error : MemoryError)
  | refused

namespace Reply

def ofChange : Except MemoryError Unit → Reply
  | .ok () => done
  | .error e => failed e

def ofMessages : Except MemoryError (List Message) → Reply
  | .ok shown => messages shown
  | .error e => failed e

@[simp] theorem ofChange_eq_done {change : Except MemoryError Unit} :
    ofChange change = done ↔ change = .ok () := by
  cases change <;> simp [ofChange]

@[simp] theorem ofChange_eq_failed {change : Except MemoryError Unit} {e : MemoryError} :
    ofChange change = failed e ↔ change = .error e := by
  cases change <;> simp [ofChange]

end Reply

namespace Memory

def answer (supply : Supply) (request : Request) (memory : Memory) (j : Journal) :
    (Reply × Memory) × Journal :=
  match request, memory with
  | .add m, memory =>
    let next := memory.add supply m j
    ((.ofChange next.1.1, next.1.2), next.2)
  | .addAll ms, memory =>
    let next := addAll supply ms memory j
    ((.ofChange next.1.1, next.1.2), next.2)
  | .clear, memory =>
    let next := memory.clear j
    ((.done, next.1), next.2)
  | .context query, memory =>
    let shown := memory.context supply query j
    ((.ofMessages shown.1, memory), shown.2)
  | .occupancy, memory => ((.occupancy memory.occupancy, memory), j)
  | .resize size, slidingWindow w =>
    let next := w.resize size j
    ((.size next.1.size, slidingWindow next.1), next.2)
  | .windowSize, slidingWindow w => ((.size w.size, memory), j)
  | .load ms, buffer b =>
    let next := b.load ms j
    ((.done, buffer next.1), next.2)
  | .messages, buffer b => ((.messages b.messages, memory), j)
  | .limits, buffer b => ((.limits (.buffer b.limits), memory), j)
  | .limits, summarization s => ((.limits (.summarization s.limits), memory), j)
  | .limits, hierarchical h => ((.limits (.hierarchical h.limits), memory), j)
  | .summaries, summarization s => ((.summaries s.summaries, memory), j)
  | .setTopK k, retrieval r =>
    let next := r.setTopK k
    ((.size next.topK, retrieval next), j)
  | .topK, retrieval r => ((.size r.topK, memory), j)
  | .archived, hierarchical h => ((.messages h.archived, memory), j)
  | _, memory => ((.refused, memory), j)

end Memory

end Recall
