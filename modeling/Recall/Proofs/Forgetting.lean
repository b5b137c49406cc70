import Recall.Proofs.Buffer.Retention
import Recall.Proofs.Hierarchical.Layers
import Recall.Proofs.Retrieval.Index
import Recall.Proofs.SlidingWindow.Resizing
import Recall.Proofs.Summarization.Conservation

/-!
# A memory that forgot is a new one

Whatever a memory has been through, after it forgot it goes on like any other that forgot, and
like one that was opened just then. What may be left are the limits that can be changed while
a memory is in use, a window size or the number of messages in an answer; and the answers of
its collaborators, which have been asked before.

Answers depend on the number of the question, so two memories are compared by the answers *from
a moment on*: `after j` counts the questions from the end of the journal `j`. A memory in the
middle of a journal does the same as one that begins there with the answers from there on
(`answer_carried`), and all that is asked and reported is put behind the journal. So memories
that are equal, with equal answers from their moments on, cannot be told apart
(`goesOnAs_of_after_eq`).
-/

namespace Recall

/-! ## Answers from a moment on -/

namespace Journal

/-- What is asked and reported in `k`, behind `j`. -/
instance : Append Journal where
  append j k := ⟨j.readings + k.readings, j.issued + k.issued, j.batches ++ k.batches,
    j.texts ++ k.texts, j.scored ++ k.scored, j.events ++ k.events⟩

theorem append_empty (j : Journal) : j ++ empty = j := by
  show Journal.mk _ _ (j.batches ++ []) (j.texts ++ []) (j.scored ++ []) (j.events ++ []) = j
  simp only [List.append_nil]
  rfl

theorem report_append (j k : Journal) (e : Event) : (j ++ k).report e = j ++ k.report e := by
  show Journal.mk _ _ _ _ _ (j.events ++ k.events ++ [e]) = Journal.mk _ _ _ _ _ _
  rw [List.append_assoc]
  rfl

end Journal

def Supply.after (supply : Supply) (j : Journal) : Supply where
  clock n := supply.clock (j.readings + n)
  freshId n := supply.freshId (j.issued + n)

def Summarizer.after (s : Summarizer) (j : Journal) : Summarizer where
  summarize n batch := s.summarize (j.batches.length + n) batch

/-- Names and dimensions are told when a memory is opened; they are not among the answers. -/
def Embedder.after (e : Embedder) (j : Journal) : Embedder where
  name := ""
  dimension := 0
  embed n text := e.embed (j.texts.length + n) text

def Scorer.after (s : Scorer) (j : Journal) : Scorer where
  name := ""
  score n now m := s.score (j.scored.length + n) now m

def Collaborators.after (helpers : Collaborators) (j : Journal) : Collaborators where
  summarizer := helpers.summarizer.after j
  embedder := helpers.embedder.after j
  scorer := helpers.scorer.after j

/-- The result `y` is the result `x` of a run in which `j` came before, changed by `f`. -/
structure Carried {α β : Type} (f : α → β) (j : Journal) (x : α × Journal) (y : β × Journal) :
    Prop where
  result : y.1 = f x.1
  journal : x.2 = j ++ y.2

section Questions

variable (j k : Journal)

theorem Journal.compose_carried (supply : Supply) (role : Role) (content : String) :
    Carried id j ((j ++ k).compose supply role content)
      (k.compose (supply.after j) role content) := ⟨rfl, rfl⟩

theorem Journal.now_carried (supply : Supply) :
    Carried id j ((j ++ k).now supply) (k.now (supply.after j)) := ⟨rfl, rfl⟩

theorem Summarizer.ask_carried (s : Summarizer) (batch : List Message) :
    Carried id j (s.ask batch (j ++ k)) ((s.after j).ask batch k) where
  result := by
    show s.summarize _ batch = s.summarize (j.batches ++ k.batches).length batch
    rw [List.length_append]
  journal := by
    show Journal.mk _ _ (j.batches ++ k.batches ++ [batch]) _ _ _ = Journal.mk _ _ _ _ _ _
    rw [List.append_assoc]
    rfl

theorem Embedder.ask_carried (e : Embedder) (text : String) :
    Carried id j (e.ask text (j ++ k)) ((e.after j).ask text k) where
  result := by
    show e.embed _ text = e.embed (j.texts ++ k.texts).length text
    rw [List.length_append]
  journal := by
    show Journal.mk _ _ _ (j.texts ++ k.texts ++ [text]) _ _ = Journal.mk _ _ _ _ _ _
    rw [List.append_assoc]
    rfl

theorem Scorer.ask_carried (s : Scorer) (supply : Supply) (m : Message) :
    Carried id j (s.ask supply m (j ++ k)) ((s.after j).ask (supply.after j) m k) where
  result := by
    show s.score _ (supply.clock (j.readings + k.readings)) m =
      s.score (j.scored ++ k.scored).length _ m
    rw [List.length_append]
    rfl
  journal := by
    show Journal.mk _ _ _ _ (j.scored ++ k.scored ++ [m]) _ = Journal.mk _ _ _ _ _ _
    rw [List.append_assoc]
    rfl

end Questions

section Carried

variable {α β : Type} {j : Journal} (f : α → β)

theorem carried_report (a : α) {k k' : Journal} (h : k' = j ++ k) (e : Event) :
    Carried f j (a, k'.report e) (f a, k.report e) where
  result := rfl
  journal := by rw [h, Journal.report_append]

/-- Both runs take the same branch. -/
theorem carried_ite (p : Prop) [Decidable p] {x x' : α × Journal} {y y' : β × Journal}
    (hpos : p → Carried f j x y) (hneg : ¬ p → Carried f j x' y') :
    Carried f j (if p then x else x') (if p then y else y') := by
  by_cases h : p
  · rw [if_pos h, if_pos h]
    exact hpos h
  · rw [if_neg h, if_neg h]
    exact hneg h

end Carried

namespace Memory

variable (j k : Journal) (supply : Supply)

/-! ## Buffers -/

namespace Buffer

def after (j : Journal) (b : Buffer) : Buffer := { b with summarizer := b.summarizer.after j }

theorem compact_carried (count : Nat) (pressure : Pressure) (b : Buffer) :
    Carried (after j) j (b.compact supply count pressure (j ++ k))
      ((b.after j).compact (supply.after j) count pressure k) := by
  have hask := b.summarizer.ask_carried j k (b.messages.take count)
  have hsame : ((b.after j).summarizer.ask ((b.after j).messages.take count) k).1 =
      (b.summarizer.ask (b.messages.take count) (j ++ k)).1 := hask.result
  unfold compact
  refine carried_ite (after j) (count = 0) (fun _ => ⟨rfl, rfl⟩) fun _ => ?_
  refine carried_ite (after j) (!b.limits.autoSummarize) (fun _ => carried_report _ _ rfl _)
    fun _ => ?_
  dsimp only
  rw [hsame]
  cases (b.summarizer.ask (b.messages.take count) (j ++ k)).1 with
  | ok summary =>
      dsimp only
      rw [hask.journal]
      exact carried_report (after j) _
        (Journal.compose_carried j _ supply .system summary).journal _
  | error e => exact carried_report (after j) _ hask.journal _

theorem add_carried (m : Message) (b : Buffer) :
    Carried (after j) j (b.add supply m (j ++ k)) ((b.after j).add (supply.after j) m k) := by
  have hbounded := compact_carried j k supply
    (messageSurplus b.limits (b.messages ++ [m])) .messageLimit
    { b with messages := b.messages ++ [m] }
  generalize hx : compact supply _ _ _ (j ++ k) = x at hbounded
  generalize hy : compact (supply.after j) _ _ _ k = y at hbounded
  obtain ⟨hresult, hjournal⟩ := hbounded
  have hadd : b.add supply m (j ++ k) =
      x.1.compact supply (tokenSurplus b.limits x.1.messages) .tokenLimit x.2 := hx ▸ rfl
  have hadd' : (b.after j).add (supply.after j) m k =
      y.1.compact (supply.after j) (tokenSurplus b.limits y.1.messages) .tokenLimit y.2 := hy ▸ rfl
  rw [hadd, hadd', hjournal, hresult]
  exact compact_carried j y.2 supply _ _ x.1

end Buffer

/-! ## Summarizing memories -/

namespace Summarization

def after (j : Journal) (s : Summarization) : Summarization :=
  { s with summarizer := s.summarizer.after j }

theorem compact_carried (s : Summarization) :
    Carried (Prod.map id (after j)) j (s.compact (j ++ k)) ((s.after j).compact k) := by
  have hask := s.summarizer.ask_carried j k (s.recent.take s.surplus)
  have hsame : ((s.after j).summarizer.ask ((s.after j).recent.take (s.after j).surplus) k).1 =
      (s.summarizer.ask (s.recent.take s.surplus) (j ++ k)).1 := hask.result
  unfold compact
  refine carried_ite _ (s.surplus = 0) (fun _ => ⟨rfl, rfl⟩) fun _ => ?_
  dsimp only
  rw [hsame]
  cases (s.summarizer.ask (s.recent.take s.surplus) (j ++ k)).1 with
  | ok summary => exact carried_report (Prod.map id (after j)) _ hask.journal _
  | error e => exact ⟨rfl, hask.journal⟩

theorem add_carried (m : Message) (s : Summarization) :
    Carried (Prod.map id (after j)) j (s.add m (j ++ k)) ((s.after j).add m k) := by
  have hgrown := compact_carried j k { s with recent := s.recent ++ [m] }
  exact carried_ite _ (s.limits.summarizeAfter < (s.recent ++ [m]).length) (fun _ => hgrown)
    fun _ => ⟨rfl, rfl⟩

theorem context_carried (s : Summarization) :
    Carried id j (s.context supply (j ++ k)) ((s.after j).context (supply.after j) k) := by
  have htime : Carried id j (s.summaryTime supply (j ++ k))
      ((s.after j).summaryTime (supply.after j) k) := by
    obtain ⟨limits, summarizer, summaries, recent⟩ := s
    cases recent with
    | nil => exact Journal.now_carried j k supply
    | cons m recent => exact ⟨rfl, rfl⟩
  refine ⟨?_, htime.journal⟩
  show s.summaries.mapIdx (summaryMessage ((s.after j).summaryTime (supply.after j) k).1) ++
    s.recent = _
  rw [htime.result]
  rfl

end Summarization

/-! ## Retrieving memories -/

namespace Retrieval

def after (j : Journal) (r : Retrieval) : Retrieval := { r with embedder := r.embedder.after j }

theorem add_carried (m : Message) (r : Retrieval) :
    Carried (Prod.map id (after j)) j (r.add m (j ++ k)) ((r.after j).add m k) := by
  have hask := r.embedder.ask_carried j k m.content
  have hsame : ((r.after j).embedder.ask m.content k).1 =
      (r.embedder.ask m.content (j ++ k)).1 := hask.result
  unfold add
  dsimp only
  rw [hsame]
  cases (r.embedder.ask m.content (j ++ k)).1 with
  | ok embedding => exact carried_report (Prod.map id (after j)) _ hask.journal _
  | error e => exact ⟨rfl, hask.journal⟩

theorem context_carried (query : String) (r : Retrieval) :
    Carried id j (r.context query (j ++ k)) ((r.after j).context query k) := by
  have hask := r.embedder.ask_carried j k query
  have hsame : ((r.after j).embedder.ask query k).1 = (r.embedder.ask query (j ++ k)).1 :=
    hask.result
  unfold context
  refine carried_ite id (r.messages.isEmpty) (fun _ => ⟨rfl, rfl⟩) fun _ => ?_
  dsimp only
  rw [hsame]
  cases (r.embedder.ask query (j ++ k)).1 with
  | ok embedding => exact carried_report id _ hask.journal _
  | error e => exact ⟨rfl, hask.journal⟩

end Retrieval

/-! ## Hierarchical memories -/

namespace Hierarchical

def after (j : Journal) (h : Hierarchical) : Hierarchical := { h with scorer := h.scorer.after j }

theorem judge_carried (h : Hierarchical) (m : Message) :
    Carried id j (h.judge supply m (j ++ k)) ((h.after j).judge (supply.after j) m k) := by
  have hask := h.scorer.ask_carried j k supply m
  exact carried_ite id (m.importance.any Importance.exceeds) (fun _ => ⟨rfl, rfl⟩)
    fun _ => ⟨congrArg Importance.exceeds hask.result, hask.journal⟩

theorem scores_carried (scorer : Scorer) (messages : List Message) :
    Carried id j (scores supply scorer messages (j ++ k))
      (scores (supply.after j) (scorer.after j) messages k) := by
  induction messages generalizing k with
  | nil => exact ⟨rfl, rfl⟩
  | cons m messages ih =>
      have hask := scorer.ask_carried j k supply m
      have hothers := ih ((scorer.after j).ask (supply.after j) m k).2
      rw [← hask.journal] at hothers
      refine ⟨?_, hothers.journal⟩
      show _ :: _ = _ :: _
      rw [hask.result, hothers.result]
      rfl

theorem enter_carried (m : Message) (h : Hierarchical) :
    Carried (after j) j (h.enter supply m (j ++ k)) ((h.after j).enter (supply.after j) m k) := by
  have hjudge := judge_carried j k supply h m
  have hsame : ((h.after j).judge (supply.after j) m k).1 = (h.judge supply m (j ++ k)).1 :=
    hjudge.result
  unfold enter
  dsimp only
  rw [hsame]
  cases (h.judge supply m (j ++ k)).1 with
  | true => exact carried_report (after j) _ hjudge.journal _
  | false => exact ⟨rfl, hjudge.journal⟩

theorem boundRecent_carried (h : Hierarchical) :
    Carried (after j) j (h.boundRecent (j ++ k)) ((h.after j).boundRecent k) := by
  obtain ⟨limits, scorer, recent, important, archived⟩ := h
  cases recent with
  | nil => exact ⟨rfl, rfl⟩
  | cons oldest recent =>
      refine carried_ite (after j) ((oldest :: recent).length ≤ limits.recentLimit)
        (fun _ => ⟨rfl, rfl⟩) fun _ => ?_
      exact carried_ite (after j) (hasId important oldest.id)
        (fun _ => carried_report (after j) _ rfl _) fun _ => carried_report (after j) _ rfl _

theorem boundImportant_carried (h : Hierarchical) :
    Carried (after j) j (h.boundImportant supply (j ++ k))
      ((h.after j).boundImportant (supply.after j) k) := by
  have hscores := scores_carried j k supply h.scorer h.important
  have hsame : (scores (supply.after j) (h.after j).scorer (h.after j).important k).1 =
      (scores supply h.scorer h.important (j ++ k)).1 := hscores.result
  unfold boundImportant
  refine carried_ite (after j) (h.important.length ≤ h.limits.importantLimit)
    (fun _ => ⟨rfl, rfl⟩) fun _ => ?_
  dsimp only
  rw [hsame]
  generalize leastPlace (scores supply h.scorer h.important (j ++ k)).1 = place
  have himportant : (h.after j).important[place]? = h.important[place]? := rfl
  rw [himportant]
  cases h.important[place]? with
  | none => exact ⟨rfl, hscores.journal⟩
  | some evicted => exact carried_report (after j) _ hscores.journal _

theorem add_carried (m : Message) (h : Hierarchical) :
    Carried (after j) j (h.add supply m (j ++ k)) ((h.after j).add (supply.after j) m k) := by
  have hentered := enter_carried j k supply m h
  have hbounded := boundRecent_carried j ((h.after j).enter (supply.after j) m k).2
    (h.enter supply m (j ++ k)).1
  unfold add
  dsimp only
  rw [hentered.journal, hentered.result, hbounded.journal, hbounded.result]
  exact boundImportant_carried j _ supply _

end Hierarchical

/-! ## All memories -/

/-- The memory with the answers of its collaborators from a moment on. -/
def after (j : Journal) : Memory → Memory
  | sequential s => sequential s
  | slidingWindow w => slidingWindow w
  | buffer b => buffer (b.after j)
  | summarization s => summarization (s.after j)
  | retrieval r => retrieval (r.after j)
  | hierarchical h => hierarchical (h.after j)

theorem add_carried (m : Message) (memory : Memory) :
    Carried (Prod.map id (after j)) j (memory.add supply m (j ++ k))
      ((memory.after j).add (supply.after j) m k) := by
  cases memory with
  | sequential s => exact carried_report _ _ rfl _
  | slidingWindow w =>
      have hjournal : (w.add m (j ++ k)).2 = j ++ (w.add m k).2 := by
        unfold SlidingWindow.add
        dsimp only
        split
        · exact Journal.report_append ..
        · rfl
      exact ⟨rfl, hjournal⟩
  | buffer b =>
      have h := b.add_carried j k supply m
      exact ⟨congrArg (fun b => (Except.ok (), buffer b)) h.result, h.journal⟩
  | summarization s =>
      have h := s.add_carried j k m
      exact ⟨congrArg (Prod.map id summarization) h.result, h.journal⟩
  | retrieval r =>
      have h := r.add_carried j k m
      exact ⟨congrArg (Prod.map id retrieval) h.result, h.journal⟩
  | hierarchical h =>
      have h := h.add_carried j k supply m
      exact ⟨congrArg (fun h => (Except.ok (), hierarchical h)) h.result, h.journal⟩

theorem addAll_carried (messages : List Message) (memory : Memory) :
    Carried (Prod.map id (after j)) j (addAll supply messages memory (j ++ k))
      (addAll (supply.after j) messages (memory.after j) k) := by
  induction messages generalizing memory k with
  | nil => exact ⟨rfl, rfl⟩
  | cons m messages ih =>
      have hadd := add_carried j k supply m memory
      have hsame : ((memory.after j).add (supply.after j) m k).1.1 =
          (memory.add supply m (j ++ k)).1.1 := by rw [hadd.result]; rfl
      unfold addAll
      dsimp only
      rw [hsame]
      cases (memory.add supply m (j ++ k)).1.1 with
      | error e =>
          exact ⟨congrArg (Prod.map (fun _ => Except.error e) id) hadd.result, hadd.journal⟩
      | ok done =>
          dsimp only
          rw [hadd.journal, hadd.result]
          exact ih _ _

theorem context_carried (query : String) (memory : Memory) :
    Carried id j (memory.context supply query (j ++ k))
      ((memory.after j).context (supply.after j) query k) := by
  cases memory with
  | summarization s =>
      have h := s.context_carried j k supply
      exact ⟨congrArg Except.ok h.result, h.journal⟩
  | retrieval r => exact r.context_carried j k query
  | sequential _ | slidingWindow _ | buffer _ | hierarchical _ => exact ⟨rfl, rfl⟩

/-- **A memory in the middle of a journal answers like one at its beginning**, with the answers
of its collaborators from that moment on. -/
theorem answer_carried (r : Request) (memory : Memory) :
    Carried (Prod.map id (after j)) j (memory.answer supply r (j ++ k))
      ((memory.after j).answer (supply.after j) r k) := by
  cases r with
  | add m =>
      have h := memory.add_carried j k supply m
      exact ⟨congrArg (Prod.map Reply.ofChange id) h.result, h.journal⟩
  | addAll ms =>
      have h := memory.addAll_carried j k supply ms
      exact ⟨congrArg (Prod.map Reply.ofChange id) h.result, h.journal⟩
  | clear => cases memory <;> exact carried_report _ _ rfl _
  | context query =>
      have h := memory.context_carried j k supply query
      exact ⟨congrArg (fun shown => (Reply.ofMessages shown, memory.after j)) h.result, h.journal⟩
  | resize size =>
      cases memory with
      | slidingWindow w => exact carried_report _ _ rfl _
      | _ => exact ⟨rfl, rfl⟩
  | load ms =>
      cases memory with
      | buffer b => exact carried_report _ _ rfl _
      | _ => exact ⟨rfl, rfl⟩
  | setTopK size =>
      cases memory with
      | retrieval r =>
          have hset : (r.after j).setTopK size = (r.setTopK size).after j := by
            unfold Retrieval.setTopK
            split <;> rfl
          have hanswer : ((retrieval r).after j).answer (supply.after j) (.setTopK size) k =
              ((.size ((r.after j).setTopK size).topK, retrieval ((r.after j).setTopK size)), k) :=
            rfl
          rw [hanswer, hset]
          exact ⟨rfl, rfl⟩
      | _ => exact ⟨rfl, rfl⟩
  | occupancy | windowSize | messages | limits | summaries | topK | archived =>
      cases memory <;> exact ⟨rfl, rfl⟩

end Memory

/-! ## Courses that cannot be told apart -/

namespace Course

/-- Requests have the same replies from here on, and lead to the same questions and reports. -/
def GoesOnAs (supply₁ : Supply) (c₁ : Course Memory) (supply₂ : Supply) (c₂ : Course Memory) :
    Prop :=
  ∀ requests, replies supply₁ requests c₁ = replies supply₂ requests c₂ ∧
    ∃ k, (run supply₁ requests c₁).journal = c₁.journal ++ k ∧
      (run supply₂ requests c₂).journal = c₂.journal ++ k

/-- What happens to a memory in the middle of a journal, compared with one at its beginning. -/
theorem run_carried (supply : Supply) (j : Journal) (requests : List Request)
    {c d : Course Memory} (hmemory : d.memory = c.memory.after j)
    (hjournal : c.journal = j ++ d.journal) :
    replies supply requests c = replies (supply.after j) requests d ∧
      (run supply requests c).journal = j ++ (run (supply.after j) requests d).journal := by
  induction requests generalizing c d with
  | nil => exact ⟨rfl, hjournal⟩
  | cons r requests ih =>
      have hanswer := c.memory.answer_carried j d.journal supply r
      rw [← hmemory, ← hjournal] at hanswer
      have hmemory' : (step (supply.after j) d r).memory = (step supply c r).memory.after j := by
        rw [memory_step, memory_step, hanswer.result]
        rfl
      have hjournal' : (step supply c r).journal = j ++ (step (supply.after j) d r).journal := by
        rw [journal_step, journal_step, hanswer.journal]
      obtain ⟨hreplies, hrun⟩ := ih hmemory' hjournal'
      refine ⟨?_, hrun⟩
      show c.reply supply r :: _ = d.reply (supply.after j) r :: _
      rw [hreplies, reply, reply, hanswer.result]
      rfl

/-- **Memories that are equal, with equal answers from here on, cannot be told apart.** -/
theorem goesOnAs_of_after_eq {supply₁ supply₂ : Supply} {c₁ c₂ : Course Memory}
    (hmemory : c₁.memory.after c₁.journal = c₂.memory.after c₂.journal)
    (hsupply : supply₁.after c₁.journal = supply₂.after c₂.journal) :
    GoesOnAs supply₁ c₁ supply₂ c₂ := by
  intro requests
  -- Both are compared with one course that begins with an empty journal.
  let d : Course Memory := restarts [] (c₁.memory.after c₁.journal, .empty)
  obtain ⟨hreplies₁, hjournal₁⟩ := run_carried supply₁ c₁.journal requests (d := d) rfl
    (Journal.append_empty _).symm
  obtain ⟨hreplies₂, hjournal₂⟩ := run_carried supply₂ c₂.journal requests (d := d) hmemory
    (Journal.append_empty _).symm
  rw [hsupply] at hreplies₁ hjournal₁
  exact ⟨hreplies₁.trans hreplies₂.symm, _, hjournal₁, hjournal₂⟩

end Course

/-! ## Forgetting -/

/-- The limit of a memory that can be changed while it is in use, if there is one. -/
def Memory.adjustable : Memory → Option Nat
  | slidingWindow w => some w.size
  | retrieval r => some r.topK
  | _ => none

/-- The configuration with another value for the adjustable limit. -/
def Config.adjusted : Config → Option Nat → Config
  | slidingWindow _, some size => slidingWindow ⟨size⟩
  | retrieval _, some k => retrieval ⟨k⟩
  | config, _ => config

theorem Memory.after_opened (config : Config) (helpers : Collaborators) (j j' j'' : Journal) :
    (opened config helpers j').1.after j = (opened config (helpers.after j) j'').1 := by
  cases config <;> rfl

/-- The collaborators and the supply give the same answers to the same questions, on the one
side from the end of the journal `j₁` on and on the other from the end of `j₂`. -/
structure Agree (supply₁ : Supply) (helpers₁ : Collaborators) (j₁ : Journal)
    (supply₂ : Supply) (helpers₂ : Collaborators) (j₂ : Journal) : Prop where
  clock : ∀ n, supply₁.clock (j₁.readings + n) = supply₂.clock (j₂.readings + n)
  freshId : ∀ n, supply₁.freshId (j₁.issued + n) = supply₂.freshId (j₂.issued + n)
  summary : ∀ n batch, helpers₁.summarizer.summarize (j₁.batches.length + n) batch =
    helpers₂.summarizer.summarize (j₂.batches.length + n) batch
  embedding : ∀ n text, helpers₁.embedder.embed (j₁.texts.length + n) text =
    helpers₂.embedder.embed (j₂.texts.length + n) text
  score : ∀ n now m, helpers₁.scorer.score (j₁.scored.length + n) now m =
    helpers₂.scorer.score (j₂.scored.length + n) now m

section Agreement

variable {supply₁ supply₂ : Supply} {helpers₁ helpers₂ : Collaborators} {j₁ j₂ : Journal}

theorem Agree.supply_after (h : Agree supply₁ helpers₁ j₁ supply₂ helpers₂ j₂) :
    supply₁.after j₁ = supply₂.after j₂ := by
  rw [Supply.after, Supply.after, funext h.clock, funext h.freshId]

theorem Agree.helpers_after (h : Agree supply₁ helpers₁ j₁ supply₂ helpers₂ j₂) :
    helpers₁.after j₁ = helpers₂.after j₂ := by
  have hsummary := funext₂ h.summary
  have hembedding := funext₂ h.embedding
  have hscore := funext₃ h.score
  rw [Collaborators.after, Collaborators.after, Summarizer.after, Summarizer.after,
    Embedder.after, Embedder.after, Scorer.after, Scorer.after, hsummary, hembedding, hscore]

end Agreement

namespace Course

/-- **What is left when a memory forgets**: it is one that was opened just then, but for the
value that its adjustable limit has by now. -/
theorem memory_clear (supply : Supply) (config : Config) (helpers : Collaborators)
    (j j' k : Journal) (past : List Request) :
    ((run supply past (.opened config helpers j)).memory.clear k).1 =
      (Memory.opened (config.adjusted
        (run supply past (.opened config helpers j)).memory.adjustable) helpers j').1 := by
  cases config with
  | sequential =>
      have hcourse : ∃ c : Course Memory.Sequential,
          run supply past (.opened .sequential helpers j) = c.lift .sequential ∧ c.Sound ∧ True :=
        sequential_run (P := fun _ => True) (fun _ _ _ _ => trivial) (fun _ _ => trivial)
          (sound_restarts [] (Memory.Sequential.opened j)) trivial past
      obtain ⟨c, hrun, -⟩ := hcourse
      rw [hrun]
      rfl
  | slidingWindow limits =>
      obtain ⟨c, hrun, hfits⟩ :=
        Memory.SlidingWindow.exists_fits supply limits helpers j past
      have hsize : Config.orDefault c.memory.size Config.SlidingWindow.default.windowSize =
          c.memory.size := if_neg hfits.size_pos.ne'
      rw [hrun]
      show Memory.slidingWindow ⟨c.memory.size, []⟩ =
        .slidingWindow ⟨Config.orDefault c.memory.size _, []⟩
      rw [hsize]
  | buffer limits =>
      obtain ⟨c, hrun, -, hretaining⟩ :=
        Memory.Buffer.exists_retaining supply limits helpers j past
      rw [hrun]
      show Memory.buffer ⟨c.memory.limits, c.memory.summarizer, []⟩ = _
      rw [hretaining.limits_eq, hretaining.summarizer_eq]
      rfl
  | summarization limits =>
      obtain ⟨c, hrun, -, hconserving⟩ :=
        Memory.Summarization.exists_conserving supply limits helpers j past
      rw [hrun]
      show Memory.summarization ⟨c.memory.limits, c.memory.summarizer, [], []⟩ = _
      rw [hconserving.limits_eq, hconserving.summarizer_eq]
      rfl
  | retrieval limits =>
      obtain ⟨c, hrun, -, hindexing⟩ :=
        Memory.Retrieval.exists_indexing supply limits helpers j past
      have htopK : Config.orDefault c.memory.topK Config.Retrieval.default.topK =
          c.memory.topK := if_neg (Nat.ne_of_gt hindexing.topK_pos)
      rw [hrun]
      show Memory.retrieval ⟨c.memory.topK, c.memory.embedder, [], []⟩ =
        .retrieval ⟨Config.orDefault c.memory.topK _, helpers.embedder, [], []⟩
      rw [htopK, hindexing.embedder_eq]
  | hierarchical limits =>
      obtain ⟨c, hrun, hlayering⟩ :=
        Memory.Hierarchical.exists_layering supply limits helpers j past
      rw [hrun]
      show Memory.hierarchical ⟨c.memory.limits, c.memory.scorer, [], [], []⟩ = _
      rw [hlayering.limits_eq, hlayering.scorer_eq]
      rfl

/-- **Forgetting is complete.** Of one configuration, memories that forgot cannot be told apart
by anything that is asked of them later, whatever they have been through, if their adjustable
limits are the same by now; nor can a memory that forgot and one that is opened with the limits
the other has. -/
theorem clear_forgets (config : Config) (supply₁ supply₂ : Supply)
    (helpers₁ helpers₂ : Collaborators) (j₁ j₂ : Journal) (past₁ past₂ : List Request) :
    let c₁ := run supply₁ past₁ (.opened config helpers₁ j₁)
    let c₂ := run supply₂ past₂ (.opened config helpers₂ j₂)
    let cleared₁ := step supply₁ c₁ .clear
    let cleared₂ := step supply₂ c₂ .clear
    let new := Course.opened (config.adjusted c₁.memory.adjustable) helpers₂ j₂
    (c₁.memory.adjustable = c₂.memory.adjustable →
      Agree supply₁ helpers₁ cleared₁.journal supply₂ helpers₂ cleared₂.journal →
      GoesOnAs supply₁ cleared₁ supply₂ cleared₂) ∧
    (Agree supply₁ helpers₁ cleared₁.journal supply₂ helpers₂ new.journal →
      GoesOnAs supply₁ cleared₁ supply₂ new) := by
  intro c₁ c₂ cleared₁ cleared₂ new
  have hcleared₁ : cleared₁.memory =
      (Memory.opened (config.adjusted c₁.memory.adjustable) helpers₁ .empty).1 :=
    memory_clear supply₁ config helpers₁ j₁ .empty c₁.journal past₁
  have hcleared₂ : cleared₂.memory =
      (Memory.opened (config.adjusted c₂.memory.adjustable) helpers₂ .empty).1 :=
    memory_clear supply₂ config helpers₂ j₂ .empty c₂.journal past₂
  constructor
  · intro hsettings hagree
    refine goesOnAs_of_after_eq ?_ hagree.supply_after
    rw [hcleared₁, hcleared₂, hsettings, Memory.after_opened _ _ _ _ .empty,
      Memory.after_opened _ _ _ _ .empty, hagree.helpers_after]
  · intro hagree
    refine goesOnAs_of_after_eq ?_ hagree.supply_after
    have hnew : new.memory =
        (Memory.opened (config.adjusted c₁.memory.adjustable) helpers₂ j₂).1 := rfl
    rw [hcleared₁, hnew, Memory.after_opened _ _ _ _ .empty,
      Memory.after_opened _ _ _ _ .empty, hagree.helpers_after]

/-- A memory that kept two messages, and now answers with three, goes on like one that never
kept any. -/
theorem clear_forgets_kept :
    let supply : Supply := ⟨fun _ => .epoch, fun _ => ""⟩
    let kept : List Request := [.add (.make "1" .epoch .user "a"), .setTopK 3,
      .add (.make "2" .epoch .assistant "b")]
    let old := step supply
      (run supply kept (.opened (.retrieval ⟨2⟩) .builtIn .empty)) .clear
    GoesOnAs supply old supply (step supply
        (run supply [.setTopK 3] (.opened (.retrieval ⟨2⟩) .builtIn .empty)) .clear) ∧
      GoesOnAs supply old supply (.opened (.retrieval ⟨3⟩) .builtIn .empty) := by
  intro supply kept old
  -- These collaborators answer a question in the same way whenever it is put.
  have hagree (j j' : Journal) :
      Agree supply Collaborators.builtIn j supply Collaborators.builtIn j' :=
    ⟨fun _ => rfl, fun _ => rfl, fun _ _ => rfl, fun _ _ => rfl, fun _ _ _ => rfl⟩
  have h := clear_forgets (.retrieval ⟨2⟩) supply supply .builtIn .builtIn .empty .empty kept
    [.setTopK 3]
  exact ⟨h.1 rfl (hagree _ _), h.2 (hagree _ _)⟩

end Course

end Recall
