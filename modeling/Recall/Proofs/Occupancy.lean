import Recall.Proofs.Buffer.Batches
import Recall.Proofs.Retrieval.Ranking
import Recall.Proofs.Summarization.Conservation
import Mathlib.Algebra.GroupWithZero.Nat

/-!
# What the occupancy tells about the messages shown

The occupancy is computed from what a memory holds and never from what it shows, so that
the two agree is a law and not a definition. The second side is the reply to a query: its
length, and the sum of the token counts that the shown messages carry.

**Tokens agree wherever all that is held is shown.** A message that came counts with the
tokens it came with, and a message that stands for a summary with the estimate for the
summary's text. In a summarizing memory the two sides are added up over different lists,
the stored texts and the messages made of them (`Summarization.counts_context`).

**Active messages are those shown, except for the summaries of a summarizing memory**,
which are shown and whose tokens are counted as active. How many they are is read off the
calls (`Course.uncounted`).
-/

namespace Recall

/-- The occupancy counts the shown messages and their tokens, all of them as active. -/
structure Occupancy.Counts (o : Occupancy) (shown : List Message) : Prop where
  totalMessages : o.totalMessages = shown.length
  totalTokens : o.totalTokens = (shown.map (·.tokenCount)).sum
  activeTokens : o.activeTokens = (shown.map (·.tokenCount)).sum

theorem Occupancy.counts_uncompressed (messages : List Message) :
    (Occupancy.uncompressed messages).Counts messages :=
  ⟨rfl, totalTokens_eq_sum messages, totalTokens_eq_sum messages⟩

namespace Course

/-- What a memory in use tells now, and what it shows for a query. -/
structure Tells (supply : Supply) (query : String) (c : Course Memory) (o : Occupancy)
    (shown : List Message) : Prop where
  occupancy : (c.memory.answer supply .occupancy c.journal).1.1 = .occupancy o
  context : (c.memory.answer supply (.context query) c.journal).1.1 = .messages shown

/-- What is shown: messages that stand for summaries, with the tokens estimated for their
texts, and behind them the last messages that came, as they came. -/
def Shows {σ : Type} (s : Summarizer) (c : Course σ) (shown : List Message) : Prop :=
  ∃ made verbatim : List Message, shown = made ++ verbatim ∧ verbatim <:+ c.history ∧
    ∀ x ∈ made, ∃ call ∈ c.calls s, ∃ text,
      call.reply = .ok text ∧ x.tokenCount = estimateTokens text

theorem shows_of_suffix {σ : Type} (s : Summarizer) {c : Course σ} {shown : List Message}
    (h : shown <:+ c.history) : c.Shows s shown :=
  ⟨[], shown, rfl, h, by simp⟩

/-- The summaries that are shown but not among the active messages: of a summarizing
memory, the texts of its calls. -/
def uncounted {σ : Type} (config : Config) (s : Summarizer) (c : Course σ) : List String :=
  if config.strategy = .summarization then (c.calls s).filterMap Call.text? else []

end Course

namespace Memory

open Buffer (sized saying)

/-! ## Memories without a collaborator -/

/-- In every course a sequential memory holds the history. -/
theorem Sequential.exists_all (supply : Supply) (helpers : Collaborators) (j : Journal)
    (requests : List Request) :
    ∃ c : Course Sequential,
      Course.run supply requests (.opened .sequential helpers j) = c.lift .sequential ∧
        c.memory.messages = c.history := by
  obtain ⟨c, hrun, -, h⟩ := Course.sequential_run
    (P := fun c => c.memory.messages = c.history)
    (fun c m _ h => congrArg (· ++ [m]) h) (fun _ _ => rfl)
    (c := Course.restarts [] (Sequential.opened j)) (Course.sound_restarts _ _) rfl requests
  exact ⟨c, hrun, h⟩

theorem SlidingWindow.trim_suffix (w : SlidingWindow) : w.trim.messages <:+ w.messages :=
  List.drop_suffix _ _

/-- In every course a sliding window holds the last messages of the history. -/
theorem SlidingWindow.exists_suffix (supply : Supply) (limits : Config.SlidingWindow)
    (helpers : Collaborators) (j : Journal) (requests : List Request) :
    ∃ c : Course SlidingWindow,
      Course.run supply requests (.opened (.slidingWindow limits) helpers j) =
        c.lift .slidingWindow ∧
      c.memory.messages <:+ c.history := by
  obtain ⟨c, hrun, -, h⟩ := Course.slidingWindow_run
    (P := fun c => c.memory.messages <:+ c.history)
    (fun c m _ h => (trim_suffix _).trans (List.suffix_append_self_iff.mpr h))
    (fun _ _ => List.suffix_rfl) (fun _ _ h => (trim_suffix _).trans h)
    (c := Course.restarts [] (SlidingWindow.opened limits j)) (Course.sound_restarts _ _)
    List.suffix_rfl requests
  exact ⟨c, hrun, h⟩

/-! ## Buffers and summarizing memories -/

theorem Buffer.Retaining.shows {limits : Config.Buffer} {s : Summarizer} {c : Course Buffer}
    (h : Buffer.Retaining limits s c) : c.Shows s c.memory.context := by
  obtain ⟨verbatim, ⟨front, hsplit, -, hfront⟩, hsuffix, -⟩ := h.held
  refine ⟨front, verbatim, hsplit, hsuffix, ?_⟩
  intro x hx
  obtain ⟨call, hcall, id, now, text, hreply, rfl⟩ := hfront x hx
  exact ⟨call, hcall, text, hreply, rfl⟩

namespace Summarization

/-- Messages made of texts, each with the tokens estimated for its text. -/
theorem totalTokens_mapIdx {make : Nat → String → Message}
    (h : ∀ place text, (make place text).tokenCount = estimateTokens text)
    (texts : List String) : totalTokens (texts.mapIdx make) = summaryTokens texts := by
  induction texts generalizing make with
  | nil => rfl
  | cons text texts ih =>
      rw [List.mapIdx_cons, totalTokens, summaryTokens, h, ih fun place text => h _ text]

theorem length_context (supply : Supply) (s : Summarization) (j : Journal) :
    (s.context supply j).1.length = s.summaries.length + s.recent.length := by
  simp [context]

theorem counts_context (supply : Supply) (s : Summarization) (j : Journal) :
    s.occupancy.Counts (s.context supply j).1 := by
  have htokens : totalTokens s.recent + summaryTokens s.summaries =
      ((s.context supply j).1.map (·.tokenCount)).sum := by
    rw [← totalTokens_eq_sum, context, totalTokens_append, totalTokens_mapIdx fun _ _ => rfl]
    exact Nat.add_comm _ _
  exact ⟨(length_context supply s j).symm, htokens, htokens⟩

theorem Conserving.shows {limits : Config.Summarization} {s : Summarizer}
    {c : Course Summarization} (h : Conserving limits s c) (supply : Supply) (j : Journal) :
    c.Shows s (c.memory.context supply j).1 := by
  refine ⟨_, c.memory.recent, rfl, ⟨_, h.history_eq⟩, ?_⟩
  intro x hx
  obtain ⟨place, hplace, rfl⟩ := List.mem_mapIdx.mp hx
  have htext : c.memory.summaries[place] ∈ (c.calls s).filterMap Call.text? :=
    h.summaries_eq ▸ List.getElem_mem hplace
  obtain ⟨call, hcall, htext⟩ := List.mem_filterMap.mp htext
  exact ⟨call, hcall, _, Call.text?_eq_some_iff.mp htext, rfl⟩

/-- In every course of a summarizing memory, what is shown is longer than the number of
active messages by the number of summaries. -/
theorem Conserving.length_shown {limits : Config.Summarization} {s : Summarizer}
    {c : Course Summarization} (h : Conserving limits s c) (supply : Supply) (j : Journal) :
    (c.memory.context supply j).1.length =
      (c.uncounted (.summarization limits) s).length + c.memory.occupancy.activeMessages := by
  rw [length_context, h.summaries_eq]
  rfl

end Summarization

/-! ## Memories that show all they hold -/

/-- In every course of a memory that shows all it holds, the occupancy counts what is shown,
and the active messages leave out the summaries only. -/
theorem exists_told (supply : Supply) (config : Config) (helpers : Collaborators)
    (j : Journal) (requests : List Request) (query : String)
    (hkind : config.strategy ∈
      [Strategy.sequential, .slidingWindow, .buffer, .summarization]) :
    let c := Course.run supply requests (.opened config helpers j)
    ∃ o shown, c.Tells supply query o shown ∧ o.Counts shown ∧
      c.Shows helpers.summarizer shown ∧
      shown.length = (c.uncounted config helpers.summarizer).length + o.activeMessages := by
  cases config with
  | sequential =>
      obtain ⟨c, hrun, hall⟩ := Sequential.exists_all supply helpers j requests
      rw [hrun]
      exact ⟨_, c.memory.messages, ⟨rfl, rfl⟩, Occupancy.counts_uncompressed _,
        Course.shows_of_suffix _ (hall ▸ List.suffix_rfl), (Nat.zero_add _).symm⟩
  | slidingWindow limits =>
      obtain ⟨c, hrun, hsuffix⟩ := SlidingWindow.exists_suffix supply limits helpers j requests
      rw [hrun]
      exact ⟨_, c.memory.messages, ⟨rfl, rfl⟩, Occupancy.counts_uncompressed _,
        Course.shows_of_suffix _ hsuffix, (Nat.zero_add _).symm⟩
  | buffer limits =>
      obtain ⟨c, hrun, -, h⟩ := Buffer.exists_retaining supply limits helpers j requests
      rw [hrun]
      exact ⟨_, c.memory.messages, ⟨rfl, rfl⟩, Occupancy.counts_uncompressed _, h.shows,
        (Nat.zero_add _).symm⟩
  | summarization limits =>
      obtain ⟨c, hrun, -, h⟩ :=
        Summarization.exists_conserving supply limits helpers j requests
      rw [hrun]
      exact ⟨_, (c.memory.context supply c.journal).1, ⟨rfl, rfl⟩,
        Summarization.counts_context supply c.memory c.journal, h.shows supply c.journal,
        h.length_shown supply c.journal⟩
  | retrieval limits => exact absurd hkind (by simp [Config.strategy])
  | hierarchical limits => exact absurd hkind (by simp [Config.strategy])

/-- **Token counts never drift.** In every course of a memory that shows all it holds, the
number of messages is that of the messages shown, and the number of tokens, all of them
active, is the sum of the counts that these carry. What they carry is what they came with;
only a message that stands for a summary carries the estimate for a text that the summarizer
gave. -/
theorem tokens_never_drift (supply : Supply) (config : Config) (helpers : Collaborators)
    (j : Journal) (requests : List Request) (query : String)
    (hkind : config.strategy ∈
      [Strategy.sequential, .slidingWindow, .buffer, .summarization]) :
    let c := Course.run supply requests (.opened config helpers j)
    ∃ o shown, c.Tells supply query o shown ∧ o.Counts shown ∧
      c.Shows helpers.summarizer shown := by
  obtain ⟨o, shown, htells, hcounts, hshows, -⟩ :=
    exists_told supply config helpers j requests query hkind
  exact ⟨o, shown, htells, hcounts, hshows⟩

/-- After a call that failed and one that did not. The messages carry counts that do not
fit their texts; the summary carries the estimate for its text. -/
theorem tokens_never_drift_after_failure :
    let s : Summarizer := ⟨fun k _ => if k = 0 then .error (.summarization "away") else .ok "so far"⟩
    let c := Course.run ⟨fun _ => .epoch, fun _ => ""⟩
      [.add (sized "a" 5), .add (sized "b" 0), .add (sized "c" 7)]
      (.opened (.summarization ⟨1, 1⟩) { Collaborators.builtIn with summarizer := s } .empty)
    ∃ o shown, c.Tells ⟨fun _ => .epoch, fun _ => ""⟩ "" o shown ∧ o.Counts shown ∧
      shown.map (·.tokenCount) = [1, 7] := by
  intro s c
  obtain ⟨o, shown, htells, hcounts, -⟩ :=
    tokens_never_drift ⟨fun _ => .epoch, fun _ => ""⟩ (.summarization ⟨1, 1⟩)
      { Collaborators.builtIn with summarizer := s } .empty
      [.add (sized "a" 5), .add (sized "b" 0), .add (sized "c" 7)] "" (by decide)
  have hmemory : c.memory = .summarization ⟨⟨1, 1⟩, s, ["so far"], [sized "c" 7]⟩ := by rfl
  have hcontext : (c.memory.answer ⟨fun _ => .epoch, fun _ => ""⟩ (.context "") c.journal).1.1 =
      .messages [Summarization.summaryMessage .epoch 0 "so far", sized "c" 7] := by
    rw [hmemory]
    rfl
  refine ⟨o, shown, htells, hcounts, ?_⟩
  rw [Reply.messages.inj (htells.context.symm.trans hcontext)]
  decide

/-! ## Active messages -/

theorem Retrieval.length_answer (r : Retrieval) (e : Embedding) :
    (((placed (r.similarity e) r.messages).take r.answerSize).map Prod.fst).length =
      r.occupancy.activeMessages := by
  have hlen := (placed_perm (r.similarity e) r.messages).length_eq
  rw [List.length_map, List.length_take, hlen, List.length_zipIdx]
  exact Nat.min_eq_left (Nat.min_le_right _ _)

/-- **The active messages are those shown, except for summaries.** In every course of a memory
that is not hierarchical, as many messages are shown as are active and, in a summarizing
memory, as calls succeeded since it last forgot. So the number of active messages is that
of the messages shown exactly if there are no such summaries. -/
theorem active_messages_shown (supply : Supply) (config : Config) (helpers : Collaborators)
    (j : Journal) (requests : List Request) (query : String)
    (hkind : config.strategy ≠ .hierarchical) :
    let c := Course.run supply requests (.opened config helpers j)
    let summaries := c.uncounted config helpers.summarizer
    (config.strategy = .retrieval → ∃ e, (helpers.embedder.ask query c.journal).1 = .ok e) →
    ∃ o shown, c.Tells supply query o shown ∧
      shown.length = summaries.length + o.activeMessages ∧
      (o.activeMessages = shown.length ↔ summaries = []) := by
  intro c summaries hquery
  -- The second equation follows from the first.
  suffices h : ∃ o shown, c.Tells supply query o shown ∧
      shown.length = summaries.length + o.activeMessages by
    obtain ⟨o, shown, htells, hlen⟩ := h
    refine ⟨o, shown, htells, hlen, ?_⟩
    rw [← List.length_eq_zero_iff]
    omega
  have htold := exists_told supply config helpers j requests query
  cases config with
  | retrieval limits =>
      obtain ⟨d, hrun, -, h⟩ := Retrieval.exists_indexing supply limits helpers j requests
      have hc : c = d.lift .retrieval := hrun
      obtain ⟨e, he⟩ := hquery rfl
      rw [hc, ← h.embedder_eq] at he
      have hcontext := Retrieval.context_of_ask he
      rw [hc]
      refine ⟨_, _, ⟨rfl, congrArg Reply.ofMessages hcontext⟩, ?_⟩
      rw [Retrieval.length_answer]
      exact (Nat.zero_add _).symm
  | hierarchical limits => exact absurd rfl hkind
  | sequential | slidingWindow _ | buffer _ | summarization _ =>
      obtain ⟨o, shown, htells, -, -, hlen⟩ := htold (by simp [Config.strategy])
      exact ⟨o, shown, htells, hlen⟩

/-- Of three stored messages, an answer of two. -/
theorem active_messages_shown_of_three :
    let c := Course.run ⟨fun _ => .epoch, fun _ => ""⟩
      [.addAll [sized "a" 1, sized "b" 1, sized "c" 1]]
      (.opened (.retrieval ⟨2⟩) .builtIn .empty)
    ∃ o shown, c.Tells ⟨fun _ => .epoch, fun _ => ""⟩ "a" o shown ∧ o.totalMessages = 3 ∧
      o.activeMessages = 2 ∧ shown.length = 2 := by
  intro c
  obtain ⟨o, shown, htells, -, hiff⟩ :=
    active_messages_shown ⟨fun _ => .epoch, fun _ => ""⟩ (.retrieval ⟨2⟩) .builtIn .empty
      [.addAll [sized "a" 1, sized "b" 1, sized "c" 1]] "a" (by decide) (fun _ => ⟨_, rfl⟩)
  have ho := Reply.occupancy.inj htells.occupancy
  have htotal : o.totalMessages = 3 := ho ▸ rfl
  have hactive : o.activeMessages = 2 := ho ▸ rfl
  exact ⟨o, shown, htells, htotal, hactive, (hiff.mpr rfl).symm.trans hactive⟩

/-- **A summary is shown but not active.** With room for one message, the second one makes
the first a summary. Two messages are shown then, both with their tokens, and one is
active. -/
theorem summary_shown_not_active :
    let c := Course.run ⟨fun _ => .epoch, fun _ => ""⟩
      [.addAll [sized "a" 1, sized "b" 1]]
      (.opened (.summarization ⟨1, 1⟩) (saying "so far") .empty)
    ∃ o shown, c.Tells ⟨fun _ => .epoch, fun _ => ""⟩ "" o shown ∧
      ids shown = ["summary_0", "b"] ∧ o.activeTokens = totalTokens shown ∧
      o.activeMessages = 1 ∧ o.activeMessages ≠ shown.length := by
  intro c
  have hmemory : c.memory = .summarization ⟨⟨1, 1⟩, (saying "so far").summarizer, ["so far"],
      [sized "b" 1]⟩ := by rfl
  refine ⟨c.memory.occupancy,
    [Summarization.summaryMessage .epoch 0 "so far", sized "b" 1], ⟨rfl, ?_⟩, ?_⟩
  · rw [hmemory]
    rfl
  · rw [hmemory]
    decide

end Memory

end Recall
