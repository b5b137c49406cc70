import Recall.Proofs.Chronology
import Recall.Proofs.Summarization.Schedule

/-!
# What a summarizing memory shows

The context tells every summary in a message of its own, which is made for the occasion. Its
id and its text are those of the summary at that place (`summaryLabel`), and its instant is
borrowed from the oldest recent message.

**There is always a message to borrow from.** Summaries come from calls, and ever since its
first call a memory has had a full window (`Scheduling.full`), which is not empty, since a
limit of zero stands for the default. So the clock is read only where there is no summary to
be dated. A borrowed instant is not later than that of any recent message if those are in
order, which they are as a suffix of the history.

**Summaries are only ever appended** (`answer_grows`). So as long as the memory does not
forget, what told the summaries in one context is there again in every later one, at the same
place and under the same id; only the instant moves on.
-/

namespace Recall

theorem Config.Summarization.recentWindowSize_pos (limits : Config.Summarization) :
    1 ≤ limits.normalized.recentWindowSize :=
  orDefault_pos (by decide) limits.recentWindowSize

/-- What a message is known by in a later context: its id and its text. -/
def Message.label (m : Message) : String × String := (m.id, m.content)

namespace Memory.Summarization

/-- The label of the message that tells the summary at a place. -/
def summaryLabel (place : Nat) (summary : String) : String × String :=
  (s!"summary_{place}", "[Summary of earlier conversation]: " ++ summary)

/-- The messages tell the summaries in their order, one message each, all of them from the
system and at the instant of the oldest recent message. -/
structure Told (summaries : List String) (recent made : List Message) : Prop where
  labels : made.map Message.label = summaries.mapIdx summaryLabel
  system : ∀ x ∈ made, x.role = .system
  oldest : ∀ x ∈ made, ∃ oldest later, recent = oldest :: later ∧
    x.timestamp = oldest.timestamp

/-- What a memory shows for a query: messages that tell its summaries, and behind them the
recent messages. -/
structure Presents (supply : Supply) (query : String) (c : Course Memory) (s : Summarization)
    (made : List Message) : Prop where
  memory : c.memory = .summarization s
  context : c.reply supply (.context query) = .messages (made ++ s.recent)
  told : Told s.summaries s.recent made

/-! ## One context -/

/-- A memory with recent messages does not read the clock to tell its summaries. -/
theorem exists_told_of_recent (supply : Supply) {s : Summarization} (hrecent : s.recent ≠ [])
    (j : Journal) :
    (s.context supply j).2 = j ∧ ∃ made, (s.context supply j).1 = made ++ s.recent ∧
      Told s.summaries s.recent made := by
  obtain ⟨oldest, later, heq⟩ := List.exists_cons_of_ne_nil hrecent
  have htime : s.summaryTime supply j = (oldest.timestamp, j) := by
    rw [summaryTime, heq]
  refine ⟨congrArg Prod.snd htime, s.summaries.mapIdx (summaryMessage oldest.timestamp), ?_,
    ?_, ?_, ?_⟩
  · rw [context, htime]
  · rw [List.mapIdx_eq_zipIdx_map, List.map_map, List.mapIdx_eq_zipIdx_map]
    rfl
  · intro x hx
    obtain ⟨place, hplace, rfl⟩ := List.mem_mapIdx.mp hx
    rfl
  · intro x hx
    obtain ⟨place, hplace, rfl⟩ := List.mem_mapIdx.mp hx
    exact ⟨oldest, later, heq, rfl⟩

/-- Without summaries there is nothing to tell. -/
theorem context_of_no_summaries (supply : Supply) {s : Summarization} (hnone : s.summaries = [])
    (j : Journal) : (s.context supply j).1 = [] ++ s.recent ∧ Told s.summaries s.recent [] := by
  constructor
  · rw [context, hnone]
    rfl
  · have hlabels : ([] : List Message).map Message.label = s.summaries.mapIdx summaryLabel := by
      rw [hnone]
      rfl
    exact ⟨hlabels, by simp, by simp⟩

theorem Told.chronological {summaries : List String} {recent made : List Message}
    (h : Told summaries recent made) (hrecent : Chronological recent) :
    Chronological (made ++ recent) := by
  cases made with
  | nil => exact hrecent
  | cons x made =>
      obtain ⟨oldest, later, rfl, -⟩ := h.oldest x List.mem_cons_self
      apply hrecent.append_dated
      intro y hy
      obtain ⟨_, _, heq, hdated⟩ := h.oldest y hy
      rw [hdated, (List.cons.inj heq).1]

/-! ## Summaries grow -/

theorem add_grows (m : Message) (s : Summarization) (j : Journal) :
    s.summaries <+: (s.add m j).1.2.summaries := by
  obtain ⟨made, -, -, hsummaries, -⟩ := add_conserves m s j
  exact ⟨_, hsummaries.symm⟩

theorem addAll_grows (supply : Supply) (ms : List Message) (s : Summarization) (j : Journal) :
    ∃ t : Summarization, (addAll supply ms (.summarization s) j).1.2 = .summarization t ∧
      s.summaries <+: t.summaries := by
  induction ms generalizing s j with
  | nil => exact ⟨s, rfl, List.prefix_rfl⟩
  | cons m ms ih =>
      have hone := add_grows m s j
      unfold addAll
      dsimp only
      split
      · exact ⟨_, rfl, hone⟩
      · obtain ⟨t, ht, hrest⟩ := ih (s.add m j).1.2 (s.add m j).2
        exact ⟨t, ht, hone.trans hrest⟩

/-- A memory that is not told to forget keeps its summaries, whatever else is asked of it. -/
theorem answer_grows (supply : Supply) {r : Request} (hr : r ≠ .clear) (s : Summarization)
    (j : Journal) :
    ∃ t : Summarization,
      (Memory.answer supply r (.summarization s) j).1.2 = .summarization t ∧
      s.summaries <+: t.summaries := by
  cases r with
  | add m => exact ⟨_, rfl, add_grows m s j⟩
  | addAll ms => exact addAll_grows supply ms s j
  | clear => exact absurd rfl hr
  | _ => exact ⟨s, rfl, List.prefix_rfl⟩

theorem run_grows (supply : Supply) {requests : List Request} (hforget : .clear ∉ requests)
    {c : Course Memory} {s : Summarization} (hc : c.memory = .summarization s) :
    ∃ t : Summarization, (Course.run supply requests c).memory = .summarization t ∧
      s.summaries <+: t.summaries := by
  induction requests generalizing c s with
  | nil => exact ⟨s, hc, List.prefix_rfl⟩
  | cons r requests ih =>
      have hr : r ≠ .clear := fun heq => hforget (heq ▸ List.mem_cons_self)
      have hrest : .clear ∉ requests := fun hmem => hforget (List.mem_cons_of_mem _ hmem)
      obtain ⟨t, ht, hone⟩ := answer_grows supply hr s c.journal
      rw [← hc, ← Course.memory_step] at ht
      obtain ⟨u, hu, hmore⟩ := ih hrest ht
      exact ⟨u, hu, hone.trans hmore⟩

theorem Told.labels_prefix {summaries summaries' : List String}
    {recent recent' made made' : List Message} (h : Told summaries recent made)
    (h' : Told summaries' recent' made') (hgrown : summaries <+: summaries') :
    made.map Message.label <+: made'.map Message.label := by
  obtain ⟨added, rfl⟩ := hgrown
  rw [h.labels, h'.labels, List.mapIdx_append]
  exact List.prefix_append _ _

/-! ## Courses -/

/-- In every course the memory has something to show, and what it shows is dated by a full
window and never by the clock. -/
theorem exists_presented (supply : Supply) (limits : Config.Summarization)
    (helpers : Collaborators) (j : Journal) (requests : List Request) (query : String) :
    let c := Course.run supply requests (.opened (.summarization limits) helpers j)
    ∃ (s : Summarization) (made : List Message), Presents supply query c s made ∧
      s.recent <:+ c.history ∧ (s.summaries ≠ [] →
        limits.normalized.recentWindowSize ≤ s.recent.length ∧
        (c.memory.answer supply (.context query) c.journal).2 = c.journal) := by
  obtain ⟨c, hrun, -, h⟩ := exists_scheduling supply limits helpers j requests
  have hsuffix : c.memory.recent <:+ c.history := ⟨_, h.conserving.history_eq⟩
  rw [hrun]
  by_cases hnone : c.memory.summaries = []
  · obtain ⟨hcontext, htold⟩ := context_of_no_summaries supply hnone c.journal
    exact ⟨c.memory, [], ⟨rfl, congrArg Reply.messages hcontext, htold⟩, hsuffix,
      fun hsome => absurd hnone hsome⟩
  · -- A summary comes from a call, so the window is full.
    have hcalls : c.calls helpers.summarizer ≠ [] := by
      intro hnil
      rw [h.conserving.summaries_eq, hnil] at hnone
      exact hnone rfl
    have hfull := h.full hcalls
    have hrecent : c.memory.recent ≠ [] :=
      List.length_pos_iff.mp (limits.recentWindowSize_pos.trans hfull)
    obtain ⟨hjournal, made, hcontext, htold⟩ :=
      exists_told_of_recent supply hrecent c.journal
    exact ⟨c.memory, made, ⟨rfl, congrArg Reply.messages hcontext, htold⟩, hsuffix,
      fun _ => ⟨hfull, hjournal⟩⟩

/-- **What a summarizing memory shows.** In every course of a summarizing memory, the context
is one message for each summary in their order, at the instant of the oldest recent message,
and behind them the recent messages. If there is a summary, the window is full, and it is
never empty, so that the clock is not read. If the messages since the memory last forgot came
in chronological order, the context is in that order. And whatever is asked later, as long
as the memory does not forget, the ids and texts that told the summaries are the first of
those that tell them then. -/
theorem context_tells_summaries (supply : Supply) (limits : Config.Summarization)
    (helpers : Collaborators) (j : Journal) (requests : List Request) (query : String) :
    let c := Course.run supply requests (.opened (.summarization limits) helpers j)
    let R := limits.normalized.recentWindowSize
    ∃ (s : Summarization) (made : List Message), Presents supply query c s made ∧
      1 ≤ R ∧ (s.summaries ≠ [] → R ≤ s.recent.length ∧
        (c.memory.answer supply (.context query) c.journal).2 = c.journal) ∧
      (Chronological c.history → Chronological (made ++ s.recent)) ∧
      ∀ (more : List Request) (query' : String), .clear ∉ more →
        ∃ (s' : Summarization) (made' : List Message),
          Presents supply query' (Course.run supply more c) s' made' ∧
          made.map Message.label <+: made'.map Message.label := by
  intro c R
  obtain ⟨s, made, hshown, hsuffix, hfull⟩ :=
    exists_presented supply limits helpers j requests query
  refine ⟨s, made, hshown, limits.recentWindowSize_pos, hfull, ?_, ?_⟩
  · intro hordered
    exact hshown.told.chronological (hordered.of_suffix hsuffix)
  · intro more query' hforget
    -- The later course is one of the same memory, with more requests.
    obtain ⟨s', made', hlater, -⟩ :=
      exists_presented supply limits helpers j (requests ++ more) query'
    have hrun : Course.run supply (requests ++ more) (.opened (.summarization limits) helpers j) =
        Course.run supply more c := List.foldl_append
    rw [hrun] at hlater
    obtain ⟨t, ht, hgrown⟩ := run_grows supply hforget hshown.memory
    obtain rfl := Memory.summarization.inj (hlater.memory.symm.trans ht)
    exact ⟨s', made', hlater, hshown.told.labels_prefix hlater.told hgrown⟩

/-- With a window of one message, the second message makes the first summary and the third
one the second. The first summary is told again. -/
theorem summary_told_again :
    let supply : Supply := ⟨fun _ => .epoch, fun _ => ""⟩
    let said (id : String) : Message := .make id .epoch .user id
    let c := Course.run supply [.addAll [said "a", said "b"]]
      (.opened (.summarization ⟨1, 1⟩) .builtIn .empty)
    let later := Course.run supply [.context "", .add (said "c")] c
    ∃ (s : Summarization) (made : List Message) (s' : Summarization) (made' : List Message),
      Presents supply "" c s made ∧ ids (made ++ s.recent) = ["summary_0", "b"] ∧
      Presents supply "" later s' made' ∧
      ids (made' ++ s'.recent) = ["summary_0", "summary_1", "c"] ∧
      made.map Message.label <+: made'.map Message.label := by
  intro supply said c later
  obtain ⟨s, made, hshown, -, -, -, hlater⟩ :=
    context_tells_summaries supply ⟨1, 1⟩ .builtIn .empty [.addAll [said "a", said "b"]] ""
  obtain ⟨s', made', hshown', hprefix⟩ := hlater [.context "", .add (said "c")] "" (by simp)
  obtain ⟨shown, hreply, hids⟩ : ∃ shown, c.reply supply (.context "") = .messages shown ∧
      ids shown = ["summary_0", "b"] := ⟨_, rfl, by decide⟩
  obtain ⟨shown', hreply', hids'⟩ : ∃ shown, later.reply supply (.context "") =
      .messages shown ∧ ids shown = ["summary_0", "summary_1", "c"] := ⟨_, rfl, by decide⟩
  rw [Reply.messages.inj (hreply.symm.trans hshown.context)] at hids
  rw [Reply.messages.inj (hreply'.symm.trans hshown'.context)] at hids'
  exact ⟨s, made, s', made', hshown, hids, hshown', hids', hprefix⟩

end Memory.Summarization

end Recall
