import Recall.Proofs.Occupancy

/-!
# Whether made messages are counted like all others

A message that a caller makes carries the estimate for its own text, and so does the summary
in front of a buffer, which is made in the same way. A summarizing memory makes its messages
for the occasion: it puts a heading in front of the summary and counts the summary alone.
The heading has 35 bytes, which are eight tokens and three bytes left over. **So the message
that tells a summary is counted with eight tokens too few, or nine** if the bytes left over
and those of the summary make up one more.

The occupancy adds up the counts, and the texts are what is sent to the model. Where callers
count their messages like this, the two agree for a buffer. For a summarizing memory they
are apart by eight or nine tokens for each summary.
-/

namespace Recall

/-- The message carries the estimate for its own text. -/
def Message.Counted (m : Message) : Prop := m.tokenCount = estimateTokens m.content

instance (m : Message) : Decidable m.Counted := inferInstanceAs (Decidable (_ = _))

/-- The estimate for the texts of some messages, whatever counts they carry. -/
def textTokens (messages : List Message) : Nat :=
  (messages.map fun m => estimateTokens m.content).sum

theorem textTokens_append (messages others : List Message) :
    textTokens (messages ++ others) = textTokens messages + textTokens others := by
  rw [textTokens, List.map_append, List.sum_append]
  rfl

/-- If each message is counted with a number of tokens too few that is between two bounds,
then so are all of them together. -/
theorem textTokens_between {few many : Nat} {messages : List Message}
    (h : ∀ m ∈ messages, m.tokenCount + few ≤ estimateTokens m.content ∧
      estimateTokens m.content ≤ m.tokenCount + many) :
    totalTokens messages + few * messages.length ≤ textTokens messages ∧
      textTokens messages ≤ totalTokens messages + many * messages.length := by
  induction messages with
  | nil => exact ⟨Nat.le_refl _, Nat.le_refl _⟩
  | cons m messages ih =>
      obtain ⟨hfew, hmany⟩ := h m List.mem_cons_self
      obtain ⟨ihfew, ihmany⟩ := ih fun n hn => h n (List.mem_cons_of_mem _ hn)
      rw [textTokens, List.map_cons, List.sum_cons, totalTokens, List.length_cons, Nat.mul_succ,
        Nat.mul_succ]
      unfold textTokens at ihfew ihmany
      omega

theorem textTokens_of_counted {messages : List Message} (h : ∀ m ∈ messages, m.Counted) :
    textTokens messages = totalTokens messages := by
  have hbetween := @textTokens_between 0 0 messages
    fun m hm => ⟨(h m hm).le, (h m hm).ge⟩
  omega

namespace Memory

open Buffer (saying)

/-! ## Buffers -/

/-- Of a buffer, the messages that stand for summaries are those of a front; they say what a
call gave and carry the estimate for it. -/
theorem Buffer.Retaining.counted {limits : Config.Buffer} {s : Summarizer} {c : Course Buffer}
    (h : Buffer.Retaining limits s c) :
    ∃ made verbatim, c.memory.messages = made ++ verbatim ∧ verbatim <:+ c.history ∧
      made.length ≤ 1 ∧
      ∀ x ∈ made, (∃ call ∈ c.calls s, call.reply = .ok x.content) ∧ x.Counted := by
  obtain ⟨verbatim, ⟨front, hsplit, hlength, hfront⟩, hsuffix, -⟩ := h.held
  refine ⟨front, verbatim, hsplit, hsuffix, hlength, ?_⟩
  intro x hx
  obtain ⟨call, hcall, id, now, text, hreply, rfl⟩ := hfront x hx
  exact ⟨⟨call, hcall, hreply⟩, rfl⟩

/-- Where callers count their messages, all messages of a buffer are counted. -/
theorem Buffer.Retaining.activeTokens {limits : Config.Buffer} {s : Summarizer}
    {c : Course Buffer} (h : Buffer.Retaining limits s c) (hcounted : ∀ m ∈ c.history, m.Counted) :
    c.memory.occupancy.activeTokens = textTokens c.memory.messages := by
  obtain ⟨made, verbatim, hsplit, hsuffix, -, hmade⟩ := h.counted
  apply Eq.symm
  apply textTokens_of_counted
  rw [hsplit]
  intro m hm
  rcases List.mem_append.mp hm with hm | hm
  · exact (hmade m hm).2
  · exact hcounted m (hsuffix.subset hm)

/-! ## Summarizing memories -/

namespace Summarization

def heading : String := "[Summary of earlier conversation]: "

theorem estimateTokens_headed (text : String) :
    estimateTokens (heading ++ text) =
      estimateTokens text + if text.utf8ByteSize % 4 = 0 then 8 else 9 := by
  have hsize : (heading ++ text).utf8ByteSize = 35 + text.utf8ByteSize := by
    rw [String.utf8ByteSize_append]
    rfl
  rw [estimateTokens, hsize, estimateTokens]
  split <;> omega

/-- What is true of each message that is made of a text is true of all of them. -/
theorem map_mapIdx_eq {β : Type} {make : Nat → String → Message} {f : Message → β}
    {g : String → β} (h : ∀ place text, f (make place text) = g text) (texts : List String) :
    (texts.mapIdx make).map f = texts.map g := by
  apply List.ext_getElem
  · rw [List.length_map, List.length_mapIdx, List.length_map]
  · intro place hplace hplace'
    rw [List.getElem_map, List.getElem_mapIdx, List.getElem_map, h]

/-- Of a summarizing memory, the messages that tell summaries say what the calls gave, under
a heading, and are counted without it. -/
theorem Conserving.headed {limits : Config.Summarization} {s : Summarizer}
    {c : Course Summarization} (h : Conserving limits s c) (supply : Supply) (j : Journal) :
    ∃ made, (c.memory.context supply j).1 = made ++ c.memory.recent ∧
      made.map (·.content) = ((c.calls s).filterMap Call.text?).map (heading ++ ·) ∧
      made.map (·.tokenCount) = ((c.calls s).filterMap Call.text?).map estimateTokens ∧
      ∀ x ∈ made, estimateTokens x.content = x.tokenCount + 8 ∨
        estimateTokens x.content = x.tokenCount + 9 := by
  rw [← h.summaries_eq]
  refine ⟨_, rfl, ?_, ?_, ?_⟩
  · apply map_mapIdx_eq
    exact fun place text => rfl
  · apply map_mapIdx_eq
    exact fun place text => rfl
  · intro x hx
    obtain ⟨place, hplace, rfl⟩ := List.mem_mapIdx.mp hx
    have hheaded := estimateTokens_headed c.memory.summaries[place]
    split at hheaded
    · exact Or.inl hheaded
    · exact Or.inr hheaded

/-- Where callers count their messages, only the headings are missing. -/
theorem Conserving.activeTokens_between {limits : Config.Summarization} {s : Summarizer}
    {c : Course Summarization} (h : Conserving limits s c)
    (hcounted : ∀ m ∈ c.history, m.Counted) (supply : Supply) (j : Journal) :
    c.memory.occupancy.activeTokens + 8 * ((c.calls s).filterMap Call.text?).length ≤
        textTokens (c.memory.context supply j).1 ∧
      textTokens (c.memory.context supply j).1 ≤
        c.memory.occupancy.activeTokens + 9 * ((c.calls s).filterMap Call.text?).length := by
  obtain ⟨made, hcontext, -, htokens, hshort⟩ := h.headed supply j
  have hlength := congrArg List.length htokens
  rw [List.length_map, List.length_map] at hlength
  have hrecent : textTokens c.memory.recent = totalTokens c.memory.recent := by
    apply textTokens_of_counted
    intro m hm
    exact hcounted m (h.history_eq ▸ List.mem_append_right _ hm)
  have hmade : totalTokens made + 8 * made.length ≤ textTokens made ∧
      textTokens made ≤ totalTokens made + 9 * made.length := by
    apply textTokens_between
    intro x hx
    have hx := hshort x hx
    omega
  have hactive := (counts_context supply c.memory j).activeTokens
  rw [← totalTokens_eq_sum, hcontext, totalTokens_append] at hactive
  rw [hactive, hcontext, textTokens_append, hrecent, ← hlength]
  omega

end Summarization

/-- **What a memory makes is counted like all else, except for a heading.** In every course of
a buffer the shown messages that stand for summaries carry the estimate for their own text;
in every course of a summarizing memory they carry eight or nine tokens less, since their
texts begin with a heading that is not counted. So if all messages since the memory last
forgot came with the estimates for their texts, the active tokens of a buffer are the
estimate for what is shown, and those of a summarizing memory fall short of it by eight or
nine for each summary. -/
theorem made_counted_without_heading (supply : Supply) (config : Config)
    (helpers : Collaborators) (j : Journal) (requests : List Request) (query : String)
    (hkind : config.strategy ∈ [Strategy.buffer, .summarization]) :
    let c := Course.run supply requests (.opened config helpers j)
    let calls := c.calls helpers.summarizer
    let texts := calls.filterMap Call.text?
    ∃ (o : Occupancy) (shown made verbatim : List Message),
      c.Tells supply query o shown ∧ shown = made ++ verbatim ∧ verbatim <:+ c.history ∧
      (config.strategy = .buffer →
        made.length ≤ 1 ∧
        (∀ x ∈ made, (∃ call ∈ calls, call.reply = .ok x.content) ∧ x.Counted) ∧
        ((∀ m ∈ c.history, m.Counted) → o.activeTokens = textTokens shown)) ∧
      (config.strategy = .summarization →
        made.map (·.content) = texts.map (Summarization.heading ++ ·) ∧
        made.map (·.tokenCount) = texts.map estimateTokens ∧
        (∀ x ∈ made, estimateTokens x.content = x.tokenCount + 8 ∨
          estimateTokens x.content = x.tokenCount + 9) ∧
        ((∀ m ∈ c.history, m.Counted) →
          o.activeTokens + 8 * texts.length ≤ textTokens shown ∧
          textTokens shown ≤ o.activeTokens + 9 * texts.length)) := by
  cases config with
  | buffer limits =>
      obtain ⟨c, hrun, -, h⟩ := Buffer.exists_retaining supply limits helpers j requests
      obtain ⟨made, verbatim, hsplit, hsuffix, hlength, hmade⟩ := h.counted
      rw [hrun]
      refine ⟨c.memory.occupancy, c.memory.messages, made, verbatim, ⟨rfl, rfl⟩, hsplit,
        hsuffix, fun _ => ⟨hlength, hmade, h.activeTokens⟩, ?_⟩
      exact fun hother => absurd hother (by simp [Config.strategy])
  | summarization limits =>
      obtain ⟨c, hrun, -, h⟩ :=
        Summarization.exists_conserving supply limits helpers j requests
      obtain ⟨made, hcontext, hcontent, htokens, hshort⟩ := h.headed supply c.journal
      rw [hrun]
      refine ⟨c.memory.occupancy, _, made, c.memory.recent, ⟨rfl, rfl⟩, hcontext,
        ⟨_, h.history_eq⟩, ?_, fun _ => ⟨hcontent, htokens, hshort, ?_⟩⟩
      · exact fun hother => absurd hother (by simp [Config.strategy])
      · intro hcounted
        exact h.activeTokens_between hcounted supply c.journal
  | sequential | slidingWindow | retrieval | hierarchical =>
      exact absurd hkind (by simp [Config.strategy])

/-- The summary in front of a buffer is counted like the message behind it. -/
theorem counted_in_buffer :
    let supply : Supply := ⟨fun _ => .epoch, fun _ => "summary"⟩
    let c := Course.run supply
      [.addAll [.make "a" .epoch .user "alpha", .make "b" .epoch .user "beta"]]
      (.opened (.buffer ⟨1, 0, true⟩) (saying "so far") .empty)
    ∃ o shown, c.Tells supply "" o shown ∧ ids shown = ["summary", "b"] ∧
      o.activeTokens = textTokens shown ∧ textTokens shown = 2 := by
  intro supply c
  obtain ⟨o, shown, made, verbatim, htells, -, -, hbuffer, -⟩ :=
    made_counted_without_heading supply (.buffer ⟨1, 0, true⟩) (saying "so far") .empty
      [.addAll [.make "a" .epoch .user "alpha", .make "b" .epoch .user "beta"]] ""
      (by decide)
  have hactive := (hbuffer rfl).2.2 (by decide)
  have hmemory : c.memory = .buffer ⟨⟨1, 0, true⟩, (saying "so far").summarizer,
      [.make "summary" .epoch .system "so far", .make "b" .epoch .user "beta"]⟩ := by rfl
  have hcontext : (c.memory.answer supply (.context "") c.journal).1.1 =
      .messages [.make "summary" .epoch .system "so far", .make "b" .epoch .user "beta"] := by
    rw [hmemory]
    rfl
  obtain rfl := Reply.messages.inj (htells.context.symm.trans hcontext)
  exact ⟨o, _, htells, by decide, hactive, by decide⟩

/-- **The heading is not counted.** With room for one message, the second one makes the
first a summary of one token. What tells it has ten, and so eleven are shown, while two are
active. -/
theorem heading_not_counted :
    let supply : Supply := ⟨fun _ => .epoch, fun _ => ""⟩
    let c := Course.run supply
      [.addAll [.make "a" .epoch .user "alpha", .make "b" .epoch .user "beta"]]
      (.opened (.summarization ⟨1, 1⟩) (saying "so far") .empty)
    (∀ m ∈ c.history, m.Counted) ∧ ∃ o x b, c.Tells supply "" o [x, b] ∧
      x.id = "summary_0" ∧ x.content = "[Summary of earlier conversation]: so far" ∧
      x.tokenCount = 1 ∧ estimateTokens x.content = 10 ∧ ¬x.Counted ∧
      o.activeTokens = 2 ∧ textTokens [x, b] = 11 := by
  intro supply c
  have hmemory : c.memory = .summarization ⟨⟨1, 1⟩, (saying "so far").summarizer, ["so far"],
      [.make "b" .epoch .user "beta"]⟩ := by rfl
  refine ⟨by decide, c.memory.occupancy, Summarization.summaryMessage .epoch 0 "so far",
    .make "b" .epoch .user "beta", ⟨rfl, ?_⟩, ?_⟩
  · rw [hmemory]
    rfl
  · rw [hmemory]
    decide

end Memory

end Recall
