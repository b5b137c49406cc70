import Recall.Proofs.Buffer.Limits
import Recall.Proofs.Course

/-!
# What a buffer retains

The buffer cuts its list again and again, with a summary in front that takes a place
and counts tokens; the law says that none of this is seen in the messages behind the
summary. They are what both limits keep of the whole history, cut once (`retained`).

The proof follows one message through its two compactions. A compaction is either
idle or leaves at most one new summary in front of the rest (`compact_cases`), and in
either case the messages behind the front are cut as if there were no front
(`cuts_messageSurplus`, `cuts_tokenSurplus`). The invariant of a course is weaker than
the law, **what is held is at least what is retained**, because contents that were
loaded are cut only when the next message comes.
-/

namespace Recall

/-- The message is the summary that one of the calls gave, as the buffer shows it. -/
def Message.Summarizes (calls : List Call) (x : Message) : Prop :=
  ∃ call ∈ calls, ∃ (id : String) (now : Instant) (text : String),
    call.reply = .ok text ∧ x = .make id now .system text

namespace Memory.Buffer

/-! ## One compaction -/

/-- What a compaction does: nothing, drop, put a summary in front, or drop because the
summarizer failed. -/
theorem compact_cases (supply : Supply) (count : Nat) (pressure : Pressure) (b : Buffer)
    (j : Journal) :
    (count = 0 ∧ b.compact supply count pressure j = (b, j)) ∨
    (count ≠ 0 ∧ b.limits.autoSummarize = false ∧
      b.compact supply count pressure j =
        ({ b with messages := b.messages.drop count },
          j.report (.bufferTrimmed count pressure))) ∨
    (count ≠ 0 ∧ b.limits.autoSummarize = true ∧
      ∃ text, (b.summarizer.ask (b.messages.take count) j).1 = .ok text ∧
        b.compact supply count pressure j =
          ({ b with messages :=
              Message.make (supply.freshId j.issued) (supply.clock j.readings) .system text ::
                b.messages.drop count },
            ((b.summarizer.ask (b.messages.take count) j).2.compose supply .system text).2.report
              (.bufferSummarized count pressure))) ∨
    (count ≠ 0 ∧ b.limits.autoSummarize = true ∧
      ∃ e, (b.summarizer.ask (b.messages.take count) j).1 = .error e ∧
        b.compact supply count pressure j =
          ({ b with messages := b.messages.drop count },
            (b.summarizer.ask (b.messages.take count) j).2.report
              (.bufferSummaryFailed count pressure e))) := by
  by_cases hcount : count = 0
  · exact Or.inl ⟨hcount, by simp [compact, hcount]⟩
  · refine Or.inr ?_
    cases hauto : b.limits.autoSummarize with
    | false => exact Or.inl ⟨hcount, rfl, by simp [compact, hcount, hauto]⟩
    | true =>
        refine Or.inr ?_
        cases hreply : (b.summarizer.ask (b.messages.take count) j).1 with
        | ok text =>
            refine Or.inl ⟨hcount, rfl, text, rfl, ?_⟩
            simp only [compact, hcount, hauto, hreply, if_false, Bool.not_true,
              Bool.false_eq_true]
            rfl
        | error e =>
            refine Or.inr ⟨hcount, rfl, e, rfl, ?_⟩
            simp [compact, hcount, hauto, hreply]

/-- What a change of a buffer leaves alone, with the calls that it made. -/
structure Continues (b : Buffer) (j : Journal) (after : Buffer × Journal)
    (made : List Call) : Prop where
  limits : after.1.limits = b.limits
  summarizer : after.1.summarizer = b.summarizer
  calls : b.summarizer.calls after.2 = b.summarizer.calls j ++ made
  silent : b.limits.autoSummarize = false → made = []

theorem Continues.trans {b : Buffer} {j : Journal} {next last : Buffer × Journal}
    {made more : List Call} (h : Continues b j next made)
    (h' : Continues next.1 next.2 last more) : Continues b j last (made ++ more) where
  limits := h'.limits.trans h.limits
  summarizer := h'.summarizer.trans h.summarizer
  calls := by
    have hcalls := h'.calls
    rw [h.summarizer] at hcalls
    rw [hcalls, h.calls, List.append_assoc]
  silent := fun hauto => by
    rw [h.silent hauto, h'.silent (h.limits ▸ hauto), List.append_nil]

theorem Continues.of_messages {b : Buffer} {messages : List Message} {j : Journal}
    {after : Buffer × Journal} {made : List Call}
    (h : Continues { b with messages } j after made) : Continues b j after made :=
  ⟨h.limits, h.summarizer, h.calls, h.silent⟩

theorem continues_quiet {b : Buffer} {j k : Journal} (hbatches : k.batches = j.batches)
    (messages : List Message) : Continues b j ({ b with messages }, k) [] := by
  constructor
  · rfl
  · rfl
  · rw [List.append_nil, Summarizer.calls, Summarizer.calls, hbatches]
  · intro _
    rfl

/-- A change that asks the summarizer once. -/
theorem continues_ask {b : Buffer} {j k : Journal} {batch : List Message}
    {reply : Except MemoryError String} (hauto : b.limits.autoSummarize = true)
    (hreply : (b.summarizer.ask batch j).1 = reply)
    (hbatches : k.batches = (b.summarizer.ask batch j).2.batches) (messages : List Message) :
    Continues b j ({ b with messages }, k) [⟨batch, reply⟩] := by
  constructor
  · rfl
  · rfl
  · rw [← hreply, ← b.summarizer.calls_ask, Summarizer.calls, Summarizer.calls, hbatches]
  · intro hoff
    rw [hoff] at hauto
    exact absurd hauto Bool.false_ne_true

/-! ## The front and the messages behind it -/

/-- The messages are `verbatim` behind a front of at most one summary. -/
def Fronted (calls : List Call) (messages verbatim : List Message) : Prop :=
  ∃ front : List Message, messages = front ++ verbatim ∧ front.length ≤ 1 ∧
    ∀ x ∈ front, x.Summarizes calls

theorem Fronted.weaken {calls : List Call} {messages verbatim : List Message}
    (h : Fronted calls messages verbatim) (made : List Call) :
    Fronted (calls ++ made) messages verbatim := by
  obtain ⟨front, hsplit, hlen, hfront⟩ := h
  refine ⟨front, hsplit, hlen, ?_⟩
  intro x hx
  obtain ⟨call, hcall, hreply⟩ := hfront x hx
  exact ⟨call, List.mem_append_left _ hcall, hreply⟩

theorem fronted_nil (calls : List Call) (messages : List Message) :
    Fronted calls messages messages :=
  ⟨[], rfl, Nat.zero_le _, by simp⟩

/-- Taking `count` messages away cuts `verbatim` to `rest`; taking none away leaves it as
it is. -/
def Cuts (count : Nat) (messages verbatim rest : List Message) : Prop :=
  (count = 0 ∧ rest = verbatim) ∨ (count ≠ 0 ∧ messages.drop count = rest)

/-- A compaction leaves the messages that its count says, behind a new front. -/
theorem compact_fronted (supply : Supply) {count : Nat} (pressure : Pressure) {b : Buffer}
    (j : Journal) {calls : List Call} {verbatim rest : List Message}
    (hf : Fronted calls b.messages verbatim) (hcut : Cuts count b.messages verbatim rest) :
    ∃ made, Continues b j (b.compact supply count pressure j) made ∧
      Fronted (calls ++ made) (b.compact supply count pressure j).1.messages rest := by
  have hrest : count ≠ 0 → b.messages.drop count = rest := by
    intro hcount
    rcases hcut with ⟨hzero, -⟩ | ⟨-, hdrop⟩
    · exact absurd hzero hcount
    · exact hdrop
  rcases compact_cases supply count pressure b j with
    ⟨hcount, h⟩ | ⟨hcount, -, h⟩ | ⟨hcount, hauto, text, hreply, h⟩ |
    ⟨hcount, hauto, e, hreply, h⟩
  · rw [h]
    refine ⟨[], continues_quiet rfl b.messages, ?_⟩
    rcases hcut with ⟨-, rfl⟩ | ⟨hne, -⟩
    · exact hf.weaken []
    · exact absurd hcount hne
  · rw [h, ← hrest hcount]
    exact ⟨[], continues_quiet (by rfl) _, fronted_nil _ _⟩
  · -- The old front is gone, and the new one is the text of this call.
    rw [h, ← hrest hcount]
    refine ⟨[⟨b.messages.take count, .ok text⟩], continues_ask hauto hreply (by rfl) _, ?_⟩
    refine ⟨[_], rfl, Nat.le_refl _, ?_⟩
    intro x hx
    rw [List.mem_singleton] at hx
    exact ⟨_, List.mem_append_right _ (List.mem_singleton_self _), _, _, text, rfl, hx⟩
  · rw [h, ← hrest hcount]
    exact ⟨[⟨b.messages.take count, .error e⟩], continues_ask hauto hreply (by rfl) _,
      fronted_nil _ _⟩

/-! ## The two limits cut the messages behind the front -/

/-- The message limit counts the summary, and still cuts the messages behind it to the
last ones that it allows. -/
theorem cuts_messageSurplus (limits : Config.Buffer) {front : List Message}
    (hfront : front.length ≤ 1) (verbatim : List Message) :
    Cuts (messageSurplus limits (front ++ verbatim)) (front ++ verbatim) verbatim
      (lastMessages limits.maxMessages verbatim) := by
  unfold messageSurplus lastMessages
  by_cases hlimit : limits.maxMessages = 0
  · exact Or.inl ⟨by rw [if_pos hlimit], by rw [if_pos hlimit]⟩
  · simp only [if_neg hlimit, List.length_append]
    by_cases hfits : front.length + verbatim.length ≤ limits.maxMessages
    · refine Or.inl ⟨by omega, ?_⟩
      rw [List.rtake, Nat.sub_eq_zero_of_le (by omega), List.drop_zero]
    · refine Or.inr ⟨by omega, ?_⟩
      have hcount : front.length + verbatim.length - limits.maxMessages =
          front.length + (verbatim.length - limits.maxMessages) := by omega
      rw [hcount, List.drop_append, List.drop_eq_nil_of_le (by omega), List.nil_append,
        Nat.add_sub_cancel_left]
      rfl

/-- Counted from the newest message back, one more message at the end of the scan can be
the crossing one, with nothing older than itself. -/
theorem olderThanCrossing_snoc {limit total : Nat} (hle : total ≤ limit)
    (newest : List Message) (oldest : Message) :
    olderThanCrossing limit total (newest ++ [oldest]) =
      if limit < total + totalTokens newest then
        olderThanCrossing limit total newest + 1
      else 0 := by
  induction newest generalizing total with
  | nil =>
      have hnone : ¬limit < total + totalTokens [] := Nat.not_lt_of_le hle
      rw [if_neg hnone]
      simp [olderThanCrossing]
  | cons m newest ih =>
      rw [List.cons_append, olderThanCrossing, olderThanCrossing, totalTokens, ← Nat.add_assoc]
      by_cases h : limit < total + m.tokenCount
      · simp only [if_pos h, List.length_append, List.length_singleton]
        rw [if_pos (by omega)]
      · simp only [if_neg h]
        exact ih (Nat.le_of_not_lt h)

theorem totalTokens_reverse (messages : List Message) :
    totalTokens messages.reverse = totalTokens messages := by
  induction messages with
  | nil => rfl
  | cons m messages ih =>
      rw [List.reverse_cons, totalTokens_append, ih, totalTokens, totalTokens, totalTokens]
      omega

/-- **The backward scan finds the shortest suffix over the limit.** -/
theorem drop_olderThanCrossing (limit : Nat) (messages : List Message) :
    messages.drop (olderThanCrossing limit 0 messages.reverse) =
      shortestOver limit messages := by
  induction messages with
  | nil => rfl
  | cons m later ih =>
      rw [List.reverse_cons, olderThanCrossing_snoc (Nat.zero_le limit), Nat.zero_add,
        totalTokens_reverse, shortestOver]
      split
      · rw [List.drop_succ_cons, ih]
      · rfl

theorem olderThanCrossing_of_le {limit : Nat} {messages : List Message}
    (hwithin : totalTokens messages ≤ limit) :
    olderThanCrossing limit 0 messages.reverse = 0 := by
  have hdrop := drop_olderThanCrossing limit messages
  rw [shortestOver_of_le hwithin] at hdrop
  have hlen := congrArg List.length hdrop
  have hle := olderThanCrossing_le limit 0 messages.reverse
  rw [List.length_drop] at hlen
  rw [List.length_reverse] at hle
  omega

/-- The token limit counts the summary, and still cuts the messages behind it to the
shortest suffix beyond it. -/
theorem cuts_tokenSurplus (limits : Config.Buffer) {front : List Message}
    (hfront : front.length ≤ 1) (verbatim : List Message) :
    Cuts (tokenSurplus limits (front ++ verbatim)) (front ++ verbatim) verbatim
      (lastTokens limits.maxTokens verbatim) := by
  unfold tokenSurplus lastTokens
  by_cases hlimit : limits.maxTokens = 0
  · exact Or.inl ⟨by rw [if_pos hlimit], by rw [if_pos hlimit]⟩
  · simp only [if_neg hlimit]
    have hdrop := drop_olderThanCrossing limits.maxTokens (front ++ verbatim)
    by_cases hover : limits.maxTokens < totalTokens verbatim
    · rw [shortestOver_append_of_lt hover] at hdrop
      by_cases hcount : olderThanCrossing limits.maxTokens 0 (front ++ verbatim).reverse = 0
      · -- Nothing is taken away, so the suffix is the whole list and there is no front.
        rw [hcount, List.drop_zero] at hdrop
        have hle := (shortestOver_suffix limits.maxTokens verbatim).length_le
        rw [← hdrop, List.length_append] at hle
        have hnil : front = [] := List.length_eq_zero_iff.mp (by omega)
        rw [hnil, List.nil_append] at hdrop
        exact Or.inl ⟨hcount, hdrop.symm⟩
      · exact Or.inr ⟨hcount, hdrop⟩
    · -- The scan can only cross at the front, and nothing is older than that.
      rw [shortestOver_of_le (Nat.le_of_not_lt hover)]
      refine Or.inl ⟨?_, rfl⟩
      cases front with
      | nil => exact olderThanCrossing_of_le (Nat.le_of_not_lt hover)
      | cons x front =>
          have hnil : front = [] := by simpa using hfront
          rw [hnil, List.cons_append, List.nil_append, List.reverse_cons,
            olderThanCrossing_snoc (Nat.zero_le _), if_neg]
          rwa [Nat.zero_add, totalTokens_reverse]

/-! ## A message comes -/

/-- A message passes both limits: what stands behind the front is cut by the one and then
by the other. -/
theorem add_fronted (supply : Supply) (m : Message) (b : Buffer) (j : Journal)
    {calls : List Call} {verbatim : List Message}
    (hf : Fronted calls b.messages verbatim) :
    ∃ made, Continues b j (b.add supply m j) made ∧
      Fronted (calls ++ made) (b.add supply m j).1.messages
        (lastTokens b.limits.maxTokens
          (lastMessages b.limits.maxMessages (verbatim ++ [m]))) := by
  obtain ⟨front, hsplit, hlen, hfront⟩ := hf
  have hgrown : b.messages ++ [m] = front ++ (verbatim ++ [m]) := by
    rw [hsplit, List.append_assoc]
  -- The message limit, on the list with the new message.
  have hcount := cuts_messageSurplus b.limits hlen (verbatim ++ [m])
  rw [← hgrown] at hcount
  obtain ⟨made, hcont, front', hsplit', hlen', hfront'⟩ :=
    compact_fronted supply .messageLimit (b := { b with messages := b.messages ++ [m] }) j
      ⟨front, hgrown, hlen, hfront⟩ hcount
  -- The token limit, on what the first compaction left behind its own front.
  have htokens := cuts_tokenSurplus b.limits hlen'
    (lastMessages b.limits.maxMessages (verbatim ++ [m]))
  rw [← hsplit'] at htokens
  obtain ⟨more, hcont', hfronted⟩ :=
    compact_fronted supply .tokenLimit _ ⟨front', hsplit', hlen', hfront'⟩ htokens
  refine ⟨made ++ more, (hcont.trans hcont').of_messages, ?_⟩
  rw [← List.append_assoc]
  exact hfronted

/-- What holds of a buffer that starts with its messages, and still holds when a message
comes, holds in every course of a buffer. -/
theorem exists_course {supply : Supply} {limits : Config.Buffer} {helpers : Collaborators}
    {P : Course Buffer → Prop}
    (fixed : ∀ c, P c →
      c.memory.limits = limits ∧ c.memory.summarizer = helpers.summarizer)
    (restarts : ∀ (b : Buffer) (j : Journal), b.limits = limits →
      b.summarizer = helpers.summarizer → P (Course.restarts b.messages (b, j)))
    (add : ∀ c m, c.Sound → P c → P (c.enters [m] (c.memory.add supply m c.journal)))
    (j : Journal) (requests : List Request) :
    ∃ c : Course Buffer,
      Course.run supply requests (.opened (.buffer limits) helpers j) = c.lift .buffer ∧
        c.Sound ∧ P c := by
  refine Course.buffer_run add ?_ ?_
    (c := Course.restarts [] (Buffer.opened limits helpers.summarizer j))
    (Course.sound_restarts _ _) (restarts _ _ rfl rfl) requests
  · intro c ms hc
    obtain ⟨hlimits, hs⟩ := fixed c hc
    exact restarts { c.memory with messages := ms } _ hlimits hs
  · intro c hc
    obtain ⟨hlimits, hs⟩ := fixed c hc
    exact restarts { c.memory with messages := [] } _ hlimits hs

/-- **The invariant of a buffer in use.** What is held verbatim is a suffix of the history,
and not shorter than what the limits retain of it. -/
structure Retaining (limits : Config.Buffer) (s : Summarizer) (c : Course Buffer) : Prop where
  limits_eq : c.memory.limits = limits
  summarizer_eq : c.memory.summarizer = s
  held : ∃ verbatim, Fronted (c.calls s) c.memory.messages verbatim ∧
    verbatim <:+ c.history ∧
    (retained limits.maxMessages limits.maxTokens c.history).length ≤ verbatim.length
  silent : limits.autoSummarize = false → c.calls s = []

theorem retaining_restarts {limits : Config.Buffer} {s : Summarizer} (b : Buffer) (j : Journal)
    (hlimits : b.limits = limits) (hs : b.summarizer = s) :
    Retaining limits s (Course.restarts b.messages (b, j)) where
  limits_eq := hlimits
  summarizer_eq := hs
  held := ⟨b.messages, fronted_nil _ _, List.suffix_rfl, (retained_suffix _ _ _).length_le⟩
  silent := fun _ => Course.calls_restarts _ _ _

/-- When a message comes, exactly what the limits retain is held. -/
theorem Retaining.exact {limits : Config.Buffer} {s : Summarizer} {c : Course Buffer}
    (h : Retaining limits s c) (hs : c.Sound) (supply : Supply) (m : Message) :
    Retaining limits s (c.enters [m] (c.memory.add supply m c.journal)) ∧
      Fronted ((c.enters [m] (c.memory.add supply m c.journal)).calls s)
        (c.memory.add supply m c.journal).1.messages
        (retained limits.maxMessages limits.maxTokens (c.history ++ [m])) := by
  obtain ⟨rfl, rfl, ⟨verbatim, hf, hsuffix, hlong⟩, hsilent⟩ := h
  obtain ⟨made, hcont, hfronted⟩ := add_fronted supply m c.memory c.journal hf
  have hcalls := Course.calls_enters hs _ hcont.calls [m]
  have hgrown : verbatim ++ [m] <:+ c.history ++ [m] :=
    List.suffix_append_self_iff.mpr hsuffix
  -- What was held was long enough, and the limits retain at most one message more now.
  have hgrownLong : (retained c.memory.limits.maxMessages c.memory.limits.maxTokens
      (c.history ++ [m])).length ≤ (verbatim ++ [m]).length := by
    have hone := length_retained_snoc c.memory.limits.maxMessages c.memory.limits.maxTokens
      c.history m
    rw [List.length_append, List.length_singleton]
    omega
  rw [retained_of_suffix hgrown hgrownLong, ← hcalls] at hfronted
  refine ⟨⟨hcont.limits, hcont.summarizer, ?_, ?_⟩, hfronted⟩
  · exact ⟨_, hfronted, retained_suffix _ _ _, Nat.le_refl _⟩
  · intro hauto
    rw [hcalls, hsilent hauto, hcont.silent hauto, List.append_nil]

/-- Every course of a buffer satisfies the invariant. -/
theorem exists_retaining (supply : Supply) (limits : Config.Buffer) (helpers : Collaborators)
    (j : Journal) (requests : List Request) :
    ∃ c : Course Buffer,
      Course.run supply requests (.opened (.buffer limits) helpers j) = c.lift .buffer ∧
        c.Sound ∧ Retaining limits helpers.summarizer c := by
  refine exists_course ?_ ?_ ?_ j requests
  · intro c h
    exact ⟨h.limits_eq, h.summarizer_eq⟩
  · intro b j hlimits hs
    exact retaining_restarts b j hlimits hs
  · intro c m hs h
    exact (h.exact hs supply m).1

/-- **Exact retention.** Adding a message to a buffer in use succeeds, and leaves at most
one summary in front of exactly what the limits retain of the messages that were loaded
last and came since. The messages behind the summary depend on the limits and on these
messages alone; without summarizing, and as long as all calls fail, there is no summary. -/
theorem add_retains_exactly (supply : Supply) (limits : Config.Buffer)
    (helpers : Collaborators) (j : Journal) (requests : List Request) (m : Message) :
    let c := Course.run supply requests (.opened (.buffer limits) helpers j)
    let next := Course.step supply c (.add m)
    (c.memory.answer supply (.add m) c.journal).1.1 = .done ∧
    ∃ front : List Message,
      next.memory = .buffer ⟨limits, helpers.summarizer,
        front ++ retained limits.maxMessages limits.maxTokens (c.history ++ [m])⟩ ∧
      front.length ≤ 1 ∧
      (∀ x ∈ front, x.Summarizes (next.calls helpers.summarizer)) ∧
      (limits.autoSummarize = false → front = []) ∧
      ((∀ call ∈ next.calls helpers.summarizer, call.text? = none) → front = []) := by
  obtain ⟨c, hrun, hs, h⟩ := exists_retaining supply limits helpers j requests
  obtain ⟨hnext, front, hsplit, hlen, hfront⟩ := h.exact hs supply m
  -- A summary in front is the text of some call, so there is none if all calls failed.
  have hnone : (∀ call ∈ (c.enters [m] (c.memory.add supply m c.journal)).calls
      helpers.summarizer, call.text? = none) → front = [] := by
    intro hfailed
    cases front with
    | nil => rfl
    | cons x front =>
        obtain ⟨call, hcall, id, now, text, hreply, -⟩ := hfront x List.mem_cons_self
        have htext := hfailed call hcall
        rw [Call.text?, hreply] at htext
        exact absurd htext (Option.some_ne_none text)
  rw [hrun]
  refine ⟨rfl, front, ?_, hlen, hfront, ?_, hnone⟩
  · have hlimits : (c.memory.add supply m c.journal).1.limits = limits := hnext.limits_eq
    have hsummarizer : (c.memory.add supply m c.journal).1.summarizer = helpers.summarizer :=
      hnext.summarizer_eq
    show Memory.buffer ⟨(c.memory.add supply m c.journal).1.limits,
      (c.memory.add supply m c.journal).1.summarizer,
      (c.memory.add supply m c.journal).1.messages⟩ = _
    rw [hlimits, hsummarizer, hsplit]
    rfl
  · intro hauto
    apply hnone
    rw [hnext.silent hauto]
    simp

end Memory.Buffer

end Recall
