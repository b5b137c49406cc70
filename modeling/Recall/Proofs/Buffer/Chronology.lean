import Recall.Proofs.Buffer.Budget
import Recall.Proofs.Chronology

/-!
# When a buffer is in chronological order

Messages that come in order stay in order, because a buffer holds a suffix of them. A
summary stands in front of them for messages that are older, but it is stamped when it is
made, like any other message, and by then all messages behind it have come. So a summary is
never earlier than the oldest message behind it (`Late`), and **the buffer is in order
exactly if the summary is not later than that message either**.

A message that comes finds every message that is held in the past of its clock, and the
clock does not go back between the two limits (`add_late`). What a limit leaves is never
empty, so a new summary has a message behind it; an old summary keeps the message that it
has, since a limit that takes anything away takes the summary first.
-/

namespace Recall

/-- All messages since the memory last forgot were added to it, in chronological order, and
none was later than the clock when it was added. -/
structure Course.Timely {σ : Type} (supply : Supply) (c : Course σ) (past : List Addition) :
    Prop where
  history_eq : past.map Addition.message = c.history
  ordered : Chronological c.history
  prompt : ∀ a ∈ past, a.message.timestamp ≤ supply.clock a.journal.readings

section Timely

variable {σ : Type} {supply : Supply} {c : Course σ} {past : List Addition} {m : Message}
  {memory : Memory} {j : Journal} {after : σ × Journal}

theorem Course.Timely.before
    (h : (c.enters [m] after).Timely supply (past ++ [⟨m, memory, j⟩])) :
    c.Timely supply past := by
  have hhistory : past.map Addition.message ++ [m] = c.history ++ [m] := by
    have heq := h.history_eq
    rwa [List.map_append] at heq
  refine ⟨List.append_cancel_right hhistory, h.ordered.of_snoc.1, ?_⟩
  intro a ha
  exact h.prompt a (List.mem_append_left _ ha)

/-- When a message is added, no message that came is later than the clock. -/
theorem Course.Timely.le_clock
    (h : (c.enters [m] after).Timely supply (past ++ [⟨m, memory, j⟩])) :
    ∀ n ∈ c.history ++ [m], n.timestamp ≤ supply.clock j.readings := by
  have hlast : m.timestamp ≤ supply.clock j.readings :=
    h.prompt ⟨m, memory, j⟩ (List.mem_append_right _ (List.mem_singleton_self _))
  intro n hn
  rcases List.mem_append.mp hn with hn | hn
  · exact (h.ordered.of_snoc.2 n hn).trans hlast
  · rwa [List.mem_singleton.mp hn]

end Timely

namespace Memory.Buffer

/-! ## A front that is late -/

/-- The front is at most one message, and not earlier than the oldest message behind it. -/
structure Late (front behind : List Message) : Prop where
  length_le : front.length ≤ 1
  oldest_le : ∀ x ∈ front, ∃ oldest later, behind = oldest :: later ∧
    oldest.timestamp ≤ x.timestamp

theorem late_nil (behind : List Message) : Late [] behind :=
  ⟨Nat.zero_le 1, by simp⟩

/-- A message is late in front of messages that had come when it was stamped. -/
theorem late_singleton {x : Message} {behind : List Message} (hne : behind ≠ [])
    (hstamped : ∀ m ∈ behind, m.timestamp ≤ x.timestamp) : Late [x] behind := by
  obtain ⟨oldest, later, rfl⟩ := List.exists_cons_of_ne_nil hne
  refine ⟨Nat.le_refl 1, ?_⟩
  intro y hy
  obtain rfl := List.mem_singleton.mp hy
  exact ⟨oldest, later, rfl, hstamped oldest List.mem_cons_self⟩

theorem Late.snoc {front behind : List Message} (h : Late front behind) (m : Message) :
    Late front (behind ++ [m]) := by
  refine ⟨h.length_le, ?_⟩
  intro x hx
  obtain ⟨oldest, later, rfl, hle⟩ := h.oldest_le x hx
  exact ⟨oldest, later ++ [m], rfl, hle⟩

/-- A late front is in order exactly if it has the instant of the oldest message behind
it. -/
theorem Late.chronological_iff {front behind : List Message} (h : Late front behind)
    (hbehind : Chronological behind) : Chronological (front ++ behind) ↔
      ∀ x ∈ front, ∀ oldest ∈ behind.head?, x.timestamp = oldest.timestamp := by
  cases front with
  | nil => exact ⟨fun _ x hx => absurd hx List.not_mem_nil, fun _ => hbehind⟩
  | cons x front =>
      have hnil : front = [] := by simpa using h.length_le
      obtain ⟨oldest, later, rfl, hle⟩ := h.oldest_le x List.mem_cons_self
      subst hnil
      rw [List.singleton_append, chronological_cons_cons hbehind]
      simp only [List.mem_singleton, forall_eq, List.head?_cons, Option.mem_some_iff]
      constructor
      · intro hge _ heq
        exact heq ▸ le_antisymm hge hle
      · intro heq
        exact (heq oldest rfl).le

/-! ## What the limits leave is not empty -/

theorem lastMessages_ne_nil (limit : Nat) {l : List Message} (hne : l ≠ []) :
    lastMessages limit l ≠ [] := by
  have hpos := List.length_pos_iff.mpr hne
  apply List.length_pos_iff.mp
  rw [length_lastMessages]
  split <;> omega

theorem lastTokens_ne_nil (limit : Nat) {l : List Message} (hne : l ≠ []) :
    lastTokens limit l ≠ [] := by
  unfold lastTokens
  split
  · exact hne
  · obtain ⟨crossing, later, heq, -⟩ := shortestOver_eq_cons limit hne
    rw [heq]
    exact List.cons_ne_nil _ _

/-! ## A message comes -/

/-- A compaction at a time when all that it leaves had come leaves a late front. -/
theorem compact_late {supply : Supply} {count : Nat} (pressure : Pressure) {b : Buffer}
    {j : Journal} {front behind rest : List Message} (hsplit : b.messages = front ++ behind)
    (hlate : Late front behind) (hcut : Cuts count b.messages behind rest) (hne : rest ≠ [])
    (hpast : ∀ m ∈ rest, m.timestamp ≤ supply.clock j.readings) :
    ∃ front', (b.compact supply count pressure j).1.messages = front' ++ rest ∧
      Late front' rest := by
  rcases hcut with ⟨hzero, rfl⟩ | ⟨hcount, hdrop⟩
  · refine ⟨front, ?_, hlate⟩
    simp only [compact, hzero, if_true]
    exact hsplit
  · rcases compact_cases supply count pressure b j with
      ⟨hzero, -⟩ | ⟨-, -, hc⟩ | ⟨-, -, text, -, hc⟩ | ⟨-, -, e, -, hc⟩
    · exact absurd hzero hcount
    · rw [hc]
      exact ⟨[], hdrop, late_nil rest⟩
    · -- The summary has the time of the clock.
      rw [hc]
      exact ⟨[_], congrArg (_ :: ·) hdrop, late_singleton hne hpast⟩
    · rw [hc]
      exact ⟨[], hdrop, late_nil rest⟩

/-- A message that comes when all messages behind the front have come leaves a late
front. -/
theorem add_late {supply : Supply} (hclock : Monotone supply.clock) (m : Message) {b : Buffer}
    {j : Journal} {front behind : List Message} (hsplit : b.messages = front ++ behind)
    (hlate : Late front behind)
    (hpast : ∀ n ∈ behind ++ [m], n.timestamp ≤ supply.clock j.readings) :
    ∃ front', (b.add supply m j).1.messages =
        front' ++ lastTokens b.limits.maxTokens
          (lastMessages b.limits.maxMessages (behind ++ [m])) ∧
      Late front' (lastTokens b.limits.maxTokens
        (lastMessages b.limits.maxMessages (behind ++ [m]))) := by
  let grown : Buffer := { b with messages := b.messages ++ [m] }
  let bounded := grown.compact supply (messageSurplus b.limits grown.messages) .messageLimit j
  let left := lastMessages b.limits.maxMessages (behind ++ [m])
  have hgrown : grown.messages = front ++ (behind ++ [m]) := by
    show b.messages ++ [m] = _
    rw [hsplit, List.append_assoc]
  have hleft : left ≠ [] := lastMessages_ne_nil _ (by simp)
  have hleftPast : ∀ n ∈ left, n.timestamp ≤ supply.clock j.readings :=
    fun n hn => hpast n ((lastMessages_suffix _ _).subset hn)
  -- The message limit, on the list with the new message.
  have hcount := cuts_messageSurplus b.limits hlate.length_le (behind ++ [m])
  rw [← hgrown] at hcount
  obtain ⟨front', hsplit', hlate'⟩ :=
    compact_late .messageLimit hgrown (hlate.snoc m) hcount hleft hleftPast
  -- The token limit, at a time that is not earlier.
  have htokens := cuts_tokenSurplus b.limits hlate'.length_le left
  rw [← hsplit'] at htokens
  have hlater : supply.clock j.readings ≤ supply.clock bounded.2.readings :=
    hclock (begins_compact supply _ _ grown j).readings
  refine compact_late .tokenLimit (b := bounded.1) (j := bounded.2) hsplit' hlate' htokens
    (lastTokens_ne_nil _ hleft) ?_
  intro n hn
  exact (hleftPast n ((lastTokens_suffix _ _).subset hn)).trans hlater

/-! ## Courses -/

/-- **The invariant of a buffer in use.** If its messages came in time, a late summary
stands in front of a suffix of them. -/
structure Dating (supply : Supply) (limits : Config.Buffer) (s : Summarizer)
    (c : Course Buffer) (past : List Addition) : Prop where
  retaining : Retaining limits s c
  held : c.Timely supply past → ∃ front verbatim, c.memory.messages = front ++ verbatim ∧
    verbatim <:+ c.history ∧ (∀ x ∈ front, x.Summarizes (c.calls s)) ∧ Late front verbatim

theorem Dating.add {supply : Supply} (hclock : Monotone supply.clock) {limits : Config.Buffer}
    {s : Summarizer} {c : Course Buffer} {past : List Addition}
    (h : Dating supply limits s c past) (hs : c.Sound) (m : Message) :
    Dating supply limits s (c.enters [m] (c.memory.add supply m c.journal))
      (past ++ [⟨m, .buffer c.memory, c.journal⟩]) := by
  refine ⟨(h.retaining.exact hs supply m).1, ?_⟩
  intro htimely
  obtain ⟨front, verbatim, hsplit, hsuffix, hfront, hlate⟩ := h.held htimely.before
  obtain rfl := h.retaining.summarizer_eq
  have hgrown : verbatim ++ [m] <:+ c.history ++ [m] :=
    List.suffix_append_self_iff.mpr hsuffix
  have hpast : ∀ n ∈ verbatim ++ [m], n.timestamp ≤ supply.clock c.journal.readings :=
    fun n hn => htimely.le_clock n (hgrown.subset hn)
  obtain ⟨front', hnext, hlate'⟩ := add_late hclock m hsplit hlate hpast
  obtain ⟨made, hcont, front'', hnext', -, hfront'⟩ :=
    add_fronted supply m c.memory c.journal ⟨front, hsplit, hlate.length_le, hfront⟩
  -- Both are the front of the same messages.
  obtain rfl : front'' = front' := List.append_cancel_right (hnext'.symm.trans hnext)
  refine ⟨front'', _, hnext, ?_, ?_, hlate'⟩
  · exact ((lastTokens_suffix _ _).trans (lastMessages_suffix _ _)).trans hgrown
  · rw [Course.calls_enters hs _ hcont.calls [m]]
    exact hfront'

theorem dating_restarts {supply : Supply} {limits : Config.Buffer} {s : Summarizer}
    (b : Buffer) (j : Journal) (hlimits : b.limits = limits) (hs : b.summarizer = s) :
    Dating supply limits s (Course.restarts b.messages (b, j)) [] := by
  refine ⟨retaining_restarts b j hlimits hs, fun _ => ?_⟩
  exact ⟨[], b.messages, rfl, List.suffix_rfl, by simp, late_nil b.messages⟩

theorem Dating.step {supply : Supply} (hclock : Monotone supply.clock)
    {limits : Config.Buffer} {s : Summarizer} {c : Course Buffer} {past : List Addition}
    (h : Dating supply limits s c past) (hs : c.Sound) {r : Request}
    (hr : ∀ ms, r ≠ .addAll ms) :
    ∃ d : Course Buffer, Course.step supply (c.lift .buffer) r = d.lift .buffer ∧
      Dating supply limits s d (Course.recorded supply (c.lift .buffer) r past) := by
  have hlimits := h.retaining.limits_eq
  have hsummarizer := h.retaining.summarizer_eq
  cases r with
  | add m => exact ⟨_, rfl, h.add hclock hs m⟩
  | addAll ms => exact absurd rfl (hr ms)
  | load ms =>
      exact ⟨_, rfl, dating_restarts { c.memory with messages := ms } _ hlimits hsummarizer⟩
  | clear =>
      exact ⟨_, rfl, dating_restarts { c.memory with messages := [] } _ hlimits hsummarizer⟩
  | context | occupancy | resize | windowSize | messages | limits | summaries | setTopK | topK
  | archived => exact ⟨c, rfl, h⟩

/-- Every course of a buffer satisfies the invariant. -/
theorem exists_dating {supply : Supply} (hclock : Monotone supply.clock)
    (limits : Config.Buffer) (helpers : Collaborators) (j : Journal)
    (requests : List Request) :
    ∃ c : Course Buffer,
      Course.run supply requests (.opened (.buffer limits) helpers j) = c.lift .buffer ∧
      Dating supply limits helpers.summarizer c
        (Course.additions supply requests (.opened (.buffer limits) helpers j)) := by
  obtain ⟨c, hrun, -, h⟩ := Course.exists_recorded_run
    (P := Dating supply limits helpers.summarizer)
    (fun _ _ _ hr hs h => h.step hclock hs hr)
    (c := Course.restarts [] (Buffer.opened limits helpers.summarizer j))
    (Course.sound_restarts _ _) (dating_restarts _ _ rfl rfl) requests
  exact ⟨c, hrun, h⟩

/-- **When a buffer is in chronological order.** Let the clock never go back, and nothing be
loaded. In every course of a buffer in which the messages since it last forgot came in
chronological order, and none was later than the clock when it was added, the messages
behind a front of at most one summary are in order. The summary is not earlier than the
oldest of them, so all that is held is in order exactly if the summary has the instant of
that message. Without summarizing there is no summary, and all is in order. -/
theorem chronological_iff_summary_on_time {supply : Supply} (hclock : Monotone supply.clock)
    (limits : Config.Buffer) (helpers : Collaborators) (j : Journal) {requests : List Request}
    (hload : ∀ ms, .load ms ∉ requests) {c : Course Memory}
    (hrun : c = Course.run supply requests (.opened (.buffer limits) helpers j))
    (hordered : Chronological c.history)
    (hprompt : ∀ a ∈ Course.additions supply requests (.opened (.buffer limits) helpers j),
      a.message.timestamp ≤ supply.clock a.journal.readings) :
    ∃ (b : Buffer) (front verbatim : List Message), c.memory = .buffer b ∧
      b.messages = front ++ verbatim ∧ verbatim <:+ c.history ∧ Chronological verbatim ∧
      front.length ≤ 1 ∧ (∀ x ∈ front, x.Summarizes (c.calls helpers.summarizer) ∧
        ∃ oldest later, verbatim = oldest :: later ∧ oldest.timestamp ≤ x.timestamp) ∧
      (Chronological b.messages ↔
        ∀ x ∈ front, ∀ oldest ∈ verbatim.head?, x.timestamp = oldest.timestamp) ∧
      (limits.autoSummarize = false → front = [] ∧ Chronological b.messages) := by
  obtain ⟨d, hd, hretaining, hheld⟩ := exists_dating hclock limits helpers j requests
  have hlift : c = d.lift .buffer := hrun.trans hd
  have hadded := Course.history_eq_additions supply hload
    (c := .opened (.buffer limits) helpers j) rfl
  rw [← hrun] at hadded
  subst hlift
  obtain ⟨front, verbatim, hsplit, hsuffix, hfront, hlate⟩ :=
    hheld ⟨hadded, hordered, hprompt⟩
  have hverbatim : Chronological verbatim := hordered.of_suffix hsuffix
  refine ⟨d.memory, front, verbatim, rfl, hsplit, hsuffix, hverbatim, hlate.length_le,
    fun x hx => ⟨hfront x hx, hlate.oldest_le x hx⟩, ?_, ?_⟩
  · rw [hsplit]
    exact hlate.chronological_iff hverbatim
  · intro hauto
    have hnil : front = [] := by
      apply List.eq_nil_iff_forall_not_mem.mpr
      intro x hx
      obtain ⟨call, hcall, -⟩ := hfront x hx
      rw [hretaining.silent hauto] at hcall
      exact List.not_mem_nil hcall
    refine ⟨hnil, ?_⟩
    rw [hsplit, hnil]
    exact hverbatim

/-- A message that came at an instant, given in seconds. -/
def dated (id : String) (seconds : Int) : Message := .make id ⟨seconds, 0⟩ .user ""

/-- With room for one message, the second one makes the first a summary. It is on time if
the clock still shows the instant of the second message. -/
theorem chronological_with_prompt_summary :
    let supply : Supply := ⟨fun _ => ⟨2, 0⟩, fun _ => "summary"⟩
    let requests : List Request := [.add (dated "a" 1), .add (dated "b" 2)]
    let c := Course.run supply requests (.opened (.buffer ⟨1, 0, true⟩) (saying "so far") .empty)
    ∃ b : Buffer, c.memory = .buffer b ∧ ids b.messages = ["summary", "b"] ∧
      Chronological b.messages := by
  intro supply requests c
  have hmemory : c.memory = .buffer ⟨⟨1, 0, true⟩, (saying "so far").summarizer,
      [.make "summary" ⟨2, 0⟩ .system "so far", dated "b" 2]⟩ := by rfl
  obtain ⟨b, front, verbatim, hb, hsplit, -, -, hlength, -, hiff, -⟩ :=
    @chronological_iff_summary_on_time supply monotone_const ⟨1, 0, true⟩ (saying "so far")
      .empty requests (by simp [requests]) c rfl (by decide) (by decide)
  obtain rfl := Memory.buffer.inj (hmemory.symm.trans hb)
  refine ⟨_, hmemory, by decide, hiff.mpr ?_⟩
  -- The front is the summary, so the oldest message behind it is the second that came.
  obtain rfl | ⟨y, rfl⟩ : front = [] ∨ ∃ y, front = [y] := by
    cases front with
    | nil => exact Or.inl rfl
    | cons y front => exact Or.inr ⟨y, by simpa using hlength⟩
  · simp
  · obtain ⟨rfl, rfl⟩ := List.cons.inj hsplit
    simp [Message.make, dated]

/-- **A summary may be too late.** The first of two messages is made a summary when the
second has come, at a time when the clock has gone on. The summary stands in front of the
second message and is later than it, although both messages came in order and in time. -/
theorem summary_later_than_message_behind :
    let supply : Supply := ⟨fun _ => ⟨5, 0⟩, fun _ => "summary"⟩
    let requests : List Request := [.add (dated "a" 1), .add (dated "b" 2)]
    let c := Course.run supply requests (.opened (.buffer ⟨1, 0, true⟩) (saying "so far") .empty)
    Monotone supply.clock ∧ Chronological c.history ∧
      (∀ a ∈ Course.additions supply requests
          (.opened (.buffer ⟨1, 0, true⟩) (saying "so far") .empty),
        a.message.timestamp ≤ supply.clock a.journal.readings) ∧
      ∃ b : Buffer, c.memory = .buffer b ∧ ids b.messages = ["summary", "b"] ∧
        b.messages.map (·.timestamp.seconds) = [5, 2] ∧ ¬Chronological b.messages := by
  intro supply requests c
  have hmemory : c.memory = .buffer ⟨⟨1, 0, true⟩, (saying "so far").summarizer,
      [.make "summary" ⟨5, 0⟩ .system "so far", dated "b" 2]⟩ := by rfl
  exact ⟨monotone_const, by decide, by decide, _, hmemory, by decide, by decide, by decide⟩

end Memory.Buffer

end Recall
