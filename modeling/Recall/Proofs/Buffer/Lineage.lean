import Recall.Proofs.Buffer.Retention

/-!
# What a summary in a buffer stands for

A summary goes into the next batch like any other message, so what it stands for is a
tree: the batch of its call, in which another summary may stand for a batch of its own.
The buffer keeps no such tree. Here each message is read with its `Lineage`, and each call
with the lineages of its batch (`Account`); the readings are tied to the calls in the
journal, so a summary can stand for nothing but what its call was given (`Stands`,
`Accounted`).

**Expanding loses what a failed call loses, and nothing else.** One compaction conserves
the expansion up to the batch of a call that failed (`compact_expansions`), and so does a
message that comes (`add_expansions`). Over a course the history is what the failed calls
lost, in their order, followed by the expansion of the buffer.
-/

namespace Recall

/-- Where a message in a buffer is from: it was given to the buffer, or it is the summary
of a batch. -/
inductive Lineage where
  | given (m : Message)
  | summary (m : Message) (batch : List Lineage)

namespace Lineage

def message : Lineage → Message
  | given m => m
  | summary m _ => m

mutual

/-- The given messages that a message stands for: itself, or all that its batch stands
for. -/
def expansion : Lineage → List Message
  | given m => [m]
  | summary _ batch => expansions batch

def expansions : List Lineage → List Message
  | [] => []
  | x :: held => expansion x ++ expansions held

end

theorem expansions_append (held more : List Lineage) :
    expansions (held ++ more) = expansions held ++ expansions more := by
  induction held with
  | nil => rfl
  | cons x held ih => rw [List.cons_append, expansions, expansions, ih, List.append_assoc]

theorem expansions_given (messages : List Message) :
    expansions (messages.map given) = messages := by
  induction messages with
  | nil => rfl
  | cons m messages ih =>
      rw [List.map_cons, expansions, ih]
      rfl

theorem messages_given (messages : List Message) :
    (messages.map given).map message = messages := by
  rw [List.map_map]
  exact List.map_id messages

end Lineage

open Lineage (expansions expansions_append expansions_given messages_given)

/-- A call of a summarizer, with the lineages of its batch. -/
structure Account where
  batch : List Lineage
  reply : Except MemoryError String

namespace Account

def call (a : Account) : Call := ⟨a.batch.map Lineage.message, a.reply⟩

/-- The given messages that a call lost: if it failed, all that its batch stands for. -/
def lost (a : Account) : List Message :=
  match a.reply with
  | .ok _ => []
  | .error _ => expansions a.batch

theorem lost_of_text {a : Account} (h : a.call.text? ≠ none) : a.lost = [] := by
  obtain ⟨batch, reply⟩ := a
  cases reply with
  | ok text => rfl
  | error e => exact absurd rfl h

end Account

/-- The lineage is that of the summary which the last of some calls gave. -/
def Lineage.MadeBy (accounts : List Account) : Lineage → Prop
  | given _ => False
  | summary m batch => ∃ (before : List Account) (id : String) (now : Instant) (text : String),
      accounts = before ++ [⟨batch, .ok text⟩] ∧ m = .make id now .system text

namespace Memory.Buffer

/-! ## Readings of what is held and of what was asked -/

/-- After some calls: at most one summary, which the last of them gave, and behind it
messages as they were given. -/
def Stands (accounts : List Account) (held : List Lineage) : Prop :=
  ∃ (front : List Lineage) (verbatim : List Message),
    held = front ++ verbatim.map .given ∧ front.length ≤ 1 ∧ ∀ x ∈ front, x.MadeBy accounts

theorem stands_given (accounts : List Account) (messages : List Message) :
    Stands accounts (messages.map .given) :=
  ⟨[], messages, rfl, Nat.zero_le _, by simp⟩

theorem Stands.snoc {accounts : List Account} {held : List Lineage} (h : Stands accounts held)
    (m : Message) : Stands accounts (held ++ [.given m]) := by
  obtain ⟨front, verbatim, rfl, hlen, hfront⟩ := h
  refine ⟨front, verbatim ++ [m], ?_, hlen, hfront⟩
  rw [List.map_append, List.append_assoc]
  rfl

/-- The oldest of what stands stand like it: if there are any, the front is among them. -/
theorem Stands.take {accounts : List Account} {held : List Lineage} (h : Stands accounts held)
    (count : Nat) : Stands accounts (held.take count) := by
  obtain ⟨front, verbatim, rfl, hlen, hfront⟩ := h
  refine ⟨front.take count, verbatim.take (count - front.length), ?_, ?_, ?_⟩
  · rw [List.take_append, List.map_take]
  · exact (List.length_take_le' count front).trans hlen
  · exact fun x hx => hfront x (List.mem_of_mem_take hx)

/-- Behind the oldest there are only messages as they were given. -/
theorem Stands.drop {accounts : List Account} {held : List Lineage} (h : Stands accounts held)
    {count : Nat} (hcount : count ≠ 0) :
    ∃ verbatim : List Message, held.drop count = verbatim.map .given := by
  obtain ⟨front, verbatim, rfl, hlen, -⟩ := h
  refine ⟨verbatim.drop (count - front.length), ?_⟩
  rw [List.drop_append, List.drop_eq_nil_of_le (by omega), List.nil_append, List.map_drop]

/-- Each call was given what stood after the calls before it. -/
inductive Accounted : List Account → Prop where
  | nil : Accounted []
  | snoc {before : List Account} {a : Account} (hbefore : Accounted before)
      (hbatch : Stands before a.batch) : Accounted (before ++ [a])

/-- A reading of the messages in a buffer, after calls that are read too. -/
structure Reads (accounts : List Account) (messages : List Message) (held : List Lineage) :
    Prop where
  accounted : Accounted accounts
  stands : Stands accounts held
  messages_eq : messages = held.map Lineage.message

theorem Reads.snoc {accounts : List Account} {messages : List Message} {held : List Lineage}
    (h : Reads accounts messages held) (m : Message) :
    Reads accounts (messages ++ [m]) (held ++ [.given m]) where
  accounted := h.accounted
  stands := h.stands.snoc m
  messages_eq := by
    rw [h.messages_eq, List.map_append]
    rfl

theorem reads_given (messages : List Message) : Reads [] messages (messages.map .given) where
  accounted := .nil
  stands := stands_given [] messages
  messages_eq := (messages_given messages).symm

/-! ## Conservation -/

/-- A compaction takes from the expansion what its call loses. -/
theorem compact_expansions (supply : Supply) (count : Nat) (pressure : Pressure) {b : Buffer}
    (j : Journal) (hauto : b.limits.autoSummarize = true) {accounts : List Account}
    {held : List Lineage} (h : Reads accounts b.messages held) :
    ∃ (made : List Account) (left : List Lineage),
      Continues b j (b.compact supply count pressure j) (made.map Account.call) ∧
      Reads (accounts ++ made) (b.compact supply count pressure j).1.messages left ∧
      expansions held = made.flatMap Account.lost ++ expansions left := by
  have hbatch : b.messages.take count = (held.take count).map Lineage.message := by
    rw [h.messages_eq, List.map_take]
  have hrest : b.messages.drop count = (held.drop count).map Lineage.message := by
    rw [h.messages_eq, List.map_drop]
  have hexpand : expansions held =
      expansions (held.take count) ++ expansions (held.drop count) := by
    rw [← expansions_append, List.take_append_drop]
  rcases compact_cases supply count pressure b j with
    ⟨-, hc⟩ | ⟨-, hoff, -⟩ | ⟨hcount, -, text, hreply, hc⟩ | ⟨hcount, -, e, hreply, hc⟩
  · rw [hc]
    refine ⟨[], held, continues_quiet rfl b.messages, ?_, rfl⟩
    rw [List.append_nil]
    exact h
  · rw [hauto] at hoff
    exact absurd hoff.symm Bool.false_ne_true
  · -- The summary stands for its batch, so nothing is gone.
    rw [hc]
    obtain ⟨verbatim, hverbatim⟩ := h.stands.drop hcount
    have hcall : Account.call ⟨held.take count, .ok text⟩ =
        ⟨b.messages.take count, .ok text⟩ := by rw [hbatch]; rfl
    refine ⟨[⟨held.take count, .ok text⟩],
      .summary (.make (supply.freshId j.issued) (supply.clock j.readings) .system text)
        (held.take count) :: held.drop count,
      ?_, ⟨h.accounted.snoc (h.stands.take count), ?_, ?_⟩, hexpand⟩
    · rw [List.map_singleton, hcall]
      exact continues_ask hauto hreply (by rfl) _
    · refine ⟨[_], verbatim, by rw [hverbatim]; rfl, Nat.le_refl _, ?_⟩
      intro x hx
      rw [List.mem_singleton] at hx
      rw [hx]
      exact ⟨accounts, _, _, text, rfl, rfl⟩
    · rw [List.map_cons, ← hrest]
      rfl
  · rw [hc]
    obtain ⟨verbatim, hverbatim⟩ := h.stands.drop hcount
    have hcall : Account.call ⟨held.take count, .error e⟩ =
        ⟨b.messages.take count, .error e⟩ := by rw [hbatch]; rfl
    refine ⟨[⟨held.take count, .error e⟩], held.drop count,
      ?_, ⟨h.accounted.snoc (h.stands.take count), ?_, hrest⟩, ?_⟩
    · rw [List.map_singleton, hcall]
      exact continues_ask hauto hreply (by rfl) _
    · rw [hverbatim]
      exact stands_given _ _
    · rw [hexpand, List.flatMap_singleton]
      rfl

/-- A message that comes joins the expansion; what is taken from it is what the calls
lose that the message brings about. -/
theorem add_expansions (supply : Supply) (m : Message) {b : Buffer} (j : Journal)
    (hauto : b.limits.autoSummarize = true) {accounts : List Account} {held : List Lineage}
    (h : Reads accounts b.messages held) :
    ∃ (made : List Account) (left : List Lineage),
      Continues b j (b.add supply m j) (made.map Account.call) ∧
      Reads (accounts ++ made) (b.add supply m j).1.messages left ∧
      expansions held ++ [m] = made.flatMap Account.lost ++ expansions left := by
  obtain ⟨made, left, hcont, hreads, hexpand⟩ :=
    compact_expansions supply (messageSurplus b.limits (b.messages ++ [m])) .messageLimit
      (b := { b with messages := b.messages ++ [m] }) j hauto (h.snoc m)
  have hauto' := (congrArg Config.Buffer.autoSummarize hcont.limits).trans hauto
  obtain ⟨more, last, hcont', hreads', hexpand'⟩ :=
    compact_expansions supply _ .tokenLimit _ hauto' hreads
  refine ⟨made ++ more, last, ?_, ?_, ?_⟩
  · rw [List.map_append]
    exact (hcont.trans hcont').of_messages
  · rw [← List.append_assoc]
    exact hreads'
  · rw [List.flatMap_append, List.append_assoc, ← hexpand', ← hexpand, expansions_append]
    rfl

/-- **The invariant of a summarizing buffer in use.** The history is what the failed calls
lost, followed by the expansion of what the buffer holds. -/
structure Expanding (limits : Config.Buffer) (s : Summarizer) (c : Course Buffer) : Prop where
  limits_eq : c.memory.limits = limits
  summarizer_eq : c.memory.summarizer = s
  reading : ∃ (accounts : List Account) (held : List Lineage),
    accounts.map Account.call = c.calls s ∧ Reads accounts c.memory.messages held ∧
      c.history = accounts.flatMap Account.lost ++ expansions held

theorem Expanding.add {limits : Config.Buffer} {s : Summarizer} {c : Course Buffer}
    (h : Expanding limits s c) (hs : c.Sound) (hauto : limits.autoSummarize = true)
    (supply : Supply) (m : Message) :
    Expanding limits s (c.enters [m] (c.memory.add supply m c.journal)) := by
  obtain ⟨rfl, rfl, accounts, held, haccounts, hreads, hhistory⟩ := h
  obtain ⟨made, left, hcont, hreads', hexpand⟩ :=
    add_expansions supply m c.journal hauto hreads
  refine ⟨hcont.limits, hcont.summarizer, accounts ++ made, left, ?_, hreads', ?_⟩
  · rw [Course.calls_enters hs _ hcont.calls [m], List.map_append, haccounts]
  · show c.history ++ [m] = _
    rw [hhistory, List.flatMap_append, List.append_assoc, List.append_assoc, hexpand]

theorem expanding_restarts {limits : Config.Buffer} {s : Summarizer} (b : Buffer) (j : Journal)
    (hlimits : b.limits = limits) (hs : b.summarizer = s) :
    Expanding limits s (Course.restarts b.messages (b, j)) where
  limits_eq := hlimits
  summarizer_eq := hs
  reading := ⟨[], b.messages.map .given, (Course.calls_restarts _ _ _).symm,
    reads_given b.messages, (expansions_given b.messages).symm⟩

/-- Every course of a summarizing buffer satisfies the invariant. -/
theorem exists_expanding (supply : Supply) (limits : Config.Buffer)
    (hauto : limits.autoSummarize = true) (helpers : Collaborators) (j : Journal)
    (requests : List Request) :
    ∃ c : Course Buffer,
      Course.run supply requests (.opened (.buffer limits) helpers j) = c.lift .buffer ∧
        c.Sound ∧ Expanding limits helpers.summarizer c := by
  refine exists_course ?_ ?_ ?_ j requests
  · intro c h
    exact ⟨h.limits_eq, h.summarizer_eq⟩
  · intro b j hlimits hs
    exact expanding_restarts b j hlimits hs
  · intro c m hs h
    exact h.add hs hauto supply m

/-- **Summaries lose nothing unless a call fails.** In every course of a buffer that
summarizes, at most one summary stands in front of given messages. It is the reply to the
last call since the buffer was loaded or forgot, and each of these calls was given what
stood after the ones before it, so the summary can be expanded to given messages by
putting batches in the place of summaries. The messages that were loaded and came since
are what the failed calls lost, each the expansion of its batch, followed by the expansion
of the front and the messages behind it. If no call failed, these are all. -/
theorem expansion_conserves_history (supply : Supply) (maxMessages maxTokens : Nat)
    (helpers : Collaborators) (j : Journal) (requests : List Request) :
    let c := Course.run supply requests
      (.opened (.buffer ⟨maxMessages, maxTokens, true⟩) helpers j)
    let calls := c.calls helpers.summarizer
    ∃ (b : Buffer) (accounts : List Account) (front : List Lineage) (verbatim : List Message),
      c.memory = .buffer b ∧
      b.messages = front.map Lineage.message ++ verbatim ∧
      front.length ≤ 1 ∧ (∀ x ∈ front, x.MadeBy accounts) ∧
      accounts.map Account.call = calls ∧ Accounted accounts ∧
      c.history = accounts.flatMap Account.lost ++ (expansions front ++ verbatim) ∧
      ((∀ call ∈ calls, call.text? ≠ none) → expansions front ++ verbatim = c.history) := by
  obtain ⟨c, hrun, -, -, -, accounts, held, haccounts, hreads, hhistory⟩ :=
    exists_expanding supply ⟨maxMessages, maxTokens, true⟩ rfl helpers j requests
  obtain ⟨haccounted, ⟨front, verbatim, rfl, hlen, hfront⟩, hmessages⟩ := hreads
  rw [expansions_append, expansions_given] at hhistory
  rw [List.map_append, messages_given] at hmessages
  have hlost : (∀ call ∈ c.calls helpers.summarizer, call.text? ≠ none) →
      accounts.flatMap Account.lost = [] := by
    intro hok
    rw [List.flatMap_eq_nil_iff]
    intro a ha
    apply Account.lost_of_text
    apply hok
    rw [← haccounts]
    exact List.mem_map_of_mem ha
  rw [hrun]
  refine ⟨c.memory, accounts, front, verbatim, rfl, hmessages, hlen, hfront, haccounts,
    haccounted, hhistory, ?_⟩
  intro hok
  show _ = c.history
  rw [hhistory, hlost hok, List.nil_append]

end Memory.Buffer

end Recall
