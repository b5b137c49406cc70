import Recall.Proofs.Buffer.Counting

/-!
# What a summarizer is given by a buffer

A batch is the summary in front, if there is one, with the messages that the limit cuts
off behind it. Nothing in the buffer asks that there be such messages: the summary takes
a place and counts tokens, so a limit can fire and cut off nothing but the summary, which
is then summarized by itself. **This happens exactly where the messages behind the summary
use the limit up** (`UsesUp`, `CutOff`): they are as many as it allows, or the oldest of
them is the one that crosses it.

A buffer that has a message limit only is never in that state when a message comes. Once
it has summarized it holds as many messages behind the summary as the limit allows, and
the new one is one too many (`Batching`).

A summary is known by the calls since the buffer was loaded or forgot. One that was taken out
and loaded again is a message like any other, and a batch may consist of it.
-/

namespace Recall.Memory.Buffer

/-! ## A batch under one limit -/

/-- The number of messages that are too many for a limit. -/
def surplus (limits : Config.Buffer) : Pressure → List Message → Nat
  | .messageLimit => messageSurplus limits
  | .tokenLimit => tokenSurplus limits

/-- What a limit keeps of the messages behind the front. -/
def kept (limits : Config.Buffer) : Pressure → List Message → List Message
  | .messageLimit => lastMessages limits.maxMessages
  | .tokenLimit => lastTokens limits.maxTokens

/-- The messages use a limit up: a limit of messages if they are as many as it allows, a
limit of tokens if the oldest of them is the one that crosses it. -/
def UsesUp (limits : Config.Buffer) : Pressure → List Message → Prop
  | .messageLimit, behind => behind.length = limits.maxMessages
  | .tokenLimit, behind => 0 < limits.maxTokens ∧ limits.maxTokens < totalTokens behind ∧
      totalTokens behind.tail ≤ limits.maxTokens

/-- The batch of a call under a limit: the front, and the messages that the limit cuts off
behind it, which are none exactly if the limit is used up by the messages there are. -/
def CutOff (limits : Config.Buffer) (pressure : Pressure) (front behind : List Message)
    (call : Call) : Prop :=
  ∃ cut : List Message, call.batch = front ++ cut ∧ call.batch ≠ [] ∧
    behind = cut ++ kept limits pressure behind ∧
    (cut = [] ↔ UsesUp limits pressure behind)

theorem cuts_surplus (limits : Config.Buffer) (pressure : Pressure) {front : List Message}
    (hfront : front.length ≤ 1) (behind : List Message) :
    Cuts (surplus limits pressure (front ++ behind)) (front ++ behind) behind
      (kept limits pressure behind) := by
  cases pressure with
  | messageLimit => exact cuts_messageSurplus limits hfront behind
  | tokenLimit => exact cuts_tokenSurplus limits hfront behind

theorem kept_suffix (limits : Config.Buffer) (pressure : Pressure) (behind : List Message) :
    kept limits pressure behind <:+ behind := by
  cases pressure with
  | messageLimit => exact lastMessages_suffix _ behind
  | tokenLimit => exact lastTokens_suffix _ behind

theorem surplus_nil (limits : Config.Buffer) (pressure : Pressure) :
    surplus limits pressure [] = 0 := by
  cases pressure with
  | messageLimit => simp [surplus, messageSurplus]
  | tokenLimit => simp [surplus, tokenSurplus, olderThanCrossing]

/-- All of a list is the shortest suffix over a limit if the limit is not exceeded without
the oldest message. -/
theorem shortestOver_eq_self_iff {limit : Nat} {l : List Message} :
    shortestOver limit l = l ↔ totalTokens l.tail ≤ limit := by
  cases l with
  | nil => simp [shortestOver, totalTokens]
  | cons m later =>
      rw [shortestOver, List.tail_cons]
      split
      · rename_i hover
        have hle := (shortestOver_suffix limit later).length_le
        constructor
        · intro heq
          rw [heq, List.length_cons] at hle
          omega
        · intro hwithin
          omega
      · rename_i hwithin
        exact ⟨fun _ => Nat.le_of_not_lt hwithin, fun _ => rfl⟩

/-- The token limit takes nothing away before the messages behind the front exceed it. -/
theorem lt_totalTokens_of_tokenSurplus {limits : Config.Buffer} {front behind : List Message}
    (hfront : front.length ≤ 1) (hcount : tokenSurplus limits (front ++ behind) ≠ 0) :
    0 < limits.maxTokens ∧ limits.maxTokens < totalTokens behind := by
  unfold tokenSurplus at hcount
  by_cases hlimit : limits.maxTokens = 0
  · exact absurd (if_pos hlimit) hcount
  · rw [if_neg hlimit] at hcount
    refine ⟨Nat.pos_of_ne_zero hlimit, ?_⟩
    have hdrop := drop_olderThanCrossing limits.maxTokens (front ++ behind)
    by_cases hover : limits.maxTokens < totalTokens (front ++ behind)
    · -- The crossing message is not the oldest, so it is behind the front.
      have hlt := lt_totalTokens_shortestOver hover
      rw [← hdrop, List.drop_append, List.drop_eq_nil_of_le (by omega), List.nil_append] at hlt
      exact Nat.lt_of_lt_of_le hlt (totalTokens_le_of_suffix (List.drop_suffix _ behind))
    · exact absurd (olderThanCrossing_of_le (Nat.le_of_not_lt hover)) hcount

/-- A limit that fires keeps all that is behind the front exactly if that uses it up. -/
theorem kept_eq_self_iff {limits : Config.Buffer} {pressure : Pressure}
    {front behind : List Message} (hfront : front.length ≤ 1)
    (hcount : surplus limits pressure (front ++ behind) ≠ 0) :
    kept limits pressure behind = behind ↔ UsesUp limits pressure behind := by
  cases pressure with
  | messageLimit =>
      simp only [surplus, messageSurplus, List.length_append] at hcount
      split at hcount
      · exact absurd rfl hcount
      · rename_i hlimit
        have hlen : (kept limits .messageLimit behind).length =
            min limits.maxMessages behind.length := by
          simp only [kept, length_lastMessages, if_neg hlimit]
        constructor
        · intro heq
          rw [heq] at hlen
          show behind.length = limits.maxMessages
          omega
        · intro hfull
          have hfull : behind.length = limits.maxMessages := hfull
          exact (kept_suffix limits .messageLimit behind).eq_of_length (by omega)
  | tokenLimit =>
      obtain ⟨hlimit, hover⟩ := lt_totalTokens_of_tokenSurplus hfront hcount
      simp only [kept, lastTokens, if_neg (Nat.ne_of_gt hlimit), shortestOver_eq_self_iff]
      exact ⟨fun hwithin => ⟨hlimit, hover, hwithin⟩, fun hfull => hfull.2.2⟩

/-- What a limit takes away is the front and what it cuts off behind it. -/
theorem cutOff_take {limits : Config.Buffer} {pressure : Pressure}
    {front behind : List Message} (hfront : front.length ≤ 1)
    (hcount : surplus limits pressure (front ++ behind) ≠ 0)
    (reply : Except MemoryError String) :
    CutOff limits pressure front behind
      ⟨(front ++ behind).take (surplus limits pressure (front ++ behind)), reply⟩ := by
  obtain ⟨cut, hcut⟩ := kept_suffix limits pressure behind
  have hdrop : (front ++ behind).drop (surplus limits pressure (front ++ behind)) =
      kept limits pressure behind := by
    rcases cuts_surplus limits pressure hfront behind with ⟨hzero, -⟩ | ⟨-, hdrop⟩
    · exact absurd hzero hcount
    · exact hdrop
  have hsame : (front ++ behind).take (surplus limits pressure (front ++ behind)) ++
      kept limits pressure behind = (front ++ cut) ++ kept limits pressure behind := by
    calc _ = (front ++ behind).take (surplus limits pressure (front ++ behind)) ++
          (front ++ behind).drop (surplus limits pressure (front ++ behind)) := by rw [hdrop]
      _ = front ++ behind := List.take_append_drop _ _
      _ = _ := by rw [List.append_assoc, hcut]
  have hbatch := List.append_cancel_right hsame
  refine ⟨cut, hbatch, ?_, hcut.symm, ?_⟩
  · -- A limit takes nothing away from a buffer without messages.
    intro hnil
    rcases List.take_eq_nil_iff.mp hnil with hzero | hempty
    · exact hcount hzero
    · rw [hempty, surplus_nil] at hcount
      exact hcount rfl
  · rw [← kept_eq_self_iff hfront hcount]
    constructor
    · rintro rfl
      exact hcut
    · intro hself
      rw [hself] at hcut
      exact List.append_left_eq_self.mp hcut

/-- A call under the message limit is made beyond the limit, or at it. -/
theorem CutOff.maxMessages_le {limits : Config.Buffer} {front behind : List Message}
    {call : Call} (h : CutOff limits .messageLimit front behind call) :
    limits.maxMessages ≤ behind.length := by
  obtain ⟨cut, -, -, hbehind, hused⟩ := h
  by_cases hcut : cut = []
  · have hfull : behind.length = limits.maxMessages := hused.mp hcut
    omega
  · have hlen := congrArg List.length hbehind
    have hpos := List.length_pos_iff.mpr hcut
    simp only [kept, List.length_append, length_lastMessages] at hlen
    split at hlen <;> omega

/-- Without a token limit none of its calls is made. -/
theorem CutOff.maxTokens_pos {limits : Config.Buffer} {front behind : List Message}
    {call : Call} (h : CutOff limits .tokenLimit front behind call) : 0 < limits.maxTokens := by
  obtain ⟨cut, -, -, hbehind, hused⟩ := h
  by_contra hlimit
  have hall : kept limits .tokenLimit behind = behind := if_pos (Nat.eq_zero_of_not_pos hlimit)
  rw [hall] at hbehind
  exact hlimit (hused.mp (List.append_left_eq_self.mp hbehind.symm)).1

/-! ## The calls of one compaction -/

theorem Continues.unique {b : Buffer} {j : Journal} {after : Buffer × Journal}
    {made other : List Call} (h : Continues b j after made) (h' : Continues b j after other) :
    made = other :=
  List.append_cancel_left (h.calls.symm.trans h'.calls)

/-- A compaction makes one call at most, for the messages that it takes away. -/
theorem compact_batch {supply : Supply} {count : Nat} {pressure : Pressure} {b : Buffer}
    {j : Journal} {made : List Call}
    (h : Continues b j (b.compact supply count pressure j) made) :
    ∀ call ∈ made, count ≠ 0 ∧ ∃ reply, call = ⟨b.messages.take count, reply⟩ := by
  rcases compact_cases supply count pressure b j with
    ⟨-, hc⟩ | ⟨-, -, hc⟩ | ⟨hcount, hauto, text, hreply, hc⟩ |
    ⟨hcount, hauto, e, hreply, hc⟩ <;> rw [hc] at h
  · rw [h.unique (continues_quiet rfl b.messages)]
    simp
  · rw [h.unique (continues_quiet (by rfl) _)]
    simp
  · rw [h.unique (continues_ask hauto hreply (by rfl) _)]
    intro call hcall
    exact ⟨hcount, _, List.mem_singleton.mp hcall⟩
  · rw [h.unique (continues_ask hauto hreply (by rfl) _)]
    intro call hcall
    exact ⟨hcount, _, List.mem_singleton.mp hcall⟩

/-- One limit: the calls that it makes, and what it leaves. -/
theorem compact_cutOff (supply : Supply) (pressure : Pressure) {b : Buffer} (j : Journal)
    {calls : List Call} {front behind : List Message} (hsplit : b.messages = front ++ behind)
    (hlen : front.length ≤ 1) (hfront : ∀ x ∈ front, x.Summarizes calls) :
    ∃ made, Continues b j
        (b.compact supply (surplus b.limits pressure b.messages) pressure j) made ∧
      (∀ call ∈ made, CutOff b.limits pressure front behind call) ∧
      Fronted (calls ++ made)
        (b.compact supply (surplus b.limits pressure b.messages) pressure j).1.messages
        (kept b.limits pressure behind) := by
  have hcuts := cuts_surplus b.limits pressure hlen behind
  rw [← hsplit] at hcuts
  obtain ⟨made, hcont, hfronted⟩ :=
    compact_fronted supply pressure j ⟨front, hsplit, hlen, hfront⟩ hcuts
  refine ⟨made, hcont, ?_, hfronted⟩
  intro call hcall
  obtain ⟨hcount, reply, rfl⟩ := compact_batch hcont call hcall
  rw [hsplit] at hcount ⊢
  exact cutOff_take hlen hcount reply

/-- A message comes: the calls under the message limit, and those under the token limit. -/
theorem add_cutOff (supply : Supply) (m : Message) {b : Buffer} (j : Journal)
    {calls : List Call} {front verbatim : List Message}
    (hsplit : b.messages = front ++ verbatim) (hlen : front.length ≤ 1)
    (hfront : ∀ x ∈ front, x.Summarizes calls) :
    ∃ (first second : List Call) (front' : List Message),
      Continues b j (b.add supply m j) (first ++ second) ∧
      (∀ call ∈ first, CutOff b.limits .messageLimit front (verbatim ++ [m]) call) ∧
      front'.length ≤ 1 ∧ (∀ x ∈ front', x.Summarizes (calls ++ first)) ∧
      ∀ call ∈ second, CutOff b.limits .tokenLimit front'
        (lastMessages b.limits.maxMessages (verbatim ++ [m])) call := by
  have hgrown : b.messages ++ [m] = front ++ (verbatim ++ [m]) := by
    rw [hsplit, List.append_assoc]
  obtain ⟨first, hcont, hfirst, front', hsplit', hlen', hfront'⟩ :=
    compact_cutOff supply .messageLimit (b := { b with messages := b.messages ++ [m] }) j
      hgrown hlen hfront
  obtain ⟨second, hcont', hsecond, -⟩ :=
    compact_cutOff supply .tokenLimit _ hsplit' hlen' hfront'
  have hlimits : _ = b.limits := hcont.limits
  rw [hlimits] at hsecond
  refine ⟨first, second, front', ?_, hfirst, hlen', hfront', hsecond⟩
  rw [hlimits] at hcont'
  exact (hcont.trans hcont').of_messages

/-! ## Courses -/

/-- **The invariant of a buffer that is bounded by messages only.** If it has summarized
since it was loaded or forgot, at least as many messages came as the limit allows. -/
structure Batching (limits : Config.Buffer) (s : Summarizer) (c : Course Buffer) : Prop where
  retaining : Retaining limits s c
  enough : limits.maxTokens = 0 → c.calls s ≠ [] → limits.maxMessages ≤ c.history.length

theorem Batching.add {limits : Config.Buffer} {s : Summarizer} {c : Course Buffer}
    (h : Batching limits s c) (hs : c.Sound) (supply : Supply) (m : Message) :
    Batching limits s (c.enters [m] (c.memory.add supply m c.journal)) := by
  refine ⟨(h.retaining.exact hs supply m).1, ?_⟩
  intro htokens hcalls
  show limits.maxMessages ≤ (c.history ++ [m]).length
  obtain ⟨⟨rfl, rfl, ⟨verbatim, ⟨front, hsplit, hlen, hfront⟩, hsuffix, -⟩, -⟩, henough⟩ := h
  obtain ⟨first, second, front', hcont, hfirst, -, -, hsecond⟩ :=
    add_cutOff supply m c.journal hsplit hlen hfront
  rw [Course.calls_enters hs _ hcont.calls [m]] at hcalls
  rw [List.length_append, List.length_singleton]
  by_cases hold : c.calls c.memory.summarizer = []
  · -- The first call since, which only the message limit can make.
    obtain ⟨call, hcall⟩ := List.exists_mem_of_ne_nil _ hcalls
    rw [hold, List.nil_append, List.mem_append] at hcall
    rcases hcall with hcall | hcall
    · have hle := (hfirst call hcall).maxMessages_le
      rw [List.length_append, List.length_singleton] at hle
      have hverbatim := hsuffix.length_le
      omega
    · have hpos := (hsecond call hcall).maxTokens_pos
      omega
  · exact Nat.le_succ_of_le (henough htokens hold)

/-- A message with a number of tokens. -/
def sized (id : String) (tokens : Nat) : Message :=
  { Message.make id .epoch .user "" with tokenCount := tokens }

/-- Collaborators whose summarizer always says the same. -/
def saying (text : String) : Collaborators :=
  { Collaborators.builtIn with summarizer := ⟨fun _ _ => .ok text⟩ }

end Recall.Memory.Buffer
