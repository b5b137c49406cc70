import Recall.Proofs.Buffer.Batches

/-!
# The token budget of a buffer

What the token limit leaves exceeds it by one message at most: the one that crosses it,
without which the rest is within the limit (`withinOne_shortestOver`). This is the budget
that a buffer promises, `WithinOne`.

A summary of what was taken away is put in front after that and not counted again.
**The budget is kept unless the token limit itself makes a summary**, and then it is kept
exactly if the summary fits in the place of one of the messages behind it
(`add_within_one_iff`). A summary that is longer than they are breaks it. The tokens that the
limit counts are to fit a word; what a wrong total would leave is not within any budget.
-/

namespace Recall.Memory.Buffer

/-! ## Within one message -/

/-- The messages exceed a token limit by at most one message: without it the others are
within the limit. -/
def WithinOne (limit : Nat) (messages : List Message) : Prop :=
  totalTokens messages ≤ limit ∨ ∃ (before after : List Message) (m : Message),
    messages = before ++ m :: after ∧ totalTokens (before ++ after) ≤ limit

theorem totalTokens_middle (before after : List Message) (m : Message) :
    totalTokens (before ++ m :: after) = m.tokenCount + totalTokens (before ++ after) := by
  rw [totalTokens_append, totalTokens_append, totalTokens]
  omega

theorem withinOne_iff {limit : Nat} {messages : List Message} :
    WithinOne limit messages ↔ totalTokens messages ≤ limit ∨
      ∃ m ∈ messages, totalTokens messages ≤ limit + m.tokenCount := by
  refine or_congr Iff.rfl ?_
  constructor
  · rintro ⟨before, after, m, rfl, hle⟩
    refine ⟨m, List.mem_append_right _ List.mem_cons_self, ?_⟩
    rw [totalTokens_middle]
    omega
  · rintro ⟨m, hm, hle⟩
    obtain ⟨before, after, rfl⟩ := List.append_of_mem hm
    rw [totalTokens_middle] at hle
    exact ⟨before, after, m, rfl, by omega⟩

/-- The oldest message of the shortest suffix over a limit is the one that crosses it. -/
theorem shortestOver_eq_cons (limit : Nat) {l : List Message} (hne : l ≠ []) :
    ∃ (crossing : Message) (later : List Message),
      shortestOver limit l = crossing :: later ∧ totalTokens later ≤ limit := by
  induction l with
  | nil => exact absurd rfl hne
  | cons m later ih =>
      rw [shortestOver]
      split
      · rename_i hover
        apply ih
        rintro rfl
        exact absurd hover (Nat.not_lt_zero limit)
      · rename_i hwithin
        exact ⟨m, later, rfl, Nat.le_of_not_lt hwithin⟩

/-- **What the token limit leaves is within one message.** -/
theorem withinOne_shortestOver (limit : Nat) (l : List Message) :
    WithinOne limit (shortestOver limit l) := by
  by_cases hne : l = []
  · rw [hne]
    exact Or.inl (Nat.zero_le limit)
  · obtain ⟨crossing, later, heq, hle⟩ := shortestOver_eq_cons limit hne
    rw [heq]
    exact Or.inr ⟨[], later, crossing, rfl, hle⟩

/-- With a summary in front of messages over the limit, one of them must make room for
it. -/
theorem withinOne_cons_iff {limit : Nat} {summary : Message} {messages : List Message}
    (hover : limit < totalTokens messages) :
    WithinOne limit (summary :: messages) ↔
      ∃ m ∈ messages, summary.tokenCount + totalTokens messages ≤ limit + m.tokenCount := by
  rw [withinOne_iff, totalTokens]
  constructor
  · rintro (hle | ⟨m, hm, hle⟩)
    · omega
    · rcases List.mem_cons.mp hm with rfl | hm
      · omega
      · exact ⟨m, hm, hle⟩
  · rintro ⟨m, hm, hle⟩
    exact Or.inr ⟨m, List.mem_cons_of_mem _ hm, hle⟩

/-! ## The two limits and their reports -/

/-- A compaction reports summaries under its own limit only. -/
theorem compact_reports (supply : Supply) (count : Nat) (pressure : Pressure) (b : Buffer)
    (j : Journal) :
    ∃ reports, (b.compact supply count pressure j).2.events = j.events ++ reports ∧
      ∀ n other, .bufferSummarized n other ∈ reports → other = pressure := by
  rcases compact_cases supply count pressure b j with
    ⟨-, hc⟩ | ⟨-, -, hc⟩ | ⟨-, -, text, -, hc⟩ | ⟨-, -, e, -, hc⟩ <;> rw [hc]
  · exact ⟨[], (List.append_nil _).symm, by simp⟩
  · exact ⟨[_], rfl, by simp⟩
  · exact ⟨[.bufferSummarized count pressure], rfl, by simp⟩
  · exact ⟨[_], rfl, by simp⟩

theorem compact_limits (supply : Supply) (count : Nat) (pressure : Pressure) (b : Buffer)
    (j : Journal) : (b.compact supply count pressure j).1.limits = b.limits := by
  rcases compact_cases supply count pressure b j with
    ⟨-, hc⟩ | ⟨-, -, hc⟩ | ⟨-, -, text, -, hc⟩ | ⟨-, -, e, -, hc⟩ <;> rw [hc]

/-- What the token limit leaves of the messages that it finds: the shortest suffix over
it, and a summary in front of that exactly if one is reported. -/
inductive Leaves (limits : Config.Buffer) (found : List Message) (reports : List Event) :
    List Message → Prop where
  | suffix (hnone : ∀ n, .bufferSummarized n .tokenLimit ∉ reports) :
      Leaves limits found reports (shortestOver limits.maxTokens found)
  | summary (hauto : limits.autoSummarize = true)
      (hsome : ∃ n, .bufferSummarized n .tokenLimit ∈ reports)
      (hover : limits.maxTokens < totalTokens (shortestOver limits.maxTokens found))
      (x : Message) : Leaves limits found reports (x :: shortestOver limits.maxTokens found)

/-- Earlier reports do not matter if none of them is of a summary for the token limit. -/
theorem Leaves.after {limits : Config.Buffer} {found messages : List Message}
    {early late : List Event} (h : Leaves limits found late messages)
    (hearly : ∀ n, .bufferSummarized n .tokenLimit ∉ early) :
    Leaves limits found (early ++ late) messages := by
  cases h with
  | suffix hnone =>
      refine .suffix fun n hn => ?_
      rcases List.mem_append.mp hn with hn | hn
      · exact hearly n hn
      · exact hnone n hn
  | summary hauto hsome hover x =>
      obtain ⟨n, hn⟩ := hsome
      exact .summary hauto ⟨n, List.mem_append_right _ hn⟩ hover x

theorem compact_leaves {supply : Supply} {b : Buffer} (hlimit : 0 < b.limits.maxTokens)
    {j : Journal} {after : Buffer × Journal}
    (hafter : b.compact supply (tokenSurplus b.limits b.messages) .tokenLimit j = after) :
    ∃ reports, after.2.events = j.events ++ reports ∧
      Leaves b.limits b.messages reports after.1.messages := by
  have hdrop : b.messages.drop (tokenSurplus b.limits b.messages) =
      shortestOver b.limits.maxTokens b.messages := by
    rw [tokenSurplus, if_neg (Nat.ne_of_gt hlimit)]
    exact drop_olderThanCrossing b.limits.maxTokens b.messages
  rcases compact_cases supply (tokenSurplus b.limits b.messages) .tokenLimit b j with
    ⟨hcount, hc⟩ | ⟨-, -, hc⟩ | ⟨hcount, hauto, text, -, hc⟩ | ⟨-, -, e, -, hc⟩ <;>
    rw [hc] at hafter <;> subst hafter
  · refine ⟨[], (List.append_nil _).symm, ?_⟩
    rw [hcount, List.drop_zero] at hdrop
    show Leaves _ _ _ b.messages
    nth_rewrite 2 [hdrop]
    exact .suffix (by simp)
  · refine ⟨[_], rfl, ?_⟩
    show Leaves _ _ _ (b.messages.drop _)
    rw [hdrop]
    exact .suffix (by simp)
  · refine ⟨[_], rfl, ?_⟩
    have hfront : ([] : List Message).length ≤ 1 := Nat.zero_le 1
    have hover := (lt_totalTokens_of_tokenSurplus hfront hcount).2
    show Leaves _ _ _ (_ :: b.messages.drop _)
    rw [hdrop]
    exact .summary hauto ⟨_, List.mem_singleton_self _⟩ (lt_totalTokens_shortestOver hover) _
  · refine ⟨[_], rfl, ?_⟩
    show Leaves _ _ _ (b.messages.drop _)
    rw [hdrop]
    exact .suffix (by simp)

theorem bounded_limits (supply : Supply) (m : Message) (b : Buffer) (j : Journal) :
    (b.bounded supply m j).1.limits = b.limits :=
  compact_limits supply _ _ _ j

/-- What the message limit reports does not matter here, nor what it leaves. -/
theorem bounded_reports (supply : Supply) (m : Message) (b : Buffer) (j : Journal) :
    ∃ reports, (b.bounded supply m j).2.events = j.events ++ reports ∧
      ∀ n, .bufferSummarized n .tokenLimit ∉ reports := by
  obtain ⟨reports, hreports, hpressure⟩ := compact_reports supply
    (messageSurplus b.limits (b.messages ++ [m])) .messageLimit
    { b with messages := b.messages ++ [m] } j
  exact ⟨reports, hreports, fun n hn => absurd (hpressure n _ hn) (by decide)⟩

theorem add_leaves (supply : Supply) (m : Message) {b : Buffer} (j : Journal)
    (hlimit : 0 < b.limits.maxTokens) :
    Leaves b.limits (b.bounded supply m j).1.messages
      ((b.add supply m j).2.events.drop j.events.length) (b.add supply m j).1.messages := by
  have hlimits := bounded_limits supply m b j
  obtain ⟨early, hearly, hnone⟩ := bounded_reports supply m b j
  have hafter : (b.bounded supply m j).1.compact supply
      (tokenSurplus (b.bounded supply m j).1.limits (b.bounded supply m j).1.messages)
      .tokenLimit (b.bounded supply m j).2 = b.add supply m j := by
    rw [hlimits]
    rfl
  obtain ⟨late, hlate, hleaves⟩ := compact_leaves (by rw [hlimits]; exact hlimit) hafter
  rw [hlimits] at hleaves
  have hreports : (b.add supply m j).2.events.drop j.events.length = early ++ late := by
    rw [hlate, hearly, List.append_assoc, List.drop_left]
  rw [hreports]
  exact hleaves.after hnone

/-- **When the budget is kept.** After a message has come to a buffer with a token limit,
whatever it held before, the buffer exceeds the limit by at most one message if it does
not summarize, and if no summary was reported for the token limit. If one was, it stands
in front of messages that are within the limit without the oldest of them and not with it;
then the buffer exceeds the limit by at most one message exactly if the summary has room
in the place of one of these. The tokens of what the token limit finds are to fit a word, a
summary made under the message limit included; then the addition in words has this
outcome. -/
theorem add_within_one_iff (supply : Supply) (m : Message) (b : Buffer) (j : Journal)
    (hlimit : 0 < b.limits.maxTokens) (hfits : b.CountsFit supply m j) :
    let after := b.add supply m j
    let reports := after.2.events.drop j.events.length
    b.add? supply m j = some after ∧
    (b.limits.autoSummarize = false → WithinOne b.limits.maxTokens after.1.messages) ∧
    ((∀ n, .bufferSummarized n .tokenLimit ∉ reports) →
      WithinOne b.limits.maxTokens after.1.messages) ∧
    ∀ n, .bufferSummarized n .tokenLimit ∈ reports →
      ∃ (summary crossing : Message) (later : List Message),
        after.1.messages = summary :: crossing :: later ∧
        totalTokens later ≤ b.limits.maxTokens ∧
        b.limits.maxTokens < totalTokens (crossing :: later) ∧
        (WithinOne b.limits.maxTokens after.1.messages ↔ ∃ x ∈ crossing :: later,
          summary.tokenCount + totalTokens (crossing :: later) ≤
            b.limits.maxTokens + x.tokenCount) := by
  intro after reports
  refine ⟨add?_of_countsFit hfits, ?_⟩
  have hleaves : Leaves b.limits _ reports after.1.messages := add_leaves supply m j hlimit
  generalize (b.bounded supply m j).1.messages = found at hleaves
  have hwithin := withinOne_shortestOver b.limits.maxTokens found
  generalize after.1.messages = messages at hleaves ⊢
  cases hleaves with
  | suffix hnone => exact ⟨fun _ => hwithin, fun _ => hwithin, fun n hn => absurd hn (hnone n)⟩
  | summary hauto hsome hover x =>
      obtain ⟨k, hk⟩ := hsome
      refine ⟨fun hoff => ?_, fun hnone => absurd hk (hnone k), fun _ _ => ?_⟩
      · rw [hoff] at hauto
        exact absurd hauto Bool.false_ne_true
      · have hne : found ≠ [] := by
          rintro rfl
          exact absurd hover (Nat.not_lt_zero _)
        obtain ⟨crossing, later, heq, hle⟩ := shortestOver_eq_cons b.limits.maxTokens hne
        rw [heq] at hover ⊢
        exact ⟨x, crossing, later, rfl, hle, hover, withinOne_cons_iff hover⟩

/-- A short summary has room in the place of the message that crosses the limit. -/
theorem within_one_with_short_summary :
    let supply : Supply := ⟨fun _ => .epoch, fun _ => "summary"⟩
    let b : Buffer := ⟨⟨0, 15, true⟩, (saying "so far").summarizer, [sized "a" 10, sized "b" 10]⟩
    let after := b.add supply (sized "c" 10) .empty
    0 < b.limits.maxTokens ∧ b.CountsFit supply (sized "c" 10) .empty ∧
      b.add? supply (sized "c" 10) .empty = some after ∧
      .bufferSummarized 1 .tokenLimit ∈ after.2.events ∧
      ids after.1.messages = ["summary", "b", "c"] ∧ totalTokens after.1.messages = 21 ∧
      WithinOne 15 after.1.messages := by
  intro supply b after
  have hfits : b.CountsFit supply (sized "c" 10) .empty := by decide
  have hreported : .bufferSummarized 1 .tokenLimit ∈ after.2.events := by decide
  obtain ⟨hadd, -, -, hsummarized⟩ :=
    add_within_one_iff supply (sized "c" 10) b .empty (by decide) hfits
  obtain ⟨summary, crossing, later, hmessages, -, -, hiff⟩ := hsummarized 1 hreported
  have hheld : after.1.messages = [.make "summary" .epoch .system "so far",
      sized "b" 10, sized "c" 10] := by rfl
  refine ⟨by decide, hfits, hadd, hreported, by rw [hheld]; rfl, by rw [hheld]; rfl,
    hiff.mpr ?_⟩
  obtain ⟨rfl, rfl, rfl⟩ : summary = .make "summary" .epoch .system "so far" ∧
      crossing = sized "b" 10 ∧ later = [sized "c" 10] := by
    have hsame := hmessages.symm.trans hheld
    simpa only [List.cons.injEq] using hsame
  exact ⟨sized "b" 10, List.mem_cons_self, by decide⟩

/-- Where the tokens are too many for a word, the addition in words has no value. -/
example : add? ⟨fun _ => .epoch, fun _ => "summary"⟩ (sized "c" 5)
    ⟨⟨0, 10, false⟩, .digest, [sized "a" 11, sized "b" 18446744073709551613]⟩ .empty = none := rfl

/-- **The budget is not always kept.** With room for two tokens, the first of three
messages becomes a summary that is as long as the one that crosses the limit. Whichever
message is taken away, the others are over the limit. -/
theorem budget_broken_by_long_summary :
    let c := Course.run ⟨fun _ => .epoch, fun _ => "summary"⟩
      [.addAll [sized "a" 2, sized "b" 2, sized "c" 1]]
      (.opened (.buffer ⟨0, 2, true⟩) (saying "They met.") .empty)
    ∃ b : Buffer, c.memory = .buffer b ∧ ids b.messages = ["summary", "b", "c"] ∧
      b.messages.map (·.tokenCount) = [2, 2, 1] ∧ ¬WithinOne 2 b.messages := by
  intro c
  have hrun : c.memory = .buffer ⟨⟨0, 2, true⟩, (saying "They met.").summarizer,
      [.make "summary" .epoch .system "They met.", sized "b" 2, sized "c" 1]⟩ := by rfl
  refine ⟨_, hrun, rfl, by decide, ?_⟩
  rw [withinOne_iff]
  decide

end Recall.Memory.Buffer
