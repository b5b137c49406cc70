import Recall.Proofs.Binary.Whole
import Recall.Proofs.Occupancy
import Recall.Proofs.Summarization.Schedule
import Recall.Proofs.Word

/-!
# Figures that fit a word

The compression rate of a summarizing memory is estimated from a product of three numbers, one
of which is a limit that nobody bounds: it may be the largest word of 64 bits. Whether the
product fits a word cannot be seen from the arithmetic. What keeps it small is how summaries
come about: **none is stored before more messages were accepted than the memory has room for**,
so a limit that is larger than the number of messages is multiplied by zero.

The invariant (`Earning`) counts additions that succeeded. A message whose addition failed is
recent like any other, and the next call is made with it, so what is held says little about what
was accepted. But no addition fails before the room is used up, and up to then all that is held
was accepted.

The second side is the occupancy computed in words, where every single result has to fit
(`occupancy?`). It agrees with the occupancy wherever it has a value.
-/

namespace Recall

theorem Config.Summarization.summarizeAfter_pos (limits : Config.Summarization) :
    1 ≤ limits.normalized.summarizeAfter :=
  orDefault_pos (by decide) limits.summarizeAfter

/-- The two branches of a rate: nothing is divided by zero. -/
theorem Occupancy.rate_cases (active total : Nat) :
    (total = 0 ∧ rate active total = 1) ∨
    (total ≠ 0 ∧ (Binary.ofNat total : Double).isZero = false ∧
      rate active total = Binary.ofNat active / Binary.ofNat total) := by
  by_cases htotal : total = 0
  · exact Or.inl ⟨htotal, if_pos htotal⟩
  · refine Or.inr ⟨htotal, ?_, if_neg htotal⟩
    rw [← Bool.not_eq_true, Binary.isZero_ofNat_iff (by decide)]
    exact htotal

namespace Memory.Summarization

open Addition (taken taken_snoc_of_ok taken_snoc_of_error)
open Buffer (sized)

/-! ## The occupancy in words -/

/-- The tokens that the memory is taken to have been given. -/
def original (s : Summarization) : Nat :=
  s.summaries.length * s.limits.summarizeAfter * assumedTokens + totalTokens s.recent

/-- The same, computed in words. -/
def original? (s : Summarization) : Option Nat := do
  let recentTokens ← Word.sum? (s.recent.map (·.tokenCount))
  let condensed ← Word.mul? s.summaries.length s.limits.summarizeAfter
  let condensedTokens ← Word.mul? condensed assumedTokens
  Word.add? condensedTokens recentTokens

/-- The tokens that the memory holds. -/
def tokens? (s : Summarization) : Option Nat := do
  let recentTokens ← Word.sum? (s.recent.map (·.tokenCount))
  let summaryTokens ← Word.sum? (s.summaries.map estimateTokens)
  Word.add? recentTokens summaryTokens

/-- The occupancy of the memory, with every number computed in words; none if one of them does
not fit. -/
def occupancy? (s : Summarization) : Option Occupancy := do
  let tokens ← s.tokens?
  let original ← s.original?
  let messages ← Word.add? s.summaries.length s.recent.length
  return ⟨messages, tokens, s.recent.length, tokens, Occupancy.rate tokens original⟩

theorem summaryTokens_eq_sum (summaries : List String) :
    summaryTokens summaries = (summaries.map estimateTokens).sum := by
  induction summaries with
  | nil => rfl
  | cons summary summaries ih => rw [summaryTokens, ih, List.map_cons, List.sum_cons]

/-- **No step of the estimate fails on its own**: they fit if the result does. -/
theorem original?_eq (s : Summarization) : s.original? = Word.ofNat? s.original := by
  have hcondensed : s.summaries.length * s.limits.summarizeAfter ≤
      s.summaries.length * s.limits.summarizeAfter * assumedTokens :=
    Nat.le_mul_of_pos_right _ (by decide)
  rw [original?, Word.sum?_tokens]
  refine Word.ofNat?_bind_of_le (Nat.le_add_left _ _) ?_
  refine Word.ofNat?_bind_of_le (hcondensed.trans (Nat.le_add_right _ _)) ?_
  exact Word.ofNat?_bind_of_le (Nat.le_add_right _ _) rfl

theorem tokens?_eq (s : Summarization) :
    s.tokens? = Word.ofNat? (totalTokens s.recent + summaryTokens s.summaries) := by
  rw [tokens?, Word.sum?_tokens, Word.sum?_eq, ← summaryTokens_eq_sum]
  refine Word.ofNat?_bind_of_le (Nat.le_add_right _ _) ?_
  exact Word.ofNat?_bind_of_le (Nat.le_add_left _ _) rfl

/-- **The occupancy can be computed in words if and only if three figures fit**: the tokens that
the memory holds, those of the estimate, and the number of messages. -/
theorem occupancy?_eq (s : Summarization) :
    s.occupancy? =
      if totalTokens s.recent + summaryTokens s.summaries < 2 ^ 64 ∧ s.original < 2 ^ 64 ∧
          s.summaries.length + s.recent.length < 2 ^ 64 then
        some s.occupancy
      else none := by
  rw [occupancy?, tokens?_eq, original?_eq, Word.add?, ite_and, ite_and]
  simp only [Option.bind_eq_bind, Word.ofNat?_bind]
  rfl

/-! ## One addition -/

/-- The memory has earned its summaries by additions that succeeded: at least one for each of
them, and more than it has room for before there is any. As long as there is room, all that is
held was accepted. -/
structure Earned (accepted : Nat) (s : Summarization) : Prop where
  summaries_le : s.summaries.length ≤ accepted
  room_lt : s.summaries ≠ [] → s.limits.room < accepted
  held : min s.recent.length s.limits.room ≤ accepted

/-- What adding a message earns: one more addition that counts, whether it makes a summary or
not, or nothing if it fails, and then it makes none. -/
theorem add_earned {accepted : Nat} {s : Summarization} (h : Earned accepted s) (m : Message)
    (j : Journal) :
    ((s.add m j).1.1 = .ok () ∧ Earned (accepted + 1) (s.add m j).1.2) ∨
    (∃ e, (s.add m j).1.1 = .error e ∧ Earned accepted (s.add m j).1.2) := by
  obtain ⟨hsummaries, hroom, hheld⟩ := h
  have hlen := length_grown m s
  have hlimits : (s.grown m).limits = s.limits := rfl
  rcases add_cases m s j with ⟨-, hadd⟩ | ⟨hdue, text, -, hadd⟩ | ⟨hdue, e, -, hadd⟩
  · rw [hadd]
    refine Or.inl ⟨rfl, Nat.le_succ_of_le hsummaries, ?_, ?_⟩
    · exact fun hsome => Nat.lt_succ_of_lt (hroom hsome)
    · rw [hlen, hlimits]
      omega
  · -- A call is due beyond the room only, so the room was used up by accepted messages.
    rw [due_iff, hlen, hlimits] at hdue
    have hused : s.limits.room ≤ accepted := by omega
    rw [hadd]
    refine Or.inl ⟨rfl, ?_, fun _ => Nat.lt_succ_of_le hused, ?_⟩
    · rw [List.length_append, List.length_singleton]
      exact Nat.succ_le_succ hsummaries
    · exact (Nat.min_le_right _ _).trans (Nat.le_succ_of_le hused)
  · rw [due_iff, hlen, hlimits] at hdue
    have hused : s.limits.room ≤ accepted := by omega
    rw [hadd]
    exact Or.inr ⟨_, rfl, hsummaries, hroom, (Nat.min_le_right _ _).trans hused⟩

/-! ## Courses -/

/-- **The invariant of a memory that earns its summaries.** The additions that count are those
since it last forgot. -/
structure Earning (supply : Supply) (limits : Config.Summarization) (s : Summarizer)
    (c : Course Summarization) (past : List Addition) : Prop where
  conserving : Conserving limits s c
  history_eq : past.map Addition.message = c.history
  earned : Earned (taken supply past).length c.memory

variable {supply : Supply} {limits : Config.Summarization} {s : Summarizer}
  {c : Course Summarization} {past : List Addition}

theorem Earning.add (h : Earning supply limits s c past) (hs : c.Sound) (m : Message) :
    Earning supply limits s
      (c.enters [m] ((c.memory.add m c.journal).1.2, (c.memory.add m c.journal).2))
      (past ++ [⟨m, .summarization c.memory, c.journal⟩]) := by
  have hhistory : (past ++ [Addition.mk m (.summarization c.memory) c.journal]).map
      Addition.message = c.history ++ [m] := by
    rw [List.map_append, h.history_eq]
    rfl
  have hreply : (Addition.mk m (.summarization c.memory) c.journal).reply supply =
      (c.memory.add m c.journal).1.1 := rfl
  refine ⟨h.conserving.add hs m, hhistory, ?_⟩
  rcases add_earned h.earned m c.journal with ⟨hok, hearned⟩ | ⟨e, he, hearned⟩
  · rw [taken_snoc_of_ok past (hreply.trans hok), List.length_append, List.length_singleton]
    exact hearned
  · rw [taken_snoc_of_error past (hreply.trans he)]
    exact hearned

theorem earning_restarts {r : Summarization} (j : Journal)
    (hlimits : r.limits = limits.normalized) (hs : r.summarizer = s)
    (hsummaries : r.summaries = []) (hrecent : r.recent = []) :
    Earning supply limits s (Course.restarts [] (r, j)) [] := by
  refine ⟨conserving_restarts j hlimits hs hsummaries hrecent, rfl, ?_, ?_, ?_⟩
  · exact Nat.le_of_eq (congrArg List.length hsummaries)
  · exact fun hsome => absurd hsummaries hsome
  · exact (Nat.min_le_left _ _).trans (Nat.le_of_eq (congrArg List.length hrecent))

/-- Every course of a summarizing memory satisfies the invariant. -/
theorem exists_earning (supply : Supply) (limits : Config.Summarization)
    (helpers : Collaborators) (j : Journal) (requests : List Request) :
    ∃ c : Course Summarization,
      Course.run supply requests (.opened (.summarization limits) helpers j) =
        c.lift .summarization ∧
      c.Sound ∧ Earning supply limits helpers.summarizer c
        (Course.additions supply requests (.opened (.summarization limits) helpers j)) := by
  refine exists_course (fun _ _ h => h.conserving) ?_ ?_ ?_ j requests
  · intro r j hlimits hs hsummaries hrecent
    exact earning_restarts j hlimits hs hsummaries hrecent
  · intro c past m hs h
    exact h.add hs m
  · intro c past h
    exact { h with conserving := h.conserving.look supply }

theorem Earning.taken_le (h : Earning supply limits s c past) :
    (taken supply past).length ≤ c.history.length := by
  rw [← h.history_eq, List.length_map]
  exact List.length_filter_le _ _

/-- A stored summary shows that the trigger is below the number of accepted messages. -/
theorem Earning.summarizeAfter_lt (h : Earning supply limits s c past)
    (hsome : c.memory.summaries ≠ []) :
    limits.normalized.summarizeAfter < (taken supply past).length := by
  have hroom := h.earned.room_lt hsome
  rw [h.conserving.limits_eq] at hroom
  exact Nat.lt_of_le_of_lt (Nat.le_max_right _ _) hroom

/-! ## The estimate -/

/-- A trigger that is not below the number of messages is multiplied by zero. -/
theorem Earning.original_le (h : Earning supply limits s c past) :
    c.memory.original ≤
      100 * c.history.length * c.history.length + totalTokens c.memory.recent := by
  have hcondensed : c.memory.summaries.length * c.memory.limits.summarizeAfter ≤
      c.history.length * c.history.length := by
    by_cases hnone : c.memory.summaries = []
    · rw [hnone, List.length_nil, Nat.zero_mul]
      exact Nat.zero_le _
    · have hafter := (h.summarizeAfter_lt hnone).trans_le h.taken_le
      rw [← h.conserving.limits_eq] at hafter
      exact Nat.mul_le_mul (h.earned.summaries_le.trans h.taken_le) (Nat.le_of_lt hafter)
  rw [original, assumedTokens, Nat.mul_assoc 100, Nat.mul_comm 100]
  exact Nat.add_le_add_right (Nat.mul_le_mul_right 100 hcondensed) _

/-- The estimate is zero only where there is no summary and no recent token. -/
theorem Earning.original_eq_zero_iff (h : Earning supply limits s c past) :
    c.memory.original = 0 ↔ c.memory.summaries = [] ∧ totalTokens c.memory.recent = 0 := by
  have hafter : c.memory.limits.summarizeAfter ≠ 0 := by
    rw [h.conserving.limits_eq]
    exact Nat.one_le_iff_ne_zero.mp limits.summarizeAfter_pos
  simp [original, assumedTokens, hafter]

/-- There are at most twice as many summaries and recent messages as messages that came. -/
theorem Earning.messages_lt (h : Earning supply limits s c past)
    (hfits : 100 * c.history.length * c.history.length < 2 ^ 64) :
    c.memory.summaries.length + c.memory.recent.length < 2 ^ 64 := by
  have hsummaries := h.earned.summaries_le.trans h.taken_le
  have hrecent : c.memory.recent.length ≤ c.history.length := by
    rw [← h.conserving.history_eq, List.length_append]
    exact Nat.le_add_left _ _
  have hsquare := Nat.le_mul_self c.history.length
  rw [Nat.mul_assoc] at hfits
  omega

/-- **No limit makes the figures overflow.** In every course of a summarizing memory, of limits
of any size, a summary is stored only after more additions succeeded than the trigger says, and
there are at most as many summaries as additions that succeeded since the memory last forgot.
So the estimate behind the compression rate is at most 100 times the square of the number of
messages, plus the recent tokens. If that fits a word, so does every step of the estimate, and
the whole occupancy can be computed in words unless the tokens that are held do not fit
themselves. The rate divides by the estimate only where that is not zero, and is 1 where there
is no summary and no recent token. -/
theorem limits_never_overflow (supply : Supply) (limits : Config.Summarization)
    (helpers : Collaborators) (j : Journal) (requests : List Request) :
    let c := Course.run supply requests (.opened (.summarization limits) helpers j)
    let accepted := (taken supply
      (Course.additions supply requests (.opened (.summarization limits) helpers j))).length
    let n := c.history.length
    ∃ s : Summarization, c.memory = .summarization s ∧
      c.reply supply .occupancy = .occupancy s.occupancy ∧
      (s.summaries ≠ [] → limits.normalized.summarizeAfter < accepted) ∧
      s.summaries.length ≤ accepted ∧ accepted ≤ n ∧
      s.original = s.summaries.length * limits.normalized.summarizeAfter * 100 +
        totalTokens s.recent ∧
      s.original ≤ 100 * n * n + totalTokens s.recent ∧
      (100 * n * n + totalTokens s.recent < 2 ^ 64 →
        s.original? = some s.original ∧
        s.occupancy? =
          if totalTokens s.recent + summaryTokens s.summaries < 2 ^ 64 then some s.occupancy
          else none) ∧
      ((s.summaries = [] ∧ totalTokens s.recent = 0 ∧ s.occupancy.compressionRate = 1) ∨
        ((Binary.ofNat s.original : Double).isZero = false ∧
          s.occupancy.compressionRate =
            Binary.ofNat s.occupancy.activeTokens / Binary.ofNat s.original)) := by
  obtain ⟨c, hrun, -, h⟩ := exists_earning supply limits helpers j requests
  rw [hrun]
  intro d accepted n
  have hle := h.original_le
  refine ⟨c.memory, rfl, rfl, h.summarizeAfter_lt, h.earned.summaries_le, h.taken_le, ?_, hle,
    ?_, ?_⟩
  · rw [original, h.conserving.limits_eq, assumedTokens]
  · intro hfits
    have horiginal : c.memory.original < 2 ^ 64 := Nat.lt_of_le_of_lt hle hfits
    have hmessages := h.messages_lt (Nat.lt_of_le_of_lt (Nat.le_add_right _ _) hfits)
    rw [original?_eq, Word.ofNat?_of_lt horiginal]
    refine ⟨rfl, ?_⟩
    simp only [occupancy?_eq, horiginal, hmessages, and_true]
  · rcases Occupancy.rate_cases c.memory.occupancy.activeTokens c.memory.original with
      ⟨hzero, hrate⟩ | ⟨-, hdivisor, hrate⟩
    · obtain ⟨hnone, htokens⟩ := h.original_eq_zero_iff.mp hzero
      exact Or.inl ⟨hnone, htokens, hrate⟩
    · exact Or.inr ⟨hdivisor, hrate⟩

/-- With room for one message, the second makes a call that fails, and the third makes one for
the first two. In the estimate their summary stands for one message of 100 tokens. -/
theorem figures_fit_after_failure :
    let s : Summarizer :=
      ⟨fun k _ => if k = 0 then .error (.summarization "away") else .ok "so far"⟩
    let c := Course.run ⟨fun _ => .epoch, fun _ => ""⟩
      [.add (sized "a" 5), .add (sized "b" 0), .add (sized "c" 7)]
      (.opened (.summarization ⟨1, 1⟩) { Collaborators.builtIn with summarizer := s } .empty)
    c.history.length = 3 ∧ 100 * 3 * 3 + 7 < 2 ^ 64 ∧
      ∃ s : Summarization, c.memory = .summarization s ∧ s.summaries = ["so far"] ∧
        s.original? = some 107 ∧ s.occupancy? = some s.occupancy ∧
        (Binary.ofNat s.original : Double).isZero = false := by
  intro s c
  obtain ⟨t, ht, -, -, -, -, -, -, hfits, hrate⟩ :=
    limits_never_overflow ⟨fun _ => .epoch, fun _ => ""⟩ ⟨1, 1⟩
      { Collaborators.builtIn with summarizer := s } .empty
      [.add (sized "a" 5), .add (sized "b" 0), .add (sized "c" 7)]
  have hmemory : c.memory = .summarization ⟨⟨1, 1⟩, s, ["so far"], [sized "c" 7]⟩ := by rfl
  obtain rfl := Memory.summarization.inj (hmemory.symm.trans ht)
  obtain ⟨horiginal, hoccupancy⟩ := hfits (by decide)
  have hvalue : original ⟨⟨1, 1⟩, s, ["so far"], [sized "c" 7]⟩ = 107 := by decide
  have htokens : totalTokens [sized "c" 7] + summaryTokens ["so far"] < 2 ^ 64 := by decide
  rw [hvalue] at horiginal
  rw [if_pos htokens] at hoccupancy
  refine ⟨by decide, by decide, _, hmemory, rfl, horiginal, hoccupancy, ?_⟩
  rcases hrate with ⟨hnone, -⟩ | ⟨hdivisor, -⟩
  · exact absurd hnone (List.cons_ne_nil _ _)
  · exact hdivisor

/-- The largest trigger is never met, and so it does no harm. -/
example :
    let c := Course.run ⟨fun _ => .epoch, fun _ => ""⟩ [.addAll [sized "a" 5, sized "b" 7]]
      (.opened (.summarization ⟨1, 18446744073709551615⟩) .builtIn .empty)
    ∃ s : Summarization, c.memory = .summarization s ∧ s.original? = some 12 :=
  ⟨⟨⟨1, 18446744073709551615⟩, .digest, [], [sized "a" 5, sized "b" 7]⟩, rfl, rfl⟩

/-- It would do harm beside a summary, in a memory that no course leads to. -/
example : original? ⟨⟨1, 18446744073709551615⟩, .digest, ["so far"], []⟩ = none := rfl

end Memory.Summarization

end Recall
