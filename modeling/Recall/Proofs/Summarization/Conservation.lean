import Recall.Proofs.Course
import Mathlib.Data.List.DropRight

/-!
# What a summarizing memory conserves

Nothing that came is lost and nothing is told twice: the batches that were turned into
summaries, followed by the recent messages, are the messages that came, and the
summaries are the texts of those batches. A call that fails takes nothing away, so the
message whose addition fails is conserved with the others and the next call is given a
longer batch.

The trigger and the batch use different limits: a compaction is tried beyond
`summarizeAfter` messages and takes all but `recentWindowSize`. Where the window is the
larger of the two, there is nothing to take until it is full, so a call is due exactly
beyond both (`add_cases`).
-/

namespace Recall.Memory.Summarization

/-- The memory with one more recent message, before anything is summarized. -/
def grown (m : Message) (s : Summarization) : Summarization :=
  { s with recent := s.recent ++ [m] }

/-- A call of the summarizer is due. -/
def Due (s : Summarization) : Prop :=
  max s.limits.summarizeAfter s.limits.recentWindowSize < s.recent.length

instance (s : Summarization) : Decidable s.Due :=
  inferInstanceAs (Decidable (_ < _))

/-- The messages that a call is given: all but the newest. -/
def batch (s : Summarization) : List Message := s.recent.rdrop s.limits.recentWindowSize

/-- The recent messages that stay if the call succeeds: the newest. -/
def window (s : Summarization) : List Message := s.recent.rtake s.limits.recentWindowSize

theorem batch_append_window (s : Summarization) : s.batch ++ s.window = s.recent :=
  List.take_append_drop _ _

/-- What adding a message does: it only grows the recent messages where no call is due,
and else depends on the reply to the one call that is made. -/
theorem add_cases (m : Message) (s : Summarization) (j : Journal) :
    (¬(s.grown m).Due ∧ s.add m j = ((.ok (), s.grown m), j)) ∨
    ((s.grown m).Due ∧ ∃ text, (s.summarizer.ask (s.grown m).batch j).1 = .ok text ∧
      s.add m j =
        ((.ok (), { s with
            summaries := s.summaries ++ [text]
            recent := (s.grown m).window }),
          (s.summarizer.ask (s.grown m).batch j).2.report
            (.summarized (s.grown m).surplus (s.summaries.length + 1)))) ∨
    ((s.grown m).Due ∧ ∃ e, (s.summarizer.ask (s.grown m).batch j).1 = .error e ∧
      s.add m j =
        ((.error (failure e), s.grown m), (s.summarizer.ask (s.grown m).batch j).2)) := by
  have hadd : s.add m j =
      if (s.grown m).limits.summarizeAfter < (s.grown m).recent.length then
        (s.grown m).compact j
      else ((.ok (), s.grown m), j) := rfl
  by_cases hafter : (s.grown m).limits.summarizeAfter < (s.grown m).recent.length
  · rw [if_pos hafter, compact] at hadd
    by_cases hsurplus : (s.grown m).surplus = 0
    · -- Beyond the trigger, but all of it fits into the window.
      rw [if_pos hsurplus] at hadd
      refine Or.inl ⟨?_, hadd⟩
      rw [surplus] at hsurplus
      unfold Due
      omega
    · rw [if_neg hsurplus] at hadd
      have hdue : (s.grown m).Due := by
        rw [surplus] at hsurplus
        unfold Due
        omega
      refine Or.inr ?_
      cases hreply : (s.summarizer.ask (s.grown m).batch j).1 with
      | ok text =>
          have hask : ((s.grown m).summarizer.ask
              ((s.grown m).recent.take (s.grown m).surplus) j).1 = .ok text := hreply
          refine Or.inl ⟨hdue, text, rfl, ?_⟩
          simp only [hask] at hadd
          rw [hadd]
          simp [grown, window, batch, surplus, List.rtake, List.rdrop]
      | error e =>
          have hask : ((s.grown m).summarizer.ask
              ((s.grown m).recent.take (s.grown m).surplus) j).1 = .error e := hreply
          refine Or.inr ⟨hdue, e, rfl, ?_⟩
          simp only [hask] at hadd
          exact hadd
  · rw [if_neg hafter] at hadd
    refine Or.inl ⟨?_, hadd⟩
    unfold Due
    omega

/-- One addition conserves: what its call condensed, if it made one, and what is recent
after it are the recent messages before it and the new one. -/
theorem add_conserves (m : Message) (s : Summarization) (j : Journal) :
    ∃ made : List Call,
      s.summarizer.calls (s.add m j).2 = s.summarizer.calls j ++ made ∧
      made.flatMap Call.condensed ++ (s.add m j).1.2.recent = s.recent ++ [m] ∧
      (s.add m j).1.2.summaries = s.summaries ++ made.filterMap Call.text? ∧
      (s.add m j).1.2.limits = s.limits ∧ (s.add m j).1.2.summarizer = s.summarizer := by
  rcases add_cases m s j with ⟨-, h⟩ | ⟨-, text, hreply, h⟩ | ⟨-, e, hreply, h⟩
  · rw [h]
    exact ⟨[], (List.append_nil _).symm, rfl, (List.append_nil _).symm, rfl, rfl⟩
  · rw [h]
    refine ⟨[⟨(s.grown m).batch, .ok text⟩], ?_, ?_, rfl, rfl, rfl⟩
    · rw [← hreply]
      exact s.summarizer.calls_ask _ j
    · show ((s.grown m).batch ++ []) ++ (s.grown m).window = s.recent ++ [m]
      rw [List.append_nil, batch_append_window]
      rfl
  · rw [h]
    refine ⟨[⟨(s.grown m).batch, .error e⟩], ?_, rfl, (List.append_nil _).symm, rfl, rfl⟩
    rw [← hreply]
    exact s.summarizer.calls_ask _ j

/-! ## The invariant -/

/-- **The invariant of a summarizing memory in use.** What was condensed and what is
recent make up the history. -/
structure Conserving (limits : Config.Summarization) (s : Summarizer)
    (c : Course Summarization) : Prop where
  limits_eq : c.memory.limits = limits.normalized
  summarizer_eq : c.memory.summarizer = s
  history_eq : (c.calls s).flatMap Call.condensed ++ c.memory.recent = c.history
  summaries_eq : c.memory.summaries = (c.calls s).filterMap Call.text?

theorem Conserving.add {limits : Config.Summarization} {s : Summarizer}
    {c : Course Summarization} (h : Conserving limits s c) (hs : c.Sound) (m : Message) :
    Conserving limits s (c.enters [m] ((c.memory.add m c.journal).1.2,
      (c.memory.add m c.journal).2)) := by
  obtain ⟨hlimits, rfl, hhistory, hsummaries⟩ := h
  obtain ⟨made, hmade, hrecent, htexts, hlimits', hsummarizer⟩ :=
    add_conserves m c.memory c.journal
  have hcalls := Course.calls_enters hs ((c.memory.add m c.journal).1.2,
    (c.memory.add m c.journal).2) hmade [m]
  refine ⟨hlimits'.trans hlimits, hsummarizer, ?_, ?_⟩
  · rw [hcalls, List.flatMap_append, List.append_assoc]
    show _ ++ (made.flatMap Call.condensed ++ (c.memory.add m c.journal).1.2.recent) =
      c.history ++ [m]
    rw [hrecent, ← List.append_assoc, hhistory]
  · rw [hcalls, List.filterMap_append, ← hsummaries]
    exact htexts

/-- Reading the clock makes no call. -/
theorem Conserving.look {limits : Config.Summarization} {s : Summarizer}
    {c : Course Summarization} (h : Conserving limits s c) (supply : Supply) :
    Conserving limits s (c.stays (c.memory, (c.journal.now supply).2)) :=
  ⟨h.limits_eq, h.summarizer_eq, h.history_eq, h.summaries_eq⟩

theorem conserving_restarts {limits : Config.Summarization} {s : Summarizer}
    {r : Summarization} (j : Journal) (hlimits : r.limits = limits.normalized)
    (hs : r.summarizer = s) (hsummaries : r.summaries = []) (hrecent : r.recent = []) :
    Conserving limits s (Course.restarts [] (r, j)) where
  limits_eq := hlimits
  summarizer_eq := hs
  history_eq := by
    rw [Course.calls_restarts]
    exact hrecent
  summaries_eq := by
    rw [Course.calls_restarts]
    exact hsummaries

/-- What holds of a summarizing memory that starts empty, and still holds when a message
comes and when the clock is read, holds in every course of one. -/
theorem exists_course {supply : Supply} {limits : Config.Summarization}
    {helpers : Collaborators} {P : Course Summarization → List Addition → Prop}
    (conserves : ∀ c past, P c past → Conserving limits helpers.summarizer c)
    (restarts : ∀ (r : Summarization) (j : Journal), r.limits = limits.normalized →
      r.summarizer = helpers.summarizer → r.summaries = [] → r.recent = [] →
      P (Course.restarts [] (r, j)) [])
    (add : ∀ c past m, c.Sound → P c past →
      P (c.enters [m] ((c.memory.add m c.journal).1.2, (c.memory.add m c.journal).2))
        (past ++ [⟨m, .summarization c.memory, c.journal⟩]))
    (look : ∀ c past, P c past → P (c.stays (c.memory, (c.journal.now supply).2)) past)
    (j : Journal) (requests : List Request) :
    ∃ c : Course Summarization,
      Course.run supply requests (.opened (.summarization limits) helpers j) =
        c.lift .summarization ∧
      c.Sound ∧ P c
        (Course.additions supply requests (.opened (.summarization limits) helpers j)) := by
  refine Course.summarization_run add ?_ look
    (c := Course.restarts [] (Summarization.opened limits helpers.summarizer j))
    (Course.sound_restarts _ _) (restarts _ _ rfl rfl rfl rfl) requests
  intro c past hc
  have h := conserves c past hc
  exact restarts { c.memory with summaries := [], recent := [] } _ h.limits_eq
    h.summarizer_eq rfl rfl

/-- Every course of a summarizing memory satisfies the invariant. -/
theorem exists_conserving (supply : Supply) (limits : Config.Summarization)
    (helpers : Collaborators) (j : Journal) (requests : List Request) :
    ∃ c : Course Summarization,
      Course.run supply requests (.opened (.summarization limits) helpers j) =
        c.lift .summarization ∧
      c.Sound ∧ Conserving limits helpers.summarizer c := by
  refine exists_course (P := fun c _ => Conserving limits helpers.summarizer c)
    (fun _ _ h => h) ?_ ?_ ?_ j requests
  · intro r j hlimits hs hsummaries hrecent
    exact conserving_restarts j hlimits hs hsummaries hrecent
  · intro c _ m hs h
    exact h.add hs m
  · intro c _ h
    exact h.look supply

/-- **Conservation.** In every course of a summarizing memory, the batches of the calls
that succeeded since it last forgot, in their order and followed by the recent messages,
are the messages that came since; the summaries are the texts of these calls. The next
message makes a call exactly beyond both limits, for all but the newest messages; if the
call fails, the addition fails, and all that changes is that the message is recent. -/
theorem conserves_history (supply : Supply) (limits : Config.Summarization)
    (helpers : Collaborators) (j : Journal) (requests : List Request) :
    let c := Course.run supply requests (.opened (.summarization limits) helpers j)
    let calls := c.calls helpers.summarizer
    ∃ s : Summarization, c.memory = .summarization s ∧
      calls.flatMap Call.condensed ++ s.recent = c.history ∧
      s.summaries = calls.filterMap Call.text? ∧
      ∀ m,
        let recent := s.recent ++ [m]
        let batch := recent.rdrop limits.normalized.recentWindowSize
        let due := max limits.normalized.summarizeAfter limits.normalized.recentWindowSize <
          recent.length
        (c.step supply (.add m)).journal.batches =
          c.journal.batches ++ (if due then [batch] else []) ∧
        ∀ e, due → helpers.summarizer.summarize c.journal.batches.length batch = .error e →
          (c.memory.answer supply (.add m) c.journal).1 =
            (.failed (failure e), .summarization { s with recent }) := by
  obtain ⟨c, hrun, -, hlimits, hsummarizer, hhistory, hsummaries⟩ :=
    exists_conserving supply limits helpers j requests
  rw [hrun]
  refine ⟨c.memory, rfl, hhistory, hsummaries, ?_⟩
  intro m
  rw [← hlimits, ← hsummarizer]
  -- The next step in the words of `add_cases`.
  show (c.memory.add m c.journal).2.batches = c.journal.batches ++
      (if (c.memory.grown m).Due then [(c.memory.grown m).batch] else []) ∧
    ∀ e, (c.memory.grown m).Due →
      (c.memory.summarizer.ask (c.memory.grown m).batch c.journal).1 = .error e →
        (Reply.ofChange (c.memory.add m c.journal).1.1,
          Memory.summarization (c.memory.add m c.journal).1.2) =
            (.failed (failure e), .summarization (c.memory.grown m))
  rcases add_cases m c.memory c.journal with
    ⟨hdue, h⟩ | ⟨hdue, text, hreply, h⟩ | ⟨hdue, e, hreply, h⟩
  · rw [h, if_neg hdue, List.append_nil]
    exact ⟨rfl, fun e hdue' => absurd hdue' hdue⟩
  · rw [h, if_pos hdue]
    refine ⟨rfl, ?_⟩
    intro e _ hfailed
    rw [hreply] at hfailed
    exact absurd hfailed (by simp)
  · rw [h, if_pos hdue]
    refine ⟨rfl, ?_⟩
    intro e' _ hfailed
    rw [hreply, Except.error.injEq] at hfailed
    rw [hfailed]
    rfl

end Recall.Memory.Summarization
