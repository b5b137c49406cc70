import Recall.Proofs.Summarization.Conservation

/-!
# When a summarizing memory compacts

The trigger and the window are independent limits, and what follows from them together is
a schedule. A memory has *room* for as many recent messages as the larger limit says. The
message after that makes a call, which takes all but the window: a *period* of messages.
As long as no call fails, the numbers of summaries and of recent messages are a quotient
and a remainder of the number of messages that came.

A failed call takes nothing, so the next message makes a call again, with one more message
in its batch. **What a memory is behind by is its streak**, the number of additions at the
end that failed, which is the number of calls that failed since the last that succeeded.
All numbers follow from the streak (`Behind`), and one addition either ends it or makes it
longer by one (`add_behind`).
-/

namespace Recall

def Call.failed (call : Call) : Bool := call.text?.isNone

/-- The addition failed. -/
def Addition.refused (supply : Supply) (a : Addition) : Bool := !a.accepted supply

/-- How many recent messages there are at most before a call is made. -/
def Config.Summarization.room (limits : Config.Summarization) : Nat :=
  max limits.recentWindowSize limits.summarizeAfter

/-- How many messages a call is for if the one before it succeeded. -/
def Config.Summarization.period (limits : Config.Summarization) : Nat :=
  limits.room + 1 - limits.recentWindowSize

theorem Config.Summarization.window_le_room (limits : Config.Summarization) :
    limits.recentWindowSize ≤ limits.room :=
  Nat.le_max_left _ _

/-! ## Streaks -/

/-- How many elements at the end of a list satisfy a condition without a break. -/
def streak {α : Type} (p : α → Bool) (l : List α) : Nat := (l.rtakeWhile p).length

theorem streak_snoc {α : Type} (p : α → Bool) (l : List α) (x : α) :
    streak p (l ++ [x]) = if p x then streak p l + 1 else 0 := by
  unfold streak
  by_cases h : p x = true
  · rw [List.rtakeWhile_concat_pos p l x h, if_pos h, List.length_append,
      List.length_singleton]
  · rw [List.rtakeWhile_concat_neg p l x h, if_neg h, List.length_nil]

/-- Where nothing satisfies the condition, there is no streak. -/
theorem streak_eq_zero {α : Type} {p : α → Bool} {l : List α} (h : ∀ x ∈ l, p x = false) :
    streak p l = 0 := by
  cases l using List.reverseRecOn with
  | nil => rfl
  | append_singleton l x => rw [streak_snoc, h x (by simp), if_neg Bool.false_ne_true]

/-- Calls that all succeed condense all of their batches, each into one text. -/
theorem length_condensed {calls : List Call} {size : Nat}
    (h : ∀ call ∈ calls, call.failed = false ∧ call.batch.length = size) :
    (calls.flatMap Call.condensed).length = calls.length * size ∧
      (calls.filterMap Call.text?).length = calls.length := by
  induction calls with
  | nil => simp
  | cons call calls ih =>
      obtain ⟨hcondensed, htexts⟩ := ih fun other hother => h other (List.mem_cons_of_mem _ hother)
      obtain ⟨hok, hsize⟩ := h call List.mem_cons_self
      obtain ⟨batch, reply⟩ := call
      cases reply with
      | error e => exact absurd hok Bool.false_ne_true.symm
      | ok text =>
          constructor
          · rw [List.flatMap_cons, List.length_append, hcondensed, List.length_cons,
              Nat.succ_mul, Nat.add_comm]
            exact congrArg _ hsize
          · rw [List.filterMap_cons]
            exact congrArg Nat.succ htexts

namespace Memory.Summarization

/-! ## One addition -/

/-- The memory holds what it has room for, and if calls failed it is beyond that by as many
messages as calls. -/
def Behind (streak : Nat) (s : Summarization) : Prop :=
  (streak = 0 → s.recent.length ≤ s.limits.room) ∧
    (streak ≠ 0 → s.recent.length = s.limits.room + streak)

theorem length_grown (m : Message) (s : Summarization) :
    (s.grown m).recent.length = s.recent.length + 1 :=
  List.length_append

theorem due_iff (s : Summarization) : s.Due ↔ s.limits.room < s.recent.length := by
  rw [Due, Config.Summarization.room, Nat.max_comm]

theorem length_window {s : Summarization} (h : s.Due) :
    s.window.length = s.limits.recentWindowSize := by
  have hroom := s.limits.window_le_room
  rw [due_iff] at h
  rw [window, List.rtake, List.length_drop]
  omega

/-- A call is for a period of messages, and for one more after each failure. -/
theorem length_batch {streak : Nat} {s : Summarization} (h : Behind streak s) {m : Message}
    (hdue : (s.grown m).Due) :
    (s.grown m).batch.length = s.limits.period + streak := by
  have hroom := s.limits.window_le_room
  have hlimits : (s.grown m).limits = s.limits := rfl
  rw [due_iff, length_grown, hlimits] at hdue
  rw [batch, List.rdrop, List.length_take, length_grown, hlimits, Config.Summarization.period]
  by_cases hstreak : streak = 0
  · have hle := h.1 hstreak
    omega
  · have heq := h.2 hstreak
    omega

/-- What adding a message does to a streak: it ends, with a call or because none is due, or
it is longer by one. -/
theorem add_behind {streak : Nat} {s : Summarization} (h : Behind streak s) (m : Message)
    (j : Journal) :
    (streak = 0 ∧ s.add m j = ((.ok (), s.grown m), j) ∧ Behind 0 (s.grown m)) ∨
    ((s.grown m).Due ∧ ∃ text, (s.summarizer.ask (s.grown m).batch j).1 = .ok text ∧
      s.add m j =
        ((.ok (), { s with
            summaries := s.summaries ++ [text]
            recent := (s.grown m).window }),
          (s.summarizer.ask (s.grown m).batch j).2.report
            (.summarized (s.grown m).surplus (s.summaries.length + 1))) ∧
      Behind 0 { s with
        summaries := s.summaries ++ [text]
        recent := (s.grown m).window }) ∨
    ((s.grown m).Due ∧ ∃ e, (s.summarizer.ask (s.grown m).batch j).1 = .error e ∧
      s.add m j =
        ((.error (failure e), s.grown m), (s.summarizer.ask (s.grown m).batch j).2) ∧
      Behind (streak + 1) (s.grown m)) := by
  have hlen := length_grown m s
  have hlimits : (s.grown m).limits = s.limits := rfl
  rcases add_cases m s j with
    ⟨hdue, hadd⟩ | ⟨hdue, text, hreply, hadd⟩ | ⟨hdue, e, hreply, hadd⟩
  · -- Beyond the room a call would be due.
    rw [due_iff, hlen, hlimits] at hdue
    have hstreak : streak = 0 := by
      by_contra hne
      have heq := h.2 hne
      omega
    refine Or.inl ⟨hstreak, hadd, fun _ => ?_, fun hne => absurd rfl hne⟩
    rw [hlen, hlimits]
    omega
  · refine Or.inr (Or.inl ⟨hdue, text, hreply, hadd, fun _ => ?_, fun hne => absurd rfl hne⟩)
    show (s.grown m).window.length ≤ s.limits.room
    rw [length_window hdue]
    exact s.limits.window_le_room
  · refine Or.inr (Or.inr ⟨hdue, e, hreply, hadd, fun hzero => by omega, fun _ => ?_⟩)
    rw [due_iff, hlen, hlimits] at hdue
    rw [hlen, hlimits]
    by_cases hstreak : streak = 0
    · have hle := h.1 hstreak
      omega
    · have heq := h.2 hstreak
      omega

/-! ## Courses -/

/-- **The invariant of a schedule.** The calls at the end that failed are as many as the
additions at the end that failed, and the memory is behind by them. Each batch is a period
and what the memory was behind by when it was made. After a call the window is full. -/
structure Scheduling (supply : Supply) (limits : Config.Summarization) (s : Summarizer)
    (c : Course Summarization) (past : List Addition) : Prop where
  conserving : Conserving limits s c
  streak_eq : streak Call.failed (c.calls s) = streak (·.refused supply) past
  behind : Behind (streak Call.failed (c.calls s)) c.memory
  batches : ∀ before call, before ++ [call] <+: c.calls s →
    call.batch.length = limits.normalized.period + streak Call.failed before
  full : c.calls s ≠ [] → limits.normalized.recentWindowSize ≤ c.memory.recent.length

variable {supply : Supply} {limits : Config.Summarization} {s : Summarizer}
  {c : Course Summarization} {past : List Addition}

/-- An addition that makes no call, when the last one did not fail. -/
theorem Scheduling.quiet (h : Scheduling supply limits s c past) {a : Addition}
    (hzero : streak Call.failed (c.calls s) = 0) (ha : a.reply supply = .ok ())
    {d : Course Summarization} (hconserving : Conserving limits s d)
    (hcalls : d.calls s = c.calls s) (hbehind : Behind 0 d.memory)
    (hgrown : c.memory.recent.length ≤ d.memory.recent.length) :
    Scheduling supply limits s d (past ++ [a]) := by
  have hrefused : a.refused supply = false := by
    rw [Addition.refused, Addition.accepted_of_ok ha]
    rfl
  refine ⟨hconserving, ?_, ?_, ?_, ?_⟩
  · rw [hcalls, hzero, streak_snoc, hrefused, if_neg Bool.false_ne_true]
  · rw [hcalls, hzero]
    exact hbehind
  · rw [hcalls]
    exact h.batches
  · rw [hcalls]
    exact fun hne => (h.full hne).trans hgrown

/-- An addition that makes a call, and fails exactly if the call does. -/
theorem Scheduling.call (h : Scheduling supply limits s c past) {a : Addition} {call : Call}
    (hreply : a.refused supply = call.failed)
    (hbatch : call.batch.length =
      limits.normalized.period + streak Call.failed (c.calls s))
    {d : Course Summarization} (hconserving : Conserving limits s d)
    (hcalls : d.calls s = c.calls s ++ [call])
    (hbehind : Behind (streak Call.failed (c.calls s ++ [call])) d.memory)
    (hfull : limits.normalized.recentWindowSize ≤ d.memory.recent.length) :
    Scheduling supply limits s d (past ++ [a]) := by
  refine ⟨hconserving, ?_, ?_, ?_, fun _ => hfull⟩
  · rw [hcalls, streak_snoc, streak_snoc, hreply, h.streak_eq]
  · rw [hcalls]
    exact hbehind
  · rw [hcalls]
    intro before other hprefix
    rcases List.prefix_concat_iff.mp hprefix with heq | hprefix
    · obtain ⟨rfl, hsingle⟩ := List.append_inj' heq rfl
      rw [List.singleton_inj.mp hsingle]
      exact hbatch
    · exact h.batches before other hprefix

theorem Scheduling.add (h : Scheduling supply limits s c past) (hs : c.Sound) (m : Message) :
    Scheduling supply limits s
      (c.enters [m] ((c.memory.add m c.journal).1.2, (c.memory.add m c.journal).2))
      (past ++ [⟨m, .summarization c.memory, c.journal⟩]) := by
  have hconserving := h.conserving.add hs m
  have hlimits := h.conserving.limits_eq
  obtain rfl := h.conserving.summarizer_eq
  have hreply : (Addition.mk m (.summarization c.memory) c.journal).reply supply =
      (c.memory.add m c.journal).1.1 := rfl
  -- What a call that is due is asked, and what it says about the streak.
  have hask := c.memory.summarizer.calls_ask (c.memory.grown m).batch c.journal
  rcases add_behind h.behind m c.journal with
    ⟨hzero, hadd, hnext⟩ | ⟨hdue, text, htext, hadd, hnext⟩ | ⟨hdue, e, he, hadd, hnext⟩
  · rw [hadd] at hreply hconserving ⊢
    refine h.quiet hzero hreply hconserving rfl hnext ?_
    show _ ≤ (c.memory.grown m).recent.length
    rw [length_grown]
    exact Nat.le_succ _
  · rw [hadd] at hreply hconserving ⊢
    rw [htext] at hask
    have hbatch := length_batch h.behind hdue
    rw [hlimits] at hbatch
    refine h.call ?_ hbatch hconserving (Course.calls_enters hs _ hask [m]) ?_ ?_
    · rw [Addition.refused, Addition.accepted_of_ok hreply]
      rfl
    · rw [streak_snoc]
      exact hnext
    · show _ ≤ (c.memory.grown m).window.length
      rw [length_window hdue, ← hlimits]
      exact Nat.le_refl _
  · rw [hadd] at hreply hconserving ⊢
    rw [he] at hask
    have hbatch := length_batch h.behind hdue
    rw [hlimits] at hbatch
    refine h.call ?_ hbatch hconserving (Course.calls_enters hs _ hask [m]) ?_ ?_
    · rw [Addition.refused, Addition.accepted_of_error hreply]
      rfl
    · rw [streak_snoc]
      exact hnext
    · have hroom := c.memory.limits.window_le_room
      rw [due_iff] at hdue
      rw [← hlimits]
      exact hroom.trans (Nat.le_of_lt hdue)

theorem scheduling_restarts {r : Summarization} (j : Journal)
    (hlimits : r.limits = limits.normalized) (hs : r.summarizer = s)
    (hsummaries : r.summaries = []) (hrecent : r.recent = []) :
    Scheduling supply limits s (Course.restarts [] (r, j)) [] := by
  have hcalls := Course.calls_restarts s [] (r, j)
  constructor
  · exact conserving_restarts j hlimits hs hsummaries hrecent
  · rw [hcalls]
    rfl
  · rw [hcalls]
    refine ⟨fun _ => ?_, fun hne => absurd rfl hne⟩
    show r.recent.length ≤ _
    rw [hrecent]
    exact Nat.zero_le _
  · rw [hcalls]
    intro before call hprefix
    exact absurd (List.prefix_nil.mp hprefix) (by simp)
  · exact fun hne => absurd hcalls hne

/-- Every course of a summarizing memory satisfies the invariant. -/
theorem exists_scheduling (supply : Supply) (limits : Config.Summarization)
    (helpers : Collaborators) (j : Journal) (requests : List Request) :
    ∃ c : Course Summarization,
      Course.run supply requests (.opened (.summarization limits) helpers j) =
        c.lift .summarization ∧
      c.Sound ∧ Scheduling supply limits helpers.summarizer c
        (Course.additions supply requests (.opened (.summarization limits) helpers j)) := by
  refine exists_course (fun _ _ h => h.conserving) ?_ ?_ ?_ j requests
  · intro r j hlimits hs hsummaries hrecent
    exact scheduling_restarts j hlimits hs hsummaries hrecent
  · intro c past m hs h
    exact h.add hs m
  · intro c past h
    exact { h with conserving := h.conserving.look supply }

/-! ## The closed form -/

/-- A number of messages determines how many periods are over and what is left: beyond the
room they are a quotient and a remainder. -/
theorem periods_unique {limits : Config.Summarization} {came periods left : Nat}
    (hcame : periods * limits.period + left = came) (hleft : left ≤ limits.room)
    (hfull : periods ≠ 0 → limits.recentWindowSize ≤ left) :
    periods = (if came ≤ limits.room then 0
      else 1 + (came - limits.room - 1) / limits.period) ∧
    left = (if came ≤ limits.room then came
      else limits.recentWindowSize + (came - limits.room - 1) % limits.period) := by
  have hroom := limits.window_le_room
  have hperiod : limits.period + limits.recentWindowSize = limits.room + 1 := by
    rw [Config.Summarization.period]
    omega
  cases periods with
  | zero =>
      rw [Nat.zero_mul, Nat.zero_add] at hcame
      rw [← hcame, if_pos hleft, if_pos hleft]
      exact ⟨rfl, rfl⟩
  | succ k =>
      have hwindow := hfull (Nat.succ_ne_zero k)
      rw [Nat.succ_mul] at hcame
      -- The first period ends with the message beyond the room.
      have hover : (left - limits.recentWindowSize) + limits.period * k =
          came - limits.room - 1 := by
        rw [Nat.mul_comm]
        omega
      obtain ⟨hdiv, hmod⟩ := (Nat.div_mod_unique (by omega)).mpr
        ⟨hover, show left - limits.recentWindowSize < limits.period by omega⟩
      rw [if_neg (by omega), if_neg (by omega), hdiv, hmod]
      omega

/-- Without failures the numbers follow from the number of messages. -/
theorem Scheduling.closed_form (h : Scheduling supply limits s c past)
    (hok : ∀ call ∈ c.calls s, call.failed = false) :
    c.memory.summaries.length = (if c.history.length ≤ limits.normalized.room then 0
      else 1 + (c.history.length - limits.normalized.room - 1) / limits.normalized.period) ∧
    c.memory.recent.length = (if c.history.length ≤ limits.normalized.room then
        c.history.length
      else limits.normalized.recentWindowSize +
        (c.history.length - limits.normalized.room - 1) % limits.normalized.period) ∧
    ∀ call ∈ c.calls s, call.batch.length = limits.normalized.period := by
  have hbatch : ∀ call ∈ c.calls s, call.batch.length = limits.normalized.period := by
    intro call hcall
    obtain ⟨before, later, hsplit⟩ := List.append_of_mem hcall
    have hprefix : before ++ [call] <+: c.calls s := ⟨later, by simp [hsplit]⟩
    have hnone : streak Call.failed before = 0 :=
      streak_eq_zero fun x hx => hok x (by simp [hsplit, hx])
    rw [h.batches before call hprefix, hnone, Nat.add_zero]
  obtain ⟨hcondensed, htexts⟩ :=
    length_condensed fun call hcall => ⟨hok call hcall, hbatch call hcall⟩
  have hcame : (c.calls s).length * limits.normalized.period + c.memory.recent.length =
      c.history.length := by
    rw [← h.conserving.history_eq, List.length_append, hcondensed]
  have hleft : c.memory.recent.length ≤ limits.normalized.room := by
    rw [← h.conserving.limits_eq]
    exact h.behind.1 (streak_eq_zero hok)
  have hfull : (c.calls s).length ≠ 0 →
      limits.normalized.recentWindowSize ≤ c.memory.recent.length :=
    fun hne => h.full fun hnil => hne (congrArg List.length hnil)
  obtain ⟨hperiods, hrecent⟩ := periods_unique hcame hleft hfull
  refine ⟨?_, hrecent, hbatch⟩
  rw [h.conserving.summaries_eq, htexts]
  exact hperiods

/-- The first success after failures leaves a full window. -/
theorem recovers {failing : Nat} {r : Summarization} (h : Behind failing r)
    (hfailing : 1 ≤ failing) {R : Nat} (hR : r.limits.recentWindowSize = R) {m : Message}
    {j : Journal} (hok : (r.add m j).1.1 = .ok ()) :
    ∃ text, (r.add m j).1.2 = { r with
        summaries := r.summaries ++ [text]
        recent := (r.recent ++ [m]).rtake R } ∧
      ((r.recent ++ [m]).rtake R).length = R := by
  subst hR
  rcases add_behind h m j with
    ⟨hzero, -, -⟩ | ⟨hdue, text, -, hadd, -⟩ | ⟨-, e, -, hadd, -⟩
  · omega
  · rw [hadd]
    exact ⟨text, rfl, length_window hdue⟩
  · rw [hadd] at hok
    exact absurd hok (by simp)

/-- **The schedule of compactions.** Let `R` be the window, `M` the room and `P` the period.
In every course of a summarizing memory in which no call failed since it last forgot, the
numbers of summaries and of recent messages are given by the number of messages that came
since: up to `M` of them are recent, and after that each period ends with a call for `P`.
In general a call is for `P` messages and one more for each that failed just before it. The
additions at the end that failed are as many as the calls at the end that failed; if there
are any, there are as many recent messages beyond `M`, and the next addition that succeeds
leaves the newest `R`. -/
theorem compaction_schedule (supply : Supply) (limits : Config.Summarization)
    (helpers : Collaborators) (j : Journal) (requests : List Request) :
    let c := Course.run supply requests (.opened (.summarization limits) helpers j)
    let calls := c.calls helpers.summarizer
    let failing := streak (·.refused supply)
      (Course.additions supply requests (.opened (.summarization limits) helpers j))
    let R := limits.normalized.recentWindowSize
    let M := max R limits.normalized.summarizeAfter
    let P := M + 1 - R
    let n := c.history.length
    ∃ s : Summarization, c.memory = .summarization s ∧
      ((∀ call ∈ calls, call.failed = false) →
        s.summaries.length = (if n ≤ M then 0 else 1 + (n - M - 1) / P) ∧
        s.recent.length = (if n ≤ M then n else R + (n - M - 1) % P) ∧
        ∀ call ∈ calls, call.batch.length = P) ∧
      (∀ before call, before ++ [call] <+: calls →
        call.batch.length = P + streak Call.failed before) ∧
      streak Call.failed calls = failing ∧
      (failing = 0 → s.recent.length ≤ M) ∧
      (1 ≤ failing → s.recent.length = M + failing ∧
        ∀ m, (c.memory.answer supply (.add m) c.journal).1.1 = .done → ∃ text,
          (c.memory.answer supply (.add m) c.journal).1.2 = .summarization { s with
            summaries := s.summaries ++ [text]
            recent := (s.recent ++ [m]).rtake R } ∧
          ((s.recent ++ [m]).rtake R).length = R) := by
  obtain ⟨c, hrun, -, h⟩ := exists_scheduling supply limits helpers j requests
  have hbehind := h.behind
  rw [h.streak_eq] at hbehind
  have hlimits := h.conserving.limits_eq
  rw [hrun]
  refine ⟨c.memory, rfl, h.closed_form, h.batches, h.streak_eq, ?_, ?_⟩
  · intro hnone
    have hle := hbehind.1 hnone
    rwa [hlimits] at hle
  · intro hfailing
    have hlen := hbehind.2 (Nat.one_le_iff_ne_zero.mp hfailing)
    rw [hlimits] at hlen
    refine ⟨hlen, ?_⟩
    intro m hdone
    have hok := Reply.ofChange_eq_done.mp hdone
    obtain ⟨text, hnext, hwindow⟩ :=
      recovers hbehind hfailing (congrArg (·.recentWindowSize) hlimits) hok
    exact ⟨text, congrArg Memory.summarization hnext, hwindow⟩

/-- Eight messages in a window of two with room for three: the fourth, the sixth and the
eighth make a call for two messages each. -/
example :
    let c := Course.run ⟨fun _ => .epoch, fun _ => ""⟩
      [.addAll (List.replicate 8 (.make "m" .epoch .user ""))]
      (.opened (.summarization ⟨2, 3⟩) .builtIn .empty)
    (c.calls Collaborators.builtIn.summarizer).map (·.batch.length) = [2, 2, 2] := by
  rfl

end Memory.Summarization

end Recall
