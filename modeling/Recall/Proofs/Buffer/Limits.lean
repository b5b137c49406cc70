import Recall.Memory.Buffer
import Mathlib.Data.List.DropRight

/-!
# What the limits of a buffer keep of a history

The second side of the buffer's law, written over the whole history at once and
without any state: the last messages that a message limit allows, the shortest
suffix that exceeds a token limit, and the shorter of the two (`retained`). All of
them are suffixes, so two of them are equal as soon as they are equally long, and
the algebra below is about lengths only. The two facts that a running buffer needs
are `length_retained_snoc` (one more message lengthens what is retained by one at
most) and `retained_of_suffix` (cutting a long enough suffix of the history is
cutting the history).
-/

namespace Recall.Memory.Buffer

/-! ## The two suffixes -/

/-- The last messages of a history, as many as a limit allows; zero is no limit. -/
def lastMessages (limit : Nat) (history : List Message) : List Message :=
  if limit = 0 then history else history.rtake limit

/-- The shortest suffix of a history with more tokens than a limit; all of it if there
is none. -/
def shortestOver (limit : Nat) : List Message → List Message
  | [] => []
  | m :: later => if limit < totalTokens later then shortestOver limit later else m :: later

/-- The shortest suffix that exceeds a token limit; zero is no limit. -/
def lastTokens (limit : Nat) (history : List Message) : List Message :=
  if limit = 0 then history else shortestOver limit history

/-- What both limits keep of a history: the shorter of the two suffixes. -/
def retained (maxMessages maxTokens : Nat) (history : List Message) : List Message :=
  if (lastMessages maxMessages history).length ≤ (lastTokens maxTokens history).length then
    lastMessages maxMessages history
  else lastTokens maxTokens history

/-! ## The shortest suffix over a limit -/

theorem totalTokens_le_of_suffix {l₁ l₂ : List Message} (h : l₁ <:+ l₂) :
    totalTokens l₁ ≤ totalTokens l₂ := by
  obtain ⟨front, rfl⟩ := h
  rw [totalTokens_append]
  exact Nat.le_add_left _ _

theorem shortestOver_suffix (limit : Nat) (l : List Message) : shortestOver limit l <:+ l := by
  induction l with
  | nil => exact List.suffix_rfl
  | cons m later ih =>
      rw [shortestOver]
      split
      · exact ih.trans (List.suffix_cons m later)
      · exact List.suffix_rfl

/-- A list within the limit has no shorter suffix to offer. -/
theorem shortestOver_of_le {limit : Nat} {l : List Message} (h : totalTokens l ≤ limit) :
    shortestOver limit l = l := by
  cases l with
  | nil => rfl
  | cons m later =>
      rw [shortestOver, if_neg]
      rw [totalTokens] at h
      omega

/-- What stands in front of a suffix that exceeds the limit does not matter. -/
theorem shortestOver_append_of_lt {limit : Nat} {l : List Message}
    (h : limit < totalTokens l) (front : List Message) :
    shortestOver limit (front ++ l) = shortestOver limit l := by
  induction front with
  | nil => rfl
  | cons m front ih =>
      rw [List.cons_append, shortestOver, if_pos]
      · exact ih
      · exact Nat.lt_of_lt_of_le h (totalTokens_le_of_suffix (List.suffix_append front l))

/-- A list that exceeds the limit has a suffix that does. -/
theorem lt_totalTokens_shortestOver {limit : Nat} {l : List Message}
    (h : limit < totalTokens l) : limit < totalTokens (shortestOver limit l) := by
  induction l with
  | nil => exact h
  | cons m later ih =>
      rw [shortestOver]
      split
      · rename_i hlater
        exact ih hlater
      · exact h

/-- **It is the shortest.** Every suffix that exceeds the limit contains it. -/
theorem shortestOver_least {limit : Nat} {l s : List Message} (hs : s <:+ l)
    (h : limit < totalTokens s) : shortestOver limit l <:+ s := by
  obtain ⟨front, rfl⟩ := hs
  rw [shortestOver_append_of_lt h]
  exact shortestOver_suffix limit s

/-- A suffix within the limit is part of the shortest one beyond it. -/
theorem suffix_shortestOver {limit : Nat} {l s : List Message} (hs : s <:+ l)
    (h : totalTokens s ≤ limit) : s <:+ shortestOver limit l := by
  obtain ⟨front, rfl⟩ := hs
  induction front with
  | nil => simp [shortestOver_of_le h]
  | cons m front ih =>
      rw [List.cons_append, shortestOver]
      split
      · exact ih
      · exact List.suffix_append (m :: front) s

theorem length_shortestOver_snoc (limit : Nat) (l : List Message) (m : Message) :
    (shortestOver limit (l ++ [m])).length ≤ (shortestOver limit l).length + 1 := by
  by_cases h : limit < totalTokens l
  · -- The old suffix with the new message is over the limit, so the new one is in it.
    have hover : limit < totalTokens (shortestOver limit l ++ [m]) := by
      rw [totalTokens_append]
      exact Nat.lt_of_lt_of_le (lt_totalTokens_shortestOver h) (Nat.le_add_right _ _)
    have hs : shortestOver limit l ++ [m] <:+ l ++ [m] :=
      List.suffix_append_self_iff.mpr (shortestOver_suffix limit l)
    simpa using (shortestOver_least hs hover).length_le
  · rw [shortestOver_of_le (Nat.le_of_not_lt h)]
    simpa using (shortestOver_suffix limit (l ++ [m])).length_le

/-! ## Lengths -/

theorem lastMessages_suffix (limit : Nat) (l : List Message) : lastMessages limit l <:+ l := by
  unfold lastMessages List.rtake
  split
  · exact List.suffix_rfl
  · exact List.drop_suffix _ l

theorem lastTokens_suffix (limit : Nat) (l : List Message) : lastTokens limit l <:+ l := by
  unfold lastTokens
  split
  · exact List.suffix_rfl
  · exact shortestOver_suffix limit l

theorem retained_suffix (maxMessages maxTokens : Nat) (l : List Message) :
    retained maxMessages maxTokens l <:+ l := by
  unfold retained
  split
  · exact lastMessages_suffix maxMessages l
  · exact lastTokens_suffix maxTokens l

theorem length_lastMessages (limit : Nat) (l : List Message) :
    (lastMessages limit l).length = if limit = 0 then l.length else min limit l.length := by
  unfold lastMessages List.rtake
  split
  · rfl
  · rw [List.length_drop]
    omega

/-- The suffix over a limit within a suffix of the history: that of the history, or all
there is. -/
theorem length_lastTokens_of_suffix {limit : Nat} {l s : List Message} (hs : s <:+ l) :
    (lastTokens limit s).length = min s.length (lastTokens limit l).length := by
  unfold lastTokens
  split
  · exact (Nat.min_eq_left hs.length_le).symm
  · by_cases h : limit < totalTokens s
    · obtain ⟨front, rfl⟩ := hs
      rw [shortestOver_append_of_lt h]
      exact (Nat.min_eq_right (shortestOver_suffix limit s).length_le).symm
    · have h := Nat.le_of_not_lt h
      rw [shortestOver_of_le h]
      exact (Nat.min_eq_left (suffix_shortestOver hs h).length_le).symm

theorem length_retained (maxMessages maxTokens : Nat) (l : List Message) :
    (retained maxMessages maxTokens l).length =
      min (lastMessages maxMessages l).length (lastTokens maxTokens l).length := by
  unfold retained
  split <;> omega

/-- One more message lengthens what is retained by one at most. -/
theorem length_retained_snoc (maxMessages maxTokens : Nat) (l : List Message) (m : Message) :
    (retained maxMessages maxTokens (l ++ [m])).length ≤
      (retained maxMessages maxTokens l).length + 1 := by
  have hcount : (lastMessages maxMessages (l ++ [m])).length ≤
      (lastMessages maxMessages l).length + 1 := by
    simp only [length_lastMessages, List.length_append, List.length_singleton]
    split <;> omega
  have htokens : (lastTokens maxTokens (l ++ [m])).length ≤
      (lastTokens maxTokens l).length + 1 := by
    unfold lastTokens
    split
    · simp
    · exact length_shortestOver_snoc maxTokens l m
  simp only [length_retained]
  omega

/-- **Cutting a suffix is cutting the history**, if the suffix is long enough to begin
with. This is why a buffer need not remember what it dropped. -/
theorem retained_of_suffix {maxMessages maxTokens : Nat} {l s : List Message} (hs : s <:+ l)
    (hlong : (retained maxMessages maxTokens l).length ≤ s.length) :
    lastTokens maxTokens (lastMessages maxMessages s) = retained maxMessages maxTokens l := by
  have hcut : lastMessages maxMessages s <:+ l := (lastMessages_suffix _ s).trans hs
  have hleft := (lastTokens_suffix maxTokens (lastMessages maxMessages s)).trans hcut
  have hright := retained_suffix maxMessages maxTokens l
  -- Both are suffixes of the history, so it is enough to compare their lengths.
  have hlen : (lastTokens maxTokens (lastMessages maxMessages s)).length =
      (retained maxMessages maxTokens l).length := by
    have hle := hs.length_le
    rw [length_lastTokens_of_suffix hcut]
    simp only [length_retained, length_lastMessages] at hlong ⊢
    split at hlong <;> rename_i hlimit <;> simp only [hlimit, if_true, if_false] <;> omega
  exact (List.suffix_of_suffix_length_le hleft hright hlen.le).eq_of_length hlen

end Recall.Memory.Buffer
