import Recall.Message.Basic
import Mathlib.Order.Monotone.Basic

/-!
# Chronological order

Instants are compared by their seconds and then by their nanoseconds, and this is an order:
two instants that are not later than one another are the same. Messages are in
chronological order if none is earlier than one in front of it.

What stands in front of messages that are in order must not be later than the oldest of
them, and nothing else is asked of it (`chronological_cons_cons`). That is all there is to
say about a summary in front.
-/

namespace Recall

namespace Instant

theorem le_iff {t u : Instant} :
    t ≤ u ↔ t.seconds < u.seconds ∨ (t.seconds = u.seconds ∧ t.nanos ≤ u.nanos) := by
  show t.le u = true ↔ _
  simp only [Instant.le, Bool.or_eq_true, Bool.and_eq_true, decide_eq_true_eq, beq_iff_eq]

instance : PartialOrder Instant where
  toLE := inferInstance
  le_refl t := le_iff.mpr (Or.inr ⟨rfl, Nat.le_refl _⟩)
  le_trans t u v htu huv := by
    rw [le_iff] at *
    omega
  le_antisymm t u htu hut := by
    obtain ⟨seconds, nanos⟩ := t
    obtain ⟨seconds', nanos'⟩ := u
    rw [le_iff] at htu hut
    simp only [mk.injEq] at *
    omega

end Instant

/-- No message is earlier than one in front of it. -/
def Chronological (messages : List Message) : Prop :=
  messages.Pairwise fun m n => m.timestamp ≤ n.timestamp

instance (messages : List Message) : Decidable (Chronological messages) :=
  inferInstanceAs (Decidable (List.Pairwise _ _))

variable {messages others : List Message} {m oldest : Message} {later : List Message}

theorem Chronological.of_suffix (h : Chronological messages) (hs : others <:+ messages) :
    Chronological others :=
  h.sublist hs.sublist

/-- The oldest message is not later than any other. -/
theorem Chronological.oldest_le (h : Chronological (oldest :: later))
    (hm : m ∈ oldest :: later) : oldest.timestamp ≤ m.timestamp := by
  rcases List.mem_cons.mp hm with rfl | hm
  · exact le_refl _
  · exact (List.pairwise_cons.mp h).1 m hm

theorem Chronological.of_snoc (h : Chronological (messages ++ [m])) :
    Chronological messages ∧ ∀ n ∈ messages, n.timestamp ≤ m.timestamp := by
  obtain ⟨hmessages, -, hlast⟩ := List.pairwise_append.mp h
  refine ⟨hmessages, ?_⟩
  intro n hn
  exact hlast n hn m (List.mem_singleton_self m)

/-- In front of messages that are in order, only the oldest of them counts. -/
theorem chronological_cons_cons (h : Chronological (oldest :: later)) :
    Chronological (m :: oldest :: later) ↔ m.timestamp ≤ oldest.timestamp := by
  constructor
  · intro hall
    exact hall.oldest_le (List.mem_cons_of_mem _ List.mem_cons_self)
  · intro hle
    refine List.pairwise_cons.mpr ⟨?_, h⟩
    intro n hn
    exact hle.trans (h.oldest_le hn)

/-- Messages that all have the instant of the oldest may stand in front of it. -/
theorem Chronological.append_dated (h : Chronological (oldest :: later))
    (hdated : ∀ m ∈ messages, m.timestamp = oldest.timestamp) :
    Chronological (messages ++ oldest :: later) := by
  refine List.pairwise_append.mpr ⟨?_, h, ?_⟩
  · apply List.pairwise_of_forall_mem_list
    intro m hm n hn
    exact ((hdated m hm).trans (hdated n hn).symm).le
  · intro m hm n hn
    exact (hdated m hm).trans_le (h.oldest_le hn)

end Recall
