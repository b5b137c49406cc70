import Recall.Proofs.Hierarchical.Layers
import Recall.Proofs.Occupancy
import Recall.Proofs.Word
import Mathlib.Algebra.BigOperators.Group.List.Basic

/-!
# What a hierarchical memory shows and what it counts

A promoted message is in two layers, and each of them gives it up in its own time. The
context looks for ids, so it shows such a message once, in its place among the important
ones. The occupancy adds up the layers and counts it twice.

The recent layer is cut in two by one question, whether the important layer has the id
(`plain`, `shared`). **The context is the important layer and the plain part; the active
messages are those and the shared part once more.** Nothing here follows a run: the
invariant of the layers (`Layered`) says that each of them is free of repetitions, and all
else is about one state.

The tokens of a message in both layers are counted twice as well, so a sum may be too large
for a word although all the messages together are not. Then the occupancy in words has no
value (`occupancy?`), and the law of the tokens is not claimed.
-/

namespace Recall

namespace Memory.Hierarchical

variable {h : Hierarchical} {history : List Message} {m : Message}

/-- The tokens of all layers; those of a message count in each layer that has it. -/
def countedTokens (h : Hierarchical) : Nat :=
  totalTokens h.recent + totalTokens h.important + totalTokens h.archived

/-- The occupancy of the memory, with every sum of tokens computed in words; none if one of
them does not fit. -/
def occupancy? (h : Hierarchical) : Option Occupancy := do
  let recentTokens ← Word.sum? (h.recent.map (·.tokenCount))
  let importantTokens ← Word.sum? (h.important.map (·.tokenCount))
  let archivedTokens ← Word.sum? (h.archived.map (·.tokenCount))
  let active ← Word.add? recentTokens importantTokens
  let total ← Word.add? active archivedTokens
  let shown := h.recent.length + h.important.length
  return ⟨shown + h.archived.length, total, shown, active, Occupancy.rate active total⟩

/-- Sums that fit are not wrapped. -/
theorem occupancy_of_fits {h : Hierarchical} (hfits : h.countedTokens < 2 ^ 64) :
    h.occupancy =
      ⟨h.recent.length + h.important.length + h.archived.length, h.countedTokens,
        h.recent.length + h.important.length, totalTokens h.recent + totalTokens h.important,
        Occupancy.rate (totalTokens h.recent + totalTokens h.important) h.countedTokens⟩ := by
  unfold countedTokens at hfits ⊢
  have hactive : Occupancy.wrapped (totalTokens h.recent + totalTokens h.important) =
      totalTokens h.recent + totalTokens h.important :=
    Occupancy.wrapped_of_lt (Nat.lt_of_le_of_lt (Nat.le_add_right _ _) hfits)
  rw [occupancy, hactive, Occupancy.wrapped_of_lt hfits]

/-- **The occupancy can be computed in words if and only if the tokens of all layers fit.** -/
theorem occupancy?_eq (h : Hierarchical) :
    h.occupancy? = if h.countedTokens < 2 ^ 64 then some h.occupancy else none := by
  simp only [occupancy?, Option.bind_eq_bind, Word.sum?_tokens, Word.add?, Word.ofNat?_bind]
  by_cases hfits : h.countedTokens < 2 ^ 64
  · rw [if_pos hfits, occupancy_of_fits hfits]
    unfold countedTokens at hfits ⊢
    rw [if_pos (by omega), if_pos (by omega), if_pos (by omega), if_pos (by omega), if_pos hfits]
    rfl
  · rw [if_neg hfits]
    unfold countedTokens at hfits
    simp only [hfits, if_false, ite_self]

/-! ## Courses -/

end Memory.Hierarchical

end Recall
