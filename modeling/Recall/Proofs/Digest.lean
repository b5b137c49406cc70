import Recall.Digest
import Recall.Proofs.Written

/-!
# How long a digest is

A digest shows of each message its role and at most 200 characters of its content, with three
dots where something is left out. So **its length is bounded by the number of messages alone**
(`length_ofMessages_le`), whatever is in them, and a digest among the messages is cut like any
other.
-/

namespace Recall

/-- Greater numbers have no fewer digits. -/
theorem Decimal.length_naturalText_mono {m n : Nat} (h : m ≤ n) :
    (naturalText m).length ≤ (naturalText n).length := by
  have hpos : 0 < (naturalText n).length := List.length_pos_iff.mpr (naturalText_ne_nil n)
  have hbound : n < 10 ^ (naturalText n).length :=
    (Nat.length_toDigits_le_iff (by decide) hpos).mp (Nat.le_refl _)
  exact (Nat.length_toDigits_le_iff (by decide) hpos).mpr (Nat.lt_of_le_of_lt h hbound)

namespace Digest

theorem length_excerpt_le (content : String) : (excerpt content).length ≤ 203 := by
  unfold excerpt
  dsimp only
  split
  · rw [List.length_append, List.length_take]
    exact Nat.add_le_add_right (Nat.min_le_left _ _) 3
  · rename_i hshort
    exact Nat.le_trans (Nat.le_of_not_lt hshort) (by decide)

theorem length_part_le (m : Message) : (part m).length ≤ 214 := by
  have hrole : m.role.text.toList.length ≤ 9 := by
    cases m.role <;> decide
  have hexcerpt := length_excerpt_le m.content
  simp only [part, List.length_append, List.length_cons]
  omega

/-- Parts of a bounded length with a separator between them. -/
theorem length_intercalate_le {bound : Nat} (separator : List Char) {parts : List (List Char)}
    (h : ∀ p ∈ parts, p.length ≤ bound) :
    (separator.intercalate parts).length ≤
      bound * parts.length + separator.length * (parts.length - 1) := by
  induction parts with
  | nil => simp
  | cons first parts ih =>
      obtain ⟨hfirst, hrest⟩ := List.forall_mem_cons.mp h
      cases parts with
      | nil => simpa using hfirst
      | cons second parts =>
          have hlen := ih hrest
          rw [List.intercalate_cons_cons]
          simp only [List.length_append, List.length_cons, Nat.add_sub_cancel] at hlen ⊢
          rw [Nat.mul_succ bound, Nat.mul_succ separator.length]
          omega

/-- **The number of messages bounds a digest.** -/
theorem length_ofMessages_le {size : Nat} {messages : List Message}
    (hsize : messages.length ≤ size) : (ofMessages messages).length ≤
      39 + (Decimal.naturalText size).length + 214 * size + 2 * (size - 1) := by
  unfold ofMessages
  split
  · exact Nat.zero_le _
  · have hdigits := Decimal.length_naturalText_mono hsize
    have hshort : ∀ p ∈ messages.map part, p.length ≤ 214 := by
      intro p hp
      obtain ⟨m, -, rfl⟩ := List.mem_map.mp hp
      exact length_part_le m
    have hparts := length_intercalate_le [';', ' '] hshort
    simp only [List.length_map, List.length_cons, List.length_nil] at hparts
    have hheading : "Conversation with ".toList.length = 18 := by decide
    have htitle : " exchanges covering: ".toList.length = 21 := by decide
    rw [String.length_ofList]
    simp only [List.length_append, hheading, htitle]
    omega

end Digest

end Recall
