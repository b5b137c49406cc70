import Recall.Message.Basic
import Mathlib.Algebra.GroupWithZero.Nat

/-!
# Arithmetic in words

Numbers are counted in words of 64 bits. Here a step whose result does not fit has no value,
and neither has what is computed from it. **A sum fits if and only if all the steps on the way
to it do** (`sum?_eq`), since they only go up, so it is enough to look at the result.
-/

namespace Recall

namespace Word

/-- A number as a word of 64 bits, if it fits. -/
def ofNat? (n : Nat) : Option Nat := if n < 2 ^ 64 then some n else none

def add? (m n : Nat) : Option Nat := ofNat? (m + n)

def mul? (m n : Nat) : Option Nat := ofNat? (m * n)

/-- The sum of numbers, added up one after another. -/
def sum? (ns : List Nat) : Option Nat := ns.foldlM add? 0

theorem ofNat?_of_lt {n : Nat} (h : n < 2 ^ 64) : ofNat? n = some n := if_pos h

theorem ofNat?_bind {α : Type} (n : Nat) (f : Nat → Option α) :
    (ofNat? n).bind f = if n < 2 ^ 64 then f n else none := by
  by_cases hn : n < 2 ^ 64
  · rw [ofNat?_of_lt hn, if_pos hn, Option.bind_some]
  · rw [ofNat?, if_neg hn, if_neg hn, Option.bind_none]

/-- A step that does not fit can be left out if the result is no smaller, which does not fit
then either. -/
theorem ofNat?_bind_of_le {m n : Nat} (hle : m ≤ n) {f : Nat → Option Nat}
    (hf : f m = ofNat? n) : (ofNat? m).bind f = ofNat? n := by
  rw [ofNat?_bind, hf]
  by_cases hm : m < 2 ^ 64
  · rw [if_pos hm]
  · rw [if_neg hm, ofNat?, if_neg (by omega)]

/-- **A sum fits if and only if its steps do.** -/
theorem sum?_eq (ns : List Nat) : sum? ns = ofNat? ns.sum := by
  have hfrom : ∀ start, ((ofNat? start).bind fun sum => ns.foldlM add? sum) =
      ofNat? (start + ns.sum) := by
    induction ns with
    | nil => exact fun start => Option.bind_fun_some (ofNat? start)
    | cons n ns ih =>
        intro start
        rw [List.sum_cons, ← Nat.add_assoc]
        refine ofNat?_bind_of_le ?_ (ih (start + n))
        rw [Nat.add_assoc]
        exact Nat.le_add_right _ _
  have hzero := hfrom 0
  rwa [ofNat?_of_lt (by decide), Option.bind_some, Nat.zero_add] at hzero

end Word

/-! ## Tokens -/

theorem totalTokens_eq_sum (messages : List Message) :
    totalTokens messages = (messages.map (·.tokenCount)).sum := by
  induction messages with
  | nil => rfl
  | cons m messages ih => rw [totalTokens, ih, List.map_cons, List.sum_cons]

/-- The tokens of some messages, added up in words. -/
theorem Word.sum?_tokens (messages : List Message) :
    sum? (messages.map (·.tokenCount)) = ofNat? (totalTokens messages) := by
  rw [sum?_eq, ← totalTokens_eq_sum]

end Recall
