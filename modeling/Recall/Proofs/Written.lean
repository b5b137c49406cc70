import Recall.Decimal.Layout
import Mathlib.Algebra.Group.Nat.Defs
import Mathlib.Tactic.Common

/-!
# Readers and written numbers

Every reader of the library answers what it read and what is left over, or a failure, and
readers are put together by `bind`. A law about a reader therefore goes one of two ways.
Forwards, from a written text to what is read, each step answers (`ok_bind`). Backwards,
from an answer to what was read, each step must have answered (`bind_eq_ok_iff`).

The second part is about the digits of a natural number, which several readers meet: they
are digits, their value is the number, and only zero begins with a zero.
-/

namespace Recall

/-! ## Steps that answer -/

section Steps

variable {ε α β : Type}

@[simp] theorem ok_bind (a : α) (f : α → Except ε β) : (Except.ok a >>= f) = f a := rfl

@[simp] theorem error_bind (e : ε) (f : α → Except ε β) : (Except.error e >>= f) = .error e :=
  rfl

theorem bind_eq_ok_iff {x : Except ε α} {f : α → Except ε β} {b : β} :
    x >>= f = .ok b ↔ ∃ a, x = .ok a ∧ f a = .ok b := by
  cases x <;> simp

theorem map_eq_ok_iff {x : Except ε α} {f : α → β} {b : β} :
    x.map f = .ok b ↔ ∃ a, x = .ok a ∧ f a = b := by
  cases x <;> simp [Except.map]

theorem toOption_eq_some_iff {x : Except ε α} {a : α} : x.toOption = some a ↔ x = .ok a := by
  cases x <;> simp [Except.toOption]

end Steps

/-! ## Digits -/

namespace Decimal

/-- The value that digits form in front of which `n` was read. -/
def digitsValue (n : Nat) (digits : List Char) : Nat := Nat.ofDigitChars 10 digits n

theorem digitsValue_cons (n : Nat) (c : Char) (digits : List Char) :
    digitsValue n (c :: digits) = digitsValue (10 * n + (c.toNat - '0'.toNat)) digits :=
  Nat.ofDigitChars_cons

theorem le_digitsValue (n : Nat) (digits : List Char) : n ≤ digitsValue n digits := by
  induction digits generalizing n with
  | nil => exact Nat.le_refl n
  | cons c digits ih =>
      rw [digitsValue_cons]
      have := ih (10 * n + (c.toNat - '0'.toNat))
      omega

theorem isDigit_naturalText {n : Nat} {c : Char} (hc : c ∈ naturalText n) : c.isDigit = true :=
  Nat.isDigit_of_mem_toDigits (by decide) (by decide) hc

theorem digitsValue_naturalText (n : Nat) : digitsValue 0 (naturalText n) = n :=
  Nat.ofDigitChars_ten_toDigits

theorem naturalText_ne_nil (n : Nat) : naturalText n ≠ [] := Nat.toDigits_ne_nil

theorem naturalText_of_lt {n : Nat} (h : n < 10) : naturalText n = [n.digitChar] :=
  Nat.toDigits_of_lt_base h

theorem naturalText_of_le {n : Nat} (h : 10 ≤ n) :
    naturalText n = naturalText (n / 10) ++ [(n % 10).digitChar] :=
  Nat.toDigits_of_base_le (by decide) h

/-- Only zero begins with a zero. -/
theorem naturalText_eq_zero_cons {n : Nat} {digits : List Char}
    (h : naturalText n = '0' :: digits) : n = 0 ∧ digits = [] := by
  induction n using Nat.strongRecOn generalizing digits with
  | ind n ih =>
      by_cases hn : n < 10
      · rw [naturalText_of_lt hn, List.cons.injEq] at h
        exact ⟨Nat.digitChar_eq_zero.mp h.1, h.2.symm⟩
      · -- The digits in front are those of a smaller number.
        rw [naturalText_of_le (Nat.le_of_not_lt hn)] at h
        obtain ⟨c, front, hfront⟩ := List.exists_cons_of_ne_nil (naturalText_ne_nil (n / 10))
        rw [hfront, List.cons_append, List.cons.injEq] at h
        have := (ih (n / 10) (by omega) (hfront.trans (congrArg (· :: front) h.1))).1
        omega

theorem isDigit_paddedText {width n : Nat} {c : Char} (hc : c ∈ paddedText width n) :
    c.isDigit = true := by
  rcases List.mem_append.mp hc with hc | hc
  · rw [List.eq_of_mem_replicate hc]
    decide
  · exact isDigit_naturalText hc

theorem digitsValue_paddedText (width n : Nat) : digitsValue 0 (paddedText width n) = n := by
  rw [digitsValue, paddedText, Nat.ofDigitChars_append, Nat.ofDigitChars_replicate_zero]
  exact digitsValue_naturalText n

theorem length_paddedText {width n : Nat} (hwidth : 0 < width) (hn : n < 10 ^ width) :
    (paddedText width n).length = width := by
  have hlen : (naturalText n).length ≤ width :=
    (Nat.length_toDigits_le_iff (by decide) hwidth).mpr hn
  simp only [paddedText, List.length_append, List.length_replicate]
  omega

theorem paddedText_ne_nil (width n : Nat) : paddedText width n ≠ [] :=
  fun h => naturalText_ne_nil n (List.append_eq_nil_iff.mp h).2

end Decimal

end Recall
