import Recall.Binary.Number

/-!
# What arithmetic passes on

An operand that is not finite leaves its mark: a finite sum, product or root has finite
operands, since an infinity meets either a number that it swallows or one with which it has
no value. Only a quotient can hide one, as a finite number over an infinity is a zero, and
so it matters that **two operands that are not finite have no quotient** (`div_eq_nan`).

Signs are passed on in the same way. Operands without a minus sign give a result without
one (`Unsigned.add`, `Unsigned.div`), and a square has none whatever it is the square of.
That is how the negative zero is kept out: no rounding and no underflow turns a sign.
-/

namespace Recall.Binary

variable {f : Format} {x y : Binary f}

/-! ## Finite results -/

@[simp] theorem isFinite_signed {s : Bool} {r : Fin (f.top + 1)} :
    (signed s r).isFinite = true ↔ r.val < f.top := decide_eq_true_iff

@[simp] theorem isFinite_infinity (s : Bool) : (infinity s : Binary f).isFinite = false := by
  simp [isFinite, infinity, ofRank]

theorem isFinite_of_add (h : (x + y).isFinite = true) :
    x.isFinite = true ∧ y.isFinite = true := by
  cases x with
  | nan => exact absurd h Bool.false_ne_true
  | signed s a =>
      cases y with
      | nan => exact absurd h Bool.false_ne_true
      | signed t b =>
          have ha := a.isLt
          have hb := b.isLt
          simp only [HAdd.hAdd, Add.add, Binary.add, zero] at h
          rw [isFinite_signed, isFinite_signed]
          -- A zero leaves the other operand, and an infinity is left by any operand.
          split at h
          · split at h <;> rw [isFinite_signed] at h <;> omega
          · split at h
            · rw [isFinite_signed] at h
              omega
            · split at h
              · split at h
                · exact absurd h Bool.false_ne_true
                · rw [isFinite_signed] at h
                  omega
              · split at h
                · rw [isFinite_signed] at h
                  omega
                · omega

theorem isFinite_of_mul (h : (x * y).isFinite = true) :
    x.isFinite = true ∧ y.isFinite = true := by
  cases x with
  | nan => exact absurd h Bool.false_ne_true
  | signed s a =>
      cases y with
      | nan => exact absurd h Bool.false_ne_true
      | signed t b =>
          have ha := a.isLt
          have hb := b.isLt
          simp only [HMul.hMul, Mul.mul, Binary.mul, zero] at h
          rw [isFinite_signed, isFinite_signed]
          split at h
          · split at h
            · exact absurd h Bool.false_ne_true
            · rw [isFinite_signed] at h
              omega
          · split at h
            · split at h
              · exact absurd h Bool.false_ne_true
              · rw [isFinite_signed] at h
                omega
            · split at h
              · rw [isFinite_infinity] at h
                exact absurd h Bool.false_ne_true
              · omega

theorem isFinite_of_sqrt (h : x.sqrt.isFinite = true) : x.isFinite = true := by
  cases x with
  | nan => exact absurd h Bool.false_ne_true
  | signed s r =>
      have hr := r.isLt
      simp only [sqrt] at h
      rw [isFinite_signed]
      split at h
      · exact isFinite_signed.mp h
      · split at h
        · exact absurd h Bool.false_ne_true
        · split at h
          · exact isFinite_signed.mp h
          · omega

/-- **Two operands that are not finite have no quotient.** -/
theorem div_eq_nan (hx : x.isFinite = false) (hy : y.isFinite = false) : x / y = nan := by
  cases x with
  | nan => rfl
  | signed s a =>
      cases y with
      | nan => rfl
      | signed t b =>
          have ha := a.isLt
          have hb := b.isLt
          rw [← Bool.not_eq_true, isFinite_signed] at hx hy
          have hinfinite : a.val = f.top ∧ b.val = f.top := by omega
          simp only [HDiv.hDiv, Div.div, Binary.div, hinfinite, if_true]
          split <;> rfl

/-! ## Signs -/

/-- A zero leaves the other operand as it is, unless it is a positive zero beside a negative
one. -/
theorem zero_add_signed {s t : Bool} (hsigns : (s && t) = t) (a : Fin (f.top + 1)) :
    (zero s + signed t a : Binary f) = signed t a := by
  simp only [HAdd.hAdd, Add.add, Binary.add, zero, if_true, hsigns]
  split
  · rename_i hzero
    rw [show a = ⟨0, Nat.succ_pos _⟩ from Fin.ext hzero]
  · rfl

theorem signed_add_zero {s t : Bool} (hsigns : (t && s) = t) (a : Fin (f.top + 1)) :
    (signed t a + zero s : Binary f) = signed t a := by
  simp only [HAdd.hAdd, Add.add, Binary.add, zero, if_true, hsigns]
  split
  · rename_i hzero
    rw [show a = ⟨0, Nat.succ_pos _⟩ from Fin.ext hzero]
  · rfl

/-- The negative zero is the neutral element of addition. -/
theorem zero_true_add (x : Binary f) : zero true + x = x := by
  cases x with
  | nan => rfl
  | signed s a => exact zero_add_signed (Bool.true_and s) a

/-- The number carries no minus sign; what is not a number carries none. -/
def Unsigned : Binary f → Prop
  | nan => True
  | signed negative _ => negative = false

theorem not_unsigned_zero_true : ¬(zero true : Binary f).Unsigned := Bool.noConfusion

theorem Unsigned.eq_nan_or (h : x.Unsigned) : x = nan ∨ ∃ r, x = signed false r := by
  cases x with
  | nan => exact Or.inl rfl
  | signed s r =>
      obtain rfl : s = false := h
      exact Or.inr ⟨r, rfl⟩

theorem Unsigned.add (hx : x.Unsigned) (hy : y.Unsigned) : (x + y).Unsigned := by
  obtain rfl | ⟨a, rfl⟩ := hx.eq_nan_or
  · trivial
  · obtain rfl | ⟨b, rfl⟩ := hy.eq_nan_or
    · trivial
    · simp only [HAdd.hAdd, Add.add, Binary.add, ne_eq, not_true, and_false, if_false, if_true]
      split
      · split <;> rfl
      · split
        · rfl
        · split
          · rfl
          · split <;> rfl

/-- A product carries a minus sign only if its factors carry different signs. -/
theorem unsigned_mul_signed {s t : Bool} (hsigns : (s ^^ t) = false) (a b : Fin (f.top + 1)) :
    (signed s a * signed t b : Binary f).Unsigned := by
  simp only [HMul.hMul, Mul.mul, Binary.mul, hsigns]
  split
  · split
    · trivial
    · rfl
  · split
    · split
      · trivial
      · rfl
    · split <;> rfl

theorem unsigned_mul_self (x : Binary f) : (x * x).Unsigned := by
  cases x with
  | nan => trivial
  | signed s a => exact unsigned_mul_signed (Bool.xor_self s) a a

theorem Unsigned.mul (hx : x.Unsigned) (hy : y.Unsigned) : (x * y).Unsigned := by
  obtain rfl | ⟨a, rfl⟩ := hx.eq_nan_or
  · trivial
  · obtain rfl | ⟨b, rfl⟩ := hy.eq_nan_or
    · trivial
    · exact unsigned_mul_signed rfl a b

theorem Unsigned.div (hx : x.Unsigned) (hy : y.Unsigned) : (x / y).Unsigned := by
  obtain rfl | ⟨a, rfl⟩ := hx.eq_nan_or
  · trivial
  · obtain rfl | ⟨b, rfl⟩ := hy.eq_nan_or
    · trivial
    · simp only [HDiv.hDiv, Div.div, Binary.div, Bool.xor_self]
      split
      · split
        · trivial
        · rfl
      · split
        · rfl
        · split
          · split
            · trivial
            · rfl
          · split <;> rfl

theorem Unsigned.sqrt (hx : x.Unsigned) : x.sqrt.Unsigned := by
  obtain rfl | ⟨r, rfl⟩ := hx.eq_nan_or
  · trivial
  · simp only [Binary.sqrt]
    split
    · rfl
    · split
      · trivial
      · split <;> rfl

end Recall.Binary
