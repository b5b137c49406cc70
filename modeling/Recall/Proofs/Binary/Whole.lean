import Recall.Proofs.Binary.Propagation
import Mathlib.Algebra.Group.Nat.Defs

/-!
# Whole numbers

A magnitude of at most one more bit than the fraction has stands at a rank of its own, so it
is not rounded (`Format.nearest_eq`) and is found again at that rank (`Format.quanta_eq`). The
32 bit numbers therefore hold every whole number up to 2 ^ 24 exactly.

Up to that limit **sums of whole numbers are whole** (`ofNat_add`), and so the order in which
they are added does not matter, although the addition of binary numbers is not associative.
Beyond it whole numbers are rounded, but none of them to zero (`isZero_ofNat_iff`).
-/

namespace Recall.Binary

/-! ## Significands -/

/-- A significand and an exponent that a magnitude has in the format: the significand has one
bit more than the fraction, or less where the exponent is the smallest. -/
structure Format.Significand (f : Format) (q s : Nat) : Prop where
  lt : q < 2 * f.binade
  normal : f.binade ≤ q ∨ s = 0

namespace Format

variable {f : Format} {q s : Nat}

theorem binade_eq (f : Format) : f.binade = 2 ^ f.fractionBits := rfl

theorem roundHalfEven_mul (q : Nat) {den : Nat} (hden : 0 < den) :
    roundHalfEven (q * den) den = q := by
  simp only [roundHalfEven, Nat.mul_div_cancel q hden, Nat.mul_mod_left, Nat.mul_zero]
  rw [if_pos hden]

/-- The exponent of a magnitude is read off its logarithm. -/
theorem Significand.shift_eq (h : f.Significand q s) :
    Nat.log2 (q * 2 ^ s) - f.fractionBits = s := by
  obtain ⟨hlt, hnormal⟩ := h
  rw [binade_eq] at hlt hnormal
  have hpos : 0 < 2 ^ s := Nat.two_pow_pos s
  rcases hnormal with hge | rfl
  · have hlog : Nat.log2 (q * 2 ^ s) = f.fractionBits + s := by
      have hne : q * 2 ^ s ≠ 0 := by
        have := Nat.two_pow_pos f.fractionBits
        exact Nat.mul_ne_zero (by omega) (by omega)
      rw [Nat.log2_eq_iff hne]
      constructor
      · rw [Nat.pow_add]
        exact Nat.mul_le_mul_right _ hge
      · rw [Nat.add_right_comm, Nat.pow_add, Nat.pow_succ, Nat.mul_comm _ 2]
        exact Nat.mul_lt_mul_of_pos_right hlt hpos
    rw [hlog, Nat.add_sub_cancel_left]
  · apply Nat.sub_eq_zero_of_le
    rw [Nat.pow_zero, Nat.mul_one]
    by_cases hzero : q = 0
    · rw [hzero]
      exact Nat.zero_le _
    · apply Nat.le_of_lt_succ
      rw [Nat.log2_lt hzero, Nat.pow_succ, Nat.mul_comm]
      exact hlt

/-- **A magnitude with a significand is not rounded.** -/
theorem nearest_eq (h : f.Significand q s) :
    f.nearest (q * 2 ^ s) 1 = min (s * f.binade + q) f.top := by
  have hshift := h.shift_eq
  simp only [nearest, Nat.div_one, Nat.one_mul, hshift, Nat.pow_eq]
  rw [roundHalfEven_mul q (Nat.two_pow_pos s)]

/-- A magnitude with a significand is found at its rank. -/
theorem quanta_eq (h : f.Significand q s) : f.quanta (s * f.binade + q) = q * 2 ^ s := by
  obtain ⟨hlt, hnormal⟩ := h
  have hbinade : 0 < f.binade := Nat.two_pow_pos f.fractionBits
  by_cases hge : f.binade ≤ q
  · obtain ⟨rest, rfl⟩ := Nat.exists_eq_add_of_le hge
    have hrest : rest < f.binade := by omega
    have hrank : s * f.binade + (f.binade + rest) = rest + f.binade * (s + 1) := by
      rw [Nat.mul_add, Nat.mul_one, Nat.mul_comm s]
      omega
    have hlarge : ¬s * f.binade + (f.binade + rest) < f.binade := by omega
    rw [quanta, if_neg hlarge, hrank, Nat.add_mul_mod_self_left, Nat.mod_eq_of_lt hrest,
      Nat.add_mul_div_left _ _ hbinade, Nat.div_eq_of_lt hrest, Nat.zero_add,
      Nat.add_sub_cancel]
    rfl
  · obtain rfl : s = 0 := hnormal.resolve_left hge
    rw [Nat.zero_mul, Nat.zero_add, quanta, if_pos (Nat.lt_of_not_le hge), Nat.pow_zero,
      Nat.mul_one]

/-- Nothing but zero is rounded to zero. -/
theorem nearest_eq_zero_iff (htop : 0 < f.top) {num : Nat} : f.nearest num 1 = 0 ↔ num = 0 := by
  have hbinade : 0 < f.binade := Nat.two_pow_pos f.fractionBits
  have hunit := roundHalfEven_mul num Nat.one_pos
  rw [Nat.mul_one] at hunit
  simp only [nearest, Nat.div_one, Nat.one_mul, Nat.pow_eq]
  by_cases hshift : num.log2 - f.fractionBits = 0
  · -- Below the second binade a magnitude is its own rank.
    rw [hshift, Nat.zero_mul, Nat.zero_add, Nat.pow_zero, hunit]
    omega
  · have hrank := Nat.mul_pos (Nat.pos_of_ne_zero hshift) hbinade
    have hnum : num ≠ 0 := by
      rintro rfl
      exact hshift (Nat.zero_sub _)
    omega

end Format

/-! ## Whole numbers -/

theorem isZero_ofNat_iff {f : Format} (htop : 0 < f.top) {n : Nat} :
    (ofNat n : Binary f).isZero = true ↔ n = 0 := by
  have hone : f.one ≠ 0 := Nat.ne_of_gt (Nat.two_pow_pos _)
  show (min (f.nearest (n * f.one) 1) f.top == 0) = true ↔ n = 0
  rw [Nat.min_eq_left (f.nearest_le_top _ _), beq_iff_eq, Format.nearest_eq_zero_iff htop,
    Nat.mul_eq_zero, or_iff_left hone]

/-- The number is exactly the whole number `n`. -/
def IsWhole {f : Format} (x : Binary f) (n : Nat) : Prop :=
  ∃ r : Fin (f.top + 1), x = signed false r ∧ r.val < f.top ∧ f.quanta r = n * f.one

/-- Up to 2 ^ 24, a whole number has a significand among the 32 bit numbers. -/
theorem exists_significand {n : Nat} (hn : n ≤ 2 ^ 24) :
    ∃ q s, Format.single.Significand q s ∧ s ≤ 150 ∧ n * Format.single.one = q * 2 ^ s := by
  have hone : Format.single.one = 2 ^ 149 := rfl
  have hbinade : Format.single.binade = 2 ^ 23 := rfl
  rw [hone]
  by_cases hzero : n = 0
  · exact ⟨0, 0, ⟨by decide, Or.inr rfl⟩, by decide, by rw [hzero, Nat.zero_mul, Nat.zero_mul]⟩
  · rcases Nat.lt_or_eq_of_le hn with hlt | rfl
    · -- The digits are moved up to the leading place of the significand.
      have hlog : n.log2 ≤ 23 := Nat.le_of_lt_succ ((Nat.log2_lt hzero).mpr hlt)
      have hlow := Nat.log2_self_le hzero
      have hhigh := Nat.lt_log2_self (n := n)
      have hpos := Nat.two_pow_pos (23 - n.log2)
      refine ⟨n * 2 ^ (23 - n.log2), 126 + n.log2, ⟨?_, Or.inl ?_⟩, by omega, ?_⟩
      · calc n * 2 ^ (23 - n.log2) < 2 ^ (n.log2 + 1) * 2 ^ (23 - n.log2) :=
              Nat.mul_lt_mul_of_pos_right hhigh hpos
          _ = 2 ^ 24 := by rw [← Nat.pow_add]; congr 1; omega
          _ = 2 * Format.single.binade := by decide
      · calc Format.single.binade = 2 ^ n.log2 * 2 ^ (23 - n.log2) := by
              rw [hbinade, ← Nat.pow_add]; congr 1; omega
          _ ≤ n * 2 ^ (23 - n.log2) := Nat.mul_le_mul_right _ hlow
      · rw [Nat.mul_assoc, ← Nat.pow_add]
        congr 2
        omega
    · exact ⟨2 ^ 23, 150, ⟨by decide, Or.inl (by decide)⟩, by decide, by decide⟩

theorem isWhole_ofNat {n : Nat} (hn : n ≤ 2 ^ 24) : (ofNat n : Single).IsWhole n := by
  obtain ⟨q, s, hsignificand, hs, hmagnitude⟩ := exists_significand hn
  have htop : Format.single.top = 255 * 2 ^ 23 := rfl
  have hfits : s * Format.single.binade + q < Format.single.top := by
    have hlt := hsignificand.lt
    have hbinade : Format.single.binade = 2 ^ 23 := rfl
    have hmul := Nat.mul_le_mul_right Format.single.binade hs
    omega
  have hnearest : Format.single.nearest (n * Format.single.one) 1 =
      s * Format.single.binade + q := by
    rw [hmagnitude, Format.nearest_eq hsignificand, Nat.min_eq_left (Nat.le_of_lt hfits)]
  have hrank : min (Format.single.nearest (n * Format.single.one) 1) Format.single.top =
      s * Format.single.binade + q := by
    rw [hnearest, Nat.min_eq_left (Nat.le_of_lt hfits)]
  refine ⟨_, rfl, ?_, ?_⟩
  · show min (Format.single.nearest (n * Format.single.one) 1) _ < _
    rw [hrank]
    exact hfits
  · show Format.single.quanta (min (Format.single.nearest (n * Format.single.one) 1) _) = _
    rw [hrank, Format.quanta_eq hsignificand, hmagnitude]

theorem ofNat_zero : (ofNat 0 : Single) = zero false := by decide

/-- **Sums of whole numbers are whole**, up to 2 ^ 24. -/
theorem ofNat_add {m n : Nat} (h : m + n ≤ 2 ^ 24) :
    (ofNat m : Single) + ofNat n = ofNat (m + n) := by
  obtain ⟨a, ha, hafinite, hm⟩ := isWhole_ofNat (n := m) (by omega)
  obtain ⟨b, hb, hbfinite, hn⟩ := isWhole_ofNat (n := n) (by omega)
  by_cases hm0 : m = 0
  · rw [hm0, Nat.zero_add, ofNat_zero, hb]
    exact zero_add_signed rfl b
  · by_cases hn0 : n = 0
    · rw [hn0, Nat.add_zero, ofNat_zero, ha]
      exact signed_add_zero rfl a
    · -- Neither operand is a zero, so the quanta are added and rounded.
      have hne {k r : Nat} (hk : k ≠ 0)
          (hr : Format.single.quanta r = k * Format.single.one) : r ≠ 0 := by
        rintro rfl
        have hone : Format.single.one ≠ 0 := Nat.ne_of_gt (Nat.two_pow_pos 149)
        have hzero : Format.single.quanta 0 = 0 := by decide
        exact Nat.mul_ne_zero hk hone (hr.symm.trans hzero)
      rw [ha, hb]
      simp only [HAdd.hAdd, Add.add, Binary.add, hne hm0 hm, hne hn0 hn, Nat.ne_of_lt hafinite,
        Nat.ne_of_lt hbfinite, if_false, if_true]
      show ofQuanta false (Format.single.quanta a + Format.single.quanta b) 1 = _
      rw [hm, hn, ← Nat.add_mul]
      rfl

end Recall.Binary
