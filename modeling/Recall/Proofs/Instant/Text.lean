import Recall.Instant.Text
import Recall.Proofs.Instant.Calendar
import Recall.Proofs.Written

/-!
# Written instants are read back

**Every instant that was read is read back from its own text** (`ofText_text`). What reading
leaves true of an instant (`Legible`) is what writing needs: its date is one of the calendar,
and its nanoseconds run past a second only in the last second of a minute, where they are
written as a sixtieth second.

The text is read part by part. A written part consists of digits, which are read as the
number that was written as soon as the reader is stopped by its width or by what follows
(`readNumber_digits`).
-/

namespace Recall.Instant

open Decimal (paddedText digitsValue)

/-! ## Digits -/

theorem digit?_of_isDigit {c : Char} (h : c.isDigit = true) :
    digit? c = some (c.toNat - '0'.toNat) := by
  rw [digit?, if_pos]
  simpa [Char.isDigit, Char.le_def] using h

/-- A text that does not go on with a digit. -/
def Stops : List Char → Prop
  | [] => True
  | c :: _ => digit? c = none

theorem readMore_digits {digits : List Char} (h : ∀ c ∈ digits, c.isDigit = true) {width n : Nat}
    (hlimit : digitsValue n digits ≤ numberLimit) {rest : List Char}
    (hstop : digits.length = width ∨ digits.length < width ∧ Stops rest) :
    readMore width n (digits ++ rest) = .ok (digitsValue n digits, rest) := by
  induction digits generalizing width n with
  | nil => cases width with
    | zero => rfl
    | succ width =>
        have hrest : Stops rest := (hstop.resolve_left (by simp)).2
        cases rest with
        | nil => rfl
        | cons c rest =>
            rw [List.nil_append, readMore, show digit? c = none from hrest]
            rfl
  | cons c digits ih =>
      rw [Decimal.digitsValue_cons] at hlimit ⊢
      obtain ⟨width, rfl⟩ : ∃ w, width = w + 1 :=
        ⟨width - 1, by simp only [List.length_cons] at hstop; omega⟩
      have hle := Decimal.le_digitsValue (10 * n + (c.toNat - '0'.toNat)) digits
      simp only [List.length_cons, Nat.add_right_cancel_iff, Nat.add_lt_add_iff_right] at hstop
      rw [List.cons_append, readMore, digit?_of_isDigit (h c List.mem_cons_self)]
      dsimp only
      rw [if_neg (by omega)]
      exact ih (fun x hx => h x (List.mem_cons_of_mem _ hx)) hlimit hstop

theorem readNumber_digits {digits : List Char} (h : ∀ c ∈ digits, c.isDigit = true)
    (hne : digits ≠ []) (hlimit : digitsValue 0 digits ≤ numberLimit) {width : Nat}
    {rest : List Char} (hstop : digits.length = width ∨ digits.length < width ∧ Stops rest) :
    readNumber width (digits ++ rest) = .ok (digitsValue 0 digits, rest) := by
  obtain ⟨c, cs, rfl⟩ := List.exists_cons_of_ne_nil hne
  have hc := digit?_of_isDigit (h c List.mem_cons_self)
  rw [List.cons_append, readNumber, hc, Option.isSome_some, if_pos rfl]
  exact readMore_digits h hlimit hstop

theorem isSpace_of_isDigit {c : Char} (h : c.isDigit = true) : isSpace c = false := by
  simp only [Char.isDigit, Bool.and_eq_true, decide_eq_true_eq] at h
  have hlow : 48 ≤ c.toNat := h.1
  have hhigh : c.toNat ≤ 57 := h.2
  simp [isSpace]
  omega

theorem skipSpaces_cons {c : Char} (h : isSpace c = false) (s : List Char) :
    skipSpaces (c :: s) = c :: s := by
  simp [skipSpaces, h]

theorem skipSpaces_paddedText (width n : Nat) (s : List Char) :
    skipSpaces (paddedText width n ++ s) = paddedText width n ++ s := by
  obtain ⟨c, cs, htext⟩ := List.exists_cons_of_ne_nil (Decimal.paddedText_ne_nil width n)
  have hc : c.isDigit = true := Decimal.isDigit_paddedText (htext ▸ List.mem_cons_self)
  rw [htext, List.cons_append, skipSpaces_cons (isSpace_of_isDigit hc)]

theorem readNumber_paddedText {width n : Nat} (hwidth : 0 < width) (hn : n < 10 ^ width)
    (hlimit : n ≤ numberLimit) {most : Nat} {rest : List Char}
    (hstop : width = most ∨ width < most ∧ Stops rest) :
    readNumber most (paddedText width n ++ rest) = .ok (n, rest) := by
  have hvalue := Decimal.digitsValue_paddedText width n
  have hlength := Decimal.length_paddedText hwidth hn
  rw [readNumber_digits (fun _ => Decimal.isDigit_paddedText) (Decimal.paddedText_ne_nil width n)
    (by rwa [hvalue]) (by rwa [hlength]), hvalue]

/-! ## Parts -/

theorem readPart_paddedText {low high n : Nat} (hlow : low ≤ n) (hhigh : n ≤ high)
    (hn : n < 100) (rest : List Char) :
    readPart low high (paddedText 2 n ++ rest) = .ok (n, rest) := by
  have hlimit : n ≤ numberLimit := by simp only [numberLimit]; omega
  rw [readPart, skipSpaces_paddedText,
    readNumber_paddedText (by decide) hn hlimit (Or.inl rfl), ok_bind]
  exact if_pos ⟨hlow, hhigh⟩

theorem readMark_cons {mark : Char} (h : isSpace mark = false) (s : List Char) :
    readMark mark (mark :: s) = .ok s := by
  simp [readMark, skipSpaces_cons h]

theorem readYear_minus {n : Nat} {s t : List Char} (h : readNumber s.length s = .ok (n, t))
    (hrange : -yearLimit ≤ -(n : Int) ∧ -(n : Int) < yearLimit) :
    readYear ('-' :: s) = .ok (-(n : Int), t) := by
  rw [readYear, skipSpaces_cons (by decide)]
  exact bind_eq_ok_iff.mpr ⟨(n, t), h, bind_eq_ok_iff.mpr ⟨(-(n : Int), t), rfl, if_pos hrange⟩⟩

theorem readYear_plus {n : Nat} {s t : List Char} (h : readNumber s.length s = .ok (n, t))
    (hrange : -yearLimit ≤ (n : Int) ∧ (n : Int) < yearLimit) :
    readYear ('+' :: s) = .ok ((n : Int), t) := by
  rw [readYear, skipSpaces_cons (by decide)]
  exact bind_eq_ok_iff.mpr ⟨(n, t), h, bind_eq_ok_iff.mpr ⟨((n : Int), t), rfl, if_pos hrange⟩⟩

theorem readYear_digit {c : Char} (hc : c.isDigit = true) {n : Nat} {s t : List Char}
    (h : readNumber 4 (c :: s) = .ok (n, t))
    (hrange : -yearLimit ≤ (n : Int) ∧ (n : Int) < yearLimit) :
    readYear (c :: s) = .ok ((n : Int), t) := by
  rw [readYear, skipSpaces_cons (isSpace_of_isDigit hc)]
  split
  · rename_i heq
    obtain ⟨rfl, -⟩ := List.cons.inj heq
    exact absurd hc (by decide)
  · rename_i heq
    obtain ⟨rfl, -⟩ := List.cons.inj heq
    exact absurd hc (by decide)
  · exact bind_eq_ok_iff.mpr ⟨(n, t), h, bind_eq_ok_iff.mpr ⟨((n : Int), t), rfl, if_pos hrange⟩⟩

theorem readYear_yearText {year : Int} (hlow : Calendar.firstYear ≤ year)
    (hhigh : year ≤ Calendar.lastYear) (rest : List Char) :
    readYear (yearText year ++ '-' :: rest) = .ok (year, '-' :: rest) := by
  simp only [Calendar.firstYear, Calendar.lastYear] at hlow hhigh
  have hlimits : (yearLimit : Int) = 2147483648 ∧ numberLimit = 9223372036854775807 := ⟨rfl, rfl⟩
  -- Behind a sign the number is as long as its digits go.
  have hlong : readNumber (paddedText 4 year.natAbs ++ '-' :: rest).length
      (paddedText 4 year.natAbs ++ '-' :: rest) = .ok (year.natAbs, '-' :: rest) := by
    have hvalue := Decimal.digitsValue_paddedText 4 year.natAbs
    have hstops : Stops ('-' :: rest) := by
      show digit? '-' = none
      decide
    rw [readNumber_digits (fun _ => Decimal.isDigit_paddedText) (Decimal.paddedText_ne_nil 4 _)
      (by omega) (Or.inr ⟨by simp, hstops⟩), hvalue]
  unfold yearText
  split
  · have hshort : readNumber 4 (paddedText 4 year.toNat ++ '-' :: rest) =
        .ok (year.toNat, '-' :: rest) :=
      readNumber_paddedText (by decide) (by omega) (by omega) (Or.inl rfl)
    obtain ⟨c, cs, htext⟩ := List.exists_cons_of_ne_nil (Decimal.paddedText_ne_nil 4 year.toNat)
    have hc : c.isDigit = true := Decimal.isDigit_paddedText (htext ▸ List.mem_cons_self)
    rw [htext, List.cons_append] at hshort ⊢
    rw [readYear_digit hc hshort (by omega), Int.toNat_of_nonneg (by omega)]
  · rw [List.cons_append]
    by_cases hneg : year < 0
    · rw [if_pos hneg, readYear_minus hlong (by omega)]
      simp only [Except.ok.injEq, Prod.mk.injEq, and_true]
      omega
    · rw [if_neg hneg, readYear_plus hlong (by omega)]
      simp only [Except.ok.injEq, Prod.mk.injEq, and_true]
      omega

/-- A fraction is read as the nanoseconds that it was written for. -/
theorem readFraction_fractionText {nanos : Nat} (h : nanos < second) :
    readFraction (fractionText nanos ++ ['Z']) = .ok (nanos, ['Z']) := by
  have hstops : Stops ['Z'] := by
    show digit? 'Z' = none
    decide
  have hpart : ∀ width n, 0 < width → width ≤ 9 → n < 10 ^ width →
      readFraction ('.' :: paddedText width n ++ ['Z']) = .ok (n * 10 ^ (9 - width), ['Z']) := by
    intro width n hpos hle hn
    have hlimit : n ≤ numberLimit := by
      have : 10 ^ width ≤ 10 ^ 9 := Nat.pow_le_pow_right (by decide) hle
      simp only [numberLimit]
      omega
    have hlength := Decimal.length_paddedText hpos hn
    have hstop : width = 9 ∨ width < 9 ∧ Stops ['Z'] :=
      (Nat.eq_or_lt_of_le hle).imp_right fun hlt => ⟨hlt, hstops⟩
    rw [List.cons_append, readFraction, readNumber_paddedText hpos hn hlimit hstop, ok_bind]
    simp only [List.length_append, List.length_singleton, hlength, Nat.add_sub_cancel]
    rfl
  simp only [second] at h
  unfold fractionText
  split
  · rename_i hzero
    rw [hzero]
    rfl
  · split
    · rw [hpart 3 _ (by decide) (by decide) (by omega)]
      congr
      omega
    · split
      · rw [hpart 6 _ (by decide) (by decide) (by omega)]
        congr
        omega
      · rw [hpart 9 _ (by decide) (by decide) (by omega)]
        rw [Nat.sub_self, Nat.pow_zero, Nat.mul_one]

/-! ## Whole instants -/

/-- What reading leaves true of an instant. -/
structure Legible (t : Instant) : Prop where
  date : (Calendar.Date.ofDays (t.seconds / 86400)).isValid = true
  nanos : t.nanos < second ∨ t.seconds % 60 = 59 ∧ t.nanos < 2 * second

/-- A second is left as it is, and of two the latter is a sixtieth one. -/
theorem Legible.second_cases {t : Instant} (h : t.Legible) :
    (t.nanos / second = 0 ∧ t.nanos % second = t.nanos) ∨
      t.seconds % 60 = 59 ∧ t.nanos / second = 1 ∧ t.nanos % second + second = t.nanos := by
  have hnanos := h.nanos
  simp only [second] at hnanos ⊢
  omega

/-- Parts that are valid in universal time form an instant. -/
theorem ofParts_eq_ok {date : Calendar.Date} (hdate : date.isValid = true)
    {hour minute sec nanos sec' nanos' : Nat}
    (hleap : (if sec = 60 then (59, nanos + second) else (sec, nanos)) = (sec', nanos'))
    {seconds : Int}
    (hseconds : date.toDays * 86400 + (hour * 3600 + minute * 60 + sec' : Nat) = seconds)
    (hvalid : (Calendar.Date.ofDays (seconds / 86400)).isValid = true) :
    ofParts date hour minute sec nanos 0 = .ok ⟨seconds, nanos'⟩ := by
  have hoffset : ¬86400 ≤ (0 : Int).natAbs := by decide
  unfold ofParts
  rw [hdate, hleap]
  simp only [Bool.not_true, Bool.false_eq_true, if_false, if_neg hoffset, Int.sub_zero, hseconds,
    hvalid, if_true]

/-- The parts that are written for an instant form the instant. -/
theorem ofParts_parts {t : Instant} (h : t.Legible) :
    ofParts (Calendar.Date.ofDays (t.seconds / 86400)) ((t.seconds % 86400).toNat / 3600)
        ((t.seconds % 86400).toNat / 60 % 60) ((t.seconds % 86400).toNat % 60 + t.nanos / second)
        (t.nanos % second) 0 = .ok t := by
  have hdays := Calendar.Date.toDays_ofDays (t.seconds / 86400)
  have hnanos : ∀ nanos, nanos = t.nanos →
      (.ok ⟨t.seconds, nanos⟩ : Except Fault Instant) = .ok t := by
    rintro nanos rfl
    rfl
  rcases h.second_cases with ⟨hdiv, hmod⟩ | ⟨hlast, hdiv, hmod⟩
  · refine (ofParts_eq_ok h.date (if_neg ?_) ?_ h.date).trans (hnanos _ hmod)
    all_goals omega
  · refine (ofParts_eq_ok h.date (if_pos ?_) ?_ h.date).trans (hnanos _ hmod)
    all_goals omega

/-- **A written instant is read back.** -/
theorem ofText_text {t : Instant} (h : t.Legible) : ofText t.text = .ok t := by
  have hvalid := h.date
  simp only [Calendar.Date.isValid, Bool.and_eq_true, decide_eq_true_eq] at hvalid
  obtain ⟨⟨⟨⟨⟨hlow, hhigh⟩, hmonth⟩, hmonth'⟩, hday⟩, hday'⟩ := hvalid
  have hlength : ∀ year month, Calendar.monthLength year month ≤ 31 := by
    intro year month
    unfold Calendar.monthLength
    split
    · split <;> decide
    · split <;> decide
  have hday'' := Nat.le_trans hday' (hlength _ _)
  have hsec : (t.seconds % 86400).toNat % 60 + t.nanos / second ≤ 60 := by
    rcases h.second_cases with ⟨hdiv, -⟩ | ⟨-, hdiv, -⟩ <;> omega
  rw [text]
  simp only [List.append_assoc, List.cons_append]
  refine bind_eq_ok_iff.mpr ⟨_, readYear_yearText hlow hhigh _, ?_⟩
  refine bind_eq_ok_iff.mpr ⟨_, readMark_cons (by decide) _, ?_⟩
  refine bind_eq_ok_iff.mpr ⟨_, readPart_paddedText hmonth hmonth' (by omega) _, ?_⟩
  refine bind_eq_ok_iff.mpr ⟨_, readMark_cons (by decide) _, ?_⟩
  refine bind_eq_ok_iff.mpr ⟨_, readPart_paddedText hday hday'' (by omega) _, ?_⟩
  refine bind_eq_ok_iff.mpr ⟨_, rfl, ?_⟩
  refine bind_eq_ok_iff.mpr ⟨_, readPart_paddedText (Nat.zero_le _) (by omega) (by omega) _, ?_⟩
  refine bind_eq_ok_iff.mpr ⟨_, readMark_cons (by decide) _, ?_⟩
  refine bind_eq_ok_iff.mpr ⟨_, readPart_paddedText (Nat.zero_le _) (by omega) (by omega) _, ?_⟩
  refine bind_eq_ok_iff.mpr ⟨_, readMark_cons (by decide) _, ?_⟩
  refine bind_eq_ok_iff.mpr ⟨_, readPart_paddedText (Nat.zero_le _) (by omega) (by omega) _, ?_⟩
  refine bind_eq_ok_iff.mpr ⟨_, readFraction_fractionText (Nat.mod_lt _ (by decide)), ?_⟩
  refine bind_eq_ok_iff.mpr ⟨(0, []), rfl, ?_⟩
  exact ofParts_parts h

/-! ## What reading leaves true -/

theorem digit?_lt {c : Char} {d : Nat} (h : digit? c = some d) : d < 10 := by
  unfold digit? at h
  split at h
  · rename_i hc
    rw [Option.some.injEq] at h
    have hle : c.toNat ≤ '9'.toNat := hc.2
    have : '9'.toNat = 57 ∧ '0'.toNat = 48 := by decide
    omega
  · cases h

/-- A number is less than the power of ten for its digits. -/
theorem readMore_lt {width n m : Nat} {s t : List Char} (h : readMore width n s = .ok (m, t)) :
    ∃ digits, s = digits ++ t ∧ digits.length ≤ width ∧ m < (n + 1) * 10 ^ digits.length := by
  induction width generalizing n s with
  | zero =>
      cases h
      exact ⟨[], rfl, Nat.le_refl 0, by simp⟩
  | succ width ih => cases s with
    | nil =>
        cases h
        exact ⟨[], rfl, Nat.zero_le _, by simp⟩
    | cons c s =>
        rw [readMore] at h
        split at h
        · cases h
          exact ⟨[], rfl, Nat.zero_le _, by simp⟩
        · rename_i d hd
          have hd := digit?_lt hd
          split at h
          · cases h
          · obtain ⟨digits, rfl, hlength, hlt⟩ := ih h
            refine ⟨c :: digits, rfl, Nat.succ_le_succ hlength, Nat.lt_of_lt_of_le hlt ?_⟩
            calc (10 * n + d + 1) * 10 ^ digits.length
                ≤ (n + 1) * 10 * 10 ^ digits.length := Nat.mul_le_mul_right _ (by omega)
              _ = (n + 1) * 10 ^ (c :: digits).length := by
                  rw [List.length_cons, Nat.pow_succ', Nat.mul_assoc]

theorem readFraction_lt {s t : List Char} {nanos : Nat} (h : readFraction s = .ok (nanos, t)) :
    nanos < second := by
  unfold readFraction at h
  split at h
  · rename_i s
    obtain ⟨⟨n, rest⟩, hread, h⟩ := bind_eq_ok_iff.mp h
    cases h
    have hmore : readMore 9 0 s = .ok (n, rest) := by
      cases s with
      | nil => cases hread
      | cons c s =>
          rw [readNumber] at hread
          split at hread
          · exact hread
          · cases hread
    obtain ⟨digits, rfl, hlength, hlt⟩ := readMore_lt hmore
    rw [List.length_append, Nat.add_sub_cancel]
    rw [Nat.zero_add, Nat.one_mul] at hlt
    calc n * 10 ^ (9 - digits.length)
        < 10 ^ digits.length * 10 ^ (9 - digits.length) :=
          Nat.mul_lt_mul_of_pos_right hlt (Nat.pow_pos (by decide))
      _ = second := by rw [← Nat.pow_add, Nat.add_sub_cancel' hlength]; rfl
  · cases h
    decide

/-- An offset is a number of minutes. -/
theorem readOffset_mod {s t : List Char} {offset : Int} (h : readOffset s = .ok (offset, t)) :
    offset % 60 = 0 := by
  have hminutes : ∀ {s t : List Char} {n : Nat}, readHoursMinutes s = .ok (n, t) → n % 60 = 0 := by
    intro s t n h
    obtain ⟨⟨⟨a, b⟩, s₁⟩, -, h⟩ := bind_eq_ok_iff.mp h
    obtain ⟨⟨⟨c, d⟩, s₂⟩, -, h⟩ := bind_eq_ok_iff.mp h
    dsimp only at h
    split at h <;> cases h
    omega
  unfold readOffset at h
  split at h
  · cases h
  · split at h
    · cases h; rfl
    · split at h
      · cases h; rfl
      · split at h
        · obtain ⟨⟨n, u⟩, hn, heq⟩ := map_eq_ok_iff.mp h
          cases heq
          have := hminutes hn
          omega
        · split at h
          · obtain ⟨⟨n, u⟩, hn, heq⟩ := map_eq_ok_iff.mp h
            cases heq
            have := hminutes hn
            omega
          · cases h

theorem legible_of_ofParts {date : Calendar.Date} {hour minute sec nanos : Nat} {offset : Int}
    (hnanos : nanos < second) (hoffset : offset % 60 = 0) {t : Instant}
    (h : ofParts date hour minute sec nanos offset = .ok t) : t.Legible := by
  unfold ofParts at h
  split at h
  · cases h
  · split at h
    · cases h
    · split at h
      rename_i sec' nanos' hleap
      dsimp only at h
      split at h
      · rename_i hvalid
        cases h
        refine ⟨hvalid, ?_⟩
        split at hleap
        · obtain ⟨rfl, rfl⟩ := Prod.mk.inj hleap
          refine Or.inr ⟨?_, ?_⟩ <;> dsimp only <;> omega
        · obtain ⟨rfl, rfl⟩ := Prod.mk.inj hleap
          exact Or.inl hnanos
      · cases h

theorem legible_of_ofText {s : List Char} {t : Instant} (h : ofText s = .ok t) : t.Legible := by
  obtain ⟨⟨year, s₁⟩, -, h⟩ := bind_eq_ok_iff.mp h
  obtain ⟨s₂, -, h⟩ := bind_eq_ok_iff.mp h
  obtain ⟨⟨month, s₃⟩, -, h⟩ := bind_eq_ok_iff.mp h
  obtain ⟨s₄, -, h⟩ := bind_eq_ok_iff.mp h
  obtain ⟨⟨day, s₅⟩, -, h⟩ := bind_eq_ok_iff.mp h
  obtain ⟨s₆, -, h⟩ := bind_eq_ok_iff.mp h
  obtain ⟨⟨hour, s₇⟩, -, h⟩ := bind_eq_ok_iff.mp h
  obtain ⟨s₈, -, h⟩ := bind_eq_ok_iff.mp h
  obtain ⟨⟨minute, s₉⟩, -, h⟩ := bind_eq_ok_iff.mp h
  obtain ⟨s₁₀, -, h⟩ := bind_eq_ok_iff.mp h
  obtain ⟨⟨sec, s₁₁⟩, -, h⟩ := bind_eq_ok_iff.mp h
  obtain ⟨⟨nanos, s₁₂⟩, hfraction, h⟩ := bind_eq_ok_iff.mp h
  obtain ⟨⟨offset, s₁₃⟩, hoffset, h⟩ := bind_eq_ok_iff.mp h
  dsimp only at h
  split at h
  · exact legible_of_ofParts (readFraction_lt hfraction) (readOffset_mod hoffset) h
  · cases h

end Recall.Instant
