import Recall.Proofs.Written
import Recall.Json.Value

/-!
# Written words are read back

What is between quotes is read as the string that was quoted, and the digits of an integer
of 64 bits as that integer.

A number ends where the text goes on with something else, so a law about a written number
must say what follows it. **Reading a number does not look past its end**
(`readNumber_append`): once it is known what the text alone gives, anything that does not
continue a number may follow (`Closed`). The other way round, every integer that was read
fits 64 bits (`Number.Fits`), whatever its spelling.
-/

namespace Recall.Json

open Decimal (naturalText integerText digitsValue)

/-! ## Blanks -/

theorem skipBlanks_cons {c : Char} (h : isBlank c = false) (s : List Char) :
    skipBlanks (c :: s) = c :: s := by
  simp [skipBlanks, h]

theorem skipBlanks_append {blanks : List Char} (h : ∀ c ∈ blanks, isBlank c = true)
    (s : List Char) : skipBlanks (blanks ++ s) = skipBlanks s :=
  List.dropWhile_append_of_pos h

/-! ## Strings -/

theorem hexValue?_digitChar : ∀ d < 16, hexValue? (Nat.digitChar d) = some d := by decide

/-- A quoted character is read as the character. -/
theorem readString_quoteChar (c : Char) (s : List Char) :
    readString (quoteChar c ++ s) = (readString s).map fun (cs, s) => (c :: cs, s) := by
  unfold quoteChar
  split
  any_goals rfl
  rename_i hquote hback _ _ _ _ _
  split
  · -- A control character is written in hexadecimal digits.
    rename_i hcontrol
    have hhigh := hexValue?_digitChar (c.toNat / 16) (by omega)
    have hlow := hexValue?_digitChar (c.toNat % 16) (by omega)
    have hunit : unit? '0' '0' (Nat.digitChar (c.toNat / 16)) (Nat.digitChar (c.toNat % 16)) =
        some c.toNat := by
      have hzero : hexValue? '0' = some 0 := by decide
      have hvalue : ((0 * 16 + 0) * 16 + c.toNat / 16) * 16 + c.toNat % 16 = c.toNat := by omega
      simp only [unit?, hzero, hhigh, hlow, Option.bind_eq_bind, Option.bind_some, hvalue,
        Option.pure_def]
    have htrailing : isTrailing c.toNat = false := by simp [isTrailing]; omega
    have hleading : isLeading c.toNat = false := by simp [isLeading]; omega
    simp only [List.cons_append, List.nil_append]
    rw [readString]
    simp only [hunit, htrailing, hleading, Bool.false_eq_true, if_false, Char.ofNat_toNat]
  · rename_i hplain
    rw [List.singleton_append, readString]
    · rw [if_neg hplain]
    all_goals simp_all

theorem readString_quoted (cs s : List Char) :
    readString (cs.flatMap quoteChar ++ '"' :: s) = .ok (cs, s) := by
  induction cs with
  | nil => rfl
  | cons c cs ih =>
      rw [List.flatMap_cons, List.append_assoc, readString_quoteChar, ih]
      rfl

theorem keyContents_quoted (key : String) (s : List Char) :
    keyContents (key.toList.flatMap quoteChar ++ '"' :: s) = .ok (key, s) := by
  rw [keyContents, readString_quoted]
  simp [Except.map]

theorem quote_append (key : String) (s : List Char) :
    quote key ++ s = '"' :: (key.toList.flatMap quoteChar ++ '"' :: s) := by
  simp [quote]

/-- A character that stands for itself between quotes. -/
def Plain (c : Char) : Prop := 0x20 ≤ c.toNat ∧ c ≠ '"' ∧ c ≠ '\\'

instance (c : Char) : Decidable (Plain c) := inferInstanceAs (Decidable (_ ∧ _))

theorem quoteChar_of_plain {c : Char} (h : Plain c) : quoteChar c = [c] := by
  obtain ⟨hcontrol, hquote, hback⟩ := h
  have hcontrol' : ¬c.toNat < 0x20 := Nat.not_lt.mpr hcontrol
  unfold quoteChar
  split
  · exact absurd rfl hquote
  · exact absurd rfl hback
  iterate 5 exact absurd hcontrol (by decide)
  exact if_neg hcontrol'

theorem plain_of_isDigit {c : Char} (h : c.isDigit = true) : Plain c := by
  refine ⟨?_, ?_, ?_⟩
  · simp only [Char.isDigit, Bool.and_eq_true, decide_eq_true_eq] at h
    exact Nat.le_trans (by decide) h.1
  · rintro rfl
    exact absurd h (by decide)
  · rintro rfl
    exact absurd h (by decide)

theorem quote_ofList {s : List Char} (h : ∀ c ∈ s, Plain c) :
    quote (String.ofList s) = '"' :: s ++ ['"'] := by
  have hself : s.flatMap quoteChar = s := by
    induction s with
    | nil => rfl
    | cons c s ih =>
        rw [List.flatMap_cons, quoteChar_of_plain (h c List.mem_cons_self),
          ih fun x hx => h x (List.mem_cons_of_mem _ hx)]
        rfl
  rw [quote, String.toList_ofList, hself]

/-! ## What follows a number -/

/-- A text that does not continue a number in front of it. -/
def Closed : List Char → Prop
  | [] => True
  | c :: _ => digit? c = none ∧ c ≠ '.' ∧ c ≠ 'e' ∧ c ≠ 'E'

instance (s : List Char) : Decidable (Closed s) := by
  cases s <;> unfold Closed <;> infer_instance

theorem digit?_eq_some_iff {c : Char} {d : Nat} :
    digit? c = some d ↔ c.isDigit = true ∧ d = c.toNat - '0'.toNat := by
  have hdigit : ('0' ≤ c ∧ c ≤ '9') ↔ c.isDigit = true := by
    simp [Char.isDigit, Char.le_def]
  unfold digit?
  split
  · rename_i h
    simp [hdigit.mp h, eq_comm]
  · rename_i h
    simp [mt hdigit.mpr h]

section Append

variable {rest : List Char} (hrest : Closed rest)
include hrest

theorem readDigits_append (s : List Char) :
    readDigits (s ++ rest) = ((readDigits s).1, (readDigits s).2 ++ rest) := by
  induction s with
  | nil =>
      cases rest with
      | nil => rfl
      | cons c rest => simp [readDigits, hrest.1]
  | cons c s ih =>
      simp only [List.cons_append, readDigits]
      cases digit? c with
      | none => rfl
      | some d => simp only [ih]

end Append

theorem readSomeDigits_eq_ok_iff {atEnd : Failure} {s t : List Char} {digits : List Nat} :
    readSomeDigits atEnd s = .ok (digits, t) ↔ readDigits s = (digits, t) ∧ digits ≠ [] := by
  unfold readSomeDigits
  rcases readDigits s with ⟨_ | ⟨d, ds⟩, t'⟩
  · cases t' <;> simp +contextual
  · simp +contextual [eq_comm]

theorem readWhole_eq_ok_iff {atEnd : Failure} {s t : List Char} {digits : List Nat} :
    readWhole atEnd s = .ok (digits, t) ↔
      readSomeDigits atEnd s = .ok (digits, t) ∧ ∀ d ds, digits ≠ 0 :: d :: ds := by
  unfold readWhole
  split
  · rename_i d ds t' h
    rw [h]
    constructor
    · intro h'
      simp at h'
    · rintro ⟨h', hzero⟩
      rw [Except.ok.injEq, Prod.mk.injEq] at h'
      exact absurd h'.1.symm (hzero d ds)
  · rename_i answer hanswer
    constructor
    · intro h
      refine ⟨h, ?_⟩
      rintro d ds rfl
      exact hanswer _ _ _ h
    · exact And.left

/-- Reads a numeral behind its sign. -/
def readUnsigned (atEnd : Failure) (negative : Bool) (s : List Char) :
    Except Failure (Numeral × List Char) := do
  let (whole, s) ← readWhole atEnd s
  let (fraction, s) ← readFraction atEnd s
  let (exponent, s) ← readExponent atEnd s
  return (⟨negative, whole, fraction, exponent⟩, s)

theorem readNumeral_minus (atEnd : Failure) (s : List Char) :
    readNumeral atEnd ('-' :: s) = readUnsigned atEnd true s := rfl

theorem readNumeral_of_ne {c : Char} (h : c ≠ '-') (atEnd : Failure) (s : List Char) :
    readNumeral atEnd (c :: s) = readUnsigned atEnd false (c :: s) := by
  unfold readNumeral
  split
  rename_i negative u hsign
  split at hsign
  · rename_i u' heq
    exact absurd (List.cons.inj heq).1 h
  · obtain ⟨rfl, rfl⟩ := Prod.mk.inj hsign
    rfl

theorem readNumber_eq_ok_iff {s t : List Char} {n : Number} :
    readNumber s = .ok (n, t) ↔
      ∃ numeral, readNumeral .ended s = .ok (numeral, t) ∧ numeral.value? = some n := by
  unfold readNumber
  rw [bind_eq_ok_iff]
  constructor
  · rintro ⟨⟨numeral, u⟩, hnumeral, h⟩
    dsimp only at h
    split at h
    · rename_i n' hvalue
      obtain ⟨rfl, rfl⟩ := Prod.mk.inj (Except.ok.inj h)
      exact ⟨numeral, hnumeral, hvalue⟩
    · cases h
  · rintro ⟨numeral, hnumeral, hvalue⟩
    refine ⟨(numeral, t), hnumeral, ?_⟩
    dsimp only
    rw [hvalue]
    rfl

section Append

variable {rest : List Char} (hrest : Closed rest)
include hrest

theorem readSomeDigits_append {atEnd : Failure} {s t : List Char} {digits : List Nat}
    (h : readSomeDigits atEnd s = .ok (digits, t)) :
    readSomeDigits atEnd (s ++ rest) = .ok (digits, t ++ rest) := by
  rw [readSomeDigits_eq_ok_iff] at h ⊢
  rw [readDigits_append hrest, h.1]
  exact ⟨rfl, h.2⟩

theorem readWhole_append {atEnd : Failure} {s t : List Char} {digits : List Nat}
    (h : readWhole atEnd s = .ok (digits, t)) :
    readWhole atEnd (s ++ rest) = .ok (digits, t ++ rest) := by
  rw [readWhole_eq_ok_iff] at h ⊢
  exact ⟨readSomeDigits_append hrest h.1, h.2⟩

theorem readFraction_append {atEnd : Failure} {s t : List Char} {fraction : Option (List Nat)}
    (h : readFraction atEnd s = .ok (fraction, t)) :
    readFraction atEnd (s ++ rest) = .ok (fraction, t ++ rest) := by
  unfold readFraction at h
  split at h
  · rename_i s
    obtain ⟨⟨digits, t'⟩, hdigits, heq⟩ := map_eq_ok_iff.mp h
    rw [Prod.mk.injEq] at heq
    obtain ⟨rfl, rfl⟩ := heq
    rw [List.cons_append, readFraction, readSomeDigits_append hrest hdigits]
    rfl
  · rename_i hpoint
    rw [Except.ok.injEq, Prod.mk.injEq] at h
    obtain ⟨rfl, rfl⟩ := h
    -- A point does not follow, so neither text has a fraction.
    rw [readFraction]
    intro u hu
    cases s with
    | nil => cases rest with
      | nil => simp at hu
      | cons c rest => exact hrest.2.1 (List.cons.inj hu).1
    | cons c s => exact hpoint s (congrArg (· :: s) (List.cons.inj hu).1)

omit hrest in
theorem readSign_append {s : List Char} (h : s ≠ []) :
    readSign (s ++ rest) = ((readSign s).1, (readSign s).2 ++ rest) := by
  obtain ⟨c, s, rfl⟩ := List.exists_cons_of_ne_nil h
  unfold readSign
  split <;> simp_all

theorem readExponent_append {atEnd : Failure} {s t : List Char}
    {exponent : Option (Bool × List Nat)} (h : readExponent atEnd s = .ok (exponent, t)) :
    readExponent atEnd (s ++ rest) = .ok (exponent, t ++ rest) := by
  cases s with
  | nil =>
      rw [readExponent, Except.ok.injEq, Prod.mk.injEq] at h
      obtain ⟨rfl, rfl⟩ := h
      cases rest with
      | nil => rfl
      | cons c rest =>
          have hmark : ¬(c = 'e' ∨ c = 'E') := not_or.mpr hrest.2.2
          simp only [List.nil_append, readExponent, if_neg hmark]
  | cons c s =>
      rw [List.cons_append]
      by_cases hmark : c = 'e' ∨ c = 'E'
      · simp only [readExponent, if_pos hmark] at h ⊢
        obtain ⟨⟨digits, t'⟩, hdigits, heq⟩ := map_eq_ok_iff.mp h
        rw [Prod.mk.injEq] at heq
        obtain ⟨rfl, rfl⟩ := heq
        have hs : s ≠ [] := by
          rintro rfl
          simp [readSign, readSomeDigits, readDigits] at hdigits
        rw [readSign_append hs, readSomeDigits_append hrest hdigits]
        rfl
      · simp only [readExponent, if_neg hmark, Except.ok.injEq, Prod.mk.injEq] at h ⊢
        obtain ⟨rfl, rfl⟩ := h
        exact ⟨rfl, rfl⟩

theorem readUnsigned_append {atEnd : Failure} {negative : Bool} {s t : List Char}
    {numeral : Numeral} (h : readUnsigned atEnd negative s = .ok (numeral, t)) :
    readUnsigned atEnd negative (s ++ rest) = .ok (numeral, t ++ rest) := by
  unfold readUnsigned at h ⊢
  obtain ⟨⟨whole, s₁⟩, hwhole, h⟩ := bind_eq_ok_iff.mp h
  obtain ⟨⟨fraction, s₂⟩, hfraction, h⟩ := bind_eq_ok_iff.mp h
  obtain ⟨⟨exponent, s₃⟩, hexponent, h⟩ := bind_eq_ok_iff.mp h
  obtain ⟨rfl, rfl⟩ := Prod.mk.inj (Except.ok.inj h)
  simp only [readWhole_append hrest hwhole, readFraction_append hrest hfraction,
    readExponent_append hrest hexponent, ok_bind]
  rfl

theorem readNumeral_append {atEnd : Failure} {s t : List Char} {numeral : Numeral}
    (h : readNumeral atEnd s = .ok (numeral, t)) :
    readNumeral atEnd (s ++ rest) = .ok (numeral, t ++ rest) := by
  cases s with
  | nil => cases h
  | cons c s =>
      by_cases hminus : c = '-'
      · rw [hminus] at h ⊢
        exact readUnsigned_append hrest h
      · rw [readNumeral_of_ne hminus] at h
        rw [List.cons_append, readNumeral_of_ne hminus]
        exact readUnsigned_append hrest h

/-- **Reading a number does not look past its end.** -/
theorem readNumber_append {s t : List Char} {n : Number} (h : readNumber s = .ok (n, t)) :
    readNumber (s ++ rest) = .ok (n, t ++ rest) := by
  obtain ⟨numeral, hnumeral, hvalue⟩ := readNumber_eq_ok_iff.mp h
  exact readNumber_eq_ok_iff.mpr ⟨numeral, readNumeral_append hrest hnumeral, hvalue⟩

end Append

/-! ## Integers -/

/-- An integer of 64 bits, or any number that is not an integer. -/
def Number.Fits : Number → Prop
  | .integer i => -(Numeral.negativeLimit : Int) ≤ i ∧ i ≤ Numeral.digitLimit
  | .real _ => True

theorem absorb_le {value : Nat} (h : value ≤ Numeral.digitLimit) (digits : List Nat) :
    (Numeral.absorb value digits).1 ≤ Numeral.digitLimit := by
  induction digits generalizing value with
  | nil => exact h
  | cons d digits ih =>
      rw [Numeral.absorb]
      split
      · rename_i hd
        exact ih hd
      · exact h

/-- Every integer that is read fits 64 bits. -/
theorem fits_of_value? {numeral : Numeral} {n : Number} (h : numeral.value? = some n) :
    n.Fits := by
  have hle := absorb_le (Nat.zero_le _) numeral.whole
  unfold Numeral.value? at h
  split at h
  rename_i value surplus hvalue
  rw [hvalue] at hle
  split at h
  · rename_i hint
    simp only [Bool.and_eq_true, Bool.or_eq_true, Bool.not_eq_true', bne_iff_ne, ne_eq,
      decide_eq_true_eq] at hint
    rw [Option.some.injEq] at h
    subst h
    show _ ≤ _ ∧ _ ≤ _
    split <;> simp_all
  · obtain ⟨x, -, rfl⟩ := Option.map_eq_some_iff.mp h
    exact trivial

theorem fits_of_readNumber {s t : List Char} {n : Number} (h : readNumber s = .ok (n, t)) :
    n.Fits := by
  obtain ⟨numeral, -, hvalue⟩ := readNumber_eq_ok_iff.mp h
  exact fits_of_value? hvalue

/-- Digits that fit are all taken. -/
theorem absorb_digits {value : Nat} {digits : List Char}
    (hfits : digitsValue value digits ≤ Numeral.digitLimit) :
    Numeral.absorb value (digits.map fun c => c.toNat - '0'.toNat) =
      (digitsValue value digits, 0) := by
  induction digits generalizing value with
  | nil => rfl
  | cons c digits ih =>
      rw [Decimal.digitsValue_cons] at hfits ⊢
      have hle := Decimal.le_digitsValue (10 * value + (c.toNat - '0'.toNat)) digits
      rw [List.map_cons, Numeral.absorb, if_pos (Nat.le_trans hle hfits)]
      exact ih hfits

theorem readDigits_digits {digits : List Char} (h : ∀ c ∈ digits, c.isDigit = true) :
    readDigits digits = (digits.map fun c => c.toNat - '0'.toNat, []) := by
  induction digits with
  | nil => rfl
  | cons c digits ih =>
      have hc := digit?_eq_some_iff.mpr ⟨h c List.mem_cons_self, rfl⟩
      rw [readDigits, hc, ih fun x hx => h x (List.mem_cons_of_mem _ hx)]
      rfl

theorem eq_zero_of_value {c : Char} (hc : c.isDigit = true) (h : c.toNat - '0'.toNat = 0) :
    c = '0' := by
  have hle : '0'.toNat ≤ c.toNat := by
    simp only [Char.isDigit, Bool.and_eq_true, decide_eq_true_eq] at hc
    exact hc.1
  exact Char.toNat_inj.mp (by omega)

/-- A written natural number is read as its digits alone. -/
theorem readUnsigned_naturalText (negative : Bool) (n : Nat) :
    readUnsigned .ended negative (naturalText n) =
      .ok (⟨negative, (naturalText n).map fun c => c.toNat - '0'.toNat, none, none⟩, []) := by
  have hdigits : ∀ c ∈ naturalText n, c.isDigit = true := fun _ => Decimal.isDigit_naturalText
  have hwhole : readWhole .ended (naturalText n) =
      .ok ((naturalText n).map fun c => c.toNat - '0'.toNat, []) := by
    rw [readWhole_eq_ok_iff, readSomeDigits_eq_ok_iff]
    refine ⟨⟨readDigits_digits hdigits, by simp [Decimal.naturalText_ne_nil]⟩, ?_⟩
    -- Only the number zero begins with a zero, and it has no other digit.
    intro d ds hzero
    obtain ⟨c, cs, htext⟩ := List.exists_cons_of_ne_nil (Decimal.naturalText_ne_nil n)
    rw [htext, List.map_cons, List.cons.injEq] at hzero
    have hc := eq_zero_of_value (hdigits c (htext ▸ List.mem_cons_self)) hzero.1
    obtain ⟨-, rfl⟩ := Decimal.naturalText_eq_zero_cons (htext.trans (congrArg (· :: cs) hc))
    exact absurd hzero.2 (List.cons_ne_nil d ds).symm
  simp only [readUnsigned, hwhole, ok_bind]
  rfl

theorem value?_naturalText {negative : Bool} {n : Nat} (hn : n ≤ Numeral.digitLimit)
    (hsign : negative = true → 0 < n ∧ n ≤ Numeral.negativeLimit) :
    (⟨negative, (naturalText n).map fun c => c.toNat - '0'.toNat, none, none⟩ :
      Numeral).value? = some (.integer (if negative then -(n : Int) else n)) := by
  have habsorb : Numeral.absorb 0 ((naturalText n).map fun c => c.toNat - '0'.toNat) = (n, 0) := by
    have hvalue := Decimal.digitsValue_naturalText n
    rw [absorb_digits (by rwa [hvalue]), hvalue]
  unfold Numeral.value?
  rw [habsorb]
  dsimp only
  rw [if_pos]
  cases negative with
  | false => simp
  | true =>
      have := hsign rfl
      simp [this]
      omega

theorem readNumeral_naturalText (n : Nat) :
    readNumeral .ended (naturalText n) = readUnsigned .ended false (naturalText n) := by
  obtain ⟨c, cs, htext⟩ := List.exists_cons_of_ne_nil (Decimal.naturalText_ne_nil n)
  have hc : c.isDigit = true := Decimal.isDigit_naturalText (htext ▸ List.mem_cons_self)
  rw [htext]
  refine readNumeral_of_ne ?_ _ _
  rintro rfl
  exact absurd hc (by decide)

theorem integerText_natCast (n : Nat) : integerText n = naturalText n := by
  simp [integerText]

/-- **A written integer is read back.** -/
theorem readNumber_integerText {i : Int} (h : (Number.integer i).Fits) :
    readNumber (integerText i) = .ok (.integer i, []) := by
  obtain ⟨hlow, hhigh⟩ := h
  have hlimits : Numeral.negativeLimit ≤ Numeral.digitLimit := by decide
  have hmagnitude : i.natAbs ≤ Numeral.digitLimit := by omega
  rw [readNumber_eq_ok_iff]
  by_cases hneg : i < 0
  · refine ⟨⟨true, (naturalText i.natAbs).map fun c => c.toNat - '0'.toNat, none, none⟩, ?_, ?_⟩
    · rw [integerText, if_pos hneg, readNumeral_minus]
      exact readUnsigned_naturalText true i.natAbs
    · rw [value?_naturalText hmagnitude fun _ => by omega, if_pos rfl]
      congr
      omega
  · refine ⟨⟨false, (naturalText i.natAbs).map fun c => c.toNat - '0'.toNat, none, none⟩, ?_, ?_⟩
    · rw [integerText, if_neg hneg, readNumeral_naturalText]
      exact readUnsigned_naturalText false i.natAbs
    · rw [value?_naturalText hmagnitude (by simp), if_neg (by simp)]
      congr
      omega

/-! ## Heads -/

theorem readHead_append {blanks : List Char} (h : ∀ c ∈ blanks, isBlank c = true)
    (s : List Char) : readHead (blanks ++ s) = readHead s := by
  unfold readHead
  rw [skipBlanks_append h]

theorem readHead_quote (text : String) (rest : List Char) :
    readHead (quote text ++ rest) = .ok (.string text, rest) := by
  rw [quote_append, readHead, skipBlanks_cons (by decide)]
  simp only [readString_quoted]
  simp [Except.map]

theorem readHead_boolText (b : Bool) (rest : List Char) :
    readHead (boolText b ++ rest) = .ok (.bool b, rest) := by
  cases b <;> rfl

theorem readHead_null (rest : List Char) :
    readHead (['n', 'u', 'l', 'l'] ++ rest) = .ok (.null, rest) := rfl

theorem start_of_readNumber {s t : List Char} {n : Number} (h : readNumber s = .ok (n, t)) :
    ∃ c u, s = c :: u ∧ (c = '-' ∨ (digit? c).isSome = true) := by
  obtain ⟨numeral, hnumeral, -⟩ := readNumber_eq_ok_iff.mp h
  cases s with
  | nil => cases hnumeral
  | cons c u =>
      refine ⟨c, u, rfl, ?_⟩
      by_cases hminus : c = '-'
      · exact Or.inl hminus
      · rw [readNumeral_of_ne hminus] at hnumeral
        obtain ⟨⟨whole, v⟩, hwhole, -⟩ := bind_eq_ok_iff.mp hnumeral
        obtain ⟨hdigits, hne⟩ :=
          readSomeDigits_eq_ok_iff.mp (readWhole_eq_ok_iff.mp hwhole).1
        rw [readDigits] at hdigits
        cases hc : digit? c with
        | none =>
            rw [hc] at hdigits
            exact absurd (Prod.mk.inj hdigits).1.symm hne
        | some d => exact Or.inr rfl

/-- A number does not begin with a blank. -/
theorem isBlank_of_start {c : Char} (h : c = '-' ∨ (digit? c).isSome = true) :
    isBlank c = false := by
  rcases h with rfl | h
  · decide
  · obtain ⟨d, hd⟩ := Option.isSome_iff_exists.mp h
    have hdigit := (digit?_eq_some_iff.mp hd).1
    by_contra hblank
    simp only [isBlank, Bool.not_eq_false, Bool.or_eq_true, beq_iff_eq] at hblank
    rcases hblank with ((rfl | rfl) | rfl) | rfl <;> exact absurd hdigit (by decide)

/-- Where a number can be read, the head is that number. -/
theorem readHead_of_readNumber {s t : List Char} {n : Number}
    (h : readNumber s = .ok (n, t)) : readHead s = .ok (.number n, t) := by
  obtain ⟨c, u, rfl, hc⟩ := start_of_readNumber h
  rw [readHead, skipBlanks_cons (isBlank_of_start hc)]
  split
  · rename_i heq
    cases heq
  -- A number begins with none of the characters that another value begins with.
  iterate 6
    rename_i heq
    obtain ⟨rfl, -⟩ := List.cons.inj heq
    exact absurd hc (by decide)
  · rename_i heq
    obtain ⟨rfl, rfl⟩ := List.cons.inj heq
    rw [if_pos hc, h]
    rfl

/-- A head that is a number was read as one. -/
theorem readNumber_of_readHead {s t : List Char} {n : Number}
    (h : readHead s = .ok (.number n, t)) : readNumber (skipBlanks s) = .ok (n, t) := by
  unfold readHead at h
  split at h
  any_goals cases h
  iterate 4
    obtain ⟨_, -, heq⟩ := map_eq_ok_iff.mp h
    cases heq
  rename_i hs
  split at h
  · obtain ⟨⟨n', t'⟩, hnumber, heq⟩ := map_eq_ok_iff.mp h
    cases heq
    rw [hs]
    exact hnumber
  · cases h

theorem fits_of_readHead {s t : List Char} {n : Number} (h : readHead s = .ok (.number n, t)) :
    n.Fits :=
  fits_of_readNumber (readNumber_of_readHead h)

end Recall.Json
