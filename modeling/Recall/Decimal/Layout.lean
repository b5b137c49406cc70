import Recall.Decimal.Shortest

/-!
# Written numbers

Natural numbers are written in decimal digits. A binary number is written as its
shortest decimal. A layout says for which sizes the point is placed among the
digits; all other numbers have one digit before the point and an exponent with a
sign where it is positive as well. A whole number always shows a fraction digit
or an exponent.
-/

namespace Recall

namespace Decimal

def naturalText (n : Nat) : List Char := Nat.toDigits 10 n

/-- An integer: its digits after a minus sign where it is negative. -/
def integerText (i : Int) : List Char :=
  if i < 0 then '-' :: naturalText i.natAbs else naturalText i.natAbs

/-- A natural number in at least `width` digits, filled with zeros in front. -/
def paddedText (width n : Nat) : List Char :=
  List.replicate (width - (naturalText n).length) '0' ++ naturalText n

/-- The powers of ten, of the leading digit, that are written without an
exponent. -/
structure Layout where
  least : Int
  greatest : Int

namespace Layout

def single : Layout := ⟨-6, 12⟩

def double : Layout := ⟨-5, 15⟩

def decimalText (layout : Layout) (d : Decimal) : List Char :=
  if d.digits = 0 then ['0', '.', '0']
  else
    let digits := naturalText d.digits
    let leading : Int := d.exponent + digits.length - 1
    if layout.least ≤ leading ∧ leading ≤ layout.greatest then
      if 0 ≤ d.exponent then
        digits ++ List.replicate d.exponent.toNat '0' ++ ['.', '0']
      else if 0 ≤ leading then
        digits.take (leading.toNat + 1) ++ '.' :: digits.drop (leading.toNat + 1)
      else
        '0' :: '.' :: List.replicate (-leading - 1).toNat '0' ++ digits
    else
      let fraction := digits.drop 1
      digits.take 1 ++ (if fraction.isEmpty then [] else '.' :: fraction) ++
        'e' :: (if leading < 0 then '-' else '+') :: naturalText leading.natAbs

/-- The text of a finite number; infinities and not-a-number have none. -/
def text? {f : Binary.Format} (layout : Layout) : Binary f → Option (List Char)
  | .nan => none
  | .signed negative rank =>
    if rank.val = f.top then none
    else
      let magnitude := layout.decimalText (shortest f rank.val)
      some (if negative then '-' :: magnitude else magnitude)

end Layout

end Decimal

end Recall
