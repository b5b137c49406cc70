import Recall.Decimal.Layout

/-!
# Numbers in JSON

A number without fraction and exponent that fits 64 bits is an integer; every
other number is a 64 bit floating point number, the negative zero included.

Reading a floating point number is a rule of its own and not always the nearest
value. As many leading digits as fit 64 bits form a whole number; digits in
front of the point that no longer fit are counted, digits behind it are dropped.
That number is rounded once and then multiplied or divided once by a rounded
power of ten. A number that is too large is refused.
-/

namespace Recall.Json

/-- The value of a JSON number. -/
inductive Number where
  | integer (value : Int)
  | real (value : Double)
  deriving DecidableEq

/-- A number as it is spelled: the digits before the point, those behind it, and
the sign and digits of the exponent. -/
structure Numeral where
  negative : Bool
  whole : List Nat
  fraction : Option (List Nat)
  exponent : Option (Bool × List Nat)

namespace Numeral

/-- The largest whole number that the leading digits may form, which takes 64 bits. -/
def digitLimit : Nat := 18446744073709551615

/-- The magnitude of the least negative integer. -/
def negativeLimit : Nat := 9223372036854775808

/-- The largest exponent that is taken at its value, which takes 31 bits. -/
def exponentLimit : Nat := 2147483647

/-- The largest power of ten that is used in one step. -/
def powerLimit : Nat := 308

/-- Appends digits to a whole number while it fits, and counts those left over. -/
def absorb (value : Nat) : List Nat → Nat × Nat
  | [] => (value, 0)
  | d :: rest =>
    if 10 * value + d ≤ digitLimit then absorb (10 * value + d) rest
    else (value, rest.length + 1)

/-- A rounded power of ten. -/
def power (n : Nat) : Double := Binary.ofNat (Nat.pow 10 n)

/-- Divides by the largest power as often as a small exponent needs, which stops
at zero. -/
def shrink : Nat → Double → Int → Double × Int
  | 0, x, e => (x, e)
  | steps + 1, x, e =>
    if x.isZero then (x, e) else shrink steps (x / power powerLimit) (e + powerLimit)

/-- The value of `digits · 10 ^ exponent`, or nothing if it is too large. -/
def scale? (digits : Nat) (exponent : Int) : Option Double :=
  let x : Double := Binary.ofNat digits
  if (powerLimit : Int) < exponent then
    if x.isZero then some x else none
  else if 0 ≤ exponent then
    let y := x * power exponent.toNat
    if y.isFinite then some y else none
  else
    let (y, e) := shrink (((-exponent).toNat - 1) / powerLimit) x exponent
    some (if y.isZero then y else y / power (-e).toNat)

/-- The value of exponent digits; past the limit it is taken to be unbounded. -/
def exponentValue? (digits : List Nat) : Option Nat :=
  let n := digits.foldl (fun n d => 10 * n + d) 0
  if n ≤ exponentLimit then some n else none

/-- The magnitude of a numeral with a fraction or an exponent, or whose digits do
not fit. -/
def magnitude? (n : Numeral) : Option Double :=
  let (value, surplus) := absorb 0 n.whole
  let (digits, used) :=
    match n.fraction with
    | none => (value, 0)
    | some fraction =>
      let (all, dropped) := absorb value fraction
      (all, fraction.length - dropped)
  let shift : Int := surplus - used
  match n.exponent with
  | none => scale? digits shift
  | some (negative, exponent) =>
    match exponentValue? exponent with
    | some e => scale? digits (if negative then shift - e else shift + e)
    | none => if digits ≠ 0 ∧ !negative then none else some (Binary.zero false)

/-- The value of a numeral, or nothing if it is too large. -/
def value? (n : Numeral) : Option Number :=
  let (value, surplus) := absorb 0 n.whole
  if n.fraction.isNone && n.exponent.isNone && surplus == 0 &&
      (!n.negative || (value != 0 && value ≤ negativeLimit)) then
    some (.integer (if n.negative then -(value : Int) else value))
  else
    n.magnitude?.map fun x => .real (if n.negative then -x else x)

end Numeral

namespace Number

def text : Number → List Char
  | integer i => Decimal.integerText i
  | real x => (Decimal.Layout.double.text? x).getD ['n', 'u', 'l', 'l']

/-- Equality of numbers: integers and floating point numbers differ, and floating
point numbers are compared by value. -/
def same : Number → Number → Bool
  | integer i, integer j => i == j
  | real x, real y => x.numEq y
  | _, _ => false

/-- The nearest floating point number of a format. -/
def toBinary {f : Binary.Format} : Number → Binary f
  | integer i => Binary.ofInt i
  | real x => x.convert

end Number

end Recall.Json
