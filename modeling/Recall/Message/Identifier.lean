/-!
# Generated identifiers

A generated identifier is a 128 bit number written as 32 hexadecimal digits in
groups of 8, 4, 4, 4 and 12. Its first 48 bits are the milliseconds of the clock and
fixed digits mark its version and variant; the bits between and after them count
up. Texts of equal length with the clock in front are in the order of their
creation.
-/

namespace Recall.Identifier

/-- A number in `width` hexadecimal digits. -/
def hexDigits : Nat → Nat → List Char
  | 0, _ => []
  | width + 1, n => hexDigits width (n / 16) ++ [Nat.digitChar (n % 16)]

/-- The identifier made at a millisecond with a count. -/
def text (millis count : Nat) : String :=
  let clock := hexDigits 12 millis
  String.ofList
    (clock.take 8 ++ '-' :: clock.drop 8 ++
      '-' :: '7' :: hexDigits 3 (count >>> 62) ++
      '-' :: hexDigits 4 (0x8000 + count >>> 48 % 0x4000) ++
      '-' :: hexDigits 12 count)

/-- Does a text have the shape of an identifier? -/
def hasShape (id : String) : Bool :=
  let cs := id.toList
  cs.length == 36 &&
    cs.zipIdx.all fun (c, i) =>
      if i == 8 || i == 13 || i == 18 || i == 23 then c == '-'
      else if i == 14 then c == '7'
      else if i == 19 then c == '8' || c == '9' || c == 'a' || c == 'b'
      else c.isDigit || ('a' ≤ c && c ≤ 'f')

end Recall.Identifier
