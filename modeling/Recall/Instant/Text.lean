import Recall.Instant.Basic
import Recall.Decimal.Layout

/-!
# Written instants

An instant is written in universal time: date, `T`, time of day, as many groups
of three fraction digits as it needs, `Z`. Years outside 0 to 9999 carry a sign.

Reading accepts more. Blanks may stand in front of every number and of the marks
within the date and within the time; the separator may be `T`, `t` or a blank;
numbers may be short; the offset may be `Z`, `z`, `UTC` or hours and minutes with a
sign. The text is read from left to right: a number that no date or time can have
is noticed where it stands, an impossible date only after the whole text.
-/

namespace Recall

namespace Instant

/-! ## Writing -/

def yearText (year : Int) : List Char :=
  if 0 ≤ year ∧ year ≤ 9999 then Decimal.paddedText 4 year.toNat
  else (if year < 0 then '-' else '+') :: Decimal.paddedText 4 year.natAbs

/-- The digits behind the point of the seconds, with the point. -/
def fractionText (nanos : Nat) : List Char :=
  if nanos = 0 then []
  else if nanos % 1000000 = 0 then '.' :: Decimal.paddedText 3 (nanos / 1000000)
  else if nanos % 1000 = 0 then '.' :: Decimal.paddedText 6 (nanos / 1000)
  else '.' :: Decimal.paddedText 9 nanos

def text (t : Instant) : List Char :=
  let date := Calendar.Date.ofDays (t.seconds / 86400)
  let time := (t.seconds % 86400).toNat
  yearText date.year ++
    '-' :: Decimal.paddedText 2 date.month ++
    '-' :: Decimal.paddedText 2 date.day ++
    'T' :: Decimal.paddedText 2 (time / 3600) ++
    ':' :: Decimal.paddedText 2 (time / 60 % 60) ++
    ':' :: Decimal.paddedText 2 (time % 60 + t.nanos / second) ++
    fractionText (t.nanos % second) ++ ['Z']

/-! ## Reading -/

inductive Fault where
  | tooShort
  | invalid
  | outOfRange
  | trailing
  | impossible
  deriving DecidableEq, Repr

def Fault.text : Fault → String
  | tooShort => "premature end of input"
  | invalid => "input contains invalid characters"
  | outOfRange => "input is out of range"
  | trailing => "trailing input"
  | impossible => "no possible date and time matching input"

/-- The blanks that may stand between the parts of an instant. -/
def isSpace (c : Char) : Bool :=
  let n := c.toNat
  (9 ≤ n && n ≤ 13) || n == 0x20 || n == 0x85 || n == 0xa0 || n == 0x1680 ||
    (0x2000 ≤ n && n ≤ 0x200a) || n == 0x2028 || n == 0x2029 || n == 0x202f || n == 0x205f ||
    n == 0x3000

def skipSpaces (s : List Char) : List Char := s.dropWhile isSpace

def digit? (c : Char) : Option Nat :=
  if '0' ≤ c ∧ c ≤ '9' then some (c.toNat - '0'.toNat) else none

/-- The largest number that digits may form, which takes 63 bits. -/
def numberLimit : Nat := 9223372036854775807

/-- Goes on with a number of at most `width` more digits. -/
def readMore : Nat → Nat → List Char → Except Fault (Nat × List Char)
  | 0, n, s => .ok (n, s)
  | _ + 1, n, [] => .ok (n, [])
  | width + 1, n, c :: s =>
    match digit? c with
    | none => .ok (n, c :: s)
    | some d =>
      if numberLimit < 10 * n + d then .error .outOfRange else readMore width (10 * n + d) s

/-- Reads a number of one to `width` digits. -/
def readNumber (width : Nat) : List Char → Except Fault (Nat × List Char)
  | [] => .error .tooShort
  | c :: s => if (digit? c).isSome then readMore width 0 (c :: s) else .error .invalid

/-- Reads a number from `low` to `high` of at most two digits, after blanks. -/
def readPart (low high : Nat) (s : List Char) : Except Fault (Nat × List Char) := do
  let (n, s) ← readNumber 2 (skipSpaces s)
  if low ≤ n ∧ n ≤ high then return (n, s) else .error .outOfRange

/-- The bound of the numbers that are looked at as years, which take 32 bits. -/
def yearLimit : Int := 2147483648

/-- Reads a year: up to four digits, or a sign and any number of digits. -/
def readYear (s : List Char) : Except Fault (Int × List Char) := do
  let (year, s) ← match skipSpaces s with
    | '-' :: s => do
      let (n, s) ← readNumber s.length s
      pure (-(n : Int), s)
    | '+' :: s => do
      let (n, s) ← readNumber s.length s
      pure ((n : Int), s)
    | s => do
      let (n, s) ← readNumber 4 s
      pure ((n : Int), s)
  if -yearLimit ≤ year ∧ year < yearLimit then return (year, s) else .error .outOfRange

def readMark (mark : Char) (s : List Char) : Except Fault (List Char) :=
  match skipSpaces s with
  | [] => .error .tooShort
  | c :: s => if c = mark then .ok s else .error .invalid

/-- Reads the mark between date and time. -/
def readSeparator : List Char → Except Fault (List Char)
  | [] => .error .tooShort
  | c :: s => if c = 't' ∨ c = 'T' ∨ c = ' ' then .ok s else .error .invalid

/-- Reads an optional fraction of a second. Nine digits count, more are passed
over. -/
def readFraction : List Char → Except Fault (Nat × List Char)
  | '.' :: s => do
    let (n, rest) ← readNumber 9 s
    let used := s.length - rest.length
    return (n * Nat.pow 10 (9 - used), rest.dropWhile fun c => (digit? c).isSome)
  | s => .ok (0, s)

/-- Two digits in front. Two characters are asked for, or one that is wider than a
byte. -/
def readPair : List Char → Except Fault ((Nat × Nat) × List Char)
  | [] => .error .tooShort
  | [c] => if c.utf8Size < 2 then .error .tooShort else .error .invalid
  | c :: d :: s =>
    match digit? c, digit? d with
    | some m, some n => .ok ((m, n), s)
    | _, _ => .error .invalid

/-- Reads the hours and minutes of an offset, with colons or blanks between them.
The minutes are required. -/
def readHoursMinutes (s : List Char) : Except Fault (Nat × List Char) := do
  let ((h, k), s) ← readPair s
  let ((m, n), s) ← readPair (s.dropWhile fun c => c == ':' || isSpace c)
  if m < 6 then return ((h * 10 + k) * 3600 + (m * 10 + n) * 60, s) else .error .outOfRange

/-- Reads the offset from universal time, in seconds. -/
def readOffset (s : List Char) : Except Fault (Int × List Char) :=
  match s with
  | [] => .error .tooShort
  | c :: s =>
    if (c :: s.take 2).map Char.toUpper = ['U', 'T', 'C'] then .ok (0, s.drop 2)
    else if c = 'Z' ∨ c = 'z' then .ok (0, s)
    else if c = '+' then (readHoursMinutes s).map fun (n, s) => ((n : Int), s)
    else if c = '-' ∨ c = '\u2212' then (readHoursMinutes s).map fun (n, s) => (-(n : Int), s)
    else .error .invalid

/-- The instant of a date and time at an offset. A sixtieth second is a leap
second. -/
def ofParts (date : Calendar.Date) (hour minute sec nanos : Nat) (offset : Int) :
    Except Fault Instant :=
  if !date.isValid then .error .outOfRange
  else if 86400 ≤ offset.natAbs then .error .outOfRange
  else
    let (sec, nanos) := if sec = 60 then (59, nanos + second) else (sec, nanos)
    let seconds := date.toDays * 86400 + (hour * 3600 + minute * 60 + sec : Nat) - offset
    if (Calendar.Date.ofDays (seconds / 86400)).isValid then .ok ⟨seconds, nanos⟩
    else .error .impossible

def ofText (s : List Char) : Except Fault Instant := do
  let (year, s) ← readYear s
  let s ← readMark '-' s
  let (month, s) ← readPart 1 12 s
  let s ← readMark '-' s
  let (day, s) ← readPart 1 31 s
  let s ← readSeparator s
  let (hour, s) ← readPart 0 23 s
  let s ← readMark ':' s
  let (minute, s) ← readPart 0 59 s
  let s ← readMark ':' s
  let (sec, s) ← readPart 0 60 s
  let (nanos, s) ← readFraction s
  let (offset, s) ← readOffset (skipSpaces s)
  if (skipSpaces s).isEmpty then ofParts ⟨year, month, day⟩ hour minute sec nanos offset
  else .error .trailing

end Instant

end Recall
