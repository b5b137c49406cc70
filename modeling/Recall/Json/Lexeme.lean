import Recall.Json.Failure

/-!
# The words of a JSON text

Readers take a list of characters and answer what they read together with the
characters left over. This module reads what has no structure inside: blanks,
the three names, strings and numbers. A text that ends inside a word is told
apart from one that goes wrong there.

Strings keep their meaning through `quote` and `readString`: `quote` writes a
string between quotes, and `readString` reads what follows the opening quote.
-/

namespace Recall.Json

/-- What a reader answers: a value and the characters left over, or a failure. -/
abbrev Reading (α : Type) := Except Failure (α × List Char)

/-! ## Blanks -/

/-- The characters that may stand between words. -/
def isBlank (c : Char) : Bool := c == ' ' || c == '\n' || c == '\t' || c == '\r'

def skipBlanks (s : List Char) : List Char := s.dropWhile isBlank

/-! ## Names -/

/-- Reads the rest of a name such as `true`. -/
def readName : List Char → List Char → Except Failure (List Char)
  | [], s => .ok s
  | _ :: _, [] => .error .ended
  | c :: name, d :: s => if c = d then readName name s else .error .grammar

/-! ## Strings -/

/-- The value of a hexadecimal digit of either case. -/
def hexValue? (c : Char) : Option Nat :=
  if '0' ≤ c ∧ c ≤ '9' then some (c.toNat - '0'.toNat)
  else if 'a' ≤ c ∧ c ≤ 'f' then some (c.toNat - 'a'.toNat + 10)
  else if 'A' ≤ c ∧ c ≤ 'F' then some (c.toNat - 'A'.toNat + 10)
  else none

/-- The value of four hexadecimal digits. -/
def unit? (a b c d : Char) : Option Nat := do
  let w ← hexValue? a
  let x ← hexValue? b
  let y ← hexValue? c
  let z ← hexValue? d
  return ((w * 16 + x) * 16 + y) * 16 + z

/-- The character that a short escape stands for. -/
def escape? : Char → Option Char
  | '"' => some '"'
  | '\\' => some '\\'
  | '/' => some '/'
  | 'b' => some '\x08'
  | 'f' => some '\x0c'
  | 'n' => some '\n'
  | 'r' => some '\r'
  | 't' => some '\t'
  | _ => none

/-- First halves of a pair. -/
def isLeading (u : Nat) : Bool := 0xd800 ≤ u && u ≤ 0xdbff

/-- Second halves of a pair. -/
def isTrailing (u : Nat) : Bool := 0xdc00 ≤ u && u ≤ 0xdfff

/-- The character that a pair of halves stands for. -/
def pairChar (leading trailing : Nat) : Char :=
  Char.ofNat (0x10000 + (leading - 0xd800) * 1024 + (trailing - 0xdc00))

/-- The failure at an escape that lacks four characters for its digits. The digits
are looked for among the next four bytes, so a wider character can make the escape
wrong where it would else be cut off. -/
def cutEscape (s : List Char) : Failure :=
  if 4 ≤ (String.ofList s).utf8ByteSize then .grammar else .ended

/-- Reads the contents of a string and the closing quote. Halves of a pair must
follow each other, and control characters must be escaped. -/
def readString : List Char → Reading (List Char)
  | [] => .error .ended
  | '"' :: s => .ok ([], s)
  | ['\\'] => .error .ended
  | '\\' :: 'u' :: a :: b :: c :: d :: s =>
    match unit? a b c d with
    | none => .error .grammar
    | some u =>
      if isTrailing u then .error .grammar
      else if isLeading u then
        match s with
        | [] => .error .ended
        | ['\\'] => .error .ended
        | '\\' :: 'u' :: e :: f :: g :: h :: s =>
          match unit? e f g h with
          | none => .error .grammar
          | some v =>
            if isTrailing v then (readString s).map fun (cs, s) => (pairChar u v :: cs, s)
            else .error .grammar
        | '\\' :: 'u' :: s => .error (cutEscape s)
        | _ => .error .grammar
      else (readString s).map fun (cs, s) => (Char.ofNat u :: cs, s)
  | '\\' :: 'u' :: s => .error (cutEscape s)
  | '\\' :: c :: s =>
    match escape? c with
    | none => .error .grammar
    | some c => (readString s).map fun (cs, s) => (c :: cs, s)
  | c :: s =>
    if c.toNat < 0x20 then .error .grammar
    else (readString s).map fun (cs, s) => (c :: cs, s)

/-- Passes over the contents of a string and the closing quote. Halves of a pair
may stand alone here. -/
def skipString : List Char → Except Failure (List Char)
  | [] => .error .ended
  | '"' :: s => .ok s
  | ['\\'] => .error .ended
  | '\\' :: 'u' :: a :: b :: c :: d :: s =>
    if (unit? a b c d).isSome then skipString s else .error .grammar
  | '\\' :: 'u' :: s => .error (cutEscape s)
  | '\\' :: c :: s => if (escape? c).isSome then skipString s else .error .grammar
  | c :: s => if c.toNat < 0x20 then .error .grammar else skipString s

/-- One character inside quotes: quotes, backslashes and control characters are
escaped. -/
def quoteChar (c : Char) : List Char :=
  match c with
  | '"' => ['\\', '"']
  | '\\' => ['\\', '\\']
  | '\x08' => ['\\', 'b']
  | '\x0c' => ['\\', 'f']
  | '\n' => ['\\', 'n']
  | '\r' => ['\\', 'r']
  | '\t' => ['\\', 't']
  | c =>
    if c.toNat < 0x20 then
      ['\\', 'u', '0', '0', Nat.digitChar (c.toNat / 16), Nat.digitChar (c.toNat % 16)]
    else [c]

/-- A string between quotes. -/
def quote (s : String) : List Char :=
  '"' :: s.toList.flatMap quoteChar ++ ['"']

/-! ## Numbers -/

def digit? (c : Char) : Option Nat :=
  if '0' ≤ c ∧ c ≤ '9' then some (c.toNat - '0'.toNat) else none

def readDigits : List Char → List Nat × List Char
  | [] => ([], [])
  | c :: s =>
    match digit? c with
    | none => ([], c :: s)
    | some d => (d :: (readDigits s).1, (readDigits s).2)

/-- Reads at least one digit; `atEnd` is the failure where the text ends instead. -/
def readSomeDigits (atEnd : Failure) (s : List Char) : Reading (List Nat) :=
  match readDigits s with
  | ([], []) => .error atEnd
  | ([], _ :: _) => .error .grammar
  | (digits, s) => .ok (digits, s)

/-- Reads the digits in front of the point. A zero stands alone. -/
def readWhole (atEnd : Failure) (s : List Char) : Reading (List Nat) :=
  match readSomeDigits atEnd s with
  | .ok (0 :: _ :: _, _) => .error .grammar
  | answer => answer

def readFraction (atEnd : Failure) : List Char → Reading (Option (List Nat))
  | '.' :: s => (readSomeDigits atEnd s).map fun (digits, s) => (some digits, s)
  | s => .ok (none, s)

def readSign : List Char → Bool × List Char
  | '+' :: s => (false, s)
  | '-' :: s => (true, s)
  | s => (false, s)

def readExponent (atEnd : Failure) : List Char → Reading (Option (Bool × List Nat))
  | [] => .ok (none, [])
  | c :: s =>
    if c = 'e' ∨ c = 'E' then
      let (negative, s) := readSign s
      (readSomeDigits atEnd s).map fun (digits, s) => (some (negative, digits), s)
    else .ok (none, c :: s)

/-- Reads a number as it is spelled. -/
def readNumeral (atEnd : Failure) (s : List Char) :
    Except Failure (Numeral × List Char) := do
  let (negative, s) := match s with
    | '-' :: s => (true, s)
    | s => (false, s)
  let (whole, s) ← readWhole atEnd s
  let (fraction, s) ← readFraction atEnd s
  let (exponent, s) ← readExponent atEnd s
  return (⟨negative, whole, fraction, exponent⟩, s)

/-- Reads a number; one that is too large is no JSON. -/
def readNumber (s : List Char) : Except Failure (Number × List Char) := do
  let (numeral, s) ← readNumeral .ended s
  match numeral.value? with
  | some n => return (n, s)
  | none => .error .grammar

/-- Passes over a number of any size. A number cut off at the end of the text is
wrong rather than incomplete. -/
def skipNumber (s : List Char) : Except Failure (List Char) :=
  (readNumeral .grammar s).map Prod.snd

end Recall.Json
