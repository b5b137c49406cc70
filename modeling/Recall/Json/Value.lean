import Recall.Json.Lexeme
import Recall.Keyed

/-!
# JSON values

A JSON value is a tree. Its text has no blanks, and an object is written in the
order of its members. Reading follows the text from left to right and stops at
the first failure; an object that is read has its members in the order of their
keys, the last of equal keys standing.

Readers of single steps (`readHead`, `nextItem`, `nextKey`, `closeArray`,
`closeObject`) are shared with the readers of records, which look at one member
at a time. Values that nobody asks for are passed over by `skipValue`, which
checks the grammar and nothing else.
-/

namespace Recall

inductive Json where
  | null
  | bool (value : Bool)
  | number (value : Json.Number)
  | string (value : String)
  | array (items : List Json)
  | object (members : List (String × Json))

namespace Json

/-! ## Writing -/

/-- Texts with commas between them. -/
def joined (texts : List (List Char)) : List Char := [','].intercalate texts

/-- An array of written items. -/
def arrayText (items : List (List Char)) : List Char := '[' :: joined items ++ [']']

/-- An object of written members. -/
def objectText (members : List (String × List Char)) : List Char :=
  '{' :: joined (members.map fun (key, value) => quote key ++ ':' :: value) ++ ['}']

mutual

def text : Json → List Char
  | null => ['n', 'u', 'l', 'l']
  | bool b => boolText b
  | number n => n.text
  | string s => quote s
  | array items => arrayText (itemTexts items)
  | object members => objectText (memberTexts members)

def itemTexts : List Json → List (List Char)
  | [] => []
  | item :: items => item.text :: itemTexts items

def memberTexts : List (String × Json) → List (String × List Char)
  | [] => []
  | (key, value) :: members => (key, value.text) :: memberTexts members

end

mutual

/-- Equality of values, with numbers compared as numbers. -/
def same : Json → Json → Bool
  | null, null => true
  | bool a, bool b => a == b
  | number m, number n => m.same n
  | string a, string b => a == b
  | array xs, array ys => sameItems xs ys
  | object xs, object ys => sameMembers xs ys
  | _, _ => false

def sameItems : List Json → List Json → Bool
  | [], [] => true
  | x :: xs, y :: ys => x.same y && sameItems xs ys
  | _, _ => false

def sameMembers : List (String × Json) → List (String × Json) → Bool
  | [], [] => true
  | (j, x) :: xs, (k, y) :: ys => j == k && x.same y && sameMembers xs ys
  | _, _ => false

end

/-! ## Reading one step -/

/-- Reads a value that has no structure, or the opening bracket of one that has. -/
def readHead (s : List Char) : Reading Found :=
  match skipBlanks s with
  | [] => .error .ended
  | 'n' :: s => (readName ['u', 'l', 'l'] s).map fun s => (.null, s)
  | 't' :: s => (readName ['r', 'u', 'e'] s).map fun s => (.bool true, s)
  | 'f' :: s => (readName ['a', 'l', 's', 'e'] s).map fun s => (.bool false, s)
  | '"' :: s => (readString s).map fun (cs, s) => (.string (String.ofList cs), s)
  | '[' :: s => .ok (.array, s)
  | '{' :: s => .ok (.object, s)
  | c :: s =>
    if c = '-' ∨ (digit? c).isSome then (readNumber (c :: s)).map fun (n, s) => (.number n, s)
    else .error .grammar

/-- Goes to the next item of an array, or stays at the closing bracket. The first
item has no comma before it, and no comma stands before the bracket. -/
def nextItem (first : Bool) (s : List Char) : Reading Bool :=
  match skipBlanks s with
  | [] => .error .ended
  | c :: s =>
    if c = ']' then .ok (false, c :: s)
    else if first then .ok (true, c :: s)
    else if c = ',' then
      match skipBlanks s with
      | [] => .error .ended
      | c :: s => if c = ']' then .error .grammar else .ok (true, c :: s)
    else .error .grammar

def closeArray (s : List Char) : Except Failure (List Char) :=
  match skipBlanks s with
  | [] => .error .ended
  | c :: s => if c = ']' then .ok s else .error .grammar

/-- Reads the opening quote of a key and what `contents` makes of the rest of it. -/
def readKey {α : Type} (contents : List Char → Reading α) : List Char → Reading α
  | [] => .error .ended
  | c :: s => if c = '"' then contents s else .error .grammar

/-- Reads the next key of an object, or stays at the closing bracket. -/
def nextKey {α : Type} (contents : List Char → Reading α) (first : Bool) (s : List Char) :
    Reading (Option α) :=
  match skipBlanks s with
  | [] => .error .ended
  | c :: s =>
    if c = '}' then .ok (none, c :: s)
    else if first then key (c :: s)
    -- A bracket after the comma is no quote, and `readKey` refuses it.
    else if c = ',' then key (skipBlanks s)
    else .error .grammar
where
  key (s : List Char) : Reading (Option α) :=
    (readKey contents s).map fun (key, s) => (some key, s)

def keyContents (s : List Char) : Reading String :=
  (readString s).map fun (cs, s) => (String.ofList cs, s)

def readColon (s : List Char) : Except Failure (List Char) :=
  match skipBlanks s with
  | [] => .error .ended
  | c :: s => if c = ':' then .ok s else .error .grammar

def closeObject (s : List Char) : Except Failure (List Char) :=
  match skipBlanks s with
  | [] => .error .ended
  | c :: s => if c = '}' then .ok s else .error .grammar

/-! ## Passing over a value -/

mutual

/-- Passes over a value. The bound is on the number of steps, of which an opening
bracket takes two and every other character at most one. -/
def skipWithin : Nat → List Char → Except Failure (List Char)
  | 0, _ => .error .ended
  | bound + 1, s =>
    match skipBlanks s with
    | [] => .error .ended
    | 'n' :: s => readName ['u', 'l', 'l'] s
    | 't' :: s => readName ['r', 'u', 'e'] s
    | 'f' :: s => readName ['a', 'l', 's', 'e'] s
    | '"' :: s => skipString s
    | '[' :: s => skipItems bound true s
    | '{' :: s => skipMembers bound true s
    | c :: s =>
      if c = '-' ∨ (digit? c).isSome then skipNumber (c :: s) else .error .grammar

def skipItems : Nat → Bool → List Char → Except Failure (List Char)
  | 0, _, _ => .error .ended
  | bound + 1, first, s => do
    let (more, s) ← nextItem first s
    if more then
      let s ← skipWithin bound s
      skipItems bound false s
    else closeArray s

def skipMembers : Nat → Bool → List Char → Except Failure (List Char)
  | 0, _, _ => .error .ended
  | bound + 1, first, s => do
    let (key, s) ← nextKey (fun s => (skipString s).map fun s => ((), s)) first s
    match key with
    | none => closeObject s
    | some () =>
      let s ← readColon s
      let s ← skipWithin bound s
      skipMembers bound false s

end

def skipValue (s : List Char) : Except Failure (List Char) := skipWithin (2 * s.length + 2) s

/-! ## Reading a value -/

/-- Reads the items of an array and the closing bracket. -/
def readItems {α : Type} (value : List Char → Reading α) :
    Nat → Bool → List Char → Except Failure (List α × List Char)
  | 0, _, _ => .error .ended
  | bound + 1, first, s => do
    let (more, s) ← nextItem first s
    if more then
      let (item, s) ← value s
      let (items, s) ← readItems value bound false s
      return (item :: items, s)
    else
      let s ← closeArray s
      return ([], s)

/-- Reads the members of an object, in the order of the text, and the closing
bracket. -/
def readMembers {α : Type} (value : List Char → Reading α) :
    Nat → Bool → List Char → Except Failure (List (String × α) × List Char)
  | 0, _, _ => .error .ended
  | bound + 1, first, s => do
    let (key, s) ← nextKey keyContents first s
    match key with
    | none =>
      let s ← closeObject s
      return ([], s)
    | some key =>
      let s ← readColon s
      let (item, s) ← value s
      let (members, s) ← readMembers value bound false s
      return ((key, item) :: members, s)

/-- Reads what follows a head: nothing more where the head is the value, and else the
contents of an array or object by a reader of the values in it. Without one, no array
or object may stand here. -/
def readBody (inner? : Option (List Char → Reading Json)) (head : Found) (s : List Char) :
    Except Failure (Json × List Char) :=
  match head, inner? with
  | .null, _ => .ok (null, s)
  | .bool b, _ => .ok (bool b, s)
  | .number n, _ => .ok (number n, s)
  | .string t, _ => .ok (string t, s)
  | .array, some inner =>
    (readItems inner (s.length + 1) true s).map fun (items, s) => (array items, s)
  | .object, some inner =>
    (readMembers inner (s.length + 1) true s).map fun (members, s) =>
      (object (Keyed.ofList members), s)
  | _, none => .error .grammar

/-- Reads a value with at most `depth` arrays and objects around its innermost
parts. -/
def readValue : Nat → List Char → Except Failure (Json × List Char)
  | 0, s => do
    let (head, s) ← readHead s
    readBody none head s
  | depth + 1, s => do
    let (head, s) ← readHead s
    readBody (some (readValue depth)) head s

/-- The number of arrays and objects that may stand within each other. -/
def depthLimit : Nat := 127

/-- Reads a whole text: blanks may follow the value and nothing else. -/
def readAll {α : Type} (read : List Char → Reading α) (text : String) : Except Failure α := do
  let (value, s) ← read text.toList
  match skipBlanks s with
  | [] => return value
  | _ => .error .grammar

/-- What a value looks like from outside. -/
def head : Json → Found
  | null => .null
  | bool b => .bool b
  | number n => .number n
  | string s => .string s
  | array _ => .array
  | object _ => .object

end Json

end Recall
