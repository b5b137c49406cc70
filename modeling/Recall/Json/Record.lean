import Recall.Json.Value

/-!
# Records in JSON

A record is a list of named fields in a fixed order. Its text is an object with
the fields in any order, among members of other names that are passed over, or an
array of the fields in their own order. Fields that are not required keep the
value they start with.

The record is built up while the text is read, so the first failure in the text
is the one reported: a field that comes twice is refused at its second key, and a
required field that is missing is noticed at the closing bracket.
-/

namespace Recall.Json

/-- A field of the record `σ`: its name, whether it must be there, and how its text
changes the record. -/
structure RecordField (σ : Type) where
  name : String
  required : Bool
  read : σ → List Char → Reading σ

/-- A value that must have no structure inside, or be refused. -/
def readScalar {α : Type} (fit : Found → Except Mismatch α) (s : List Char) :
    Except Failure (α × List Char) := do
  let (found, s) ← readHead s
  match fit found with
  | .ok value => return (value, s)
  | .error mismatch => .error (.unfit mismatch)

/-- A required field without structure inside. -/
def RecordField.scalar {σ α : Type} (name : String) (fit : Found → Except Mismatch α)
    (put : σ → α → σ) : RecordField σ :=
  ⟨name, true, fun record s => (readScalar fit s).map fun (value, s) => (put record value, s)⟩

/-- The same field, not required. -/
def RecordField.optional {σ : Type} (field : RecordField σ) : RecordField σ :=
  { field with required := false }

/-! ## Values without structure -/

namespace Found

/-- A whole number of at most 64 bits. -/
def asSize : Found → Except Mismatch Nat
  | number (.integer i) =>
    if i < 0 then .error (.invalidValue (number (.integer i)) "usize") else .ok i.toNat
  | found => .error (.invalidType found "usize")

/-- A truth value. -/
def asBool : Found → Except Mismatch Bool
  | bool b => .ok b
  | found => .error (.invalidType found "a boolean")

/-- A string. -/
def asString : Found → Except Mismatch String
  | string s => .ok s
  | found => .error (.invalidType found "a string")

/-- A 32 bit floating point number, rounded from any number. -/
def asSingle : Found → Except Mismatch Single
  | number n => .ok n.toBinary
  | found => .error (.invalidType found "f32")

/-- A 64 bit floating point number, rounded from any number. -/
def asDouble : Found → Except Mismatch Double
  | number n => .ok n.toBinary
  | found => .error (.invalidType found "f64")

/-- Nothing where the text says `null`, and else a value. -/
def orNull {α : Type} (fit : Found → Except Mismatch α) : Found → Except Mismatch (Option α)
  | null => .ok none
  | found => (fit found).map some

end Found

/-! ## Reading a record -/

/-- Reads the members of a record up to the closing bracket. The names of the fields
that have been read are remembered. -/
def readFields {σ : Type} (fields : List (RecordField σ)) :
    Nat → Bool → List String → σ → List Char → Except Failure ((σ × List String) × List Char)
  | 0, _, _, _, _ => .error .ended
  | bound + 1, first, seen, record, s => do
    let (key, s) ← nextKey keyContents first s
    match key with
    | none => return ((record, seen), s)
    | some key =>
      match fields.find? (·.name == key) with
      | none =>
        let s ← readColon s
        let s ← skipValue s
        readFields fields bound false seen record s
      | some field =>
        if seen.contains key then .error (.unfit (.duplicateField key))
        else
          let s ← readColon s
          let (record, s) ← field.read record s
          readFields fields bound false (key :: seen) record s

/-- The first required field that has not been read. -/
def missing? {σ : Type} (fields : List (RecordField σ)) (seen : List String) : Option String :=
  (fields.find? fun field => field.required && !seen.contains field.name).map (·.name)

/-- Reads the items of a record in the order of its fields. After the last item the
fields that are left keep their values, unless they are required. -/
def readInOrder {σ : Type} (expected : String) :
    List (RecordField σ) → Nat → σ → List Char → Except Failure (σ × List Char)
  | [], _, record, s => .ok (record, s)
  | field :: fields, index, record, s => do
    let (more, s) ← nextItem (index == 0) s
    if more then
      let (record, s) ← field.read record s
      readInOrder expected fields (index + 1) record s
    else
      match missingFrom (field :: fields) index with
      | none => return (record, s)
      | some length => .error (.unfit (.invalidLength length expected))
where
  /-- The place of the first required field, counted from `index`. -/
  missingFrom : List (RecordField σ) → Nat → Option Nat
    | [], _ => none
    | field :: fields, index =>
      if field.required then some index else missingFrom fields (index + 1)

/-- Reads a record that starts as `start`. -/
def readRecord {σ : Type} (title : String) (fields : List (RecordField σ)) (start : σ)
    (s : List Char) : Except Failure (σ × List Char) := do
  let (head, s) ← readHead s
  match head with
  | .object =>
    let ((record, seen), s) ← readFields fields (s.length + 1) true [] start s
    match missing? fields seen with
    | some name => .error (.unfit (.missingField name))
    | none =>
      let s ← closeObject s
      return (record, s)
  | .array =>
    let count := String.ofList (Decimal.naturalText fields.length)
    let unit := if fields.length = 1 then " element" else " elements"
    let (record, s) ← readInOrder (title ++ " with " ++ count ++ unit) fields 0 start s
    let s ← closeArray s
    return (record, s)
  | found => .error (.unfit (.invalidType found title))

end Recall.Json
