import Recall.Json.Number
import Recall.Text.Quoted

/-!
# Why a JSON text is refused

A text is refused because it is not JSON, because it ends early, or because it is
JSON with contents that do not fit. Only the last kind has a cause worth naming;
its wording is fixed here, in one place.
-/

namespace Recall.Json

/-- What stands in a text where something else was expected. -/
inductive Found where
  | null
  | bool (value : Bool)
  | number (value : Number)
  | string (value : String)
  | array
  | object
  deriving DecidableEq

def boolText (b : Bool) : List Char := if b then ['t', 'r', 'u', 'e'] else ['f', 'a', 'l', 's', 'e']

def Found.words : Found → List String
  | null => ["null"]
  | bool b => ["boolean `", String.ofList (boolText b), "`"]
  | number (.integer i) => ["integer `", String.ofList (Decimal.integerText i), "`"]
  | number (.real x) => ["floating point `", String.ofList (Number.real x).text, "`"]
  | string s => ["string ", Text.quoted s]
  | array => ["sequence"]
  | object => ["map"]

def Found.text (found : Found) : String := String.join found.words

/-- How the contents of a text differ from what its reader wants. -/
inductive Mismatch where
  | missingField (name : String)
  | duplicateField (name : String)
  | unknownVariant (name : String) (known : List String)
  | invalidType (found : Found) (expected : String)
  | invalidValue (found : Found) (expected : String)
  | invalidLength (length : Nat) (expected : String)
  | refused (reason : String)
  deriving DecidableEq

namespace Mismatch

/-- A name as it stands in a wording. -/
def marked (name : String) : String := String.join ["`", name, "`"]

def words : Mismatch → List String
  | missingField name => ["missing field ", marked name]
  | duplicateField name => ["duplicate field ", marked name]
  | unknownVariant name known =>
    ["unknown variant ", marked name, ", expected one of ", ", ".intercalate (known.map marked)]
  | invalidType found expected => ["invalid type: ", found.text, ", expected ", expected]
  | invalidValue found expected => ["invalid value: ", found.text, ", expected ", expected]
  | invalidLength length expected =>
    ["invalid length ", String.ofList (Decimal.naturalText length), ", expected ", expected]
  | refused reason => [reason]

def text (mismatch : Mismatch) : String := String.join mismatch.words

end Mismatch

inductive Failure where
  /-- The text is not JSON. -/
  | grammar
  /-- The text ends before its value does. -/
  | ended
  /-- The text is JSON, with contents that do not fit. -/
  | unfit (mismatch : Mismatch)
  deriving DecidableEq

def Failure.text : Failure → String
  | grammar => "invalid JSON"
  | ended => "unexpected end of JSON"
  | unfit mismatch => mismatch.text

end Recall.Json
