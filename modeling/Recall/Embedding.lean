import Recall.Binary.Number

/-!
# Embeddings

An embedding places a text in a vector space of 32 bit numbers. Every sum runs
from left to right, rounds after each addition and starts from the negative zero,
which is the neutral element of addition.

The hashed embedding counts characters: the character with code point `c` counts in
the bucket `c` modulo the dimension. The counts are visited in some order of the
characters; each is added to its bucket.
-/

namespace Recall

abbrev Embedding := List Single

namespace Embedding

def sum (xs : List Single) : Single := xs.foldl (· + ·) (Binary.zero true)

/-- The dot product, up to the end of the shorter vector. -/
def dot (a b : Embedding) : Single := sum (a.zipWith (· * ·) b)

/-- The length of a vector. -/
def norm (a : Embedding) : Single := (sum (a.map fun x => x * x)).sqrt

/-- The vector scaled to the length one; a vector without length stays as it is. -/
def normalize (a : Embedding) : Embedding :=
  let n := norm a
  if Binary.lt 0 n then a.map (· / n) else a

/-- The cosine of the angle between two vectors. It is zero where the dimensions
differ, where a vector has no length, and where the result is not finite. -/
def cosine (a b : Embedding) : Single :=
  if a.length ≠ b.length then 0
  else
    let m := norm a
    let n := norm b
    if m.numEq 0 || n.numEq 0 then 0
    else
      let similarity := dot a b / (m * n)
      if similarity.isFinite then similarity else 0

/-! ## Hashed embeddings -/

/-- The dimension where none is given. -/
def defaultDimension : Nat := 128

/-- A dimension, or the default where it is zero. -/
def orDefaultDimension (dimension : Nat) : Nat :=
  if dimension = 0 then defaultDimension else dimension

/-- Counts one more occurrence of a character. -/
def tally (c : Char) : List (Char × Nat) → List (Char × Nat)
  | [] => [(c, 1)]
  | (d, n) :: counts => if d = c then (d, n + 1) :: counts else (d, n) :: tally c counts

/-- The characters of a text with the number of times each occurs. -/
def charCounts (text : List Char) : List (Char × Nat) :=
  text.foldl (fun counts c => tally c counts) []

def addAt (bucket : Nat) (x : Single) (buckets : Embedding) : Embedding :=
  buckets.modify bucket (· + x)

/-- The buckets after visiting the counts in the order given. -/
def buckets (dimension : Nat) (counts : List (Char × Nat)) : Embedding :=
  counts.foldl (fun filled (c, n) => addAt (c.toNat % dimension) (Binary.ofNat n) filled)
    (List.replicate dimension 0)

theorem length_addAt (bucket : Nat) (x : Single) (filled : Embedding) :
    (addAt bucket x filled).length = filled.length := by
  simp [addAt]

theorem length_buckets (dimension : Nat) (counts : List (Char × Nat)) :
    (buckets dimension counts).length = dimension := by
  have h (filled : Embedding) :
      (counts.foldl (fun filled (c, n) => addAt (c.toNat % dimension) (Binary.ofNat n) filled)
        filled).length = filled.length := by
    induction counts generalizing filled with
    | nil => rfl
    | cons entry counts ih => simp [ih, length_addAt]
  simp [buckets, h]

def hashed (dimension : Nat) (text : String) : Embedding :=
  normalize (buckets (orDefaultDimension dimension) (charCounts text.toList))

end Embedding

end Recall
