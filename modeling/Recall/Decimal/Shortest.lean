import Recall.Binary.Number

/-!
# Shortest decimals

A magnitude of a binary format is written with the fewest digits that read back
as the same magnitude, and among those with the digits nearest to it.

The decimals that read back form an interval: its ends lie half way to the two
neighbouring magnitudes and belong to it exactly when the rank is even, since a
tie is rounded to the even rank. The grids of multiples of `10 ^ e` are tried
from the coarsest to the finest. If any point of a grid lies in the interval, so
does one of the two points next to the magnitude, so two candidates per grid are
enough.
-/

namespace Recall

/-- The decimal `digits · 10 ^ exponent`. -/
structure Decimal where
  digits : Nat
  exponent : Int
  deriving DecidableEq, Repr

namespace Decimal

open Binary (Format)

/-- The quotient `num / den` measured in units of `10 ^ e`, as a numerator and a
denominator. -/
def onGrid (num den : Nat) (e : Int) : Nat × Nat :=
  if e < 0 then (num * Nat.pow 10 (-e).toNat, den) else (num, den * Nat.pow 10 e.toNat)

/-- Does the multiple `n` of `10 ^ e` read back as the magnitude of this rank? All
magnitudes are doubled here, so that half way points are whole. -/
def readsBack (f : Format) (rank n : Nat) (e : Int) : Bool :=
  let low := onGrid (f.quanta (rank - 1) + f.quanta rank) (2 * f.one) e
  let high := onGrid (f.quanta rank + f.quanta (rank + 1)) (2 * f.one) e
  -- A tie goes to the even rank, so only an even one has its half way points.
  if rank % 2 = 0 then decide (low.1 ≤ n * low.2 ∧ n * high.2 ≤ high.1)
  else decide (low.1 < n * low.2 ∧ n * high.2 < high.1)

/-- The multiple of `10 ^ e` next to the magnitude that reads back, if there is
one. Of two the nearer one, and of two equally near the even one. -/
def pick? (f : Format) (rank : Nat) (e : Int) : Option Nat :=
  let (num, den) := onGrid (f.quanta rank) f.one e
  let below := num / den
  match readsBack f rank below e, readsBack f rank (below + 1) e with
  | true, true => some (Format.roundHalfEven num den)
  | true, false => some below
  | false, true => some (below + 1)
  | false, false => none

/-- Tries the grids from `10 ^ e` down to `10 ^ (e - tries)`. -/
def search (f : Format) (rank : Nat) : Nat → Int → Decimal
  | 0, e => ⟨(onGrid (f.quanta rank) f.one e).1 / (onGrid (f.quanta rank) f.one e).2, e⟩
  | tries + 1, e =>
    match pick? f rank e with
    | some n => ⟨n, e⟩
    | none => search f rank tries (e - 1)

/-- The shortest decimal of a finite magnitude. The first grid is coarser than
every decimal that reads back, and a grid finer than the spacing of the format
always has a hit. -/
def shortest (f : Format) (rank : Nat) : Decimal :=
  if rank = 0 then ⟨0, 0⟩
  else
    let weight : Int := Nat.log2 (f.quanta rank) - Nat.log2 f.one
    -- 0.30103 is a little more than the decimal logarithm of two.
    search f rank (f.fractionBits + 4) ((weight + 2) * 30103 / 100000 + 1)

end Decimal

end Recall
