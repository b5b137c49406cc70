/-!
# Binary interchange formats

A format fixes how many fraction bits and how many exponent bits a number has.
Every finite magnitude of a format is a whole multiple of its *quantum*, the
smallest positive number, so magnitudes are natural numbers of quanta and all
arithmetic on them is exact until it is rounded.

The magnitudes of a format are listed in increasing order by their *rank*:
zero has rank 0, the quantum rank 1, and infinity the last one, `top`. The
rank is also the bit pattern of the magnitude, and an even rank is an even
significand. Hence one function, `nearest`, rounds every result: it finds the
rank nearest to an exact quotient, a tie going to the even rank, and overflow is
the bound `top`.
-/

namespace Recall.Binary

/-- The widths of the fraction and exponent fields of a binary number. -/
structure Format where
  fractionBits : Nat
  exponentBits : Nat
  deriving DecidableEq, Repr

namespace Format

def single : Format := ⟨23, 8⟩

def double : Format := ⟨52, 11⟩

/-- The number of ranks between two consecutive powers of two. -/
def binade (f : Format) : Nat := Nat.pow 2 f.fractionBits

/-- The rank of infinity. -/
def top (f : Format) : Nat := (Nat.pow 2 f.exponentBits - 1) * f.binade

/-- The number one, counted in quanta. -/
def one (f : Format) : Nat :=
  Nat.pow 2 (Nat.pow 2 (f.exponentBits - 1) + f.fractionBits - 2)

/-- The magnitude at a rank, counted in quanta. Below the second binade ranks and
quanta agree; from there on the spacing doubles with every binade. -/
def quanta (f : Format) (rank : Nat) : Nat :=
  if rank < f.binade then rank
  else (f.binade + rank % f.binade) * Nat.pow 2 (rank / f.binade - 1)

/-- The whole number nearest to `num / den`; a tie goes to the even one. -/
def roundHalfEven (num den : Nat) : Nat :=
  let q := num / den
  let r := num % den
  if 2 * r < den then q
  else if den < 2 * r then q + 1
  else if q % 2 = 0 then q else q + 1

/-- The rank nearest to `num / den` quanta, a tie going to the even rank, and
infinity from half a step above the largest finite magnitude on. -/
def nearest (f : Format) (num den : Nat) : Nat :=
  let shift := Nat.log2 (num / den) - f.fractionBits
  min (shift * f.binade + roundHalfEven num (den * Nat.pow 2 shift)) f.top

theorem nearest_le_top (f : Format) (num den : Nat) : f.nearest num den ≤ f.top :=
  Nat.min_le_right _ _

end Format

end Recall.Binary
