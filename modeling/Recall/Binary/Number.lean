import Recall.Binary.Format

/-!
# Binary floating point numbers

A number of a format is a sign and the rank of a magnitude, or not a number at
all. The representation is exact: zeros and infinities keep their sign, there is
one not-a-number, and two numbers are equal as terms exactly when they are the
same datum.

Arithmetic follows one scheme. The special operands are settled case by case; a
finite result is computed exactly in quanta and rounded once by
`Format.nearest`. Comparison has three forms: the numeric order, in which zeros
of both signs are equal and not-a-number is comparable to nothing; numeric
equality; and the total order of data, in which the negative zero precedes the
positive one.
-/

namespace Recall

/-- A floating point number of format `f`. -/
inductive Binary (f : Binary.Format) where
  /-- The result of an operation without a value. -/
  | nan
  /-- The signed magnitude of the given rank; the last rank is infinity. -/
  | signed (negative : Bool) (rank : Fin (f.top + 1))
  deriving DecidableEq

abbrev Single := Binary .single

abbrev Double := Binary .double

namespace Binary

variable {f g : Format}

/-! ## Construction -/

/-- The signed magnitude of a rank; ranks past the last are infinity. -/
def ofRank (negative : Bool) (rank : Nat) : Binary f :=
  .signed negative ⟨min rank f.top, Nat.lt_succ_of_le (Nat.min_le_right _ _)⟩

/-- The number nearest to the signed quotient of quanta. -/
def ofQuanta (negative : Bool) (num den : Nat) : Binary f :=
  ofRank negative (f.nearest num den)

def zero (negative : Bool) : Binary f := .signed negative ⟨0, Nat.succ_pos _⟩

def infinity (negative : Bool) : Binary f := ofRank negative f.top

/-- The number nearest to the signed quotient `num / den`. -/
def ofRatio (negative : Bool) (num den : Nat) : Binary f :=
  ofQuanta negative (num * f.one) den

def ofNat (n : Nat) : Binary f := ofRatio false n 1

def ofInt (i : Int) : Binary f := ofRatio (decide (i < 0)) i.natAbs 1

instance (n : Nat) : OfNat (Binary f) n := ⟨ofNat n⟩

/-! ## Classification -/

def isFinite : Binary f → Bool
  | nan => false
  | signed _ r => decide (r.val < f.top)

def isZero : Binary f → Bool
  | nan => false
  | signed _ r => r.val == 0

/-! ## Arithmetic -/

instance : Neg (Binary f) where
  neg
    | nan => nan
    | signed s r => signed (!s) r

/-- The sum. A zero leaves the other operand as it is, zeros of opposite sign and equal
magnitudes of opposite sign cancel to the positive zero, and opposite infinities have
no sum. -/
protected def add : Binary f → Binary f → Binary f
  | nan, _ => nan
  | signed _ _, nan => nan
  | signed s a, signed t b =>
    -- Zeros come first, so a sum with a zero is not rounded.
    if a.val = 0 then
      if b.val = 0 then zero (s && t) else signed t b
    else if b.val = 0 then signed s a
    else if a.val = f.top then
      if b.val = f.top ∧ s ≠ t then nan else signed s a
    else if b.val = f.top then signed t b
    else
      let x := f.quanta a
      let y := f.quanta b
      if s = t then ofQuanta s (x + y) 1
      else if y < x then ofQuanta s (x - y) 1
      else if x < y then ofQuanta t (y - x) 1
      else zero false

/-- The product. Zero times infinity has no value. -/
protected def mul : Binary f → Binary f → Binary f
  | nan, _ => nan
  | signed _ _, nan => nan
  | signed s a, signed t b =>
    if a.val = 0 then
      if b.val = f.top then nan else zero (s ^^ t)
    else if b.val = 0 then
      if a.val = f.top then nan else zero (s ^^ t)
    else if a.val = f.top ∨ b.val = f.top then infinity (s ^^ t)
    else ofQuanta (s ^^ t) (f.quanta a * f.quanta b) f.one

/-- The quotient. Only zero by zero and infinity by infinity have no value. -/
protected def div : Binary f → Binary f → Binary f
  | nan, _ => nan
  | signed _ _, nan => nan
  | signed s a, signed t b =>
    if b.val = 0 then
      if a.val = 0 then nan else infinity (s ^^ t)
    else if a.val = 0 then zero (s ^^ t)
    else if a.val = f.top then
      if b.val = f.top then nan else infinity (s ^^ t)
    else if b.val = f.top then zero (s ^^ t)
    else ofQuanta (s ^^ t) (f.quanta a * f.one) (f.quanta b)

instance : Add (Binary f) := ⟨Binary.add⟩
instance : Mul (Binary f) := ⟨Binary.mul⟩
instance : Div (Binary f) := ⟨Binary.div⟩

/-- The bits of the floor of the square root of `n`, from bit `i` down, given the
higher ones. -/
def rootBits (n : Nat) : Nat → Nat → Nat
  | root, 0 => root
  | root, i + 1 =>
    let next := root + Nat.pow 2 i
    rootBits n (if next * next ≤ n then next else root) i

/-- The largest number whose square is at most `n`. -/
def floorRoot (n : Nat) : Nat := rootBits n 0 (Nat.log2 n / 2 + 1)

/-- The square root. It is rounded from twice the floor of the root of four times
the operand, plus one where the root is not exact: that odd number stands for the
whole gap above the floor, which holds no tie. -/
def sqrt : Binary f → Binary f
  | nan => nan
  | signed s r =>
    if r.val = 0 then signed s r
    else if s then nan
    else if r.val = f.top then signed s r
    else
      let square := 4 * f.quanta r * f.one
      let root := floorRoot square
      ofQuanta false (2 * root + if root * root = square then 0 else 1) 4

/-- The nearest number of another format. -/
def convert : Binary f → Binary g
  | nan => nan
  | signed s r =>
    if r.val = f.top then infinity s
    else ofQuanta s (f.quanta r * g.one) f.one

/-! ## Comparison -/

/-- A number that orders the signed magnitudes; both zeros are at 0. -/
def position (negative : Bool) (rank : Nat) : Int :=
  if negative then -(rank : Int) else rank

protected def lt : Binary f → Binary f → Bool
  | signed s a, signed t b => decide (position s a < position t b)
  | _, _ => false

/-- Numeric equality: zeros of both signs are equal, not-a-number equals
nothing. -/
def numEq : Binary f → Binary f → Bool
  | signed s a, signed t b => decide (position s a = position t b)
  | _, _ => false

theorem numEq_self {x : Binary f} (h : x ≠ nan) : x.numEq x = true := by
  cases x with
  | nan => exact absurd rfl h
  | signed negative rank => simp [numEq]

/-- A number that orders all data: negative numbers, the negative zero, the
positive zero, positive numbers, not-a-number. -/
def place : Binary f → Int
  | nan => f.top + 1
  | signed s r => if s then -(r.val : Int) - 1 else r.val

def totalLE (x y : Binary f) : Bool := decide (x.place ≤ y.place)

/-- No two data have the same place. -/
theorem eq_of_place_eq {x y : Binary f} (h : x.place = y.place) : x = y := by
  cases x with
  | nan =>
    cases y with
    | nan => rfl
    | signed t b =>
      have hb := b.isLt
      simp only [place] at h
      split at h <;> omega
  | signed s a =>
    have ha := a.isLt
    cases y with
    | nan =>
      simp only [place] at h
      split at h <;> omega
    | signed t b =>
      -- The sign decides on which side of the gap between the zeros a number is.
      have hrank : s = t ∧ a.val = b.val := by
        cases s <;> cases t <;>
          simp only [place, if_true, if_false, Bool.false_eq_true, reduceCtorEq, true_and,
            false_and] at h ⊢ <;> omega
      rw [hrank.1, Fin.ext hrank.2]

theorem totalLE_trans {x y z : Binary f} (h : x.totalLE y = true) (h' : y.totalLE z = true) :
    x.totalLE z = true := by
  simp only [totalLE, decide_eq_true_eq] at *
  omega

theorem totalLE_total (x y : Binary f) : (x.totalLE y || y.totalLE x) = true := by
  simp only [totalLE, Bool.or_eq_true, decide_eq_true_eq]
  omega

theorem totalLE_antisymm {x y : Binary f} (h : x.totalLE y = true) (h' : y.totalLE x = true) :
    x = y := by
  simp only [totalLE, decide_eq_true_eq] at h h'
  exact eq_of_place_eq (by omega)

/-- The number moved into the interval from `low` to `high`; not-a-number stays. -/
def clamp (x low high : Binary f) : Binary f :=
  let y := if x.lt low then low else x
  if high.lt y then high else y

/-! ## Bit patterns -/

/-- The bit pattern of a number; not-a-number has none of its own. -/
def bits? : Binary f → Option Nat
  | nan => none
  | signed s r => some (if s then Nat.pow 2 (f.fractionBits + f.exponentBits) + r.val else r.val)

end Binary

end Recall
