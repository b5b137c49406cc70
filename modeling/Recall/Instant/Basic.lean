import Recall.Instant.Calendar

/-!
# Instants

An instant is a number of seconds since the start of 1970 in universal time and a
number of nanoseconds. During a leap second the nanoseconds run on past a
thousand million, so instants are in chronological order when their seconds are
compared first.
-/

namespace Recall

structure Instant where
  seconds : Int
  nanos : Nat
  deriving DecidableEq, Repr

namespace Instant

def second : Nat := 1000000000

def epoch : Instant := ⟨0, 0⟩

/-- The nanoseconds from the epoch to an instant. -/
def total (t : Instant) : Int := t.seconds * second + t.nanos

/-- The instant that many nanoseconds after the epoch. -/
def ofTotal (n : Int) : Instant := ⟨n / second, (n % second).toNat⟩

/-- The instant some nanoseconds later. -/
def after (t : Instant) (n : Int) : Instant := ofTotal (t.total + n)

/-- The nanoseconds from `earlier` to `t`. -/
def since (t earlier : Instant) : Int := t.total - earlier.total

protected def le (t u : Instant) : Bool :=
  decide (t.seconds < u.seconds) || (t.seconds == u.seconds && decide (t.nanos ≤ u.nanos))

instance : LE Instant := ⟨fun t u => t.le u = true⟩

instance (t u : Instant) : Decidable (t ≤ u) := inferInstanceAs (Decidable (t.le u = true))

end Instant

end Recall
