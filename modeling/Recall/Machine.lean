/-!
# Machines

A sliding window reserves room for all the messages that it may hold, before any of them
comes. How much room a message takes and how much there is depends on the machine; that no
reservation is of `2 ^ 63` bytes or more does not. A program that asks for room it cannot
have ends at once. This is not an error of the library, and no caller can handle it.
-/

namespace Recall

/-- How a program ends that asks for room it cannot have. -/
inductive Crash where
  /-- More room than any machine gives. -/
  | capacityOverflow
  | outOfMemory
  deriving DecidableEq, Repr

/-- A machine: how many bytes a message takes, and which numbers of bytes it has room for. -/
structure Machine where
  messageSize : Nat
  messageSize_pos : 0 < messageSize
  has : Nat → Bool

namespace Machine

/-- The largest number of bytes that can be reserved. -/
def reservationLimit : Nat := 9223372036854775807

/-- Reserves room for a number of messages. -/
def reserve (machine : Machine) (messages : Nat) : Except Crash Unit :=
  let bytes := messages * machine.messageSize
  if reservationLimit < bytes then .error .capacityOverflow
  else if machine.has bytes then .ok ()
  else .error .outOfMemory

theorem reserve_eq_ok_iff {machine : Machine} {messages : Nat} :
    machine.reserve messages = .ok () ↔
      messages * machine.messageSize ≤ reservationLimit ∧
        machine.has (messages * machine.messageSize) = true := by
  unfold reserve
  dsimp only
  split
  · rename_i hlarge
    simp [Nat.not_le_of_lt hlarge]
  · rename_i hsmall
    split <;> simp_all

/-- As many messages as the limit has bytes are too many, however small they are. -/
theorem reserve_of_large (machine : Machine) {messages : Nat}
    (h : reservationLimit < messages) : machine.reserve messages = .error .capacityOverflow := by
  refine if_pos (Nat.lt_of_lt_of_le h ?_)
  exact Nat.le_mul_of_pos_right messages machine.messageSize_pos

end Machine

end Recall
