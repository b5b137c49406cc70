import Recall.Message.Basic

/-!
# Importance

An importance is a number from 0 to 1. Where a message does not state its own, it is
guessed from the role, the size and the age of the message.
-/

namespace Recall.Importance

/-- An importance above this number makes a message important. -/
def threshold : Single := Binary.ofRatio false 7 10

/-- Is the number above the threshold? Something that is not a number is not. -/
def exceeds (x : Single) : Bool := threshold.lt x

/-- The age below which a message is recent, in nanoseconds: five minutes. -/
def defaultWindow : Int := 300 * Instant.second

/-- The tokens above which a message is long. -/
def longTokens : Nat := 100

/-- The importance of a message at an instant, with messages younger than `window`
counting as recent. -/
def score (window : Int) (now : Instant) (m : Message) : Single :=
  match m.importance with
  | some x => x.clamp 0 1
  | none =>
    let fifth : Single := Binary.ofRatio false 1 5
    let tenth : Single := Binary.ofRatio false 1 10
    let base : Single := Binary.ofRatio false 1 2
    let withRole := if m.role = .system then base + fifth else base
    let withSize := if longTokens < m.tokenCount then withRole + fifth else withRole
    let withAge := if now.since m.timestamp < window then withSize + tenth else withSize
    withAge.clamp 0 1

end Recall.Importance
