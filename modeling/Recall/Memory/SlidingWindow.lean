import Recall.Collaborator
import Recall.Occupancy

/-!
# Sliding window memory

A sliding window keeps the newest messages, as many as its size. Older ones are
dropped and never come back, not even when the window grows again. Clearing keeps
the size. A window is opened with room for as many messages as its size, so a size
may be too large for the machine (`Machine.makeRoom`).
-/

namespace Recall.Memory

structure SlidingWindow where
  size : Nat
  messages : List Message

namespace SlidingWindow

/-- Opens an empty window for which there is room; a size of zero stands for the
default. -/
def opened (limits : Config.SlidingWindow) (j : Journal) : SlidingWindow × Journal :=
  let size := limits.normalized.windowSize
  (⟨size, []⟩, j.report (.windowOpened size))

/-- The number of messages too many. -/
def excess (w : SlidingWindow) : Nat := w.messages.length - w.size

/-- Drops the oldest messages until the window fits. -/
def trim (w : SlidingWindow) : SlidingWindow := { w with messages := w.messages.drop w.excess }

def add (m : Message) (w : SlidingWindow) (j : Journal) : SlidingWindow × Journal :=
  let grown := { w with messages := w.messages ++ [m] }
  (grown.trim, if 0 < grown.excess then j.report (.windowEvicted grown.excess) else j)

/-- Changes the size; zero stands for the default. -/
def resize (size : Nat) (w : SlidingWindow) (j : Journal) : SlidingWindow × Journal :=
  let resized := { w with size := (Config.SlidingWindow.mk size).normalized.windowSize }
  (resized.trim, j.report (.windowResized resized.size resized.excess))

def clear (w : SlidingWindow) (j : Journal) : SlidingWindow × Journal :=
  ({ w with messages := [] }, j.report (.cleared .slidingWindow))

def context (w : SlidingWindow) : List Message := w.messages

def occupancy (w : SlidingWindow) : Occupancy := .uncompressed w.messages

end SlidingWindow

end Recall.Memory
