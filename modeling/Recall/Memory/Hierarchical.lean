import Recall.Collaborator
import Recall.Occupancy

/-!
# Hierarchical memory

A hierarchical memory has three layers. Every message enters the recent layer, and
an important one the important layer as well. When the recent layer is too large its
oldest message is archived, or just dropped if the important layer has it; when the
important layer is too large its least important message is archived. Archived
messages are kept and never shown.

The context shows the important layer and then those recent messages that are not
in it. The occupancy counts a message in each layer that has it, so its tokens may be
too many for a word where those of the messages are not (`Occupancy.wrapped`).
-/

namespace Recall.Memory

/-- A memory with layers for recent, important and archived messages. -/
structure Hierarchical where
  limits : Config.Hierarchical
  scorer : Scorer
  recent : List Message
  important : List Message
  archived : List Message

namespace Hierarchical

/-- Opens an empty memory; limits of zero stand for the defaults. -/
def opened (limits : Config.Hierarchical) (scorer : Scorer) (j : Journal) :
    Hierarchical × Journal :=
  (⟨limits.normalized, scorer, [], [], []⟩,
    j.report (.hierarchyOpened limits.normalized scorer.name))

/-- Is some message of the list the one with this id? -/
def hasId (messages : List Message) (id : String) : Bool := messages.any (·.id == id)

/-- Is the message important? Its own importance decides if it is high enough; else
the scorer is asked. -/
def judge (supply : Supply) (h : Hierarchical) (m : Message) (j : Journal) : Bool × Journal :=
  if m.importance.any Importance.exceeds then (true, j)
  else
    let answer := h.scorer.ask supply m j
    (Importance.exceeds answer.1, answer.2)

def scores (supply : Supply) (scorer : Scorer) : List Message → Journal → List Single × Journal
  | [], j => ([], j)
  | m :: messages, j =>
    let answer := scorer.ask supply m j
    let others := scores supply scorer messages answer.2
    (answer.1 :: others.1, others.2)

/-- Goes on looking for a smaller number, with the least so far and its place. -/
def leastFrom (place : Nat) (least : Single) : Nat → List Single → Nat
  | _, [] => place
  | i, x :: xs => if x.lt least then leastFrom i x (i + 1) xs else leastFrom place least (i + 1) xs

/-- The place of the least number; the first of equal ones counts. -/
def leastPlace : List Single → Nat
  | [] => 0
  | x :: xs => leastFrom 0 x 1 xs

theorem leastFrom_lt (place : Nat) (least : Single) (i : Nat) (xs : List Single)
    (h : place < i) : leastFrom place least i xs < i + xs.length := by
  induction xs generalizing place least i with
  | nil => simpa [leastFrom] using h
  | cons x xs ih =>
    simp only [leastFrom, List.length_cons]
    split
    · have := ih i x (i + 1) (Nat.lt_succ_self i)
      omega
    · have := ih place least (i + 1) (by omega)
      omega

/-- The least number of some is one of them. -/
theorem leastPlace_lt {xs : List Single} (h : xs ≠ []) : leastPlace xs < xs.length := by
  cases xs with
  | nil => exact absurd rfl h
  | cons x xs =>
    have := leastFrom_lt 0 x 1 xs Nat.one_pos
    simp only [leastPlace, List.length_cons]
    omega

/-- Puts a message into the recent layer, and into the important one if it is
important. -/
def enter (supply : Supply) (m : Message) (h : Hierarchical) (j : Journal) :
    Hierarchical × Journal :=
  let verdict := h.judge supply m j
  let recent := h.recent ++ [m]
  if verdict.1 then
    ({ h with recent, important := h.important ++ [m] }, verdict.2.report (.promoted m.id))
  else ({ h with recent }, verdict.2)

/-- Takes the oldest message out of a recent layer that is too large. -/
def boundRecent (h : Hierarchical) (j : Journal) : Hierarchical × Journal :=
  match h.recent with
  | [] => (h, j)
  | oldest :: recent =>
    if h.recent.length ≤ h.limits.recentLimit then (h, j)
    -- An important message lives on, so it is not archived yet.
    else if hasId h.important oldest.id then
      ({ h with recent }, j.report (.promotedDropped oldest.id))
    else
      ({ h with recent, archived := h.archived ++ [oldest] }, j.report (.recentArchived oldest.id))

/-- Takes the least important message out of an important layer that is too large. -/
def boundImportant (supply : Supply) (h : Hierarchical) (j : Journal) : Hierarchical × Journal :=
  if h.important.length ≤ h.limits.importantLimit then (h, j)
  else
    let scored := scores supply h.scorer h.important j
    let place := leastPlace scored.1
    match h.important[place]? with
    -- A layer that is too large is not empty, so the place is in it (`leastPlace_lt`).
    | none => (h, scored.2)
    | some evicted =>
      ({ h with
          important := h.important.eraseIdx place
          archived := h.archived ++ [evicted] },
        scored.2.report (.importantArchived evicted.id))

def add (supply : Supply) (m : Message) (h : Hierarchical) (j : Journal) :
    Hierarchical × Journal :=
  let entered := h.enter supply m j
  let bounded := entered.1.boundRecent entered.2
  bounded.1.boundImportant supply bounded.2

def clear (h : Hierarchical) (j : Journal) : Hierarchical × Journal :=
  ({ h with recent := [], important := [], archived := [] }, j.report (.cleared .hierarchical))

def context (h : Hierarchical) : List Message :=
  h.important ++ h.recent.filter fun m => !hasId h.important m.id

def occupancy (h : Hierarchical) : Occupancy :=
  let active := Occupancy.wrapped (totalTokens h.recent + totalTokens h.important)
  let total := Occupancy.wrapped (active + totalTokens h.archived)
  let shown := h.recent.length + h.important.length
  ⟨shown + h.archived.length, total, shown, active, Occupancy.rate active total⟩

end Hierarchical

end Recall.Memory
