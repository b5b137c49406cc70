import Recall.Proofs.Buffer.Retention
import Recall.Proofs.Word

/-!
# The tokens that a buffer counts

The token limit adds up tokens from the newest message back, in words of 64 bits. A message
may come with any number of tokens, so a total on the way may be too large for a word. Then
the scan has no value (`olderThanCrossing?`), and the addition has none (`add?`).

**If the tokens of all that the token limit finds fit a word, so do the totals on the way, and
the addition in words is the addition** (`add?_of_countsFit`). What it finds depends on all
that happened before, a summary under the message limit included, so for a course this is
asked of each of its additions (`Course.CountsFit`).
-/

namespace Recall

namespace Memory.Buffer

/-! ## The scan in words -/

/-- The scan of `olderThanCrossing` with the totals computed in words; none if one of them does
not fit. -/
def olderThanCrossing? (limit : Nat) : Nat → List Message → Option Nat
  | _, [] => some 0
  | total, m :: older =>
    (Word.add? total m.tokenCount).bind fun total =>
      if limit < total then some older.length else olderThanCrossing? limit total older

/-- The number of messages beyond the token limit, with the totals computed in words. -/
def tokenSurplus? (limits : Config.Buffer) (messages : List Message) : Option Nat :=
  if limits.maxTokens = 0 then some 0
  else olderThanCrossing? limits.maxTokens 0 messages.reverse

theorem olderThanCrossing?_of_lt {limit total : Nat} {messages : List Message}
    (h : total + totalTokens messages < 2 ^ 64) :
    olderThanCrossing? limit total messages = some (olderThanCrossing limit total messages) := by
  induction messages generalizing total with
  | nil => rfl
  | cons m older ih =>
      rw [totalTokens, ← Nat.add_assoc] at h
      have hfits : total + m.tokenCount < 2 ^ 64 := Nat.lt_of_le_of_lt (Nat.le_add_right _ _) h
      rw [olderThanCrossing?, olderThanCrossing, Word.add?, Word.ofNat?_of_lt hfits,
        Option.bind_some]
      split
      · rfl
      · exact ih h

theorem tokenSurplus?_of_lt {limits : Config.Buffer} {messages : List Message}
    (h : limits.maxTokens ≠ 0 → totalTokens messages < 2 ^ 64) :
    tokenSurplus? limits messages = some (tokenSurplus limits messages) := by
  unfold tokenSurplus? tokenSurplus
  split
  · rfl
  · rename_i hlimit
    refine olderThanCrossing?_of_lt ?_
    rw [Nat.zero_add, totalTokens_reverse]
    exact h hlimit

/-! ## The addition in words -/

/-- A message comes and the message limit is applied. -/
def bounded (supply : Supply) (m : Message) (b : Buffer) (j : Journal) : Buffer × Journal :=
  let grown := { b with messages := b.messages ++ [m] }
  grown.compact supply (messageSurplus b.limits grown.messages) .messageLimit j

/-- The addition of a message with the totals of tokens computed in words; none if one of them
does not fit. -/
def add? (supply : Supply) (m : Message) (b : Buffer) (j : Journal) : Option (Buffer × Journal) :=
  let found := b.bounded supply m j
  (tokenSurplus? b.limits found.1.messages).map fun count =>
    found.1.compact supply count .tokenLimit found.2

/-- The tokens of what the token limit finds when a message comes fit a word, if there is a
token limit. -/
def CountsFit (supply : Supply) (m : Message) (b : Buffer) (j : Journal) : Prop :=
  b.limits.maxTokens ≠ 0 → totalTokens (b.bounded supply m j).1.messages < 2 ^ 64

instance (supply : Supply) (m : Message) (b : Buffer) (j : Journal) :
    Decidable (b.CountsFit supply m j) :=
  inferInstanceAs (Decidable (_ → _))

/-- **The addition in words is the addition**, where the tokens fit. -/
theorem add?_of_countsFit {supply : Supply} {m : Message} {b : Buffer} {j : Journal}
    (h : b.CountsFit supply m j) : b.add? supply m j = some (b.add supply m j) := by
  have hcount := tokenSurplus?_of_lt h
  exact congrArg (Option.map _) hcount

end Memory.Buffer

/-! ## Courses -/

/-- The tokens that an addition counts fit, if it is one to a buffer. -/
def Addition.CountsFit (supply : Supply) (a : Addition) : Prop :=
  match a.memory with
  | .buffer b => b.CountsFit supply a.message a.journal
  | _ => True

instance (supply : Supply) : (a : Addition) → Decidable (a.CountsFit supply)
  | ⟨m, .buffer b, j⟩ => inferInstanceAs (Decidable (b.CountsFit supply m j))
  | ⟨_, .sequential _, _⟩ | ⟨_, .slidingWindow _, _⟩ | ⟨_, .summarization _, _⟩
  | ⟨_, .retrieval _, _⟩ | ⟨_, .hierarchical _, _⟩ => inferInstanceAs (Decidable True)

namespace Course

/-- The tokens that the additions count fit, one addition after the other. -/
def CountsFit (supply : Supply) : List Request → Course Memory → Prop
  | [], _ => True
  | r :: requests, c =>
    (∀ a ∈ recorded supply c r [], a.CountsFit supply) ∧
      CountsFit supply requests (step supply c r)

instance decidableCountsFit (supply : Supply) :
    (requests : List Request) → (c : Course Memory) → Decidable (CountsFit supply requests c)
  | [], _ => inferInstanceAs (Decidable True)
  | _ :: requests, _ =>
    have := decidableCountsFit supply requests
    inferInstanceAs (Decidable (_ ∧ _))

/-- The last of several requests adds to what the others led to. -/
theorem CountsFit.last {supply : Supply} {requests : List Request} {r : Request}
    {c : Course Memory} (h : CountsFit supply (requests ++ [r]) c) :
    ∀ a ∈ recorded supply (run supply requests c) r [], a.CountsFit supply := by
  induction requests generalizing c with
  | nil => exact h.1
  | cons first requests ih => exact ih h.2

end Course

end Recall
