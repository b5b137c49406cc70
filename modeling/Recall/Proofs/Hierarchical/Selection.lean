import Recall.Proofs.Hierarchical.Layers
import Mathlib.Data.List.Sort

/-!
# What the important layer keeps

The important layer decides one message at a time: it takes each promoted message in, and
when it has one too many it gives up the least of those that it has. It never sees again
what it gave up. All the same it holds the best of *all* promoted messages, as if they were
chosen when the last of them had come.

The second side of this law knows nothing of layers. The promoted messages are read off the
history, each with its place among them, and the kept ones are as many as the limit allows,
in their order, and outrank the others (`Best`). Two of them never rank equally, for the
later one of equal scores is the better one, so there is one selection at most
(`best_unique`).

One addition moves from one selection to the next (`Best.exchange`): **what was left out
before is outranked by what is given up now**. That the scan for the least score gives up
the first of equal ones is what makes later messages win (`leastPlace_split`). A scorer that
answers with something that is not a number, or differently at different times, would break
either step (`Scorer.Steady`).
-/

namespace Recall

/-! ## Numbers in numeric order -/

namespace Binary

variable {f : Format} {x y : Binary f}

/-- The position of a number in the numeric order. Something that is not a number has none
and stands at 0 here. -/
def level : Binary f → Int
  | nan => 0
  | signed s r => position s r

theorem lt_iff (hx : x ≠ nan) (hy : y ≠ nan) : x.lt y = true ↔ x.level < y.level := by
  cases x with
  | nan => exact absurd rfl hx
  | signed s a =>
      cases y with
      | nan => exact absurd rfl hy
      | signed t b => exact decide_eq_true_iff

theorem numEq_iff (hx : x ≠ nan) (hy : y ≠ nan) : x.numEq y = true ↔ x.level = y.level := by
  cases x with
  | nan => exact absurd rfl hx
  | signed s a =>
      cases y with
      | nan => exact absurd rfl hy
      | signed t b => exact decide_eq_true_iff

end Binary

/-- The scorer answers with one number for each message, whenever it is asked. -/
structure Scorer.Steady (s : Scorer) (score : Message → Single) : Prop where
  score_eq : ∀ asked now m, s.score asked now m = score m
  ne_nan : ∀ m, score m ≠ .nan

/-! ## Selections -/

/-- The best of a list: as many as the limit allows, in their order, and each of them
outranks each of those that are not kept. -/
structure Best {α : Type} (outranks : α → α → Prop) (limit : Nat) (all kept : List α) :
    Prop where
  sublist : kept.Sublist all
  length_eq : kept.length = min all.length limit
  outranks : ∀ x ∈ kept, ∀ y ∈ all, y ∉ kept → outranks x y

section Best

variable {α : Type} {outranks : α → α → Prop} {limit : Nat} {all kept other : List α}
  {x evicted : α} {before after : List α}

/-- Of two selections, one has what the other has: else each would have something that
outranks something of the other. -/
theorem Best.subset (hasymm : ∀ x y, outranks x y → ¬outranks y x) (hnodup : all.Nodup)
    (h : Best outranks limit all kept) (h' : Best outranks limit all other) :
    kept ⊆ other := by
  intro x hx
  by_contra hnone
  have hmissing : ∃ y ∈ other, y ∉ kept := by
    by_contra hall
    push Not at hall
    have hsub : other.Subperm kept :=
      List.subperm_of_subset (hnodup.sublist h'.sublist) hall
    have hlen : kept.length ≤ other.length := by
      rw [h.length_eq, h'.length_eq]
    have hperm := hsub.perm_of_length_le hlen
    exact hnone (hperm.symm.subset hx)
  obtain ⟨y, hy, hyk⟩ := hmissing
  have hxy := h.outranks x hx y (h'.sublist.subset hy) hyk
  have hyx := h'.outranks y hy x (h.sublist.subset hx) hnone
  exact hasymm x y hxy hyx

/-- As long as there is room, all is kept. -/
theorem Best.snoc (h : Best outranks limit all kept) (hroom : kept.length < limit) (x : α) :
    Best outranks limit (all ++ [x]) (kept ++ [x]) := by
  have hlen := h.length_eq
  have hall : kept = all := h.sublist.eq_of_length (by omega)
  subst hall
  refine ⟨List.Sublist.refl _, ?_, ?_⟩
  · rw [List.length_append, List.length_singleton]
    omega
  · intro y _ z hz hnone
    exact absurd hz hnone

/-- **The exchange.** Where there is no room, the least of the kept and the new one is
given up. It outranked all that was left out before, or the new one is given up itself. -/
theorem Best.exchange (htrans : ∀ x y z, outranks x y → outranks y z → outranks x z)
    (hnodup : (all ++ [x]).Nodup) (h : Best outranks limit all kept)
    (hfull : limit ≤ kept.length) (hsplit : kept ++ [x] = before ++ evicted :: after)
    (hleast : ∀ y ∈ before ++ after, outranks y evicted) :
    Best outranks limit (all ++ [x]) (before ++ after) := by
  have hsub : (kept ++ [x]).Sublist (all ++ [x]) := h.sublist.append (List.Sublist.refl [x])
  have hdistinct : (before ++ evicted :: after).Nodup := hsplit ▸ hnodup.sublist hsub
  have hgone : evicted ∉ before ++ after := (List.nodup_middle.mp hdistinct).notMem
  have hmem : ∀ y, y ∈ kept ++ [x] ↔ y = evicted ∨ y ∈ before ++ after := by
    intro y
    rw [hsplit, List.mem_append, List.mem_append, List.mem_cons]
    exact or_left_comm
  constructor
  · refine List.Sublist.trans ?_ hsub
    rw [hsplit]
    exact (List.Sublist.refl before).append (List.sublist_cons_self evicted after)
  · have hcount := congrArg List.length hsplit
    have hlen := h.length_eq
    simp only [List.length_append, List.length_cons, List.length_nil] at hcount ⊢
    omega
  · intro y hy z hz hout
    by_cases hzin : z ∈ kept ++ [x]
    · -- Of the kept and the new one, only one was given up.
      rcases (hmem z).mp hzin with rfl | hzin
      · exact hleast y hy
      · exact absurd hzin hout
    · have hzall : z ∈ all := by
        rcases List.mem_append.mp hz with hz | hz
        · exact hz
        · exact absurd (List.mem_append_right _ hz) hzin
      have hzkept : z ∉ kept := fun hzk => hzin (List.mem_append_left _ hzk)
      rcases List.mem_append.mp ((hmem y).mpr (Or.inr hy)) with hyk | hyx
      · exact h.outranks y hyk z hzall hzkept
      · -- The new one is kept, so one is given up that was kept before.
        obtain rfl := List.mem_singleton.mp hyx
        have hkept : evicted ∈ kept := by
          rcases List.mem_append.mp ((hmem evicted).mpr (Or.inl rfl)) with hk | hnew
          · exact hk
          · exact absurd (List.mem_singleton.mp hnew ▸ hy) hgone
        exact htrans y evicted z (hleast y hy) (h.outranks evicted hkept z hzall hzkept)

end Best

namespace Memory.Hierarchical

/-- One promoted message outranks another: it scores higher, or they score equally and it
came later. Both stand with their places among the promoted messages. -/
def Outranks (score : Message → Single) (x y : Message × Nat) : Prop :=
  (score y.1).lt (score x.1) = true ∨
    ((score x.1).numEq (score y.1) = true ∧ y.2 < x.2)

/-- The message is promoted: by its own importance, or else by its score. -/
def promotes (score : Message → Single) (m : Message) : Bool :=
  m.importance.any Importance.exceeds || Importance.exceeds (score m)

section Selecting

variable {score : Message → Single}

/-! ## The order of promoted messages -/

theorem outranks_iff (hnan : ∀ m, score m ≠ .nan) {x y : Message × Nat} :
    Outranks score x y ↔ (score y.1).level < (score x.1).level ∨
      ((score x.1).level = (score y.1).level ∧ y.2 < x.2) := by
  rw [Outranks, Binary.lt_iff (hnan y.1) (hnan x.1), Binary.numEq_iff (hnan x.1) (hnan y.1)]

theorem outranks_trans (hnan : ∀ m, score m ≠ .nan) (x y z : Message × Nat)
    (hxy : Outranks score x y) (hyz : Outranks score y z) : Outranks score x z := by
  rw [outranks_iff hnan] at *
  omega

theorem outranks_asymm (hnan : ∀ m, score m ≠ .nan) (x y : Message × Nat)
    (hxy : Outranks score x y) : ¬Outranks score y x := by
  rw [outranks_iff hnan] at *
  omega

theorem pairwise_places (messages : List Message) :
    messages.zipIdx.Pairwise fun x y => x.2 < y.2 := by
  apply List.pairwise_map.mp
  rw [List.zipIdx_map_snd]
  exact List.pairwise_lt_range'

theorem nodup_zipIdx (messages : List Message) : messages.zipIdx.Nodup := by
  refine (pairwise_places messages).imp ?_
  rintro x _ hlt rfl
  exact Nat.lt_irrefl _ hlt

/-- **There is one selection at most.** -/
theorem best_unique (hnan : ∀ m, score m ≠ .nan) {limit : Nat} {promoted : List Message}
    {kept other : List (Message × Nat)}
    (h : Best (Outranks score) limit promoted.zipIdx kept)
    (h' : Best (Outranks score) limit promoted.zipIdx other) : kept = other := by
  have hnodup := nodup_zipIdx promoted
  have hasymm := outranks_asymm hnan
  have hperm : kept.Perm other := by
    rw [List.perm_ext_iff_of_nodup (hnodup.sublist h.sublist) (hnodup.sublist h'.sublist)]
    intro x
    exact ⟨fun hx => h.subset hasymm hnodup h' hx, fun hx => h'.subset hasymm hnodup h hx⟩
  have hplaces := pairwise_places promoted
  refine hperm.eq_of_pairwise ?_ (hplaces.sublist h.sublist) (hplaces.sublist h'.sublist)
  intro x y _ _ hxy hyx
  omega

theorem zipIdx_snoc (messages : List Message) (m : Message) :
    (messages ++ [m]).zipIdx = messages.zipIdx ++ [(m, messages.length)] := by
  rw [List.zipIdx_append, Nat.zero_add]
  rfl

/-! ## The selection when a message is promoted -/

section Promoted

variable {limit : Nat} {promoted : List Message} {kept : List (Message × Nat)}

theorem best_snoc (h : Best (Outranks score) limit promoted.zipIdx kept)
    (hroom : kept.length < limit) (m : Message) :
    Best (Outranks score) limit (promoted ++ [m]).zipIdx
      (kept ++ [(m, promoted.length)]) := by
  rw [zipIdx_snoc]
  exact h.snoc hroom _

/-- Of messages with their places, the one that is given up ranks lowest: where scores are
equal, those behind it have later places. -/
theorem outranks_least (hnan : ∀ m, score m ≠ .nan) {front back : List (Message × Nat)}
    {evicted : Message × Nat} (hsub : (front ++ evicted :: back).Sublist promoted.zipIdx)
    (hfront : ∀ x ∈ front.map Prod.fst, (score evicted.1).level < (score x).level)
    (hback : ∀ x ∈ back.map Prod.fst, (score evicted.1).level ≤ (score x).level) :
    ∀ x ∈ front ++ back, Outranks score x evicted := by
  intro x hx
  rw [outranks_iff hnan]
  rcases List.mem_append.mp hx with hx | hx
  · exact Or.inl (hfront x.1 (List.mem_map_of_mem hx))
  · have hplaces := (pairwise_places promoted).sublist hsub
    rw [List.pairwise_append, List.pairwise_cons] at hplaces
    have hlater : evicted.2 < x.2 := hplaces.2.1.1 x hx
    have hlevel := hback x.1 (List.mem_map_of_mem hx)
    omega

/-- A message is promoted while the selection is full, and the first of the least scores is
given up. -/
theorem best_exchange (hnan : ∀ m, score m ≠ .nan)
    (h : Best (Outranks score) limit promoted.zipIdx kept) (hfull : limit ≤ kept.length)
    {m evicted : Message} {before after : List Message}
    (hsplit : kept.map Prod.fst ++ [m] = before ++ evicted :: after)
    (hbefore : ∀ x ∈ before, (score evicted).level < (score x).level)
    (hafter : ∀ x ∈ after, (score evicted).level ≤ (score x).level) :
    ∃ kept', Best (Outranks score) limit (promoted ++ [m]).zipIdx kept' ∧
      before ++ after = kept'.map Prod.fst := by
  have hentered : (kept ++ [(m, promoted.length)]).map Prod.fst =
      before ++ evicted :: after := by
    rw [List.map_append]
    exact hsplit
  -- The same split, of the messages with their places.
  obtain ⟨front, rest, hcut, rfl, hrest⟩ := List.map_eq_append_iff.mp hentered
  obtain ⟨least, back, rfl, rfl, rfl⟩ := List.map_eq_cons_iff.mp hrest
  have hsub : (front ++ least :: back).Sublist (promoted ++ [m]).zipIdx := by
    rw [← hcut, zipIdx_snoc]
    exact h.sublist.append (List.Sublist.refl _)
  have hleast := outranks_least hnan hsub hbefore hafter
  have hnodup := nodup_zipIdx (promoted ++ [m])
  rw [zipIdx_snoc] at hnodup ⊢
  exact ⟨front ++ back, h.exchange (outranks_trans hnan) hnodup hfull hcut hleast,
    List.map_append.symm⟩

end Promoted

/-! ## The least score -/

/-- The search for the least number ends at the first of the least ones: it has seen
`before`, the least number so far and `between`, in this order. -/
theorem leastFrom_split {before between rest : List Single} {least : Single}
    (hnan : ∀ x ∈ least :: rest, x ≠ .nan)
    (hbefore : ∀ x ∈ before, least.level < x.level)
    (hbetween : ∀ x ∈ between, least.level ≤ x.level) :
    ∃ front first back, before ++ least :: (between ++ rest) = front ++ first :: back ∧
      front.length =
        leastFrom before.length least (before.length + 1 + between.length) rest ∧
      (∀ x ∈ front, first.level < x.level) ∧ ∀ x ∈ back, first.level ≤ x.level := by
  induction rest generalizing before between least with
  | nil => exact ⟨before, least, between, by rw [List.append_nil], rfl, hbefore, hbetween⟩
  | cons x rest ih =>
      obtain ⟨hleast, hx, hrest⟩ : least ≠ .nan ∧ x ≠ .nan ∧ ∀ y ∈ rest, y ≠ .nan := by
        simpa only [List.forall_mem_cons] using hnan
      rw [leastFrom]
      by_cases hless : x.lt least = true
      · -- All that was seen is above the new least number.
        rw [if_pos hless]
        rw [Binary.lt_iff hx hleast] at hless
        have habove : ∀ y ∈ before ++ least :: between, x.level < y.level := by
          intro y hy
          rcases List.mem_append.mp hy with hy | hy
          · exact hless.trans (hbefore y hy)
          · rcases List.mem_cons.mp hy with rfl | hy
            · exact hless
            · exact hless.trans_le (hbetween y hy)
        have hnone : ∀ y ∈ ([] : List Single), x.level ≤ y.level := by simp
        obtain ⟨front, first, back, hsplit, hlen, hfirst⟩ :=
          ih (List.forall_mem_cons.mpr ⟨hx, hrest⟩) habove hnone
        refine ⟨front, first, back, ?_, ?_, hfirst⟩
        · rw [← hsplit, List.nil_append, List.append_assoc, List.cons_append]
        · rw [hlen, List.length_append, List.length_cons, List.length_nil]
          congr 1 <;> omega
      · rw [if_neg hless]
        rw [Binary.lt_iff hx hleast, not_lt] at hless
        have hnotbelow : ∀ y ∈ between ++ [x], least.level ≤ y.level := by
          intro y hy
          rcases List.mem_append.mp hy with hy | hy
          · exact hbetween y hy
          · rwa [List.mem_singleton.mp hy]
        obtain ⟨front, first, back, hsplit, hlen, hfirst⟩ :=
          ih (List.forall_mem_cons.mpr ⟨hleast, hrest⟩) hbefore hnotbelow
        refine ⟨front, first, back, ?_, ?_, hfirst⟩
        · rw [← hsplit, List.append_assoc, List.singleton_append]
        · rw [hlen, List.length_append, List.length_singleton]
          rfl

/-- The place of the least score splits the messages at one that scores below all that
came before it, and not above those that came after it. -/
theorem leastPlace_split (hnan : ∀ m, score m ≠ .nan) {messages before after : List Message}
    {evicted : Message} (hsplit : messages = before ++ evicted :: after)
    (hplace : before.length = leastPlace (messages.map score)) :
    (∀ m ∈ before, (score evicted).level < (score m).level) ∧
      ∀ m ∈ after, (score evicted).level ≤ (score m).level := by
  cases messages with
  | nil => exact absurd hsplit (by simp)
  | cons m messages =>
      -- At the start, nothing was seen but the first score.
      have hnumbers : ∀ x ∈ score m :: messages.map score, x ≠ .nan := by simp [hnan]
      have hbelow : ∀ x ∈ ([] : List Single), (score m).level < x.level := by simp
      have hnotabove : ∀ x ∈ ([] : List Single), (score m).level ≤ x.level := by simp
      obtain ⟨front, first, back, hscores, hlen, hfront, hback⟩ :=
        leastFrom_split hnumbers hbelow hnotabove
      have hsame : before.map score ++ score evicted :: after.map score =
          front ++ first :: back := by
        rw [← hscores, ← List.map_cons, ← List.map_append, ← hsplit]
        rfl
      have hlength : (before.map score).length = front.length := by
        rw [List.length_map, hplace, hlen]
        rfl
      obtain ⟨rfl, hrest⟩ := List.append_inj hsame hlength
      obtain ⟨rfl, rfl⟩ := List.cons.inj hrest
      exact ⟨fun x hx => hfront _ (List.mem_map_of_mem hx),
        fun x hx => hback _ (List.mem_map_of_mem hx)⟩

/-! ## One addition -/

theorem scores_eq {s : Scorer} (hs : s.Steady score) (supply : Supply)
    (messages : List Message) (j : Journal) :
    (scores supply s messages j).1 = messages.map score := by
  induction messages generalizing j with
  | nil => rfl
  | cons m messages ih =>
      rw [scores, List.map_cons, ih]
      exact congrArg (· :: messages.map score) (hs.score_eq _ _ m)

theorem judge_eq {h : Hierarchical} (hs : h.scorer.Steady score) (supply : Supply)
    (m : Message) (j : Journal) : (h.judge supply m j).1 = promotes score m := by
  unfold judge promotes
  by_cases hown : m.importance.any Importance.exceeds = true
  · rw [if_pos hown, hown, Bool.true_or]
  · rw [if_neg hown, Bool.eq_false_of_not_eq_true hown, Bool.false_or]
    exact congrArg Importance.exceeds (hs.score_eq _ _ m)

theorem enter_important {h : Hierarchical} (hs : h.scorer.Steady score) (supply : Supply)
    (m : Message) (j : Journal) : (h.enter supply m j).1.important =
      if promotes score m then h.important ++ [m] else h.important := by
  rw [← judge_eq hs supply m j]
  rcases enter_cases supply m h j with ⟨hyes, he⟩ | ⟨hno, he⟩ <;> rw [he]
  · rw [if_pos hyes]
  · rw [hno, if_neg Bool.false_ne_true]

/-- What an addition does to an important layer within its limit: nothing, if the message
is not promoted; else it takes the message in, and gives up the first of the least scores
if it was full. -/
theorem add_important {h : Hierarchical} (hs : h.scorer.Steady score) (supply : Supply)
    (m : Message) (j : Journal) (hfits : h.important.length ≤ h.limits.importantLimit) :
    (promotes score m = false ∧ (h.add supply m j).1.important = h.important) ∨
    (promotes score m = true ∧ h.important.length < h.limits.importantLimit ∧
      (h.add supply m j).1.important = h.important ++ [m]) ∨
    (promotes score m = true ∧ h.limits.importantLimit ≤ h.important.length ∧
      ∃ before evicted after, h.important ++ [m] = before ++ evicted :: after ∧
        (∀ x ∈ before, (score evicted).level < (score x).level) ∧
        (∀ x ∈ after, (score evicted).level ≤ (score x).level) ∧
        (h.add supply m j).1.important = before ++ after) := by
  -- The important layer passes the bound of the recent one unchanged.
  let bounded := (h.enter supply m j).1.boundRecent (h.enter supply m j).2
  have henter := enter_limits supply m h j
  have hbound := boundRecent_limits (h.enter supply m j).1 (h.enter supply m j).2
  have hlimits : bounded.1.limits = h.limits := hbound.1.trans henter.1
  have hscorer : bounded.1.scorer.Steady score := by
    rw [hbound.2, henter.2]
    exact hs
  have himportant : bounded.1.important =
      if promotes score m then h.important ++ [m] else h.important :=
    (boundRecent_important _ _).trans (enter_important hs supply m j)
  have hadd : (h.add supply m j).1 = (bounded.1.boundImportant supply bounded.2).1 := rfl
  rw [hadd]
  cases hpromoted : promotes score m with
  | false =>
      rw [hpromoted, if_neg Bool.false_ne_true] at himportant
      rcases boundImportant_cases supply bounded.1 bounded.2 with
        ⟨-, hb⟩ | ⟨hover, -⟩
      · rw [hb]
        exact Or.inl ⟨rfl, himportant⟩
      · rw [himportant, hlimits] at hover
        exact absurd hfits (Nat.not_le_of_lt hover)
  | true =>
      rw [hpromoted, if_pos rfl] at himportant
      have hlength : bounded.1.important.length = h.important.length + 1 := by
        rw [himportant, List.length_append, List.length_singleton]
      rcases boundImportant_cases supply bounded.1 bounded.2 with
        ⟨hroom, hb⟩ | ⟨hover, before, evicted, after, hsplit, hplace, hb⟩
      · rw [hlength, hlimits] at hroom
        rw [hb]
        exact Or.inr (Or.inl ⟨rfl, hroom, himportant⟩)
      · rw [hlength, hlimits] at hover
        rw [scores_eq hscorer] at hplace
        obtain ⟨hbefore, hafter⟩ := leastPlace_split hscorer.ne_nan hsplit hplace
        rw [himportant] at hsplit
        rw [hb]
        exact Or.inr (Or.inr ⟨rfl, Nat.le_of_lt_succ hover, before, evicted, after, hsplit,
          hbefore, hafter, rfl⟩)

/-! ## Courses -/

/-- **The invariant of an important layer in use.** It holds the best of the messages
promoted so far. -/
structure Selecting (limits : Config.Hierarchical) (scorer : Scorer)
    (score : Message → Single) (c : Course Hierarchical) : Prop where
  layering : Layering limits scorer c
  kept : ∃ kept, Best (Outranks score) limits.normalized.importantLimit
      (c.history.filter (promotes score)).zipIdx kept ∧
    c.memory.important = kept.map Prod.fst

variable {limits : Config.Hierarchical} {scorer : Scorer} {c : Course Hierarchical}

theorem Selecting.add (h : Selecting limits scorer score c) (hs : scorer.Steady score)
    (supply : Supply) (m : Message) :
    Selecting limits scorer score (c.enters [m] (c.memory.add supply m c.journal)) := by
  obtain ⟨hl, kept, hbest, himportant⟩ := h
  refine ⟨hl.add supply m, ?_⟩
  show ∃ kept', Best (Outranks score) limits.normalized.importantLimit
      ((c.history ++ [m]).filter (promotes score)).zipIdx kept' ∧
    (c.memory.add supply m c.journal).1.important = kept'.map Prod.fst
  have hscorer : c.memory.scorer.Steady score := hl.scorer_eq ▸ hs
  have hlength : c.memory.important.length = kept.length := by
    rw [himportant, List.length_map]
  rcases add_important hscorer supply m c.journal hl.length_important with
    ⟨hno, hnext⟩ | ⟨hyes, hroom, hnext⟩ |
    ⟨hyes, hfull, before, evicted, after, hsplit, hbefore, hafter, hnext⟩ <;>
    rw [hnext, List.filter_append]
  · rw [List.filter_singleton, hno, cond_false, List.append_nil]
    exact ⟨kept, hbest, himportant⟩
  · rw [List.filter_singleton, hyes, cond_true]
    rw [hlength, hl.limits_eq] at hroom
    refine ⟨_, best_snoc hbest hroom m, ?_⟩
    rw [himportant, List.map_append]
    rfl
  · rw [List.filter_singleton, hyes, cond_true]
    rw [hlength, hl.limits_eq] at hfull
    rw [himportant] at hsplit
    exact best_exchange hs.ne_nan hbest hfull hsplit hbefore hafter

theorem selecting_restarts {h : Hierarchical} {j : Journal}
    (hl : Layering limits scorer (Course.restarts [] (h, j))) (himportant : h.important = []) :
    Selecting limits scorer score (Course.restarts [] (h, j)) := by
  refine ⟨hl, [], ⟨List.Sublist.refl [], ?_, by simp⟩, himportant⟩
  exact (Nat.zero_min _).symm

/-- Every course of a hierarchical memory with a steady scorer satisfies the invariant. -/
theorem exists_selecting (supply : Supply) (limits : Config.Hierarchical)
    (helpers : Collaborators) (j : Journal) (requests : List Request)
    (hs : helpers.scorer.Steady score) :
    ∃ c : Course Hierarchical,
      Course.run supply requests (.opened (.hierarchical limits) helpers j) =
        c.lift .hierarchical ∧
      Selecting limits helpers.scorer score c := by
  have hopened := layering_opened limits helpers.scorer j
  obtain ⟨c, hrun, -, h⟩ := Course.hierarchical_run
    (P := Selecting limits helpers.scorer score) (fun _ m _ h => h.add hs supply m)
    (fun _ h => selecting_restarts h.layering.clear rfl)
    (Course.sound_restarts _ _) (selecting_restarts hopened rfl) requests
  exact ⟨c, hrun, h⟩

/-- **The important layer keeps the best.** In every course of a hierarchical memory whose
scorer is steady, let the promoted messages be those since it last forgot whose own
importance or else whose score is above the threshold. The important layer lists some of
them in the order in which they came, as many as there are up to its limit, and each of
them outranks each that it does not list: it scores higher, or it scores equally and came
later. No other choice of promoted messages has this property. -/
theorem important_layer_best (supply : Supply) (limits : Config.Hierarchical)
    (helpers : Collaborators) (j : Journal) (requests : List Request)
    (score : Message → Single) (hs : helpers.scorer.Steady score) :
    let c := Course.run supply requests (.opened (.hierarchical limits) helpers j)
    let promoted := c.history.filter fun m =>
      m.importance.any Importance.exceeds || Importance.exceeds (score m)
    let limit := limits.normalized.importantLimit
    ∃ (h : Hierarchical) (kept : List (Message × Nat)), c.memory = .hierarchical h ∧
      h.important = kept.map Prod.fst ∧
      kept.Sublist promoted.zipIdx ∧
      h.important.length = min promoted.length limit ∧
      (∀ x ∈ kept, ∀ y ∈ promoted.zipIdx, y ∉ kept → Outranks score x y) ∧
      ∀ other, Best (Outranks score) limit promoted.zipIdx other → other = kept := by
  obtain ⟨c, hrun, -, kept, hbest, himportant⟩ :=
    exists_selecting supply limits helpers j requests hs
  rw [hrun]
  refine ⟨c.memory, kept, rfl, himportant, hbest.sublist, ?_, hbest.outranks, ?_⟩
  · rw [himportant, List.length_map, hbest.length_eq, List.length_zipIdx]
    rfl
  · intro other hother
    exact best_unique hs.ne_nan hother hbest

/-- Collaborators whose scorer gives 1 to messages of one content and 0 to all others. -/
def praising (content : String) : Collaborators :=
  { Collaborators.builtIn with
    scorer := ⟨"praising", fun _ _ m => if m.content = content then 1 else 0⟩ }

/-- A score of 1 for one content and of 0 for all others is steady. -/
theorem steady_praising (content : String) :
    (praising content).scorer.Steady fun m => if m.content = content then 1 else 0 := by
  refine ⟨fun _ _ _ => rfl, ?_⟩
  intro m
  split <;> decide

/-- Five of six messages are promoted, and there is room for two. The first of the two that
score 0 is given up when the third comes, and the last one is given up at once. -/
theorem important_layer_best_of_five :
    let key (id : String) : Message := .make id .epoch .user "key"
    let score (m : Message) : Single := if m.content = "key" then 1 else 0
    let c := Course.run ⟨fun _ => .epoch, fun _ => ""⟩
      [.addAll [ranked "a" 1, key "b", ranked "c" 1, key "d", ranked "e" 0, ranked "f" 1]]
      (.opened (.hierarchical ⟨2, 2⟩) (praising "key") .empty)
    let promoted := c.history.filter fun m =>
      m.importance.any Importance.exceeds || Importance.exceeds (score m)
    (praising "key").scorer.Steady score ∧ ids promoted = ["a", "b", "c", "d", "f"] ∧
      ∃ (h : Hierarchical) (kept : List (Message × Nat)), c.memory = .hierarchical h ∧
        h.important = kept.map Prod.fst ∧ ids h.important = ["b", "d"] ∧
        c.reports.filter (fun e => e matches .importantArchived _) =
          [.importantArchived "a", .importantArchived "c", .importantArchived "f"] ∧
        ∀ x ∈ kept, ∀ y ∈ promoted.zipIdx, y ∉ kept → Outranks score x y := by
  intro key score c promoted
  have hs : (praising "key").scorer.Steady score := steady_praising "key"
  obtain ⟨h, kept, hmemory, himportant, -, -, houtranks, -⟩ :=
    important_layer_best ⟨fun _ => .epoch, fun _ => ""⟩ ⟨2, 2⟩ (praising "key") .empty
      [.addAll [ranked "a" 1, key "b", ranked "c" 1, key "d", ranked "e" 0, ranked "f" 1]]
      score hs
  have hrun : ∃ h : Hierarchical, c.memory = .hierarchical h ∧ ids h.important = ["b", "d"] :=
    ⟨_, rfl, by decide⟩
  obtain ⟨h', hmemory', hids⟩ := hrun
  obtain rfl : h = h' := Memory.hierarchical.inj (hmemory.symm.trans hmemory')
  exact ⟨hs, by decide, h, kept, hmemory, himportant, hids, by decide, houtranks⟩

end Selecting

end Memory.Hierarchical

end Recall
