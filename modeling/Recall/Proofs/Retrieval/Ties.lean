import Recall.Proofs.Embedding.Cosine
import Recall.Proofs.Retrieval.Ranking

/-!
# Equal scores

Messages that score equally are meant to keep the order in which they came. The ranking
compares scores by the total order of data, and so it keeps that order for scores that are
the same datum. Zeros of both signs are different data that are numerically equal, and **the
positive zero ranks above the negative one, whichever came first**.

So equal scores keep the order of the messages exactly if it is not the earlier message that
scores the negative zero and the later one the positive zero (`ahead_iff`). A score is the
negative zero only if some product of a component of the query and a component of the
message carries a minus sign, so the order is kept wherever the products are unsigned.

That an order is kept is said of the beginnings of the ranking, all of them: the later
message is in none without the earlier one in front of it (`KeepOrder`).
-/

namespace Recall

namespace Binary

variable {f : Format} {x y : Binary f}

/-- Numerically equal numbers are the same datum, or the two zeros. -/
theorem numEq_cases (h : x.numEq y = true) :
    x = y ∨ (x = zero true ∧ y = zero false) ∨ (x = zero false ∧ y = zero true) := by
  cases x with
  | nan => exact absurd h Bool.false_ne_true
  | signed s a =>
      cases y with
      | nan => exact absurd h Bool.false_ne_true
      | signed t b =>
          obtain ⟨a, ha⟩ := a
          obtain ⟨b, hb⟩ := b
          have hposition : position s a = position t b := of_decide_eq_true h
          cases s <;> cases t <;>
            simp only [position, if_true, if_false, Bool.false_eq_true] at hposition
          · obtain rfl : a = b := by omega
            exact Or.inl rfl
          · obtain ⟨rfl, rfl⟩ : a = 0 ∧ b = 0 := by omega
            exact Or.inr (Or.inr ⟨rfl, rfl⟩)
          · obtain ⟨rfl, rfl⟩ : a = 0 ∧ b = 0 := by omega
            exact Or.inr (Or.inl ⟨rfl, rfl⟩)
          · obtain rfl : a = b := by omega
            exact Or.inl rfl

theorem zero_false_above : (zero false : Binary f).totalLE (zero true) = false := by
  simp [totalLE, place, zero]

end Binary

namespace Memory.Retrieval

open Addition (taken latest latest_of_mem)

variable {score : Message → Single}

/-! ## Which of two equal scores is ahead -/

/-- **Equal scores keep the order of the messages** unless the earlier one is the negative
zero and the later one the positive zero. -/
theorem ahead_iff {m n : Message} {i j : Nat} (hplaces : i < j)
    (hequal : (score m).numEq (score n) = true) :
    Ahead score (m, i) (n, j) ↔ ¬(score m = .zero true ∧ score n = .zero false) := by
  constructor
  · rintro hahead ⟨hm, hn⟩
    have hle := hahead.totalLE
    rw [hm, hn, Binary.zero_false_above] at hle
    exact Bool.false_ne_true hle
  · intro hnot
    rcases Binary.numEq_cases hequal with hsame | hzeros | ⟨hm, hn⟩
    · exact Or.inr ⟨hsame, hplaces⟩
    · exact absurd hzeros hnot
    · refine Or.inl ?_
      show (score m).totalLE (score n) = false
      rw [hm, hn]
      exact Binary.zero_false_above

/-! ## Beginnings of a ranking -/

section Beginnings

variable {α : Type} {before : α → α → Prop} {l : List α} {x y : α} {k : Nat}

/-- In a list in order, what stands before a member of a beginning is in the beginning. -/
theorem mem_take_of_before (hasymm : ∀ x y, before x y → ¬before y x) (hl : l.Pairwise before)
    (hx : x ∈ l) (h : before x y) (hy : y ∈ l.take k) : x ∈ l.take k := by
  rw [← List.take_append_drop k l] at hl hx
  rcases List.mem_append.mp hx with hx | hx
  · exact hx
  · exact absurd ((List.pairwise_append.mp hl).2.2 y hy x hx) (hasymm x y h)

/-- In a list in order, what stands before a member is found in front of it. -/
theorem pair_sublist_of_before (hasymm : ∀ x y, before x y → ¬before y x)
    (hl : l.Pairwise before) (hx : x ∈ l) (hy : y ∈ l) (h : before x y) :
    [x, y].Sublist l := by
  obtain ⟨front, back, rfl⟩ := List.append_of_mem hx
  rcases List.mem_append.mp hy with hy | hy
  · exact absurd ((List.pairwise_append.mp hl).2.2 y hy x List.mem_cons_self) (hasymm x y h)
  · rcases List.mem_cons.mp hy with rfl | hy
    · exact absurd h (hasymm y y h)
    · have hback : [x, y].Sublist (x :: back) := (List.singleton_sublist.mpr hy).cons_cons x
      exact hback.trans (List.sublist_append_right front (x :: back))

theorem exists_pair_sublist_of_map {β : Type} {f : α → β} {m n : β}
    (h : [m, n].Sublist (l.map f)) : ∃ x y, [x, y].Sublist l ∧ f x = m ∧ f y = n := by
  obtain ⟨pair, hsub, hpair⟩ := List.sublist_map_iff.mp h
  obtain ⟨x, rest, rfl, hx, hrest⟩ := List.map_eq_cons_iff.mp hpair.symm
  obtain ⟨y, last, rfl, hy, hlast⟩ := List.map_eq_cons_iff.mp hrest
  obtain rfl := List.map_eq_nil_iff.mp hlast
  exact ⟨x, y, hsub, hx, hy⟩

end Beginnings

/-- Messages that came one after the other, with their places. -/
theorem exists_places {m n : Message} {messages : List Message}
    (h : [m, n].Sublist messages) :
    ∃ i j, i < j ∧ (m, i) ∈ messages.zipIdx ∧ (n, j) ∈ messages.zipIdx := by
  rw [← List.zipIdx_map_fst 0 messages] at h
  obtain ⟨⟨_, i⟩, ⟨_, j⟩, hsub, rfl, rfl⟩ := exists_pair_sublist_of_map h
  have hplaces : (messages.zipIdx.map Prod.snd).Pairwise (· < ·) := by
    rw [List.zipIdx_map_snd]
    exact List.pairwise_lt_range'
  have hlt : i < j := by
    simpa using (List.pairwise_map.mp hplaces).sublist hsub
  exact ⟨i, j, hlt, hsub.subset (by simp), hsub.subset (by simp)⟩

/-! ## Answers -/

/-- The beginning of the ranking that is shown when so many messages may be. -/
def shown (score : Message → Single) (messages : List Message) (k : Nat) : List Message :=
  ((placed score messages).take (min k messages.length)).map Prod.fst

theorem shown_all (score : Message → Single) (messages : List Message) :
    shown score messages messages.length = (placed score messages).map Prod.fst := by
  have hlen : (placed score messages).length = messages.length := by
    rw [(placed_perm score messages).length_eq, List.length_zipIdx]
  rw [shown, Nat.min_self, List.take_of_length_le hlen.le]

/-- However many messages are shown, the second of two is shown only behind the first. -/
def KeepOrder (shown : Nat → List Message) (m n : Message) : Prop :=
  ∀ k, n ∈ shown k → [m, n].Sublist (shown k)

/-- **When equal scores keep the order of the messages.** -/
theorem keepOrder_iff (score : Message → Single) {messages : List Message}
    (hnodup : messages.Nodup) {m n : Message} (hcame : [m, n].Sublist messages)
    (hequal : (score m).numEq (score n) = true) :
    KeepOrder (shown score messages) m n ↔ ¬(score m = .zero true ∧ score n = .zero false) := by
  obtain ⟨i, j, hplaces, hm, hn⟩ := exists_places hcame
  have hperm := placed_perm score messages
  have hpairwise := placed_pairwise score messages
  rw [← hperm.mem_iff] at hm hn
  -- The messages are distinct, so each has one place in the ranking.
  have hunique : ∀ x ∈ placed score messages, ∀ y ∈ placed score messages,
      x.1 = y.1 → x = y := by
    apply List.inj_on_of_nodup_map
    rw [(hperm.map Prod.fst).nodup_iff, List.zipIdx_map_fst]
    exact hnodup
  have hasymm : ∀ x y, Ahead score x y → ¬Ahead score y x := fun _ _ h => h.asymm
  rw [← ahead_iff hplaces hequal]
  constructor
  · intro hkeep
    -- Where all are shown, the two are found in the order of the ranking.
    have hall := hkeep messages.length
    rw [shown_all] at hall
    obtain ⟨x, y, hsub, hx, hy⟩ := exists_pair_sublist_of_map (hall (List.mem_map_of_mem hn))
    obtain rfl := hunique x (hsub.subset (by simp)) _ hm hx
    obtain rfl := hunique y (hsub.subset (by simp)) _ hn hy
    simpa using hpairwise.sublist hsub
  · intro hahead k hshown
    obtain ⟨y, hy, hyn⟩ := List.mem_map.mp hshown
    obtain rfl := hunique y (List.mem_of_mem_take hy) _ hn hyn
    have hx := mem_take_of_before hasymm hpairwise hm hahead hy
    exact (pair_sublist_of_before hasymm hpairwise.take hx hy hahead).map Prod.fst

/-! ## Courses -/

/-- While the ids are distinct, a stored message is compared by the embedding that it was
given when it came. -/
theorem Indexing.exists_similarity {supply : Supply} {embedder : Embedder}
    {c : Course Retrieval} {past : List Addition} (h : Indexing supply embedder c past)
    (hids : (ids c.memory.messages).Nodup) {a : Addition} (ha : a ∈ taken supply past) :
    ∃ v, (embedder.ask a.message.content a.journal).1 = .ok v ∧
      ∀ query, c.memory.similarity query a.message = Embedding.cosine query v := by
  have hmem : a.message ∈ c.memory.messages := by
    rw [h.messages_eq]
    exact List.mem_map_of_mem ha
  obtain ⟨v, hv⟩ := h.exists_find? hmem
  obtain ⟨latest, hlatest, hreply⟩ := (h.find?_iff _ _).mp hv
  rw [h.messages_eq] at hids
  obtain rfl : a = latest := by
    rw [latest_of_mem hids ha] at hlatest
    exact Option.some.inj hlatest
  exact ⟨v, hreply, fun query => by simp only [Retrieval.similarity, hv]⟩

/-- **Equal scores keep the order of the messages, but for zeros of different signs.** In
every course of a retrieving memory whose stored messages have distinct ids, and for every
query whose embedding succeeds, take two stored messages of which one came before the other
and whose cosines to the query are numerically equal. Then the order of the messages is kept,
in answers of every length, exactly if it is not the earlier one whose cosine is the negative
zero and the later one whose cosine is the positive zero. So it is kept wherever no product of
a component of the query and a component of the earlier message carries a minus sign. -/
theorem equal_scores_keep_order_iff (supply : Supply) (limits : Config.Retrieval)
    (helpers : Collaborators) (j : Journal) (requests : List Request) :
    let start := Course.opened (.retrieval limits) helpers j
    let c := Course.run supply requests start
    let stored := taken supply (Course.additions supply requests start)
    ∃ r : Retrieval, c.memory = .retrieval r ∧ r.messages = stored.map Addition.message ∧
      ((ids r.messages).Nodup → ∀ query e,
        (helpers.embedder.ask query c.journal).1 = .ok e →
        ∃ shown : Nat → List Message,
          (∀ k, (Memory.answer supply (.context query) (.retrieval { r with topK := k })
            c.journal).1.1 = .messages (shown k)) ∧
          ∀ a b, [a, b].Sublist stored → ∃ u v,
            (helpers.embedder.ask a.message.content a.journal).1 = .ok u ∧
            (helpers.embedder.ask b.message.content b.journal).1 = .ok v ∧
            ((Embedding.cosine e u).numEq (Embedding.cosine e v) = true →
              (KeepOrder shown a.message b.message ↔
                ¬(Embedding.cosine e u = .zero true ∧ Embedding.cosine e v = .zero false)) ∧
              ((∀ p ∈ e.zipWith (· * ·) u, p.Unsigned) →
                KeepOrder shown a.message b.message))) := by
  intro start c stored
  obtain ⟨d, hrun, -, h⟩ := exists_indexing supply limits helpers j requests
  have hc : c = d.lift .retrieval := hrun
  rw [hc]
  refine ⟨d.memory, rfl, h.messages_eq, ?_⟩
  intro hids query e hask
  refine ⟨shown (d.memory.similarity e) d.memory.messages, ?_, ?_⟩
  · intro k
    rw [← h.embedder_eq] at hask
    exact congrArg Reply.ofMessages (context_of_ask (r := { d.memory with topK := k }) hask)
  · intro a b hcame
    obtain ⟨u, hu, hscore⟩ := h.exists_similarity hids (hcame.subset (by simp : a ∈ [a, b]))
    obtain ⟨v, hv, hscore'⟩ := h.exists_similarity hids (hcame.subset (by simp : b ∈ [a, b]))
    refine ⟨u, v, hu, hv, ?_⟩
    intro hequal
    have hsub : [a.message, b.message].Sublist d.memory.messages := by
      rw [h.messages_eq]
      exact hcame.map Addition.message
    have hiff := keepOrder_iff (d.memory.similarity e) (List.Nodup.of_map _ hids) hsub
    rw [hscore, hscore'] at hiff
    refine ⟨hiff hequal, ?_⟩
    intro hunsigned
    refine (hiff hequal).mpr ?_
    rintro ⟨hnegative, -⟩
    exact Embedding.cosine_ne_zero_true hunsigned hnegative

/-- An embedder that knows directions in the plane; it writes the south with a negative zero. -/
def compass : Embedder where
  name := "compass"
  dimension := 2
  embed _ text := .ok (
    if text = "north" then [0, 1] else if text = "south" then [.zero true, -1] else [1, 0])

def heading (direction : String) : Message := .make direction .epoch .user direction

/-- **The later of two equal scores may be ranked first.** North and south are at right angles
to the east, and their cosines to it are equal. South came first and scores the negative zero,
so north is shown in front of it, and without it where one message is shown. -/
theorem later_zero_ranked_first :
    let supply : Supply := ⟨fun _ => .epoch, fun _ => ""⟩
    let c := Course.run supply [.addAll [heading "south", heading "north"]]
      (.opened (.retrieval ⟨2⟩) { Collaborators.builtIn with embedder := compass } .empty)
    let east : Embedding := [1, 0]
    ∃ r : Retrieval, c.memory = .retrieval r ∧ (ids r.messages).Nodup ∧
      r.messages = [heading "south", heading "north"] ∧
      (r.similarity east (heading "south")).numEq (r.similarity east (heading "north")) = true ∧
      ∃ shown : Nat → List Message,
        (∀ k, (Memory.answer supply (.context "east") (.retrieval { r with topK := k })
          c.journal).1.1 = .messages (shown k)) ∧
        ids (shown 2) = ["north", "south"] ∧ ids (shown 1) = ["north"] ∧
        ¬KeepOrder shown (heading "south") (heading "north") := by
  intro supply c east
  let r : Retrieval := ⟨2, compass, [heading "south", heading "north"],
    [("north", [0, 1]), ("south", [.zero true, -1])]⟩
  have hmemory : c.memory = .retrieval r := by rfl
  have hranking : placed (r.similarity east) r.messages =
      [(heading "north", 1), (heading "south", 0)] := by
    refine ranked_unique ((placed_perm _ _).trans (List.Perm.swap _ _ _))
      (placed_pairwise _ _) ?_
    exact List.pairwise_pair.mpr (Or.inl (by decide +kernel))
  refine ⟨r, hmemory, by decide, rfl, by decide +kernel, shown (r.similarity east) r.messages,
    ?_, ?_, ?_, ?_⟩
  · intro k
    exact congrArg Reply.ofMessages
      (context_of_ask (r := { r with topK := k }) (j := c.journal) (e := east) (by rfl))
  · rw [shown, hranking]
    rfl
  · rw [shown, hranking]
    rfl
  · intro hkeep
    have hone := hkeep 1
    rw [shown, hranking] at hone
    have hsub : [heading "south", heading "north"].Sublist [heading "north"] :=
      hone (List.mem_singleton_self _)
    exact absurd hsub.length_le (by decide)

end Memory.Retrieval

end Recall
