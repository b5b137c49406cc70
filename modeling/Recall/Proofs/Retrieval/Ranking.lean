import Recall.Proofs.Retrieval.Index
import Mathlib.Data.List.Sort

/-!
# The ranking behind an answer

The answer to a query is the beginning of one list, the ranking, and the limit says only
how much of it is shown. The second side of this law knows nothing of sorting: a ranking
is a permutation of the stored messages *with their places*, in which each stands before
the next for a reason (`Ahead`). The places tell apart messages that are the same, and
they decide between equal scores.

Two facts carry the proof. Sorting with places and forgetting them is sorting without
(`List.mergeSort_zipIdx`), which is the stability of the sort. And no two data are at the
same place of the total order, so scores that tie are equal (`Binary.totalLE_antisymm`).
That every stored message has an embedding is an invariant of courses (`Indexing`), so the
score of a message without one is never used.
-/

namespace Recall.Memory.Retrieval

/-! ## Rankings -/

/-- One stored message stands before another: its score is higher, or the scores are
equal and it came first. -/
def Ahead (score : Message → Single) (x y : Message × Nat) : Prop :=
  (score x.1).totalLE (score y.1) = false ∨ (score x.1 = score y.1 ∧ x.2 < y.2)

theorem Ahead.totalLE {score : Message → Single} {x y : Message × Nat}
    (h : Ahead score x y) : (score y.1).totalLE (score x.1) = true := by
  have htotal := Binary.totalLE_total (score x.1) (score y.1)
  rw [Bool.or_eq_true] at htotal
  rcases h with hless | ⟨htie, -⟩
  · rcases htotal with hle | hge
    · exact absurd hle (by simp [hless])
    · exact hge
  · rw [htie] at htotal ⊢
    exact htotal.elim id id

theorem Ahead.asymm {score : Message → Single} {x y : Message × Nat} (h : Ahead score x y) :
    ¬Ahead score y x := by
  rintro (hless | ⟨htie, hlt⟩)
  · exact absurd h.totalLE (by simp [hless])
  · rcases h with hless | ⟨-, hgt⟩
    · have hrefl := Binary.totalLE_total (score x.1) (score x.1)
      rw [htie, ← Bool.not_eq_true] at hless
      rw [Bool.or_self] at hrefl
      exact hless hrefl
    · omega

/-- **There is one ranking at most.** -/
theorem ranked_unique {score : Message → Single} {ranked other : List (Message × Nat)}
    (hperm : ranked.Perm other) (h : ranked.Pairwise (Ahead score))
    (h' : other.Pairwise (Ahead score)) : ranked = other :=
  List.Perm.eq_of_pairwise (fun _ _ _ _ hxy hyx => absurd hyx hxy.asymm) h h' hperm

/-- The second of two messages is no better than the first. -/
def noBetter (score : Message → Single) (m n : Message) : Bool :=
  (score n).totalLE (score m)

/-- The stored messages with their places, the best first. -/
def placed (score : Message → Single) (messages : List Message) : List (Message × Nat) :=
  messages.zipIdx.mergeSort (List.zipIdxLE (noBetter score))

theorem placed_perm (score : Message → Single) (messages : List Message) :
    (placed score messages).Perm messages.zipIdx :=
  List.mergeSort_perm _ _

/-- The places of a ranking are distinct. -/
theorem nodup_places (score : Message → Single) (messages : List Message) :
    ((placed score messages).map Prod.snd).Nodup := by
  rw [((placed_perm score messages).map Prod.snd).nodup_iff, List.zipIdx_map_snd]
  exact List.nodup_range' _

theorem placed_pairwise (score : Message → Single) (messages : List Message) :
    (placed score messages).Pairwise (Ahead score) := by
  have hsorted : (placed score messages).Pairwise
      (fun x y => List.zipIdxLE (noBetter score) x y = true) := by
    apply List.pairwise_mergeSort
    · exact List.zipIdxLE_trans fun a b c hab hbc => Binary.totalLE_trans hbc hab
    · exact List.zipIdxLE_total fun a b => Binary.totalLE_total _ _
  have hplaces := List.pairwise_map.mp (nodup_places score messages)
  refine (hsorted.and hplaces).imp ?_
  rintro x y ⟨hle, hne⟩
  by_cases hless : (score x.1).totalLE (score y.1) = true
  · -- Neither is better, so the scores are equal and the places decide.
    simp only [List.zipIdxLE, noBetter, hless, if_true] at hle
    split at hle
    · rename_i hge
      refine Or.inr ⟨Binary.totalLE_antisymm hless hge, ?_⟩
      exact Nat.lt_of_le_of_ne (of_decide_eq_true hle) hne
    · exact absurd hle Bool.false_ne_true
  · exact Or.inl (Bool.eq_false_of_not_eq_true hless)

/-- The ranking without the scores and without the places is the same list. -/
theorem map_fst_ranking (r : Retrieval) (query : Embedding) :
    (r.ranking query).map Prod.fst = (placed (r.similarity query) r.messages).map Prod.fst := by
  have hscored : r.ranking query =
      (r.messages.mergeSort (noBetter (r.similarity query))).map
        fun m => (m, r.similarity query m) := by
    symm
    exact List.map_mergeSort fun _ _ _ _ => rfl
  rw [hscored, List.map_map, placed, List.mergeSort_zipIdx]
  exact List.map_id _

/-! ## Stored messages have embeddings -/

/-- In every course of a retrieving memory each stored message has an embedding under its
id. -/
theorem exists_indexed (supply : Supply) (limits : Config.Retrieval) (helpers : Collaborators)
    (j : Journal) (requests : List Request) :
    ∃ c : Course Retrieval,
      Course.run supply requests (.opened (.retrieval limits) helpers j) = c.lift .retrieval ∧
        c.Sound ∧ c.memory.embedder = helpers.embedder ∧
        ∀ m ∈ c.memory.messages, ∃ stored,
          Keyed.find? m.id c.memory.embeddings = some stored := by
  obtain ⟨c, hrun, hs, h⟩ := exists_indexing supply limits helpers j requests
  exact ⟨c, hrun, hs, h.embedder_eq, fun _ hm => h.exists_find? hm⟩

/-! ## Answers -/

/-- What a memory answers when the embedding of the query succeeds. -/
theorem context_of_ask {r : Retrieval} {query : String} {j : Journal} {e : Embedding}
    (h : (r.embedder.ask query j).1 = .ok e) :
    (r.context query j).1 =
      .ok (((placed (r.similarity e) r.messages).take r.answerSize).map Prod.fst) := by
  rw [List.map_take, ← map_fst_ranking, ← List.map_take]
  unfold Retrieval.context
  split
  · -- Of an empty memory the answer is empty, and so is its ranking.
    rename_i hnone
    rw [List.isEmpty_iff] at hnone
    simp [Retrieval.ranking, hnone]
  · simp only [h]

/-- **An answer is the beginning of the ranking.** In every course of a retrieving memory
and for every embedding of a query, the stored messages have exactly one ranking: each of
them once, the more similar first, of equally similar ones the one that came first. Each
is compared by the embedding under its id. Whatever number of messages the memory is set
to answer with, it answers a query with this embedding by that many messages from the
beginning of the ranking, or all of them. So none that is left out is more similar than
one that is shown, and a greater number only lengthens the answer. -/
theorem context_begins_ranking (supply : Supply) (limits : Config.Retrieval)
    (helpers : Collaborators) (j : Journal) (requests : List Request) :
    let c := Course.run supply requests (.opened (.retrieval limits) helpers j)
    ∃ r : Retrieval, c.memory = .retrieval r ∧ ∀ e : Embedding,
      (∀ m ∈ r.messages, ∃ stored, Keyed.find? m.id r.embeddings = some stored ∧
        r.similarity e m = Embedding.cosine e stored) ∧
      ∃ ranked : List (Message × Nat),
        let shown := fun k => (ranked.take (min k r.messages.length)).map Prod.fst
        ranked.Perm r.messages.zipIdx ∧ ranked.Pairwise (Ahead (r.similarity e)) ∧
        (∀ other : List (Message × Nat), other.Perm r.messages.zipIdx →
          other.Pairwise (Ahead (r.similarity e)) → other = ranked) ∧
        (∀ query, (helpers.embedder.ask query c.journal).1 = .ok e → ∀ k,
          (Memory.answer supply (.context query) (.retrieval { r with topK := k })
            c.journal).1.1 = .messages (shown k)) ∧
        (∀ k, ∀ x ∈ ranked.take k, ∀ y ∈ ranked.drop k,
          (r.similarity e y.1).totalLE (r.similarity e x.1) = true) ∧
        ∀ k k', k ≤ k' → shown k <+: shown k' := by
  obtain ⟨c, hrun, -, hembedder, hfound⟩ := exists_indexed supply limits helpers j requests
  rw [hrun]
  refine ⟨c.memory, rfl, ?_⟩
  intro e
  have hperm := placed_perm (c.memory.similarity e) c.memory.messages
  have hpairwise := placed_pairwise (c.memory.similarity e) c.memory.messages
  refine ⟨?_, placed (c.memory.similarity e) c.memory.messages, hperm, hpairwise, ?_, ?_, ?_,
    ?_⟩
  · intro m hm
    obtain ⟨stored, hstored⟩ := hfound m hm
    exact ⟨stored, hstored, by simp only [Retrieval.similarity, hstored]⟩
  · intro other hother hranked
    exact ranked_unique (hother.trans hperm.symm) hranked hpairwise
  · intro query hask k
    rw [← hembedder] at hask
    exact congrArg Reply.ofMessages (context_of_ask (r := { c.memory with topK := k }) hask)
  · intro k x hx y hy
    rw [← List.take_append_drop k (placed (c.memory.similarity e) c.memory.messages),
      List.pairwise_append] at hpairwise
    exact (hpairwise.2.2 x hx y hy).totalLE
  · intro k k' hle
    exact (List.take_prefix_take_left (by omega)).map _

end Recall.Memory.Retrieval
