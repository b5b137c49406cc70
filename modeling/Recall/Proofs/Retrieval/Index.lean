import Recall.Proofs.Course

/-!
# The index of a retrieving memory

A retrieving memory keeps two structures in step: the list of its messages, and the
embeddings under their ids. The list may name an id several times and the embeddings name
it once, so the law has to say which of the additions the embedding is from: **the latest
that succeeded**. An addition that fails, and a query, whether it fails or not, leave
both as they are.

The second side is the record of additions (`Course.additions`). Each holds the journal
that the message found, so what the embedder answered for it is known, and the law speaks
of that answer and not of the embeddings themselves.
-/

namespace Recall

namespace Addition

/-- The additions that succeeded. -/
def taken (supply : Supply) (past : List Addition) : List Addition :=
  past.filter (·.accepted supply)

/-- The last addition of a message with this id. -/
def latest (id : String) (additions : List Addition) : Option Addition :=
  (additions.filter (·.message.id == id)).getLast?

variable {supply : Supply} {additions : List Addition} {a : Addition} {id : String}

theorem taken_snoc_of_ok (past : List Addition) (h : a.reply supply = .ok ()) :
    taken supply (past ++ [a]) = taken supply past ++ [a] := by
  simp [taken, List.filter_append, accepted_of_ok h]

theorem taken_snoc_of_error (past : List Addition) {e : MemoryError}
    (h : a.reply supply = .error e) :
    taken supply (past ++ [a]) = taken supply past := by
  simp [taken, List.filter_append, accepted_of_error h]

theorem latest_snoc_self (additions : List Addition) (a : Addition) :
    latest a.message.id (additions ++ [a]) = some a := by
  simp [latest, List.filter_append]

theorem latest_snoc_of_ne (h : id ≠ a.message.id) :
    latest id (additions ++ [a]) = latest id additions := by
  simp [latest, List.filter_append, Ne.symm h]

/-- With distinct ids each addition is the latest of its id. -/
theorem latest_of_mem (hids : (ids (additions.map message)).Nodup) (ha : a ∈ additions) :
    latest a.message.id additions = some a := by
  induction additions using List.reverseRecOn with
  | nil => exact absurd ha List.not_mem_nil
  | append_singleton additions b ih =>
      rw [ids, List.map_append, List.map_append, List.nodup_append] at hids
      obtain ⟨hnodup, -, hfresh⟩ := hids
      rcases List.mem_append.mp ha with ha | ha
      · have hne : a.message.id ≠ b.message.id :=
          hfresh _ (List.mem_map_of_mem (List.mem_map_of_mem ha)) _ List.mem_cons_self
        rw [latest_snoc_of_ne hne]
        exact ih hnodup ha
      · rw [List.mem_singleton.mp ha]
        exact latest_snoc_self additions b

end Addition

namespace Memory.Retrieval

open Addition (taken latest)

/-- What adding a message does: it stores the message and its embedding, or fails and
leaves the memory alone. -/
theorem add_cases (m : Message) (r : Retrieval) (j : Journal) :
    (∃ v, (r.embedder.ask m.content j).1 = .ok v ∧
      r.add m j =
        ((.ok (), { r with
            messages := r.messages ++ [m]
            embeddings := Keyed.insert m.id v r.embeddings }),
          (r.embedder.ask m.content j).2.report (.indexed m.id))) ∨
    (∃ e, (r.embedder.ask m.content j).1 = .error e ∧
      r.add m j =
        ((.error (.embedding ("failed to generate embedding: " ++ e.text)), r),
          (r.embedder.ask m.content j).2)) := by
  cases hreply : (r.embedder.ask m.content j).1 with
  | ok v => exact Or.inl ⟨v, rfl, by simp only [Retrieval.add, hreply]⟩
  | error e => exact Or.inr ⟨e, rfl, by simp only [Retrieval.add, hreply]⟩

/-! ## The invariant -/

/-- **The invariant of a retrieving memory in use.** The messages are those of the
additions that succeeded; the embeddings have their ids as keys, and under each of them
what the embedder answered to the latest of these additions. -/
structure Indexing (supply : Supply) (embedder : Embedder) (c : Course Retrieval)
    (past : List Addition) : Prop where
  embedder_eq : c.memory.embedder = embedder
  topK_pos : 1 ≤ c.memory.topK
  history_eq : past.map Addition.message = c.history
  messages_eq : c.memory.messages = (taken supply past).map Addition.message
  ordered : Keyed.Ordered c.memory.embeddings
  mem_keys_iff : ∀ id, id ∈ Keyed.keys c.memory.embeddings ↔ id ∈ ids c.memory.messages
  find?_iff : ∀ id v, Keyed.find? id c.memory.embeddings = some v ↔
    ∃ a, latest id (taken supply past) = some a ∧
      (embedder.ask a.message.content a.journal).1 = .ok v

variable {supply : Supply} {embedder : Embedder} {c : Course Retrieval} {past : List Addition}

/-- Every stored message has an embedding under its id. -/
theorem Indexing.exists_find? (h : Indexing supply embedder c past) {m : Message}
    (hm : m ∈ c.memory.messages) :
    ∃ v, Keyed.find? m.id c.memory.embeddings = some v :=
  Keyed.exists_find?_iff.mpr ((h.mem_keys_iff m.id).mpr (List.mem_map_of_mem hm))

theorem Indexing.add (h : Indexing supply embedder c past) (m : Message) :
    Indexing supply embedder
      (c.enters [m] ((c.memory.add m c.journal).1.2, (c.memory.add m c.journal).2))
      (past ++ [⟨m, .retrieval c.memory, c.journal⟩]) := by
  obtain ⟨rfl, htopK, hhistory, hmessages, hordered, hkeys, hfind⟩ := h
  have hmore : (past ++ [Addition.mk m (.retrieval c.memory) c.journal]).map
      Addition.message = c.history ++ [m] := by
    rw [List.map_append, hhistory]
    rfl
  rcases add_cases m c.memory c.journal with ⟨v, hreply, hadd⟩ | ⟨e, hreply, hadd⟩
  · have hok : (Addition.mk m (.retrieval c.memory) c.journal).reply supply = .ok () :=
      congrArg (·.1.1) hadd
    have htaken := Addition.taken_snoc_of_ok past hok
    rw [hadd]
    refine ⟨rfl, htopK, hmore, ?_, hordered.insert _ _, ?_, ?_⟩
    · rw [htaken, List.map_append, ← hmessages]
      rfl
    · intro id
      show id ∈ Keyed.keys (Keyed.insert m.id v c.memory.embeddings) ↔
        id ∈ ids (c.memory.messages ++ [m])
      rw [Keyed.mem_keys_insert, hkeys, ids, ids, List.map_append, List.mem_append, or_comm]
      exact or_congr_right List.mem_singleton.symm
    · intro id w
      show Keyed.find? id (Keyed.insert m.id v c.memory.embeddings) = some w ↔ _
      rw [htaken]
      by_cases hid : id = m.id
      · -- The new addition is the latest of its id.
        subst hid
        rw [Keyed.find?_insert_self, Addition.latest_snoc_self _ ⟨m, .retrieval c.memory, _⟩]
        constructor
        · rintro ⟨⟩
          exact ⟨_, rfl, hreply⟩
        · rintro ⟨a, ⟨⟩, ha⟩
          rw [hreply] at ha
          exact congrArg some (Except.ok.inj ha)
      · rw [Keyed.find?_insert_of_ne hid, Addition.latest_snoc_of_ne hid]
        exact hfind id w
  · have hfailed : (Addition.mk m (.retrieval c.memory) c.journal).reply supply = .error _ :=
      congrArg (·.1.1) hadd
    have htaken := Addition.taken_snoc_of_error past hfailed
    rw [hadd]
    refine ⟨rfl, htopK, hmore, ?_, hordered, hkeys, ?_⟩
    · rw [htaken]
      exact hmessages
    · rw [htaken]
      exact hfind

theorem indexing_restarts {r : Retrieval} (htopK : 1 ≤ r.topK) (hmessages : r.messages = [])
    (hembeddings : r.embeddings = []) (j : Journal) :
    Indexing supply r.embedder (Course.restarts [] (r, j)) [] where
  embedder_eq := rfl
  topK_pos := htopK
  history_eq := rfl
  messages_eq := hmessages
  ordered := by
    show Keyed.Ordered r.embeddings
    rw [hembeddings]
    exact Keyed.ordered_nil
  mem_keys_iff := by simp [Course.restarts, hmessages, hembeddings, ids]
  find?_iff := by simp [Course.restarts, hembeddings, Keyed.find?, taken, latest]

theorem indexing_opened (supply : Supply) (limits : Config.Retrieval) (embedder : Embedder)
    (j : Journal) :
    Indexing supply embedder (Course.restarts [] (Retrieval.opened limits embedder j)) [] := by
  have htopK : 1 ≤ limits.normalized.topK := Config.orDefault_pos (by decide) limits.topK
  exact indexing_restarts (r := (Retrieval.opened limits embedder j).1) htopK rfl rfl _

theorem Indexing.clear (h : Indexing supply embedder c past) :
    Indexing supply embedder (Course.restarts [] (c.memory.clear c.journal)) [] := by
  rw [← h.embedder_eq]
  exact indexing_restarts (r := { c.memory with messages := [], embeddings := [] })
    h.topK_pos rfl rfl _

theorem Indexing.setTopK (h : Indexing supply embedder c past) (k : Nat) :
    Indexing supply embedder (c.stays (c.memory.setTopK k, c.journal)) past := by
  unfold Retrieval.setTopK
  by_cases hk : k = 0
  · rw [if_pos hk]
    exact { h with }
  · rw [if_neg hk]
    exact { h with topK_pos := Nat.one_le_iff_ne_zero.mpr hk }

/-- Every course of a retrieving memory satisfies the invariant. -/
theorem exists_indexing (supply : Supply) (limits : Config.Retrieval) (helpers : Collaborators)
    (j : Journal) (requests : List Request) :
    ∃ c : Course Retrieval,
      Course.run supply requests (.opened (.retrieval limits) helpers j) = c.lift .retrieval ∧
        c.Sound ∧ Indexing supply helpers.embedder c
          (Course.additions supply requests (.opened (.retrieval limits) helpers j)) :=
  Course.retrieval_run (P := Indexing supply helpers.embedder)
    (fun _ _ m _ h => h.add m) (fun _ _ h => h.clear) (fun _ _ _ h => { h with })
    (fun _ _ k h => h.setTopK k) (Course.sound_restarts _ _)
    (indexing_opened supply limits helpers.embedder j) requests

/-- **The index is consistent, whatever fails.** In every course of a retrieving memory the
stored messages are those whose addition succeeded since it last forgot, in their order.
The embeddings have exactly their ids as keys, each once, and under each id there is what
the embedder answered when the latest stored message with that id was added. Answers have
room for one message at least. An addition that fails changes nothing in the memory, and a
query never does. So while the ids are distinct, every stored message is compared by the
embedding of its own content. -/
theorem index_consistent (supply : Supply) (limits : Config.Retrieval)
    (helpers : Collaborators) (j : Journal) (requests : List Request) :
    let start := Course.opened (.retrieval limits) helpers j
    let c := Course.run supply requests start
    let additions := Course.additions supply requests start
    let stored := taken supply additions
    additions.map Addition.message = c.history ∧
    ∃ r : Retrieval, c.memory = .retrieval r ∧
      r.messages = stored.map Addition.message ∧
      (Keyed.keys r.embeddings).Nodup ∧
      (∀ id, id ∈ Keyed.keys r.embeddings ↔ id ∈ ids r.messages) ∧
      (∀ id v, Keyed.find? id r.embeddings = some v ↔ ∃ a, latest id stored = some a ∧
        (helpers.embedder.ask a.message.content a.journal).1 = .ok v) ∧
      1 ≤ r.topK ∧
      (∀ m e, (c.memory.answer supply (.add m) c.journal).1.1 = .failed e →
        (c.memory.answer supply (.add m) c.journal).1.2 = .retrieval r) ∧
      (∀ query, (c.memory.answer supply (.context query) c.journal).1.2 = .retrieval r) ∧
      ((ids r.messages).Nodup → ∀ a ∈ stored, ∃ v,
        (helpers.embedder.ask a.message.content a.journal).1 = .ok v ∧
        Keyed.find? a.message.id r.embeddings = some v ∧
        ∀ query, r.similarity query a.message = Embedding.cosine query v) := by
  intro start c additions stored
  obtain ⟨d, hrun, -, h⟩ := exists_indexing supply limits helpers j requests
  have hc : c = d.lift .retrieval := hrun
  rw [hc]
  refine ⟨h.history_eq, d.memory, rfl, h.messages_eq, h.ordered.nodup, h.mem_keys_iff,
    h.find?_iff, h.topK_pos, ?_, fun query => rfl, ?_⟩
  · intro m e hfailed
    show Memory.retrieval (d.memory.add m d.journal).1.2 = .retrieval d.memory
    have herror : (d.memory.add m d.journal).1.1 = .error e :=
      Reply.ofChange_eq_failed.mp hfailed
    rcases add_cases m d.memory d.journal with ⟨v, -, hadd⟩ | ⟨e', -, hadd⟩
    · rw [hadd] at herror
      exact absurd herror (by simp)
    · rw [hadd]
  · intro hids a ha
    have hmem : a.message ∈ d.memory.messages := by
      rw [h.messages_eq]
      exact List.mem_map_of_mem ha
    obtain ⟨v, hv⟩ := h.exists_find? hmem
    obtain ⟨b, hb, hreply⟩ := (h.find?_iff _ _).mp hv
    -- The latest addition of this id is the one in question.
    rw [h.messages_eq] at hids
    rw [Addition.latest_of_mem hids ha, Option.some.injEq] at hb
    subst hb
    exact ⟨v, hreply, hv, fun query => by simp only [Retrieval.similarity, hv]⟩

end Memory.Retrieval

end Recall
