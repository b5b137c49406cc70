import Recall.Collaborator
import Recall.Proofs.Binary.Whole
import Mathlib.Data.List.Induction
import Mathlib.Data.List.Nodup

/-!
# Hashed embeddings in any order

The counts of the characters of a text are kept in a map whose order means nothing, and are
visited in whatever order it has. Each is added to the bucket of its character, and several
characters may share a bucket, so the same numbers are added up in different orders.

Nothing is rounded as long as no bucket receives more than 2 ^ 24 characters, because every
partial sum is a whole number up to that limit (`foldl_addAt`). **A bucket then holds exactly
the number of characters that fall into it**, which says nothing of the order of the counts
and nothing of the order of the text.

What the counts of a text are is said without counting (`Tallied`). Counting one by one
establishes it (`tallied_charCounts`), and all lists of which it holds are the same up to
their order (`Tallied.perm`).
-/

namespace Recall.Embedding

/-! ## Counting -/

/-- The characters of a text, each once, with the number of times it occurs. -/
structure Tallied (text : List Char) (counts : List (Char × Nat)) : Prop where
  nodup : (counts.map Prod.fst).Nodup
  mem_iff : ∀ c n, (c, n) ∈ counts ↔ c ∈ text ∧ n = text.count c

theorem tallied_nil : Tallied [] [] := ⟨List.nodup_nil, by simp⟩

theorem mem_keys_tally {c d : Char} {counts : List (Char × Nat)} :
    d ∈ (tally c counts).map Prod.fst ↔ d = c ∨ d ∈ counts.map Prod.fst := by
  induction counts with
  | nil => simp [tally]
  | cons entry counts ih =>
      rw [tally]
      split
      · rename_i hkey
        simp [hkey]
      · rw [List.map_cons, List.mem_cons, ih, List.map_cons, List.mem_cons]
        exact or_left_comm

theorem nodup_keys_tally (c : Char) {counts : List (Char × Nat)}
    (h : (counts.map Prod.fst).Nodup) : ((tally c counts).map Prod.fst).Nodup := by
  induction counts with
  | nil => simp [tally]
  | cons entry counts ih =>
      obtain ⟨hnew, hrest⟩ := List.nodup_cons.mp h
      rw [tally]
      split
      · exact h
      · rename_i hkey
        refine List.nodup_cons.mpr ⟨?_, ih hrest⟩
        rw [mem_keys_tally]
        exact not_or.mpr ⟨hkey, hnew⟩

/-- Counting a character changes nothing for the others. -/
theorem mem_tally_of_ne {c d : Char} (hne : d ≠ c) {n : Nat} {counts : List (Char × Nat)} :
    (d, n) ∈ tally c counts ↔ (d, n) ∈ counts := by
  induction counts with
  | nil => simp [tally, hne]
  | cons entry counts ih =>
      rw [tally]
      split
      · rename_i hkey
        simp [hkey, hne, Prod.ext_iff]
      · rw [List.mem_cons, ih, List.mem_cons]

/-- A character that is counted for the first time has the count one. -/
theorem mem_tally_of_notMem {c : Char} {n : Nat} {counts : List (Char × Nat)}
    (hnew : c ∉ counts.map Prod.fst) : (c, n) ∈ tally c counts ↔ n = 1 := by
  induction counts with
  | nil => simp [tally]
  | cons entry counts ih =>
      rw [List.map_cons, List.mem_cons, not_or] at hnew
      rw [tally, if_neg (Ne.symm hnew.1), List.mem_cons, ih hnew.2]
      exact or_iff_right fun hfirst => hnew.1 (congrArg Prod.fst hfirst)

/-- A character that was counted before has one more. -/
theorem mem_tally_of_mem {c : Char} {k n : Nat} {counts : List (Char × Nat)}
    (h : (counts.map Prod.fst).Nodup) (hold : (c, k) ∈ counts) :
    (c, n) ∈ tally c counts ↔ n = k + 1 := by
  induction counts with
  | nil => exact absurd hold List.not_mem_nil
  | cons entry counts ih =>
      obtain ⟨hnew, hrest⟩ := List.nodup_cons.mp h
      rcases List.mem_cons.mp hold with rfl | hold
      · have hgone : (c, n) ∉ counts := by
          intro hmem
          exact hnew (List.mem_map.mpr ⟨(c, n), hmem, rfl⟩)
        simp [tally, hgone]
      · have hkey : entry.1 ≠ c := by
          intro hkey
          rw [hkey] at hnew
          exact hnew (List.mem_map_of_mem (f := Prod.fst) hold)
        rw [tally, if_neg hkey, List.mem_cons, ih hrest hold]
        exact or_iff_right fun hfirst => hkey (congrArg Prod.fst hfirst).symm

/-- One more character is counted. -/
theorem Tallied.snoc {text : List Char} {counts : List (Char × Nat)} (h : Tallied text counts)
    (c : Char) : Tallied (text ++ [c]) (tally c counts) := by
  refine ⟨nodup_keys_tally c h.nodup, ?_⟩
  intro d n
  rw [List.mem_append, List.count_append, List.mem_singleton]
  by_cases hd : d = c
  · subst hd
    rw [List.count_singleton_self]
    by_cases hold : d ∈ text
    · rw [mem_tally_of_mem h.nodup ((h.mem_iff d _).mpr ⟨hold, rfl⟩)]
      simp
    · have hnew : d ∉ counts.map Prod.fst := by
        intro hmem
        obtain ⟨⟨_, k⟩, hentry, rfl⟩ := List.mem_map.mp hmem
        exact hold ((h.mem_iff _ k).mp hentry).1
      rw [mem_tally_of_notMem hnew, List.count_eq_zero_of_not_mem hold]
      simp
  · rw [mem_tally_of_ne hd, h.mem_iff, List.count_singleton]
    simp [hd, Ne.symm hd]

theorem tallied_charCounts (text : List Char) : Tallied text (charCounts text) := by
  induction text using List.reverseRecOn with
  | nil => exact tallied_nil
  | append_singleton text c ih =>
      rw [charCounts, List.foldl_append]
      exact ih.snoc c

/-- The counts of a text are the same up to their order. -/
theorem Tallied.perm {text : List Char} {counts others : List (Char × Nat)}
    (h : Tallied text counts) (h' : Tallied text others) : counts.Perm others := by
  rw [List.perm_ext_iff_of_nodup (List.Nodup.of_map _ h.nodup) (List.Nodup.of_map _ h'.nodup)]
  rintro ⟨c, n⟩
  rw [h.mem_iff, h'.mem_iff]

/-- The order of the text does not matter. -/
theorem Tallied.of_perm {text other : List Char} {counts : List (Char × Nat)}
    (h : Tallied text counts) (hperm : text.Perm other) : Tallied other counts := by
  refine ⟨h.nodup, ?_⟩
  intro c n
  rw [h.mem_iff, hperm.mem_iff, hperm.count_eq]

/-! ## Filling the buckets -/

/-- The number of characters of a text that fall into a bucket. -/
def occupants (dimension bucket : Nat) (text : List Char) : Nat :=
  text.countP fun c => c.toNat % dimension = bucket

/-- The sum of the counts that go to a bucket. -/
def load (dimension bucket : Nat) : List (Char × Nat) → Nat
  | [] => 0
  | (c, n) :: counts =>
    (if c.toNat % dimension = bucket then n else 0) + load dimension bucket counts

section Load

variable {dimension bucket : Nat}

theorem load_perm {counts others : List (Char × Nat)} (h : counts.Perm others) :
    load dimension bucket counts = load dimension bucket others := by
  induction h with
  | nil => rfl
  | cons entry _ ih => rw [load, load, ih]
  | swap entry other counts => simp only [load, Nat.add_left_comm]
  | trans _ _ ih ih' => exact ih.trans ih'

/-- Counting a character puts one more into its bucket. -/
theorem load_tally (c : Char) (counts : List (Char × Nat)) :
    load dimension bucket (tally c counts) =
      load dimension bucket counts + if c.toNat % dimension = bucket then 1 else 0 := by
  induction counts with
  | nil => simp [tally, load]
  | cons entry counts ih =>
      rw [tally]
      split
      · rename_i hkey
        subst hkey
        simp only [load]
        split <;> omega
      · simp only [load, ih, Nat.add_assoc]

theorem load_charCounts (text : List Char) :
    load dimension bucket (charCounts text) = occupants dimension bucket text := by
  induction text using List.reverseRecOn with
  | nil => rfl
  | append_singleton text c ih =>
      have hcounts : charCounts (text ++ [c]) = tally c (charCounts text) := by
        rw [charCounts, List.foldl_append]
        rfl
      rw [hcounts, load_tally, ih, occupants, occupants, List.countP_append, List.countP_singleton]
      simp

theorem Tallied.load_eq {text : List Char} {counts : List (Char × Nat)}
    (h : Tallied text counts) (dimension bucket : Nat) :
    load dimension bucket counts = occupants dimension bucket text := by
  rw [load_perm (h.perm (tallied_charCounts text)), load_charCounts]

/-- A count is added to whole numbers. -/
theorem addAt_wholes {filled : Nat → Nat} {n : Nat}
    (hfits : ∀ b < dimension, filled b + (if bucket = b then n else 0) ≤ 2 ^ 24) :
    addAt bucket (Binary.ofNat n)
        ((List.range dimension).map fun b => (Binary.ofNat (filled b) : Single)) =
      (List.range dimension).map
        fun b => Binary.ofNat (filled b + if bucket = b then n else 0) := by
  apply List.ext_getElem
  · simp [addAt]
  · intro b hb hb'
    simp only [addAt, List.getElem_modify, List.getElem_map, List.getElem_range]
    have hfit := hfits b (by simpa using hb')
    split at hfit
    · rename_i hbucket
      rw [if_pos hbucket, if_pos hbucket]
      exact Binary.ofNat_add hfit
    · rename_i hbucket
      rw [if_neg hbucket, if_neg hbucket, Nat.add_zero]

/-- **Every partial sum is whole.** Buckets that hold whole numbers hold whole numbers after
the counts were visited, as long as these are within the limit. -/
theorem foldl_addAt (counts : List (Char × Nat)) (filled : Nat → Nat)
    (hfits : ∀ b < dimension, filled b + load dimension b counts ≤ 2 ^ 24) :
    counts.foldl (fun filled (c, n) => addAt (c.toNat % dimension) (Binary.ofNat n) filled)
        ((List.range dimension).map fun b => (Binary.ofNat (filled b) : Single)) =
      (List.range dimension).map fun b => Binary.ofNat (filled b + load dimension b counts) := by
  induction counts generalizing filled with
  | nil => rfl
  | cons entry counts ih =>
      obtain ⟨c, n⟩ := entry
      simp only [load, ← Nat.add_assoc] at hfits ⊢
      have hfirst : ∀ b < dimension,
          filled b + (if c.toNat % dimension = b then n else 0) ≤ 2 ^ 24 := by
        intro b hb
        have hfit := hfits b hb
        omega
      rw [List.foldl_cons, addAt_wholes hfirst]
      exact ih _ hfits

theorem buckets_eq {counts : List (Char × Nat)}
    (hfits : ∀ b < dimension, load dimension b counts ≤ 2 ^ 24) :
    buckets dimension counts =
      (List.range dimension).map fun b => Binary.ofNat (load dimension b counts) := by
  have hempty : List.replicate dimension (0 : Single) =
      (List.range dimension).map fun _ => Binary.ofNat 0 := by
    rw [List.map_const', List.length_range]
    rfl
  rw [buckets, hempty, foldl_addAt counts (fun _ => 0) (by simpa using hfits)]
  simp only [Nat.zero_add]

end Load

/-! ## The embedding -/

theorem length_normalize (a : Embedding) : (normalize a).length = a.length := by
  unfold normalize
  dsimp only
  split
  · exact List.length_map _
  · rfl

theorem orDefaultDimension_pos (dimension : Nat) : 0 < orDefaultDimension dimension := by
  unfold orDefaultDimension
  split
  · decide
  · omega

/-- **The counts may be visited in any order.** Take any requested dimension, zero standing
for the default, and any text of which no bucket receives more than 2 ^ 24 characters. In
whatever order the counts of its characters are visited, each of them goes to a bucket that
there is, every bucket holds in the end exactly the number of the characters of the text that
fall into it, and the vector, scaled to the length one, is the embedding of the text. The
embedding has the dimension that the embedder tells, and all texts of the same characters,
each as often, have the same. -/
theorem hashed_in_any_order (dimension : Nat) (text : String)
    (hcrowd : ∀ b < orDefaultDimension dimension,
      occupants (orDefaultDimension dimension) b text.toList ≤ 2 ^ 24) :
    let size := orDefaultDimension dimension
    ∃ v : Embedding,
      (∀ asked, (Embedder.hashed dimension).embed asked text = .ok v) ∧
      v.length = (Embedder.hashed dimension).dimension ∧
      Tallied text.toList (charCounts text.toList) ∧
      (∀ counts, Tallied text.toList counts →
        (∀ entry ∈ counts, entry.1.toNat % size < size) ∧
        (∀ b < size, ∃ x, (buckets size counts)[b]? = some x ∧
          x.IsWhole (occupants size b text.toList)) ∧
        normalize (buckets size counts) = v) ∧
      ∀ other : String, other.toList.Perm text.toList →
        ∀ asked, (Embedder.hashed dimension).embed asked other = .ok v := by
  intro size
  have hholds : ∀ counts, Tallied text.toList counts → buckets size counts =
      (List.range size).map fun b => Binary.ofNat (occupants size b text.toList) := by
    intro counts hcounts
    have hload := fun b => hcounts.load_eq size b
    have hfits : ∀ b < size, load size b counts ≤ 2 ^ 24 := fun b hb => hload b ▸ hcrowd b hb
    simp only [buckets_eq hfits, hload]
  have hvector : ∀ counts, Tallied text.toList counts →
      normalize (buckets size counts) = hashed dimension text := by
    intro counts hcounts
    rw [hashed, hholds counts hcounts, hholds _ (tallied_charCounts _)]
  refine ⟨hashed dimension text, fun _ => rfl, ?_, tallied_charCounts _, ?_, ?_⟩
  · rw [hashed, length_normalize, length_buckets]
    rfl
  · intro counts hcounts
    refine ⟨fun entry _ => Nat.mod_lt _ (orDefaultDimension_pos dimension), ?_,
      hvector counts hcounts⟩
    intro b hb
    refine ⟨Binary.ofNat (occupants size b text.toList), ?_, Binary.isWhole_ofNat (hcrowd b hb)⟩
    rw [hholds counts hcounts, List.getElem?_map, List.getElem?_range hb]
    rfl
  · intro other hperm asked
    exact congrArg Except.ok
      (hvector _ ((tallied_charCounts other.toList).of_perm hperm))

/-- With four buckets, the characters of "ae" share the second one. Their counts may be visited
in the other order, and the text may be turned around. -/
theorem hashed_turned_around :
    Tallied "ae".toList [('e', 1), ('a', 1)] ∧
      ∃ v : Embedding, (Embedder.hashed 4).embed 0 "ae" = .ok v ∧
        normalize (buckets 4 [('e', 1), ('a', 1)]) = v ∧
        (Embedder.hashed 4).embed 0 "ea" = .ok v := by
  have htallied : Tallied "ae".toList [('e', 1), ('a', 1)] :=
    (tallied_charCounts "ea".toList).of_perm (by decide)
  obtain ⟨v, hembed, -, -, hvisited, hother⟩ := hashed_in_any_order 4 "ae" (by decide)
  exact ⟨htallied, v, hembed 0, (hvisited _ htallied).2.2, hother "ea" (by decide) 0⟩

end Recall.Embedding
