/-!
# Keyed lists

A keyed list holds values under text keys, in the order of the keys and with each
key once. Two of them hold the same values exactly when they are equal.
-/

namespace Recall.Keyed

variable {α : Type}

/-- Puts a value under a key, in place of the one that was there. -/
def insert (key : String) (value : α) : List (String × α) → List (String × α)
  | [] => [(key, value)]
  | (k, v) :: entries =>
    if key < k then (key, value) :: (k, v) :: entries
    else if key = k then (key, value) :: entries
    else (k, v) :: insert key value entries

/-- The keyed list of some entries; the last of equal keys stands. -/
def ofList (entries : List (String × α)) : List (String × α) :=
  entries.foldl (fun keyed (key, value) => insert key value keyed) []

/-- The value under a key. -/
def find? (key : String) : List (String × α) → Option α
  | [] => none
  | (k, v) :: entries => if key = k then some v else find? key entries

/-- The value that was put under a key is found there. -/
theorem find?_insert_self (key : String) (value : α) (entries : List (String × α)) :
    find? key (insert key value entries) = some value := by
  induction entries with
  | nil => simp [insert, find?]
  | cons entry entries ih =>
    simp only [insert]
    split
    · simp [find?]
    · split
      · simp [find?]
      · rename_i h
        simp [find?, h, ih]

/-- Putting a value under a key changes nothing under the others. -/
theorem find?_insert_of_ne {k key : String} (h : k ≠ key) (value : α)
    (entries : List (String × α)) : find? k (insert key value entries) = find? k entries := by
  induction entries with
  | nil => simp [insert, find?, h]
  | cons entry entries ih =>
    simp only [insert]
    split
    · simp [find?, h]
    · split
      · rename_i e
        simp [find?, ← e, h]
      · simp [find?, ih]

/-! ## Keys -/

/-- The keys of a keyed list. -/
def keys (entries : List (String × α)) : List String := entries.map Prod.fst

@[simp] theorem keys_nil : keys ([] : List (String × α)) = [] := rfl

@[simp] theorem keys_cons (entry : String × α) (entries : List (String × α)) :
    keys (entry :: entries) = entry.1 :: keys entries := rfl

/-- The keys increase, so each of them is there once. -/
def Ordered (entries : List (String × α)) : Prop := (keys entries).Pairwise (· < ·)

theorem ordered_nil : Ordered ([] : List (String × α)) := List.Pairwise.nil

theorem Ordered.nodup {entries : List (String × α)} (h : Ordered entries) :
    (keys entries).Nodup := by
  refine List.Pairwise.imp ?_ h
  rintro k _ hlt rfl
  exact String.lt_irrefl k hlt

/-- A value is found under the keys and under nothing else. -/
theorem exists_find?_iff {key : String} {entries : List (String × α)} :
    (∃ value, find? key entries = some value) ↔ key ∈ keys entries := by
  induction entries with
  | nil => simp [find?]
  | cons entry entries ih =>
    rw [find?, keys_cons, List.mem_cons]
    by_cases h : key = entry.1
    · simp [h]
    · simp [h, ih]

theorem find?_eq_none_iff {key : String} {entries : List (String × α)} :
    find? key entries = none ↔ key ∉ keys entries := by
  rw [← exists_find?_iff, Option.eq_none_iff_forall_ne_some, not_exists]

theorem mem_of_find?_eq_some {key : String} {value : α} {entries : List (String × α)}
    (h : find? key entries = some value) : (key, value) ∈ entries := by
  induction entries with
  | nil => cases h
  | cons entry entries ih =>
    rw [find?] at h
    split at h
    · rename_i hkey
      rw [Option.some.injEq] at h
      rw [hkey, ← h]
      exact List.mem_cons_self
    · exact List.mem_cons_of_mem _ (ih h)

/-- Without the entries of one key, the others are found as before. -/
theorem find?_filter_ne {k key : String} (h : k ≠ key) (entries : List (String × α)) :
    find? k (entries.filter fun entry => entry.1 ≠ key) = find? k entries := by
  induction entries with
  | nil => rfl
  | cons entry entries ih =>
    by_cases hkey : entry.1 = key
    · rw [List.filter_cons_of_neg (by simpa using hkey), ih, find?, if_neg (hkey ▸ h)]
    · rw [List.filter_cons_of_pos (by simpa using hkey), find?, find?, ih]

theorem mem_keys_insert {k key : String} {value : α} {entries : List (String × α)} :
    k ∈ keys (insert key value entries) ↔ k = key ∨ k ∈ keys entries := by
  induction entries with
  | nil => simp [insert]
  | cons entry entries ih =>
    simp only [insert]
    split
    · simp
    · split
      · rename_i h
        simp [← h]
      · simp only [keys_cons, List.mem_cons, ih]
        exact or_left_comm

theorem Ordered.insert {entries : List (String × α)} (h : Ordered entries) (key : String)
    (value : α) : Ordered (insert key value entries) := by
  induction entries with
  | nil => exact List.pairwise_singleton _ _
  | cons entry entries ih =>
    obtain ⟨hfirst, hrest⟩ := List.pairwise_cons.mp h
    simp only [Keyed.insert]
    split
    · -- The key comes before the first one, and so before all.
      rename_i hlt
      refine List.pairwise_cons.mpr ⟨?_, h⟩
      intro k hk
      rcases List.mem_cons.mp hk with rfl | hk
      · exact hlt
      · exact String.lt_trans hlt (hfirst k hk)
    · rename_i hge
      split
      · rename_i heq
        exact List.pairwise_cons.mpr ⟨heq ▸ hfirst, hrest⟩
      · rename_i hne
        refine List.pairwise_cons.mpr ⟨?_, ih hrest⟩
        intro k hk
        rcases mem_keys_insert.mp hk with rfl | hk
        · exact Std.lt_of_le_of_ne (String.not_lt.mp hge) (Ne.symm hne)
        · exact hfirst k hk

/-! ## Keyed lists of entries -/

theorem insert_perm {key : String} {entries : List (String × α)} (h : key ∉ keys entries)
    (value : α) : (insert key value entries).Perm ((key, value) :: entries) := by
  induction entries with
  | nil => exact List.Perm.refl _
  | cons entry entries ih =>
    rw [keys_cons, List.mem_cons, not_or] at h
    simp only [insert, if_neg h.1]
    split
    · exact List.Perm.refl _
    · exact ((ih h.2).cons entry).trans (List.Perm.swap _ _ _)

theorem mem_insert {entry : String × α} {key : String} {value : α}
    {entries : List (String × α)} (h : entry ∈ insert key value entries) :
    entry = (key, value) ∨ entry ∈ entries := by
  induction entries with
  | nil => exact Or.inl (List.mem_singleton.mp h)
  | cons first entries ih =>
    simp only [insert] at h
    split at h
    · exact List.mem_cons.mp h
    · split at h
      · exact (List.mem_cons.mp h).imp_right (List.mem_cons_of_mem _)
      · rcases List.mem_cons.mp h with rfl | h
        · exact Or.inr List.mem_cons_self
        · exact (ih h).imp_right (List.mem_cons_of_mem _)

/-- What holds of the empty keyed list and of every value put in holds in the end. -/
theorem ofList_induction {P : List (String × α) → Prop} {entries : List (String × α)}
    (nil : P []) (insert : ∀ entry ∈ entries, ∀ keyed, P keyed → P (insert entry.1 entry.2 keyed)) :
    P (ofList entries) :=
  List.foldlRecOn entries _ nil fun keyed hkeyed entry hentry => insert entry hentry keyed hkeyed

theorem ordered_ofList (entries : List (String × α)) : Ordered (ofList entries) :=
  ofList_induction ordered_nil fun entry _ _ h => h.insert entry.1 entry.2

theorem mem_of_mem_ofList {entry : String × α} {entries : List (String × α)}
    (h : entry ∈ ofList entries) : entry ∈ entries := by
  revert entry
  refine ofList_induction (P := fun keyed => ∀ {entry}, entry ∈ keyed → entry ∈ entries)
    (by simp) ?_
  intro added hadded keyed ih entry h
  rcases mem_insert h with rfl | h
  · exact hadded
  · exact ih h

theorem keys_append (entries others : List (String × α)) :
    keys (entries ++ others) = keys entries ++ keys others := List.map_append

theorem keys_perm {entries others : List (String × α)} (h : entries.Perm others) :
    (keys entries).Perm (keys others) := h.map Prod.fst

/-- Entries of different keys are all kept. -/
theorem ofList_perm {entries : List (String × α)} (h : (keys entries).Nodup) :
    (ofList entries).Perm entries := by
  suffices hfold : ∀ keyed : List (String × α), (keys (entries ++ keyed)).Nodup →
      (entries.foldl (fun keyed (key, value) => insert key value keyed) keyed).Perm
        (entries ++ keyed) by
    simpa [ofList] using hfold [] (by simpa using h)
  clear h
  induction entries with
  | nil => exact fun keyed _ => List.Perm.refl _
  | cons entry entries ih =>
    intro keyed h
    have hnew : entry.1 ∉ keys keyed := by
      intro hk
      rw [List.cons_append, keys_cons, List.nodup_cons, keys_append] at h
      exact h.1 (List.mem_append_right _ hk)
    have hperm := insert_perm hnew entry.2
    have hmoved : (entries ++ insert entry.1 entry.2 keyed).Perm (entry :: (entries ++ keyed)) :=
      (hperm.append_left entries).trans List.perm_middle
    exact (ih _ ((keys_perm hmoved).nodup_iff.mpr h)).trans hmoved

/-- Two keyed lists of the same entries are equal. -/
theorem Ordered.eq_of_perm {entries others : List (String × α)} (h : Ordered entries)
    (h' : Ordered others) (hperm : entries.Perm others) : entries = others := by
  refine hperm.eq_of_pairwise ?_ (List.pairwise_map.mp h) (List.pairwise_map.mp h')
  intro a b _ _ hab hba
  exact absurd (String.lt_trans hab hba) (String.lt_irrefl _)

/-- The keyed list of the entries of a keyed list in any order is that list. -/
theorem ofList_eq_of_perm {entries keyed : List (String × α)} (hperm : entries.Perm keyed)
    (h : Ordered keyed) : ofList entries = keyed :=
  (ordered_ofList entries).eq_of_perm h
    ((ofList_perm ((keys_perm hperm).nodup_iff.mpr h.nodup)).trans hperm)

end Recall.Keyed
