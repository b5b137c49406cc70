import Recall.Proofs.Course
import Mathlib.Data.List.DropRight
import Mathlib.Data.List.Nodup

/-!
# The layers of a hierarchical memory

Adding a message goes through three stages, and each has one lemma that says all it can
do: the message enters, perhaps two layers at once (`enter_cases`); the recent layer
gives up its oldest message (`boundRecent_cases`); the important layer gives up its
least one (`boundImportant_cases`). Scores never matter to the laws of this file, so the
scorer may be anything.

A message that the recent layer drops lives on in the important one only, which may give
it up in the next moment. **No stage loses a message** all the same (`Layered`), because
the important layer archives what it gives up, always. Distinct ids are used in one
place: the recent layer looks for the id of its oldest message and must find the message
itself.
-/

namespace Recall

/-- Messages with distinct ids are told apart by their ids. -/
theorem eq_of_id_eq {messages : List Message} (hids : (ids messages).Nodup) {m n : Message}
    (hm : m ∈ messages) (hn : n ∈ messages) (h : m.id = n.id) : m = n :=
  List.inj_on_of_nodup_map hids hm hn h

theorem nodup_of_ids {messages : List Message} (hids : (ids messages).Nodup) :
    messages.Nodup :=
  List.Nodup.of_map _ hids

namespace Memory.Hierarchical

/-! ## What each stage can do -/

theorem enter_cases (supply : Supply) (m : Message) (h : Hierarchical) (j : Journal) :
    ((h.judge supply m j).1 = true ∧ h.enter supply m j =
      ({ h with recent := h.recent ++ [m], important := h.important ++ [m] },
        (h.judge supply m j).2.report (.promoted m.id))) ∨
    ((h.judge supply m j).1 = false ∧ h.enter supply m j =
      ({ h with recent := h.recent ++ [m] }, (h.judge supply m j).2)) := by
  cases hverdict : (h.judge supply m j).1 with
  | true => exact Or.inl ⟨rfl, by simp [enter, hverdict]⟩
  | false => exact Or.inr ⟨rfl, by simp [enter, hverdict]⟩

theorem boundRecent_cases (h : Hierarchical) (j : Journal) :
    (h.recent.length ≤ h.limits.recentLimit ∧ h.boundRecent j = (h, j)) ∨
    (h.limits.recentLimit < h.recent.length ∧ ∃ oldest recent, h.recent = oldest :: recent ∧
      ((hasId h.important oldest.id = true ∧ h.boundRecent j =
        ({ h with recent }, j.report (.promotedDropped oldest.id))) ∨
      (hasId h.important oldest.id = false ∧ h.boundRecent j =
        ({ h with recent, archived := h.archived ++ [oldest] },
          j.report (.recentArchived oldest.id))))) := by
  cases hrecent : h.recent with
  | nil => exact Or.inl ⟨Nat.zero_le _, by simp [boundRecent, hrecent]⟩
  | cons oldest recent =>
      by_cases hfits : (oldest :: recent).length ≤ h.limits.recentLimit
      · refine Or.inl ⟨hfits, ?_⟩
        simp only [boundRecent, hrecent, if_pos hfits]
      · refine Or.inr ⟨Nat.lt_of_not_le hfits, oldest, recent, rfl, ?_⟩
        cases hpromoted : hasId h.important oldest.id with
        | true =>
            refine Or.inl ⟨rfl, ?_⟩
            simp only [boundRecent, hrecent, if_neg hfits, hpromoted, if_true]
        | false =>
            refine Or.inr ⟨rfl, ?_⟩
            simp only [boundRecent, hrecent, if_neg hfits, hpromoted, if_false,
              Bool.false_eq_true]

theorem length_scores (supply : Supply) (scorer : Scorer) (messages : List Message)
    (j : Journal) : (scores supply scorer messages j).1.length = messages.length := by
  induction messages generalizing j with
  | nil => rfl
  | cons m messages ih => exact congrArg (· + 1) (ih _)

theorem boundImportant_cases (supply : Supply) (h : Hierarchical) (j : Journal) :
    (h.important.length ≤ h.limits.importantLimit ∧ h.boundImportant supply j = (h, j)) ∨
    (h.limits.importantLimit < h.important.length ∧ ∃ before evicted after,
      h.important = before ++ evicted :: after ∧
      before.length = leastPlace (scores supply h.scorer h.important j).1 ∧
      h.boundImportant supply j =
        ({ h with important := before ++ after, archived := h.archived ++ [evicted] },
          (scores supply h.scorer h.important j).2.report (.importantArchived evicted.id))) := by
  by_cases hfits : h.important.length ≤ h.limits.importantLimit
  · exact Or.inl ⟨hfits, by simp only [boundImportant, if_pos hfits]⟩
  · refine Or.inr ⟨Nat.lt_of_not_le hfits, ?_⟩
    have hlen := length_scores supply h.scorer h.important j
    have hne : (scores supply h.scorer h.important j).1 ≠ [] := by
      intro hnil
      rw [hnil, List.length_nil] at hlen
      omega
    have hplace := leastPlace_lt hne
    rw [hlen] at hplace
    -- The place splits the layer at the message that it gives up.
    have hat := List.getElem?_eq_getElem hplace
    have hsplit := List.take_append_drop
      (leastPlace (scores supply h.scorer h.important j).1) h.important
    rw [List.drop_eq_getElem_cons hplace] at hsplit
    refine ⟨_, _, _, hsplit.symm, ?_, ?_⟩
    · rw [List.length_take]
      omega
    · simp only [boundImportant, if_neg hfits, hat, List.eraseIdx_eq_take_drop_succ]

/-! ## No message is lost -/

/-- The layers hold messages of the history only, two of them in its order, and each
message of the history is in some layer. -/
structure Layered (h : Hierarchical) (history : List Message) : Prop where
  recent : h.recent <:+ history
  important : h.important.Sublist history
  archived : ∀ m ∈ h.archived, m ∈ history
  covered : ∀ m ∈ history, m ∈ h.recent ∨ m ∈ h.important ∨ m ∈ h.archived

section Moves

variable {h : Hierarchical} {history : List Message} {m oldest evicted : Message}
  {recent before after : List Message}

/-- If a message of the history has the id of an important one, it is important. -/
theorem Layered.mem_important (hl : Layered h history) (hids : (ids history).Nodup)
    (hm : m ∈ history) : hasId h.important m.id = true ↔ m ∈ h.important := by
  simp only [hasId, List.any_eq_true, beq_iff_eq]
  constructor
  · rintro ⟨n, hn, hid⟩
    have hsame := eq_of_id_eq hids (hl.important.subset hn) hm hid
    exact hsame ▸ hn
  · intro hm
    exact ⟨m, hm, rfl⟩

theorem Layered.notMem_important (hl : Layered h history) (hids : (ids history).Nodup)
    (hm : m ∈ history) (hplain : hasId h.important m.id = false) : m ∉ h.important := by
  rw [← hl.mem_important hids hm, hplain]
  exact Bool.false_ne_true

theorem Layered.later (hl : Layered h history) (hrecent : h.recent = oldest :: recent) :
    recent <:+ history := by
  have hsuffix := hl.recent
  rw [hrecent] at hsuffix
  exact (List.suffix_cons oldest recent).trans hsuffix

theorem Layered.oldest_mem (hl : Layered h history)
    (hrecent : h.recent = oldest :: recent) : oldest ∈ history := by
  apply hl.recent.subset
  rw [hrecent]
  exact List.mem_cons_self

theorem mem_given_up (himportant : h.important = before ++ evicted :: after) :
    evicted ∈ h.important := by
  rw [himportant]
  exact List.mem_append_right _ List.mem_cons_self

theorem sublist_given_up (himportant : h.important = before ++ evicted :: after) :
    (before ++ after).Sublist h.important := by
  rw [himportant]
  exact (List.Sublist.refl before).append (List.sublist_cons_self evicted after)

theorem Layered.archived_snoc (hl : Layered h history) (hm : m ∈ history) :
    ∀ x ∈ h.archived ++ [m], x ∈ history := by
  intro x hx
  rcases List.mem_append.mp hx with hx | hx
  · exact hl.archived x hx
  · rwa [List.mem_singleton.mp hx]

theorem Layered.enter (hl : Layered h history) (supply : Supply) (m : Message) (j : Journal) :
    Layered (h.enter supply m j).1 (history ++ [m]) := by
  have hrecent : h.recent ++ [m] <:+ history ++ [m] :=
    List.suffix_append_self_iff.mpr hl.recent
  have harchived : ∀ x ∈ h.archived, x ∈ history ++ [m] :=
    fun x hx => List.mem_append_left _ (hl.archived x hx)
  rcases enter_cases supply m h j with ⟨-, he⟩ | ⟨-, he⟩ <;> rw [he]
  · refine ⟨hrecent, hl.important.append (List.Sublist.refl [m]), harchived, ?_⟩
    intro x hx
    rcases List.mem_append.mp hx with hx | hx
    · rcases hl.covered x hx with hx | hx | hx
      · exact Or.inl (List.mem_append_left _ hx)
      · exact Or.inr (Or.inl (List.mem_append_left _ hx))
      · exact Or.inr (Or.inr hx)
    · exact Or.inl (List.mem_append_right _ hx)
  · refine ⟨hrecent, hl.important.trans (List.sublist_append_left _ _), harchived, ?_⟩
    intro x hx
    rcases List.mem_append.mp hx with hx | hx
    · rcases hl.covered x hx with hx | hx
      · exact Or.inl (List.mem_append_left _ hx)
      · exact Or.inr hx
    · exact Or.inl (List.mem_append_right _ hx)

/-- The recent layer drops its oldest message, which lives on in the important one. -/
theorem Layered.drop (hl : Layered h history) (hrecent : h.recent = oldest :: recent)
    (hkept : oldest ∈ h.important) : Layered { h with recent } history := by
  refine ⟨hl.later hrecent, hl.important, hl.archived, ?_⟩
  intro x hx
  rcases hl.covered x hx with hx | hx
  · rw [hrecent, List.mem_cons] at hx
    rcases hx with rfl | hx
    · exact Or.inr (Or.inl hkept)
    · exact Or.inl hx
  · exact Or.inr hx

/-- The recent layer archives its oldest message. -/
theorem Layered.archive (hl : Layered h history) (hrecent : h.recent = oldest :: recent) :
    Layered { h with recent, archived := h.archived ++ [oldest] } history := by
  refine ⟨hl.later hrecent, hl.important, hl.archived_snoc (hl.oldest_mem hrecent), ?_⟩
  intro x hx
  rcases hl.covered x hx with hx | hx | hx
  · rw [hrecent, List.mem_cons] at hx
    rcases hx with rfl | hx
    · exact Or.inr (Or.inr (List.mem_append_right _ (List.mem_singleton_self _)))
    · exact Or.inl hx
  · exact Or.inr (Or.inl hx)
  · exact Or.inr (Or.inr (List.mem_append_left _ hx))

/-- The important layer archives one of its messages. -/
theorem Layered.give_up (hl : Layered h history)
    (himportant : h.important = before ++ evicted :: after) :
    Layered { h with important := before ++ after, archived := h.archived ++ [evicted] }
      history := by
  have hevicted := hl.important.subset (mem_given_up himportant)
  refine ⟨hl.recent, (sublist_given_up himportant).trans hl.important,
    hl.archived_snoc hevicted, ?_⟩
  intro x hx
  rcases hl.covered x hx with hx | hx | hx
  · exact Or.inl hx
  · rw [himportant, List.mem_append, List.mem_cons] at hx
    rcases hx with hx | rfl | hx
    · exact Or.inr (Or.inl (List.mem_append_left _ hx))
    · exact Or.inr (Or.inr (List.mem_append_right _ (List.mem_singleton_self _)))
    · exact Or.inr (Or.inl (List.mem_append_right _ hx))
  · exact Or.inr (Or.inr (List.mem_append_left _ hx))

theorem Layered.boundRecent (hl : Layered h history) (hids : (ids history).Nodup)
    (j : Journal) : Layered (h.boundRecent j).1 history := by
  rcases boundRecent_cases h j with
    ⟨-, hb⟩ | ⟨-, oldest, recent, hrecent, ⟨hpromoted, hb⟩ | ⟨-, hb⟩⟩ <;> rw [hb]
  · exact hl
  · -- The id that was found is the oldest message's own, for ids are distinct.
    have hkept := (hl.mem_important hids (hl.oldest_mem hrecent)).mp hpromoted
    exact hl.drop hrecent hkept
  · exact hl.archive hrecent

theorem Layered.boundImportant (hl : Layered h history) (supply : Supply) (j : Journal) :
    Layered (h.boundImportant supply j).1 history := by
  rcases boundImportant_cases supply h j with
    ⟨-, hb⟩ | ⟨-, before, evicted, after, himportant, -, hb⟩ <;> rw [hb]
  · exact hl
  · exact hl.give_up himportant

theorem Layered.add (hl : Layered h history) (supply : Supply) (m : Message) (j : Journal)
    (hids : (ids (history ++ [m])).Nodup) :
    Layered (h.add supply m j).1 (history ++ [m]) := by
  have hentered := hl.enter supply m j
  have hbounded := hentered.boundRecent hids (h.enter supply m j).2
  exact hbounded.boundImportant supply _

end Moves

/-! ## The sizes of the layers -/

theorem enter_limits (supply : Supply) (m : Message) (h : Hierarchical) (j : Journal) :
    (h.enter supply m j).1.limits = h.limits ∧ (h.enter supply m j).1.scorer = h.scorer := by
  rcases enter_cases supply m h j with ⟨-, he⟩ | ⟨-, he⟩ <;> rw [he] <;> exact ⟨rfl, rfl⟩

theorem enter_recent (supply : Supply) (m : Message) (h : Hierarchical) (j : Journal) :
    (h.enter supply m j).1.recent = h.recent ++ [m] := by
  rcases enter_cases supply m h j with ⟨-, he⟩ | ⟨-, he⟩ <;> rw [he]

theorem enter_important_subset (supply : Supply) (m : Message) (h : Hierarchical)
    (j : Journal) : (h.enter supply m j).1.important ⊆ h.important ++ [m] := by
  rcases enter_cases supply m h j with ⟨-, he⟩ | ⟨-, he⟩ <;> rw [he]
  · exact List.Subset.refl _
  · exact List.subset_append_left _ _

theorem length_enter_important_le (supply : Supply) (m : Message) (h : Hierarchical)
    (j : Journal) : (h.enter supply m j).1.important.length ≤ h.important.length + 1 := by
  rcases enter_cases supply m h j with ⟨-, he⟩ | ⟨-, he⟩ <;> rw [he] <;> simp

theorem boundRecent_limits (h : Hierarchical) (j : Journal) :
    (h.boundRecent j).1.limits = h.limits ∧ (h.boundRecent j).1.scorer = h.scorer := by
  rcases boundRecent_cases h j with ⟨-, hb⟩ | ⟨-, _, _, -, ⟨-, hb⟩ | ⟨-, hb⟩⟩ <;> rw [hb] <;>
    exact ⟨rfl, rfl⟩

theorem boundRecent_important (h : Hierarchical) (j : Journal) :
    (h.boundRecent j).1.important = h.important := by
  rcases boundRecent_cases h j with ⟨-, hb⟩ | ⟨-, _, _, -, ⟨-, hb⟩ | ⟨-, hb⟩⟩ <;> rw [hb]

/-- One message more than the limit is one message too many, so giving up one is enough. -/
theorem length_boundRecent (h : Hierarchical) (j : Journal)
    (hsize : h.recent.length ≤ h.limits.recentLimit + 1) :
    (h.boundRecent j).1.recent.length = min h.recent.length h.limits.recentLimit := by
  rcases boundRecent_cases h j with
    ⟨hfits, hb⟩ | ⟨hover, oldest, recent, hrecent, ⟨-, hb⟩ | ⟨-, hb⟩⟩ <;> rw [hb]
  · exact (Nat.min_eq_left hfits).symm
  all_goals
    rw [hrecent, List.length_cons] at hsize hover ⊢
    show recent.length = _
    omega

theorem boundImportant_limits (supply : Supply) (h : Hierarchical) (j : Journal) :
    (h.boundImportant supply j).1.limits = h.limits ∧
      (h.boundImportant supply j).1.scorer = h.scorer := by
  rcases boundImportant_cases supply h j with ⟨-, hb⟩ | ⟨-, _, _, _, -, -, hb⟩ <;> rw [hb] <;>
    exact ⟨rfl, rfl⟩

theorem boundImportant_recent (supply : Supply) (h : Hierarchical) (j : Journal) :
    (h.boundImportant supply j).1.recent = h.recent := by
  rcases boundImportant_cases supply h j with ⟨-, hb⟩ | ⟨-, _, _, _, -, -, hb⟩ <;> rw [hb]

theorem length_boundImportant_le (supply : Supply) (h : Hierarchical) (j : Journal)
    (hsize : h.important.length ≤ h.limits.importantLimit + 1) :
    (h.boundImportant supply j).1.important.length ≤ h.limits.importantLimit := by
  rcases boundImportant_cases supply h j with
    ⟨hfits, hb⟩ | ⟨-, before, evicted, after, himportant, -, hb⟩ <;> rw [hb]
  · exact hfits
  · rw [himportant, List.length_append, List.length_cons] at hsize
    show (before ++ after).length ≤ _
    rw [List.length_append]
    omega

theorem add_limits (supply : Supply) (m : Message) (h : Hierarchical) (j : Journal) :
    (h.add supply m j).1.limits = h.limits ∧ (h.add supply m j).1.scorer = h.scorer := by
  have henter := enter_limits supply m h j
  have hrecent := boundRecent_limits (h.enter supply m j).1 (h.enter supply m j).2
  have himportant := boundImportant_limits supply
    ((h.enter supply m j).1.boundRecent (h.enter supply m j).2).1
    ((h.enter supply m j).1.boundRecent (h.enter supply m j).2).2
  exact ⟨himportant.1.trans (hrecent.1.trans henter.1),
    himportant.2.trans (hrecent.2.trans henter.2)⟩

theorem length_add_recent (supply : Supply) (m : Message) {h : Hierarchical} (j : Journal)
    (hsize : h.recent.length ≤ h.limits.recentLimit) :
    (h.add supply m j).1.recent.length = min (h.recent.length + 1) h.limits.recentLimit := by
  have hentered : (h.enter supply m j).1.recent.length = h.recent.length + 1 := by
    rw [enter_recent, List.length_append, List.length_singleton]
  have hlimit : (h.enter supply m j).1.limits.recentLimit = h.limits.recentLimit := by
    rw [(enter_limits supply m h j).1]
  unfold add
  rw [boundImportant_recent, length_boundRecent _ _ (by omega), hentered, hlimit]

theorem length_add_important_le (supply : Supply) (m : Message) {h : Hierarchical}
    (j : Journal) (hsize : h.important.length ≤ h.limits.importantLimit) :
    (h.add supply m j).1.important.length ≤ h.limits.importantLimit := by
  have hentered := length_enter_important_le supply m h j
  have hlimit : ((h.enter supply m j).1.boundRecent (h.enter supply m j).2).1.limits =
      h.limits := (boundRecent_limits _ _).1.trans (enter_limits supply m h j).1
  unfold add
  rw [← hlimit]
  apply length_boundImportant_le
  rw [boundRecent_important, hlimit]
  omega

/-! ## Courses -/

/-- **The invariant of a hierarchical memory in use.** The sizes of its layers are bounded,
and as long as ids are distinct nothing is lost. -/
structure Layering (limits : Config.Hierarchical) (scorer : Scorer)
    (c : Course Hierarchical) : Prop where
  limits_eq : c.memory.limits = limits.normalized
  scorer_eq : c.memory.scorer = scorer
  length_recent : c.memory.recent.length = min c.history.length c.memory.limits.recentLimit
  length_important : c.memory.important.length ≤ c.memory.limits.importantLimit
  layered : (ids c.history).Nodup → Layered c.memory c.history

variable {limits : Config.Hierarchical} {scorer : Scorer}

theorem ids_nodup_of_snoc {history : List Message} {m : Message}
    (hids : (ids (history ++ [m])).Nodup) : (ids history).Nodup := by
  rw [ids, List.map_append] at hids
  exact hids.of_append_left

theorem Layering.add {c : Course Hierarchical} (hl : Layering limits scorer c)
    (supply : Supply) (m : Message) :
    Layering limits scorer (c.enters [m] (c.memory.add supply m c.journal)) := by
  have hlimits := add_limits supply m c.memory c.journal
  have hfits : c.memory.recent.length ≤ c.memory.limits.recentLimit := by
    rw [hl.length_recent]
    exact Nat.min_le_right _ _
  refine ⟨hlimits.1.trans hl.limits_eq, hlimits.2.trans hl.scorer_eq, ?_, ?_, ?_⟩
  · show (c.memory.add supply m c.journal).1.recent.length =
      min (c.history ++ [m]).length (c.memory.add supply m c.journal).1.limits.recentLimit
    rw [length_add_recent supply m c.journal hfits, hlimits.1, hl.length_recent,
      List.length_append, List.length_singleton]
    omega
  · show (c.memory.add supply m c.journal).1.important.length ≤
      (c.memory.add supply m c.journal).1.limits.importantLimit
    rw [hlimits.1]
    exact length_add_important_le supply m c.journal hl.length_important
  · intro hids
    exact (hl.layered (ids_nodup_of_snoc hids)).add supply m c.journal hids

theorem layering_restarts {h : Hierarchical} (hlimits : h.limits = limits.normalized)
    (hrecent : h.recent = []) (himportant : h.important = []) (harchived : h.archived = [])
    (j : Journal) : Layering limits h.scorer (Course.restarts [] (h, j)) where
  limits_eq := hlimits
  scorer_eq := rfl
  length_recent := by simp [Course.restarts, hrecent]
  length_important := by simp [Course.restarts, himportant]
  layered := fun _ =>
    { recent := hrecent ▸ List.suffix_rfl
      important := himportant ▸ List.Sublist.refl _
      archived := by simp [Course.restarts, harchived]
      covered := by simp [Course.restarts] }

theorem layering_opened (limits : Config.Hierarchical) (scorer : Scorer) (j : Journal) :
    Layering limits scorer (Course.restarts [] (Hierarchical.opened limits scorer j)) :=
  layering_restarts (h := (Hierarchical.opened limits scorer j).1) rfl rfl rfl rfl _

theorem Layering.clear {c : Course Hierarchical} (hl : Layering limits scorer c) :
    Layering limits scorer (Course.restarts [] (c.memory.clear c.journal)) := by
  rw [← hl.scorer_eq]
  exact layering_restarts
    (h := { c.memory with recent := [], important := [], archived := [] })
    hl.limits_eq rfl rfl rfl _

/-- Every course of a hierarchical memory satisfies the invariant. -/
theorem exists_layering (supply : Supply) (limits : Config.Hierarchical)
    (helpers : Collaborators) (j : Journal) (requests : List Request) :
    ∃ c : Course Hierarchical,
      Course.run supply requests (.opened (.hierarchical limits) helpers j) =
        c.lift .hierarchical ∧
      Layering limits helpers.scorer c := by
  obtain ⟨c, hrun, -, hl⟩ := Course.hierarchical_run (P := Layering limits helpers.scorer)
    (fun _ m _ hl => hl.add supply m) (fun _ hl => hl.clear)
    (Course.sound_restarts _ _) (layering_opened limits helpers.scorer j) requests
  exact ⟨c, hrun, hl⟩

/-- **Nothing is lost and the layers are bounded.** In every course of a hierarchical memory
in which the messages since it last forgot have distinct ids, the recent layer is the last
of them, as many as its limit allows; the important layer lists some of them in their
order, within its limit; the archive has no other messages; and each of them is in some
layer. Scores may be any, and differ from call to call. -/
theorem layers_cover_history (supply : Supply) (limits : Config.Hierarchical)
    (helpers : Collaborators) (j : Journal) (requests : List Request) {c : Course Memory}
    (hrun : c = Course.run supply requests (.opened (.hierarchical limits) helpers j))
    (hids : (ids c.history).Nodup) :
    ∃ h : Hierarchical, c.memory = .hierarchical h ∧
      h.recent = c.history.rtake limits.normalized.recentLimit ∧
      h.important.Sublist c.history ∧
      h.important.length ≤ limits.normalized.importantLimit ∧
      (∀ m ∈ h.archived, m ∈ c.history) ∧
      ∀ m ∈ c.history, m ∈ h.recent ∨ m ∈ h.important ∨ m ∈ h.archived := by
  obtain ⟨d, hd, hl⟩ := exists_layering supply limits helpers j requests
  have hlift : c = d.lift .hierarchical := hrun.trans hd
  subst hlift
  obtain ⟨hrecent, himportant, harchived, hcovered⟩ := hl.layered hids
  refine ⟨d.memory, rfl, ?_, himportant, ?_, harchived, hcovered⟩
  · -- A suffix is given by its length.
    rw [List.suffix_iff_eq_drop.mp hrecent, hl.length_recent, hl.limits_eq]
    have hcut : d.history.length - min d.history.length limits.normalized.recentLimit =
        d.history.length - limits.normalized.recentLimit := by omega
    rw [hcut]
    rfl
  · rw [← hl.limits_eq]
    exact hl.length_important

/-- A message of which only the id and the importance matter. -/
def ranked (id : String) (x : Single) : Message :=
  { Message.make id .epoch .user "" with importance := some x }

/-- Here a message leaves the important layer before it leaves the recent one. -/
theorem layers_cover_early_loss :
    let c := Course.run ⟨fun _ => .epoch, fun _ => ""⟩
      [.add (ranked "z" 1), .clear, .addAll [ranked "a" 1, ranked "b" 1, ranked "c" 0]]
      (.opened (.hierarchical ⟨2, 1⟩) .builtIn .empty)
    (ids c.history).Nodup ∧ ids c.history = ["a", "b", "c"] ∧
      ∃ h : Hierarchical, c.memory = .hierarchical h ∧
        h.recent = c.history.rtake 2 ∧ h.important.Sublist c.history ∧
        h.important.length ≤ 1 ∧ (∀ m ∈ h.archived, m ∈ c.history) ∧
        ∀ m ∈ c.history, m ∈ h.recent ∨ m ∈ h.important ∨ m ∈ h.archived :=
  ⟨by decide, by decide,
    layers_cover_history _ ⟨2, 1⟩ .builtIn .empty _ rfl (by decide)⟩

end Memory.Hierarchical

end Recall
