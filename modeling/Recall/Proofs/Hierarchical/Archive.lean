import Recall.Proofs.Hierarchical.Layers
import Mathlib.Data.List.Duplicate

/-!
# When the archive is cold

An archive is *cold* if no message is in it twice and none of its messages is shown. The
layers do not keep it cold by themselves: the recent layer looks whether the important
one has the message that it gives up, but the important layer does not look back. A
message that it gives up too early, while the recent layer still has it, is archived and
shown at once, and archived again when it leaves the recent layer.

This file shows that nothing else can go wrong. The archive is cold exactly if every
message that the important layer gave up had left the recent layer before, which is seen
in the events: the one is reported as `importantArchived`, the other as
`promotedDropped`. A message that is given up too early stays hot until the memory
forgets everything (`Hot`), so the condition is exact in every state and not only at the
time of the slip.
-/

namespace Recall.Memory.Hierarchical

/-- The archive has no message twice and none that is in another layer. -/
def Cold (h : Hierarchical) : Prop :=
  h.archived.Nodup ∧ ∀ m ∈ h.archived, m ∉ h.recent ∧ m ∉ h.important

/-- The message is archived twice, or archived while it is recent. -/
def Hot (h : Hierarchical) (m : Message) : Prop :=
  h.archived.Duplicate m ∨ (m ∈ h.archived ∧ m ∈ h.recent ∧ m ∉ h.important)

/-- Every message that the important layer gave up was dropped from the recent one. -/
def LeftRecent (reports : List Event) : Prop :=
  ∀ id, .importantArchived id ∈ reports → .promotedDropped id ∈ reports

variable {h : Hierarchical} {history : List Message} {reports : List Event}
  {m x oldest evicted : Message} {recent before after : List Message}

/-! ## A cold archive stays cold until a message is given up early -/

theorem Layered.oldest_notMem (hl : Layered h history) (hids : (ids history).Nodup)
    (hrecent : h.recent = oldest :: recent) : oldest ∉ recent := by
  have hnodup := (nodup_of_ids hids).sublist hl.recent.sublist
  rw [hrecent] at hnodup
  exact (List.nodup_cons.mp hnodup).1

/-- What the important layer gives up is not in it any more. -/
theorem Layered.evicted_notMem (hl : Layered h history) (hids : (ids history).Nodup)
    (himportant : h.important = before ++ evicted :: after) : evicted ∉ before ++ after := by
  have hnodup := (nodup_of_ids hids).sublist hl.important
  rw [himportant] at hnodup
  exact (List.nodup_middle.mp hnodup).notMem

/-- A cold archive has nothing of another layer, so it can take in a message of one. -/
theorem Cold.nodup_snoc (hc : h.Cold) (hm : m ∈ h.recent ∨ m ∈ h.important) :
    (h.archived ++ [m]).Nodup := by
  have hnew : m ∉ h.archived := by
    intro hma
    rcases hm with hm | hm
    · exact (hc.2 m hma).1 hm
    · exact (hc.2 m hma).2 hm
  rw [← List.concat_eq_append]
  exact hc.1.concat hnew

theorem Cold.enter (hc : h.Cold) (hl : Layered h history) (hm : m ∉ history)
    (supply : Supply) (j : Journal) : (h.enter supply m j).1.Cold := by
  have hne : ∀ x ∈ h.archived, x ≠ m := by
    rintro x hx rfl
    exact hm (hl.archived x hx)
  rcases enter_cases supply m h j with ⟨-, he⟩ | ⟨-, he⟩ <;> rw [he]
  · refine ⟨hc.1, ?_⟩
    intro x hx
    simp [hc.2 x hx, hne x hx]
  · refine ⟨hc.1, ?_⟩
    intro x hx
    simp [hc.2 x hx, hne x hx]

theorem Cold.drop (hc : h.Cold) (hrecent : h.recent = oldest :: recent) :
    Cold { h with recent } := by
  refine ⟨hc.1, ?_⟩
  intro x hx
  refine ⟨fun hxr => (hc.2 x hx).1 ?_, (hc.2 x hx).2⟩
  rw [hrecent]
  exact List.mem_cons_of_mem _ hxr

theorem Cold.archive (hc : h.Cold) (hl : Layered h history) (hids : (ids history).Nodup)
    (hrecent : h.recent = oldest :: recent) (hplain : oldest ∉ h.important) :
    Cold { h with recent, archived := h.archived ++ [oldest] } := by
  have holdest : oldest ∈ h.recent := by
    rw [hrecent]
    exact List.mem_cons_self
  refine ⟨hc.nodup_snoc (Or.inl holdest), ?_⟩
  intro x hx
  rcases List.mem_append.mp hx with hx | hx
  · exact (hc.drop hrecent).2 x hx
  · rw [List.mem_singleton.mp hx]
    exact ⟨hl.oldest_notMem hids hrecent, hplain⟩

theorem Cold.give_up (hc : h.Cold) (hl : Layered h history) (hids : (ids history).Nodup)
    (himportant : h.important = before ++ evicted :: after) (hleft : evicted ∉ h.recent) :
    Cold { h with important := before ++ after, archived := h.archived ++ [evicted] } := by
  refine ⟨hc.nodup_snoc (Or.inr (mem_given_up himportant)), ?_⟩
  intro x hx
  rcases List.mem_append.mp hx with hx | hx
  · refine ⟨(hc.2 x hx).1, fun hxi => (hc.2 x hx).2 ?_⟩
    exact (sublist_given_up himportant).subset hxi
  · rw [List.mem_singleton.mp hx]
    exact ⟨hleft, hl.evicted_notMem hids himportant⟩

/-! ## A hot message stays hot -/

theorem duplicate_append_left {l : List Message} (hx : l.Duplicate x) (more : List Message) :
    (l ++ more).Duplicate x := hx.mono_sublist (List.sublist_append_left l more)

theorem duplicate_snoc {l : List Message} (hx : x ∈ l) : (l ++ [x]).Duplicate x := by
  rw [List.duplicate_iff_sublist]
  exact (List.singleton_sublist.mpr hx).append (List.Sublist.refl [x])

theorem Hot.enter (hx : h.Hot x) (hl : Layered h history) (hm : m ∉ history)
    (supply : Supply) (j : Journal) : (h.enter supply m j).1.Hot x := by
  rcases hx with hx | ⟨hxa, hxr, hxi⟩
  · rcases enter_cases supply m h j with ⟨-, he⟩ | ⟨-, he⟩ <;> rw [he] <;> exact Or.inl hx
  · have hne : x ≠ m := by
      rintro rfl
      exact hm (hl.archived x hxa)
    rcases enter_cases supply m h j with ⟨-, he⟩ | ⟨-, he⟩ <;> rw [he]
    · exact Or.inr ⟨hxa, List.mem_append_left _ hxr, by simp [hxi, hne]⟩
    · exact Or.inr ⟨hxa, List.mem_append_left _ hxr, hxi⟩

theorem Hot.drop (hx : h.Hot x) (hrecent : h.recent = oldest :: recent)
    (hkept : oldest ∈ h.important) : Hot { h with recent } x := by
  rcases hx with hx | ⟨hxa, hxr, hxi⟩
  · exact Or.inl hx
  · -- The message that is dropped is important, and a hot one is not.
    rw [hrecent, List.mem_cons] at hxr
    rcases hxr with rfl | hxr
    · exact absurd hkept hxi
    · exact Or.inr ⟨hxa, hxr, hxi⟩

theorem Hot.archive (hx : h.Hot x) (hrecent : h.recent = oldest :: recent) :
    Hot { h with recent, archived := h.archived ++ [oldest] } x := by
  rcases hx with hx | ⟨hxa, hxr, hxi⟩
  · exact Or.inl (duplicate_append_left hx _)
  · rw [hrecent, List.mem_cons] at hxr
    rcases hxr with rfl | hxr
    · exact Or.inl (duplicate_snoc hxa)
    · exact Or.inr ⟨List.mem_append_left _ hxa, hxr, hxi⟩

theorem Hot.give_up (hx : h.Hot x) (himportant : h.important = before ++ evicted :: after) :
    Hot { h with important := before ++ after, archived := h.archived ++ [evicted] } x := by
  rcases hx with hx | ⟨hxa, hxr, hxi⟩
  · exact Or.inl (duplicate_append_left hx _)
  · refine Or.inr ⟨List.mem_append_left _ hxa, hxr, ?_⟩
    intro hx'
    exact hxi ((sublist_given_up himportant).subset hx')

/-- A message that is given up while it is recent becomes hot. -/
theorem hot_give_up (hl : Layered h history) (hids : (ids history).Nodup)
    (himportant : h.important = before ++ evicted :: after) (hrecent : evicted ∈ h.recent) :
    Hot { h with important := before ++ after, archived := h.archived ++ [evicted] }
      evicted :=
  Or.inr ⟨List.mem_append_right _ (List.mem_singleton_self _), hrecent,
    hl.evicted_notMem hids himportant⟩

theorem Hot.not_cold (hx : h.Hot x) : ¬h.Cold := by
  rintro ⟨hnodup, hc⟩
  rcases hx with hx | ⟨hxa, hxr, -⟩
  · exact hx.not_nodup hnodup
  · exact (hc x hxa).1 hxr

/-- Being cold is being archived once and not being shown. -/
theorem cold_iff (hl : Layered h history) (hids : (ids history).Nodup) :
    h.Cold ↔ h.archived.Nodup ∧ ∀ m ∈ h.archived, m ∉ h.context := by
  have hshown : ∀ m ∈ h.archived, m ∉ h.context ↔ m ∉ h.recent ∧ m ∉ h.important := by
    intro m hm
    have himportant := hl.mem_important hids (hl.archived m hm)
    simp only [context, List.mem_append, List.mem_filter, Bool.not_eq_true', ← himportant,
      ← Bool.not_eq_true]
    tauto
  constructor
  · rintro ⟨hnodup, hc⟩
    exact ⟨hnodup, fun m hm => (hshown m hm).mpr (hc m hm)⟩
  · rintro ⟨hnodup, hc⟩
    exact ⟨hnodup, fun m hm => (hshown m hm).mp (hc m hm)⟩

/-! ## The layers and the reports -/

theorem judge_events (supply : Supply) (h : Hierarchical) (m : Message) (j : Journal) :
    (h.judge supply m j).2.events = j.events := by
  unfold judge
  split <;> rfl

theorem scores_events (supply : Supply) (scorer : Scorer) (messages : List Message)
    (j : Journal) : (scores supply scorer messages j).2.events = j.events := by
  induction messages generalizing j with
  | nil => rfl
  | cons m messages ih => exact ih _

/-- **What the reports say about the layers.** A message was reported dropped only if it is
no longer recent, and reported given up only if it is no longer important; an important
message that is not recent was reported dropped. As far as every message given up was
dropped, the archive is cold, and else there is a hot message. -/
structure Traced (h : Hierarchical) (history : List Message) (reports : List Event) :
    Prop where
  recent : ∀ m ∈ h.recent, .promotedDropped m.id ∉ reports
  important : ∀ m ∈ h.important, .importantArchived m.id ∉ reports
  left : ∀ m ∈ h.important, m ∈ h.recent ∨ .promotedDropped m.id ∈ reports
  known : ∀ id, .promotedDropped id ∈ reports ∨ .importantArchived id ∈ reports →
    id ∈ ids history
  cold : LeftRecent reports → h.Cold
  hot : ¬LeftRecent reports → ∃ x, h.Hot x

/-- Reports of other events say nothing about the layers. -/
theorem Traced.report (ht : Traced h history reports) {e : Event}
    (hdropped : ∀ id, .promotedDropped id ≠ e) (hgiven : ∀ id, .importantArchived id ≠ e) :
    Traced h history (reports ++ [e]) := by
  have hdropped' : ∀ id, .promotedDropped id ∈ reports ++ [e] ↔
      .promotedDropped id ∈ reports := by
    intro id
    simp [hdropped id]
  have hgiven' : ∀ id, .importantArchived id ∈ reports ++ [e] ↔
      .importantArchived id ∈ reports := by
    intro id
    simp [hgiven id]
  have hleft : LeftRecent (reports ++ [e]) ↔ LeftRecent reports := by
    simp only [LeftRecent, hdropped', hgiven']
  obtain ⟨hrecent, himportant, hgone, hknown, hcold, hhot⟩ := ht
  constructor
  · simpa only [hdropped'] using hrecent
  · simpa only [hgiven'] using himportant
  · simpa only [hdropped'] using hgone
  · simpa only [hdropped', hgiven'] using hknown
  · rwa [hleft]
  · rwa [hleft]

/-- A message whose id is new enters. It is in no report, so the reports stay true of the
grown layers. -/
theorem Traced.grow (ht : Traced h history reports) (hl : Layered h history)
    (hnew : m.id ∉ ids history) (supply : Supply) (j : Journal) :
    Traced (h.enter supply m j).1 (history ++ [m]) reports := by
  have hm : m ∉ history := fun hm => hnew (List.mem_map_of_mem hm)
  -- Reports are about messages of the history only.
  have hdropped : .promotedDropped m.id ∉ reports := fun h => hnew (ht.known _ (Or.inl h))
  have hgiven : .importantArchived m.id ∉ reports := fun h => hnew (ht.known _ (Or.inr h))
  have hsub := enter_important_subset supply m h j
  constructor
  · intro x hx
    rw [enter_recent, List.mem_append, List.mem_singleton] at hx
    rcases hx with hx | rfl
    · exact ht.recent x hx
    · exact hdropped
  · intro x hx
    rcases List.mem_append.mp (hsub hx) with hx | hx
    · exact ht.important x hx
    · rwa [List.mem_singleton.mp hx]
  · intro x hx
    rw [enter_recent]
    rcases List.mem_append.mp (hsub hx) with hx | hx
    · exact (ht.left x hx).imp_left (List.mem_append_left _)
    · exact Or.inl (List.mem_append_right _ hx)
  · intro id hid
    rw [ids, List.map_append]
    exact List.mem_append_left _ (ht.known id hid)
  · intro hr
    exact (ht.cold hr).enter hl hm supply j
  · intro hr
    obtain ⟨x, hx⟩ := ht.hot hr
    exact ⟨x, hx.enter hl hm supply j⟩

theorem Traced.enter (ht : Traced h history reports) (hl : Layered h history)
    (supply : Supply) (hids : (ids (history ++ [m])).Nodup) (j : Journal) :
    ∃ made, (h.enter supply m j).2.events = j.events ++ made ∧
      Traced (h.enter supply m j).1 (history ++ [m]) (reports ++ made) := by
  have hnew : m.id ∉ ids history := by
    rw [ids, List.map_append, List.nodup_append] at hids
    exact fun hm => hids.2.2 _ hm _ (by simp) rfl
  have hgrown := ht.grow hl hnew supply j
  rcases enter_cases supply m h j with ⟨-, he⟩ | ⟨-, he⟩
  · refine ⟨[.promoted m.id], ?_, hgrown.report (by simp) (by simp)⟩
    rw [he]
    show (h.judge supply m j).2.events ++ [_] = _
    rw [judge_events]
  · refine ⟨[], ?_, by rwa [List.append_nil]⟩
    rw [he, List.append_nil]
    exact judge_events supply h m j

/-- The recent layer drops its oldest message, which is important. -/
theorem Traced.drop (ht : Traced h history reports) (hl : Layered h history)
    (hids : (ids history).Nodup) (hrecent : h.recent = oldest :: recent)
    (hkept : oldest ∈ h.important) :
    Traced { h with recent } history (reports ++ [.promotedDropped oldest.id]) := by
  have holdest := hl.oldest_mem hrecent
  have hgiven : ∀ id, .importantArchived id ∈ reports ++ [.promotedDropped oldest.id] ↔
      .importantArchived id ∈ reports := by simp
  have hdropped : ∀ id, .promotedDropped id ∈ reports ++ [.promotedDropped oldest.id] ↔
      .promotedDropped id ∈ reports ∨ id = oldest.id := by simp
  constructor
  · intro x hx hid
    rcases (hdropped x.id).mp hid with hid | hid
    · apply ht.recent x _ hid
      rw [hrecent]
      exact List.mem_cons_of_mem _ hx
    · have hsame := eq_of_id_eq hids ((hl.later hrecent).subset hx) holdest hid
      exact hl.oldest_notMem hids hrecent (hsame ▸ hx)
  · intro x hx
    rw [hgiven]
    exact ht.important x hx
  · intro x hx
    rw [hdropped]
    rcases ht.left x hx with hxr | hxd
    · rw [hrecent, List.mem_cons] at hxr
      rcases hxr with rfl | hxr
      · exact Or.inr (Or.inr rfl)
      · exact Or.inl hxr
    · exact Or.inr (Or.inl hxd)
  · intro id hid
    rw [hgiven, hdropped] at hid
    rcases hid with (hid | rfl) | hid
    · exact ht.known id (Or.inl hid)
    · exact List.mem_map_of_mem holdest
    · exact ht.known id (Or.inr hid)
  · -- The message that is dropped now is important, so it was not given up before.
    intro hr
    apply Cold.drop _ hrecent
    apply ht.cold
    intro id hid
    rcases (hdropped id).mp (hr id ((hgiven id).mpr hid)) with hid' | rfl
    · exact hid'
    · exact absurd hid (ht.important oldest hkept)
  · intro hr
    obtain ⟨x, hx⟩ := ht.hot fun hr' => hr fun id hid =>
      (hdropped id).mpr (Or.inl (hr' id ((hgiven id).mp hid)))
    exact ⟨x, hx.drop hrecent hkept⟩

/-- The recent layer archives its oldest message, which is not important. -/
theorem Traced.archive (ht : Traced h history reports) (hl : Layered h history)
    (hids : (ids history).Nodup) (hrecent : h.recent = oldest :: recent)
    (hplain : oldest ∉ h.important) :
    Traced { h with recent, archived := h.archived ++ [oldest] } history reports := by
  constructor
  · intro x hx
    apply ht.recent x
    rw [hrecent]
    exact List.mem_cons_of_mem _ hx
  · exact ht.important
  · intro x hx
    rcases ht.left x hx with hxr | hxd
    · rw [hrecent, List.mem_cons] at hxr
      rcases hxr with rfl | hxr
      · exact absurd hx hplain
      · exact Or.inl hxr
    · exact Or.inr hxd
  · exact ht.known
  · intro hr
    exact (ht.cold hr).archive hl hids hrecent hplain
  · intro hr
    obtain ⟨x, hx⟩ := ht.hot hr
    exact ⟨x, hx.archive hrecent⟩

/-- The important layer archives one of its messages. -/
theorem Traced.give_up (ht : Traced h history reports) (hl : Layered h history)
    (hids : (ids history).Nodup) (himportant : h.important = before ++ evicted :: after) :
    Traced { h with important := before ++ after, archived := h.archived ++ [evicted] }
      history (reports ++ [.importantArchived evicted.id]) := by
  have hevicted := mem_given_up himportant
  have hsub := (sublist_given_up himportant).subset
  have hdropped : ∀ id, .promotedDropped id ∈ reports ++ [.importantArchived evicted.id] ↔
      .promotedDropped id ∈ reports := by simp
  have hgiven : ∀ id, .importantArchived id ∈ reports ++ [.importantArchived evicted.id] ↔
      .importantArchived id ∈ reports ∨ id = evicted.id := by simp
  constructor
  · intro x hx
    rw [hdropped]
    exact ht.recent x hx
  · intro x hx hid
    rcases (hgiven x.id).mp hid with hid | hid
    · exact ht.important x (hsub hx) hid
    · have hsame := eq_of_id_eq hids (hl.important.subset (hsub hx))
        (hl.important.subset hevicted) hid
      exact hl.evicted_notMem hids himportant (hsame ▸ hx)
  · intro x hx
    rw [hdropped]
    exact ht.left x (hsub hx)
  · intro id hid
    rw [hdropped, hgiven] at hid
    rcases hid with hid | hid | rfl
    · exact ht.known id (Or.inl hid)
    · exact ht.known id (Or.inr hid)
    · exact List.mem_map_of_mem (hl.important.subset hevicted)
  · intro hr
    have hold : LeftRecent reports := fun id hid =>
      (hdropped id).mp (hr id ((hgiven id).mpr (Or.inl hid)))
    have hgone := (hdropped evicted.id).mp (hr evicted.id ((hgiven _).mpr (Or.inr rfl)))
    exact (ht.cold hold).give_up hl hids himportant fun hxr => ht.recent evicted hxr hgone
  · intro hr
    by_cases hold : LeftRecent reports
    · -- The slip is this one: nothing was given up early before.
      rcases ht.left evicted hevicted with hxr | hgone
      · exact ⟨evicted, hot_give_up hl hids himportant hxr⟩
      · refine absurd (fun id hid => (hdropped id).mpr ?_) hr
        rcases (hgiven id).mp hid with hid | rfl
        · exact hold id hid
        · exact hgone
    · obtain ⟨x, hx⟩ := ht.hot hold
      exact ⟨x, hx.give_up himportant⟩

theorem Traced.boundRecent (ht : Traced h history reports) (hl : Layered h history)
    (hids : (ids history).Nodup) (j : Journal) :
    ∃ made, (h.boundRecent j).2.events = j.events ++ made ∧
      Traced (h.boundRecent j).1 history (reports ++ made) := by
  rcases boundRecent_cases h j with
    ⟨-, hb⟩ | ⟨-, oldest, recent, hrecent, ⟨hpromoted, hb⟩ | ⟨hplain, hb⟩⟩ <;> rw [hb]
  · exact ⟨[], (List.append_nil _).symm, by rwa [List.append_nil]⟩
  · have hkept := (hl.mem_important hids (hl.oldest_mem hrecent)).mp hpromoted
    exact ⟨[.promotedDropped oldest.id], rfl, ht.drop hl hids hrecent hkept⟩
  · have hnone := hl.notMem_important hids (hl.oldest_mem hrecent) hplain
    have harchived := ht.archive hl hids hrecent hnone
    exact ⟨[.recentArchived oldest.id], rfl, harchived.report (by simp) (by simp)⟩

theorem Traced.boundImportant (ht : Traced h history reports) (hl : Layered h history)
    (hids : (ids history).Nodup) (supply : Supply) (j : Journal) :
    ∃ made, (h.boundImportant supply j).2.events = j.events ++ made ∧
      Traced (h.boundImportant supply j).1 history (reports ++ made) := by
  rcases boundImportant_cases supply h j with
    ⟨-, hb⟩ | ⟨-, before, evicted, after, himportant, -, hb⟩ <;> rw [hb]
  · exact ⟨[], (List.append_nil _).symm, by rwa [List.append_nil]⟩
  · refine ⟨[.importantArchived evicted.id], ?_, ht.give_up hl hids himportant⟩
    show (scores supply h.scorer h.important j).2.events ++ [_] = _
    rw [scores_events]

theorem Traced.add (ht : Traced h history reports) (hl : Layered h history)
    (supply : Supply) (hids : (ids (history ++ [m])).Nodup) (j : Journal) :
    ∃ made, (h.add supply m j).2.events = j.events ++ made ∧
      Traced (h.add supply m j).1 (history ++ [m]) (reports ++ made) := by
  obtain ⟨made₁, hmade₁, ht₁⟩ := ht.enter hl supply hids j
  have hl₁ := hl.enter supply m j
  obtain ⟨made₂, hmade₂, ht₂⟩ := ht₁.boundRecent hl₁ hids (h.enter supply m j).2
  have hl₂ := hl₁.boundRecent hids (h.enter supply m j).2
  obtain ⟨made₃, hmade₃, ht₃⟩ := ht₂.boundImportant hl₂ hids supply _
  refine ⟨made₁ ++ made₂ ++ made₃, ?_, ?_⟩
  · rw [List.append_assoc, ← List.append_assoc, ← hmade₁, ← List.append_assoc, ← hmade₂]
    exact hmade₃
  · rw [← List.append_assoc, ← List.append_assoc]
    exact ht₃

/-! ## Courses -/

/-- **The invariant of an archive in use.** As long as ids are distinct, the reports tell
about the layers. -/
structure Tracing (limits : Config.Hierarchical) (scorer : Scorer)
    (c : Course Hierarchical) : Prop where
  layering : Layering limits scorer c
  traced : (ids c.history).Nodup → Traced c.memory c.history c.reports

variable {limits : Config.Hierarchical} {scorer : Scorer}

theorem Tracing.add {c : Course Hierarchical} (ht : Tracing limits scorer c) (hs : c.Sound)
    (supply : Supply) (m : Message) :
    Tracing limits scorer (c.enters [m] (c.memory.add supply m c.journal)) := by
  refine ⟨ht.layering.add supply m, ?_⟩
  intro hids
  have hold := ids_nodup_of_snoc hids
  obtain ⟨made, hmade, ht⟩ :=
    (ht.traced hold).add (ht.layering.layered hold) supply hids c.journal
  rw [Course.reports_enters hs _ hmade]
  exact ht

theorem tracing_restarts {h : Hierarchical} {j : Journal}
    (hl : Layering limits scorer (Course.restarts [] (h, j))) (hrecent : h.recent = [])
    (himportant : h.important = []) (harchived : h.archived = []) :
    Tracing limits scorer (Course.restarts [] (h, j)) := by
  refine ⟨hl, ?_⟩
  intro hids
  rw [Course.reports_restarts]
  show Traced h [] []
  constructor
  · simp [hrecent]
  · simp [himportant]
  · simp [himportant]
  · simp
  · simp [Cold, harchived]
  · intro hr
    exact absurd (fun id hid => absurd hid (by simp)) hr

/-- Every course of a hierarchical memory satisfies the invariant. -/
theorem exists_tracing (supply : Supply) (limits : Config.Hierarchical)
    (helpers : Collaborators) (j : Journal) (requests : List Request) :
    ∃ c : Course Hierarchical,
      Course.run supply requests (.opened (.hierarchical limits) helpers j) =
        c.lift .hierarchical ∧
      Tracing limits helpers.scorer c := by
  have hopened := layering_opened limits helpers.scorer j
  obtain ⟨c, hrun, -, ht⟩ := Course.hierarchical_run (P := Tracing limits helpers.scorer)
    (fun _ m hs ht => ht.add hs supply m)
    (fun _ ht => tracing_restarts ht.layering.clear rfl rfl rfl)
    (Course.sound_restarts _ _) (tracing_restarts hopened rfl rfl rfl) requests
  exact ⟨c, hrun, ht⟩

/-- **When the archive is cold.** In every course of a hierarchical memory in which the
messages since it last forgot have distinct ids, the archive has no message twice and none
that is shown exactly if every message that was reported archived from the important layer
was also reported dropped from the recent one, that is, if none was given up while it was
recent. -/
theorem archive_cold_iff_left_recent (supply : Supply) (limits : Config.Hierarchical)
    (helpers : Collaborators) (j : Journal) (requests : List Request) {c : Course Memory}
    (hrun : c = Course.run supply requests (.opened (.hierarchical limits) helpers j))
    (hids : (ids c.history).Nodup) :
    ∃ h : Hierarchical, c.memory = .hierarchical h ∧
      ((h.archived.Nodup ∧ ∀ m ∈ h.archived, m ∉ h.context) ↔
        ∀ id, .importantArchived id ∈ c.reports → .promotedDropped id ∈ c.reports) := by
  obtain ⟨d, hd, hl, htraced⟩ := exists_tracing supply limits helpers j requests
  have hlift : c = d.lift .hierarchical := hrun.trans hd
  subst hlift
  have ht := htraced hids
  refine ⟨d.memory, rfl, ?_⟩
  rw [← cold_iff (hl.layered hids) hids]
  constructor
  · intro hcold
    by_contra hr
    obtain ⟨x, hx⟩ := ht.hot hr
    exact hx.not_cold hcold
  · exact ht.cold

/-- Here the important layer gives up a message that has left the recent one. -/
theorem archive_cold_after_leaving :
    let c := Course.run ⟨fun _ => .epoch, fun _ => ""⟩
      [.addAll [ranked "a" 1, ranked "b" 0, ranked "c" 1]]
      (.opened (.hierarchical ⟨1, 1⟩) .builtIn .empty)
    (ids c.history).Nodup ∧ .importantArchived "a" ∈ c.reports ∧
      ∃ h : Hierarchical, c.memory = .hierarchical h ∧
        h.archived.Nodup ∧ ∀ m ∈ h.archived, m ∉ h.context := by
  intro c
  have hids : (ids c.history).Nodup := by decide
  have hreports : c.reports = [.promoted "a", .promotedDropped "a", .promoted "c",
      .recentArchived "b", .importantArchived "a"] := by decide
  obtain ⟨h, hmemory, hcold⟩ :=
    archive_cold_iff_left_recent _ ⟨1, 1⟩ .builtIn .empty _ (c := c) rfl hids
  refine ⟨hids, by decide, h, hmemory, hcold.mpr ?_⟩
  rw [hreports]
  intro id hid
  simp only [List.mem_cons, Event.importantArchived.injEq, reduceCtorEq, List.not_mem_nil,
    or_false, false_or] at hid
  rw [hid]
  simp

/-- **The archive is not always cold.** With room for two recent messages and an important
one, the first of two important messages is given up while it is recent. It is archived
then, and archived again when the third message comes. -/
theorem given_up_early_archived_twice :
    let c := Course.run ⟨fun _ => .epoch, fun _ => ""⟩
      [.addAll [ranked "a" 1, ranked "b" 1, ranked "c" 0]]
      (.opened (.hierarchical ⟨2, 1⟩) .builtIn .empty)
    (ids c.history).Nodup ∧ ∃ h : Hierarchical, c.memory = .hierarchical h ∧
      ids h.archived = ["a", "a"] ∧
      ¬(h.archived.Nodup ∧ ∀ m ∈ h.archived, m ∉ h.context) := by
  intro c
  refine ⟨by decide, _, rfl, by decide, ?_⟩
  rintro ⟨hnodup, -⟩
  exact (List.nodup_cons.mp hnodup).1 List.mem_cons_self

end Recall.Memory.Hierarchical
