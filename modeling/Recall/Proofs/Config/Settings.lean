import Recall.Config.Json
import Recall.Proofs.Json.Record

/-!
# The limits that members set

The members of an object set limits in the order of the text. Where the keys differ and no
two limits get in each other's way (`Independent`), the order makes no difference: the
outcome is that of setting each limit in turn, from the member of its name if there is one
(`setMembers_eq_ok_iff`).

What every limit leaves true while it is set from a value that was read is true in the end,
from members and from items alike (`ofContents_invariant`).
-/

namespace Recall.Config.Setting

open Json (Found Mismatch)

variable {σ : Type}

/-- Sets a limit from the value that was found for it, if there is one. -/
def setFound (setting : Setting σ) (c : σ) : Option Json → Except Mismatch σ
  | none => .ok c
  | some value => setting.set c value.head

/-- Sets limits in their own order, each from the member of its name. -/
def setEach (members : List (String × Json)) : List (Setting σ) → σ → Except Mismatch σ
  | [], c => .ok c
  | setting :: settings, c => do
    let c ← setting.setFound c (Keyed.find? setting.name members)
    setEach members settings c

theorem setEach_congr {settings : List (Setting σ)} {members others : List (String × Json)}
    (h : ∀ setting ∈ settings,
      Keyed.find? setting.name members = Keyed.find? setting.name others) (c : σ) :
    setEach members settings c = setEach others settings c := by
  induction settings generalizing c with
  | nil => rfl
  | cons setting settings ih =>
      have hrest := ih fun s hs => h s (List.mem_cons_of_mem _ hs)
      simp only [setEach, h setting List.mem_cons_self, hrest]

theorem setEach_nil (settings : List (Setting σ)) (c : σ) : setEach [] settings c = .ok c := by
  induction settings with
  | nil => rfl
  | cons setting settings ih => simpa [setEach, Keyed.find?, setFound] using ih

/-! ## The order of the members -/

/-- It makes no difference which of two limits is set first. -/
def Independent (s t : Setting σ) : Prop :=
  ∀ c x y c', (s.set c x >>= fun c => t.set c y) = .ok c' ↔
    (t.set c y >>= fun c => s.set c x) = .ok c'

/-- Limits that can be set in any order, from members of which one names the strategy. -/
structure Separate (settings : List (Setting σ)) : Prop where
  names_nodup : (settings.map (·.name)).Nodup
  strategyKey_notMem : strategyKey ∉ settings.map (·.name)
  independent : settings.Pairwise Independent

variable {settings : List (Setting σ)}

/-- A member may be taken out and its limit be set before all others. -/
theorem setEach_cons_eq_ok_iff (hnames : (settings.map (·.name)).Nodup)
    (hind : settings.Pairwise Independent) {setting : Setting σ} (hsetting : setting ∈ settings)
    {members : List (String × Json)} (hkey : setting.name ∉ Keyed.keys members) (value : Json)
    {c c' : σ} :
    setEach ((setting.name, value) :: members) settings c = .ok c' ↔
      (setting.set c value.head >>= setEach members settings) = .ok c' := by
  induction settings generalizing c with
  | nil => cases hsetting
  | cons front settings ih =>
      obtain ⟨hfront, hnames⟩ := List.nodup_cons.mp hnames
      obtain ⟨hindFront, hind⟩ := List.pairwise_cons.mp hind
      rcases List.mem_cons.mp hsetting with rfl | hsetting
      · -- The limit is the first one, and the others do not look at the member.
        have hnone : Keyed.find? setting.name members = none := Keyed.find?_eq_none_iff.mpr hkey
        have hrest : setEach ((setting.name, value) :: members) settings =
            setEach members settings := by
          refine funext (setEach_congr fun s hs => ?_)
          rw [Keyed.find?, if_neg]
          intro hname
          exact hfront (List.mem_map.mpr ⟨s, hs, hname⟩)
        simp only [setEach, hnone, hrest, Keyed.find?, if_true, setFound, ok_bind]
      · have hne : front.name ≠ setting.name :=
          fun heq => hfront (List.mem_map.mpr ⟨setting, hsetting, heq.symm⟩)
        have hswap : ∀ next, (front.setFound c (Keyed.find? front.name members) >>= fun c =>
              setting.set c value.head) = .ok next ↔
            (setting.set c value.head >>= fun c =>
              front.setFound c (Keyed.find? front.name members)) = .ok next := by
          intro next
          cases Keyed.find? front.name members with
          | none => simp [setFound, bind_eq_ok_iff]
          | some other => exact hindFront setting hsetting c _ _ next
        simp only [setEach, Keyed.find?, if_neg hne]
        calc (front.setFound c (Keyed.find? front.name members) >>=
                setEach ((setting.name, value) :: members) settings) = .ok c'
            ↔ ∃ next, (front.setFound c (Keyed.find? front.name members) >>= fun c =>
                setting.set c value.head) = .ok next ∧ setEach members settings next = .ok c' := by
              simp only [bind_eq_ok_iff, ih hnames hind hsetting]
              constructor
              · rintro ⟨a, ha, b, hb, h⟩
                exact ⟨b, ⟨a, ha, hb⟩, h⟩
              · rintro ⟨b, ⟨a, ha, hb⟩, h⟩
                exact ⟨a, ha, b, hb, h⟩
          _ ↔ ∃ next, (setting.set c value.head >>= fun c =>
                front.setFound c (Keyed.find? front.name members)) = .ok next ∧
                  setEach members settings next = .ok c' := by simp only [hswap]
          _ ↔ (setting.set c value.head >>= fun c =>
                front.setFound c (Keyed.find? front.name members) >>=
                  setEach members settings) = .ok c' := by
              simp only [bind_eq_ok_iff]
              constructor
              · rintro ⟨b, ⟨a, ha, hb⟩, h⟩
                exact ⟨a, ha, b, hb, h⟩
              · rintro ⟨a, ha, b, hb, h⟩
                exact ⟨b, ⟨a, ha, hb⟩, h⟩

/-- **The order of the members makes no difference.** -/
theorem setMembers_eq_ok_iff (hsep : Separate settings) {members : List (String × Json)}
    (hnodup : (Keyed.keys members).Nodup) {seen : List String}
    (hseen : ∀ key ∈ seen, key ∉ Keyed.keys members) {c c' : σ} :
    setMembers settings seen c members = .ok c' ↔ setEach members settings c = .ok c' := by
  induction members generalizing seen c with
  | nil => rw [setMembers, setEach_nil]
  | cons entry members ih =>
      obtain ⟨key, value⟩ := entry
      obtain ⟨hkey, hmembers⟩ : key ∉ Keyed.keys members ∧ (Keyed.keys members).Nodup :=
        List.nodup_cons.mp hnodup
      have hseen' : ∀ k ∈ seen, k ∉ Keyed.keys members :=
        fun k hk hmem => hseen k hk (List.mem_cons_of_mem _ hmem)
      rw [setMembers]
      cases hfind : settings.find? (·.name == key) with
      | none =>
          -- No limit has this name.
          have hother : setEach ((key, value) :: members) settings c =
              setEach members settings c := by
            refine setEach_congr (fun s hs => ?_) c
            rw [Keyed.find?, if_neg]
            simpa using List.find?_eq_none.mp hfind s hs
          rw [ih hmembers hseen', hother]
      | some setting =>
          have hname : setting.name = key := by simpa using List.find?_some hfind
          subst hname
          have hnew : seen.contains setting.name = false := by
            simpa using fun hmem => hseen _ hmem List.mem_cons_self
          have hseen'' : ∀ k ∈ setting.name :: seen, k ∉ Keyed.keys members :=
            List.forall_mem_cons.mpr ⟨hkey, hseen'⟩
          have hsetting := List.mem_of_find?_eq_some hfind
          rw [setEach_cons_eq_ok_iff hsep.names_nodup hsep.independent hsetting hkey]
          simp only [hnew, Bool.false_eq_true, if_false, bind_eq_ok_iff, ih hmembers hseen'']

/-- Two limits are independent if they are kept in different places. -/
theorem independent_of_put {γ δ : Type} {fitA : Found → Except Mismatch γ}
    {fitB : Found → Except Mismatch δ} {putA : σ → γ → σ} {putB : σ → δ → σ}
    (h : ∀ c a b, putB (putA c a) b = putA (putB c b) a) (nameA nameB : String)
    (textA textB : σ → List Char) :
    Independent ⟨nameA, fun c found => (fitA found).map (putA c), textA⟩
      ⟨nameB, fun c found => (fitB found).map (putB c), textB⟩ := by
  intro c x y c'
  dsimp only
  cases fitA x <;> cases fitB y <;> simp [Except.map, h]

/-! ## What the limits leave true -/

variable {I : σ → Prop}

/-- The limit leaves `I` true when it is set from a value that was read. -/
def Preserves (I : σ → Prop) (setting : Setting σ) : Prop :=
  ∀ (c : σ) (value : Json) (c' : σ), value.Shaped memberDepth → I c →
    setting.set c value.head = .ok c' → I c'

theorem setMembers_invariant (hsettings : ∀ setting ∈ settings, setting.Preserves I)
    {members : List (String × Json)} (hshaped : ∀ entry ∈ members, entry.2.Shaped memberDepth)
    {seen : List String} {c c' : σ} (hc : I c)
    (h : setMembers settings seen c members = .ok c') : I c' := by
  induction members generalizing seen c with
  | nil => cases h; exact hc
  | cons entry members ih =>
      obtain ⟨hvalue, hmembers⟩ := List.forall_mem_cons.mp hshaped
      rw [setMembers] at h
      split at h
      · exact ih hmembers hc h
      · rename_i setting hfind
        split at h
        · cases h
        · obtain ⟨next, hset, h⟩ := bind_eq_ok_iff.mp h
          have hsetting := hsettings setting (List.mem_of_find?_eq_some hfind)
          exact ih hmembers (hsetting c entry.2 next hvalue hc hset) h

theorem setItems_invariant (hsettings : ∀ setting ∈ settings, setting.Preserves I)
    {items : List Json} (hshaped : ∀ item ∈ items, item.Shaped memberDepth) {c c' : σ} (hc : I c)
    (h : setItems settings c items = .ok c') : I c' := by
  induction settings generalizing c items with
  | nil => cases h; exact hc
  | cons setting settings ih => cases items with
    | nil => cases h; exact hc
    | cons item items =>
        obtain ⟨hitem, hitems⟩ := List.forall_mem_cons.mp hshaped
        obtain ⟨next, hset, h⟩ := bind_eq_ok_iff.mp h
        have hnext := hsettings setting List.mem_cons_self c item next hitem hc hset
        exact ih (fun s hs => hsettings s (List.mem_cons_of_mem _ hs)) hitems hnext h

/-- The values in the contents of a configuration have the shape of values that were read. -/
def ShapedContents : List (String × Json) ⊕ List Json → Prop
  | .inl members => ∀ entry ∈ members, entry.2.Shaped memberDepth
  | .inr items => ∀ item ∈ items, item.Shaped memberDepth

/-- **What every limit leaves true is true in the end.** -/
theorem ofContents_invariant (hsettings : ∀ setting ∈ settings, setting.Preserves I)
    {contents : List (String × Json) ⊕ List Json} (hshaped : ShapedContents contents)
    {start c : σ} (hstart : I start) (h : ofContents settings start contents = .ok c) : I c := by
  cases contents with
  | inl members => exact setMembers_invariant hsettings hshaped hstart h
  | inr items =>
      obtain ⟨next, hitems, h⟩ := bind_eq_ok_iff.mp h
      split at h <;> cases h
      exact setItems_invariant hsettings hshaped hstart hitems

end Recall.Config.Setting
