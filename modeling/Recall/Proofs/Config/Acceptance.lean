import Recall.Proofs.Config.Settings

/-!
# Which texts are accepted as a configuration

An object of different keys is judged by its members as a set. Under `strategy` it must name
a strategy, each member that is called like a limit of this strategy must have a value of the
right kind, and the configuration that follows must be usable. A limit without a member keeps
the default of its strategy; all other members are passed over, whatever their values.

`Gives` says this without the reader: no order, no first failure, only which value stands
under which name. The reader meets it in two steps. It takes the strategy out of the members
wherever it stands (`readMembers_iff`), and then sets the limits of that strategy from those
that are left (`ofContents_iff`).
-/

namespace Recall.Config

open Json (Failure Found Mismatch)

/-! ## What members give -/

/-- The members give a limit this size: the number under its name, or the default where
there is none. -/
def GivesSize (members : List (String × Json)) (name : String) (default size : Nat) : Prop :=
  match Keyed.find? name members with
  | none => size = default
  | some value => value = .number (.integer size) ∧ size < 2 ^ 64

/-- The members give a limit this truth value. -/
def GivesFlag (members : List (String × Json)) (name : String) (default flag : Bool) : Prop :=
  match Keyed.find? name members with
  | none => flag = default
  | some value => value = .bool flag

/-- The members give every limit of a configuration. -/
def Gives (members : List (String × Json)) : Config → Prop
  | sequential => True
  | slidingWindow c =>
    GivesSize members "window_size" SlidingWindow.default.windowSize c.windowSize
  | buffer c =>
    GivesSize members "max_messages" Buffer.default.maxMessages c.maxMessages ∧
      GivesSize members "max_tokens" Buffer.default.maxTokens c.maxTokens ∧
      GivesFlag members "auto_summarize" Buffer.default.autoSummarize c.autoSummarize
  | summarization c =>
    GivesSize members "recent_window_size" Summarization.default.recentWindowSize
        c.recentWindowSize ∧
      GivesSize members "summarize_after" Summarization.default.summarizeAfter c.summarizeAfter
  | retrieval c => GivesSize members "top_k" Retrieval.default.topK c.topK
  | hierarchical c =>
    GivesSize members "recent_limit" Hierarchical.default.recentLimit c.recentLimit ∧
      GivesSize members "important_limit" Hierarchical.default.importantLimit c.importantLimit

/-- The names of the limits of a strategy. -/
def limitNames : Strategy → List String
  | .sequential => []
  | .slidingWindow => ["window_size"]
  | .buffer => ["max_messages", "max_tokens", "auto_summarize"]
  | .summarization => ["recent_window_size", "summarize_after"]
  | .retrieval => ["top_k"]
  | .hierarchical => ["recent_limit", "important_limit"]

/-- Only the members that are called like a limit of the strategy matter. -/
theorem Gives.congr {members others : List (String × Json)} {config : Config}
    (h : ∀ name ∈ limitNames config.strategy,
      Keyed.find? name others = Keyed.find? name members) :
    Gives others config ↔ Gives members config := by
  cases config with
  | sequential => rfl
  | slidingWindow | buffer | summarization | retrieval | hierarchical =>
      simp only [strategy, limitNames, List.forall_mem_cons] at h
      simp only [Gives, GivesSize, GivesFlag, h]

/-! ## The limits -/

theorem asSize_head_eq_ok_iff {value : Json} {n : Nat} :
    value.head.asSize = .ok n ↔ value = .number (.integer n) := by
  rw [Json.asSize_eq_ok_iff]
  cases value <;> simp [Json.head]

theorem asBool_head_eq_ok_iff {value : Json} {b : Bool} :
    value.head.asBool = .ok b ↔ value = .bool b := by
  cases value <;> simp [Json.head, Found.asBool]

section Limits

variable {members : List (String × Json)}
  (hshaped : ∀ entry ∈ members, entry.2.Shaped memberDepth)
include hshaped

theorem setEach_size_iff {σ : Type} {name : String} {get : σ → Nat} {put : σ → Nat → σ}
    {settings : List (Setting σ)} {c c' : σ} (hput : put c (get c) = c) :
    Setting.setEach members (.size name get put :: settings) c = .ok c' ↔
      ∃ n, GivesSize members name (get c) n ∧
        Setting.setEach members settings (put c n) = .ok c' := by
  simp only [Setting.setEach, Setting.size, GivesSize]
  cases hfind : Keyed.find? name members with
  | none => simp [Setting.setFound, hput]
  | some value =>
      have hvalue : value.Shaped memberDepth := hshaped _ (Keyed.mem_of_find?_eq_some hfind)
      have hfits : ∀ n : Nat, value = .number (.integer n) → n < 2 ^ 64 := by
        rintro n rfl
        obtain ⟨-, hle⟩ : (Json.Number.integer n).Fits := hvalue
        simp only [Json.Numeral.digitLimit] at hle
        omega
      simp only [Setting.setFound, bind_eq_ok_iff, map_eq_ok_iff, asSize_head_eq_ok_iff]
      constructor
      · rintro ⟨_, ⟨n, hn, rfl⟩, h⟩
        exact ⟨n, ⟨hn, hfits n hn⟩, h⟩
      · rintro ⟨n, ⟨hn, -⟩, h⟩
        exact ⟨_, ⟨n, hn, rfl⟩, h⟩

omit hshaped in
theorem setEach_flag_iff {σ : Type} {name : String} {get : σ → Bool} {put : σ → Bool → σ}
    {settings : List (Setting σ)} {c c' : σ} (hput : put c (get c) = c) :
    Setting.setEach members (.flag name get put :: settings) c = .ok c' ↔
      ∃ b, GivesFlag members name (get c) b ∧
        Setting.setEach members settings (put c b) = .ok c' := by
  simp only [Setting.setEach, Setting.flag, GivesFlag]
  cases Keyed.find? name members with
  | none => simp [Setting.setFound, hput]
  | some value =>
      simp only [Setting.setFound, bind_eq_ok_iff, map_eq_ok_iff, asBool_head_eq_ok_iff]
      constructor
      · rintro ⟨_, ⟨b, hb, rfl⟩, h⟩
        exact ⟨b, hb, h⟩
      · rintro ⟨b, hb, h⟩
        exact ⟨_, ⟨b, hb, rfl⟩, h⟩

theorem setEach_slidingWindow {c : SlidingWindow} :
    Setting.setEach members SlidingWindow.settings .default = .ok c ↔
      Gives members (slidingWindow c) := by
  simp only [SlidingWindow.settings, setEach_size_iff hshaped]
  constructor
  · rintro ⟨n, hn, ⟨⟩⟩
    exact hn
  · exact fun hn => ⟨_, hn, rfl⟩

theorem setEach_buffer {c : Buffer} :
    Setting.setEach members Buffer.settings .default = .ok c ↔ Gives members (buffer c) := by
  simp only [Buffer.settings, setEach_size_iff hshaped, setEach_flag_iff]
  constructor
  · rintro ⟨m, hm, n, hn, b, hb, ⟨⟩⟩
    exact ⟨hm, hn, hb⟩
  · exact fun ⟨hm, hn, hb⟩ => ⟨_, hm, _, hn, _, hb, rfl⟩

theorem setEach_summarization {c : Summarization} :
    Setting.setEach members Summarization.settings .default = .ok c ↔
      Gives members (summarization c) := by
  simp only [Summarization.settings, setEach_size_iff hshaped]
  constructor
  · rintro ⟨m, hm, n, hn, ⟨⟩⟩
    exact ⟨hm, hn⟩
  · exact fun ⟨hm, hn⟩ => ⟨_, hm, _, hn, rfl⟩

theorem setEach_retrieval {c : Retrieval} :
    Setting.setEach members Retrieval.settings .default = .ok c ↔
      Gives members (retrieval c) := by
  simp only [Retrieval.settings, setEach_size_iff hshaped]
  constructor
  · rintro ⟨n, hn, ⟨⟩⟩
    exact hn
  · exact fun hn => ⟨_, hn, rfl⟩

theorem setEach_hierarchical {c : Hierarchical} :
    Setting.setEach members Hierarchical.settings .default = .ok c ↔
      Gives members (hierarchical c) := by
  simp only [Hierarchical.settings, setEach_size_iff hshaped]
  constructor
  · rintro ⟨m, hm, n, hn, ⟨⟩⟩
    exact ⟨hm, hn⟩
  · exact fun ⟨hm, hn⟩ => ⟨_, hm, _, hn, rfl⟩

end Limits

/-! ## From members to limits -/

theorem separate_nil : Setting.Separate ([] : List (Setting Unit)) :=
  ⟨by simp, by simp, List.Pairwise.nil⟩

theorem SlidingWindow.separate : Setting.Separate settings :=
  ⟨by decide, by decide, List.pairwise_singleton _ _⟩

theorem Buffer.separate : Setting.Separate settings := by
  refine ⟨by decide, by decide, ?_⟩
  simp only [settings, List.pairwise_cons, List.forall_mem_cons]
  refine ⟨⟨?_, ?_, by simp⟩, ⟨?_, by simp⟩, by simp, List.Pairwise.nil⟩
  all_goals exact Setting.independent_of_put (fun _ _ _ => rfl) _ _ _ _

theorem Summarization.separate : Setting.Separate settings := by
  refine ⟨by decide, by decide, ?_⟩
  simp only [settings, List.pairwise_cons, List.forall_mem_cons]
  refine ⟨⟨?_, by simp⟩, by simp, List.Pairwise.nil⟩
  exact Setting.independent_of_put (fun _ _ _ => rfl) _ _ _ _

theorem Retrieval.separate : Setting.Separate settings :=
  ⟨by decide, by decide, List.pairwise_singleton _ _⟩

theorem Hierarchical.separate : Setting.Separate settings := by
  refine ⟨by decide, by decide, ?_⟩
  simp only [settings, List.pairwise_cons, List.forall_mem_cons]
  refine ⟨⟨?_, by simp⟩, by simp, List.Pairwise.nil⟩
  exact Setting.independent_of_put (fun _ _ _ => rfl) _ _ _ _

/-- The members without the strategy. -/
def limitsOf (members : List (String × Json)) : List (String × Json) :=
  members.filter fun entry => entry.1 ≠ strategyKey

theorem limitsOf_cons_strategy (value : Json) (members : List (String × Json)) :
    limitsOf ((strategyKey, value) :: members) = limitsOf members := by
  simp [limitsOf]

theorem limitsOf_cons_of_ne {key : String} (h : key ≠ strategyKey) (value : Json)
    (members : List (String × Json)) :
    limitsOf ((key, value) :: members) = (key, value) :: limitsOf members := by
  simp [limitsOf, h]

/-- The members set the limits of a strategy as if each limit looked for its own. -/
theorem ofContents_limitsOf {σ : Type} {settings : List (Setting σ)}
    (hsep : Setting.Separate settings) {members : List (String × Json)}
    (hnodup : (Keyed.keys members).Nodup) {start c : σ} :
    Setting.ofContents settings start (.inl (limitsOf members)) = .ok c ↔
      Setting.setEach members settings start = .ok c := by
  have hkeys : (Keyed.keys (limitsOf members)).Nodup :=
    hnodup.sublist (List.filter_sublist.map Prod.fst)
  rw [Setting.ofContents, Setting.setMembers_eq_ok_iff hsep hkeys (by simp), Setting.setEach_congr]
  intro setting hsetting
  refine Keyed.find?_filter_ne ?_ members
  intro hname
  exact hsep.strategyKey_notMem (List.mem_map.mpr ⟨setting, hsetting, hname⟩)

theorem ofContents_iff {members : List (String × Json)} (hnodup : (Keyed.keys members).Nodup)
    (hshaped : ∀ entry ∈ members, entry.2.Shaped memberDepth) {strategy : Strategy}
    {config : Config} :
    ofContents strategy (.inl (limitsOf members)) = .ok config ↔
      config.strategy = strategy ∧ Gives members config := by
  cases strategy with
  | sequential =>
      simp only [ofContents, map_eq_ok_iff, ofContents_limitsOf separate_nil hnodup]
      cases config <;> simp [Config.strategy, Gives, Setting.setEach]
  | slidingWindow =>
      simp only [ofContents, map_eq_ok_iff, ofContents_limitsOf SlidingWindow.separate hnodup,
        setEach_slidingWindow hshaped]
      cases config <;> simp [Config.strategy]
  | buffer =>
      simp only [ofContents, map_eq_ok_iff, ofContents_limitsOf Buffer.separate hnodup,
        setEach_buffer hshaped]
      cases config <;> simp [Config.strategy]
  | summarization =>
      simp only [ofContents, map_eq_ok_iff, ofContents_limitsOf Summarization.separate hnodup,
        setEach_summarization hshaped]
      cases config <;> simp [Config.strategy]
  | retrieval =>
      simp only [ofContents, map_eq_ok_iff, ofContents_limitsOf Retrieval.separate hnodup,
        setEach_retrieval hshaped]
      cases config <;> simp [Config.strategy]
  | hierarchical =>
      simp only [ofContents, map_eq_ok_iff, ofContents_limitsOf Hierarchical.separate hnodup,
        setEach_hierarchical hshaped]
      cases config <;> simp [Config.strategy]

/-! ## From the text to the members -/

theorem ofText?_eq_some_iff {name : String} {strategy : Strategy} :
    Strategy.ofText? name = some strategy ↔ name = strategy.text := by
  constructor
  · intro h
    have hname := List.find?_some h
    exact (eq_of_beq hname).symm
  · rintro rfl
    exact Strategy.ofText?_text strategy

theorem asStrategy_head_eq_ok_iff {value : Json} {strategy : Strategy} :
    asStrategy value.head = .ok strategy ↔ value = .string strategy.text := by
  cases value with
  | string name =>
      rw [Json.head, asStrategy, Json.string.injEq, ← ofText?_eq_some_iff]
      cases Strategy.ofText? name <;> simp
  | null | bool | number | array | object => simp [Json.head, asStrategy]

/-- Reads the members of a configuration and the closing bracket. -/
def readClosed (bound : Nat) (first : Bool) (known : Option Strategy) (s : List Char) :
    Except Failure ((Strategy × List (String × Json)) × List Char) := do
  let (found, s) ← readMembers bound first known s
  let s ← Json.closeObject s
  return (found, s)

section Steps

variable {first : Bool} {s s₁ s₂ s₃ : List Char}

theorem readClosed_close (hkey : Json.nextKey Json.keyContents first s = .ok (none, s₁))
    (hclose : Json.closeObject s₁ = .ok s₂) (bound : Nat) (strategy : Strategy) :
    readClosed (bound + 1) first (some strategy) s = .ok ((strategy, []), s₂) := by
  simp only [readClosed, readMembers, hkey, ok_bind]
  show (Json.closeObject s₁ >>= _) = _
  rw [hclose]
  rfl

theorem readClosed_close_none (hkey : Json.nextKey Json.keyContents first s = .ok (none, s₁))
    (bound : Nat) :
    readClosed (bound + 1) first none s = .error (.unfit (.missingField strategyKey)) := by
  simp only [readClosed, readMembers, hkey, ok_bind, error_bind]

theorem readClosed_strategy
    (hkey : Json.nextKey Json.keyContents first s = .ok (some strategyKey, s₁))
    (hcolon : Json.readColon s₁ = .ok s₂) (bound : Nat) :
    readClosed (bound + 1) first none s = (do
      let (strategy, s) ← Json.readScalar asStrategy s₂
      readClosed bound false (some strategy) s) := by
  simp only [readClosed, readMembers, hkey, hcolon, ok_bind, if_true, Option.isSome_none,
    Bool.false_eq_true, if_false, bind_assoc]

theorem readClosed_member {key : String} (hne : key ≠ strategyKey)
    (hkey : Json.nextKey Json.keyContents first s = .ok (some key, s₁))
    (hcolon : Json.readColon s₁ = .ok s₂) {value : Json}
    (hvalue : Json.readValue memberDepth s₂ = .ok (value, s₃)) (bound : Nat)
    (known : Option Strategy) :
    readClosed (bound + 1) first known s = (do
      let ((strategy, members), s) ← readClosed bound false known s₃
      return ((strategy, (key, value) :: members), s)) := by
  simp only [readClosed, readMembers, hkey, hcolon, hvalue, ok_bind, if_neg hne, bind_assoc,
    pure_bind]

end Steps

/-- Reading the members of a configuration takes the strategy out of them, unless it is
known already from the members in front of these. -/
theorem readClosed_iff {bound : Nat} {first : Bool} {s t : List Char}
    {members : List (String × Json)}
    (h : Json.readMembers (Json.readValue memberDepth) bound first s = .ok (members, t))
    (hnodup : (Keyed.keys members).Nodup) {known : Option Strategy}
    (hknown : known.isSome → strategyKey ∉ Keyed.keys members) {strategy : Strategy}
    {others : List (String × Json)} {u : List Char} :
    readClosed bound first known s = .ok ((strategy, others), u) ↔
      (known = some strategy ∨
          known = none ∧ Keyed.find? strategyKey members = some (.string strategy.text)) ∧
        others = limitsOf members ∧ u = t := by
  induction bound generalizing first s members known others with
  | zero => cases h
  | succ bound ih =>
      rw [Json.readMembers] at h
      obtain ⟨⟨key?, s₁⟩, hkey, h⟩ := bind_eq_ok_iff.mp h
      cases key? with
      | none =>
          obtain ⟨s₂, hclose, h⟩ := bind_eq_ok_iff.mp h
          cases h
          cases known with
          | none => simp [readClosed_close_none hkey, Keyed.find?]
          | some st => simp [readClosed_close hkey hclose, limitsOf, eq_comm, and_assoc]
      | some key =>
          obtain ⟨s₂, hcolon, h⟩ := bind_eq_ok_iff.mp h
          obtain ⟨⟨value, s₃⟩, hvalue, h⟩ := bind_eq_ok_iff.mp h
          obtain ⟨⟨members, s₄⟩, hmembers, h⟩ := bind_eq_ok_iff.mp h
          cases h
          obtain ⟨hnew, hrest⟩ : key ∉ Keyed.keys members ∧ (Keyed.keys members).Nodup :=
            List.nodup_cons.mp hnodup
          by_cases hstrategy : key = strategyKey
          · -- The strategy: it was not known before, and it must be a name.
            subst hstrategy
            obtain rfl : known = none := by
              simpa using mt hknown (not_not_intro List.mem_cons_self)
            have hscalar : ∀ st w, Json.readScalar asStrategy s₂ = .ok (st, w) ↔
                asStrategy value.head = .ok st ∧ w = s₃ := fun st w =>
              Json.readScalar_iff_of_readValue (by simp [asStrategy]) (by simp [asStrategy]) hvalue
            have hbehind : ∀ st, readClosed bound false (some st) s₃ = .ok ((strategy, others), u) ↔
                st = strategy ∧ others = limitsOf members ∧ u = t := fun st => by
              rw [ih hmembers hrest fun _ => hnew]
              simp
            rw [readClosed_strategy hkey hcolon, limitsOf_cons_strategy, Keyed.find?, if_pos rfl]
            simp only [bind_eq_ok_iff, Prod.exists, hscalar, asStrategy_head_eq_ok_iff]
            constructor
            · rintro ⟨st, w, ⟨rfl, rfl⟩, hread⟩
              obtain ⟨rfl, hothers⟩ := (hbehind st).mp hread
              exact ⟨Or.inr ⟨trivial, rfl⟩, hothers⟩
            · rintro ⟨hsel, hothers⟩
              obtain rfl : value = .string strategy.text := by simpa using hsel
              exact ⟨strategy, s₃, ⟨rfl, rfl⟩, (hbehind strategy).mpr ⟨rfl, hothers⟩⟩
          · have hknown' : known.isSome → strategyKey ∉ Keyed.keys members :=
              fun hsome hmem => hknown hsome (List.mem_cons_of_mem _ hmem)
            rw [readClosed_member hstrategy hkey hcolon hvalue, limitsOf_cons_of_ne hstrategy,
              Keyed.find?, if_neg (Ne.symm hstrategy), bind_eq_ok_iff]
            constructor
            · rintro ⟨⟨⟨st, rest⟩, w⟩, hread, heq⟩
              cases heq
              obtain ⟨hsel, rfl, hu⟩ := (ih hmembers hrest hknown').mp hread
              exact ⟨hsel, rfl, hu⟩
            · rintro ⟨hsel, rfl, hu⟩
              exact ⟨_, (ih hmembers hrest hknown').mpr ⟨hsel, rfl, hu⟩, rfl⟩

theorem readContents_iff {s t : List Char} {members : List (String × Json)}
    (h : Json.readObject s = .ok (members, t)) (hnodup : (Keyed.keys members).Nodup)
    {strategy : Strategy} {contents : List (String × Json) ⊕ List Json} {u : List Char} :
    readContents s = .ok ((strategy, contents), u) ↔
      Keyed.find? strategyKey members = some (.string strategy.text) ∧
        contents = .inl (limitsOf members) ∧ u = t := by
  obtain ⟨v, hhead, hmembers⟩ := Json.readObject_eq_ok_iff.mp h
  have hcontents : readContents s = (do
      let ((strategy, members), s) ← readClosed (v.length + 1) true none v
      return ((strategy, .inl members), s)) := by
    simp only [readContents, hhead, ok_bind, readClosed, bind_assoc, pure_bind]
  rw [hcontents, bind_eq_ok_iff]
  constructor
  · rintro ⟨⟨⟨st, others⟩, w⟩, hread, heq⟩
    cases heq
    obtain ⟨hsel, rfl, hu⟩ := (readClosed_iff hmembers hnodup (by simp)).mp hread
    exact ⟨by simpa using hsel, rfl, hu⟩
  · rintro ⟨hsel, rfl, hu⟩
    exact ⟨_, (readClosed_iff hmembers hnodup (by simp)).mpr ⟨Or.inr ⟨rfl, hsel⟩, rfl, hu⟩, rfl⟩

/-- **What is read from an object**, before it is asked whether it can be used. -/
theorem read_iff {s t : List Char} {members : List (String × Json)}
    (h : Json.readObject s = .ok (members, t)) (hnodup : (Keyed.keys members).Nodup)
    {config : Config} {u : List Char} :
    read s = .ok (config, u) ↔
      (Keyed.find? strategyKey members = some (.string config.strategy.text) ∧
        Gives members config) ∧ u = t := by
  have hshaped := Json.shaped_of_readObject h
  unfold read
  rw [bind_eq_ok_iff]
  constructor
  · rintro ⟨⟨⟨strategy, contents⟩, w⟩, hread, hconfig⟩
    obtain ⟨hsel, rfl, rfl⟩ := (readContents_iff h hnodup).mp hread
    dsimp only at hconfig
    split at hconfig
    · rename_i config' hcontents
      cases hconfig
      obtain ⟨rfl, hgives⟩ := (ofContents_iff hnodup hshaped).mp hcontents
      exact ⟨⟨hsel, hgives⟩, rfl⟩
    · cases hconfig
  · rintro ⟨⟨hsel, hgives⟩, rfl⟩
    refine ⟨_, (readContents_iff h hnodup).mpr ⟨hsel, rfl, rfl⟩, ?_⟩
    dsimp only
    rw [(ofContents_iff hnodup hshaped).mpr ⟨rfl, hgives⟩]
    rfl

theorem readAll_read_iff {text : String} {members : List (String × Json)}
    (h : Json.readAll Json.readObject text = .ok members) (hnodup : (Keyed.keys members).Nodup)
    {config : Config} :
    Json.readAll read text = .ok config ↔
      Keyed.find? strategyKey members = some (.string config.strategy.text) ∧
        Gives members config := by
  obtain ⟨s, hread, hblank⟩ := Json.readAll_eq_ok_iff.mp h
  simp only [Json.readAll_eq_ok_iff, read_iff hread hnodup]
  constructor
  · rintro ⟨u, ⟨hgives, rfl⟩, -⟩
    exact hgives
  · exact fun hgives => ⟨s, ⟨hgives, rfl⟩, hblank⟩

theorem ofJson_eq_ok_iff {text : String} {config : Config} :
    ofJson text = .ok config ↔
      Json.readAll read text = .ok config ∧ config.validate = .ok () := by
  unfold ofJson
  cases Json.readAll read text with
  | error failure => simp
  | ok config' =>
      dsimp only
      rw [map_eq_ok_iff, Except.ok.injEq]
      constructor
      · rintro ⟨⟨⟩, hvalid, rfl⟩
        exact ⟨rfl, hvalid⟩
      · rintro ⟨rfl, hvalid⟩
        exact ⟨(), hvalid, rfl⟩

/-- **What is accepted as a configuration.** Of the members of an object with different keys
only those under `strategy` and under the names of its limits matter, and their order does
not. -/
theorem ofJson_object_iff {text : String} {members : List (String × Json)}
    (hread : Json.readAll Json.readObject text = .ok members)
    (hnodup : (Keyed.keys members).Nodup) :
    (∀ config, ofJson text = .ok config ↔
      Keyed.find? strategyKey members = some (.string config.strategy.text) ∧
        Gives members config ∧ config.validate = .ok ()) ∧
    ∀ text' members', Json.readAll Json.readObject text' = .ok members' →
      (Keyed.keys members').Nodup →
      Keyed.find? strategyKey members' = Keyed.find? strategyKey members →
      (∀ strategy, Keyed.find? strategyKey members = some (.string strategy.text) →
        ∀ name ∈ limitNames strategy, Keyed.find? name members' = Keyed.find? name members) →
      (ofJson text').toOption = (ofJson text).toOption := by
  have hiff : ∀ config, ofJson text = .ok config ↔
      Keyed.find? strategyKey members = some (.string config.strategy.text) ∧
        Gives members config ∧ config.validate = .ok () := by
    intro config
    rw [ofJson_eq_ok_iff, readAll_read_iff hread hnodup, and_assoc]
  refine ⟨hiff, ?_⟩
  intro text' members' hread' hnodup' hstrategy hlimits
  have hsame : ∀ config, ofJson text' = .ok config ↔ ofJson text = .ok config := by
    intro config
    rw [hiff, ofJson_eq_ok_iff, readAll_read_iff hread' hnodup', hstrategy, and_assoc]
    exact and_congr_right fun hsel => and_congr_left' (Gives.congr (hlimits _ hsel))
  refine Option.ext fun config => ?_
  rw [toOption_eq_some_iff, toOption_eq_some_iff]
  exact hsame config

/-- The strategy may come last or first, and members of other names come and go. -/
theorem ofJson_strategy_anywhere :
    ofJson "\x7b\"max_tokens\":100,\"keep\":[\x7b\"top_k\":null\x7d],\"strategy\":\"buffer\"\x7d" =
        .ok (buffer ⟨0, 100, false⟩) ∧
      (ofJson "\x7b\"strategy\":\"buffer\",\"top_k\":[],\"max_tokens\":100\x7d").toOption =
        some (buffer ⟨0, 100, false⟩) := by
  have hread : Json.readAll Json.readObject
      "\x7b\"max_tokens\":100,\"keep\":[\x7b\"top_k\":null\x7d],\"strategy\":\"buffer\"\x7d" =
        .ok [("max_tokens", .number (.integer 100)), ("keep", .array [.object [("top_k", .null)]]),
          ("strategy", .string "buffer")] := rfl
  have hread' : Json.readAll Json.readObject
      "\x7b\"strategy\":\"buffer\",\"top_k\":[],\"max_tokens\":100\x7d" =
        .ok [("strategy", .string "buffer"), ("top_k", .array []),
          ("max_tokens", .number (.integer 100))] := rfl
  obtain ⟨hiff, hsame⟩ := ofJson_object_iff hread (by decide)
  have hfirst := (hiff (buffer ⟨0, 100, false⟩)).mpr ⟨rfl, ⟨rfl, ⟨rfl, by decide⟩, rfl⟩, rfl⟩
  refine ⟨hfirst, ?_⟩
  rw [hsame _ _ hread' (by decide) rfl ?_, hfirst]
  · rfl
  · intro strategy hstrategy
    have hname : "buffer" = strategy.text := Json.string.inj (Option.some.inj hstrategy)
    obtain rfl : Strategy.buffer = strategy := Option.some.inj (ofText?_eq_some_iff.mpr hname)
    simp only [limitNames, List.forall_mem_cons]
    exact ⟨rfl, rfl, rfl, fun _ hname => absurd hname List.not_mem_nil⟩

end Recall.Config
