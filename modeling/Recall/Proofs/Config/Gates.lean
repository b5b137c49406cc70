import Recall.Memory.Opening
import Recall.Proofs.Config.Acceptance

/-!
# Writing a configuration, reading it and opening its memory

A written configuration is read back as itself, for every strategy and all limits of 64 bits
(`readAll_read_pretty`). So the two gates that a configuration has to pass ask the same
question: reading its text and opening its memory both refuse exactly what `validate`
refuses, with the same error.

**Opening asks for one thing more, room, and only for a sliding window** (`HasRoom`). No gate
looks at the size of a window, so there are sizes that pass both of them and crash the
program behind the second.

What reading accepts has limits of 64 bits (`fits_of_read`), from an object and from an array
alike, so an accepted text can be written anew without a change.
-/

namespace Recall.Config

open Json (Found)

/-! ## Written configurations -/

/-- All limits take at most 64 bits. -/
def Fits : Config → Prop
  | sequential => True
  | slidingWindow c => c.windowSize < 2 ^ 64
  | buffer c => c.maxMessages < 2 ^ 64 ∧ c.maxTokens < 2 ^ 64
  | summarization c => c.recentWindowSize < 2 ^ 64 ∧ c.summarizeAfter < 2 ^ 64
  | retrieval c => c.topK < 2 ^ 64
  | hierarchical c => c.recentLimit < 2 ^ 64 ∧ c.importantLimit < 2 ^ 64

/-- A limit as a value. -/
def sizeValue (n : Nat) : Json := .number (.integer n)

/-- The members of a configuration as values. -/
def values (c : Config) : List (String × Json) :=
  (strategyKey, .string c.strategy.text) ::
    match c with
    | sequential => []
    | slidingWindow c => [("window_size", sizeValue c.windowSize)]
    | buffer c =>
      [("max_messages", sizeValue c.maxMessages), ("max_tokens", sizeValue c.maxTokens),
        ("auto_summarize", .bool c.autoSummarize)]
    | summarization c =>
      [("recent_window_size", sizeValue c.recentWindowSize),
        ("summarize_after", sizeValue c.summarizeAfter)]
    | retrieval c => [("top_k", sizeValue c.topK)]
    | hierarchical c =>
      [("recent_limit", sizeValue c.recentLimit), ("important_limit", sizeValue c.importantLimit)]

theorem text_sizeValue (n : Nat) : (sizeValue n).text = Decimal.naturalText n := by
  rw [sizeValue, Json.text, Json.Number.text, Json.integerText_natCast]

theorem members_eq (c : Config) :
    c.members = c.values.map fun entry => (entry.1, entry.2.text) := by
  cases c <;> simp [members, values, limitMembers, Setting.members, Json.text, text_sizeValue,
    SlidingWindow.settings, Buffer.settings, Summarization.settings, Retrieval.settings,
    Hierarchical.settings, Setting.size, Setting.flag]

theorem nodup_keys_values (c : Config) : (Keyed.keys c.values).Nodup := by
  cases c <;> simp [values, strategyKey]

/-- The values of a configuration give its limits. -/
theorem gives_values {c : Config} (h : c.Fits) : Gives c.values c := by
  cases c <;> simp_all [Fits, Gives, GivesSize, GivesFlag, values, Keyed.find?, strategyKey,
    sizeValue]

theorem shaped_sizeValue {n depth : Nat} (h : n < 2 ^ 64) : (sizeValue n).Shaped depth := by
  have hfits : (Json.Number.integer n).Fits := by
    constructor <;> simp only [Json.Numeral.negativeLimit, Json.Numeral.digitLimit] <;> omega
  cases depth <;> exact hfits

/-- The values of a configuration can all be read back. -/
theorem readable_values {c : Config} (h : c.Fits) :
    ∀ entry ∈ c.values, entry.2.Shaped memberDepth ∧ entry.2.Kept := by
  have htext : ∀ s : String, (Json.string s).Shaped memberDepth ∧ (Json.string s).Kept :=
    fun s => ⟨trivial, by simp [Json.Kept, Json.numbers]⟩
  have hflag : ∀ b : Bool, (Json.bool b).Shaped memberDepth ∧ (Json.bool b).Kept :=
    fun b => ⟨trivial, by simp [Json.Kept, Json.numbers]⟩
  have hsize : ∀ n < 2 ^ 64, (sizeValue n).Shaped memberDepth ∧ (sizeValue n).Kept :=
    fun n hn => ⟨shaped_sizeValue hn, by simp [Json.Kept, Json.numbers, sizeValue]⟩
  cases c <;> simp only [values, Fits, List.forall_mem_cons] at h ⊢
  case sequential => exact ⟨htext _, by simp⟩
  case slidingWindow => exact ⟨htext _, hsize _ h, by simp⟩
  case buffer => exact ⟨htext _, hsize _ h.1, hsize _ h.2, hflag _, by simp⟩
  case summarization => exact ⟨htext _, hsize _ h.1, hsize _ h.2, by simp⟩
  case retrieval => exact ⟨htext _, hsize _ h, by simp⟩
  case hierarchical => exact ⟨htext _, hsize _ h.1, hsize _ h.2, by simp⟩

/-- A line for each member. -/
def lines : Json.Spacing :=
  ⟨['\n', ' ', ' '], [' '], ['\n'], by simp [Json.isBlank],
    by simp [Json.isBlank], by simp [Json.isBlank]⟩

theorem pretty_eq (c : Config) : c.pretty = '{' :: lines.text true c.members := by
  rw [pretty, List.cons_append]
  exact congrArg _ (Json.joined_append ['\n', '}'] (c.members.map lines.member))

theorem readObject_pretty {c : Config} (h : c.Fits) :
    Json.readAll Json.readObject (String.ofList c.pretty) = .ok c.values := by
  have hlength := Json.length_lt_text lines true c.members
  rw [members_eq, List.length_map] at hlength
  rw [Json.readAll_eq_ok_iff]
  refine ⟨[], ?_, rfl⟩
  rw [String.toList_ofList, Json.readObject_eq_ok_iff, pretty_eq, members_eq]
  refine ⟨_, Json.readHead_object _, ?_⟩
  rw [← List.append_nil (lines.text true _)]
  refine Json.readMembers_text lines ?_ (by simp; omega) true []
  intro entry hentry rest hrest
  obtain ⟨hshape, hkept⟩ := readable_values h entry hentry
  rw [Json.readValue_append lines.value_blank]
  exact Json.readValue_text hshape hkept hrest

/-- **A written configuration is read back as itself.** -/
theorem readAll_read_pretty {c : Config} (h : c.Fits) :
    Json.readAll read (String.ofList c.pretty) = .ok c := by
  rw [readAll_read_iff (readObject_pretty h) (nodup_keys_values c)]
  exact ⟨by simp [values, Keyed.find?], gives_values h⟩

theorem ofJson_pretty {c : Config} (h : c.Fits) :
    ofJson (String.ofList c.pretty) = c.validate.map fun () => c := by
  rw [ofJson, readAll_read_pretty h]

/-! ## Accepted configurations -/

theorem shaped_of_readMembers {bound : Nat} {first : Bool} {known : Option Strategy}
    {s t : List Char} {strategy : Strategy} {members : List (String × Json)}
    (h : readMembers bound first known s = .ok ((strategy, members), t)) :
    ∀ entry ∈ members, entry.2.Shaped memberDepth := by
  induction bound generalizing first known s members with
  | zero => cases h
  | succ bound ih =>
      rw [readMembers] at h
      obtain ⟨⟨key?, s₁⟩, -, h⟩ := bind_eq_ok_iff.mp h
      cases key? with
      | none => cases known with
        | none => cases h
        | some st =>
            cases h
            exact fun entry hentry => absurd hentry List.not_mem_nil
      | some key =>
          dsimp only at h
          split at h
          · split at h
            · cases h
            · obtain ⟨s₂, -, h⟩ := bind_eq_ok_iff.mp h
              obtain ⟨⟨st, s₃⟩, -, h⟩ := bind_eq_ok_iff.mp h
              exact ih h
          · obtain ⟨s₂, -, h⟩ := bind_eq_ok_iff.mp h
            obtain ⟨⟨value, s₃⟩, hvalue, h⟩ := bind_eq_ok_iff.mp h
            obtain ⟨⟨⟨st, rest⟩, s₄⟩, hrest, h⟩ := bind_eq_ok_iff.mp h
            cases h
            exact List.forall_mem_cons.mpr ⟨Json.shaped_of_readValue hvalue, ih hrest⟩

theorem shaped_of_readContents {s t : List Char} {strategy : Strategy}
    {contents : List (String × Json) ⊕ List Json}
    (h : readContents s = .ok ((strategy, contents), t)) : Setting.ShapedContents contents := by
  unfold readContents at h
  obtain ⟨⟨found, s₁⟩, -, h⟩ := bind_eq_ok_iff.mp h
  cases found with
  | object =>
      obtain ⟨⟨⟨st, members⟩, s₂⟩, hmembers, h⟩ := bind_eq_ok_iff.mp h
      obtain ⟨s₃, -, h⟩ := bind_eq_ok_iff.mp h
      cases h
      exact shaped_of_readMembers hmembers
  | array =>
      obtain ⟨⟨more, s₂⟩, -, h⟩ := bind_eq_ok_iff.mp h
      cases more with
      | false => cases h
      | true =>
          obtain ⟨⟨st, s₃⟩, -, h⟩ := bind_eq_ok_iff.mp h
          obtain ⟨⟨items, s₄⟩, hitems, h⟩ := bind_eq_ok_iff.mp h
          cases h
          exact Json.readItems_forall (fun _ _ _ => Json.shaped_of_readValue) hitems
  | null | bool | number | string => cases h

section Preserved

variable {σ : Type} {I : σ → Prop} {name : String}

theorem preserves_size {get : σ → Nat} {put : σ → Nat → σ}
    (hput : ∀ c n, I c → n < 2 ^ 64 → I (put c n)) : (Setting.size name get put).Preserves I := by
  intro c value c' hvalue hc hset
  obtain ⟨n, hn, rfl⟩ := map_eq_ok_iff.mp hset
  obtain rfl := asSize_head_eq_ok_iff.mp hn
  obtain ⟨-, hle⟩ : (Json.Number.integer n).Fits := hvalue
  refine hput c n hc ?_
  simp only [Json.Numeral.digitLimit] at hle
  omega

theorem preserves_flag {get : σ → Bool} {put : σ → Bool → σ}
    (hput : ∀ c b, I c → I (put c b)) : (Setting.flag name get put).Preserves I := by
  intro c value c' _ hc hset
  obtain ⟨b, -, rfl⟩ := map_eq_ok_iff.mp hset
  exact hput c b hc

end Preserved

theorem fits_of_ofContents {strategy : Strategy} {contents : List (String × Json) ⊕ List Json}
    (hshaped : Setting.ShapedContents contents) {config : Config}
    (h : ofContents strategy contents = .ok config) : config.Fits := by
  cases strategy <;> obtain ⟨c, hc, rfl⟩ := map_eq_ok_iff.mp h
  case sequential => exact trivial
  case slidingWindow =>
    refine Setting.ofContents_invariant (I := fun c => (slidingWindow c).Fits) ?_ hshaped
      (by simp [Fits, SlidingWindow.default]) hc
    simp only [SlidingWindow.settings, List.forall_mem_cons]
    exact ⟨preserves_size fun _ _ _ hn => hn, by simp⟩
  case buffer =>
    refine Setting.ofContents_invariant (I := fun c => (buffer c).Fits) ?_ hshaped
      (by simp [Fits, Buffer.default]) hc
    simp only [Buffer.settings, List.forall_mem_cons]
    exact ⟨preserves_size fun _ _ h hn => ⟨hn, h.2⟩, preserves_size fun _ _ h hn => ⟨h.1, hn⟩,
      preserves_flag fun _ _ h => h, by simp⟩
  case summarization =>
    refine Setting.ofContents_invariant (I := fun c => (summarization c).Fits) ?_ hshaped
      (by simp [Fits, Summarization.default]) hc
    simp only [Summarization.settings, List.forall_mem_cons]
    exact ⟨preserves_size fun _ _ h hn => ⟨hn, h.2⟩, preserves_size fun _ _ h hn => ⟨h.1, hn⟩,
      by simp⟩
  case retrieval =>
    refine Setting.ofContents_invariant (I := fun c => (retrieval c).Fits) ?_ hshaped
      (by simp [Fits, Retrieval.default]) hc
    simp only [Retrieval.settings, List.forall_mem_cons]
    exact ⟨preserves_size fun _ _ _ hn => hn, by simp⟩
  case hierarchical =>
    refine Setting.ofContents_invariant (I := fun c => (hierarchical c).Fits) ?_ hshaped
      (by simp [Fits, Hierarchical.default]) hc
    simp only [Hierarchical.settings, List.forall_mem_cons]
    exact ⟨preserves_size fun _ _ h hn => ⟨hn, h.2⟩, preserves_size fun _ _ h hn => ⟨h.1, hn⟩,
      by simp⟩

/-- **The limits of a configuration that was read take at most 64 bits.** -/
theorem fits_of_read {s t : List Char} {config : Config} (h : read s = .ok (config, t)) :
    config.Fits := by
  obtain ⟨⟨⟨strategy, contents⟩, s₁⟩, hread, h⟩ := bind_eq_ok_iff.mp h
  dsimp only at h
  split at h
  · rename_i config' hcontents
    cases h
    exact fits_of_ofContents (shaped_of_readContents hread) hcontents
  · cases h

theorem fits_of_ofJson {text : String} {config : Config} (h : ofJson text = .ok config) :
    config.Fits := by
  obtain ⟨s, hread, -⟩ := Json.readAll_eq_ok_iff.mp (ofJson_eq_ok_iff.mp h).1
  exact fits_of_read hread

/-! ## The gates -/

/-- Only the configuration itself is ever the reason to refuse it. -/
theorem validate_eq_error {c : Config} {e : MemoryError} (h : c.validate = .error e) :
    ∃ message, e = .configuration message := by
  cases c <;> simp only [validate, reduceCtorEq] at h
  unfold Buffer.validate at h
  split at h <;> cases h
  exact ⟨_, rfl⟩

/-! ## Room -/

/-- The machine has room for the memory of a configuration: a sliding window takes as much as
its messages may take, and that must be a number of bytes that can be reserved. -/
def HasRoom (machine : Machine) : Config → Prop
  | slidingWindow c =>
    c.normalized.windowSize * machine.messageSize < 2 ^ 63 ∧
      machine.has (c.normalized.windowSize * machine.messageSize) = true
  | sequential | buffer _ | summarization _ | retrieval _ | hierarchical _ => True

theorem makeRoom_eq_ok_iff {machine : Machine} {c : Config} :
    machine.makeRoom c = .ok () ↔ HasRoom machine c := by
  cases c with
  | slidingWindow c =>
      rw [Machine.makeRoom, Machine.reserve_eq_ok_iff, HasRoom, Machine.reservationLimit]
      exact and_congr_left fun _ => Nat.lt_succ_iff.symm
  | _ => simp [Machine.makeRoom, HasRoom]

/-- What is reported while a memory is opened does not matter to the memory. -/
theorem fst_opened (c : Config) (helpers : Collaborators) (j k : Journal) :
    (Memory.opened c helpers j).1 = (Memory.opened c helpers k).1 := by
  cases c <;> rfl

theorem fst_create {c : Config} (h : c.validate = .ok ()) (w : Workshop) (j : Journal) :
    (w.create c j).1 = .ok (Memory.opened c w.collaborators j).1 := by
  rw [Workshop.create, h]
  exact congrArg Except.ok (fst_opened c w.collaborators _ j)

theorem createOn_of_hasRoom {c : Config} {machine : Machine} (h : c.validate = .ok ())
    (hroom : HasRoom machine c) (w : Workshop) (j : Journal) :
    ∃ journal, w.createOn machine c j =
      .ok (.ok (Memory.opened c w.collaborators j).1, journal) := by
  rw [Workshop.createOn, h, makeRoom_eq_ok_iff.mpr hroom]
  exact ⟨_, congrArg Except.ok (Prod.ext (fst_create h w j) rfl)⟩

theorem createOn_of_not_hasRoom {c : Config} {machine : Machine} (h : c.validate = .ok ())
    (hroom : ¬HasRoom machine c) (w : Workshop) (j : Journal) :
    ∃ crash, w.createOn machine c j = .error crash := by
  rw [Workshop.createOn, h]
  cases hmade : machine.makeRoom c with
  | ok done => exact absurd (makeRoom_eq_ok_iff.mp hmade) hroom
  | error crash => exact ⟨crash, rfl⟩

/-- **The gates agree, up to room.** Reading a written configuration succeeds if it can be
used, with the same configuration, and opening its memory succeeds if there is also room for
it on the machine. The memory is the one that the configuration selects, with the
collaborators of the workshop; without room the program crashes. Both gates fail with the
error of `validate` if the configuration cannot be used, on any machine. What was accepted
once is accepted again, and unchanged. -/
theorem gates_agree (c : Config) (machine : Machine) (w : Workshop) (j : Journal) :
    (c.Fits → c.validate = .ok () →
      ofJson (String.ofList c.pretty) = .ok c ∧
      (HasRoom machine c → ∃ journal, w.createOn machine c j =
        .ok (.ok (Memory.opened c w.collaborators j).1, journal)) ∧
      (¬HasRoom machine c → ∃ crash, w.createOn machine c j = .error crash)) ∧
    (c.Fits → ∀ e, c.validate = .error e →
      (∃ message, e = .configuration message) ∧
        ofJson (String.ofList c.pretty) = .error e ∧ w.createOn machine c j = .ok (.error e, j)) ∧
    ∀ text, ofJson text = .ok c → ofJson (String.ofList c.pretty) = .ok c := by
  refine ⟨fun hfits hvalid => ⟨?_, fun hroom => createOn_of_hasRoom hvalid hroom w j,
    fun hroom => createOn_of_not_hasRoom hvalid hroom w j⟩, fun hfits e hinvalid => ?_,
    fun text h => ?_⟩
  · rw [ofJson_pretty hfits, hvalid]
    rfl
  · rw [ofJson_pretty hfits, Workshop.createOn, hinvalid]
    exact ⟨validate_eq_error hinvalid, rfl, rfl⟩
  · rw [ofJson_pretty (fits_of_ofJson h), (ofJson_eq_ok_iff.mp h).2]
    rfl

/-- A buffer that is to summarize and has no limit is refused at both gates; with the
largest limit it passes both. A window passes the second one only as far as there is room. A
configuration that was read from an array is written as an object and read again. -/
theorem gates_agree_on_buffers :
    let machine : Machine := ⟨1, by decide, fun bytes => bytes ≤ 1024⟩
    (ofJson (String.ofList (buffer ⟨0, 0, true⟩).pretty) = .error (.configuration
        "auto_summarize requires max_messages or max_tokens to be set") ∧
      Workshop.empty.createOn machine (buffer ⟨0, 0, true⟩) .empty = .ok (.error (.configuration
        "auto_summarize requires max_messages or max_tokens to be set"), .empty)) ∧
    (ofJson (String.ofList (buffer ⟨0, 18446744073709551615, true⟩).pretty) =
        .ok (buffer ⟨0, 18446744073709551615, true⟩) ∧
      ∃ journal, Workshop.empty.createOn machine (buffer ⟨0, 18446744073709551615, true⟩) .empty =
        .ok (.ok (.buffer ⟨⟨0, 18446744073709551615, true⟩, .digest, []⟩), journal)) ∧
    (∃ journal, Workshop.empty.createOn machine (slidingWindow ⟨1024⟩) .empty =
      .ok (.ok (.slidingWindow ⟨1024, []⟩), journal)) ∧
    (∃ crash, Workshop.empty.createOn machine (slidingWindow ⟨1025⟩) .empty = .error crash) ∧
    ofJson (String.ofList (retrieval ⟨3⟩).pretty) = .ok (retrieval ⟨3⟩) := by
  intro machine
  have hrefused := (gates_agree (buffer ⟨0, 0, true⟩) machine .empty .empty).2.1
    ⟨by decide, by decide⟩ _ rfl
  obtain ⟨hread, hopened, -⟩ := (gates_agree (buffer ⟨0, 18446744073709551615, true⟩) machine
    .empty .empty).1 ⟨by decide, by decide⟩ rfl
  obtain ⟨-, hsmall, -⟩ := (gates_agree (slidingWindow ⟨1024⟩) machine .empty .empty).1
    (show 1024 < 2 ^ 64 by decide) rfl
  obtain ⟨-, -, hlarge⟩ := (gates_agree (slidingWindow ⟨1025⟩) machine .empty .empty).1
    (show 1025 < 2 ^ 64 by decide) rfl
  have harray : ofJson "[\"retrieval\", 3]" = .ok (retrieval ⟨3⟩) := rfl
  refine ⟨hrefused.2, ⟨hread, hopened trivial⟩, hsmall ⟨by decide, by decide⟩, hlarge ?_,
    (gates_agree _ machine .empty .empty).2.2 _ harray⟩
  rintro ⟨-, hhas⟩
  exact absurd hhas (by decide)

/-- **The largest window passes both gates and crashes**, on any machine. -/
theorem largest_window_crashes :
    let c := slidingWindow ⟨18446744073709551615⟩
    c.Fits ∧ c.validate = .ok () ∧ ofJson (String.ofList c.pretty) = .ok c ∧
      ∀ machine : Machine, Workshop.empty.createOn machine c .empty = .error .capacityOverflow := by
  intro c
  have hfits : c.Fits := show 18446744073709551615 < 2 ^ 64 by decide
  refine ⟨hfits, rfl, ofJson_pretty hfits, fun machine => ?_⟩
  have hlarge : Machine.reservationLimit <
      (Config.SlidingWindow.mk 18446744073709551615).normalized.windowSize := by decide
  exact congrArg (Except.map _) (machine.reserve_of_large hlarge)

end Recall.Config
