import Recall.Message.Json
import Recall.Proofs.Instant.Text
import Recall.Proofs.Json.Record

/-!
# Messages that are saved and loaded again

A message that was read is written and read again (`ofJson_jsonWith`): its instant is legible,
its metadata have the shape of a value that was read, and its token count takes 64 bits
(`Readable`), so all parts but one come back as they were, the metadata from any order. The
exception is the importance. A number that is too large for its format is read as an infinity,
an infinity is written as `null`, and `null` is read as no importance. So **a message is kept
exactly if its importance is finite** (`reread_same_iff`).

A message that was never read need not be readable. It is kept as well if it is made of parts
that JSON can express (`Expressible`, `reread_expressible`), whatever its texts are.
-/

namespace Recall

open Json (Failure RecordField Found Mismatch)

/-! ## Instants and roles inside a message -/

/-- A written instant needs no escapes. -/
theorem Instant.plain_text (t : Instant) : ∀ c ∈ t.text, Json.Plain c := by
  have hpadded : ∀ width n, ∀ c ∈ Decimal.paddedText width n, Json.Plain c :=
    fun _ _ _ hc => Json.plain_of_isDigit (Decimal.isDigit_paddedText hc)
  have hyear : ∀ year, ∀ c ∈ yearText year, Json.Plain c := by
    intro year
    unfold yearText
    split
    · exact hpadded _ _
    · exact List.forall_mem_cons.mpr ⟨by split <;> decide, hpadded _ _⟩
  have hfraction : ∀ nanos, ∀ c ∈ fractionText nanos, Json.Plain c := by
    intro nanos
    have hpoint : ∀ width n, ∀ c ∈ '.' :: Decimal.paddedText width n, Json.Plain c :=
      fun width n => List.forall_mem_cons.mpr ⟨by decide, hpadded width n⟩
    unfold fractionText
    split
    · simp
    · split
      · exact hpoint _ _
      · split <;> exact hpoint _ _
  simp only [text, List.forall_mem_append, List.forall_mem_cons]
  refine ⟨⟨⟨⟨⟨⟨⟨hyear _, by decide, hpadded _ _⟩, by decide, hpadded _ _⟩, by decide, hpadded _ _⟩,
    by decide, hpadded _ _⟩, by decide, hpadded _ _⟩, hfraction _⟩, by decide, by simp⟩

theorem Role.read_json (role : Role) (rest : List Char) :
    Role.read (role.json ++ rest) = .ok (role, rest) := by
  rw [json, Json.quote_append]
  show Role.readName ('"' :: _) = _
  refine bind_eq_ok_iff.mpr ⟨(role.text, rest), Json.keyContents_quoted role.text rest, ?_⟩
  simp only [ofName, ofText?_text]
  rfl

namespace Message

/-- What reading leaves true of a message. -/
structure Readable (m : Message) : Prop where
  timestamp : m.timestamp.Legible
  metadata_ordered : Keyed.Ordered m.metadata
  metadata_shaped : ∀ entry ∈ m.metadata, entry.2.Shaped (Json.depthLimit - 2)
  tokenCount : (Json.Number.integer m.tokenCount).Fits

theorem readable_blank : blank.Readable where
  timestamp := ⟨by decide, Or.inl (by decide)⟩
  metadata_ordered := Keyed.ordered_nil
  metadata_shaped := by simp [blank]
  tokenCount := ⟨by decide, by decide⟩

theorem metadata_of_readMetadata {s t : List Char} {metadata : List (String × Json)}
    (h : readMetadata s = .ok (metadata, t)) :
    Keyed.Ordered metadata ∧ ∀ entry ∈ metadata, entry.2.Shaped (Json.depthLimit - 2) := by
  obtain ⟨⟨found, s₁⟩, -, h⟩ := bind_eq_ok_iff.mp h
  cases found with
  | object =>
      obtain ⟨⟨members, s₂⟩, hmembers, h⟩ := bind_eq_ok_iff.mp h
      cases h
      have hshaped := Json.readMembers_forall (fun _ _ _ => Json.shaped_of_readValue) hmembers
      exact ⟨Keyed.ordered_ofList members,
        fun entry hentry => hshaped entry (Keyed.mem_of_mem_ofList hentry)⟩
  | null | bool | number | string | array => cases h

/-- **Every message that was read is readable.** -/
theorem readable_of_ofJson {text : String} {m : Message} (h : ofJson text = .ok m) :
    m.Readable := by
  obtain ⟨s, hread, -⟩ := Json.readAll_eq_ok_iff.mp h
  refine Json.readRecord_invariant ?_ readable_blank hread
  simp only [fields, List.forall_mem_cons]
  refine ⟨?id, ?role, ?content, ?timestamp, ?metadata, ?importance, ?tokenCount, by simp⟩
  case id | content =>
    exact Json.preserves_scalar fun _ _ _ _ _ _ _ h => { h with }
  case importance =>
    exact Json.preserves_optional (Json.preserves_scalar fun _ _ _ _ _ _ _ h => { h with })
  case role =>
    intro record s record' t h hread
    obtain ⟨⟨role, u⟩, -, heq⟩ := map_eq_ok_iff.mp hread
    cases heq
    exact { h with }
  case timestamp =>
    refine Json.preserves_scalar fun record found s t value _ hfit h => { h with timestamp := ?_ }
    cases found with
    | string text =>
        rw [asInstant] at hfit
        split at hfit
        · rename_i t' ht
          cases hfit
          exact Instant.legible_of_ofText ht
        · cases hfit
    | null | bool | number | array | object => cases hfit
  case metadata =>
    intro record s record' t h hread
    obtain ⟨⟨metadata, u⟩, hmetadata, heq⟩ := map_eq_ok_iff.mp hread
    cases heq
    obtain ⟨hordered, hshaped⟩ := metadata_of_readMetadata hmetadata
    exact { h with metadata_ordered := hordered, metadata_shaped := hshaped }
  case tokenCount =>
    refine Json.preserves_scalar fun record found s t n hhead hfit h => { h with tokenCount := ?_ }
    obtain rfl := Json.asSize_eq_ok_iff.mp hfit
    exact Json.fits_of_readHead hhead

/-! ## Reading what was written -/

/-- The text of an importance is read as this importance. -/
def KeepsImportance (x : Single) : Prop :=
  ∃ n : Json.Number, Json.readNumber (importanceText x) = .ok (n, []) ∧ n.toBinary = x

theorem importanceText_of_infinite {x : Single} (h : x.isFinite = false) :
    importanceText x = ['n', 'u', 'l', 'l'] := by
  cases x with
  | nan => rfl
  | signed negative rank =>
      have htop : rank.val = Binary.Format.single.top := by
        simp only [Binary.isFinite, decide_eq_false_iff_not] at h
        omega
      simp [importanceText, Decimal.Layout.text?, htop]

theorem readHead_importanceText {x : Single} (h : x.isFinite = true → KeepsImportance x)
    {rest : List Char} (hrest : Json.Closed rest) :
    ∃ found, Json.readHead (importanceText x ++ rest) = .ok (found, rest) ∧
      found.orNull Found.asSingle = .ok ((some x).filter Binary.isFinite) := by
  cases hfinite : x.isFinite with
  | true =>
      obtain ⟨n, hread, hn⟩ := h hfinite
      refine ⟨.number n, Json.readHead_of_readNumber (Json.readNumber_append hrest hread), ?_⟩
      simp [Found.orNull, Found.asSingle, Except.map, Option.filter, hfinite, hn]
  | false =>
      rw [importanceText_of_infinite hfinite]
      exact ⟨.null, Json.readHead_null rest, by simp [Found.orNull, Option.filter, hfinite]⟩

theorem readMetadata_objectText {metadata entries : List (String × Json)}
    (hordered : Keyed.Ordered metadata)
    (hshaped : ∀ entry ∈ metadata, entry.2.Shaped (Json.depthLimit - 2))
    (hkept : ∀ entry ∈ metadata, entry.2.Kept) (hperm : entries.Perm metadata)
    (rest : List Char) :
    readMetadata (Json.objectText (Json.memberTexts entries) ++ rest) = .ok (metadata, rest) := by
  have hlength := Json.length_lt_text .tight true
    (entries.map fun entry => (entry.1, entry.2.text))
  rw [List.length_map] at hlength
  have hvalue : ∀ entry ∈ entries, ∀ rest, Json.Closed rest →
      Json.readValue (Json.depthLimit - 2) (Json.Spacing.tight.value ++ (entry.2.text ++ rest)) =
        .ok (entry.2, rest) := fun entry hentry rest hrest =>
    Json.readValue_text (hshaped _ (hperm.subset hentry)) (hkept _ (hperm.subset hentry)) hrest
  rw [Json.objectText_eq, Json.memberTexts_eq, List.cons_append, readMetadata, Json.readHead_object,
    ok_bind]
  dsimp only
  rw [Json.readMembers_text .tight hvalue (by rw [List.length_append]; omega), ok_bind]
  simp only [Keyed.ofList_eq_of_perm hperm hordered]
  rfl

/-- The members of a written message. -/
def parts (entries : List (String × Json)) (m : Message) : List (String × List Char) :=
  [("id", Json.quote m.id), ("role", m.role.json), ("content", Json.quote m.content),
    ("timestamp", '"' :: m.timestamp.text ++ ['"']),
    ("metadata", Json.objectText (Json.memberTexts entries))] ++
  ((match m.importance with
    | none => []
    | some x => [("importance", importanceText x)]) ++
  [("token_count", Decimal.naturalText m.tokenCount)])

theorem jsonWith_eq (entries : List (String × Json)) (m : Message) :
    m.jsonWith entries = Json.objectText (m.parts entries) := by
  unfold jsonWith parts
  cases m.importance <;> simp

/-- No required part is missing. -/
theorem missing?_parts (entries : List (String × Json)) (m : Message) :
    Json.missing? fields (Keyed.keys (m.parts entries)).reverse = none := by
  unfold parts
  cases m.importance <;> rfl

section Written

variable {m : Message} (h : m.Readable)
include h

theorem taken_tokenCount (seen : List String) (record : Message) (hseen : "token_count" ∉ seen) :
    Json.Taken fields seen [("token_count", Decimal.naturalText m.tokenCount)] record
      { record with tokenCount := m.tokenCount } := by
  have hread := Json.readNumber_integerText h.tokenCount
  rw [Json.integerText_natCast] at hread
  exact .more rfl hseen (Json.takes_scalar (fun rest hrest => Json.readHead_of_readNumber
    (Json.readNumber_append hrest hread)) (by rfl) record) (.done _ _)

/-- The parts are taken one after another, the importance only if it is finite. -/
theorem taken_parts (hkept : ∀ entry ∈ m.metadata, entry.2.Kept)
    (himportance : ∀ x, m.importance = some x → x.isFinite = true → KeepsImportance x)
    {entries : List (String × Json)} (hperm : entries.Perm m.metadata) :
    Json.Taken fields [] (m.parts entries) blank
      { m with importance := m.importance.filter Binary.isFinite } := by
  have hinstant : asInstant (.string (String.ofList m.timestamp.text)) = .ok m.timestamp := by
    rw [asInstant, String.toList_ofList, Instant.ofText_text h.timestamp]
  rw [parts, ← Json.quote_ofList m.timestamp.plain_text]
  refine .more rfl (by simp)
    (Json.takes_scalar (fun rest _ => Json.readHead_quote m.id rest) (by rfl) _) ?_
  refine .more rfl (by simp)
    (fun rest _ => map_eq_ok_iff.mpr ⟨(m.role, rest), Role.read_json m.role rest, rfl⟩) ?_
  refine .more rfl (by simp)
    (Json.takes_scalar (fun rest _ => Json.readHead_quote m.content rest) (by rfl) _) ?_
  refine .more rfl (by simp)
    (Json.takes_scalar (fun rest _ => Json.readHead_quote _ rest) hinstant _) ?_
  refine .more rfl (by simp) (fun rest _ => map_eq_ok_iff.mpr ⟨(m.metadata, rest),
    readMetadata_objectText h.metadata_ordered h.metadata_shaped hkept hperm rest, rfl⟩) ?_
  cases hm : m.importance with
  | none => exact taken_tokenCount h _ _ (by simp)
  | some x =>
      refine .more rfl (by simp) (fun rest hrest => ?_) (taken_tokenCount h _ ⟨m.id, m.role,
        m.content, m.timestamp, m.metadata, (some x).filter Binary.isFinite, 0⟩ (by simp))
      obtain ⟨found, hhead, hfit⟩ := readHead_importanceText (himportance x hm) hrest
      exact map_eq_ok_iff.mpr ⟨(_, rest), Json.readScalar_eq_ok_iff.mpr ⟨found, hhead, hfit⟩, rfl⟩

/-- **A message that was read is written and read again**, with its importance if that is
finite and without it if not. -/
theorem ofJson_jsonWith (hkept : ∀ entry ∈ m.metadata, entry.2.Kept)
    (himportance : ∀ x, m.importance = some x → x.isFinite = true → KeepsImportance x)
    {entries : List (String × Json)} (hperm : entries.Perm m.metadata) :
    ofJson (String.ofList (m.jsonWith entries)) =
      .ok { m with importance := m.importance.filter Binary.isFinite } := by
  rw [ofJson, Json.readAll_eq_ok_iff]
  refine ⟨[], ?_, rfl⟩
  rw [String.toList_ofList, jsonWith_eq, ← List.append_nil (Json.objectText _)]
  exact Json.readRecord_objectText (taken_parts h hkept himportance hperm)
    (missing?_parts entries m) _ []

end Written

theorem same_reread {m : Message} (h : m.Readable)
    (hkept : ∀ entry ∈ m.metadata, entry.2.Kept) :
    m.same { m with importance := m.importance.filter Binary.isFinite } = true ↔
      ∀ x, m.importance = some x → x.isFinite = true := by
  have hmetadata : Json.sameMembers m.metadata m.metadata = true :=
    Json.sameMembers_self fun entry hentry =>
      Json.same_self (h.metadata_shaped entry hentry) (hkept entry hentry)
  simp only [same, hmetadata, beq_self_eq_true, Bool.true_and, Bool.and_true]
  cases m.importance with
  | none => simp
  | some x => cases hx : x.isFinite with
    | true =>
        have hnan : x ≠ .nan := by
          rintro rfl
          cases hx
        simp [Option.filter, hx, Binary.numEq_self hnan]
    | false => simp [Option.filter, hx]

/-- **A message is kept exactly if its importance is finite.** -/
theorem reread_same_iff {text : String} {m : Message} (hread : ofJson text = .ok m)
    (hkept : ∀ entry ∈ m.metadata, entry.2.Kept)
    (himportance : ∀ x, m.importance = some x → x.isFinite = true → KeepsImportance x)
    {entries : List (String × Json)} (hperm : entries.Perm m.metadata) :
    ∃ m', ofJson (String.ofList (m.jsonWith entries)) = .ok m' ∧
      m' = { m with importance := m.importance.filter Binary.isFinite } ∧
      (m.same m' = true ↔ ∀ x, m.importance = some x → x.isFinite = true) :=
  have h := readable_of_ofJson hread
  ⟨_, ofJson_jsonWith h hkept himportance hperm, rfl, same_reread h hkept⟩

/-- A message with an importance of one half is kept. -/
theorem reread_half :
    ∃ m m' : Message,
      ofJson "[\"m\",\"user\",\"\",\"1970-01-01T00:00:00Z\",\x7b\"z\":1\x7d,0.5,0]" = .ok m ∧
        m.importance = some (Binary.ofRatio false 1 2) ∧
        ofJson (String.ofList m.json) = .ok m' ∧ m.same m' = true := by
  have hfacts : (ofJson
        "[\"m\",\"user\",\"\",\"1970-01-01T00:00:00Z\",\x7b\"z\":1\x7d,0.5,0]").toOption.map
      (fun m => (Json.memberNumbers m.metadata, m.importance)) =
        some ([.integer 1], some (Binary.ofRatio false 1 2)) := by decide +kernel
  obtain ⟨m, hm, heq⟩ := Option.map_eq_some_iff.mp hfacts
  obtain ⟨hnumbers, hhalf⟩ := Prod.mk.inj heq
  have hread := toOption_eq_some_iff.mp hm
  have hkept : ∀ entry ∈ m.metadata, entry.2.Kept :=
    Json.kept_of_real_notMem (by simp [hnumbers])
  have hkeeps : KeepsImportance (Binary.ofRatio false 1 2) :=
    ⟨.real (Binary.ofRatio false 1 2), by decide +kernel, by decide +kernel⟩
  have himportance : ∀ x, m.importance = some x → x = Binary.ofRatio false 1 2 :=
    fun x hx => (Option.some.inj (hhalf.symm.trans hx)).symm
  obtain ⟨m', hm', -, hsame⟩ := reread_same_iff hread hkept
    (fun x hx _ => himportance x hx ▸ hkeeps) (List.Perm.refl _)
  refine ⟨m, m', hread, hhalf, hm', hsame.mpr fun x hx => ?_⟩
  rw [himportance x hx]
  decide +kernel

/-- A message that is accepted and not kept: its importance is read as an infinity, and is gone
when the message is read again. -/
theorem infinite_importance_lost :
    ∃ m m' : Message,
      ofJson "[\"m\",\"user\",\"\",\"1970-01-01T00:00:00Z\",\x7b\x7d,1e39,0]" = .ok m ∧
        m.importance = some (Binary.infinity false) ∧
        ofJson (String.ofList m.json) = .ok m' ∧ m'.importance = none ∧ m.same m' = false := by
  have hfacts : (ofJson
        "[\"m\",\"user\",\"\",\"1970-01-01T00:00:00Z\",\x7b\x7d,1e39,0]").toOption.map
      (fun m => (Json.memberNumbers m.metadata, m.importance)) =
        some ([], some (Binary.infinity false)) := by decide +kernel
  obtain ⟨m, hm, heq⟩ := Option.map_eq_some_iff.mp hfacts
  obtain ⟨hnumbers, hinfinite⟩ := Prod.mk.inj heq
  have hread := toOption_eq_some_iff.mp hm
  have hlost : (Binary.infinity false : Single).isFinite = false := by decide +kernel
  have hkept : ∀ entry ∈ m.metadata, entry.2.Kept :=
    Json.kept_of_real_notMem (by simp [hnumbers])
  have himportance : ∀ x, m.importance = some x → x.isFinite = true → KeepsImportance x := by
    intro x hx hfinite
    obtain rfl := Option.some.inj (hinfinite.symm.trans hx)
    exact absurd hfinite (by rw [hlost]; decide)
  have h := readable_of_ofJson hread
  refine ⟨m, _, hread, hinfinite, ofJson_jsonWith h hkept himportance (List.Perm.refl _), ?_, ?_⟩
  · rw [hinfinite, Option.filter_some, hlost]
    rfl
  · rw [Bool.eq_false_iff, ne_eq, same_reread h hkept]
    intro hfinite
    exact absurd (hfinite _ hinfinite) (by rw [hlost]; decide)

/-! ## Messages that were never read -/

/-- JSON can express the parts of a message: the importance is a finite number, the token count
takes 64 bits, and the metadata are nested no deeper than the reader allows, with integers of
64 bits for all numbers. -/
structure Expressible (m : Message) : Prop where
  importance : ∀ x, m.importance = some x → x.isFinite = true
  tokenCount : m.tokenCount < 2 ^ 64
  metadata : (Json.object m.metadata).Shaped (Json.depthLimit - 1)
  integers : ∀ n ∈ Json.memberNumbers m.metadata, ∃ i, n = .integer i

theorem Expressible.readable {m : Message} (h : m.Expressible) (hinstant : m.timestamp.Legible) :
    m.Readable where
  timestamp := hinstant
  metadata_ordered := h.metadata.1
  metadata_shaped := h.metadata.2
  tokenCount := by
    have htokens := h.tokenCount
    show -(Json.Numeral.negativeLimit : Int) ≤ m.tokenCount ∧
      (m.tokenCount : Int) ≤ Json.Numeral.digitLimit
    simp only [Json.Numeral.negativeLimit, Json.Numeral.digitLimit]
    omega

theorem Expressible.kept {m : Message} (h : m.Expressible) :
    ∀ entry ∈ m.metadata, entry.2.Kept := by
  refine Json.kept_of_real_notMem fun x hx => ?_
  obtain ⟨i, hi⟩ := h.integers _ hx
  cases hi

/-- **A message is kept when it is written and read**, with its metadata written in any order,
if the texts of its instant and of its importance are read as these. -/
theorem reread_expressible {m : Message} (h : m.Expressible)
    (hinstant : Instant.ofText m.timestamp.text = .ok m.timestamp)
    (himportance : ∀ x, m.importance = some x → KeepsImportance x)
    {entries : List (String × Json)} (hperm : entries.Perm m.metadata) :
    ofJson (String.ofList (m.jsonWith entries)) = .ok m ∧ m.same m = true := by
  have hreadable := h.readable (Instant.legible_of_ofText hinstant)
  have hfinite : m.importance.filter Binary.isFinite = m.importance := by
    cases hm : m.importance with
    | none => rfl
    | some x => rw [Option.filter_some, if_pos (h.importance x hm)]
  have hwritten := ofJson_jsonWith hreadable h.kept (fun x hx _ => himportance x hx) hperm
  have hsame := (same_reread hreadable h.kept).mpr h.importance
  rw [hfinite] at hwritten hsame
  exact ⟨hwritten, hsame⟩

/-- A message with quotes and control characters in its texts, numbers at both ends of their
range, and metadata that are written in another order. -/
theorem reread_quoted :
    let first : String × Json := ("\"\n", .array [.null, .object [("", .string "\u0000\\")],
      .number (.integer (-9223372036854775808))])
    let second : String × Json := ("é", .number (.integer 18446744073709551615))
    let m : Message := ⟨"a\tb", .system, "\u0001\"\u007f𝄞", .epoch, [first, second],
      some (Binary.ofRatio false 1 2), 18446744073709551615⟩
    ofJson (String.ofList (m.jsonWith [second, first])) = .ok m ∧ m.same m = true := by
  intro first second m
  have hhalf : ∀ x, m.importance = some x → x = Binary.ofRatio false 1 2 :=
    fun x hx => (Option.some.inj hx).symm
  have hexpressible : m.Expressible := {
    importance := fun x hx => hhalf x hx ▸ by decide +kernel
    tokenCount := by decide
    metadata := by
      constructor
      · exact List.pairwise_pair.mpr (by decide)
      · simp [m, first, second, Json.Shaped, Json.Number.Fits, Keyed.Ordered, Keyed.keys,
          Json.Numeral.negativeLimit, Json.Numeral.digitLimit]
    integers := by
      simp [m, first, second, Json.memberNumbers, Json.numbers, Json.itemNumbers] }
  refine reread_expressible hexpressible (by decide +kernel) ?_ (.swap _ _ _)
  intro x hx
  rw [hhalf x hx]
  exact ⟨.real (Binary.ofRatio false 1 2), by decide +kernel, by decide +kernel⟩

end Message

end Recall
