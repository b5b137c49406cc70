import Recall.Json.Record
import Recall.Proofs.Json.Value

/-!
# Records that are read

What every field leaves true of a record is true of the record that is read, whether the
text is an object or an array (`readRecord_invariant`).

The other way round, a record that is written as an object is read by its fields in the
order of the text (`Taken`), each of which takes the text of its own value and nothing
behind it. Such a text is read back as soon as no required field is missing from it
(`readRecord_objectText`).
-/

namespace Recall.Json

/-! ## Values without structure -/

section Scalars

variable {α : Type} {fit : Found → Except Mismatch α}

theorem readScalar_eq_ok_iff {s t : List Char} {a : α} :
    readScalar fit s = .ok (a, t) ↔ ∃ found, readHead s = .ok (found, t) ∧ fit found = .ok a := by
  unfold readScalar
  rw [bind_eq_ok_iff]
  constructor
  · rintro ⟨⟨found, u⟩, hhead, h⟩
    dsimp only at h
    split at h
    · rename_i value hfit
      cases h
      exact ⟨found, hhead, hfit⟩
    · cases h
  · rintro ⟨found, hhead, hfit⟩
    refine ⟨(found, t), hhead, ?_⟩
    dsimp only
    rw [hfit]
    rfl

/-- A scalar is what the value at the same place looks like, unless that has structure. -/
theorem readScalar_iff_of_readValue (harray : ∀ a, fit .array ≠ .ok a)
    (hobject : ∀ a, fit .object ≠ .ok a) {depth : Nat} {s t u : List Char} {j : Json}
    (h : readValue depth s = .ok (j, t)) {a : α} :
    readScalar fit s = .ok (a, u) ↔ fit j.head = .ok a ∧ u = t := by
  rw [readValue_eq] at h
  obtain ⟨⟨found, v⟩, hhead, hbody⟩ := bind_eq_ok_iff.mp h
  have hscalar : readScalar fit s = .ok (a, u) ↔ fit found = .ok a ∧ u = v := by
    rw [readScalar_eq_ok_iff, hhead]
    constructor
    · rintro ⟨_, heq, hfit⟩
      cases heq
      exact ⟨hfit, rfl⟩
    · rintro ⟨hfit, rfl⟩
      exact ⟨found, rfl, hfit⟩
  rw [hscalar]
  cases found with
  | null | bool | number | string => cases hbody; rfl
  | array => cases hinner : inner? depth with
    | none => rw [hinner] at hbody; cases hbody
    | some inner =>
        rw [hinner] at hbody
        obtain ⟨⟨items, w⟩, -, heq⟩ := map_eq_ok_iff.mp hbody
        cases heq
        simp [head, harray]
  | object => cases hinner : inner? depth with
    | none => rw [hinner] at hbody; cases hbody
    | some inner =>
        rw [hinner] at hbody
        obtain ⟨⟨members, w⟩, -, heq⟩ := map_eq_ok_iff.mp hbody
        cases heq
        simp [head, hobject]

/-- A size is an integer that is not negative. -/
theorem asSize_eq_ok_iff {found : Found} {n : Nat} :
    found.asSize = .ok n ↔ found = .number (.integer n) := by
  cases found with
  | number number => cases number with
    | integer i =>
        simp only [Found.asSize]
        split <;> simp <;> omega
    | real x => simp [Found.asSize]
  | null | bool | string | array | object => simp [Found.asSize]

end Scalars

/-! ## What the fields leave true -/

section Invariant

variable {σ : Type} {I : σ → Prop}

/-- The field leaves `I` true. -/
def RecordField.Preserves (I : σ → Prop) (field : RecordField σ) : Prop :=
  ∀ record s record' t, I record → field.read record s = .ok (record', t) → I record'

theorem preserves_scalar {α : Type} {name : String} {fit : Found → Except Mismatch α}
    {put : σ → α → σ}
    (h : ∀ record found s t value, readHead s = .ok (found, t) → fit found = .ok value →
      I record → I (put record value)) : (RecordField.scalar name fit put).Preserves I := by
  intro record s record' t hrecord hread
  obtain ⟨⟨value, u⟩, hscalar, heq⟩ := map_eq_ok_iff.mp hread
  cases heq
  obtain ⟨found, hhead, hfit⟩ := readScalar_eq_ok_iff.mp hscalar
  exact h record found s t value hhead hfit hrecord

theorem preserves_optional {field : RecordField σ} (h : field.Preserves I) :
    field.optional.Preserves I := h

variable {fields : List (RecordField σ)}

theorem readFields_invariant (hfields : ∀ field ∈ fields, field.Preserves I) {bound : Nat}
    {first : Bool} {seen seen' : List String} {record record' : σ} {s t : List Char}
    (hrecord : I record)
    (h : readFields fields bound first seen record s = .ok ((record', seen'), t)) :
    I record' := by
  induction bound generalizing first seen record s with
  | zero => cases h
  | succ bound ih =>
      rw [readFields] at h
      obtain ⟨⟨key?, s₁⟩, -, h⟩ := bind_eq_ok_iff.mp h
      cases key? with
      | none => cases h; exact hrecord
      | some key =>
          dsimp only at h
          split at h
          · obtain ⟨s₂, -, h⟩ := bind_eq_ok_iff.mp h
            obtain ⟨s₃, -, h⟩ := bind_eq_ok_iff.mp h
            exact ih hrecord h
          · rename_i field hfind
            split at h
            · cases h
            · obtain ⟨s₂, -, h⟩ := bind_eq_ok_iff.mp h
              obtain ⟨⟨next, s₃⟩, hread, h⟩ := bind_eq_ok_iff.mp h
              exact ih (hfields field (List.mem_of_find?_eq_some hfind) _ _ _ _ hrecord hread) h

theorem readInOrder_invariant (hfields : ∀ field ∈ fields, field.Preserves I)
    {expected : String} {index : Nat} {record record' : σ} {s t : List Char} (hrecord : I record)
    (h : readInOrder expected fields index record s = .ok (record', t)) : I record' := by
  induction fields generalizing index record s with
  | nil => cases h; exact hrecord
  | cons field fields ih =>
      rw [readInOrder] at h
      obtain ⟨⟨more, s₁⟩, -, h⟩ := bind_eq_ok_iff.mp h
      cases more with
      | true =>
          obtain ⟨⟨next, s₂⟩, hread, h⟩ := bind_eq_ok_iff.mp h
          have hnext := hfields field List.mem_cons_self _ _ _ _ hrecord hread
          exact ih (fun f hf => hfields f (List.mem_cons_of_mem _ hf)) hnext h
      | false =>
          simp only [Bool.false_eq_true, if_false] at h
          split at h <;> cases h
          exact hrecord

/-- **What every field leaves true of a record is true of the record that is read.** -/
theorem readRecord_invariant (hfields : ∀ field ∈ fields, field.Preserves I) {title : String}
    {start record : σ} {s t : List Char} (hstart : I start)
    (h : readRecord title fields start s = .ok (record, t)) : I record := by
  unfold readRecord at h
  obtain ⟨⟨found, s₁⟩, -, h⟩ := bind_eq_ok_iff.mp h
  cases found with
  | object =>
      obtain ⟨⟨⟨record', seen⟩, s₂⟩, hread, h⟩ := bind_eq_ok_iff.mp h
      dsimp only at h
      split at h
      · cases h
      · obtain ⟨s₃, -, h⟩ := bind_eq_ok_iff.mp h
        cases h
        exact readFields_invariant hfields hstart hread
  | array =>
      obtain ⟨⟨record', s₂⟩, hread, h⟩ := bind_eq_ok_iff.mp h
      obtain ⟨s₃, -, h⟩ := bind_eq_ok_iff.mp h
      cases h
      exact readInOrder_invariant hfields hstart hread
  | null | bool | number | string => cases h

end Invariant

/-! ## Records that are written -/

section Written

variable {σ : Type}

/-- The field takes this text, and turns one record into another. -/
def RecordField.Takes (field : RecordField σ) (text : List Char) (record record' : σ) : Prop :=
  ∀ rest, Closed rest → field.read record (text ++ rest) = .ok (record', rest)

theorem takes_scalar {α : Type} {name : String} {fit : Found → Except Mismatch α}
    {put : σ → α → σ} {text : List Char} {found : Found} {value : α}
    (hhead : ∀ rest, Closed rest → readHead (text ++ rest) = .ok (found, rest))
    (hfit : fit found = .ok value) (record : σ) :
    (RecordField.scalar name fit put).Takes text record (put record value) := by
  intro rest hrest
  refine map_eq_ok_iff.mpr ⟨(value, rest), ?_, rfl⟩
  exact readScalar_eq_ok_iff.mpr ⟨found, hhead rest hrest, hfit⟩

/-- The fields take written members one after another, no field twice. -/
inductive Taken (fields : List (RecordField σ)) :
    List String → List (String × List Char) → σ → σ → Prop where
  | done (seen : List String) (record : σ) : Taken fields seen [] record record
  | more {seen : List String} {key : String} {text : List Char}
      {entries : List (String × List Char)} {field : RecordField σ} {record next last : σ}
      (field_eq : fields.find? (·.name == key) = some field) (unseen : key ∉ seen)
      (takes : field.Takes text record next) (rest : Taken fields (key :: seen) entries next last) :
      Taken fields seen ((key, text) :: entries) record last

variable {fields : List (RecordField σ)}

theorem readFields_text {seen : List String} {entries : List (String × List Char)}
    {record last : σ} (h : Taken fields seen entries record last) {bound : Nat}
    (hbound : entries.length < bound) (first : Bool) (rest : List Char) :
    readFields fields bound first seen record (Spacing.tight.text first entries ++ rest) =
      .ok ((last, (Keyed.keys entries).reverse ++ seen), '}' :: rest) := by
  induction h generalizing bound first with
  | done seen record =>
      obtain ⟨bound, rfl⟩ := Nat.exists_eq_succ_of_ne_zero (Nat.ne_of_gt hbound)
      rw [readFields, nextKey_close]
      rfl
  | @more seen key text entries field record next last field_eq unseen takes _ ih =>
      obtain ⟨bound, rfl⟩ := Nat.exists_eq_succ_of_ne_zero (Nat.ne_of_gt (Nat.zero_lt_of_lt hbound))
      have htakes := takes _ (closed_text .tight entries rest)
      have hrest := ih (Nat.lt_of_succ_lt_succ hbound) false
      rw [readFields, nextKey_member]
      simp only [ok_bind, field_eq, List.contains_eq_mem, unseen, decide_false,
        Bool.false_eq_true, if_false, readColon_cons, Spacing.tight_value, List.nil_append, htakes,
        hrest]
      simp

/-- **A written record is read back**, unless a required field is missing from it. -/
theorem readRecord_objectText {entries : List (String × List Char)} {start record : σ}
    (h : Taken fields [] entries start record)
    (hrequired : missing? fields (Keyed.keys entries).reverse = none) (title : String)
    (rest : List Char) :
    readRecord title fields start (objectText entries ++ rest) = .ok (record, rest) := by
  have hlength := length_lt_text .tight true entries
  rw [objectText_eq, List.cons_append, readRecord, readHead_object]
  simp only [ok_bind]
  rw [readFields_text h (by rw [List.length_append]; omega)]
  simp only [ok_bind, List.append_nil, hrequired, closeObject_cons]
  rfl

end Written

end Recall.Json
