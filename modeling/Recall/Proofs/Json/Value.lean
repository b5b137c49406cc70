import Recall.Proofs.Json.Lexeme

/-!
# Written values are read back

**A value that was read is read back from its own text** (`readValue_text`). Two properties
of a value make this true. It has a shape that reading can give (`Shaped`): the values in it
are nested no deeper than the reader allows, its integers fit, and its objects have their
members in the order of the keys. And the texts of its numbers read back (`Kept`), which is
a fact for integers and a matter of the decimal layout for the others. A value with both
equals itself (`same_self`): among its numbers there is none that does not.

A reader goes through an array or an object one part at a time, and it knows whether the
part is the first. The text is brought into the same form (`listed`): a comma in front of
every part but the first, and the bracket behind the last. Objects are also written with
blanks; where these stand is a parameter (`Spacing`), so that one law serves both texts.
-/

namespace Recall.Json

/-! ## Listed texts -/

/-- Texts behind an opening bracket (`first`) or behind another text, up to and with the
closing bracket. -/
def listed (close : List Char) : Bool → List (List Char) → List Char
  | _, [] => close
  | first, text :: texts => (if first then [] else [',']) ++ text ++ listed close false texts

theorem joined_append (close : List Char) (texts : List (List Char)) :
    joined texts ++ close = listed close true texts := by
  have hfalse : ∀ texts : List (List Char),
      listed close false texts = texts.flatMap (',' :: ·) ++ close := by
    intro texts
    induction texts with
    | nil => rfl
    | cons text texts ih => simp [listed, ih]
  have hjoined : ∀ (texts : List (List Char)) (text : List Char),
      joined (text :: texts) = text ++ texts.flatMap (',' :: ·) := by
    intro texts
    induction texts with
    | nil => simp [joined]
    | cons second texts ih =>
        intro text
        have := ih second
        rw [joined] at this ⊢
        rw [List.intercalate_cons_cons, this]
        simp
  cases texts with
  | nil => rfl
  | cons text texts => simp [listed, hfalse, hjoined]

theorem length_le_listed {texts : List (List Char)} (h : ∀ text ∈ texts, text ≠ [])
    (close : List Char) (first : Bool) :
    texts.length + close.length ≤ (listed close first texts).length := by
  induction texts generalizing first with
  | nil => simp [listed]
  | cons text texts ih =>
      have htext := List.length_pos_iff.mpr (h text List.mem_cons_self)
      have hrest := ih (fun t ht => h t (List.mem_cons_of_mem _ ht)) false
      simp only [listed, List.length_append, List.length_cons]
      omega

/-- A comma or the closing bracket does not continue a number. -/
theorem closed_listed {close rest : List Char} (h : Closed (close ++ rest))
    (texts : List (List Char)) : Closed (listed close false texts ++ rest) := by
  cases texts with
  | nil => exact h
  | cons text texts => exact (by decide : Closed [','])

theorem arrayText_eq (items : List (List Char)) :
    arrayText items = '[' :: listed [']'] true items := by
  rw [arrayText, List.cons_append, joined_append]

/-! ## Members -/

/-- The blanks in the text of an object: in front of each key, of each value and of the
closing bracket. -/
structure Spacing where
  key : List Char
  value : List Char
  close : List Char
  key_blank : ∀ c ∈ key, isBlank c = true
  value_blank : ∀ c ∈ value, isBlank c = true
  close_blank : ∀ c ∈ close, isBlank c = true

namespace Spacing

/-- No blanks. -/
def tight : Spacing := ⟨[], [], [], by simp, by simp, by simp⟩

theorem tight_value : tight.value = [] := rfl

/-- The text of a member. -/
def member (spacing : Spacing) (entry : String × List Char) : List Char :=
  spacing.key ++ (quote entry.1 ++ ':' :: (spacing.value ++ entry.2))

/-- The members of an object and the closing bracket. -/
def text (spacing : Spacing) (first : Bool) (entries : List (String × List Char)) : List Char :=
  listed (spacing.close ++ ['}']) first (entries.map spacing.member)

end Spacing

theorem objectText_eq (entries : List (String × List Char)) :
    objectText entries = '{' :: Spacing.tight.text true entries := by
  rw [objectText, List.cons_append, joined_append]
  rfl

section Members

variable (spacing : Spacing)

theorem length_lt_text (first : Bool) (entries : List (String × List Char)) :
    entries.length < (spacing.text first entries).length := by
  have hne : ∀ text ∈ entries.map spacing.member, text ≠ [] := by
    intro text htext
    obtain ⟨entry, -, rfl⟩ := List.mem_map.mp htext
    simp [Spacing.member]
  have := length_le_listed hne (spacing.close ++ ['}']) first
  rw [List.length_map, List.length_append, List.length_singleton] at this
  exact Nat.lt_of_lt_of_le (by omega) this

theorem closed_text (entries : List (String × List Char)) (rest : List Char) :
    Closed (spacing.text false entries ++ rest) := by
  refine closed_listed ?_ _
  cases hclose : spacing.close with
  | nil => exact (by decide : Closed ['}'])
  | cons c blanks =>
      have hblank := spacing.close_blank c (hclose ▸ List.mem_cons_self)
      simp only [isBlank, Bool.or_eq_true, beq_iff_eq] at hblank
      show digit? c = none ∧ c ≠ '.' ∧ c ≠ 'e' ∧ c ≠ 'E'
      rcases hblank with ((rfl | rfl) | rfl) | rfl <;> decide

/-- The reader finds the key of the next member. -/
theorem nextKey_member (first : Bool) (key : String) (value : List Char)
    (entries : List (String × List Char)) (rest : List Char) :
    nextKey keyContents first (spacing.text first ((key, value) :: entries) ++ rest) =
      .ok (some key,
        ':' :: (spacing.value ++ (value ++ (spacing.text false entries ++ rest)))) := by
  have hquote : isBlank '"' = false := by decide
  have hkey : ∀ s, nextKey.key keyContents ('"' :: (key.toList.flatMap quoteChar ++ '"' :: s)) =
      .ok (some key, s) := by
    intro s
    simp [nextKey.key, readKey, keyContents_quoted, Except.map]
  simp only [Spacing.text, List.map_cons, listed, Spacing.member, List.append_assoc,
    List.cons_append, quote_append]
  unfold nextKey
  cases first with
  | true =>
      rw [if_pos rfl, List.nil_append, skipBlanks_append spacing.key_blank, skipBlanks_cons hquote]
      exact hkey _
  | false =>
      rw [if_neg Bool.false_ne_true, List.singleton_append, skipBlanks_cons (by decide)]
      simp only [skipBlanks_append spacing.key_blank, skipBlanks_cons hquote]
      exact hkey _

/-- The reader stays at the closing bracket. -/
theorem nextKey_close (first : Bool) (rest : List Char) :
    nextKey keyContents first (spacing.text first [] ++ rest) = .ok (none, '}' :: rest) := by
  rw [Spacing.text, List.map_nil, listed, List.append_assoc, nextKey,
    skipBlanks_append spacing.close_blank, List.singleton_append, skipBlanks_cons (by decide)]
  rfl

theorem readColon_cons (s : List Char) : readColon (':' :: s) = .ok s := rfl

theorem closeObject_cons (s : List Char) : closeObject ('}' :: s) = .ok s := rfl

/-- **Written members are read back**, where the text of each value is. -/
theorem readMembers_text {α : Type} {value : List Char → Reading α} {valueText : α → List Char}
    {members : List (String × α)}
    (hvalue : ∀ entry ∈ members, ∀ rest, Closed rest →
      value (spacing.value ++ (valueText entry.2 ++ rest)) = .ok (entry.2, rest))
    {bound : Nat} (hbound : members.length < bound) (first : Bool) (rest : List Char) :
    readMembers value bound first
        (spacing.text first (members.map fun entry => (entry.1, valueText entry.2)) ++ rest) =
      .ok (members, rest) := by
  induction members generalizing bound first with
  | nil =>
      obtain ⟨bound, rfl⟩ := Nat.exists_eq_succ_of_ne_zero (Nat.ne_of_gt hbound)
      rw [readMembers, List.map_nil, nextKey_close]
      rfl
  | cons entry members ih =>
      obtain ⟨bound, rfl⟩ := Nat.exists_eq_succ_of_ne_zero (Nat.ne_of_gt (Nat.zero_lt_of_lt hbound))
      have hhere := hvalue entry List.mem_cons_self _
        (closed_text spacing (members.map fun entry => (entry.1, valueText entry.2)) rest)
      have hrest := ih (fun e he => hvalue e (List.mem_cons_of_mem _ he))
        (Nat.lt_of_succ_lt_succ hbound) false
      rw [readMembers, List.map_cons, nextKey_member]
      simp only [ok_bind, readColon_cons, hhere, hrest]
      rfl

end Members

/-! ## Items -/

/-- A text that begins like a value: not with a blank, and not with the closing bracket. -/
def Begins (s : List Char) : Prop := ∃ c t, s = c :: t ∧ isBlank c = false ∧ c ≠ ']'

theorem Begins.ne_nil {s : List Char} (h : Begins s) : s ≠ [] := by
  obtain ⟨c, t, rfl, -, -⟩ := h
  exact List.cons_ne_nil c t

theorem nextItem_item {item : List Char} (h : Begins item) (first : Bool) (close : List Char)
    (items : List (List Char)) (rest : List Char) :
    nextItem first (listed close first (item :: items) ++ rest) =
      .ok (true, item ++ (listed close false items ++ rest)) := by
  obtain ⟨c, t, rfl, hblank, hbracket⟩ := h
  cases first with
  | true => simp [listed, nextItem, skipBlanks_cons hblank, hbracket]
  | false =>
      have hcomma : ∀ s, skipBlanks (',' :: s) = ',' :: s := skipBlanks_cons (by decide)
      simp [listed, nextItem, hcomma, skipBlanks_cons hblank, hbracket]

theorem readItems_text {α : Type} {value : List Char → Reading α} {valueText : α → List Char}
    {items : List α} (hbegins : ∀ item ∈ items, Begins (valueText item))
    (hvalue : ∀ item ∈ items, ∀ rest, Closed rest →
      value (valueText item ++ rest) = .ok (item, rest))
    {bound : Nat} (hbound : items.length < bound) (first : Bool) (rest : List Char) :
    readItems value bound first (listed [']'] first (items.map valueText) ++ rest) =
      .ok (items, rest) := by
  induction items generalizing bound first with
  | nil =>
      obtain ⟨bound, rfl⟩ := Nat.exists_eq_succ_of_ne_zero (Nat.ne_of_gt hbound)
      rfl
  | cons item items ih =>
      obtain ⟨bound, rfl⟩ := Nat.exists_eq_succ_of_ne_zero (Nat.ne_of_gt (Nat.zero_lt_of_lt hbound))
      have hclose : Closed ([']'] ++ rest) := (by decide : Closed [']'])
      have hhere := hvalue item List.mem_cons_self _ (closed_listed hclose (items.map valueText))
      have hrest := ih (fun i hi => hbegins i (List.mem_cons_of_mem _ hi))
        (fun i hi => hvalue i (List.mem_cons_of_mem _ hi)) (Nat.lt_of_succ_lt_succ hbound) false
      rw [readItems, List.map_cons, nextItem_item (hbegins item List.mem_cons_self)]
      simp only [ok_bind, if_true, hhere, hrest]
      rfl

/-! ## The numbers in a value -/

/-- The text of a number is read as that number. -/
def Number.Kept (n : Number) : Prop := readNumber n.text = .ok (n, [])

theorem Number.Kept.begins {n : Number} (h : n.Kept) : Begins n.text := by
  obtain ⟨c, t, htext, hc⟩ := start_of_readNumber h
  refine ⟨c, t, htext, isBlank_of_start hc, ?_⟩
  rintro rfl
  exact absurd hc (by decide)

mutual

/-- The numbers in a value, in the order of its text. -/
def numbers : Json → List Number
  | number n => [n]
  | array items => itemNumbers items
  | object members => memberNumbers members
  | _ => []

def itemNumbers : List Json → List Number
  | [] => []
  | item :: items => item.numbers ++ itemNumbers items

def memberNumbers : List (String × Json) → List Number
  | [] => []
  | (_, value) :: members => value.numbers ++ memberNumbers members

end

theorem mem_itemNumbers {n : Number} {items : List Json} :
    n ∈ itemNumbers items ↔ ∃ item ∈ items, n ∈ item.numbers := by
  induction items with
  | nil => simp [itemNumbers]
  | cons item items ih => simp [itemNumbers, ih]

theorem mem_memberNumbers {n : Number} {members : List (String × Json)} :
    n ∈ memberNumbers members ↔ ∃ entry ∈ members, n ∈ entry.2.numbers := by
  induction members with
  | nil => simp [memberNumbers]
  | cons entry members ih =>
      obtain ⟨key, value⟩ := entry
      simp [memberNumbers, ih]

theorem itemTexts_eq (items : List Json) : itemTexts items = items.map text := by
  induction items with
  | nil => rfl
  | cons item items ih => simp [itemTexts, ih]

theorem memberTexts_eq (members : List (String × Json)) :
    memberTexts members = members.map fun entry => (entry.1, entry.2.text) := by
  induction members with
  | nil => rfl
  | cons entry members ih =>
      obtain ⟨key, value⟩ := entry
      simp [memberTexts, ih]

/-- The numbers in a value that are no integers have texts that read back. -/
def Kept (j : Json) : Prop := ∀ x, Number.real x ∈ j.numbers → (Number.real x).Kept

theorem Kept.item {items : List Json} (h : (array items).Kept) {item : Json}
    (hitem : item ∈ items) : item.Kept :=
  fun x hx => h x (mem_itemNumbers.mpr ⟨item, hitem, hx⟩)

theorem Kept.member {members : List (String × Json)} (h : (object members).Kept)
    {entry : String × Json} (hentry : entry ∈ members) : entry.2.Kept :=
  fun x hx => h x (mem_memberNumbers.mpr ⟨entry, hentry, hx⟩)

/-- Values without such numbers are kept. -/
theorem kept_of_real_notMem {members : List (String × Json)}
    (h : ∀ x, Number.real x ∉ memberNumbers members) : ∀ entry ∈ members, entry.2.Kept :=
  fun entry hentry x hx => absurd (mem_memberNumbers.mpr ⟨entry, hentry, hx⟩) (h x)

/-! ## The shape of a value that was read -/

/-- The shape of a value with at most `depth` arrays and objects around its innermost
parts. -/
def Shaped : Nat → Json → Prop
  | _, number n => n.Fits
  | depth + 1, array items => ∀ item ∈ items, Shaped depth item
  | depth + 1, object members =>
    Keyed.Ordered members ∧ ∀ entry ∈ members, Shaped depth entry.2
  | 0, array _ | 0, object _ => False
  | _, null | _, bool _ | _, string _ => True

theorem Kept.number {depth : Nat} {n : Number} (hshape : (number n).Shaped depth)
    (h : (number n).Kept) : n.Kept := by
  cases n with
  | integer i =>
      have hfits : (Number.integer i).Fits := by
        cases depth <;> exact hshape
      exact readNumber_integerText hfits
  | real x => exact h x (List.mem_singleton.mpr rfl)

theorem begins_text {depth : Nat} {j : Json} (hshape : j.Shaped depth) (h : j.Kept) :
    Begins j.text := by
  cases j with
  | null => exact ⟨'n', _, rfl, by decide, by decide⟩
  | bool b => cases b with
    | true => exact ⟨'t', _, rfl, by decide, by decide⟩
    | false => exact ⟨'f', _, rfl, by decide, by decide⟩
  | number n => exact (Kept.number hshape h).begins
  | string s => exact ⟨'"', _, rfl, by decide, by decide⟩
  | array items => exact ⟨'[', _, rfl, by decide, by decide⟩
  | object members => exact ⟨'{', _, rfl, by decide, by decide⟩

/-- The reader of the values within a value. -/
def inner? : Nat → Option (List Char → Reading Json)
  | 0 => none
  | depth + 1 => some (readValue depth)

theorem readValue_eq (depth : Nat) (s : List Char) :
    readValue depth s = (do
      let (head, s) ← readHead s
      readBody (inner? depth) head s) := by
  cases depth <;> rfl

theorem readValue_append {blanks : List Char} (h : ∀ c ∈ blanks, isBlank c = true)
    (depth : Nat) (s : List Char) : readValue depth (blanks ++ s) = readValue depth s := by
  rw [readValue_eq, readValue_eq, readHead_append h]

/-- What is true of every value that is read is true of every item. -/
theorem readItems_forall {α : Type} {value : List Char → Reading α} {P : α → Prop}
    (hvalue : ∀ s a t, value s = .ok (a, t) → P a) {bound : Nat} {first : Bool}
    {s t : List Char} {items : List α} (h : readItems value bound first s = .ok (items, t)) :
    ∀ item ∈ items, P item := by
  induction bound generalizing first s items with
  | zero => cases h
  | succ bound ih =>
      rw [readItems] at h
      obtain ⟨⟨more, s₁⟩, -, h⟩ := bind_eq_ok_iff.mp h
      cases more with
      | false =>
          obtain ⟨s₂, -, h⟩ := bind_eq_ok_iff.mp h
          cases h
          exact fun item hitem => absurd hitem List.not_mem_nil
      | true =>
          obtain ⟨⟨item, s₂⟩, hitem, h⟩ := bind_eq_ok_iff.mp h
          obtain ⟨⟨items, s₃⟩, hitems, h⟩ := bind_eq_ok_iff.mp h
          cases h
          exact List.forall_mem_cons.mpr ⟨hvalue _ _ _ hitem, ih hitems⟩

/-- What is true of every value that is read is true of the value of every member. -/
theorem readMembers_forall {α : Type} {value : List Char → Reading α} {P : α → Prop}
    (hvalue : ∀ s a t, value s = .ok (a, t) → P a) {bound : Nat} {first : Bool}
    {s t : List Char} {members : List (String × α)}
    (h : readMembers value bound first s = .ok (members, t)) :
    ∀ entry ∈ members, P entry.2 := by
  induction bound generalizing first s members with
  | zero => cases h
  | succ bound ih =>
      rw [readMembers] at h
      obtain ⟨⟨key?, s₁⟩, -, h⟩ := bind_eq_ok_iff.mp h
      cases key? with
      | none =>
          obtain ⟨s₂, -, h⟩ := bind_eq_ok_iff.mp h
          cases h
          exact fun entry hentry => absurd hentry List.not_mem_nil
      | some key =>
          obtain ⟨s₂, -, h⟩ := bind_eq_ok_iff.mp h
          obtain ⟨⟨item, s₃⟩, hitem, h⟩ := bind_eq_ok_iff.mp h
          obtain ⟨⟨members, s₄⟩, hmembers, h⟩ := bind_eq_ok_iff.mp h
          cases h
          exact List.forall_mem_cons.mpr ⟨hvalue _ _ _ hitem, ih hmembers⟩

theorem shaped_of_readValue {depth : Nat} {s t : List Char} {j : Json}
    (h : readValue depth s = .ok (j, t)) : j.Shaped depth := by
  induction depth using Nat.strongRecOn generalizing s t j with
  | ind depth ih =>
      rw [readValue_eq] at h
      obtain ⟨⟨head, s₁⟩, hhead, h⟩ := bind_eq_ok_iff.mp h
      cases head with
      | null | bool | string => cases h; cases depth <;> exact trivial
      | number n =>
          cases h
          have hfits := fits_of_readHead hhead
          cases depth <;> exact hfits
      | array => cases depth with
        | zero => cases h
        | succ depth =>
            obtain ⟨⟨items, s₂⟩, hitems, heq⟩ := map_eq_ok_iff.mp h
            cases heq
            exact readItems_forall (fun _ _ _ => ih depth (Nat.lt_succ_self _)) hitems
      | object => cases depth with
        | zero => cases h
        | succ depth =>
            obtain ⟨⟨members, s₂⟩, hmembers, heq⟩ := map_eq_ok_iff.mp h
            cases heq
            have hshaped := readMembers_forall (fun _ _ _ => ih depth (Nat.lt_succ_self _)) hmembers
            exact ⟨Keyed.ordered_ofList members,
              fun entry hentry => hshaped entry (Keyed.mem_of_mem_ofList hentry)⟩

/-! ## Reading back -/

theorem readHead_array (s : List Char) : readHead ('[' :: s) = .ok (.array, s) := rfl

theorem readHead_object (s : List Char) : readHead ('{' :: s) = .ok (.object, s) := rfl

/-- Written items are read back as an array. -/
theorem readBody_items {inner : List Char → Reading Json} {items : List Json}
    (hbegins : ∀ item ∈ items, Begins item.text)
    (hinner : ∀ item ∈ items, ∀ rest, Closed rest → inner (item.text ++ rest) = .ok (item, rest))
    (rest : List Char) :
    readBody (some inner) .array (listed [']'] true (items.map text) ++ rest) =
      .ok (array items, rest) := by
  have hne : ∀ s ∈ items.map text, s ≠ [] := by
    intro s hs
    obtain ⟨item, hitem, rfl⟩ := List.mem_map.mp hs
    exact (hbegins item hitem).ne_nil
  have hlength := length_le_listed hne [']'] true
  rw [List.length_map] at hlength
  rw [readBody, readItems_text hbegins hinner (by rw [List.length_append]; omega)]
  rfl

/-- Written members in the order of their keys are read back as an object. -/
theorem readBody_members {inner : List Char → Reading Json} {members : List (String × Json)}
    (hordered : Keyed.Ordered members)
    (hinner : ∀ entry ∈ members, ∀ rest, Closed rest →
      inner (entry.2.text ++ rest) = .ok (entry.2, rest))
    (rest : List Char) :
    readBody (some inner) .object
        (Spacing.tight.text true (members.map fun entry => (entry.1, entry.2.text)) ++ rest) =
      .ok (object members, rest) := by
  have hlength := length_lt_text .tight true (members.map fun entry => (entry.1, entry.2.text))
  rw [List.length_map] at hlength
  rw [readBody, readMembers_text .tight hinner (by rw [List.length_append]; omega)]
  simp only [Except.map, Keyed.ofList_eq_of_perm (List.Perm.refl members) hordered]

/-- **A value that was read is read back from its own text.** -/
theorem readValue_text {depth : Nat} {j : Json} (hshape : j.Shaped depth) (hkept : j.Kept)
    {rest : List Char} (hrest : Closed rest) :
    readValue depth (j.text ++ rest) = .ok (j, rest) := by
  induction depth using Nat.strongRecOn generalizing j rest with
  | ind depth ih =>
      rw [readValue_eq]
      cases j with
      | null => rw [text, readHead_null]; rfl
      | bool b => rw [text, readHead_boolText]; rfl
      | number n =>
          rw [text, readHead_of_readNumber (readNumber_append hrest (Kept.number hshape hkept))]
          rfl
      | string s => rw [text, readHead_quote]; rfl
      | array items => cases depth with
        | zero => exact hshape.elim
        | succ depth =>
            rw [text, itemTexts_eq, arrayText_eq, List.cons_append, readHead_array]
            refine readBody_items ?_ ?_ rest
            · exact fun item hitem => begins_text (hshape item hitem) (hkept.item hitem)
            · exact fun item hitem _ =>
                ih depth (Nat.lt_succ_self _) (hshape item hitem) (hkept.item hitem)
      | object members => cases depth with
        | zero => exact hshape.elim
        | succ depth =>
            rw [text, memberTexts_eq, objectText_eq, List.cons_append, readHead_object]
            refine readBody_members hshape.1 ?_ rest
            exact fun entry hentry _ =>
              ih depth (Nat.lt_succ_self _) (hshape.2 entry hentry) (hkept.member hentry)

/-! ## Values that equal themselves -/

/-- A number that is kept is a number. -/
theorem Number.same_self {n : Number} (h : n.Kept) : n.same n = true := by
  cases n with
  | integer i => simp [same]
  | real x =>
      refine Binary.numEq_self ?_
      rintro rfl
      cases h

theorem sameItems_self {items : List Json} (h : ∀ item ∈ items, item.same item = true) :
    sameItems items items = true := by
  induction items with
  | nil => rfl
  | cons item items ih =>
      obtain ⟨hitem, hitems⟩ := List.forall_mem_cons.mp h
      simp [sameItems, hitem, ih hitems]

theorem sameMembers_self {members : List (String × Json)}
    (h : ∀ entry ∈ members, entry.2.same entry.2 = true) : sameMembers members members = true := by
  induction members with
  | nil => rfl
  | cons entry members ih =>
      obtain ⟨hentry, hmembers⟩ := List.forall_mem_cons.mp h
      simp [sameMembers, hentry, ih hmembers]

theorem same_self {depth : Nat} {j : Json} (hshape : j.Shaped depth) (hkept : j.Kept) :
    j.same j = true := by
  induction depth using Nat.strongRecOn generalizing j with
  | ind depth ih => cases j with
    | null => rfl
    | bool | string => simp [same]
    | number n => exact Number.same_self (Kept.number hshape hkept)
    | array items => cases depth with
      | zero => exact hshape.elim
      | succ depth =>
          exact sameItems_self fun item hitem =>
            ih depth (Nat.lt_succ_self _) (hshape item hitem) (hkept.item hitem)
    | object members => cases depth with
      | zero => exact hshape.elim
      | succ depth =>
          exact sameMembers_self fun entry hentry =>
            ih depth (Nat.lt_succ_self _) (hshape.2 entry hentry) (hkept.member hentry)

/-! ## Whole texts -/

theorem readAll_eq_ok_iff {α : Type} {read : List Char → Reading α} {text : String} {a : α} :
    readAll read text = .ok a ↔ ∃ s, read text.toList = .ok (a, s) ∧ skipBlanks s = [] := by
  unfold readAll
  rw [bind_eq_ok_iff]
  constructor
  · rintro ⟨⟨value, s⟩, hread, h⟩
    dsimp only at h
    split at h
    · rename_i hblank
      cases h
      exact ⟨s, hread, hblank⟩
    · cases h
  · rintro ⟨s, hread, hblank⟩
    refine ⟨(a, s), hread, ?_⟩
    dsimp only
    rw [hblank]
    rfl

/-- Reads an object as its members, in the order of the text. -/
def readObject (s : List Char) : Except Failure (List (String × Json) × List Char) := do
  let (head, s) ← readHead s
  match head with
  | .object => readMembers (readValue (depthLimit - 1)) (s.length + 1) true s
  | found => .error (.unfit (.invalidType found "a map"))

theorem readObject_eq_ok_iff {s t : List Char} {members : List (String × Json)} :
    readObject s = .ok (members, t) ↔ ∃ u, readHead s = .ok (.object, u) ∧
      readMembers (readValue (depthLimit - 1)) (u.length + 1) true u = .ok (members, t) := by
  unfold readObject
  rw [bind_eq_ok_iff]
  constructor
  · rintro ⟨⟨found, u⟩, hhead, h⟩
    cases found with
    | object => exact ⟨u, hhead, h⟩
    | null | bool | number | string | array => cases h
  · rintro ⟨u, hhead, h⟩
    exact ⟨(.object, u), hhead, h⟩

theorem shaped_of_readObject {s t : List Char} {members : List (String × Json)}
    (h : readObject s = .ok (members, t)) :
    ∀ entry ∈ members, entry.2.Shaped (depthLimit - 1) := by
  obtain ⟨u, -, hmembers⟩ := readObject_eq_ok_iff.mp h
  exact readMembers_forall (fun _ _ _ => shaped_of_readValue) hmembers

end Recall.Json
