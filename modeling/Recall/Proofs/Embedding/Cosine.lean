import Recall.Embedding
import Recall.Proofs.Binary.Propagation

/-!
# Cosines of any vectors

An embedder may answer anything, so a cosine is computed from whatever numbers there are.
It is a finite number all the same, and the positive zero as soon as one component of
either vector is not finite (`corrupt_embedding_scores_zero`).

The proof reads the sums backwards: a finite sum has finite terms, so a finite norm has a
finite vector and a finite dot product has two. A component that is not finite spoils the dot
product *and* a norm, and what is spoiled has no quotient with what is spoiled. The dot product
alone could be finite over an infinite norm, and that quotient would be a zero with the sign
of the dot product: this is what happens where finite components overflow.

A cosine can be the negative zero, but only where some product of components carries a minus
sign (`cosine_ne_zero_true`): norms carry none, and a sum of unsigned products does not.
-/

namespace Recall.Embedding

open Binary (Unsigned isFinite_of_add isFinite_of_mul isFinite_of_sqrt div_eq_nan
  unsigned_mul_self)

variable {a b : Embedding}

/-! ## Sums -/

theorem isFinite_of_foldl {start : Single} {xs : List Single}
    (h : (xs.foldl (· + ·) start).isFinite = true) :
    start.isFinite = true ∧ ∀ x ∈ xs, x.isFinite = true := by
  induction xs generalizing start with
  | nil => exact ⟨h, by simp⟩
  | cons x xs ih =>
      obtain ⟨hfirst, hrest⟩ := ih h
      obtain ⟨hstart, hx⟩ := isFinite_of_add hfirst
      exact ⟨hstart, List.forall_mem_cons.mpr ⟨hx, hrest⟩⟩

theorem unsigned_foldl {start : Single} {xs : List Single} (hstart : start.Unsigned)
    (h : ∀ x ∈ xs, x.Unsigned) : (xs.foldl (· + ·) start).Unsigned := by
  induction xs generalizing start with
  | nil => exact hstart
  | cons x xs ih =>
      obtain ⟨hx, hrest⟩ := List.forall_mem_cons.mp h
      exact ih (hstart.add hx) hrest

/-- A sum of unsigned numbers is unsigned, if there is any. The sum of none is the negative
zero, and the first one takes its place. -/
theorem unsigned_sum {xs : List Single} (hne : xs ≠ []) (h : ∀ x ∈ xs, x.Unsigned) :
    (sum xs).Unsigned := by
  obtain ⟨x, rest, rfl⟩ := List.exists_cons_of_ne_nil hne
  obtain ⟨hx, hrest⟩ := List.forall_mem_cons.mp h
  rw [sum, List.foldl_cons, Binary.zero_true_add]
  exact unsigned_foldl hx hrest

/-! ## Norms and dot products -/

theorem isFinite_of_norm (h : (norm a).isFinite = true) : ∀ x ∈ a, x.isFinite = true := by
  intro x hx
  have hsquare := (isFinite_of_foldl (isFinite_of_sqrt h)).2 (x * x) (List.mem_map_of_mem hx)
  exact (isFinite_of_mul hsquare).1

theorem unsigned_norm (hne : a ≠ []) : (norm a).Unsigned := by
  refine (unsigned_sum (by simpa using hne) ?_).sqrt
  intro square hsquare
  obtain ⟨x, -, rfl⟩ := List.mem_map.mp hsquare
  exact unsigned_mul_self x

/-- A finite dot product of vectors of one dimension has finite components. -/
theorem isFinite_of_dot (hlen : a.length = b.length) (h : (dot a b).isFinite = true) :
    ∀ x ∈ a ++ b, x.isFinite = true := by
  have hproducts := (isFinite_of_foldl h).2
  have hcomponents : ∀ i (ha : i < a.length) (hb : i < b.length),
      a[i].isFinite = true ∧ b[i].isFinite = true := by
    intro i ha hb
    apply isFinite_of_mul
    apply hproducts
    rw [← List.getElem_zipWith (f := (· * ·)) (i := i) (h := by simp; omega)]
    exact List.getElem_mem _
  intro x hx
  rcases List.mem_append.mp hx with hx | hx
  · obtain ⟨i, hi, rfl⟩ := List.mem_iff_getElem.mp hx
    exact (hcomponents i hi (hlen ▸ hi)).1
  · obtain ⟨i, hi, rfl⟩ := List.mem_iff_getElem.mp hx
    exact (hcomponents i (hlen ▸ hi) hi).2

/-! ## Cosines -/

theorem zero_eq : (0 : Single) = Binary.zero false := by decide

/-- A cosine is the positive zero, or the finite quotient of the dot product and the product of
two norms that are not zero. -/
theorem cosine_cases (a b : Embedding) :
    cosine a b = .zero false ∨
    (a.length = b.length ∧ (norm a).numEq 0 = false ∧ (norm b).numEq 0 = false ∧
      (dot a b / (norm a * norm b)).isFinite = true ∧
      cosine a b = dot a b / (norm a * norm b)) := by
  simp only [cosine, ← zero_eq]
  split
  · exact Or.inl rfl
  · rename_i hlen
    split
    · exact Or.inl rfl
    · rename_i hnorms
      rw [Bool.or_eq_true, not_or, Bool.not_eq_true, Bool.not_eq_true] at hnorms
      split
      · rename_i hfinite
        exact Or.inr ⟨Decidable.not_not.mp hlen, hnorms.1, hnorms.2, hfinite, rfl⟩
      · exact Or.inl rfl

/-- A component that is not finite spoils the dot product and the product of the norms. -/
theorem div_eq_nan_of_corrupt (hlen : a.length = b.length)
    (hcorrupt : ∃ x ∈ a ++ b, x.isFinite = false) : dot a b / (norm a * norm b) = .nan := by
  obtain ⟨x, hx, hbad⟩ := hcorrupt
  apply div_eq_nan
  · rw [← Bool.not_eq_true]
    intro hdot
    rw [isFinite_of_dot hlen hdot x hx] at hbad
    exact Bool.noConfusion hbad
  · rw [← Bool.not_eq_true]
    intro hnorms
    obtain ⟨ha, hb⟩ := isFinite_of_mul hnorms
    have hall : ∀ y ∈ a ++ b, y.isFinite = true :=
      List.forall_mem_append.mpr ⟨isFinite_of_norm ha, isFinite_of_norm hb⟩
    rw [hall x hx] at hbad
    exact Bool.noConfusion hbad

/-- **A corrupt embedding scores zero.** The cosine of any two vectors is finite. It is the
positive zero if their dimensions differ, if a norm is zero, or if any component of either
vector is not finite, whatever the other components are. -/
theorem corrupt_embedding_scores_zero (a b : Embedding) :
    (cosine a b).isFinite = true ∧
      (a.length ≠ b.length ∨ (norm a).numEq 0 = true ∨ (norm b).numEq 0 = true ∨
        (∃ x ∈ a ++ b, x.isFinite = false) → cosine a b = .zero false) := by
  rcases cosine_cases a b with hzero | ⟨hlen, ha, hb, hfinite, hquotient⟩
  · rw [hzero]
    exact ⟨by decide, fun _ => rfl⟩
  · refine ⟨hquotient ▸ hfinite, ?_⟩
    rintro (hdiffer | hnorm | hnorm | hcorrupt)
    · exact absurd hlen hdiffer
    · rw [ha] at hnorm
      exact Bool.noConfusion hnorm
    · rw [hb] at hnorm
      exact Bool.noConfusion hnorm
    · rw [div_eq_nan_of_corrupt hlen hcorrupt] at hfinite
      exact Bool.noConfusion hfinite

/-- Where no product of components carries a minus sign, the cosine is not the negative
zero. -/
theorem cosine_ne_zero_true (h : ∀ p ∈ a.zipWith (· * ·) b, p.Unsigned) :
    cosine a b ≠ .zero true := by
  rcases cosine_cases a b with hzero | ⟨hlen, hnorm, -, -, hquotient⟩
  · rw [hzero]
    decide
  · -- A vector of no dimension has the norm zero.
    have ha : a ≠ [] := by
      rintro rfl
      exact absurd hnorm (by decide)
    have hb : b ≠ [] := by
      rintro rfl
      exact ha (List.eq_nil_of_length_eq_zero hlen)
    have hdot : (dot a b).Unsigned := unsigned_sum (by simp [ha, hb]) h
    have hunsigned := hdot.div ((unsigned_norm ha).mul (unsigned_norm hb))
    rw [← hquotient] at hunsigned
    intro hnegative
    rw [hnegative] at hunsigned
    exact Binary.not_unsigned_zero_true hunsigned

end Recall.Embedding
