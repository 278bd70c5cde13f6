import OrbitalSpectra.Proofs.Exact.Matrix

set_option autoImplicit false

namespace OrbitalSpectra

open Matrix

namespace Exact

def real : Exact → ℝ
  | value x => x
  | undefined => 0

def IsNumber (x : Exact) : Prop := x = value x.real

variable (x y : Exact)

theorem add_undefined : x + undefined = undefined := by cases x <;> rfl

theorem sub_undefined : x - undefined = undefined := by cases x <;> rfl

theorem mul_undefined : x * undefined = undefined := by cases x <;> rfl

theorem undefined_not_number : ¬ undefined.IsNumber := by
  rintro ⟨⟩

theorem mul_is_number_iff : (x * y).IsNumber ↔ x.IsNumber ∧ y.IsNumber := by
  cases x with
  | undefined => exact iff_of_false undefined_not_number fun both => undefined_not_number both.1
  | value a =>
      cases y with
      | undefined => exact iff_of_false undefined_not_number fun both => undefined_not_number both.2
      | value b => exact iff_of_true rfl ⟨rfl, rfl⟩

theorem real_mul : (x * y).real = x.real * y.real := by
  cases x with
  | undefined => exact (zero_mul _).symm
  | value a =>
      cases y with
      | undefined => exact (mul_zero _).symm
      | value b => rfl

end Exact

namespace Cplx

def void : Cplx Exact := ⟨.undefined, .undefined⟩

def number (z : Cplx Exact) : ℂ := ⟨z.re.real, z.im.real⟩

def Whole (z : Cplx Exact) : Prop := z = exact z.number

theorem exact_whole (w : ℂ) : (exact w).Whole := rfl

theorem void_not_whole : ¬ void.Whole := by
  intro whole
  cases congrArg Cplx.re whole

theorem lost_part {z : Cplx Exact} (lost : ¬ z.Whole) : z.re = .undefined ∨ z.im = .undefined := by
  obtain ⟨_ | x, _ | y⟩ := z
  · exact .inl rfl
  · exact .inl rfl
  · exact .inr rfl
  · exact absurd rfl lost

theorem whole_iff (z : Cplx Exact) : z.Whole ↔ z.re.IsNumber ∧ z.im.IsNumber := by
  constructor
  · intro whole
    exact ⟨congrArg re whole, congrArg im whole⟩
  · rintro ⟨re, im⟩
    exact Cplx.ext re im

theorem conj_conj (z : Cplx Exact) : z.conj.conj = z := by
  obtain ⟨x, _ | y⟩ := z
  · rfl
  · exact Cplx.ext rfl (congrArg Exact.value (neg_neg y))

theorem conj_number (z : Cplx Exact) : z.conj.number = star z.number := by
  obtain ⟨x, _ | y⟩ := z
  · exact Complex.ext rfl neg_zero.symm
  · rfl

theorem Whole.conj {z : Cplx Exact} (whole : z.Whole) : z.conj.Whole := by
  rw [Whole, conj_number, ← exact_conj]
  exact congrArg Cplx.conj whole

theorem conj_whole_iff (z : Cplx Exact) : z.conj.Whole ↔ z.Whole := by
  constructor
  · intro whole
    rw [← conj_conj z]
    exact whole.conj
  · exact Whole.conj

theorem scale_whole_iff (z : Cplx Exact) (x : Exact) : (z.scale x).Whole ↔ z.Whole ∧ x.IsNumber := by
  rw [whole_iff, whole_iff, and_and_right]
  exact and_congr (Exact.mul_is_number_iff _ _) (Exact.mul_is_number_iff _ _)

theorem scale_number (z : Cplx Exact) (x : Exact) : (z.scale x).number = z.number * x.real := by
  apply Complex.ext
  · rw [Complex.re_mul_ofReal]
    exact Exact.real_mul _ _
  · rw [Complex.im_mul_ofReal]
    exact Exact.real_mul _ _

-- A number just under the condition, and then `w`.
structure ReadsAs (z : Cplx Exact) (condition : Prop) (w : ℂ) : Prop where
  whole : z.Whole ↔ condition
  number : condition → z.number = w

-- What is more, undefined in both parts without the condition.
structure NumberIf (z : Cplx Exact) (condition : Prop) (w : ℂ) : Prop where
  number : condition → z = exact w
  lost : ¬ condition → z = void

section Arithmetic

variable {z z' : Cplx Exact} {p q : Prop} {a b : ℂ}

theorem reads_itself (z : Cplx Exact) : z.ReadsAs z.Whole z.number := ⟨Iff.rfl, fun _ => rfl⟩

theorem ReadsAs.conj (held : z.ReadsAs p a) : z.conj.ReadsAs p (star a) where
  whole := (conj_whole_iff z).trans held.whole
  number present := by rw [conj_number, held.number present]

theorem ReadsAs.scale (held : z.ReadsAs p a) (x : Exact) : (z.scale x).ReadsAs (p ∧ x.IsNumber) (a * x.real) where
  whole := by rw [scale_whole_iff, held.whole]
  number present := by rw [scale_number, held.number present.1]

theorem ReadsAs.exact_eq (held : z.ReadsAs p a) (present : p) : z = exact a := by
  rw [← held.number present]
  exact held.whole.mpr present

theorem NumberIf.reads (held : z.NumberIf p a) : z.ReadsAs p a where
  whole := by
    constructor
    · intro whole
      by_contra absent
      rw [held.lost absent] at whole
      exact void_not_whole whole
    · intro present
      rw [held.number present]
      exact exact_whole a
  number present := by rw [held.number present]; rfl

theorem NumberIf.unique (held : z.NumberIf p a) (other : z'.NumberIf q b) (same : p ↔ q) (value : a = b) :
    z = z' := by
  by_cases present : p
  · rw [held.number present, other.number (same.mp present), value]
  · rw [held.lost present, other.lost fun holds => present (same.mpr holds)]

theorem NumberIf.conj (held : z.NumberIf p a) : z.conj.NumberIf p (star a) where
  number present := by rw [held.number present, exact_conj]
  lost absent := by rw [held.lost absent]; rfl

theorem NumberIf.add (held : z.NumberIf p a) (other : z'.NumberIf q b) : (z + z').NumberIf (p ∧ q) (a + b) where
  number present := by rw [held.number present.1, other.number present.2, exact_add]
  lost absent := by
    by_cases left : p
    · rw [other.lost fun right => absent ⟨left, right⟩]
      exact Cplx.ext (Exact.add_undefined _) (Exact.add_undefined _)
    · rw [held.lost left]
      rfl

-- One undefined part of a factor leaves no part of a product with a number.
theorem mul_lost (a : ℂ) {w : Cplx Exact} (lost : ¬ w.Whole) : exact a * w = void := by
  rcases lost_part lost with re | im
  · apply Cplx.ext
    · rw [mul_re, re, Exact.mul_undefined]; rfl
    · rw [mul_im, re, Exact.mul_undefined, Exact.add_undefined]; rfl
  · apply Cplx.ext
    · rw [mul_re, im, Exact.mul_undefined, Exact.sub_undefined]; rfl
    · rw [mul_im, im, Exact.mul_undefined]; rfl

theorem NumberIf.mul (held : z.NumberIf p a) (other : z'.ReadsAs q b) : (z * z').NumberIf (p ∧ q) (a * b) where
  number present := by rw [held.number present.1, other.exact_eq present.2, exact_mul]
  lost absent := by
    by_cases left : p
    · rw [held.number left]
      exact mul_lost a fun whole => absent ⟨left, other.whole.mp whole⟩
    · rw [held.lost left]
      rfl

theorem ReadsAs.one_mul (held : z.ReadsAs p a) : (1 * z).NumberIf p a where
  number present := by rw [held.exact_eq present, ← exact_one, exact_mul, MulOneClass.one_mul]
  lost absent := by
    rw [← exact_one]
    exact mul_lost 1 fun whole => absent (held.whole.mp whole)

end Arithmetic

theorem unit_sum_number_if {f : Nat → Cplx Exact} {p : Nat → Prop} {a : Nat → ℂ} (n : Nat)
    (each : ∀ k < n, (f k).NumberIf (p k) (a k)) :
    (unitSum f n).NumberIf (∀ k < n, p k) (∑ k ∈ Finset.range n, a k) := by
  fun_induction unitSum f n with
  | case1 => exact ⟨fun _ => exact_zero.symm, fun absent => absurd (by simp) absent⟩
  | case2 => simpa using each 0 one_pos
  | case3 n ih =>
      have before := ih fun k inside => each k (Nat.lt_succ_of_lt inside)
      have whole := (each (n + 1) (Nat.lt_succ_self _)).add before.reads.one_mul
      rwa [and_comm, ← Nat.forall_lt_succ_right, add_comm (a _), ← Finset.sum_range_succ] at whole

end Cplx

section Products

variable {left right product : Mat (Cplx Exact)}

theorem product_inner (multiplied : left.mul? right = some product) : left.cols = right.rows := by
  unfold Mat.mul? at multiplied
  split at multiplied
  · assumption
  · cases multiplied

theorem product_shape (multiplied : left.mul? right = some product) : product.shape = (left.rows, right.cols) := by
  unfold Mat.mul? at multiplied
  split at multiplied
  · cases multiplied
    rfl
  · cases multiplied

-- An entry of a product is a number if its row on the left and its column on the right are.
theorem product_entry {n i j : Nat} {p q : Nat → Prop} {a b : Nat → ℂ} (multiplied : left.mul? right = some product)
    (inner : left.cols = n) (row : i < left.rows) (col : j < right.cols)
    (lefts : ∀ k < n, (left.entry i k).ReadsAs (p k) (a k)) (rights : ∀ k < n, (right.entry k j).ReadsAs (q k) (b k)) :
    (product.entry i j).NumberIf (∀ k < n, p k ∧ q k) (∑ k ∈ Finset.range n, a k * b k) := by
  unfold Mat.mul? at multiplied
  split at multiplied
  · cases multiplied
    rw [Mat.entry_ofFn _ row col, inner]
    exact Cplx.unit_sum_number_if n fun k inside => (lefts k inside).one_mul.mul (rights k inside)
  · cases multiplied

end Products

end OrbitalSpectra
