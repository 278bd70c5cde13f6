import Mathlib
import OrbitalSpectra.Cplx

set_option autoImplicit false

namespace OrbitalSpectra

-- By name, so that a two is one and the same term wherever it is written.
instance two_at_least_two : Nat.AtLeastTwo 2 := ⟨Nat.le_refl 2⟩

-- Division by zero and the root of a negative number are undefined, as is what is computed from an undefined
-- number; no comparison holds of one.
inductive Exact
  | undefined
  | value (x : ℝ)

namespace Exact

def lift (f : ℝ → ℝ) : Exact → Exact
  | value x => value (f x)
  | undefined => undefined

def lift₂ (f : ℝ → ℝ → ℝ) : Exact → Exact → Exact
  | value x, value y => value (f x y)
  | _, _ => undefined

noncomputable def divide : Exact → Exact → Exact
  | value x, value y => if y = 0 then undefined else value (x / y)
  | _, _ => undefined

noncomputable def root : Exact → Exact
  | value x => if 0 ≤ x then value (Real.sqrt x) else undefined
  | undefined => undefined

def Related (relation : ℝ → ℝ → Prop) : Exact → Exact → Prop
  | value x, value y => relation x y
  | _, _ => False

-- Undefined comes first, as the floats have it.
noncomputable def ordered : Exact → Exact → Bool
  | undefined, _ => true
  | value _, undefined => false
  | value x, value y => decide (x ≤ y)

noncomputable instance : Scalar Exact where
  zero := value 0
  one := value 1
  add := lift₂ (· + ·)
  sub := lift₂ (· - ·)
  mul := lift₂ (· * ·)
  div := divide
  neg := lift (- ·)
  natCast n := value n
  ofScientific mantissa sign exponent := value (OfScientific.ofScientific mantissa sign exponent)
  lt := Related (· < ·)
  le := Related (· ≤ ·)
  decLt _ _ := Classical.propDecidable _
  decLe _ _ := Classical.propDecidable _
  sqrt := root
  hypot := lift₂ fun x y => Real.sqrt (x * x + y * y)
  isFinite
    | value _ => true
    | undefined => false
  undefined := undefined
  totalLe := ordered
  text _ := ""

variable (x y : ℝ)

theorem value_injective : Function.Injective value := fun _ _ same => value.inj same

@[simp] theorem zero_eq : (0 : Exact) = value 0 := rfl
@[simp] theorem one_eq : (1 : Exact) = value 1 := rfl
@[simp] theorem nat_eq (n : Nat) : (n : Exact) = value n := rfl
@[simp] theorem undefined_eq : (Scalar.undefined : Exact) = undefined := rfl
@[simp] theorem value_add : value x + value y = value (x + y) := rfl
@[simp] theorem value_sub : value x - value y = value (x - y) := rfl
@[simp] theorem value_mul : value x * value y = value (x * y) := rfl
@[simp] theorem value_neg : -value x = value (-x) := rfl
@[simp] theorem value_lt : value x < value y ↔ x < y := Iff.rfl
@[simp] theorem value_le : value x ≤ value y ↔ x ≤ y := Iff.rfl
@[simp] theorem value_finite : Scalar.isFinite (value x) = true := rfl
@[simp] theorem value_ordered : Scalar.totalLe (value x) (value y) = decide (x ≤ y) := rfl

theorem value_div (nonzero : y ≠ 0) : value x / value y = value (x / y) := if_neg nonzero

theorem value_div_zero : value x / value 0 = undefined := if_pos rfl

theorem value_sqrt (nonneg : 0 ≤ x) : Scalar.sqrt (value x) = value (Real.sqrt x) := if_pos nonneg

theorem undefined_sqrt : Scalar.sqrt undefined = undefined := rfl

theorem half_eq : (0.5 : Exact) = value (1 / 2) := by
  change value (OfScientific.ofScientific 5 true 1) = _
  norm_num

theorem two_eq : (2.0 : Exact) = value 2 := by
  change value (OfScientific.ofScientific 20 true 1) = _
  norm_num

end Exact

theorem exact_add_comm (x y : Exact) : x + y = y + x := by
  cases x with
  | undefined => cases y <;> rfl
  | value a =>
      cases y with
      | undefined => rfl
      | value b => exact congrArg Exact.value (add_comm a b)

namespace Cplx

def exact (z : ℂ) : Cplx Exact := ⟨.value z.re, .value z.im⟩

variable (z w : ℂ)

theorem exact_injective : Function.Injective exact := by
  intro z w same
  exact Complex.ext (Exact.value_injective (congrArg re same)) (Exact.value_injective (congrArg im same))

@[simp] theorem exact_re : (exact z).re = .value z.re := rfl
@[simp] theorem exact_im : (exact z).im = .value z.im := rfl

theorem exact_zero : exact 0 = 0 := rfl

theorem exact_one : exact 1 = 1 := rfl

theorem exact_add : exact z + exact w = exact (z + w) := rfl

theorem exact_sub : exact z - exact w = exact (z - w) := rfl

theorem exact_mul : exact z * exact w = exact (z * w) := rfl

theorem exact_conj : (exact z).conj = exact (star z) := rfl

theorem exact_scale (x : ℝ) : (exact z).scale (.value x) = exact (z * x) := by
  apply ext <;> simp [exact]

theorem exact_unscale (x : ℝ) (nonzero : x ≠ 0) : (exact z).unscale (.value x) = exact (z / x) := by
  apply ext
  · simp [exact, Exact.value_div _ _ nonzero]
  · simp [exact, Exact.value_div _ _ nonzero]

theorem exact_div (x : ℝ) (nonzero : x ≠ 0) : exact z / ofReal (.value x) = exact (z / x) := by
  have square : x * x + 0 * 0 ≠ 0 := by simpa using nonzero
  apply ext
  · change (Exact.value z.re * .value x + .value z.im * .value 0) / (.value x * .value x + .value 0 * .value 0) = _
    simp only [Exact.value_mul, Exact.value_add, Exact.value_div _ _ square, exact_re, Complex.div_ofReal_re]
    congr 1
    field_simp
    ring
  · change (Exact.value z.im * .value x - .value z.re * .value 0) / (.value x * .value x + .value 0 * .value 0) = _
    simp only [Exact.value_mul, Exact.value_add, Exact.value_sub, Exact.value_div _ _ square, exact_im,
      Complex.div_ofReal_im]
    congr 1
    field_simp
    ring

end Cplx

theorem sum_to_exact {f : Nat → ℂ} (n : Nat) :
    unitSum (fun k => Cplx.exact (f k)) n = Cplx.exact (∑ k ∈ Finset.range n, f k) := by
  fun_induction unitSum (fun k => Cplx.exact (f k)) n with
  | case1 => simp [Cplx.exact_zero]
  | case2 => simp
  | case3 n ih =>
      rw [ih, ← Cplx.exact_one, Cplx.exact_mul, Cplx.exact_add, Finset.sum_range_succ _ (n + 1), one_mul, add_comm]

theorem total_map {M A : Type} [AddMonoid M] [Zero A] [Add A] (f : M → A) (zero : f 0 = 0)
    (add : ∀ x y, f x + f y = f (x + y)) (xs : List M) : total (xs.map f) = f xs.sum := by
  have onto : ∀ start : M, (xs.map f).foldl (· + ·) (f start) = f (start + xs.sum) := by
    induction xs with
    | nil => simp
    | cons x rest ih =>
        intro start
        rw [List.map_cons, List.foldl_cons, add, ih, List.sum_cons, add_assoc]
  simpa [total, zero] using onto 0

theorem total_exact (zs : List ℂ) : total (zs.map Cplx.exact) = Cplx.exact zs.sum :=
  total_map Cplx.exact Cplx.exact_zero Cplx.exact_add zs

theorem total_value (xs : List ℝ) : total (xs.map Exact.value) = Exact.value xs.sum :=
  total_map Exact.value rfl Exact.value_add xs

end OrbitalSpectra
