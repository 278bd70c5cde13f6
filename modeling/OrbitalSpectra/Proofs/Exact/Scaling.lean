import OrbitalSpectra.Average.Statistics
import OrbitalSpectra.Proofs.Exact.Number

set_option autoImplicit false

namespace OrbitalSpectra

namespace Exact

def times (a : ℝ) : Exact → Exact := lift (a * ·)

variable {a : ℝ} (x y : Exact)

@[simp] theorem times_value (u : ℝ) : times a (value u) = value (a * u) := rfl

@[simp] theorem times_undefined : times a undefined = undefined := rfl

@[simp] theorem times_zero : times a 0 = 0 := congrArg value (mul_zero a)

theorem times_one : times 1 x = x := by
  cases x with
  | undefined => rfl
  | value u => exact congrArg value (one_mul u)

theorem not_lt_undefined : ¬ x < undefined := by
  cases x <;> exact id

section Operations

variable {f : ℝ → ℝ → ℝ} {g k h : ℝ → ℝ}

theorem lift_id : lift id x = x := by
  cases x <;> rfl

-- What goes through an operation on numbers goes through it where a number is undefined.
theorem lift_through (law : ∀ u v, f (g u) (k v) = h (f u v)) :
    lift₂ f (lift g x) (lift k y) = lift h (lift₂ f x y) := by
  cases x with
  | undefined => cases y <;> rfl
  | value u =>
      cases y with
      | undefined => rfl
      | value v => exact congrArg value (law u v)

theorem lift_left (law : ∀ u v, f (g u) v = h (f u v)) : lift₂ f (lift g x) y = lift h (lift₂ f x y) := by
  have both := lift_through x y (k := id) law
  rwa [lift_id] at both

theorem lift_right (law : ∀ u v, f u (k v) = h (f u v)) : lift₂ f x (lift k y) = lift h (lift₂ f x y) := by
  have both := lift_through x y (g := id) law
  rwa [lift_id] at both

theorem related_through {r : ℝ → ℝ → Prop} (law : ∀ u v, r (g u) (g v) ↔ r u v) :
    Related r (lift g x) (lift g y) ↔ Related r x y := by
  cases x with
  | undefined => cases y <;> exact Iff.rfl
  | value u =>
      cases y with
      | undefined => exact Iff.rfl
      | value v => exact law u v

end Operations

theorem times_add : times a x + times a y = times a (x + y) := lift_through x y fun u v => (mul_add a u v).symm

theorem times_sub : times a x - times a y = times a (x - y) := lift_through x y fun u v => (mul_sub a u v).symm

theorem times_neg : -times a x = times a (-x) := by
  cases x with
  | undefined => rfl
  | value u => exact congrArg value (mul_neg a u).symm

theorem times_mul : times a x * y = times a (x * y) := lift_left x y fun u v => mul_assoc a u v

theorem mul_times : x * times a y = times a (x * y) := lift_right x y fun u v => mul_left_comm u a v

theorem times_div : times a x / y = times a (x / y) := by
  cases x with
  | undefined => cases y <;> rfl
  | value u =>
      cases y with
      | undefined => rfl
      | value v =>
          by_cases zero : v = 0
          · rw [zero, times_value, value_div_zero, value_div_zero, times_undefined]
          · rw [times_value, value_div _ _ zero, value_div _ _ zero, times_value, mul_div_assoc]

theorem times_times (b : ℝ) : times a (times b x) = times (a * b) x := by
  cases x with
  | undefined => rfl
  | value u => exact congrArg value (mul_assoc a b u).symm

theorem times_back (nonzero : a ≠ 0) : times a⁻¹ (times a x) = x := by
  cases x with
  | undefined => rfl
  | value u => exact congrArg value (inv_mul_cancel_left₀ nonzero u)

theorem negative_sqrt {u : ℝ} (negative : ¬ 0 ≤ u) : Scalar.sqrt (value u) = undefined := if_neg negative

theorem times_finite : Scalar.isFinite (times a x) = Scalar.isFinite x := by
  cases x <;> rfl

section Positive

variable (positive : 0 < a)

include positive

theorem times_lt : times a x < times a y ↔ x < y := related_through x y fun _ _ => mul_lt_mul_iff_right₀ positive

theorem times_le : times a x ≤ times a y ↔ x ≤ y := related_through x y fun _ _ => mul_le_mul_iff_right₀ positive

theorem times_sqrt : Scalar.sqrt (times (a * a) x) = times a (Scalar.sqrt x) := by
  cases x with
  | undefined => rfl
  | value u =>
      by_cases nonneg : 0 ≤ u
      · have square : 0 ≤ a * a * u := by positivity
        rw [times_value, value_sqrt _ square, value_sqrt _ nonneg, times_value, Real.sqrt_mul (by positivity),
          Real.sqrt_mul_self positive.le]
      · have square : ¬ 0 ≤ a * a * u := by
          rw [mul_nonneg_iff_of_pos_left (by positivity)]
          exact nonneg
        rw [times_value, negative_sqrt square, negative_sqrt nonneg, times_undefined]

theorem times_hypot : Scalar.hypot (times a x) (times a y) = times a (Scalar.hypot x y) := by
  refine lift_through x y fun u v => ?_
  have squares : a * u * (a * u) + a * v * (a * v) = a * a * (u * u + v * v) := by ring
  rw [squares, Real.sqrt_mul (by positivity), Real.sqrt_mul_self positive.le]

end Positive

end Exact

namespace Cplx

def times (a : ℝ) (z : Cplx Exact) : Cplx Exact := ⟨.times a z.re, .times a z.im⟩

variable {a : ℝ} (z w : Cplx Exact)

@[simp] theorem times_re : (times a z).re = .times a z.re := rfl

@[simp] theorem times_im : (times a z).im = .times a z.im := rfl

@[simp] theorem times_zero : times a 0 = 0 := ext Exact.times_zero Exact.times_zero

theorem times_exact (u : ℂ) : times a (exact u) = exact (a * u) := by
  apply ext <;> simp [exact]

theorem times_add : times a z + times a w = times a (z + w) := ext (Exact.times_add _ _) (Exact.times_add _ _)

theorem times_mul : times a z * w = times a (z * w) := by
  apply ext <;> simp [Exact.times_mul, Exact.times_sub, Exact.times_add]

theorem mul_times : z * times a w = times a (z * w) := by
  apply ext <;> simp [Exact.mul_times, Exact.times_sub, Exact.times_add]

theorem times_div : times a z / w = times a (z / w) := by
  apply ext
  · change (Exact.times a z.re * w.re + Exact.times a z.im * w.im) / w.normSq = _
    rw [Exact.times_mul, Exact.times_mul, Exact.times_add, Exact.times_div]
    rfl
  · change (Exact.times a z.im * w.re - Exact.times a z.re * w.im) / w.normSq = _
    rw [Exact.times_mul, Exact.times_mul, Exact.times_sub, Exact.times_div]
    rfl

theorem times_conj : (times a z).conj = times a z.conj := ext rfl (Exact.times_neg _)

theorem times_scale (x : Exact) : (times a z).scale x = times a (z.scale x) :=
  ext (Exact.times_mul _ _) (Exact.times_mul _ _)

theorem times_back (nonzero : a ≠ 0) : times a⁻¹ (times a z) = z :=
  ext (Exact.times_back _ nonzero) (Exact.times_back _ nonzero)

theorem times_abs (positive : 0 < a) : (times a z).abs = .times a z.abs := Exact.times_hypot _ _ positive

end Cplx

section Statistics

-- A map that fits addition goes through a sum.
theorem total_commutes {A : Type} [Zero A] [Add A] {f : A → A} (zero : f 0 = 0) (add : ∀ x y, f x + f y = f (x + y))
    (xs : List A) : total (xs.map f) = f (total xs) := by
  have onto (start : A) : (xs.map f).foldl (· + ·) (f start) = f (xs.foldl (· + ·) start) := by
    induction xs generalizing start with
    | nil => rfl
    | cons x rest ih => rw [List.map_cons, List.foldl_cons, add, ih, List.foldl_cons]
  simpa [total, zero] using onto 0

variable {a : ℝ}

theorem mean_times (zs : List (Cplx Exact)) : mean (zs.map (Cplx.times a)) = Cplx.times a (mean zs) := by
  rw [mean, total_commutes Cplx.times_zero Cplx.times_add, List.length_map, Cplx.times_div, mean]

theorem squared_deviations_times (center : Exact) (xs : List Exact) :
    squaredDeviations (Exact.times a center) (xs.map (Exact.times a)) =
      Exact.times (a * a) (squaredDeviations center xs) := by
  rw [squaredDeviations, squaredDeviations, ← total_commutes Exact.times_zero Exact.times_add, List.map_map,
    List.map_map]
  congr 1
  apply List.map_congr_left
  intro x _
  simp only [Function.comp, Exact.times_sub, Exact.times_mul, Exact.mul_times, Exact.times_times]

theorem standard_error_times (positive : 0 < a) (zs : List (Cplx Exact)) :
    standardError (zs.map (Cplx.times a)) = Exact.times a (standardError zs) := by
  have parts : (zs.map (Cplx.times a)).map Cplx.re = (zs.map Cplx.re).map (Exact.times a) := by
    rw [List.map_map, List.map_map]
    rfl
  simp only [standardError, mean_times, Cplx.times_re, parts, squared_deviations_times, Exact.times_div,
    Exact.times_sqrt _ positive, List.length_map]

theorem deviation_times (positive : 0 < a) (xs : List Exact) :
    deviation (xs.map (Exact.times a)) = Exact.times a (deviation xs) := by
  simp only [deviation, total_commutes Exact.times_zero Exact.times_add, Exact.times_div, squared_deviations_times,
    Exact.times_sqrt _ positive, List.length_map]

theorem sample_deviation_times (positive : 0 < a) (samples : List (List Exact)) :
    sampleDeviation (samples.map (List.map (Exact.times a))) =
      (sampleDeviation samples).map (List.map (Exact.times a)) := by
  have lengths : (samples.map (List.map (Exact.times a))).head?.map List.length = samples.head?.map List.length := by
    cases samples with
    | nil => rfl
    | cons first rest => exact congrArg some (List.length_map _)
  have column (k : Nat) : ((samples.map (List.map (Exact.times a))).map fun s => s.getD k 0) =
      (samples.map fun s => s.getD k 0).map (Exact.times a) := by
    rw [List.map_map, List.map_map]
    apply List.map_congr_left
    intro s _
    have entry := List.getD_map s 0 (Exact.times a) (n := k)
    rwa [Exact.times_zero] at entry
  simp only [sampleDeviation, lengths, List.all_map, Function.comp_def, List.length_map, column,
    deviation_times positive]
  split
  · rw [Except.map, List.map_map]
    rfl
  · rfl

end Statistics

end OrbitalSpectra
