import OrbitalSpectra.Proofs.Exact.Bootstrap

set_option autoImplicit false

namespace OrbitalSpectra

variable {xs ys : List ℝ}

noncomputable def centredSquares (xs : List ℝ) : ℝ := (xs.map fun x => (x - xs.sum / xs.length) ^ 2).sum

theorem sample_spread_eq (xs : List ℝ) : sampleSpread xs = Real.sqrt (centredSquares xs / (xs.length - 1)) := rfl

theorem squares_nonneg (xs : List ℝ) : ∀ s ∈ xs.map fun x => (x - xs.sum / xs.length) ^ 2, 0 ≤ s := by
  intro s member
  obtain ⟨x, _, rfl⟩ := List.mem_map.mp member
  positivity

theorem centred_squares_perm (perm : xs.Perm ys) : centredSquares xs = centredSquares ys := by
  rw [centredSquares, centredSquares, perm.sum_eq, perm.length_eq]
  exact (perm.map _).sum_eq

theorem centred_squares_shift (xs : List ℝ) (c : ℝ) : centredSquares (xs.map (· + c)) = centredSquares xs := by
  rcases eq_or_ne xs [] with rfl | some
  · rfl
  have length : (xs.length : ℝ) ≠ 0 := by simpa using some
  have center : (xs.map (· + c)).sum / (xs.map (· + c)).length = xs.sum / xs.length + c := by
    rw [List.sum_map_add, List.map_id', List.map_const', List.sum_replicate, List.length_map, nsmul_eq_mul]
    field_simp
  rw [centredSquares, center, List.map_map, centredSquares]
  simp only [Function.comp_def, add_sub_add_right_eq_sub]

theorem centred_squares_times (a : ℝ) (xs : List ℝ) : centredSquares (xs.map (a * ·)) = a ^ 2 * centredSquares xs := by
  have terms (x : ℝ) : (a * x - a * (xs.sum / xs.length)) ^ 2 = a ^ 2 * (x - xs.sum / xs.length) ^ 2 := by ring
  rw [centredSquares, List.sum_map_mul_left, List.map_id', List.length_map, mul_div_assoc, List.map_map]
  simp only [Function.comp_def, terms]
  rw [List.sum_map_mul_left, centredSquares]

theorem centred_squares_zero_iff : centredSquares xs = 0 ↔ ∀ x ∈ xs, ∀ y ∈ xs, x = y := by
  constructor
  · intro zero
    have centred (x : ℝ) (member : x ∈ xs) : x = xs.sum / xs.length := by
      have square := List.all_zero_of_le_zero_le_of_sum_eq_zero (squares_nonneg xs) zero (List.mem_map_of_mem member)
      exact sub_eq_zero.mp (pow_eq_zero_iff two_ne_zero |>.mp square)
    intro x first y second
    rw [centred x first, centred y second]
  · intro same
    rcases xs with _ | ⟨x, rest⟩
    · rfl
    · have shifted : x :: rest = (List.replicate (rest.length + 1) 0).map (· + x) := by
        rw [List.map_replicate, zero_add]
        exact List.eq_replicate_of_mem fun y member => same y member x List.mem_cons_self
      rw [shifted, centred_squares_shift]
      simp [centredSquares]

theorem sample_spread_perm (perm : xs.Perm ys) : sampleSpread xs = sampleSpread ys := by
  rw [sample_spread_eq, sample_spread_eq, centred_squares_perm perm, perm.length_eq]

theorem sample_spread_shift (xs : List ℝ) (c : ℝ) : sampleSpread (xs.map (· + c)) = sampleSpread xs := by
  rw [sample_spread_eq, sample_spread_eq, centred_squares_shift, List.length_map]

theorem sample_spread_times (a : ℝ) (xs : List ℝ) : sampleSpread (xs.map (a * ·)) = |a| * sampleSpread xs := by
  rw [sample_spread_eq, sample_spread_eq, centred_squares_times, List.length_map, mul_div_assoc,
    Real.sqrt_mul (sq_nonneg a), Real.sqrt_sq_eq_abs]

theorem sample_spread_zero_iff (enough : 2 ≤ xs.length) : sampleSpread xs = 0 ↔ ∀ x ∈ xs, ∀ y ∈ xs, x = y := by
  have several : (2 : ℝ) ≤ xs.length := by exact_mod_cast enough
  have divisor : 0 < (xs.length : ℝ) - 1 := by linarith
  have nonneg : 0 ≤ centredSquares xs / (xs.length - 1) := div_nonneg (List.sum_nonneg (squares_nonneg xs)) divisor.le
  rw [sample_spread_eq, Real.sqrt_eq_zero nonneg, div_eq_zero_iff, or_iff_left divisor.ne', centred_squares_zero_iff]

end OrbitalSpectra
