import OrbitalSpectra.Proofs.Average.TensorEntries
import OrbitalSpectra.Proofs.Bootstrap.Draws
import OrbitalSpectra.Proofs.Exact.Matrix

set_option autoImplicit false

namespace OrbitalSpectra

open Matrix NormalStream

noncomputable def sampleSpread (xs : List ℝ) : ℝ :=
  Real.sqrt ((xs.map fun x => (x - xs.sum / xs.length) ^ 2).sum / (xs.length - 1))

theorem sample_spread_nonneg (xs : List ℝ) : 0 ≤ sampleSpread xs := Real.sqrt_nonneg _

theorem sample_spread_replicate (n : Nat) (x : ℝ) : sampleSpread (List.replicate n x) = 0 := by
  rcases Nat.eq_zero_or_pos n with rfl | positive
  · simp [sampleSpread]
  · have nonzero : (n : ℝ) ≠ 0 := by positivity
    have center : (List.replicate n x).sum / (List.replicate n x).length = x := by
      rw [List.sum_replicate, List.length_replicate, nsmul_eq_mul, mul_div_cancel_left₀ _ nonzero]
    rw [sampleSpread, center]
    simp

theorem deviation_exact {xs : List ℝ} (enough : 2 ≤ xs.length) :
    deviation (xs.map Exact.value) = .value (sampleSpread xs) := by
  have several : (2 : ℝ) ≤ xs.length := by exact_mod_cast enough
  have length : (xs.length : ℝ) ≠ 0 := by linarith
  have divisor : (xs.length : ℝ) - 1 ≠ 0 := by linarith
  have squares : 0 ≤ (xs.map fun x => (x - xs.sum / xs.length) ^ 2).sum := by
    apply List.sum_nonneg
    intro square member
    obtain ⟨x, _, rfl⟩ := List.mem_map.mp member
    positivity
  rw [deviation, total_value, List.length_map, Exact.nat_eq, Exact.value_div _ _ length, squared_deviations_value,
    Exact.one_eq, Exact.value_sub, Exact.value_div _ _ divisor, Exact.value_sqrt]
  · rfl
  · exact div_nonneg squares (by linarith)

noncomputable def spreads (samples : List (List ℝ)) (length : Nat) : List ℝ :=
  (List.range length).map fun k => sampleSpread (samples.map fun s => s.getD k 0)

@[simp] theorem spreads_length (samples : List (List ℝ)) (length : Nat) : (spreads samples length).length = length := by
  simp [spreads]

theorem spreads_nonneg {samples : List (List ℝ)} {length : Nat} {x : ℝ} (member : x ∈ spreads samples length) :
    0 ≤ x := by
  obtain ⟨k, _, rfl⟩ := List.mem_map.mp member
  exact sample_spread_nonneg _

theorem spreads_replicate (count : Nat) (xs : List ℝ) :
    spreads (List.replicate count xs) xs.length = List.replicate xs.length 0 := by
  rw [spreads, List.eq_replicate_iff]
  refine ⟨by simp, fun x member => ?_⟩
  obtain ⟨k, _, rfl⟩ := List.mem_map.mp member
  rw [List.map_replicate, sample_spread_replicate]

theorem sample_deviation_exact {samples : List (List ℝ)} {length : Nat} (uniform : ∀ s ∈ samples, s.length = length)
    (enough : 2 ≤ samples.length) :
    sampleDeviation (samples.map (List.map Exact.value)) = .ok ((spreads samples length).map .value) := by
  obtain ⟨first, rest, rfl⟩ : ∃ first rest, samples = first :: rest := by
    cases samples with
    | nil => simp at enough
    | cons first rest => exact ⟨first, rest, rfl⟩
  have head : first.length = length := uniform first (by simp)
  have column (k : Nat) : (((first :: rest).map (List.map Exact.value)).map fun s => s.getD k 0) =
      ((first :: rest).map fun s => s.getD k 0).map Exact.value := by
    rw [List.map_map, List.map_map]
    apply List.map_congr_left
    intro s _
    exact List.getD_map s 0 Exact.value
  have same : (((first :: rest).map (List.map Exact.value)).all fun s => s.length = length) = true := by
    rw [List.all_eq_true]
    intro s member
    obtain ⟨xs, listed, rfl⟩ := List.mem_map.mp member
    rw [List.length_map, uniform xs listed, decide_eq_true rfl]
  have started : ((((first :: rest).map (List.map Exact.value)).head?.map List.length).getD 0) = length := by
    simpa using head
  have deviations (k : Nat) : deviation (((first :: rest).map fun s => s.getD k 0).map Exact.value) =
      .value (sampleSpread ((first :: rest).map fun s => s.getD k 0)) := deviation_exact (by rwa [List.length_map])
  simp only [sampleDeviation, started, same, if_true, column, deviations, spreads]
  rw [List.map_map]
  rfl

theorem lists_of_numbers {samples : List (List Exact)} {length : Nat}
    (each : ∀ s ∈ samples, ∃ xs : List ℝ, xs.length = length ∧ s = xs.map .value) :
    ∃ xss : List (List ℝ), (∀ xs ∈ xss, xs.length = length) ∧ samples = xss.map (List.map .value) := by
  induction samples with
  | nil => exact ⟨[], by simp, rfl⟩
  | cons s rest ih =>
      obtain ⟨⟨xs, sized, rfl⟩, others⟩ := List.forall_mem_cons.mp each
      obtain ⟨xss, lengths, rfl⟩ := ih others
      exact ⟨xs :: xss, List.forall_mem_cons.mpr ⟨sized, lengths⟩, rfl⟩

section Samples

variable {σ : Type} [NormalStream σ Exact] {n : Nat}

def DrawsNumbers (σ : Type) [NormalStream σ Exact] : Prop :=
  ∀ state : σ, ∃ z, (next (R := Exact) state).1 = .value z

theorem finite_number {x : Exact} (finite : Scalar.isFinite x = true) : ∃ y, x = .value y := by
  cases x with
  | undefined => cases finite
  | value y => exact ⟨y, rfl⟩

theorem sample_matrix_exact (numbers : DrawsNumbers σ) {A : Matrix (Fin n) (Fin n) ℂ} {error : Mat Exact}
    {state after : σ} {drawn : Mat (Cplx Exact)}
    (sampled : sampleMatrix (Mat.exact A) error state = (.ok drawn, after)) :
    ∃ B : Matrix (Fin n) (Fin n) ℂ, B.IsHermitian ∧ drawn = Mat.exact B := by
  obtain ⟨_, _, finite, made, _⟩ := (sample_matrix_ok_iff _ _ _ _ _).mp sampled
  have entry (i j : Fin n) : ∃ z, perturbed (Mat.exact A) error state i j = Cplx.exact z := by
    obtain ⟨e, deviation⟩ := finite_number (finite i j i.isLt j.isLt)
    obtain ⟨z, draw⟩ := numbers (skip Exact (j * n + i) state)
    refine ⟨((A i j).re + e * z : ℝ), ?_⟩
    rw [perturbed, perturbedEntry, Mat.exact_entry, deviation, Mat.exact_rows, drawAt, draw]
    rfl
  choose B same using entry
  have matrix : Mat.ofFn n n (perturbed (Mat.exact A) error state) = Mat.exact (of B) :=
    Mat.of_fn_exact _ _ same
  rw [Mat.exact_rows, matrix, exact_hermitian_part] at made
  exact ⟨hermitised (of B), hermitised_is_hermitian _, (Except.ok.inj made).symm⟩

end Samples

end OrbitalSpectra
