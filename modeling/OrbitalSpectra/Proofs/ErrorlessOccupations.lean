import OrbitalSpectra.Proofs.Exact.DiagonalPair
import OrbitalSpectra.Proofs.KeptOccupations
import OrbitalSpectra.Proofs.Koopmans.ErrorlessSpectra

set_option autoImplicit false

namespace OrbitalSpectra

open Matrix Sampling Run

section Summed

variable {n : Nat}

theorem zeros_symmetric_part : symmetricPart (Mat.zeros n n : Mat Exact) = .ok (Mat.zeros n n) := by
  rw [Mat.zeros, symmetric_part_of_fn, Except.ok.injEq]
  apply Mat.of_fn_congr
  intro i j _ _
  rw [Exact.zero_eq, Exact.half_eq, Exact.value_add, Exact.value_mul, add_zero, zero_mul]

theorem zeros_summed_error {error : SpinTensor Exact} {count : Nat} (some : 1 ≤ count)
    (zeros : error.sectors = List.replicate count (Mat.zeros n n)) : spinSummedError error = .ok (Mat.zeros n n) := by
  obtain ⟨count, rfl⟩ := Nat.exists_eq_add_of_le' some
  rcases count with _ | _ | count
  · simp only [spinSummedError, zeros]
    rfl
  · have quadrature : Mat.zipWith? (fun x y => Scalar.sqrt (x * x + y * y)) (Mat.zeros n n) (Mat.zeros n n) =
        Option.some (Mat.zeros n n : Mat Exact) := by
      rw [Mat.zeros, Mat.zip_with_of_fn, Option.some.injEq]
      apply Mat.of_fn_congr
      intro i j _ _
      rw [Exact.zero_eq, Exact.value_mul, Exact.value_add, mul_zero, add_zero, Exact.value_sqrt _ le_rfl, Real.sqrt_zero]
    simp only [spinSummedError, zeros]
    exact (or_fault_ok_iff _ _).mpr quadrature
  · simp only [spinSummedError, zeros]
    rfl

theorem multiple_hermitian {A : Matrix (Fin n) (Fin n) ℂ} (real : RealHermitian A) (count : Nat) :
    RealHermitian (count • A) where
  hermitian := by rw [IsHermitian, conjTranspose_smul, star_trivial, real.hermitian.eq]
  real := by
    intro i j
    rw [Matrix.smul_apply, Complex.im_nsmul, real.real i j, smul_zero]

theorem equal_sectors_summed {p : SpinTensor (Cplx Exact)} {error : SpinTensor Exact} {count : Nat} (some : 1 ≤ count)
    {A : Matrix (Fin n) (Fin n) ℂ} (real : RealHermitian A) (means : p.sectors = List.replicate count (Mat.exact A))
    (zeros : error.sectors = List.replicate count (Mat.zeros n n)) :
    spinSummed p error = .ok (Mat.exact (count • A), Mat.zeros n n) := by
  obtain ⟨more, rfl⟩ := Nat.exists_eq_add_of_le' some
  have shapes : p.shape = error.shape := by
    simp only [SpinTensor.shape, SpinTensor.count, SpinTensor.dim, means, zeros, List.map_replicate, List.length_replicate]
    rfl
  have fits : ¬ (p.count = 0 ∨ p.shape ≠ error.shape) := by simp [SpinTensor.count, means, shapes]
  have summed := sum_sectors_exact A (List.replicate more A)
  rw [← List.replicate_succ, List.map_replicate, List.sum_replicate, ← means] at summed
  simp only [spinSummed, if_neg fits, except_bind_ok_iff]
  refine ⟨_, summed, _, zeros_summed_error some zeros, _, ?_, _, zeros_symmetric_part, rfl⟩
  rw [exact_hermitian_part, hermitised_of_hermitian (multiple_hermitian real _).hermitian]

theorem screened_without_error (factor : ℝ) (A : Matrix (Fin n) (Fin n) ℂ) :
    screened (.value factor) A (Mat.zeros n n) = A := by
  ext i j
  have kept := screen_entry_exact (.value factor) A (Mat.zeros n n) i j
  rw [zeros_entry, screen_without_error] at kept
  exact (Cplx.exact_injective kept).symm

end Summed

-- A real matrix is rebuilt with real vectors, whichever the solver finds.
theorem Rebuilds.real {n : Nat} {A B : Matrix (Fin n) (Fin n) ℂ} {cutoff : ℝ} (rebuilds : Rebuilds A cutoff B)
    (real : RealHermitian A) : RealEntries B := by
  obtain ⟨d, U, form, rfl⟩ := rebuilds.form
  obtain ⟨f, V, realForm, vectors⟩ := real_form_exists real.hermitian real.real
  rw [rebuilt_unique form realForm]
  exact (vectors.mul (diagonal_real _)).mul vectors.conjTranspose

section Runs

variable {σ : Type} [NormalStream σ Exact] {n samples : Nat} {solver : EigenSolver Exact} {cutoff : ℝ}

theorem errorless_sample_occupations (numbers : DrawsNumbers σ) {B : Matrix (Fin n) (Fin n) ℂ} {values : List Exact}
    (solved : eigenvalues solver (Mat.exact (hermitised (realParts B))) = .ok values) (state : σ) :
    ∃ after, (sampleOccupations solver (Mat.exact B) (Mat.zeros n n)).Yields state values.reverse after := by
  simp only [sampleOccupations, bind_yields, draw_yields, except_yields, pure_yields, reporting_ok_iff]
  exact ⟨_, _, _, errorless_matrix numbers B state, _, _, ⟨solved, rfl⟩, rfl, rfl⟩

theorem equal_samples_occupations {p : SpinTensor (Cplx Exact)} {error : SpinTensor Exact} {sum m : Mat (Cplx Exact)}
    {e : Mat Exact} {kept : Nat} {regularised : Regularised Exact} {factor cutoff : Exact} {values : List Exact}
    {xs : List ℝ} (summed : spinSummed p error = .ok (sum, e)) (screenedOk : screenMatrix sum e factor = .ok (m, kept))
    (regularisedOk : regularise solver m cutoff = .ok regularised)
    (solved : eigenvalues solver regularised.matrix = .ok values)
    (sampled : ∀ state : σ, ∃ after, (sampleOccupations solver regularised.matrix e).Yields state (xs.map .value) after)
    (enough : 2 ≤ samples) (room : fitsMemory samples vectorSize = true) (state : σ) :
    ∃ after, (occupationsOf solver p error samples factor cutoff).Yields state ⟨values.reverse, zerosOf xs⟩ after := by
  obtain ⟨after, collected⟩ := collect_yields sampled room state
  refine ⟨after, ?_⟩
  simp only [occupationsOf, if_neg (Nat.not_lt.mpr enough), bind_yields, except_yields, run_yields, pure_yields,
    reporting_ok_iff]
  exact ⟨_, _, ⟨summed, rfl⟩, _, _, ⟨screenedOk, rfl⟩, _, _, ⟨note_returns _ (), rfl⟩, _, _, ⟨regularisedOk, rfl⟩, _, _,
    collected, _, _, ⟨solved, rfl⟩, _, _, ⟨equal_samples_deviation enough xs, rfl⟩, rfl, rfl⟩

theorem errorless_occupations (numbers : DrawsNumbers σ) (faithful : Faithful solver) (factor : ℝ) (nonneg : 0 ≤ cutoff)
    {p : SpinTensor (Cplx Exact)} {error : SpinTensor Exact} {A : Matrix (Fin n) (Fin n) ℂ} (real : RealHermitian A)
    (summed : spinSummed p error = .ok (Mat.exact A, Mat.zeros n n)) (enough : 2 ≤ samples)
    (room : fitsMemory samples vectorSize = true) (state : σ) :
    ∃ after, (occupationsOf solver p error samples (.value factor) (.value cutoff)).Yields state
      ⟨(occupationList A cutoff).map .value, zerosOf (occupationList A cutoff)⟩ after := by
  obtain ⟨kept, screenedOk⟩ := screen_matrix_exact (.value factor) A (e := Mat.zeros n n) rfl
  rw [screened_without_error] at screenedOk
  obtain ⟨B, _, _, rebuilds, _, regularised⟩ := regularise_kept faithful real.hermitian nonneg
  have solved := eigenvalues_exact (faithful n B rebuilds.hermitian)
  have drawnSolved :
      eigenvalues solver (Mat.exact (hermitised (realParts B))) = .ok ((ascendingSpectrum B).map .value) := by
    rw [real_parts_of_real (rebuilds.real real), hermitised_of_hermitian rebuilds.hermitian, solved]
  have sampled := errorless_sample_occupations (σ := σ) numbers drawnSolved
  rw [← List.map_reverse, rebuilds.occupation_list] at sampled
  have yields := equal_samples_occupations summed screenedOk regularised solved sampled enough room state
  rwa [← List.map_reverse, rebuilds.occupation_list] at yields

variable {source : Source Exact} {p : Params Exact} {factor : ℝ} {m : Metadata} {sectors dim count : Nat}
  {block : TensorObservable → Array ℂ}

section Constant

variable [Build] (constant : source.Constant p.selection m sectors dim count block) {A : Matrix (Fin dim) (Fin dim) ℂ}
  (real : RealHermitian A) (density : ∀ s < sectors, constantMatrix m dim block .density s = A)

include constant real density

theorem constant_density_summed : ∃ t, (averageDensity source p.selection).Returns t ∧
    spinSummed t.mean t.error = .ok (Mat.exact (sectors • A), Mat.zeros dim dim) := by
  obtain ⟨t, averaged, means, errors⟩ := constant_density constant
  have some : 1 ≤ sectors := by
    have counted := flat_layout_count constant.layout
    split at counted <;> omega
  have equal : t.mean.sectors = List.replicate sectors (Mat.exact A) := by
    rw [means, List.eq_replicate_iff]
    refine ⟨by simp, fun sector member => ?_⟩
    obtain ⟨s, inside, rfl⟩ := List.mem_map.mp member
    rw [← density s (List.mem_range.mp inside)]
    exact Mat.of_fn_exact _ _ fun _ _ => rfl
  have zeros : t.error.sectors = List.replicate sectors (Mat.zeros dim dim) := by
    rw [errors, List.eq_replicate_iff]
    refine ⟨by simp, fun sector member => ?_⟩
    obtain ⟨s, _, rfl⟩ := List.mem_map.mp member
    rfl
  exact ⟨t, averaged, equal_sectors_summed some real equal zeros⟩

variable (faithful : Faithful solver) (enough : 2 ≤ p.samples) (screens : p.screenFactor = .value factor)
  (positive : 0 ≤ factor) (held : p.cutoff = .value cutoff) (nonneg : 0 ≤ cutoff) (entropy : σ)

include faithful enough screens positive held nonneg

theorem constant_occupations (numbers : DrawsNumbers σ) (room : fitsMemory p.samples vectorSize = true) :
    (naturalOccupations solver source p entropy).Returns
      ⟨(occupationList (sectors • A) cutoff).map .value, zerosOf (occupationList (sectors • A) cutoff)⟩ := by
  obtain ⟨t, averaged, summed⟩ := constant_density_summed constant real density
  obtain ⟨after, yields⟩ := errorless_occupations numbers faithful factor nonneg (multiple_hermitian real sectors) summed
    enough room (p.stream entropy)
  simp only [naturalOccupations, bind_returns, lift_returns, reporting_ok_iff, screens, held]
  exact ⟨(), validate_exact constant.stride enough screens positive held, t, averaged, _, yields, (), note_returns _ (),
    rfl⟩

theorem constant_occupations_without_room (full : fitsMemory p.samples vectorSize = false) :
    (naturalOccupations solver source p entropy).outcome = .error .capacity := by
  obtain ⟨t, averaged, summed⟩ := constant_density_summed constant real density
  have values := occupation_values_exact faithful summed (multiple_hermitian real sectors).hermitian
    ⟨rfl, fun i j => by rw [zeros_entry, zeros_entry]⟩ (fun i j => by rw [zeros_entry, Exact.value_finite]) p.samples
    p.screenFactor nonneg
  rw [requireRoom, full] at values
  have central := occupations_central solver source p entropy
    (validate_exact constant.stride enough screens positive held)
  rw [centralOccupations, averaged, held] at central
  exact (except_map_error_iff _ _ _).mp (central.trans values)

end Constant

end Runs

end OrbitalSpectra
