import OrbitalSpectra.Proofs.Average.Rescaling
import OrbitalSpectra.Proofs.Bootstrap.ScaledDraws
import OrbitalSpectra.Proofs.ErrorlessOccupations
import OrbitalSpectra.Proofs.Exact.ScaledSpectrum
import OrbitalSpectra.Proofs.Koopmans.SpectrumLaw

set_option autoImplicit false

namespace OrbitalSpectra

open Matrix Sampling

def Occupations.times (a : ℝ) (occupations : Occupations Exact) : Occupations Exact :=
  ⟨occupations.values.map (Exact.times a), occupations.errors.map (Exact.times a)⟩

variable {a : ℝ}

section Sums

theorem map_size {α β : Type} (f : α → β) (t : SpinTensor α) : (t.map f).size = t.size := by
  simp [SpinTensor.size, SpinTensor.dim, List.map_map, Function.comp_def]

theorem sum_sectors_times (ms : List (Mat (Cplx Exact))) :
    sumSectors (ms.map (Mat.map (Cplx.times a))) = (sumSectors ms).map (Mat.map (Cplx.times a)) := by
  cases ms with
  | nil => rfl
  | cons first rest =>
      change (rest.map (Mat.map (Cplx.times a))).foldlM (fun sum m => orFault (sum.add? m)) (first.map (Cplx.times a)) =
        (rest.foldlM (fun sum m => orFault (sum.add? m)) first).map _
      induction rest generalizing first with
      | nil => rfl
      | cons second others ih =>
          rw [List.map_cons, List.foldlM_cons, List.foldlM_cons, Mat.add?, Mat.zip_with_map Cplx.times_add,
            or_fault_map, Mat.add?]
          cases orFault (Mat.zipWith? (· + ·) first second) with
          | error e => rfl
          | ok sum => exact ih sum

variable (positive : 0 < a)

include positive

theorem quadrature_times (x y : Exact) :
    Scalar.sqrt (Exact.times a x * Exact.times a x + Exact.times a y * Exact.times a y) =
      Exact.times a (Scalar.sqrt (x * x + y * y)) := by
  simp only [Exact.times_mul, Exact.mul_times, Exact.times_times, Exact.times_add, Exact.times_sqrt _ positive]

theorem spin_summed_error_times (error : SpinTensor Exact) :
    spinSummedError (error.map (Exact.times a)) = (spinSummedError error).map (Mat.map (Exact.times a)) := by
  rw [spinSummedError, spinSummedError, SpinTensor.map_sectors]
  rcases error.sectors with _ | ⟨first, _ | ⟨second, _ | ⟨third, rest⟩⟩⟩
  · rfl
  · rfl
  · change orFault (Mat.zipWith? _ (first.map (Exact.times a)) (second.map (Exact.times a))) = _
    rw [Mat.zip_with_map (quadrature_times positive), or_fault_map]
  · rfl

theorem spin_summed_times (p : SpinTensor (Cplx Exact)) (error : SpinTensor Exact) :
    spinSummed (p.map (Cplx.times a)) (error.map (Exact.times a)) =
      (spinSummed p error).map fun held => (held.1.map (Cplx.times a), held.2.map (Exact.times a)) := by
  by_cases odd : p.count = 0 ∨ p.shape ≠ error.shape
  · simp only [spinSummed, SpinTensor.map_count, SpinTensor.map_shape, map_size, if_pos odd]
    rfl
  · simp only [spinSummed, SpinTensor.map_count, SpinTensor.map_shape, if_neg odd, SpinTensor.map_sectors,
      sum_sectors_times, spin_summed_error_times positive, except_map_eq, bind_map_left, map_bind, hermitian_part_times,
      symmetric_part_times, map_pure]

end Sums

section Runs

variable {σ : Type} [NormalStream σ Exact] {solver : EigenSolver Exact} (numbers : DrawsNumbers σ)
  (faithful : Faithful solver) (positive : 0 < a)

include numbers faithful positive

theorem sample_occupations_times {n : Nat} (B : Matrix (Fin n) (Fin n) ℂ) (error : Mat Exact) :
    sampleOccupations (σ := σ) solver ((Mat.exact B).map (Cplx.times a)) (error.map (Exact.times a)) =
      List.map (Exact.times a) <$> sampleOccupations solver (Mat.exact B) error := by
  rw [sampleOccupations, sampled_times, sampleOccupations, bind_map_left, map_bind]
  refine bind_congr_yields fun state drawn next sampled => ?_
  obtain ⟨C, hermitian, rfl⟩ := sample_matrix_exact numbers ((draw_yields _ _ _ _).mp sampled)
  simp only [hermitian_eigenvalues_times positive faithful hermitian, reporting_map, except_lift_map, bind_map_left,
    map_bind, map_pure, List.map_reverse]

-- The occupations of a matrix without its small eigenvalues, samples included.
theorem occupations_around_times {n : Nat} {B : Matrix (Fin n) (Fin n) ℂ} (hermitian : B.IsHermitian)
    (error : Mat Exact) (samples : Nat) :
    (do
      let drawn ← collect (sampleOccupations (σ := σ) solver ((Mat.exact B).map (Cplx.times a))
        (error.map (Exact.times a))) samples
      let values ← reporting (eigenvalues solver ((Mat.exact B).map (Cplx.times a)))
      let errors ← sampleDeviation drawn
      return Occupations.mk values.reverse errors : Sampling σ (Occupations Exact)) =
    Occupations.times a <$> (do
      let drawn ← collect (sampleOccupations (σ := σ) solver (Mat.exact B) error) samples
      let values ← reporting (eigenvalues solver (Mat.exact B))
      let errors ← sampleDeviation drawn
      return Occupations.mk values.reverse errors : Sampling σ (Occupations Exact)) := by
  simp only [sample_occupations_times numbers faithful positive, collect_map,
    hermitian_eigenvalues_times positive faithful hermitian, reporting_map, except_lift_map, bind_map_left, map_bind,
    sample_deviation_times positive, map_pure, Occupations.times, List.map_reverse]

theorem occupations_of_times (p : SpinTensor ℂ) (error : SpinTensor Exact) (samples : Nat) (factor : Exact)
    (cutoff : ℝ) :
    occupationsOf (σ := σ) solver ((p.map Cplx.exact).map (Cplx.times a)) (error.map (Exact.times a)) samples factor
        (.value (a * cutoff)) =
      Occupations.times a <$> occupationsOf solver (p.map Cplx.exact) error samples factor (.value cutoff) := by
  by_cases few : samples < 2
  · simp only [occupationsOf, if_pos few]
    rfl
  · simp only [occupationsOf, if_neg few, spin_summed_times positive]
    cases summed : spinSummed (p.map Cplx.exact) error with
    | error e => rfl
    | ok held =>
        obtain ⟨sum, e⟩ := held
        obtain ⟨A, hermitian, rfl, symmetric⟩ := spin_summed_exact summed
        obtain ⟨kept, screenedOk⟩ := screen_matrix_exact factor A symmetric.square
        obtain ⟨B, transform, other, rebuilt, first, second⟩ :=
          regularised_times positive faithful (screened_hermitian factor hermitian symmetric) cutoff
        have around := occupations_around_times (σ := σ) numbers faithful positive rebuilt e samples
        simp only [Except.map, except_lift_ok, pure_bind, screen_matrix_times positive, screenedOk, reporting_ok, first,
          second, around, map_bind]
        rfl

end Runs

section Densities

variable {metadata : Except AnalysisError Metadata}
  {series : String → Estimator → Option Nat → Except AnalysisError (List (Array ℂ))}

theorem average_density_numbers [Build] {s : Selection} {t : TensorAverage Exact}
    (returned : (averageDensity (Source.ofNumbers metadata series) s).Returns t) :
    ∃ p : SpinTensor ℂ, t.mean = p.map Cplx.exact := by
  by_cases empty : t.mean.sectors = []
  · exact ⟨⟨[], by simp⟩, SpinTensor.ext_sectors empty⟩
  obtain ⟨m, walker, count, dim, blocks, _, averages, stacked⟩ := average_stacked .density returned empty
  obtain ⟨raw, _, rfl⟩ := (except_map_ok_iff _ _ _).mp averages.series
  have enough : s.equilibration < raw.length := by simpa using averages.able.enough
  have recorded : (Entries.ofBlocks (window s.equilibration s.stride (raw.map fun b => b.map Cplx.exact)) dim).Numbers :=
    of_blocks_numbers enough dim
  choose entry same using recorded
  obtain ⟨p, sectors⟩ := SpinTensor.stack_exists count dim (fun sector => Mat.ofFn dim dim (entry sector)) fun _ => rfl
  refine ⟨p, SpinTensor.ext_sectors ?_⟩
  rw [stacked.mean, SpinTensor.map_sectors, sectors, List.map_map]
  apply List.map_congr_left
  intro sector _
  rw [Function.comp_apply, Mat.map_of_fn]
  exact Mat.of_fn_congr fun i j _ _ => same sector i j

theorem validate_times (p : Params Exact) (a : ℝ) : { p with cutoff := p.cutoff.times a }.validate = p.validate := by
  simp only [Params.validate, Exact.times_finite]
  rfl

theorem natural_occupations_scale [Build] {σ : Type} [NormalStream σ Exact] (numbers : DrawsNumbers σ)
    (solver : EigenSolver Exact) (faithful : Faithful solver) (metadata : Except AnalysisError Metadata)
    (series : String → Estimator → Option Nat → Except AnalysisError (List (Array ℂ))) (p : Params Exact)
    (seeded : p.seed.isSome) (a : ℝ) (positive : 0 < a) (entropy other : σ) :
    naturalOccupations solver ((Source.ofNumbers metadata series).times [densitySeries] a)
        { p with cutoff := p.cutoff.times a } other =
      Occupations.times a <$> naturalOccupations solver (Source.ofNumbers metadata series) p entropy := by
  have stream : { p with cutoff := p.cutoff.times a }.stream other = p.stream entropy := seeded_stream seeded _ _
  simp only [naturalOccupations, validate_times, stream, map_bind]
  refine Run.bind_congr_returns fun _ valid => ?_
  obtain ⟨cutoff, held⟩ := finite_number (validate_cutoff ((reporting_ok_iff _ _).mp valid))
  have density : averageDensity ((Source.ofNumbers metadata series).times [densitySeries] a) p.selection =
      TensorAverage.times a <$> averageDensity (Source.ofNumbers metadata series) p.selection :=
    average_density_times p.selection positive (List.mem_singleton_self densitySeries)
  change averageDensity _ p.selection >>= _ = _
  rw [density, bind_map_left]
  refine Run.bind_congr_returns fun t averaged => ?_
  obtain ⟨q, mean⟩ := average_density_numbers averaged
  have occupations := occupations_of_times (σ := σ) numbers faithful positive q t.error p.samples p.screenFactor cutoff
  simp only [TensorAverage.times, mean, held, Exact.times_value, occupations, StateT.run_map, bind_map_left, map_pure]
  simp only [Occupations.times, List.length_map]

local instance scaledStream : NormalStream Unit Exact := constantStream

theorem half_occupations : (naturalOccupations spectralSolver halfSource seededHalf ()).Returns
    ⟨[.value (1 / 2)], [.value 0]⟩ := by
  have faithful := spectral_solver_lower_faithful.faithful
  have returned := constant_occupations (p := seededHalf) half_constant (diagonal_hermitian fun _ => 1 / 2)
    (fun s inside => Nat.lt_one_iff.mp inside ▸ half_density) faithful le_rfl rfl zero_le_one rfl le_rfl ()
    (fun _ => ⟨1, rfl⟩) (by decide)
  have kept : keptSpectrum (realDiagonal fun _ : Fin 1 => (1 / 2 : ℝ)) 0 = [1 / 2] := by
    rw [(diagonal_form fun _ : Fin 1 => (1 / 2 : ℝ)).kept_eq]
    exact (ascending_list_unique (List.pairwise_singleton _ _) (by simp)).symm
  rw [one_smul, occupationList, kept] at returned
  exact returned

-- A density four times as large, with the cutoff at zero.
theorem natural_occupations_scale_half :
    (naturalOccupations spectralSolver halfSource seededHalf ()).Returns ⟨[.value (1 / 2)], [.value 0]⟩ ∧
    (naturalOccupations spectralSolver (halfSource.times [densitySeries] 4)
      { seededHalf with cutoff := seededHalf.cutoff.times 4 } ()).Returns ⟨[.value 2], [.value 0]⟩ := by
  have single := half_occupations
  have multiplied := natural_occupations_scale (fun _ => ⟨1, rfl⟩) spectralSolver
    spectral_solver_lower_faithful.faithful (.ok halfMetadata) (fun _ _ _ => .ok (List.replicate 2 #[1 / 2])) seededHalf rfl
    4 (by norm_num) () ()
  refine ⟨single, ?_⟩
  rw [Run.Returns, halfSource, multiplied, Run.map_outcome]
  change Except.map _ (naturalOccupations spectralSolver halfSource seededHalf ()).outcome = _
  rw [single]
  norm_num [Except.map, Occupations.times, Exact.times, Exact.lift]

end Densities

end OrbitalSpectra
