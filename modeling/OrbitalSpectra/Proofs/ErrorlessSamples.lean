import OrbitalSpectra.Proofs.ErrorlessOccupations
import OrbitalSpectra.Proofs.Koopmans.SampleDraws
import OrbitalSpectra.Proofs.OccupationsOutcome
import OrbitalSpectra.Proofs.SolvedMatrices

set_option autoImplicit false

namespace OrbitalSpectra

open Matrix Sampling AnalysisError

variable {σ : Type} [NormalStream σ Exact] {solver : EigenSolver Exact} {n samples : Nat}

def AnswersHermitian (solver : EigenSolver Exact) : Prop :=
  ∀ (n : Nat) (A : Matrix (Fin n) (Fin n) ℂ), A.IsHermitian → Answered solver A

theorem Answers.hermitian (answers : Answers solver) : AnswersHermitian solver := fun n A _ => answers n A

section Sector

theorem ranked_numbers (answers : AnswersHermitian solver) {γ F : Matrix (Fin n) (Fin n) ℂ} (density : γ.IsHermitian)
    (fock : F.IsHermitian) {rank : Nat} (inside : rank ≤ n) {cutoff : ℝ} (nonneg : 0 ≤ cutoff) :
    ∃ held : Option (List ℝ), projectedEnergiesWithRank solver (Mat.exact γ) (Mat.exact F) rank (.value cutoff) =
      .ok (held.map (List.map .value)) ∧ ∀ xs ∈ held, xs.length = rank := by
  have square (A : Matrix (Fin n) (Fin n) ℂ) : (Mat.exact A).shape = (n, n) := rfl
  obtain ⟨held, found, _⟩ := projected_energies_with_rank_count solver (square γ) (square F) inside (.value cutoff)
  have ascending := energies_with_rank_ascending (answers n γ density)
    (fun m X => answers m _ (isHermitian_conjTranspose_mul_mul X fock)) nonneg found
  cases held with
  | none => exact ⟨none, found, by simp⟩
  | some energies =>
      obtain ⟨⟨xs, rfl, _⟩, count⟩ := ascending energies rfl
      refine ⟨some xs, found, ?_⟩
      rintro _ ⟨⟩
      rwa [List.length_map] at count

-- Copies of a sample that lost its rank on one side.
theorem rejected_samples_outcome {sample : SectorSample Exact}
    (rejected : sample.ionization = none ∨ sample.attachment = none) (samples : Nat) :
    (errorsOfSamples (List.replicate samples sample) samples).outcome =
      .error (.reported (bootstrapUnstable 0 samples)) := by
  have none : acceptedSamples (List.replicate samples sample) = 0 := by
    rw [acceptedSamples]
    rcases rejected with lost | lost
    · rw [List.filterMap_replicate_of_none lost, List.length_nil, Nat.zero_min]
    · rw [List.filterMap_replicate_of_none lost, List.length_nil, Nat.min_zero]
  have outcome := errors_of_samples_outcome (List.replicate samples sample) samples
  rwa [none, if_pos Nat.two_pos] at outcome

theorem zeros_of_length {xs : List ℝ} {count : Nat} (length : xs.length = count) :
    zerosOf xs = List.replicate count (.value 0) := by
  rw [zerosOf, length]

-- The sector that is drawn without errors keeps its ranks on both sides.
structure KeepsRanks (solver : EigenSolver Exact) (p F G : Matrix (Fin n) (Fin n) ℂ) (ionizationRank attachmentRank : Nat)
    (cutoff : Exact) : Prop where
  ionization : ∃ energies, projectedEnergiesWithRank solver (Mat.exact (hermitised (realParts p)))
    (Mat.exact (hermitised (realParts F))) ionizationRank cutoff = .ok (some energies)
  attachment : ∃ energies, projectedEnergiesWithRank solver (Mat.exact (1 - (hermitised (realParts p))ᵀ))
    (Mat.exact (hermitised (realParts G))) attachmentRank cutoff = .ok (some energies)

section Runs

variable (numbers : DrawsNumbers σ) (answers : AnswersHermitian solver) {p F G : Matrix (Fin n) (Fin n) ℂ}
  {ionizationRank attachmentRank : Nat} (ionizationInside : ionizationRank ≤ n) (attachmentInside : attachmentRank ≤ n)
  (room : samples < 2 ^ 58) {cutoff : ℝ} (nonneg : 0 ≤ cutoff)

include numbers answers ionizationInside attachmentInside room nonneg

-- Each sample is the same one, with as many numbers on each side as the ranks say or with none.
theorem errorless_samples_equal : ∃ ionization attachment : Option (List ℝ),
    (∀ xs ∈ ionization, xs.length = ionizationRank) ∧ (∀ xs ∈ attachment, xs.length = attachmentRank) ∧
    (KeepsRanks solver p F G ionizationRank attachmentRank (.value cutoff) ↔
      ionization.isSome = true ∧ attachment.isSome = true) ∧
    ∀ state : σ, ∃ after,
      Yields (sectorSamples solver (exactSector p F G) ionizationRank attachmentRank samples (.value cutoff)) state
        (List.replicate samples ⟨ionization.map (List.map .value), attachment.map (List.map .value)⟩) after := by
  have density := hermitised_is_hermitian (realParts p)
  obtain ⟨ionization, ionizationOk, ionizationCount⟩ := ranked_numbers answers density
    (hermitised_is_hermitian (realParts F)) ionizationInside nonneg
  obtain ⟨attachment, attachmentOk, attachmentCount⟩ := ranked_numbers answers (hole_density_hermitian density)
    (hermitised_is_hermitian (realParts G)) attachmentInside nonneg
  have kept {held : Option (List ℝ)} {x : Except Failure (Option (List Exact))}
      (ok : x = .ok (held.map (List.map .value))) : (∃ energies, x = .ok (some energies)) ↔ held.isSome = true := by
    rw [ok]
    cases held <;> simp
  refine ⟨ionization, attachment, ionizationCount, attachmentCount, ?_,
    collect_yields (errorless_sector_sample numbers ionizationOk attachmentOk) ((samples_fit samples).mpr room)⟩
  rw [← kept ionizationOk, ← kept attachmentOk]
  exact ⟨fun keeps => ⟨keeps.ionization, keeps.attachment⟩, fun both => ⟨both.1, both.2⟩⟩

theorem errorless_errors (enough : 2 ≤ samples) :
    (KeepsRanks solver p F G ionizationRank attachmentRank (.value cutoff) ∧ ∀ state : σ, ∃ next,
      Yields (estimateErrors solver (exactSector p F G) ionizationRank attachmentRank samples (.value cutoff)) state
        ⟨List.replicate ionizationRank (.value 0), List.replicate attachmentRank (.value 0)⟩ next) ∨
    (¬ KeepsRanks solver p F G ionizationRank attachmentRank (.value cutoff) ∧ ∀ state : σ,
      (estimateErrors solver (exactSector p F G) ionizationRank attachmentRank samples (.value cutoff) state).outcome =
        .error (.reported (bootstrapUnstable 0 samples))) := by
  obtain ⟨ionization, attachment, ionizationCount, attachmentCount, kept, collected⟩ := errorless_samples_equal (F := F)
    (G := G) (p := p) numbers answers ionizationInside attachmentInside room nonneg
  have unstable (rejected : ionization = none ∨ attachment = none) (state : σ) :
      (estimateErrors solver (exactSector p F G) ionizationRank attachmentRank samples (.value cutoff) state).outcome =
        .error (.reported (bootstrapUnstable 0 samples)) := by
    obtain ⟨after, yields⟩ := collected state
    rw [estimate_errors_outcome yields, rejected_samples_outcome]
    · rfl
    · rcases rejected with rfl | rfl
      · exact .inl rfl
      · exact .inr rfl
  cases ionization with
  | none => exact .inr ⟨by simp [kept], unstable (.inl rfl)⟩
  | some ips =>
      cases attachment with
      | none => exact .inr ⟨by simp [kept], unstable (.inr rfl)⟩
      | some eas =>
          refine .inl ⟨kept.mpr ⟨rfl, rfl⟩, fun state => ?_⟩
          obtain ⟨after, yields⟩ := collected state
          have returned := equal_samples_returns enough ips eas
          rw [zeros_of_length (ionizationCount ips rfl), zeros_of_length (attachmentCount eas rfl)] at returned
          exact ⟨after, (estimate_errors_yields _ _ _).mpr ⟨_, yields, returned⟩⟩

end Runs

end Sector

section Occupations

def SpinTensor.Errorless (error : SpinTensor Exact) : Prop := ∀ m ∈ error.sectors, m = Mat.zeros error.dim error.dim

theorem errorless_combined {error : SpinTensor Exact} (some : error.count ≠ 0) (errorless : error.Errorless) :
    error.combinedError = Mat.zeros error.dim error.dim := by
  have sectors : error.sectors = List.replicate error.count (Mat.zeros error.dim error.dim) :=
    List.eq_replicate_iff.mpr ⟨rfl, errorless⟩
  have zeros := zeros_summed_error (Nat.pos_of_ne_zero some) sectors
  rw [spin_summed_error_entries some, Except.ok.injEq] at zeros
  have made := symmetric_part_of_fn error.dim error.summedError
  rw [zeros, zeros_symmetric_part, Except.ok.injEq] at made
  exact made.symm

theorem rebuilt_hermitian (d : Fin n → ℝ) (U : Matrix (Fin n) (Fin n) ℂ) (cutoff : ℝ) :
    (rebuilt d U cutoff).IsHermitian := by
  apply isHermitian_mul_mul_conjTranspose
  exact isHermitian_diagonal_iff.mpr fun k => Complex.conj_ofReal _

-- Nothing is above an undefined cutoff, as nothing is above a large one.
theorem above_undefined (d : Fin n → ℝ) (U : Matrix (Fin n) (Fin n) ℂ) :
    ∃ cutoff : ℝ, (Eigensystem.exact d U).above .undefined = (Eigensystem.exact d U).above (.value cutoff) := by
  obtain ⟨cutoff, bound⟩ := (Set.finite_range d).bddAbove
  refine ⟨cutoff, List.filter_congr fun k inside => ?_⟩
  rw [exact_length] at inside
  rw [value_inside d U (List.mem_range.mp inside), decide_eq_decide, Exact.value_lt]
  exact iff_of_false (fun below => below) (not_lt.mpr (bound ⟨_, rfl⟩))

theorem regularise_answered {A : Matrix (Fin n) (Fin n) ℂ} (answered : Answered solver A) (cutoff : Exact) :
    ∃ (B : Matrix (Fin n) (Fin n) ℂ) (X : Mat (Cplx Exact)), B.IsHermitian ∧
      regularise solver (Mat.exact A) cutoff = .ok ⟨Mat.exact B, X⟩ := by
  obtain ⟨d, U, sorted⟩ := answered.sorted
  cases cutoff with
  | value cutoff => exact ⟨_, _, rebuilt_hermitian d U cutoff, regularise_returned sorted cutoff⟩
  | undefined =>
      obtain ⟨cutoff, same⟩ := above_undefined d U
      have reconstructed := reconstruction_exact d U cutoff
      rw [← same] at reconstructed
      refine ⟨_, (Eigensystem.exact d U).whitening ((Eigensystem.exact d U).above .undefined),
        rebuilt_hermitian d U cutoff, ?_⟩
      simp only [regularise, except_bind_ok_iff, except_lift_ok_iff]
      exact ⟨_, sorted, _, reconstructed, rfl⟩

theorem errorless_occupation_errors (numbers : DrawsNumbers σ) (answers : AnswersHermitian solver) {p : SpinTensor ℂ}
    {error : SpinTensor Exact} (fits : (p.map Cplx.exact).Matches error) (errorless : error.Errorless)
    (enough : 2 ≤ samples) (room : samples < 2 ^ 58) (factor cutoff : Exact) (state : σ) :
    ∃ values next, Yields (occupationsOf solver (p.map Cplx.exact) error samples factor cutoff) state
      ⟨values, List.replicate p.dim (.value 0)⟩ next := by
  obtain ⟨sum, summed, _⟩ := spin_summed_combined fits
  rw [errorless_combined fits.count errorless, fits.dim, map_exact_dim] at summed
  obtain ⟨A, hermitian, rfl, symmetric⟩ := spin_summed_exact summed
  obtain ⟨kept, screenedOk⟩ := screen_matrix_exact factor A symmetric.square
  have density := screened_hermitian factor hermitian symmetric
  obtain ⟨B, X, rebuilt, regularised⟩ := regularise_answered (answers _ _ density) cutoff
  obtain ⟨values, solved, _⟩ := eigenvalues_ascending (answers _ B rebuilt)
  -- The samples have the spectrum of a matrix that may differ from the regularised density.
  obtain ⟨_, drawnSolved, ⟨xs, rfl, _⟩, count⟩ :=
    eigenvalues_ascending (answers _ _ (hermitised_is_hermitian (realParts B)))
  have sampled := errorless_sample_occupations (σ := σ) numbers drawnSolved
  rw [← List.map_reverse] at sampled
  obtain ⟨next, yields⟩ := equal_samples_occupations summed screenedOk regularised solved sampled enough
    ((samples_fit samples).mpr room) state
  have length : xs.reverse.length = p.dim := by rwa [List.length_map, ← List.length_reverse] at count
  rw [zeros_of_length length] at yields
  exact ⟨_, next, yields⟩

end Occupations

theorem errorless_spread_vanishes {σ : Type} [NormalStream σ Exact] (numbers : DrawsNumbers σ)
    (solver : EigenSolver Exact) (answers : AnswersHermitian solver) :
    (∀ (n : Nat) (p F G : Matrix (Fin n) (Fin n) ℂ) (ionizationRank attachmentRank samples : Nat) (cutoff : ℝ),
      ionizationRank ≤ n → attachmentRank ≤ n → 2 ≤ samples → 0 ≤ cutoff →
      (samples < 2 ^ 58 →
        (KeepsRanks solver p F G ionizationRank attachmentRank (.value cutoff) ∧ ∀ state : σ, ∃ next,
          Yields (estimateErrors solver (exactSector p F G) ionizationRank attachmentRank samples (.value cutoff)) state
            ⟨List.replicate ionizationRank (.value 0), List.replicate attachmentRank (.value 0)⟩ next) ∨
        (¬ KeepsRanks solver p F G ionizationRank attachmentRank (.value cutoff) ∧ ∀ state : σ,
          (estimateErrors solver (exactSector p F G) ionizationRank attachmentRank samples (.value cutoff) state).outcome =
            .error (.reported (bootstrapUnstable 0 samples)))) ∧
      (2 ^ 58 ≤ samples → ∀ state : σ,
        (estimateErrors solver (exactSector p F G) ionizationRank attachmentRank samples (.value cutoff) state).outcome =
          .error .capacity)) ∧
    ∀ (p : SpinTensor ℂ) (error : SpinTensor Exact) (samples : Nat) (factor cutoff : Exact) (state : σ),
      (p.map Cplx.exact).Matches error → error.Errorless → 2 ≤ samples →
      (samples < 2 ^ 58 → ∃ values next,
        Yields (occupationsOf solver (p.map Cplx.exact) error samples factor cutoff) state
          ⟨values, List.replicate p.dim (.value 0)⟩ next) ∧
      (2 ^ 58 ≤ samples →
        (occupationsOf solver (p.map Cplx.exact) error samples factor cutoff state).outcome = .error .capacity) := by
  constructor
  · intro n p F G ionizationRank attachmentRank samples cutoff ionizationInside attachmentInside enough nonneg
    exact ⟨fun room => errorless_errors numbers answers ionizationInside attachmentInside room nonneg enough,
      fun full => errors_without_room solver _ ionizationRank attachmentRank _ full⟩
  · intro p error samples factor cutoff state fits errorless enough
    refine ⟨fun room => errorless_occupation_errors numbers answers fits errorless enough room factor cutoff state, ?_⟩
    intro full
    have decided := occupations_of_counted (σ := σ) solver (p.map Cplx.exact) error enough factor cutoff
    exact decided.fails _ (occupation_values_without_room fits full) state

local instance errorlessStream : NormalStream Unit Exact := constantStream

noncomputable def shearedZeros : SpinTensor Exact where
  sectors := [Mat.zeros 2 2]
  uniform := List.forall_mem_singleton.mpr rfl

-- Nothing of it is left in a draw.
def turnedMatrix : Matrix (Fin 2) (Fin 2) ℂ := !![Complex.I, 1; -1, 0]

theorem sheared_drawn : hermitised (realParts shearedMatrix) = realDiagonal fun _ => 1 := by
  ext i j
  fin_cases i <;> fin_cases j <;> norm_num [hermitised, realParts, shearedMatrix, realDiagonal]

theorem turned_drawn : hermitised (realParts turnedMatrix) = realDiagonal fun _ => 0 := by
  ext i j
  fin_cases i <;> fin_cases j <;> norm_num [hermitised, realParts, turnedMatrix, realDiagonal]

theorem sheared_keeps_ranks : KeepsRanks spectralSolver shearedMatrix shearedMatrix turnedMatrix 2 0 (.value 0) := by
  have faithful := spectral_solver_lower_faithful.faithful
  have ranked (d e : Fin 2 → ℝ) : ∃ energies, projectedEnergiesWithRank spectralSolver (Mat.exact (realDiagonal d))
      (Mat.exact (realDiagonal fun k => d k * e k)) ((List.finRange 2).filter fun k => 0 < d k).length (.value 0) =
        .ok (some energies) := by
    have energies := ranked_energies_of_spectrum faithful (diagonal_form d).hermitian
      (diagonal_form fun k => d k * e k).hermitian le_rfl (diagonal_pair_spectrum d e le_rfl)
    rw [(ascending_list_perm _).length_eq, List.length_map] at energies
    exact ⟨_, energies⟩
  constructor
  · rw [sheared_drawn]
    simpa using ranked (fun _ => 1) fun _ => 1
  · rw [sheared_drawn, turned_drawn, diagonal_hole]
    simpa using ranked (fun _ => 0) fun _ => 0

-- Neither the matrices of the sector nor the density are Hermitian, and the cutoff is not even a number.
theorem errorless_spread_vanishes_sheared :
    (∀ state : Unit, ∃ next,
      Yields (estimateErrors spectralSolver (exactSector shearedMatrix shearedMatrix turnedMatrix) 2 0 3 (.value 0)) state
        ⟨[.value 0, .value 0], []⟩ next) ∧
    ∃ values next,
      Yields (occupationsOf spectralSolver (shearedDensity.map Cplx.exact) shearedZeros 3 (.value 1) .undefined) ()
        ⟨values, [.value 0, .value 0]⟩ next := by
  obtain ⟨errors, occupations⟩ :=
    errorless_spread_vanishes draws_one spectralSolver spectral_solver_answers.hermitian
  have room : 3 < 2 ^ 58 := by decide
  constructor
  · rcases (errors 2 shearedMatrix shearedMatrix turnedMatrix 2 0 3 0 le_rfl (Nat.zero_le 2) (by decide) le_rfl).1 room
      with ⟨_, yields⟩ | ⟨lost, _⟩
    · exact yields
    · exact absurd sheared_keeps_ranks lost
  · have fits : (shearedDensity.map Cplx.exact).Matches shearedZeros := ⟨Nat.one_ne_zero, rfl⟩
    have errorless : shearedZeros.Errorless := List.forall_mem_singleton.mpr rfl
    exact (occupations shearedDensity shearedZeros 3 (.value 1) .undefined () fits errorless (by decide)).1 room

theorem errorless_without_room :
    DrawsNumbers Unit ∧ AnswersHermitian spectralSolver ∧
    (estimateErrors spectralSolver (exactSector (realDiagonal ![9 / 25]) (realDiagonal ![1]) (realDiagonal ![1])) 1 1
      (2 ^ 58) (.value 0) ()).outcome = .error .capacity :=
  ⟨draws_one, spectral_solver_answers.hermitian, errors_without_room _ _ 1 1 _ le_rfl ()⟩

end OrbitalSpectra
