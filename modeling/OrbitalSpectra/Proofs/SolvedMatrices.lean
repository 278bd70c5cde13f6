import OrbitalSpectra.Proofs.Bootstrap.SampleStream
import OrbitalSpectra.Proofs.Exact.Mirrored
import OrbitalSpectra.Proofs.Koopmans.EnergyCounts

set_option autoImplicit false

namespace OrbitalSpectra

open Matrix Sampling

section Questions

variable (σ : Type) [NormalStream σ Exact] (solver : EigenSolver Exact)

def ScreenedSum (p : SpinTensor (Cplx Exact)) (error : SpinTensor Exact) (factor : Exact) (m : Mat (Cplx Exact))
    (e : Mat Exact) : Prop :=
  ∃ sum kept, spinSummed p error = .ok (sum, e) ∧ screenMatrix sum e factor = .ok (m, kept)

-- What is diagonalised for natural occupations, on any stream.
inductive OccupationSolved (p : SpinTensor (Cplx Exact)) (error : SpinTensor Exact) (factor cutoff : Exact) :
    Mat (Cplx Exact) → Prop
  | screened {m : Mat (Cplx Exact)} {e : Mat Exact} (summed : ScreenedSum p error factor m e) :
      OccupationSolved p error factor cutoff m
  | rebuilt {m : Mat (Cplx Exact)} {e : Mat Exact} {kept : Regularised Exact} (summed : ScreenedSum p error factor m e)
      (regularised : regularise solver m cutoff = .ok kept) : OccupationSolved p error factor cutoff kept.matrix
  | perturbed {m drawn : Mat (Cplx Exact)} {e : Mat Exact} {kept : Regularised Exact} {state next : σ}
      (summed : ScreenedSum p error factor m e) (regularised : regularise solver m cutoff = .ok kept)
      (sampled : sampleMatrix kept.matrix e state = (.ok drawn, next)) : OccupationSolved p error factor cutoff drawn

-- What is diagonalised for the energies of a pair at a fixed rank.
inductive ProjectionSolved (gamma fock : Mat (Cplx Exact)) (rank : Nat) (cutoff : Exact) : Mat (Cplx Exact) → Prop
  | whitened (shapes : requireSameShape gamma fock = .ok ()) : ProjectionSolved gamma fock rank cutoff gamma
  | projected {x left m : Mat (Cplx Exact)} (shapes : requireSameShape gamma fock = .ok ())
      (transform : whitenWithRank solver gamma rank cutoff = .ok (some x))
      (first : x.adjoint.mul? fock = some left) (second : left.mul? x = some m) :
      ProjectionSolved gamma fock rank cutoff m

-- What is diagonalised for the samples of a sector, on any stream.
inductive SampleSolved (sector : SectorAverages Exact) (ionizationRank attachmentRank : Nat) (cutoff : Exact) :
    Mat (Cplx Exact) → Prop
  | ionization {density removal m : Mat (Cplx Exact)} {s s' t t' : σ}
      (densityDrawn : sampleMatrix sector.density sector.densityError s = (.ok density, s'))
      (removalDrawn : sampleMatrix sector.removal sector.removalError t = (.ok removal, t'))
      (solved : ProjectionSolved solver density removal ionizationRank cutoff m) :
      SampleSolved sector ionizationRank attachmentRank cutoff m
  | attachment {density hole addition m : Mat (Cplx Exact)} {s s' t t' : σ}
      (densityDrawn : sampleMatrix sector.density sector.densityError s = (.ok density, s'))
      (holeMade : holeDensity density = .ok hole)
      (additionDrawn : sampleMatrix sector.addition sector.additionError t = (.ok addition, t'))
      (solved : ProjectionSolved solver hole addition attachmentRank cutoff m) :
      SampleSolved sector ionizationRank attachmentRank cutoff m

end Questions

variable {σ : Type} [NormalStream σ Exact] {solver other : EigenSolver Exact}

section Mirrored

theorem screened_sum_mirrored {p : SpinTensor (Cplx Exact)} {error : SpinTensor Exact} {factor : Exact}
    {m : Mat (Cplx Exact)} {e : Mat Exact} (summed : ScreenedSum p error factor m e) : m.Mirrored := by
  obtain ⟨sum, kept, summedOk, screenedOk⟩ := summed
  obtain ⟨mirrored, symmetric⟩ := spin_summed_mirrored summedOk
  exact screen_matrix_mirrored mirrored symmetric screenedOk

theorem regularise_mirrored {s : Mat (Cplx Exact)} {cutoff : Exact} {r : Regularised Exact}
    (ok : regularise solver s cutoff = .ok r) : r.matrix.Mirrored := by
  simp only [regularise, except_bind_ok_iff, except_lift_ok_iff] at ok
  obtain ⟨e, _, matrix, rebuilt, pair⟩ := ok
  cases pair
  exact reconstruction_mirrored rebuilt

theorem occupation_solved_mirrored {p : SpinTensor (Cplx Exact)} {error : SpinTensor Exact} {factor cutoff : Exact}
    {m : Mat (Cplx Exact)} (solved : OccupationSolved σ solver p error factor cutoff m) : m.Mirrored := by
  cases solved with
  | screened summed => exact screened_sum_mirrored summed
  | rebuilt _ regularised => exact regularise_mirrored regularised
  | perturbed _ _ sampled => exact sample_matrix_mirrored sampled

theorem projection_solved_mirrored {gamma fock m : Mat (Cplx Exact)} {rank : Nat} {cutoff : Exact}
    (gammaMirrored : gamma.Mirrored) (fockMirrored : fock.Mirrored)
    (solved : ProjectionSolved solver gamma fock rank cutoff m) : m.Mirrored := by
  cases solved with
  | whitened => exact gammaMirrored
  | projected _ _ first second => exact projection_mirrored fockMirrored first second

theorem sample_solved_mirrored {sector : SectorAverages Exact} {ionizationRank attachmentRank : Nat} {cutoff : Exact}
    {m : Mat (Cplx Exact)} (solved : SampleSolved σ solver sector ionizationRank attachmentRank cutoff m) :
    m.Mirrored := by
  cases solved with
  | ionization densityDrawn removalDrawn solved =>
      have density := sample_matrix_mirrored densityDrawn
      exact projection_solved_mirrored density (sample_matrix_mirrored removalDrawn) solved
  | attachment densityDrawn holeMade additionDrawn solved =>
      have hole := hole_density_mirrored (sample_matrix_mirrored densityDrawn) holeMade
      exact projection_solved_mirrored hole (sample_matrix_mirrored additionDrawn) solved

end Mirrored

section Completeness

theorem eigh_congr {m : Mat (Cplx Exact)} (same : other m = solver m) : eigh other m = eigh solver m := by
  rw [eigh, eigh, same]

theorem eigenvalues_congr {m : Mat (Cplx Exact)} (same : other m = solver m) :
    eigenvalues other m = eigenvalues solver m := by
  rw [eigenvalues, eigenvalues, eigh_congr same]

theorem except_bind_congr {ε α β : Type} {x : Except ε α} {f g : α → Except ε β} (same : ∀ a, x = .ok a → f a = g a) :
    x >>= f = x >>= g := by
  cases x with
  | error e => rfl
  | ok a => exact same a rfl

theorem occupations_congr {p : SpinTensor (Cplx Exact)} {error : SpinTensor Exact} {factor cutoff : Exact}
    (same : ∀ m, OccupationSolved σ solver p error factor cutoff m → other m = solver m) (samples : Nat) :
    (occupationsOf other p error samples factor cutoff : Sampling σ (Occupations Exact)) =
      occupationsOf solver p error samples factor cutoff := by
  have agreed {m : Mat (Cplx Exact)} {e : Mat Exact} (summed : ScreenedSum p error factor m e) :
      regularise other m cutoff = regularise solver m cutoff := by
    rw [regularise, regularise, eigh_congr (same m (.screened summed))]
  by_cases few : samples < 2
  · simp only [occupationsOf, if_pos few]
    refine bind_congr_yields fun _ _ _ refused => ?_
    cases refused
  · simp only [occupationsOf, if_neg few]
    refine bind_congr_yields fun _ sums _ summedYields => ?_
    obtain ⟨sum, e⟩ := sums
    refine bind_congr_yields fun _ counted _ screenedYields => ?_
    obtain ⟨m, kept⟩ := counted
    have summed : ScreenedSum p error factor m e := ⟨sum, kept, ((except_yields _ _ _ _).mp summedYields).1,
      (reporting_ok_iff _ _).mp ((except_yields _ _ _ _).mp screenedYields).1⟩
    refine bind_congr fun _ => ?_
    rw [agreed summed]
    refine bind_congr_yields fun _ kept _ keptYields => ?_
    have regularised := ((except_yields _ _ _ _).mp keptYields).1
    have samplesSame : (sampleOccupations other kept.matrix e : Sampling σ (List Exact)) =
        sampleOccupations solver kept.matrix e := by
      refine bind_congr_yields fun state drawn next sampled => ?_
      rw [eigenvalues_congr (same drawn (.perturbed summed regularised ((draw_yields _ _ _ _).mp sampled)))]
    rw [samplesSame, eigenvalues_congr (same kept.matrix (.rebuilt summed regularised))]

theorem projected_energies_congr {gamma fock : Mat (Cplx Exact)} {rank : Nat} {cutoff : Exact}
    (same : ∀ m, ProjectionSolved solver gamma fock rank cutoff m → other m = solver m) :
    projectedEnergiesWithRank other gamma fock rank cutoff =
      projectedEnergiesWithRank solver gamma fock rank cutoff := by
  refine except_bind_congr fun _ shapesOk => ?_
  have shapes := (except_lift_ok_iff _ _).mp shapesOk
  have whitened : whitenWithRank other gamma rank cutoff = whitenWithRank solver gamma rank cutoff := by
    rw [whitenWithRank, whitenWithRank, eigh_congr (same gamma (.whitened shapes))]
  rw [whitened]
  refine except_bind_congr fun held heldOk => ?_
  cases held with
  | none => rfl
  | some x =>
      have transform := (reporting_ok_iff _ _).mp heldOk
      have projected : projectedEigenvalues other x fock = projectedEigenvalues solver x fock := by
        refine except_bind_congr fun left first => except_bind_congr fun m second => ?_
        rw [eigenvalues_congr (same m (.projected shapes transform ((or_fault_ok_iff _ _).mp first)
          ((or_fault_ok_iff _ _).mp second)))]
      exact congrArg (some <$> ·) projected

theorem sample_sector_congr {sector : SectorAverages Exact} {ionizationRank attachmentRank : Nat} {cutoff : Exact}
    (same : ∀ m, SampleSolved σ solver sector ionizationRank attachmentRank cutoff m → other m = solver m) :
    (sampleSector other sector ionizationRank attachmentRank cutoff : Sampling σ (SectorSample Exact)) =
      sampleSector solver sector ionizationRank attachmentRank cutoff := by
  refine bind_congr_yields fun _ density _ densityYields => ?_
  refine bind_congr_yields fun _ removal _ removalYields => ?_
  refine bind_congr_yields fun _ addition _ additionYields => ?_
  have densityDrawn := (draw_yields _ _ _ _).mp densityYields
  have removalDrawn := (draw_yields _ _ _ _).mp removalYields
  have additionDrawn := (draw_yields _ _ _ _).mp additionYields
  rw [projected_energies_congr fun m solved => same m (.ionization densityDrawn removalDrawn solved)]
  refine bind_congr fun ionization => ?_
  refine bind_congr_yields fun _ hole _ holeYields => ?_
  have holeMade := ((except_yields _ _ _ _).mp holeYields).1
  rw [projected_energies_congr fun m solved => same m (.attachment densityDrawn holeMade additionDrawn solved)]

theorem estimate_errors_congr {sector : SectorAverages Exact} {ionizationRank attachmentRank : Nat} {cutoff : Exact}
    (same : ∀ m, SampleSolved σ solver sector ionizationRank attachmentRank cutoff m → other m = solver m)
    (samples : Nat) :
    (estimateErrors other sector ionizationRank attachmentRank samples cutoff : Sampling σ (EnergyErrors Exact)) =
      estimateErrors solver sector ionizationRank attachmentRank samples cutoff := by
  rw [estimateErrors, estimateErrors, sectorSamples, sectorSamples, sample_sector_congr same]

end Completeness

section Numbers

structure SectorAverages.HoldsNumbers {n : Nat} (sector : SectorAverages Exact)
    (density removal addition : Matrix (Fin n) (Fin n) ℂ) : Prop where
  density : sector.density = Mat.exact density
  removal : sector.removal = Mat.exact removal
  addition : sector.addition = Mat.exact addition

def Mat.HoldsNumbers (m : Mat (Cplx Exact)) : Prop := ∃ (n : Nat) (B : Matrix (Fin n) (Fin n) ℂ), m = exact B

theorem screened_sum_numbers {p : SpinTensor ℂ} {error : SpinTensor Exact} {factor : Exact} {m : Mat (Cplx Exact)}
    {e : Mat Exact} (summed : ScreenedSum (p.map Cplx.exact) error factor m e) :
    ∃ A : Matrix (Fin p.dim) (Fin p.dim) ℂ, A.IsHermitian ∧ m = Mat.exact A := by
  obtain ⟨_, _, summedOk, screenedOk⟩ := summed
  obtain ⟨A, hermitian, rfl, symmetric⟩ := spin_summed_exact summedOk
  obtain ⟨_, again⟩ := screen_matrix_exact factor A symmetric.square
  cases Except.ok.inj (screenedOk.symm.trans again)
  exact ⟨_, screened_hermitian factor hermitian symmetric, rfl⟩

theorem regularise_numbers (faithful : Faithful solver) {n : Nat} {A : Matrix (Fin n) (Fin n) ℂ}
    (hermitian : A.IsHermitian) {cutoff : ℝ} {kept : Regularised Exact}
    (regularised : regularise solver (Mat.exact A) (.value cutoff) = .ok kept) :
    ∃ B : Matrix (Fin n) (Fin n) ℂ, kept.matrix = Mat.exact B := by
  obtain ⟨d, U, sorted, _⟩ := solves_sorted (faithful n A hermitian)
  cases Except.ok.inj (regularised.symm.trans (regularise_returned sorted cutoff))
  exact ⟨_, rfl⟩

theorem occupation_solved_numbers (faithful : Faithful solver) (numbers : DrawsNumbers σ) {p : SpinTensor ℂ}
    {error : SpinTensor Exact} {factor : Exact} {cutoff : ℝ} {m : Mat (Cplx Exact)}
    (solved : OccupationSolved σ solver (p.map Cplx.exact) error factor (.value cutoff) m) : m.HoldsNumbers := by
  cases solved with
  | screened summed =>
      obtain ⟨A, _, rfl⟩ := screened_sum_numbers summed
      exact ⟨_, A, rfl⟩
  | rebuilt summed regularised =>
      obtain ⟨A, hermitian, rfl⟩ := screened_sum_numbers summed
      exact ⟨_, regularise_numbers faithful hermitian regularised⟩
  | perturbed summed regularised sampled =>
      obtain ⟨A, hermitian, rfl⟩ := screened_sum_numbers summed
      obtain ⟨B, same⟩ := regularise_numbers faithful hermitian regularised
      rw [same] at sampled
      obtain ⟨C, _, rfl⟩ := sample_matrix_exact numbers sampled
      exact ⟨_, C, rfl⟩

theorem projection_solved_numbers (faithful : Faithful solver) {n rank : Nat} {γ F : Matrix (Fin n) (Fin n) ℂ}
    (hermitian : γ.IsHermitian) {cutoff : ℝ} (nonneg : 0 ≤ cutoff) {m : Mat (Cplx Exact)}
    (solved : ProjectionSolved solver (Mat.exact γ) (Mat.exact F) rank (.value cutoff) m) : m.HoldsNumbers := by
  cases solved with
  | whitened => exact ⟨n, γ, rfl⟩
  | projected _ transform first second =>
      obtain ⟨k, X, _, rfl⟩ := whitened_exact (faithful.answered hermitian) nonneg transform
      rw [Mat.exact_adjoint, Mat.exact_mul] at first
      cases first
      rw [Mat.exact_mul] at second
      cases second
      exact ⟨k, _, rfl⟩

theorem sample_solved_numbers (faithful : Faithful solver) (numbers : DrawsNumbers σ) {n : Nat}
    {density removal addition : Matrix (Fin n) (Fin n) ℂ} {sector : SectorAverages Exact}
    (holds : sector.HoldsNumbers density removal addition) {ionizationRank attachmentRank : Nat} {cutoff : ℝ}
    (nonneg : 0 ≤ cutoff) {m : Mat (Cplx Exact)}
    (solved : SampleSolved σ solver sector ionizationRank attachmentRank (.value cutoff) m) : m.HoldsNumbers := by
  cases solved with
  | ionization densityDrawn removalDrawn solved =>
      rw [holds.density] at densityDrawn
      rw [holds.removal] at removalDrawn
      obtain ⟨P, hermitian, rfl⟩ := sample_matrix_exact numbers densityDrawn
      obtain ⟨F, _, rfl⟩ := sample_matrix_exact numbers removalDrawn
      exact projection_solved_numbers faithful hermitian nonneg solved
  | attachment densityDrawn holeMade additionDrawn solved =>
      rw [holds.density] at densityDrawn
      rw [holds.addition] at additionDrawn
      obtain ⟨P, hermitian, rfl⟩ := sample_matrix_exact numbers densityDrawn
      obtain ⟨F, _, rfl⟩ := sample_matrix_exact numbers additionDrawn
      cases Except.ok.inj (holeMade.symm.trans (hole_density_exact P))
      exact projection_solved_numbers faithful (hole_density_hermitian hermitian) nonneg solved

end Numbers

section Lower

-- The matrix that the lower triangle and the real part of the diagonal stand for.
noncomputable def Mat.lowerPart (m : Mat (Cplx Exact)) : Mat (Cplx Exact) :=
  ofFn m.rows m.cols fun i j =>
    if j < i then m.entry i j else if i < j then (m.entry j i).conj else Cplx.ofReal (m.entry i i).re

theorem lower_part_exact {n : Nat} (B : Matrix (Fin n) (Fin n) ℂ) :
    (Mat.exact B).lowerPart = Mat.exact (lowerHermitian B) := by
  rw [Mat.lowerPart, Mat.exact_rows, Mat.exact_cols]
  apply Mat.of_fn_exact
  intro i j
  rw [Mat.exact_entry, Mat.exact_entry, Mat.exact_entry, lowerHermitian, of_apply]
  rcases lt_trichotomy i j with before | rfl | after
  · rw [if_neg (Nat.not_lt.mpr (Fin.le_def.mp before.le)), if_pos (Fin.lt_def.mp before), if_neg before.not_gt,
      if_pos before, Cplx.exact_conj]
  · rw [if_neg (lt_irrefl _), if_neg (lt_irrefl _), if_neg (lt_irrefl _), if_neg (lt_irrefl _)]
    rfl
  · rw [if_pos (Fin.lt_def.mp after), if_pos after]

variable {α : Type}

-- A run that diagonalises no matrix but those listed, which are their own adjoints.
structure SolvesHermitian (solver : EigenSolver Exact) (solved : Mat (Cplx Exact) → Prop)
    (run : EigenSolver Exact → Nat → Sampling σ α) : Prop where
  mirrored : ∀ m, solved m → m.Mirrored
  hermitian : ∀ (n : Nat) (B : Matrix (Fin n) (Fin n) ℂ), solved (Mat.exact B) → B.IsHermitian ∧ lowerHermitian B = B
  complete : ∀ (other : EigenSolver Exact) (samples : Nat), (∀ m, solved m → other m = solver m) →
    run other samples = run solver samples

-- Where all of them are matrices of numbers, it is enough to read half of each.
structure SolvesNumbers (solver : EigenSolver Exact) (solved : Mat (Cplx Exact) → Prop)
    (run : EigenSolver Exact → Nat → Sampling σ α) : Prop where
  numbers : ∀ m, solved m → ∃ (n : Nat) (B : Matrix (Fin n) (Fin n) ℂ), B.IsHermitian ∧ m = Mat.exact B
  lower : ∀ samples, run (fun m => solver m.lowerPart) samples = run solver samples

variable {solved : Mat (Cplx Exact) → Prop} {run : EigenSolver Exact → Nat → Sampling σ α}

omit [NormalStream σ Exact] in
theorem solves_hermitian_of_mirrored (mirrored : ∀ m, solved m → m.Mirrored)
    (complete : ∀ (other : EigenSolver Exact) (samples : Nat), (∀ m, solved m → other m = solver m) →
      run other samples = run solver samples) : SolvesHermitian solver solved run where
  mirrored := mirrored
  hermitian _ B held := by
    have hermitian := (mirrored_exact_iff B).mp (mirrored _ held)
    exact ⟨hermitian, lower_hermitian_of_hermitian hermitian⟩
  complete := complete

omit [NormalStream σ Exact] in
theorem SolvesHermitian.solves_numbers (hermitian : SolvesHermitian solver solved run)
    (numbers : ∀ m, solved m → m.HoldsNumbers) : SolvesNumbers solver solved run where
  numbers m held := by
    obtain ⟨n, B, rfl⟩ := numbers m held
    exact ⟨n, B, (hermitian.hermitian n B held).1, rfl⟩
  lower samples := by
    refine hermitian.complete _ samples fun m held => ?_
    obtain ⟨n, B, rfl⟩ := numbers m held
    rw [lower_part_exact, (hermitian.hermitian n B held).2]

end Lower

section Runs

theorem occupations_solve_hermitian (solver : EigenSolver Exact) (p : SpinTensor (Cplx Exact))
    (error : SpinTensor Exact) (factor cutoff : Exact) :
    SolvesHermitian solver (OccupationSolved σ solver p error factor cutoff) fun s samples =>
      (occupationsOf s p error samples factor cutoff : Sampling σ (Occupations Exact)) :=
  solves_hermitian_of_mirrored (fun _ => occupation_solved_mirrored) fun _ samples same =>
    occupations_congr same samples

theorem samples_solve_hermitian (solver : EigenSolver Exact) (sector : SectorAverages Exact)
    (ionizationRank attachmentRank : Nat) (cutoff : Exact) :
    SolvesHermitian solver (SampleSolved σ solver sector ionizationRank attachmentRank cutoff) fun s samples =>
      (estimateErrors s sector ionizationRank attachmentRank samples cutoff : Sampling σ (EnergyErrors Exact)) :=
  solves_hermitian_of_mirrored (fun _ => sample_solved_mirrored) fun _ samples same =>
    estimate_errors_congr same samples

end Runs

theorem solved_matrices_hermitian (σ : Type) [NormalStream σ Exact] (solver : EigenSolver Exact) :
    (∀ (p : SpinTensor (Cplx Exact)) (error : SpinTensor Exact) (factor cutoff : Exact),
      SolvesHermitian solver (OccupationSolved σ solver p error factor cutoff) fun s samples =>
        (occupationsOf s p error samples factor cutoff : Sampling σ (Occupations Exact))) ∧
    (∀ (sector : SectorAverages Exact) (ionizationRank attachmentRank : Nat) (cutoff : Exact),
      SolvesHermitian solver (SampleSolved σ solver sector ionizationRank attachmentRank cutoff) fun s samples =>
        (estimateErrors s sector ionizationRank attachmentRank samples cutoff : Sampling σ (EnergyErrors Exact))) ∧
    (Faithful solver → DrawsNumbers σ →
      (∀ (p : SpinTensor ℂ) (error : SpinTensor Exact) (factor : Exact) (cutoff : ℝ),
        SolvesNumbers solver (OccupationSolved σ solver (p.map Cplx.exact) error factor (.value cutoff))
          fun s samples => (occupationsOf s (p.map Cplx.exact) error samples factor (.value cutoff) :
            Sampling σ (Occupations Exact))) ∧
      ∀ (n : Nat) (density removal addition : Matrix (Fin n) (Fin n) ℂ) (sector : SectorAverages Exact)
        (ionizationRank attachmentRank : Nat) (cutoff : ℝ), sector.HoldsNumbers density removal addition → 0 ≤ cutoff →
          SolvesNumbers solver (SampleSolved σ solver sector ionizationRank attachmentRank (.value cutoff))
            fun s samples => (estimateErrors s sector ionizationRank attachmentRank samples (.value cutoff) :
              Sampling σ (EnergyErrors Exact))) := by
  refine ⟨occupations_solve_hermitian solver, samples_solve_hermitian solver, fun faithful numbers => ⟨?_, ?_⟩⟩
  · intro p error factor cutoff
    exact (occupations_solve_hermitian solver _ error factor _).solves_numbers fun _ =>
      occupation_solved_numbers faithful numbers
  · intro n density removal addition sector ionizationRank attachmentRank cutoff holds nonneg
    exact (samples_solve_hermitian solver sector ionizationRank attachmentRank _).solves_numbers fun _ =>
      sample_solved_numbers faithful numbers holds nonneg

local instance solvedStream : NormalStream Unit Exact := constantStream

def shearedMatrix : Matrix (Fin 2) (Fin 2) ℂ := !![1, Complex.I; 0, 1]

noncomputable def shearedErrors : Mat Exact := Mat.numbers !![0, 1; 0, 0]

noncomputable def shearedDensity : SpinTensor ℂ where
  sectors := [Mat.ofFn 2 2 fun i j => if i = j then 1 else if i < j then Complex.I else 0]
  uniform := by simp [commonDim, Mat.shape]

noncomputable def shearedDeviations : SpinTensor Exact where
  sectors := [shearedErrors]
  uniform := by simp [commonDim, numbers_shape, shearedErrors]

noncomputable def shearedSector : SectorAverages Exact where
  density := Mat.exact shearedMatrix
  densityError := shearedErrors
  removal := Mat.exact shearedMatrix
  removalError := shearedErrors
  addition := Mat.exact shearedMatrix
  additionError := shearedErrors

theorem draws_one : DrawsNumbers Unit := fun _ => ⟨1, rfl⟩

theorem sheared_sampled : ∃ P : Matrix (Fin 2) (Fin 2) ℂ, P.IsHermitian ∧
    sampleMatrix (Mat.exact shearedMatrix) shearedErrors () = (.ok (Mat.exact P), ()) := by
  have draws : ∀ k < 2 * 2, NormalStream.drawAt Exact () k = .value ((fun _ => 1 : Nat → ℝ) k) := fun _ _ => rfl
  have sampled := sample_matrix_numbers shearedMatrix !![0, 1; 0, 0] draws
  obtain ⟨P, hermitian, same⟩ := sample_matrix_exact draws_one sampled
  exact ⟨P, hermitian, same ▸ sampled⟩

theorem projection_solved_exists {solver : EigenSolver Exact} (faithful : Faithful solver) {n : Nat}
    {γ : Matrix (Fin n) (Fin n) ℂ} (hermitian : γ.IsHermitian) (F : Matrix (Fin n) (Fin n) ℂ) :
    ∃ (rank : Nat) (X : Matrix (Fin n) (Fin rank) ℂ),
      ProjectionSolved solver (Mat.exact γ) (Mat.exact F) rank (.value 0) (Mat.exact (Xᴴ * F * X)) := by
  obtain ⟨d, U, sorted, _, form⟩ := solves_sorted (faithful n γ hermitian)
  obtain ⟨rank, places, whitening⟩ := whitening_exists sorted form le_rfl
  refine ⟨rank, _, .projected (require_same_shape_exact γ F) whitening.ranked ?_ (Mat.exact_mul _ _)⟩
  rw [Mat.exact_adjoint, Mat.exact_mul]

-- The questions asked are Hermitian matrices of numbers though neither the averages nor their errors are.
theorem solved_matrices_hermitian_sheared :
    (∃ B : Matrix (Fin 2) (Fin 2) ℂ, OccupationSolved Unit spectralSolver (shearedDensity.map Cplx.exact)
      shearedDeviations (.value 1) (.value 0) (Mat.exact B) ∧ B.IsHermitian) ∧
    (∃ (rank : Nat) (C : Matrix (Fin rank) (Fin rank) ℂ),
      SampleSolved Unit spectralSolver shearedSector rank rank (.value 0) (Mat.exact C) ∧ C.IsHermitian) ∧
    (occupationsOf (fun m => spectralSolver m.lowerPart) (shearedDensity.map Cplx.exact) shearedDeviations 2 (.value 1)
        (.value 0) : Sampling Unit (Occupations Exact)) =
      occupationsOf spectralSolver (shearedDensity.map Cplx.exact) shearedDeviations 2 (.value 1) (.value 0) := by
  have faithful := spectral_solver_lower_faithful.faithful
  obtain ⟨_, _, numbers⟩ := solved_matrices_hermitian Unit spectralSolver
  obtain ⟨occupations, samples⟩ := numbers faithful draws_one
  have density := occupations shearedDensity shearedDeviations (.value 1) 0
  refine ⟨?_, ?_, density.lower 2⟩
  · have square : ∃ sum e, spinSummed (shearedDensity.map Cplx.exact) shearedDeviations = .ok (sum, e) ∧
        sum.shape = (2, 2) ∧ e.shape = (2, 2) := spin_summed_square (by decide) rfl
    obtain ⟨sum, e, summed, sumShape, errorShape⟩ := square
    obtain ⟨m, kept, screenedOk, shape⟩ := screen_matrix_fits sumShape errorShape (.value 1)
    have solved : OccupationSolved Unit spectralSolver (shearedDensity.map Cplx.exact) shearedDeviations (.value 1)
      (.value 0) m := .screened ⟨sum, kept, summed, screenedOk⟩
    obtain ⟨n, B, hermitian, rfl⟩ := density.numbers m solved
    obtain rfl : n = 2 := congrArg Prod.fst shape
    exact ⟨B, solved, hermitian⟩
  · obtain ⟨P, hermitian, sampled⟩ := sheared_sampled
    obtain ⟨rank, X, solved⟩ := projection_solved_exists faithful hermitian P
    have held : shearedSector.HoldsNumbers shearedMatrix shearedMatrix shearedMatrix := ⟨rfl, rfl, rfl⟩
    have asked : SampleSolved Unit spectralSolver shearedSector rank rank (.value 0) (Mat.exact (Xᴴ * P * X)) :=
      .ionization sampled sampled solved
    obtain ⟨n, C, hermitian, same⟩ := (samples 2 _ _ _ shearedSector rank rank 0 held le_rfl).numbers _ asked
    cases congrArg Mat.rows same
    exact ⟨rank, C, same ▸ asked, hermitian⟩

end OrbitalSpectra
