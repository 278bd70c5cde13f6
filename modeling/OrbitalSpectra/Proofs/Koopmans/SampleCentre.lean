import OrbitalSpectra.Proofs.Bootstrap.Draws
import OrbitalSpectra.Proofs.Koopmans.GeneralisedSpectrum

set_option autoImplicit false

namespace OrbitalSpectra

open Matrix Sampling NormalStream

variable {n m : Nat}

theorem RealEntries.mul {r k c : Nat} {A : Matrix (Fin r) (Fin k) ℂ} {B : Matrix (Fin k) (Fin c) ℂ}
    (left : RealEntries A) (right : RealEntries B) : RealEntries (A * B) := by
  intro i j
  rw [mul_apply, Complex.im_sum]
  apply Finset.sum_eq_zero
  intro l _
  rw [Complex.mul_im, left i l, right l j, mul_zero, zero_mul, add_zero]

theorem RealEntries.conjTranspose {r c : Nat} {A : Matrix (Fin r) (Fin c) ℂ} (real : RealEntries A) :
    RealEntries Aᴴ := by
  intro i j
  rw [conjTranspose_apply, Complex.star_def, Complex.conj_im, real j i, neg_zero]

theorem whitener_real {U : Matrix (Fin n) (Fin n) ℂ} (real : RealEntries U) (d : Fin n → ℝ) (places : Fin m → Fin n) :
    RealEntries (whitener d U places) := by
  intro i j
  rw [whitener, mul_diagonal, ← Complex.ofReal_inv, Complex.im_mul_ofReal, submatrix_apply, id_eq, real i (places j),
    zero_mul]

theorem hermitised_projection (X : Matrix (Fin n) (Fin m) ℂ) (F : Matrix (Fin n) (Fin n) ℂ) :
    Xᴴ * hermitised F * X = hermitised (Xᴴ * F * X) := by
  rw [hermitised, hermitised, conjTranspose_mul, conjTranspose_mul, conjTranspose_conjTranspose, Matrix.mul_smul,
    Matrix.smul_mul, Matrix.mul_add, Matrix.add_mul, Matrix.mul_assoc Xᴴ Fᴴ X]

theorem projection_real {X : Matrix (Fin n) (Fin m) ℂ} {F : Matrix (Fin n) (Fin n) ℂ}
    (transformReal : RealEntries X) (fockReal : RealEntries F) : RealEntries (Xᴴ * F * X) :=
  (transformReal.conjTranspose.mul fockReal).mul transformReal

structure CentredEnergies (solver : EigenSolver Exact) (γ F : Matrix (Fin n) (Fin n) ℂ) (cutoff : ℝ)
    (central sampled : List ℝ) : Prop where
  averaged : projectedEnergies solver (Mat.exact γ) (Mat.exact F) (.value cutoff) = .ok (central.map .value)
  hermitian : projectedEnergies solver (Mat.exact γ) (Mat.exact (hermitised F)) (.value cutoff) =
    .ok (sampled.map .value)
  pinned : projectedEnergiesWithRank solver (Mat.exact γ) (Mat.exact (hermitised F)) central.length (.value cutoff) =
    .ok (some (sampled.map .value))
  centred : ∃ (m : Nat) (X : Matrix (Fin n) (Fin m) ℂ), Whitening solver γ cutoff X ∧
    (sampled = central ↔ (hermitised (Xᴴ * F * X)).charpoly = (lowerHermitian (Xᴴ * F * X)).charpoly)
  symmetric : F.IsHermitian → sampled = central

theorem projected_energies_with_rank_exact {solver : EigenSolver Exact} {γ F : Matrix (Fin n) (Fin n) ℂ} {cutoff : ℝ}
    {X : Matrix (Fin n) (Fin m) ℂ} {B : Matrix (Fin m) (Fin m) ℂ} (whitening : Whitening solver γ cutoff X)
    (solves : Solves solver (Xᴴ * F * X) B) :
    projectedEnergiesWithRank solver (Mat.exact γ) (Mat.exact F) m (.value cutoff) =
      .ok (some ((ascendingSpectrum B).map .value)) := by
  simp only [projectedEnergiesWithRank, require_same_shape_exact, whitening.ranked, reporting_ok]
  change (some <$> projectedEigenvalues solver (Mat.exact X) (Mat.exact F)) = _
  rw [projected_eigenvalues_exact solves]
  rfl

theorem real_whitening_exists {solver : EigenSolver Exact} (lower : LowerFaithful solver)
    {γ : Matrix (Fin n) (Fin n) ℂ} (density : γ.IsHermitian) (densityReal : RealEntries γ) {cutoff : ℝ}
    (nonneg : 0 ≤ cutoff) :
    ∃ (m : Nat) (X : Matrix (Fin n) (Fin m) ℂ), RealEntries X ∧ Whitening solver γ cutoff X := by
  obtain ⟨d, U, answer, form, vectorsReal⟩ := lower n γ fun i => densityReal i i
  rw [lower_hermitian_of_hermitian density] at form
  obtain ⟨π, ascending, sorted⟩ := eigh_exact answer
  obtain ⟨m, places, whitening⟩ := whitening_exists sorted (form.permuted π) nonneg
  exact ⟨m, _, whitener_real (fun i j => vectorsReal densityReal i (π j)) _ _, whitening⟩

theorem centred_energies_exist {solver : EigenSolver Exact} (lower : LowerFaithful solver)
    {γ F : Matrix (Fin n) (Fin n) ℂ} (density : γ.IsHermitian) (densityReal : RealEntries γ) (fockReal : RealEntries F)
    {cutoff : ℝ} (nonneg : 0 ≤ cutoff) : ∃ central sampled, CentredEnergies solver γ F cutoff central sampled := by
  obtain ⟨m, X, transformReal, whitening⟩ := real_whitening_exists lower density densityReal nonneg
  have diagonal (i : Fin m) : ((Xᴴ * F * X) i i).im = 0 := projection_real transformReal fockReal i i
  have hermitian := hermitised_is_hermitian (Xᴴ * F * X)
  obtain ⟨d, U, answer, central, _⟩ := lower m _ diagonal
  obtain ⟨f, V, sampledAnswer, sampled⟩ := lower.faithful m _ hermitian
  have solved : Solves solver (Xᴴ * hermitised F * X) (hermitised (Xᴴ * F * X)) := by
    rw [hermitised_projection]
    exact ⟨f, V, sampledAnswer, sampled⟩
  refine ⟨ascendingSpectrum (lowerHermitian (Xᴴ * F * X)), ascendingSpectrum (hermitised (Xᴴ * F * X)),
    ?_, ?_, ?_, ?_, ?_⟩
  · exact projected_energies_exact whitening.regularised ⟨d, U, answer, central⟩
  · exact projected_energies_exact whitening.regularised solved
  · rw [central.spectrum_length]
    exact projected_energies_with_rank_exact whitening solved
  · exact ⟨m, X, whitening, sampled.spectrum_eq_iff central⟩
  · intro fock
    have projected := isHermitian_conjTranspose_mul_mul X fock
    rw [hermitised_of_hermitian projected, lower_hermitian_of_hermitian projected]

section Samples

variable {σ : Type} [NormalStream σ Exact]

theorem zeros_entry (i j : Fin n) : (Mat.zeros n n : Mat Exact).entry i j = .value 0 :=
  Mat.entry_ofFn _ i.isLt j.isLt

-- The matrix that a draw without errors gives.
def realParts (A : Matrix (Fin n) (Fin n) ℂ) : Matrix (Fin n) (Fin n) ℂ := A.map fun z => (z.re : ℂ)

theorem real_parts_of_real {A : Matrix (Fin n) (Fin n) ℂ} (real : RealEntries A) : realParts A = A := by
  ext i j
  exact Complex.ext rfl (real i j).symm

theorem errorless_matrix (drawn : ∀ state : σ, ∃ z, (next (R := Exact) state).1 = .value z)
    (A : Matrix (Fin n) (Fin n) ℂ) (state : σ) :
    sampleMatrix (Mat.exact A) (Mat.zeros n n) state =
      (.ok (Mat.exact (hermitised (realParts A))), skip Exact (n * n) state) := by
  have drawnMatrix : Mat.ofFn n n (perturbed (Mat.exact A) (Mat.zeros n n) state) = Mat.exact (realParts A) := by
    apply Mat.of_fn_exact
    intro i j
    obtain ⟨z, held⟩ := drawn (skip Exact (j * n + i) state)
    rw [perturbed, perturbedEntry, Mat.exact_entry, zeros_entry, Mat.exact_rows, drawAt, held, Exact.value_mul,
      Cplx.exact_re, Exact.value_add, zero_mul, add_zero]
    rfl
  rw [sample_matrix_ok_iff]
  refine ⟨rfl, rfl, ?_, ?_, rfl⟩
  · intro i j row col
    exact congrArg Scalar.isFinite (zeros_entry ⟨i, row⟩ ⟨j, col⟩)
  · rw [Mat.exact_rows, drawnMatrix, exact_hermitian_part]

noncomputable def exactSector (p removal addition : Matrix (Fin n) (Fin n) ℂ) : SectorAverages Exact where
  density := Mat.exact p
  densityError := Mat.zeros n n
  removal := Mat.exact removal
  removalError := Mat.zeros n n
  addition := Mat.exact addition
  additionError := Mat.zeros n n

theorem errorless_sector_sample (drawn : ∀ state : σ, ∃ z, (next (R := Exact) state).1 = .value z)
    {solver : EigenSolver Exact} {p removal addition : Matrix (Fin n) (Fin n) ℂ} {cutoff : Exact}
    {ionizationRank attachmentRank : Nat} {ionization attachment : Option (List Exact)}
    (ionizationOk : projectedEnergiesWithRank solver (Mat.exact (hermitised (realParts p)))
      (Mat.exact (hermitised (realParts removal))) ionizationRank cutoff = .ok ionization)
    (attachmentOk : projectedEnergiesWithRank solver (Mat.exact (1 - (hermitised (realParts p))ᵀ))
      (Mat.exact (hermitised (realParts addition))) attachmentRank cutoff = .ok attachment) (state : σ) :
    ∃ after, Yields (sampleSector solver (exactSector p removal addition) ionizationRank attachmentRank cutoff) state
      ⟨ionization, attachment⟩ after := by
  simp only [sampleSector, exactSector, bind_yields, draw_yields, except_yields, pure_yields]
  exact ⟨_, _, _, errorless_matrix drawn p state, _, _, errorless_matrix drawn removal _, _, _,
    errorless_matrix drawn addition _, _, _, ⟨ionizationOk, rfl⟩, _, _, ⟨hole_density_exact _, rfl⟩, _, _,
    ⟨attachmentOk, rfl⟩, rfl, rfl⟩

theorem sample_sector_centred {solver : EigenSolver Exact} {p removal addition : Matrix (Fin n) (Fin n) ℂ}
    (density : p.IsHermitian) (densityReal : RealEntries p) (removalReal : RealEntries removal)
    (additionReal : RealEntries addition) {cutoff : Exact} {ionizationRank attachmentRank : Nat}
    {ionization attachment : Option (List Exact)}
    (drawn : ∀ state : σ, ∃ z, (next (R := Exact) state).1 = .value z)
    (ionizationOk : projectedEnergiesWithRank solver (Mat.exact p) (Mat.exact (hermitised removal)) ionizationRank
      cutoff = .ok ionization)
    (attachmentOk : projectedEnergiesWithRank solver (Mat.exact (1 - pᵀ)) (Mat.exact (hermitised addition))
      attachmentRank cutoff = .ok attachment) (state : σ) :
    ∃ after, Yields (sampleSector solver (exactSector p removal addition) ionizationRank attachmentRank cutoff) state
      ⟨ionization, attachment⟩ after := by
  have sampled : hermitised (realParts p) = p := by rw [real_parts_of_real densityReal, hermitised_of_hermitian density]
  apply errorless_sector_sample drawn
  · rwa [sampled, real_parts_of_real removalReal]
  · rwa [sampled, real_parts_of_real additionReal]

end Samples

end OrbitalSpectra
