import OrbitalSpectra.Koopmans
import OrbitalSpectra.Proofs.Exact.LowerTriangle
import OrbitalSpectra.Proofs.Exact.Whitening

set_option autoImplicit false

namespace OrbitalSpectra

open Matrix

variable {n m : Nat}

-- The solutions of the generalised eigenproblem, each as often as its space has dimensions.
structure GeneralisedSpectrum (γ F : Matrix (Fin n) (Fin n) ℂ) (cutoff : ℝ) (es : List ℝ) : Prop where
  ascending : es.Pairwise (· ≤ ·)
  multiplicity : ∀ e : ℝ, es.count e = Module.finrank ℂ (pencilSpace γ F cutoff e)
  solutions : ∀ e : ℂ, (∃ c ∈ pencilSpace γ F cutoff e, c ≠ 0) ↔ ∃ x ∈ es, (x : ℂ) = e
  determinant : (∀ (x : ℝ) (v : Fin n → ℂ), v ≠ 0 → γ *ᵥ v = (x : ℂ) • v → cutoff < x) →
    ∀ e : ℂ, (F - e • γ).det = 0 ↔ ∃ x ∈ es, (x : ℂ) = e

theorem generalised_spectrum_unique {γ F : Matrix (Fin n) (Fin n) ℂ} {cutoff : ℝ} {es fs : List ℝ}
    (left : GeneralisedSpectrum γ F cutoff es) (right : GeneralisedSpectrum γ F cutoff fs) : es = fs := by
  have counts : es.Perm fs := by
    rw [List.perm_iff_count]
    intro e
    rw [left.multiplicity, right.multiplicity]
  exact counts.eq_of_pairwise' left.ascending right.ascending

theorem projected_eigenvalues_exact {solver : EigenSolver Exact} {X : Matrix (Fin n) (Fin m) ℂ}
    {F : Matrix (Fin n) (Fin n) ℂ} {B : Matrix (Fin m) (Fin m) ℂ} (solves : Solves solver (Xᴴ * F * X) B) :
    projectedEigenvalues solver (Mat.exact X) (Mat.exact F) = .ok ((ascendingSpectrum B).map .value) := by
  simp only [projectedEigenvalues, Mat.exact_adjoint, Mat.exact_mul, except_bind_ok_iff, or_fault_ok_iff,
    except_lift_ok_iff, Option.some.injEq, exists_eq_left']
  exact eigenvalues_exact solves

theorem require_same_shape_exact (γ F : Matrix (Fin n) (Fin n) ℂ) :
    requireSameShape (Mat.exact γ) (Mat.exact F) = .ok () := if_pos rfl

theorem projected_energies_exact {solver : EigenSolver Exact} {γ F : Matrix (Fin n) (Fin n) ℂ} {cutoff : ℝ}
    {X : Matrix (Fin n) (Fin m) ℂ} {B : Matrix (Fin m) (Fin m) ℂ}
    (regularised : ∃ matrix, regularise solver (Mat.exact γ) (.value cutoff) = .ok ⟨matrix, Mat.exact X⟩)
    (solves : Solves solver (Xᴴ * F * X) B) :
    projectedEnergies solver (Mat.exact γ) (Mat.exact F) (.value cutoff) = .ok ((ascendingSpectrum B).map .value) := by
  obtain ⟨matrix, returned⟩ := regularised
  simp only [projectedEnergies, require_same_shape_exact, except_bind_ok_iff, except_lift_ok_iff, true_and,
    exists_const]
  exact ⟨_, returned, projected_eigenvalues_exact solves⟩

theorem generalised_spectrum_of_whitening {γ F V : Matrix (Fin n) (Fin n) ℂ} {d : Fin n → ℝ} {cutoff : ℝ}
    {X : Matrix (Fin n) (Fin m) ℂ} (form : Diagonalises γ d V) (hermitian : F.IsHermitian)
    (whitens : Whitens γ cutoff X) : GeneralisedSpectrum γ F cutoff (ascendingSpectrum (Xᴴ * F * X)) := by
  obtain ⟨_, _, projected, _⟩ := diagonalises_exists (isHermitian_conjTranspose_mul_mul X hermitian)
  have solutions (e : ℂ) : (∃ c ∈ pencilSpace γ F cutoff e, c ≠ 0) ↔
      ∃ x ∈ ascendingSpectrum (Xᴴ * F * X), (x : ℂ) = e := by
    rw [whitens.pencil_solutions, projected.spectrum_member]
  refine ⟨ascending_spectrum_sorted _, ?_, solutions, ?_⟩
  · intro e
    rw [projected.spectrum_count, whitens.pencil_dimension]
  · intro above e
    rw [determinant_zero_iff (upper_space_full form above), solutions]

theorem projected_energies_spectrum {solver : EigenSolver Exact} (faithful : Faithful solver)
    {γ F : Matrix (Fin n) (Fin n) ℂ} (density : γ.IsHermitian) (fock : F.IsHermitian) {cutoff : ℝ}
    (nonneg : 0 ≤ cutoff) : ∃ es, projectedEnergies solver (Mat.exact γ) (Mat.exact F) (.value cutoff) =
      .ok (es.map .value) ∧ GeneralisedSpectrum γ F cutoff es := by
  obtain ⟨d, U, sorted, ascending, form⟩ := solves_sorted (faithful n γ density)
  obtain ⟨m, places, whitening⟩ := whitening_exists sorted form nonneg
  have projected := isHermitian_conjTranspose_mul_mul (whitener d U places) fock
  exact ⟨_, projected_energies_exact whitening.regularised (faithful _ _ projected),
    generalised_spectrum_of_whitening form fock whitening.whitens⟩

theorem projected_energies_of_spectrum {solver : EigenSolver Exact} (faithful : Faithful solver)
    {γ F : Matrix (Fin n) (Fin n) ℂ} (density : γ.IsHermitian) (fock : F.IsHermitian) {cutoff : ℝ}
    (nonneg : 0 ≤ cutoff) {es : List ℝ} (spectrum : GeneralisedSpectrum γ F cutoff es) :
    projectedEnergies solver (Mat.exact γ) (Mat.exact F) (.value cutoff) = .ok (es.map .value) := by
  obtain ⟨fs, energies, found⟩ := projected_energies_spectrum faithful density fock nonneg
  rw [energies, generalised_spectrum_unique found spectrum]

theorem hole_density_exact (p : Matrix (Fin n) (Fin n) ℂ) : holeDensity (Mat.exact p) = .ok (Mat.exact (1 - pᵀ)) := by
  rw [holeDensity, Mat.exact_rows, Mat.exact_identity, Mat.exact_transpose, Mat.exact_sub, or_fault_some]

theorem hole_density_hermitian {p : Matrix (Fin n) (Fin n) ℂ} (density : p.IsHermitian) : (1 - pᵀ).IsHermitian :=
  isHermitian_one.sub density.transpose

theorem attachment_energies_exact (solver : EigenSolver Exact) (p F : Matrix (Fin n) (Fin n) ℂ) (cutoff : Exact) :
    attachmentEnergies solver (Mat.exact p) (Mat.exact F) cutoff =
      projectedEnergies solver (Mat.exact (1 - pᵀ)) (Mat.exact F) cutoff := by
  rw [attachmentEnergies, hole_density_exact]
  rfl

theorem energies_solve_pencil (solver : EigenSolver Exact) (faithful : Faithful solver) (n : Nat)
    (γ F : Matrix (Fin n) (Fin n) ℂ) (density : γ.IsHermitian) (fock : F.IsHermitian) (cutoff : ℝ)
    (nonneg : 0 ≤ cutoff) :
    (∃ es, projectedEnergies solver (Mat.exact γ) (Mat.exact F) (.value cutoff) = .ok (es.map .value) ∧
      ionizationEnergies solver (Mat.exact γ) (Mat.exact F) (.value cutoff) = .ok (es.map .value) ∧
      GeneralisedSpectrum γ F cutoff es) ∧
    (∃ es, attachmentEnergies solver (Mat.exact γ) (Mat.exact F) (.value cutoff) = .ok (es.map .value) ∧
      GeneralisedSpectrum (1 - γᵀ) F cutoff es) ∧
    ∀ other, Faithful other →
      ionizationEnergies other (Mat.exact γ) (Mat.exact F) (.value cutoff) =
        ionizationEnergies solver (Mat.exact γ) (Mat.exact F) (.value cutoff) ∧
      attachmentEnergies other (Mat.exact γ) (Mat.exact F) (.value cutoff) =
        attachmentEnergies solver (Mat.exact γ) (Mat.exact F) (.value cutoff) := by
  have hole := hole_density_hermitian density
  have same {other : EigenSolver Exact} (otherFaithful : Faithful other) {η : Matrix (Fin n) (Fin n) ℂ}
      (hermitian : η.IsHermitian) : projectedEnergies other (Mat.exact η) (Mat.exact F) (.value cutoff) =
        projectedEnergies solver (Mat.exact η) (Mat.exact F) (.value cutoff) := by
    obtain ⟨es, energies, spectrum⟩ := projected_energies_spectrum faithful hermitian fock nonneg
    obtain ⟨fs, others, otherSpectrum⟩ := projected_energies_spectrum otherFaithful hermitian fock nonneg
    rw [energies, others, generalised_spectrum_unique otherSpectrum spectrum]
  refine ⟨?_, ?_, ?_⟩
  · obtain ⟨es, energies, spectrum⟩ := projected_energies_spectrum faithful density fock nonneg
    exact ⟨es, energies, energies, spectrum⟩
  · simp only [attachment_energies_exact]
    exact projected_energies_spectrum faithful hole fock nonneg
  · intro other otherFaithful
    rw [attachment_energies_exact, attachment_energies_exact]
    exact ⟨same otherFaithful density, same otherFaithful hole⟩

theorem energies_solve_pencil_exchange : ∃ es : List ℝ,
    ionizationEnergies spectralSolver (Mat.exact (1 : Matrix (Fin 2) (Fin 2) ℂ)) (Mat.exact !![0, 1; 1, 0])
      (.value 0) = .ok (es.map .value) ∧ ∀ e : ℂ, (∃ x ∈ es, (x : ℂ) = e) ↔ e = 1 ∨ e = -1 := by
  have fock : (!![0, 1; 1, 0] : Matrix (Fin 2) (Fin 2) ℂ).IsHermitian := by
    ext i j
    fin_cases i <;> fin_cases j <;> simp
  obtain ⟨⟨es, _, energies, spectrum⟩, _⟩ := energies_solve_pencil spectralSolver
    spectral_solver_lower_faithful.faithful 2 1 !![0, 1; 1, 0] isHermitian_one fock 0 le_rfl
  refine ⟨es, energies, fun e => ?_⟩
  have above (x : ℝ) (v : Fin 2 → ℂ) (nonzero : v ≠ 0) (eigen : (1 : Matrix (Fin 2) (Fin 2) ℂ) *ᵥ v = (x : ℂ) • v) :
      0 < x := by
    rw [one_mulVec] at eigen
    obtain ⟨k, present⟩ := Function.ne_iff.mp nonzero
    have entry := congrFun eigen k
    rw [Pi.smul_apply, smul_eq_mul, eq_comm, mul_eq_right₀ present] at entry
    have one : x = 1 := by exact_mod_cast entry
    rw [one]
    exact one_pos
  have determinant : (!![0, 1; 1, 0] - e • (1 : Matrix (Fin 2) (Fin 2) ℂ)).det = (e - 1) * (e + 1) := by
    simp [det_fin_two]
    ring
  rw [← spectrum.determinant above e, determinant, mul_eq_zero, sub_eq_zero, add_eq_zero_iff_eq_neg]

end OrbitalSpectra
