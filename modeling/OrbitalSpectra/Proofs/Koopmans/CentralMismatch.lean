import OrbitalSpectra.Proofs.Koopmans.SampleCentre

set_option autoImplicit false

namespace OrbitalSpectra

open Matrix Sampling NormalStream

section Law

variable {n : Nat}

def realMatrix (B : Matrix (Fin n) (Fin n) ℝ) : Matrix (Fin n) (Fin n) ℂ := B.map Complex.ofReal

theorem real_matrix_real (B : Matrix (Fin n) (Fin n) ℝ) : RealEntries (realMatrix B) := fun _ _ => Complex.ofReal_im _

theorem real_matrix_hermitian {B : Matrix (Fin n) (Fin n) ℝ} (symmetric : B.IsSymm) : (realMatrix B).IsHermitian := by
  ext i j
  rw [conjTranspose_apply, realMatrix, map_apply, map_apply, Complex.star_def, Complex.conj_ofReal, symmetric.apply]

theorem real_matrix_hole (B : Matrix (Fin n) (Fin n) ℝ) : 1 - (realMatrix B)ᵀ = realMatrix (1 - Bᵀ) := by
  ext i j
  by_cases same : i = j
  · simp [realMatrix, same]
  · simp [realMatrix, one_apply_ne same]

theorem samples_without_errors {σ : Type} [NormalStream σ Exact] (solver : EigenSolver Exact)
    (lower : LowerFaithful solver) (drawn : ∀ state : σ, ∃ z, (next (R := Exact) state).1 = .value z) (n : Nat)
    (p removal addition : Matrix (Fin n) (Fin n) ℝ) (symmetric : p.IsSymm) (cutoff : ℝ) (nonneg : 0 ≤ cutoff) :
    ∃ ip ea sampledIp sampledEa : List ℝ,
      CentredEnergies solver (realMatrix p) (realMatrix removal) cutoff ip sampledIp ∧
      CentredEnergies solver (1 - (realMatrix p)ᵀ) (realMatrix addition) cutoff ea sampledEa ∧
      ionizationEnergies solver (Mat.exact (realMatrix p)) (Mat.exact (realMatrix removal)) (.value cutoff) =
        .ok (ip.map .value) ∧
      attachmentEnergies solver (Mat.exact (realMatrix p)) (Mat.exact (realMatrix addition)) (.value cutoff) =
        .ok (ea.map .value) ∧
      ∀ samples, fitsMemory samples vectorSize = true → ∀ state : σ, ∃ after,
        Yields (sectorSamples solver (exactSector (realMatrix p) (realMatrix removal) (realMatrix addition)) ip.length
          ea.length samples (.value cutoff)) state
          (List.replicate samples ⟨some (sampledIp.map .value), some (sampledEa.map .value)⟩) after := by
  have density := real_matrix_hermitian symmetric
  have holeReal : RealEntries (1 - (realMatrix p)ᵀ) := by
    rw [real_matrix_hole]
    exact real_matrix_real _
  obtain ⟨ip, sampledIp, ionization⟩ := centred_energies_exist lower density (real_matrix_real p)
    (real_matrix_real removal) nonneg
  obtain ⟨ea, sampledEa, attachment⟩ := centred_energies_exist lower (hole_density_hermitian density) holeReal
    (real_matrix_real addition) nonneg
  refine ⟨ip, ea, sampledIp, sampledEa, ionization, attachment, ionization.averaged, ?_, ?_⟩
  · rw [attachment_energies_exact]
    exact attachment.averaged
  · intro samples room state
    have sample := sample_sector_centred density (real_matrix_real p) (real_matrix_real removal)
      (real_matrix_real addition) drawn ionization.pinned attachment.pinned
    exact collect_yields sample room state

end Law

-- A solver that finds the axes themselves for the identity of order two.
open Classical in
noncomputable def axisSolver : EigenSolver Exact := fun m =>
  if m = Mat.exact (1 : Matrix (Fin 2) (Fin 2) ℂ) then Eigensystem.exact (fun _ : Fin 2 => 1) 1 else spectralSolver m

theorem axis_form : Diagonalises (1 : Matrix (Fin 2) (Fin 2) ℂ) (fun _ => 1) 1 where
  unitary := one_mem _
  product := by simp

theorem axis_solver_identity :
    axisSolver (Mat.exact (1 : Matrix (Fin 2) (Fin 2) ℂ)) = Eigensystem.exact (fun _ : Fin 2 => 1) 1 := if_pos rfl

theorem axis_solver_lower_faithful : LowerFaithful axisSolver := by
  intro n A diagonal
  by_cases identity : Mat.exact A = Mat.exact (1 : Matrix (Fin 2) (Fin 2) ℂ)
  · obtain rfl : n = 2 := congrArg Mat.rows identity
    obtain rfl : A = 1 := Mat.exact_injective identity
    refine ⟨_, _, axis_solver_identity, ?_, fun real => real⟩
    rw [lower_hermitian_of_hermitian isHermitian_one]
    exact axis_form
  · rw [axisSolver, if_neg identity]
    exact spectral_solver_lower_faithful n A diagonal

-- A stream that draws the same number over and over.
local instance constantStream : NormalStream Unit Exact where
  ofSeed _ := ()
  next state := (.value 1, state)

def skewFock : Matrix (Fin 2) (Fin 2) ℝ := !![0, 1; 0, 0]

theorem axis_places : (Eigensystem.exact (fun _ : Fin 2 => 1) 1).above (.value 0) = [0, 1] := by
  rw [above_exact, List.filter_eq_self.mpr]
  · rfl
  · intro k member
    rw [value_inside _ _ (List.mem_range.mp member), decide_eq_true_iff, Exact.value_lt]
    exact one_pos

theorem axis_whitening : (Eigensystem.exact (fun _ : Fin 2 => 1) 1).whitening [0, 1] =
    Mat.exact (1 : Matrix (Fin 2) (Fin 2) ℂ) := by
  change Mat.ofFn 2 2 _ = _
  apply Mat.of_fn_exact
  intro r c
  have place : [0, 1].getD c 0 = (c : Nat) := by fin_cases c <;> rfl
  have entry : (Eigensystem.exact (fun _ : Fin 2 => 1) 1).vectors.entry r c = Cplx.exact ((1 : Matrix _ _ ℂ) r c) :=
    Mat.exact_entry 1 r c
  rw [place, entry, exact_value, Exact.value_sqrt _ zero_le_one, Real.sqrt_one, Cplx.exact_unscale _ _ one_ne_zero,
    Complex.ofReal_one, div_one]

theorem axis_regularise : ∃ matrix, regularise axisSolver (Mat.exact (1 : Matrix (Fin 2) (Fin 2) ℂ)) (.value 0) =
    .ok ⟨matrix, Mat.exact (1 : Matrix (Fin 2) (Fin 2) ℂ)⟩ := by
  obtain ⟨matrix, regularised⟩ := regularise_exact (eigh_of_monotone axis_solver_identity monotone_const) le_rfl
  rw [← upper_whitening _ _ le_rfl, axis_places, axis_whitening] at regularised
  exact ⟨matrix, regularised⟩

theorem axis_energies {F B : Matrix (Fin 2) (Fin 2) ℂ} (solves : Solves axisSolver F B) :
    projectedEnergies axisSolver (Mat.exact (1 : Matrix (Fin 2) (Fin 2) ℂ)) (Mat.exact F) (.value 0) =
      .ok ((ascendingSpectrum B).map .value) := by
  apply projected_energies_exact axis_regularise
  rwa [conjTranspose_one, Matrix.one_mul, Matrix.mul_one]

theorem skew_lower : lowerHermitian (realMatrix skewFock) = 0 := by
  ext i j
  fin_cases i <;> fin_cases j <;> simp [lowerHermitian, realMatrix, skewFock]

theorem skew_central : ionizationEnergies axisSolver (Mat.exact (1 : Matrix (Fin 2) (Fin 2) ℂ))
    (Mat.exact (realMatrix skewFock)) (.value 0) = .ok [.value 0, .value 0] := by
  have diagonal (i : Fin 2) : ((realMatrix skewFock) i i).im = 0 := real_matrix_real skewFock i i
  obtain ⟨d, U, answer, form, _⟩ := axis_solver_lower_faithful 2 _ diagonal
  have zero : Diagonalises (0 : Matrix (Fin 2) (Fin 2) ℂ) (fun _ => 0) 1 := ⟨one_mem _, by simp⟩
  rw [ionizationEnergies, axis_energies ⟨d, U, answer, form⟩, skew_lower, zero.spectrum_of_monotone monotone_const]
  rfl

theorem skew_hermitised : hermitised (realMatrix skewFock) = !![0, 1 / 2; 1 / 2, 0] := by
  ext i j
  fin_cases i <;> fin_cases j <;> simp [hermitised, realMatrix, skewFock]

-- The eigenvectors of the exchange of the two axes.
theorem skew_hermitised_form : ∃ U : Matrix (Fin 2) (Fin 2) ℂ,
    Diagonalises (hermitised (realMatrix skewFock)) ![-1 / 2, 1 / 2] U := by
  have square : ((Real.sqrt (1 / 2) : ℝ) : ℂ) * Real.sqrt (1 / 2) = 1 / 2 := by
    rw [← Complex.ofReal_mul, Real.mul_self_sqrt (by norm_num)]
    norm_num
  have adjoint : (((Real.sqrt (1 / 2) : ℝ) : ℂ) • !![1, 1; -1, 1] : Matrix (Fin 2) (Fin 2) ℂ)ᴴ =
      ((Real.sqrt (1 / 2) : ℝ) : ℂ) • !![1, -1; 1, 1] := by
    ext i j
    fin_cases i <;> fin_cases j <;> simp
  have values : (diagonal fun k => ((![-1 / 2, 1 / 2] k : ℝ) : ℂ)) = !![-1 / 2, 0; 0, 1 / 2] := by
    ext i j
    fin_cases i <;> fin_cases j <;> simp
  refine ⟨((Real.sqrt (1 / 2) : ℝ) : ℂ) • !![1, 1; -1, 1], ?_, ?_⟩
  · rw [mem_unitaryGroup_iff, star_eq_conjTranspose, adjoint, smul_mul_smul_comm, square, mul_fin_two, one_fin_two]
    norm_num [smul_of]
  · rw [adjoint, values, Matrix.smul_mul, smul_mul_smul_comm, square, mul_fin_two, mul_fin_two, skew_hermitised]
    norm_num [smul_of]

theorem skew_sampled : ascendingSpectrum (hermitised (realMatrix skewFock)) = [-1 / 2, 1 / 2] := by
  obtain ⟨U, form⟩ := skew_hermitised_form
  have ascending : Monotone ![(-1 / 2 : ℝ), 1 / 2] := by
    intro i j before
    fin_cases i <;> fin_cases j <;> simp at before ⊢
    norm_num
  rw [form.spectrum_of_monotone ascending]
  simp

theorem samples_without_errors_skew : ∃ ea sampledEa : List ℝ,
    ionizationEnergies axisSolver (Mat.exact (1 : Matrix (Fin 2) (Fin 2) ℂ)) (Mat.exact (realMatrix skewFock))
      (.value 0) = .ok [.value 0, .value 0] ∧
    ∀ samples, fitsMemory samples vectorSize = true → ∀ state : Unit, ∃ after,
      Yields (sectorSamples axisSolver (exactSector 1 (realMatrix skewFock) (realMatrix 0)) 2 ea.length samples
        (.value 0)) state
        (List.replicate samples ⟨some [.value (-1 / 2), .value (1 / 2)], some (sampledEa.map .value)⟩) after := by
  have identity : realMatrix (1 : Matrix (Fin 2) (Fin 2) ℝ) = 1 := by
    ext i j
    fin_cases i <;> fin_cases j <;> simp [realMatrix]
  obtain ⟨ip, ea, sampledIp, sampledEa, centred, _, ionization, _, sampled⟩ := samples_without_errors axisSolver
    axis_solver_lower_faithful (fun _ : Unit => ⟨1, rfl⟩) 2 1 skewFock 0 (transpose_one) 0 le_rfl
  rw [identity] at ionization sampled
  have central := skew_central
  rw [ionization, Except.ok.injEq] at central
  have hermitian := centred.hermitian
  rw [identity, axis_energies (axis_solver_lower_faithful.faithful _ _ (hermitised_is_hermitian _)), skew_sampled,
    Except.ok.injEq] at hermitian
  have two : ip.length = 2 := by
    rw [← List.length_map (f := Exact.value), central]
    rfl
  rw [two, ← hermitian] at sampled
  exact ⟨ea, sampledEa, skew_central, sampled⟩

end OrbitalSpectra
