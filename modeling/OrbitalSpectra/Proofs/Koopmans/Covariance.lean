import OrbitalSpectra.Proofs.Exact.ScaledSpectrum
import OrbitalSpectra.Proofs.Koopmans.HoleSpectrum

set_option autoImplicit false

namespace OrbitalSpectra

open Matrix

variable {n m : Nat} {γ F U V : Matrix (Fin n) (Fin n) ℂ} {d : Fin n → ℝ} {X : Matrix (Fin n) (Fin m) ℂ}
  {solver : EigenSolver Exact} {cutoff : ℝ}

section Whitening

theorem whitens_exists (form : Diagonalises γ d U) (nonneg : 0 ≤ cutoff) :
    ∃ (m : Nat) (X : Matrix (Fin n) (Fin m) ℂ), Whitens γ cutoff X :=
  ⟨_, whitener d U (upperPlaces d U cutoff),
    whitener_whitens form (upper_places_injective d U cutoff) nonneg (upper_places_iff d U cutoff)⟩

theorem projected_energies_whitened (faithful : Faithful solver) (form : Diagonalises γ d U) (fock : F.IsHermitian)
    (nonneg : 0 ≤ cutoff) (whitens : Whitens γ cutoff X) :
    projectedEnergies solver (Mat.exact γ) (Mat.exact F) (.value cutoff) =
      .ok ((ascendingSpectrum (Xᴴ * F * X)).map .value) :=
  projected_energies_of_spectrum faithful form.hermitian fock nonneg
    (generalised_spectrum_of_whitening form fock whitens)

end Whitening

section Pair

-- Two orbitals with their occupations and energies. At the cutoff below, one of them has too few electrons.
noncomputable def pairFilling : Fin 2 → ℝ := ![1 / 2, 1 / 4]

noncomputable def pairEnergies : Fin 2 → ℝ := ![2, -1]

noncomputable def pairDensity : Matrix (Fin 2) (Fin 2) ℂ := realDiagonal pairFilling

noncomputable def pairRemoval : Matrix (Fin 2) (Fin 2) ℂ := realDiagonal fun k => pairFilling k * pairEnergies k

noncomputable def pairAddition : Matrix (Fin 2) (Fin 2) ℂ :=
  realDiagonal fun k => (1 - pairFilling k) * pairEnergies k

theorem pair_ionization : ionizationEnergies spectralSolver (Mat.exact pairDensity) (Mat.exact pairRemoval)
    (.value (3 / 8)) = .ok ([2].map .value) := by
  have energies := diagonal_pair_energies spectral_solver_lower_faithful.faithful pairFilling pairEnergies
    (by norm_num : (0 : ℝ) ≤ 3 / 8)
  have kept : [2] = ascendingList (((List.finRange 2).filter fun k => 3 / 8 < pairFilling k).map pairEnergies) := by
    apply ascending_list_unique (by norm_num)
    norm_num [List.finRange, pairFilling, pairEnergies]
  rwa [← kept] at energies

theorem pair_attachment : attachmentEnergies spectralSolver (Mat.exact pairDensity) (Mat.exact pairAddition)
    (.value (3 / 8)) = .ok ([-1, 2].map .value) := by
  have energies := diagonal_pair_energies spectral_solver_lower_faithful.faithful (fun k => 1 - pairFilling k)
    pairEnergies (by norm_num : (0 : ℝ) ≤ 3 / 8)
  have kept : [-1, 2] =
      ascendingList (((List.finRange 2).filter fun k => 3 / 8 < 1 - pairFilling k).map pairEnergies) := by
    apply ascending_list_unique (by norm_num)
    norm_num [List.finRange, pairFilling, pairEnergies]
    exact List.Perm.swap _ _ _
  rw [attachment_energies_exact, pairDensity, diagonal_hole]
  rwa [← kept] at energies

end Pair

section Rotation

theorem Diagonalises.rotated (form : Diagonalises γ d V) (unitary : U ∈ unitaryGroup (Fin n) ℂ) :
    Diagonalises (U * γ * Uᴴ) d (U * V) where
  unitary := mul_mem unitary form.unitary
  product := by
    conv_lhs => rw [form.product]
    rw [conjTranspose_mul]
    simp only [Matrix.mul_assoc]

theorem rotated_eigenvector (inverse : Uᴴ * U = 1) {v : Fin n → ℂ} {x : ℝ} (eigen : γ *ᵥ v = (x : ℂ) • v) :
    (U * γ * Uᴴ) *ᵥ (U *ᵥ v) = (x : ℂ) • (U *ᵥ v) := by
  rw [mulVec_mulVec, Matrix.mul_assoc, inverse, Matrix.mul_one, ← mulVec_mulVec, eigen, mulVec_smul]

theorem rotated_back (inverse : Uᴴ * U = 1) (A : Matrix (Fin n) (Fin n) ℂ) : Uᴴ * (U * A * Uᴴ) * Uᴴᴴ = A := by
  rw [conjTranspose_conjTranspose, Matrix.mul_assoc U, ← Matrix.mul_assoc Uᴴ, inverse, Matrix.one_mul,
    Matrix.mul_assoc, inverse, Matrix.mul_one]

theorem upper_space_rotated (unitary : U ∈ unitaryGroup (Fin n) ℂ) (γ : Matrix (Fin n) (Fin n) ℂ) (cutoff : ℝ) :
    upperSpace (U * γ * Uᴴ) cutoff = (upperSpace γ cutoff).map U.mulVecLin := by
  have left : Uᴴ * U = 1 := mem_unitaryGroup_iff'.mp unitary
  have right : U * Uᴴ = 1 := mem_unitaryGroup_iff.mp unitary
  rw [upperSpace, upperSpace, Submodule.map_span]
  congr 1
  ext v
  constructor
  · rintro ⟨x, above, eigen⟩
    have back := rotated_eigenvector (U := Uᴴ) (by rwa [conjTranspose_conjTranspose]) eigen
    rw [rotated_back left] at back
    refine ⟨Uᴴ *ᵥ v, ⟨x, above, back⟩, ?_⟩
    rw [mulVecLin_apply, mulVec_mulVec, right, one_mulVec]
  · rintro ⟨v, ⟨x, above, eigen⟩, rfl⟩
    exact ⟨x, above, rotated_eigenvector left eigen⟩

theorem rotated_projection (inverse : Uᴴ * U = 1) (A : Matrix (Fin n) (Fin n) ℂ) (X : Matrix (Fin n) (Fin m) ℂ) :
    (U * X)ᴴ * (U * A * Uᴴ) * (U * X) = Xᴴ * A * X := by
  calc (U * X)ᴴ * (U * A * Uᴴ) * (U * X)
      = Xᴴ * (Uᴴ * U) * A * (Uᴴ * U) * X := by
        rw [conjTranspose_mul]
        simp only [Matrix.mul_assoc]
    _ = Xᴴ * A * X := by rw [inverse, Matrix.mul_one, Matrix.mul_one]

theorem Whitens.rotated (whitens : Whitens γ cutoff X) (unitary : U ∈ unitaryGroup (Fin n) ℂ) :
    Whitens (U * γ * Uᴴ) cutoff (U * X) where
  normal := by rw [rotated_projection (mem_unitaryGroup_iff'.mp unitary), whitens.normal]
  span := by rw [mulVecLin_mul, LinearMap.range_comp, whitens.span, upper_space_rotated unitary]

theorem hole_rotated (unitary : U ∈ unitaryGroup (Fin n) ℂ) (p : Matrix (Fin n) (Fin n) ℂ) :
    1 - (U * p * Uᴴ)ᵀ = Uᵀᴴ * (1 - pᵀ) * Uᵀᴴᴴ := by
  have inverse : Uᵀᴴ * Uᵀᴴᴴ = 1 := mem_unitaryGroup_iff.mp (conjugated_unitary unitary)
  rw [Matrix.mul_sub, Matrix.sub_mul, Matrix.mul_one, inverse, transpose_mul, transpose_mul,
    conjTranspose_conjTranspose, Matrix.mul_assoc]
  rfl

theorem projected_energies_rotated (faithful : Faithful solver) (unitary : U ∈ unitaryGroup (Fin n) ℂ)
    (density : γ.IsHermitian) (fock : F.IsHermitian) (nonneg : 0 ≤ cutoff) :
    ∃ es : List ℝ, es.Pairwise (· ≤ ·) ∧
      projectedEnergies solver (Mat.exact γ) (Mat.exact F) (.value cutoff) = .ok (es.map .value) ∧
      projectedEnergies solver (Mat.exact (U * γ * Uᴴ)) (Mat.exact (U * F * Uᴴ)) (.value cutoff) =
        .ok (es.map .value) := by
  obtain ⟨d, V, form, _⟩ := diagonalises_exists density
  obtain ⟨m, X, whitens⟩ := whitens_exists form nonneg
  have turned := projected_energies_whitened faithful (form.rotated unitary)
    (isHermitian_mul_mul_conjTranspose U fock) nonneg (whitens.rotated unitary)
  rw [rotated_projection (mem_unitaryGroup_iff'.mp unitary)] at turned
  exact ⟨_, ascending_spectrum_sorted _, projected_energies_whitened faithful form fock nonneg whitens, turned⟩

theorem energies_in_rotated_orbitals (solver : EigenSolver Exact) (faithful : Faithful solver) (n : Nat)
    (U p F G : Matrix (Fin n) (Fin n) ℂ) (unitary : U ∈ unitaryGroup (Fin n) ℂ) (density : p.IsHermitian)
    (removal : F.IsHermitian) (addition : G.IsHermitian) (cutoff : ℝ) (nonneg : 0 ≤ cutoff) :
    ∃ es fs : List ℝ, (es.Pairwise (· ≤ ·) ∧ fs.Pairwise (· ≤ ·)) ∧
      ionizationEnergies solver (Mat.exact p) (Mat.exact F) (.value cutoff) = .ok (es.map .value) ∧
      ionizationEnergies solver (Mat.exact (U * p * Uᴴ)) (Mat.exact (U * F * Uᴴ)) (.value cutoff) =
        .ok (es.map .value) ∧
      attachmentEnergies solver (Mat.exact p) (Mat.exact G) (.value cutoff) = .ok (fs.map .value) ∧
      attachmentEnergies solver (Mat.exact (U * p * Uᴴ)) (Mat.exact (U.map star * G * Uᵀ)) (.value cutoff) =
        .ok (fs.map .value) := by
  obtain ⟨es, ascending, ionization, rotatedIonization⟩ :=
    projected_energies_rotated faithful unitary density removal nonneg
  obtain ⟨fs, hole, attachment, rotatedAttachment⟩ :=
    projected_energies_rotated faithful (conjugated_unitary unitary) (hole_density_hermitian density) addition nonneg
  rw [← hole_rotated unitary, conjTranspose_conjTranspose] at rotatedAttachment
  refine ⟨es, fs, ⟨ascending, hole⟩, ionization, rotatedIonization, ?_, ?_⟩
  · rw [attachment_energies_exact, attachment]
  · rw [attachment_energies_exact]
    exact rotatedAttachment

noncomputable def mixing : Matrix (Fin 2) (Fin 2) ℂ := !![3 / 5, 4 / 5 * Complex.I; 4 / 5 * Complex.I, 3 / 5]

theorem mixing_adjoint :
    mixingᴴ = !![3 / 5, -(4 / 5 * Complex.I); -(4 / 5 * Complex.I), 3 / 5] := by
  ext i j
  fin_cases i <;> fin_cases j <;> simp [mixing]

theorem mixing_unitary : mixing ∈ unitaryGroup (Fin 2) ℂ := by
  rw [mem_unitaryGroup_iff, star_eq_conjTranspose, mixing_adjoint]
  ext i j
  fin_cases i <;> fin_cases j <;> simp [mixing] <;> ring_nf <;> norm_num [Complex.I_sq]

theorem energies_in_rotated_orbitals_mixed : (mixing * pairDensity * mixingᴴ) 0 1 = -(3 / 25) * Complex.I ∧
    ionizationEnergies spectralSolver (Mat.exact (mixing * pairDensity * mixingᴴ))
      (Mat.exact (mixing * pairRemoval * mixingᴴ)) (.value (3 / 8)) = .ok ([2].map .value) ∧
    attachmentEnergies spectralSolver (Mat.exact (mixing * pairDensity * mixingᴴ))
      (Mat.exact (mixing.map star * pairAddition * mixingᵀ)) (.value (3 / 8)) = .ok ([-1, 2].map .value) := by
  obtain ⟨es, fs, _, ionization, rotatedIonization, attachment, rotatedAttachment⟩ := energies_in_rotated_orbitals
    spectralSolver spectral_solver_lower_faithful.faithful 2 mixing pairDensity pairRemoval pairAddition mixing_unitary
    (diagonal_form _).hermitian (diagonal_form _).hermitian (diagonal_form _).hermitian (3 / 8) (by norm_num)
  refine ⟨?_, ?_, ?_⟩
  · rw [mixing_adjoint, mul_apply, Fin.sum_univ_two]
    simp [mixing, pairDensity, realDiagonal, pairFilling, mul_diagonal]
    ring
  · rw [rotatedIonization, ← ionization, pair_ionization]
  · rw [rotatedAttachment, ← attachment, pair_attachment]

end Rotation

section Origin

theorem Diagonalises.raised (form : Diagonalises γ d U) (c : ℝ) :
    Diagonalises (γ + (c : ℂ) • 1) (fun k => d k + c) U where
  unitary := form.unitary
  product := by
    have values : (diagonal fun k => ((d k + c : ℝ) : ℂ)) = diagonal (fun k => (d k : ℂ)) + (c : ℂ) • 1 := by
      rw [smul_one_eq_diagonal, diagonal_add]
      simp only [Complex.ofReal_add]
    rw [values, Matrix.mul_add, Matrix.add_mul, ← form.product, Matrix.mul_smul, Matrix.mul_one, Matrix.smul_mul,
      form.right_inverse]

theorem raised_spectrum (hermitian : γ.IsHermitian) (c : ℝ) :
    ascendingSpectrum (γ + (c : ℂ) • 1) = (ascendingSpectrum γ).map (· + c) := by
  obtain ⟨d, U, form, _⟩ := diagonalises_exists hermitian
  exact form.spectrum_mapped (form.raised c) (monotone_id.add_const c)

-- Between whitening transforms the density is the unit matrix.
theorem Whitens.raised_projection (whitens : Whitens γ cutoff X) (F : Matrix (Fin n) (Fin n) ℂ) (c : ℂ) :
    Xᴴ * (F + c • γ) * X = Xᴴ * F * X + c • 1 := by
  rw [Matrix.mul_add, Matrix.add_mul, Matrix.mul_smul, Matrix.smul_mul, whitens.normal]

theorem projected_energies_raised (faithful : Faithful solver) (density : γ.IsHermitian) (fock : F.IsHermitian)
    (nonneg : 0 ≤ cutoff) (c : ℝ) :
    ∃ es : List ℝ, es.Pairwise (· ≤ ·) ∧
      projectedEnergies solver (Mat.exact γ) (Mat.exact F) (.value cutoff) = .ok (es.map .value) ∧
      projectedEnergies solver (Mat.exact γ) (Mat.exact (F + (c : ℂ) • γ)) (.value cutoff) =
        .ok ((es.map (· + c)).map .value) := by
  obtain ⟨d, V, form, _⟩ := diagonalises_exists density
  obtain ⟨m, X, whitens⟩ := whitens_exists form nonneg
  have raised := projected_energies_whitened faithful form (fock.add (multiple_is_hermitian density c)) nonneg whitens
  rw [whitens.raised_projection, raised_spectrum (isHermitian_conjTranspose_mul_mul X fock)] at raised
  exact ⟨_, ascending_spectrum_sorted _, projected_energies_whitened faithful form fock nonneg whitens, raised⟩

theorem energies_from_raised_origin (solver : EigenSolver Exact) (faithful : Faithful solver) (n : Nat)
    (p F G : Matrix (Fin n) (Fin n) ℂ) (density : p.IsHermitian) (removal : F.IsHermitian) (addition : G.IsHermitian)
    (c cutoff : ℝ) (nonneg : 0 ≤ cutoff) :
    ∃ es fs : List ℝ, (es.Pairwise (· ≤ ·) ∧ fs.Pairwise (· ≤ ·)) ∧
      ionizationEnergies solver (Mat.exact p) (Mat.exact F) (.value cutoff) = .ok (es.map .value) ∧
      ionizationEnergies solver (Mat.exact p) (Mat.exact (F + (c : ℂ) • p)) (.value cutoff) =
        .ok ((es.map (· + c)).map .value) ∧
      attachmentEnergies solver (Mat.exact p) (Mat.exact G) (.value cutoff) = .ok (fs.map .value) ∧
      attachmentEnergies solver (Mat.exact p) (Mat.exact (G + (c : ℂ) • (1 - pᵀ))) (.value cutoff) =
        .ok ((fs.map (· + c)).map .value) := by
  obtain ⟨es, ascending, ionization, raisedIonization⟩ :=
    projected_energies_raised faithful density removal nonneg c
  obtain ⟨fs, hole, attachment, raisedAttachment⟩ :=
    projected_energies_raised faithful (hole_density_hermitian density) addition nonneg c
  refine ⟨es, fs, ⟨ascending, hole⟩, ionization, raisedIonization, ?_, ?_⟩
  · rw [attachment_energies_exact, attachment]
  · rw [attachment_energies_exact, raisedAttachment]

theorem energies_from_raised_origin_pair :
    ionizationEnergies spectralSolver (Mat.exact pairDensity)
      (Mat.exact (pairRemoval + ((3 : ℝ) : ℂ) • pairDensity)) (.value (3 / 8)) = .ok ([5].map .value) ∧
    attachmentEnergies spectralSolver (Mat.exact pairDensity)
      (Mat.exact (pairAddition + ((3 : ℝ) : ℂ) • (1 - pairDensityᵀ))) (.value (3 / 8)) = .ok ([2, 5].map .value) := by
  obtain ⟨es, fs, _, ionization, raisedIonization, attachment, raisedAttachment⟩ := energies_from_raised_origin
    spectralSolver spectral_solver_lower_faithful.faithful 2 pairDensity pairRemoval pairAddition
    (diagonal_form _).hermitian (diagonal_form _).hermitian (diagonal_form _).hermitian 3 (3 / 8) (by norm_num)
  have distinct : Function.Injective (List.map Exact.value) := List.map_injective_iff.mpr fun _ _ => Exact.value.inj
  obtain rfl := distinct (Except.ok.inj (ionization.symm.trans pair_ionization))
  obtain rfl := distinct (Except.ok.inj (attachment.symm.trans pair_attachment))
  refine ⟨raisedIonization.trans ?_, raisedAttachment.trans ?_⟩ <;> norm_num

end Origin

end OrbitalSpectra
