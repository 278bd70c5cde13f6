import OrbitalSpectra.Proofs.Exact.Number

set_option autoImplicit false

namespace OrbitalSpectra

open Matrix Polynomial

variable {n : Nat}

-- Columns that move together with their values leave the product as it is.
theorem product_permuted (U : Matrix (Fin n) (Fin n) ℂ) (d : Fin n → ℂ) (π : Equiv.Perm (Fin n)) :
    U.submatrix id π * diagonal (d ∘ π) * (U.submatrix id π)ᴴ = U * diagonal d * Uᴴ := by
  have values : diagonal (d ∘ π) = (diagonal d).submatrix π π := (submatrix_diagonal_equiv d π).symm
  rw [values, conjTranspose_submatrix, submatrix_mul_equiv, submatrix_mul_equiv, submatrix_id_id]

-- Column `k` of the vectors belongs to value `k`.
structure Diagonalises (A : Matrix (Fin n) (Fin n) ℂ) (d : Fin n → ℝ) (U : Matrix (Fin n) (Fin n) ℂ) : Prop where
  unitary : U ∈ unitaryGroup (Fin n) ℂ
  product : A = U * diagonal (fun k => (d k : ℂ)) * Uᴴ

namespace Diagonalises

variable {A U : Matrix (Fin n) (Fin n) ℂ} {d : Fin n → ℝ}

theorem left_inverse (form : Diagonalises A d U) : Uᴴ * U = 1 := mem_unitaryGroup_iff'.mp form.unitary

theorem right_inverse (form : Diagonalises A d U) : U * Uᴴ = 1 := mem_unitaryGroup_iff.mp form.unitary

theorem vectors (form : Diagonalises A d U) : A * U = U * diagonal fun k => (d k : ℂ) := by
  conv_lhs => rw [form.product]
  rw [Matrix.mul_assoc, form.left_inverse, Matrix.mul_one]

theorem permuted (form : Diagonalises A d U) (π : Equiv.Perm (Fin n)) :
    Diagonalises A (d ∘ π) (U.submatrix id π) where
  unitary := by
    rw [mem_unitaryGroup_iff', star_eq_conjTranspose, conjTranspose_submatrix,
      ← submatrix_mul _ _ _ _ _ Function.bijective_id, form.left_inverse, submatrix_one_equiv]
  product := form.product.trans (product_permuted U (fun k => (d k : ℂ)) π).symm

theorem charpoly_eq (form : Diagonalises A d U) : A.charpoly = ∏ k, (X - C (d k : ℂ)) := by
  rw [form.product, charpoly_mul_comm, ← Matrix.mul_assoc, form.left_inverse, Matrix.one_mul, charpoly_diagonal]

theorem charpoly_roots (form : Diagonalises A d U) : A.charpoly.roots = Finset.univ.val.map fun k => (d k : ℂ) := by
  rw [form.charpoly_eq, roots_prod _ _ (Finset.prod_ne_zero_iff.mpr fun k _ => X_sub_C_ne_zero _)]
  simp

theorem shifted (form : Diagonalises A d U) (e : ℂ) :
    A - e • (1 : Matrix (Fin n) (Fin n) ℂ) = U * diagonal (fun k => (d k : ℂ) - e) * Uᴴ := by
  have values : (diagonal fun k => (d k : ℂ) - e) = diagonal (fun k => (d k : ℂ)) - e • 1 := by
    rw [smul_one_eq_diagonal, diagonal_sub]
  rw [values, Matrix.mul_sub, Matrix.sub_mul, ← form.product, Matrix.mul_smul, Matrix.mul_one, Matrix.smul_mul,
    form.right_inverse]

theorem eigenspace_dimension (form : Diagonalises A d U) (e : ℂ) :
    Module.finrank ℂ (LinearMap.ker (A - e • (1 : Matrix (Fin n) (Fin n) ℂ)).mulVecLin) =
      (Finset.univ.filter fun k => (d k : ℂ) = e).card := by
  have units : IsUnit U.det ∧ IsUnit Uᴴ.det := by
    have product : U.det * Uᴴ.det = 1 := by rw [← det_mul, form.right_inverse, det_one]
    exact ⟨IsUnit.of_mul_eq_one _ product, IsUnit.of_mul_eq_one _ ((mul_comm _ _).trans product)⟩
  have rank : (A - e • (1 : Matrix (Fin n) (Fin n) ℂ)).rank = (Finset.univ.filter fun k => ¬ (d k : ℂ) = e).card := by
    rw [form.shifted, rank_mul_eq_left_of_isUnit_det _ _ units.2, rank_mul_eq_right_of_isUnit_det _ _ units.1,
      rank_diagonal, Fintype.card_subtype]
    simp only [ne_eq, sub_eq_zero]
  have total := LinearMap.finrank_range_add_finrank_ker (A - e • (1 : Matrix (Fin n) (Fin n) ℂ)).mulVecLin
  have parts := Finset.card_filter_add_card_filter_not (s := (Finset.univ : Finset (Fin n))) fun k => (d k : ℂ) = e
  rw [Module.finrank_fin_fun] at total
  rw [Finset.card_univ, Fintype.card_fin] at parts
  rw [Matrix.rank] at rank
  omega

end Diagonalises

-- The eigenvalues of a matrix that has real ones only, each as often as it is a root.
noncomputable def ascendingSpectrum (A : Matrix (Fin n) (Fin n) ℂ) : List ℝ :=
  (A.charpoly.roots.map Complex.re).sort (· ≤ ·)

theorem ascending_spectrum_sorted (A : Matrix (Fin n) (Fin n) ℂ) : (ascendingSpectrum A).Pairwise (· ≤ ·) :=
  Multiset.pairwise_sort _ _

namespace Diagonalises

variable {A B U V : Matrix (Fin n) (Fin n) ℂ} {d f : Fin n → ℝ}

theorem spectrum_multiset (form : Diagonalises A d U) : (ascendingSpectrum A : Multiset ℝ) = Finset.univ.val.map d := by
  rw [ascendingSpectrum, Multiset.sort_eq, form.charpoly_roots, Multiset.map_map]
  rfl

theorem spectrum_length (form : Diagonalises A d U) : (ascendingSpectrum A).length = n := by
  have sized := congrArg Multiset.card form.spectrum_multiset
  simpa using sized

theorem spectrum_of_monotone (form : Diagonalises A d U) (ascending : Monotone d) :
    ascendingSpectrum A = List.ofFn d := by
  have listed : (ascendingSpectrum A : Multiset ℝ) = (List.ofFn d : Multiset ℝ) := by
    rw [form.spectrum_multiset, Fin.univ_val_map]
  apply (Multiset.coe_eq_coe.mp listed).eq_of_pairwise' (ascending_spectrum_sorted A)
  rw [List.pairwise_ofFn]
  intro i j before
  exact ascending before.le

theorem spectrum_count (form : Diagonalises A d U) (e : ℝ) : (ascendingSpectrum A).count e =
    Module.finrank ℂ (LinearMap.ker (A - (e : ℂ) • (1 : Matrix (Fin n) (Fin n) ℂ)).mulVecLin) := by
  rw [← Multiset.coe_count, form.spectrum_multiset, form.eigenspace_dimension, Multiset.count_map]
  simp only [Finset.card, Finset.filter_val, Complex.ofReal_inj, eq_comm]

theorem spectrum_member (form : Diagonalises A d U) (e : ℂ) :
    (∃ y, y ≠ 0 ∧ (A - e • (1 : Matrix (Fin n) (Fin n) ℂ)) *ᵥ y = 0) ↔ ∃ x ∈ ascendingSpectrum A, (x : ℂ) = e := by
  have listed (x : ℝ) : x ∈ ascendingSpectrum A ↔ ∃ k, d k = x := by
    rw [← Multiset.mem_coe, form.spectrum_multiset]
    simp
  have space : (∃ y, y ≠ 0 ∧ (A - e • (1 : Matrix (Fin n) (Fin n) ℂ)) *ᵥ y = 0) ↔
      LinearMap.ker (A - e • (1 : Matrix (Fin n) (Fin n) ℂ)).mulVecLin ≠ ⊥ := by
    rw [Submodule.ne_bot_iff]
    simp only [LinearMap.mem_ker, mulVecLin_apply, and_comm]
  rw [space, ne_eq, ← Submodule.finrank_eq_zero, form.eigenspace_dimension, Finset.card_eq_zero,
    Finset.filter_eq_empty_iff]
  simp only [Finset.mem_univ, true_implies, not_forall, not_not, listed]
  constructor
  · rintro ⟨k, same⟩
    exact ⟨d k, ⟨k, rfl⟩, same⟩
  · rintro ⟨_, ⟨k, rfl⟩, same⟩
    exact ⟨k, same⟩

theorem spectrum_eq_iff (left : Diagonalises A d U) (right : Diagonalises B f V) :
    ascendingSpectrum A = ascendingSpectrum B ↔ A.charpoly = B.charpoly := by
  constructor
  · intro same
    have roots : (Finset.univ.val.map fun k => (d k : ℂ)) = Finset.univ.val.map fun k => (f k : ℂ) := by
      have real : Finset.univ.val.map d = Finset.univ.val.map f := by
        rw [← left.spectrum_multiset, ← right.spectrum_multiset, same]
      simpa only [Multiset.map_map, Function.comp_def] using congrArg (Multiset.map Complex.ofReal) real
    have factors := congrArg (Multiset.map fun z : ℂ => X - C z) roots
    rw [left.charpoly_eq, right.charpoly_eq, Finset.prod, Finset.prod]
    simpa only [Multiset.map_map, Function.comp_def] using congrArg Multiset.prod factors
  · intro same
    rw [ascendingSpectrum, ascendingSpectrum, same]

end Diagonalises

def RealEntries {r c : Nat} (A : Matrix (Fin r) (Fin c) ℂ) : Prop := ∀ i j, (A i j).im = 0

theorem symmetric_form_exists {B : Matrix (Fin n) (Fin n) ℝ} (symmetric : B.IsHermitian) :
    ∃ (d : Fin n → ℝ) (V : Matrix (Fin n) (Fin n) ℝ), V * Vᵀ = 1 ∧ B = V * diagonal d * Vᵀ := by
  have form := symmetric.spectral_theorem
  rw [Unitary.conjStarAlgAut_apply] at form
  exact ⟨symmetric.eigenvalues, symmetric.eigenvectorUnitary, mem_unitaryGroup_iff.mp symmetric.eigenvectorUnitary.2,
    form⟩

theorem real_form_exists {A : Matrix (Fin n) (Fin n) ℂ} (hermitian : A.IsHermitian) (real : RealEntries A) :
    ∃ d U, Diagonalises A d U ∧ RealEntries U := by
  have parts : A = (A.map Complex.re).map Complex.ofRealHom := by
    ext i j
    exact Complex.ext rfl (real i j)
  have symmetric : (A.map Complex.re).IsHermitian := by
    ext i j
    have same := congrArg Complex.re (congrFun (congrFun hermitian.eq i) j)
    simpa using same
  obtain ⟨d, V, unitary, product⟩ := symmetric_form_exists symmetric
  have star_map : (V.map Complex.ofRealHom)ᴴ = Vᵀ.map Complex.ofRealHom := by
    ext i j
    simp
  refine ⟨d, V.map Complex.ofRealHom, ⟨?_, ?_⟩, fun _ _ => Complex.ofReal_im _⟩
  · rw [mem_unitaryGroup_iff, star_eq_conjTranspose, star_map, ← Matrix.map_mul, unitary]
    exact Matrix.map_one _ (map_zero _) (map_one _)
  · have values : (diagonal fun k => (d k : ℂ)) = (diagonal d).map Complex.ofRealHom :=
      (diagonal_map (map_zero Complex.ofRealHom)).symm
    rw [star_map, values, ← Matrix.map_mul, ← Matrix.map_mul, ← product]
    exact parts

theorem hermitian_form {A : Matrix (Fin n) (Fin n) ℂ} (hermitian : A.IsHermitian) :
    Diagonalises A hermitian.eigenvalues hermitian.eigenvectorUnitary where
  unitary := hermitian.eigenvectorUnitary.2
  product := by
    have form := hermitian.spectral_theorem
    rwa [Unitary.conjStarAlgAut_apply] at form

-- A real matrix has a real form.
theorem diagonalises_exists {A : Matrix (Fin n) (Fin n) ℂ} (hermitian : A.IsHermitian) :
    ∃ d U, Diagonalises A d U ∧ (RealEntries A → RealEntries U) := by
  by_cases real : RealEntries A
  · obtain ⟨d, U, form, realVectors⟩ := real_form_exists hermitian real
    exact ⟨d, U, form, fun _ => realVectors⟩
  · exact ⟨_, _, hermitian_form hermitian, fun held => absurd held real⟩

end OrbitalSpectra
