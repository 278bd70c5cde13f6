import OrbitalSpectra.Proofs.Exact.DiagonalPair
import OrbitalSpectra.Proofs.Exact.LowerTriangle

set_option autoImplicit false

namespace OrbitalSpectra

open Matrix

variable {n m : Nat}

structure PseudoInverse (A G : Matrix (Fin n) (Fin n) ℂ) : Prop where
  outer : A * G * A = A
  inner : G * A * G = G
  left : (A * G).IsHermitian
  right : (G * A).IsHermitian

theorem PseudoInverse.unique {A G H : Matrix (Fin n) (Fin n) ℂ} (first : PseudoInverse A G)
    (second : PseudoInverse A H) : G = H := by
  have left : A * G = A * H := by
    calc A * G = (A * H * (A * G))ᴴ := by rw [← Matrix.mul_assoc, second.outer, first.left.eq]
      _ = A * G * (A * H) := by rw [conjTranspose_mul, first.left.eq, second.left.eq]
      _ = A * H := by rw [← Matrix.mul_assoc, first.outer]
  have right : G * A = H * A := by
    calc G * A = (G * A * (H * A))ᴴ := by
          rw [Matrix.mul_assoc G, ← Matrix.mul_assoc A, second.outer, first.right.eq]
      _ = H * A * (G * A) := by rw [conjTranspose_mul, first.right.eq, second.right.eq]
      _ = H * A := by rw [Matrix.mul_assoc H, ← Matrix.mul_assoc A, first.outer]
  calc G = G * A * G := first.inner.symm
    _ = H * A * H := by rw [Matrix.mul_assoc, left, ← Matrix.mul_assoc, right]
    _ = H := second.inner

-- The orthogonal projector onto a subspace.
structure ProjectsOnto (P : Matrix (Fin n) (Fin n) ℂ) (W : Submodule ℂ (Fin n → ℂ)) : Prop where
  projection : IsStarProjection P
  range : LinearMap.range P.mulVecLin = W

section Calculus

variable {U : Matrix (Fin n) (Fin n) ℂ}

-- The matrix with the given values on the columns of `U`.
noncomputable def onVectors (U : Matrix (Fin n) (Fin n) ℂ) (f : Fin n → ℝ) : Matrix (Fin n) (Fin n) ℂ :=
  U * diagonal (fun k => (f k : ℂ)) * Uᴴ

theorem on_vectors_mul (unitary : Uᴴ * U = 1) (f g : Fin n → ℝ) :
    onVectors U f * onVectors U g = onVectors U fun k => f k * g k := by
  calc onVectors U f * onVectors U g
      = U * (diagonal (fun k => (f k : ℂ)) * (Uᴴ * U) * diagonal fun k => (g k : ℂ)) * Uᴴ := by
        simp only [onVectors, Matrix.mul_assoc]
    _ = onVectors U fun k => f k * g k := by
        rw [unitary, Matrix.mul_one, diagonal_mul_diagonal, onVectors]
        simp only [Complex.ofReal_mul]

theorem on_vectors_sub (f g : Fin n → ℝ) : onVectors U f - onVectors U g = onVectors U fun k => f k - g k := by
  rw [onVectors, onVectors, ← Matrix.sub_mul, ← Matrix.mul_sub, diagonal_sub, onVectors]
  simp only [Complex.ofReal_sub]

theorem on_vectors_hermitian (U : Matrix (Fin n) (Fin n) ℂ) (f : Fin n → ℝ) : (onVectors U f).IsHermitian := by
  apply isHermitian_mul_mul_conjTranspose
  apply isHermitian_diagonal_of_self_adjoint
  funext k
  exact Complex.conj_ofReal (f k)

theorem on_vectors_pseudo_inverse (unitary : Uᴴ * U = 1) {f g : Fin n → ℝ} (outer : ∀ k, f k * g k * f k = f k)
    (inner : ∀ k, g k * f k * g k = g k) : PseudoInverse (onVectors U f) (onVectors U g) where
  outer := by simp only [on_vectors_mul unitary, outer]
  inner := by simp only [on_vectors_mul unitary, inner]
  left := by
    rw [on_vectors_mul unitary]
    exact on_vectors_hermitian U _
  right := by
    rw [on_vectors_mul unitary]
    exact on_vectors_hermitian U _

end Calculus

section Places

variable {S U : Matrix (Fin n) (Fin n) ℂ} {d : Fin n → ℝ} {cutoff : ℝ}

noncomputable def clippedInverse (cutoff x : ℝ) : ℝ := if cutoff < x then x⁻¹ else 0

theorem clip_outer (nonneg : 0 ≤ cutoff) (x : ℝ) : clip cutoff x * clippedInverse cutoff x * clip cutoff x =
    clip cutoff x := by
  by_cases above : cutoff < x
  · have nonzero : x ≠ 0 := (nonneg.trans_lt above).ne'
    rw [clip, clippedInverse, if_pos above, if_pos above, mul_inv_cancel₀ nonzero, one_mul]
  · rw [clip, if_neg above, mul_zero]

theorem clip_inner (nonneg : 0 ≤ cutoff) (x : ℝ) : clippedInverse cutoff x * clip cutoff x * clippedInverse cutoff x =
    clippedInverse cutoff x := by
  by_cases above : cutoff < x
  · have nonzero : x ≠ 0 := (nonneg.trans_lt above).ne'
    rw [clip, clippedInverse, if_pos above, if_pos above, inv_mul_cancel₀ nonzero, one_mul]
  · rw [clippedInverse, if_neg above, mul_zero]

theorem rest_below (nonneg : 0 ≤ cutoff) (x : ℝ) : x - clip cutoff x ≤ cutoff := by
  by_cases above : cutoff < x
  · rw [clip, if_pos above, sub_self]
    exact nonneg
  · rw [clip, if_neg above, sub_zero]
    exact not_lt.mp above

theorem whitener_gram (d : Fin n → ℝ) (U : Matrix (Fin n) (Fin n) ℂ) (nonneg : 0 ≤ cutoff) :
    whitener d U (upperPlaces d U cutoff) * (whitener d U (upperPlaces d U cutoff))ᴴ =
      onVectors U fun k => clippedInverse cutoff (d k) := by
  have scales : (diagonal fun c => ((Real.sqrt (d (upperPlaces d U cutoff c)) : ℂ))⁻¹) *
      (diagonal fun c => ((Real.sqrt (d (upperPlaces d U cutoff c)) : ℂ))⁻¹) =
        diagonal fun c => (((d (upperPlaces d U cutoff c))⁻¹ : ℝ) : ℂ) := by
    rw [diagonal_mul_diagonal]
    congr 1
    funext c
    have positive := nonneg.trans_lt ((upper_places_iff d U cutoff _).mpr ⟨c, rfl⟩)
    rw [← mul_inv, ← Complex.ofReal_mul, Real.mul_self_sqrt positive.le, Complex.ofReal_inv]
  rw [whitener, conjTranspose_mul, root_scales_adjoint, Matrix.mul_assoc, ← Matrix.mul_assoc (diagonal _), scales,
    ← Matrix.mul_assoc]
  exact upper_values_product d U cutoff fun k => (d k)⁻¹

section Form

variable (form : Diagonalises S d U) (nonneg : 0 ≤ cutoff)

include nonneg in
theorem upper_positive (c) : 0 < d (upperPlaces d U cutoff c) :=
  nonneg.trans_lt ((upper_places_iff d U cutoff _).mpr ⟨c, rfl⟩)

include form

theorem rebuilt_form : Diagonalises (rebuilt d U cutoff) (clip cutoff ∘ d) U := ⟨form.unitary, rfl⟩

theorem rebuilt_vectors : rebuilt d U cutoff * U.submatrix id (upperPlaces d U cutoff) =
    U.submatrix id (upperPlaces d U cutoff) * diagonal fun c => (d (upperPlaces d U cutoff c) : ℂ) := by
  rw [chosen_vectors (rebuilt_form form)]
  congr 2
  funext c
  rw [Function.comp_apply, clip, if_pos ((upper_places_iff d U cutoff _).mpr ⟨c, rfl⟩)]

theorem rest_annihilates : (S - rebuilt d U cutoff) * whitener d U (upperPlaces d U cutoff) = 0 := by
  rw [whitener, ← Matrix.mul_assoc, Matrix.sub_mul, chosen_vectors form, rebuilt_vectors form, sub_self,
    Matrix.zero_mul]

theorem rest_form : Diagonalises (S - rebuilt d U cutoff) (fun k => d k - clip cutoff (d k)) U where
  unitary := form.unitary
  product := by
    rw [← onVectors, ← on_vectors_sub]
    exact congrArg (· - rebuilt d U cutoff) form.product

include nonneg

theorem rest_eigenvalue {x : ℝ} {v : Fin n → ℂ} (nonzero : v ≠ 0)
    (eigen : (S - rebuilt d U cutoff) *ᵥ v = (x : ℂ) • v) : x ≤ cutoff := by
  have some : ∃ k, (Uᴴ *ᵥ v) k ≠ 0 := by
    by_contra none
    push Not at none
    have whole : U *ᵥ (Uᴴ *ᵥ v) = v := by rw [mulVec_mulVec, form.right_inverse, one_mulVec]
    rw [show Uᴴ *ᵥ v = 0 from funext none, mulVec_zero] at whole
    exact nonzero whole.symm
  obtain ⟨k, present⟩ := some
  rw [← eigenvector_coordinates (rest_form form) eigen present]
  exact rest_below nonneg (d k)

theorem whitener_rebuilt : (whitener d U (upperPlaces d U cutoff))ᴴ * rebuilt d U cutoff *
    whitener d U (upperPlaces d U cutoff) = 1 := by
  rw [← diagonal_one]
  apply whitener_projected form (upper_places_injective d U cutoff) (upper_positive nonneg)
  simp only [mul_one]
  exact rebuilt_vectors form

theorem gram_pseudo_inverse : PseudoInverse (rebuilt d U cutoff)
    (whitener d U (upperPlaces d U cutoff) * (whitener d U (upperPlaces d U cutoff))ᴴ) := by
  rw [whitener_gram d U nonneg]
  exact on_vectors_pseudo_inverse form.left_inverse (fun k => clip_outer nonneg (d k)) fun k => clip_inner nonneg (d k)

theorem gram_projects : ProjectsOnto (whitener d U (upperPlaces d U cutoff) *
    (whitener d U (upperPlaces d U cutoff))ᴴ * rebuilt d U cutoff) (upperSpace S cutoff) := by
  have pseudo := gram_pseudo_inverse form nonneg
  have fixed : whitener d U (upperPlaces d U cutoff) * (whitener d U (upperPlaces d U cutoff))ᴴ * rebuilt d U cutoff *
      whitener d U (upperPlaces d U cutoff) = whitener d U (upperPlaces d U cutoff) := by
    rw [Matrix.mul_assoc, Matrix.mul_assoc, ← Matrix.mul_assoc _ (rebuilt d U cutoff), whitener_rebuilt form nonneg,
      Matrix.mul_one]
  refine ⟨⟨?_, pseudo.right⟩, ?_⟩
  · rw [IsIdempotentElem, ← Matrix.mul_assoc, pseudo.inner]
  · rw [← whitener_span form (upper_places_injective d U cutoff) (upper_positive nonneg) (upper_places_iff d U cutoff)]
    apply le_antisymm
    · rw [Matrix.mul_assoc, mulVecLin_mul]
      exact LinearMap.range_comp_le_range _ _
    · conv_lhs => rw [← fixed, mulVecLin_mul]
      exact LinearMap.range_comp_le_range _ _

end Form

end Places

-- What is made of a Hermitian matrix: `B` without its small eigenvalues and the transform `X`.
structure Regularises (solver : EigenSolver Exact) (S : Matrix (Fin n) (Fin n) ℂ) (cutoff : ℝ)
    (B : Matrix (Fin n) (Fin n) ℂ) (X : Matrix (Fin n) (Fin m) ℂ) : Prop where
  returned : regularise solver (Mat.exact S) (.value cutoff) = .ok ⟨Mat.exact B, Mat.exact X⟩
  rank : m = (keptSpectrum S cutoff).length
  whitens : Xᴴ * S * X = 1
  whitensRebuilt : Xᴴ * B * X = 1
  inverse : ∀ G, PseudoInverse B G ↔ G = X * Xᴴ
  projector : ProjectsOnto (X * Xᴴ * B) (upperSpace S cutoff)
  restHermitian : (S - B).IsHermitian
  restBelow : ∀ (x : ℝ) (v : Fin n → ℂ), v ≠ 0 → (S - B) *ᵥ v = (x : ℂ) • v → x ≤ cutoff
  restAnnihilates : (S - B) * X = 0

theorem regularised_pseudo_inverse {solver : EigenSolver Exact} (faithful : Faithful solver)
    {S : Matrix (Fin n) (Fin n) ℂ} (hermitian : S.IsHermitian) {cutoff : ℝ} (nonneg : 0 ≤ cutoff) :
    ∃ (B : Matrix (Fin n) (Fin n) ℂ) (m : Nat) (X : Matrix (Fin n) (Fin m) ℂ), Regularises solver S cutoff B X := by
  obtain ⟨d, U, sorted, ascending, form⟩ := solves_sorted (faithful n S hermitian)
  refine ⟨rebuilt d U cutoff, _, whitener d U (upperPlaces d U cutoff), ?_⟩
  have pseudo := gram_pseudo_inverse form nonneg
  exact {
    returned := regularise_sorted sorted nonneg
    rank := kept_spectrum_length form ascending cutoff
    whitens := whitener_normal form (upper_places_injective d U cutoff) (upper_positive nonneg)
    whitensRebuilt := whitener_rebuilt form nonneg
    inverse := fun G => ⟨fun other => other.unique pseudo, fun same => same ▸ pseudo⟩
    projector := gram_projects form nonneg
    restHermitian := (rest_form form).hermitian
    restBelow := fun x v nonzero eigen => rest_eigenvalue form nonneg nonzero eigen
    restAnnihilates := rest_annihilates form }

-- A negative eigenvalue is dropped, and one column is left.
theorem regularised_pseudo_inverse_indefinite : ∃ (B : Matrix (Fin 2) (Fin 2) ℂ) (X : Matrix (Fin 2) (Fin 1) ℂ),
    Regularises spectralSolver (realDiagonal ![-1, 2]) 1 B X := by
  obtain ⟨B, m, X, made⟩ := regularised_pseudo_inverse spectral_solver_lower_faithful.faithful
    (diagonal_form ![-1, 2]).hermitian zero_le_one
  have ascending : Monotone ![(-1 : ℝ), 2] := by
    intro i j before
    fin_cases i <;> fin_cases j <;> simp at before ⊢
    norm_num
  have kept : keptSpectrum (realDiagonal ![-1, 2]) 1 = [2] := by
    rw [keptSpectrum, (diagonal_form _).spectrum_of_monotone ascending]
    norm_num
  obtain rfl : m = 1 := made.rank.trans (congrArg List.length kept)
  exact ⟨B, X, made⟩

end OrbitalSpectra
