import OrbitalSpectra.Proofs.Exact.Diagonal

set_option autoImplicit false

namespace OrbitalSpectra

open Matrix

open scoped ComplexOrder

variable {n m : Nat}

def upperSpace (γ : Matrix (Fin n) (Fin n) ℂ) (cutoff : ℝ) : Submodule ℂ (Fin n → ℂ) :=
  Submodule.span ℂ {v | ∃ x : ℝ, cutoff < x ∧ γ *ᵥ v = (x : ℂ) • v}

-- The vectors `c` of the span for which `F c - e γ c` is orthogonal to it.
def pencilSpace (γ F : Matrix (Fin n) (Fin n) ℂ) (cutoff : ℝ) (e : ℂ) : Submodule ℂ (Fin n → ℂ) where
  carrier := {c | c ∈ upperSpace γ cutoff ∧ ∀ w ∈ upperSpace γ cutoff, star w ⬝ᵥ (F *ᵥ c - e • (γ *ᵥ c)) = 0}
  zero_mem' := ⟨Submodule.zero_mem _, fun w _ => by simp⟩
  add_mem' := by
    rintro a b ⟨aInside, aOrthogonal⟩ ⟨bInside, bOrthogonal⟩
    refine ⟨Submodule.add_mem _ aInside bInside, fun w inside => ?_⟩
    have split : F *ᵥ (a + b) - e • (γ *ᵥ (a + b)) = F *ᵥ a - e • (γ *ᵥ a) + (F *ᵥ b - e • (γ *ᵥ b)) := by
      rw [mulVec_add, mulVec_add, smul_add]
      abel
    rw [split, dotProduct_add, aOrthogonal w inside, bOrthogonal w inside, add_zero]
  smul_mem' := by
    rintro x a ⟨inside, orthogonal⟩
    refine ⟨Submodule.smul_mem _ x inside, fun w member => ?_⟩
    have split : F *ᵥ (x • a) - e • (γ *ᵥ (x • a)) = x • (F *ᵥ a - e • (γ *ᵥ a)) := by
      rw [mulVec_smul, mulVec_smul, smul_sub, smul_comm]
    rw [split, dotProduct_smul, orthogonal w member, smul_zero]

-- The columns are a basis of the span in which the matrix is the identity.
structure Whitens (γ : Matrix (Fin n) (Fin n) ℂ) (cutoff : ℝ) (X : Matrix (Fin n) (Fin m) ℂ) : Prop where
  normal : Xᴴ * γ * X = 1
  span : LinearMap.range X.mulVecLin = upperSpace γ cutoff

theorem orthogonal_to_all {z : Fin n → ℂ} (orthogonal : ∀ w, star w ⬝ᵥ z = 0) : z = 0 :=
  dotProduct_star_self_eq_zero.mp (orthogonal z)

namespace Whitens

variable {γ F : Matrix (Fin n) (Fin n) ℂ} {cutoff : ℝ} {X : Matrix (Fin n) (Fin m) ℂ}

theorem injective (whitens : Whitens γ cutoff X) : Function.Injective X.mulVecLin := by
  have back (y : Fin m → ℂ) : (Xᴴ * γ) *ᵥ (X *ᵥ y) = y := by
    rw [mulVec_mulVec, whitens.normal, one_mulVec]
  intro y z same
  rw [← back y, ← back z]
  exact congrArg _ same

theorem projected (whitens : Whitens γ cutoff X) (e : ℂ) (u y : Fin m → ℂ) :
    star (X *ᵥ u) ⬝ᵥ (F *ᵥ (X *ᵥ y) - e • (γ *ᵥ (X *ᵥ y))) =
      star u ⬝ᵥ ((Xᴴ * F * X - e • (1 : Matrix (Fin m) (Fin m) ℂ)) *ᵥ y) := by
  rw [star_mulVec, ← dotProduct_mulVec, mulVec_sub, mulVec_smul, mulVec_mulVec, mulVec_mulVec, mulVec_mulVec,
    mulVec_mulVec, whitens.normal, sub_mulVec, smul_mulVec]

theorem pencil_eq_map (whitens : Whitens γ cutoff X) (e : ℂ) : pencilSpace γ F cutoff e =
    (LinearMap.ker (Xᴴ * F * X - e • (1 : Matrix (Fin m) (Fin m) ℂ)).mulVecLin).map X.mulVecLin := by
  ext c
  rw [Submodule.mem_map]
  constructor
  · rintro ⟨inside, orthogonal⟩
    rw [← whitens.span] at inside
    obtain ⟨y, rfl⟩ := inside
    refine ⟨y, ?_, rfl⟩
    apply orthogonal_to_all
    intro u
    rw [mulVecLin_apply, ← whitens.projected]
    exact orthogonal _ (whitens.span ▸ ⟨u, rfl⟩)
  · rintro ⟨y, kernel, rfl⟩
    refine ⟨whitens.span ▸ ⟨y, rfl⟩, ?_⟩
    intro w inside
    rw [← whitens.span] at inside
    obtain ⟨u, rfl⟩ := inside
    have zero : (Xᴴ * F * X - e • (1 : Matrix (Fin m) (Fin m) ℂ)) *ᵥ y = 0 := kernel
    rw [mulVecLin_apply, mulVecLin_apply, whitens.projected, zero, dotProduct_zero]

theorem pencil_dimension (whitens : Whitens γ cutoff X) (e : ℂ) : Module.finrank ℂ (pencilSpace γ F cutoff e) =
    Module.finrank ℂ (LinearMap.ker (Xᴴ * F * X - e • (1 : Matrix (Fin m) (Fin m) ℂ)).mulVecLin) := by
  rw [whitens.pencil_eq_map]
  exact (Submodule.equivMapOfInjective _ whitens.injective _).finrank_eq.symm

theorem pencil_solutions (whitens : Whitens γ cutoff X) (e : ℂ) : (∃ c ∈ pencilSpace γ F cutoff e, c ≠ 0) ↔
    ∃ y, y ≠ 0 ∧ (Xᴴ * F * X - e • (1 : Matrix (Fin m) (Fin m) ℂ)) *ᵥ y = 0 := by
  rw [whitens.pencil_eq_map]
  constructor
  · rintro ⟨_, ⟨y, kernel, rfl⟩, nonzero⟩
    refine ⟨y, ?_, kernel⟩
    rintro rfl
    exact nonzero (map_zero _)
  · rintro ⟨y, nonzero, kernel⟩
    refine ⟨X.mulVecLin y, ⟨y, kernel, rfl⟩, fun zero => nonzero (whitens.injective ?_)⟩
    rw [zero, map_zero]

end Whitens

section Whitener

variable {γ F U : Matrix (Fin n) (Fin n) ℂ} {d : Fin n → ℝ} {cutoff : ℝ} {places : Fin m → Fin n}

noncomputable def whitener (d : Fin n → ℝ) (U : Matrix (Fin n) (Fin n) ℂ) (places : Fin m → Fin n) :
    Matrix (Fin n) (Fin m) ℂ :=
  U.submatrix id places * diagonal fun c => ((Real.sqrt (d (places c)) : ℂ))⁻¹

theorem chosen_orthonormal (form : Diagonalises γ d U) (injective : Function.Injective places) :
    (U.submatrix id places)ᴴ * U.submatrix id places = 1 := by
  rw [conjTranspose_submatrix, ← submatrix_mul _ _ _ _ _ Function.bijective_id, form.left_inverse,
    submatrix_one places injective]

theorem chosen_vectors (form : Diagonalises γ d U) :
    γ * U.submatrix id places = U.submatrix id places * diagonal fun c => (d (places c) : ℂ) := by
  ext r c
  have column := congrFun (congrFun form.vectors r) (places c)
  rw [mul_diagonal] at column ⊢
  exact column

theorem root_scales_adjoint (x : Fin m → ℝ) :
    (diagonal fun c => ((Real.sqrt (x c) : ℂ))⁻¹)ᴴ = diagonal fun c => ((Real.sqrt (x c) : ℂ))⁻¹ := by
  rw [diagonal_conjTranspose]
  congr 1
  funext c
  simp

theorem root_scaled {x : ℝ} (positive : 0 < x) (z : ℂ) :
    ((Real.sqrt x : ℂ))⁻¹ * (x * z) * ((Real.sqrt x : ℂ))⁻¹ = z := by
  have root : ((Real.sqrt x : ℂ)) ≠ 0 := by exact_mod_cast (Real.sqrt_pos.mpr positive).ne'
  have square : (x : ℂ) = Real.sqrt x * Real.sqrt x := by exact_mod_cast (Real.mul_self_sqrt positive.le).symm
  rw [square]
  field_simp

-- A matrix with the chosen vectors as its own, between two whitening transforms.
theorem whitener_projected {F : Matrix (Fin n) (Fin n) ℂ} {e : Fin m → ℂ} (form : Diagonalises γ d U)
    (injective : Function.Injective places) (positive : ∀ c, 0 < d (places c))
    (vectors : F * U.submatrix id places = U.submatrix id places * diagonal fun c => (d (places c) : ℂ) * e c) :
    (whitener d U places)ᴴ * F * whitener d U places = diagonal e := by
  calc (whitener d U places)ᴴ * F * whitener d U places
      = (diagonal fun c => ((Real.sqrt (d (places c)) : ℂ))⁻¹) * ((U.submatrix id places)ᴴ *
          (F * U.submatrix id places)) * diagonal fun c => ((Real.sqrt (d (places c)) : ℂ))⁻¹ := by
        rw [whitener, conjTranspose_mul, root_scales_adjoint]
        simp only [Matrix.mul_assoc]
    _ = diagonal fun c => ((Real.sqrt (d (places c)) : ℂ))⁻¹ * (d (places c) * e c) *
          ((Real.sqrt (d (places c)) : ℂ))⁻¹ := by
        rw [vectors, ← Matrix.mul_assoc (U.submatrix id places)ᴴ, chosen_orthonormal form injective,
          Matrix.one_mul, diagonal_mul_diagonal, diagonal_mul_diagonal]
    _ = diagonal e := by
        congr 1
        funext c
        exact root_scaled (positive c) (e c)

theorem whitener_normal (form : Diagonalises γ d U) (injective : Function.Injective places)
    (positive : ∀ c, 0 < d (places c)) : (whitener d U places)ᴴ * γ * whitener d U places = 1 := by
  rw [← diagonal_one]
  apply whitener_projected form injective positive
  simp only [mul_one]
  exact chosen_vectors form

theorem eigenvector_coordinates (form : Diagonalises γ d U) {v : Fin n → ℂ} {x : ℝ} (eigen : γ *ᵥ v = (x : ℂ) • v)
    {k : Fin n} (present : (Uᴴ *ᵥ v) k ≠ 0) : d k = x := by
  have scaled : (diagonal fun k => (d k : ℂ)) *ᵥ (Uᴴ *ᵥ v) = (x : ℂ) • (Uᴴ *ᵥ v) := by
    have product : Uᴴ * γ = diagonal (fun k => (d k : ℂ)) * Uᴴ := by
      conv_lhs => rw [form.product]
      rw [← Matrix.mul_assoc, ← Matrix.mul_assoc, form.left_inverse, Matrix.one_mul]
    rw [mulVec_mulVec, ← product, ← mulVec_mulVec, eigen, mulVec_smul]
  have entry := congrFun scaled k
  rw [mulVec_diagonal, Pi.smul_apply, smul_eq_mul] at entry
  exact_mod_cast mul_right_cancel₀ present entry

theorem whitener_span (form : Diagonalises γ d U) (injective : Function.Injective places)
    (positive : ∀ c, 0 < d (places c)) (kept : ∀ k, cutoff < d k ↔ ∃ c, places c = k) :
    LinearMap.range (whitener d U places).mulVecLin = upperSpace γ cutoff := by
  have root (c : Fin m) : ((Real.sqrt (d (places c)) : ℂ)) ≠ 0 := by
    exact_mod_cast (Real.sqrt_pos.mpr (positive c)).ne'
  apply le_antisymm
  · rw [range_mulVecLin, Submodule.span_le]
    rintro _ ⟨c, rfl⟩
    apply Submodule.subset_span
    refine ⟨d (places c), (kept _).mpr ⟨c, rfl⟩, ?_⟩
    have vectors : γ * whitener d U places = whitener d U places * diagonal fun c => (d (places c) : ℂ) := by
      rw [whitener, ← Matrix.mul_assoc, chosen_vectors form, Matrix.mul_assoc, Matrix.mul_assoc, diagonal_mul_diagonal,
        diagonal_mul_diagonal]
      simp only [mul_comm]
    ext r
    have entry := congrFun (congrFun vectors r) c
    rw [mul_diagonal, mul_comm] at entry
    exact entry
  · rw [upperSpace, Submodule.span_le]
    rintro v ⟨x, above, eigen⟩
    refine ⟨fun c => Real.sqrt (d (places c)) * (Uᴴ *ᵥ v) (places c), ?_⟩
    have whole : U *ᵥ (Uᴴ *ᵥ v) = v := by rw [mulVec_mulVec, form.right_inverse, one_mulVec]
    rw [mulVecLin_apply, ← whole, whitener, ← mulVec_mulVec]
    ext r
    apply Fintype.sum_of_injective places injective
    · -- A coordinate at another place belongs to an eigenvalue that is not above the cutoff.
      intro k outside
      by_cases present : (Uᴴ *ᵥ v) k = 0
      · rw [present, mul_zero]
      · have value := eigenvector_coordinates form eigen present
        exact absurd ((kept k).mp (value ▸ above)) outside
    · intro c
      simp only [whole, mulVec_diagonal, submatrix_apply, id_eq, inv_mul_cancel_left₀ (root c)]

theorem whitener_whitens (form : Diagonalises γ d U) (injective : Function.Injective places) (nonneg : 0 ≤ cutoff)
    (kept : ∀ k, cutoff < d k ↔ ∃ c, places c = k) : Whitens γ cutoff (whitener d U places) := by
  have positive (c : Fin m) : 0 < d (places c) := nonneg.trans_lt ((kept _).mpr ⟨c, rfl⟩)
  exact ⟨whitener_normal form injective positive, whitener_span form injective positive kept⟩

end Whitener

section Determinant

variable {γ F U : Matrix (Fin n) (Fin n) ℂ} {d : Fin n → ℝ} {cutoff : ℝ}

theorem upper_space_full (form : Diagonalises γ d U)
    (above : ∀ (x : ℝ) (v : Fin n → ℂ), v ≠ 0 → γ *ᵥ v = (x : ℂ) • v → cutoff < x) : upperSpace γ cutoff = ⊤ := by
  have column (k : Fin n) : γ *ᵥ U.col k = (d k : ℂ) • U.col k := by
    ext r
    have entry := congrFun (congrFun form.vectors r) k
    rw [mul_diagonal, mul_comm] at entry
    exact entry
  rw [eq_top_iff]
  intro v _
  have whole : U *ᵥ (Uᴴ *ᵥ v) = v := by rw [mulVec_mulVec, form.right_inverse, one_mulVec]
  have spanned : U *ᵥ (Uᴴ *ᵥ v) ∈ Submodule.span ℂ (Set.range U.col) := by
    rw [← range_mulVecLin]
    exact ⟨_, rfl⟩
  rw [whole] at spanned
  refine Submodule.span_mono ?_ spanned
  rintro _ ⟨k, rfl⟩
  refine ⟨d k, above (d k) (U.col k) ?_ (column k), column k⟩
  intro zero
  have unit := congrFun (congrFun form.left_inverse k) k
  rw [one_apply_eq, mul_apply] at unit
  have entries (r : Fin n) : U r k = 0 := congrFun zero r
  simp [entries] at unit

theorem determinant_zero_iff (full : upperSpace γ cutoff = ⊤) (e : ℂ) :
    (F - e • γ).det = 0 ↔ ∃ c ∈ pencilSpace γ F cutoff e, c ≠ 0 := by
  have residual (c : Fin n → ℂ) : (F - e • γ) *ᵥ c = F *ᵥ c - e • (γ *ᵥ c) := by rw [sub_mulVec, smul_mulVec]
  rw [← exists_mulVec_eq_zero_iff]
  constructor
  · rintro ⟨c, nonzero, zero⟩
    rw [residual] at zero
    refine ⟨c, ⟨full ▸ Submodule.mem_top, fun w _ => ?_⟩, nonzero⟩
    rw [zero, dotProduct_zero]
  · rintro ⟨c, ⟨_, orthogonal⟩, nonzero⟩
    refine ⟨c, nonzero, ?_⟩
    rw [residual]
    exact orthogonal_to_all fun w => orthogonal w (full ▸ Submodule.mem_top)

end Determinant

end OrbitalSpectra
