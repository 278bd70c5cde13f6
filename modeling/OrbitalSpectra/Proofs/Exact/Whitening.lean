import OrbitalSpectra.Proofs.Exact.Pencil
import OrbitalSpectra.Proofs.RankedWhitening

set_option autoImplicit false

namespace OrbitalSpectra

open Matrix

variable {n : Nat}

def placeOf (kept : List Nat) (below : ∀ k ∈ kept, k < n) (c : Fin kept.length) : Fin n :=
  ⟨kept.get c, below _ (List.get_mem kept c)⟩

section Kept

variable (d : Fin n → ℝ) (U : Matrix (Fin n) (Fin n) ℂ) (cutoff : ℝ)

@[simp] theorem exact_length : (Eigensystem.exact d U).values.length = n := List.length_ofFn

theorem value_inside {k : Nat} (inside : k < n) : (Eigensystem.exact d U).value k = .value (d ⟨k, inside⟩) :=
  exact_value d U ⟨k, inside⟩

theorem above_exact : (Eigensystem.exact d U).above (.value cutoff) =
    (List.range n).filter fun k => .value cutoff < (Eigensystem.exact d U).value k := by
  rw [Eigensystem.above, exact_length]

theorem above_inside (k : Nat) (member : k ∈ (Eigensystem.exact d U).above (.value cutoff)) : k < n := by
  rw [above_exact] at member
  exact List.mem_range.mp (List.mem_filter.mp member).1

theorem mem_above_iff (k : Fin n) : k.val ∈ (Eigensystem.exact d U).above (.value cutoff) ↔ cutoff < d k := by
  rw [above_exact, List.mem_filter, exact_value, decide_eq_true_iff, Exact.value_lt, List.mem_range]
  exact and_iff_right k.isLt

noncomputable def upperPlaces : Fin ((Eigensystem.exact d U).above (.value cutoff)).length → Fin n :=
  placeOf ((Eigensystem.exact d U).above (.value cutoff)) (above_inside d U cutoff)

theorem upper_places_injective : Function.Injective (upperPlaces d U cutoff) := by
  intro i j same
  have nodup : ((Eigensystem.exact d U).above (.value cutoff)).Nodup := List.nodup_range.filter _
  exact nodup.injective_get (Fin.mk.inj same)

theorem upper_places_iff (k : Fin n) : cutoff < d k ↔ ∃ c, upperPlaces d U cutoff c = k := by
  rw [← mem_above_iff d U cutoff k, List.mem_iff_get]
  simp only [upperPlaces, placeOf, Fin.ext_iff]

theorem whitening_exact {kept : List Nat} (below : ∀ k ∈ kept, k < n)
    (positive : ∀ c, 0 < d (placeOf kept below c)) : (Eigensystem.exact d U).whitening kept =
      Mat.exact (whitener d U (placeOf kept below)) := by
  change Mat.ofFn n kept.length _ = _
  apply Mat.of_fn_exact
  intro r c
  have place : kept.getD c 0 = (placeOf kept below c : Nat) := by simp [placeOf]
  have root : Real.sqrt (d (placeOf kept below c)) ≠ 0 := (Real.sqrt_pos.mpr (positive c)).ne'
  have entry : (Eigensystem.exact d U).vectors.entry r (placeOf kept below c) =
      Cplx.exact (U r (placeOf kept below c)) := Mat.exact_entry U r _
  rw [place, entry, exact_value, Exact.value_sqrt _ (positive c).le, Cplx.exact_unscale _ _ root, whitener,
    mul_diagonal, submatrix_apply, id_eq, div_eq_mul_inv]

theorem upper_whitening {cutoff : ℝ} (nonneg : 0 ≤ cutoff) :
    (Eigensystem.exact d U).whitening ((Eigensystem.exact d U).above (.value cutoff)) =
      Mat.exact (whitener d U (upperPlaces d U cutoff)) := by
  apply whitening_exact d U (above_inside d U cutoff)
  intro c
  exact nonneg.trans_lt ((upper_places_iff d U cutoff _).mpr ⟨c, rfl⟩)

theorem reconstruction_returns (kept : List Nat) :
    ∃ matrix, (Eigensystem.exact d U).reconstruction kept = .ok matrix := by
  have fits (scaled : Mat (Cplx Exact)) (width : scaled.cols = kept.length) :
      ∃ product, scaled.mul? ((Eigensystem.exact d U).columns kept).adjoint = some product := by
    rw [Mat.mul?, if_pos (show scaled.cols = ((Eigensystem.exact d U).columns kept).adjoint.rows from width)]
    exact ⟨_, rfl⟩
  obtain ⟨product, held⟩ := fits (Mat.ofFn n kept.length _) rfl
  exact ⟨product, (or_fault_ok_iff _ _).mpr held⟩

end Kept

section Returns

variable {solver : EigenSolver Exact} {γ U : Matrix (Fin n) (Fin n) ℂ} {d : Fin n → ℝ} {cutoff : ℝ}

theorem regularise_exact (sorted : eigh solver (Mat.exact γ) = .ok (Eigensystem.exact d U)) (nonneg : 0 ≤ cutoff) :
    ∃ matrix, regularise solver (Mat.exact γ) (.value cutoff) =
      .ok ⟨matrix, Mat.exact (whitener d U (upperPlaces d U cutoff))⟩ := by
  obtain ⟨matrix, rebuilt⟩ := reconstruction_returns d U ((Eigensystem.exact d U).above (.value cutoff))
  refine ⟨matrix, ?_⟩
  simp only [regularise, except_bind_ok_iff, except_lift_ok_iff]
  refine ⟨_, sorted, matrix, rebuilt, ?_⟩
  rw [upper_whitening d U nonneg]
  rfl

theorem whiten_with_rank_exact (sorted : eigh solver (Mat.exact γ) = .ok (Eigensystem.exact d U))
    (nonneg : 0 ≤ cutoff) :
    whitenWithRank solver (Mat.exact γ) ((Eigensystem.exact d U).above (.value cutoff)).length (.value cutoff) =
      .ok (some (Mat.exact (whitener d U (upperPlaces d U cutoff)))) := by
  rw [← upper_whitening d U nonneg]
  apply whiten_with_rank_above sorted
  · intro v member
    obtain ⟨k, rfl⟩ := List.mem_ofFn.mp member
    exact (exact_defined_iff _).mpr ⟨_, rfl⟩
  · exact (exact_defined_iff _).mpr ⟨_, rfl⟩

-- What both ways to whiten the matrix with the solver come to.
structure Whitening {m : Nat} (solver : EigenSolver Exact) (γ : Matrix (Fin n) (Fin n) ℂ) (cutoff : ℝ)
    (X : Matrix (Fin n) (Fin m) ℂ) : Prop where
  whitens : Whitens γ cutoff X
  regularised : ∃ matrix, regularise solver (Mat.exact γ) (.value cutoff) = .ok ⟨matrix, Mat.exact X⟩
  ranked : whitenWithRank solver (Mat.exact γ) m (.value cutoff) = .ok (some (Mat.exact X))

theorem whitening_exists (sorted : eigh solver (Mat.exact γ) = .ok (Eigensystem.exact d U))
    (form : Diagonalises γ d U) (nonneg : 0 ≤ cutoff) :
    ∃ (m : Nat) (places : Fin m → Fin n), Whitening solver γ cutoff (whitener d U places) :=
  ⟨_, upperPlaces d U cutoff,
    whitener_whitens form (upper_places_injective d U cutoff) nonneg (upper_places_iff d U cutoff),
    regularise_exact sorted nonneg, whiten_with_rank_exact sorted nonneg⟩

end Returns

end OrbitalSpectra
