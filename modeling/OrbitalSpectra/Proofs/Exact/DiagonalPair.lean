import OrbitalSpectra.Proofs.Exact.KeptSpectrum
import OrbitalSpectra.Proofs.Koopmans.GeneralisedSpectrum

set_option autoImplicit false

namespace OrbitalSpectra

open Matrix

variable {n : Nat}

noncomputable def ascendingList (xs : List ℝ) : List ℝ := (xs : Multiset ℝ).sort (· ≤ ·)

theorem ascending_list_sorted (xs : List ℝ) : (ascendingList xs).Pairwise (· ≤ ·) := Multiset.pairwise_sort _ _

theorem ascending_list_perm (xs : List ℝ) : (ascendingList xs).Perm xs := by
  rw [← Multiset.coe_eq_coe, ascendingList, Multiset.sort_eq]

theorem ascending_list_unique {xs ys : List ℝ} (sorted : ys.Pairwise (· ≤ ·)) (perm : ys.Perm xs) :
    ys = ascendingList xs :=
  (perm.trans (ascending_list_perm xs).symm).eq_of_pairwise' sorted (ascending_list_sorted xs)

theorem Diagonalises.spectrum_perm {A U : Matrix (Fin n) (Fin n) ℂ} {d : Fin n → ℝ} (form : Diagonalises A d U) :
    (ascendingSpectrum A).Perm (List.ofFn d) := by
  rw [← Multiset.coe_eq_coe, form.spectrum_multiset, Fin.univ_val_map]

theorem Diagonalises.spectrum_eq {A U : Matrix (Fin n) (Fin n) ℂ} {d : Fin n → ℝ} (form : Diagonalises A d U) :
    ascendingSpectrum A = ascendingList (List.ofFn d) :=
  ascending_list_unique (ascending_spectrum_sorted A) form.spectrum_perm

-- What keeps the order of the eigenvalues is read off the list.
theorem Diagonalises.spectrum_mapped {A B U V : Matrix (Fin n) (Fin n) ℂ} {d : Fin n → ℝ} {f : ℝ → ℝ}
    (form : Diagonalises A d U) (mapped : Diagonalises B (f ∘ d) V) (monotone : Monotone f) :
    ascendingSpectrum B = (ascendingSpectrum A).map f := by
  have listed : (ascendingSpectrum B).Perm ((ascendingSpectrum A).map f) := by
    refine mapped.spectrum_perm.trans ?_
    have values := form.spectrum_perm.symm.map f
    rwa [List.map_ofFn] at values
  refine listed.eq_of_pairwise' (ascending_spectrum_sorted B) ?_
  rw [List.pairwise_map]
  exact (ascending_spectrum_sorted A).imp fun le => monotone le

theorem Diagonalises.kept_eq {A U : Matrix (Fin n) (Fin n) ℂ} {d : Fin n → ℝ} (form : Diagonalises A d U)
    (cutoff : ℝ) : keptSpectrum A cutoff = ascendingList ((List.ofFn d).filter fun x => cutoff < x) :=
  ascending_list_unique ((ascending_spectrum_sorted A).filter _) (form.spectrum_perm.filter _)

-- The kept part of a matrix does not depend on the vectors it is found with.
theorem rebuilt_unique {A U V : Matrix (Fin n) (Fin n) ℂ} {d f : Fin n → ℝ} (left : Diagonalises A d U)
    (right : Diagonalises A f V) (cutoff : ℝ) : rebuilt d U cutoff = rebuilt f V cutoff := by
  have rows : Vᴴ * A = diagonal (fun k => (f k : ℂ)) * Vᴴ := by
    conv_lhs => rw [right.product]
    rw [← Matrix.mul_assoc, ← Matrix.mul_assoc, right.left_inverse, Matrix.one_mul]
  have overlap : diagonal (fun k => (f k : ℂ)) * (Vᴴ * U) = Vᴴ * U * diagonal fun k => (d k : ℂ) := by
    rw [← Matrix.mul_assoc, ← rows, Matrix.mul_assoc, Matrix.mul_assoc, left.vectors]
  have clipped : diagonal (fun k => (clip cutoff (f k) : ℂ)) * (Vᴴ * U) =
      Vᴴ * U * diagonal fun k => (clip cutoff (d k) : ℂ) := by
    ext i j
    have entry := congrFun (congrFun overlap i) j
    rw [diagonal_mul, mul_diagonal] at entry ⊢
    by_cases zero : (Vᴴ * U) i j = 0
    · rw [zero, mul_zero, zero_mul]
    · rw [mul_comm] at entry
      have same : f i = d j := by exact_mod_cast mul_left_cancel₀ zero entry
      rw [same, mul_comm]
  calc rebuilt d U cutoff
      = V * (Vᴴ * U * diagonal fun k => (clip cutoff (d k) : ℂ)) * Uᴴ := by
        rw [rebuilt, Matrix.mul_assoc Vᴴ U, ← Matrix.mul_assoc V Vᴴ, right.right_inverse, Matrix.one_mul]
    _ = V * (diagonal (fun k => (clip cutoff (f k) : ℂ)) * (Vᴴ * U)) * Uᴴ := by rw [clipped]
    _ = rebuilt f V cutoff := by
        rw [rebuilt, Matrix.mul_assoc, Matrix.mul_assoc, Matrix.mul_assoc, left.right_inverse, Matrix.mul_one,
          ← Matrix.mul_assoc]

noncomputable def realDiagonal (d : Fin n → ℝ) : Matrix (Fin n) (Fin n) ℂ := diagonal fun k => (d k : ℂ)

theorem diagonal_form (d : Fin n → ℝ) : Diagonalises (realDiagonal d) d 1 := ⟨one_mem _, by simp [realDiagonal]⟩

theorem diagonal_real (d : Fin n → ℝ) : RealEntries (realDiagonal d) := by
  intro i j
  by_cases same : i = j
  · simp [realDiagonal, same]
  · simp [realDiagonal, diagonal_apply_ne _ same]

theorem diagonal_hole (d : Fin n → ℝ) : 1 - (realDiagonal d)ᵀ = realDiagonal fun k => 1 - d k := by
  rw [realDiagonal, diagonal_transpose, ← diagonal_one, diagonal_sub, realDiagonal]
  simp

theorem upper_places_listed (d : Fin n → ℝ) (U : Matrix (Fin n) (Fin n) ℂ) (cutoff : ℝ) :
    List.ofFn (upperPlaces d U cutoff) = (List.finRange n).filter fun k => cutoff < d k := by
  apply List.map_injective_iff.mpr Fin.val_injective
  rw [← above_listed d U, List.map_ofFn]
  exact List.ofFn_get _

theorem diagonal_projected {m : Nat} (d e : Fin n → ℝ) (places : Fin m → Fin n) (injective : Function.Injective places)
    (positive : ∀ c, 0 < d (places c)) :
    (whitener d 1 places)ᴴ * realDiagonal (fun k => d k * e k) * whitener d 1 places =
      realDiagonal fun c => e (places c) := by
  apply whitener_projected (diagonal_form d) injective positive
  simp only [← Complex.ofReal_mul]
  exact chosen_vectors (diagonal_form _)

theorem diagonal_pair_spectrum (d e : Fin n → ℝ) {cutoff : ℝ} (nonneg : 0 ≤ cutoff) :
    GeneralisedSpectrum (realDiagonal d) (realDiagonal fun k => d k * e k) cutoff
      (ascendingList (((List.finRange n).filter fun k => cutoff < d k).map e)) := by
  have whitens := whitener_whitens (diagonal_form d) (upper_places_injective d 1 cutoff) nonneg
    (upper_places_iff d 1 cutoff)
  have spectrum := generalised_spectrum_of_whitening (diagonal_form d)
    (diagonal_form fun k => d k * e k).hermitian whitens
  have listed : List.ofFn (fun c => e (upperPlaces d 1 cutoff c)) =
      ((List.finRange n).filter fun k => cutoff < d k).map e := by
    rw [← upper_places_listed d 1, List.map_ofFn]
    rfl
  rwa [diagonal_projected d e _ (upper_places_injective d 1 cutoff)
    fun c => nonneg.trans_lt ((upper_places_iff d 1 cutoff _).mpr ⟨c, rfl⟩), (diagonal_form _).spectrum_eq,
    listed] at spectrum

theorem diagonal_pair_energies {solver : EigenSolver Exact} (faithful : Faithful solver) (d e : Fin n → ℝ)
    {cutoff : ℝ} (nonneg : 0 ≤ cutoff) :
    projectedEnergies solver (Mat.exact (realDiagonal d)) (Mat.exact (realDiagonal fun k => d k * e k))
      (.value cutoff) =
        .ok ((ascendingList (((List.finRange n).filter fun k => cutoff < d k).map e)).map .value) :=
  projected_energies_of_spectrum faithful (diagonal_form d).hermitian (diagonal_form _).hermitian nonneg
    (diagonal_pair_spectrum d e nonneg)

end OrbitalSpectra
