import OrbitalSpectra.Proofs.Exact.LowerTriangle
import OrbitalSpectra.Proofs.Exact.PseudoInverse

set_option autoImplicit false

namespace OrbitalSpectra

open Matrix

variable {n : Nat}

section Clip

variable (cutoff x : ℝ)

theorem clip_again : clip cutoff (clip cutoff x) = clip cutoff x := by
  by_cases above : cutoff < x
  · have kept : clip cutoff x = x := if_pos above
    rw [kept, kept]
  · have dropped : clip cutoff x = 0 := if_neg above
    rw [dropped, clip, ite_self]

theorem clip_above_iff : cutoff < clip cutoff x ↔ cutoff < x ∨ cutoff < 0 := by
  by_cases above : cutoff < x
  · rw [clip, if_pos above]
    exact iff_of_true above (.inl above)
  · rw [clip, if_neg above]
    exact (or_iff_right above).symm

end Clip

section Rebuilt

variable {S U : Matrix (Fin n) (Fin n) ℂ} {d : Fin n → ℝ}

theorem rebuilt_again (d : Fin n → ℝ) (U : Matrix (Fin n) (Fin n) ℂ) (cutoff : ℝ) :
    rebuilt (clip cutoff ∘ d) U cutoff = rebuilt d U cutoff := by
  simp only [rebuilt, Function.comp_apply, clip_again]

-- An eigenvector keeps its eigenvalue, or it has the eigenvalue zero.
theorem rebuilt_eigenvector (form : Diagonalises S d U) (cutoff : ℝ) {x : ℝ} {v : Fin n → ℂ}
    (eigen : S *ᵥ v = (x : ℂ) • v) : rebuilt d U cutoff *ᵥ v = (clip cutoff x : ℂ) • v := by
  have clipped : (diagonal fun k => (clip cutoff (d k) : ℂ)) *ᵥ (Uᴴ *ᵥ v) = (clip cutoff x : ℂ) • (Uᴴ *ᵥ v) := by
    funext k
    rw [mulVec_diagonal, Pi.smul_apply, smul_eq_mul]
    by_cases present : (Uᴴ *ᵥ v) k = 0
    · rw [present, mul_zero, mul_zero]
    · rw [eigenvector_coordinates form eigen present]
  rw [rebuilt, ← mulVec_mulVec, ← mulVec_mulVec, clipped, mulVec_smul, mulVec_mulVec, form.right_inverse, one_mulVec]

theorem kept_count (form : Diagonalises S d U) (cutoff : ℝ) :
    (keptSpectrum S cutoff).length = (List.finRange n).countP fun k => cutoff < d k := by
  rw [form.kept_eq, (ascending_list_perm _).length_eq, ← List.countP_eq_length_filter, List.ofFn_eq_map, List.countP_map]
  rfl

theorem rebuilt_kept_count (form : Diagonalises S d U) (cutoff : ℝ) :
    (keptSpectrum (rebuilt d U cutoff) cutoff).length = if 0 ≤ cutoff then (keptSpectrum S cutoff).length else n := by
  rw [kept_count (rebuilt_form form), kept_count form]
  simp only [Function.comp_apply, clip_above_iff]
  by_cases nonneg : 0 ≤ cutoff
  · simp only [if_pos nonneg, nonneg.not_gt, or_false]
  · have negative := not_le.mp nonneg
    simp [if_neg nonneg, negative]

end Rebuilt

-- The matrix `B` is left of `S`, and the transform has the given number of columns.
def Leaves (solver : EigenSolver Exact) (S : Matrix (Fin n) (Fin n) ℂ) (cutoff : ℝ) (B : Matrix (Fin n) (Fin n) ℂ)
    (rank : Nat) : Prop :=
  ∃ X, regularise solver (Mat.exact S) (.value cutoff) = .ok ⟨Mat.exact B, X⟩ ∧ X.shape = (n, rank)

theorem leaves_rebuilt {solver : EigenSolver Exact} {S U : Matrix (Fin n) (Fin n) ℂ} {d : Fin n → ℝ}
    (solves : Solves solver S S) (form : Diagonalises S d U) (cutoff : ℝ) :
    Leaves solver S cutoff (rebuilt d U cutoff) (keptSpectrum S cutoff).length := by
  obtain ⟨f, V, sorted, ascending, other⟩ := solves_sorted solves
  rw [← rebuilt_unique other form, ← kept_spectrum_length other ascending]
  exact ⟨_, regularise_returned sorted cutoff, rfl⟩

theorem regularisation_idempotent {S : Matrix (Fin n) (Fin n) ℂ} (hermitian : S.IsHermitian) (cutoff : ℝ) :
    ∃ B : Matrix (Fin n) (Fin n) ℂ, B.IsHermitian ∧
      (∀ (x : ℝ) (v : Fin n → ℂ), S *ᵥ v = (x : ℂ) • v → B *ᵥ v = (clip cutoff x : ℂ) • v) ∧
      (∀ solver, Solves solver S S → Leaves solver S cutoff B (keptSpectrum S cutoff).length) ∧
      ∀ solver, Solves solver B B →
        Leaves solver B cutoff B (if 0 ≤ cutoff then (keptSpectrum S cutoff).length else n) := by
  obtain ⟨d, U, form, _⟩ := diagonalises_exists hermitian
  have clipped : Diagonalises (rebuilt d U cutoff) (clip cutoff ∘ d) U := rebuilt_form form
  refine ⟨rebuilt d U cutoff, clipped.hermitian, fun x v eigen => rebuilt_eigenvector form cutoff eigen,
    fun solver solves => leaves_rebuilt solves form cutoff, fun solver solves => ?_⟩
  have again := leaves_rebuilt solves clipped cutoff
  rwa [rebuilt_again, rebuilt_kept_count form] at again

-- With a negative cutoff the zero in place of the dropped eigenvalue is kept the second time.
theorem regularisation_idempotent_negative :
    Leaves spectralSolver (realDiagonal ![-2, 1]) (-1) (realDiagonal ![0, 1]) 1 ∧
      Leaves spectralSolver (realDiagonal ![0, 1]) (-1) (realDiagonal ![0, 1]) 2 := by
  have faithful := spectral_solver_lower_faithful.faithful
  have form := diagonal_form ![(-2 : ℝ), 1]
  obtain ⟨B, hermitian, eigenvectors, first, second⟩ := regularisation_idempotent form.hermitian (-1)
  have left : B = realDiagonal ![0, 1] := by
    ext i k
    have column := eigenvectors (![-2, 1] k) (Pi.single k 1) (by
      ext j
      fin_cases k <;> fin_cases j <;> simp [realDiagonal])
    have entry := congrFun column i
    fin_cases k <;> fin_cases i <;> simpa [realDiagonal, clip] using entry
  subst left
  have kept : (keptSpectrum (realDiagonal ![-2, 1]) (-1)).length = 1 := by
    rw [kept_count form]
    norm_num [List.finRange]
  have once := first spectralSolver (faithful 2 _ form.hermitian)
  have again := second spectralSolver (faithful 2 _ hermitian)
  rw [kept] at once
  rw [if_neg (by norm_num)] at again
  exact ⟨once, again⟩

end OrbitalSpectra
