import OrbitalSpectra.Proofs.Exact.Eigensystem

set_option autoImplicit false

namespace OrbitalSpectra

open Matrix

variable {n : Nat}

noncomputable def lowerHermitian (A : Matrix (Fin n) (Fin n) ℂ) : Matrix (Fin n) (Fin n) ℂ :=
  of fun i j => if j < i then A i j else if i < j then star (A j i) else ((A i i).re : ℂ)

theorem lower_hermitian_is_hermitian (A : Matrix (Fin n) (Fin n) ℂ) : (lowerHermitian A).IsHermitian := by
  ext i j
  rw [conjTranspose_apply]
  rcases lt_trichotomy i j with before | rfl | after
  · simp [lowerHermitian, before, before.not_gt]
  · simp [lowerHermitian]
  · simp [lowerHermitian, after, after.not_gt]

theorem lower_hermitian_of_hermitian {A : Matrix (Fin n) (Fin n) ℂ} (hermitian : A.IsHermitian) :
    lowerHermitian A = A := by
  ext i j
  have mirrored : star (A j i) = A i j := hermitian.apply i j
  rcases lt_trichotomy i j with before | rfl | after
  · simpa [lowerHermitian, before, before.not_gt] using mirrored
  · have real := Complex.conj_eq_iff_re.mp (hermitian.apply i i)
    simpa [lowerHermitian] using real
  · simp [lowerHermitian, after]

-- A matrix with a real diagonal is solved as its lower triangle says, a real one by real vectors.
def LowerFaithful (solver : EigenSolver Exact) : Prop :=
  ∀ (n : Nat) (A : Matrix (Fin n) (Fin n) ℂ), (∀ i, (A i i).im = 0) → ∃ d U,
    solver (Mat.exact A) = Eigensystem.exact d U ∧ Diagonalises (lowerHermitian A) d U ∧
      (RealEntries A → RealEntries U)

theorem LowerFaithful.faithful {solver : EigenSolver Exact} (lower : LowerFaithful solver) : Faithful solver := by
  intro n A hermitian
  have diagonal (i : Fin n) : (A i i).im = 0 := Complex.conj_eq_iff_im.mp (hermitian.apply i i)
  obtain ⟨d, U, answer, form, _⟩ := lower n A diagonal
  rw [lower_hermitian_of_hermitian hermitian] at form
  exact ⟨d, U, answer, form⟩

def LowerAnswer (m : Mat (Cplx Exact)) (e : Eigensystem Exact) : Prop :=
  ∃ (n : Nat) (A : Matrix (Fin n) (Fin n) ℂ) (d : Fin n → ℝ) (U : Matrix (Fin n) (Fin n) ℂ),
    m = Mat.exact A ∧ e = Eigensystem.exact d U ∧ Diagonalises (lowerHermitian A) d U ∧
      (RealEntries A → RealEntries U)

open Classical in
noncomputable def spectralSolver : EigenSolver Exact := fun m =>
  if answered : ∃ e, LowerAnswer m e then answered.choose else ⟨[], m⟩

theorem lower_answer_exists (A : Matrix (Fin n) (Fin n) ℂ) : ∃ e, LowerAnswer (Mat.exact A) e := by
  have real : RealEntries A → RealEntries (lowerHermitian A) := by
    intro entries i j
    rcases lt_trichotomy i j with before | rfl | after
    · simp [lowerHermitian, before, before.not_gt, entries j i]
    · simp [lowerHermitian]
    · simp [lowerHermitian, after, entries i j]
  obtain ⟨d, U, form, realVectors⟩ := diagonalises_exists (lower_hermitian_is_hermitian A)
  exact ⟨_, n, A, d, U, rfl, rfl, form, fun entries => realVectors (real entries)⟩

theorem lower_answer_of_exact {A : Matrix (Fin n) (Fin n) ℂ} {e : Eigensystem Exact}
    (answered : LowerAnswer (Mat.exact A) e) : ∃ d U, e = Eigensystem.exact d U ∧
      Diagonalises (lowerHermitian A) d U ∧ (RealEntries A → RealEntries U) := by
  obtain ⟨k, B, d, U, same, answer, form, real⟩ := answered
  obtain rfl : n = k := congrArg Mat.rows same
  obtain rfl : A = B := Mat.exact_injective same
  exact ⟨d, U, answer, form, real⟩

theorem spectral_solver_lower_faithful : LowerFaithful spectralSolver := by
  intro n A _
  have answered := lower_answer_exists A
  rw [spectralSolver, dif_pos answered]
  exact lower_answer_of_exact answered.choose_spec

end OrbitalSpectra
