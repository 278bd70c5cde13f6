import OrbitalSpectra.Proofs.Exact.DiagonalPair
import OrbitalSpectra.Proofs.Exact.LowerTriangle
import OrbitalSpectra.Proofs.Exact.ScaledMatrix

set_option autoImplicit false

namespace OrbitalSpectra

open Matrix

variable {n : Nat} {a : ℝ}

theorem exact_times {r c : Nat} (A : Matrix (Fin r) (Fin c) ℂ) :
    (Mat.exact A).map (Cplx.times a) = Mat.exact ((a : ℂ) • A) := by
  rw [Mat.exact, Mat.map_of_fn]
  apply Mat.of_fn_exact
  intro i j
  rw [dif_pos ⟨i.isLt, j.isLt⟩, Cplx.times_exact]
  rfl

theorem multiple_is_hermitian {A : Matrix (Fin n) (Fin n) ℂ} (hermitian : A.IsHermitian) (a : ℝ) :
    ((a : ℂ) • A).IsHermitian := by
  rw [IsHermitian, conjTranspose_smul, hermitian.eq, Complex.star_def, Complex.conj_ofReal]

theorem lower_hermitian_times (A : Matrix (Fin n) (Fin n) ℂ) (a : ℝ) :
    lowerHermitian ((a : ℂ) • A) = (a : ℂ) • lowerHermitian A := by
  ext i j
  rcases lt_trichotomy i j with before | rfl | after
  · simp [lowerHermitian, before, before.not_gt]
  · simp [lowerHermitian]
  · simp [lowerHermitian, after]

section Forms

variable {A U : Matrix (Fin n) (Fin n) ℂ} {d : Fin n → ℝ}

theorem Diagonalises.times (form : Diagonalises A d U) (a : ℝ) :
    Diagonalises ((a : ℂ) • A) (fun k => a * d k) U where
  unitary := form.unitary
  product := by
    have values : (diagonal fun k => ((a * d k : ℝ) : ℂ)) = (a : ℂ) • diagonal fun k => (d k : ℂ) := by
      rw [← diagonal_smul]
      congr 1
      funext k
      exact Complex.ofReal_mul a (d k)
    conv_lhs => rw [form.product]
    rw [values, Matrix.mul_smul, Matrix.smul_mul]

theorem spectrum_times (positive : 0 < a) (form : Diagonalises A d U) :
    ascendingSpectrum ((a : ℂ) • A) = (ascendingSpectrum A).map (a * ·) :=
  form.spectrum_mapped (form.times a) (monotone_id.const_mul positive.le)

theorem clip_times (positive : 0 < a) (cutoff x : ℝ) : clip (a * cutoff) (a * x) = a * clip cutoff x := by
  by_cases above : cutoff < x
  · rw [clip, clip, if_pos above, if_pos (mul_lt_mul_of_pos_left above positive)]
  · have below : ¬ a * cutoff < a * x := by rwa [mul_lt_mul_iff_right₀ positive]
    rw [clip, clip, if_neg above, if_neg below, mul_zero]

theorem rebuilt_times (positive : 0 < a) (d : Fin n → ℝ) (U : Matrix (Fin n) (Fin n) ℂ) (cutoff : ℝ) :
    rebuilt (fun k => a * d k) U (a * cutoff) = (a : ℂ) • rebuilt d U cutoff := by
  have values : (diagonal fun k => (clip (a * cutoff) (a * d k) : ℂ)) =
      (a : ℂ) • diagonal fun k => (clip cutoff (d k) : ℂ) := by
    rw [← diagonal_smul]
    congr 1
    funext k
    rw [clip_times positive, Complex.ofReal_mul]
    rfl
  rw [rebuilt, values, Matrix.mul_smul, Matrix.smul_mul, rebuilt]

end Forms

section Solvers

variable {solver : EigenSolver Exact} {A B : Matrix (Fin n) (Fin n) ℂ}

theorem eigenvalues_scaled (positive : 0 < a) (first : Solves solver A B)
    (second : Solves solver ((a : ℂ) • A) ((a : ℂ) • B)) :
    eigenvalues solver ((Mat.exact A).map (Cplx.times a)) =
      (eigenvalues solver (Mat.exact A)).map (List.map (Exact.times a)) := by
  obtain ⟨d, U, _, form⟩ := id first
  rw [exact_times, eigenvalues_exact second, eigenvalues_exact first, spectrum_times positive form, Except.map,
    List.map_map, List.map_map]
  rfl

theorem hermitian_eigenvalues_times (positive : 0 < a) (faithful : Faithful solver) (hermitian : A.IsHermitian) :
    eigenvalues solver ((Mat.exact A).map (Cplx.times a)) =
      (eigenvalues solver (Mat.exact A)).map (List.map (Exact.times a)) :=
  eigenvalues_scaled positive (faithful n A hermitian) (faithful n _ (multiple_is_hermitian hermitian a))

theorem faithful_rebuilds (faithful : Faithful solver) (hermitian : A.IsHermitian) (cutoff : ℝ) :
    ∃ (d : Fin n → ℝ) (U : Matrix (Fin n) (Fin n) ℂ) (transform : Mat (Cplx Exact)), Diagonalises A d U ∧
      regularise solver (Mat.exact A) (.value cutoff) = .ok ⟨Mat.exact (rebuilt d U cutoff), transform⟩ := by
  obtain ⟨d, U, sorted, _, form⟩ := solves_sorted (faithful n A hermitian)
  exact ⟨d, U, _, form, regularise_returned sorted cutoff⟩

-- The matrix without its small eigenvalues, of a matrix and of its multiple with the cutoff multiplied.
theorem regularised_times (positive : 0 < a) (faithful : Faithful solver) (hermitian : A.IsHermitian) (cutoff : ℝ) :
    ∃ (B : Matrix (Fin n) (Fin n) ℂ) (transform other : Mat (Cplx Exact)), B.IsHermitian ∧
      regularise solver (Mat.exact A) (.value cutoff) = .ok ⟨Mat.exact B, transform⟩ ∧
      regularise solver ((Mat.exact A).map (Cplx.times a)) (.value (a * cutoff)) =
        .ok ⟨(Mat.exact B).map (Cplx.times a), other⟩ := by
  obtain ⟨d, U, transform, form, kept⟩ := faithful_rebuilds faithful hermitian cutoff
  obtain ⟨f, V, other, otherForm, otherKept⟩ :=
    faithful_rebuilds faithful (multiple_is_hermitian hermitian a) (a * cutoff)
  have clipped : Diagonalises (rebuilt d U cutoff) (clip cutoff ∘ d) U := ⟨form.unitary, rfl⟩
  rw [rebuilt_unique otherForm (form.times a), rebuilt_times positive, ← exact_times, ← exact_times] at otherKept
  exact ⟨_, transform, other, clipped.hermitian, kept, otherKept⟩

-- A matrix of numbers is solved as its lower triangle and the real part of its diagonal say.
def Exacting (solver : EigenSolver Exact) : Prop :=
  ∀ (n : Nat) (A : Matrix (Fin n) (Fin n) ℂ), Solves solver A (lowerHermitian A)

-- No eigenvalue of a matrix with an undefined entry is a number. Exact arithmetic says nothing of such a matrix,
-- but a negative cutoff makes one, and nothing else ties what is answered to it to the answer to its multiple.
def KeepsUndefined (solver : EigenSolver Exact) : Prop :=
  ∀ m : Mat (Cplx Exact), (¬ ∃ (n : Nat) (A : Matrix (Fin n) (Fin n) ℂ), m = Mat.exact A) →
    ∀ k < m.rows, (solver m).value k = .undefined

theorem Exacting.faithful (exacting : Exacting solver) : Faithful solver := by
  intro n A hermitian
  have solves := exacting n A
  rwa [lower_hermitian_of_hermitian hermitian] at solves

theorem undefined_eigenvalues (undefined : KeepsUndefined solver) {m : Mat (Cplx Exact)}
    (odd : ¬ ∃ (n : Nat) (A : Matrix (Fin n) (Fin n) ℂ), m = Mat.exact A) (square : m.rows = m.cols) :
    eigenvalues solver m = .ok (List.replicate m.rows .undefined) := by
  have values : ((solver m).ascending m.rows).map (solver m).value = List.replicate m.rows .undefined := by
    rw [List.eq_replicate_iff]
    refine ⟨by simp [Eigensystem.ascending], fun x member => ?_⟩
    obtain ⟨k, listed, rfl⟩ := List.mem_map.mp member
    exact undefined m odd k (List.mem_range.mp ((List.mergeSort_perm _ _).mem_iff.mp listed))
  rw [eigenvalues, eigh, if_neg (not_not.mpr square)]
  exact congrArg Except.ok values

theorem exact_of_times (nonzero : a ≠ 0) {m : Mat (Cplx Exact)}
    (numbers : ∃ (n : Nat) (A : Matrix (Fin n) (Fin n) ℂ), m.map (Cplx.times a) = Mat.exact A) :
    ∃ (n : Nat) (A : Matrix (Fin n) (Fin n) ℂ), m = Mat.exact A := by
  obtain ⟨n, A, same⟩ := numbers
  have back : Cplx.times a⁻¹ ∘ Cplx.times a = id := funext fun z => Cplx.times_back z nonzero
  refine ⟨n, ((a⁻¹ : ℝ) : ℂ) • A, ?_⟩
  rw [← exact_times, ← same, Mat.map_map, back, Mat.map_id]

theorem eigenvalues_times (positive : 0 < a) (exacting : Exacting solver) (undefined : KeepsUndefined solver)
    (m : Mat (Cplx Exact)) :
    eigenvalues solver (m.map (Cplx.times a)) = (eigenvalues solver m).map (List.map (Exact.times a)) := by
  by_cases square : m.rows = m.cols
  · by_cases numbers : ∃ (n : Nat) (A : Matrix (Fin n) (Fin n) ℂ), m = Mat.exact A
    · obtain ⟨n, A, rfl⟩ := numbers
      have multiple := exacting n ((a : ℂ) • A)
      rw [lower_hermitian_times] at multiple
      exact eigenvalues_scaled positive (exacting n A) multiple
    · have odd : ¬ ∃ (n : Nat) (A : Matrix (Fin n) (Fin n) ℂ), m.map (Cplx.times a) = Mat.exact A :=
        fun held => numbers (exact_of_times positive.ne' held)
      rw [undefined_eigenvalues undefined odd square, undefined_eigenvalues undefined numbers square, Except.map,
        List.map_replicate]
      rfl
  · rw [eigenvalues, eigh, if_pos (show (m.map (Cplx.times a)).rows ≠ (m.map (Cplx.times a)).cols from square),
      eigenvalues, eigh, if_pos square]
    rfl

-- The spectral solver on matrices of numbers, undefined values on the others.
open Classical in
noncomputable def strictSolver : EigenSolver Exact := fun m =>
  if ∃ (n : Nat) (A : Matrix (Fin n) (Fin n) ℂ), m = Mat.exact A then spectralSolver m
  else ⟨List.replicate m.rows .undefined, m⟩

theorem strict_solver_exacting : Exacting strictSolver := by
  intro n A
  have answered := lower_answer_exists A
  rw [Solves, strictSolver, if_pos ⟨n, A, rfl⟩, spectralSolver, dif_pos answered]
  obtain ⟨d, U, answer, form, _⟩ := lower_answer_of_exact answered.choose_spec
  exact ⟨d, U, answer, form⟩

theorem strict_solver_keeps_undefined : KeepsUndefined strictSolver := by
  intro m odd k inside
  rw [strictSolver, if_neg odd]
  simp [Eigensystem.value, inside]

end Solvers

end OrbitalSpectra
