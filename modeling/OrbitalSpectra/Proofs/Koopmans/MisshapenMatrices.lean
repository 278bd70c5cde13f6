import OrbitalSpectra.Proofs.Shapes

set_option autoImplicit false

namespace OrbitalSpectra

open AnalysisError

variable {R : Type}

-- Why a density and a Fock matrix have no energies: their shapes are compared first.
inductive Misshapen (gamma fock : Mat (Cplx R)) : AnalysisError → Prop
  | fock (differ : fock.shape ≠ gamma.shape) :
      Misshapen gamma fock (shapeMismatch "generalised Fock matrix" gamma.size fock.size)
  | density (same : fock.shape = gamma.shape) (oblong : gamma.rows ≠ gamma.cols) :
      Misshapen gamma fock (shapeMismatch "hermitian matrix" (gamma.rows * gamma.rows) gamma.size)

section Shapes

variable {gamma fock : Mat (Cplx R)}

theorem misshapen_exists (unfit : ¬ (gamma.rows = gamma.cols ∧ fock.shape = gamma.shape)) :
    ∃ e, Misshapen gamma fock e := by
  by_cases same : fock.shape = gamma.shape
  · exact ⟨_, .density same fun square => unfit ⟨square, same⟩⟩
  · exact ⟨_, .fock same⟩

theorem Misshapen.reshaped {hole : Mat (Cplx R)} {e : AnalysisError} (wrong : Misshapen hole fock e)
    (same : hole.shape = gamma.shape) : Misshapen gamma fock e := by
  obtain ⟨rows, cols⟩ := Prod.mk.inj same
  have size : hole.size = gamma.size := by rw [Mat.size, Mat.size, rows, cols]
  cases wrong with
  | fock differ => exact size ▸ .fock (same ▸ differ)
  | density shapes oblong => exact size ▸ rows ▸ .density (shapes.trans same) (rows ▸ cols ▸ oblong)

theorem misshapen_congr {hole : Mat (Cplx R)} (same : hole.shape = gamma.shape) (e : AnalysisError) :
    Misshapen hole fock e ↔ Misshapen gamma fock e :=
  ⟨fun wrong => wrong.reshaped same, fun wrong => wrong.reshaped same.symm⟩

variable [Scalar R]

theorem misshapen_refused (solver : EigenSolver R) {e : AnalysisError} (wrong : Misshapen gamma fock e) (cutoff : R) :
    projectedEnergies solver gamma fock cutoff = .error (.reported e) := by
  cases wrong with
  | fock differ =>
      have compared : requireSameShape gamma fock =
          .error (shapeMismatch "generalised Fock matrix" gamma.size fock.size) := if_neg differ
      rw [projectedEnergies, compared]
      rfl
  | density same oblong =>
      have compared : requireSameShape gamma fock = .ok () := if_pos same
      have solved : eigh solver gamma = .error (shapeMismatch "hermitian matrix" (gamma.rows * gamma.rows) gamma.size) :=
        if_pos oblong
      rw [projectedEnergies, compared, regularise, solved]
      rfl

theorem projected_energies_exist_iff (solver : EigenSolver R) (gamma fock : Mat (Cplx R)) (cutoff : R) :
    (∃ energies, projectedEnergies solver gamma fock cutoff = .ok energies) ↔
      gamma.rows = gamma.cols ∧ fock.shape = gamma.shape := by
  constructor
  · rintro ⟨energies, returned⟩
    by_contra unfit
    obtain ⟨e, wrong⟩ := misshapen_exists unfit
    cases returned.symm.trans (misshapen_refused solver wrong cutoff)
  · rintro ⟨square, same⟩
    have shape : gamma.shape = (gamma.rows, gamma.rows) := congrArg (gamma.rows, ·) square.symm
    exact projected_energies_square solver shape (same.trans shape) cutoff

theorem projected_energies_error_iff (solver : EigenSolver R) (gamma fock : Mat (Cplx R)) (cutoff : R)
    (failure : Failure) : projectedEnergies solver gamma fock cutoff = .error failure ↔
      ∃ e, Misshapen gamma fock e ∧ failure = .reported e := by
  constructor
  · intro failed
    have unfit : ¬ (gamma.rows = gamma.cols ∧ fock.shape = gamma.shape) := by
      rw [← projected_energies_exist_iff solver gamma fock cutoff]
      rintro ⟨energies, returned⟩
      cases failed.symm.trans returned
    obtain ⟨e, wrong⟩ := misshapen_exists unfit
    exact ⟨e, wrong, Except.error.inj (failed.symm.trans (misshapen_refused solver wrong cutoff))⟩
  · rintro ⟨e, wrong, rfl⟩
    exact misshapen_refused solver wrong cutoff

end Shapes

section Attachment

variable [Scalar R]

theorem hole_density_oblong {p : Mat (Cplx R)} (oblong : p.rows ≠ p.cols) : holeDensity p = .error .fault := by
  have differ : ¬ ((Mat.identity p.rows : Mat (Cplx R)).rows = p.transpose.rows ∧
      (Mat.identity p.rows : Mat (Cplx R)).cols = p.transpose.cols) := fun same => oblong same.1
  rw [holeDensity, Mat.sub?, Mat.zipWith?, dif_neg differ]
  rfl

theorem attachment_energies_oblong (solver : EigenSolver R) {p : Mat (Cplx R)} (oblong : p.rows ≠ p.cols)
    (fock : Mat (Cplx R)) (cutoff : R) : attachmentEnergies solver p fock cutoff = .error .fault := by
  rw [attachmentEnergies, hole_density_oblong oblong]
  rfl

-- A square density has a hole density of its shape, which alone decides what the energies need.
theorem attachment_energies_square (solver : EigenSolver R) {p : Mat (Cplx R)} (square : p.rows = p.cols)
    (fock : Mat (Cplx R)) (cutoff : R) : ∃ hole, hole.shape = p.shape ∧
      attachmentEnergies solver p fock cutoff = projectedEnergies solver hole fock cutoff := by
  have shape : p.shape = (p.rows, p.rows) := congrArg (p.rows, ·) square.symm
  obtain ⟨hole, made, same⟩ := hole_density_square shape
  refine ⟨hole, same.trans shape.symm, ?_⟩
  rw [attachmentEnergies, made]
  rfl

-- The counts that are reported are exact, as those in words are as long as the squares of the sizes fit.
theorem energies_of_any_shapes (solver : EigenSolver R) (p fock : Mat (Cplx R)) (cutoff : R) :
    ((∃ energies, ionizationEnergies solver p fock cutoff = .ok energies) ↔
      p.rows = p.cols ∧ fock.shape = p.shape) ∧
    ((∃ energies, attachmentEnergies solver p fock cutoff = .ok energies) ↔
      p.rows = p.cols ∧ fock.shape = p.shape) ∧
    (∀ failure, ionizationEnergies solver p fock cutoff = .error failure ↔
      ∃ e, Misshapen p fock e ∧ failure = .reported e) ∧
    ∀ failure, attachmentEnergies solver p fock cutoff = .error failure ↔
      p.rows ≠ p.cols ∧ failure = .fault ∨ p.rows = p.cols ∧ ∃ e, Misshapen p fock e ∧ failure = .reported e := by
  refine ⟨projected_energies_exist_iff solver p fock cutoff, ?_, projected_energies_error_iff solver p fock cutoff, ?_⟩
  · by_cases square : p.rows = p.cols
    · obtain ⟨hole, same, attached⟩ := attachment_energies_square solver square fock cutoff
      obtain ⟨rows, cols⟩ := Prod.mk.inj same
      rw [attached, projected_energies_exist_iff, same, rows, cols]
    · simp [attachment_energies_oblong solver square, square]
  · intro failure
    by_cases square : p.rows = p.cols
    · obtain ⟨hole, same, attached⟩ := attachment_energies_square solver square fock cutoff
      simp only [attached, projected_energies_error_iff, misshapen_congr same, square, ne_eq, not_true_eq_false,
        false_and, false_or, true_and]
    · simp [attachment_energies_oblong solver square, square, eq_comm]

end Attachment

end OrbitalSpectra
