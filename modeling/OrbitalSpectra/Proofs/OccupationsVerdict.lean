import OrbitalSpectra.Proofs.Bootstrap.Verdicts
import OrbitalSpectra.Proofs.Shapes

set_option autoImplicit false

namespace OrbitalSpectra

open Sampling

variable {σ R : Type} [Scalar R]

def occupationValues (solver : EigenSolver R) (p : SpinTensor (Cplx R)) (error : SpinTensor R) (samples : Nat)
    (screenFactor cutoff : R) : Except Failure (List R) := do
  let (sum, error) ← spinSummed p error
  let (screened, _) ← reporting (screenMatrix sum error screenFactor)
  let regularised ← regularise solver screened cutoff
  requireRoom samples vectorSize
  sampleVerdict regularised.matrix error
  let values ← reporting (eigenvalues solver regularised.matrix)
  return values.reverse

variable [NormalStream σ R] (solver : EigenSolver R)

theorem sample_occupations_decides (m : Mat (Cplx R)) (error : Mat R) :
    Decides (σ := σ) (sampleOccupations solver m error) (sampleVerdict m error) fun _ values =>
      values.length = m.rows := by
  rw [← bind_pure (sampleVerdict m error)]
  refine bind_decides (sample_matrix_decides m error) fun _ drawn _ square => ?_
  obtain ⟨values, solved, count⟩ := eigenvalues_square solver square
  refine sure_bind_decides ((reporting_ok_iff _ _).mpr solved) (pure_decides ?_)
  rw [List.length_reverse, count]

-- The occupations of the average, and an error for each of them.
theorem occupations_of_counted (p : SpinTensor (Cplx R)) (error : SpinTensor R) {samples : Nat} (enough : 2 ≤ samples)
    (screenFactor cutoff : R) :
    Decides (σ := σ) (occupationsOf solver p error samples screenFactor cutoff)
      (occupationValues solver p error samples screenFactor cutoff)
      fun values occupations => occupations.values = values ∧ occupations.errors.length = values.length := by
  simp only [occupationsOf, if_neg (Nat.not_lt.mpr enough), occupationValues]
  refine except_bind_decides fun summed _ => except_bind_decides fun screened _ =>
    returned_bind_decides (Run.note_returns _ ()) (except_bind_decides fun regularised regularisedOk => ?_)
  obtain ⟨_, _, again, square, _⟩ := regularise_square solver (regularise_ok_square solver regularisedOk) cutoff
  cases Except.ok.inj (regularisedOk.symm.trans again)
  have samplesDecide := collect_decides (sample_occupations_decides (σ := σ) solver regularised.matrix summed.2)
    (Nat.le_of_succ_le enough)
  rw [← bind_assoc]
  refine bind_decides samplesDecide fun _ drawn _ held => except_bind_decides fun values solved => ?_
  obtain ⟨length, counts⟩ := held
  obtain ⟨first, rest, rfl⟩ := List.exists_cons_of_length_pos (Nat.lt_of_lt_of_le Nat.two_pos (enough.trans_eq length.symm))
  obtain ⟨deviations, deviated, errorCount⟩ := sample_deviation_uniform counts
  obtain ⟨_, solvedAgain, valueCount⟩ := eigenvalues_square solver square
  cases Except.ok.inj (((reporting_ok_iff _ _).mp solved).symm.trans solvedAgain)
  refine sure_bind_decides deviated (pure_decides ⟨rfl, ?_⟩)
  rw [errorCount, List.length_reverse, valueCount, (Prod.mk.inj square).1]

theorem occupations_of_decides (p : SpinTensor (Cplx R)) (error : SpinTensor R) {samples : Nat} (enough : 2 ≤ samples)
    (screenFactor cutoff : R) :
    Decides (σ := σ) (occupationsOf solver p error samples screenFactor cutoff)
      (occupationValues solver p error samples screenFactor cutoff)
      fun values occupations => occupations.values = values :=
  (occupations_of_counted solver p error enough screenFactor cutoff).mono fun _ _ counted => counted.1

end OrbitalSpectra
