import OrbitalSpectra.Proofs.Exact.Bootstrap
import OrbitalSpectra.Proofs.Exact.KeptSpectrum
import OrbitalSpectra.Proofs.Koopmans.GeneralisedSpectrum
import OrbitalSpectra.Proofs.Koopmans.SectorVerdict

set_option autoImplicit false

namespace OrbitalSpectra

open Matrix Sampling

variable {n m : Nat} {solver : EigenSolver Exact}

def Answered (solver : EigenSolver Exact) (A : Matrix (Fin n) (Fin n) ℂ) : Prop :=
  ∃ (d : Fin n → ℝ) (U : Matrix (Fin n) (Fin n) ℂ), solver (Mat.exact A) = Eigensystem.exact d U

theorem Answered.sorted {A : Matrix (Fin n) (Fin n) ℂ} (answered : Answered solver A) :
    ∃ (d : Fin n → ℝ) (U : Matrix (Fin n) (Fin n) ℂ), eigh solver (Mat.exact A) = .ok (Eigensystem.exact d U) := by
  obtain ⟨d, U, answer⟩ := answered
  obtain ⟨π, _, sorted⟩ := eigh_exact answer
  exact ⟨_, _, sorted⟩

theorem Faithful.answered (faithful : Faithful solver) {A : Matrix (Fin n) (Fin n) ℂ} (hermitian : A.IsHermitian) :
    Answered solver A := by
  obtain ⟨d, U, answer, _⟩ := faithful n A hermitian
  exact ⟨d, U, answer⟩

-- Whatever matrix of numbers it is asked about, the solver answers with numbers.
def Answers (solver : EigenSolver Exact) : Prop :=
  ∀ (n : Nat) (A : Matrix (Fin n) (Fin n) ℂ), ∃ (d : Fin n → ℝ) (U : Matrix (Fin n) (Fin n) ℂ),
    solver (Mat.exact A) = Eigensystem.exact d U

theorem spectral_solver_answers : Answers spectralSolver := by
  intro n A
  have answered := lower_answer_exists A
  rw [spectralSolver, dif_pos answered]
  obtain ⟨d, U, answer, _⟩ := lower_answer_of_exact answered.choose_spec
  exact ⟨d, U, answer⟩

structure Ascending (energies : List Exact) (count : Nat) : Prop where
  numbers : ∃ xs : List ℝ, energies = xs.map .value ∧ xs.Pairwise (· ≤ ·)
  count : energies.length = count

section Energies

variable {cutoff : ℝ}

theorem eigenvalues_ascending {A : Matrix (Fin n) (Fin n) ℂ} (answered : Answered solver A) :
    ∃ energies, eigenvalues solver (Mat.exact A) = .ok energies ∧ Ascending energies n := by
  obtain ⟨d, U, answer⟩ := answered
  obtain ⟨π, ascending, sorted⟩ := eigh_exact answer
  refine ⟨(List.ofFn (d ∘ π)).map .value, ?_, ⟨List.ofFn (d ∘ π), rfl, ?_⟩, by simp⟩
  · rw [eigenvalues, sorted, List.map_ofFn]
    rfl
  · rw [List.pairwise_ofFn]
    exact fun i j before => ascending before.le

theorem projected_eigenvalues_ascending {X : Matrix (Fin n) (Fin m) ℂ} {F : Matrix (Fin n) (Fin n) ℂ}
    (answered : Answered solver (Xᴴ * F * X)) :
    ∃ energies, projectedEigenvalues solver (Mat.exact X) (Mat.exact F) = .ok energies ∧ Ascending energies m := by
  obtain ⟨energies, solved, ascending⟩ := eigenvalues_ascending answered
  refine ⟨energies, ?_, ascending⟩
  simp only [projectedEigenvalues, Mat.exact_adjoint, Mat.exact_mul, except_bind_ok_iff, or_fault_ok_iff,
    except_lift_ok_iff, Option.some.injEq, exists_eq_left']
  exact solved

theorem projected_energies_ascending (answers : Answers solver) (faithful : Faithful solver)
    {γ : Matrix (Fin n) (Fin n) ℂ} (density : γ.IsHermitian) (F : Matrix (Fin n) (Fin n) ℂ) (nonneg : 0 ≤ cutoff) :
    ∃ energies, projectedEnergies solver (Mat.exact γ) (Mat.exact F) (.value cutoff) = .ok energies ∧
      Ascending energies (keptSpectrum γ cutoff).length := by
  obtain ⟨_, rank, X, _, counted, regularised⟩ := regularise_kept faithful density nonneg
  obtain ⟨energies, projected, ascending⟩ := projected_eigenvalues_ascending (answers _ (Xᴴ * F * X))
  refine ⟨energies, ?_, counted ▸ ascending⟩
  simp only [projectedEnergies, require_same_shape_exact, except_bind_ok_iff, except_lift_ok_iff, true_and, exists_const]
  exact ⟨_, regularised, projected⟩

-- A sampled density has its transform only where all eigenvalues it takes are above the cutoff.
theorem whitened_exact {γ : Matrix (Fin n) (Fin n) ℂ} (density : Answered solver γ) (nonneg : 0 ≤ cutoff) {rank : Nat}
    {x : Mat (Cplx Exact)} (whitened : whitenWithRank solver (Mat.exact γ) rank (.value cutoff) = .ok (some x)) :
    ∃ (m : Nat) (X : Matrix (Fin n) (Fin m) ℂ), m = rank ∧ x = Mat.exact X := by
  obtain ⟨d, U, sorted⟩ := density.sorted
  rw [whitenWithRank, sorted] at whitened
  change (if (Eigensystem.exact d U).values.length < rank then _ else _) = _ at whitened
  rw [exact_length] at whitened
  split at whitened
  · cases whitened
  · rename_i fits
    split at whitened
    · cases whitened
    · rename_i above
      cases whitened
      have below : ∀ k ∈ (List.range rank).map (n - rank + ·), k < n := by
        intro k member
        obtain ⟨c, inside, rfl⟩ := List.mem_map.mp member
        have bound := List.mem_range.mp inside
        omega
      refine ⟨_, _, by rw [List.length_map, List.length_range], whitening_exact d U below fun c => ?_⟩
      refine nonneg.trans_lt (not_le.mp fun low => above (List.any_eq_true.mpr ⟨_, List.get_mem _ c, ?_⟩))
      rw [decide_eq_true_iff, value_inside d U (below _ (List.get_mem _ c)), Exact.value_le]
      exact low

theorem energies_with_rank_ascending {γ F : Matrix (Fin n) (Fin n) ℂ} (density : Answered solver γ)
    (projections : ∀ (m : Nat) (X : Matrix (Fin n) (Fin m) ℂ), Answered solver (Xᴴ * F * X)) (nonneg : 0 ≤ cutoff)
    {rank : Nat} {held : Option (List Exact)}
    (ok : projectedEnergiesWithRank solver (Mat.exact γ) (Mat.exact F) rank (.value cutoff) = .ok held) :
    ∀ energies ∈ held, Ascending energies rank := by
  simp only [projectedEnergiesWithRank, require_same_shape_exact, except_bind_ok_iff, except_lift_ok_iff,
    reporting_ok_iff, true_and, exists_const] at ok
  obtain ⟨whitened, found, rest⟩ := ok
  cases whitened with
  | none =>
      cases rest
      simp
  | some x =>
      obtain ⟨m, X, counted, rfl⟩ := whitened_exact density nonneg found
      obtain ⟨energies, projected, ascending⟩ := projected_eigenvalues_ascending (projections m X)
      simp only [projected] at rest
      cases rest
      rintro _ ⟨⟩
      exact counted ▸ ascending

end Energies

end OrbitalSpectra
