import Mathlib
import OrbitalSpectra.Koopmans
import OrbitalSpectra.Proofs.Outcome

set_option autoImplicit false

namespace OrbitalSpectra

namespace Mat

variable {α β γ R : Type} [Scalar R]

theorem zip_with_some {a : Mat α} {b : Mat β} {r c : Nat} (f : α → β → γ) (left : a.shape = (r, c))
    (right : b.shape = (r, c)) : ∃ ab, zipWith? f a b = some ab ∧ ab.shape = (r, c) := by
  obtain ⟨rfl, rfl⟩ := Prod.mk.inj left
  obtain ⟨rows, cols⟩ := Prod.mk.inj right
  exact ⟨_, dif_pos ⟨rows.symm, cols.symm⟩, rfl⟩

theorem mul_some {a b : Mat (Cplx R)} {r k c : Nat} (left : a.shape = (r, k)) (right : b.shape = (k, c)) :
    ∃ ab, a.mul? b = some ab ∧ ab.shape = (r, c) := by
  obtain ⟨rfl, rfl⟩ := Prod.mk.inj left
  obtain ⟨rows, rfl⟩ := Prod.mk.inj right
  exact ⟨_, if_pos rows.symm, rfl⟩

theorem adjoint_shape {m : Mat (Cplx R)} {r c : Nat} (shape : m.shape = (r, c)) : m.adjoint.shape = (c, r) := by
  obtain ⟨rfl, rfl⟩ := Prod.mk.inj shape
  rfl

theorem transpose_shape [Zero α] {m : Mat α} {r c : Nat} (shape : m.shape = (r, c)) :
    m.transpose.shape = (c, r) := by
  obtain ⟨rfl, rfl⟩ := Prod.mk.inj shape
  rfl

end Mat

namespace SpinTensor

variable {α β : Type}

theorem shape_congr {t : SpinTensor α} {u : SpinTensor β} (same : u.sectors.map Mat.shape = t.sectors.map Mat.shape) :
    u.shape = t.shape := by
  have counts : u.count = t.count := by simpa [count] using congrArg List.length same
  rw [shape, shape, counts, dim, dim, same]

theorem map_shape (f : α → β) (t : SpinTensor α) : (t.map f).shape = t.shape :=
  shape_congr (by simp [map, Function.comp_def])

end SpinTensor

variable {R : Type} [Scalar R]

section Solver

variable (solver : EigenSolver R)

theorem eigh_square {m : Mat (Cplx R)} {n : Nat} (square : m.shape = (n, n)) :
    ∃ e, eigh solver m = .ok e ∧ e.values.length = n ∧ e.vectors.shape = (n, n) := by
  obtain ⟨rfl, cols⟩ := Prod.mk.inj square
  refine ⟨_, if_neg fun odd => odd cols.symm, ?_, rfl⟩
  simp [Eigensystem.ascending]

theorem eigh_ok_square {m : Mat (Cplx R)} {e : Eigensystem R} (ok : eigh solver m = .ok e) :
    m.shape = (m.rows, m.rows) := by
  unfold eigh at ok
  split at ok
  · cases ok
  · rename_i square
    exact congrArg (m.rows, ·) (not_ne_iff.mp square).symm

theorem eigh_ok_sizes {m : Mat (Cplx R)} {e : Eigensystem R} {n : Nat} (square : m.shape = (n, n))
    (ok : eigh solver m = .ok e) : e.values.length = n ∧ e.vectors.shape = (n, n) := by
  obtain ⟨_, solved, sizes⟩ := eigh_square solver square
  cases Except.ok.inj (ok.symm.trans solved)
  exact sizes

theorem eigenvalues_square {m : Mat (Cplx R)} {n : Nat} (square : m.shape = (n, n)) :
    ∃ values, eigenvalues solver m = .ok values ∧ values.length = n := by
  obtain ⟨e, solved, length, _⟩ := eigh_square solver square
  exact ⟨e.values, by rw [eigenvalues, solved]; rfl, length⟩

theorem whitening_shape {e : Eigensystem R} {n : Nat} (vectors : e.vectors.shape = (n, n)) (kept : List Nat) :
    (e.whitening kept).shape = (n, kept.length) :=
  congrArg (·, kept.length) (Prod.mk.inj vectors).1

theorem reconstruction_square {e : Eigensystem R} {n : Nat} (vectors : e.vectors.shape = (n, n)) (kept : List Nat) :
    ∃ m, e.reconstruction kept = .ok m ∧ m.shape = (n, n) := by
  obtain ⟨rfl, _⟩ := Prod.mk.inj vectors
  have scaled : (Mat.ofFn e.vectors.rows kept.length fun r c =>
      ((e.columns kept).entry r c).scale (e.value (kept.getD c 0))).shape = (e.vectors.rows, kept.length) := rfl
  obtain ⟨m, product, shape⟩ := Mat.mul_some scaled (Mat.adjoint_shape (m := e.columns kept) rfl)
  exact ⟨m, (or_fault_ok_iff _ _).mpr product, shape⟩

theorem regularise_square {m : Mat (Cplx R)} {n : Nat} (square : m.shape = (n, n)) (cutoff : R) :
    ∃ r rank, regularise solver m cutoff = .ok r ∧ r.matrix.shape = (n, n) ∧ r.transform.shape = (n, rank) ∧
      rank ≤ n := by
  obtain ⟨e, solved, length, vectors⟩ := eigh_square solver square
  obtain ⟨kept, rebuilt, shape⟩ := reconstruction_square vectors (e.above cutoff)
  refine ⟨⟨kept, e.whitening (e.above cutoff)⟩, _, ?_, shape, whitening_shape vectors _, ?_⟩
  · simp only [regularise, except_bind_ok_iff, except_lift_ok_iff]
    exact ⟨e, solved, kept, rebuilt, rfl⟩
  · rw [← length]
    exact (List.length_filter_le _ _).trans_eq List.length_range

theorem regularise_ok_square {m : Mat (Cplx R)} {cutoff : R} {r : Regularised R}
    (ok : regularise solver m cutoff = .ok r) : m.shape = (m.rows, m.rows) := by
  simp only [regularise, except_bind_ok_iff, except_lift_ok_iff] at ok
  obtain ⟨e, solved, _⟩ := ok
  exact eigh_ok_square solver solved

theorem whiten_with_rank_square {m : Mat (Cplx R)} {n rank : Nat} (square : m.shape = (n, n)) (inside : rank ≤ n)
    (cutoff : R) : ∃ held, whitenWithRank solver m rank cutoff = .ok held ∧ ∀ x ∈ held, x.shape = (n, rank) := by
  obtain ⟨e, solved, length, vectors⟩ := eigh_square solver square
  have enough : ¬ e.values.length < rank := by omega
  simp only [whitenWithRank, except_bind_ok_iff]
  by_cases collapsed : ((List.range rank).map (e.values.length - rank + ·)).any fun k => e.value k ≤ cutoff
  · exact ⟨none, ⟨e, solved, (if_neg enough).trans (if_pos collapsed)⟩, by simp⟩
  · refine ⟨_, ⟨e, solved, (if_neg enough).trans (if_neg collapsed)⟩, ?_⟩
    rintro x ⟨⟩
    rw [whitening_shape vectors, List.length_map, List.length_range]

theorem projected_eigenvalues_count {x fock : Mat (Cplx R)} {n rank : Nat} (transform : x.shape = (n, rank))
    (square : fock.shape = (n, n)) :
    ∃ energies, projectedEigenvalues solver x fock = .ok energies ∧ energies.length = rank := by
  obtain ⟨left, leftOk, leftShape⟩ := Mat.mul_some (Mat.adjoint_shape transform) square
  obtain ⟨projected, projectedOk, shape⟩ := Mat.mul_some leftShape transform
  obtain ⟨energies, solved, length⟩ := eigenvalues_square solver shape
  refine ⟨energies, ?_, length⟩
  simp only [projectedEigenvalues, except_bind_ok_iff, or_fault_ok_iff, except_lift_ok_iff]
  exact ⟨left, leftOk, projected, projectedOk, solved⟩

-- Energies exist for square matrices of one shape only, and there are at most as many as orbitals.
theorem projected_energies_shapes {gamma fock : Mat (Cplx R)} {cutoff : R} {energies : List R}
    (ok : projectedEnergies solver gamma fock cutoff = .ok energies) :
    gamma.shape = (gamma.rows, gamma.rows) ∧ fock.shape = (gamma.rows, gamma.rows) ∧ energies.length ≤ gamma.rows := by
  simp only [projectedEnergies, except_bind_ok_iff, except_lift_ok_iff] at ok
  obtain ⟨_, same, regularised, prepared, projected⟩ := ok
  have square := regularise_ok_square solver prepared
  have fockSquare : fock.shape = (gamma.rows, gamma.rows) := by
    unfold requireSameShape at same
    split at same
    · rename_i shapes
      rw [shapes, square]
    · cases same
  obtain ⟨r, rank, again, _, transform, inside⟩ := regularise_square solver square cutoff
  cases Except.ok.inj (prepared.symm.trans again)
  obtain ⟨xs, found, count⟩ := projected_eigenvalues_count solver transform fockSquare
  cases Except.ok.inj (projected.symm.trans found)
  exact ⟨square, fockSquare, count.trans_le inside⟩

theorem projected_energies_with_rank_count {gamma fock : Mat (Cplx R)} {n rank : Nat} (square : gamma.shape = (n, n))
    (same : fock.shape = (n, n)) (inside : rank ≤ n) (cutoff : R) :
    ∃ held, projectedEnergiesWithRank solver gamma fock rank cutoff = .ok held ∧
      ∀ energies ∈ held, energies.length = rank := by
  have shapes : requireSameShape gamma fock = .ok () := if_pos (same.trans square.symm)
  obtain ⟨whitened, found, transform⟩ := whiten_with_rank_square solver square inside cutoff
  simp only [projectedEnergiesWithRank, except_bind_ok_iff, except_lift_ok_iff, reporting_ok_iff]
  cases whitened with
  | none => exact ⟨none, ⟨(), shapes, none, found, rfl⟩, by simp⟩
  | some x =>
      obtain ⟨energies, projected, count⟩ := projected_eigenvalues_count solver (transform x rfl) same
      refine ⟨some energies, ⟨(), shapes, some x, found, ?_⟩, ?_⟩
      · simp only [projected]
        rfl
      · rintro _ ⟨⟩
        exact count

end Solver

theorem hole_density_square {p : Mat (Cplx R)} {n : Nat} (square : p.shape = (n, n)) :
    ∃ hole, holeDensity p = .ok hole ∧ hole.shape = (n, n) := by
  obtain ⟨rfl, cols⟩ := Prod.mk.inj square
  obtain ⟨hole, subtracted, shape⟩ := Mat.zip_with_some (· - ·) (a := Mat.identity p.rows) rfl
    (Mat.transpose_shape square)
  exact ⟨hole, by rw [holeDensity, Mat.sub?, subtracted]; rfl, shape⟩

theorem sample_deviation_uniform {first : List R} {rest : List (List R)} {length : Nat}
    (uniform : ∀ s ∈ first :: rest, s.length = length) : ∃ deviations,
      sampleDeviation (first :: rest) = .ok deviations ∧ deviations.length = length := by
  have head := uniform first (by simp)
  refine ⟨_, if_pos ?_, ?_⟩
  · simpa [head] using uniform
  · simpa using head

theorem sample_deviation_returns {samples : List (List R)} {length : Nat}
    (uniform : ∀ s ∈ samples, s.length = length) : ∃ deviations, sampleDeviation samples = .ok deviations := by
  cases samples with
  | nil => exact ⟨[], rfl⟩
  | cons first rest =>
      obtain ⟨deviations, deviated, _⟩ := sample_deviation_uniform uniform
      exact ⟨deviations, deviated⟩

section Square

variable {n : Nat}

theorem hermitian_part_square {m : Mat (Cplx R)} (square : m.shape = (n, n)) :
    ∃ h, hermitianPart m = .ok h ∧ h.shape = (n, n) := by
  obtain ⟨sum, added, shape⟩ := Mat.zip_with_some (· + ·) square (Mat.adjoint_shape square)
  exact ⟨sum.map fun z => z.scale 0.5, by rw [hermitianPart, Mat.add?, added]; rfl, shape⟩

theorem symmetric_part_square {m : Mat R} (square : m.shape = (n, n)) :
    ∃ h, symmetricPart m = .ok h ∧ h.shape = (n, n) := by
  obtain ⟨sum, added, shape⟩ := Mat.zip_with_some (· + ·) square (Mat.transpose_shape square)
  exact ⟨sum.map fun x => x * 0.5, by rw [symmetricPart, Mat.add?, added]; rfl, shape⟩

theorem sum_sectors_square (first : Mat (Cplx R)) (rest : List (Mat (Cplx R)))
    (square : ∀ m ∈ first :: rest, m.shape = (n, n)) :
    ∃ sum, sumSectors (first :: rest) = .ok sum ∧ sum.shape = (n, n) := by
  change ∃ sum, rest.foldlM (fun sum m => orFault (sum.add? m)) first = .ok sum ∧ sum.shape = (n, n)
  induction rest generalizing first with
  | nil => exact ⟨first, rfl, square first (by simp)⟩
  | cons m rest ih =>
      obtain ⟨sum, added, shape⟩ := Mat.zip_with_some (· + ·) (square first (by simp)) (square m (by simp))
      obtain ⟨total, folded, totalShape⟩ := ih sum (by
        intro other member
        rcases List.mem_cons.mp member with rfl | later
        · exact shape
        · exact square other (by simp [later]))
      refine ⟨total, ?_, totalShape⟩
      rw [List.foldlM_cons, Mat.add?, added]
      exact folded

theorem spin_summed_error_square {error : SpinTensor R} (some : error.count ≠ 0)
    (square : ∀ m ∈ error.sectors, m.shape = (n, n)) : ∃ e, spinSummedError error = .ok e ∧ e.shape = (n, n) := by
  rw [SpinTensor.count] at some
  rcases held : error.sectors with _ | ⟨a, _ | ⟨b, _ | ⟨c, rest⟩⟩⟩
  · simp [held] at some
  · exact ⟨a, by rw [spinSummedError, held], square a (by simp [held])⟩
  · obtain ⟨e, zipped, shape⟩ := Mat.zip_with_some (fun x y => Scalar.sqrt (x * x + y * y))
      (square a (by simp [held])) (square b (by simp [held]))
    exact ⟨e, by rw [spinSummedError, held]; exact (or_fault_ok_iff _ _).mpr zipped, shape⟩
  · exact ⟨a, by rw [spinSummedError, held], square a (by simp [held])⟩

theorem spin_summed_square {p : SpinTensor (Cplx R)} {error : SpinTensor R} (some : p.count ≠ 0)
    (same : p.shape = error.shape) :
    ∃ sum e, spinSummed p error = .ok (sum, e) ∧ sum.shape = (p.dim, p.dim) ∧ e.shape = (p.dim, p.dim) := by
  have fits : ¬ (p.count = 0 ∨ p.shape ≠ error.shape) := by
    rintro (none | differs)
    · exact some none
    · exact differs same
  obtain ⟨counts, dims⟩ : p.count = error.count ∧ p.dim = error.dim := by
    have parts := same
    simp only [SpinTensor.shape, Prod.mk.injEq] at parts
    exact ⟨parts.1, parts.2.1⟩
  obtain ⟨e, summedError, errorShape⟩ := spin_summed_error_square (counts ▸ some) error.uniform
  obtain ⟨first, rest, sectors⟩ : ∃ first rest, p.sectors = first :: rest := by
    cases held : p.sectors with
    | nil => exact absurd (by simp [SpinTensor.count, held]) some
    | cons first rest => exact ⟨first, rest, rfl⟩
  obtain ⟨sum, summed, sumShape⟩ := sum_sectors_square (n := p.dim) first rest (sectors ▸ p.uniform)
  obtain ⟨h, hermitian, shape⟩ := hermitian_part_square sumShape
  change e.shape = (error.dim, error.dim) at errorShape
  rw [← dims] at errorShape
  obtain ⟨t, symmetric, symmetricShape⟩ := symmetric_part_square errorShape
  refine ⟨h, t, ?_, shape, symmetricShape⟩
  simp only [spinSummed, if_neg fits, except_bind_ok_iff]
  exact ⟨sum, sectors ▸ summed, e, summedError, h, hermitian, t, symmetric, rfl⟩

theorem screen_matrix_fits {m : Mat (Cplx R)} {error : Mat R} {r c : Nat} (left : m.shape = (r, c))
    (right : error.shape = (r, c)) (factor : R) :
    ∃ screened kept, screenMatrix m error factor = .ok (screened, kept) ∧ screened.shape = (r, c) := by
  obtain ⟨screened, zipped, shape⟩ := Mat.zip_with_some (screenEntry factor) left right
  exact ⟨screened, _, by rw [screenMatrix, zipped], shape⟩

theorem projected_energies_square (solver : EigenSolver R) {gamma fock : Mat (Cplx R)} (square : gamma.shape = (n, n))
    (same : fock.shape = (n, n)) (cutoff : R) :
    ∃ energies, projectedEnergies solver gamma fock cutoff = .ok energies := by
  have shapes : requireSameShape gamma fock = .ok () := if_pos (same.trans square.symm)
  obtain ⟨r, rank, regularised, _, transform, _⟩ := regularise_square solver square cutoff
  obtain ⟨energies, projected, _⟩ := projected_eigenvalues_count solver transform same
  simp only [projectedEnergies, except_bind_ok_iff, except_lift_ok_iff]
  exact ⟨energies, (), shapes, r, regularised, projected⟩

end Square

end OrbitalSpectra
