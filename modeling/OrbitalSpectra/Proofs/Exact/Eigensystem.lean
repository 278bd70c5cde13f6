import OrbitalSpectra.Eigen
import OrbitalSpectra.Proofs.Exact.Diagonal
import OrbitalSpectra.Proofs.Exact.Matrix

set_option autoImplicit false

namespace OrbitalSpectra

open Matrix

variable {n : Nat}

noncomputable def Eigensystem.exact (d : Fin n → ℝ) (U : Matrix (Fin n) (Fin n) ℂ) : Eigensystem Exact :=
  ⟨List.ofFn fun k => .value (d k), Mat.exact U⟩

-- The solver answers the matrix `A` with an eigensystem of `B`.
def Solves (solver : EigenSolver Exact) (A B : Matrix (Fin n) (Fin n) ℂ) : Prop :=
  ∃ d U, solver (Mat.exact A) = Eigensystem.exact d U ∧ Diagonalises B d U

-- Real eigenvalues and unitary eigenvectors of every Hermitian matrix, in any order and basis.
def Faithful (solver : EigenSolver Exact) : Prop :=
  ∀ (n : Nat) (A : Matrix (Fin n) (Fin n) ℂ), A.IsHermitian → Solves solver A A

section Places

variable {R : Type} [Scalar R] (e : Eigensystem R) (n : Nat)

theorem ascending_perm : (e.ascending n).Perm (List.range n) := List.mergeSort_perm _ _

theorem ascending_places : ∃ π : Equiv.Perm (Fin n), e.ascending n = List.ofFn fun k => (π k : Nat) := by
  have sized : (e.ascending n).length = n := by rw [(ascending_perm e n).length_eq, List.length_range]
  let place (k : Fin n) : Nat := (e.ascending n).get ⟨k, sized.symm ▸ k.isLt⟩
  have below (k : Fin n) : place k < n := List.mem_range.mp ((ascending_perm e n).mem_iff.mp (List.getElem_mem _))
  have injective : Function.Injective fun k => (⟨place k, below k⟩ : Fin n) := by
    intro i j same
    have nodup := (ascending_perm e n).nodup_iff.mpr List.nodup_range
    exact Fin.ext ((nodup.getElem_inj_iff).mp (Fin.mk.inj same))
  refine ⟨Equiv.ofBijective _ (Finite.injective_iff_bijective.mp injective), ?_⟩
  apply List.ext_getElem
  · rw [sized, List.length_ofFn]
  · intro k left right
    rw [List.getElem_ofFn]
    rfl

end Places

section Order

variable (d : Fin n → ℝ) (U : Matrix (Fin n) (Fin n) ℂ)

@[simp] theorem exact_value (k : Fin n) : (Eigensystem.exact d U).value k = .value (d k) := by
  simp [Eigensystem.exact, Eigensystem.value]

theorem ordered_trans (a b c : Exact) (first : Exact.ordered a b = true) (second : Exact.ordered b c = true) :
    Exact.ordered a c = true := by
  cases a with
  | undefined => rfl
  | value x =>
      cases b with
      | undefined => cases first
      | value y =>
          cases c with
          | undefined => cases second
          | value z => exact decide_eq_true ((of_decide_eq_true first).trans (of_decide_eq_true second))

theorem ordered_total (a b : Exact) : (Exact.ordered a b || Exact.ordered b a) = true := by
  cases a with
  | undefined => rfl
  | value x =>
      cases b with
      | undefined => rfl
      | value y => simpa [Exact.ordered] using le_total x y

theorem ascending_pairwise : ((Eigensystem.exact d U).ascending n).Pairwise fun a b =>
    Exact.ordered ((Eigensystem.exact d U).value a) ((Eigensystem.exact d U).value b) = true :=
  List.pairwise_mergeSort
    (fun a b c => ordered_trans ((Eigensystem.exact d U).value a) ((Eigensystem.exact d U).value b)
      ((Eigensystem.exact d U).value c))
    (fun a b => ordered_total ((Eigensystem.exact d U).value a) ((Eigensystem.exact d U).value b)) (List.range n)

-- The order of the places is a permutation that sorts the values.
theorem ascending_permutation : ∃ π : Equiv.Perm (Fin n), Monotone (d ∘ π) ∧
    (Eigensystem.exact d U).ascending n = List.ofFn fun k => (π k : Nat) := by
  obtain ⟨π, order⟩ := ascending_places (Eigensystem.exact d U) n
  have sorted := ascending_pairwise d U
  rw [order, List.pairwise_ofFn] at sorted
  refine ⟨π, ?_, order⟩
  intro i j before
  rcases before.eq_or_lt with rfl | strictly
  · exact le_rfl
  · have ordered := sorted strictly
    rw [exact_value, exact_value] at ordered
    exact of_decide_eq_true ordered

end Order

theorem eigh_of_order {solver : EigenSolver Exact} {A U : Matrix (Fin n) (Fin n) ℂ} {d : Fin n → ℝ}
    (answer : solver (Mat.exact A) = Eigensystem.exact d U) (π : Equiv.Perm (Fin n))
    (order : (Eigensystem.exact d U).ascending n = List.ofFn fun k => (π k : Nat)) :
    eigh solver (Mat.exact A) = .ok (Eigensystem.exact (d ∘ π) (U.submatrix id π)) := by
  have square : ¬ (Mat.exact A).rows ≠ (Mat.exact A).cols := fun differs => differs rfl
  have values : (List.ofFn fun k => (π k : Nat)).map (Eigensystem.exact d U).value =
      List.ofFn fun k => .value (d (π k)) := by
    rw [List.map_ofFn]
    congr 1
    funext k
    exact exact_value d U (π k)
  have vectors : (Mat.ofFn n n fun r c =>
      (Eigensystem.exact d U).vectors.entry r ((List.ofFn fun k => (π k : Nat)).getD c 0)) =
      Mat.exact (U.submatrix id π) := by
    apply Mat.of_fn_exact
    intro r c
    have column : (List.ofFn fun k => (π k : Nat)).getD c 0 = π c := by simp
    rw [column]
    exact Mat.exact_entry U r (π c)
  rw [eigh, if_neg square, answer]
  simp only [Mat.exact_rows, order, values, vectors]
  rfl

theorem eigh_exact {solver : EigenSolver Exact} {A U : Matrix (Fin n) (Fin n) ℂ} {d : Fin n → ℝ}
    (answer : solver (Mat.exact A) = Eigensystem.exact d U) : ∃ π : Equiv.Perm (Fin n), Monotone (d ∘ π) ∧
      eigh solver (Mat.exact A) = .ok (Eigensystem.exact (d ∘ π) (U.submatrix id π)) := by
  obtain ⟨π, ascending, order⟩ := ascending_permutation d U
  exact ⟨π, ascending, eigh_of_order answer π order⟩

theorem eigh_of_monotone {solver : EigenSolver Exact} {A U : Matrix (Fin n) (Fin n) ℂ} {d : Fin n → ℝ}
    (answer : solver (Mat.exact A) = Eigensystem.exact d U) (ascending : Monotone d) :
    eigh solver (Mat.exact A) = .ok (Eigensystem.exact d U) := by
  have order : (Eigensystem.exact d U).ascending n = List.range n := by
    apply List.mergeSort_of_pairwise
    rw [List.pairwise_iff_getElem]
    intro i j left right before
    rw [List.length_range] at left right
    have first := exact_value d U ⟨i, left⟩
    have second := exact_value d U ⟨j, right⟩
    simp only at first second
    rw [List.getElem_range, List.getElem_range, first, second]
    exact decide_eq_true (ascending before.le)
  have places : List.range n = List.ofFn fun k : Fin n => (k : Nat) := by
    apply List.ext_getElem
    · simp
    · intro k left right
      simp
  exact eigh_of_order answer 1 (order.trans places)

theorem solves_sorted {solver : EigenSolver Exact} {A B : Matrix (Fin n) (Fin n) ℂ} (solves : Solves solver A B) :
    ∃ d U, eigh solver (Mat.exact A) = .ok (Eigensystem.exact d U) ∧ Monotone d ∧ Diagonalises B d U := by
  obtain ⟨d, U, answer, form⟩ := solves
  obtain ⟨π, ascending, sorted⟩ := eigh_exact answer
  exact ⟨d ∘ π, U.submatrix id π, sorted, ascending, form.permuted π⟩

theorem eigenvalues_exact {solver : EigenSolver Exact} {A B : Matrix (Fin n) (Fin n) ℂ} (solves : Solves solver A B) :
    eigenvalues solver (Mat.exact A) = .ok ((ascendingSpectrum B).map .value) := by
  obtain ⟨d, U, sorted, ascending, form⟩ := solves_sorted solves
  rw [eigenvalues, sorted, form.spectrum_of_monotone ascending, List.map_ofFn]
  rfl

end OrbitalSpectra
