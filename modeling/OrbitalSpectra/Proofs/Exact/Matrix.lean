import OrbitalSpectra.Hermitian
import OrbitalSpectra.Proofs.Exact.Number

set_option autoImplicit false

namespace OrbitalSpectra

open Matrix

namespace Mat

noncomputable def exact {r c : Nat} (A : Matrix (Fin r) (Fin c) ℂ) : Mat (Cplx Exact) :=
  ofFn r c fun i j => if inside : i < r ∧ j < c then Cplx.exact (A ⟨i, inside.1⟩ ⟨j, inside.2⟩) else 0

variable {r c k : Nat}

@[simp] theorem exact_rows (A : Matrix (Fin r) (Fin c) ℂ) : (exact A).rows = r := rfl

@[simp] theorem exact_cols (A : Matrix (Fin r) (Fin c) ℂ) : (exact A).cols = c := rfl

@[simp] theorem exact_entry (A : Matrix (Fin r) (Fin c) ℂ) (i : Fin r) (j : Fin c) :
    (exact A).entry i j = Cplx.exact (A i j) := by
  rw [exact, entry_ofFn _ i.isLt j.isLt, dif_pos ⟨i.isLt, j.isLt⟩]

theorem of_fn_exact (f : Nat → Nat → Cplx Exact) (A : Matrix (Fin r) (Fin c) ℂ)
    (same : ∀ (i : Fin r) (j : Fin c), f i j = Cplx.exact (A i j)) : ofFn r c f = exact A := by
  apply of_fn_congr
  intro i j row col
  rw [dif_pos ⟨row, col⟩]
  exact same ⟨i, row⟩ ⟨j, col⟩

theorem exact_injective : Function.Injective (exact (r := r) (c := c)) := by
  intro A B same
  ext1 i j
  apply Cplx.exact_injective
  rw [← exact_entry, same, exact_entry]

theorem exact_adjoint (A : Matrix (Fin r) (Fin c) ℂ) : (exact A).adjoint = exact Aᴴ := by
  change ofFn c r _ = _
  apply of_fn_exact
  intro i j
  rw [exact_entry, Cplx.exact_conj, conjTranspose_apply]

theorem exact_transpose (A : Matrix (Fin r) (Fin c) ℂ) : (exact A).transpose = exact Aᵀ := by
  change ofFn c r _ = _
  apply of_fn_exact
  intro i j
  rw [exact_entry, transpose_apply]

theorem exact_identity (n : Nat) : (identity n : Mat (Cplx Exact)) = exact (1 : Matrix (Fin n) (Fin n) ℂ) := by
  apply of_fn_exact
  intro i j
  by_cases same : i = j
  · rw [same, if_pos rfl, one_apply_eq, Cplx.exact_one]
  · rw [if_neg (fun equal => same (Fin.ext equal)), one_apply_ne same, Cplx.exact_zero]

theorem exact_zip {f : Cplx Exact → Cplx Exact → Cplx Exact} {g : ℂ → ℂ → ℂ}
    (onto : ∀ z w, f (Cplx.exact z) (Cplx.exact w) = Cplx.exact (g z w)) (A B : Matrix (Fin r) (Fin c) ℂ) :
    zipWith? f (exact A) (exact B) = some (exact (of fun i j => g (A i j) (B i j))) := by
  rw [exact, exact, zip_with_of_fn, Option.some.injEq]
  apply of_fn_exact
  intro i j
  rw [dif_pos ⟨i.isLt, j.isLt⟩, dif_pos ⟨i.isLt, j.isLt⟩, onto]
  rfl

theorem exact_sub (A B : Matrix (Fin r) (Fin c) ℂ) : (exact A).sub? (exact B) = some (exact (A - B)) :=
  exact_zip Cplx.exact_sub A B

theorem exact_mul (A : Matrix (Fin r) (Fin k) ℂ) (B : Matrix (Fin k) (Fin c) ℂ) :
    (exact A).mul? (exact B) = some (exact (A * B)) := by
  rw [mul?, if_pos (show (exact A).cols = (exact B).rows from rfl), Option.some.injEq]
  change ofFn r c _ = _
  apply of_fn_exact
  intro i j
  have terms : (fun l => 1 * (exact A).entry i l * (exact B).entry l j) =
      fun l => Cplx.exact (if inside : l < k then A i ⟨l, inside⟩ * B ⟨l, inside⟩ j else 0) := by
    funext l
    by_cases inside : l < k
    · have left := exact_entry A i ⟨l, inside⟩
      have right := exact_entry B ⟨l, inside⟩ j
      simp only at left right
      rw [left, right, dif_pos inside, ← Cplx.exact_one, Cplx.exact_mul, Cplx.exact_mul, one_mul]
    · rw [dif_neg inside, entry_outside (exact A) (fun both => inside both.2),
        entry_outside (exact B) (fun both => inside both.1), ← Cplx.exact_zero, ← Cplx.exact_one, Cplx.exact_mul,
        Cplx.exact_mul, mul_zero]
  rw [terms, sum_to_exact, exact_cols, mul_apply, Finset.sum_range]
  congr 1
  apply Finset.sum_congr rfl
  intro l _
  rw [dif_pos l.isLt]

end Mat

section HermitianPart

variable {n : Nat}

noncomputable def hermitised (A : Matrix (Fin n) (Fin n) ℂ) : Matrix (Fin n) (Fin n) ℂ := (1 / 2 : ℂ) • (A + Aᴴ)

theorem hermitised_is_hermitian (A : Matrix (Fin n) (Fin n) ℂ) : (hermitised A).IsHermitian := by
  rw [IsHermitian, hermitised, conjTranspose_smul, conjTranspose_add, conjTranspose_conjTranspose, add_comm]
  simp

theorem hermitised_of_hermitian {A : Matrix (Fin n) (Fin n) ℂ} (hermitian : A.IsHermitian) : hermitised A = A := by
  rw [hermitised, hermitian.eq, ← two_smul ℂ A, smul_smul]
  norm_num

theorem half_sum_exact (z w : ℂ) :
    (Cplx.exact z + Cplx.exact w).scale 0.5 = Cplx.exact ((1 / 2 : ℂ) * (z + w)) := by
  rw [Cplx.exact_add, Exact.half_eq, Cplx.exact_scale, mul_comm]
  norm_num

theorem exact_hermitian_part (A : Matrix (Fin n) (Fin n) ℂ) :
    hermitianPart (Mat.exact A) = .ok (Mat.exact (hermitised A)) := by
  rw [Mat.exact, hermitian_part_of_fn, Except.ok.injEq]
  apply Mat.of_fn_exact
  intro i j
  rw [dif_pos ⟨i.isLt, j.isLt⟩, dif_pos ⟨j.isLt, i.isLt⟩, Cplx.exact_conj, half_sum_exact]
  rfl

end HermitianPart

end OrbitalSpectra
