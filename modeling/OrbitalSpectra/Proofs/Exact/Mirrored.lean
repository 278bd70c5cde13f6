import OrbitalSpectra.Proofs.Exact.Undefined
import OrbitalSpectra.Proofs.KeptOccupations
import OrbitalSpectra.Proofs.Koopmans.SectorData

set_option autoImplicit false

namespace OrbitalSpectra

open Matrix

namespace Cplx

theorem conj_half_sum (z w : Cplx Exact) : ((z + w.conj).scale 0.5).conj = (w + z.conj).scale 0.5 := by
  apply Cplx.ext
  · exact congrArg (· * 0.5) (exact_add_comm z.re w.re)
  · rw [conj_im, scale_im, scale_im, add_im, add_im, conj_im, conj_im, Exact.half_eq]
    cases z.im with
    | undefined => cases w.im <;> rfl
    | value x =>
        cases w.im with
        | undefined => rfl
        | value y => exact congrArg Exact.value (by ring)

theorem conj_sub (z w : Cplx Exact) : (z - w).conj = z.conj - w.conj := by
  apply Cplx.ext
  · rfl
  · rw [conj_im, sub_im, sub_im, conj_im, conj_im]
    cases z.im with
    | undefined => rfl
    | value x =>
        cases w.im with
        | undefined => rfl
        | value y => exact congrArg Exact.value (by ring)

theorem conj_abs_eq (z : Cplx Exact) : z.conj.abs = z.abs := by
  obtain ⟨_ | x, _ | y⟩ := z
  · rfl
  · rfl
  · rfl
  · exact congrArg (fun s => Exact.value (Real.sqrt (x * x + s))) (neg_mul_neg y y)

theorem conj_zero : (0 : Cplx Exact).conj = 0 := Cplx.ext rfl (congrArg Exact.value neg_zero)

theorem conj_one : (1 : Cplx Exact).conj = 1 := Cplx.ext rfl (congrArg Exact.value neg_zero)

theorem screen_entry_conj (factor e : Exact) (z : Cplx Exact) :
    (screenEntry factor z e).conj = screenEntry factor z.conj e := by
  rw [screenEntry, screenEntry, conj_abs_eq]
  split
  · exact conj_zero
  · rfl

end Cplx

theorem adjoint_entry (m : Mat (Cplx Exact)) {i j : Nat} (row : i < m.cols) (col : j < m.rows) :
    m.adjoint.entry i j = (m.entry j i).conj := Mat.entry_ofFn _ row col

def Mat.Mirrored (m : Mat (Cplx Exact)) : Prop := m.adjoint = m

section Mirrored

theorem mirrored_exact_iff {n : Nat} (A : Matrix (Fin n) (Fin n) ℂ) : (Mat.exact A).Mirrored ↔ A.IsHermitian := by
  rw [Mat.Mirrored, Mat.exact_adjoint]
  exact Mat.exact_injective.eq_iff

theorem mirrored_of_fn {n : Nat} {f : Nat → Nat → Cplx Exact}
    (turned : ∀ i j, i < n → j < n → (f j i).conj = f i j) : (Mat.ofFn n n f).Mirrored := by
  rw [Mat.Mirrored, adjoint_of_fn]
  exact Mat.of_fn_congr turned

variable {m : Mat (Cplx Exact)}

theorem Mat.Mirrored.square (mirrored : m.Mirrored) : m.shape = (m.rows, m.rows) :=
  congrArg (m.rows, ·) (congrArg rows mirrored)

theorem Mat.Mirrored.turned (mirrored : m.Mirrored) {i j : Nat} (row : i < m.rows) (col : j < m.rows) :
    (m.entry j i).conj = m.entry i j := by
  have width : m.cols = m.rows := congrArg rows mirrored
  conv_rhs => rw [← (show m.adjoint = m from mirrored), adjoint_entry m (width ▸ row) col]

theorem hermitian_part_mirrored {h : Mat (Cplx Exact)} (ok : hermitianPart m = .ok h) : h.Mirrored := by
  have square : m.shape = (m.rows, m.rows) := by
    simp only [hermitianPart, except_bind_ok_iff, or_fault_ok_iff, Mat.add?] at ok
    obtain ⟨sum, added, _⟩ := ok
    unfold Mat.zipWith? at added
    split at added
    · rename_i shapes
      exact congrArg (m.rows, ·) shapes.1.symm
    · cases added
  rw [Mat.of_fn_entry m square, hermitian_part_of_fn] at ok
  cases ok
  exact mirrored_of_fn fun i j _ _ => Cplx.conj_half_sum _ _

theorem screen_matrix_mirrored {e : Mat Exact} {factor : Exact} {screened : Mat (Cplx Exact)} {kept : Nat}
    (mirrored : m.Mirrored) (symmetric : e.Symmetric m.rows)
    (ok : screenMatrix m e factor = .ok (screened, kept)) : screened.Mirrored := by
  obtain ⟨count, found⟩ := screen_matrix_of_fn factor m.rows m.entry e.entry
  rw [← Mat.of_fn_entry m mirrored.square, ← Mat.of_fn_entry e symmetric.square, ok] at found
  cases found
  apply mirrored_of_fn
  intro i j row col
  rw [← mirrored.turned row col, Cplx.screen_entry_conj, symmetric.turned ⟨i, row⟩ ⟨j, col⟩]

theorem spin_summed_mirrored {p : SpinTensor (Cplx Exact)} {error : SpinTensor Exact} {sum : Mat (Cplx Exact)}
    {e : Mat Exact} (ok : spinSummed p error = .ok (sum, e)) : sum.Mirrored ∧ e.Symmetric sum.rows := by
  by_cases odd : p.count = 0 ∨ p.shape ≠ error.shape
  · simp only [spinSummed, if_pos odd] at ok
    cases ok
  · obtain ⟨some, same⟩ := not_or.mp odd
    have shapes := not_ne_iff.mp same
    obtain ⟨_, _, again, square, _⟩ := spin_summed_square some shapes
    cases Except.ok.inj (ok.symm.trans again)
    simp only [SpinTensor.shape, Prod.mk.injEq] at shapes
    simp only [spinSummed, if_neg odd, except_bind_ok_iff] at ok
    obtain ⟨_, _, summedError, errors, _, made, _, turned, pair⟩ := ok
    obtain ⟨rfl, rfl⟩ := Prod.mk.inj (Except.ok.inj pair)
    obtain ⟨_, found, shape⟩ := spin_summed_error_square (shapes.1 ▸ some) error.uniform
    cases Except.ok.inj (errors.symm.trans found)
    change summedError.shape = (error.dim, error.dim) at shape
    rw [← shapes.2.1, ← (Prod.mk.inj square).1] at shape
    exact ⟨hermitian_part_mirrored made, symmetric_part_symmetric turned shape⟩

theorem sample_matrix_mirrored {σ : Type} [NormalStream σ Exact] {e : Mat Exact} {state next : σ}
    {drawn : Mat (Cplx Exact)} (sampled : sampleMatrix m e state = (.ok drawn, next)) : drawn.Mirrored := by
  obtain ⟨_, _, _, made, _⟩ := (sample_matrix_ok_iff _ _ _ _ _).mp sampled
  exact hermitian_part_mirrored made

theorem hole_density_mirrored {hole : Mat (Cplx Exact)} (mirrored : m.Mirrored) (ok : holeDensity m = .ok hole) :
    hole.Mirrored := by
  rw [holeDensity, or_fault_ok_iff, Mat.identity, Mat.transpose, (Prod.mk.inj mirrored.square).2, Mat.sub?,
    Mat.zip_with_of_fn] at ok
  cases ok
  apply mirrored_of_fn
  intro i j row col
  have unit : (if j = i then 1 else 0 : Cplx Exact).conj = if i = j then 1 else 0 := by
    rw [apply_ite Cplx.conj, Cplx.conj_one, Cplx.conj_zero]
    exact if_congr eq_comm rfl rfl
  rw [Cplx.conj_sub, mirrored.turned col row, unit]

-- Entries that are numbers under a condition and with a value that go over into each other across the diagonal.
theorem mirrored_of_numbers {n : Nat} {p : Nat → Nat → Prop} {a : Nat → Nat → ℂ} (square : m.shape = (n, n))
    (entry : ∀ i j, i < n → j < n → (m.entry i j).NumberIf (p i j) (a i j)) (even : ∀ i j, p i j → p j i)
    (turned : ∀ i j, star (a j i) = a i j) : m.Mirrored := by
  rw [Mat.of_fn_entry m square]
  apply mirrored_of_fn
  intro i j row col
  exact (entry j i col row).conj.unique (entry i j row col) ⟨even j i, even i j⟩ (turned i j)

theorem reconstruction_mirrored {e : Eigensystem Exact} {kept : List Nat} (rebuilt : e.reconstruction kept = .ok m) :
    m.Mirrored := by
  rw [Eigensystem.reconstruction, or_fault_ok_iff] at rebuilt
  let u (i k : Nat) : Cplx Exact := (e.columns kept).entry i k
  let v (k : Nat) : Exact := e.value (kept.getD k 0)
  have numbers (i j : Nat) (row : i < e.vectors.rows) (col : j < e.vectors.rows) :
      (m.entry i j).NumberIf (∀ k < kept.length, ((u i k).Whole ∧ (v k).IsNumber) ∧ (u j k).Whole)
        (∑ k ∈ Finset.range kept.length, (u i k).number * (v k).real * star (u j k).number) := by
    refine product_entry rebuilt rfl row col (fun k inside => ?_) fun k inside => ?_
    · rw [Mat.entry_ofFn _ row inside]
      exact (u i k).reads_itself.scale (v k)
    · rw [adjoint_entry (e.columns kept) inside col]
      exact (u j k).reads_itself.conj
  refine mirrored_of_numbers (product_shape rebuilt) numbers (fun i j held => ?_) fun i j => ?_
  · intro k inside
    obtain ⟨⟨row, value⟩, col⟩ := held k inside
    exact ⟨⟨col, value⟩, row⟩
  · rw [star_sum]
    refine Finset.sum_congr rfl fun k _ => ?_
    rw [star_mul', star_mul', star_star, Complex.star_def, Complex.conj_ofReal]
    ring

-- Both factors of an entry are numbers when its two columns and the whole matrix between them are.
theorem projection_mirrored {x left product : Mat (Cplx Exact)} (mirrored : m.Mirrored)
    (first : x.adjoint.mul? m = some left) (second : left.mul? x = some product) : product.Mirrored := by
  obtain ⟨rows, cols⟩ := Prod.mk.inj (product_shape first)
  change left.rows = x.cols at rows
  have height : x.rows = m.rows := product_inner first
  have width : m.cols = m.rows := (Prod.mk.inj mirrored.square).2
  have numbers (i j : Nat) (row : i < x.cols) (col : j < x.cols) :
      (product.entry i j).NumberIf
        (∀ l < m.rows, (∀ k < m.rows, (x.entry k i).Whole ∧ (m.entry k l).Whole) ∧ (x.entry l j).Whole)
        (∑ l ∈ Finset.range m.rows,
          (∑ k ∈ Finset.range m.rows, star (x.entry k i).number * (m.entry k l).number) * (x.entry l j).number) := by
    refine product_entry second (cols.trans width) (rows ▸ row) col (fun l inside => ?_)
      fun l _ => (x.entry l j).reads_itself
    refine (product_entry first height row (width ▸ inside) (fun k below => ?_)
      fun k _ => (m.entry k l).reads_itself).reads
    rw [adjoint_entry x row (height ▸ below)]
    exact (x.entry k i).reads_itself.conj
  have across {k l : Nat} (row : k < m.rows) (col : l < m.rows) :
      (m.entry k l).conj = m.entry l k := mirrored.turned col row
  refine mirrored_of_numbers ((product_shape second).trans (congrArg (·, x.cols) rows)) numbers
    (fun i j held => ?_) fun i j => ?_
  · intro l inside
    refine ⟨fun k below => ⟨(held k below).2, ?_⟩, ((held l inside).1 l inside).1⟩
    rw [← across inside below]
    exact ((held k below).1 l inside).2.conj
  · simp only [star_sum, star_mul', star_star, Finset.sum_mul]
    rw [Finset.sum_comm]
    refine Finset.sum_congr rfl fun l outer => Finset.sum_congr rfl fun k inner => ?_
    rw [← Cplx.conj_number, across (Finset.mem_range.mp outer) (Finset.mem_range.mp inner)]
    ring

end Mirrored

end OrbitalSpectra
