import OrbitalSpectra.Proofs.Exact.Mirrored
import OrbitalSpectra.Proofs.OccupationsOutcome

set_option autoImplicit false

namespace OrbitalSpectra

section Sums

theorem exact_add_assoc (x y z : Exact) : x + y + z = x + (y + z) := by
  cases x with
  | undefined => rfl
  | value a =>
      cases y with
      | undefined => rfl
      | value b =>
          cases z with
          | undefined => rfl
          | value c => exact congrArg Exact.value (add_assoc a b c)

theorem exact_zero_add (x : Exact) : 0 + x = x := by
  cases x with
  | undefined => rfl
  | value a => exact congrArg Exact.value (zero_add a)

namespace Cplx

theorem conj_add (z w : Cplx Exact) : (z + w).conj = z.conj + w.conj := by
  apply Cplx.ext
  · rfl
  · rw [conj_im, add_im, add_im, conj_im, conj_im]
    cases z.im with
    | undefined => rfl
    | value x =>
        cases w.im with
        | undefined => rfl
        | value y => exact congrArg Exact.value (neg_add x y)

-- Undefined numbers included, so that sums may be taken in any order.
noncomputable instance : AddCommMonoid (Cplx Exact) where
  add_assoc z w v := Cplx.ext (exact_add_assoc z.re w.re v.re) (exact_add_assoc z.im w.im v.im)
  add_comm z w := Cplx.ext (exact_add_comm z.re w.re) (exact_add_comm z.im w.im)
  zero_add z := Cplx.ext (exact_zero_add z.re) (exact_zero_add z.im)
  add_zero z := Cplx.ext ((exact_add_comm z.re 0).trans (exact_zero_add z.re))
    ((exact_add_comm z.im 0).trans (exact_zero_add z.im))
  nsmul := nsmulRec

theorem total_sum (zs : List (Cplx Exact)) : total zs = zs.sum := by
  simpa only [List.map_id_fun, id_eq] using total_map id rfl (fun _ _ => rfl) zs

theorem conj_sum (zs : List (Cplx Exact)) : zs.sum.conj = (zs.map conj).sum := by
  induction zs with
  | nil => exact conj_zero
  | cons z rest ih => rw [List.sum_cons, conj_add, ih, List.map_cons, List.sum_cons]

end Cplx

end Sums

namespace SpinTensor

theorem reversed_shapes {α : Type} (t : SpinTensor α) : t.sectors.reverse.map Mat.shape = t.sectors.map Mat.shape := by
  have shapes : t.sectors.map Mat.shape = List.replicate t.sectors.length (t.dim, t.dim) :=
    List.map_eq_replicate_iff.mpr t.uniform
  rw [List.map_reverse, shapes, List.reverse_replicate]

def exchanged {α : Type} (t : SpinTensor α) : SpinTensor α where
  sectors := t.sectors.reverse
  uniform := uniform_of_shapes t.uniform t.reversed_shapes

theorem exchanged_dim {α : Type} (t : SpinTensor α) : t.exchanged.dim = t.dim := congrArg commonDim t.reversed_shapes

theorem exchanged_shape {α : Type} (t : SpinTensor α) : t.exchanged.shape = t.shape := by
  rw [shape, exchanged_dim, count, exchanged, List.length_reverse, shape, count]

noncomputable def summedDensity (p : SpinTensor (Cplx Exact)) (i j : Nat) : Cplx Exact :=
  (total (p.sectors.map fun m : Mat (Cplx Exact) => m.entry i j + (m.entry j i).conj)).scale 0.5

end SpinTensor

section Summed

variable {p : SpinTensor (Cplx Exact)} {error : SpinTensor Exact}

theorem sum_sectors_entries {n : Nat} (first : Mat (Cplx Exact)) (rest : List (Mat (Cplx Exact)))
    (square : ∀ m ∈ first :: rest, m.shape = (n, n)) : sumSectors (first :: rest) =
      .ok (Mat.ofFn n n fun i j => ((first :: rest).map fun m => m.entry i j).sum) := by
  change rest.foldlM (fun sum m => orFault (sum.add? m)) first = _
  induction rest generalizing first with
  | nil =>
      simp only [List.map_singleton, List.sum_singleton]
      exact congrArg Except.ok (Mat.of_fn_entry first (square first (by simp)))
  | cons second others ih =>
      obtain ⟨head, tail⟩ := List.forall_mem_cons.mp square
      obtain ⟨next, later⟩ := List.forall_mem_cons.mp tail
      have added := Mat.zip_with_of_fn (· + ·) n n first.entry second.entry
      rw [← Mat.of_fn_entry first head, ← Mat.of_fn_entry second next] at added
      rw [List.foldlM_cons, Mat.add?, added]
      refine (ih _ (List.forall_mem_cons.mpr ⟨rfl, later⟩)).trans (congrArg Except.ok (Mat.of_fn_congr ?_))
      intro i j row col
      simp only [List.map_cons, List.sum_cons, Mat.entry_ofFn _ row col, add_assoc]

theorem spin_summed_entries (fits : p.Matches error) :
    spinSummed p error = .ok (Mat.ofFn p.dim p.dim p.summedDensity, error.combinedError) := by
  obtain ⟨first, rest, held⟩ := List.exists_cons_of_length_pos (Nat.pos_of_ne_zero fits.some)
  have summed := sum_sectors_entries first rest (held ▸ p.uniform)
  have combined := symmetric_part_of_fn error.dim error.summedError
  simp only [spinSummed, if_neg ((SpinTensor.matches_iff p error).mp fits), except_bind_ok_iff]
  refine ⟨_, held ▸ summed, _, spin_summed_error_entries fits.count, _, hermitian_part_of_fn _ _, _, combined, ?_⟩
  refine congrArg (fun sum => Except.ok (sum, _)) (Mat.of_fn_congr fun i j _ _ => ?_)
  rw [SpinTensor.summedDensity, Cplx.total_sum, List.sum_map_add, Cplx.conj_sum, List.map_map]
  rfl

end Summed

section Exchange

variable {p : SpinTensor (Cplx Exact)} {error : SpinTensor Exact}

-- Only a pair of errors: of three the first would stand for all.
theorem exchanged_summed_error (pair : error.count = 2) (i j : Nat) :
    error.exchanged.summedError i j = error.summedError i j := by
  obtain ⟨a, b, held⟩ := List.length_eq_two.mp pair
  have reversed : error.exchanged.sectors = [b, a] := congrArg List.reverse held
  simp only [SpinTensor.summedError, held, reversed]
  rw [exact_add_comm]

theorem exchanged_combined_error (pair : error.count = 2) : error.exchanged.combinedError = error.combinedError := by
  rw [SpinTensor.combinedError, SpinTensor.combinedError, error.exchanged_dim]
  simp only [exchanged_summed_error pair]

theorem spin_summed_exchanged (same : p.shape = error.shape) (pair : p.count = 2) :
    spinSummed p.exchanged error.exchanged = spinSummed p error := by
  have fits : p.Matches error := ⟨by omega, same⟩
  have turned : p.exchanged.Matches error.exchanged := by
    have count : p.exchanged.count = p.count := congrArg Prod.fst p.exchanged_shape
    exact ⟨count ▸ fits.some, by rw [p.exchanged_shape, error.exchanged_shape, same]⟩
  have errors : error.count = 2 := (congrArg Prod.fst same).symm.trans pair
  rw [spin_summed_entries fits, spin_summed_entries turned, exchanged_combined_error errors, p.exchanged_dim]
  have density : p.exchanged.summedDensity = p.summedDensity := by
    funext i j
    simp only [SpinTensor.summedDensity, SpinTensor.exchanged, Cplx.total_sum, List.map_reverse, List.sum_reverse]
  rw [density]

theorem spin_sectors_interchangeable (p : SpinTensor (Cplx Exact)) (error : SpinTensor Exact)
    (same : p.shape = error.shape) :
    (p.count = 2 → spinSummed p.exchanged error.exchanged = spinSummed p error ∧
      ∀ (σ : Type) [NormalStream σ Exact] (solver : EigenSolver Exact) (samples : Nat) (factor cutoff : Exact),
        occupationsOf (σ := σ) solver p.exchanged error.exchanged samples factor cutoff =
          occupationsOf solver p error samples factor cutoff) ∧
    (p.count ≠ 0 → ∃ sum e, spinSummed p error = .ok (sum, e) ∧ sum.shape = (p.dim, p.dim) ∧ sum.Mirrored ∧
      e.Symmetric p.dim ∧ ∀ i < p.dim, ∀ j < p.dim, sum.entry i j = p.summedDensity i j) := by
  constructor
  · intro pair
    have exchange := spin_summed_exchanged same pair
    refine ⟨exchange, fun σ _ solver samples factor cutoff => ?_⟩
    simp only [occupationsOf, exchange]
  · intro some
    have summed := spin_summed_entries ⟨some, same⟩
    obtain ⟨mirrored, symmetric⟩ := spin_summed_mirrored summed
    exact ⟨_, _, summed, rfl, mirrored, symmetric, fun i row j col => Mat.entry_ofFn _ row col⟩

-- One entry in each sector, on either side of the diagonal.
noncomputable def skewDensity (z w : ℂ) : SpinTensor (Cplx Exact) where
  sectors := [Mat.exact !![0, z; 0, 0], Mat.exact !![0, 0; w, 0]]
  uniform := List.forall_mem_cons.mpr ⟨rfl, List.forall_mem_singleton.mpr rfl⟩

noncomputable def constantErrors (x y : ℝ) : SpinTensor Exact where
  sectors := [Mat.ofFn 2 2 fun _ _ => .value x, Mat.ofFn 2 2 fun _ _ => .value y]
  uniform := List.forall_mem_cons.mpr ⟨rfl, List.forall_mem_singleton.mpr rfl⟩

theorem exact_sector_entry {n : Nat} (A : Matrix (Fin n) (Fin n) ℂ) (i j : Fin n) :
    (Mat.exact A).entry i j + ((Mat.exact A).entry j i).conj = Cplx.exact (A i j + star (A j i)) := by
  rw [Mat.exact_entry, Mat.exact_entry, Cplx.exact_conj, Cplx.exact_add]

theorem skew_entry (z w : ℂ) : (skewDensity z w).summedDensity 0 1 = Cplx.exact ((z + star w) / 2) := by
  have above := exact_sector_entry !![0, z; 0, 0] 0 1
  have below := exact_sector_entry !![0, 0; w, 0] 0 1
  have listed : ((skewDensity z w).sectors.map fun m => m.entry 0 1 + (m.entry 1 0).conj) =
      [z, star w].map Cplx.exact := by
    refine congrArg₂ (fun z w => [z, w]) (above.trans ?_) (below.trans ?_) <;> simp
  rw [SpinTensor.summedDensity, listed, total_exact, Exact.half_eq, Cplx.exact_scale, List.sum_pair]
  congr 1
  push_cast
  ring

theorem spin_sectors_interchangeable_skew :
    (skewDensity (2 + 4 * Complex.I) 6).exchanged.sectors =
      [Mat.exact !![0, 0; 6, 0], Mat.exact !![0, 2 + 4 * Complex.I; 0, 0]] ∧
    spinSummed (skewDensity (2 + 4 * Complex.I) 6).exchanged (constantErrors 3 4).exchanged =
      spinSummed (skewDensity (2 + 4 * Complex.I) 6) (constantErrors 3 4) ∧
    ∃ sum e, spinSummed (skewDensity (2 + 4 * Complex.I) 6) (constantErrors 3 4) = .ok (sum, e) ∧
      sum.entry 0 1 = Cplx.exact (4 + 2 * Complex.I) ∧ sum.entry 1 0 = Cplx.exact (4 - 2 * Complex.I) := by
  obtain ⟨exchange, entries⟩ :=
    spin_sectors_interchangeable (skewDensity (2 + 4 * Complex.I) 6) (constantErrors 3 4) rfl
  obtain ⟨sum, e, summed, shape, mirrored, _, entry⟩ := entries (by decide)
  have rows : sum.rows = 2 := congrArg Prod.fst shape
  have upper : sum.entry 0 1 = Cplx.exact (4 + 2 * Complex.I) := by
    rw [entry 0 (by decide) 1 (by decide), skew_entry]
    congr 1
    apply Complex.ext <;> norm_num
  refine ⟨rfl, (exchange rfl).1, sum, e, summed, upper, ?_⟩
  rw [← mirrored.turned (rows ▸ by decide) (rows ▸ by decide), upper, Cplx.exact_conj]
  simp [sub_eq_add_neg]

end Exchange

end OrbitalSpectra
