import OrbitalSpectra.Hermitian
import OrbitalSpectra.Proofs.Exact.Scaling
import OrbitalSpectra.Proofs.MappedRuns
import OrbitalSpectra.Screening

set_option autoImplicit false

namespace OrbitalSpectra

namespace Mat

section Maps

variable {α β γ δ : Type}

theorem entry_map [Zero α] [Zero β] {f : α → β} (zero : f 0 = 0) (m : Mat α) (i j : Nat) :
    (m.map f).entry i j = f (m.entry i j) := by
  rw [entry, get_map, entry]
  cases m.get? i j with
  | none => exact zero.symm
  | some x => rfl

theorem zip_with_map {f : α → β → γ} {g : α → α} {h : β → β} {k : γ → γ} (through : ∀ x y, f (g x) (h y) = k (f x y))
    (a : Mat α) (b : Mat β) : zipWith? f (a.map g) (b.map h) = (zipWith? f a b).map (map k) := by
  by_cases shapes : a.rows = b.rows ∧ a.cols = b.cols
  · have same : (a.map g).rows = (b.map h).rows ∧ (a.map g).cols = (b.map h).cols := shapes
    rw [zipWith?, zipWith?, dif_pos shapes, dif_pos same, Option.map_some]
    congr 1
    simp only [map, mk.injEq, true_and]
    apply Array.ext
    · simp
    · intro i left right
      simp [through]
  · have differ : ¬ ((a.map g).rows = (b.map h).rows ∧ (a.map g).cols = (b.map h).cols) := shapes
    rw [zipWith?, zipWith?, dif_neg shapes, dif_neg differ, Option.map_none]

theorem map_map (f : α → β) (g : β → γ) (m : Mat α) : (m.map f).map g = m.map (g ∘ f) := by
  simp [map]

theorem map_id (m : Mat α) : m.map id = m := by
  refine ext rfl rfl fun i j _ _ => ?_
  rw [get_map, Option.map_id, id_eq]

end Maps

variable {a : ℝ}

theorem unit_sum_times (f : Nat → Cplx Exact) (n : Nat) :
    unitSum (fun k => Cplx.times a (f k)) n = Cplx.times a (unitSum f n) := by
  fun_induction unitSum f n with
  | case1 => exact Cplx.times_zero.symm
  | case2 => rfl
  | case3 n ih => rw [unitSum, ih, Cplx.mul_times, Cplx.times_add]

theorem times_mul (x y : Mat (Cplx Exact)) :
    (x.map (Cplx.times a)).mul? y = (x.mul? y).map (map (Cplx.times a)) := by
  by_cases fits : x.cols = y.rows
  · rw [mul?, mul?, if_pos fits, if_pos (show (x.map (Cplx.times a)).cols = y.rows from fits), Option.map_some,
      map_of_fn]
    simp only [entry_map Cplx.times_zero, Cplx.mul_times, Cplx.times_mul, unit_sum_times, map_rows, map_cols]
  · rw [mul?, mul?, if_neg fits, if_neg (show ¬ (x.map (Cplx.times a)).cols = y.rows from fits), Option.map_none]

theorem mul_times (x y : Mat (Cplx Exact)) :
    x.mul? (y.map (Cplx.times a)) = (x.mul? y).map (map (Cplx.times a)) := by
  by_cases fits : x.cols = y.rows
  · rw [mul?, mul?, if_pos fits, if_pos (show x.cols = (y.map (Cplx.times a)).rows from fits), Option.map_some,
      map_of_fn]
    simp only [entry_map Cplx.times_zero, Cplx.mul_times, unit_sum_times, map_cols]
  · rw [mul?, mul?, if_neg fits, if_neg (show ¬ x.cols = (y.map (Cplx.times a)).rows from fits), Option.map_none]

theorem adjoint_times (x : Mat (Cplx Exact)) : (x.map (Cplx.times a)).adjoint = x.adjoint.map (Cplx.times a) := by
  rw [adjoint, adjoint, map_of_fn]
  simp only [entry_map Cplx.times_zero, Cplx.times_conj, map_rows, map_cols]

theorem transpose_times (x : Mat Exact) : (x.map (Exact.times a)).transpose = x.transpose.map (Exact.times a) := by
  rw [transpose, transpose, map_of_fn]
  simp only [entry_map Exact.times_zero, map_rows, map_cols]

end Mat

section Matrices

variable {a : ℝ}

theorem hermitian_part_times (m : Mat (Cplx Exact)) :
    hermitianPart (m.map (Cplx.times a)) = (hermitianPart m).map (Mat.map (Cplx.times a)) := by
  rw [hermitianPart, Mat.adjoint_times, Mat.add?, Mat.zip_with_map Cplx.times_add, or_fault_map, hermitianPart, Mat.add?]
  cases orFault (Mat.zipWith? (· + ·) m m.adjoint) with
  | error e => rfl
  | ok sum =>
      refine congrArg Except.ok ?_
      simp only [Mat.map_map, Function.comp_def, Cplx.times_scale]

theorem symmetric_part_times (m : Mat Exact) :
    symmetricPart (m.map (Exact.times a)) = (symmetricPart m).map (Mat.map (Exact.times a)) := by
  rw [symmetricPart, Mat.transpose_times, Mat.add?, Mat.zip_with_map Exact.times_add, or_fault_map, symmetricPart,
    Mat.add?]
  cases orFault (Mat.zipWith? (· + ·) m m.transpose) with
  | error e => rfl
  | ok sum =>
      refine congrArg Except.ok ?_
      simp only [Mat.map_map, Function.comp_def, Exact.times_mul]

variable (positive : 0 < a)

include positive

theorem screen_entry_times (factor : Exact) (z : Cplx Exact) (e : Exact) :
    screenEntry factor (Cplx.times a z) (Exact.times a e) = Cplx.times a (screenEntry factor z e) := by
  by_cases small : z.abs < factor * e
  · have still : (Cplx.times a z).abs < factor * Exact.times a e := by
      rwa [Cplx.times_abs _ positive, Exact.mul_times, Exact.times_lt _ _ positive]
    rw [screenEntry, screenEntry, if_pos small, if_pos still, Cplx.times_zero]
  · have still : ¬ (Cplx.times a z).abs < factor * Exact.times a e := by
      rwa [Cplx.times_abs _ positive, Exact.mul_times, Exact.times_lt _ _ positive]
    rw [screenEntry, screenEntry, if_neg small, if_neg still]

theorem kept_times (z : Cplx Exact) : (Cplx.times a z).isKept = z.isKept := by
  have zero : (0 : Exact) = Exact.times a 0 := Exact.times_zero.symm
  have same : (Cplx.times a z).abs ≤ 0 ↔ z.abs ≤ 0 := by
    rw [Cplx.times_abs _ positive]
    conv_lhs => rw [zero]
    exact Exact.times_le _ _ positive
  simp only [Cplx.isKept, same]

theorem kept_count_times (m : Mat (Cplx Exact)) : (m.map (Cplx.times a)).keptCount = m.keptCount := by
  simp only [Mat.keptCount, Mat.toList, Mat.map, Array.toList_map, List.countP_map, Function.comp_def,
    kept_times positive]

theorem screen_matrix_times (m : Mat (Cplx Exact)) (error : Mat Exact) (factor : Exact) :
    screenMatrix (m.map (Cplx.times a)) (error.map (Exact.times a)) factor =
      (screenMatrix m error factor).map fun held => (held.1.map (Cplx.times a), held.2) := by
  rw [screenMatrix, Mat.zip_with_map (screen_entry_times positive factor), screenMatrix]
  cases Mat.zipWith? (screenEntry factor) m error with
  | none => rfl
  | some screened =>
      change Except.ok (screened.map (Cplx.times a), (screened.map (Cplx.times a)).keptCount) = _
      rw [kept_count_times positive]
      rfl

end Matrices

end OrbitalSpectra
