import OrbitalSpectra.Proofs.Bootstrap.Verdicts
import OrbitalSpectra.Proofs.Exact.ScaledMatrix

set_option autoImplicit false

namespace OrbitalSpectra

variable {σ : Type}

section Draws

variable [NormalStream σ Exact] {a : ℝ} (m : Mat (Cplx Exact)) (error : Mat Exact)

theorem draw_entry_times (i j : Nat) (state : σ) :
    drawEntry (m.map (Cplx.times a)) (error.map (Exact.times a)) i j state =
      ((drawEntry m error i j state).1.map (Exact.times a), (drawEntry m error i j state).2) := by
  simp only [drawEntry, Mat.entry_map Exact.times_zero, Mat.entry_map Cplx.times_zero, Exact.times_finite]
  split
  · simp only [Cplx.times_re, Exact.times_mul, Exact.times_add, Except.map]
  · rfl

theorem draw_entries_times (places : List (Nat × Nat)) (state : σ) :
    drawEntries (m.map (Cplx.times a)) (error.map (Exact.times a)) places state =
      ((drawEntries m error places state).1.map (List.map (Exact.times a)), (drawEntries m error places state).2) := by
  induction places generalizing state with
  | nil => rfl
  | cons place rest ih =>
      obtain ⟨i, j⟩ := place
      simp only [drawEntries, draw_entry_times]
      cases drawEntry m error i j state with
      | mk outcome next =>
          cases outcome with
          | error e => rfl
          | ok x =>
              simp only [Except.map, ih]
              cases drawEntries m error rest next with
              | mk others final => cases others <;> rfl

theorem sample_matrix_times (state : σ) :
    sampleMatrix (m.map (Cplx.times a)) (error.map (Exact.times a)) state =
      ((sampleMatrix m error state).1.map (Mat.map (Cplx.times a)), (sampleMatrix m error state).2) := by
  by_cases odd : m.cols ≠ m.rows ∨ error.shape ≠ m.shape
  · have still : (m.map (Cplx.times a)).cols ≠ (m.map (Cplx.times a)).rows ∨
        (error.map (Exact.times a)).shape ≠ (m.map (Cplx.times a)).shape := odd
    simp only [sampleMatrix, if_pos odd, if_pos still]
    rfl
  · have still : ¬ ((m.map (Cplx.times a)).cols ≠ (m.map (Cplx.times a)).rows ∨
        (error.map (Exact.times a)).shape ≠ (m.map (Cplx.times a)).shape) := odd
    simp only [sampleMatrix, if_neg odd, if_neg still]
    simp only [draw_entries_times, Mat.map_rows]
    cases drawEntries m error (columnPlaces m.rows) state with
    | mk outcome next =>
        cases outcome with
        | error e => rfl
        | ok xs =>
            have drawn (k : Nat) : (xs.map (Exact.times a)).toArray.getD k 0 = Exact.times a (xs.toArray.getD k 0) := by
              by_cases inside : k < xs.length
              · simp [Array.getD_eq_getD_getElem?, inside]
              · simp [Array.getD_eq_getD_getElem?, inside]
            have matrix : (Mat.ofFn m.rows m.rows fun i j =>
                  Cplx.ofReal ((xs.map (Exact.times a)).toArray.getD (j * m.rows + i) 0)) =
                (Mat.ofFn m.rows m.rows fun i j => Cplx.ofReal (xs.toArray.getD (j * m.rows + i) 0)).map
                  (Cplx.times a) := by
              rw [Mat.map_of_fn]
              apply Mat.of_fn_congr
              intro i j _ _
              rw [drawn]
              exact Cplx.ext rfl Exact.times_zero.symm
            simp only [Except.map]
            rw [matrix, hermitian_part_times]
            rfl

theorem sampled_times : Sampling.ofDraw (sampleMatrix (σ := σ) (m.map (Cplx.times a)) (error.map (Exact.times a))) =
    Mat.map (Cplx.times a) <$> Sampling.ofDraw (sampleMatrix m error) :=
  Sampling.of_draw_map (sample_matrix_times m error)

end Draws

-- Whether an entry can be drawn is decided by its deviation being finite, which a factor does not change.
theorem sample_verdict_times (m : Mat (Cplx Exact)) (error : Mat Exact) (a : ℝ) :
    sampleVerdict m (error.map (Exact.times a)) = sampleVerdict m error := by
  have refused : refusedPlace (error.map (Exact.times a)) = refusedPlace error := by
    funext place
    rw [refusedPlace, Mat.entry_map Exact.times_zero, Exact.times_finite, refusedPlace]
  rw [sampleVerdict, refused, sampleVerdict]
  rfl

end OrbitalSpectra
