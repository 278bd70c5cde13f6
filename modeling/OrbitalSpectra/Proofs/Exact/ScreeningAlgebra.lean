import OrbitalSpectra.Proofs.KeptOccupations
import OrbitalSpectra.Proofs.ScreenedTensors

set_option autoImplicit false

namespace OrbitalSpectra

open Matrix AnalysisError

section Threshold

variable {a b : ℝ} {z : ℂ}

noncomputable def threshold (bound : ℝ) (z : ℂ) : ℂ := if ‖z‖ < bound then 0 else z

theorem threshold_kept (above : b ≤ ‖z‖) : threshold b z = z := if_neg above.not_gt

theorem threshold_dropped (below : ‖z‖ < b) : threshold b z = 0 := if_pos below

theorem threshold_zero (b : ℝ) : threshold b 0 = 0 := ite_self 0

theorem threshold_again (a b : ℝ) (z : ℂ) : threshold b (threshold a z) = threshold (max a b) z := by
  by_cases below : ‖z‖ < a
  · rw [threshold_dropped below, threshold_zero, threshold_dropped (below.trans_le (le_max_left a b))]
  · have above := not_lt.mp below
    rw [threshold_kept above]
    by_cases smaller : ‖z‖ < b
    · rw [threshold_dropped smaller, threshold_dropped (smaller.trans_le (le_max_right a b))]
    · have both := max_le above (not_lt.mp smaller)
      rw [threshold_kept (not_lt.mp smaller), threshold_kept both]

theorem threshold_nonzero_of_le (order : a ≤ b) (nonzero : threshold b z ≠ 0) : threshold a z ≠ 0 := by
  by_cases below : ‖z‖ < b
  · exact absurd (threshold_dropped below) nonzero
  · have above := not_lt.mp below
    rw [threshold_kept above] at nonzero
    rwa [threshold_kept (order.trans above)]

end Threshold

variable {r c : Nat}

noncomputable def Mat.numbers (E : Matrix (Fin r) (Fin c) ℝ) : Mat Exact :=
  (exact (E.map Complex.ofReal)).map Cplx.re

theorem numbers_shape (E : Matrix (Fin r) (Fin c) ℝ) : (Mat.numbers E).shape = (r, c) := rfl

theorem numbers_get (E : Matrix (Fin r) (Fin c) ℝ) (i : Fin r) (j : Fin c) :
    (Mat.numbers E).get? i j = some (.value (E i j)) := by
  have inside : (i : Nat) < r ∧ (j : Nat) < c := ⟨i.isLt, j.isLt⟩
  rw [Mat.numbers, Mat.get_map, Mat.exact, Mat.get_of_fn, if_pos inside, dif_pos inside]
  rfl

theorem numbers_entry (E : Matrix (Fin r) (Fin c) ℝ) (i : Fin r) (j : Fin c) :
    (Mat.numbers E).entry i j = .value (E i j) := by
  rw [Mat.entry, numbers_get, Option.getD_some]

noncomputable def thresholded (factor : ℝ) (E : Matrix (Fin r) (Fin c) ℝ) (A : Matrix (Fin r) (Fin c) ℂ) :
    Matrix (Fin r) (Fin c) ℂ :=
  of fun i j => threshold (factor * E i j) (A i j)

noncomputable def nonzeroPlaces (A : Matrix (Fin r) (Fin c) ℂ) : Finset (Fin r × Fin c) :=
  Finset.univ.filter fun place => A place.1 place.2 ≠ 0

section Stored

theorem modulus_exact (z : ℂ) : (Cplx.exact z).abs = .value ‖z‖ := by
  rw [Complex.norm_def, Complex.normSq_apply]
  rfl

theorem screen_entry_numbers (factor e : ℝ) (z : ℂ) :
    screenEntry (.value factor) (Cplx.exact z) (.value e) = Cplx.exact (threshold (factor * e) z) := by
  rw [screenEntry, modulus_exact, Exact.value_mul]
  by_cases below : ‖z‖ < factor * e
  · rw [if_pos (Exact.value_lt _ _ |>.mpr below), threshold_dropped below, Cplx.exact_zero]
  · rw [if_neg (fun held => below ((Exact.value_lt _ _).mp held)), threshold_kept (not_lt.mp below)]

theorem kept_count_exact (A : Matrix (Fin r) (Fin c) ℂ) : (Mat.exact A).keptCount = (nonzeroPlaces A).card := by
  have kept (i : Fin r) (j : Fin c) : ((Mat.exact A).get? i j).any Cplx.isKept = decide (A i j ≠ 0) := by
    have inside : (i : Nat) < r ∧ (j : Nat) < c := ⟨i.isLt, j.isLt⟩
    rw [Mat.exact, Mat.get_of_fn, if_pos inside, dif_pos inside, Option.any_some, Bool.eq_iff_iff, exact_kept_iff,
      decide_eq_true_iff, ← Cplx.exact_zero, Cplx.exact_injective.ne_iff]
  rw [kept_count_places, Mat.keptPlaces, Finset.card_filter, Finset.sum_product, Mat.exact_rows, Mat.exact_cols,
    Finset.sum_range, nonzeroPlaces, Finset.card_filter, Fintype.sum_prod_type]
  refine Finset.sum_congr rfl fun i _ => ?_
  rw [Finset.sum_range]
  refine Finset.sum_congr rfl fun j _ => ?_
  simp only [kept, decide_eq_true_iff]

theorem screen_matrix_numbers (factor : ℝ) (E : Matrix (Fin r) (Fin c) ℝ) (A : Matrix (Fin r) (Fin c) ℂ) :
    screenMatrix (Mat.exact A) (Mat.numbers E) (.value factor) =
      .ok (Mat.exact (thresholded factor E A), (nonzeroPlaces (thresholded factor E A)).card) := by
  have zipped : Mat.zipWith? (screenEntry (.value factor)) (Mat.exact A) (Mat.numbers E) =
      some (Mat.exact (thresholded factor E A)) := by
    rw [Mat.of_fn_entry (Mat.numbers E) (numbers_shape E), Mat.exact, Mat.zip_with_of_fn, Option.some.injEq]
    apply Mat.of_fn_exact
    intro i j
    rw [dif_pos ⟨i.isLt, j.isLt⟩, numbers_entry, screen_entry_numbers]
    rfl
  rw [screenMatrix, zipped, ← kept_count_exact]

theorem thresholded_again {E : Matrix (Fin r) (Fin c) ℝ} (nonneg : ∀ i j, 0 ≤ E i j) (f g : ℝ)
    (A : Matrix (Fin r) (Fin c) ℂ) : thresholded g E (thresholded f E A) = thresholded (max f g) E A := by
  ext i j
  simp only [thresholded, of_apply, threshold_again, max_mul_of_nonneg f g (nonneg i j)]

theorem thresholded_nested {E : Matrix (Fin r) (Fin c) ℝ} (nonneg : ∀ i j, 0 ≤ E i j) {f g : ℝ} (order : f ≤ g)
    (A : Matrix (Fin r) (Fin c) ℂ) : nonzeroPlaces (thresholded g E A) ⊆ nonzeroPlaces (thresholded f E A) := by
  refine Finset.monotone_filter_right _ fun place _ nonzero => ?_
  exact threshold_nonzero_of_le (mul_le_mul_of_nonneg_right order (nonneg place.1 place.2)) nonzero

end Stored

-- Screening leaves `B` of `A` and counts the entries of `B` that are not zero.
def Screens (E : Matrix (Fin r) (Fin c) ℝ) (factor : ℝ) (A B : Matrix (Fin r) (Fin c) ℂ) : Prop :=
  screenMatrix (Mat.exact A) (Mat.numbers E) (.value factor) = .ok (Mat.exact B, (nonzeroPlaces B).card)

theorem screens_iff {E : Matrix (Fin r) (Fin c) ℝ} {factor : ℝ} {A B : Matrix (Fin r) (Fin c) ℂ} :
    Screens E factor A B ↔ thresholded factor E A = B := by
  rw [Screens, screen_matrix_numbers]
  constructor
  · intro same
    exact Mat.exact_injective (Prod.mk.inj (Except.ok.inj same)).1
  · rintro rfl
    rfl

-- What two factors leave of `A`: the first `B`, the second `C`, the larger of them `D`.
structure TwoFactors (E : Matrix (Fin r) (Fin c) ℝ) (f g : ℝ) (A B C D : Matrix (Fin r) (Fin c) ℂ) : Prop where
  first : Screens E f A B
  second : Screens E g A C
  larger : Screens E (max f g) A D
  firstThenSecond : Screens E g B D
  secondThenFirst : Screens E f C D
  firstAgain : Screens E f B B
  nested : f ≤ g → nonzeroPlaces C ⊆ nonzeroPlaces B
  fewer : f ≤ g → (nonzeroPlaces C).card ≤ (nonzeroPlaces B).card
  unchanged : ∀ i j, f * E i j ≤ ‖A i j‖ → B i j = A i j
  dropped : ∀ i j, ‖A i j‖ < f * E i j → B i j = 0

-- A matrix that does not fit its errors is refused, and a list of matrices keeps it as it was.
structure RefusedUnchanged (m : Mat (Cplx Exact)) (e : Mat Exact) (factor : Exact) : Prop where
  refused : screenMatrix m e factor = .error (shapeMismatch "screened matrix" m.size e.size)
  unchanged : ∀ ms es, screenSectors factor (m :: ms) (e :: es) =
    (m :: ms, .error (shapeMismatch "screened matrix" m.size e.size))

theorem screen_matrix_refused {m : Mat (Cplx Exact)} {e : Mat Exact} (misfit : m.shape ≠ e.shape) (factor : Exact) :
    RefusedUnchanged m e factor := by
  have refused := screen_matrix_misfit factor misfit
  refine ⟨refused, fun ms es => ?_⟩
  rw [screenSectors, refused]

theorem screening_algebra (E : Matrix (Fin r) (Fin c) ℝ) (nonneg : ∀ i j, 0 ≤ E i j) (A : Matrix (Fin r) (Fin c) ℂ)
    (f g : ℝ) :
    (∃ B C D, TwoFactors E f g A B C D) ∧
      ∀ (m : Mat (Cplx Exact)) (e : Mat Exact) (factor : Exact), m.shape ≠ e.shape → RefusedUnchanged m e factor := by
  refine ⟨⟨thresholded f E A, thresholded g E A, thresholded (max f g) E A, ?_⟩,
    fun _ _ factor misfit => screen_matrix_refused misfit factor⟩
  have nested (order : f ≤ g) := thresholded_nested nonneg order A
  exact {
    first := screens_iff.mpr rfl
    second := screens_iff.mpr rfl
    larger := screens_iff.mpr rfl
    firstThenSecond := screens_iff.mpr (thresholded_again nonneg f g A)
    secondThenFirst := screens_iff.mpr (by rw [thresholded_again nonneg, max_comm])
    firstAgain := screens_iff.mpr (by rw [thresholded_again nonneg, max_self])
    nested := nested
    fewer := fun order => Finset.card_le_card (nested order)
    unchanged := fun _ _ above => threshold_kept above
    dropped := fun _ _ below => threshold_dropped below }

-- At the bound an entry is left; the larger factor takes it, and the entry without error stays in place.
theorem screening_algebra_row : ∃ B C D : Matrix (Fin 1) (Fin 3) ℂ,
    TwoFactors !![1, 2, 0] 2 3 !![2, Complex.I, 1] B C D ∧ B = !![2, 0, 1] ∧ C = !![0, 0, 1] ∧
      RefusedUnchanged (Mat.exact !![2, Complex.I, (1 : ℂ)]) (Mat.numbers !![(1 : ℝ)]) (.value 2) := by
  have nonneg : ∀ i j, (0 : ℝ) ≤ (!![1, 2, 0] : Matrix (Fin 1) (Fin 3) ℝ) i j := by
    intro i j
    fin_cases i
    fin_cases j <;> simp
  obtain ⟨⟨B, C, D, both⟩, refused⟩ := screening_algebra !![1, 2, 0] nonneg !![2, Complex.I, 1] 2 3
  refine ⟨B, C, D, both, ?_, ?_, refused _ _ _ ?_⟩
  · rw [← screens_iff.mp both.first]
    ext i j
    fin_cases i
    fin_cases j <;> norm_num [thresholded, threshold]
  · rw [← screens_iff.mp both.second]
    ext i j
    fin_cases i
    fin_cases j <;> norm_num [thresholded, threshold]
  · rw [numbers_shape]
    simp [Mat.shape]

end OrbitalSpectra
