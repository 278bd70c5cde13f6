import OrbitalSpectra.Proofs.Average.Rescaling
import OrbitalSpectra.Proofs.Shapes

set_option autoImplicit false

namespace OrbitalSpectra

open AnalysisError

variable {α R : Type}

section Places

theorem sum_over_rows (f : Nat → Nat) (r c : Nat) :
    ∑ k ∈ Finset.range (r * c), f k = ∑ i ∈ Finset.range r, ∑ j ∈ Finset.range c, f (i * c + j) := by
  induction r with
  | zero => simp
  | succ r ih => rw [Nat.succ_mul, Finset.sum_range_add, ih, Finset.sum_range_succ]

theorem count_at_places (xs : List α) (p : α → Bool) :
    xs.countP p = ∑ k ∈ Finset.range xs.length, if xs[k]?.any p then 1 else 0 := by
  induction xs with
  | nil => rfl
  | cons x rest ih =>
      rw [List.length_cons, Finset.sum_range_succ', List.countP_cons, ih]
      simp

theorem sum_at_places {xs : List α} {f : α → Nat} {g : Nat → Nat} (same : ∀ k x, xs[k]? = some x → f x = g k) :
    (xs.map f).sum = ∑ k ∈ Finset.range xs.length, g k := by
  rw [← Fin.sum_univ_fun_getElem, Finset.sum_range]
  exact Finset.sum_congr rfl fun k _ => same k xs[k] (List.getElem?_eq_getElem k.isLt)

variable [Scalar R]

-- Places (row, column) of the entries that count as kept.
def Mat.keptPlaces (m : Mat (Cplx R)) : Finset (Nat × Nat) :=
  (Finset.range m.rows ×ˢ Finset.range m.cols).filter fun (i, j) => (m.get? i j).any Cplx.isKept

theorem kept_count_places (m : Mat (Cplx R)) : m.keptCount = m.keptPlaces.card := by
  have cells : m.toList.length = m.rows * m.cols := m.size_cells
  rw [Mat.keptCount, count_at_places, cells, sum_over_rows, Mat.keptPlaces, Finset.card_filter, Finset.sum_product]
  refine Finset.sum_congr rfl fun i row => Finset.sum_congr rfl fun j col => ?_
  have inside : i < m.rows ∧ j < m.cols := ⟨Finset.mem_range.mp row, Finset.mem_range.mp col⟩
  simp [Mat.get?, Mat.toList, inside]

def SpinTensor.keptPlaces (t : SpinTensor (Cplx R)) : Finset (Nat × Nat × Nat) :=
  (Finset.range t.count ×ˢ Finset.range t.dim ×ˢ Finset.range t.dim).filter fun (s, i, j) =>
    (t.get? s i j).any Cplx.isKept

theorem kept_counts_places (t : SpinTensor (Cplx R)) : (t.sectors.map Mat.keptCount).sum = t.keptPlaces.card := by
  rw [SpinTensor.keptPlaces, Finset.card_filter, Finset.sum_product]
  refine sum_at_places fun s m held => ?_
  obtain ⟨rows, cols⟩ := Prod.mk.inj (t.uniform m (List.mem_of_getElem? held))
  rw [kept_count_places, Mat.keptPlaces, Finset.card_filter, rows, cols]
  simp [SpinTensor.get?, held, SpinTensor.dim]

end Places

-- An undefined part makes the modulus undefined, and such an entry is not zero either.
theorem exact_kept_iff (z : Cplx Exact) : z.isKept = true ↔ z ≠ 0 := by
  rw [Cplx.isKept, decide_eq_true_iff]
  apply not_congr
  obtain ⟨_ | x, _ | y⟩ := z
  · exact iff_of_false id fun zero => Exact.noConfusion (congrArg Cplx.re zero)
  · exact iff_of_false id fun zero => Exact.noConfusion (congrArg Cplx.re zero)
  · exact iff_of_false id fun zero => Exact.noConfusion (congrArg Cplx.im zero)
  · change Real.sqrt (x * x + y * y) ≤ 0 ↔ Cplx.exact ⟨x, y⟩ = 0
    rw [← Cplx.exact_zero, Cplx.exact_injective.eq_iff, Complex.ext_iff, (Real.sqrt_nonneg _).ge_iff_eq',
      Real.sqrt_eq_zero', (add_nonneg (mul_self_nonneg x) (mul_self_nonneg y)).ge_iff_eq']
    exact mul_self_add_mul_self_eq_zero

variable [Scalar R]

section Sectors

variable {m image : Mat (Cplx R)} {e : Mat R} {factor : R}

theorem screen_matrix_count {n : Nat} (ok : screenMatrix m e factor = .ok (image, n)) : n = image.keptCount := by
  unfold screenMatrix at ok
  split at ok
  · cases ok
    rfl
  · cases ok

theorem screen_matrix_misfit (factor : R) (misfit : m.shape ≠ e.shape) :
    screenMatrix m e factor = .error (shapeMismatch "screened matrix" m.size e.size) := by
  rw [screenMatrix, Mat.zipWith?, dif_neg fun same => misfit (Prod.ext same.1 same.2)]

-- Sectors of one shape are all screened, so that the loop runs to its end.
theorem screen_sectors_square (factor : R) {d : Nat} {ms : List (Mat (Cplx R))} {es : List (Mat R)}
    (lengths : ms.length = es.length) (means : ∀ m ∈ ms, m.shape = (d, d)) (errors : ∀ e ∈ es, e.shape = (d, d)) :
    ∃ images, screenSectors factor ms es = (images, .ok (images.map Mat.keptCount).sum) ∧
      ∀ (s : Nat) m e, ms[s]? = some m → es[s]? = some e →
        ∃ image n, images[s]? = some image ∧ screenMatrix m e factor = .ok (image, n) := by
  induction ms generalizing es with
  | nil =>
      obtain rfl := List.length_eq_zero_iff.mp lengths.symm
      exact ⟨[], rfl, by simp⟩
  | cons m ms ih =>
      cases es with
      | nil => cases lengths
      | cons e es =>
          rw [List.forall_mem_cons] at means errors
          obtain ⟨image, n, screened, _⟩ := screen_matrix_fits means.1 errors.1 factor
          obtain ⟨images, rest, each⟩ := ih (Nat.succ.inj lengths) means.2 errors.2
          refine ⟨image :: images, ?_, ?_⟩
          · rw [screenSectors, screened, rest, screen_matrix_count screened]
            rfl
          · rintro (_ | s) m' e' mean error
            · cases mean
              cases error
              exact ⟨image, n, rfl, screened⟩
            · exact each s m' e' mean error

end Sectors

-- What screening makes of a stack: each sector is screened by its own errors, and the count is that of the whole stack.
structure ScreenedBy (t : SpinTensor (Cplx R)) (error : SpinTensor R) (factor : R) (screened : SpinTensor (Cplx R))
    (kept : Nat) : Prop where
  shape : screened.shape = t.shape
  sectors : ∀ s < t.count, ∃ m e image n, t.sectors[s]? = some m ∧ error.sectors[s]? = some e ∧
    screened.sectors[s]? = some image ∧ screenMatrix m e factor = .ok (image, n)
  kept : kept = screened.keptPlaces.card

section Tensors

variable {t : SpinTensor (Cplx R)} {error : SpinTensor R}

theorem screen_tensor_counts (factor : R) (differ : t.count ≠ error.count) :
    screenTensor t error factor = (t, .error (shapeMismatch "screened tensor sectors" t.count error.count)) :=
  if_pos differ

theorem screen_tensor_shape (t : SpinTensor (Cplx R)) (error : SpinTensor R) (factor : R) :
    (screenTensor t error factor).1.shape = t.shape := by
  unfold screenTensor
  split
  · rfl
  · exact SpinTensor.shape_congr (screen_sectors_shape factor t.sectors error.sectors)

-- Sectors of two sizes: the first one already stops the loop.
theorem screen_tensor_dims (factor : R) (counts : t.count = error.count) (some : 1 ≤ t.count)
    (differ : t.dim ≠ error.dim) : screenTensor t error factor =
      (t, .error (shapeMismatch "screened matrix" (t.dim * t.dim) (error.dim * error.dim))) := by
  obtain ⟨m, ms, means⟩ := List.exists_cons_of_length_pos some
  obtain ⟨e, es, errors⟩ := List.exists_cons_of_length_pos (counts ▸ some : 1 ≤ error.count)
  obtain ⟨rows, cols⟩ := Prod.mk.inj (t.uniform m (means ▸ List.mem_cons_self))
  obtain ⟨errorRows, errorCols⟩ := Prod.mk.inj (error.uniform e (errors ▸ List.mem_cons_self))
  have unlike : m.shape ≠ e.shape := fun same => differ (rows.symm.trans ((Prod.mk.inj same).1.trans errorRows))
  have stopped := screen_matrix_misfit factor unlike
  refine Prod.ext (SpinTensor.ext_sectors ?_) ?_
  · simp only [screenTensor, if_neg (not_not_intro counts), means, errors, screenSectors, stopped]
  · simp only [screenTensor, if_neg (not_not_intro counts), means, errors, screenSectors, stopped, Mat.size, rows, cols,
      errorRows, errorCols, SpinTensor.dim]

theorem screen_tensor_fits (factor : R) (counts : t.count = error.count) (dims : t.count = 0 ∨ t.dim = error.dim) :
    ∃ kept, (screenTensor t error factor).2 = .ok kept ∧
      ScreenedBy t error factor (screenTensor t error factor).1 kept := by
  have errors : ∀ e ∈ error.sectors, e.shape = (t.dim, t.dim) := by
    rcases dims with empty | same
    · rw [counts] at empty
      simp [List.length_eq_zero_iff.mp empty]
    · exact same ▸ error.uniform
  obtain ⟨images, run, each⟩ := screen_sectors_square factor counts t.uniform errors
  have sectors : (screenTensor t error factor).1.sectors = images := by
    simp only [screenTensor, if_neg (not_not_intro counts), run]
  refine ⟨(images.map Mat.keptCount).sum, ?_, screen_tensor_shape t error factor, ?_, ?_⟩
  · simp only [screenTensor, if_neg (not_not_intro counts), run]
  · intro s inside
    have other : s < error.count := counts ▸ inside
    have mean := List.getElem?_eq_getElem inside
    have deviation := List.getElem?_eq_getElem (show s < error.sectors.length from other)
    obtain ⟨image, n, held, screened⟩ := each s _ _ mean deviation
    exact ⟨_, _, image, n, mean, deviation, sectors ▸ held, screened⟩
  · rw [← kept_counts_places, sectors]

end Tensors

theorem screen_tensor_atomic (t : SpinTensor (Cplx R)) (error : SpinTensor R) (factor : R) :
    ((∃ e, (screenTensor t error factor).2 = .error e) ↔
        t.count ≠ error.count ∨ 1 ≤ t.count ∧ t.dim ≠ error.dim) ∧
      (∀ e, (screenTensor t error factor).2 = .error e → (screenTensor t error factor).1 = t) ∧
      (∀ kept, (screenTensor t error factor).2 = .ok kept →
        ScreenedBy t error factor (screenTensor t error factor).1 kept) ∧
      ∀ z : Cplx Exact, z.isKept = true ↔ z ≠ 0 := by
  by_cases misfit : t.count ≠ error.count ∨ 1 ≤ t.count ∧ t.dim ≠ error.dim
  · obtain ⟨failure, stopped⟩ : ∃ failure, screenTensor t error factor = (t, .error failure) := by
      rcases misfit with differ | ⟨some, differ⟩
      · exact ⟨_, screen_tensor_counts factor differ⟩
      · by_cases counts : t.count = error.count
        · exact ⟨_, screen_tensor_dims factor counts some differ⟩
        · exact ⟨_, screen_tensor_counts factor counts⟩
    rw [stopped]
    exact ⟨iff_of_true ⟨failure, rfl⟩ misfit, fun _ _ => rfl, by simp, exact_kept_iff⟩
  · have fits := misfit
    simp only [not_or, not_and, not_not] at fits
    have dims : t.count = 0 ∨ t.dim = error.dim := (Nat.eq_zero_or_pos t.count).imp_right fits.2
    obtain ⟨kept, returned, screened⟩ := screen_tensor_fits factor fits.1 dims
    rw [returned]
    refine ⟨iff_of_false (by simp) misfit, by simp, ?_, exact_kept_iff⟩
    rintro _ ⟨⟩
    exact screened

end OrbitalSpectra
