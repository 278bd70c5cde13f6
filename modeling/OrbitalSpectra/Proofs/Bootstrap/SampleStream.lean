import OrbitalSpectra.Proofs.Exact.Bootstrap
import OrbitalSpectra.Proofs.Exact.ScreeningAlgebra
import OrbitalSpectra.Proofs.Koopmans.SampleDraws

set_option autoImplicit false

namespace OrbitalSpectra

open Matrix NormalStream Sampling

section Stops

variable {σ R : Type} [Scalar R] [NormalStream σ R] {n : Nat} {m : Mat (Cplx R)} {error : Mat R}

-- The draws of the places before a refused one are spent, those of the places after it are not.
theorem draw_entries_stop (m : Mat (Cplx R)) {before : List (Nat × Nat)} {i j : Nat}
    (finite : ∀ place ∈ before, Scalar.isFinite (error.entry place.1 place.2) = true)
    (refused : Scalar.isFinite (error.entry i j) = false) (after : List (Nat × Nat)) (state : σ) :
    drawEntries m error (before ++ (i, j) :: after) state =
      (.error (.perturbation i j), skip R before.length state) := by
  induction before generalizing state with
  | nil =>
      have stopped : drawEntry m error i j state = (.error (.perturbation i j), state) := by
        rw [drawEntry, if_neg (Bool.eq_false_iff.mp refused)]
      simp only [List.nil_append, drawEntries, stopped, List.length_nil, skip]
  | cons place rest ih =>
      obtain ⟨row, col⟩ := place
      obtain ⟨first, others⟩ := List.forall_mem_cons.mp finite
      have drawn := (draw_entry_ok_iff m error row col state _ _).mpr ⟨first, rfl, rfl⟩
      simp only [List.cons_append, drawEntries, drawn, ih others, List.length_cons]
      rw [Nat.add_comm, skip_add]

theorem column_places_split {i j : Nat} {before after : List (Nat × Nat)}
    (split : columnPlaces n = before ++ (i, j) :: after) :
    before.length = j * n + i ∧ i < n ∧ j < n ∧
      ∀ k l, k < n → l < n → l * n + k < j * n + i → (k, l) ∈ before := by
  have inside : before.length < n * n := by
    have length : (columnPlaces n).length = n * n := by simp [columnPlaces]
    rw [split, List.length_append, List.length_cons] at length
    omega
  have positive : 0 < n := Nat.pos_of_ne_zero fun zero => by simp [zero] at inside
  have listed {k : Nat} (bound : k < n * n) : (columnPlaces n)[k]? = some (k % n, k / n) := by
    simp [columnPlaces, bound]
  have here := listed inside
  rw [split, List.getElem?_append_right le_rfl, Nat.sub_self, List.getElem?_cons_zero, Option.some.injEq,
    Prod.mk.injEq] at here
  obtain ⟨rfl, rfl⟩ := here
  have position : before.length / n * n + before.length % n = before.length := by
    rw [Nat.mul_comm]
    exact Nat.div_add_mod _ _
  refine ⟨position.symm, Nat.mod_lt _ positive, Nat.div_lt_of_lt_mul inside, ?_⟩
  intro k l row col earlier
  rw [position] at earlier
  have found := listed (Mat.index_lt col row)
  rw [split, List.getElem?_append_left earlier, Mat.index_mod row, Mat.index_div row] at found
  exact List.mem_of_getElem? found

theorem column_order {i j k l : Nat} (row : k < n) (earlier : l < j ∨ l = j ∧ k < i) : l * n + k < j * n + i := by
  rcases earlier with col | ⟨rfl, above⟩
  · calc l * n + k < (l + 1) * n := by rw [Nat.succ_mul]; exact Nat.add_lt_add_left row _
      _ ≤ j * n := Nat.mul_le_mul_right n col
      _ ≤ j * n + i := Nat.le_add_right _ _
  · exact Nat.add_lt_add_left above _

-- The first deviation that no entry can be drawn with, column by column.
structure Mat.FirstRefused (error : Mat R) (n i j : Nat) : Prop where
  row : i < n
  col : j < n
  refused : Scalar.isFinite (error.entry i j) = false
  earlier : ∀ k l, k < n → l < n → l < j ∨ l = j ∧ k < i → Scalar.isFinite (error.entry k l) = true

theorem sample_matrix_stops (square : m.shape = (n, n)) (errorSquare : error.shape = (n, n))
    (undrawable : ¬ error.Drawable n) (state : σ) : ∃ i j, error.FirstRefused n i j ∧
      sampleMatrix m error state = (.error (.reported (.perturbation i j)), skip R (j * n + i) state) := by
  obtain ⟨rfl, cols⟩ := Prod.mk.inj square
  cases found : (columnPlaces m.rows).find? (refusedPlace error) with
  | none =>
      refine absurd ?_ undrawable
      rw [Mat.Drawable, ← column_places_forall m.rows fun place => Scalar.isFinite (error.entry place.1 place.2) = true]
      simpa [refusedPlace] using found
  | some place =>
      obtain ⟨i, j⟩ := place
      obtain ⟨held, before, after, split, none⟩ := List.find?_eq_some_iff_append.mp found
      have refused : Scalar.isFinite (error.entry i j) = false := by simpa [refusedPlace] using held
      have finite : ∀ place ∈ before, Scalar.isFinite (error.entry place.1 place.2) = true := by
        simpa [refusedPlace] using none
      obtain ⟨length, row, col, listed⟩ := column_places_split split
      refine ⟨i, j, ⟨row, col, refused, fun k l kInside lInside earlier => ?_⟩, ?_⟩
      · exact finite _ (listed k l kInside lInside (column_order kInside earlier))
      · have fits : ¬ (m.cols ≠ m.rows ∨ error.shape ≠ m.shape) := by simp [cols, errorSquare, square]
        have stopped := draw_entries_stop m finite refused after state
        rw [← split] at stopped
        simp only [sampleMatrix, if_neg fits, stopped, length]

end Stops

section RealParts

variable {σ R : Type} [Scalar R] [NormalStream σ R]

theorem draw_entries_real_parts {m other : Mat (Cplx R)} (error : Mat R) {places : List (Nat × Nat)}
    (same : ∀ place ∈ places, (m.entry place.1 place.2).re = (other.entry place.1 place.2).re) (state : σ) :
    drawEntries m error places state = drawEntries other error places state := by
  induction places generalizing state with
  | nil => rfl
  | cons place rest ih =>
      obtain ⟨i, j⟩ := place
      obtain ⟨first, others⟩ := List.forall_mem_cons.mp same
      have drawn : drawEntry m error i j state = drawEntry other error i j state := by
        rw [drawEntry, drawEntry, first]
      simp only [drawEntries, drawn, ih others]

theorem sample_matrix_real_parts {n : Nat} {m other : Mat (Cplx R)} (square : m.shape = (n, n))
    (otherSquare : other.shape = (n, n)) (error : Mat R)
    (same : ∀ i j, i < n → j < n → (m.entry i j).re = (other.entry i j).re) (state : σ) :
    sampleMatrix m error state = sampleMatrix other error state := by
  obtain ⟨rfl, cols⟩ := Prod.mk.inj square
  obtain ⟨rows, otherCols⟩ := Prod.mk.inj otherSquare
  have places := (column_places_forall m.rows fun place =>
    (m.entry place.1 place.2).re = (other.entry place.1 place.2).re).mpr same
  simp only [sampleMatrix, draw_entries_real_parts error places, square, otherSquare, rows, cols, otherCols]

end RealParts

section Streams

variable {σ R : Type} [Scalar R] [NormalStream σ R]

-- What a square matrix is drawn as, whatever the stream holds.
structure SampledAlong (m : Mat (Cplx R)) (error : Mat R) (n : Nat) (state : σ) : Prop where
  drawn : error.Drawable n → ∃ drawn, sampleMatrix m error state = (.ok drawn, skip R (n * n) state)
  stopped : ¬ error.Drawable n → ∃ i j, error.FirstRefused n i j ∧
    sampleMatrix m error state = (.error (.reported (.perturbation i j)), skip R (j * n + i) state)
  realParts : ∀ other : Mat (Cplx R), other.shape = (n, n) →
    (∀ i j, i < n → j < n → (m.entry i j).re = (other.entry i j).re) →
      sampleMatrix m error state = sampleMatrix other error state

theorem sampled_along {n : Nat} {m : Mat (Cplx R)} {error : Mat R} (square : m.shape = (n, n))
    (errorSquare : error.shape = (n, n)) (state : σ) : SampledAlong m error n state where
  drawn drawable :=
    ⟨_, (sample_matrix_square_iff square errorSquare state _ _).mpr ⟨drawable, rfl, rfl⟩⟩
  stopped undrawable := sample_matrix_stops square errorSquare undrawable state
  realParts _ otherSquare same := sample_matrix_real_parts square otherSquare error same state

end Streams

section Numbers

variable {σ : Type} [NormalStream σ Exact] {n : Nat} (A : Matrix (Fin n) (Fin n) ℂ) (E : Matrix (Fin n) (Fin n) ℝ)
  (z : Nat → ℝ)

def drawnNumber (i j : Fin n) : ℝ := (A i j).re + E i j * z (j * n + i)

noncomputable def symmetricSample : Matrix (Fin n) (Fin n) ℂ :=
  of fun i j => (((drawnNumber A E z i j + drawnNumber A E z j i) / 2 : ℝ) : ℂ)

-- Real and symmetric, with the draws of an entry and of its mirror image in both of them.
structure SymmetricSample (B : Matrix (Fin n) (Fin n) ℂ) : Prop where
  entry : ∀ i j, B i j =
    ((((A i j).re + E i j * z (j * n + i)) + ((A j i).re + E j i * z (i * n + j))) / 2 : ℝ)
  real : ∀ i j, (B i j).im = 0
  symmetric : B.IsSymm
  errorless : E = 0 → ∀ i j, B i j = (((A i j).re + (A j i).re) / 2 : ℝ)

theorem symmetric_sample : SymmetricSample A E z (symmetricSample A E z) where
  entry _ _ := rfl
  real i j := Complex.ofReal_im _
  symmetric := by
    apply IsSymm.ext
    intro i j
    rw [symmetricSample, of_apply, of_apply, add_comm]
  errorless := by
    rintro rfl i j
    simp only [symmetricSample, drawnNumber, of_apply, Matrix.zero_apply, zero_mul, add_zero]

theorem drawn_entry_numbers (i j : Fin n) :
    drawnEntry (Mat.exact A) (Mat.numbers E) (fun k => .value (z k)) i j =
      Cplx.exact (drawnNumber A E z i j : ℝ) := by
  rw [drawnEntry, perturbedEntry, Mat.exact_entry, numbers_entry, Mat.exact_rows]
  rfl

theorem drawn_matrix_numbers :
    drawnMatrix (Mat.exact A) (Mat.numbers E) (fun k => .value (z k)) = Mat.exact (symmetricSample A E z) := by
  rw [drawnMatrix, Mat.exact_rows]
  apply Mat.of_fn_exact
  intro i j
  rw [drawn_entry_numbers, drawn_entry_numbers, Cplx.exact_conj, half_sum_exact]
  congr 1
  rw [Complex.star_def, Complex.conj_ofReal, symmetricSample, of_apply]
  push_cast
  ring

theorem numbers_drawable : (Mat.numbers E).Drawable n := by
  intro i j row col
  rw [numbers_entry E ⟨i, row⟩ ⟨j, col⟩]
  rfl

variable {z}

theorem sample_matrix_numbers {state : σ} (draws : ∀ k < n * n, drawAt Exact state k = .value (z k)) :
    sampleMatrix (Mat.exact A) (Mat.numbers E) state =
      (.ok (Mat.exact (symmetricSample A E z)), skip Exact (n * n) state) := by
  rw [sample_matrix_square_iff (n := n) rfl rfl]
  refine ⟨numbers_drawable E, ?_, rfl⟩
  rw [← drawn_matrix_numbers, drawn_matrix_congr (n := n) rfl _ draws]

end Numbers

theorem sample_of_stream (n : Nat) :
    (∀ (σ R : Type) [Scalar R] [NormalStream σ R] (m : Mat (Cplx R)) (error : Mat R) (state : σ),
      m.shape = (n, n) → error.shape = (n, n) → SampledAlong m error n state) ∧
    ∀ (σ : Type) [NormalStream σ Exact] (A : Matrix (Fin n) (Fin n) ℂ) (E : Matrix (Fin n) (Fin n) ℝ) (z : Nat → ℝ)
      (state : σ), (∀ k < n * n, drawAt Exact state k = .value (z k)) →
        ∃ B, SymmetricSample A E z B ∧
          sampleMatrix (Mat.exact A) (Mat.numbers E) state = (.ok (Mat.exact B), skip Exact (n * n) state) := by
  refine ⟨?_, ?_⟩
  · intro σ R _ _ m error state square errorSquare
    exact sampled_along square errorSquare state
  · intro σ _ A E z state draws
    exact ⟨_, symmetric_sample A E z, sample_matrix_numbers A E draws⟩

-- Any sequence of numbers is a stream.
local instance sequenceStream : NormalStream (Nat → ℝ) Exact where
  ofSeed _ := 0
  next z := (.value (z 0), fun k => z (k + 1))

theorem sequence_draws (z : Nat → ℝ) (k : Nat) : drawAt Exact z k = .value (z k) := by
  induction k generalizing z with
  | zero => rfl
  | succ k ih => exact ih fun k => z (k + 1)

def countingFrom (start : Nat) (k : Nat) : ℝ := (k + start : Nat)

def pairMean : Matrix (Fin 2) (Fin 2) ℂ := !![1, 2 + Complex.I; 0, Complex.I]

def pairDeviations : Matrix (Fin 2) (Fin 2) ℝ := !![1, 2; 1, 1]

noncomputable def diagonalDeviations : Mat Exact := Mat.ofFn 2 2 fun i j => if i = j then 1 else .undefined

theorem diagonal_deviations_finite {i j : Nat} (row : i < 2) (col : j < 2) :
    Scalar.isFinite (diagonalDeviations.entry i j) = decide (i = j) := by
  rw [diagonalDeviations, Mat.entry_ofFn _ row col]
  by_cases diagonal : i = j
  · rw [if_pos diagonal, decide_eq_true diagonal]
    rfl
  · rw [if_neg diagonal, decide_eq_false diagonal]
    rfl

theorem diagonal_deviations_first {i j : Nat} (first : diagonalDeviations.FirstRefused 2 i j) : i = 1 ∧ j = 0 := by
  have off := first.refused
  rw [diagonal_deviations_finite first.row first.col, decide_eq_false_iff_not] at off
  have column : ¬ 0 < j := by
    intro later
    have finite := first.earlier 1 0 one_lt_two zero_lt_two (.inl later)
    rw [diagonal_deviations_finite one_lt_two zero_lt_two] at finite
    cases finite
  have row := first.row
  omega

-- Both entries off the diagonal are refused; the one in the first column is named, after one draw.
theorem sample_of_stream_pair :
    (∃ B, SymmetricSample pairMean pairDeviations (countingFrom 0) B ∧ B 0 1 = 7 / 2 ∧
      sampleMatrix (Mat.exact pairMean) (Mat.numbers pairDeviations) (countingFrom 0) =
        (.ok (Mat.exact B), countingFrom 4)) ∧
    sampleMatrix (Mat.exact pairMean) diagonalDeviations (countingFrom 0) =
      (.error (.reported (.perturbation 1 0)), countingFrom 1) := by
  obtain ⟨along, numbers⟩ := sample_of_stream 2
  constructor
  · obtain ⟨B, symmetric, sampled⟩ := numbers (Nat → ℝ) pairMean pairDeviations (countingFrom 0) (countingFrom 0)
      fun k _ => sequence_draws _ k
    refine ⟨B, symmetric, ?_, sampled⟩
    rw [symmetric.entry]
    norm_num [pairMean, pairDeviations, countingFrom]
  · have undrawable : ¬ diagonalDeviations.Drawable 2 := by
      intro drawable
      have finite := drawable 1 0 one_lt_two zero_lt_two
      rw [diagonal_deviations_finite one_lt_two zero_lt_two] at finite
      cases finite
    have sampled := along (Nat → ℝ) Exact (Mat.exact pairMean) diagonalDeviations (countingFrom 0) rfl rfl
    obtain ⟨i, j, first, stopped⟩ := sampled.stopped undrawable
    obtain ⟨rfl, rfl⟩ := diagonal_deviations_first first
    exact stopped

end OrbitalSpectra
