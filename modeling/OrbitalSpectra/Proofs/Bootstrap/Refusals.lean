import OrbitalSpectra.Proofs.Bootstrap.SampleStream

set_option autoImplicit false

namespace OrbitalSpectra

variable {R : Type} [Scalar R] {error : Mat R} {n : Nat}

theorem refused_first {i j : Nat} (found : (columnPlaces n).find? (refusedPlace error) = some (i, j)) :
    error.FirstRefused n i j := by
  obtain ⟨held, before, after, split, none⟩ := List.find?_eq_some_iff_append.mp found
  obtain ⟨_, row, col, listed⟩ := column_places_split split
  refine ⟨row, col, by simpa [refusedPlace] using held, fun k l kInside lInside earlier => ?_⟩
  have finite := none _ (listed k l kInside lInside (column_order kInside earlier))
  simpa [refusedPlace] using finite

namespace Mat

theorem FirstRefused.undrawable {i j : Nat} (first : error.FirstRefused n i j) : ¬ error.Drawable n := by
  intro drawable
  have finite := drawable i j first.row first.col
  rw [first.refused] at finite
  cases finite

theorem FirstRefused.unique {i j k l : Nat} (first : error.FirstRefused n i j) (second : error.FirstRefused n k l) :
    i = k ∧ j = l := by
  -- Of two places one comes before the other, unless they are one.
  have notBefore {i j k l : Nat} (first : error.FirstRefused n i j) (second : error.FirstRefused n k l) :
      ¬ (j < l ∨ j = l ∧ i < k) := by
    intro earlier
    have finite := second.earlier i j first.row first.col earlier
    rw [first.refused] at finite
    cases finite
  have left := notBefore first second
  have right := notBefore second first
  omega

theorem drawable_or_refused (error : Mat R) (n : Nat) : error.Drawable n ∨ ∃ i j, error.FirstRefused n i j := by
  cases found : (columnPlaces n).find? (refusedPlace error) with
  | some place => exact .inr ⟨_, _, refused_first found⟩
  | none =>
      left
      rw [Drawable, ← column_places_forall n fun place => Scalar.isFinite (error.entry place.1 place.2) = true]
      simpa [refusedPlace] using found

theorem drawable_point (finite : Scalar.isFinite (error.entry 0 0) = true) : error.Drawable 1 := by
  intro i j row col
  obtain rfl := Nat.lt_one_iff.mp row
  obtain rfl := Nat.lt_one_iff.mp col
  exact finite

theorem undrawable_iff (error : Mat R) (n : Nat) :
    ¬ error.Drawable n ↔ ∃ i j, i < n ∧ j < n ∧ Scalar.isFinite (error.entry i j) = false := by
  simp [Drawable]

end Mat

section Matrices

variable {m : Mat (Cplx R)}

theorem sample_verdict_refused (square : m.shape = (n, n)) (errorSquare : error.shape = (n, n)) {i j : Nat}
    (first : error.FirstRefused n i j) : sampleVerdict m error = .error (.reported (.perturbation i j)) := by
  obtain ⟨rfl, cols⟩ := Prod.mk.inj square
  have fits : ¬ (m.cols ≠ m.rows ∨ error.shape ≠ m.shape) := by simp [cols, errorSquare, square]
  rw [sampleVerdict, if_neg fits]
  cases found : (columnPlaces m.rows).find? (refusedPlace error) with
  | some place =>
      obtain ⟨rfl, rfl⟩ := (refused_first found).unique first
      rfl
  | none =>
      have finite := (column_places_forall m.rows fun place => refusedPlace error place = false).mp
        (by simpa using found) i j first.row first.col
      simp [refusedPlace, first.refused] at finite

end Matrices

end OrbitalSpectra
