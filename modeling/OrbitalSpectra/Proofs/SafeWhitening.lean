import OrbitalSpectra.Eigen.ShiftedSweeps
import OrbitalSpectra.Proofs.CentralResults
import OrbitalSpectra.Proofs.RankedWhitening
import OrbitalSpectra.Proofs.RootQuotients

set_option autoImplicit false

namespace OrbitalSpectra

variable {R : Type} [Scalar R]

def Cplx.Finite (z : Cplx R) : Prop := Scalar.isFinite z.re = true ∧ Scalar.isFinite z.im = true

instance (z : Cplx R) : Decidable z.Finite := inferInstanceAs (Decidable (_ ∧ _))

-- Both parts of the size that the parts of a unit vector have, with room for rounding.
def Cplx.Small (z : Cplx R) : Prop := (-2.0 ≤ z.re ∧ z.re ≤ 2.0) ∧ -2.0 ≤ z.im ∧ z.im ≤ 2.0

instance (z : Cplx R) : Decidable z.Small := inferInstanceAs (Decidable ((_ ∧ _) ∧ _ ∧ _))

def Mat.Finite (m : Mat (Cplx R)) : Prop := ∀ i < m.rows, ∀ j < m.cols, (m.entry i j).Finite

-- Finite eigenvalues with vectors that are no longer than unit vectors by much.
def Eigensystem.Ordinary (e : Eigensystem R) : Prop :=
  (∀ v ∈ e.values, Scalar.isFinite v = true) ∧
    ∀ i < e.vectors.rows, ∀ j < e.vectors.cols, (e.vectors.entry i j).Small

instance (e : Eigensystem R) : Decidable e.Ordinary := inferInstanceAs (Decidable (_ ∧ _))

structure WhitensSafely (solver : EigenSolver R) (s : Mat (Cplx R)) (cutoff : R) (e : Eigensystem R) : Prop where
  kept : ∀ k ∈ e.above cutoff, 0 < e.value k
  regularised : ∃ matrix x, regularise solver s cutoff = .ok ⟨matrix, x⟩ ∧ x.Finite
  ranked : ∀ rank x, whitenWithRank solver s rank cutoff = .ok (some x) →
    (∀ k ∈ lastPlaces e.values.length rank, 0 < e.value k) ∧ x.Finite

section Divisors

variable [RootedScalar R]

theorem unscale_finite_iff {z : Cplx R} (small : z.Small) {v : R} (finite : Scalar.isFinite v = true) :
    (z.unscale (Scalar.sqrt v)).Finite ↔ 0 < v := by
  have re := RootedScalar.quotient_finite_iff small.1.1 small.1.2 finite
  have im := RootedScalar.quotient_finite_iff small.2.1 small.2.2 finite
  exact (and_congr re im).trans and_self_iff

-- A column is finite with the root it is divided by, and a place that is kept has a column.
theorem whitening_finite_iff {e : Eigensystem R} (ordinary : e.Ordinary)
    (vectors : e.vectors.shape = (e.values.length, e.values.length)) {kept : List Nat}
    (inside : ∀ k ∈ kept, k < e.values.length) : (e.whitening kept).Finite ↔ ∀ k ∈ kept, 0 < e.value k := by
  obtain ⟨rows, cols⟩ := Prod.mk.inj vectors
  have entry {i c : Nat} (row : i < e.values.length) (col : c < kept.length) :
      ((e.whitening kept).entry i c).Finite ↔ 0 < e.value kept[c] := by
    have place := inside _ (List.getElem_mem col)
    have finite := ordinary.1 _ (List.getElem_mem place)
    rw [← value_getElem] at finite
    rw [Eigensystem.whitening, Mat.entry_ofFn _ (rows.symm ▸ row) col, List.getD_eq_getElem _ _ col]
    exact unscale_finite_iff (ordinary.2 i (rows.symm ▸ row) _ (cols.symm ▸ place)) finite
  constructor
  · intro finite k member
    obtain ⟨c, col, rfl⟩ := List.getElem_of_mem member
    have some : 0 < e.values.length := Nat.zero_lt_of_lt (inside _ member)
    exact (entry some col).mp (finite 0 (rows.symm ▸ some) c col)
  · intro positive i row c col
    exact (entry (rows ▸ row) col).mpr (positive _ (List.getElem_mem col))

end Divisors

open OrderedScalar

theorem positive_of_above [OrderedScalar R] {cutoff v : R} (nonneg : 0 ≤ cutoff) (above : cutoff < v) : 0 < v := by
  obtain ⟨⟨_, number⟩, high⟩ := lt_iff.mp above
  refine lt_iff.mpr ⟨⟨(defined_of_le nonneg).1, number⟩, fun low => high ?_⟩
  exact le_transitive low nonneg

section Transforms

variable {solver : EigenSolver R} {s : Mat (Cplx R)} {e : Eigensystem R} {cutoff : R}

theorem solved_vectors_shape (solved : eigh solver s = .ok e) :
    e.vectors.shape = (e.values.length, e.values.length) := by
  obtain ⟨length, vectors⟩ := eigh_ok_sizes solver (eigh_ok_square solver solved) solved
  exact length.symm ▸ vectors

theorem regularised_finite_iff [RootedScalar R] (solved : eigh solver s = .ok e) (ordinary : e.Ordinary)
    (cutoff : R) : ∃ matrix x, regularise solver s cutoff = .ok ⟨matrix, x⟩ ∧
      (x.Finite ↔ ∀ k ∈ e.above cutoff, 0 < e.value k) := by
  have vectors := solved_vectors_shape solved
  obtain ⟨matrix, rebuilt, _⟩ := reconstruction_square vectors (e.above cutoff)
  refine ⟨matrix, e.whitening (e.above cutoff), ?_, whitening_finite_iff ordinary vectors fun k member => ?_⟩
  · simp only [regularise, except_bind_ok_iff, except_lift_ok_iff]
    exact ⟨e, solved, matrix, rebuilt, rfl⟩
  · exact ((mem_above e cutoff k).mp member).1

variable [OrderedScalar R]

theorem ordinary_defined (ordinary : e.Ordinary) : ∀ v ∈ e.values, Defined v :=
  fun v member => defined_of_finite (ordinary.1 v member)

-- The ranked transform is made of eigenvectors above the cutoff too.
theorem ranked_above (solved : eigh solver s = .ok e) (defined : ∀ v ∈ e.values, Defined v)
    (definedCutoff : Defined cutoff) {rank : Nat} {x : Mat (Cplx R)}
    (whitened : whitenWithRank solver s rank cutoff = .ok (some x)) :
    (∀ k ∈ lastPlaces e.values.length rank, k ∈ e.above cutoff) ∧
      x = e.whitening (lastPlaces e.values.length rank) := by
  have fits : rank ≤ e.values.length := by
    by_contra outside
    rw [whiten_with_rank_outside solved (not_le.mp outside)] at whitened
    cases whitened
  rw [whiten_with_rank_places solved fits] at whitened
  split at whitened
  · rename_i high
    cases whitened
    refine ⟨fun k place => ?_, rfl⟩
    have below := ((mem_last_places fits).mp place).2
    exact (not_at_most_iff_above defined definedCutoff below).mp (high k place)
  · cases whitened

-- A null direction is above every negative cutoff.
theorem nonneg_of_whitens_safely (ordinary : e.Ordinary) (null : e.values = [0]) (defined : Defined cutoff)
    (safe : WhitensSafely solver s cutoff e) : 0 ≤ cutoff := by
  by_contra below
  have value : e.value 0 = 0 := by rw [Eigensystem.value, null, List.getD_cons_zero]
  have zero : Defined (0 : R) := ordinary_defined ordinary 0 (null ▸ List.mem_singleton_self 0)
  have kept : 0 ∈ e.above cutoff := by
    rw [mem_above, value, null]
    exact ⟨Nat.zero_lt_one, lt_iff.mpr ⟨⟨defined, zero⟩, below⟩⟩
  have positive := safe.kept 0 kept
  rw [value] at positive
  exact (lt_iff.mp positive).2 zero

variable [RootedScalar R]

theorem ranked_finite_iff (solved : eigh solver s = .ok e) (ordinary : e.Ordinary) (definedCutoff : Defined cutoff)
    {rank : Nat} {x : Mat (Cplx R)} (whitened : whitenWithRank solver s rank cutoff = .ok (some x)) :
    x.Finite ↔ ∀ k ∈ lastPlaces e.values.length rank, 0 < e.value k := by
  obtain ⟨among, rfl⟩ := ranked_above solved (ordinary_defined ordinary) definedCutoff whitened
  refine whitening_finite_iff ordinary (solved_vectors_shape solved) fun k place => ?_
  exact ((mem_above e cutoff k).mp (among k place)).1

theorem whitens_safely_iff (solved : eigh solver s = .ok e) (ordinary : e.Ordinary) (definedCutoff : Defined cutoff) :
    WhitensSafely solver s cutoff e ↔ ∀ k ∈ e.above cutoff, 0 < e.value k := by
  refine ⟨WhitensSafely.kept, fun positive => ⟨positive, ?_, ?_⟩⟩
  · obtain ⟨matrix, x, made, finite⟩ := regularised_finite_iff solved ordinary cutoff
    exact ⟨matrix, x, made, finite.mpr positive⟩
  · intro rank x whitened
    obtain ⟨among, _⟩ := ranked_above solved (ordinary_defined ordinary) definedCutoff whitened
    have last : ∀ k ∈ lastPlaces e.values.length rank, 0 < e.value k :=
      fun k place => positive k (among k place)
    exact ⟨last, (ranked_finite_iff solved ordinary definedCutoff whitened).mpr last⟩

theorem whitens_safely (solved : eigh solver s = .ok e) (ordinary : e.Ordinary) (nonneg : 0 ≤ cutoff) :
    WhitensSafely solver s cutoff e :=
  (whitens_safely_iff solved ordinary (defined_of_le nonneg).2).mpr fun k member =>
    positive_of_above nonneg ((mem_above e cutoff k).mp member).2

end Transforms

-- Each transform is finite exactly when what it divides by is positive, which the accepted cutoffs
-- guarantee for all matrices if and only if they are not negative.
theorem transforms_finite_iff [OrderedScalar R] [RootedScalar R] (solver : EigenSolver R)
    (null : ∃ s e, eigh solver s = .ok e ∧ e.Ordinary ∧ e.values = [0]) {p : Params R} (valid : p.validate = .ok ()) :
    (∀ s e, eigh solver s = .ok e → e.Ordinary →
      (∃ matrix x, regularise solver s p.cutoff = .ok ⟨matrix, x⟩ ∧
        (x.Finite ↔ ∀ k ∈ e.above p.cutoff, 0 < e.value k)) ∧
      ∀ rank x, whitenWithRank solver s rank p.cutoff = .ok (some x) →
        (∀ k ∈ lastPlaces e.values.length rank, k ∈ e.above p.cutoff) ∧
        (x.Finite ↔ ∀ k ∈ lastPlaces e.values.length rank, 0 < e.value k)) ∧
    ((∀ s e, eigh solver s = .ok e → e.Ordinary → WhitensSafely solver s p.cutoff e) ↔ 0 ≤ p.cutoff) := by
  have defined : Defined p.cutoff := defined_of_finite (validate_cutoff valid)
  refine ⟨fun s e solved ordinary => ⟨regularised_finite_iff solved ordinary _, fun rank x whitened => ?_⟩, ?_, ?_⟩
  · exact ⟨(ranked_above solved (ordinary_defined ordinary) defined whitened).1,
      ranked_finite_iff solved ordinary defined whitened⟩
  · intro safe
    obtain ⟨s, e, solved, ordinary, zero⟩ := null
    exact nonneg_of_whitens_safely ordinary zero defined (safe s e solved ordinary)
  · intro nonneg s e solved ordinary
    exact whitens_safely solved ordinary nonneg

def belowZero : Params Float := { Params.default with cutoff := -1.0 }

def emptyOrbital : Mat (Cplx Float) := Mat.ofRows [[⟨0.0, 0.0⟩]]

-- The parameters are accepted, and neither transform is finite.
theorem transforms_finite_iff_empty : belowZero.validate = .ok () ∧
    (∃ matrix x, regularise Eigen.solve emptyOrbital belowZero.cutoff = .ok ⟨matrix, x⟩ ∧ ¬ x.Finite) ∧
    (∃ x, whitenWithRank Eigen.solve emptyOrbital 1 belowZero.cutoff = .ok (some x) ∧ ¬ x.Finite) ∧
    ¬ ∀ s e, eigh Eigen.solve s = .ok e → e.Ordinary → WhitensSafely Eigen.solve s belowZero.cutoff e := by
  have valid : belowZero.validate = .ok () := by decide +kernel
  obtain ⟨e, solved⟩ : ∃ e, eigh Eigen.solve emptyOrbital = .ok e := ⟨_, rfl⟩
  have evaluated : (eigh Eigen.solve emptyOrbital).toOption.map
      (fun e => (decide e.Ordinary, e.values, e.above belowZero.cutoff)) = some (true, [0], [0]) := by
    decide +kernel
  rw [solved] at evaluated
  obtain ⟨ordinary, found⟩ := Prod.mk.inj (Option.some.inj evaluated)
  obtain ⟨values, kept⟩ := Prod.mk.inj found
  obtain ⟨each, all⟩ := transforms_finite_iff Eigen.solve
    ⟨emptyOrbital, e, solved, of_decide_eq_true ordinary, values⟩ valid
  obtain ⟨⟨matrix, x, regularised, finite⟩, ranked⟩ := each emptyOrbital e solved (of_decide_eq_true ordinary)
  have zero : ¬ (0 : Float) < e.value 0 := by
    rw [Eigensystem.value, values]
    decide +kernel
  have accepted : ∀ k ∈ lastPlaces e.values.length 1, ¬ e.value k ≤ belowZero.cutoff := by
    unfold Eigensystem.value
    rw [values]
    decide +kernel
  have whitened : whitenWithRank Eigen.solve emptyOrbital 1 belowZero.cutoff =
      .ok (some (e.whitening (lastPlaces e.values.length 1))) := by
    rw [whiten_with_rank_places solved (by rw [values, List.length_singleton]), if_pos accepted]
  refine ⟨valid, ⟨matrix, x, regularised, ?_⟩, ⟨_, whitened, ?_⟩, ?_⟩
  · rw [finite, kept, List.forall_mem_singleton]
    exact zero
  · rw [(ranked 1 _ whitened).2, values]
    exact fun positive => zero (positive 0 (by decide))
  · rw [all]
    decide +kernel

end OrbitalSpectra
