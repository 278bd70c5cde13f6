import OrbitalSpectra.Proofs.FloatOrder
import OrbitalSpectra.Proofs.Shapes

set_option autoImplicit false

namespace OrbitalSpectra

def lastPlaces (n rank : Nat) : List Nat := (List.range rank).map (n - rank + ·)

section Places

variable {n rank k : Nat}

@[simp] theorem last_places_length : (lastPlaces n rank).length = rank := by
  rw [lastPlaces, List.length_map, List.length_range]

theorem last_places_getD {c : Nat} (col : c < rank) : (lastPlaces n rank).getD c 0 = n - rank + c := by
  simp [lastPlaces, col]

theorem mem_last_places (inside : rank ≤ n) : k ∈ lastPlaces n rank ↔ n - rank ≤ k ∧ k < n := by
  rw [lastPlaces, List.mem_map]
  constructor
  · rintro ⟨c, member, rfl⟩
    have col := List.mem_range.mp member
    omega
  · rintro ⟨low, high⟩
    exact ⟨k - (n - rank), List.mem_range.mpr (by omega), by omega⟩

-- Fewer places are among more of them, and only then.
theorem last_places_subset_iff (inside : rank ≤ n) (fits : k ≤ n) :
    (∀ i ∈ lastPlaces n k, i ∈ lastPlaces n rank) ↔ k ≤ rank := by
  simp only [mem_last_places inside, mem_last_places fits]
  constructor
  · intro among
    by_contra more
    have lowest := among (n - k) ⟨le_rfl, by omega⟩
    omega
  · intro fewer i place
    omega

-- What an upward closed condition keeps of the numbers below `n` are the last ones.
theorem filter_range_last (p : Nat → Bool) (n : Nat)
    (upward : ∀ i j, i ≤ j → j < n → p i = true → p j = true) :
    (List.range n).filter p = lastPlaces n ((List.range n).filter p).length := by
  unfold lastPlaces
  induction n with
  | zero => rfl
  | succ n ih =>
      rw [List.range_succ, List.filter_append]
      by_cases last : p n = true
      · have rest := ih fun i j before below => upward i j before (by omega)
        have short : ((List.range n).filter p).length ≤ n := by
          simpa using List.length_filter_le p (List.range n)
        rw [List.filter_singleton, last, cond_true, List.length_append, List.length_singleton, List.range_succ,
          List.map_append, Nat.add_sub_add_right, ← rest, List.map_singleton, Nat.sub_add_cancel short]
      · have none : (List.range n).filter p = [] := by
          apply List.filter_eq_nil_iff.mpr
          intro i member kept
          have below := List.mem_range.mp member
          exact last (upward i n below.le (by omega) kept)
        rw [none, List.filter_singleton, Bool.eq_false_iff.mpr last]
        rfl

end Places

def Mat.lastColumns {α : Type} [Zero α] (m : Mat α) (k : Nat) : Mat α :=
  ofFn m.rows k fun i j => m.entry i (m.cols - k + j)

variable {R : Type} [Scalar R]

theorem whitening_last (e : Eigensystem R) (n rank : Nat) : e.whitening (lastPlaces n rank) =
    Mat.ofFn e.vectors.rows rank fun r c =>
      (e.vectors.entry r (n - rank + c)).unscale (Scalar.sqrt (e.value (n - rank + c))) := by
  rw [Eigensystem.whitening, last_places_length]
  apply Mat.of_fn_congr
  intro r c _ col
  rw [last_places_getD col]

theorem whitening_last_columns (e : Eigensystem R) {n rank k : Nat} (inside : rank ≤ n) (fewer : k ≤ rank) :
    (e.whitening (lastPlaces n rank)).lastColumns k = e.whitening (lastPlaces n k) := by
  rw [whitening_last, whitening_last]
  apply Mat.of_fn_congr
  intro r c row col
  have place : n - rank + (rank - k + c) = n - k + c := by omega
  rw [Mat.ofFn_rows] at row
  rw [Mat.ofFn_cols, Mat.entry_ofFn _ row (by omega), place]

section Solved

variable {solver : EigenSolver R} {s : Mat (Cplx R)} {e : Eigensystem R}

theorem mem_above (e : Eigensystem R) (cutoff : R) (k : Nat) :
    k ∈ e.above cutoff ↔ k < e.values.length ∧ cutoff < e.value k := by
  rw [Eigensystem.above, List.mem_filter, List.mem_range, decide_eq_true_iff]

theorem above_at_most (e : Eigensystem R) (cutoff : R) : (e.above cutoff).length ≤ e.values.length :=
  (List.length_filter_le _ _).trans_eq List.length_range

theorem whiten_with_rank_places (solved : eigh solver s = .ok e) {k : Nat} (fits : k ≤ e.values.length) (cutoff : R) :
    whitenWithRank solver s k cutoff =
      .ok (if ∀ i ∈ lastPlaces e.values.length k, ¬ e.value i ≤ cutoff then
        some (e.whitening (lastPlaces e.values.length k)) else none) := by
  rw [whitenWithRank, solved]
  change (if e.values.length < k then _ else if (lastPlaces e.values.length k).any _ then _ else _) = _
  rw [if_neg (Nat.not_lt.mpr fits)]
  by_cases high : ∀ i ∈ lastPlaces e.values.length k, ¬ e.value i ≤ cutoff
  · rw [if_pos high, if_neg]
    · rfl
    · simpa using high
  · rw [if_neg high, if_pos]
    · rfl
    · simpa using high

theorem whiten_with_rank_outside (solved : eigh solver s = .ok e) {k : Nat} (outside : e.values.length < k)
    (cutoff : R) : whitenWithRank solver s k cutoff =
      .error (.shapeMismatch "orthogonaliser rank" k e.values.length) := by
  rw [whitenWithRank, solved]
  exact if_pos outside

theorem eigenvalues_of_ascending (solver : EigenSolver R) {n : Nat} (square : s.shape = (n, n))
    (ascending : (List.range n).Pairwise fun a b => Scalar.totalLe ((solver s).value a) ((solver s).value b) = true) :
    eigenvalues solver s = .ok ((List.range n).map (solver s).value) := by
  obtain ⟨rfl, cols⟩ := Prod.mk.inj square
  rw [eigenvalues, eigh, if_neg fun odd => odd cols.symm]
  change Except.ok (((solver s).ascending s.rows).map (solver s).value) = _
  rw [Eigensystem.ascending, List.mergeSort_of_pairwise ascending]

variable [OrderedScalar R]

theorem above_last_places (solved : eigh solver s = .ok e) (defined : ∀ v ∈ e.values, Defined v) (cutoff : R) :
    e.above cutoff = lastPlaces e.values.length (e.above cutoff).length := by
  apply filter_range_last
  intro i j before inside kept
  exact decide_eq_true (above_of_le (of_decide_eq_true kept) (values_ascend solved defined before inside))

theorem whitening_above_columns (solved : eigh solver s = .ok e) (defined : ∀ v ∈ e.values, Defined v) (cutoff : R)
    {k : Nat} (fewer : k ≤ (e.above cutoff).length) :
    (e.whitening (e.above cutoff)).lastColumns k = e.whitening (lastPlaces e.values.length k) := by
  have slice := whitening_last_columns e (above_at_most e cutoff) fewer
  rw [← above_last_places solved defined cutoff] at slice
  exact slice

-- No eigenvalue is undefined, so the one that is not at or below the cutoff is above it.
theorem not_at_most_iff_above (defined : ∀ v ∈ e.values, Defined v) {cutoff : R} (definedCutoff : Defined cutoff)
    {k : Nat} (below : k < e.values.length) : ¬ e.value k ≤ cutoff ↔ k ∈ e.above cutoff := by
  have number := defined _ (List.getElem_mem below)
  rw [← value_getElem e below] at number
  rw [mem_above, not_at_most_iff definedCutoff, and_iff_right below]
  exact or_iff_left fun undefined => undefined number

theorem whiten_with_rank_slice (solved : eigh solver s = .ok e) (defined : ∀ v ∈ e.values, Defined v) {cutoff : R}
    (definedCutoff : Defined cutoff) {k : Nat} (fits : k ≤ e.values.length) :
    whitenWithRank solver s k cutoff = .ok (if k ≤ (e.above cutoff).length then
      some ((e.whitening (e.above cutoff)).lastColumns k) else none) := by
  have kept : (∀ i ∈ lastPlaces e.values.length k, ¬ e.value i ≤ cutoff) ↔ k ≤ (e.above cutoff).length := by
    rw [← last_places_subset_iff (above_at_most e cutoff) fits, ← above_last_places solved defined cutoff]
    refine forall₂_congr fun i place => ?_
    exact not_at_most_iff_above defined definedCutoff ((mem_last_places fits).mp place).2
  rw [whiten_with_rank_places solved fits, if_congr kept rfl rfl]
  split
  · rename_i fewer
    rw [whitening_above_columns solved defined cutoff fewer]
  · rfl

-- With as many eigenvectors as lie above the cutoff both ways agree.
theorem whiten_with_rank_above (solved : eigh solver s = .ok e) (defined : ∀ v ∈ e.values, Defined v) {cutoff : R}
    (definedCutoff : Defined cutoff) :
    whitenWithRank solver s (e.above cutoff).length cutoff = .ok (some (e.whitening (e.above cutoff))) := by
  rw [whiten_with_rank_slice solved defined definedCutoff (above_at_most e cutoff), if_pos le_rfl,
    whitening_above_columns solved defined cutoff le_rfl, ← above_last_places solved defined cutoff]

end Solved

theorem ranked_whitening_agrees [OrderedScalar R] (solver : EigenSolver R) {n : Nat} {s : Mat (Cplx R)}
    (square : s.shape = (n, n)) {values : List R} (computed : eigenvalues solver s = .ok values)
    (defined : ∀ v ∈ values, Defined v) {cutoff : R} (definedCutoff : Defined cutoff) :
    ∃ (e : Eigensystem R) (rank : Nat) (matrix x : Mat (Cplx R)), eigh solver s = .ok e ∧ e.values = values ∧
      regularise solver s cutoff = .ok ⟨matrix, x⟩ ∧ x.shape = (n, rank) ∧ e.above cutoff = lastPlaces n rank ∧
      (∀ k ≤ n, whitenWithRank solver s k cutoff = .ok (if k ≤ rank then some (x.lastColumns k) else none)) ∧
      whitenWithRank solver s rank cutoff = .ok (some x) ∧
      ∀ k, n < k → whitenWithRank solver s k cutoff = .error (.shapeMismatch "orthogonaliser rank" k n) := by
  obtain ⟨e, solved, rfl⟩ := (except_map_ok_iff _ _ _).mp computed
  obtain ⟨_, found, length, vectors⟩ := eigh_square solver square
  cases Except.ok.inj (solved.symm.trans found)
  obtain ⟨matrix, rebuilt, _⟩ := reconstruction_square vectors (e.above cutoff)
  have places := above_last_places solved defined cutoff
  rw [length] at places
  refine ⟨e, (e.above cutoff).length, matrix, e.whitening (e.above cutoff), solved, rfl, ?_,
    whitening_shape vectors _, places, ?_, ?_, ?_⟩
  · simp only [regularise, except_bind_ok_iff, except_lift_ok_iff]
    exact ⟨e, solved, matrix, rebuilt, rfl⟩
  · intro k fits
    exact whiten_with_rank_slice solved defined definedCutoff (length.symm ▸ fits)
  · exact whiten_with_rank_above solved defined definedCutoff
  · intro k outside
    rw [← length]
    exact whiten_with_rank_outside solved (length.symm ▸ outside) cutoff

-- Two by two and diagonal, with the cutoff at the first eigenvalue.
def stepped : Mat (Cplx Float) := Mat.ofRows [[⟨0.5, 0.0⟩, ⟨0.0, 0.0⟩], [⟨0.0, 0.0⟩, ⟨2.0, 0.0⟩]]

def entrySolver (m : Mat (Cplx Float)) : Eigensystem Float :=
  ⟨(List.range m.rows).map fun k => (m.entry k k).re, Mat.identity m.rows⟩

theorem ranked_whitening_agrees_stepped : ∃ matrix x : Mat (Cplx Float), x.shape = (2, 1) ∧
    regularise entrySolver stepped 0.5 = .ok ⟨matrix, x⟩ ∧
    whitenWithRank entrySolver stepped 0 0.5 = .ok (some (x.lastColumns 0)) ∧
    whitenWithRank entrySolver stepped 1 0.5 = .ok (some x) ∧
    whitenWithRank entrySolver stepped 2 0.5 = .ok none ∧
    whitenWithRank entrySolver stepped 3 0.5 = .error (.shapeMismatch "orthogonaliser rank" 3 2) := by
  have computed := eigenvalues_of_ascending entrySolver (s := stepped) rfl (by decide +kernel)
  obtain ⟨e, rank, matrix, x, _, values, regularised, shape, places, slices, whole, outside⟩ :=
    ranked_whitening_agrees entrySolver (n := 2) rfl computed (by decide +kernel)
      (show Defined (0.5 : Float) by decide +kernel)
  have kept : e.above 0.5 = [1] := by
    unfold Eigensystem.above Eigensystem.value
    rw [values]
    decide +kernel
  obtain rfl : 1 = rank := by simpa [kept] using congrArg List.length places
  exact ⟨matrix, x, shape, regularised, slices 0 (by decide), whole, slices 2 (by decide), outside 3 (by decide)⟩

end OrbitalSpectra
