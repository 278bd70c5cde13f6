import OrbitalSpectra.Proofs.Average.Misfits
import OrbitalSpectra.Proofs.Bootstrap.Draws
import OrbitalSpectra.Proofs.Shapes

set_option autoImplicit false

namespace OrbitalSpectra

open NormalStream

variable {σ R : Type} [Scalar R]

def Sized (solver : EigenSolver R) : Prop :=
  ∀ m : Mat (Cplx R), m.rows = m.cols →
    (solver m).values.length = m.rows ∧ (solver m).vectors.shape = (m.rows, m.rows)

theorem array_read_inside {α : Type} [Zero α] {xs : Array α} {k : Nat} (inside : k < xs.size) :
    xs[k]? = some (xs.getD k 0) := by
  simp [Array.getD_eq_getD_getElem?, inside]

theorem list_read_inside {α : Type} {xs : List α} {k : Nat} (inside : k < xs.length) (a : α) :
    xs[k]? = some (xs.getD k a) := by
  simp [List.getD_eq_getElem?_getD, inside]

section Vectors

-- Column `c` of a matrix is made of the vector and of the value at the place that the list has at `c`.
def Eigensystem.Makes (e : Eigensystem R) (places : List Nat) (make : Cplx R → R → Cplx R) (x : Mat (Cplx R)) : Prop :=
  ∀ r < e.vectors.rows, ∀ c < places.length, ∃ k u v, places[c]? = some k ∧ e.vectors.get? r k = some u ∧
    e.values[k]? = some v ∧ x.get? r c = some (make u v)

theorem makes_of_inside {e : Eigensystem R} {places : List Nat}
    (inside : ∀ k ∈ places, k < e.values.length ∧ k < e.vectors.cols) (make : Cplx R → R → Cplx R) :
    e.Makes places make (Mat.ofFn e.vectors.rows places.length fun r c =>
      make (e.vectors.entry r (places.getD c 0)) (e.value (places.getD c 0))) := by
  intro r row c col
  have held := list_read_inside col 0
  obtain ⟨value, column⟩ := inside _ (List.mem_of_getElem? held)
  refine ⟨_, _, e.value (places.getD c 0), held, Mat.get_inside row column, list_read_inside value 0, ?_⟩
  rw [Mat.get_of_fn, if_pos ⟨row, col⟩]

variable {e : Eigensystem R} {solver : EigenSolver R} {m : Mat (Cplx R)}

theorem kept_place_lt (cutoff : R) : ∀ k ∈ e.above cutoff, k < e.values.length :=
  fun _ member => List.mem_range.mp (List.mem_filter.mp member).1

theorem ascending_place_lt (e : Eigensystem R) (n : Nat) : ∀ k ∈ e.ascending n, k < n := by
  intro k member
  simpa [Eigensystem.ascending] using member

theorem eigh_reads (sized : Sized solver) (ok : eigh solver m = .ok e) :
    e.values.map some = ((solver m).ascending m.rows).map ((solver m).values[·]?) ∧
      (solver m).Makes ((solver m).ascending m.rows) (fun u _ => u) e.vectors := by
  have square := eigh_ok_square solver ok
  obtain ⟨_, cols⟩ := Prod.mk.inj square
  obtain ⟨values, vectors⟩ := sized m cols.symm
  obtain ⟨rows, width⟩ := Prod.mk.inj vectors
  have inside := ascending_place_lt (solver m) m.rows
  have length : ((solver m).ascending m.rows).length = m.rows := by simp [Eigensystem.ascending]
  have columns := makes_of_inside (e := solver m) (fun k member =>
    ⟨values.symm ▸ inside k member, width.symm ▸ inside k member⟩) fun u _ => u
  rw [eigh, if_neg (not_not_intro cols.symm)] at ok
  cases ok
  refine ⟨?_, by rwa [rows, length] at columns⟩
  rw [List.map_map]
  exact List.map_congr_left fun k member => (list_read_inside (values.symm ▸ inside k member) 0).symm

theorem regularise_reads {cutoff : R} {r : Regularised R} (ok : regularise solver m cutoff = .ok r) :
    ∃ e scaled, eigh solver m = .ok e ∧ e.Makes (e.above cutoff) (fun u _ => u) (e.columns (e.above cutoff)) ∧
      e.Makes (e.above cutoff) (fun u v => u.scale v) scaled ∧
      scaled.mul? (e.columns (e.above cutoff)).adjoint = some r.matrix ∧
      e.Makes (e.above cutoff) (fun u v => u.unscale (Scalar.sqrt v)) r.transform := by
  simp only [regularise, Eigensystem.reconstruction, except_bind_ok_iff, except_lift_ok_iff, or_fault_ok_iff] at ok
  obtain ⟨e, solved, matrix, product, same⟩ := ok
  cases same
  obtain ⟨length, shape⟩ := eigh_ok_sizes solver (eigh_ok_square solver solved) solved
  obtain ⟨_, width⟩ := Prod.mk.inj shape
  have inside : ∀ k ∈ e.above cutoff, k < e.values.length ∧ k < e.vectors.cols := fun k member =>
    ⟨kept_place_lt cutoff k member, width ▸ length ▸ kept_place_lt cutoff k member⟩
  refine ⟨e, _, solved, makes_of_inside inside fun u _ => u, ?_, product, makes_of_inside inside _⟩
  have scaled := makes_of_inside inside fun u v => u.scale v
  rwa [Mat.of_fn_congr fun r c row col => by rw [Eigensystem.columns, Mat.entry_ofFn _ row col]]

theorem whitened_reads {rank : Nat} {cutoff : R} {x : Option (Mat (Cplx R))}
    (ok : whitenWithRank solver m rank cutoff = .ok x) :
    ∃ e, eigh solver m = .ok e ∧ (∀ k < rank, ∃ v, e.values[m.rows - rank + k]? = some v) ∧
      ∀ y ∈ x, e.Makes ((List.range rank).map (m.rows - rank + ·)) (fun u v => u.unscale (Scalar.sqrt v)) y := by
  rw [whitenWithRank, except_bind_ok_iff] at ok
  obtain ⟨e, solved, rest⟩ := ok
  obtain ⟨length, shape⟩ := eigh_ok_sizes solver (eigh_ok_square solver solved) solved
  obtain ⟨_, width⟩ := Prod.mk.inj shape
  rw [length] at rest
  have enough : ¬ m.rows < rank := by
    intro short
    simp only [if_pos short] at rest
    cases rest
  have inside : ∀ k ∈ (List.range rank).map (m.rows - rank + ·), k < e.values.length ∧ k < e.vectors.cols := by
    intro k member
    obtain ⟨place, listed, rfl⟩ := List.mem_map.mp member
    have below := List.mem_range.mp listed
    omega
  refine ⟨e, solved, fun k below => ?_, fun y held => ?_⟩
  · exact ⟨_, list_read_inside (inside _ (List.mem_map.mpr ⟨k, List.mem_range.mpr below, rfl⟩)).1 0⟩
  · simp only [if_neg enough] at rest
    split at rest
    · cases rest
      cases held
    · cases rest
      cases held
      exact makes_of_inside inside _

end Vectors

theorem average_blocks_reads {blocks : List (Block R)} {name : String} {equilibration stride : Nat}
    {average : BlockAverage R} (averaged : (averageBlocks blocks name equilibration stride).Returns average) :
    ∀ k < average.mean.size, ∃ zs, (window equilibration stride blocks).map (·[k]?) = zs.map some ∧
      average.mean[k]? = some (mean zs) ∧ average.error[k]? = some (standardError zs) := by
  obtain ⟨_, _, length, same, rfl⟩ := (average_blocks_returns _ _ _ _ _).mp averaged
  intro k inside
  have below : k < length := by simpa [averageWindow] using inside
  refine ⟨column (window equilibration stride blocks) k, ?_, by simp [averageWindow, below],
    by simp [averageWindow, below]⟩
  rw [column, List.map_map]
  exact List.map_congr_left fun b member => array_read_inside (same b member ▸ below)

section Stacks

variable {α : Type} [Zero α] [Build] {flat : Array α} {count dim : Nat} {name : String} {t : SpinTensor α}

theorem row_major_reads (ok : SpinTensor.ofRowMajor flat count dim name = .ok t) : ∀ s < t.count, ∀ i < dim, ∀ j < dim,
      ∃ a, flat[s * (dim * dim) + i * dim + j]? = some a ∧ t.get? s i j = some a := by
  intro s sector i row j col
  obtain ⟨_, _, _, held⟩ := SpinTensor.of_row_major_pieces_iff.mp ok
  have listed := List.getElem?_eq_getElem sector
  have square : t.sectors[s].shape = (dim, dim) := by
    have member := List.getElem_mem sector
    simp only [held] at member
    obtain ⟨p, _, made⟩ := List.mem_map.mp member
    simp only [held, ← made]
    rfl
  obtain ⟨rows, cols⟩ := Prod.mk.inj square
  have found : t.get? s i j = some (t.sectors[s].entry i j) := by
    rw [SpinTensor.get?, listed, Option.bind_some, Mat.get_inside (rows.symm ▸ row) (cols.symm ▸ col)]
  exact ⟨_, (SpinTensor.of_row_major_get ok sector row col).symm.trans found, found⟩

theorem row_major_count (ok : SpinTensor.ofRowMajor flat count dim name = .ok t)
    (fits : count * (dim * dim) < UInt64.size) (wide : 1 ≤ dim) : t.count = count := by
  rcases Nat.eq_zero_or_pos count with none | several
  · obtain ⟨_, _, _, held⟩ := SpinTensor.of_row_major_pieces_iff.mp ok
    rw [SpinTensor.count, held, none, List.length_map]
    exact Nat.le_zero.mp (SpinTensor.pieces_length_le 0 _)
  · have size := SpinTensor.of_row_major_fits several fits ok
    have some : 0 < flat.size := size ▸ Nat.mul_pos several (Nat.mul_pos wide wide)
    rw [SpinTensor.count, (SpinTensor.of_row_major_ok_iff some size).mp ok, List.length_map, List.length_range]

end Stacks

theorem triangle_reads {packed : Array (Cplx R)} {rows dim : Nat} {m : Mat (Cplx R)}
    (ok : unpackTriangle packed rows dim = .ok m) : ∀ i < dim, ∀ j < dim, ∃ a, m.get? i j = some a ∧
      (if i < rows ∧ i < j then packed[packedIndex dim i j]? else some 0) = some a := by
  obtain ⟨shape, entries⟩ := unpack_triangle_get ok
  obtain ⟨height, width⟩ := Prod.mk.inj shape
  intro i row j col
  have found := Mat.get_inside (m := m) (height.symm ▸ row) (width.symm ▸ col)
  exact ⟨_, found, (entries i j row col).symm.trans found⟩

theorem repeat_block_reads (n : Nat) (m : Mat (Cplx R)) : ∀ i < m.rows, ∀ j < m.cols, ∃ a,
    (if n ≤ i ∧ n ≤ j then m.get? (i - n) (j - n) else m.get? i j) = some a ∧ (repeatBlock n m).get? i j = some a := by
  intro i row j col
  simp only [repeatBlock, Mat.get_of_fn, and_self, row, col, if_true]
  by_cases last : n ≤ i ∧ n ≤ j
  · rw [if_pos last, if_pos last]
    exact ⟨_, Mat.get_inside (by omega) (by omega), rfl⟩
  · rw [if_neg last, if_neg last]
    exact ⟨_, Mat.get_inside row col, rfl⟩

theorem product_reads {a b p : Mat (Cplx R)} (ok : a.mul? b = some p) : ∀ i < a.rows, ∀ j < b.cols,
    ∃ x y : Nat → Cplx R, (∀ k < a.cols, a.get? i k = some (x k) ∧ b.get? k j = some (y k)) ∧
      p.get? i j = some (unitSum (fun k => 1 * x k * y k) a.cols) := by
  intro i row j col
  unfold Mat.mul? at ok
  split at ok
  · rename_i inner
    cases ok
    exact ⟨a.entry i, (b.entry · j), fun k inside => ⟨Mat.get_inside row inside, Mat.get_inside (inner ▸ inside) col⟩,
      by rw [Mat.get_of_fn, if_pos ⟨row, col⟩]⟩
  · cases ok

section Samples

variable [NormalStream σ R] {m drawn : Mat (Cplx R)} {error : Mat R} {state next : σ}

theorem draw_entry_reads (square : m.cols = m.rows) (shape : error.shape = m.shape) :
    ∀ place ∈ columnPlaces m.rows, ∃ z d, m.get? place.1 place.2 = some z ∧ error.get? place.1 place.2 = some d ∧
      ∀ state : σ, drawEntry m error place.1 place.2 state =
        if Scalar.isFinite d then (.ok (z.re + d * drawAt R state 0), skip R 1 state)
        else (.error (.perturbation place.1 place.2), state) := by
  obtain ⟨rows, cols⟩ := Prod.mk.inj shape
  have inside := (column_places_forall m.rows fun place => place.1 < m.rows ∧ place.2 < m.rows).mpr
    fun i j row col => ⟨row, col⟩
  intro place member
  obtain ⟨row, col⟩ := inside place member
  exact ⟨_, _, Mat.get_inside row (square ▸ col), Mat.get_inside (rows ▸ row) (cols ▸ square ▸ col), fun _ => rfl⟩

theorem sample_matrix_reads (ok : sampleMatrix m error state = (.ok drawn, next)) :
    ∃ xs, drawEntries m error (columnPlaces m.rows) state = (.ok xs, next) ∧ ∀ i < m.rows, ∀ j < m.rows, ∃ x y,
      xs[j * m.rows + i]? = some x ∧ xs[i * m.rows + j]? = some y ∧
      drawn.get? i j = some ((Cplx.ofReal x + (Cplx.ofReal y).conj).scale 0.5) := by
  dsimp only [sampleMatrix] at ok
  split at ok
  · cases ok
  · split at ok
    · cases ok
    · rename_i xs after entries
      rw [hermitian_part_of_fn] at ok
      cases ok
      have length : xs.length = m.rows * m.rows := by
        rw [((draw_entries_ok_iff _ _ _ _ _ _).mp entries).2.1]
        simp [columnPlaces]
      have listed {k : Nat} (inside : k < m.rows * m.rows) : xs[k]? = some (xs.toArray.getD k 0) := by
        simp [Array.getD_eq_getD_getElem?, length, inside]
      refine ⟨xs, entries, fun i row j col => ⟨_, _, listed (Mat.index_lt col row), listed (Mat.index_lt row col), ?_⟩⟩
      rw [Mat.get_of_fn, if_pos ⟨row, col⟩]

end Samples

theorem sample_deviation_reads {samples : List (List R)} {deviations : List R}
    (ok : sampleDeviation samples = .ok deviations) : ∀ k < deviations.length, ∃ xs,
      samples.map (·[k]?) = xs.map some ∧ deviations[k]? = some (deviation xs) := by
  intro k inside
  unfold sampleDeviation at ok
  dsimp only at ok
  split at ok
  · rename_i uniform
    cases ok
    rw [List.length_map, List.length_range] at inside
    refine ⟨samples.map fun s => s.getD k 0, ?_, by simp [inside]⟩
    rw [List.map_map]
    refine List.map_congr_left fun s member => list_read_inside ?_ 0
    have same := List.all_eq_true.mp uniform s member
    rwa [decide_eq_true_eq.mp same]
  · cases ok

-- What a step gives is made of what checked reads find, each of which finds something.
structure ReadsInside (σ : Type) [NormalStream σ R] [Build] (solver : EigenSolver R) : Prop where
  blocks : ∀ (blocks : List (Block R)) (name : String) (equilibration stride : Nat) (average : BlockAverage R),
    (averageBlocks blocks name equilibration stride).Returns average → average.error.size = average.mean.size ∧
      ∀ k < average.mean.size, ∃ zs, (window equilibration stride blocks).map (·[k]?) = zs.map some ∧
        average.mean[k]? = some (mean zs) ∧ average.error[k]? = some (standardError zs)
  tensor : ∀ (flat : Array (Cplx R)) (count dim : Nat) (name : String) (t : SpinTensor (Cplx R)),
    SpinTensor.ofRowMajor flat count dim name = .ok t →
      (∀ s < t.count, ∀ i < dim, ∀ j < dim,
        ∃ a, flat[s * (dim * dim) + i * dim + j]? = some a ∧ t.get? s i j = some a) ∧
      (count * (dim * dim) < UInt64.size → 1 ≤ dim → t.count = count)
  triangle : ∀ (packed : Array (Cplx R)) (rows dim : Nat) (m : Mat (Cplx R)), unpackTriangle packed rows dim = .ok m →
    ∀ i < dim, ∀ j < dim, ∃ a, m.get? i j = some a ∧
      (if i < rows ∧ i < j then packed[packedIndex dim i j]? else some 0) = some a
  repeated : ∀ (n : Nat) (m : Mat (Cplx R)), ∀ i < m.rows, ∀ j < m.cols, ∃ a,
    (if n ≤ i ∧ n ≤ j then m.get? (i - n) (j - n) else m.get? i j) = some a ∧ (repeatBlock n m).get? i j = some a
  mirrored : ∀ m : Mat (Cplx R), ∀ i < m.cols, ∀ j < m.rows, ∃ a,
    m.get? j i = some a ∧ m.adjoint.get? i j = some a.conj ∧ m.transpose.get? i j = some a
  product : ∀ a b p : Mat (Cplx R), a.mul? b = some p → ∀ i < a.rows, ∀ j < b.cols,
    ∃ x y : Nat → Cplx R, (∀ k < a.cols, a.get? i k = some (x k) ∧ b.get? k j = some (y k)) ∧
      p.get? i j = some (unitSum (fun k => 1 * x k * y k) a.cols)
  solved : ∀ (m : Mat (Cplx R)) (e : Eigensystem R), eigh solver m = .ok e →
    (solver m).vectors.rows = m.rows ∧ e.values.length = m.rows ∧ e.vectors.shape = (m.rows, m.rows) ∧
      e.values.map some = ((solver m).ascending m.rows).map ((solver m).values[·]?) ∧
      (solver m).Makes ((solver m).ascending m.rows) (fun u _ => u) e.vectors
  above : ∀ (e : Eigensystem R) (cutoff : R), ∀ k ∈ e.above cutoff, ∃ v, e.values[k]? = some v ∧ cutoff < v
  regularised : ∀ (m : Mat (Cplx R)) (cutoff : R) (r : Regularised R), regularise solver m cutoff = .ok r →
    ∃ e scaled, eigh solver m = .ok e ∧ e.Makes (e.above cutoff) (fun u _ => u) (e.columns (e.above cutoff)) ∧
      e.Makes (e.above cutoff) (fun u v => u.scale v) scaled ∧
      scaled.mul? (e.columns (e.above cutoff)).adjoint = some r.matrix ∧
      e.Makes (e.above cutoff) (fun u v => u.unscale (Scalar.sqrt v)) r.transform
  largest : ∀ (m : Mat (Cplx R)) (rank : Nat) (cutoff : R) (x : Option (Mat (Cplx R))),
    whitenWithRank solver m rank cutoff = .ok x →
      ∃ e, eigh solver m = .ok e ∧ (∀ k < rank, ∃ v, e.values[m.rows - rank + k]? = some v) ∧
        ∀ y ∈ x, e.Makes ((List.range rank).map (m.rows - rank + ·)) (fun u v => u.unscale (Scalar.sqrt v)) y
  places : ∀ (m : Mat (Cplx R)) (error : Mat R), m.cols = m.rows → error.shape = m.shape →
    ∀ place ∈ columnPlaces m.rows, ∃ z d, m.get? place.1 place.2 = some z ∧ error.get? place.1 place.2 = some d ∧
      ∀ state : σ, drawEntry m error place.1 place.2 state =
        if Scalar.isFinite d then (.ok (z.re + d * drawAt R state 0), skip R 1 state)
        else (.error (.perturbation place.1 place.2), state)
  drawn : ∀ (m drawn : Mat (Cplx R)) (error : Mat R) (state next : σ), sampleMatrix m error state = (.ok drawn, next) →
    ∃ xs, drawEntries m error (columnPlaces m.rows) state = (.ok xs, next) ∧ ∀ i < m.rows, ∀ j < m.rows, ∃ x y,
      xs[j * m.rows + i]? = some x ∧ xs[i * m.rows + j]? = some y ∧
      drawn.get? i j = some ((Cplx.ofReal x + (Cplx.ofReal y).conj).scale 0.5)
  deviations : ∀ (samples : List (List R)) (deviations : List R), sampleDeviation samples = .ok deviations →
    ∀ k < deviations.length, ∃ xs, samples.map (·[k]?) = xs.map some ∧ deviations[k]? = some (deviation xs)

theorem reads_inside [NormalStream σ R] [Build] {solver : EigenSolver R} (sized : Sized solver) :
    ReadsInside σ solver where
  blocks _ _ _ _ _ averaged := ⟨(average_blocks_sizes averaged).1, average_blocks_reads averaged⟩
  tensor _ _ _ _ _ ok := ⟨row_major_reads ok, row_major_count ok⟩
  triangle _ _ _ _ ok := triangle_reads ok
  repeated := repeat_block_reads
  mirrored m i row j col := by
    refine ⟨m.entry j i, Mat.get_inside col row, ?_, ?_⟩
    · rw [Mat.adjoint, Mat.get_of_fn, if_pos ⟨row, col⟩]
    · rw [Mat.transpose, Mat.get_of_fn, if_pos ⟨row, col⟩]
  product _ _ _ ok := product_reads ok
  solved m e ok := by
    have square := eigh_ok_square solver ok
    obtain ⟨length, shape⟩ := eigh_ok_sizes solver square ok
    exact ⟨(Prod.mk.inj (sized m (Prod.mk.inj square).2.symm).2).1, length, shape, eigh_reads sized ok⟩
  above e cutoff k member :=
    ⟨_, list_read_inside (kept_place_lt cutoff k member) 0, of_decide_eq_true (List.mem_filter.mp member).2⟩
  regularised _ _ _ ok := regularise_reads ok
  largest _ _ _ _ ok := whitened_reads ok
  places _ _ square shape := draw_entry_reads square shape
  drawn _ _ _ _ _ ok := sample_matrix_reads ok
  deviations _ _ ok := sample_deviation_reads ok

end OrbitalSpectra
