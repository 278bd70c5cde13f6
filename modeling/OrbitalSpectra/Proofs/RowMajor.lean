import OrbitalSpectra.Proofs.Average.Rescaling
import OrbitalSpectra.Proofs.Shapes

set_option autoImplicit false

namespace OrbitalSpectra

section Blocks

variable {α : Type}

theorem read_piece (xs : List α) (start count : Nat) :
    ((List.range count).filterMap fun j => xs[start + j]?) = (xs.drop start).take count := by
  induction count with
  | zero => rfl
  | succ count ih =>
      rw [List.range_succ, List.filterMap_append, ih, List.take_add_one, List.getElem?_drop]
      congr 1

theorem read_pieces (xs : List α) (width count : Nat) :
    ((List.range count).flatMap fun i => (xs.drop (i * width)).take width) = xs.take (count * width) := by
  induction count with
  | zero => simp
  | succ count ih =>
      rw [List.range_succ, List.flatMap_append, ih, Nat.succ_mul, List.take_add]
      simp

theorem listed_of_get {xs : List α} {n : Nat} {f : Nat → α} (count : xs.length = n)
    (each : ∀ s < n, xs[s]? = some (f s)) : xs = (List.range n).map f := by
  refine List.ext_getElem? fun s => ?_
  by_cases inside : s < n
  · rw [each s inside, List.getElem?_map, List.getElem?_range inside, Option.map_some]
  · rw [List.getElem?_eq_none (by omega), List.getElem?_eq_none (by simpa using inside)]

variable {blocks : List (List α)} {width : Nat}

theorem blocks_get (even : ∀ block ∈ blocks, block.length = width) {k j : Nat} (inside : j < width) :
    blocks.flatten[k * width + j]? = blocks[k]?.bind fun block => block[j]? := by
  induction blocks generalizing k with
  | nil => rfl
  | cons block rest ih =>
      obtain ⟨here, later⟩ := List.forall_mem_cons.mp even
      cases k with
      | zero =>
          have first : 0 * width + j < block.length := by omega
          rw [List.flatten_cons, List.getElem?_append_left first]
          simp
      | succ k =>
          have place : (k + 1) * width + j = block.length + (k * width + j) := by rw [here, Nat.succ_mul]; omega
          rw [List.flatten_cons, place, List.getElem?_append_right (Nat.le_add_right _ _), Nat.add_sub_cancel_left,
            ih later]
          rfl

theorem blocks_length (even : ∀ block ∈ blocks, block.length = width) :
    blocks.flatten.length = blocks.length * width := by
  induction blocks with
  | nil => simp
  | cons block rest ih =>
      obtain ⟨here, later⟩ := List.forall_mem_cons.mp even
      rw [List.flatten_cons, List.length_append, ih later, here, List.length_cons, Nat.succ_mul, Nat.add_comm]

end Blocks

namespace Mat

variable {α : Type} {m : Mat α} {i j : Nat}

def rowByRow (m : Mat α) : List α :=
  (List.range m.rows).flatMap fun i => (List.range m.cols).filterMap fun j => m.get? i j

theorem cells_length (m : Mat α) : m.toList.length = m.rows * m.cols := m.size_cells

theorem cells_get (row : i < m.rows) (col : j < m.cols) : m.toList[i * m.cols + j]? = m.get? i j := by
  rw [get?, if_pos ⟨row, col⟩, toList, Array.getElem?_toList]

theorem row_by_row_cells (m : Mat α) : m.rowByRow = m.toList := by
  have rows : ∀ i ∈ List.range m.rows, ((List.range m.cols).filterMap fun j => m.get? i j) =
      (m.toList.drop (i * m.cols)).take m.cols := by
    intro i row
    rw [← read_piece]
    exact List.filterMap_congr fun j col => (cells_get (List.mem_range.mp row) (List.mem_range.mp col)).symm
  rw [rowByRow, List.flatMap_congr rows, read_pieces, List.take_of_length_le m.cells_length.le]

theorem of_fn_of_get {r c : Nat} (shape : m.shape = (r, c)) {f : Nat → Nat → α}
    (entries : ∀ i j, i < r → j < c → m.get? i j = some (f i j)) : m = ofFn r c f := by
  obtain ⟨rfl, rfl⟩ := Prod.mk.inj shape
  refine ext (show m.rows = (ofFn m.rows m.cols f).rows from rfl) rfl fun i j row col => ?_
  rw [entries i j row col, get_of_fn, if_pos ⟨row, col⟩]

end Mat

namespace SpinTensor

variable {α : Type}

-- The sectors one after another, each row by row.
def rowMajor (t : SpinTensor α) : List α := t.sectors.flatMap Mat.rowByRow

theorem row_major_cells (t : SpinTensor α) : t.rowMajor = (t.sectors.map Mat.toList).flatten := by
  rw [rowMajor, List.flatMap_def, funext Mat.row_by_row_cells]

section Places

variable {t : SpinTensor α} {n d s i j : Nat}

theorem sector_shape (shape : t.shape = (n, d, d)) {m : Mat α} (member : m ∈ t.sectors) : m.shape = (d, d) := by
  obtain ⟨_, dim, _⟩ := shape
  exact t.uniform m member

theorem sector_exists (shape : t.shape = (n, d, d)) (sector : s < n) :
    ∃ m, t.sectors[s]? = some m ∧ m.rows = d ∧ m.cols = d := by
  have count : t.sectors.length = n := congrArg Prod.fst shape
  have held := List.getElem?_eq_getElem (count.symm ▸ sector)
  exact ⟨_, held, Prod.mk.inj (sector_shape shape (List.mem_of_getElem? held))⟩

theorem blocks_even (shape : t.shape = (n, d, d)) : ∀ block ∈ t.sectors.map Mat.toList, block.length = d * d := by
  intro block member
  obtain ⟨m, held, rfl⟩ := List.mem_map.mp member
  obtain ⟨rows, cols⟩ := Prod.mk.inj (sector_shape shape held)
  rw [m.cells_length, rows, cols]

theorem row_major_get (shape : t.shape = (n, d, d)) (sector : s < n) (row : i < d) (col : j < d) :
    t.rowMajor[s * (d * d) + i * d + j]? = t.get? s i j := by
  obtain ⟨m, held, rows, cols⟩ := sector_exists shape sector
  have cell := Mat.cells_get (m := m) (rows.symm ▸ row) (cols.symm ▸ col)
  rw [cols] at cell
  rw [row_major_cells, Nat.add_assoc, blocks_get (blocks_even shape) (Mat.index_lt row col), List.getElem?_map, held]
  simp only [Option.map_some, Option.bind_some, get?, held, cell]

theorem row_major_length (shape : t.shape = (n, d, d)) : t.rowMajor.length = n * (d * d) := by
  have count : t.sectors.length = n := congrArg Prod.fst shape
  rw [row_major_cells, blocks_length (blocks_even shape), List.length_map, count]

theorem get_inside (shape : t.shape = (n, d, d)) (sector : s < n) (row : i < d) (col : j < d) :
    ∃ a, t.get? s i j = some a := by
  have place : s * (d * d) + i * d + j < t.rowMajor.length := row_major_length shape ▸ flat_place_lt sector row col
  exact ⟨_, (row_major_get shape sector row col).symm.trans (List.getElem?_eq_getElem place)⟩

end Places

end SpinTensor

section Flat

variable {α : Type} {n d : Nat} {xs : List α} {t : SpinTensor α}

-- The stack has the layout of the array, holds its entries, and is read back to it.
structure SpinTensor.Holds (t : SpinTensor α) (n d : Nat) (xs : List α) : Prop where
  shape : t.shape = (n, d, d)
  entry : ∀ s i j, s < n → i < d → j < d →
    ∃ a, t.get? s i j = some a ∧ xs[s * (d * d) + i * d + j]? = some a
  readBack : t.rowMajor = xs

theorem SpinTensor.holds_of_row_major (shape : t.shape = (n, d, d)) (readBack : t.rowMajor = xs) : t.Holds n d xs where
  shape := shape
  entry s i j sector row col := by
    obtain ⟨a, held⟩ := get_inside shape sector row col
    exact ⟨a, held, by rw [← readBack, row_major_get shape sector row col, held]⟩
  readBack := readBack

variable [Zero α]

def flatSector (d : Nat) (xs : List α) (s : Nat) : Mat α :=
  Mat.ofFn d d fun i j => xs.getD (s * (d * d) + i * d + j) 0

theorem flat_sector_rows {s : Nat} (sector : s < n) (size : xs.length = n * (d * d)) :
    (flatSector d xs s).rowByRow = (xs.drop (s * (d * d))).take (d * d) := by
  have row : ∀ i ∈ List.range d, ((List.range d).filterMap fun j => (flatSector d xs s).get? i j) =
      ((xs.drop (s * (d * d))).drop (i * d)).take d := by
    intro i member
    rw [List.drop_drop, ← read_piece]
    refine List.filterMap_congr fun j inside => ?_
    have row := List.mem_range.mp member
    have col := List.mem_range.mp inside
    have place : s * (d * d) + i * d + j < xs.length := size ▸ flat_place_lt sector row col
    rw [flatSector, Mat.get_of_fn, if_pos ⟨row, col⟩, List.getD_eq_getElem?_getD, List.getElem?_eq_getElem place]
    rfl
  exact (List.flatMap_congr row).trans (read_pieces _ _ _)

theorem SpinTensor.Holds.sector (held : t.Holds n d xs) {s : Nat} (sector : s < n) :
    t.sectors[s]? = some (flatSector d xs s) := by
  obtain ⟨m, found, rows, cols⟩ := sector_exists held.shape sector
  rw [found, Option.some.injEq]
  refine Mat.of_fn_of_get (Prod.ext rows cols) fun i j row col => ?_
  obtain ⟨a, entry, place⟩ := held.entry s i j sector row col
  rw [get?, found, Option.bind_some] at entry
  rw [entry, List.getD_eq_getElem?_getD, place, Option.getD_some]

-- A stack of some sectors holds an array exactly when its sectors are those of the array.
theorem SpinTensor.holds_iff_sectors (some : 0 < n) : t.Holds n d xs ↔
    xs.length = n * (d * d) ∧ t.sectors = (List.range n).map (flatSector d xs) := by
  constructor
  · intro held
    have count : t.sectors.length = n := congrArg Prod.fst held.shape
    exact ⟨held.readBack ▸ row_major_length held.shape, listed_of_get count fun _ => held.sector⟩
  · rintro ⟨size, sectors⟩
    refine holds_of_row_major (stack_shape t n d _ (fun _ => rfl) some sectors) ?_
    have rows : ∀ s ∈ List.range n, (flatSector d xs s).rowByRow = (xs.drop (s * (d * d))).take (d * d) :=
      fun s member => flat_sector_rows (List.mem_range.mp member) size
    rw [rowMajor, sectors, List.flatMap_map, List.flatMap_congr rows, read_pieces, ← size, List.take_length]

theorem of_row_major_holds [Build] (some : 0 < n) (basis : 0 < d) (fits : n * (d * d) < UInt64.size) (flat : Array α)
    (name : String) : SpinTensor.ofRowMajor flat n d name = .ok t ↔ t.Holds n d flat.toList := by
  have sectors : flatSector d flat.toList = fun s =>
      Mat.ofFn d d fun i j => flat.getD (s * (d * d) + i * d + j) 0 := by
    funext s
    simp only [flatSector, List.getD_eq_getElem?_getD, Array.getElem?_toList, Array.getD_eq_getD_getElem?]
  have positive : 0 < n * (d * d) := Nat.mul_pos some (Nat.mul_pos basis basis)
  rw [SpinTensor.holds_iff_sectors some, sectors, Array.length_toList]
  constructor
  · intro ok
    have size := SpinTensor.of_row_major_fits some fits ok
    exact ⟨size, (SpinTensor.of_row_major_ok_iff (size ▸ positive) size).mp ok⟩
  · rintro ⟨size, held⟩
    exact (SpinTensor.of_row_major_ok_iff (size ▸ positive) size).mpr held

end Flat

section Reshape

variable {α : Type} {n d : Nat}

theorem of_sectors_square {ms : List (Mat α)} (some : 1 ≤ ms.length) (square : ∀ m ∈ ms, m.shape = (d, d)) :
    ∃ t, SpinTensor.ofSectors ms = .ok t ∧ t.sectors = ms ∧ t.shape = (ms.length, d, d) := by
  have dim : commonDim (ms.map Mat.shape) = d := by
    obtain ⟨first, rest, rfl⟩ := List.exists_cons_of_length_pos some
    exact congrArg Prod.fst (square first List.mem_cons_self)
  have uniform : ∀ m ∈ ms, m.shape = (commonDim (ms.map Mat.shape), commonDim (ms.map Mat.shape)) :=
    dim.symm ▸ square
  refine ⟨⟨ms, uniform⟩, dif_pos uniform, rfl, ?_⟩
  rw [SpinTensor.shape, SpinTensor.count, SpinTensor.dim, dim]

structure SectorsOf (flat : Array α) (n d : Nat) (ms : List (Mat α)) : Prop where
  count : ms.length = n
  square : ∀ m ∈ ms, m.shape = (d, d)
  entry : ∀ s i j, s < n → i < d → j < d →
    (ms[s]?.bind fun m => m.get? i j) = flat[s * (d * d) + i * d + j]?

variable [Zero α] {flat : Array α}

theorem flat_sectors (size : flat.size = n * (d * d)) :
    SectorsOf flat n d ((List.range n).map (flatSector d flat.toList)) where
  count := by rw [List.length_map, List.length_range]
  square m member := by
    obtain ⟨s, _, rfl⟩ := List.mem_map.mp member
    rfl
  entry s i j sector row col := by
    have place : s * (d * d) + i * d + j < flat.size := size ▸ flat_place_lt sector row col
    simp [sector, flatSector, Mat.get_of_fn, row, col, place]

theorem SectorsOf.unique {ms : List (Mat α)} (same : SectorsOf flat n d ms) (size : flat.size = n * (d * d)) :
    ms = (List.range n).map (flatSector d flat.toList) := by
  refine listed_of_get same.count fun s sector => ?_
  have held := List.getElem?_eq_getElem (same.count.symm ▸ sector)
  rw [held, Option.some.injEq]
  refine Mat.of_fn_of_get (same.square _ (List.mem_of_getElem? held)) fun i j row col => ?_
  have place : s * (d * d) + i * d + j < flat.size := size ▸ flat_place_lt sector row col
  have entry := same.entry s i j sector row col
  rw [held, Option.bind_some] at entry
  rw [entry]
  simp [place]

theorem reshaped_unless_empty [Build] (flat : Array α) (sectors dim : Nat) (name : String) (some : 1 ≤ sectors)
    (sized : sectors * (dim * dim) < UInt64.size) (t : SpinTensor α)
    (ok : SpinTensor.ofRowMajor flat sectors dim name = .ok t) :
    t.shape = (if dim = 0 then 0 else sectors, dim, dim) ∧
    (∃ ms, SectorsOf flat sectors dim ms) ∧
    ∀ ms, SectorsOf flat sectors dim ms → ∃ built, SpinTensor.ofSectors ms = .ok built ∧
      built.shape = (sectors, dim, dim) ∧ (built = t ↔ 1 ≤ dim) := by
  have size := SpinTensor.of_row_major_fits some sized ok
  have none : dim = 0 → t.sectors = [] := fun empty => SpinTensor.of_row_major_empty ok (by simp [size, empty])
  refine ⟨?_, ⟨_, flat_sectors size⟩, fun ms same => ?_⟩
  · by_cases empty : dim = 0
    · subst empty
      simp [SpinTensor.shape, SpinTensor.count, SpinTensor.dim, none rfl, commonDim]
    · have held := (of_row_major_holds some (Nat.pos_of_ne_zero empty) sized flat name).mp ok
      rw [if_neg empty, held.shape]
  · obtain ⟨built, made, listed, shape⟩ := of_sectors_square (same.count.symm ▸ some) same.square
    refine ⟨built, made, same.count ▸ shape, ?_⟩
    by_cases empty : dim = 0
    · subst empty
      refine iff_of_false (fun equal => ?_) (by decide)
      rw [← listed, equal, none rfl] at same
      have count : 0 = sectors := same.count
      omega
    · have basis : 1 ≤ dim := Nat.pos_of_ne_zero empty
      have held := (of_row_major_holds some basis sized flat name).mp ok
      refine iff_of_true (SpinTensor.ext_sectors ?_) basis
      rw [listed, same.unique size, ((SpinTensor.holds_iff_sectors some).mp held).2]

-- Two empty matrices, and the stack without sectors that is read in place of theirs.
theorem reshaped_unless_empty_pair : ∃ t built : SpinTensor ℕ, SpinTensor.ofRowMajor #[] 2 0 "one_rdm" = .ok t ∧
    t.shape = (0, 0, 0) ∧ SectorsOf #[] 2 0 [Mat.zeros 0 0, (Mat.zeros 0 0 : Mat ℕ)] ∧
    SpinTensor.ofSectors [Mat.zeros 0 0, Mat.zeros 0 0] = .ok built ∧ built.shape = (2, 0, 0) ∧ built ≠ t := by
  obtain ⟨t, ok⟩ : ∃ t : SpinTensor ℕ, SpinTensor.ofRowMajor #[] 2 0 "one_rdm" = .ok t := ⟨_, rfl⟩
  obtain ⟨shape, _, each⟩ := reshaped_unless_empty #[] 2 0 "one_rdm" (by decide) (by decide) t ok
  have same : SectorsOf #[] 2 0 [Mat.zeros 0 0, (Mat.zeros 0 0 : Mat ℕ)] :=
    ⟨rfl, by simp [Mat.shape, Mat.zeros], by simp⟩
  obtain ⟨built, made, layout, equal⟩ := each _ same
  exact ⟨t, built, ok, shape, same, made, layout, fun other => absurd (equal.mp other) (by decide)⟩

end Reshape

end OrbitalSpectra
