import Mathlib
import OrbitalSpectra.Average.PairDensity
import OrbitalSpectra.Proofs.Outcome

set_option autoImplicit false

namespace OrbitalSpectra

-- Entries of the strict upper triangle of order `dim` in the rows above row `i`.
def packedStart (dim : Nat) : Nat → Nat
  | 0 => 0
  | i + 1 => packedStart dim i + (dim - 1 - i)

-- Position of entry `(i, j)` of the strict upper triangle of order `dim`, counted row by row.
def packedIndex (dim i j : Nat) : Nat := packedStart dim i + (j - i - 1)

theorem triangle_places_succ (rows dim : Nat) :
    trianglePlaces (rows + 1) dim =
      trianglePlaces rows dim ++ (List.range' (rows + 1) (dim - 1 - rows)).map fun j => (rows, j) := by
  simp [trianglePlaces, List.range_succ]

theorem mem_triangle_places_iff (rows dim i j : Nat) :
    (i, j) ∈ trianglePlaces rows dim ↔ i < rows ∧ i < j ∧ j < dim := by
  simp only [trianglePlaces, List.mem_flatMap, List.mem_range, List.mem_map, List.mem_range'_1, Prod.mk.injEq]
  constructor
  · rintro ⟨_, row, _, inside, rfl, rfl⟩
    omega
  · rintro ⟨row, above, inside⟩
    exact ⟨i, row, j, by omega, rfl, rfl⟩

theorem row_indices (dim i : Nat) :
    ((List.range' (i + 1) (dim - 1 - i)).map fun j => packedIndex dim i j) =
      List.range' (packedStart dim i) (dim - 1 - i) := by
  apply List.ext_getElem
  · simp
  · intro k left right
    simp only [List.getElem_map, List.getElem_range', packedIndex]
    omega

-- Row by row the places have the positions 0, 1, 2 and so on, each one time.
theorem triangle_indices (rows dim : Nat) :
    (trianglePlaces rows dim).map (fun place => packedIndex dim place.1 place.2) =
      List.range (packedStart dim rows) := by
  induction rows with
  | zero => rfl
  | succ rows ih =>
      have row : ((List.range' (rows + 1) (dim - 1 - rows)).map fun j => (rows, j)).map
          (fun place => packedIndex dim place.1 place.2) =
          List.range' (packedStart dim rows) (dim - 1 - rows) := by
        rw [List.map_map]
        exact row_indices dim rows
      rw [triangle_places_succ, List.map_append, ih, row, packedStart, List.range_eq_range', List.range_eq_range',
        ← List.range'_append_1, Nat.zero_add]

theorem triangle_places_length (rows dim : Nat) : (trianglePlaces rows dim).length = packedStart dim rows := by
  simpa using congrArg List.length (triangle_indices rows dim)

theorem triangle_places_nodup (rows dim : Nat) : (trianglePlaces rows dim).Nodup := by
  apply List.Nodup.of_map fun place : Nat × Nat => packedIndex dim place.1 place.2
  rw [triangle_indices]
  exact List.nodup_range

theorem triangle_place {rows dim i j : Nat} (row : i < rows) (upper : i < j) (col : j < dim) :
    (trianglePlaces rows dim)[packedIndex dim i j]? = some (i, j) := by
  obtain ⟨k, listed⟩ := List.mem_iff_getElem?.mp ((mem_triangle_places_iff rows dim i j).mpr ⟨row, upper, col⟩)
  have index := congrArg (fun positions : List Nat => positions[k]?) (triangle_indices rows dim)
  simp only [List.getElem?_map, listed, Option.map_some] at index
  obtain ⟨_, same⟩ := List.getElem?_eq_some_iff.mp index.symm
  rw [List.getElem_range] at same
  rwa [← same]

theorem packed_index_inside {rows dim i j : Nat} (row : i < rows) (upper : i < j) (col : j < dim) :
    packedIndex dim i j < packedStart dim rows := by
  have inside := (List.getElem?_eq_some_iff.mp (triangle_place row upper col)).1
  rwa [triangle_places_length] at inside

section Filling

variable {α : Type} {packed : Array α} {places : List (Nat × Nat)} {k : Nat} {m m' : Mat α}

theorem fill_places_step {i j : Nat} (filled : fillPlaces packed ((i, j) :: places) k m = .ok m') :
    ∃ a next, packed[k]? = some a ∧ m.set? i j a = some next ∧ fillPlaces packed places (k + 1) next = .ok m' := by
  simp only [fillPlaces, except_bind_ok_iff, or_fault_ok_iff] at filled
  obtain ⟨a, read, next, written, rest⟩ := filled
  exact ⟨a, next, read, written, rest⟩

theorem fill_places_shape (filled : fillPlaces packed places k m = .ok m') : m'.shape = m.shape := by
  induction places generalizing k m with
  | nil =>
      cases filled
      rfl
  | cons place rest ih =>
      obtain ⟨_, _, _, written, later⟩ := fill_places_step filled
      exact (ih later).trans (Mat.set_shape written)

theorem fill_places_other (filled : fillPlaces packed places k m = .ok m') {i j : Nat} (apart : (i, j) ∉ places) :
    m'.get? i j = m.get? i j := by
  induction places generalizing k m with
  | nil =>
      cases filled
      rfl
  | cons place rest ih =>
      obtain ⟨_, _, _, written, later⟩ := fill_places_step filled
      obtain ⟨here, there⟩ := not_or.mp (List.mem_cons.not.mp apart)
      rw [ih later there, Mat.get_of_set written, if_neg fun same => here (Prod.ext same.1 same.2)]

-- The counter stands where the place does in the list.
theorem fill_places_get (filled : fillPlaces packed places k m = .ok m') (apart : places.Nodup) {n i j : Nat}
    (listed : places[n]? = some (i, j)) : m'.get? i j = packed[k + n]? := by
  induction places generalizing k m n with
  | nil => cases listed
  | cons place rest ih =>
      obtain ⟨a, next, read, written, later⟩ := fill_places_step filled
      obtain ⟨fresh, others⟩ := List.nodup_cons.mp apart
      cases n with
      | zero =>
          cases listed
          rw [fill_places_other later fresh, Mat.get_of_set written, if_pos ⟨rfl, rfl⟩, Nat.add_zero, read]
      | succ n => rw [ih later others listed, Nat.add_right_comm, Nat.add_assoc]

theorem fill_places_defined (inside : ∀ p ∈ places, p.1 < m.rows ∧ p.2 < m.cols)
    (enough : k + places.length ≤ packed.size) : ∃ m', fillPlaces packed places k m = .ok m' := by
  induction places generalizing k m with
  | nil => exact ⟨m, rfl⟩
  | cons place rest ih =>
      obtain ⟨here, later⟩ := List.forall_mem_cons.mp inside
      rw [List.length_cons] at enough
      have read := Array.getElem?_eq_getElem (show k < packed.size by omega)
      obtain ⟨next, written⟩ : ∃ next, m.set? place.1 place.2 packed[k] = some next := by
        rw [Mat.set?, if_pos here]
        exact ⟨_, rfl⟩
      obtain ⟨rows, cols⟩ := Prod.mk.inj (Mat.set_shape written)
      obtain ⟨m', filled⟩ := ih (m := next) (k := k + 1) (by rwa [rows, cols]) (by omega)
      refine ⟨m', ?_⟩
      simp only [fillPlaces, read, or_fault_some, written, bind, Except.bind, filled]

end Filling

theorem triangle_count (rows dim : Nat) :
    ((Finset.range rows ×ˢ Finset.range dim).filter fun place => place.1 < place.2).card = packedStart dim rows := by
  have same : ((Finset.range rows ×ˢ Finset.range dim).filter fun place => place.1 < place.2) =
      (trianglePlaces rows dim).toFinset := by
    ext ⟨i, j⟩
    simp only [Finset.mem_filter, Finset.mem_product, Finset.mem_range, List.mem_toFinset, mem_triangle_places_iff]
    omega
  rw [same, List.toFinset_card_of_nodup (triangle_places_nodup rows dim), triangle_places_length]

theorem twice_packed_start (dim i : Nat) (inside : i ≤ dim) :
    2 * packedStart dim i + i * (i - 1) = 2 * (i * (dim - 1)) := by
  induction i with
  | zero => simp [packedStart]
  | succ i ih =>
      have earlier := ih (by omega)
      obtain ⟨rest, width⟩ : ∃ rest, dim - 1 = i + rest := ⟨dim - 1 - i, by omega⟩
      rw [packedStart, width, Nat.add_sub_cancel_left, Nat.add_sub_cancel]
      rw [width] at earlier
      cases i with
      | zero => simp [packedStart]
      | succ i =>
          rw [Nat.add_sub_cancel] at earlier
          linarith

theorem packed_start_closed (dim i : Nat) (inside : i ≤ dim) :
    packedStart dim i = i * (dim - 1) - i * (i - 1) / 2 := by
  have twice := twice_packed_start dim i inside
  have half := Nat.div_mul_cancel (Nat.even_mul_pred_self i).two_dvd
  omega

-- The rows that the triangle of a run records.
def WalkerType.recordedRows (w : WalkerType) (orbitals : Nat) : Nat :=
  match w with
  | .closed => orbitals
  | _ => 2 * orbitals

theorem packed_start_recorded {walker : WalkerType} {orbitals : Nat} (recorded : walker = .closed ∨ walker = .collinear) :
    packedStart (2 * orbitals) (walker.recordedRows orbitals) =
      match walker with
      | .closed => orbitals * (2 * orbitals - 1) - orbitals * (orbitals - 1) / 2
      | _ => orbitals * (2 * orbitals - 1) := by
  rcases recorded with rfl | rfl
  · exact packed_start_closed (2 * orbitals) orbitals (by omega)
  · have twice := twice_packed_start (2 * orbitals) (2 * orbitals) (le_refl _)
    rw [Nat.mul_assoc] at twice
    change packedStart (2 * orbitals) (2 * orbitals) = _
    linarith

theorem same_spin_pairs (orbitals : Nat) : orbitals * (orbitals - 1) ≤ orbitals * (2 * orbitals - 1) :=
  Nat.mul_le_mul_left orbitals (by omega)

section Lengths

variable [Build] {walker : WalkerType} {orbitals : Nat} (recorded : walker = .closed ∨ walker = .collinear)
  (positive : 1 ≤ orbitals)

include recorded positive

theorem packed_length_ok (fits : orbitals * (2 * orbitals - 1) < UInt64.size) :
    walker.packedLength orbitals = .ok (packedStart (2 * orbitals) (walker.recordedRows orbitals)) := by
  have nonzero : orbitals ≠ 0 := by omega
  have fewer := same_spin_pairs orbitals
  rw [packed_start_recorded recorded]
  rcases recorded with rfl | rfl
  · have difference := size_minus_fits ((Nat.div_le_self _ 2).trans fewer)
    simp only [WalkerType.packedLength, if_neg nonzero, to_size_fits fits, to_size_fits (fewer.trans_lt fits), bind,
      Except.bind, difference]
  · simp only [WalkerType.packedLength, if_neg nonzero, to_size_fits fits]

theorem packed_length_overflow (build : Build.overflow = .ends) (large : UInt64.size ≤ orbitals * (2 * orbitals - 1)) :
    walker.packedLength orbitals = .error .overflow := by
  have nonzero : orbitals ≠ 0 := by omega
  rcases recorded with rfl | rfl <;>
    simp only [WalkerType.packedLength, if_neg nonzero, to_size_ends build large, bind, Except.bind]

theorem packed_length_wraps (build : Build.overflow = .wraps) : ∃ length, walker.packedLength orbitals = .ok length := by
  have nonzero : orbitals ≠ 0 := by omega
  rcases recorded with rfl | rfl
  · simp only [WalkerType.packedLength, if_neg nonzero, to_size_wraps build, bind, Except.bind]
    exact size_minus_wraps build _ _
  · simp only [WalkerType.packedLength, if_neg nonzero, to_size_wraps build]
    exact ⟨_, rfl⟩

end Lengths

end OrbitalSpectra
