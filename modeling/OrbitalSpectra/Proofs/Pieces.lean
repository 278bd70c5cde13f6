import OrbitalSpectra.Proofs.Outcome
import OrbitalSpectra.SpinTensor

set_option autoImplicit false

namespace OrbitalSpectra

variable {α β : Type}

namespace SpinTensor

section Pieces

variable {width : Nat}

-- A piece starts where those before it end, and is there as long as something is left.
theorem pieces_get (count : Nat) (xs : List α) (s : Nat) :
    (pieces width count xs)[s]? =
      if s < count ∧ s * width < xs.length then some ((xs.drop (s * width)).take width) else none := by
  induction count generalizing xs s with
  | zero => simp [pieces]
  | succ count ih =>
      cases xs with
      | nil => simp [pieces]
      | cons x xs =>
          cases s with
          | zero => simp [pieces]
          | succ s =>
              have place : (s + 1) * width = width + s * width := by rw [Nat.succ_mul, Nat.add_comm]
              have left : s < count ∧ s * width < (x :: xs).length - width ↔
                  s + 1 < count + 1 ∧ width + s * width < (x :: xs).length := by omega
              rw [pieces, List.getElem?_cons_succ, ih, List.drop_drop, List.length_drop, place]
              simp only [left]

theorem pieces_head {count : Nat} {xs : List α} (several : 0 < count) (nonempty : 0 < xs.length) :
    (pieces width count xs)[0]? = some (xs.take width) := by
  rw [pieces_get, Nat.zero_mul, if_pos ⟨several, nonempty⟩, List.drop_zero]

theorem piece_at {count s : Nat} {xs : List α} (listed : s < (pieces width count xs).length) :
    (s < count ∧ s * width < xs.length) ∧ (pieces width count xs)[s] = (xs.drop (s * width)).take width := by
  have cut := List.getElem?_eq_getElem listed
  rw [pieces_get] at cut
  split at cut
  · rename_i inside
    exact ⟨inside, (Option.some.inj cut).symm⟩
  · cases cut

-- A piece that is not the last has the whole width, so pieces of one length lie that far from each other.
theorem pieces_start {length count s : Nat} {xs : List α} (filled : ∀ p ∈ pieces width count xs, p.length = length)
    (listed : s < (pieces width count xs).length) : s * width = s * length := by
  rcases Nat.eq_zero_or_pos s with rfl | positive
  · rw [Nat.zero_mul, Nat.zero_mul]
  · obtain ⟨⟨inside, left⟩, _⟩ := piece_at listed
    have wide : width ≤ s * width := Nat.le_mul_of_pos_left _ positive
    have full := filled _ (List.mem_of_getElem? (pieces_head (by omega) (by omega)))
    rw [List.length_take, Nat.min_eq_left (by omega)] at full
    rw [full]

theorem pieces_full (positive : 0 < width) {count : Nat} {xs : List α} (size : xs.length = count * width) :
    pieces width count xs = (List.range count).map fun s => (xs.drop (s * width)).take width := by
  refine List.ext_getElem? fun s => ?_
  rw [pieces_get, List.getElem?_map]
  by_cases inside : s < count
  · have place : s * width < xs.length := size ▸ Nat.mul_lt_mul_of_pos_right inside positive
    rw [if_pos ⟨inside, place⟩, List.getElem?_range inside, Option.map_some]
  · rw [if_neg fun both => inside both.1, List.getElem?_eq_none (by simpa using inside), Option.map_none]

theorem pieces_length_le (count : Nat) (xs : List α) : (pieces width count xs).length ≤ count := by
  induction count generalizing xs with
  | zero => exact Nat.le_refl 0
  | succ count ih =>
      cases xs with
      | nil => exact Nat.zero_le _
      | cons x xs => exact Nat.succ_le_succ (ih _)

@[simp] theorem pieces_nil (count : Nat) : pieces width count ([] : List α) = [] := by
  cases count <;> rfl

theorem pieces_map (f : α → β) (count : Nat) (xs : List α) :
    pieces width count (xs.map f) = (pieces width count xs).map (List.map f) := by
  induction count generalizing xs with
  | zero => rfl
  | succ count ih =>
      cases xs with
      | nil => rfl
      | cons x xs =>
          rw [List.map_cons, pieces, pieces, List.map_cons, ← List.map_cons, ← List.map_take, ← List.map_drop, ih]

end Pieces

section Matrices

variable [Zero α]

def squareOf (dim : Nat) (entries : List α) : Mat α := Mat.ofFn dim dim fun i j => entries.getD (i * dim + j) 0

theorem square_of_cells {dim : Nat} {entries : List α} (size : entries.length = dim * dim)
    (held : entries.toArray.size = dim * dim) : Mat.mk dim dim entries.toArray held = squareOf dim entries := by
  refine Mat.ext rfl rfl fun i j row col => ?_
  have place : i * dim + j < entries.length := size ▸ Mat.index_lt row col
  rw [squareOf, Mat.get_of_fn, if_pos ⟨row, col⟩, Mat.get?, if_pos ⟨row, col⟩]
  simp [place]

theorem of_pieces_ok_iff {dim : Nat} {ps : List (List α)} {t : SpinTensor α} :
    ofPieces dim ps = .ok t ↔ (∀ p ∈ ps, p.length = dim * dim) ∧ t.sectors = ps.map (squareOf dim) := by
  by_cases full : ∀ p ∈ ps, p.length = dim * dim
  · have sectors : (ps.attach.map fun p => Mat.mk dim dim p.val.toArray (full p.val p.property)) =
        ps.map (squareOf dim) := by
      rw [List.map_congr_left fun p _ => square_of_cells (full p.val p.property) _, List.map_attach_eq_pmap,
        List.pmap_eq_map]
    rw [ofPieces, dif_pos full, Except.ok.injEq]
    constructor
    · rintro rfl
      exact ⟨full, sectors⟩
    · rintro ⟨_, same⟩
      cases t
      simp only at same
      simp only [same, sectors]
  · rw [ofPieces, dif_neg full]
    exact iff_of_false (fun ok => by cases ok) fun both => full both.1

variable [Zero β] {f : α → β} (zero : f 0 = 0)

include zero

theorem square_of_map (dim : Nat) (entries : List α) :
    squareOf dim (entries.map f) = (squareOf dim entries).map f := by
  rw [squareOf, squareOf, Mat.map_of_fn]
  refine Mat.of_fn_congr fun i j _ _ => ?_
  by_cases inside : i * dim + j < entries.length <;> simp [List.getD_eq_getElem?_getD, inside, zero]

theorem of_pieces_map (dim : Nat) (ps : List (List α)) :
    ofPieces dim (ps.map (List.map f)) = (ofPieces dim ps).map (map f) := by
  by_cases full : ∀ p ∈ ps, p.length = dim * dim
  · obtain ⟨t, held⟩ : ∃ t, ofPieces dim ps = .ok t := ⟨_, dif_pos full⟩
    rw [held]
    refine of_pieces_ok_iff.mpr ⟨by simpa using full, ?_⟩
    change t.sectors.map (Mat.map f) = _
    rw [(of_pieces_ok_iff.mp held).2, List.map_map, List.map_map]
    exact List.map_congr_left fun p _ => (square_of_map zero dim p).symm
  · rw [ofPieces, ofPieces, dif_neg full, dif_neg (by simpa using full)]
    rfl

end Matrices

section Sizes

variable [Build] {found sectors dim : Nat}

theorem layout_sizes_exact (some : 0 < found) (size : found = sectors * (dim * dim)) :
    layoutSizes found sectors dim = .ok (dim * dim, found) := by
  rw [layoutSizes, if_pos ⟨some, size⟩]
  rfl

theorem layout_sizes_inexact (inexact : ¬ (0 < found ∧ found = sectors * (dim * dim))) :
    layoutSizes found sectors dim = (do
      let block ← toSize (dim * dim)
      let length ← toSize (sectors * block)
      return (block, length)) := by
  rw [layoutSizes, if_neg inexact]

theorem layout_sizes_fit (some : 0 < sectors) (fits : sectors * (dim * dim) < UInt64.size) :
    layoutSizes found sectors dim = .ok (dim * dim, sectors * (dim * dim)) := by
  by_cases exact : 0 < found ∧ found = sectors * (dim * dim)
  · rw [layout_sizes_exact exact.1 exact.2, exact.2]
  · have inner : dim * dim < UInt64.size := Nat.lt_of_le_of_lt (Nat.le_mul_of_pos_left _ some) fits
    rw [layout_sizes_inexact exact, to_size_fits inner]
    change (toSize (sectors * (dim * dim)) >>= fun length => _) = _
    rw [to_size_fits fits]
    rfl

-- For as many elements as an array can have the exact sizes are no exception.
theorem layout_sizes_counted (counted : found < UInt64.size) :
    layoutSizes found sectors dim = (do
      let block ← toSize (dim * dim)
      let length ← toSize (sectors * block)
      return (block, length)) := by
  by_cases exact : 0 < found ∧ found = sectors * (dim * dim)
  · have some : 0 < sectors := by
      refine Nat.pos_of_ne_zero fun none => ?_
      rw [none, Nat.zero_mul] at exact
      omega
    have fits : sectors * (dim * dim) < UInt64.size := exact.2 ▸ counted
    have inner : dim * dim < UInt64.size := Nat.lt_of_le_of_lt (Nat.le_mul_of_pos_left _ some) fits
    rw [layout_sizes_exact exact.1 exact.2, exact.2, to_size_fits inner]
    change _ = (toSize (sectors * (dim * dim)) >>= fun length => _)
    rw [to_size_fits fits]
    rfl
  · exact layout_sizes_inexact exact

end Sizes

section Reading

variable [Build] [Zero α] {flat : Array α} {sectors dim : Nat} {name : String} {t : SpinTensor α}

theorem of_row_major_pieces_iff : ofRowMajor flat sectors dim name = .ok t ↔
    ∃ block, layoutSizes flat.size sectors dim = .ok (block, flat.size) ∧
      (∀ p ∈ pieces (max block 1) sectors flat.toList, p.length = dim * dim) ∧
      t.sectors = (pieces (max block 1) sectors flat.toList).map (squareOf dim) := by
  cases layout : layoutSizes flat.size sectors dim with
  | error e =>
      simp only [ofRowMajor, layout]
      exact iff_of_false (fun ok => by cases ok) fun ⟨_, ok, _⟩ => by cases ok
  | ok sizes =>
      obtain ⟨block, length⟩ := sizes
      simp only [ofRowMajor, layout, bind, Except.bind]
      by_cases fits : flat.size = length
      · subst fits
        rw [if_neg (not_not_intro rfl)]
        constructor
        · exact fun ok => ⟨block, rfl, of_pieces_ok_iff.mp ok⟩
        · rintro ⟨other, same, held⟩
          cases same
          exact of_pieces_ok_iff.mpr held
      · rw [if_pos fits]
        refine iff_of_false (fun ok => by cases ok) fun ⟨_, same, _⟩ => ?_
        cases same
        exact fits rfl

omit [Build] in
theorem square_of_piece {start i j : Nat} (row : i < dim) (col : j < dim) :
    ((flat.toList.drop start).take (dim * dim)).getD (i * dim + j) 0 = flat.getD (start + i * dim + j) 0 := by
  have place : i * dim + j < dim * dim := Mat.index_lt row col
  simp [List.getD_eq_getElem?_getD, Array.getD_eq_getD_getElem?, place, Nat.add_assoc]

omit [Build] [Zero α] in
theorem pieces_filled (size : flat.size = sectors * (dim * dim)) :
    ∀ p ∈ pieces (max (dim * dim) 1) sectors flat.toList, p.length = dim * dim := by
  rcases Nat.eq_zero_or_pos (dim * dim) with none | positive
  · have empty : flat.toList = [] := by
      rw [Array.toList_eq_nil_iff, ← Array.size_eq_zero_iff, size, none, Nat.mul_zero]
    rw [empty, pieces_nil]
    exact fun _ member => absurd member List.not_mem_nil
  · rw [Nat.max_eq_left positive, pieces_full positive (by rw [Array.length_toList, size])]
    intro p member
    obtain ⟨s, inside, rfl⟩ := List.mem_map.mp member
    have later : s * (dim * dim) + dim * dim ≤ flat.size := by
      rw [size, ← Nat.succ_mul]
      exact Nat.mul_le_mul_right _ (List.mem_range.mp inside)
    rw [List.length_take, List.length_drop, Array.length_toList]
    omega

-- The sectors of an array with an element for every place of theirs.
theorem of_row_major_ok_iff (some : 0 < flat.size) (size : flat.size = sectors * (dim * dim)) :
    ofRowMajor flat sectors dim name = .ok t ↔ t.sectors = (List.range sectors).map fun s =>
      Mat.ofFn dim dim fun i j => flat.getD (s * (dim * dim) + i * dim + j) 0 := by
  have positive : 0 < dim * dim := by
    refine Nat.pos_of_ne_zero fun none => ?_
    rw [size, none, Nat.mul_zero] at some
    exact Nat.lt_irrefl 0 some
  have filled := pieces_filled size
  have squares : (pieces (max (dim * dim) 1) sectors flat.toList).map (squareOf dim) =
      (List.range sectors).map fun s => Mat.ofFn dim dim fun i j => flat.getD (s * (dim * dim) + i * dim + j) 0 := by
    rw [Nat.max_eq_left positive, pieces_full positive (by rw [Array.length_toList, size]), List.map_map]
    exact List.map_congr_left fun s _ => Mat.of_fn_congr fun i j row col => square_of_piece row col
  rw [of_row_major_pieces_iff, layout_sizes_exact some size]
  constructor
  · rintro ⟨_, same, _, held⟩
    cases same
    rwa [squares] at held
  · intro held
    exact ⟨dim * dim, rfl, filled, held.trans squares.symm⟩

theorem of_row_major_empty (ok : ofRowMajor flat sectors dim name = .ok t) (none : flat.size = 0) : t.sectors = [] := by
  obtain ⟨block, _, _, held⟩ := of_row_major_pieces_iff.mp ok
  rw [held, Array.toList_eq_nil_iff.mpr (Array.size_eq_zero_iff.mp none), pieces_nil, List.map_nil]

-- With one or two sectors the sizes of a build agree with those of an array that is not empty only where
-- the exact sizes do.
theorem of_row_major_size (few : sectors ≤ 2) (ok : ofRowMajor flat sectors dim name = .ok t)
    (nonempty : t.sectors ≠ []) :
    0 < flat.size ∧ flat.size = sectors * (dim * dim) := by
  have positive : 0 < flat.size := Nat.pos_of_ne_zero fun none => nonempty (of_row_major_empty ok none)
  refine ⟨positive, Decidable.byContradiction fun inexact => ?_⟩
  obtain ⟨block, layout, filled, held⟩ := of_row_major_pieces_iff.mp ok
  rw [layout_sizes_inexact fun both => inexact both.2] at layout
  simp only [except_bind_ok_iff] at layout
  obtain ⟨inner, innerOk, outer, outerOk, same⟩ := layout
  cases same
  have several : 0 < sectors := by
    refine Nat.pos_of_ne_zero fun none => nonempty ?_
    rw [held, none, pieces, List.map_nil]
  -- the first piece fills a sector, so the sector is not longer than the array
  have full := filled _ (List.mem_of_getElem? (pieces_head several (by rwa [Array.length_toList])))
  rw [List.length_take, Array.length_toList] at full
  have bound := to_size_bound outerOk
  have fits : dim * dim < UInt64.size := by omega
  cases (to_size_fits fits).symm.trans innerOk
  have total := to_size_mod outerOk
  rw [show UInt64.size = 18446744073709551616 from rfl] at fits bound total
  rcases (by omega : sectors = 1 ∨ sectors = 2) with rfl | rfl
  · omega
  · omega

section Fitting

variable (several : 0 < sectors) (fits : sectors * (dim * dim) < UInt64.size)

include several fits

theorem of_row_major_fits (ok : ofRowMajor flat sectors dim name = .ok t) : flat.size = sectors * (dim * dim) := by
  obtain ⟨block, layout, _⟩ := of_row_major_pieces_iff.mp ok
  rw [layout_sizes_fit several fits, Except.ok.injEq, Prod.mk.injEq] at layout
  exact layout.2.symm

omit [Zero α] in
theorem of_row_major_error {e : Failure} (failed : ofRowMajor flat sectors dim name = .error e) :
    e = .reported (.shapeMismatch name (sectors * (dim * dim)) flat.size) ∧ flat.size ≠ sectors * (dim * dim) := by
  simp only [ofRowMajor, layout_sizes_fit several fits, bind, Except.bind] at failed
  by_cases size : flat.size = sectors * (dim * dim)
  · rw [if_neg (not_not_intro size), ofPieces, dif_pos (pieces_filled size)] at failed
    cases failed
  · rw [if_pos size] at failed
    cases failed
    exact ⟨rfl, size⟩

end Fitting

theorem of_row_major_get (ok : ofRowMajor flat sectors dim name = .ok t) {s i j : Nat} (sector : s < t.count)
    (row : i < dim) (col : j < dim) : t.get? s i j = flat[s * (dim * dim) + i * dim + j]? := by
  obtain ⟨block, _, filled, held⟩ := of_row_major_pieces_iff.mp ok
  have listed : s < (pieces (max block 1) sectors flat.toList).length := by
    rwa [count, held, List.length_map] at sector
  obtain ⟨_, cut⟩ := piece_at listed
  have full := filled _ (List.getElem_mem listed)
  rw [cut] at full
  have below : i * dim + j < ((flat.toList.drop (s * max block 1)).take (max block 1)).length :=
    full ▸ Mat.index_lt row col
  rw [get?, held, List.getElem?_map, List.getElem?_eq_getElem listed, cut, Option.map_some, Option.bind_some, squareOf,
    Mat.get_of_fn, if_pos ⟨row, col⟩, List.getD_eq_getElem?_getD, List.getElem?_eq_getElem below, Option.getD_some,
    List.getElem_take, List.getElem_drop, ← Array.getElem?_toList, ← pieces_start filled listed, Nat.add_assoc]
  exact (List.getElem?_eq_getElem _).symm

theorem of_row_major_map [Zero β] {f : α → β} (zero : f 0 = 0) :
    ofRowMajor (flat.map f) sectors dim name = (ofRowMajor flat sectors dim name).map (map f) := by
  cases layout : layoutSizes flat.size sectors dim with
  | error e => simp only [ofRowMajor, Array.size_map, layout, bind, Except.bind, Except.map]
  | ok sizes =>
      obtain ⟨block, length⟩ := sizes
      simp only [ofRowMajor, Array.size_map, layout, bind, Except.bind, Array.toList_map, pieces_map, of_pieces_map zero]
      by_cases size : flat.size = length
      · rw [if_neg (not_not_intro size), if_neg (not_not_intro size)]
      · rw [if_pos size, if_pos size]
        rfl

end Reading

end SpinTensor

end OrbitalSpectra
