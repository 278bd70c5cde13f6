import OrbitalSpectra.Proofs.RowMajor

set_option autoImplicit false

namespace OrbitalSpectra

-- A place inside one block is no place of another.
theorem blocks_set {α : Type} {blocks : List (List α)} {width : Nat}
    (even : ∀ block ∈ blocks, block.length = width) {k j : Nat} {block : List α}
    (held : blocks[k]? = some block) (inside : j < width) (a : α) :
    (blocks.set k (block.set j a)).flatten = blocks.flatten.set (k * width + j) a := by
  induction blocks generalizing k with
  | nil => cases held
  | cons first rest ih =>
      obtain ⟨here, later⟩ := List.forall_mem_cons.mp even
      cases k with
      | zero =>
          obtain rfl := Option.some.inj held
          have place : 0 * width + j < first.length := by omega
          rw [List.set_cons_zero, List.flatten_cons, List.flatten_cons, List.set_append_left _ _ place,
            Nat.zero_mul, Nat.zero_add]
      | succ k =>
          have place : (k + 1) * width + j = first.length + (k * width + j) := by rw [here, Nat.succ_mul]; omega
          rw [List.set_cons_succ, List.flatten_cons, List.flatten_cons, place,
            List.set_append_right _ _ (Nat.le_add_right _ _), Nat.add_sub_cancel_left, ih later held]

namespace Mat

variable {α : Type} {m : Mat α} {i j : Nat}

theorem set_inside (row : i < m.rows) (col : j < m.cols) (a : α) : ∃ m', m.set? i j a = some m' ∧
    m'.shape = m.shape ∧ m'.toList = m.toList.set (i * m.cols + j) a :=
  ⟨_, if_pos ⟨row, col⟩, rfl, Array.toList_setIfInBounds⟩

theorem set_outside (outside : ¬ (i < m.rows ∧ j < m.cols)) (a : α) : m.set? i j a = none := if_neg outside

end Mat

namespace SpinTensor

variable {α β : Type} {n d : Nat}

section Writing

variable {t : SpinTensor α} {s i j : Nat}

theorem set_some {m m' : Mat α} {a : α} (held : t.sectors[s]? = some m) (changed : m.set? i j a = some m') :
    ∃ t', t.set? s i j a = some t' ∧ t'.sectors = t.sectors.set s m' := by
  unfold set?
  split
  · rename_i none
    cases none.symm.trans held
  · rename_i found
    obtain rfl := Option.some.inj (found.symm.trans held)
    split
    · rename_i none
      cases none.symm.trans changed
    · rename_i written
      obtain rfl := Option.some.inj (written.symm.trans changed)
      exact ⟨_, rfl, rfl⟩

theorem set_none {a : α} (refused : ∀ m, t.sectors[s]? = some m → m.set? i j a = none) : t.set? s i j a = none := by
  unfold set?
  split
  · rfl
  · rename_i found
    split
    · rfl
    · rename_i written
      cases (refused _ found).symm.trans written

theorem set_inside (shape : t.shape = (n, d, d)) (sector : s < n) (row : i < d) (col : j < d) (a : α) :
    ∃ t', t.set? s i j a = some t' ∧ t'.shape = (n, d, d) ∧
      t'.rowMajor = t.rowMajor.set (s * (d * d) + i * d + j) a := by
  obtain ⟨m, held, rows, cols⟩ := sector_exists shape sector
  obtain ⟨m', changed, same, cells⟩ := Mat.set_inside (m := m) (rows.symm ▸ row) (cols.symm ▸ col) a
  obtain ⟨t', written, sectors⟩ := set_some held changed
  have block : (t.sectors.map Mat.toList)[s]? = some m.toList := by rw [List.getElem?_map, held, Option.map_some]
  refine ⟨t', written, ?_, ?_⟩
  · rw [← shape]
    refine shape_congr ?_
    have kept : (t.sectors.map Mat.shape)[s]? = some m'.shape := by rw [List.getElem?_map, held, Option.map_some, same]
    obtain ⟨_, value⟩ := List.getElem?_eq_some_iff.mp kept
    rw [sectors, List.map_set, ← value, List.set_getElem_self]
  · rw [row_major_cells, row_major_cells, sectors, List.map_set, cells, cols, Nat.add_assoc,
      blocks_set (blocks_even shape) block (Mat.index_lt row col)]

theorem set_outside (shape : t.shape = (n, d, d)) (outside : ¬ (s < n ∧ i < d ∧ j < d)) (a : α) :
    t.set? s i j a = none := by
  refine set_none fun m held => Mat.set_outside (fun inside => outside ?_) a
  obtain ⟨rows, cols⟩ := Prod.mk.inj (sector_shape shape (List.mem_of_getElem? held))
  have sector : s < t.sectors.length := (List.getElem?_eq_some_iff.mp held).1
  have count : t.sectors.length = n := congrArg Prod.fst shape
  exact ⟨count ▸ sector, rows ▸ inside.1, cols ▸ inside.2⟩

end Writing

theorem change_shape (f : Nat → Mat α → Mat α) (keeps : ∀ s m, (f s m).shape = m.shape) (t : SpinTensor α) :
    (t.changeSectors f keeps).shape = t.shape :=
  shape_congr (List.ext_getElem? fun s => by simp [changeSectors, Function.comp_def, keeps])

theorem map_row_major (f : α → β) (t : SpinTensor α) : (t.map f).rowMajor = t.rowMajor.map f := by
  have cells (m : Mat α) : (m.map f).toList = m.toList.map f := Array.toList_map
  simp only [row_major_cells, map, List.map_map, List.map_flatten, Function.comp_def, cells]

end SpinTensor

section Holding

variable {α : Type} {n d : Nat} {xs : List α} {t : SpinTensor α}

-- What each of the steps makes of a stack that holds an array.
theorem SpinTensor.Holds.write (held : t.Holds n d xs) {s i j : Nat} (sector : s < n) (row : i < d) (col : j < d)
    (a : α) : ∃ t', t.set? s i j a = some t' ∧ t'.Holds n d (xs.set (s * (d * d) + i * d + j) a) := by
  obtain ⟨t', written, shape, flat⟩ := set_inside held.shape sector row col a
  exact ⟨t', written, holds_of_row_major shape (held.readBack ▸ flat)⟩

theorem SpinTensor.Holds.map {β : Type} (held : t.Holds n d xs) (f : α → β) : (t.map f).Holds n d (xs.map f) :=
  holds_of_row_major ((map_shape f t).trans held.shape) (held.readBack ▸ map_row_major f t)

theorem SpinTensor.Holds.change [Zero α] (held : t.Holds n d xs) (f : Nat → Mat α → Mat α)
    (keeps : ∀ s m, (f s m).shape = m.shape) :
    (t.changeSectors f keeps).Holds n d ((List.range n).flatMap fun s => (f s (flatSector d xs s)).rowByRow) := by
  have sectors : (t.changeSectors f keeps).sectors = (List.range n).map fun s => f s (flatSector d xs s) := by
    have count : (t.changeSectors f keeps).sectors.length = n :=
      List.length_mapIdx.trans (congrArg Prod.fst held.shape)
    refine listed_of_get count fun s sector => ?_
    rw [changeSectors, List.getElem?_mapIdx, held.sector sector, Option.map_some]
  refine holds_of_row_major ((change_shape f keeps t).trans held.shape) ?_
  rw [rowMajor, sectors, List.flatMap_map]

end Holding

-- What is done to a stack after it was read: an entry is written, every sector is changed in place, or a map
-- is taken, perhaps to entries of another kind.
inductive TensorSteps : Type → Type → Type 1
  | done {α : Type} : TensorSteps α α
  | write {α β : Type} (s i j : Nat) (a : α) (rest : TensorSteps α β) : TensorSteps α β
  | change {α β : Type} (f : Nat → Mat α → Mat α) (keeps : ∀ s m, (f s m).shape = m.shape)
      (rest : TensorSteps α β) : TensorSteps α β
  | map {α β γ : Type} [Zero β] (f : α → β) (rest : TensorSteps β γ) : TensorSteps α γ

namespace TensorSteps

def run : {α β : Type} → TensorSteps α β → SpinTensor α → Option (SpinTensor β)
  | _, _, done, t => some t
  | _, _, write s i j a rest, t => (t.set? s i j a).bind rest.run
  | _, _, change f keeps rest, t => rest.run (t.changeSectors f keeps)
  | _, _, map f rest, t => rest.run (t.map f)

def onFlat (n d : Nat) : {α β : Type} → [Zero α] → TensorSteps α β → List α → List β
  | _, _, _, done, xs => xs
  | _, _, _, write s i j a rest, xs => rest.onFlat n d (xs.set (s * (d * d) + i * d + j) a)
  | _, _, _, change f _ rest, xs =>
      rest.onFlat n d ((List.range n).flatMap fun s => (f s (flatSector d xs s)).rowByRow)
  | _, _, _, map f rest, xs => rest.onFlat n d (xs.map f)

-- Every entry that is written is one of `n` sectors of size `d`.
def Inside (n d : Nat) : {α β : Type} → TensorSteps α β → Prop
  | _, _, done => True
  | _, _, write s i j _ rest => (s < n ∧ i < d ∧ j < d) ∧ rest.Inside n d
  | _, _, change _ _ rest => rest.Inside n d
  | _, _, map _ rest => rest.Inside n d

variable {n d : Nat}

-- By induction on the steps, for every stack and array, since a map changes the kind of the entries.
theorem run_holds {α β : Type} (steps : TensorSteps α β) : ∀ [Zero α] {t : SpinTensor α} {xs : List α},
    t.Holds n d xs → steps.Inside n d → ∃ t', steps.run t = some t' ∧ t'.Holds n d (steps.onFlat n d xs) := by
  induction steps with
  | done =>
      intro _ t xs held _
      exact ⟨t, rfl, held⟩
  | write s i j a rest ih =>
      intro _ t xs held inside
      obtain ⟨⟨sector, row, col⟩, later⟩ := inside
      obtain ⟨t', written, holds⟩ := held.write sector row col a
      obtain ⟨last, run, result⟩ := ih holds later
      exact ⟨last, by rw [TensorSteps.run, written, Option.bind_some, run], result⟩
  | change f keeps rest ih =>
      intro _ t xs held inside
      exact ih (held.change f keeps) inside
  | map f rest ih =>
      intro _ t xs held inside
      exact ih (held.map f) inside

theorem run_outside {α β : Type} (steps : TensorSteps α β) {t : SpinTensor α} (shape : t.shape = (n, d, d))
    (outside : ¬ steps.Inside n d) : steps.run t = none := by
  induction steps with
  | done => exact absurd trivial outside
  | write s i j a rest ih =>
      by_cases place : s < n ∧ i < d ∧ j < d
      · obtain ⟨t', written, kept, _⟩ := SpinTensor.set_inside shape place.1 place.2.1 place.2.2 a
        rw [run, written, Option.bind_some]
        exact ih kept fun later => outside ⟨place, later⟩
      · rw [run, SpinTensor.set_outside shape place, Option.bind_none]
  | change f keeps rest ih => exact ih ((SpinTensor.change_shape f keeps t).trans shape) outside
  | map f rest ih => exact ih ((SpinTensor.map_shape f t).trans shape) outside

end TensorSteps

theorem flat_array_refined [Build] {α : Type} [Zero α] (flat : Array α) (sectors dim : Nat) (name : String)
    (nonempty : 1 ≤ sectors) (basis : 1 ≤ dim) (sized : sectors * (dim * dim) < UInt64.size) :
    ((∃ t, SpinTensor.ofRowMajor flat sectors dim name = .ok t) ↔ flat.size = sectors * (dim * dim)) ∧
    ∀ t, SpinTensor.ofRowMajor flat sectors dim name = .ok t → t.Holds sectors dim flat.toList ∧
      ∀ (β : Type) (steps : TensorSteps α β),
        (steps.Inside sectors dim → ∃ t', steps.run t = some t' ∧
          t'.Holds sectors dim (steps.onFlat sectors dim flat.toList)) ∧
        (¬ steps.Inside sectors dim → steps.run t = none) := by
  constructor
  · constructor
    · rintro ⟨t, ok⟩
      exact SpinTensor.of_row_major_fits nonempty sized ok
    · intro size
      obtain ⟨t, stacked⟩ := SpinTensor.stack_exists sectors dim (fun s =>
        Mat.ofFn dim dim fun i j => flat.getD (s * (dim * dim) + i * dim + j) 0) fun _ => rfl
      have some : 0 < flat.size := size ▸ Nat.mul_pos nonempty (Nat.mul_pos basis basis)
      exact ⟨t, (SpinTensor.of_row_major_ok_iff some size).mpr stacked⟩
  · intro t ok
    have held := (of_row_major_holds nonempty basis sized flat name).mp ok
    exact ⟨held, fun β steps => ⟨steps.run_holds held, steps.run_outside held.shape⟩⟩

-- One entry written, the second sector lowered, and the signs dropped.
def signlessSteps : TensorSteps ℤ ℕ :=
  .write 1 0 1 (-9) (.change (fun s m => m.map (· - 10 * s)) (fun _ _ => rfl) (.map Int.natAbs .done))

theorem flat_array_refined_signless : ∃ (t : SpinTensor ℤ) (t' : SpinTensor ℕ),
    SpinTensor.ofRowMajor #[1, 2, 3, 4, 5, 6, 7, 8] 2 2 "one_rdm" = .ok t ∧ t.Holds 2 2 [1, 2, 3, 4, 5, 6, 7, 8] ∧
      signlessSteps.run t = some t' ∧ t'.Holds 2 2 [1, 2, 3, 4, 5, 19, 3, 2] := by
  obtain ⟨defined, refined⟩ := flat_array_refined (#[1, 2, 3, 4, 5, 6, 7, 8] : Array ℤ) 2 2 "one_rdm" (by decide)
    (by decide) (by decide)
  obtain ⟨t, ok⟩ := defined.mpr rfl
  obtain ⟨held, later⟩ := refined t ok
  have inside : signlessSteps.Inside 2 2 := ⟨by decide, trivial⟩
  have flat : signlessSteps.onFlat 2 2 [1, 2, 3, 4, 5, 6, 7, 8] = [1, 2, 3, 4, 5, 19, 3, 2] := by decide +kernel
  obtain ⟨t', run, result⟩ := (later ℕ signlessSteps).1 inside
  exact ⟨t, t', ok, held, run, flat ▸ result⟩

end OrbitalSpectra
