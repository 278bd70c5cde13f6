import OrbitalSpectra.Cplx

set_option autoImplicit false

namespace OrbitalSpectra

-- A matrix of any shape, row by row. An operation on shapes that do not match has no result.
structure Mat (α : Type) where
  rows : Nat
  cols : Nat
  cells : Array α
  size_cells : cells.size = rows * cols

namespace Mat

variable {α β γ : Type}

@[specialize] def ofFn (rows cols : Nat) (f : Nat → Nat → α) : Mat α where
  rows := rows
  cols := cols
  cells := Array.ofFn fun k : Fin (rows * cols) => f (k.val / cols) (k.val % cols)
  size_cells := Array.size_ofFn

def shape (m : Mat α) : Nat × Nat := (m.rows, m.cols)

def size (m : Mat α) : Nat := m.rows * m.cols

def get? (m : Mat α) (i j : Nat) : Option α :=
  if i < m.rows ∧ j < m.cols then m.cells[i * m.cols + j]? else none

-- The entry in row `i` and column `j`, zero outside the matrix.
def entry [Zero α] (m : Mat α) (i j : Nat) : α := (m.get? i j).getD 0

def set? (m : Mat α) (i j : Nat) (a : α) : Option (Mat α) :=
  if i < m.rows ∧ j < m.cols then
    some { m with
      cells := m.cells.setIfInBounds (i * m.cols + j) a
      size_cells := by simp [m.size_cells] }
  else none

def toList (m : Mat α) : List α := m.cells.toList

def toRows [Zero α] (m : Mat α) : List (List α) :=
  (List.range m.rows).map fun i => (List.range m.cols).map fun j => m.entry i j

-- Rows of one length stacked on each other; a longer row is cut, a shorter one filled with zeros.
def ofRows [Zero α] (rows : List (List α)) : Mat α :=
  let cells := (rows.map List.toArray).toArray
  ofFn rows.length ((rows.head?.map List.length).getD 0) fun i j => (cells.getD i #[]).getD j 0

def map (f : α → β) (m : Mat α) : Mat β where
  rows := m.rows
  cols := m.cols
  cells := m.cells.map f
  size_cells := by simp [m.size_cells]

def zipWith? (f : α → β → γ) (a : Mat α) (b : Mat β) : Option (Mat γ) :=
  if h : a.rows = b.rows ∧ a.cols = b.cols then
    some
      { rows := a.rows
        cols := a.cols
        cells := Array.zipWith f a.cells b.cells
        size_cells := by simp [a.size_cells, b.size_cells, h.1, h.2] }
  else none

section Arithmetic

variable [Zero α]

def zeros (rows cols : Nat) : Mat α := ofFn rows cols fun _ _ => 0

def identity [One α] (n : Nat) : Mat α := ofFn n n fun i j => if i = j then 1 else 0

def transpose (m : Mat α) : Mat α := ofFn m.cols m.rows fun i j => m.entry j i

def add? [Add α] (a b : Mat α) : Option (Mat α) := zipWith? (· + ·) a b

def sub? [Sub α] (a b : Mat α) : Option (Mat α) := zipWith? (· - ·) a b

-- The product, with each column of `a` taken one time. An infinite part of a complex number makes
-- the other part undefined in a product with one, so the units say how an overflow spreads.
@[specialize] def mul? [One α] [Add α] [Mul α] (a b : Mat α) : Option (Mat α) :=
  if a.cols = b.rows then
    some (ofFn a.rows b.cols fun i j => unitSum (fun k => 1 * a.entry i k * b.entry k j) a.cols)
  else none

end Arithmetic

def adjoint {R : Type} [Scalar R] (m : Mat (Cplx R)) : Mat (Cplx R) :=
  ofFn m.cols m.rows fun i j => (m.entry j i).conj

def beq [BEq α] (a b : Mat α) : Bool := a.shape == b.shape && a.cells == b.cells

instance [BEq α] : BEq (Mat α) := ⟨beq⟩

@[simp] theorem ofFn_rows (r c : Nat) (f : Nat → Nat → α) : (ofFn r c f).rows = r := rfl

@[simp] theorem ofFn_cols (r c : Nat) (f : Nat → Nat → α) : (ofFn r c f).cols = c := rfl

@[simp] theorem map_rows (f : α → β) (m : Mat α) : (m.map f).rows = m.rows := rfl

@[simp] theorem map_cols (f : α → β) (m : Mat α) : (m.map f).cols = m.cols := rfl

@[simp] theorem map_shape (f : α → β) (m : Mat α) : (m.map f).shape = m.shape := rfl

theorem index_lt {i j r c : Nat} (row : i < r) (col : j < c) : i * c + j < r * c :=
  calc i * c + j < i * c + c := Nat.add_lt_add_left col _
    _ = (i + 1) * c := (Nat.succ_mul i c).symm
    _ ≤ r * c := Nat.mul_le_mul_right c row

theorem index_div {i j c : Nat} (col : j < c) : (i * c + j) / c = i := by
  have positive : 0 < c := Nat.lt_of_le_of_lt (Nat.zero_le j) col
  rw [Nat.add_comm, Nat.add_mul_div_right _ _ positive, Nat.div_eq_of_lt col, Nat.zero_add]

theorem index_mod {i j c : Nat} (col : j < c) : (i * c + j) % c = j := by
  rw [Nat.add_comm, Nat.add_mul_mod_self_right, Nat.mod_eq_of_lt col]

theorem get_of_fn (r c : Nat) (f : Nat → Nat → α) (i j : Nat) :
    (ofFn r c f).get? i j = if i < r ∧ j < c then some (f i j) else none := by
  by_cases inside : i < r ∧ j < c
  · have bound := index_lt inside.1 inside.2
    simp [get?, ofFn, inside, bound, index_div inside.2, index_mod inside.2]
  · simp [get?, inside]

@[simp] theorem entry_ofFn [Zero α] {r c i j : Nat} (f : Nat → Nat → α) (row : i < r) (col : j < c) :
    (ofFn r c f).entry i j = f i j := by
  simp [entry, get_of_fn, row, col]

theorem entry_outside [Zero α] (m : Mat α) {i j : Nat} (outside : ¬ (i < m.rows ∧ j < m.cols)) :
    m.entry i j = 0 := by
  simp [entry, get?, outside]

theorem ext {a b : Mat α} (rows : a.rows = b.rows) (cols : a.cols = b.cols)
    (same : ∀ i j, i < a.rows → j < a.cols → a.get? i j = b.get? i j) : a = b := by
  obtain ⟨r, c, x, hx⟩ := a
  obtain ⟨r', c', y, hy⟩ := b
  simp only at rows cols
  subst rows cols
  have cells : x = y := by
    apply Array.ext
    · rw [hx, hy]
    · intro k left right
      have bound : k < r * c := hx ▸ left
      have positive : 0 < c := by
        rcases Nat.eq_zero_or_pos c with zero | positive
        · simp [zero] at bound
        · exact positive
      have row : k / c < r := Nat.div_lt_of_lt_mul (Nat.mul_comm r c ▸ bound)
      have col : k % c < c := Nat.mod_lt k positive
      have eq := same (k / c) (k % c) row col
      have back : k / c * c + k % c = k := by rw [Nat.mul_comm]; exact Nat.div_add_mod k c
      simpa [get?, row, col, back, left, right] using eq
  subst cells
  rfl

theorem of_fn_congr {r c : Nat} {f g : Nat → Nat → α} (same : ∀ i j, i < r → j < c → f i j = g i j) :
    ofFn r c f = ofFn r c g := by
  refine ext (show (ofFn r c f).rows = (ofFn r c g).rows from rfl) rfl ?_
  intro i j row col
  have inside : i < r ∧ j < c := ⟨row, col⟩
  rw [get_of_fn, get_of_fn, if_pos inside, if_pos inside, same i j row col]

theorem get_inside [Zero α] {m : Mat α} {i j : Nat} (row : i < m.rows) (col : j < m.cols) :
    m.get? i j = some (m.entry i j) := by
  have bound : i * m.cols + j < m.cells.size := m.size_cells ▸ index_lt row col
  rw [entry, get?, if_pos ⟨row, col⟩, Array.getElem?_eq_getElem bound]
  rfl

theorem of_fn_entry [Zero α] (m : Mat α) {r c : Nat} (shape : m.shape = (r, c)) : m = ofFn r c m.entry := by
  obtain ⟨rfl, rfl⟩ := Prod.mk.inj shape
  refine ext (by rfl) (by rfl) fun i j row col => ?_
  rw [get_of_fn, if_pos ⟨row, col⟩, get_inside row col]

theorem get_map (f : α → β) (m : Mat α) (i j : Nat) : (m.map f).get? i j = (m.get? i j).map f := by
  by_cases inside : i < m.rows ∧ j < m.cols
  · simp only [get?, map, if_pos inside, Array.getElem?_map]
  · simp [get?, inside]

theorem map_of_fn (f : α → β) (r c : Nat) (g : Nat → Nat → α) :
    (ofFn r c g).map f = ofFn r c fun i j => f (g i j) := by
  refine ext (show ((ofFn r c g).map f).rows = (ofFn r c fun i j => f (g i j)).rows from rfl) rfl ?_
  intro i j row col
  have inside : i < r ∧ j < c := ⟨row, col⟩
  rw [get_map, get_of_fn, get_of_fn, if_pos inside, if_pos inside, Option.map_some]

theorem set_shape {m m' : Mat α} {i j : Nat} {a : α} (written : m.set? i j a = some m') : m'.shape = m.shape := by
  unfold set? at written
  split at written
  · cases written
    rfl
  · cases written

theorem get_of_set {m m' : Mat α} {i j : Nat} {a : α} (written : m.set? i j a = some m') (p q : Nat) :
    m'.get? p q = if p = i ∧ q = j then some a else m.get? p q := by
  unfold set? at written
  split at written
  · rename_i inside
    cases written
    have bound : i * m.cols + j < m.cells.size := m.size_cells ▸ index_lt inside.1 inside.2
    by_cases within : p < m.rows ∧ q < m.cols
    · by_cases same : p = i ∧ q = j
      · obtain ⟨rfl, rfl⟩ := same
        simp [get?, within, bound]
      · have apart : i * m.cols + j ≠ p * m.cols + q := by
          intro equal
          have row : i = p := by rw [← index_div (i := i) inside.2, equal, index_div within.2]
          have col : j = q := by rw [← index_mod (i := i) inside.2, equal, index_mod within.2]
          exact same ⟨row.symm, col.symm⟩
        simp [get?, within, same, apart]
    · have other : ¬ (p = i ∧ q = j) := fun same => within (same.1 ▸ same.2 ▸ inside)
      simp [get?, within, other]
  · cases written

theorem zip_with_of_fn (f : α → β → γ) (r c : Nat) (g : Nat → Nat → α) (h : Nat → Nat → β) :
    zipWith? f (ofFn r c g) (ofFn r c h) = some (ofFn r c fun i j => f (g i j) (h i j)) := by
  have shapes : (ofFn r c g).rows = (ofFn r c h).rows ∧ (ofFn r c g).cols = (ofFn r c h).cols := ⟨rfl, rfl⟩
  rw [zipWith?, dif_pos shapes]
  congr 1
  simp only [ofFn, mk.injEq, true_and]
  apply Array.ext
  · simp
  · intro k left right
    simp

end Mat

end OrbitalSpectra
