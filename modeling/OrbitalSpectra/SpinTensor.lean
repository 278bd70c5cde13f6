import OrbitalSpectra.Capacity
import OrbitalSpectra.Mat

set_option autoImplicit false

namespace OrbitalSpectra

variable {α β : Type}

-- The number of orbitals that the first of the shapes has, zero without shapes.
def commonDim (shapes : List (Nat × Nat)) : Nat := (shapes.head?.map Prod.fst).getD 0

structure SpinTensor (α : Type) where
  sectors : List (Mat α)
  uniform : ∀ m ∈ sectors,
    m.shape = (commonDim (sectors.map Mat.shape), commonDim (sectors.map Mat.shape))

namespace SpinTensor

def dim (t : SpinTensor α) : Nat := commonDim (t.sectors.map Mat.shape)

def count (t : SpinTensor α) : Nat := t.sectors.length

def shape (t : SpinTensor α) : Nat × Nat × Nat := (t.count, t.dim, t.dim)

def size (t : SpinTensor α) : Nat := t.count * t.dim * t.dim

-- Square matrices of one size; the first that differs is reported.
def ofSectors (ms : List (Mat α)) : Except AnalysisError (SpinTensor α) :=
  let d := commonDim (ms.map Mat.shape)
  if h : ∀ m ∈ ms, m.shape = (d, d) then .ok ⟨ms, h⟩
  else
    let found := (ms.find? fun m => m.shape ≠ (d, d)).map Mat.size
    .error (.shapeMismatch "spin tensor sector" (d * d) (found.getD 0))

theorem uniform_of_shapes {ms : List (Mat α)} {ns : List (Mat β)}
    (uniform : ∀ m ∈ ms, m.shape = (commonDim (ms.map Mat.shape), commonDim (ms.map Mat.shape)))
    (same : ns.map Mat.shape = ms.map Mat.shape) :
    ∀ n ∈ ns, n.shape = (commonDim (ns.map Mat.shape), commonDim (ns.map Mat.shape)) := by
  intro n member
  have listed : n.shape ∈ ms.map Mat.shape := same ▸ List.mem_map_of_mem member
  obtain ⟨m, inside, eq⟩ := List.mem_map.mp listed
  rw [same, ← eq]
  exact uniform m inside

theorem uniform_of_square (dim : Nat) {ms : List (Mat α)} (square : ∀ m ∈ ms, m.shape = (dim, dim)) :
    ∀ m ∈ ms, m.shape = (commonDim (ms.map Mat.shape), commonDim (ms.map Mat.shape)) := by
  cases ms with
  | nil => simp
  | cons first rest =>
      have common : commonDim ((first :: rest).map Mat.shape) = dim :=
        congrArg Prod.fst (square first List.mem_cons_self)
      rwa [common]

-- Up to `count` pieces of one width, the last of them shorter where the list ends within it.
def pieces (width : Nat) : Nat → List α → List (List α)
  | 0, _ => []
  | _ + 1, [] => []
  | count + 1, x :: xs => (x :: xs).take width :: pieces width count ((x :: xs).drop width)

-- Each piece row by row in a square matrix, which it must fill.
def ofPieces (dim : Nat) (ps : List (List α)) : Except Failure (SpinTensor α) :=
  if full : ∀ p ∈ ps, p.length = dim * dim then
    .ok
      { sectors := ps.attach.map fun p => ⟨dim, dim, p.val.toArray, full p.val p.property⟩
        uniform := by
          apply uniform_of_square dim
          intro m member
          obtain ⟨p, _, rfl⟩ := List.mem_map.mp member
          rfl }
  else .error .fault

-- The length of a sector and of all of them, as the build multiplies. No array has more elements than a
-- word can count, so lengths that agree exactly stay as they are.
def layoutSizes [Build] (found sectors dim : Nat) : Except Failure (Nat × Nat) := do
  if 0 < found ∧ found = sectors * (dim * dim) then return (dim * dim, found)
  let block ← toSize (dim * dim)
  let length ← toSize (sectors * block)
  return (block, length)

-- Entry `(s, i, j)` is the flat element `s * dim * dim + i * dim + j`. An array without elements has no
-- pieces, whatever number of sectors is asked for.
def ofRowMajor [Build] (flat : Array α) (sectors dim : Nat) (observable : String) :
    Except Failure (SpinTensor α) := do
  let (block, length) ← layoutSizes flat.size sectors dim
  if flat.size ≠ length then throw (.reported (.shapeMismatch observable length flat.size))
  ofPieces dim (pieces (max block 1) sectors flat.toList)

def map (f : α → β) (t : SpinTensor α) : SpinTensor β where
  sectors := t.sectors.map (Mat.map f)
  uniform := uniform_of_shapes t.uniform (by simp [List.map_map, Function.comp_def])

def get? (t : SpinTensor α) (s i j : Nat) : Option α := t.sectors[s]?.bind fun m => m.get? i j

def set? (t : SpinTensor α) (s i j : Nat) (a : α) : Option (SpinTensor α) :=
  match held : t.sectors[s]? with
  | none => none
  | some m =>
    match changed : m.set? i j a with
    | none => none
    | some m' =>
      some
        { sectors := t.sectors.set s m'
          uniform := uniform_of_shapes t.uniform (by
            rw [List.map_set, Mat.set_shape changed]
            apply List.ext_getElem?
            intro k
            rw [List.getElem?_set]
            split
            · rename_i eq
              subst eq
              obtain ⟨bound, value⟩ := List.getElem?_eq_some_iff.mp held
              simp [bound, value]
            · rfl) }

-- Every sector changed in place, one after another. A change keeps the shape of what it changes.
def changeSectors (change : Nat → Mat α → Mat α) (keeps : ∀ s m, (change s m).shape = m.shape)
    (t : SpinTensor α) : SpinTensor α where
  sectors := t.sectors.mapIdx change
  uniform := uniform_of_shapes t.uniform (by
    apply List.ext_getElem?
    intro s
    simp [Function.comp_def, keeps])

def beq [BEq α] (a b : SpinTensor α) : Bool := a.sectors == b.sectors

instance [BEq α] : BEq (SpinTensor α) := ⟨beq⟩

end SpinTensor

end OrbitalSpectra
