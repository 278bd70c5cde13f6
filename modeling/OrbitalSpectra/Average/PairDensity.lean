import OrbitalSpectra.Average.Blocks
import OrbitalSpectra.Hermitian

set_option autoImplicit false

namespace OrbitalSpectra

open AnalysisError

-- How much is recorded of the density of pairs: the strict upper triangle over spin orbitals. Closed-shell
-- runs leave out the last half of its rows, whose block is that of the first.
def WalkerType.packedLength [Build] (w : WalkerType) (orbitals : Nat) : Except Failure Nat := do
  if orbitals = 0 then throw (.reported (invalidParameter .emptyBasis))
  match w with
  | .closed =>
    let all ← toSize (orbitals * (2 * orbitals - 1))
    let again ← toSize (orbitals * (orbitals - 1))
    sizeMinus all (again / 2)
  | .collinear => toSize (orbitals * (2 * orbitals - 1))
  | .nonCollinear => throw (.reported (unsupportedWalkerType w "diag_two_rdm"))
  | .undefined => throw (.reported (unrecognizedWalkerType 0))

-- Places above the diagonal, row by row.
def trianglePlaces (rows dim : Nat) : List (Nat × Nat) :=
  (List.range rows).flatMap fun i => (List.range' (i + 1) (dim - 1 - i)).map fun j => (i, j)

variable {R : Type} {α : Type}

-- Writes what was recorded from position `k` on at the places, one after another. What is not recorded
-- is a fault.
def fillPlaces (packed : Array α) : List (Nat × Nat) → Nat → Mat α → Except Failure (Mat α)
  | [], _, m => .ok m
  | (i, j) :: rest, k, m => do
    let a ← orFault packed[k]?
    let m ← orFault (m.set? i j a)
    fillPlaces packed rest (k + 1) m

-- The recorded rows of the upper triangle, zero elsewhere.
def unpackTriangle [Zero α] (packed : Array α) (rows dim : Nat) : Except Failure (Mat α) :=
  fillPlaces packed (trianglePlaces rows dim) 0 (Mat.zeros dim dim)

-- The matrix with its first block of order `n` repeated as its last one.
def repeatBlock [Zero α] (n : Nat) (m : Mat α) : Mat α :=
  Mat.ofFn m.rows m.cols fun i j =>
    if n ≤ i ∧ n ≤ j then m.entry (i - n) (j - n) else m.entry i j

-- The upper triangle over all spin orbitals from its recorded rows.
def spinOrbitalTriangle [Zero α] (walker : WalkerType) (orbitals : Nat) (packed : Array α) :
    Except Failure (Mat α) := do
  match walker with
  | .closed => return repeatBlock orbitals (← unpackTriangle packed orbitals (2 * orbitals))
  | _ => unpackTriangle packed (2 * orbitals) (2 * orbitals)

variable [Scalar R] [Build]

structure MatrixAverage (R : Type) where
  mean : Mat (Cplx R)
  error : Mat R

-- The Hermitian matrix with the recorded triangle, each recorded entry halved.
def BlockAverage.unpackPairDensity (average : BlockAverage R) (walker : WalkerType)
    (orbitals : Nat) : Except Failure (MatrixAverage R) := do
  let expected ← walker.packedLength orbitals
  if average.mean.size ≠ expected then
    throw (.reported (shapeMismatch "diag_two_rdm" expected average.mean.size))
  let mean ← spinOrbitalTriangle walker orbitals average.mean
  let error ← spinOrbitalTriangle walker orbitals average.error
  return ⟨← hermitianPart mean, ← symmetricPart error⟩

def averagePairDensity (source : Source R) (s : Selection) : Run (MatrixAverage R) := do
  let metadata ← source.readMetadata
  let walker ← reporting metadata.walker
  let orbitals ← reporting metadata.basis
  discard (walker.packedLength orbitals)
  let average ← requireAverage source "diag_two_rdm" s
  average.unpackPairDensity walker orbitals

end OrbitalSpectra
