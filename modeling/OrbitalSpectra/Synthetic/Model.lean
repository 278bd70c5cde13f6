import OrbitalSpectra.Capacity
import OrbitalSpectra.Params
import OrbitalSpectra.Store

set_option autoImplicit false

namespace OrbitalSpectra.Synthetic

-- A model system whose occupations and orbital energies are known. Its density matrix and its Fock matrices
-- are diagonal in every spin sector; each recorded block adds normal noise to every entry.
structure Setup (R : Type) where
  orbitals : Nat
  blocks : Nat
  -- standard deviation of the noise in one block
  noise : R
  collinear : Bool
  samples : Nat
  seed : UInt64

namespace Setup

variable {σ R : Type} [Scalar R]

def walker (s : Setup R) : WalkerType := if s.collinear then .collinear else .closed

def sectors (s : Setup R) : Nat := if s.collinear then 2 else 1

-- Fock matrices of a closed shell are kept for one spin and doubled when they are read.
def fockScale (s : Setup R) : R := if s.collinear then 1 else 0.5

def blockLength (s : Setup R) : Nat := s.sectors * s.orbitals * s.orbitals

-- There is room for the list of the blocks, and for each of them.
def fits (s : Setup R) : Bool :=
  fitsMemory s.blocks vectorSize && (s.blocks = 0 || fitsMemory s.blockLength complexSize)

def filled (s : Setup R) : Nat := s.orbitals / 2

def occupation (s : Setup R) (i : Nat) : R :=
  if i < s.filled then 0.97 - 0.02 * (i : R) else 0.03 + 0.01 * ((i - s.filled : Nat) : R)

def energy (s : Setup R) (i : Nat) : R :=
  if i < s.filled then -0.6 + 0.1 * (i : R) else 0.1 + 0.15 * ((i - s.filled : Nat) : R)

def fockDiagonal (s : Setup R) : FockSign → Nat → R
  | .minus, i => s.fockScale * s.occupation i * s.energy i
  | .plus, i => s.fockScale * (1 - s.occupation i) * s.energy i

-- Entry `k` of a block without noise, counted row by row through all sectors.
def cleanEntry (s : Setup R) (diagonal : Nat → R) (k : Nat) : R :=
  let row := k / s.orbitals % s.orbitals
  let col := k % s.orbitals
  if row = col then diagonal row else 0

variable [NormalStream σ R] [Build]

-- What draws the model system can end in a failure.
abbrev Drawing (σ : Type) := StateT σ (Except Failure)

def noisyBlock (s : Setup R) (diagonal : Nat → R) : Drawing σ (Block R) := do
  let length ← toSize s.blockLength
  requireRoom length complexSize
  -- a block that is too short for its entries
  if length ≠ s.blockLength then throw .fault
  let entries ← (List.range s.blockLength).mapM fun k => do
    let z ← modifyGet (NormalStream.next : σ → R × σ)
    return Cplx.ofReal (s.cleanEntry diagonal k + s.noise * z)
  return entries.toArray

-- The noise must have a finite deviation, which is looked at before there is any block.
def noisyBlocks (s : Setup R) (diagonal : Nat → R) : Drawing σ (List (Block R)) := do
  if !Scalar.isFinite s.noise then throw .fault
  requireRoom s.blocks vectorSize
  (List.range s.blocks).mapM fun _ => s.noisyBlock diagonal

def metadata (s : Setup R) : Metadata := Metadata.ofWalker s.orbitals s.walker false

-- The density matrix and then the Fock matrices for removal and for addition, on one stream.
def drawStore (s : Setup R) : Drawing σ (Store R) := do
  let density ← s.noisyBlocks s.occupation
  let removal ← s.noisyBlocks (s.fockDiagonal .minus)
  let addition ← s.noisyBlocks (s.fockDiagonal .plus)
  let store : Store R := Store.empty s.metadata
  let store := store.insert densitySeries .backPropagated 0 density
  let store := store.insert FockSign.minus.observable .backPropagated 0 removal
  return store.insert FockSign.plus.observable .backPropagated 0 addition

def store (σ : Type) [NormalStream σ R] (s : Setup R) : Except Failure (Store R) :=
  (s.drawStore.run (NormalStream.ofSeed R s.seed : σ)).map Prod.fst

-- The first tenth of the blocks is dropped.
def params (s : Setup R) : Params R :=
  { (Params.default : Params R) with
    equilibration := s.blocks / 10
    samples := s.samples
    screenFactor := 2.0
    cutoff := 1e-6
    seed := some s.seed }

end Setup

end OrbitalSpectra.Synthetic
