import OrbitalSpectra.Source
import OrbitalSpectra.Average.Statistics

set_option autoImplicit false

namespace OrbitalSpectra

open AnalysisError

variable {R : Type}

structure BlockAverage (R : Type) where
  mean : Array (Cplx R)
  error : Array R

-- The elements at positions `equilibration`, `equilibration + stride`, and so on.
def window {α : Type} (equilibration stride : Nat) (xs : List α) : List α :=
  (xs.drop equilibration).zipIdx.filterMap fun (x, k) => if k % stride = 0 then some x else none

variable [Scalar R]

def column (blocks : List (Block R)) (k : Nat) : List (Cplx R) := blocks.map fun b => b.getD k 0

def averageWindow (blocks : List (Block R)) (length : Nat) : BlockAverage R where
  mean := Array.ofFn fun k : Fin length => mean (column blocks k.val)
  error := Array.ofFn fun k : Fin length => standardError (column blocks k.val)

-- The average of the retained blocks, which must be some and of one length.
def averageBlocks (blocks : List (Block R)) (name : String) (equilibration stride : Nat) :
    Run (BlockAverage R) := do
  if stride = 0 then throw (.reported (invalidParameter .zeroStride))
  let retained := window equilibration stride blocks
  match retained with
  | [] => throw (.reported (emptySample name blocks.length equilibration))
  | first :: _ =>
    match retained.find? fun b => b.size ≠ first.size with
    | some bad => throw (.reported (shapeMismatch name first.size bad.size))
    | none =>
      Run.note (.averaged name retained.length blocks.length)
      return averageWindow retained first.size

structure Selection where
  estimator : Estimator
  equilibration : Nat
  stride : Nat
  path : Option Nat
  deriving DecidableEq, Repr

-- The average of an observable. A free-projection run has none, and its series is not read.
def averageObservable (source : Source R) (name : String) (s : Selection) :
    Run (Option (BlockAverage R)) := do
  if s.stride = 0 then throw (.reported (invalidParameter .zeroStride))
  let metadata ← source.readMetadata
  if metadata.freeProjection then
    Run.note (.skippedFreeProjection name)
    return none
  let blocks ← source.readSeries name s.estimator s.path
  let average ← averageBlocks blocks name s.equilibration s.stride
  return some average

-- The average of an observable that a free-projection run cannot do without.
def requireAverage (source : Source R) (name : String) (s : Selection) : Run (BlockAverage R) := do
  match ← averageObservable source name s with
  | some average => return average
  | none =>
    throw (.reported (unsupportedMode s!"free projection error analysis for {name}"))

def averageOnTopDensity (source : Source R) (s : Selection) : Run (Option (BlockAverage R)) :=
  averageObservable source "on_top_pdm" s

end OrbitalSpectra
