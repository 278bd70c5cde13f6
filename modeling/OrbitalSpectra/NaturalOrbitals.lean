import OrbitalSpectra.Average.Tensors
import OrbitalSpectra.Bootstrap
import OrbitalSpectra.Params
import OrbitalSpectra.Screening
import OrbitalSpectra.Whitening

set_option autoImplicit false

namespace OrbitalSpectra

open AnalysisError

variable {σ R : Type} [Scalar R]

structure Occupations (R : Type) where
  values : List R
  errors : List R

-- Errors of the spin sum: two sectors add in quadrature, otherwise the first stands for all.
def spinSummedError (error : SpinTensor R) : Except Failure (Mat R) :=
  match error.sectors with
  | [a, b] => orFault (Mat.zipWith? (fun x y => Scalar.sqrt (x * x + y * y)) a b)
  | a :: _ => .ok a
  | [] => .error .fault

def sumSectors : List (Mat (Cplx R)) → Except Failure (Mat (Cplx R))
  | [] => .error .fault
  | first :: rest => rest.foldlM (fun sum m => orFault (sum.add? m)) first

-- The Hermitian part of the sum over spin, and its symmetric error matrix.
def spinSummed (p : SpinTensor (Cplx R)) (error : SpinTensor R) : Except Failure (Mat (Cplx R) × Mat R) := do
  if p.count = 0 ∨ p.shape ≠ error.shape then
    throw (.reported (shapeMismatch densitySeries p.size error.size))
  let sum ← sumSectors p.sectors
  let error ← spinSummedError error
  return (← hermitianPart sum, ← symmetricPart error)

variable [NormalStream σ R]

-- Descending eigenvalues of one matrix drawn around the regularised density.
def sampleOccupations (solver : EigenSolver R) (m : Mat (Cplx R)) (error : Mat R) :
    Sampling σ (List R) := do
  let drawn ← Sampling.ofDraw (sampleMatrix m error)
  let values ← reporting (eigenvalues solver drawn)
  return values.reverse

def occupationsOf (solver : EigenSolver R) (p : SpinTensor (Cplx R)) (error : SpinTensor R)
    (samples : Nat) (screenFactor cutoff : R) : Sampling σ (Occupations R) := do
  if samples < 2 then
    throw (.reported (invalidParameter (.tooFewSamplesForError samples)))
  let (sum, error) ← spinSummed p error
  let (screened, kept) ← reporting (screenMatrix sum error screenFactor)
  Run.note (.screened kept sum.size)
  let regularised ← regularise solver screened cutoff
  let drawn ← Sampling.collect (sampleOccupations solver regularised.matrix error) samples
  let values ← reporting (eigenvalues solver regularised.matrix)
  let errors ← sampleDeviation drawn
  return ⟨values.reverse, errors⟩

def naturalOccupations [Build] (solver : EigenSolver R) (source : Source R) (p : Params R) (entropy : σ) :
    Run (Occupations R) := do
  reporting p.validate
  let density ← averageDensity source p.selection
  let (occupations, _) ← (occupationsOf solver density.mean density.error p.samples
    p.screenFactor p.cutoff).run (p.stream entropy)
  Run.note (.computedOccupations occupations.values.length p.samples)
  return occupations

end OrbitalSpectra
