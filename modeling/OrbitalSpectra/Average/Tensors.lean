import OrbitalSpectra.Average.Blocks
import OrbitalSpectra.SpinTensor

set_option autoImplicit false

namespace OrbitalSpectra

variable {R : Type} [Scalar R] [Build]

structure TensorAverage (R : Type) where
  mean : SpinTensor (Cplx R)
  error : SpinTensor R

def BlockAverage.toTensor (average : BlockAverage R) (walker : WalkerType) (orbitals : Nat)
    (name : String) : Except Failure (TensorAverage R) := do
  let (sectors, dim) ← walker.sectorLayout orbitals
  let mean ← SpinTensor.ofRowMajor average.mean sectors dim name
  let error ← SpinTensor.ofRowMajor average.error sectors dim name
  return ⟨mean, error⟩

-- The average of an observable in the layout of the run's walkers, which comes along.
def averageTensor (source : Source R) (name : String) (s : Selection) :
    Run (WalkerType × TensorAverage R) := do
  let metadata ← source.readMetadata
  let walker ← reporting metadata.walker
  let orbitals ← reporting metadata.basis
  let average ← requireAverage source name s
  let tensor ← average.toTensor walker orbitals name
  return (walker, tensor)

def averageDensity (source : Source R) (s : Selection) : Run (TensorAverage R) := do
  let (_, tensor) ← averageTensor source densitySeries s
  return tensor

-- A generalised Fock matrix. Closed-shell runs record one spin, so their mean is doubled for the
-- sum over both; the error stays as recorded.
def averageFock (source : Source R) (sign : FockSign) (s : Selection) : Run (TensorAverage R) := do
  let (walker, tensor) ← averageTensor source sign.observable s
  match walker with
  | .closed => return { tensor with mean := tensor.mean.map fun z => z.scale 2.0 }
  | _ => return tensor

end OrbitalSpectra
