import OrbitalSpectra.Failure
import OrbitalSpectra.Cplx

set_option autoImplicit false

namespace OrbitalSpectra

variable {R : Type} [Scalar R]

def mean (zs : List (Cplx R)) : Cplx R := total zs / Cplx.ofReal (zs.length : R)

def squaredDeviations (center : R) (xs : List R) : R :=
  total (xs.map fun x => (x - center) * (x - center))

-- Standard error of the mean of the real parts. A single sample leaves it undefined, as zero
-- divided by zero.
def standardError (zs : List (Cplx R)) : R :=
  let n : R := zs.length
  Scalar.sqrt (squaredDeviations (mean zs).re (zs.map Cplx.re) / ((n - 1) * n))

def deviation (xs : List R) : R :=
  let n : R := xs.length
  Scalar.sqrt (squaredDeviations (total xs / n) xs / (n - 1))

-- Standard deviation of vectors, entry by entry. All must have the length of the first.
def sampleDeviation (samples : List (List R)) : Except Failure (List R) :=
  let length := (samples.head?.map List.length).getD 0
  if samples.all fun s => s.length = length then
    .ok ((List.range length).map fun k => deviation (samples.map fun s => s.getD k 0))
  else .error .fault

end OrbitalSpectra
