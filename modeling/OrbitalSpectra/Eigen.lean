import OrbitalSpectra.Failure
import OrbitalSpectra.Mat

set_option autoImplicit false

namespace OrbitalSpectra

structure Eigensystem (R : Type) where
  values : List R
  -- column `k` belongs to value `k`
  vectors : Mat (Cplx R)

-- A way to diagonalise the Hermitian matrix given by the lower triangle and the real part of the
-- diagonal.
abbrev EigenSolver (R : Type) := Mat (Cplx R) → Eigensystem R

variable {R : Type} [Scalar R]

def Eigensystem.value (e : Eigensystem R) (k : Nat) : R := e.values.getD k 0

-- The places of the first `n` values in ascending order; equal values keep their order.
def Eigensystem.ascending (e : Eigensystem R) (n : Nat) : List Nat :=
  (List.range n).mergeSort fun a b => Scalar.totalLe (e.value a) (e.value b)

def eigh (solver : EigenSolver R) (m : Mat (Cplx R)) : Except AnalysisError (Eigensystem R) :=
  if m.rows ≠ m.cols then .error (.shapeMismatch "hermitian matrix" (m.rows * m.rows) m.size)
  else
    let raw := solver m
    let order := raw.ascending m.rows
    .ok
      { values := order.map raw.value
        vectors := Mat.ofFn m.rows m.rows fun r c => raw.vectors.entry r (order.getD c 0) }

def eigenvalues (solver : EigenSolver R) (m : Mat (Cplx R)) : Except AnalysisError (List R) :=
  (eigh solver m).map Eigensystem.values

end OrbitalSpectra
