import OrbitalSpectra.Eigen

set_option autoImplicit false

namespace OrbitalSpectra

variable {R : Type} [Scalar R]

def Eigensystem.columns (e : Eigensystem R) (kept : List Nat) : Mat (Cplx R) :=
  Mat.ofFn e.vectors.rows kept.length fun r c => e.vectors.entry r (kept.getD c 0)

-- The kept eigenvectors, each divided by the square root of its eigenvalue.
def Eigensystem.whitening (e : Eigensystem R) (kept : List Nat) : Mat (Cplx R) :=
  Mat.ofFn e.vectors.rows kept.length fun r c =>
    (e.vectors.entry r (kept.getD c 0)).unscale (Scalar.sqrt (e.value (kept.getD c 0)))

def Eigensystem.reconstruction (e : Eigensystem R) (kept : List Nat) :
    Except Failure (Mat (Cplx R)) :=
  let u := e.columns kept
  let scaled := Mat.ofFn e.vectors.rows kept.length fun r c =>
    (u.entry r c).scale (e.value (kept.getD c 0))
  orFault (scaled.mul? u.adjoint)

def Eigensystem.above (e : Eigensystem R) (cutoff : R) : List Nat :=
  (List.range e.values.length).filter fun k => cutoff < e.value k

structure Regularised (R : Type) where
  -- the matrix without its small eigenvalues
  matrix : Mat (Cplx R)
  transform : Mat (Cplx R)

-- Drops the eigenvalues that are not above the cutoff.
def regularise (solver : EigenSolver R) (s : Mat (Cplx R)) (cutoff : R) :
    Except Failure (Regularised R) := do
  let e ← eigh solver s
  let kept := e.above cutoff
  return ⟨← e.reconstruction kept, e.whitening kept⟩

-- The whitening by the `rank` largest eigenvalues, none when one of them is at or below the
-- cutoff.
def whitenWithRank (solver : EigenSolver R) (s : Mat (Cplx R)) (rank : Nat) (cutoff : R) :
    Except AnalysisError (Option (Mat (Cplx R))) := do
  let e ← eigh solver s
  let n := e.values.length
  if n < rank then throw (.shapeMismatch "orthogonaliser rank" rank n)
  let kept := (List.range rank).map (n - rank + ·)
  if kept.any fun k => e.value k ≤ cutoff then return none
  return some (e.whitening kept)

end OrbitalSpectra
