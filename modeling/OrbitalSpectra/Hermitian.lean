import OrbitalSpectra.Failure
import OrbitalSpectra.Mat

set_option autoImplicit false

namespace OrbitalSpectra

variable {R : Type} [Scalar R]

def hermitianPart (m : Mat (Cplx R)) : Except Failure (Mat (Cplx R)) := do
  let sum ← orFault (m.add? m.adjoint)
  return sum.map fun z => z.scale 0.5

def symmetricPart (m : Mat R) : Except Failure (Mat R) := do
  let sum ← orFault (m.add? m.transpose)
  return sum.map fun x => x * 0.5

theorem adjoint_of_fn (r c : Nat) (f : Nat → Nat → Cplx R) :
    (Mat.ofFn r c f).adjoint = Mat.ofFn c r fun i j => (f j i).conj := by
  apply Mat.of_fn_congr
  intro i j row col
  exact congrArg Cplx.conj (Mat.entry_ofFn f col row)

theorem hermitian_part_of_fn (n : Nat) (f : Nat → Nat → Cplx R) :
    hermitianPart (Mat.ofFn n n f) = .ok (Mat.ofFn n n fun i j => (f i j + (f j i).conj).scale 0.5) := by
  rw [hermitianPart, adjoint_of_fn, Mat.add?, Mat.zip_with_of_fn]
  exact congrArg Except.ok (Mat.map_of_fn _ _ _ _)

theorem symmetric_part_of_fn (n : Nat) (f : Nat → Nat → R) :
    symmetricPart (Mat.ofFn n n f) = .ok (Mat.ofFn n n fun i j => (f i j + f j i) * 0.5) := by
  have turned : (Mat.ofFn n n f).transpose = Mat.ofFn n n fun i j => f j i := by
    apply Mat.of_fn_congr
    intro i j row col
    exact Mat.entry_ofFn f col row
  rw [symmetricPart, turned, Mat.add?, Mat.zip_with_of_fn]
  exact congrArg Except.ok (Mat.map_of_fn _ _ _ _)

end OrbitalSpectra
