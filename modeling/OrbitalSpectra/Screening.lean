import OrbitalSpectra.SpinTensor

set_option autoImplicit false

namespace OrbitalSpectra

open AnalysisError

variable {R : Type} [Scalar R]

def screenEntry (factor : R) (z : Cplx R) (e : R) : Cplx R := if z.abs < factor * e then 0 else z

-- Whether an entry counts as kept: its modulus is not zero.
def Cplx.isKept (z : Cplx R) : Bool := ¬ z.abs ≤ 0

def Mat.keptCount (m : Mat (Cplx R)) : Nat := m.toList.countP Cplx.isKept

def screenMatrix (m : Mat (Cplx R)) (error : Mat R) (factor : R) :
    Except AnalysisError (Mat (Cplx R) × Nat) :=
  match Mat.zipWith? (screenEntry factor) m error with
  | some screened => .ok (screened, screened.keptCount)
  | none => .error (shapeMismatch "screened matrix" m.size error.size)

-- Screens sector after sector up to the first that fails, and counts the kept entries.
def screenSectors (factor : R) :
    List (Mat (Cplx R)) → List (Mat R) → List (Mat (Cplx R)) × Except AnalysisError Nat
  | m :: ms, e :: es =>
    match screenMatrix m e factor with
    | .error failure => (m :: ms, .error failure)
    | .ok (screened, kept) =>
      let (rest, count) := screenSectors factor ms es
      (screened :: rest, count.map (kept + ·))
  | ms, _ => (ms, .ok 0)

theorem zip_with_shape {α β γ : Type} {f : α → β → γ} {a : Mat α} {b : Mat β} {c : Mat γ}
    (h : Mat.zipWith? f a b = some c) : c.shape = a.shape := by
  unfold Mat.zipWith? at h
  split at h
  · cases h
    rfl
  · cases h

theorem screen_matrix_shape {m screened : Mat (Cplx R)} {error : Mat R} {factor : R} {kept : Nat}
    (ok : screenMatrix m error factor = .ok (screened, kept)) : screened.shape = m.shape := by
  unfold screenMatrix at ok
  split at ok
  · rename_i h
    cases ok
    exact zip_with_shape h
  · cases ok

theorem screen_sectors_shape (factor : R) (ms : List (Mat (Cplx R))) (es : List (Mat R)) :
    (screenSectors factor ms es).1.map Mat.shape = ms.map Mat.shape := by
  fun_induction screenSectors factor ms es with
  | case1 => rfl
  | case2 m ms e es screened kept ok rest count eq ih =>
    rw [eq] at ih
    simp [screen_matrix_shape ok, ih]
  | case3 => rfl

-- The tensor as far as it was screened, and the number of entries it keeps or the failure.
def screenTensor (t : SpinTensor (Cplx R)) (error : SpinTensor R) (factor : R) :
    SpinTensor (Cplx R) × Except AnalysisError Nat :=
  if t.count ≠ error.count then
    (t, .error (shapeMismatch "screened tensor sectors" t.count error.count))
  else
    let result := screenSectors factor t.sectors error.sectors
    ( { sectors := result.1
        uniform := SpinTensor.uniform_of_shapes t.uniform
          (screen_sectors_shape factor t.sectors error.sectors) },
      result.2 )

end OrbitalSpectra
