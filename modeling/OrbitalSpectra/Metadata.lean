import OrbitalSpectra.Capacity
import OrbitalSpectra.Walker

set_option autoImplicit false

namespace OrbitalSpectra

open AnalysisError

-- Spin sectors and the order of each.
def WalkerType.sectorLayout [Build] (w : WalkerType) (orbitals : Nat) : Except Failure (Nat × Nat) := do
  match w with
  | .closed => return (1, orbitals)
  | .collinear => return (2, orbitals)
  | .nonCollinear => return (1, ← toSize (2 * orbitals))
  | .undefined => throw (.reported (unrecognizedWalkerType 0))

namespace WalkerType

variable [Build] (orbitals : Nat)

@[simp] theorem sector_layout_closed : closed.sectorLayout orbitals = .ok (1, orbitals) := rfl

@[simp] theorem sector_layout_collinear : collinear.sectorLayout orbitals = .ok (2, orbitals) := rfl

@[simp] theorem sector_layout_spin_orbitals :
    nonCollinear.sectorLayout orbitals = (toSize (2 * orbitals)).map fun dim => (1, dim) := by
  rw [sectorLayout]
  cases toSize (2 * orbitals) <;> rfl

@[simp] theorem sector_layout_undefined :
    undefined.sectorLayout orbitals = .error (.reported (unrecognizedWalkerType 0)) := rfl

end WalkerType

def WalkerType.ofCode (code : Int) : Except AnalysisError WalkerType :=
  match WalkerType.ofCode? code with
  | some w => .ok w
  | none => .error (unrecognizedWalkerType code)

structure Metadata where
  orbitals : Nat
  -- the walker type as the run recorded it, which may be unknown
  walkerCode : Int
  freeProjection : Bool
  deriving DecidableEq, Repr

namespace Metadata

def ofWalker (orbitals : Nat) (walker : WalkerType) (freeProjection : Bool) : Metadata :=
  ⟨orbitals, walker.code, freeProjection⟩

def walker (m : Metadata) : Except AnalysisError WalkerType := do
  match ← WalkerType.ofCode m.walkerCode with
  | .undefined => throw (unrecognizedWalkerType m.walkerCode)
  | w => return w

def basis (m : Metadata) : Except AnalysisError Nat :=
  if m.orbitals = 0 then .error (invalidParameter .emptyBasis) else .ok m.orbitals

end Metadata

end OrbitalSpectra
