import OrbitalSpectra.Average.Statistics
import OrbitalSpectra.Proofs.Exact.Number
import OrbitalSpectra.Proofs.FloatOrder

set_option autoImplicit false

namespace OrbitalSpectra

open Float.Model

-- What the squared deviations of a single sample are divided by.
def singleDivisor (R : Type) [Scalar R] : R := (((1 : Nat) : R) - 1) * ((1 : Nat) : R)

-- An operand that is not finite leaves its results not finite.
class SpreadingScalar (R : Type) [Scalar R] : Prop where
  div_single : ∀ x : R, Scalar.isFinite (x / singleDivisor R) = false
  add : ∀ x y : R, Scalar.isFinite x = false → Scalar.isFinite (x + y) = false
  mul : ∀ x y : R, Scalar.isFinite x = false → Scalar.isFinite (x * y) = false
  sqrt : ∀ x : R, Scalar.isFinite x = false → Scalar.isFinite (Scalar.sqrt x) = false

section Floats

-- Packed as a word, a number that is not finite stays one.
theorem pack_not_finite {u : UnpackedFloat} (held : u.isFinite = false) : (pack u).unpack.isFinite = false := by
  cases u with
  | notANumber => decide +kernel
  | infinity s => cases s <;> decide +kernel
  | zero s => cases held
  | finite s m e positive => cases held

theorem single_divisor_float : singleDivisor Float = 0.0 := by decide +kernel

section Unpacked

variable {spec : Format} {u : UnpackedFloat}

theorem div_zero_not_finite (spec : Format) (u : UnpackedFloat) (s : UnpackedFloat.Sign) :
    (UnpackedFloat.div spec u (.zero s)).isFinite = false := by
  cases u <;> rfl

theorem add_not_finite (held : u.isFinite = false) (v : UnpackedFloat) :
    (UnpackedFloat.add spec u v).isFinite = false := by
  cases u with
  | notANumber => rfl
  | infinity s =>
      cases v with
      | infinity t => cases s <;> cases t <;> rfl
      | _ => rfl
  | zero s => cases held
  | finite s m e positive => cases held

theorem mul_not_finite (held : u.isFinite = false) (v : UnpackedFloat) :
    (UnpackedFloat.mul spec u v).isFinite = false := by
  cases u with
  | notANumber => rfl
  | infinity s => cases v <;> rfl
  | zero s => cases held
  | finite s m e positive => cases held

theorem sqrt_not_finite (held : u.isFinite = false) : (UnpackedFloat.sqrt spec u).isFinite = false := by
  cases u with
  | notANumber => rfl
  | infinity s => cases s <;> rfl
  | zero s => cases held
  | finite s m e positive => cases held

end Unpacked

instance : SpreadingScalar Float where
  div_single x := by
    rw [single_divisor_float]
    exact pack_not_finite (div_zero_not_finite _ _ _)
  add x y held := pack_not_finite (add_not_finite held _)
  mul x y held := pack_not_finite (mul_not_finite held _)
  sqrt x held := pack_not_finite (sqrt_not_finite held)

end Floats

instance : SpreadingScalar Exact where
  div_single x := by
    have zero : singleDivisor Exact = .value 0 := by
      change Exact.value ((((1 : Nat) : ℝ) - 1) * ((1 : Nat) : ℝ)) = _
      rw [Nat.cast_one, sub_self, zero_mul]
    rw [zero]
    cases x with
    | undefined => rfl
    | value y => exact congrArg Scalar.isFinite (Exact.value_div_zero y)
  add x y held := by
    cases x with
    | undefined => rfl
    | value x => cases held
  mul x y held := by
    cases x with
    | undefined => rfl
    | value x => cases held
  sqrt x held := by
    cases x with
    | undefined => rfl
    | value x => cases held

theorem standard_error_single {R : Type} [Scalar R] [SpreadingScalar R] {zs : List (Cplx R)} (single : zs.length = 1) :
    Scalar.isFinite (standardError zs) = false := by
  rw [standardError, single]
  exact SpreadingScalar.sqrt _ (SpreadingScalar.div_single _)

end OrbitalSpectra
