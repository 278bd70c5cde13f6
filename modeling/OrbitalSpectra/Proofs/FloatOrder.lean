import OrbitalSpectra.Scalar.Float
import OrbitalSpectra.Proofs.Ordering

set_option autoImplicit false

namespace OrbitalSpectra

open Float.Model
open Float.Model.UnpackedFloat

-- How many floats lie between zero and the one with this mantissa and exponent.
def distance (m : Nat) (e : ℤ) : ℤ := (e + 1074) * 2 ^ 52 + m

def rung : UnpackedFloat → ℤ
  | .finite s m e _ => s.apply (distance m e)
  | .infinity s => s.apply (2047 * 2 ^ 52)
  | _ => 0

-- A mantissa of full length, or the least exponent.
def Graded (m : Nat) (e : ℤ) : Prop := -1074 ≤ e ∧ e ≤ 971 ∧ m < 2 ^ 53 ∧ (2 ^ 52 ≤ m ∨ e = -1074)

def GradedFloat : UnpackedFloat → Prop
  | .finite _ m e _ => Graded m e
  | _ => True

theorem distance_bounds {m : Nat} {e : ℤ} (positive : 0 < m) (graded : Graded m e) :
    0 < distance m e ∧ distance m e < 2047 * 2 ^ 52 := by
  unfold Graded at graded
  unfold distance
  omega

-- Larger exponents lie further out, whatever the mantissas are.
theorem compare_distance {m k : Nat} {e f : ℤ} (left : Graded m e) (right : Graded k f) :
    (compare e f).then (compare m k) = compare (distance m e) (distance k f) := by
  unfold Graded at left right
  unfold distance
  rcases lt_trichotomy e f with before | rfl | after
  · rw [compare_lt_iff_lt.mpr before, Ordering.lt_then, eq_comm, compare_lt_iff_lt]
    omega
  · rw [compare_eq_iff_eq.mpr rfl, Ordering.eq_then]
    rcases lt_trichotomy m k with less | rfl | more
    · rw [compare_lt_iff_lt.mpr less, eq_comm, compare_lt_iff_lt]
      omega
    · rw [compare_eq_iff_eq.mpr rfl, compare_eq_iff_eq.mpr rfl]
    · rw [compare_gt_iff_gt.mpr more, eq_comm, compare_gt_iff_gt]
      omega
  · rw [compare_gt_iff_gt.mpr after, Ordering.gt_then, eq_comm, compare_gt_iff_gt]
    omega

theorem compare_neg (a b : ℤ) : compare (-a) (-b) = (compare a b).swap := by
  rcases lt_trichotomy a b with less | rfl | more
  · rw [compare_lt_iff_lt.mpr less, compare_gt_iff_gt.mpr (neg_lt_neg less)]
    rfl
  · rw [compare_eq_iff_eq.mpr rfl, compare_eq_iff_eq.mpr rfl]
    rfl
  · rw [compare_gt_iff_gt.mpr more, compare_lt_iff_lt.mpr (neg_lt_neg more)]
    rfl

theorem lt_compare_iff (a b : ℤ) : Ordering.lt = compare a b ↔ a < b := eq_comm.trans compare_lt_iff_lt

theorem gt_compare_iff (a b : ℤ) : Ordering.gt = compare a b ↔ b < a := eq_comm.trans compare_gt_iff_gt

-- Numbers compare as their rungs do.
theorem compare_rung {u v : UnpackedFloat} (left : GradedFloat u) (right : GradedFloat v)
    (leftNumber : u ≠ .notANumber) (rightNumber : v ≠ .notANumber) :
    u.compare v = some (compare (rung u) (rung v)) := by
  cases u with
  | notANumber => exact absurd rfl leftNumber
  | zero s =>
      cases v with
      | notANumber => exact absurd rfl rightNumber
      | zero t => rfl
      | infinity t => cases t <;> rfl
      | finite t k f positive =>
          have bounds := distance_bounds positive right
          cases t <;>
            simp only [UnpackedFloat.compare, rung, Sign.apply, Option.some.injEq, lt_compare_iff, gt_compare_iff] <;>
            omega
  | infinity s =>
      cases v with
      | notANumber => exact absurd rfl rightNumber
      | zero t => cases s <;> rfl
      | infinity t => cases s <;> cases t <;> rfl
      | finite t k f positive =>
          have bounds := distance_bounds positive right
          cases s <;> cases t <;>
            simp only [UnpackedFloat.compare, rung, Sign.apply, Option.some.injEq, lt_compare_iff, gt_compare_iff] <;>
            omega
  | finite s m e positive =>
      have bounds := distance_bounds positive left
      cases v with
      | notANumber => exact absurd rfl rightNumber
      | zero t =>
          cases s <;>
            simp only [UnpackedFloat.compare, rung, Sign.apply, Option.some.injEq, lt_compare_iff, gt_compare_iff] <;>
            omega
      | infinity t =>
          cases s <;> cases t <;>
            simp only [UnpackedFloat.compare, rung, Sign.apply, Option.some.injEq, lt_compare_iff, gt_compare_iff] <;>
            omega
      | finite t k f other =>
          have otherBounds := distance_bounds other right
          have sizes := compare_distance left right
          cases s <;> cases t
          · rw [UnpackedFloat.compare, sizes, rung, rung, Sign.apply, Sign.apply, compare_neg]
          · simp only [UnpackedFloat.compare, rung, Sign.apply, Option.some.injEq, lt_compare_iff]
            omega
          · simp only [UnpackedFloat.compare, rung, Sign.apply, Option.some.injEq, gt_compare_iff]
            omega
          · rw [UnpackedFloat.compare, sizes, rung, rung, Sign.apply, Sign.apply]

-- The rung of a word, which counts from zero up or, with the sign bit, down.
def wordRung (w : Nat) : ℤ := if w < 2 ^ 63 then w else 2 ^ 63 - w

section Word

variable (b : BitVec Format.binary64.numBits)

theorem mantissa_word : (unpackMantissa b).toNat = b.toNat % 2 ^ 52 := by
  rw [unpackMantissa_def, BitVec.extractLsb'_toNat]
  rfl

theorem exponent_word : (unpackExponent b).toNat = b.toNat / 2 ^ 52 % 2 ^ 11 := by
  rw [unpackExponent_def, BitVec.extractLsb'_toNat, Nat.shiftRight_eq_div_pow]

theorem sign_word : (unpackSign b).toNat = b.toNat / 2 ^ 63 := by
  rw [unpackSign_def, BitVec.extractLsb'_toNat, Nat.shiftRight_eq_div_pow]
  have word : b.toNat < 2 ^ 64 := b.isLt
  change b.toNat / 2 ^ 63 % 2 ^ 1 = b.toNat / 2 ^ 63
  omega

theorem whole_mantissa : (1#1 ++ unpackMantissa b).toNat = 2 ^ 52 + b.toNat % 2 ^ 52 := by
  rw [BitVec.toNat_append, ← Nat.shiftLeft_add_eq_or_of_lt (unpackMantissa b).isLt, mantissa_word]
  rfl

theorem sign_unpacked : Sign.ofBitVec (unpackSign b) = if b.toNat < 2 ^ 63 then .positive else .negative := by
  have sign := sign_word b
  have clear : unpackSign b = 0#1 ↔ b.toNat < 2 ^ 63 := by
    rw [← BitVec.toNat_inj, sign]
    exact Nat.div_eq_zero_iff_lt (Nat.two_pow_pos 63)
  simp only [Sign.ofBitVec, clear]

theorem sign_applied {x : ℤ} (size : x = (b.toNat % 2 ^ 63 : Nat)) :
    (Sign.ofBitVec (unpackSign b)).apply x = wordRung b.toNat := by
  have word : b.toNat < 2 ^ 64 := b.isLt
  rw [sign_unpacked, size, wordRung]
  split <;> simp only [Sign.apply] <;> omega

theorem finite_unpacked {m : Nat} {e : ℤ} {positive : 0 < m} (graded : Graded m e)
    (size : distance m e = (b.toNat % 2 ^ 63 : Nat)) :
    GradedFloat (.finite (Sign.ofBitVec (unpackSign b)) m e positive) ∧
      rung (.finite (Sign.ofBitVec (unpackSign b)) m e positive) = wordRung b.toNat :=
  ⟨graded, sign_applied b size⟩

-- What a word stands for keeps its place among the words.
theorem unpack_rung (number : UnpackedFloat.unpack .binary64 b ≠ .notANumber) :
    GradedFloat (UnpackedFloat.unpack .binary64 b) ∧
      rung (UnpackedFloat.unpack .binary64 b) = wordRung b.toNat := by
  have field := exponent_word b
  have fraction := mantissa_word b
  have whole := whole_mantissa b
  have bias : ((Format.binary64.exponentBias : Nat) : ℤ) +
      (Format.binary64.mantissaBitsWithoutImplicit : Nat) = 1075 := rfl
  have parts : b.toNat % 2 ^ 63 = b.toNat / 2 ^ 52 % 2 ^ 11 * 2 ^ 52 + b.toNat % 2 ^ 52 := by omega
  revert number
  rw [UnpackedFloat.unpack]
  split
  · rename_i infinite
    have top : (unpackExponent b).toNat = 2047 := congrArg BitVec.toNat infinite
    split
    · rename_i empty
      have none : (unpackMantissa b).toNat = 0 := congrArg BitVec.toNat empty
      intro _
      refine ⟨trivial, sign_applied b ?_⟩
      omega
    · exact fun number => absurd rfl number
  · rename_i finite
    have top : (unpackExponent b).toNat ≠ 2047 := fun same => finite (BitVec.eq_of_toNat_eq same)
    split
    · rename_i least
      have bottom : (unpackExponent b).toNat = 0 := congrArg BitVec.toNat least
      split
      · rename_i empty
        have none : (unpackMantissa b).toNat = 0 := congrArg BitVec.toNat empty
        intro _
        have zero := sign_applied b (x := 0) (by omega)
        refine ⟨trivial, ?_⟩
        rw [← zero]
        cases Sign.ofBitVec (unpackSign b) <;> rfl
      · intro _
        apply finite_unpacked b
        · rw [bias, Graded]
          omega
        · rw [bias, distance]
          omega
    · rename_i normal
      have above : (unpackExponent b).toNat ≠ 0 := fun same => normal (BitVec.eq_of_toNat_eq same)
      intro _
      apply finite_unpacked b
      · rw [bias, Graded]
        omega
      · rw [bias, distance]
        omega

end Word

def floatRung (x : Float) : ℤ := wordRung x.toBits.toNat

theorem not_nan_iff (x : Float) : x.isNaN = false ↔ x.toModel.unpack ≠ .notANumber := by
  change x.toModel.unpack.isNaN = false ↔ _
  rw [ne_eq, ← UnpackedFloat.isNaN_iff, Bool.not_eq_true]

theorem compare_words {x y : Float} (left : x.isNaN = false) (right : y.isNaN = false) :
    x.toModel.unpack.compare y.toModel.unpack = some (compare (floatRung x) (floatRung y)) := by
  obtain ⟨leftGraded, leftRung⟩ := unpack_rung x.toModel.toBits.toBitVec ((not_nan_iff x).mp left)
  obtain ⟨rightGraded, rightRung⟩ := unpack_rung y.toModel.toBits.toBitVec ((not_nan_iff y).mp right)
  have compared := compare_rung leftGraded rightGraded ((not_nan_iff x).mp left) ((not_nan_iff y).mp right)
  rw [leftRung, rightRung] at compared
  exact compared

theorem compare_undefined {x y : Float} (undefined : ¬ (x.isNaN = false ∧ y.isNaN = false)) :
    x.toModel.unpack.compare y.toModel.unpack = none := by
  rw [not_nan_iff, not_nan_iff] at undefined
  by_cases left : x.toModel.unpack = .notANumber
  · rw [left]
    cases y.toModel.unpack <;> rfl
  · have right : y.toModel.unpack = .notANumber := by
      by_contra number
      exact undefined ⟨left, number⟩
    rw [right]
    cases x.toModel.unpack <;> rfl

theorem compare_float_iff (x y : Float) (order : Ordering) : x.toModel.unpack.compare y.toModel.unpack = some order ↔
    (x.isNaN = false ∧ y.isNaN = false) ∧ compare (floatRung x) (floatRung y) = order := by
  by_cases numbers : x.isNaN = false ∧ y.isNaN = false
  · rw [compare_words numbers.1 numbers.2, Option.some.injEq]
    exact (and_iff_right numbers).symm
  · rw [compare_undefined numbers]
    exact iff_of_false nofun fun held => numbers held.1

theorem float_le_iff (x y : Float) :
    x ≤ y ↔ (x.isNaN = false ∧ y.isNaN = false) ∧ floatRung x ≤ floatRung y := by
  have unfolded : x ≤ y ↔ x.toModel.unpack.le y.toModel.unpack = true := decide_eq_true_iff
  rw [unfolded, UnpackedFloat.le, Option.any_eq_true]
  simp only [compare_float_iff]
  constructor
  · rintro ⟨_, ⟨numbers, rfl⟩, ordered⟩
    exact ⟨numbers, Std.isLE_compare.mp ordered⟩
  · rintro ⟨numbers, ordered⟩
    exact ⟨_, ⟨numbers, rfl⟩, Std.isLE_compare.mpr ordered⟩

theorem float_lt_iff (x y : Float) :
    x < y ↔ (x.isNaN = false ∧ y.isNaN = false) ∧ floatRung x < floatRung y := by
  have unfolded : x < y ↔ x.toModel.unpack.lt y.toModel.unpack = true := decide_eq_true_iff
  rw [unfolded, UnpackedFloat.lt, beq_iff_eq, compare_float_iff, compare_lt_iff_lt]

theorem finite_not_nan {x : Float} (finite : x.isFinite = true) : x.isNaN = false := by
  rw [not_nan_iff]
  intro undefined
  change x.toModel.unpack.isFinite = true at finite
  rw [undefined] at finite
  exact Bool.false_ne_true finite

theorem order_word {x : Float} (number : x.isNaN = false) : orderWord x = x.toBits := by
  rw [orderWord, number]
  rfl

-- The total order counts like the rungs, with negative zero one step below zero.
theorem order_key {x : Float} (number : x.isNaN = false) :
    totalOrderKey x = if x.toBits.toNat < 2 ^ 63 then floatRung x else floatRung x - 1 := by
  have half : Decimal.twoTo 63 = 2 ^ 63 := Nat.pow_eq
  rw [totalOrderKey, order_word number, half, floatRung, wordRung]
  split <;> push_cast <;> omega

theorem order_key_le {x y : Float} (left : x.isNaN = false) (right : y.isNaN = false)
    (ordered : totalOrderKey x ≤ totalOrderKey y) : floatRung x ≤ floatRung y := by
  rw [order_key left, order_key right] at ordered
  unfold floatRung wordRung at *
  split at ordered <;> split at ordered <;> omega

theorem float_defined_iff (x : Float) : Defined x ↔ x.isNaN = false := by
  rw [Defined, float_le_iff]
  exact ⟨fun held => held.1.1, fun number => ⟨⟨number, number⟩, le_rfl⟩⟩

instance : OrderedScalar Float where
  defined_of_le := by
    intro a b le
    rw [float_defined_iff, float_defined_iff]
    exact ((float_le_iff a b).mp le).1
  le_transitive := by
    intro a b c first second
    obtain ⟨⟨left, _⟩, below⟩ := (float_le_iff a b).mp first
    obtain ⟨⟨_, right⟩, above⟩ := (float_le_iff b c).mp second
    exact (float_le_iff a c).mpr ⟨⟨left, right⟩, below.trans above⟩
  lt_iff := by
    intro a b
    rw [float_defined_iff, float_defined_iff, float_lt_iff, float_le_iff]
    constructor
    · rintro ⟨numbers, less⟩
      exact ⟨numbers, fun other => not_le.mpr less other.2⟩
    · rintro ⟨numbers, high⟩
      exact ⟨numbers, not_le.mp fun low => high ⟨numbers.symm, low⟩⟩
  defined_of_finite := by
    intro a finite
    exact (float_defined_iff a).mpr (finite_not_nan finite)
  total_trans := by
    intro a b c first second
    exact decide_eq_true ((of_decide_eq_true first).trans (of_decide_eq_true second))
  total_total := by
    intro a b
    rw [Bool.or_eq_true]
    exact (le_total (totalOrderKey a) (totalOrderKey b)).imp decide_eq_true decide_eq_true
  le_of_total := by
    intro a b left right ordered
    rw [float_defined_iff] at left right
    exact (float_le_iff a b).mpr ⟨⟨left, right⟩, order_key_le left right (of_decide_eq_true ordered)⟩

end OrbitalSpectra
