import OrbitalSpectra.Proofs.NonFinite

set_option autoImplicit false

namespace OrbitalSpectra

open Float.Model
open Float.Model.UnpackedFloat

section Packed

-- Only a full exponent field stands for a number that is not finite.
theorem unpack_finite {b : BitVec Format.binary64.numBits} (room : unpackExponent b ≠ -1#_) :
    (UnpackedFloat.unpack .binary64 b).isFinite = true := by
  rw [UnpackedFloat.unpack]
  simp only [if_neg room]
  split
  · split <;> rfl
  · rfl

variable (s : Sign) {m : Nat} {e : ℤ} (positive : 0 < m)

theorem pack_exponent (top : e ≤ 971) :
    (unpackExponent (UnpackedFloat.pack .binary64 (.finite s m e positive))).toNat =
      if m.log2 = 52 then (e + 1075).toNat else 0 := by
  have room : ¬ 2 ^ Format.binary64.exponentBits ≤
      (e + Format.binary64.exponentBias + Format.binary64.mantissaBitsWithoutImplicit).toNat + 1 := by
    change ¬ 2 ^ 11 ≤ (e + 1023 + 52).toNat + 1
    omega
  simp only [UnpackedFloat.pack, if_neg room]
  by_cases full : m.log2 = 52
  · have normal : m.log2 + 1 = Format.binary64.mantissaBits := congrArg (· + 1) full
    rw [if_pos normal, if_pos full, unpackExponent_packComponents, BitVec.toNat_ofNat]
    change (e + 1023 + 52).toNat % 2 ^ 11 = _
    omega
  · have short : ¬ m.log2 + 1 = Format.binary64.mantissaBits := by
      change ¬ m.log2 + 1 = 1 + 52
      omega
    rw [if_neg short, if_neg full, unpackExponent_packComponents]
    rfl

theorem pack_in_range (top : e ≤ 971) : (pack (.finite s m e positive)).unpack.isFinite = true := by
  have field : (unpackExponent (UnpackedFloat.pack .binary64 (.finite s m e positive))).toNat =
      if m.log2 = 52 then (e + 1075).toNat else 0 := pack_exponent s positive top
  apply unpack_finite
  intro same
  have full : (unpackExponent (UnpackedFloat.pack .binary64 (.finite s m e positive))).toNat = 2047 :=
    congrArg BitVec.toNat same
  rw [full] at field
  split at field <;> omega

theorem unpack_pack_zero (s : Sign) : (pack (.zero s)).unpack = .zero s := by cases s <;> rfl

theorem unpack_pack_undefined : (pack .notANumber).unpack = .notANumber := rfl

-- A mantissa of full length is read back with its exponent.
theorem unpack_pack_full (top : e ≤ 971) (bottom : -1074 ≤ e) (full : m.log2 = 52) :
    ∃ t k h, (pack (.finite s m e positive)).unpack = .finite t k e h ∧ k.log2 = 52 := by
  let b := UnpackedFloat.pack .binary64 (.finite s m e positive)
  have field : (unpackExponent b).toNat = (e + 1075).toNat := by
    rw [pack_exponent s positive top, if_pos full]
  have exponent : ((unpackExponent b).toNat : ℤ) -
      ((Format.binary64.exponentBias : Nat) + (Format.binary64.mantissaBitsWithoutImplicit : Nat)) = e := by
    change ((unpackExponent b).toNat : ℤ) - (1023 + 52) = e
    omega
  have whole := whole_mantissa b
  have length : (1#1 ++ unpackMantissa b).toNat.log2 = 52 := by
    rw [whole, Nat.log2_eq_iff (by omega)]
    omega
  change ∃ t k h, UnpackedFloat.unpack .binary64 b = _ ∧ _
  rw [UnpackedFloat.unpack]
  split
  · rename_i infinite
    have last : (unpackExponent b).toNat = 2047 := congrArg BitVec.toNat infinite
    omega
  · split
    · rename_i least
      have first : (unpackExponent b).toNat = 0 := congrArg BitVec.toNat least
      omega
    · simp only [exponent]
      exact ⟨_, _, by omega, rfl, length⟩

end Packed

section Rounding

theorem target_exponent (t : ℤ) : Format.binary64.targetExponent t = max (t - 53) (-1074) := by
  simp only [Format.targetExponent]
  rfl

theorem shifted_mantissa (em : ExtendedMantissa) (k : Nat) : (em >>> k).mantissa = em.mantissa / 2 ^ k := by
  induction k with
  | zero => exact (Nat.div_one _).symm
  | succ k ih =>
      change (em >>> k).mantissa / 2 = _
      rw [ih, Nat.div_div_eq_div_mul, Nat.pow_succ]

theorem accurate_mantissa (m : Nat) (accuracy : Accuracy) :
    (ExtendedMantissa.ofMantissaAndAccuracy m accuracy).mantissa = m := by
  cases accuracy with
  | exact => rfl
  | inexact order => cases order <;> rfl

theorem rounded_mantissa_bounds (em : ExtendedMantissa) :
    em.mantissa ≤ em.roundedMantissa ∧ em.roundedMantissa ≤ em.mantissa + 1 := by
  obtain ⟨m, half, rest⟩ := em
  cases half <;> cases rest <;>
    simp only [ExtendedMantissa.roundedMantissa, ExtendedMantissa.accuracy, Accuracy.roundToNearestEven] <;>
    omega

-- By how much a mantissa is too long for its exponent.
def excess (m : Nat) (e : ℤ) : Nat := (max (totalExponent m e - 53) (-1074) - e).toNat

theorem shift_parts (m : Nat) (e : ℤ) (accuracy : Accuracy) :
    (shiftToTargetExponent .binary64 m e accuracy).1.mantissa = m / 2 ^ excess m e ∧
    (shiftToTargetExponent .binary64 m e accuracy).2 = e + excess m e := by
  rw [shiftToTargetExponent, target_exponent, shiftToExponent]
  exact ⟨(shifted_mantissa _ _).trans (by rw [accurate_mantissa]; rfl), rfl⟩

-- Shortened, rounded and shortened again, as rounding may make a mantissa longer.
theorem round_parts (s : Sign) (m : Nat) (e : ℤ) (accuracy : Accuracy) :
    ∃ r f, m / 2 ^ excess m e ≤ r ∧ r ≤ m / 2 ^ excess m e + 1 ∧ f = e + excess m e ∧
      roundWithAccuracy .binary64 s m e accuracy = if h : r / 2 ^ excess r f = 0 then .zero s else
        .finite s (r / 2 ^ excess r f) (f + excess r f) (Nat.pos_of_ne_zero h) := by
  obtain ⟨mantissa, exponent⟩ := shift_parts m e accuracy
  have bounds := rounded_mantissa_bounds (shiftToTargetExponent .binary64 m e accuracy).1
  rw [mantissa] at bounds
  refine ⟨_, _, bounds.1, bounds.2, exponent, ?_⟩
  obtain ⟨again, last⟩ := shift_parts (shiftToTargetExponent .binary64 m e accuracy).1.roundedMantissa
    (shiftToTargetExponent .binary64 m e accuracy).2 .exact
  simp only [roundWithAccuracy, again, last]

theorem log_le {m k : Nat} (le : m ≤ 2 ^ k) : m.log2 ≤ k := by
  by_cases zero : m = 0
  · rw [zero]
    exact Nat.zero_le k
  · have next : 2 ^ k < 2 ^ (k + 1) := Nat.pow_lt_pow_right (by decide) (Nat.lt_succ_self k)
    exact Nat.lt_succ_iff.mp ((Nat.log2_lt zero).mpr (le.trans_lt next))

theorem shortened_le (m k : Nat) : m / 2 ^ k + 1 ≤ 2 ^ (m.log2 + 1 - k) := by
  have bound : m < 2 ^ k * 2 ^ (m.log2 + 1 - k) := by
    rw [← Nat.pow_add]
    exact Nat.lt_log2_self.trans_le (Nat.pow_le_pow_right (by decide) (by omega))
  exact Nat.div_lt_of_lt_mul bound

-- Rounding adds at most one to either exponent.
theorem round_in_range (s : Sign) {m : Nat} {e : ℤ} (accuracy : Accuracy) (top : e ≤ 900)
    (total : totalExponent m e ≤ 900) :
    (pack (roundWithAccuracy .binary64 s m e accuracy)).unpack.isFinite = true := by
  obtain ⟨r, f, _, high, shifted, rounded⟩ := round_parts s m e accuracy
  have length := log_le (high.trans (shortened_le m (excess m e)))
  rw [rounded]
  split
  · exact congrArg UnpackedFloat.isFinite (unpack_pack_zero s)
  · apply pack_in_range _ _
    unfold totalExponent at total
    unfold excess totalExponent at *
    omega

theorem round_full (s : Sign) {m : Nat} {e : ℤ} (accuracy : Accuracy) (bottom : -1074 ≤ e) (long : 52 ≤ m.log2) :
    ∃ r f h, roundWithAccuracy .binary64 s m e accuracy = .finite s r f h ∧ r.log2 = 52 ∧
      totalExponent m e - 53 ≤ f ∧ f ≤ totalExponent m e - 52 := by
  obtain ⟨r, f, low, high, shifted, rounded⟩ := round_parts s m e accuracy
  have nonzero : m ≠ 0 := by
    rintro rfl
    exact absurd long (by decide)
  have surplus : excess m e = m.log2 - 52 := by
    unfold excess totalExponent
    omega
  have exponent : f = totalExponent m e - 53 := by
    rw [shifted, surplus, totalExponent]
    omega
  have least : 2 ^ 52 ≤ m / 2 ^ excess m e := by
    rw [Nat.le_div_iff_mul_le (Nat.two_pow_pos _), ← Nat.pow_add, surplus, Nat.add_sub_cancel' long]
    exact Nat.log2_self_le nonzero
  have most : m / 2 ^ excess m e < 2 ^ 53 := by
    have bound := shortened_le m (excess m e)
    rw [surplus] at bound ⊢
    rwa [show m.log2 + 1 - (m.log2 - 52) = 53 by omega] at bound
  by_cases carried : r = 2 ^ 53
  · have once : excess r f = 1 := by
      rw [excess, totalExponent, carried, Nat.log2_two_pow]
      unfold totalExponent at exponent
      omega
    rw [once, dif_neg (by omega)] at rounded
    refine ⟨_, _, _, rounded, ?_, ?_⟩
    · rw [carried, show 2 ^ 53 / 2 ^ 1 = 2 ^ 52 by norm_num, Nat.log2_two_pow]
    · omega
  · have length : r.log2 = 52 := (Nat.log2_eq_iff (by omega)).mpr (by omega)
    have none : excess r f = 0 := by
      rw [excess, totalExponent, length]
      unfold totalExponent at exponent
      omega
    rw [none, dif_neg (by omega)] at rounded
    refine ⟨_, _, _, rounded, ?_, ?_⟩
    · rw [Nat.pow_zero, Nat.div_one, length]
    · omega

end Rounding

section Operations

variable {s t : Sign} {m k : Nat} {e f : ℤ}

theorem quotient_log (m shift : Nat) (positive : 0 < k) (whole : (m <<< shift) / k ≠ 0) :
    ((m <<< shift) / k).log2 + k.log2 ≤ m.log2 + shift := by
  have low : 2 ^ (((m <<< shift) / k).log2 + k.log2) ≤ m <<< shift := by
    rw [Nat.pow_add]
    exact (Nat.mul_le_mul (Nat.log2_self_le whole) (Nat.log2_self_le positive.ne')).trans (Nat.div_mul_le_self _ _)
  have high : m <<< shift < 2 ^ (m.log2 + 1 + shift) := by
    rw [Nat.shiftLeft_eq, Nat.pow_add]
    exact Nat.mul_lt_mul_of_pos_right Nat.lt_log2_self (Nat.two_pow_pos shift)
  have exponents := (Nat.pow_lt_pow_iff_right (by decide)).mp (low.trans_lt high)
  omega

theorem quotient_in_range (left : 0 < m) (right : 0 < k) (small : totalExponent m e ≤ 2)
    (apart : -600 ≤ totalExponent k f) :
    (pack (UnpackedFloat.div .binary64 (.finite s m e left) (.finite t k f right))).unpack.isFinite = true := by
  rw [UnpackedFloat.div, divCore, target_exponent]
  apply round_in_range
  · omega
  · have bound := quotient_log m
      (e - f - min (e - f) (max (totalExponent m e - totalExponent k f - 53) (-1074))).toNat right
    unfold totalExponent at *
    generalize (m <<< _ / k) = q at *
    by_cases none : q = 0
    · rw [none, show Nat.log2 0 = 0 from rfl]
      omega
    · have length := bound none
      omega

theorem root_log {m : Nat} (long : 104 ≤ m.log2) : 52 ≤ m.sqrt.log2 ∧ 2 * m.sqrt.log2 ≤ m.log2 := by
  have nonzero : m ≠ 0 := by
    rintro rfl
    exact absurd long (by decide)
  have enough : 2 ^ 52 ≤ m.sqrt := by
    rw [Nat.le_sqrt]
    exact (Nat.pow_le_pow_right (by decide) long).trans (Nat.log2_self_le nonzero)
  have some : m.sqrt ≠ 0 := by omega
  refine ⟨(Nat.le_log2 some).mpr enough, ?_⟩
  rw [Nat.le_log2 nonzero, Nat.two_mul, Nat.pow_add]
  exact (Nat.mul_le_mul (Nat.log2_self_le some) (Nat.log2_self_le some)).trans (Nat.sqrt_le m)

theorem shifted_log {m : Nat} (positive : 0 < m) (n : Nat) : (m <<< n).log2 = m.log2 + n := by
  rw [Nat.shiftLeft_eq, Nat.log2_eq_iff (Nat.mul_pos positive (Nat.two_pow_pos n)).ne']
  constructor
  · rw [Nat.pow_add]
    exact Nat.mul_le_mul_right _ (Nat.log2_self_le positive.ne')
  · rw [Nat.add_right_comm, Nat.pow_add]
    exact Nat.mul_lt_mul_of_pos_right Nat.lt_log2_self (Nat.two_pow_pos n)

-- The root has digits to spare, and about half of the exponent.
theorem root_digits (positive : 0 < m) (graded : Graded m e) {root : Nat} {low : ℤ} {accuracy : Accuracy}
    (core : sqrtCore .binary64 m e = (root, low, accuracy)) :
    52 ≤ root.log2 ∧ -600 ≤ low ∧ totalExponent root low ≤ 600 := by
  have length : m.log2 ≤ 52 := Nat.lt_succ_iff.mp ((Nat.log2_lt positive.ne').mpr graded.2.2.1)
  obtain ⟨bottom, top, _⟩ := graded
  rw [sqrtCore, target_exponent, Prod.mk.injEq, Prod.mk.injEq] at core
  obtain ⟨rfl, half, _⟩ := core
  rw [half]
  change min (e / 2) (max ((m.log2 + 1 + e + 1) / 2 - 53) (-1074)) = low at half
  have digits := shifted_log positive (e - 2 * low).toNat
  obtain ⟨enough, atMost⟩ := root_log (m := m <<< (e - 2 * low).toNat) (by omega)
  unfold totalExponent
  omega

theorem root_read_back (left : 0 < m) (graded : Graded m e) :
    ∃ t k f h, (pack (UnpackedFloat.sqrt .binary64 (.finite .positive m e left))).unpack = .finite t k f h ∧
      -600 ≤ totalExponent k f := by
  obtain ⟨root, least, accuracy, core⟩ :
      ∃ root least accuracy, sqrtCore .binary64 m e = (root, least, accuracy) := ⟨_, _, _, rfl⟩
  obtain ⟨digits, bottom, top⟩ := root_digits left graded core
  obtain ⟨r, f, h, rounded, full, low, high⟩ := round_full .positive accuracy (bottom.trans' (by decide)) digits
  have middle : -1074 ≤ f ∧ f ≤ 971 ∧ -600 ≤ 53 + f := by
    unfold totalExponent at low top high
    omega
  obtain ⟨t, k, h, unpacked, whole⟩ := unpack_pack_full .positive h middle.2.1 middle.1 full
  rw [UnpackedFloat.sqrt, core]
  simp only [rounded]
  refine ⟨t, k, f, h, unpacked, ?_⟩
  rw [totalExponent, whole]
  omega

end Operations

-- A number of the size of an eigenvector's parts, divided by a root.
class RootedScalar (R : Type) [Scalar R] : Prop where
  quotient_finite_iff : ∀ {x v : R}, -2.0 ≤ x → x ≤ 2.0 → Scalar.isFinite v = true →
    (Scalar.isFinite (x / Scalar.sqrt v) = true ↔ 0 < v)

section Floats

variable {x v : Float}

theorem float_number (number : x.isNaN = false) :
    GradedFloat x.toModel.unpack ∧ rung x.toModel.unpack = floatRung x :=
  unpack_rung x.toModel.toBits.toBitVec ((not_nan_iff x).mp number)

theorem float_part (low : -2.0 ≤ x) (high : x ≤ 2.0) : (∃ s, x.toModel.unpack = .zero s) ∨
    ∃ s m e h, x.toModel.unpack = .finite s m e h ∧ totalExponent m e ≤ 2 := by
  obtain ⟨⟨_, number⟩, below⟩ := (float_le_iff _ _).mp low
  obtain ⟨_, above⟩ := (float_le_iff _ _).mp high
  have least : floatRung (-2.0) = -(2 ^ 62) := by decide +kernel
  have most : floatRung 2.0 = 2 ^ 62 := by decide +kernel
  obtain ⟨graded, place⟩ := float_number number
  rw [least, ← place] at below
  rw [most, ← place] at above
  cases unpacked : x.toModel.unpack with
  | notANumber => exact absurd unpacked ((not_nan_iff x).mp number)
  | zero s => exact .inl ⟨s, rfl⟩
  | infinity s =>
      rw [unpacked] at below above
      cases s <;> simp only [rung, Sign.apply] at below above <;> omega
  | finite s m e h =>
      rw [unpacked] at below above graded
      obtain ⟨_, _, short, full⟩ : Graded m e := graded
      have length : m.log2 ≤ 52 := Nat.lt_succ_iff.mp ((Nat.log2_lt h.ne').mpr short)
      refine .inr ⟨s, m, e, h, rfl, ?_⟩
      cases s <;> simp only [rung, Sign.apply, distance] at below above <;> unfold totalExponent <;> omega

theorem quotient_by_root (x v : Float) : Scalar.isFinite (x / Scalar.sqrt v) =
    (pack (UnpackedFloat.div .binary64 x.toModel.unpack
      (pack (UnpackedFloat.sqrt .binary64 v.toModel.unpack)).unpack)).unpack.isFinite := rfl

theorem float_positive_iff (number : v.isNaN = false) : (0.0 : Float) < v ↔ 0 < rung v.toModel.unpack := by
  have zero : floatRung 0.0 = 0 := by decide +kernel
  rw [float_lt_iff, zero, (float_number number).2]
  exact and_iff_right ⟨by decide +kernel, number⟩

theorem quotient_finite_float (low : -2.0 ≤ x) (high : x ≤ 2.0) (finite : v.isFinite = true) :
    Scalar.isFinite (x / Scalar.sqrt v) = true ↔ 0 < rung v.toModel.unpack := by
  obtain ⟨graded, _⟩ := float_number (finite_not_nan finite)
  change v.toModel.unpack.isFinite = true at finite
  rw [quotient_by_root]
  cases unpacked : v.toModel.unpack with
  | notANumber => rw [unpacked] at finite; cases finite
  | infinity s => rw [unpacked] at finite; cases finite
  | zero s =>
      refine iff_of_false ?_ (lt_irrefl 0)
      have read : (pack (UnpackedFloat.sqrt .binary64 (.zero s))).unpack = .zero s := unpack_pack_zero s
      rw [read, Bool.not_eq_true]
      exact pack_not_finite (div_zero_not_finite _ _ _)
  | finite s m e h =>
      rw [unpacked] at graded
      have size := distance_bounds h graded
      cases s with
      | negative =>
          refine iff_of_false ?_ (by simp only [rung, Sign.apply]; omega)
          have read : (pack (UnpackedFloat.sqrt .binary64 (.finite .negative m e h))).unpack = .notANumber :=
            unpack_pack_undefined
          rw [read, Bool.not_eq_true]
          apply pack_not_finite
          cases x.toModel.unpack <;> rfl
      | positive =>
          refine iff_of_true ?_ size.1
          obtain ⟨t, k, f, h, read, apart⟩ := root_read_back h graded
          rw [read]
          obtain ⟨s, zero⟩ | ⟨s, n, g, left, part, small⟩ := float_part low high
          · rw [zero]
            exact congrArg UnpackedFloat.isFinite (unpack_pack_zero (s / t))
          · rw [part]
            exact quotient_in_range left h small apart

instance : RootedScalar Float where
  quotient_finite_iff := by
    intro x v low high finite
    exact (quotient_finite_float low high finite).trans (float_positive_iff (finite_not_nan finite)).symm

end Floats

instance : RootedScalar Exact where
  quotient_finite_iff := by
    intro x v low high finite
    obtain ⟨_, a, rfl⟩ := exact_related low
    cases v with
    | undefined => cases finite
    | value b =>
        change _ ↔ 0 < b
        by_cases positive : 0 < b
        · have root := (Real.sqrt_pos.mpr positive).ne'
          rw [Exact.value_sqrt b positive.le, Exact.value_div _ _ root]
          exact iff_of_true rfl positive
        · refine iff_of_false ?_ positive
          rcases (not_lt.mp positive).lt_or_eq with negative | rfl
          · have none : Scalar.sqrt (Exact.value b) = .undefined := if_neg (not_le.mpr negative)
            rw [none]
            exact Bool.false_ne_true
          · rw [Exact.value_sqrt 0 le_rfl, Real.sqrt_zero, Exact.value_div_zero]
            exact Bool.false_ne_true

end OrbitalSpectra
