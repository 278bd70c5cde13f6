set_option autoImplicit false

namespace OrbitalSpectra.Decimal

-- The magnitude of a float: a finite one is `mantissa * 2 ^ exponent`.
inductive Magnitude
  | finite (mantissa : Nat) (exponent : Int)
  | infinite
  | notANumber
  deriving DecidableEq, Repr

structure Dyadic where
  negative : Bool
  magnitude : Magnitude
  deriving DecidableEq, Repr

def smallestExponent : Int := -1074

def twoTo (n : Nat) : Nat := Nat.pow 2 n

def tenTo (n : Nat) : Nat := Nat.pow 10 n

def hiddenBit : Nat := twoTo 52

def Dyadic.ofBits (bits : Nat) : Dyadic :=
  let field : Nat := bits / hiddenBit % twoTo 11
  let fraction : Nat := bits % hiddenBit
  { negative := bits / twoTo 63 % 2 = 1
    magnitude :=
      if field = 2047 then
        if fraction = 0 then .infinite else .notANumber
      else if field = 0 then .finite fraction smallestExponent
      else .finite (hiddenBit + fraction) (field + smallestExponent - 1) }

def Dyadic.ofFloat (x : Float) : Dyadic := ofBits x.toBits.toNat

structure Quotient where
  num : Nat
  den : Nat

def Quotient.ofDyadic (mantissa : Nat) (exponent : Int) : Quotient :=
  if 0 ≤ exponent then ⟨mantissa * twoTo exponent.toNat, 1⟩ else ⟨mantissa, twoTo (-exponent).toNat⟩

def Quotient.shift (q : Quotient) (shift : Int) : Quotient :=
  if 0 ≤ shift then ⟨q.num * tenTo shift.toNat, q.den⟩ else ⟨q.num, q.den * tenTo (-shift).toNat⟩

-- Nearest integer, a half going to the even neighbour.
def Quotient.round (q : Quotient) : Nat :=
  let floor := q.num / q.den
  let twice := 2 * (q.num % q.den)
  if q.den < twice ∨ (twice = q.den ∧ floor % 2 = 1) then floor + 1 else floor

def Quotient.reaches (q : Quotient) (e : Int) : Bool :=
  if 0 ≤ e then q.den * tenTo e.toNat ≤ q.num else q.den ≤ q.num * tenTo (-e).toNat

-- The greatest `e` with `10 ^ e` at most the quotient, for a positive quotient. The binary
-- lengths give it up to three places, which are tried from above.
def Quotient.leadingExponent (q : Quotient) : Int :=
  let low := ((q.num.log2 : Int) - q.den.log2 - 1) * 30103 / 100000 - 1
  ([low + 3, low + 2, low + 1].find? q.reaches).getD low

def padded (width n : Nat) : String :=
  let digits := toString n
  String.ofList (List.replicate (width - digits.length) '0') ++ digits

end OrbitalSpectra.Decimal
