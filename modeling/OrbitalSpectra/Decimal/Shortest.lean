import OrbitalSpectra.Decimal.Text

set_option autoImplicit false

namespace OrbitalSpectra.Decimal

-- The reals that round to a finite float, scaled by four so that the ends are integers times
-- `2 ^ exponent`; the ends belong to it when the mantissa is even.
structure RoundingInterval where
  low : Nat
  value : Nat
  high : Nat
  exponent : Int
  closed : Bool

def RoundingInterval.ofDyadic (mantissa : Nat) (exponent : Int) : RoundingInterval :=
  let below := if mantissa = hiddenBit ∧ smallestExponent < exponent then 1 else 2
  { low := 4 * mantissa - below
    value := 4 * mantissa
    high := 4 * mantissa + 2
    exponent := exponent - 2
    closed := mantissa % 2 = 0 }

def RoundingInterval.contains (i : RoundingInterval) (digits : Nat) (place : Int) : Bool :=
  let low := (Quotient.ofDyadic i.low i.exponent).shift (-place)
  let high := (Quotient.ofDyadic i.high i.exponent).shift (-place)
  if i.closed then low.num ≤ digits * low.den && digits * high.den ≤ high.num
  else low.num < digits * low.den && digits * high.den < high.num

-- The nearest of the two neighbours on the grid of `10 ^ place` that reads back, the larger one
-- at a tie.
def RoundingInterval.onGrid (i : RoundingInterval) (place : Int) : Option Nat :=
  let q := (Quotient.ofDyadic i.value i.exponent).shift (-place)
  let floor := q.num / q.den
  let upperNearer := q.den ≤ 2 * (q.num % q.den)
  match i.contains floor place && floor != 0, i.contains (floor + 1) place with
  | true, true => some (if upperNearer then floor + 1 else floor)
  | true, false => some floor
  | false, true => some (floor + 1)
  | false, false => none

-- Digits and place of the shortest decimal; seventeen digits always suffice.
def shortestDigits (mantissa : Nat) (exponent : Int) : Nat × Int :=
  let i := RoundingInterval.ofDyadic mantissa exponent
  let e := (Quotient.ofDyadic mantissa exponent).leadingExponent
  let found := (List.range 17).findSome? fun (count : Nat) =>
    let place := e - count
    (i.onGrid place).map fun digits => (digits, place)
  found.getD (mantissa, 0)

def positional (digits : Nat) (place : Int) : String :=
  if 0 ≤ place then toString (digits * tenTo place.toNat)
  else
    let places := (-place).toNat
    toString (digits / tenTo places) ++ "." ++ padded places (digits % tenTo places)

-- The digits without their trailing zeros, which move into the place as long as it is negative.
def dropZeros : Nat → Nat → Int → Nat × Int
  | 0, digits, place => (digits, place)
  | fuel + 1, digits, place =>
    if place < 0 ∧ digits % 10 = 0 then dropZeros fuel (digits / 10) (place + 1) else (digits, place)

def shortest (x : Float) : String :=
  let d := Dyadic.ofFloat x
  match d.magnitude with
  | .finite 0 _ => sign d.negative ++ "0"
  | .finite mantissa exponent =>
    let (digits, place) := shortestDigits mantissa exponent
    let (digits, place) := dropZeros 17 digits place
    sign d.negative ++ positional digits place
  | other => special d.negative other

end OrbitalSpectra.Decimal
