set_option autoImplicit false

namespace OrbitalSpectra.Decimal

-- The value of a digit below the radix, letters in either case.
def digit? (radix : Nat) (c : Char) : Option Nat :=
  let value :=
    if '0' ≤ c ∧ c ≤ '9' then some (c.toNat - '0'.toNat)
    else if 'a' ≤ c ∧ c ≤ 'z' then some (c.toNat - 'a'.toNat + 10)
    else if 'A' ≤ c ∧ c ≤ 'Z' then some (c.toNat - 'A'.toNat + 10)
    else none
  value.filter (· < radix)

def natural? (radix : Nat) (cs : List Char) : Option Nat :=
  if cs.isEmpty then none
  else cs.foldlM (fun n c => (digit? radix c).map (n * radix + ·)) 0

def integer? (radix : Nat) : List Char → Option Int
  | '-' :: rest => (natural? radix rest).map fun n => -(n : Int)
  | cs => (natural? radix cs).map fun n => (n : Int)

def ordinary (c : Char) : Bool := (digit? 10 c).isSome

-- Beyond this many places a decimal is zero or infinite as a float.
def placeLimit : Int := 400

def nearest (mantissa : Nat) (exponent : Int) : Float :=
  let places : Int := exponent + (toString mantissa).length
  if mantissa = 0 ∨ places < -placeLimit then 0.0
  else if placeLimit < places then 1.0 / 0.0
  else Float.ofScientific mantissa (exponent < 0) exponent.natAbs

-- What may follow the digits: nothing, or `e` and an integer.
def exponent? : List Char → Option Int
  | [] => some 0
  | e :: rest =>
    if e = 'e' ∨ e = 'E' then
      match rest with
      | '+' :: digits => (natural? 10 digits).map fun n => (n : Int)
      | cs => integer? 10 cs
    else none

-- A decimal without a sign: digits, a point that may be left out, digits, an exponent that may be
-- left out. One of the two runs of digits may be empty.
def unsigned? (cs : List Char) : Option Float := do
  let whole := cs.takeWhile ordinary
  let rest := cs.dropWhile ordinary
  let (fraction, rest) :=
    match rest with
    | '.' :: tail => (tail.takeWhile ordinary, tail.dropWhile ordinary)
    | _ => ([], rest)
  let mantissa ← natural? 10 (whole ++ fraction)
  let exponent ← exponent? rest
  return nearest mantissa (exponent - fraction.length)

def signed? : List Char → Option Float
  | '-' :: rest => (unsigned? rest).map fun x => -x
  | '+' :: rest => unsigned? rest
  | cs => unsigned? cs

end OrbitalSpectra.Decimal
