import OrbitalSpectra.Decimal.Dyadic

set_option autoImplicit false

namespace OrbitalSpectra.Decimal

structure Convention where
  -- a value whose written digits are all zero keeps its minus sign
  signedZero : Bool
  -- the text of a zero in scientific notation, when it is not written with digits
  zeroText : Option String

def special (negative : Bool) : Magnitude → String
  | .infinite => if negative then "-inf" else "inf"
  | _ => "NaN"

def sign (negative : Bool) : String := if negative then "-" else ""

def fixed (convention : Convention) (places : Nat) (x : Float) : String :=
  let d := Dyadic.ofFloat x
  match d.magnitude with
  | .finite mantissa exponent =>
    let scaled := ((Quotient.ofDyadic mantissa exponent).shift places).round
    let whole := toString (scaled / tenTo places)
    let digits := if places = 0 then whole else whole ++ "." ++ padded places (scaled % tenTo places)
    sign (d.negative && (convention.signedZero || scaled != 0)) ++ digits
  | other => special d.negative other

-- Significand with `places` digits after the point and exponent, rounding carried into the exponent.
def significand (q : Quotient) (places : Nat) : Nat × Int :=
  let e := q.leadingExponent
  let digits := (q.shift (places - e)).round
  if digits = tenTo (places + 1) then (tenTo places, e + 1) else (digits, e)

def scientific (convention : Convention) (places : Nat) (x : Float) : String :=
  let d := Dyadic.ofFloat x
  let written (digits : Nat) (e : Int) :=
    let lead := toString (digits / tenTo places)
    let tail := if places = 0 then "" else "." ++ padded places (digits % tenTo places)
    lead ++ tail ++ "e" ++ toString e
  match d.magnitude with
  | .finite 0 _ =>
    sign (d.negative && convention.signedZero) ++ convention.zeroText.getD (written 0 0)
  | .finite mantissa exponent =>
    let (digits, e) := significand (Quotient.ofDyadic mantissa exponent) places
    sign d.negative ++ written digits e
  | other => special d.negative other

def rightAligned (width : Nat) (text : String) : String :=
  String.ofList (List.replicate (width - text.length) ' ') ++ text

end OrbitalSpectra.Decimal
