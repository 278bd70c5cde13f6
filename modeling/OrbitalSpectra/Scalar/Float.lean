import OrbitalSpectra.Scalar
import OrbitalSpectra.Decimal.Shortest

set_option autoImplicit false

namespace OrbitalSpectra

namespace Hypotenuse

def large : Float := Float.scaleB 1.0 511
def tiny : Float := Float.scaleB 1.0 (-459)
def negligible : Float := Float.scaleB 1.0 (-54)
def scale : Float := Float.scaleB 1.0 (-600)

-- Square root of the sum of squares with one correction step, for legs `short ≤ long` whose
-- squares neither overflow nor vanish.
def corrected (long short : Float) : Float :=
  let h := Float.sqrt (long * long + short * short)
  let residue :=
    if h ≤ 2.0 * short then
      let delta := h - short
      long * (2.0 * delta - long) + (delta - 2.0 * (long - short)) * delta
    else
      let delta := h - long
      2.0 * delta * (long - 2.0 * short) + ((4.0 * delta - short) * short + delta * delta)
  h - residue / (2.0 * h)

end Hypotenuse

open Hypotenuse in
-- An infinite leg wins over an undefined one.
def floatHypot (x y : Float) : Float :=
  if x.isInf || y.isInf then 1.0 / 0.0
  else if x.isNaN || y.isNaN then x + y
  else
    let a := x.abs
    let b := y.abs
    let long := if a < b then b else a
    let short := if a < b then a else b
    if large < long then
      if short ≤ long * negligible then long + short
      else corrected (long * scale) (short * scale) / scale
    else if short < tiny then
      if short / negligible ≤ long then long + short
      else corrected (long / scale) (short / scale) * scale
    else if short ≤ long * negligible then long + short
    else corrected long short

-- The word of a float. The result of an operation that has none carries the sign.
def orderWord (x : Float) : UInt64 := if x.isNaN then 0xfff8000000000000 else x.toBits

-- Place of a float in the total order: undefined, negative numbers, negative zero, zero, positive
-- numbers.
def totalOrderKey (x : Float) : Int :=
  let word := (orderWord x).toNat
  if word < Decimal.twoTo 63 then (word : Int) else (Decimal.twoTo 63 : Int) - 1 - (word : Int)

instance : Scalar Float where
  zero := 0.0
  one := 1.0
  natCast n := Float.ofNat n
  decLt := inferInstance
  decLe := inferInstance
  sqrt := Float.sqrt
  hypot := floatHypot
  isFinite := Float.isFinite
  undefined := 0.0 / 0.0
  totalLe x y := totalOrderKey x ≤ totalOrderKey y
  text := Decimal.shortest

end OrbitalSpectra
