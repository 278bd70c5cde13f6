set_option autoImplicit false

namespace OrbitalSpectra

class Scalar (R : Type) extends
    Zero R, One R, Add R, Sub R, Mul R, Div R, Neg R, NatCast R, OfScientific R, LT R, LE R where
  decLt : DecidableLT R
  decLe : DecidableLE R
  sqrt : R → R
  hypot : R → R → R
  isFinite : R → Bool
  -- the result of an operation that has none
  undefined : R
  -- a total order on all values, also on those that no comparison relates
  totalLe : R → R → Bool
  text : R → String

instance (priority := low) scalarDecidableLT {R : Type} [Scalar R] : DecidableLT R := Scalar.decLt

instance (priority := low) scalarDecidableLE {R : Type} [Scalar R] : DecidableLE R := Scalar.decLe

variable {α : Type}

-- `f 0 + f 1 + … + f (n - 1)`, added from the left onto zero.
def sumTo [Zero α] [Add α] (f : Nat → α) : Nat → α
  | 0 => 0
  | n + 1 => sumTo f n + f n

-- `f 0 + f 1 + … + f (n - 1)`, each term added to one times the sum before it. Where a product with
-- one changes a number, as with an infinite part of a complex one, the sum shows it.
def unitSum [Zero α] [One α] [Add α] [Mul α] (f : Nat → α) : Nat → α
  | 0 => 0
  | 1 => f 0
  | n + 2 => f (n + 1) + 1 * unitSum f (n + 1)

def total [Zero α] [Add α] (xs : List α) : α := xs.foldl (· + ·) 0

end OrbitalSpectra
