import OrbitalSpectra.Random.ChaCha
import OrbitalSpectra.Random.Stream

set_option autoImplicit false

namespace OrbitalSpectra

namespace Ziggurat

-- The ziggurat has 256 layers of equal area, the lowest with the tail.
def tail : Float := 3.6541528853610088

def area : Float := 0.00492867323399

def density (x : Float) : Float := Float.exp (-(x * x) / 2.0)

def layers : Nat := 256

-- The edges after `last`, each the root of the equal-area condition on its layer.
def edgesAfter : Nat → Float → List Float
  | 0, _ => [0.0]
  | n + 1, last =>
    let edge := Float.sqrt (-2.0 * Float.log (area / last + density last))
    edge :: edgesAfter n edge

def edges : Array Float := (area / density tail :: tail :: edgesAfter (layers - 2) tail).toArray

def heights : Array Float := edges.map density

@[inline] def edge (i : Nat) : Float := edges.getD i 0.0

@[inline] def height (i : Nat) : Float := heights.getD i 0.0

def symmetric (bits : UInt64) : Float := (2.0 + (bits >>> 12).toFloat * Float.scaleB 1.0 (-51)) - 3.0

def unit (bits : UInt64) : Float := (bits >>> 11).toFloat * Float.scaleB 1.0 (-53)

def openUnit (bits : UInt64) : Float :=
  (1.0 + (bits >>> 12).toFloat * Float.scaleB 1.0 (-52)) - (1.0 - Float.scaleB 1.0 (-53))

-- Distance beyond the tail edge, by rejection from an exponential.
def tailDistance : Nat → Keystream → Float × Keystream
  | 0, s => (0.0, s)
  | fuel + 1, s =>
    let (a, s) := s.next64
    let (b, s) := s.next64
    let x := Float.log (openUnit a) / tail
    let y := Float.log (openUnit b)
    if -2.0 * y < x * x then tailDistance fuel s else (x, s)

-- Draws that are tried before the method gives up; it accepts all but one in a hundred.
def attempts : Nat := UInt32.size

def draw : Nat → Keystream → Float × Keystream
  | 0, s => (0.0, s)
  | fuel + 1, s =>
    let (bits, s) := s.next64
    let layer := (bits &&& 0xff).toNat
    let u := symmetric bits
    let x := u * edge layer
    if x.abs < edge (layer + 1) then (x, s)
    else if layer = 0 then
      let (d, s) := tailDistance attempts s
      (if u < 0.0 then d - tail else tail - d, s)
    else
      let (bits, s) := s.next64
      let y := height (layer + 1) + (height layer - height (layer + 1)) * unit bits
      if y < Float.exp (-x * x / 2.0) then (x, s) else draw fuel s

end Ziggurat

instance : NormalStream Keystream Float where
  ofSeed := Keystream.ofSeed
  next := Ziggurat.draw Ziggurat.attempts

end OrbitalSpectra
