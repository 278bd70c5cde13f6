import OrbitalSpectra.Eigen
import OrbitalSpectra.Eigen.Tridiagonal

set_option autoImplicit false

namespace OrbitalSpectra.Eigen

-- A tridiagonal matrix in the course of being diagonalised, with the basis it stands in.
structure Sweeping where
  diagonal : Array Float
  edges : Array Float
  vectors : Array Vec

structure Rotation where
  c : Float
  s : Cplx Float

def Rotation.inverse (r : Rotation) : Rotation := ⟨r.c, -r.s⟩

def precision : Float := Float.scaleB 1.0 (-52)

@[inline] def Sweeping.diag (p : Sweeping) (i : Nat) : Float := p.diagonal.getD i 0.0

@[inline] def Sweeping.edge (p : Sweeping) (i : Nat) : Float := p.edges.getD i 0.0

def Sweeping.threshold (p : Sweeping) (i : Nat) : Float :=
  precision * ((p.diag (i + 1)).abs + (p.diag i).abs)

-- Whether the edge below place `i` is lost in the rounding of its neighbours.
def Sweeping.negligible (p : Sweeping) (i : Nat) : Bool := (p.edge i).abs ≤ p.threshold i

-- Whether the edge below place `i` stands out from its neighbours. With an undefined number it is
-- neither that nor negligible.
def Sweeping.coupled (p : Sweeping) (i : Nat) : Bool := p.threshold i < (p.edge i).abs

def Sweeping.rotate (p : Sweeping) (i : Nat) (r : Rotation) : Sweeping :=
  let a := p.vectors.getD i #[]
  let b := p.vectors.getD (i + 1) #[]
  let left := Array.zipWith (fun x y => x.scale r.c + r.s * y) a b
  let right := Array.zipWith (fun x y => (-r.s).conj * x + y.scale r.c) a b
  { p with vectors := (p.vectors.setIfInBounds i left).setIfInBounds (i + 1) right }

-- The eigenvalue of the last block of order two that is nearer to its last entry.
def wilkinsonShift (a b edge : Float) : Float :=
  let sq := edge * edge
  if sq == 0.0 then b
  else
    let d := (a - b) * 0.5
    let root := Float.sqrt (d * d + sq)
    b - sq / (d + (if d.toBits < 0x8000000000000000 then 1.0 else -1.0) * root)

def magnitudeAndSign (x : Float) : Float × Float := if 0.0 ≤ x then (x, 1.0) else (-x, -1.0)

def Sweeping.chase : Nat → Nat → Bool → Float → Float → Sweeping → Sweeping
  | 0, _, _, _, _, p => p
  | count + 1, i, first, x, y, p =>
    if y == 0.0 then p
    else
      let (size, sign) := magnitudeAndSign x
      let length := Float.sqrt (size * size + y * y)
      let c := size / length
      let s := -y / (sign * length)
      let edges := if first then p.edges else p.edges.setIfInBounds (i - 1) (sign * length)
      let a := p.diag i
      let b := p.diag (i + 1)
      let e := p.edge i
      let cross := c * s * 2.0 * e
      let diagonal := p.diagonal.setIfInBounds i ((c * c * a + s * s * b) - cross)
      let diagonal := diagonal.setIfInBounds (i + 1) ((s * s * a + c * c * b) + cross)
      let here := c * s * (a - b) + e * (c * c - s * s)
      let edges := edges.setIfInBounds i here
      let next := p.edge (i + 1)
      let edges := if count = 0 then edges else edges.setIfInBounds (i + 1) (next * c)
      let turned := Sweeping.rotate { p with diagonal, edges } i (Rotation.mk c (Cplx.ofReal s)).inverse
      turned.chase count (i + 1) false here (-s * next)

def Sweeping.sweep (p : Sweeping) (low high : Nat) : Sweeping :=
  let shift := wilkinsonShift (p.diag (high - 1)) (p.diag high) (p.edge (high - 1))
  p.chase (high - low) low true (p.diag low - shift) (p.edge low)

def Sweeping.solvePair (p : Sweeping) (low : Nat) : Sweeping :=
  let a := p.diag low
  let b := p.diag (low + 1)
  let e := p.edge low
  let half := (a - b) * 0.5
  let root := Float.sqrt (e * e + half * half)
  let middle := (a + b) * 0.5
  let upper := middle + root
  let diagonal := (p.diagonal.setIfInBounds low upper).setIfInBounds (low + 1) (middle - root)
  let solved := { p with diagonal }
  let (size, sign) := magnitudeAndSign (upper - b)
  let length := Float.sqrt (size * size + e * e)
  if precision < length then solved.rotate low ⟨size / length, Cplx.ofReal (e / (sign * length))⟩ else solved

-- The highest place at or below `high` coupled to the place below it, zero if none is.
def Sweeping.lastCoupled (p : Sweeping) : Nat → Nat
  | 0 => 0
  | high + 1 => if p.coupled high then high + 1 else p.lastCoupled high

-- The lowest place that no negligible edge parts from `low`, with the edge below it cleared.
def Sweeping.firstCoupled : Nat → Sweeping → Nat × Sweeping
  | 0, p => (0, p)
  | low + 1, p =>
    if p.edge low == 0.0 || p.negligible low then (low + 1, { p with edges := p.edges.setIfInBounds low 0.0 })
    else firstCoupled low p

-- Works on the last coupled block until none is left.
def Sweeping.finish : Nat → Nat → Sweeping → Sweeping
  | 0, _, p => p
  | fuel + 1, high, p =>
    match p.lastCoupled high with
    | 0 => p
    | high + 1 =>
      let (low, p) := Sweeping.firstCoupled high p
      if low = high then finish fuel high (p.solvePair low)
      else
        let p := p.sweep low (high + 1)
        finish fuel (if p.negligible high then high else high + 1) p

-- Sweeps that are tried; two or three for each eigenvalue are usual.
def sweepLimit : Nat := 1000000

-- The greatest sum of the absolute parts of an entry, sought column by column. Nothing before an
-- undefined entry counts.
def largest (m : Mat (Cplx Float)) : Float :=
  m.transpose.toList.foldl
    (fun a z => let b := z.re.abs + z.im.abs; if b ≤ a then a else b) 0.0

-- Eigensystem of the Hermitian matrix given by the lower triangle of `m`. An entry that is not
-- finite spreads as far as the arithmetic carries it.
def solve (m : Mat (Cplx Float)) : Eigensystem Float :=
  let n := m.rows
  let size := largest m
  let t := Tridiagonal.ofHermitian n (if size == 0.0 then m else m.map fun z => z.unscale size)
  let start : Sweeping :=
    ⟨t.diagonal.toArray, t.edges.toArray, (unitaryColumns t.reflections).toArray⟩
  let done := start.finish sweepLimit (n - 1)
  { values := done.diagonal.toList.map (· * size)
    vectors := Mat.ofFn n n fun r c => (done.vectors.getD c #[]).getD r 0 }

end OrbitalSpectra.Eigen
