import OrbitalSpectra.Mat
import OrbitalSpectra.Scalar.Float

set_option autoImplicit false

namespace OrbitalSpectra.Eigen

abbrev Vec := Array (Cplx Float)

-- The modulus and the phase, which is one for zero.
def polar (z : Cplx Float) : Float × Cplx Float :=
  let r := z.abs
  if r == 0.0 then (0.0, 1) else (r, z.unscale r)

-- The sum of `f 0, …, f (n - 1)` as rounding sees it: eight lanes share the whole groups of eight
-- terms and are added in pairs, then the terms that are left follow one by one.
@[specialize] def laneSum {α : Type} [Zero α] [Add α] (f : Nat → α) (n : Nat) : α :=
  let groups := n / 8
  let lane (k : Nat) : α := sumTo (fun g => f (8 * g + k)) groups
  let whole := sumTo (fun k => lane k + lane (k + 4)) 4
  (List.range (n % 8)).foldl (fun sum k => sum + f (8 * groups + k)) whole

def inner (a b : Vec) : Cplx Float := laneSum (fun k => (a.getD k 0).conj * b.getD k 0) a.size

def normSq (a : Vec) : Float := laneSum (fun k => (a.getD k 0).normSq) a.size

def addMultiple (factor x y : Cplx Float) : Cplx Float := factor * x * 1 + 1 * y

-- A reflection that turns a column into a multiple of its first unit vector, the edge.
structure Reflection where
  axis : Vec
  edge : Cplx Float
  -- the column has no length, and nothing is reflected
  idle : Bool

def Reflection.ofColumn (column : Vec) : Reflection :=
  let sq := normSq column
  let norm := Float.sqrt sq
  let (modulus, phase) := polar (column.getD 0 0)
  let signed := phase.scale norm
  let factor := (sq + modulus * norm) * 2.0
  let moved := column.setIfInBounds 0 (column.getD 0 0 + signed)
  if factor == 0.0 then ⟨moved, signed, true⟩
  else
    let unit := moved.map fun z => z.unscale (Float.sqrt factor)
    ⟨unit.map fun z => z.unscale (Float.sqrt (normSq unit)), -signed, false⟩

def Reflection.apply (r : Reflection) (v : Vec) : Vec :=
  let phase := (polar r.edge).2
  let factor := inner r.axis v * phase.scale (-2.0)
  Array.zipWith (fun a x => factor * a * 1 + phase * x) r.axis v

-- Complex factors of one and two stay products: through them an infinite or undefined part reaches the other.
def two : Cplx Float := Cplx.ofReal 2.0

-- Twice the product of a Hermitian matrix, given by its lower triangle, with a vector. In each row
-- the entries before the diagonal and those from it on are added up apart; the first entry of the
-- first row counts as one before it.
def twiceProduct (n : Nat) (m : Mat (Cplx Float)) (v : Vec) : Vec :=
  Array.ofFn fun i : Fin n =>
    let before := max i.val 1
    let left (k : Nat) := two * v.getD k 0 * m.entry i.val k * 1
    let right (k : Nat) := (m.entry k i.val).conj * v.getD k 0
    unitSum left before + two * laneSum (fun k => right (before + k)) (n - before)

-- The Hermitian matrix of order `n` reflected from both sides. The lower triangle of the result is
-- what counts.
def Reflection.conjugate (r : Reflection) (n : Nat) (m : Mat (Cplx Float)) : Mat (Cplx Float) :=
  if r.idle then m
  else
    let p := twiceProduct n m r.axis
    let twice := inner r.axis p * two
    Mat.ofFn n n fun i j =>
      let a := r.axis.getD i 0
      let b := (r.axis.getD j 0).conj
      let once := addMultiple (-1 * b) (p.getD i 0) (m.entry i j)
      addMultiple (twice * b) a (addMultiple (-1 * (p.getD j 0).conj) a once)

structure Tridiagonal where
  diagonal : List Float
  reflections : List Reflection

-- Reduces a Hermitian matrix of order `n`, given by its lower triangle, column by column.
def Tridiagonal.ofHermitian : Nat → Mat (Cplx Float) → Tridiagonal
  | 0, _ => ⟨[], []⟩
  | 1, m => ⟨[(m.entry 0 0).re], []⟩
  | n + 2, m =>
    let r := Reflection.ofColumn (Array.ofFn fun i : Fin (n + 1) => m.entry (i.val + 1) 0)
    let minor := Mat.ofFn (n + 1) (n + 1) fun i j => m.entry (i + 1) (j + 1)
    let rest := ofHermitian (n + 1) (r.conjugate (n + 1) minor)
    ⟨(m.entry 0 0).re :: rest.diagonal, r :: rest.reflections⟩

def Tridiagonal.edges (t : Tridiagonal) : List Float := t.reflections.map fun r => r.edge.abs

def unitaryColumns : List Reflection → List Vec
  | [] => [#[1]]
  | r :: rest =>
    let first : Vec := #[1] ++ r.apply (Array.replicate (rest.length + 1) 0)
    first :: (unitaryColumns rest).map fun v => #[0] ++ r.apply v

end OrbitalSpectra.Eigen
