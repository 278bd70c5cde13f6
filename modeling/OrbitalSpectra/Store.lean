import OrbitalSpectra.Source

set_option autoImplicit false

namespace OrbitalSpectra

-- The series of one observable and estimator: path index and blocks, by increasing index.
abbrev Paths (R : Type) := List (Nat × List (Block R))

namespace Paths

variable {R : Type}

-- Puts the blocks at their index, in place of what was there.
def insert (index : Nat) (blocks : List (Block R)) : Paths R → Paths R
  | [] => [(index, blocks)]
  | (i, held) :: rest =>
    if index < i then (index, blocks) :: (i, held) :: rest
    else if index = i then (index, blocks) :: rest
    else (i, held) :: insert index blocks rest

def longest (paths : Paths R) : Option (List (Block R)) := paths.getLast?.map Prod.snd

def get? (paths : Paths R) (index : Nat) : Option (List (Block R)) :=
  (paths.find? fun path => path.1 = index).map Prod.snd

end Paths

structure SeriesKey where
  name : String
  estimator : Estimator
  deriving DecidableEq, Repr

structure Store (R : Type) where
  metadata : Metadata
  series : List (SeriesKey × Paths R)

namespace Store

variable {R : Type}

def empty (metadata : Metadata) : Store R := ⟨metadata, []⟩

-- The paths kept under a key, none when the key was never used.
def paths (s : Store R) (key : SeriesKey) : Paths R := (s.series.lookup key).getD []

def replacing (key : SeriesKey) (paths : Paths R) :
    List (SeriesKey × Paths R) → List (SeriesKey × Paths R)
  | [] => [(key, paths)]
  | (k, held) :: rest => if k = key then (key, paths) :: rest else (k, held) :: replacing key paths rest

def insert (s : Store R) (name : String) (estimator : Estimator) (index : Nat)
    (blocks : List (Block R)) : Store R :=
  let key : SeriesKey := ⟨name, estimator⟩
  { s with series := replacing key ((s.paths key).insert index blocks) s.series }

def insertReal [Scalar R] (s : Store R) (name : String) (estimator : Estimator) (index : Nat)
    (blocks : List (Array R)) : Store R :=
  s.insert name estimator index (blocks.map fun block => block.map Cplx.ofReal)

def series? (s : Store R) (name : String) (estimator : Estimator) (path : Option Nat) :
    Option (List (Block R)) :=
  let paths := s.paths ⟨name, estimator⟩
  match path with
  | some index => paths.get? index
  | none => paths.longest

def source (s : Store R) : Source R where
  metadata := .ok s.metadata
  series name estimator path :=
    match s.series? name estimator path with
    | some blocks => .ok blocks
    | none => .error (.missingObservable name estimator)

end Store

end OrbitalSpectra
