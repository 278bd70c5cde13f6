import OrbitalSpectra.Capacity
import OrbitalSpectra.Hermitian
import OrbitalSpectra.Run
import OrbitalSpectra.Random.Stream

set_option autoImplicit false

namespace OrbitalSpectra

variable {σ R : Type} [Scalar R] [NormalStream σ R]

-- Draws one entry. A deviation that is not finite is refused before anything is drawn.
def drawEntry (m : Mat (Cplx R)) (error : Mat R) (i j : Nat) (state : σ) : Except AnalysisError R × σ :=
  let deviation := error.entry i j
  if Scalar.isFinite deviation then
    let (z, state) := NormalStream.next state
    (.ok ((m.entry i j).re + deviation * z), state)
  else (.error (.perturbation i j), state)

-- Draws the entries at the given places, in order, up to the first that is refused.
def drawEntries (m : Mat (Cplx R)) (error : Mat R) :
    List (Nat × Nat) → σ → Except AnalysisError (List R) × σ
  | [], state => (.ok [], state)
  | (i, j) :: rest, state =>
    match drawEntry m error i j state with
    | (.error e, state) => (.error e, state)
    | (.ok x, state) =>
      match drawEntries m error rest state with
      | (.error e, state) => (.error e, state)
      | (.ok xs, state) => (.ok (x :: xs), state)

-- Places of a square matrix, column by column.
def columnPlaces (n : Nat) : List (Nat × Nat) :=
  (List.range (n * n)).map fun k => (k % n, k / n)

-- The Hermitian part of a real matrix drawn around the real part of `m`. Draws made before a
-- refused entry are spent.
def sampleMatrix (m : Mat (Cplx R)) (error : Mat R) (state : σ) : Except Failure (Mat (Cplx R)) × σ :=
  let n := m.rows
  if m.cols ≠ n ∨ error.shape ≠ m.shape then
    (.error (.reported (.shapeMismatch "perturbed matrix" (n * n) error.size)), state)
  else
    match drawEntries m error (columnPlaces n) state with
    | (.error e, state) => (.error (.reported e), state)
    | (.ok xs, state) =>
      let drawn := xs.toArray
      (hermitianPart (Mat.ofFn n n fun i j => Cplx.ofReal (drawn.getD (j * n + i) 0)), state)

abbrev Sampling (σ : Type) := StateT σ Run

def Sampling.ofDraw {α : Type} (draw : σ → Except Failure α × σ) : Sampling σ α := fun state =>
  let (outcome, state) := draw state
  Run.ofExcept (outcome.map fun a => (a, state))

def Sampling.replicate {α : Type} (step : Sampling σ α) : Nat → Sampling σ (List α)
  | 0 => pure []
  | n + 1 => do
    let first ← step
    let rest ← Sampling.replicate step n
    return first :: rest

-- The results of `n` runs, all kept. Too many of them are refused before the first run.
def Sampling.collect {α : Type} (step : Sampling σ α) (n : Nat) : Sampling σ (List α) := do
  requireRoom n vectorSize
  Sampling.replicate step n

end OrbitalSpectra
