import OrbitalSpectra.Average.Blocks
import OrbitalSpectra.Random.Stream

set_option autoImplicit false

namespace OrbitalSpectra

open AnalysisError

structure Params (R : Type) where
  estimator : Estimator
  equilibration : Nat
  stride : Nat
  path : Option Nat
  samples : Nat
  -- entries smaller than this many errors are screened
  screenFactor : R
  -- eigenvalues up to this are dropped
  cutoff : R
  seed : Option UInt64

namespace Params

variable {R : Type} [Scalar R]

def default : Params R where
  estimator := .backPropagated
  equilibration := 1
  stride := 1
  path := none
  samples := 20
  screenFactor := 1.0
  cutoff := 1e-14
  seed := none

def validate (p : Params R) : Except AnalysisError Unit := do
  if p.stride = 0 then throw (invalidParameter .zeroStride)
  if p.samples < 2 then throw (invalidParameter (.tooFewSamples p.samples))
  if ¬ (Scalar.isFinite p.screenFactor ∧ 0 ≤ p.screenFactor) then
    throw (invalidParameter (.screenFactor (Scalar.text p.screenFactor)))
  if ¬ Scalar.isFinite p.cutoff then
    throw (invalidParameter (.cutoff (Scalar.text p.cutoff)))

def selection (p : Params R) : Selection :=
  ⟨p.estimator, p.equilibration, p.stride, p.path⟩

-- The stream that the seed fixes, or `entropy` without a seed.
def stream {σ : Type} [NormalStream σ R] (p : Params R) (entropy : σ) : σ :=
  match p.seed with
  | some seed => NormalStream.ofSeed R seed
  | none => entropy

end Params

end OrbitalSpectra
