import OrbitalSpectra.NaturalOrbitals

set_option autoImplicit false

namespace OrbitalSpectra

open AnalysisError

variable {σ R : Type} [Scalar R]

def requireSameShape (gamma fock : Mat (Cplx R)) : Except AnalysisError Unit :=
  if fock.shape = gamma.shape then .ok ()
  else .error (shapeMismatch "generalised Fock matrix" gamma.size fock.size)

def projectedEigenvalues (solver : EigenSolver R) (x fock : Mat (Cplx R)) :
    Except Failure (List R) := do
  let left ← orFault (x.adjoint.mul? fock)
  let projected ← orFault (left.mul? x)
  eigenvalues solver projected

-- Energies on the eigenvectors of the density above the cutoff, ascending.
def projectedEnergies (solver : EigenSolver R) (gamma fock : Mat (Cplx R)) (cutoff : R) :
    Except Failure (List R) := do
  requireSameShape gamma fock
  let regularised ← regularise solver gamma cutoff
  projectedEigenvalues solver regularised.transform fock

-- Energies on the `rank` largest eigenvectors, none when one of them is not above the cutoff.
def projectedEnergiesWithRank (solver : EigenSolver R) (gamma fock : Mat (Cplx R)) (rank : Nat)
    (cutoff : R) : Except Failure (Option (List R)) := do
  requireSameShape gamma fock
  match ← reporting (whitenWithRank solver gamma rank cutoff) with
  | some x => some <$> projectedEigenvalues solver x fock
  | none => return none

def holeDensity (p : Mat (Cplx R)) : Except Failure (Mat (Cplx R)) :=
  orFault ((Mat.identity p.rows).sub? p.transpose)

def ionizationEnergies (solver : EigenSolver R) (p fock : Mat (Cplx R)) (cutoff : R) :
    Except Failure (List R) :=
  projectedEnergies solver p fock cutoff

def attachmentEnergies (solver : EigenSolver R) (p fock : Mat (Cplx R)) (cutoff : R) :
    Except Failure (List R) := do
  let hole ← holeDensity p
  projectedEnergies solver hole fock cutoff

structure SectorAverages (R : Type) where
  density : Mat (Cplx R)
  densityError : Mat R
  removal : Mat (Cplx R)
  removalError : Mat R
  addition : Mat (Cplx R)
  additionError : Mat R

structure EnergyErrors (R : Type) where
  ionization : List R
  attachment : List R

-- Energies of one perturbed sector, each side none when its rank collapsed.
structure SectorSample (R : Type) where
  ionization : Option (List R)
  attachment : Option (List R)

variable [NormalStream σ R]

-- Perturbs the three matrices one after the other and solves both problems.
def sampleSector (solver : EigenSolver R) (sector : SectorAverages R) (ionizationRank attachmentRank : Nat)
    (cutoff : R) : Sampling σ (SectorSample R) := do
  let density ← Sampling.ofDraw (sampleMatrix sector.density sector.densityError)
  let removal ← Sampling.ofDraw (sampleMatrix sector.removal sector.removalError)
  let addition ← Sampling.ofDraw (sampleMatrix sector.addition sector.additionError)
  let ionization ← projectedEnergiesWithRank solver density removal ionizationRank cutoff
  let hole ← holeDensity density
  let attachment ← projectedEnergiesWithRank solver hole addition attachmentRank cutoff
  return ⟨ionization, attachment⟩

-- Standard deviations of the energies over the samples that kept their rank, which must be two at
-- least on both sides.
def errorsOfSamples (drawn : List (SectorSample R)) (samples : Nat) : Run (EnergyErrors R) := do
  let ionization := drawn.filterMap SectorSample.ionization
  let attachment := drawn.filterMap SectorSample.attachment
  if ionization.length < samples ∨ attachment.length < samples then
    Run.note (.discardedSamples (samples - ionization.length) (samples - attachment.length))
  let accepted := min ionization.length attachment.length
  if accepted < 2 then
    throw (.reported (bootstrapUnstable accepted samples))
  return ⟨← sampleDeviation ionization, ← sampleDeviation attachment⟩

def sectorSamples (solver : EigenSolver R) (sector : SectorAverages R)
    (ionizationRank attachmentRank samples : Nat) (cutoff : R) : Sampling σ (List (SectorSample R)) :=
  Sampling.collect (sampleSector solver sector ionizationRank attachmentRank cutoff) samples

def estimateErrors (solver : EigenSolver R) (sector : SectorAverages R)
    (ionizationRank attachmentRank samples : Nat) (cutoff : R) : Sampling σ (EnergyErrors R) := do
  let drawn ← sectorSamples solver sector ionizationRank attachmentRank samples cutoff
  errorsOfSamples drawn samples

-- Ascending energies of one sector. Without error bars the bootstrap was unstable.
structure Spectrum (R : Type) where
  ionization : List R
  attachment : List R
  errors : Option (EnergyErrors R)

namespace Spectrum

-- Error bars of the ionisation energies, undefined ones where there are none.
def ionizationErrors (s : Spectrum R) : List R :=
  match s.errors with
  | some errors => errors.ionization
  | none => s.ionization.map fun _ => Scalar.undefined

def attachmentErrors (s : Spectrum R) : List R :=
  match s.errors with
  | some errors => errors.attachment
  | none => s.attachment.map fun _ => Scalar.undefined

end Spectrum

-- Error bars of the drawn samples, or none with a warning when too few of them kept their rank.
def errorsOrNone (drawn : List (SectorSample R)) (samples : Nat) : Run (Option (EnergyErrors R)) :=
  tryCatch (some <$> errorsOfSamples drawn samples) fun
    | .reported (.bootstrapUnstable accepted requested) => do
      Run.note (.errorBarsUnavailable (.bootstrapUnstable accepted requested))
      pure none
    | failure => throw failure

-- Error bars, or none with a warning. The stream goes on after the last draw in both cases.
def errorsOrWarning (solver : EigenSolver R) (sector : SectorAverages R)
    (ionizationRank attachmentRank samples : Nat) (cutoff : R) :
    Sampling σ (Option (EnergyErrors R)) := do
  let drawn ← sectorSamples solver sector ionizationRank attachmentRank samples cutoff
  errorsOrNone drawn samples

def sectorSpectrum (solver : EigenSolver R) (sector : SectorAverages R) (samples : Nat) (cutoff : R) :
    Sampling σ (Spectrum R) := do
  let ionization ← ionizationEnergies solver sector.density sector.removal cutoff
  let attachment ← attachmentEnergies solver sector.density sector.addition cutoff
  let errors ← errorsOrWarning solver sector ionization.length attachment.length samples cutoff
  return ⟨ionization, attachment, errors⟩

inductive KoopmansSpectra (R : Type)
  | single (s : Spectrum R)
  | collinear (alpha beta : Spectrum R)

def KoopmansSpectra.toList : KoopmansSpectra R → List (Spectrum R)
  | single s => [s]
  | collinear alpha beta => [alpha, beta]

-- The averages of all sectors in order, the density made Hermitian.
def sectorAverages (density removal addition : TensorAverage R) :
    Except Failure (List (SectorAverages R)) :=
  (List.range density.mean.count).mapM fun s => do
    let p ← hermitianPart (← orFault density.mean.sectors[s]?)
    return {
      density := p
      densityError := ← orFault density.error.sectors[s]?
      removal := ← orFault removal.mean.sectors[s]?
      removalError := ← orFault removal.error.sectors[s]?
      addition := ← orFault addition.mean.sectors[s]?
      additionError := ← orFault addition.error.sectors[s]? }

def TensorAverage.screened (t : TensorAverage R) (factor : R) :
    Except AnalysisError (TensorAverage R) :=
  let (mean, count) := screenTensor t.mean t.error factor
  count.map fun _ => { t with mean }

def sectorSpectra (solver : EigenSolver R) (samples : Nat) (cutoff : R) :
    List (SectorAverages R) → Sampling σ (List (Spectrum R))
  | [] => return []
  | sector :: rest => do
    let first ← sectorSpectrum solver sector samples cutoff
    let others ← sectorSpectra solver samples cutoff rest
    return first :: others

def koopmansSpectra [Build] (solver : EigenSolver R) (source : Source R) (p : Params R) (entropy : σ) :
    Run (KoopmansSpectra R) := do
  reporting p.validate
  let density ← averageDensity source p.selection
  let addition ← averageFock source .plus p.selection
  let removal ← averageFock source .minus p.selection
  let density ← reporting (density.screened p.screenFactor)
  let removal ← reporting (removal.screened p.screenFactor)
  let addition ← reporting (addition.screened p.screenFactor)
  let sectors ← sectorAverages density removal addition
  let (spectra, _) ← (sectorSpectra solver p.samples p.cutoff sectors).run (p.stream entropy)
  match spectra with
  | [single] => return .single single
  | alpha :: beta :: _ => return .collinear alpha beta
  | [] => throw (.reported (shapeMismatch densitySeries 1 0))

end OrbitalSpectra
