import OrbitalSpectra.Proofs.Average.Reads
import OrbitalSpectra.Proofs.Koopmans.SectorIsolation

set_option autoImplicit false

namespace OrbitalSpectra

open AnalysisError

variable {σ R : Type}

open Sampling

variable [Scalar R]

theorem errors_of_samples_reads (drawn : List (SectorSample R)) (samples : Nat) :
    (errorsOfSamples drawn samples).reads = [] := by
  have deviations (ionization attachment : List (List R)) :
      (do return ⟨← sampleDeviation ionization, ← sampleDeviation attachment⟩ : Run (EnergyErrors R)).reads = [] := by
    exact Run.bind_quiet rfl fun _ => Run.bind_quiet rfl fun _ => rfl
  dsimp only [errorsOfSamples]
  split
  · refine Run.bind_quiet rfl fun _ => ?_
    split
    · rfl
    · exact deviations _ _
  · split
    · rfl
    · exact deviations _ _

theorem errors_or_none_reads (drawn : List (SectorSample R)) (samples : Nat) :
    (errorsOrNone drawn samples).reads = [] := by
  refine Run.try_quiet (Run.bind_quiet (errors_of_samples_reads drawn samples) fun _ => rfl) fun e => ?_
  split <;> rfl

variable [NormalStream σ R]

theorem sample_sector_eventless (solver : EigenSolver R) (sector : SectorAverages R)
    (ionizationRank attachmentRank : Nat) (cutoff : R) :
    Eventless (σ := σ) (sampleSector solver sector ionizationRank attachmentRank cutoff) := by
  unfold sampleSector
  refine bind_eventless (draw_eventless _) fun density => bind_eventless (draw_eventless _) fun removal =>
    bind_eventless (draw_eventless _) fun addition => ?_
  refine bind_eventless (except_eventless _) fun ionization => bind_eventless (except_eventless _) fun hole =>
    bind_eventless (except_eventless _) fun attachment => pure_eventless _

theorem sector_samples_eventless (solver : EigenSolver R) (sector : SectorAverages R)
    (ionizationRank attachmentRank samples : Nat) (cutoff : R) :
    Eventless (σ := σ) (sectorSamples solver sector ionizationRank attachmentRank samples cutoff) :=
  collect_eventless (sample_sector_eventless solver sector _ _ cutoff) samples

theorem sector_spectrum_quiet (solver : EigenSolver R) (sector : SectorAverages R) (samples : Nat) (cutoff : R) :
    Quiet (σ := σ) (sectorSpectrum solver sector samples cutoff) := by
  unfold sectorSpectrum errorsOrWarning
  refine bind_quiet (except_quiet _) fun ionization => bind_quiet (except_quiet _) fun attachment => ?_
  refine bind_quiet (bind_quiet (sector_samples_eventless solver sector _ _ samples cutoff).quiet fun drawn => ?_)
    fun errors => pure_quiet _
  exact run_quiet (errors_or_none_reads drawn samples)

theorem sector_spectra_quiet (solver : EigenSolver R) (samples : Nat) (cutoff : R) (sectors : List (SectorAverages R)) :
    Quiet (σ := σ) (sectorSpectra solver samples cutoff sectors) := by
  induction sectors with
  | nil => exact pure_quiet []
  | cons sector rest ih =>
      exact bind_quiet (sector_spectrum_quiet solver sector samples cutoff) fun first =>
        bind_quiet ih fun others => pure_quiet _

theorem sample_occupations_eventless (solver : EigenSolver R) (m : Mat (Cplx R)) (error : Mat R) :
    Eventless (σ := σ) (sampleOccupations solver m error) :=
  bind_eventless (draw_eventless _) fun _ => bind_eventless (except_eventless _) fun _ => pure_eventless _

theorem occupations_of_quiet (solver : EigenSolver R) (p : SpinTensor (Cplx R)) (error : SpinTensor R) (samples : Nat)
    (screenFactor cutoff : R) : Quiet (σ := σ) (occupationsOf solver p error samples screenFactor cutoff) := by
  have bars (screened : Mat (Cplx R)) (error : Mat R) : Quiet (σ := σ) (do
      let regularised ← regularise solver screened cutoff
      let drawn ← Sampling.collect (sampleOccupations solver regularised.matrix error) samples
      let values ← reporting (eigenvalues solver regularised.matrix)
      let errors ← sampleDeviation drawn
      return Occupations.mk values.reverse errors) :=
    bind_quiet (except_quiet _) fun _ =>
      bind_quiet (collect_eventless (sample_occupations_eventless solver _ _) samples).quiet fun _ =>
        bind_quiet (except_quiet _) fun _ => bind_quiet (except_quiet _) fun _ => pure_quiet _
  dsimp only [occupationsOf]
  split
  · exact fun _ => rfl
  · exact bind_quiet (except_quiet _) fun _ => bind_quiet (except_quiet _) fun _ =>
      bind_quiet (run_quiet rfl) fun _ => bars _ _

-- The checks before an analysis reads a series.
def Params.checks (p : Params R) (m : Metadata) : List (Except Failure Unit) :=
  [reporting p.validate, m.walkerCheck, m.basisCheck, m.projectionCheck "one_rdm"]

theorem validate_fault {p : Params R} {e : AnalysisError} (failed : p.validate = .error e) :
    ∃ fault, e = invalidParameter fault := by
  dsimp only [Params.validate] at failed
  split_ifs at failed <;> cases failed <;> exact ⟨_, rfl⟩

theorem validate_stride {p : Params R} (valid : p.validate = .ok ()) : p.stride ≠ 0 := by
  intro zero
  rw [Params.validate, if_pos zero] at valid
  cases valid

theorem checks_first_error (p : Params R) (m : Metadata) :
    firstError (reporting p.validate :: tensorChecks m "one_rdm" p.selection) = firstError (p.checks m) := by
  cases valid : p.validate with
  | error e => simp [Params.checks, firstError, valid]
  | ok _ =>
      have strided : p.selection.strideCheck = .ok () := (require_ok _ _).mpr (validate_stride valid)
      cases walker : m.walkerCheck <;> cases basis : m.basisCheck <;>
        simp [Params.checks, tensorChecks, firstError, valid, walker, basis, strided]

-- The number of pairs is refused in no optimised build, and in no build where it fits.
theorem pair_size_passes [Build] (m : Metadata)
    (fits : Build.overflow = .wraps ∨ m.orbitals * (2 * m.orbitals - 1) < UInt64.size) : m.pairSizeCheck = .ok () := by
  refine if_neg ?_
  rintro ⟨ends, large⟩
  rcases fits with wraps | small
  · cases wraps.symm.trans ends
  · omega

section Analyses

variable [Build] (solver : EigenSolver R) (m : Metadata)
  (series : String → Estimator → Option Nat → Except AnalysisError (List (Block R))) (p : Params R) (entropy : σ)

theorem koopmans_spectra_reads : ReadsInOrder (firstError (p.checks m)) (Delivers m series p.selection) p.selection
    ["one_rdm", "gen_fock_plus", "gen_fock_minus"] (koopmansSpectra solver ⟨.ok m, series⟩ p entropy) := by
  have reads (observable : TensorObservable) :=
    observable.average_reads m series p.selection (Delivers m series p.selection)
  have delivers (observable : TensorObservable) := observable.average_delivers m series p.selection
  rw [← checks_first_error]
  refine ReadsInOrder.check_first (by cases reporting p.validate <;> rfl) fun _ _ => ?_
  refine ReadsInOrder.read_first (reads .density) (delivers .density) fun density returned => ?_
  have able (observable : TensorObservable) : firstError (tensorChecks m observable.name p.selection) = none :=
    (tensor_checks_none m _ _).mpr ((tensor_checks_none m _ _).mp ((reads .density).unrefused returned))
  refine ReadsInOrder.read_first (able (.fock .plus) ▸ reads (.fock .plus)) (fun _ => delivers (.fock .plus) (able _))
    fun addition _ => ?_
  refine (able (.fock .minus) ▸ reads (.fock .minus)).then_quiet fun removal => ?_
  refine Run.bind_quiet rfl fun density => Run.bind_quiet rfl fun removal => Run.bind_quiet rfl fun addition =>
    Run.bind_quiet rfl fun sectors => Run.bind_quiet (sector_spectra_quiet solver _ _ sectors _) fun drawn => ?_
  rcases drawn with ⟨_ | ⟨alpha, _ | ⟨beta, rest⟩⟩, final⟩ <;> rfl

theorem natural_occupations_reads : ReadsInOrder (firstError (p.checks m)) (Delivers m series p.selection) p.selection
    ["one_rdm"] (naturalOccupations solver ⟨.ok m, series⟩ p entropy) := by
  rw [← checks_first_error]
  refine ReadsInOrder.check_first (by cases reporting p.validate <;> rfl) fun _ _ => ?_
  refine (TensorObservable.density.average_reads m series p.selection _).then_quiet fun density => ?_
  exact Run.bind_quiet (occupations_of_quiet solver _ _ _ _ _ _) fun drawn => Run.bind_quiet rfl fun _ => rfl

end Analyses

local instance : Scalar ℚ := rationalScalar

local instance : NormalStream Nat ℚ := alternatingStream

-- One density block of one orbital, and no Fock matrices.
def densityOnly (name : String) (estimator : Estimator) (_ : Option Nat) :
    Except AnalysisError (List (Block ℚ)) :=
  if name = "one_rdm" then .ok [#[1, 1]] else .error (missingObservable name estimator)

end OrbitalSpectra
