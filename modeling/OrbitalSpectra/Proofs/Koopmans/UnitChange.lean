import OrbitalSpectra.Proofs.Average.Rescaling
import OrbitalSpectra.Proofs.Bootstrap.ScaledDraws
import OrbitalSpectra.Proofs.CentralResults
import OrbitalSpectra.Proofs.Exact.ScaledSpectrum
import OrbitalSpectra.Proofs.Koopmans.SpectrumLaw

set_option autoImplicit false

namespace OrbitalSpectra

open Sampling

def SectorAverages.times (a : ℝ) (sector : SectorAverages Exact) : SectorAverages Exact :=
  { sector with
    removal := sector.removal.map (Cplx.times a)
    removalError := sector.removalError.map (Exact.times a)
    addition := sector.addition.map (Cplx.times a)
    additionError := sector.additionError.map (Exact.times a) }

def SectorSample.times (a : ℝ) (sample : SectorSample Exact) : SectorSample Exact :=
  ⟨sample.ionization.map (List.map (Exact.times a)), sample.attachment.map (List.map (Exact.times a))⟩

def EnergyErrors.times (a : ℝ) (errors : EnergyErrors Exact) : EnergyErrors Exact :=
  ⟨errors.ionization.map (Exact.times a), errors.attachment.map (Exact.times a)⟩

def Spectrum.times (a : ℝ) (s : Spectrum Exact) : Spectrum Exact :=
  ⟨s.ionization.map (Exact.times a), s.attachment.map (Exact.times a), s.errors.map (EnergyErrors.times a)⟩

def KoopmansSpectra.times (a : ℝ) : KoopmansSpectra Exact → KoopmansSpectra Exact
  | single s => .single (s.times a)
  | collinear alpha beta => .collinear (alpha.times a) (beta.times a)

def fockSeries : List String := ["gen_fock_plus", "gen_fock_minus"]

theorem fock_series_listed (sign : FockSign) : sign.observable ∈ fockSeries := by
  cases sign <;> decide

variable {a : ℝ}

section Sectors

theorem sector_averages_times (density removal addition : TensorAverage Exact) :
    sectorAverages density (removal.times a) (addition.times a) =
      (sectorAverages density removal addition).map (List.map (SectorAverages.times a)) := by
  rw [sectorAverages, sectorAverages, ← map_m_map]
  congr 1
  funext s
  simp only [TensorAverage.times, SpinTensor.map_sectors, List.getElem?_map, or_fault_map, except_map_eq, bind_map_left,
    map_bind, map_pure, SectorAverages.times]

variable (positive : 0 < a)

include positive

theorem screen_sectors_times (factor : Exact) (ms : List (Mat (Cplx Exact))) (errors : List (Mat Exact)) :
    screenSectors factor (ms.map (Mat.map (Cplx.times a))) (errors.map (Mat.map (Exact.times a))) =
      ((screenSectors factor ms errors).1.map (Mat.map (Cplx.times a)), (screenSectors factor ms errors).2) := by
  fun_induction screenSectors factor ms errors with
  | case1 m ms error errors failure failed =>
      simp only [List.map_cons, screenSectors, screen_matrix_times positive, failed, Except.map]
  | case2 m ms error errors screened kept ok rest count eq ih =>
      rw [eq] at ih
      simp only [List.map_cons, screenSectors, screen_matrix_times positive, ok, Except.map, ih]
  | case3 ms errors short =>
      cases ms with
      | nil => rfl
      | cons m rest =>
          cases errors with
          | nil => rfl
          | cons error others => exact absurd rfl (short m rest error others rfl)

theorem screen_tensor_times (t : SpinTensor (Cplx Exact)) (error : SpinTensor Exact) (factor : Exact) :
    screenTensor (t.map (Cplx.times a)) (error.map (Exact.times a)) factor =
      ((screenTensor t error factor).1.map (Cplx.times a), (screenTensor t error factor).2) := by
  have sectors := screen_sectors_times positive factor t.sectors error.sectors
  by_cases counts : t.count ≠ error.count
  · have still : (t.map (Cplx.times a)).count ≠ (error.map (Exact.times a)).count := by simpa using counts
    rw [screenTensor, screenTensor, if_pos counts, if_pos still, SpinTensor.map_count, SpinTensor.map_count]
  · have still : ¬ (t.map (Cplx.times a)).count ≠ (error.map (Exact.times a)).count := by simpa using counts
    rw [screenTensor, screenTensor, if_neg counts, if_neg still]
    have means := congrArg Prod.fst sectors
    have kept := congrArg Prod.snd sectors
    exact Prod.ext (SpinTensor.ext_sectors means) kept

theorem screened_times (t : TensorAverage Exact) (factor : Exact) :
    (t.times a).screened factor = (t.screened factor).map (TensorAverage.times a) := by
  simp only [TensorAverage.screened, TensorAverage.times, screen_tensor_times positive]
  cases (screenTensor t.mean t.error factor).2 <;> rfl

theorem prepared_sectors_times [Build] (source : Source Exact) (p : Params Exact) :
    preparedSectors (source.times fockSeries a) p = List.map (SectorAverages.times a) <$> preparedSectors source p := by
  have density : densitySeries ∉ fockSeries := by decide
  simp only [preparedSectors, average_density_unchanged _ density,
    average_fock_times _ positive _ (fock_series_listed _), bind_map_left, map_bind, screened_times positive,
    reporting_map, Run.lift_map, sector_averages_times]

end Sectors

section Energies

variable {solver : EigenSolver Exact} (positive : 0 < a) (exacting : Exacting solver)
  (undefined : KeepsUndefined solver)

include positive exacting undefined

theorem projected_eigenvalues_times (x fock : Mat (Cplx Exact)) :
    projectedEigenvalues solver x (fock.map (Cplx.times a)) =
      (projectedEigenvalues solver x fock).map (List.map (Exact.times a)) := by
  simp only [projectedEigenvalues, Mat.mul_times, Mat.times_mul, or_fault_map,
    eigenvalues_times positive exacting undefined, except_map_eq, bind_map_left, map_bind]
  exact bind_congr fun left => bind_congr fun projected => reporting_map _ _

theorem projected_energies_times (gamma fock : Mat (Cplx Exact)) (cutoff : Exact) :
    projectedEnergies solver gamma (fock.map (Cplx.times a)) cutoff =
      (projectedEnergies solver gamma fock cutoff).map (List.map (Exact.times a)) := by
  have shapes : requireSameShape gamma (fock.map (Cplx.times a)) = requireSameShape gamma fock := rfl
  simp only [projectedEnergies, shapes, projected_eigenvalues_times positive exacting undefined, except_map_eq, map_bind]

theorem projected_energies_with_rank_times (gamma fock : Mat (Cplx Exact)) (rank : Nat) (cutoff : Exact) :
    projectedEnergiesWithRank solver gamma (fock.map (Cplx.times a)) rank cutoff =
      (projectedEnergiesWithRank solver gamma fock rank cutoff).map (Option.map (List.map (Exact.times a))) := by
  have shapes : requireSameShape gamma (fock.map (Cplx.times a)) = requireSameShape gamma fock := rfl
  simp only [projectedEnergiesWithRank, shapes, projected_eigenvalues_times positive exacting undefined, except_map_eq,
    map_bind]
  refine bind_congr fun _ => bind_congr fun held => ?_
  cases held with
  | none => rfl
  | some x => simp only [Functor.map_map, Option.map_some]

end Energies

section Samples

variable {σ : Type} [NormalStream σ Exact] {solver : EigenSolver Exact} (positive : 0 < a)

include positive

theorem errors_of_samples_times (drawn : List (SectorSample Exact)) (samples : Nat) :
    errorsOfSamples (drawn.map (SectorSample.times a)) samples =
      EnergyErrors.times a <$> errorsOfSamples drawn samples := by
  have ionization : (drawn.map (SectorSample.times a)).filterMap SectorSample.ionization =
      (drawn.filterMap SectorSample.ionization).map (List.map (Exact.times a)) := by
    rw [List.filterMap_map, List.map_filterMap]
    rfl
  have attachment : (drawn.map (SectorSample.times a)).filterMap SectorSample.attachment =
      (drawn.filterMap SectorSample.attachment).map (List.map (Exact.times a)) := by
    rw [List.filterMap_map, List.map_filterMap]
    rfl
  simp only [errorsOfSamples, ionization, attachment, List.length_map, sample_deviation_times positive, Run.lift_map]
  split
  · simp only [map_bind]
    refine bind_congr fun _ => ?_
    split
    · rfl
    · simp only [bind_map_left, map_bind, map_pure, EnergyErrors.times]
  · split
    · rfl
    · simp only [bind_map_left, map_bind, map_pure, EnergyErrors.times]

theorem errors_or_none_times (drawn : List (SectorSample Exact)) (samples : Nat) :
    errorsOrNone (drawn.map (SectorSample.times a)) samples =
      Option.map (EnergyErrors.times a) <$> errorsOrNone drawn samples := by
  have bars : some <$> errorsOfSamples (drawn.map (SectorSample.times a)) samples =
      Option.map (EnergyErrors.times a) <$> some <$> errorsOfSamples drawn samples := by
    rw [errors_of_samples_times positive, Functor.map_map, Functor.map_map]
    rfl
  rw [errorsOrNone, bars, errorsOrNone]
  refine Run.try_map _ _ fun failure => ?_
  split <;> rfl

variable (exacting : Exacting solver) (undefined : KeepsUndefined solver) (sector : SectorAverages Exact)

include exacting undefined

theorem sample_sector_times (ionizationRank attachmentRank : Nat) (cutoff : Exact) :
    sampleSector (σ := σ) solver (sector.times a) ionizationRank attachmentRank cutoff =
      SectorSample.times a <$> sampleSector solver sector ionizationRank attachmentRank cutoff := by
  simp only [sampleSector, SectorAverages.times, sampled_times, bind_map_left, map_bind,
    projected_energies_with_rank_times positive exacting undefined, except_lift_map, map_pure, SectorSample.times]

theorem sector_samples_times (ionizationRank attachmentRank samples : Nat) (cutoff : Exact) :
    sectorSamples (σ := σ) solver (sector.times a) ionizationRank attachmentRank samples cutoff =
      List.map (SectorSample.times a) <$> sectorSamples solver sector ionizationRank attachmentRank samples cutoff := by
  rw [sectorSamples, sample_sector_times positive exacting undefined, collect_map, sectorSamples]

theorem sector_spectrum_times (samples : Nat) (cutoff : Exact) :
    sectorSpectrum (σ := σ) solver (sector.times a) samples cutoff =
      Spectrum.times a <$> sectorSpectrum solver sector samples cutoff := by
  have ionization : ionizationEnergies solver (sector.times a).density (sector.times a).removal cutoff =
      (ionizationEnergies solver sector.density sector.removal cutoff).map (List.map (Exact.times a)) :=
    projected_energies_times positive exacting undefined _ _ _
  have attachment : attachmentEnergies solver (sector.times a).density (sector.times a).addition cutoff =
      (attachmentEnergies solver sector.density sector.addition cutoff).map (List.map (Exact.times a)) := by
    simp only [attachmentEnergies, SectorAverages.times, projected_energies_times positive exacting undefined,
      except_map_eq, map_bind]
  simp only [sectorSpectrum, errorsOrWarning, ionization, attachment, except_lift_map, bind_map_left, map_bind,
    sector_samples_times positive exacting undefined, List.length_map, errors_or_none_times positive, run_lift_map,
    bind_assoc, map_pure, Spectrum.times]

theorem sector_spectra_times (samples : Nat) (cutoff : Exact) (sectors : List (SectorAverages Exact)) :
    sectorSpectra (σ := σ) solver samples cutoff (sectors.map (SectorAverages.times a)) =
      List.map (Spectrum.times a) <$> sectorSpectra solver samples cutoff sectors := by
  induction sectors with
  | nil => simp [sectorSpectra]
  | cons sector rest ih =>
      simp only [List.map_cons, sectorSpectra, sector_spectrum_times positive exacting undefined, ih, bind_map_left,
        map_bind, map_pure]

end Samples

theorem arranged_times (spectra : List (Spectrum Exact)) :
    arrangedSpectra (spectra.map (Spectrum.times a)) = (arrangedSpectra spectra).map (KoopmansSpectra.times a) := by
  rcases spectra with _ | ⟨alpha, _ | ⟨beta, rest⟩⟩ <;> rfl

theorem ionization_errors_times (s : Spectrum Exact) :
    (s.times a).ionizationErrors = s.ionizationErrors.map (Exact.times a) := by
  cases held : s.errors with
  | none =>
      simp only [Spectrum.ionizationErrors, Spectrum.times, held, Option.map_none, List.map_map]
      rfl
  | some errors => simp only [Spectrum.ionizationErrors, Spectrum.times, held, Option.map_some, EnergyErrors.times]

theorem attachment_errors_times (s : Spectrum Exact) :
    (s.times a).attachmentErrors = s.attachmentErrors.map (Exact.times a) := by
  cases held : s.errors with
  | none =>
      simp only [Spectrum.attachmentErrors, Spectrum.times, held, Option.map_none, List.map_map]
      rfl
  | some errors => simp only [Spectrum.attachmentErrors, Spectrum.times, held, Option.map_some, EnergyErrors.times]

section Units

variable {σ : Type} [NormalStream σ Exact]

theorem koopmans_spectra_times [Build] (solver : EigenSolver Exact) (exacting : Exacting solver)
    (undefined : KeepsUndefined solver) (source : Source Exact) (p : Params Exact) (seeded : p.seed.isSome)
    (positive : 0 < a) (entropy other : σ) :
    koopmansSpectra solver (source.times fockSeries a) p other =
      KoopmansSpectra.times a <$> koopmansSpectra solver source p entropy := by
  have spectra (sectors : List (SectorAverages Exact)) (state : σ) :
      sectorSpectra solver p.samples p.cutoff (sectors.map (SectorAverages.times a)) state =
        (fun drawn : List (Spectrum Exact) × σ => (drawn.1.map (Spectrum.times a), drawn.2)) <$>
          sectorSpectra solver p.samples p.cutoff sectors state :=
    congrFun (sector_spectra_times positive exacting undefined p.samples p.cutoff sectors) state
  simp only [koopmans_parts, prepared_sectors_times positive, seeded_stream seeded entropy other, bind_map_left,
    spectra, arranged_times, Run.lift_map, map_bind]

local instance seededStream : NormalStream Unit Exact := constantStream

theorem half_seeded {solver : EigenSolver Exact} (faithful : Faithful solver) :
    (koopmansSpectra solver halfSource seededHalf ()).Returns (.single (errorlessSpectrum [2] [2])) := by
  have numbers : DrawsNumbers Unit := fun _ => ⟨1, rfl⟩
  obtain ⟨result, returned, listed, _⟩ := constant_spectra (p := seededHalf) numbers faithful half_constant le_rfl rfl
    zero_le_one rfl le_rfl (by decide) (fun s inside => Nat.lt_one_iff.mp inside ▸ half_energies) ()
  cases result with
  | collinear alpha beta => cases listed
  | single spectrum =>
      cases List.head_eq_of_cons_eq listed
      exact returned

end Units

end OrbitalSpectra
