import OrbitalSpectra.Koopmans
import OrbitalSpectra.Proofs.Bootstrap.Draws

set_option autoImplicit false

namespace OrbitalSpectra

open NormalStream Sampling

variable {σ R : Type} [Scalar R] [NormalStream σ R]

def SectorAverages.draws (sector : SectorAverages R) : Nat :=
  sector.density.rows * sector.density.rows + sector.removal.rows * sector.removal.rows +
    sector.addition.rows * sector.addition.rows

theorem sample_sector_spends (solver : EigenSolver R) (sector : SectorAverages R)
    (ionizationRank attachmentRank : Nat) (cutoff : R) :
    Spends (σ := σ) R (sampleSector solver sector ionizationRank attachmentRank cutoff) sector.draws := by
  have solved (density removal addition : Mat (Cplx R)) := bind_spends (σ := σ) R
    (except_spends R (projectedEnergiesWithRank solver density removal ionizationRank cutoff)) fun ionization =>
      bind_spends R (except_spends R (holeDensity density)) fun hole =>
        bind_spends R (except_spends R (projectedEnergiesWithRank solver hole addition attachmentRank cutoff))
          fun attachment => pure_spends R (SectorSample.mk ionization attachment)
  have whole := bind_spends R (sample_matrix_spends (σ := σ) sector.density sector.densityError) fun density =>
    bind_spends R (sample_matrix_spends sector.removal sector.removalError) fun removal =>
      bind_spends R (sample_matrix_spends sector.addition sector.additionError) fun addition =>
        solved density removal addition
  unfold sampleSector SectorAverages.draws
  simpa only [Nat.add_zero, Nat.add_assoc] using whole

theorem sector_spectrum_spends (solver : EigenSolver R) (sector : SectorAverages R) (samples : Nat) (cutoff : R) :
    Spends (σ := σ) R (sectorSpectrum solver sector samples cutoff) (samples * sector.draws) := by
  have errors (ionizationRank attachmentRank : Nat) := bind_spends R (collect_spends R
    (sample_sector_spends (σ := σ) solver sector ionizationRank attachmentRank cutoff) samples) fun drawn =>
      run_spends R (errorsOrNone drawn samples)
  have whole := bind_spends R
    (except_spends (σ := σ) R (ionizationEnergies solver sector.density sector.removal cutoff)) fun ionization =>
      bind_spends R (except_spends R (attachmentEnergies solver sector.density sector.addition cutoff))
        fun attachment => bind_spends R (errors ionization.length attachment.length) fun bars =>
          pure_spends R (Spectrum.mk ionization attachment bars)
  unfold sectorSpectrum errorsOrWarning sectorSamples
  simpa only [Nat.add_zero, Nat.zero_add] using whole

theorem sector_spectra_yields (solver : EigenSolver R) (samples : Nat) (cutoff : R)
    (sectors : List (SectorAverages R)) (draws : Nat) (uniform : ∀ sector ∈ sectors, sector.draws = draws)
    (state : σ) (spectra : List (Spectrum R)) (final : σ)
    (yields : Yields (sectorSpectra solver samples cutoff sectors) state spectra final) :
    spectra.length = sectors.length ∧ ∀ s (inside : s < sectors.length), ∃ spectrum, spectra[s]? = some spectrum ∧
      Yields (sectorSpectrum solver sectors[s] samples cutoff) (skip R (s * (samples * draws)) state) spectrum
        (skip R ((s + 1) * (samples * draws)) state) := by
  induction sectors generalizing state spectra with
  | nil =>
      obtain ⟨rfl, _⟩ := (pure_yields _ _ _ _).mp yields
      exact ⟨rfl, fun s inside => absurd inside (Nat.not_lt_zero s)⟩
  | cons sector rest ih =>
      simp only [sectorSpectra, bind_yields, pure_yields] at yields
      obtain ⟨first, next, head, others, last, tail, rfl, rfl⟩ := yields
      have spent := sector_spectrum_spends solver sector samples cutoff state first next head
      rw [uniform sector (by simp)] at spent
      obtain ⟨count, each⟩ := ih (fun sector member => uniform sector (List.mem_cons_of_mem _ member)) next others tail
      refine ⟨by simp [count], ?_⟩
      intro s inside
      cases s with
      | zero =>
          refine ⟨first, rfl, ?_⟩
          rw [Nat.zero_mul, Nat.zero_add, Nat.one_mul, ← spent]
          exact head
      | succ s =>
          obtain ⟨spectrum, listed, found⟩ := each s (by simpa using inside)
          refine ⟨spectrum, by simpa using listed, ?_⟩
          have past (k : Nat) : skip R ((k + 1) * (samples * draws)) state = skip R (k * (samples * draws)) next := by
            rw [Nat.succ_mul, Nat.add_comm, skip_add, ← spent]
          rw [past s, past (s + 1)]
          exact found

end OrbitalSpectra
