import OrbitalSpectra.Proofs.Koopmans.CentralMismatch
import OrbitalSpectra.Proofs.Koopmans.EnergyCounts
import OrbitalSpectra.Proofs.Koopmans.ErrorlessSpectra
import OrbitalSpectra.Proofs.Koopmans.Warnings

set_option autoImplicit false

namespace OrbitalSpectra

open Matrix Sampling

def Source.ofNumbers (metadata : Except AnalysisError Metadata)
    (series : String → Estimator → Option Nat → Except AnalysisError (List (Array ℂ))) : Source Exact where
  metadata := metadata
  series name estimator path := (series name estimator path).map (List.map (Array.map Cplx.exact))

section Sectors

def Entries.Numbers (e : Entries Exact) : Prop := ∀ s i j, ∃ z, e.mean s i j = Cplx.exact z

theorem of_blocks_numbers {blocks : List (Array ℂ)} {equilibration stride : Nat}
    (enough : equilibration < blocks.length) (dim : Nat) :
    (Entries.ofBlocks (window equilibration stride (blocks.map fun b => b.map Cplx.exact)) dim).Numbers :=
  fun _ _ _ => ⟨_, window_mean _ _ _ _ enough⟩

theorem over_spins_numbers {e : Entries Exact} (numbers : e.Numbers) (walker : WalkerType) :
    (e.overSpins walker).Numbers := by
  intro s i j
  obtain ⟨z, mean⟩ := numbers s i j
  cases walker with
  | closed => exact ⟨_, by rw [← two_scale, ← mean]; rfl⟩
  | undefined => exact ⟨z, mean⟩
  | collinear => exact ⟨z, mean⟩
  | nonCollinear => exact ⟨z, mean⟩

theorem screened_numbers {e : Entries Exact} (numbers : e.Numbers) (factor : Exact) : (e.screened factor).Numbers := by
  intro s i j
  obtain ⟨z, mean⟩ := numbers s i j
  change ∃ w, screenEntry factor (e.mean s i j) (e.error s i j) = Cplx.exact w
  unfold screenEntry
  split
  · exact ⟨0, Cplx.exact_zero.symm⟩
  · exact ⟨z, mean⟩

theorem mean_sector_exact {e : Entries Exact} (numbers : e.Numbers) (dim s : Nat) :
    ∃ A : Matrix (Fin dim) (Fin dim) ℂ, e.meanSector dim s = Mat.exact A := by
  choose entry same using numbers s
  exact ⟨of fun i j => entry i j, Mat.of_fn_exact _ _ fun i j => same i j⟩

theorem hermitian_sector_exact {e : Entries Exact} (numbers : e.Numbers) (dim s : Nat) :
    ∃ P : Matrix (Fin dim) (Fin dim) ℂ, P.IsHermitian ∧ e.hermitianSector dim s = Mat.exact P := by
  obtain ⟨A, sector⟩ := mean_sector_exact numbers dim s
  have made : hermitianPart (e.meanSector dim s) = .ok (e.hermitianSector dim s) := hermitian_part_of_fn _ _
  rw [sector, exact_hermitian_part] at made
  exact ⟨hermitised A, hermitised_is_hermitian A, (Except.ok.inj made).symm⟩

-- A sector of numbers, with a Hermitian density.
structure SectorAverages.Numbers {n : Nat} (sector : SectorAverages Exact)
    (density removal addition : Matrix (Fin n) (Fin n) ℂ) : Prop where
  hermitian : density.IsHermitian
  density : sector.density = Mat.exact density
  removal : sector.removal = Mat.exact removal
  addition : sector.addition = Mat.exact addition

variable {metadata : Except AnalysisError Metadata}
  {series : String → Estimator → Option Nat → Except AnalysisError (List (Array ℂ))} {p : Params Exact}

theorem averages_numbers [Build] {m : Metadata} {count dim : Nat} {observable : TensorObservable}
    {blocks : List (Block Exact)} (averages : (Source.ofNumbers metadata series).Averages p.selection m count dim observable blocks)
    (walker : WalkerType) : ((observable.entries p.selection walker dim blocks).screened p.screenFactor).Numbers := by
  obtain ⟨raw, _, rfl⟩ := (except_map_ok_iff _ _ _).mp averages.series
  have enough : p.selection.equilibration < raw.length := by simpa using averages.able.enough
  have recorded : (Entries.ofBlocks (window p.selection.equilibration p.selection.stride
      (raw.map fun b => b.map Cplx.exact)) dim).Numbers := of_blocks_numbers enough dim
  apply screened_numbers
  cases observable with
  | density => exact recorded
  | fock sign => exact over_spins_numbers recorded walker

theorem prepared_sectors_numbers [Build] {sectors : List (SectorAverages Exact)}
    (prepared : (preparedSectors (Source.ofNumbers metadata series) p).Returns sectors) :
    ∀ sector ∈ sectors, ∃ (n : Nat) (P removal addition : Matrix (Fin n) (Fin n) ℂ),
      sector.Numbers P removal addition := by
  intro sector member
  obtain ⟨m, walker, count, dim, density, removal, addition, prepares, rfl⟩ :=
    (prepared_sectors_returns_iff sectors).mp ⟨prepared, List.ne_nil_of_mem member⟩
  obtain ⟨s, _, rfl⟩ := List.mem_map.mp member
  obtain ⟨P, hermitian, densityExact⟩ := hermitian_sector_exact (averages_numbers prepares.density walker) dim s
  obtain ⟨removed, removalExact⟩ := mean_sector_exact (averages_numbers prepares.removal walker) dim s
  obtain ⟨added, additionExact⟩ := mean_sector_exact (averages_numbers prepares.addition walker) dim s
  exact ⟨dim, P, removed, added, hermitian, densityExact, removalExact, additionExact⟩

end Sectors

section Samples

variable {σ : Type} [NormalStream σ Exact] {solver : EigenSolver Exact} {n : Nat}
  {P removal addition : Matrix (Fin n) (Fin n) ℂ} {sector : SectorAverages Exact} {cutoff : ℝ}

theorem sample_sector_ascending (numbers : DrawsNumbers σ) (answers : Answers solver)
    (exact : sector.Numbers P removal addition) (nonneg : 0 ≤ cutoff) {ionizationRank attachmentRank : Nat}
    {state next : σ} {sample : SectorSample Exact}
    (yields : (sampleSector solver sector ionizationRank attachmentRank (.value cutoff)).Yields state sample next) :
    (∀ energies ∈ sample.ionization, Ascending energies ionizationRank) ∧
      ∀ energies ∈ sample.attachment, Ascending energies attachmentRank := by
  simp only [sampleSector, exact.density, exact.removal, exact.addition, bind_yields, draw_yields, except_yields,
    pure_yields] at yields
  obtain ⟨density, _, densitySampled, removed, _, removalSampled, added, _, additionSampled, ionization, _,
    ⟨ionizationOk, _⟩, hole, _, ⟨holeOk, _⟩, attachment, _, ⟨attachmentOk, _⟩, rfl, _⟩ := yields
  obtain ⟨γ, _, rfl⟩ := sample_matrix_exact numbers densitySampled
  obtain ⟨F, _, rfl⟩ := sample_matrix_exact numbers removalSampled
  obtain ⟨G, _, rfl⟩ := sample_matrix_exact numbers additionSampled
  cases Except.ok.inj (holeOk.symm.trans (hole_density_exact γ))
  exact ⟨energies_with_rank_ascending (answers _ _) (fun _ _ => answers _ _) nonneg ionizationOk,
    energies_with_rank_ascending (answers _ _) (fun _ _ => answers _ _) nonneg attachmentOk⟩

end Samples

-- Error bars that are standard deviations of so many numbers over two samples or more.
structure Deviations (samples : List (List Exact)) (count : Nat) (errors : List Exact) : Prop where
  enough : 2 ≤ samples.length
  spreads : ∃ xss : List (List ℝ), (∀ xs ∈ xss, xs.length = count) ∧ samples = xss.map (List.map .value) ∧
    errors = (spreads xss count).map .value
  nonneg : ∀ e ∈ errors, ∃ x : ℝ, 0 ≤ x ∧ e = .value x

theorem deviations_of_ascending {samples : List (List Exact)} {count : Nat} {errors : List Exact}
    (each : ∀ s ∈ samples, Ascending s count) (enough : 2 ≤ samples.length)
    (ok : sampleDeviation samples = .ok errors) : Deviations samples count errors := by
  obtain ⟨xss, lengths, rfl⟩ := lists_of_numbers fun s member => by
    obtain ⟨⟨xs, rfl, _⟩, counted⟩ := each s member
    exact ⟨xs, by rwa [List.length_map] at counted, rfl⟩
  rw [List.length_map] at enough
  cases Except.ok.inj (ok.symm.trans (sample_deviation_exact lengths enough))
  refine ⟨by rwa [List.length_map], ⟨xss, lengths, rfl, rfl⟩, ?_⟩
  intro e member
  obtain ⟨x, listed, rfl⟩ := List.mem_map.mp member
  exact ⟨x, spreads_nonneg listed, rfl⟩

theorem Deviations.length {samples : List (List Exact)} {count : Nat} {errors : List Exact}
    (deviations : Deviations samples count errors) : errors.length = count := by
  obtain ⟨xss, _, _, rfl⟩ := deviations.spreads
  rw [List.length_map, spreads_length]

-- The spectrum of a sector with the density `P`, and the samples drawn for it.
structure SpectrumLaw {n : Nat} (P : Matrix (Fin n) (Fin n) ℂ) (cutoff : ℝ) (drawn : List (SectorSample Exact))
    (spectrum : Spectrum Exact) : Prop where
  ionization : Ascending spectrum.ionization (keptSpectrum P cutoff).length
  attachment : Ascending spectrum.attachment (keptSpectrum (1 - Pᵀ) cutoff).length
  ionizationBars : spectrum.ionizationErrors.length = spectrum.ionization.length
  attachmentBars : spectrum.attachmentErrors.length = spectrum.attachment.length
  stable : ¬ acceptedSamples drawn < 2 →
    Deviations (drawn.filterMap SectorSample.ionization) spectrum.ionization.length spectrum.ionizationErrors ∧
    Deviations (drawn.filterMap SectorSample.attachment) spectrum.attachment.length spectrum.attachmentErrors
  unstable : acceptedSamples drawn < 2 →
    (∀ e ∈ spectrum.ionizationErrors, e = .undefined) ∧ ∀ e ∈ spectrum.attachmentErrors, e = .undefined

section Law

variable {σ : Type} [NormalStream σ Exact] {solver : EigenSolver Exact} {n : Nat}
  {P removal addition : Matrix (Fin n) (Fin n) ℂ} {sector : SectorAverages Exact} {cutoff : ℝ}

theorem central_energies_ascending (answers : Answers solver) (faithful : Faithful solver)
    (exact : sector.Numbers P removal addition) (nonneg : 0 ≤ cutoff) {ionization attachment : List Exact}
    (ionizationOk : ionizationEnergies solver sector.density sector.removal (.value cutoff) = .ok ionization)
    (attachmentOk : attachmentEnergies solver sector.density sector.addition (.value cutoff) = .ok attachment) :
    Ascending ionization (keptSpectrum P cutoff).length ∧ Ascending attachment (keptSpectrum (1 - Pᵀ) cutoff).length := by
  rw [ionizationEnergies, exact.density, exact.removal] at ionizationOk
  rw [exact.density, exact.addition, attachment_energies_exact] at attachmentOk
  obtain ⟨ips, ipsOk, ipsAscending⟩ := projected_energies_ascending answers faithful exact.hermitian removal nonneg
  obtain ⟨eas, easOk, easAscending⟩ := projected_energies_ascending answers faithful
    (hole_density_hermitian exact.hermitian) addition nonneg
  cases Except.ok.inj (ionizationOk.symm.trans ipsOk)
  cases Except.ok.inj (attachmentOk.symm.trans easOk)
  exact ⟨ipsAscending, easAscending⟩

theorem spectrum_law (numbers : DrawsNumbers σ) (answers : Answers solver) (faithful : Faithful solver)
    (exact : sector.Numbers P removal addition) (nonneg : 0 ≤ cutoff) {samples : Nat}
    {drawn : List (SectorSample Exact)} {spectrum : Spectrum Exact}
    (sampled : Sampled σ solver samples (.value cutoff) sector (drawn, spectrum)) :
    SpectrumLaw P cutoff drawn spectrum := by
  obtain ⟨ionization, attachment⟩ := central_energies_ascending answers faithful exact nonneg sampled.ionization
    sampled.attachment
  obtain ⟨state, next, collected⟩ := sampled.drawn
  obtain ⟨_, each⟩ := collect_each
    (fun _ _ _ => sample_sector_ascending numbers answers exact nonneg) collected
  have removed := List.forall_mem_filterMap.mpr fun sample listed => (each sample listed).1
  have added := List.forall_mem_filterMap.mpr fun sample listed => (each sample listed).2
  obtain ⟨few, enough⟩ := errors_or_none_returned sampled.errors
  have stable (accepted : ¬ acceptedSamples drawn < 2) :
      Deviations (drawn.filterMap SectorSample.ionization) spectrum.ionization.length spectrum.ionizationErrors ∧
      Deviations (drawn.filterMap SectorSample.attachment) spectrum.attachment.length spectrum.attachmentErrors := by
    obtain ⟨errors, held, ionizationErrors, attachmentErrors⟩ := enough accepted
    rw [acceptedSamples] at accepted
    rw [Spectrum.ionizationErrors, Spectrum.attachmentErrors, held]
    exact ⟨deviations_of_ascending removed (by omega) ionizationErrors,
      deviations_of_ascending added (by omega) attachmentErrors⟩
  have unstable (rejected : acceptedSamples drawn < 2) : spectrum.errors = none := few rejected
  refine ⟨ionization, attachment, ?_, ?_, stable, fun rejected => ?_⟩
  · by_cases rejected : acceptedSamples drawn < 2
    · rw [Spectrum.ionizationErrors, unstable rejected, List.length_map]
    · exact (stable rejected).1.length
  · by_cases rejected : acceptedSamples drawn < 2
    · rw [Spectrum.attachmentErrors, unstable rejected, List.length_map]
    · exact (stable rejected).2.length
  · rw [Spectrum.ionizationErrors, Spectrum.attachmentErrors, unstable rejected]
    simp

-- A sector of an analysis: its samples and its spectrum, which obeys the law of its density.
structure SectorReport (σ : Type) [NormalStream σ Exact] (solver : EigenSolver Exact) (samples : Nat) (cutoff : ℝ)
    (sector : SectorAverages Exact) (report : List (SectorSample Exact) × Spectrum Exact) : Prop where
  sampled : Sampled σ solver samples (.value cutoff) sector report
  law : ∃ (n : Nat) (P : Matrix (Fin n) (Fin n) ℂ), P.IsHermitian ∧ sector.density = Mat.exact P ∧
    SpectrumLaw P cutoff report.1 report.2

theorem koopmans_spectra_law [Build] (numbers : DrawsNumbers σ) (answers : Answers solver) (faithful : Faithful solver)
    (metadata : Except AnalysisError Metadata)
    (series : String → Estimator → Option Nat → Except AnalysisError (List (Array ℂ))) (p : Params Exact) (cutoff : ℝ)
    (held : p.cutoff = .value cutoff) (nonneg : 0 ≤ cutoff) (entropy : σ) (result : KoopmansSpectra Exact)
    (returned : (koopmansSpectra solver (Source.ofNumbers metadata series) p entropy).Returns result) :
    ((∃ alpha beta, result = .collinear alpha beta) ↔ ∃ m, metadata = .ok m ∧ m.walkerCode = 2) ∧
    ∃ sectors reports, (preparedSectors (Source.ofNumbers metadata series) p).Returns sectors ∧
      result.toList = reports.map Prod.snd ∧
      List.Forall₂ (SectorReport σ solver p.samples cutoff) sectors reports ∧
      (koopmansSpectra solver (Source.ofNumbers metadata series) p entropy).warnings =
        reports.flatMap fun report => unstableWarnings p.samples report.1 := by
  obtain ⟨sectors, reports, prepared, sampled, arranged, logged⟩ := koopmans_spectra_sampled solver returned
  have nonempty : sectors ≠ [] := by
    rintro rfl
    cases sampled
    cases arranged
  obtain ⟨m, walker, count, dim, density, removal, addition, prepares, same⟩ :=
    (prepared_sectors_returns_iff sectors).mp ⟨prepared, nonempty⟩
  have read : metadata = .ok m := prepares.density.metadata
  have sized : (reports.map Prod.snd).length = if m.walkerCode = 2 then 2 else 1 := by
    rw [List.length_map, ← sampled.length_eq, ← same, List.length_map, List.length_range]
    exact flat_layout_count prepares.density.able.layout
  obtain ⟨listed, collinear⟩ := arranged_to_list sized arranged
  refine ⟨?_, sectors, reports, prepared, listed, ?_, logged⟩
  · rw [collinear, read]
    simp
  · have exact := prepared_sectors_numbers prepared
    rw [held] at sampled
    refine ((List.forall₂_and_left _ _).mpr ⟨exact, sampled⟩).imp fun sector report both => ?_
    obtain ⟨⟨n, P, removal, addition, sectorNumbers⟩, drawn⟩ := both
    exact ⟨drawn, n, P, sectorNumbers.hermitian, sectorNumbers.density,
      spectrum_law numbers answers faithful sectorNumbers nonneg drawn⟩

local instance unitStream : NormalStream Unit Exact := constantStream

def halfMetadata : Metadata := ⟨1, 1, false⟩

noncomputable def halfSource : Source Exact :=
  .ofNumbers (.ok halfMetadata) fun _ _ _ => .ok (List.replicate 2 #[1 / 2])

noncomputable def halfParams : Params Exact where
  estimator := .mixed
  equilibration := 0
  stride := 1
  path := none
  samples := 2
  screenFactor := .value 1
  cutoff := .value 0
  seed := none

noncomputable def seededHalf : Params Exact := { halfParams with seed := some 7 }

theorem half_constant : halfSource.Constant halfParams.selection halfMetadata 1 1 2 fun _ => #[1 / 2] where
  metadata := rfl
  series _ := rfl
  layout := rfl
  basis := le_rfl
  wide := le_rfl
  stride := le_rfl
  projected := rfl
  several := by
    change 2 ≤ (retained 0 1 2).card
    rw [retained_unstrided]
  lengths _ := rfl

theorem half_entry (i j : Fin 1) : blockEntry 1 #[1 / 2] 0 i j = 1 / 2 := by
  fin_cases i
  fin_cases j
  rfl

theorem half_density : constantMatrix halfMetadata 1 (fun _ => #[1 / 2]) .density 0 = realDiagonal fun _ => 1 / 2 := by
  apply diagonal_sector
  intro i j
  rw [constantMean, half_entry, if_pos (Subsingleton.elim i j)]
  simp [TensorObservable.weight]

theorem half_energies : SectorEnergies (constantMatrix halfMetadata 1 (fun _ => #[1 / 2]) .density 0)
    (constantMatrix halfMetadata 1 (fun _ => #[1 / 2]) (.fock .minus) 0)
    (constantMatrix halfMetadata 1 (fun _ => #[1 / 2]) (.fock .plus) 0) 0 [2] [2] := by
  have fock (sign : FockSign) : constantMatrix halfMetadata 1 (fun _ => #[1 / 2]) (.fock sign) 0 =
      realDiagonal fun _ => 1 / 2 * 2 := by
    apply diagonal_sector
    intro i j
    rw [constantMean, half_entry, if_pos (Subsingleton.elim i j)]
    simp [TensorObservable.weight, halfMetadata]
  have energies := diagonal_energies (n := 1) (fun _ => 1 / 2) (fun _ => 2) (le_refl (0 : ℝ))
  have kept : keptEnergies (fun _ : Fin 1 => (1 / 2 : ℝ)) (fun _ => 2) 0 = [2] :=
    (ascending_list_unique (List.pairwise_singleton _ _) (by simp)).symm
  have complement : (1 - 1 / 2 : ℝ) = 1 / 2 := by norm_num
  rw [half_density, fock, fock]
  simpa only [complement, kept] using energies

theorem koopmans_spectra_law_half : ∃ (sector : SectorAverages Exact) (drawn : List (SectorSample Exact)),
    (koopmansSpectra spectralSolver halfSource halfParams ()).Returns (.single (errorlessSpectrum [2] [2])) ∧
    (preparedSectors halfSource halfParams).Returns [sector] ∧
    SectorReport Unit spectralSolver 2 0 sector (drawn, errorlessSpectrum [2] [2]) ∧
    (koopmansSpectra spectralSolver halfSource halfParams ()).warnings = unstableWarnings 2 drawn := by
  have faithful := spectral_solver_lower_faithful.faithful
  have numbers : DrawsNumbers Unit := fun _ => ⟨1, rfl⟩
  have energies : ∀ s < 1, SectorEnergies (constantMatrix halfMetadata 1 (fun _ => #[1 / 2]) .density s)
      (constantMatrix halfMetadata 1 (fun _ => #[1 / 2]) (.fock .minus) s)
      (constantMatrix halfMetadata 1 (fun _ => #[1 / 2]) (.fock .plus) s) 0 [2] [2] := by
    intro s inside
    obtain rfl := Nat.lt_one_iff.mp inside
    exact half_energies
  obtain ⟨result, returned, listed, collinear⟩ := constant_spectra numbers faithful half_constant le_rfl rfl zero_le_one
    rfl le_rfl (by decide) energies ()
  cases result with
  | collinear alpha beta => cases listed
  | single spectrum =>
      cases List.head_eq_of_cons_eq listed
      obtain ⟨_, sectors, reports, prepared, spectra, reported, logged⟩ := koopmans_spectra_law numbers
        spectral_solver_answers faithful (.ok halfMetadata) (fun _ _ _ => .ok (List.replicate 2 #[1 / 2])) halfParams 0 rfl
        le_rfl () _ returned
      obtain ⟨⟨drawn, _⟩, rfl, rfl⟩ := List.map_eq_singleton_iff.mp spectra.symm
      cases reported with
      | cons report rest =>
          cases rest
          exact ⟨_, drawn, returned, prepared, report, logged.trans (List.append_nil _)⟩

end Law

end OrbitalSpectra
