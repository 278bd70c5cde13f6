import OrbitalSpectra.Proofs.Koopmans.PreparedSectors

set_option autoImplicit false

namespace OrbitalSpectra

open AnalysisError Sampling Run

variable {σ R : Type} [Scalar R]

section Errors

theorem errors_of_samples_warnings (drawn : List (SectorSample R)) (samples : Nat) :
    (errorsOfSamples drawn samples).warnings = [] := by
  have deviations (ionization attachment : List (List R)) :
      (do return ⟨← sampleDeviation ionization, ← sampleDeviation attachment⟩ : Run (EnergyErrors R)).warnings = [] :=
    bind_trace_none rfl fun _ => bind_trace_none rfl fun _ => rfl
  dsimp only [errorsOfSamples]
  split
  · refine bind_trace_none rfl fun _ => ?_
    split
    · rfl
    · exact deviations _ _
  · split
    · rfl
    · exact deviations _ _

-- What is logged when too few of the drawn samples kept their rank.
def unstableWarnings (samples : Nat) (drawn : List (SectorSample R)) : List Notice :=
  if acceptedSamples drawn < 2 then [.errorBarsUnavailable (bootstrapUnstable (acceptedSamples drawn) samples)] else []

theorem errors_of_samples_fault {drawn : List (SectorSample R)} (accepted : ¬ acceptedSamples drawn < 2)
    (samples : Nat) : (∃ errors, (errorsOfSamples drawn samples).Returns errors) ∨
      (errorsOfSamples drawn samples).outcome = .error .fault := by
  have outcome := errors_of_samples_outcome drawn samples
  rw [if_neg accepted] at outcome
  unfold sampleDeviation at outcome
  dsimp only at outcome
  split at outcome
  · split at outcome
    · exact Or.inl ⟨_, outcome⟩
    · exact Or.inr outcome
  · exact Or.inr outcome

theorem errors_or_none_warnings (drawn : List (SectorSample R)) (samples : Nat) :
    (errorsOrNone drawn samples).warnings = unstableWarnings samples drawn := by
  have outcome := errors_of_samples_outcome drawn samples
  have tried : (some <$> errorsOfSamples drawn samples).warnings = [] := by
    rw [← bind_pure_comp]
    exact (bind_trace_last _ fun _ => rfl).trans (errors_of_samples_warnings drawn samples)
  by_cases few : acceptedSamples drawn < 2
  · rw [if_pos few] at outcome
    have failed : (some <$> errorsOfSamples drawn samples).outcome =
        .error (.reported (bootstrapUnstable (acceptedSamples drawn) samples)) := by
      rw [map_outcome, outcome]
      rfl
    rw [errorsOrNone, warnings, try_trace_failed _ failed]
    change (some <$> errorsOfSamples drawn samples).warnings ++ _ = _
    rw [tried, unstableWarnings, if_pos few]
    rfl
  · rw [unstableWarnings, if_neg few]
    rcases errors_of_samples_fault few samples with ⟨errors, returned⟩ | failed
    · have found : (some <$> errorsOfSamples drawn samples).outcome = .ok (some errors) := by
        rw [map_outcome, returned]
        rfl
      rw [errorsOrNone, try_ok _ found, tried]
    · have refused : (some <$> errorsOfSamples drawn samples).outcome = .error .fault := by
        rw [map_outcome, failed]
        rfl
      rw [errorsOrNone, warnings, try_trace_failed _ refused]
      change (some <$> errorsOfSamples drawn samples).warnings ++ _ = _
      rw [tried]
      rfl

-- Error bars are there when two samples or more kept their rank, and only then.
theorem errors_or_none_returned {drawn : List (SectorSample R)} {samples : Nat} {held : Option (EnergyErrors R)}
    (returned : (errorsOrNone drawn samples).Returns held) :
    (acceptedSamples drawn < 2 → held = none) ∧
    (¬ acceptedSamples drawn < 2 → ∃ errors, held = some errors ∧
      sampleDeviation (drawn.filterMap SectorSample.ionization) = .ok errors.ionization ∧
      sampleDeviation (drawn.filterMap SectorSample.attachment) = .ok errors.attachment) := by
  have outcome := errors_of_samples_outcome drawn samples
  constructor
  · intro few
    rw [if_pos few] at outcome
    exact returns_unique returned (errors_or_none_unstable outcome)
  · intro accepted
    rcases errors_of_samples_fault accepted samples with ⟨errors, found⟩ | failed
    · refine ⟨errors, returns_unique returned (errors_or_none_found found), ?_⟩
      rw [if_neg accepted, found] at outcome
      obtain ⟨ionization, first, rest⟩ := (except_bind_ok_iff _ _ _).mp outcome.symm
      obtain ⟨attachment, second, same⟩ := (except_bind_ok_iff _ _ _).mp rest
      cases same
      exact ⟨first, second⟩
    · have refused : (some <$> errorsOfSamples drawn samples).outcome = .error .fault := by
        rw [map_outcome, failed]
        rfl
      rw [errorsOrNone, Run.Returns, try_error _ refused] at returned
      cases returned

end Errors

section Averages

variable {α β : Type}

-- Without a warning whenever it returns.
def Run.Silent (x : Run α) : Prop := ∀ a, x.Returns a → x.warnings = []

theorem silent_of_warnings {x : Run α} (none : x.warnings = []) : x.Silent := fun _ _ => none

theorem bind_silent {x : Run α} {f : α → Run β} (first : x.Silent) (rest : ∀ a, x.Returns a → (f a).Silent) :
    (x >>= f).Silent := by
  intro b returned
  obtain ⟨a, earlier, later⟩ := (bind_returns x f b).mp returned
  rw [warnings, bind_trace_returned f earlier]
  change x.warnings ++ (f a).warnings = []
  rw [first a earlier, rest a earlier b later, List.append_nil]

theorem lift_silent (x : Except Failure α) : Silent (liftM x : Run α) := silent_of_warnings rfl

theorem pure_silent (a : α) : Silent (Pure.pure a : Run α) := silent_of_warnings rfl

theorem average_blocks_warnings (blocks : List (Block R)) (name : String) (equilibration stride : Nat) :
    (averageBlocks blocks name equilibration stride).warnings = [] := by
  dsimp only [averageBlocks]
  split
  · rfl
  · split
    · rfl
    · split <;> rfl

variable (source : Source R) (s : Selection)

-- Only a free-projection run warns, and its observables have no average.
theorem average_observable_warnings {name : String} {average : BlockAverage R}
    (returned : (averageObservable source name s).Returns (some average)) :
    (averageObservable source name s).warnings = [] := by
  obtain ⟨m, blocks, read, projected, series, averaged⟩ := (average_observable_returns _ _ _ _).mp returned
  have strided := ((average_blocks_returns _ _ _ _ _).mp averaged).1
  have recorded : source.readMetadata.Returns m := (recorded_returns _ _ _).mpr read
  simp only [averageObservable, if_neg strided]
  rw [warnings, bind_trace_returned _ recorded]
  simp only [projected, Bool.false_eq_true, if_false]
  exact bind_trace_none rfl fun _ => bind_trace_none (average_blocks_warnings _ _ _ _) fun _ => rfl

theorem require_average_silent (name : String) : (requireAverage source name s).Silent := by
  intro average returned
  have observed := (require_average_returns _ _ _ _).mp returned
  rw [warnings, requireAverage, bind_trace_returned _ observed]
  change (averageObservable source name s).warnings ++ [] = []
  rw [average_observable_warnings source s observed, List.append_nil]

theorem average_tensor_silent [Build] (name : String) : (averageTensor source name s).Silent :=
  bind_silent (silent_of_warnings rfl) fun _ _ => bind_silent (lift_silent _) fun _ _ =>
    bind_silent (lift_silent _) fun _ _ => bind_silent (require_average_silent source s name) fun _ _ =>
      bind_silent (lift_silent _) fun _ _ => pure_silent _

theorem average_density_silent [Build] : (averageDensity source s).Silent :=
  bind_silent (average_tensor_silent source s _) fun _ _ => pure_silent _

theorem average_fock_silent [Build] (sign : FockSign) : (averageFock source sign s).Silent := by
  refine bind_silent (average_tensor_silent source s _) fun average _ => ?_
  obtain ⟨walker, tensor⟩ := average
  cases walker <;> exact pure_silent _

theorem prepared_sectors_silent [Build] (p : Params R) : (preparedSectors source p).Silent :=
  bind_silent (average_density_silent source _) fun _ _ => bind_silent (average_fock_silent source _ _) fun _ _ =>
    bind_silent (average_fock_silent source _ _) fun _ _ => bind_silent (lift_silent _) fun _ _ =>
      bind_silent (lift_silent _) fun _ _ => bind_silent (lift_silent _) fun _ _ => lift_silent _

end Averages

section Sectors

variable [NormalStream σ R] (solver : EigenSolver R)

-- A spectrum of a sector with the samples that its error bars are made of.
structure Sampled (σ : Type) [NormalStream σ R] (solver : EigenSolver R) (samples : Nat) (cutoff : R)
    (sector : SectorAverages R) (report : List (SectorSample R) × Spectrum R) : Prop where
  ionization : ionizationEnergies solver sector.density sector.removal cutoff = .ok report.2.ionization
  attachment : attachmentEnergies solver sector.density sector.addition cutoff = .ok report.2.attachment
  drawn : ∃ state next : σ, (sectorSamples solver sector report.2.ionization.length report.2.attachment.length samples
    cutoff).Yields state report.1 next
  errors : (errorsOrNone report.1 samples).Returns report.2.errors

theorem sector_spectrum_sampled {sector : SectorAverages R} {samples : Nat} {cutoff : R} {state next : σ}
    {spectrum : Spectrum R} (yields : (sectorSpectrum solver sector samples cutoff).Yields state spectrum next) :
    ∃ drawn, Sampled σ solver samples cutoff sector (drawn, spectrum) ∧
      (sectorSpectrum solver sector samples cutoff state).warnings = unstableWarnings samples drawn := by
  simp only [sectorSpectrum, errorsOrWarning, bind_yields, except_yields, run_yields, pure_yields] at yields
  obtain ⟨ionization, _, ⟨ionizationOk, rfl⟩, attachment, _, ⟨attachmentOk, rfl⟩, errors, _,
    ⟨drawn, _, sampled, returned, rfl⟩, rfl, rfl⟩ := yields
  refine ⟨drawn, ⟨ionizationOk, attachmentOk, ⟨_, _, sampled⟩, returned⟩, ?_⟩
  have silent := (sector_samples_eventless (σ := σ) solver sector ionization.length attachment.length samples
    cutoff).trace warningOf state
  have bars : (errorsOrWarning solver sector ionization.length attachment.length samples cutoff).Yields state errors
      _ := (bind_yields _ _ _ _ _).mpr ⟨drawn, _, sampled, (run_yields _ _ _ _).mpr ⟨returned, rfl⟩⟩
  rw [warnings, sectorSpectrum, bind_trace _ ((except_yields _ _ _ _).mpr ⟨ionizationOk, rfl⟩),
    bind_trace _ ((except_yields _ _ _ _).mpr ⟨attachmentOk, rfl⟩), (except_eventless _).trace,
    (except_eventless _).trace, List.nil_append, List.nil_append, bind_trace _ bars, errorsOrWarning,
    bind_trace _ sampled, silent, run_trace, List.nil_append, (pure_eventless _).trace, List.append_nil]
  exact errors_or_none_warnings drawn samples

theorem sector_spectra_sampled {sectors : List (SectorAverages R)} {samples : Nat} {cutoff : R} {state final : σ}
    {spectra : List (Spectrum R)} (yields : (sectorSpectra solver samples cutoff sectors).Yields state spectra final) :
    ∃ reports, List.Forall₂ (Sampled σ solver samples cutoff) sectors reports ∧
      spectra = reports.map Prod.snd ∧
      (sectorSpectra solver samples cutoff sectors state).warnings =
        reports.flatMap fun report => unstableWarnings samples report.1 := by
  induction sectors generalizing state spectra with
  | nil =>
      obtain ⟨rfl, _⟩ := (pure_yields _ _ _ _).mp yields
      exact ⟨[], .nil, rfl, rfl⟩
  | cons sector rest ih =>
      simp only [sectorSpectra, bind_yields, pure_yields] at yields
      obtain ⟨first, next, head, others, last, tail, rfl, rfl⟩ := yields
      obtain ⟨drawn, sampled, logged⟩ := sector_spectrum_sampled solver head
      obtain ⟨reports, all, rfl, loggedAfter⟩ := ih tail
      refine ⟨(drawn, first) :: reports, .cons sampled all, rfl, ?_⟩
      rw [warnings, sectorSpectra, bind_trace _ head, bind_trace _ tail, (pure_eventless _).trace, List.append_nil,
        List.flatMap_cons, ← logged, ← loggedAfter]
      rfl

theorem koopmans_spectra_sampled [Build] {source : Source R} {p : Params R} {entropy : σ} {result : KoopmansSpectra R}
    (returned : (koopmansSpectra solver source p entropy).Returns result) :
    ∃ sectors reports, (preparedSectors source p).Returns sectors ∧
      List.Forall₂ (Sampled σ solver p.samples p.cutoff) sectors reports ∧
      arrangedSpectra (reports.map Prod.snd) = .ok result ∧
      (koopmansSpectra solver source p entropy).warnings =
        reports.flatMap fun report => unstableWarnings p.samples report.1 := by
  simp only [koopmans_parts, bind_returns] at returned ⊢
  obtain ⟨_, valid, sectors, prepared, ⟨spectra, final⟩, drawn, arranged⟩ := returned
  obtain ⟨reports, all, rfl, logged⟩ := sector_spectra_sampled solver drawn
  refine ⟨sectors, reports, prepared, all, arranged, ?_⟩
  rw [warnings, bind_trace_returned _ valid, bind_trace_returned _ prepared, bind_trace_returned _ drawn, ← logged]
  have averaged := prepared_sectors_silent source p sectors prepared
  rw [warnings] at averaged
  rw [averaged, List.nil_append, warnings]
  exact List.append_nil _

end Sectors

end OrbitalSpectra
