import OrbitalSpectra.Proofs.Koopmans.Reads
import OrbitalSpectra.Proofs.Koopmans.SectorVerdict
import OrbitalSpectra.Proofs.OccupationsVerdict
import OrbitalSpectra.Proofs.Avoidance

set_option autoImplicit false

namespace OrbitalSpectra

open AnalysisError Sampling

variable {σ R : Type}

def KoopmansSpectra.withoutErrors : KoopmansSpectra R → KoopmansSpectra R
  | single s => .single s.withoutErrors
  | collinear alpha beta => .collinear alpha.withoutErrors beta.withoutErrors

def arrangedSpectra : List (Spectrum R) → Except Failure (KoopmansSpectra R)
  | [single] => .ok (.single single)
  | alpha :: beta :: _ => .ok (.collinear alpha beta)
  | [] => .error (.reported (shapeMismatch densitySeries 1 0))

theorem arranged_without_errors (spectra : List (Spectrum R)) :
    (arrangedSpectra spectra).map KoopmansSpectra.withoutErrors =
      arrangedSpectra (spectra.map Spectrum.withoutErrors) := by
  rcases spectra with _ | ⟨alpha, _ | ⟨beta, rest⟩⟩ <;> rfl

theorem arranged_avoids {bad : Failure → Prop} [Tame bad] (spectra : List (Spectrum R)) :
    Avoids bad (arrangedSpectra spectra) := by
  rcases spectra with _ | ⟨alpha, _ | ⟨beta, rest⟩⟩
  · exact error_avoids (Tame.mismatch _ _ _)
  · exact ok_avoids _
  · exact ok_avoids _

theorem arranged_to_list {code : Int} {spectra : List (Spectrum R)} {result : KoopmansSpectra R}
    (count : spectra.length = if code = 2 then 2 else 1) (arranged : arrangedSpectra spectra = .ok result) :
    result.toList = spectra ∧ ((∃ alpha beta, result = .collinear alpha beta) ↔ code = 2) := by
  by_cases collinear : code = 2
  · rw [if_pos collinear] at count
    obtain ⟨alpha, beta, rfl⟩ := List.length_eq_two.mp count
    cases arranged
    exact ⟨rfl, iff_of_true ⟨alpha, beta, rfl⟩ collinear⟩
  · rw [if_neg collinear] at count
    obtain ⟨single, rfl⟩ := List.length_eq_one_iff.mp count
    cases arranged
    exact ⟨rfl, iff_of_false (by rintro ⟨_, _, ⟨⟩⟩) collinear⟩

theorem store_steady (store : Store R) : store.source.Steady where
  metadata := ok_avoids _
  series := by
    intro name estimator path
    unfold Store.source
    dsimp only
    split
    · exact ok_avoids _
    · exact error_avoids id

theorem seeded_stream [NormalStream σ R] {p : Params R} (seeded : p.seed.isSome) (entropy other : σ) :
    p.stream other = p.stream entropy := by
  obtain ⟨seed, held⟩ := Option.isSome_iff_exists.mp seeded
  rw [Params.stream, Params.stream, held]

variable [Scalar R]

def preparedSectors [Build] (source : Source R) (p : Params R) : Run (List (SectorAverages R)) := do
  let density ← averageDensity source p.selection
  let addition ← averageFock source .plus p.selection
  let removal ← averageFock source .minus p.selection
  let density ← reporting (density.screened p.screenFactor)
  let removal ← reporting (removal.screened p.screenFactor)
  let addition ← reporting (addition.screened p.screenFactor)
  sectorAverages density removal addition

def centralSpectra [Build] (solver : EigenSolver R) (source : Source R) (p : Params R) :
    Except Failure (KoopmansSpectra R) := do
  let sectors ← (preparedSectors source p).outcome
  let spectra ← sectors.mapM fun sector => sector.central solver p.samples p.cutoff
  arrangedSpectra spectra

def centralOccupations [Build] (solver : EigenSolver R) (source : Source R) (p : Params R) :
    Except Failure (List R) := do
  let density ← (averageDensity source p.selection).outcome
  occupationValues solver density.mean density.error p.samples p.screenFactor p.cutoff

theorem central_of_prepared [Build] (solver : EigenSolver R) {source : Source R} {p : Params R}
    {sectors : List (SectorAverages R)} (prepared : (preparedSectors source p).Returns sectors) :
    centralSpectra solver source p =
      (sectors.mapM fun sector => sector.central solver p.samples p.cutoff) >>= arrangedSpectra := by
  rw [centralSpectra, prepared]
  rfl

theorem validate_samples {p : Params R} (valid : p.validate = .ok ()) : 2 ≤ p.samples := by
  by_contra few
  have strided := validate_stride valid
  rw [Params.validate, if_neg strided, if_pos (by omega)] at valid
  cases valid

theorem validate_cutoff {p : Params R} (valid : p.validate = .ok ()) : Scalar.isFinite p.cutoff = true := by
  by_contra odd
  dsimp only [Params.validate] at valid
  split_ifs at valid <;> cases valid

section Outcomes

variable [NormalStream σ R] (solver : EigenSolver R) (source : Source R) (p : Params R) (entropy : σ)

theorem koopmans_parts [Build] : koopmansSpectra solver source p entropy = (do
    reporting p.validate
    let sectors ← preparedSectors source p
    let drawn ← sectorSpectra solver p.samples p.cutoff sectors (p.stream entropy)
    (liftM (arrangedSpectra drawn.1) : Run (KoopmansSpectra R))) := by
  simp only [koopmansSpectra, preparedSectors, bind_assoc]
  refine bind_congr fun _ => bind_congr fun _ => bind_congr fun _ => bind_congr fun _ => bind_congr fun _ =>
    bind_congr fun _ => bind_congr fun _ => bind_congr fun _ => bind_congr fun drawn => ?_
  rcases drawn with ⟨_ | ⟨alpha, _ | ⟨beta, rest⟩⟩, final⟩ <;> rfl

theorem koopmans_outcome [Build] (valid : p.validate = .ok ()) :
    (koopmansSpectra solver source p entropy).outcome = (preparedSectors source p).outcome >>= fun sectors =>
      (sectorSpectra solver p.samples p.cutoff sectors (p.stream entropy)).outcome >>= fun drawn =>
        arrangedSpectra drawn.1 := by
  rw [koopmans_parts, valid]
  simp only [Run.bind_outcome]
  rfl

theorem koopmans_central [Build] (valid : p.validate = .ok ()) :
    (koopmansSpectra solver source p entropy).outcome.map KoopmansSpectra.withoutErrors =
      centralSpectra solver source p := by
  have some : 1 ≤ p.samples := Nat.le_of_succ_le (validate_samples valid)
  rw [koopmans_outcome solver source p entropy valid, centralSpectra]
  cases (preparedSectors source p).outcome with
  | error e => rfl
  | ok sectors =>
      have decided := (sector_spectra_decides solver sectors some p.cutoff).outcome (p.stream entropy)
      change Except.map _ ((sectorSpectra solver p.samples p.cutoff sectors (p.stream entropy)).outcome >>= _) =
        (sectors.mapM fun sector => sector.central solver p.samples p.cutoff) >>= _
      rw [← decided]
      cases (sectorSpectra solver p.samples p.cutoff sectors (p.stream entropy)).outcome with
      | error e => rfl
      | ok drawn => exact arranged_without_errors drawn.1

variable {solver source p entropy} in
theorem koopmans_returned [Build] {result : KoopmansSpectra R}
    (returned : (koopmansSpectra solver source p entropy).Returns result) :
    p.validate = .ok () ∧ (∃ sectors, (preparedSectors source p).Returns sectors ∧ sectors ≠ []) ∧
      centralSpectra solver source p = .ok result.withoutErrors := by
  have steps := returned
  rw [koopmans_parts, Run.bind_returns] at steps
  obtain ⟨_, checked, rest⟩ := steps
  obtain ⟨sectors, prepared, _⟩ := (Run.bind_returns _ _ _).mp rest
  have valid := (Run.lift_reporting_returns _ _).mp checked
  have found : centralSpectra solver source p = .ok result.withoutErrors := by
    rw [← koopmans_central solver source p entropy valid, returned]
    rfl
  refine ⟨valid, ⟨sectors, prepared, ?_⟩, found⟩
  rintro rfl
  rw [central_of_prepared solver prepared] at found
  cases found

theorem koopmans_returns_of_central [Build] (valid : p.validate = .ok ()) {central : KoopmansSpectra R}
    (ok : centralSpectra solver source p = .ok central) :
    ∃ result, (koopmansSpectra solver source p entropy).Returns result := by
  have outcome := (koopmans_central solver source p entropy valid).trans ok
  obtain ⟨result, returned, _⟩ := (except_map_ok_iff _ _ _).mp outcome
  exact ⟨result, returned⟩

theorem occupations_central [Build] (valid : p.validate = .ok ()) :
    (naturalOccupations solver source p entropy).outcome.map Occupations.values =
      centralOccupations solver source p := by
  have start : (liftM (reporting p.validate) : Run Unit) = pure () := by rw [valid]; rfl
  simp only [naturalOccupations, start, pure_bind, Run.bind_outcome, centralOccupations]
  cases (averageDensity source p.selection).outcome with
  | error e => rfl
  | ok density =>
      have decided := (occupations_of_decides solver density.mean density.error (validate_samples valid)
        p.screenFactor p.cutoff).outcome (p.stream entropy)
      change Except.map _ ((occupationsOf solver density.mean density.error p.samples p.screenFactor p.cutoff
        (p.stream entropy)).outcome >>= _) = occupationValues _ _ _ _ _ _
      rw [← decided]
      cases (occupationsOf solver density.mean density.error p.samples p.screenFactor p.cutoff
        (p.stream entropy)).outcome <;> rfl

end Outcomes

section Samples

variable {α β : Type} {count other : Nat}

-- One and the same result, unless there was no room for a list of so many samples.
def AgreeWithRoom (count other : Nat) (x y : Except Failure α) : Prop :=
  x = y ∨ (2 ^ 58 ≤ count ∧ x = .error .capacity) ∨ (2 ^ 58 ≤ other ∧ y = .error .capacity)

theorem same_agree (x : Except Failure α) : AgreeWithRoom count other x x := .inl rfl

theorem bind_agree {x y : Except Failure α} {f g : α → Except Failure β} (first : AgreeWithRoom count other x y)
    (rest : ∀ a, AgreeWithRoom count other (f a) (g a)) : AgreeWithRoom count other (x >>= f) (y >>= g) := by
  rcases first with rfl | ⟨full, rfl⟩ | ⟨full, rfl⟩
  · cases x with
    | error e => exact same_agree _
    | ok a => exact rest a
  · exact .inr (.inl ⟨full, rfl⟩)
  · exact .inr (.inr ⟨full, rfl⟩)

theorem map_m_agree {ι : Type} {f g : ι → Except Failure α} (each : ∀ x, AgreeWithRoom count other (f x) (g x))
    (xs : List ι) : AgreeWithRoom count other (xs.mapM f) (xs.mapM g) := by
  induction xs with
  | nil => exact same_agree _
  | cons x rest ih =>
      rw [List.mapM_cons, List.mapM_cons]
      exact bind_agree (each x) fun _ => bind_agree ih fun _ => same_agree _

theorem samples_fit (n : Nat) : fitsMemory n vectorSize = true ↔ n < 2 ^ 58 := by
  have limit : addressLimit = 2 ^ 58 * 32 := by decide
  simp only [fitsMemory, vectorSize, limit, decide_eq_true_eq]
  omega

theorem require_room_samples (n : Nat) :
    requireRoom n vectorSize = if n < 2 ^ 58 then .ok () else .error .capacity := by
  simp only [requireRoom, samples_fit]

theorem room_agree : AgreeWithRoom count other (requireRoom count vectorSize) (requireRoom other vectorSize) := by
  rw [require_room_samples, require_room_samples]
  by_cases first : count < 2 ^ 58
  · by_cases second : other < 2 ^ 58
    · rw [if_pos first, if_pos second]
      exact same_agree _
    · rw [if_neg second]
      exact .inr (.inr ⟨Nat.not_lt.mp second, rfl⟩)
  · rw [if_neg first]
    exact .inr (.inl ⟨Nat.not_lt.mp first, rfl⟩)

variable (solver : EigenSolver R) (source : Source R) (p : Params R) (samples : Nat) (seed : Option UInt64)

theorem central_spectra_agree [Build] : AgreeWithRoom p.samples samples (centralSpectra solver source p)
    (centralSpectra solver source { p with samples, seed }) :=
  bind_agree (same_agree _) fun sectors => bind_agree (map_m_agree (fun _ => bind_agree (same_agree _) fun _ =>
    bind_agree (same_agree _) fun _ => bind_agree room_agree fun _ => same_agree _) sectors) fun _ => same_agree _

theorem central_occupations_agree [Build] : AgreeWithRoom p.samples samples (centralOccupations solver source p)
    (centralOccupations solver source { p with samples, seed }) :=
  bind_agree (same_agree _) fun _ => bind_agree (same_agree _) fun _ => bind_agree (same_agree _) fun _ =>
    bind_agree (same_agree _) fun _ => bind_agree room_agree fun _ => same_agree _

end Samples

section Avoidance

variable {bad : Failure → Prop} [Tame bad]

theorem sample_verdict_avoids (m : Mat (Cplx R)) (error : Mat R) : Avoids bad (sampleVerdict m error) := by
  unfold sampleVerdict
  split
  · exact error_avoids (Tame.mismatch _ _ _)
  · split
    · exact error_avoids (Tame.draw _ _)
    · exact ok_avoids ()

theorem sector_verdict_avoids (sector : SectorAverages R) : Avoids bad sector.verdict :=
  bind_avoids (sample_verdict_avoids _ _) fun _ => bind_avoids (sample_verdict_avoids _ _) fun _ =>
    sample_verdict_avoids _ _

variable (solver : EigenSolver R)

theorem sector_central_avoids (sector : SectorAverages R) (samples : Nat) (cutoff : R) :
    Avoids bad (sector.central solver samples cutoff) :=
  bind_avoids (projected_energies_avoids solver _ _ cutoff) fun _ =>
    bind_avoids (attachment_energies_avoids solver _ _ cutoff) fun _ =>
    bind_avoids (room_avoids samples vectorSize) fun _ => bind_avoids (sector_verdict_avoids sector) fun _ =>
    ok_avoids _

theorem occupation_values_avoids (p : SpinTensor (Cplx R)) (error : SpinTensor R) (samples : Nat)
    (screenFactor cutoff : R) : Avoids bad (occupationValues solver p error samples screenFactor cutoff) :=
  bind_avoids (spin_summed_avoids _ _) fun _ => bind_avoids (reporting_avoids (screen_matrix_avoids _ _ _)) fun _ =>
    bind_avoids (regularise_avoids solver _ _) fun _ => bind_avoids (room_avoids _ _) fun _ =>
    bind_avoids (sample_verdict_avoids _ _) fun _ => bind_avoids (reporting_avoids (eigenvalues_avoids solver _)) fun _ =>
    ok_avoids _

variable {source : Source R} {p : Params R} (spares : source.SparesTensors p.selection bad)

include spares

theorem prepared_sectors_avoids [Build] : Avoids bad (preparedSectors source p).outcome :=
  bind_outcome_avoids (average_density_avoids spares) fun density =>
    bind_outcome_avoids (average_fock_avoids spares .plus) fun addition =>
    bind_outcome_avoids (average_fock_avoids spares .minus) fun removal =>
    bind_outcome_avoids (reporting_avoids (screened_avoids _ density)) fun _ =>
    bind_outcome_avoids (reporting_avoids (screened_avoids _ removal)) fun _ =>
    bind_outcome_avoids (reporting_avoids (screened_avoids _ addition)) fun _ => sector_averages_avoids _ _ _

theorem central_spectra_spared [Build] : Avoids bad (centralSpectra solver source p) :=
  bind_avoids (prepared_sectors_avoids spares) fun sectors =>
    bind_avoids (map_m_avoids (fun sector => sector_central_avoids solver sector p.samples p.cutoff) sectors)
      arranged_avoids

theorem central_occupations_spared [Build] : Avoids bad (centralOccupations solver source p) :=
  bind_avoids (average_density_avoids spares) fun _ => occupation_values_avoids solver _ _ _ _ _

end Avoidance

section Steady

variable {source : Source R} (steady : source.Steady) (solver : EigenSolver R) (p : Params R)

include steady

theorem central_spectra_avoids [Build] : Avoids Failure.Unstable (centralSpectra solver source p) :=
  central_spectra_spared solver (steady.spares p.selection)

theorem central_occupations_avoids [Build] : Avoids Failure.Unstable (centralOccupations solver source p) :=
  central_occupations_spared solver (steady.spares p.selection)

end Steady

theorem unvalidated_avoids {α : Type} {f : Unit → Run α} {p : Params R} {e : AnalysisError}
    (failed : p.validate = .error e) :
    Avoids Failure.Unstable ((liftM (reporting p.validate) : Run Unit) >>= f).outcome := by
  obtain ⟨fault, rfl⟩ := validate_fault failed
  rw [failed]
  exact error_avoids id

theorem sector_spectrum_unstable [NormalStream σ R] {solver : EigenSolver R} {sector : SectorAverages R} {samples : Nat}
    {cutoff : R} {state : σ} {ionization attachment : List R} {accepted requested : Nat} (some : 1 ≤ samples)
    (ionizationOk : ionizationEnergies solver sector.density sector.removal cutoff = .ok ionization)
    (attachmentOk : attachmentEnergies solver sector.density sector.addition cutoff = .ok attachment)
    (unstable : (estimateErrors solver sector ionization.length attachment.length samples cutoff state).outcome =
      .error (.reported (bootstrapUnstable accepted requested))) :
    ∃ next, (sectorSpectrum solver sector samples cutoff).Yields state ⟨ionization, attachment, none⟩ next := by
  obtain ⟨square, ionizationInside, attachmentInside⟩ := central_square ionizationOk attachmentOk
  have decided := sector_samples_decides (σ := σ) solver square ionizationInside attachmentInside some cutoff
  change (sectorSamples solver sector ionization.length attachment.length samples cutoff state >>= fun drawn =>
    (liftM (errorsOfSamples drawn.1 samples) : Sampling σ (EnergyErrors R)) drawn.2).outcome = _ at unstable
  cases verdict : requireRoom samples vectorSize >>= fun _ => sector.verdict with
  | error e =>
      rw [Run.bind_error _ (decided.fails e verdict state)] at unstable
      cases unstable
      have avoids : Avoids Failure.Unstable (requireRoom samples vectorSize >>= fun _ => sector.verdict) :=
        bind_avoids (room_avoids samples vectorSize) fun _ => sector_verdict_avoids sector
      exact absurd trivial (avoids _ verdict)
  | ok _ =>
      obtain ⟨drawn, next, yields, _⟩ := decided.gives _ verdict state
      rw [Run.bind_ok _ yields] at unstable
      have few : (errorsOfSamples drawn samples).outcome =
          .error (.reported (bootstrapUnstable accepted requested)) := by
        cases held : (errorsOfSamples drawn samples).outcome with
        | ok errors =>
            have returned := (run_yields _ next errors next).mpr ⟨held, rfl⟩
            cases returned.symm.trans unstable
        | error e =>
            have failed : ((liftM (errorsOfSamples drawn samples) : Sampling σ (EnergyErrors R)) next).outcome =
                .error e := congrArg Run.outcome (Run.bind_error _ held)
            cases failed.symm.trans unstable
            rfl
      refine ⟨next, ?_⟩
      simp only [sectorSpectrum, errorsOrWarning, bind_yields, except_yields, run_yields, pure_yields]
      exact ⟨ionization, state, ⟨ionizationOk, rfl⟩, attachment, state, ⟨attachmentOk, rfl⟩, none, next,
        ⟨drawn, next, yields, errors_or_none_unstable few, rfl⟩, rfl, rfl⟩

theorem central_results_without_draws [Build] [NormalStream σ R] (solver : EigenSolver R) (source : Source R) :
    (∀ (p : Params R) (samples : Nat) (seed : Option UInt64) (entropy other : σ), p.validate = .ok () →
      ({ p with samples, seed } : Params R).validate = .ok () →
      AgreeWithRoom p.samples samples
        ((koopmansSpectra solver source p entropy).outcome.map KoopmansSpectra.withoutErrors)
        ((koopmansSpectra solver source { p with samples, seed } other).outcome.map KoopmansSpectra.withoutErrors) ∧
      AgreeWithRoom p.samples samples ((naturalOccupations solver source p entropy).outcome.map Occupations.values)
        ((naturalOccupations solver source { p with samples, seed } other).outcome.map Occupations.values)) ∧
    (source.Steady → ∀ (p : Params R) (entropy : σ),
      Avoids Failure.Unstable (koopmansSpectra solver source p entropy).outcome ∧
      Avoids Failure.Unstable (naturalOccupations solver source p entropy).outcome) ∧
    ∀ (sector : SectorAverages R) (samples : Nat) (cutoff : R) (state : σ) (ionization attachment : List R)
      (accepted requested : Nat), 1 ≤ samples →
      ionizationEnergies solver sector.density sector.removal cutoff = .ok ionization →
      attachmentEnergies solver sector.density sector.addition cutoff = .ok attachment →
      (estimateErrors solver sector ionization.length attachment.length samples cutoff state).outcome =
        .error (.reported (bootstrapUnstable accepted requested)) →
      ∃ next, (sectorSpectrum solver sector samples cutoff).Yields state ⟨ionization, attachment, none⟩ next := by
  refine ⟨?_, ?_, ?_⟩
  · intro p samples seed entropy other valid otherValid
    rw [koopmans_central solver source p entropy valid, koopmans_central solver source _ other otherValid,
      occupations_central solver source p entropy valid, occupations_central solver source _ other otherValid]
    exact ⟨central_spectra_agree solver source p samples seed, central_occupations_agree solver source p samples seed⟩
  · intro steady p entropy
    cases valid : p.validate with
    | error e => exact ⟨unvalidated_avoids valid, unvalidated_avoids valid⟩
    | ok _ =>
        rw [← map_avoids_iff _ KoopmansSpectra.withoutErrors, ← map_avoids_iff _ Occupations.values,
          koopmans_central solver source p entropy valid, occupations_central solver source p entropy valid]
        exact ⟨central_spectra_avoids steady solver p, central_occupations_avoids steady solver p⟩
  · intro sector samples cutoff state ionization attachment accepted requested some ionizationOk attachmentOk unstable
    exact sector_spectrum_unstable some ionizationOk attachmentOk unstable

local instance : Scalar ℚ := rationalScalar

local instance : NormalStream Nat ℚ := alternatingStream

-- The alpha bootstrap is unstable with two samples; the second run takes three and has no seed.
theorem central_results_without_draws_unstable :
    (∃ first second : KoopmansSpectra ℚ,
      (koopmansSpectra pointSolver (pointStore (-1) 2).source pointParams 0).Returns first ∧
      (koopmansSpectra pointSolver (pointStore (-1) 2).source { pointParams with samples := 3, seed := none } 5).Returns
        second ∧ first.withoutErrors = second.withoutErrors) ∧
    Avoids Failure.Unstable (naturalOccupations pointSolver (pointStore (-1) 2).source pointParams 0).outcome ∧
    ∃ next, (sectorSpectrum pointSolver ((pointStore (-1) 2).sector pointParams 0) 2 0).Yields (7 : Nat)
      ⟨[1 / 2], [1 / 2], none⟩ next := by
  obtain ⟨agree, steady, unstable⟩ := central_results_without_draws (σ := Nat) pointSolver (pointStore (-1) 2).source
  refine ⟨?_, (steady (store_steady _) pointParams 0).2, ?_⟩
  · obtain ⟨first, firstReturns⟩ := Run.returns_of_ok
      (x := koopmansSpectra pointSolver (pointStore (-1) 2).source pointParams 0) (by decide +kernel)
    obtain ⟨second, secondReturns⟩ := Run.returns_of_ok
      (x := koopmansSpectra pointSolver (pointStore (-1) 2).source { pointParams with samples := 3, seed := none } 5)
      (by decide +kernel)
    have same := (agree pointParams 3 none 0 5 (by decide +kernel) (by decide +kernel)).1
    rw [firstReturns, secondReturns] at same
    rcases same with same | ⟨full, _⟩ | ⟨full, _⟩
    · exact ⟨first, second, firstReturns, secondReturns, Except.ok.inj same⟩
    · exact absurd full (by decide)
    · exact absurd full (by decide)
  · refine unstable _ 2 0 7 [1 / 2] [1 / 2] 1 2 (by decide) (by decide +kernel) (by decide +kernel) ?_
    rw [← except_map_error_iff _ fun _ => ()]
    decide +kernel

def halfStore : Store ℚ :=
  Store.ofHistory ⟨1, 1, false⟩
    [⟨"one_rdm", .mixed, 0, [#[⟨1 / 2, 0⟩]]⟩, ⟨"gen_fock_plus", .mixed, 0, [#[⟨1 / 2, 0⟩]]⟩,
      ⟨"gen_fock_minus", .mixed, 0, [#[⟨1 / 2, 0⟩]]⟩]

-- There is a result with two samples, and no room for a list of 2 ^ 62.
theorem central_results_without_room :
    pointParams.validate = .ok () ∧ ({ pointParams with samples := 2 ^ 62 } : Params ℚ).validate = .ok () ∧
    (koopmansSpectra pointSolver halfStore.source pointParams 0).outcome.isOk = true ∧
    (koopmansSpectra pointSolver halfStore.source { pointParams with samples := 2 ^ 62 } 0).outcome =
      .error .capacity := by
  refine ⟨by decide +kernel, by decide +kernel, by decide +kernel, ?_⟩
  rw [← except_map_error_iff _ fun _ => ()]
  decide +kernel

end OrbitalSpectra
