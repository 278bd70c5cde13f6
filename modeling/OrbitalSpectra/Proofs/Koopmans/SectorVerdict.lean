import OrbitalSpectra.Proofs.Bootstrap.Verdicts
import OrbitalSpectra.Proofs.RankedWhitening

set_option autoImplicit false

namespace OrbitalSpectra

open AnalysisError Sampling

variable {σ R : Type} [Scalar R]

-- Energies of a sample, at the given numbers of them, where there are any.
structure SectorSample.Counts (ionizationRank attachmentRank : Nat) (sample : SectorSample R) : Prop where
  ionization : ∀ energies ∈ sample.ionization, energies.length = ionizationRank
  attachment : ∀ energies ∈ sample.attachment, energies.length = attachmentRank

def SectorAverages.verdict (sector : SectorAverages R) : Except Failure Unit := do
  sampleVerdict sector.density sector.densityError
  sampleVerdict sector.removal sector.removalError
  sampleVerdict sector.addition sector.additionError

structure SectorAverages.Square (sector : SectorAverages R) (n : Nat) : Prop where
  density : sector.density.shape = (n, n)
  removal : sector.removal.shape = (n, n)
  addition : sector.addition.shape = (n, n)

section Energies

variable {solver : EigenSolver R} {gamma fock : Mat (Cplx R)} {n rank : Nat}

-- More eigenvectors than there are.
def rankVerdict (rank n : Nat) : Except Failure Unit :=
  if n < rank then .error (.reported (shapeMismatch "orthogonaliser rank" rank n)) else .ok ()

-- The rank alone decides whether square matrices have energies.
structure RankDecides (x : Except Failure (Option (List R))) (rank n : Nat) : Prop where
  fails : ∀ e, rankVerdict rank n = .error e → x = .error e
  gives : rankVerdict rank n = .ok () → ∃ held, x = .ok held ∧ ∀ energies ∈ held, energies.length = rank

theorem rank_decides (solver : EigenSolver R) (square : gamma.shape = (n, n)) (same : fock.shape = (n, n)) (rank : Nat)
    (cutoff : R) : RankDecides (projectedEnergiesWithRank solver gamma fock rank cutoff) rank n := by
  by_cases outside : n < rank
  · obtain ⟨e, solved, length, _⟩ := eigh_square solver square
    have shapes : requireSameShape gamma fock = .ok () := if_pos (same.trans square.symm)
    have failed : projectedEnergiesWithRank solver gamma fock rank cutoff =
        .error (.reported (shapeMismatch "orthogonaliser rank" rank n)) := by
      rw [projectedEnergiesWithRank, shapes]
      change (reporting (whitenWithRank solver gamma rank cutoff) >>= _) = _
      rw [whiten_with_rank_outside solved (length.symm ▸ outside), length]
      rfl
    rw [failed]
    constructor <;> simp [rankVerdict, outside]
  · have inside : rankVerdict rank n = .ok () := if_neg outside
    constructor
    · intro e failed
      cases inside.symm.trans failed
    · intro _
      exact projected_energies_with_rank_count solver square same (Nat.not_lt.mp outside) cutoff

omit [Scalar R] in
theorem rank_bind_decides {α : Type} {x : Except Failure (Option (List R))} {f : Option (List R) → Sampling σ α}
    {verdict : Except Failure Unit} {kind : Unit → α → Prop} (decided : RankDecides x rank n)
    (rest : ∀ held, (∀ energies ∈ held, energies.length = rank) → Decides (f held) verdict kind) :
    Decides ((liftM x : Sampling σ (Option (List R))) >>= f) (rankVerdict rank n >>= fun _ => verdict) kind := by
  cases ranked : rankVerdict rank n with
  | error e =>
      rw [decided.fails e ranked]
      refine ⟨?_, by rintro _ ⟨⟩⟩
      rintro _ ⟨⟩ state
      rfl
  | ok _ =>
      obtain ⟨held, ok, counts⟩ := decided.gives ranked
      exact sure_bind_decides ok (rest held counts)

end Energies

section Samples

variable [NormalStream σ R] (solver : EigenSolver R) {sector : SectorAverages R} {n ionizationRank attachmentRank : Nat}

def SectorAverages.rankedVerdict (sector : SectorAverages R) (n ionizationRank attachmentRank : Nat) :
    Except Failure Unit := do
  sector.verdict
  rankVerdict ionizationRank n
  rankVerdict attachmentRank n

theorem sample_sector_ranked (square : sector.Square n) (ionizationRank attachmentRank : Nat) (cutoff : R) :
    Decides (σ := σ) (sampleSector solver sector ionizationRank attachmentRank cutoff)
      (sector.rankedVerdict n ionizationRank attachmentRank) fun _ sample =>
        sample.Counts ionizationRank attachmentRank := by
  have rows {m : Mat (Cplx R)} (shape : m.shape = (n, n)) : m.rows = n := (Prod.mk.inj shape).1
  rw [SectorAverages.rankedVerdict, SectorAverages.verdict, bind_assoc]
  refine bind_decides (sample_matrix_decides _ _) fun _ density _ densityShape => ?_
  rw [bind_assoc]
  refine bind_decides (sample_matrix_decides _ _) fun _ removal _ removalShape => ?_
  refine bind_decides (sample_matrix_decides _ _) fun _ addition _ additionShape => ?_
  rw [rows square.density] at densityShape
  rw [rows square.removal] at removalShape
  rw [rows square.addition] at additionShape
  refine rank_bind_decides (rank_decides solver densityShape removalShape ionizationRank cutoff) fun ionization counts => ?_
  obtain ⟨hole, holeOk, holeShape⟩ := hole_density_square densityShape
  refine sure_bind_decides holeOk ?_
  have last : Decides (σ := σ) ((liftM (projectedEnergiesWithRank solver hole addition attachmentRank cutoff)) >>=
      fun attachment => pure (SectorSample.mk ionization attachment)) (rankVerdict attachmentRank n >>= fun _ => .ok ())
      (fun _ sample => sample.Counts ionizationRank attachmentRank) :=
    rank_bind_decides (rank_decides solver holeShape additionShape attachmentRank cutoff) fun _ others =>
      pure_decides ⟨counts, others⟩
  rwa [show (rankVerdict attachmentRank n >>= fun _ => .ok ()) = rankVerdict attachmentRank n from bind_pure _] at last

theorem sample_sector_decides (square : sector.Square n) (ionizationInside : ionizationRank ≤ n)
    (attachmentInside : attachmentRank ≤ n) (cutoff : R) :
    Decides (σ := σ) (sampleSector solver sector ionizationRank attachmentRank cutoff) sector.verdict fun _ sample =>
      sample.Counts ionizationRank attachmentRank := by
  have ranked := sample_sector_ranked (σ := σ) solver square ionizationRank attachmentRank cutoff
  rw [SectorAverages.rankedVerdict, rankVerdict, if_neg (Nat.not_lt.mpr ionizationInside), rankVerdict,
    if_neg (Nat.not_lt.mpr attachmentInside)] at ranked
  rwa [show (sector.verdict >>= fun _ => .ok () >>= fun _ => .ok ()) = sector.verdict from bind_pure _] at ranked

theorem sector_samples_decides (square : sector.Square n) (ionizationInside : ionizationRank ≤ n)
    (attachmentInside : attachmentRank ≤ n) {samples : Nat} (some : 1 ≤ samples) (cutoff : R) :
    Decides (σ := σ) (sectorSamples solver sector ionizationRank attachmentRank samples cutoff)
      (requireRoom samples vectorSize >>= fun _ => sector.verdict) fun _ drawn =>
        ∀ sample ∈ drawn, sample.Counts ionizationRank attachmentRank :=
  (collect_decides (sample_sector_decides solver square ionizationInside attachmentInside cutoff) some).mono
    fun _ _ counts => counts.2

end Samples

def acceptedSamples (drawn : List (SectorSample R)) : Nat :=
  min (drawn.filterMap SectorSample.ionization).length (drawn.filterMap SectorSample.attachment).length

theorem errors_of_samples_outcome (drawn : List (SectorSample R)) (samples : Nat) :
    (errorsOfSamples drawn samples).outcome =
      if acceptedSamples drawn < 2 then .error (.reported (bootstrapUnstable (acceptedSamples drawn) samples))
      else do return ⟨← sampleDeviation (drawn.filterMap SectorSample.ionization),
        ← sampleDeviation (drawn.filterMap SectorSample.attachment)⟩ := by
  have noted : (errorsOfSamples drawn samples).outcome =
      (if acceptedSamples drawn < 2 then throw (.reported (bootstrapUnstable (acceptedSamples drawn) samples))
      else do return ⟨← sampleDeviation (drawn.filterMap SectorSample.ionization),
        ← sampleDeviation (drawn.filterMap SectorSample.attachment)⟩ : Run (EnergyErrors R)).outcome := by
    dsimp only [errorsOfSamples]
    split <;> rfl
  rw [noted]
  split
  · rfl
  · cases sampleDeviation (drawn.filterMap SectorSample.ionization) with
    | error e => rfl
    | ok ionization => cases sampleDeviation (drawn.filterMap SectorSample.attachment) <;> rfl

theorem errors_of_samples_returns_iff (drawn : List (SectorSample R)) (samples : Nat) (errors : EnergyErrors R) :
    (errorsOfSamples drawn samples).Returns errors ↔ 2 ≤ acceptedSamples drawn ∧
      sampleDeviation (drawn.filterMap SectorSample.ionization) = .ok errors.ionization ∧
      sampleDeviation (drawn.filterMap SectorSample.attachment) = .ok errors.attachment := by
  rw [Run.Returns, errors_of_samples_outcome]
  by_cases few : acceptedSamples drawn < 2
  · rw [if_pos few]
    exact iff_of_false nofun fun held => Nat.not_lt.mpr held.1 few
  · rw [if_neg few]
    simp only [except_bind_ok_iff]
    constructor
    · rintro ⟨ionization, ionizationOk, attachment, attachmentOk, made⟩
      cases Except.ok.inj made
      exact ⟨Nat.not_lt.mp few, ionizationOk, attachmentOk⟩
    · rintro ⟨_, ionizationOk, attachmentOk⟩
      exact ⟨_, ionizationOk, _, attachmentOk, rfl⟩

theorem errors_of_samples_returns {drawn : List (SectorSample R)} {ionizationRank attachmentRank : Nat}
    (counts : ∀ sample ∈ drawn, sample.Counts ionizationRank attachmentRank) (samples : Nat)
    (accepted : ¬ acceptedSamples drawn < 2) : ∃ errors, (errorsOfSamples drawn samples).Returns errors := by
  obtain ⟨ionization, ionizationOk⟩ := sample_deviation_returns
    (List.forall_mem_filterMap.mpr fun sample listed => (counts sample listed).ionization)
  obtain ⟨attachment, attachmentOk⟩ := sample_deviation_returns
    (List.forall_mem_filterMap.mpr fun sample listed => (counts sample listed).attachment)
  exact ⟨⟨ionization, attachment⟩,
    (errors_of_samples_returns_iff _ _ _).mpr ⟨Nat.not_lt.mp accepted, ionizationOk, attachmentOk⟩⟩

theorem errors_or_none_unstable {drawn : List (SectorSample R)} {samples accepted requested : Nat}
    (unstable : (errorsOfSamples drawn samples).outcome = .error (.reported (bootstrapUnstable accepted requested))) :
    (errorsOrNone drawn samples).Returns none := by
  have failed : (some <$> errorsOfSamples drawn samples).outcome =
      .error (.reported (bootstrapUnstable accepted requested)) := by
    rw [Run.map_outcome, unstable]
    rfl
  rw [errorsOrNone, Run.Returns, Run.try_error _ failed]
  rfl

theorem errors_or_none_found {drawn : List (SectorSample R)} {samples : Nat} {errors : EnergyErrors R}
    (returned : (errorsOfSamples drawn samples).Returns errors) : (errorsOrNone drawn samples).Returns (some errors) := by
  have found : (some <$> errorsOfSamples drawn samples).outcome = .ok (some errors) := by
    rw [Run.map_outcome, returned]
    rfl
  rw [errorsOrNone, Run.Returns, Run.try_ok _ found, found]

theorem errors_or_none_returns {drawn : List (SectorSample R)} {ionizationRank attachmentRank : Nat}
    (counts : ∀ sample ∈ drawn, sample.Counts ionizationRank attachmentRank) (samples : Nat) :
    ∃ errors, (errorsOrNone drawn samples).Returns errors := by
  by_cases few : acceptedSamples drawn < 2
  · have unstable := errors_of_samples_outcome drawn samples
    rw [if_pos few] at unstable
    exact ⟨none, errors_or_none_unstable unstable⟩
  · obtain ⟨errors, returned⟩ := errors_of_samples_returns counts samples few
    exact ⟨some errors, errors_or_none_found returned⟩

theorem errors_or_warning_decides [NormalStream σ R] (solver : EigenSolver R) {sector : SectorAverages R}
    {n ionizationRank attachmentRank samples : Nat} (square : sector.Square n) (ionizationInside : ionizationRank ≤ n)
    (attachmentInside : attachmentRank ≤ n) (some : 1 ≤ samples) (cutoff : R) :
    Decides (σ := σ) (errorsOrWarning solver sector ionizationRank attachmentRank samples cutoff)
      (requireRoom samples vectorSize >>= fun _ => sector.verdict) fun _ _ => True := by
  rw [← bind_pure (requireRoom samples vectorSize >>= fun _ => sector.verdict)]
  refine bind_decides (sector_samples_decides solver square ionizationInside attachmentInside some cutoff)
    fun _ drawn _ counts => ?_
  obtain ⟨errors, returned⟩ := errors_or_none_returns counts samples
  exact returned_decides returned trivial

def Spectrum.withoutErrors (spectrum : Spectrum R) : Spectrum R := { spectrum with errors := none }

def SectorAverages.central (solver : EigenSolver R) (sector : SectorAverages R) (samples : Nat) (cutoff : R) :
    Except Failure (Spectrum R) := do
  let ionization ← ionizationEnergies solver sector.density sector.removal cutoff
  let attachment ← attachmentEnergies solver sector.density sector.addition cutoff
  requireRoom samples vectorSize
  sector.verdict
  return ⟨ionization, attachment, none⟩

theorem central_square {solver : EigenSolver R} {sector : SectorAverages R} {cutoff : R} {ionization attachment : List R}
    (ionizationOk : ionizationEnergies solver sector.density sector.removal cutoff = .ok ionization)
    (attachmentOk : attachmentEnergies solver sector.density sector.addition cutoff = .ok attachment) :
    sector.Square sector.density.rows ∧ ionization.length ≤ sector.density.rows ∧
      attachment.length ≤ sector.density.rows := by
  obtain ⟨density, removal, ionizationInside⟩ := projected_energies_shapes solver ionizationOk
  simp only [attachmentEnergies, except_bind_ok_iff] at attachmentOk
  obtain ⟨hole, made, attachmentOk⟩ := attachmentOk
  obtain ⟨_, again, shape⟩ := hole_density_square density
  cases Except.ok.inj (made.symm.trans again)
  obtain ⟨rows, _⟩ := Prod.mk.inj shape
  obtain ⟨_, addition, attachmentInside⟩ := projected_energies_shapes solver attachmentOk
  rw [rows] at addition attachmentInside
  exact ⟨⟨density, removal, addition⟩, ionizationInside, attachmentInside⟩

theorem sector_spectrum_decides [NormalStream σ R] (solver : EigenSolver R) (sector : SectorAverages R) {samples : Nat}
    (some : 1 ≤ samples) (cutoff : R) :
    Decides (σ := σ) (sectorSpectrum solver sector samples cutoff) (sector.central solver samples cutoff)
      fun central spectrum => spectrum.withoutErrors = central := by
  refine except_bind_decides fun ionization ionizationOk => except_bind_decides fun attachment attachmentOk => ?_
  obtain ⟨square, ionizationInside, attachmentInside⟩ := central_square ionizationOk attachmentOk
  have drawn : Decides (σ := σ) (errorsOrWarning solver sector ionization.length attachment.length samples cutoff >>=
      fun errors => pure (Spectrum.mk ionization attachment errors))
      ((requireRoom samples vectorSize >>= fun _ => sector.verdict) >>= fun _ => .ok ⟨ionization, attachment, none⟩)
      (fun central spectrum => spectrum.withoutErrors = central) :=
    bind_decides (errors_or_warning_decides solver square ionizationInside attachmentInside some cutoff)
      fun _ _ _ _ => pure_decides rfl
  rwa [bind_assoc] at drawn

theorem sector_spectra_decides [NormalStream σ R] (solver : EigenSolver R) (sectors : List (SectorAverages R))
    {samples : Nat} (some : 1 ≤ samples) (cutoff : R) :
    Decides (σ := σ) (sectorSpectra solver samples cutoff sectors)
      (sectors.mapM fun sector => sector.central solver samples cutoff)
      fun central spectra => spectra.map Spectrum.withoutErrors = central := by
  induction sectors with
  | nil => exact pure_decides rfl
  | cons sector rest ih =>
      rw [List.mapM_cons]
      refine bind_decides (sector_spectrum_decides solver sector some cutoff) fun _ first _ firstSame =>
        bind_decides ih fun _ others _ othersSame => pure_decides ?_
      rw [List.map_cons, firstSame, othersSame]

end OrbitalSpectra
