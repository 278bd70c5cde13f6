import OrbitalSpectra.Eigen.ShiftedSweeps
import OrbitalSpectra.Proofs.Bootstrap.Refusals
import OrbitalSpectra.Proofs.Koopmans.SampleDraws

set_option autoImplicit false

namespace OrbitalSpectra

open AnalysisError Sampling

variable {σ R : Type} [Scalar R]

section Samples

variable [NormalStream σ R] {sector : SectorAverages R} {n : Nat}

theorem undrawable_verdict (fits : sector.Fits n) (undrawable : ¬ sector.Drawable n) :
    ∃ i j, sector.verdict = .error (.reported (perturbation i j)) := by
  rw [SectorAverages.verdict]
  rcases sector.densityError.drawable_or_refused n with density | ⟨i, j, first⟩
  · rw [sample_verdict_drawable fits.density fits.densityError density]
    rcases sector.removalError.drawable_or_refused n with removal | ⟨i, j, first⟩
    · rw [sample_verdict_drawable fits.removal fits.removalError removal]
      rcases sector.additionError.drawable_or_refused n with addition | ⟨i, j, first⟩
      · exact absurd ⟨density, removal, addition⟩ undrawable
      · rw [sample_verdict_refused fits.addition fits.additionError first]
        exact ⟨i, j, rfl⟩
    · rw [sample_verdict_refused fits.removal fits.removalError first]
      exact ⟨i, j, rfl⟩
  · rw [sample_verdict_refused fits.density fits.densityError first]
    exact ⟨i, j, rfl⟩

variable {solver : EigenSolver R} {ionizationRank attachmentRank samples : Nat} {cutoff : R}

theorem ranked_verdict_drawable (fits : sector.Fits n) (drawable : sector.Drawable n) :
    sector.rankedVerdict n ionizationRank attachmentRank = (do
      rankVerdict ionizationRank n
      rankVerdict attachmentRank n) := by
  rw [SectorAverages.rankedVerdict, drawable_verdict fits drawable]
  rfl

theorem ranked_verdict_unperturbed (fits : sector.Fits n) (drawable : sector.Drawable n) (i j : Nat) :
    sector.rankedVerdict n ionizationRank attachmentRank ≠ .error (.reported (perturbation i j)) := by
  rw [ranked_verdict_drawable fits drawable, rankVerdict, rankVerdict]
  split
  · rintro ⟨⟩
  · split
    · rintro ⟨⟩
    · rintro ⟨⟩

theorem ranked_verdict_inside (fits : sector.Fits n) (drawable : sector.Drawable n) (ionizationInside : ionizationRank ≤ n)
    (attachmentInside : attachmentRank ≤ n) : sector.rankedVerdict n ionizationRank attachmentRank = .ok () := by
  rw [ranked_verdict_drawable fits drawable, rankVerdict, rankVerdict, if_neg (Nat.not_lt.mpr ionizationInside),
    if_neg (Nat.not_lt.mpr attachmentInside)]
  rfl

section Room

variable (fits : sector.Fits n) (some : 1 ≤ samples) (room : samples < 2 ^ 58)

include fits some room

theorem estimate_errors_refused {e : Failure} (refused : sector.rankedVerdict n ionizationRank attachmentRank = .error e)
    (state : σ) : (estimateErrors solver sector ionizationRank attachmentRank samples cutoff state).outcome = .error e := by
  have decided := collect_decides (sample_sector_ranked (σ := σ) solver fits.toSquare ionizationRank attachmentRank cutoff)
    some
  rw [require_room_samples, if_pos room] at decided
  exact estimate_errors_failed (decided.fails e refused state)

-- Drawn and with eigenvectors enough, the samples have a deviation unless too few of them kept their rank.
theorem estimate_errors_unrefused (accepted : sector.rankedVerdict n ionizationRank attachmentRank = .ok ()) (state : σ) :
    (∃ errors next, Yields (estimateErrors solver sector ionizationRank attachmentRank samples cutoff) state errors next) ∨
    ∃ kept < 2, (estimateErrors solver sector ionizationRank attachmentRank samples cutoff state).outcome =
      .error (.reported (bootstrapUnstable kept samples)) := by
  have decided := collect_decides (sample_sector_ranked (σ := σ) solver fits.toSquare ionizationRank attachmentRank cutoff)
    some
  rw [require_room_samples, if_pos room] at decided
  obtain ⟨drawn, next, yields, _, counts⟩ := decided.gives () accepted state
  by_cases few : acceptedSamples drawn < 2
  · have failed := errors_of_samples_outcome drawn samples
    rw [if_pos few] at failed
    refine .inr ⟨acceptedSamples drawn, few, ?_⟩
    rw [estimate_errors_outcome yields, failed]
    rfl
  · obtain ⟨errors, returned⟩ := errors_of_samples_returns counts samples few
    exact .inl ⟨errors, next, (estimate_errors_yields _ _ _).mpr ⟨drawn, yields, returned⟩⟩

theorem estimate_errors_unperturbed (drawable : sector.Drawable n) (state : σ) (i j : Nat) :
    (estimateErrors solver sector ionizationRank attachmentRank samples cutoff state).outcome ≠
      .error (.reported (perturbation i j)) := by
  cases verdict : sector.rankedVerdict n ionizationRank attachmentRank with
  | error e =>
      rw [estimate_errors_refused fits some room verdict state]
      rintro ⟨⟩
      exact ranked_verdict_unperturbed fits drawable i j verdict
  | ok _ =>
      rcases estimate_errors_unrefused fits some room verdict state with ⟨errors, next, yields⟩ | ⟨kept, _, unstable⟩
      · rw [show (estimateErrors solver sector ionizationRank attachmentRank samples cutoff state).outcome =
          .ok (errors, next) from yields]
        rintro ⟨⟩
      · rw [unstable]
        rintro ⟨⟩

end Room

end Samples

theorem deviations_refused {σ R : Type} [Scalar R] [NormalStream σ R] (solver : EigenSolver R) (n : Nat) :
    (∀ (m : Mat (Cplx R)) (error : Mat R) (state : σ), m.shape = (n, n) → error.shape = (n, n) →
      ((∃ i j, (sampleMatrix m error state).1 = .error (.reported (perturbation i j))) ↔
        ∃ i j, i < n ∧ j < n ∧ Scalar.isFinite (error.entry i j) = false) ∧
      (error.Drawable n → ∃ drawn, (sampleMatrix m error state).1 = .ok drawn)) ∧
    ∀ (sector : SectorAverages R) (ionizationRank attachmentRank samples : Nat) (cutoff : R) (state : σ),
      sector.Fits n → 1 ≤ samples → samples < 2 ^ 58 →
      ((∃ i j, (estimateErrors solver sector ionizationRank attachmentRank samples cutoff state).outcome =
        .error (.reported (perturbation i j))) ↔ ¬ sector.Drawable n) ∧
      (sector.Drawable n → ionizationRank ≤ n → attachmentRank ≤ n →
        (∃ errors next,
          Yields (estimateErrors solver sector ionizationRank attachmentRank samples cutoff) state errors next) ∨
        ∃ kept < 2, (estimateErrors solver sector ionizationRank attachmentRank samples cutoff state).outcome =
          .error (.reported (bootstrapUnstable kept samples))) := by
  constructor
  · intro m error state square errorSquare
    have along := sampled_along square errorSquare state
    rw [← Mat.undrawable_iff]
    refine ⟨⟨?_, ?_⟩, ?_⟩
    · rintro ⟨i, j, failed⟩ drawable
      obtain ⟨drawn, sampled⟩ := along.drawn drawable
      rw [sampled] at failed
      cases failed
    · intro undrawable
      obtain ⟨i, j, _, stopped⟩ := along.stopped undrawable
      exact ⟨i, j, congrArg Prod.fst stopped⟩
    · intro drawable
      obtain ⟨drawn, sampled⟩ := along.drawn drawable
      exact ⟨drawn, congrArg Prod.fst sampled⟩
  · intro sector ionizationRank attachmentRank samples cutoff state fits some room
    refine ⟨⟨?_, ?_⟩, ?_⟩
    · rintro ⟨i, j, failed⟩ drawable
      exact estimate_errors_unperturbed fits some room drawable state i j failed
    · intro undrawable
      obtain ⟨i, j, refused⟩ := undrawable_verdict fits undrawable
      refine ⟨i, j, estimate_errors_refused fits some room ?_ state⟩
      rw [SectorAverages.rankedVerdict, refused]
      rfl
    · intro drawable ionizationInside attachmentInside
      exact estimate_errors_unrefused fits some room
        (ranked_verdict_inside fits drawable ionizationInside attachmentInside) state

local instance halfStream : NormalStream Unit Float where
  ofSeed _ := ()
  next state := (0.5, state)

def deviatingPoint (deviation : Float) : SectorAverages Float :=
  ⟨Mat.ofRows [[⟨0.5, 0.0⟩]], Mat.ofRows [[deviation]], Mat.ofRows [[⟨1.0, 0.0⟩]], Mat.ofRows [[0.0]],
    Mat.ofRows [[⟨1.0, 0.0⟩]], Mat.ofRows [[0.0]]⟩

theorem deviating_point_fits (deviation : Float) : (deviatingPoint deviation).Fits 1 :=
  ⟨⟨rfl, rfl, rfl⟩, rfl, rfl, rfl⟩

-- A negative deviation is drawn with, and an infinite one is refused.
theorem deviations_refused_point :
    (∃ drawn, (sampleMatrix (Mat.ofRows [[⟨0.5, 0.0⟩]] : Mat (Cplx Float)) (Mat.ofRows [[-1.0]]) ()).1 = .ok drawn) ∧
    (∃ errors next, Yields (estimateErrors Eigen.solve (deviatingPoint (-0.25)) 1 1 2 0.0) () errors next) ∧
    ∃ i j, (estimateErrors Eigen.solve (deviatingPoint (1.0 / 0.0)) 1 1 2 0.0 ()).outcome =
      .error (.reported (perturbation i j)) := by
  obtain ⟨samples, errors⟩ := deviations_refused (σ := Unit) (R := Float) Eigen.solve 1
  refine ⟨?_, ?_, ?_⟩
  · exact (samples _ _ () rfl rfl).2 (Mat.drawable_point (by decide +kernel))
  · have drawable : (deviatingPoint (-0.25)).Drawable 1 := ⟨Mat.drawable_point (by decide +kernel),
      Mat.drawable_point (by decide +kernel), Mat.drawable_point (by decide +kernel)⟩
    have stable : (estimateErrors Eigen.solve (deviatingPoint (-0.25)) 1 1 2 0.0 ()).outcome.isOk = true := by
      decide +kernel
    refine ((errors _ 1 1 2 0.0 () (deviating_point_fits _) one_le_two (by decide)).2 drawable le_rfl
      le_rfl).resolve_right ?_
    rintro ⟨kept, _, unstable⟩
    rw [unstable] at stable
    cases stable
  · refine (errors _ 1 1 2 0.0 () (deviating_point_fits _) one_le_two (by decide)).1.mpr fun drawable => ?_
    have finite := drawable.density 0 0 Nat.one_pos Nat.one_pos
    exact absurd finite (by decide +kernel)

end OrbitalSpectra
