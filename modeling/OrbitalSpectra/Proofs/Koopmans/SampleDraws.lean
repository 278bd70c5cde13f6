import OrbitalSpectra.Proofs.CentralResults

set_option autoImplicit false

namespace OrbitalSpectra

open AnalysisError NormalStream Sampling

variable {σ R : Type} [Scalar R]

section Matrices

def drawnEntry (m : Mat (Cplx R)) (error : Mat R) (z : Nat → R) (i j : Nat) : Cplx R :=
  Cplx.ofReal (perturbedEntry m error i j (z (j * m.rows + i)))

-- The matrix that the draws give, taken column by column.
def drawnMatrix (m : Mat (Cplx R)) (error : Mat R) (z : Nat → R) : Mat (Cplx R) :=
  Mat.ofFn m.rows m.rows fun i j => (drawnEntry m error z i j + (drawnEntry m error z j i).conj).scale 0.5

def Mat.Drawable (error : Mat R) (n : Nat) : Prop :=
  ∀ i j, i < n → j < n → Scalar.isFinite (error.entry i j) = true

variable {m : Mat (Cplx R)} {error : Mat R} {n : Nat}

theorem sample_matrix_square_iff [NormalStream σ R] (square : m.shape = (n, n)) (errorSquare : error.shape = (n, n))
    (state : σ) (drawn : Mat (Cplx R)) (next : σ) :
    sampleMatrix m error state = (.ok drawn, next) ↔
      error.Drawable n ∧ drawn = drawnMatrix m error (drawAt R state) ∧ next = skip R (n * n) state := by
  obtain ⟨rfl, cols⟩ := Prod.mk.inj square
  have made : hermitianPart (Mat.ofFn m.rows m.rows (perturbed m error state)) =
      .ok (drawnMatrix m error (drawAt R state)) := hermitian_part_of_fn _ _
  rw [sample_matrix_ok_iff, made, Except.ok.injEq]
  constructor
  · rintro ⟨_, _, finite, rfl, spent⟩
    exact ⟨finite, rfl, spent⟩
  · rintro ⟨finite, rfl, spent⟩
    exact ⟨cols, errorSquare.trans square.symm, finite, rfl, spent⟩

theorem sample_verdict_drawable (square : m.shape = (n, n)) (errorSquare : error.shape = (n, n))
    (drawable : error.Drawable n) : sampleVerdict m error = .ok () := by
  obtain ⟨rfl, cols⟩ := Prod.mk.inj square
  have none : (columnPlaces m.rows).find? (refusedPlace error) = none := by
    rw [List.find?_eq_none, column_places_forall m.rows fun place => ¬ refusedPlace error place = true]
    intro i j row col
    simp [refusedPlace, drawable i j row col]
  rw [sampleVerdict, if_neg, none]
  rintro (odd | differs)
  · exact odd cols
  · exact differs (errorSquare.trans square.symm)

-- A matrix of `n` rows takes the first `n * n` draws and no other.
theorem drawn_matrix_congr (square : m.shape = (n, n)) (error : Mat R) {z w : Nat → R} (same : ∀ k < n * n, z k = w k) :
    drawnMatrix m error z = drawnMatrix m error w := by
  obtain ⟨rfl, _⟩ := Prod.mk.inj square
  have entries {i j : Nat} (row : i < m.rows) (col : j < m.rows) :
      drawnEntry m error z i j = drawnEntry m error w i j := by
    rw [drawnEntry, drawnEntry, same _ (Mat.index_lt col row)]
  apply Mat.of_fn_congr
  intro i j row col
  rw [entries row col, entries col row]

theorem draws_after_skip (R : Type) [NormalStream σ R] (start : Nat) (state : σ) :
    drawAt R (skip R start state) = fun k => drawAt R state (start + k) := by
  funext k
  rw [drawAt, drawAt, skip_add]

end Matrices

namespace SectorAverages

structure Fits (sector : SectorAverages R) (n : Nat) : Prop extends sector.Square n where
  densityError : sector.densityError.shape = (n, n)
  removalError : sector.removalError.shape = (n, n)
  additionError : sector.additionError.shape = (n, n)

structure Drawable (sector : SectorAverages R) (n : Nat) : Prop where
  density : sector.densityError.Drawable n
  removal : sector.removalError.Drawable n
  addition : sector.additionError.Drawable n

structure SameRemoval (a b : SectorAverages R) : Prop where
  density : a.density = b.density
  densityError : a.densityError = b.densityError
  removal : a.removal = b.removal
  removalError : a.removalError = b.removalError

structure SameAddition (a b : SectorAverages R) : Prop where
  density : a.density = b.density
  densityError : a.densityError = b.densityError
  addition : a.addition = b.addition
  additionError : a.additionError = b.additionError

-- The density of a sample of `n` orbitals takes the first draws, the Fock matrix of what is removed the
-- next ones, that of what is added the last.
def drawnRemoval (solver : EigenSolver R) (sector : SectorAverages R) (n rank : Nat) (cutoff : R) (z : Nat → R) :
    Except Failure (Option (List R)) :=
  projectedEnergiesWithRank solver (drawnMatrix sector.density sector.densityError z)
    (drawnMatrix sector.removal sector.removalError fun k => z (n * n + k)) rank cutoff

def drawnAddition (solver : EigenSolver R) (sector : SectorAverages R) (n rank : Nat) (cutoff : R) (z : Nat → R) :
    Except Failure (Option (List R)) := do
  let hole ← holeDensity (drawnMatrix sector.density sector.densityError z)
  projectedEnergiesWithRank solver hole
    (drawnMatrix sector.addition sector.additionError fun k => z (2 * (n * n) + k)) rank cutoff

variable {a b : SectorAverages R}

theorem SameRemoval.drawn (same : a.SameRemoval b) (solver : EigenSolver R) (n rank : Nat) (cutoff : R) (z : Nat → R) :
    a.drawnRemoval solver n rank cutoff z = b.drawnRemoval solver n rank cutoff z := by
  rw [drawnRemoval, drawnRemoval, same.density, same.densityError, same.removal, same.removalError]

theorem SameAddition.drawn (same : a.SameAddition b) (solver : EigenSolver R) (n rank : Nat) (cutoff : R)
    (z : Nat → R) : a.drawnAddition solver n rank cutoff z = b.drawnAddition solver n rank cutoff z := by
  rw [drawnAddition, drawnAddition, same.density, same.densityError, same.addition, same.additionError]

end SectorAverages

structure DrawnSample (solver : EigenSolver R) (sector : SectorAverages R) (n ionizationRank attachmentRank : Nat)
    (cutoff : R) (z : Nat → R) (sample : SectorSample R) : Prop where
  ionization : sector.drawnRemoval solver n ionizationRank cutoff z = .ok sample.ionization
  attachment : sector.drawnAddition solver n attachmentRank cutoff z = .ok sample.attachment

-- The draws of a sample are three for each place.
theorem DrawnSample.congr {solver : EigenSolver R} {sector : SectorAverages R} {n ionizationRank attachmentRank : Nat}
    {cutoff : R} {z w : Nat → R} {sample : SectorSample R} (fits : sector.Fits n)
    (drawn : DrawnSample solver sector n ionizationRank attachmentRank cutoff z sample)
    (same : ∀ k < 3 * (n * n), z k = w k) :
    DrawnSample solver sector n ionizationRank attachmentRank cutoff w sample := by
  have density := drawn_matrix_congr fits.density sector.densityError fun k inside =>
    same k (by omega)
  have removal := drawn_matrix_congr fits.removal sector.removalError fun k inside =>
    same (n * n + k) (by omega)
  have addition := drawn_matrix_congr fits.addition sector.additionError fun k inside =>
    same (2 * (n * n) + k) (by omega)
  have ionization := drawn.ionization
  have attachment := drawn.attachment
  rw [SectorAverages.drawnRemoval, density, removal] at ionization
  rw [SectorAverages.drawnAddition, density, addition] at attachment
  exact ⟨ionization, attachment⟩

section Samples

variable [NormalStream σ R] {solver : EigenSolver R} {sector : SectorAverages R}
  {n ionizationRank attachmentRank samples : Nat} {cutoff : R}

omit [Scalar R] in
theorem fits_draws (fits : sector.Fits n) : sector.draws = 3 * (n * n) := by
  have rows {m : Mat (Cplx R)} (shape : m.shape = (n, n)) : m.rows = n := (Prod.mk.inj shape).1
  rw [SectorAverages.draws, rows fits.density, rows fits.removal, rows fits.addition]
  omega

theorem sample_sector_sampled (fits : sector.Fits n) {state next : σ} {sample : SectorSample R}
    (yields : Yields (sampleSector solver sector ionizationRank attachmentRank cutoff) state sample next) :
    DrawnSample solver sector n ionizationRank attachmentRank cutoff (drawAt R state) sample := by
  simp only [sampleSector, bind_yields, draw_yields, except_yields, pure_yields,
    sample_matrix_square_iff fits.density fits.densityError, sample_matrix_square_iff fits.removal fits.removalError,
    sample_matrix_square_iff fits.addition fits.additionError] at yields
  obtain ⟨density, _, ⟨_, rfl, rfl⟩, removal, _, ⟨_, rfl, rfl⟩, addition, _, ⟨_, rfl, rfl⟩, ionization, _,
    ⟨ionizationOk, rfl⟩, hole, _, ⟨holeOk, rfl⟩, attachment, _, ⟨attachmentOk, rfl⟩, rfl, _⟩ := yields
  rw [draws_after_skip] at ionizationOk
  rw [← skip_add, ← Nat.two_mul, draws_after_skip] at attachmentOk
  refine ⟨ionizationOk, ?_⟩
  rw [SectorAverages.drawnAddition, holeOk]
  exact attachmentOk

theorem drawable_verdict (fits : sector.Fits n) (drawable : sector.Drawable n) : sector.verdict = .ok () := by
  rw [SectorAverages.verdict, sample_verdict_drawable fits.density fits.densityError drawable.density,
    sample_verdict_drawable fits.removal fits.removalError drawable.removal,
    sample_verdict_drawable fits.addition fits.additionError drawable.addition]
  rfl

-- Each sample is made of draws of its own, the first of the stream onwards, whatever became of the
-- samples before it.
theorem sector_samples_sampled (fits : sector.Fits n) {state next : σ} {drawn : List (SectorSample R)}
    (yields : Yields (sectorSamples solver sector ionizationRank attachmentRank samples cutoff) state drawn next) :
    next = skip R (samples * (3 * (n * n))) state ∧ drawn.length = samples ∧ ∀ k sample, drawn[k]? = some sample →
      DrawnSample solver sector n ionizationRank attachmentRank cutoff
        (fun i => drawAt R state (k * (3 * (n * n)) + i)) sample := by
  have spends := sample_sector_spends (σ := σ) solver sector ionizationRank attachmentRank cutoff
  have spent := collect_spends R spends samples _ _ _ yields
  obtain ⟨_, _, held, copies⟩ := (bind_yields _ _ _ _ _).mp yields
  obtain ⟨_, rfl⟩ := (except_yields _ _ _ _).mp held
  obtain ⟨length, each⟩ := replicate_yields_at R spends copies
  rw [fits_draws fits] at spent each
  refine ⟨spent, length, ?_⟩
  intro k sample found
  rw [← draws_after_skip]
  exact sample_sector_sampled fits (each k sample found)

theorem estimate_errors_yields (state : σ) (errors : EnergyErrors R) (next : σ) :
    Yields (estimateErrors solver sector ionizationRank attachmentRank samples cutoff) state errors next ↔
      ∃ drawn, Yields (sectorSamples solver sector ionizationRank attachmentRank samples cutoff) state drawn next ∧
        (errorsOfSamples drawn samples).Returns errors := by
  simp only [estimateErrors, bind_yields, run_yields]
  constructor
  · rintro ⟨drawn, _, yields, returned, rfl⟩
    exact ⟨drawn, yields, returned⟩
  · rintro ⟨drawn, yields, returned⟩
    exact ⟨drawn, next, yields, returned, rfl⟩

theorem estimate_errors_outcome {state next : σ} {drawn : List (SectorSample R)}
    (yields : Yields (sectorSamples solver sector ionizationRank attachmentRank samples cutoff) state drawn next) :
    (estimateErrors solver sector ionizationRank attachmentRank samples cutoff state).outcome =
      (errorsOfSamples drawn samples).outcome.map fun errors => (errors, next) := by
  change (sectorSamples solver sector ionizationRank attachmentRank samples cutoff state >>= fun made =>
    (liftM (errorsOfSamples made.1 samples) : Sampling σ (EnergyErrors R)) made.2).outcome = _
  rw [Run.bind_ok _ yields]
  change (errorsOfSamples drawn samples >>= fun errors => pure (errors, next)).outcome = _
  rw [Run.bind_outcome]
  cases (errorsOfSamples drawn samples).outcome <;> rfl

theorem estimate_errors_failed {state : σ} {e : Failure}
    (failed : (sectorSamples solver sector ionizationRank attachmentRank samples cutoff state).outcome = .error e) :
    (estimateErrors solver sector ionizationRank attachmentRank samples cutoff state).outcome = .error e := by
  change (sectorSamples solver sector ionizationRank attachmentRank samples cutoff state >>= fun made => _).outcome = _
  rw [Run.bind_error _ failed]

theorem estimate_errors_sampled (fits : sector.Fits n) {state next : σ} {errors : EnergyErrors R}
    (yields : Yields (estimateErrors solver sector ionizationRank attachmentRank samples cutoff) state errors next) :
    next = skip R (samples * (3 * (n * n))) state ∧ ∃ drawn : List (SectorSample R), drawn.length = samples ∧
      (∀ k sample, drawn[k]? = some sample → DrawnSample solver sector n ionizationRank attachmentRank cutoff
        (fun i => drawAt R state (k * (3 * (n * n)) + i)) sample) ∧
      sampleDeviation (drawn.filterMap SectorSample.ionization) = .ok errors.ionization ∧
      sampleDeviation (drawn.filterMap SectorSample.attachment) = .ok errors.attachment := by
  obtain ⟨drawn, held, returned⟩ := (estimate_errors_yields _ _ _).mp yields
  obtain ⟨spent, length, sampled⟩ := sector_samples_sampled fits held
  exact ⟨spent, drawn, length, sampled, ((errors_of_samples_returns_iff _ _ _).mp returned).2⟩

omit [Scalar R] in
-- One side of the samples, given by what each position of the stream makes it.
theorem sides_agree {xs ys : List (SectorSample R)} {side : SectorSample R → Option (List R)}
    {made : Nat → Except Failure (Option (List R))} (length : xs.length = ys.length)
    (left : ∀ k x, xs[k]? = some x → made k = .ok (side x))
    (right : ∀ k y, ys[k]? = some y → made k = .ok (side y)) : xs.filterMap side = ys.filterMap side := by
  have same : xs.map side = ys.map side := by
    apply List.ext_getElem
    · rw [List.length_map, List.length_map, length]
    · intro k first second
      rw [List.length_map] at first second
      rw [List.getElem_map, List.getElem_map]
      have atLeft := left k _ (List.getElem?_eq_getElem first)
      have atRight := right k _ (List.getElem?_eq_getElem second)
      exact Except.ok.inj (atLeft.symm.trans atRight)
  have kept (zs : List (SectorSample R)) : zs.filterMap side = (zs.map side).filterMap id := by
    rw [List.filterMap_map]
    rfl
  rw [kept, same, ← kept]

section TwoRuns

variable {a b : SectorAverages R} {otherRank : Nat} {state s t : σ} {x y : EnergyErrors R}

theorem removal_errors_agree (aFits : a.Fits n) (bFits : b.Fits n) (same : a.SameRemoval b)
    (first : Yields (estimateErrors solver a ionizationRank attachmentRank samples cutoff) state x s)
    (second : Yields (estimateErrors solver b ionizationRank otherRank samples cutoff) state y t) :
    x.ionization = y.ionization ∧ s = t := by
  obtain ⟨rfl, xs, xsLength, xsSampled, xDeviation, _⟩ := estimate_errors_sampled aFits first
  obtain ⟨rfl, ys, ysLength, ysSampled, yDeviation, _⟩ := estimate_errors_sampled bFits second
  rw [sides_agree (xsLength.trans ysLength.symm) (fun k sample found => (xsSampled k sample found).ionization)
    fun k sample found => (same.drawn _ _ _ _ _).trans (ysSampled k sample found).ionization] at xDeviation
  exact ⟨Except.ok.inj (xDeviation.symm.trans yDeviation), rfl⟩

theorem addition_errors_agree (aFits : a.Fits n) (bFits : b.Fits n) (same : a.SameAddition b)
    (first : Yields (estimateErrors solver a ionizationRank attachmentRank samples cutoff) state x s)
    (second : Yields (estimateErrors solver b otherRank attachmentRank samples cutoff) state y t) :
    x.attachment = y.attachment ∧ s = t := by
  obtain ⟨rfl, xs, xsLength, xsSampled, _, xDeviation⟩ := estimate_errors_sampled aFits first
  obtain ⟨rfl, ys, ysLength, ysSampled, _, yDeviation⟩ := estimate_errors_sampled bFits second
  rw [sides_agree (xsLength.trans ysLength.symm) (fun k sample found => (xsSampled k sample found).attachment)
    fun k sample found => (same.drawn _ _ _ _ _).trans (ysSampled k sample found).attachment] at xDeviation
  exact ⟨Except.ok.inj (xDeviation.symm.trans yDeviation), rfl⟩

end TwoRuns

-- The samples of a sector whose deviations are finite, and what becomes of them.
structure SampledErrors (solver : EigenSolver R) (sector : SectorAverages R)
    (n ionizationRank attachmentRank samples : Nat) (cutoff : R) (state : σ) (drawn : List (SectorSample R)) :
    Prop where
  yields : Yields (sectorSamples solver sector ionizationRank attachmentRank samples cutoff) state drawn
    (skip R (samples * (3 * (n * n))) state)
  count : drawn.length = samples
  -- Sample `k` is made of the draws of its place on the stream, whatever the others are.
  sampled : ∀ k sample, drawn[k]? = some sample → ∀ z : Nat → R,
    (∀ i < 3 * (n * n), z i = drawAt R state (k * (3 * (n * n)) + i)) →
      DrawnSample solver sector n ionizationRank attachmentRank cutoff z sample
  returns : (∃ errors next,
      Yields (estimateErrors solver sector ionizationRank attachmentRank samples cutoff) state errors next) ↔
    2 ≤ (drawn.filterMap SectorSample.ionization).length ∧ 2 ≤ (drawn.filterMap SectorSample.attachment).length
  unstable : acceptedSamples drawn < 2 →
    (estimateErrors solver sector ionizationRank attachmentRank samples cutoff state).outcome =
      .error (.reported (bootstrapUnstable (acceptedSamples drawn) samples))

theorem sampled_errors_exist (fits : sector.Fits n) (drawable : sector.Drawable n)
    (ionizationInside : ionizationRank ≤ n) (attachmentInside : attachmentRank ≤ n) (room : samples < 2 ^ 58)
    (state : σ) : ∃ drawn, SampledErrors solver sector n ionizationRank attachmentRank samples cutoff state drawn := by
  have verdict := drawable_verdict fits drawable
  have decides := sample_sector_decides (σ := σ) solver fits.toSquare ionizationInside attachmentInside cutoff
  obtain ⟨drawn, after, copies, length, counts⟩ := replicate_yields (decides.gives () verdict) samples state
  have yields : Yields (sectorSamples solver sector ionizationRank attachmentRank samples cutoff) state drawn after :=
    (bind_yields _ _ _ _ _).mpr
      ⟨(), state, (except_yields _ _ _ _).mpr ⟨if_pos ((samples_fit samples).mpr room), rfl⟩, copies⟩
  obtain ⟨rfl, _, sampled⟩ := sector_samples_sampled fits yields
  refine ⟨drawn, yields, length, ?_, ?_, ?_⟩
  · intro k sample found z same
    exact (sampled k sample found).congr fits fun i inside => (same i inside).symm
  · rw [← le_min_iff]
    constructor
    · rintro ⟨errors, next, returned⟩
      obtain ⟨others, othersYields, errorsReturns⟩ := (estimate_errors_yields _ _ _).mp returned
      obtain ⟨rfl, _⟩ := yields_unique yields othersYields
      exact ((errors_of_samples_returns_iff _ _ _).mp errorsReturns).1
    · intro accepted
      obtain ⟨errors, returned⟩ := errors_of_samples_returns counts samples (Nat.not_lt.mpr accepted)
      exact ⟨errors, _, (estimate_errors_yields _ _ _).mpr ⟨drawn, yields, returned⟩⟩
  · intro few
    have failed := errors_of_samples_outcome drawn samples
    rw [if_pos few] at failed
    rw [estimate_errors_outcome yields, failed]
    rfl

theorem errors_without_room (solver : EigenSolver R) (sector : SectorAverages R) (ionizationRank attachmentRank : Nat)
    (cutoff : R) (full : 2 ^ 58 ≤ samples) (state : σ) :
    (estimateErrors solver sector ionizationRank attachmentRank samples cutoff state).outcome = .error .capacity := by
  have refused : requireRoom samples vectorSize = .error .capacity := by
    rw [requireRoom, if_neg]
    exact fun room => Nat.not_lt.mpr full ((samples_fit samples).mp room)
  apply estimate_errors_failed
  rw [sectorSamples, collect, refused]
  rfl

end Samples

theorem error_bars_apart [NormalStream σ R] (solver : EigenSolver R) (n samples : Nat) (cutoff : R) (state : σ) :
    (∀ (a b : SectorAverages R) (ionizationRank attachmentRank otherRank : Nat) (x y : EnergyErrors R) (s t : σ),
      a.Fits n → b.Fits n → a.SameRemoval b →
      Yields (estimateErrors solver a ionizationRank attachmentRank samples cutoff) state x s →
      Yields (estimateErrors solver b ionizationRank otherRank samples cutoff) state y t →
      x.ionization = y.ionization ∧ s = t) ∧
    (∀ (a b : SectorAverages R) (ionizationRank attachmentRank otherRank : Nat) (x y : EnergyErrors R) (s t : σ),
      a.Fits n → b.Fits n → a.SameAddition b →
      Yields (estimateErrors solver a ionizationRank attachmentRank samples cutoff) state x s →
      Yields (estimateErrors solver b otherRank attachmentRank samples cutoff) state y t →
      x.attachment = y.attachment ∧ s = t) ∧
    ∀ (sector : SectorAverages R) (ionizationRank attachmentRank : Nat), sector.Fits n → sector.Drawable n →
      ionizationRank ≤ n → attachmentRank ≤ n →
      (samples < 2 ^ 58 →
        ∃ drawn, SampledErrors solver sector n ionizationRank attachmentRank samples cutoff state drawn) ∧
      (2 ^ 58 ≤ samples → (estimateErrors solver sector ionizationRank attachmentRank samples cutoff state).outcome =
        .error .capacity) := by
  refine ⟨?_, ?_, ?_⟩
  · intro a b ionizationRank attachmentRank otherRank x y s t aFits bFits same first second
    exact removal_errors_agree aFits bFits same first second
  · intro a b ionizationRank attachmentRank otherRank x y s t aFits bFits same first second
    exact addition_errors_agree aFits bFits same first second
  · intro sector ionizationRank attachmentRank fits drawable ionizationInside attachmentInside
    exact ⟨fun room => sampled_errors_exist fits drawable ionizationInside attachmentInside room state,
      fun full => errors_without_room solver sector ionizationRank attachmentRank cutoff full state⟩

local instance pointScalar : Scalar ℚ := rationalScalar

local instance pointStream : NormalStream Nat ℚ := alternatingStream

-- One orbital: a density and two Fock matrices, each with its error.
def pointAverages (density densityError removal removalError addition additionError : ℚ) : SectorAverages ℚ where
  density := Mat.ofFn 1 1 fun _ _ => ⟨density, 0⟩
  densityError := Mat.ofFn 1 1 fun _ _ => densityError
  removal := Mat.ofFn 1 1 fun _ _ => ⟨removal, 0⟩
  removalError := Mat.ofFn 1 1 fun _ _ => removalError
  addition := Mat.ofFn 1 1 fun _ _ => ⟨addition, 0⟩
  additionError := Mat.ofFn 1 1 fun _ _ => additionError

theorem point_averages_fit (density densityError removal removalError addition additionError : ℚ) :
    (pointAverages density densityError removal removalError addition additionError).Fits 1 :=
  ⟨⟨rfl, rfl, rfl⟩, rfl, rfl, rfl⟩

theorem point_averages_drawable (density densityError removal removalError addition additionError : ℚ) :
    (pointAverages density densityError removal removalError addition additionError).Drawable 1 :=
  ⟨fun _ _ _ _ => rfl, fun _ _ _ _ => rfl, fun _ _ _ _ => rfl⟩

-- The sectors differ in what is added. In the last one each sample collapses on one of its sides.
theorem error_bars_apart_point :
    (∃ (x y : EnergyErrors ℚ) (next : Nat),
      Yields (estimateErrors pointSolver (pointAverages (1 / 2) (1 / 4) 1 1 1 1) 1 1 2 0) 0 x next ∧
      Yields (estimateErrors pointSolver (pointAverages (1 / 2) (1 / 4) 1 1 3 2) 1 0 2 0) 0 y next ∧
      x.ionization = y.ionization) ∧
    (∃ drawn, SampledErrors pointSolver (pointAverages (1 / 2) 1 1 1 1 1) 1 1 1 2 0 (0 : Nat) drawn) ∧
    (estimateErrors pointSolver (pointAverages (1 / 2) 1 1 1 1 1) 1 1 2 0 (0 : Nat)).outcome.map (fun _ => ()) =
      .error (.reported (bootstrapUnstable 1 2)) := by
  obtain ⟨removals, _, sampled⟩ := error_bars_apart pointSolver 1 2 0 (0 : Nat)
  obtain ⟨⟨x, s⟩, first⟩ := Run.returns_of_ok
    (x := estimateErrors pointSolver (pointAverages (1 / 2) (1 / 4) 1 1 1 1) 1 1 2 0 (0 : Nat)) (by decide +kernel)
  obtain ⟨⟨y, t⟩, second⟩ := Run.returns_of_ok
    (x := estimateErrors pointSolver (pointAverages (1 / 2) (1 / 4) 1 1 3 2) 1 0 2 0 (0 : Nat)) (by decide +kernel)
  obtain ⟨same, rfl⟩ := removals (pointAverages (1 / 2) (1 / 4) 1 1 1 1) (pointAverages (1 / 2) (1 / 4) 1 1 3 2)
    1 1 0 x y s t (point_averages_fit _ _ _ _ _ _) (point_averages_fit _ _ _ _ _ _) ⟨rfl, rfl, rfl, rfl⟩ first second
  refine ⟨⟨x, y, s, first, second, same⟩, ?_, by decide +kernel⟩
  exact (sampled (pointAverages (1 / 2) 1 1 1 1 1) 1 1 (point_averages_fit _ _ _ _ _ _)
    (point_averages_drawable _ _ _ _ _ _) le_rfl le_rfl).1 (by decide)

theorem drawn_without_error (m : Mat (Cplx ℚ)) (point : m.rows = 1) (z w : Nat → ℚ) :
    drawnMatrix m (Mat.ofFn 1 1 fun _ _ => 0) z = drawnMatrix m (Mat.ofFn 1 1 fun _ _ => 0) w := by
  apply Mat.of_fn_congr
  intro i j row col
  obtain rfl : i = 0 := Nat.lt_one_iff.mp (point ▸ row)
  obtain rfl : j = 0 := Nat.lt_one_iff.mp (point ▸ col)
  have entry : drawnEntry m (Mat.ofFn 1 1 fun _ _ => 0) z 0 0 = drawnEntry m (Mat.ofFn 1 1 fun _ _ => 0) w 0 0 := by
    rw [drawnEntry, drawnEntry, perturbedEntry, perturbedEntry, Mat.entry_ofFn _ Nat.zero_lt_one Nat.zero_lt_one]
    exact congrArg (fun y => Cplx.ofReal (_ + y)) ((Rat.zero_mul _).trans (Rat.zero_mul _).symm)
  rw [entry]

-- Without errors every draw gives the averages again, and both sides keep all of their samples.
theorem full_samples_without_room :
    (pointAverages (9 / 25) 0 1 0 1 0).Fits 1 ∧ (pointAverages (9 / 25) 0 1 0 1 0).Drawable 1 ∧
    (∀ z : Nat → ℚ, ∃ ionization attachment : List ℚ,
      DrawnSample pointSolver (pointAverages (9 / 25) 0 1 0 1 0) 1 1 1 0 z ⟨some ionization, some attachment⟩) ∧
    (estimateErrors pointSolver (pointAverages (9 / 25) 0 1 0 1 0) 1 1 (2 ^ 58) 0 (0 : Nat)).outcome =
      .error .capacity := by
  refine ⟨point_averages_fit _ _ _ _ _ _, point_averages_drawable _ _ _ _ _ _, ?_,
    errors_without_room _ _ 1 1 0 le_rfl 0⟩
  intro z
  refine ⟨[25 / 9], [25 / 16], ?_, ?_⟩
  · rw [SectorAverages.drawnRemoval, pointAverages, drawn_without_error _ rfl z fun _ => 0,
      drawn_without_error _ rfl (fun k => z (1 * 1 + k)) fun _ => 0]
    decide +kernel
  · rw [SectorAverages.drawnAddition, pointAverages, drawn_without_error _ rfl z fun _ => 0,
      drawn_without_error _ rfl (fun k => z (2 * (1 * 1) + k)) fun _ => 0]
    decide +kernel

end OrbitalSpectra
