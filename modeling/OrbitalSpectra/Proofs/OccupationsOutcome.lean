import OrbitalSpectra.Eigen.ShiftedSweeps
import OrbitalSpectra.Proofs.Bootstrap.Refusals
import OrbitalSpectra.Proofs.KeptOccupations
import OrbitalSpectra.Proofs.NonFinite
import OrbitalSpectra.Proofs.ShapeSafety

set_option autoImplicit false

namespace OrbitalSpectra

open AnalysisError Sampling

variable {σ R : Type}

namespace SpinTensor

section Shapes

variable {α β : Type} {p : SpinTensor α} {error : SpinTensor β}

-- Some sector, and as many of one size in both.
structure Matches (p : SpinTensor α) (error : SpinTensor β) : Prop where
  some : p.count ≠ 0
  shape : p.shape = error.shape

theorem matches_iff (p : SpinTensor α) (error : SpinTensor β) :
    p.Matches error ↔ ¬ (p.count = 0 ∨ p.shape ≠ error.shape) := by
  rw [not_or, not_ne_iff]
  exact ⟨fun fits => ⟨fits.some, fits.shape⟩, fun fits => ⟨fits.1, fits.2⟩⟩

theorem Matches.count (fits : p.Matches error) : error.count ≠ 0 := by
  have counts : p.count = error.count := congrArg Prod.fst fits.shape
  exact counts ▸ fits.some

theorem Matches.dim (fits : p.Matches error) : error.dim = p.dim :=
  (congrArg (fun shape => shape.2.1) fits.shape).symm

end Shapes

variable [Scalar R]

-- Two sectors add in quadrature, otherwise the first stands for all.
def summedError (error : SpinTensor R) (i j : Nat) : R :=
  match error.sectors with
  | [a, b] => Scalar.sqrt (a.entry i j * a.entry i j + b.entry i j * b.entry i j)
  | a :: _ => a.entry i j
  | [] => 0

def combinedError (error : SpinTensor R) : Mat R :=
  Mat.ofFn error.dim error.dim fun i j => (error.summedError i j + error.summedError j i) * 0.5

end SpinTensor

section Summed

variable [Scalar R] {p : SpinTensor (Cplx R)} {error : SpinTensor R}

theorem spin_summed_error_entries (some : error.count ≠ 0) :
    spinSummedError error = .ok (Mat.ofFn error.dim error.dim error.summedError) := by
  have square (m : Mat R) (member : m ∈ error.sectors) : m = Mat.ofFn error.dim error.dim m.entry :=
    Mat.of_fn_entry m (error.uniform m member)
  rcases held : error.sectors with _ | ⟨a, _ | ⟨b, _ | ⟨c, rest⟩⟩⟩
  · exact absurd (congrArg List.length held) some
  · have entries : error.summedError = a.entry := by
      funext i j
      rw [SpinTensor.summedError, held]
    rw [spinSummedError, held, entries, ← square a (by simp [held])]
  · have entries : error.summedError = fun i j =>
        Scalar.sqrt (a.entry i j * a.entry i j + b.entry i j * b.entry i j) := by
      funext i j
      rw [SpinTensor.summedError, held]
    have quadrature := Mat.zip_with_of_fn (fun x y => Scalar.sqrt (x * x + y * y)) error.dim error.dim a.entry b.entry
    rw [← square a (by simp [held]), ← square b (by simp [held]), ← entries] at quadrature
    rw [spinSummedError, held]
    exact (or_fault_ok_iff _ _).mpr quadrature
  · have entries : error.summedError = a.entry := by
      funext i j
      rw [SpinTensor.summedError, held]
    rw [spinSummedError, held, entries, ← square a (by simp [held])]

theorem spin_summed_combined (fits : p.Matches error) :
    ∃ sum, spinSummed p error = .ok (sum, error.combinedError) ∧ sum.shape = (p.dim, p.dim) := by
  obtain ⟨sum, e, summed, shape, _⟩ := spin_summed_square fits.some fits.shape
  have combined := summed
  simp only [spinSummed, if_neg ((SpinTensor.matches_iff p error).mp fits), except_bind_ok_iff,
    spin_summed_error_entries fits.count] at combined
  obtain ⟨_, _, _, held, _, _, _, made, pair⟩ := combined
  cases held
  rw [symmetric_part_of_fn] at made
  cases made
  cases pair
  exact ⟨sum, summed, shape⟩

end Summed

section Verdict

variable [Scalar R] {p : SpinTensor (Cplx R)} {error : SpinTensor R}

-- Whatever the solver answers, the samples are drawn around a matrix of the size of the density.
theorem occupation_values_verdict (solver : EigenSolver R) (fits : p.Matches error) (samples : Nat)
    (screenFactor cutoff : R) : ∃ (m : Mat (Cplx R)) (values : List R), m.shape = (p.dim, p.dim) ∧
      values.length = p.dim ∧ occupationValues solver p error samples screenFactor cutoff = (do
        requireRoom samples vectorSize
        sampleVerdict m error.combinedError
        return values) := by
  obtain ⟨sum, summed, sumShape⟩ := spin_summed_combined fits
  have errorShape : error.combinedError.shape = (p.dim, p.dim) := by rw [← fits.dim]; rfl
  obtain ⟨screened, kept, screenedOk, screenedShape⟩ := screen_matrix_fits sumShape errorShape screenFactor
  obtain ⟨regularised, _, prepared, square, _⟩ := regularise_square solver screenedShape cutoff
  obtain ⟨values, solved, count⟩ := eigenvalues_square solver square
  refine ⟨regularised.matrix, values.reverse, square, List.length_reverse.trans count, ?_⟩
  rw [occupationValues, summed]
  change (reporting (screenMatrix sum error.combinedError screenFactor) >>= _) = _
  rw [screenedOk]
  change (regularise solver screened cutoff >>= _) = _
  rw [prepared]
  change (requireRoom samples vectorSize >>= _) = _
  refine bind_congr fun _ => bind_congr fun _ => ?_
  rw [solved]
  rfl

variable {solver : EigenSolver R} {samples : Nat} {screenFactor cutoff : R}

theorem occupation_values_mismatched (odd : ¬ p.Matches error) :
    occupationValues solver p error samples screenFactor cutoff =
      .error (.reported (shapeMismatch densitySeries p.size error.size)) := by
  rw [SpinTensor.matches_iff, not_not] at odd
  have failed : spinSummed p error = .error (.reported (shapeMismatch densitySeries p.size error.size)) := by
    rw [spinSummed, if_pos odd]
    rfl
  rw [occupationValues, failed]
  rfl

theorem occupation_values_without_room (fits : p.Matches error) (full : 2 ^ 58 ≤ samples) :
    occupationValues solver p error samples screenFactor cutoff = .error .capacity := by
  obtain ⟨m, values, _, _, verdict⟩ := occupation_values_verdict solver fits samples screenFactor cutoff
  rw [verdict, require_room_samples, if_neg (Nat.not_lt.mpr full)]
  rfl

section Room

variable (fits : p.Matches error) (room : samples < 2 ^ 58)

include fits room

theorem occupation_values_refused {i j : Nat} (first : error.combinedError.FirstRefused p.dim i j) :
    occupationValues solver p error samples screenFactor cutoff = .error (.reported (perturbation i j)) := by
  obtain ⟨m, values, square, _, verdict⟩ := occupation_values_verdict solver fits samples screenFactor cutoff
  have errorShape : error.combinedError.shape = (p.dim, p.dim) := by rw [← fits.dim]; rfl
  rw [verdict, require_room_samples, if_pos room, sample_verdict_refused square errorShape first]
  rfl

theorem occupation_values_returned (drawable : error.combinedError.Drawable p.dim) :
    ∃ values, occupationValues solver p error samples screenFactor cutoff = .ok values ∧ values.length = p.dim := by
  obtain ⟨m, values, square, count, verdict⟩ := occupation_values_verdict solver fits samples screenFactor cutoff
  have errorShape : error.combinedError.shape = (p.dim, p.dim) := by rw [← fits.dim]; rfl
  refine ⟨values, ?_, count⟩
  rw [verdict, require_room_samples, if_pos room, sample_verdict_drawable square errorShape drawable]
  rfl

end Room

end Verdict

section Outcome

variable [Scalar R] [NormalStream σ R] {p : SpinTensor (Cplx R)} {error : SpinTensor R} {samples : Nat}

-- With which error the occupations end, or that there is one for each orbital.
structure OccupationsEnd (p : SpinTensor (Cplx R)) (error : SpinTensor R) (samples : Nat)
    (outcome : Except Failure (Occupations R × σ)) : Prop where
  invalid : (∃ fault, outcome = .error (.reported (invalidParameter fault))) ↔ samples < 2
  mismatched : (∃ name expected found, outcome = .error (.reported (shapeMismatch name expected found))) ↔
    2 ≤ samples ∧ ¬ p.Matches error
  exhausted : outcome = .error .capacity ↔ p.Matches error ∧ 2 ^ 58 ≤ samples
  perturbation : ∀ i j, outcome = .error (.reported (perturbation i j)) ↔
    2 ≤ samples ∧ samples < 2 ^ 58 ∧ p.Matches error ∧ error.combinedError.FirstRefused p.dim i j
  returns : (∃ occupations, outcome = .ok occupations) ↔
    2 ≤ samples ∧ samples < 2 ^ 58 ∧ p.Matches error ∧ error.combinedError.Drawable p.dim
  lengths : ∀ occupations, outcome = .ok occupations →
    occupations.1.values.length = p.dim ∧ occupations.1.errors.length = p.dim

variable (solver : EigenSolver R) (screenFactor cutoff : R) (state : σ)

theorem occupations_outcome (p : SpinTensor (Cplx R)) (error : SpinTensor R) (samples : Nat) :
    OccupationsEnd p error samples (occupationsOf solver p error samples screenFactor cutoff state).outcome := by
  by_cases few : samples < 2
  · have ends : (occupationsOf solver p error samples screenFactor cutoff state).outcome =
        .error (.reported (invalidParameter (.tooFewSamplesForError samples))) := by
      simp only [occupationsOf, if_pos few]
      rfl
    have room : ¬ 2 ^ 58 ≤ samples := by omega
    rw [ends]
    constructor <;> simp [few, Nat.not_le.mpr few, room, -Nat.reducePow]
  have enough := Nat.not_lt.mp few
  have decided := occupations_of_counted (σ := σ) solver p error enough screenFactor cutoff
  by_cases fits : p.Matches error
  · by_cases full : 2 ^ 58 ≤ samples
    · rw [decided.fails _ (occupation_values_without_room fits full) state]
      constructor <;> simp [few, fits, full, Nat.not_lt.mpr full, -Nat.reducePow]
    · have room := Nat.not_le.mp full
      rcases error.combinedError.drawable_or_refused p.dim with drawable | ⟨i, j, first⟩
      · obtain ⟨values, returned, count⟩ := occupation_values_returned fits room drawable
        obtain ⟨occupations, next, yields, rfl, errors⟩ := decided.gives _ returned state
        have unrefused (i j : Nat) : ¬ error.combinedError.FirstRefused p.dim i j := fun first => first.undrawable drawable
        rw [show (occupationsOf solver p error samples screenFactor cutoff state).outcome = .ok (occupations, next)
          from yields]
        constructor <;> simp [few, fits, full, enough, room, drawable, unrefused, count, errors, -Nat.reducePow]
      · have named (k l : Nat) : error.combinedError.FirstRefused p.dim k l ↔ i = k ∧ j = l := by
          constructor
          · exact first.unique
          · rintro ⟨rfl, rfl⟩
            exact first
        rw [decided.fails _ (occupation_values_refused fits room first) state]
        constructor <;> simp [few, fits, full, enough, room, first.undrawable, named, -Nat.reducePow]
  · rw [decided.fails _ (occupation_values_mismatched fits) state]
    constructor <;> simp [few, fits, enough]

end Outcome

section SingleBlock

variable [Scalar R] [SpreadingScalar R]

theorem combined_error_not_finite {error : SpinTensor R} (some : error.count ≠ 0) (positive : 0 < error.dim)
    (each : ∀ m ∈ error.sectors, Scalar.isFinite (m.entry 0 0) = false) :
    Scalar.isFinite (error.combinedError.entry 0 0) = false := by
  have summed : Scalar.isFinite (error.summedError 0 0) = false := by
    rw [SpinTensor.summedError]
    split
    · rename_i a b held
      apply SpreadingScalar.sqrt
      apply SpreadingScalar.add
      apply SpreadingScalar.mul
      exact each a (by simp [held])
    · rename_i a rest _ held
      exact each a (by simp [held])
    · rename_i held
      exact absurd (congrArg List.length held) some
  rw [SpinTensor.combinedError, Mat.entry_ofFn _ positive positive]
  apply SpreadingScalar.mul
  apply SpreadingScalar.add
  exact summed

variable [Build] {source : Source R} {s : Selection} {t : TensorAverage R} {blocks : List (Block R)} {m : Metadata}

-- The error of a single block is undefined at every place, so the first one is refused.
theorem single_block_refused (read : source.metadata = .ok m) (sized : m.Fits)
    (returned : (averageDensity source s).Returns t)
    (series : source.series densitySeries s.estimator s.path = .ok blocks)
    (single : (window s.equilibration s.stride blocks).length = 1) :
    t.mean.Matches t.error ∧ t.error.combinedError.FirstRefused t.mean.dim 0 0 := by
  obtain ⟨_, walker, count, dim, others, _, averages, stacked⟩ :=
    average_stacked .density returned (TensorObservable.density.average_fits read sized returned)
  cases Except.ok.inj (series.symm.trans averages.series)
  have positive := averages.able.wide
  have sectors := flat_layout_sectors averages.able.layout
  have means := SpinTensor.stack_shape t.mean count dim _ (fun _ => rfl) sectors stacked.mean
  have wide : t.mean.dim = dim := congrArg (fun shape => shape.2.1) means
  have fits : t.mean.Matches t.error := (SpinTensor.matches_iff _ _).mpr fun odd =>
    odd.elim (stacked_shapes sectors stacked).1 fun differs => differs (stacked_shapes sectors stacked).2
  have each : ∀ m ∈ t.error.sectors, Scalar.isFinite (m.entry 0 0) = false := by
    intro m member
    rw [stacked.error] at member
    obtain ⟨k, _, rfl⟩ := List.mem_map.mp member
    rw [Entries.errorSector, Mat.entry_ofFn _ positive positive]
    exact standard_error_single ((List.length_map _).trans single)
  have undefined := combined_error_not_finite fits.count (fits.dim.trans wide ▸ positive) each
  exact ⟨fits, wide ▸ positive, wide ▸ positive, undefined, fun k l _ _ earlier => absurd earlier (by omega)⟩

end SingleBlock

theorem occupations_end {σ R : Type} [Scalar R] [NormalStream σ R] [Build] (solver : EigenSolver R) :
    (∀ (p : SpinTensor (Cplx R)) (error : SpinTensor R) (samples : Nat) (screenFactor cutoff : R) (state : σ),
      OccupationsEnd p error samples (occupationsOf solver p error samples screenFactor cutoff state).outcome) ∧
    ∀ [SpreadingScalar R] (source : Source R) (m : Metadata) (p : Params R) (entropy : σ) (t : TensorAverage R)
      (blocks : List (Block R)), source.metadata = .ok m → m.Fits → p.validate = .ok () →
      (averageDensity source p.selection).Returns t → source.series densitySeries p.estimator p.path = .ok blocks →
      (window p.equilibration p.stride blocks).length = 1 →
      (p.samples < 2 ^ 58 →
        (naturalOccupations solver source p entropy).outcome = .error (.reported (perturbation 0 0))) ∧
      (2 ^ 58 ≤ p.samples → (naturalOccupations solver source p entropy).outcome = .error .capacity) := by
  refine ⟨fun p error samples screenFactor cutoff state => occupations_outcome solver screenFactor cutoff state p error
    samples, ?_⟩
  intro _ source m p entropy t blocks read sized valid averaged series single
  obtain ⟨fits, first⟩ := single_block_refused read sized averaged series single
  have central := occupations_central solver source p entropy valid
  rw [centralOccupations, averaged] at central
  constructor
  · intro room
    exact (except_map_error_iff _ _ _).mp (central.trans (occupation_values_refused fits room first))
  · intro full
    exact (except_map_error_iff _ _ _).mp (central.trans (occupation_values_without_room fits full))

local instance steadyStream : NormalStream Unit Float where
  ofSeed _ := ()
  next state := (1.0, state)

def pairTensor {α : Type} (first second : Nat → Nat → α) : SpinTensor α where
  sectors := [Mat.ofFn 2 2 first, Mat.ofFn 2 2 second]
  uniform := List.forall_mem_cons.mpr ⟨rfl, List.forall_mem_singleton.mpr rfl⟩

theorem pair_tensors_match {α β : Type} (a b : Nat → Nat → α) (c d : Nat → Nat → β) :
    (pairTensor a b).Matches (pairTensor c d) :=
  ⟨Nat.succ_ne_zero 1, rfl⟩

def spinPair : SpinTensor (Cplx Float) :=
  pairTensor (fun i j => ⟨if i = j then 0.5 else 0.125, 0.0⟩) fun _ _ => ⟨0.25, 0.0⟩

-- Undefined in the last column of the first row.
def strayError (i j : Nat) : Float := if i = 0 ∧ j = 1 then 0.0 / 0.0 else 0.5

def singleBlock : Source Float := ⟨.ok ⟨2, 2, false⟩, fun _ _ _ => .ok [#[⟨0.5, 0.0⟩, 0, 0, 0, 0, 0, 0, 0]]⟩

def singleParams : Params Float := ⟨.mixed, 0, 1, none, 2, 1.0, 0.0, none⟩

-- With an undefined error in the upper triangle of the second sector, the draws stop at its mirror image,
-- which comes first column by column.
theorem occupations_end_pair :
    (occupationsOf Eigen.solve spinPair (pairTensor (fun _ _ => 0.25) strayError) 2 1.0 0.0 ()).outcome =
      .error (.reported (perturbation 1 0)) ∧
    (∃ occupations, (occupationsOf Eigen.solve spinPair (pairTensor (fun _ _ => 0.25) fun _ _ => 0.5) 2 1.0 0.0
      ()).outcome = .ok occupations ∧ occupations.1.values.length = 2 ∧ occupations.1.errors.length = 2) ∧
    (naturalOccupations Eigen.solve singleBlock singleParams ()).outcome = .error (.reported (perturbation 0 0)) := by
  obtain ⟨ends, single⟩ := occupations_end (σ := Unit) (R := Float) Eigen.solve
  refine ⟨?_, ?_, ?_⟩
  · have first : (pairTensor (fun _ _ => 0.25) strayError).combinedError.FirstRefused 2 1 0 := by
      refine ⟨by decide, by decide, by decide +kernel, fun k l row _ earlier => ?_⟩
      obtain ⟨rfl, rfl⟩ : k = 0 ∧ l = 0 := by omega
      decide +kernel
    exact ((ends _ _ 2 1.0 0.0 ()).perturbation 1 0).mpr ⟨le_rfl, by decide, pair_tensors_match _ _ _ _, first⟩
  · have drawable : (pairTensor (fun _ _ => 0.25) fun _ _ => (0.5 : Float)).combinedError.Drawable 2 := by
      intro i j row col
      have entry : ∀ i < 2, ∀ j < 2,
          Scalar.isFinite ((pairTensor (fun _ _ => 0.25) fun _ _ => (0.5 : Float)).combinedError.entry i j) = true := by
        decide +kernel
      exact entry i row j col
    obtain ⟨occupations, returned⟩ := (ends spinPair _ 2 1.0 0.0 ()).returns.mpr
      ⟨le_rfl, by decide, pair_tensors_match _ _ _ _, drawable⟩
    exact ⟨occupations, returned, (ends _ _ 2 1.0 0.0 ()).lengths occupations returned⟩
  · obtain ⟨t, averaged⟩ :=
      Run.returns_of_ok (x := averageDensity singleBlock singleParams.selection) (by decide +kernel)
    have sized : Metadata.Fits ⟨2, 2, false⟩ := fun walker _ => layout_length_fits walker (by decide)
    have refused := single singleBlock ⟨2, 2, false⟩ singleParams () t _ rfl sized (by decide +kernel) averaged rfl rfl
    exact refused.1 (by decide)

def pointTensor {α : Type} (a : α) : SpinTensor α where
  sectors := [Mat.ofFn 1 1 fun _ _ => a]
  uniform := List.forall_mem_singleton.mpr rfl

theorem point_tensors_match {α β : Type} (a : α) (b : β) : (pointTensor a).Matches (pointTensor b) :=
  ⟨Nat.one_ne_zero, rfl⟩

-- More samples than any memory can hold, with a finite error.
theorem occupations_full_without_room :
    (pointTensor (⟨0.5, 0.0⟩ : Cplx Float)).Matches (pointTensor (0.0 : Float)) ∧
    (pointTensor (0.0 : Float)).combinedError.Drawable 1 ∧
    (occupationsOf Eigen.solve (pointTensor ⟨0.5, 0.0⟩) (pointTensor 0.0) (2 ^ 58) 0.0 0.0 ()).outcome =
      .error .capacity := by
  refine ⟨point_tensors_match _ _, Mat.drawable_point (by decide +kernel), ?_⟩
  have enough : 2 ≤ 2 ^ 58 := by decide
  have decided := occupations_of_counted (σ := Unit) (R := Float) Eigen.solve (pointTensor ⟨0.5, 0.0⟩) (pointTensor 0.0)
    enough 0.0 0.0
  exact decided.fails _ (occupation_values_without_room (point_tensors_match _ _) le_rfl) ()

end OrbitalSpectra
