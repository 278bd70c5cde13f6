import OrbitalSpectra.Proofs.Average.Reading
import OrbitalSpectra.Proofs.Exact.Number
import OrbitalSpectra.Proofs.Store.History

set_option autoImplicit false

namespace OrbitalSpectra

inductive TensorObservable
  | density
  | fock (sign : FockSign)

namespace TensorObservable

variable {R : Type} [Scalar R] [Build]

def name : TensorObservable → String
  | density => "one_rdm"
  | fock .plus => "gen_fock_plus"
  | fock .minus => "gen_fock_minus"

def average (source : Source R) (s : Selection) : TensorObservable → Run (TensorAverage R)
  | density => averageDensity source s
  | fock sign => averageFock source sign s

-- The spin sum that a closed run leaves out of its Fock matrices.
def weight (code : Int) : TensorObservable → ℝ
  | density => 1
  | fock _ => if code = 1 then 2 else 1

end TensorObservable

noncomputable section

def blockMean (positions : Finset Nat) (x : Nat → ℂ) : ℂ := (∑ b ∈ positions, x b) / positions.card

def blockError (positions : Finset Nat) (x : Nat → ℂ) : Exact :=
  let n : ℝ := positions.card
  if positions.card = 1 then .undefined
  else .value (Real.sqrt ((∑ b ∈ positions, ((x b).re - (blockMean positions x).re) ^ 2) / (n * (n - 1))))

end

theorem mean_exact (zs : List ℂ) (some : zs ≠ []) :
    mean (zs.map Cplx.exact) = Cplx.exact (zs.sum / zs.length) := by
  have positive : (zs.length : ℝ) ≠ 0 := by
    simpa using some
  rw [mean, total_exact, List.length_map, Exact.nat_eq, Cplx.exact_div _ _ positive]
  simp

theorem squared_deviations_value (center : ℝ) (xs : List ℝ) :
    squaredDeviations (.value center) (xs.map Exact.value) =
      .value ((xs.map fun x => (x - center) ^ 2).sum) := by
  rw [squaredDeviations, ← total_value, List.map_map, List.map_map]
  congr 1
  apply List.map_congr_left
  intro x _
  simp only [Function.comp, Exact.value_sub, Exact.value_mul, pow_two]

theorem standard_error_exact (zs : List ℂ) (some : zs ≠ []) :
    standardError (zs.map Cplx.exact) =
      if zs.length = 1 then Exact.undefined
      else .value (Real.sqrt
        ((zs.map fun z => (z.re - (zs.sum / zs.length).re) ^ 2).sum / (zs.length * (zs.length - 1)))) := by
  have parts : (zs.map Cplx.exact).map Cplx.re = (zs.map Complex.re).map Exact.value := by
    simp [List.map_map, Function.comp_def]
  have sum : squaredDeviations (mean (zs.map Cplx.exact)).re ((zs.map Cplx.exact).map Cplx.re) =
      .value ((zs.map fun z => (z.re - (zs.sum / zs.length).re) ^ 2).sum) := by
    rw [mean_exact zs some, parts, Cplx.exact_re, squared_deviations_value, List.map_map]
    rfl
  have divisor : ((zs.map Cplx.exact).length - 1 : Exact) * ((zs.map Cplx.exact).length : Exact) =
      .value (zs.length * (zs.length - 1)) := by
    simp [mul_comm]
  rw [standardError, sum, divisor]
  by_cases single : zs.length = 1
  · rw [if_pos single]
    simp only [single, Nat.cast_one, sub_self, mul_zero, Exact.value_div_zero, Exact.undefined_sqrt]
  · have several : (1 : ℝ) < zs.length := by
      have positive := List.length_pos_iff.mpr some
      exact_mod_cast (by omega : 1 < zs.length)
    have nonzero : (zs.length : ℝ) * (zs.length - 1) ≠ 0 := by nlinarith
    rw [if_neg single, Exact.value_div _ _ nonzero, Exact.value_sqrt]
    apply div_nonneg
    · apply List.sum_nonneg
      intro x member
      obtain ⟨z, _, rfl⟩ := List.mem_map.mp member
      positivity
    · nlinarith

theorem column_exact (blocks : List (Array ℂ)) (k : Nat) :
    column (blocks.map fun block => block.map Cplx.exact) k =
      (blocks.map fun block => block.getD k 0).map Cplx.exact := by
  simp only [column, List.map_map]
  apply List.map_congr_left
  intro block _
  by_cases inside : k < block.size
  · simp [Array.getD_eq_getD_getElem?, inside]
  · simp [Array.getD_eq_getD_getElem?, inside, Cplx.exact_zero]

theorem window_map {α β : Type} (f : α → β) (equilibration stride : Nat) (xs : List α) :
    window equilibration stride (xs.map f) = (window equilibration stride xs).map f := by
  rw [window, window, ← List.map_drop, List.zipIdx_map, List.filterMap_map, List.map_filterMap]
  apply List.filterMap_congr
  intro pair _
  by_cases kept : pair.2 % stride = 0 <;> simp [kept]

theorem window_mean (equilibration stride : Nat) (blocks : List (Array ℂ)) (k : Nat)
    (enough : equilibration < blocks.length) :
    mean (column (window equilibration stride (blocks.map fun block => block.map Cplx.exact)) k) =
      Cplx.exact (blockMean (retained equilibration stride blocks.length) fun b =>
        (blocks.getD b #[]).getD k 0) := by
  have some : (window equilibration stride blocks).map (fun block => block.getD k 0) ≠ [] := by
    simp [window_empty_iff, enough]
  rw [window_map, column_exact, mean_exact _ some, List.length_map, window_length, window_sum _ _ _ #[]]
  rfl

theorem window_error (equilibration stride : Nat) (blocks : List (Array ℂ)) (k : Nat)
    (enough : equilibration < blocks.length) :
    standardError (column (window equilibration stride (blocks.map fun block => block.map Cplx.exact)) k) =
      blockError (retained equilibration stride blocks.length) fun b => (blocks.getD b #[]).getD k 0 := by
  have some : (window equilibration stride blocks).map (fun block => block.getD k 0) ≠ [] := by
    simp [window_empty_iff, enough]
  rw [window_map, column_exact, standard_error_exact _ some, List.length_map, List.map_map, window_length,
    window_sum _ _ _ #[], window_sum _ _ _ #[]]
  rfl

theorem sector_mean_exact (equilibration stride : Nat) (blocks : List (Array ℂ)) (dim : Nat)
    (enough : equilibration < blocks.length) :
    sectorMean (window equilibration stride (blocks.map fun block => block.map Cplx.exact)) dim =
      fun s => Mat.ofFn dim dim fun i j =>
        Cplx.exact (blockMean (retained equilibration stride blocks.length) fun b =>
          (blocks.getD b #[]).getD (s * (dim * dim) + i * dim + j) 0) := by
  funext s
  simp only [sectorMean, window_mean _ _ _ _ enough]

theorem sector_error_exact (equilibration stride : Nat) (blocks : List (Array ℂ)) (dim : Nat)
    (enough : equilibration < blocks.length) :
    sectorError (window equilibration stride (blocks.map fun block => block.map Cplx.exact)) dim =
      fun s => Mat.ofFn dim dim fun i j =>
        blockError (retained equilibration stride blocks.length) fun b =>
          (blocks.getD b #[]).getD (s * (dim * dim) + i * dim + j) 0 := by
  funext s
  simp only [sectorError, window_error _ _ _ _ enough]

namespace TensorObservable

variable {R : Type} [Scalar R] [Build]

def present (walker : WalkerType) (t : TensorAverage R) : TensorObservable → TensorAverage R
  | density => t
  | fock _ =>
      match walker with
      | .closed => { t with mean := t.mean.map fun z => z.scale 2.0 }
      | _ => t

theorem average_returns (observable : TensorObservable) (source : Source R) (s : Selection) (t : TensorAverage R) :
    (observable.average source s).Returns t ↔ ∃ walker raw,
      (averageTensor source observable.name s).Returns (walker, raw) ∧ observable.present walker raw = t := by
  cases observable with
  | density =>
      simp only [average, averageDensity, Run.bind_returns, Prod.exists, Run.pure_returns]
      rfl
  | fock sign =>
      have named : sign.observable = (fock sign).name := by cases sign <;> decide
      simp only [average, averageFock, Run.bind_returns, Prod.exists, named]
      constructor
      · rintro ⟨walker, raw, averaged, rest⟩
        refine ⟨walker, raw, averaged, ?_⟩
        cases walker <;> exact (Run.pure_returns _ _).mp rest
      · rintro ⟨walker, raw, averaged, rest⟩
        refine ⟨walker, raw, averaged, ?_⟩
        cases walker <;> exact (Run.pure_returns _ _).mpr rest

omit [Build] in
theorem present_nonempty (observable : TensorObservable) (walker : WalkerType) (raw : TensorAverage R) :
    (observable.present walker raw).mean.sectors ≠ [] ↔ raw.mean.sectors ≠ [] := by
  have doubled : ((raw.mean.map fun z => z.scale 2.0).sectors ≠ []) ↔ raw.mean.sectors ≠ [] :=
    not_congr List.map_eq_nil_iff
  cases observable with
  | density => exact Iff.rfl
  | fock sign =>
      cases walker with
      | closed => exact doubled
      | undefined => exact Iff.rfl
      | collinear => exact Iff.rfl
      | nonCollinear => exact Iff.rfl

-- Where the sizes of a run fit, its averages have sectors.
theorem average_fits (observable : TensorObservable) {source : Source R} {s : Selection} {m : Metadata}
    {t : TensorAverage R} (read : source.metadata = .ok m) (fits : m.Fits)
    (returned : (observable.average source s).Returns t) : t.mean.sectors ≠ [] := by
  obtain ⟨walker, raw, averaged, rfl⟩ := (observable.average_returns _ _ _).mp returned
  exact (observable.present_nonempty walker raw).mpr (average_tensor_fits read fits averaged)

theorem history_returns (observable : TensorObservable) (metadata : Metadata) (s : Selection)
    (history : List (Insertion (Cplx R))) (t : TensorAverage R) :
    (observable.average (Store.ofHistory metadata history).source s).Returns t ∧ t.mean.sectors ≠ [] ↔
      ∃ walker raw blocks sectors dim, metadata.walker = .ok walker ∧
        Insertion.held history observable.name s.estimator s.path = some blocks ∧
        Averageable metadata s blocks sectors dim ∧
        raw.mean.sectors = (List.range sectors).map (sectorMean (window s.equilibration s.stride blocks) dim) ∧
        raw.error.sectors = (List.range sectors).map (sectorError (window s.equilibration s.stride blocks) dim) ∧
        observable.present walker raw = t := by
  rw [average_returns]
  constructor
  · rintro ⟨⟨walker, raw, averaged, rfl⟩, nonempty⟩
    have held := (average_tensor_returns _ _ _ _ _).mp ⟨averaged, (observable.present_nonempty walker raw).mp nonempty⟩
    simp only [store_metadata, Store.history_metadata, store_series, Store.series_of_history] at held
    obtain ⟨_, blocks, sectors, dim, rfl, known, series, able, mean, error⟩ := held
    exact ⟨walker, raw, blocks, sectors, dim, known, series, able, mean, error, rfl⟩
  · rintro ⟨walker, raw, blocks, sectors, dim, known, series, able, mean, error, rfl⟩
    have returned := (average_tensor_returns (Store.ofHistory metadata history).source observable.name s walker raw).mpr
      ⟨metadata, blocks, sectors, dim, by rw [store_metadata, Store.history_metadata], known,
        by rw [store_series, Store.series_of_history, series], able, mean, error⟩
    exact ⟨⟨walker, raw, returned.1, rfl⟩, (observable.present_nonempty walker raw).mpr returned.2⟩

end TensorObservable

namespace SpinTensor

variable {α β : Type}

theorem stack_exists (count dim : Nat) (f : Nat → Mat α) (square : ∀ s, (f s).shape = (dim, dim)) :
    ∃ t : SpinTensor α, t.sectors = (List.range count).map f := by
  refine ⟨⟨(List.range count).map f, ?_⟩, rfl⟩
  intro m member
  obtain ⟨s, inside, rfl⟩ := List.mem_map.mp member
  have positive : 0 < count := by
    have below := List.mem_range.mp inside
    omega
  obtain ⟨k, rfl⟩ : ∃ k, count = k + 1 := ⟨count - 1, by omega⟩
  simp [List.range_succ_eq_map, commonDim, square]

theorem stack_shape (t : SpinTensor α) (count dim : Nat) (f : Nat → Mat α) (square : ∀ s, (f s).shape = (dim, dim))
    (positive : 0 < count) (stacked : t.sectors = (List.range count).map f) : t.shape = (count, dim, dim) := by
  obtain ⟨k, rfl⟩ : ∃ k, count = k + 1 := ⟨count - 1, by omega⟩
  simp [shape, SpinTensor.count, SpinTensor.dim, stacked, List.range_succ_eq_map, commonDim, square]

theorem stack_get (t : SpinTensor α) (count dim : Nat) (f : Nat → Nat → Nat → α)
    (stacked : t.sectors = (List.range count).map fun s => Mat.ofFn dim dim (f s)) {s i j : Nat}
    (sector : s < count) (row : i < dim) (col : j < dim) : t.get? s i j = some (f s i j) := by
  simp [get?, stacked, sector, Mat.get_of_fn, row, col]

theorem map_stack (g : α → β) (t : SpinTensor α) (count dim : Nat) (f : Nat → Nat → Nat → α)
    (stacked : t.sectors = (List.range count).map fun s => Mat.ofFn dim dim (f s)) :
    (t.map g).sectors = (List.range count).map fun s => Mat.ofFn dim dim fun i j => g (f s i j) := by
  simp only [map, stacked, List.map_map, Function.comp_def, Mat.map_of_fn]

end SpinTensor

theorem two_scale (z : ℂ) : (Cplx.exact z).scale 2.0 = Cplx.exact ((2 : ℝ) * z) := by
  rw [Exact.two_eq, Cplx.exact_scale, mul_comm]

namespace TensorObservable

theorem present_error {R : Type} [Scalar R] (observable : TensorObservable) (walker : WalkerType)
    (t : TensorAverage R) : (observable.present walker t).error = t.error := by
  cases observable <;> cases walker <;> rfl

theorem present_mean (observable : TensorObservable) (walker : WalkerType) (t : TensorAverage Exact)
    (count dim : Nat) (f : Nat → Nat → Nat → ℂ)
    (stacked : t.mean.sectors = (List.range count).map fun s => Mat.ofFn dim dim fun i j => Cplx.exact (f s i j)) :
    (observable.present walker t).mean.sectors = (List.range count).map fun s => Mat.ofFn dim dim fun i j =>
      Cplx.exact (observable.weight walker.code * f s i j) := by
  have doubled := SpinTensor.map_stack (fun z => z.scale 2.0) t.mean count dim _ stacked
  simp only [two_scale] at doubled
  cases observable with
  | density => simpa [present, weight] using stacked
  | fock sign =>
      cases walker with
      | closed => simpa [present, weight, WalkerType.code] using doubled
      | undefined => simpa [present, weight, WalkerType.code] using stacked
      | collinear => simpa [present, weight, WalkerType.code] using stacked
      | nonCollinear => simpa [present, weight, WalkerType.code] using stacked

variable [Build]

-- In a layout that fits there is an average for nothing but what has one.
theorem average_defined_iff {R : Type} [Scalar R] (observable : TensorObservable) {metadata : Metadata}
    (fits : metadata.Fits) (s : Selection) (history : List (Insertion (Cplx R))) :
    (∃ t, (observable.average (Store.ofHistory metadata history).source s).Returns t) ↔
      ∃ blocks sectors dim, Insertion.held history observable.name s.estimator s.path = some blocks ∧
        Averageable metadata s blocks sectors dim := by
  constructor
  · rintro ⟨t, returned⟩
    have read : (Store.ofHistory metadata history).source.metadata = .ok metadata := by
      rw [store_metadata, Store.history_metadata]
    have held := (history_returns observable metadata s history t).mp ⟨returned, observable.average_fits read fits returned⟩
    obtain ⟨_, _, blocks, sectors, dim, _, series, able, _⟩ := held
    exact ⟨blocks, sectors, dim, series, able⟩
  · rintro ⟨blocks, sectors, dim, series, able⟩
    obtain ⟨walker, defined, code, _⟩ := (flat_layout_iff _ _ _ _).mp able.layout
    obtain ⟨mean, means⟩ := SpinTensor.stack_exists sectors dim
      (sectorMean (window s.equilibration s.stride blocks) dim) fun _ => rfl
    obtain ⟨error, errors⟩ := SpinTensor.stack_exists sectors dim
      (sectorError (window s.equilibration s.stride blocks) dim) fun _ => rfl
    exact ⟨_, ((history_returns observable metadata s history _).mpr ⟨walker, ⟨mean, error⟩, blocks, sectors, dim,
      (walker_ok_iff _ _).mpr ⟨defined, code⟩, series, able, means, errors, rfl⟩).1⟩

theorem average_entries (observable : TensorObservable) (metadata : Metadata) (s : Selection)
    (history : List (Insertion ℂ)) (blocks : List (Array ℂ)) (sectors dim : Nat)
    (series : Insertion.held history observable.name s.estimator s.path = some blocks)
    (able : Averageable metadata s blocks sectors dim) (t : TensorAverage Exact)
    (returned : (observable.average
      (Store.ofHistory metadata (history.map (Insertion.map Cplx.exact))).source s).Returns t)
    (nonempty : t.mean.sectors ≠ []) :
    t.mean.sectors = ((List.range sectors).map fun sector => Mat.ofFn dim dim fun i j =>
      Cplx.exact (observable.weight metadata.walkerCode *
        blockMean (retained s.equilibration s.stride blocks.length) fun b =>
          (blocks.getD b #[]).getD (sector * (dim * dim) + i * dim + j) 0)) ∧
    t.error.sectors = (List.range sectors).map fun sector => Mat.ofFn dim dim fun i j =>
      blockError (retained s.equilibration s.stride blocks.length) fun b =>
        (blocks.getD b #[]).getD (sector * (dim * dim) + i * dim + j) 0 := by
  obtain ⟨walker, raw, held, count, order, known, found, fits, mean, error, rfl⟩ :=
    (history_returns _ _ _ _ _).mp ⟨returned, nonempty⟩
  rw [Insertion.held_map, series, Option.map_some, Option.some.injEq] at found
  subst found
  cases Option.some.inj (fits.layout.symm.trans able.layout)
  have code := ((walker_ok_iff _ _).mp known).2
  rw [sector_mean_exact _ _ _ _ able.enough] at mean
  rw [sector_error_exact _ _ _ _ able.enough] at error
  rw [code, present_error]
  exact ⟨present_mean observable walker raw sectors dim _ mean, error⟩

end TensorObservable

end OrbitalSpectra
