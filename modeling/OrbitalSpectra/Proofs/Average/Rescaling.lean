import OrbitalSpectra.Average.Tensors
import OrbitalSpectra.Koopmans
import OrbitalSpectra.Proofs.Average.TensorEntries
import OrbitalSpectra.Proofs.Exact.ScaledMatrix

set_option autoImplicit false

namespace OrbitalSpectra

def BlockAverage.times (a : ℝ) (average : BlockAverage Exact) : BlockAverage Exact :=
  ⟨average.mean.map (Cplx.times a), average.error.map (Exact.times a)⟩

def TensorAverage.times (a : ℝ) (t : TensorAverage Exact) : TensorAverage Exact :=
  ⟨t.mean.map (Cplx.times a), t.error.map (Exact.times a)⟩

def scaledBlocks (a : ℝ) (blocks : List (Block Exact)) : List (Block Exact) :=
  blocks.map fun block => block.map (Cplx.times a)

-- The source with every block of the named observables multiplied.
def Source.times (source : Source Exact) (names : List String) (a : ℝ) : Source Exact where
  metadata := source.metadata
  series name estimator path :=
    if name ∈ names then (source.series name estimator path).map (scaledBlocks a)
    else source.series name estimator path

namespace SpinTensor

variable {α β γ : Type}

theorem ext_sectors {s t : SpinTensor α} (same : s.sectors = t.sectors) : s = t := by
  cases s
  cases t
  simp_all

@[simp] theorem map_sectors (f : α → β) (t : SpinTensor α) : (t.map f).sectors = t.sectors.map (Mat.map f) := rfl

@[simp] theorem map_count (f : α → β) (t : SpinTensor α) : (t.map f).count = t.count := List.length_map _

theorem map_map (f : α → β) (g : β → γ) (t : SpinTensor α) : (t.map f).map g = t.map (g ∘ f) := by
  apply ext_sectors
  simp only [map_sectors, List.map_map, Function.comp_def, Mat.map_map]

end SpinTensor

variable {a : ℝ}

theorem column_times (blocks : List (Block Exact)) (k : Nat) :
    column (scaledBlocks a blocks) k = (column blocks k).map (Cplx.times a) := by
  simp only [column, scaledBlocks, List.map_map]
  apply List.map_congr_left
  intro block _
  by_cases inside : k < block.size
  · simp [Array.getD_eq_getD_getElem?, inside]
  · simp [Array.getD_eq_getD_getElem?, inside]

theorem to_tensor_times [Build] (average : BlockAverage Exact) (walker : WalkerType) (orbitals : Nat) (name : String) :
    (average.times a).toTensor walker orbitals name =
      (average.toTensor walker orbitals name).map (TensorAverage.times a) := by
  cases layout : walker.sectorLayout orbitals with
  | error e =>
      simp only [BlockAverage.toTensor, layout]
      rfl
  | ok held =>
      obtain ⟨sectors, dim⟩ := held
      simp only [BlockAverage.toTensor, layout, BlockAverage.times, SpinTensor.of_row_major_map Cplx.times_zero,
        SpinTensor.of_row_major_map Exact.times_zero]
      change (Except.map _ (SpinTensor.ofRowMajor average.mean sectors dim name) >>= fun mean =>
        Except.map _ (SpinTensor.ofRowMajor average.error sectors dim name) >>= fun error => _) =
        (SpinTensor.ofRowMajor average.mean sectors dim name >>= fun mean =>
          SpinTensor.ofRowMajor average.error sectors dim name >>= fun error => _).map _
      cases SpinTensor.ofRowMajor average.mean sectors dim name with
      | error e => rfl
      | ok mean =>
          cases SpinTensor.ofRowMajor average.error sectors dim name with
          | error e => rfl
          | ok error => rfl

section Blocks

variable (positive : 0 < a)

include positive

theorem average_window_times (blocks : List (Block Exact)) (length : Nat) :
    averageWindow (scaledBlocks a blocks) length = (averageWindow blocks length).times a := by
  simp only [averageWindow, BlockAverage.times, column_times, mean_times, standard_error_times positive, Array.map_ofFn,
    Function.comp_def]

theorem average_blocks_times (blocks : List (Block Exact)) (name : String) (equilibration stride : Nat) :
    averageBlocks (scaledBlocks a blocks) name equilibration stride =
      BlockAverage.times a <$> averageBlocks blocks name equilibration stride := by
  have kept : window equilibration stride (scaledBlocks a blocks) = scaledBlocks a (window equilibration stride blocks) :=
    window_map _ _ _ _
  by_cases zero : stride = 0
  · simp only [averageBlocks, if_pos zero]
    rfl
  · simp only [averageBlocks, if_neg zero, kept]
    cases window equilibration stride blocks with
    | nil =>
        simp only [scaledBlocks, List.map_nil, List.length_map]
        rfl
    | cons first rest =>
        have sizes : (scaledBlocks a (first :: rest)).find? (fun b => b.size ≠ (first.map (Cplx.times a)).size) =
            ((first :: rest).find? fun b => b.size ≠ first.size).map fun b => b.map (Cplx.times a) := by
          simp only [scaledBlocks, List.find?_map, Function.comp_def, Array.size_map]
        have opened : scaledBlocks a (first :: rest) = first.map (Cplx.times a) :: scaledBlocks a rest := rfl
        rw [opened] at sizes ⊢
        simp only [sizes]
        cases (first :: rest).find? fun b => b.size ≠ first.size with
        | some bad =>
            simp only [Option.map_some, Array.size_map]
            rfl
        | none =>
            simp only [Option.map_none, ← opened, average_window_times positive, Array.size_map, map_bind, map_pure]
            simp only [scaledBlocks, List.length_map]

end Blocks

section Averages

variable {source : Source Exact} {names : List String} {name : String}

theorem read_series_times (listed : name ∈ names) (estimator : Estimator) (path : Option Nat) :
    (source.times names a).readSeries name estimator path =
      scaledBlocks a <$> source.readSeries name estimator path := by
  have series : (source.times names a).series name estimator path =
      (source.series name estimator path).map (scaledBlocks a) := if_pos listed
  rw [Source.readSeries, series, Run.recorded_map, Source.readSeries]

theorem read_series_unchanged (unlisted : name ∉ names) (estimator : Estimator) (path : Option Nat) :
    (source.times names a).readSeries name estimator path = source.readSeries name estimator path := by
  have series : (source.times names a).series name estimator path = source.series name estimator path :=
    if_neg unlisted
  rw [Source.readSeries, series, Source.readSeries]

theorem average_tensor_unchanged [Build] (unlisted : name ∉ names) (s : Selection) :
    averageTensor (source.times names a) name s = averageTensor source name s := by
  have observable : averageObservable (source.times names a) name s = averageObservable source name s := by
    simp only [averageObservable, read_series_unchanged unlisted]
    rfl
  simp only [averageTensor, requireAverage, observable]
  rfl

variable (positive : 0 < a) (listed : name ∈ names) (s : Selection)

include positive listed

theorem average_observable_times : averageObservable (source.times names a) name s =
    Option.map (BlockAverage.times a) <$> averageObservable source name s := by
  by_cases zero : s.stride = 0
  · simp only [averageObservable, if_pos zero]
    rfl
  · simp only [averageObservable, if_neg zero, map_bind]
    refine bind_congr fun metadata => ?_
    cases metadata.freeProjection with
    | true => rfl
    | false =>
        simp only [Bool.false_eq_true, if_false, read_series_times listed, bind_map_left, map_bind,
          average_blocks_times positive, map_pure, Option.map_some]

theorem require_average_times :
    requireAverage (source.times names a) name s = BlockAverage.times a <$> requireAverage source name s := by
  simp only [requireAverage, average_observable_times positive listed, bind_map_left, map_bind]
  refine bind_congr fun held => ?_
  cases held <;> rfl

theorem average_tensor_times [Build] : averageTensor (source.times names a) name s =
    (fun held => (held.1, held.2.times a)) <$> averageTensor source name s := by
  simp only [averageTensor, require_average_times positive listed, bind_map_left, map_bind, to_tensor_times,
    Run.lift_map, map_pure]
  rfl

end Averages

section Tensors

variable {source : Source Exact} {names : List String} (s : Selection)

theorem doubled_times (t : SpinTensor (Cplx Exact)) :
    (t.map (Cplx.times a)).map (fun z => z.scale 2.0) = (t.map fun z => z.scale 2.0).map (Cplx.times a) := by
  simp only [SpinTensor.map_map, Function.comp_def, Cplx.times_scale]

theorem average_density_times [Build] (positive : 0 < a) (listed : densitySeries ∈ names) :
    averageDensity (source.times names a) s = TensorAverage.times a <$> averageDensity source s := by
  simp only [averageDensity, average_tensor_times positive listed, bind_map_left, map_bind, map_pure]

theorem average_density_unchanged [Build] (unlisted : densitySeries ∉ names) :
    averageDensity (source.times names a) s = averageDensity source s := by
  rw [averageDensity, average_tensor_unchanged unlisted, averageDensity]

theorem average_fock_times [Build] (positive : 0 < a) (sign : FockSign) (listed : sign.observable ∈ names) :
    averageFock (source.times names a) sign s = TensorAverage.times a <$> averageFock source sign s := by
  simp only [averageFock, average_tensor_times positive listed, bind_map_left, map_bind]
  refine bind_congr fun held => ?_
  obtain ⟨walker, tensor⟩ := held
  cases walker with
  | closed => simp only [map_pure, TensorAverage.times, doubled_times]
  | undefined => rfl
  | collinear => rfl
  | nonCollinear => rfl

end Tensors

end OrbitalSpectra
