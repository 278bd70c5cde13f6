import OrbitalSpectra.Proofs.Average.TensorEntries

set_option autoImplicit false

namespace OrbitalSpectra

theorem tensor_average_law [Build] (observable : TensorObservable) (metadata : Metadata) (fits : metadata.Fits)
    (s : Selection) :
    (∀ (R : Type) [Scalar R] (history : List (Insertion (Cplx R))),
      (∃ t, (observable.average (Store.ofHistory metadata history).source s).Returns t) ↔
        ∃ blocks sectors dim, Insertion.held history observable.name s.estimator s.path = some blocks ∧
          Averageable metadata s blocks sectors dim) ∧
    ∀ (history : List (Insertion ℂ)) (blocks : List (Array ℂ)) (sectors dim : Nat),
      Insertion.held history observable.name s.estimator s.path = some blocks →
      Averageable metadata s blocks sectors dim →
      ∃ t, (observable.average
          (Store.ofHistory metadata (history.map (Insertion.map Cplx.exact))).source s).Returns t ∧
        t.mean.shape = (sectors, dim, dim) ∧ t.error.shape = (sectors, dim, dim) ∧
        ∀ sector i j, sector < sectors → i < dim → j < dim →
          let positions := retained s.equilibration s.stride blocks.length
          let entries := fun b => (blocks.getD b #[]).getD (sector * (dim * dim) + i * dim + j) 0
          t.mean.get? sector i j =
            some (Cplx.exact (observable.weight metadata.walkerCode * blockMean positions entries)) ∧
          t.error.get? sector i j = some (blockError positions entries) := by
  constructor
  · intro R _ history
    exact observable.average_defined_iff fits s history
  · intro history blocks sectors dim series able
    have stored : Insertion.held (history.map (Insertion.map Cplx.exact)) observable.name s.estimator s.path =
        some (blocks.map fun block => block.map Cplx.exact) := by
      rw [Insertion.held_map, series, Option.map_some]
    have exact : Averageable metadata s (blocks.map fun block => block.map Cplx.exact) sectors dim := able.map Cplx.exact
    obtain ⟨t, returned⟩ := (observable.average_defined_iff fits s _).mpr ⟨_, sectors, dim, stored, exact⟩
    have read : (Store.ofHistory metadata (history.map (Insertion.map Cplx.exact))).source.metadata = .ok metadata := by
      rw [store_metadata, Store.history_metadata]
    obtain ⟨mean, error⟩ := observable.average_entries metadata s history blocks sectors dim series able t returned
      (observable.average_fits read fits returned)
    have positive := flat_layout_sectors able.layout
    refine ⟨t, returned, ?_, ?_, ?_⟩
    · exact SpinTensor.stack_shape t.mean sectors dim _ (fun _ => rfl) positive mean
    · exact SpinTensor.stack_shape t.error sectors dim _ (fun _ => rfl) positive error
    · intro sector i j inside row col
      exact ⟨SpinTensor.stack_get t.mean sectors dim _ mean inside row col,
        SpinTensor.stack_get t.error sectors dim _ error inside row col⟩

theorem tensor_average_law_beta : ∃ t : TensorAverage Exact,
    (averageDensity (Store.ofHistory ⟨1, 2, false⟩
      ([⟨"one_rdm", .mixed, 4, [#[9, 9], #[1, 2], #[3, 6]]⟩, ⟨"one_rdm", .mixed, 2, []⟩].map
        (Insertion.map Cplx.exact))).source ⟨.mixed, 1, 1, none⟩).Returns t ∧
      t.mean.get? 1 0 0 = some (Cplx.exact 4) ∧ t.error.get? 1 0 0 = some (.value 2) := by
  have able : Averageable ⟨1, 2, false⟩ ⟨.mixed, 1, 1, none⟩ ([#[9, 9], #[1, 2], #[3, 6]] : List (Array ℂ)) 2 1 :=
    ⟨rfl, by decide, by decide, by decide, rfl, by decide, by decide⟩
  have fits : Metadata.Fits ⟨1, 2, false⟩ := by
    rintro (_ | _ | _ | _) _ <;> decide
  obtain ⟨t, returned, _, _, entries⟩ := (tensor_average_law .density ⟨1, 2, false⟩ fits
    ⟨.mixed, 1, 1, none⟩).2
    [⟨"one_rdm", .mixed, 4, [#[9, 9], #[1, 2], #[3, 6]]⟩, ⟨"one_rdm", .mixed, 2, []⟩] _ 2 1 rfl able
  have positions : retained 1 1 3 = {1, 2} := by decide
  obtain ⟨mean, error⟩ := entries 1 0 0 (by decide) (by decide) (by decide)
  refine ⟨t, returned, ?_, ?_⟩
  · rw [mean]
    simp [positions, blockMean, TensorObservable.weight]
    norm_num
  · rw [error]
    have root : Real.sqrt 8 / Real.sqrt 2 = 2 := by
      rw [← Real.sqrt_div (by norm_num), show (8 / 2 : ℝ) = 2 ^ 2 by norm_num]
      exact Real.sqrt_sq (by norm_num)
    simp [positions, blockError, blockMean]
    norm_num [root]

end OrbitalSpectra
