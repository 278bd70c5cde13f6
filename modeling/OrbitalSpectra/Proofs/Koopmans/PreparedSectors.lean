import OrbitalSpectra.Proofs.CentralResults

set_option autoImplicit false

namespace OrbitalSpectra

variable {R : Type} [Scalar R]

def TensorObservable.read (walker : WalkerType) (e : Entries R) : TensorObservable → Entries R
  | density => e
  | fock _ => e.overSpins walker

theorem present_stacked (observable : TensorObservable) (walker : WalkerType) {raw : TensorAverage R} {count dim : Nat}
    {e : Entries R} (stacked : raw.Stacked count dim e) :
    (observable.present walker raw).Stacked count dim (observable.read walker e) := by
  have doubled := SpinTensor.map_stack (fun z => z.scale 2.0) raw.mean count dim e.mean stacked.mean
  cases observable with
  | density => exact stacked
  | fock sign =>
      cases walker with
      | closed => exact ⟨doubled, stacked.error⟩
      | undefined => exact stacked
      | collinear => exact stacked
      | nonCollinear => exact stacked

variable [Build]

-- The blocks of an observable are there and have an average in the layout of the run.
structure Source.Averages (source : Source R) (s : Selection) (m : Metadata) (count dim : Nat)
    (observable : TensorObservable) (blocks : List (Block R)) : Prop where
  metadata : source.metadata = .ok m
  series : source.series observable.name s.estimator s.path = .ok blocks
  able : Averageable m s blocks count dim

def TensorObservable.entries (observable : TensorObservable) (s : Selection) (walker : WalkerType) (dim : Nat)
    (blocks : List (Block R)) : Entries R :=
  observable.read walker (Entries.ofBlocks (window s.equilibration s.stride blocks) dim)

theorem average_stacked (observable : TensorObservable) {source : Source R} {s : Selection} {t : TensorAverage R}
    (returned : (observable.average source s).Returns t) (nonempty : t.mean.sectors ≠ []) :
    ∃ m walker count dim blocks, m.walker = .ok walker ∧ source.Averages s m count dim observable blocks ∧
      t.Stacked count dim (observable.entries s walker dim blocks) := by
  obtain ⟨walker, raw, averaged, rfl⟩ := (observable.average_returns _ _ _).mp returned
  obtain ⟨m, blocks, count, dim, metadata, known, series, able, mean, error⟩ :=
    (average_tensor_returns _ _ _ _ _).mp ⟨averaged, (observable.present_nonempty walker raw).mp nonempty⟩
  exact ⟨m, walker, count, dim, blocks, known, ⟨metadata, series, able⟩,
    present_stacked observable walker ⟨mean, error⟩⟩

theorem average_returns_of_averages {source : Source R} {s : Selection} {m : Metadata} {count dim : Nat}
    {observable : TensorObservable} {blocks : List (Block R)}
    (averages : source.Averages s m count dim observable blocks) :
    ∃ t, (observable.average source s).Returns t ∧ t.mean.sectors ≠ [] := by
  obtain ⟨walker, defined, code, _⟩ := (flat_layout_iff _ _ _ _).mp averages.able.layout
  obtain ⟨mean, means⟩ := SpinTensor.stack_exists count dim
    (sectorMean (window s.equilibration s.stride blocks) dim) fun _ => rfl
  obtain ⟨error, errors⟩ := SpinTensor.stack_exists count dim
    (sectorError (window s.equilibration s.stride blocks) dim) fun _ => rfl
  have raw := (average_tensor_returns source observable.name s walker ⟨mean, error⟩).mpr
    ⟨m, blocks, count, dim, averages.metadata, (walker_ok_iff _ _).mpr ⟨defined, code⟩, averages.series,
      averages.able, means, errors⟩
  exact ⟨_, (observable.average_returns _ _ _).mpr ⟨walker, _, raw.1, rfl⟩,
    (observable.present_nonempty walker _).mpr raw.2⟩

structure Source.Prepares (source : Source R) (s : Selection) (m : Metadata) (walker : WalkerType) (count dim : Nat)
    (density removal addition : List (Block R)) : Prop where
  walker : m.walker = .ok walker
  density : source.Averages s m count dim .density density
  removal : source.Averages s m count dim (.fock .minus) removal
  addition : source.Averages s m count dim (.fock .plus) addition

def preparedSector (p : Params R) (walker : WalkerType) (dim : Nat) (density removal addition : List (Block R)) (s : Nat) :
    SectorAverages R :=
  let entries (observable : TensorObservable) (blocks : List (Block R)) :=
    (observable.entries p.selection walker dim blocks).screened p.screenFactor
  Entries.sector (entries .density density) (entries (.fock .minus) removal) (entries (.fock .plus) addition) dim s

variable {source : Source R} {p : Params R}

theorem average_stacked_in (observable : TensorObservable) {s : Selection} {m : Metadata} {walker : WalkerType}
    {count dim : Nat} {blocks : List (Block R)} {t : TensorAverage R} (known : m.walker = .ok walker)
    (averages : source.Averages s m count dim observable blocks)
    (returned : (observable.average source s).Returns t) :
    t.Stacked count dim (observable.entries s walker dim blocks) := by
  obtain ⟨t', returned', nonempty⟩ := average_returns_of_averages averages
  obtain rfl := Run.returns_unique returned' returned
  obtain ⟨m', walker', count', dim', blocks', known', averages', stacked⟩ := average_stacked observable returned nonempty
  cases Except.ok.inj (averages.metadata.symm.trans averages'.metadata)
  cases Except.ok.inj (known.symm.trans known')
  cases Except.ok.inj (averages.series.symm.trans averages'.series)
  cases Option.some.inj (averages.able.layout.symm.trans averages'.able.layout)
  exact stacked

theorem prepared_sectors_of_averages {m : Metadata} {walker : WalkerType} {count dim : Nat}
    {density removal addition : List (Block R)} {d r a : TensorAverage R}
    (prepares : source.Prepares p.selection m walker count dim density removal addition)
    (densityMean : (averageDensity source p.selection).Returns d)
    (removalMean : (averageFock source .minus p.selection).Returns r)
    (additionMean : (averageFock source .plus p.selection).Returns a) :
    (preparedSectors source p).Returns
      ((List.range count).map (preparedSector p walker dim density removal addition)) := by
  have known := prepares.walker
  obtain ⟨screenedDensity, densityOk, densityStacked⟩ := screened_stacked
    (average_stacked_in .density known prepares.density densityMean) p.screenFactor
  obtain ⟨screenedRemoval, removalOk, removalStacked⟩ := screened_stacked
    (average_stacked_in (.fock .minus) known prepares.removal removalMean) p.screenFactor
  obtain ⟨screenedAddition, additionOk, additionStacked⟩ := screened_stacked
    (average_stacked_in (.fock .plus) known prepares.addition additionMean) p.screenFactor
  simp only [preparedSectors, Run.bind_returns, Run.lift_returns, reporting_ok_iff]
  exact ⟨d, densityMean, a, additionMean, r, removalMean, screenedDensity, densityOk, screenedRemoval, removalOk,
    screenedAddition, additionOk, sector_averages_stacked densityStacked removalStacked additionStacked⟩

theorem prepared_averages_exist {d r a : TensorAverage R}
    (densityMean : (averageDensity source p.selection).Returns d) (densities : d.mean.sectors ≠ [])
    (removalMean : (averageFock source .minus p.selection).Returns r) (removals : r.mean.sectors ≠ [])
    (additionMean : (averageFock source .plus p.selection).Returns a) (additions : a.mean.sectors ≠ []) :
    ∃ m walker count dim density removal addition,
      source.Prepares p.selection m walker count dim density removal addition := by
  obtain ⟨m, walker, count, dim, density, known, averages, _⟩ := average_stacked .density densityMean densities
  obtain ⟨m', _, _, _, removal, _, removed, _⟩ := average_stacked (.fock .minus) removalMean removals
  obtain ⟨m'', _, _, _, addition, _, added, _⟩ := average_stacked (.fock .plus) additionMean additions
  cases Except.ok.inj (averages.metadata.symm.trans removed.metadata)
  cases Except.ok.inj (averages.metadata.symm.trans added.metadata)
  cases Option.some.inj (averages.able.layout.symm.trans removed.able.layout)
  cases Option.some.inj (averages.able.layout.symm.trans added.able.layout)
  exact ⟨m, walker, count, dim, density, removal, addition, known, averages, removed, added⟩

theorem prepared_sectors_returns_iff (sectors : List (SectorAverages R)) :
    (preparedSectors source p).Returns sectors ∧ sectors ≠ [] ↔ ∃ m walker count dim density removal addition,
      source.Prepares p.selection m walker count dim density removal addition ∧
        (List.range count).map (preparedSector p walker dim density removal addition) = sectors := by
  constructor
  · rintro ⟨returned, nonempty⟩
    have steps := returned
    simp only [preparedSectors, Run.bind_returns, Run.lift_returns, reporting_ok_iff] at steps
    obtain ⟨d, densityMean, a, additionMean, r, removalMean, _, densityOk, _, removalOk, _, additionOk, averaged⟩ := steps
    obtain ⟨densities, removals, additions⟩ := sector_averages_nonempty averaged nonempty
    obtain ⟨m, walker, count, dim, density, removal, addition, prepares⟩ := prepared_averages_exist
      densityMean (mt (screened_empty_iff densityOk).mpr densities)
      removalMean (mt (screened_empty_iff removalOk).mpr removals)
      additionMean (mt (screened_empty_iff additionOk).mpr additions)
    have again := prepared_sectors_of_averages prepares densityMean removalMean additionMean
    exact ⟨m, walker, count, dim, density, removal, addition, prepares, Run.returns_unique again returned⟩
  · rintro ⟨m, walker, count, dim, density, removal, addition, prepares, rfl⟩
    obtain ⟨d, densityMean, _⟩ := average_returns_of_averages prepares.density
    obtain ⟨r, removalMean, _⟩ := average_returns_of_averages prepares.removal
    obtain ⟨a, additionMean, _⟩ := average_returns_of_averages prepares.addition
    refine ⟨prepared_sectors_of_averages prepares densityMean removalMean additionMean, ?_⟩
    have several := flat_layout_sectors prepares.density.able.layout
    rw [Ne, List.map_eq_nil_iff, List.range_eq_nil]
    omega

end OrbitalSpectra
