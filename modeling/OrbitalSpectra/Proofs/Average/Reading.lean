import OrbitalSpectra.Proofs.Average.Retained
import OrbitalSpectra.Proofs.Pieces

set_option autoImplicit false

namespace OrbitalSpectra

open AnalysisError

variable {R : Type} [Scalar R]

theorem average_blocks_returns (blocks : List (Block R)) (name : String) (equilibration stride : Nat)
    (average : BlockAverage R) :
    (averageBlocks blocks name equilibration stride).Returns average ↔
      stride ≠ 0 ∧ equilibration < blocks.length ∧
        ∃ length, (∀ b ∈ window equilibration stride blocks, b.size = length) ∧
          averageWindow (window equilibration stride blocks) length = average := by
  have empty := window_empty_iff equilibration stride blocks
  by_cases zero : stride = 0
  · simp [averageBlocks, zero, Run.bind_returns, Run.throw_returns]
  · cases held : window equilibration stride blocks with
    | nil =>
        have short := empty.mp held
        have none : ¬ (averageBlocks blocks name equilibration stride).Returns average := by
          simp [averageBlocks, zero, held, Run.throw_returns]
        refine iff_of_false none ?_
        rintro ⟨_, long, _⟩
        omega
    | cons first rest =>
        have long : equilibration < blocks.length := by
          by_contra short
          rw [empty.mpr (by omega)] at held
          cases held
        cases odd : (first :: rest).find? fun b => b.size ≠ first.size with
        | some bad =>
            have none : ¬ (averageBlocks blocks name equilibration stride).Returns average := by
              simp only [averageBlocks, if_neg zero, held, odd]
              exact Run.throw_returns _ _
            refine iff_of_false none ?_
            rintro ⟨_, _, length, same, _⟩
            have differs := List.find?_some odd
            have listed := same bad (List.mem_of_find?_eq_some odd)
            simp [listed, same first (by simp)] at differs
        | none =>
            have same : ∀ b ∈ first :: rest, b.size = first.size := by
              intro b member
              simpa using List.find?_eq_none.mp odd b member
            simp only [averageBlocks, if_neg zero, held, odd, Run.bind_returns, Run.pure_returns,
              Run.note_returns, true_and, exists_const]
            constructor
            · rintro rfl
              exact ⟨zero, long, first.size, same, rfl⟩
            · rintro ⟨_, _, length, every, rfl⟩
              rw [every first (by simp)]

theorem average_observable_returns (source : Source R) (name : String) (s : Selection)
    (average : BlockAverage R) :
    (averageObservable source name s).Returns (some average) ↔
      ∃ metadata blocks, source.metadata = .ok metadata ∧ metadata.freeProjection = false ∧
        source.series name s.estimator s.path = .ok blocks ∧
        (averageBlocks blocks name s.equilibration s.stride).Returns average := by
  by_cases zero : s.stride = 0
  · simp [averageObservable, zero, Run.bind_returns, Run.throw_returns, average_blocks_returns]
  · simp only [averageObservable, if_neg zero, Run.bind_returns, Source.readMetadata, Run.recorded_returns]
    constructor
    · rintro ⟨metadata, read, rest⟩
      cases free : metadata.freeProjection with
      | true =>
          simp only [free, if_true, Run.bind_returns, Run.pure_returns] at rest
          obtain ⟨_, _, impossible⟩ := rest
          cases impossible
      | false =>
          simp only [free, Bool.false_eq_true, if_false, Run.bind_returns, Source.readSeries,
            Run.recorded_returns, Run.pure_returns] at rest
          obtain ⟨blocks, series, held, averaged, same⟩ := rest
          cases Option.some.inj same
          exact ⟨metadata, blocks, read, free, series, averaged⟩
    · rintro ⟨metadata, blocks, read, free, series, averaged⟩
      refine ⟨metadata, read, ?_⟩
      simp only [free, Bool.false_eq_true, if_false, Run.bind_returns, Source.readSeries,
        Run.recorded_returns, Run.pure_returns]
      exact ⟨blocks, series, average, averaged, rfl⟩

theorem require_average_returns (source : Source R) (name : String) (s : Selection)
    (average : BlockAverage R) :
    (requireAverage source name s).Returns average ↔
      (averageObservable source name s).Returns (some average) := by
  simp only [requireAverage, Run.bind_returns]
  constructor
  · rintro ⟨held, returned, rest⟩
    cases held with
    | none => exact absurd rest (Run.throw_returns _ _)
    | some found =>
        cases (Run.pure_returns _ _).mp rest
        exact returned
  · intro returned
    exact ⟨some average, returned, (Run.pure_returns _ _).mpr rfl⟩

def sectorMean (blocks : List (Block R)) (dim s : Nat) : Mat (Cplx R) :=
  Mat.ofFn dim dim fun i j => mean (column blocks (s * (dim * dim) + i * dim + j))

def sectorError (blocks : List (Block R)) (dim s : Nat) : Mat R :=
  Mat.ofFn dim dim fun i j => standardError (column blocks (s * (dim * dim) + i * dim + j))

theorem flat_place_lt {sectors dim s i j : Nat} (sector : s < sectors) (row : i < dim) (col : j < dim) :
    s * (dim * dim) + i * dim + j < sectors * (dim * dim) := by
  have inner := Mat.index_lt row col
  have outer := Mat.index_lt sector inner
  omega

theorem sectors_of_flat {α : Type} [Zero α] (g : Nat → α) (sectors dim : Nat) :
    ((List.range sectors).map fun s => Mat.ofFn dim dim fun i j =>
      (Array.ofFn fun k : Fin (sectors * (dim * dim)) => g k.val).getD (s * (dim * dim) + i * dim + j) 0) =
    (List.range sectors).map fun s => Mat.ofFn dim dim fun i j => g (s * (dim * dim) + i * dim + j) := by
  apply List.map_congr_left
  intro s inside
  apply Mat.of_fn_congr
  intro i j row col
  have place := flat_place_lt (List.mem_range.mp inside) row col
  simp [Array.getD_eq_getD_getElem?, place]

theorem walker_ok_iff (metadata : Metadata) (walker : WalkerType) :
    metadata.walker = .ok walker ↔ walker ≠ .undefined ∧ metadata.walkerCode = walker.code := by
  have found : WalkerType.ofCode? metadata.walkerCode = some walker ↔ metadata.walkerCode = walker.code := by
    constructor
    · intro held
      simpa [WalkerType.ofCode?, eq_comm] using List.find?_some held
    · intro same
      rw [same, WalkerType.of_code_code]
  rw [← found]
  cases held : WalkerType.ofCode? metadata.walkerCode with
  | none => simp [Metadata.walker, WalkerType.ofCode, held, Bind.bind, Except.bind]
  | some other =>
      cases other <;> cases walker <;>
        simp [Metadata.walker, WalkerType.ofCode, held, Bind.bind, Except.bind, Pure.pure, Except.pure, throw,
          throwThe, MonadExceptOf.throw]

theorem basis_ok_iff (metadata : Metadata) (orbitals : Nat) :
    metadata.basis = .ok orbitals ↔ 1 ≤ metadata.orbitals ∧ metadata.orbitals = orbitals := by
  by_cases empty : metadata.orbitals = 0
  · simp [Metadata.basis, empty]
  · have some : 1 ≤ metadata.orbitals := by omega
    simp [Metadata.basis, empty, some]

theorem window_lengths_iff {α : Type} (equilibration stride length : Nat) (blocks : List (Array α)) :
    (∀ b ∈ window equilibration stride blocks, b.size = length) ↔
      ∀ b ∈ retained equilibration stride blocks.length, (blocks.getD b #[]).size = length := by
  constructor
  · intro every b member
    have inside : b < blocks.length := List.mem_range.mp (by simpa using (Finset.mem_filter.mp member).1)
    apply every
    rw [mem_window_iff]
    exact ⟨b, member, by simp [List.getD_eq_getElem?_getD, inside]⟩
  · intro every block member
    obtain ⟨b, kept, held⟩ := (mem_window_iff equilibration stride blocks block).mp member
    simpa [List.getD_eq_getElem?_getD, held] using every b kept

section Layouts

variable [Build]

theorem sector_layout_few {walker : WalkerType} {orbitals sectors dim : Nat}
    (layout : walker.sectorLayout orbitals = .ok (sectors, dim)) : 0 < sectors ∧ sectors ≤ 2 := by
  cases walker with
  | undefined => cases layout
  | closed => cases layout; decide
  | collinear => cases layout; decide
  | nonCollinear =>
      rw [WalkerType.sector_layout_spin_orbitals, except_map_ok_iff] at layout
      obtain ⟨_, _, same⟩ := layout
      cases same
      decide

-- The tensor of an average with sectors. There are none in the layout of an optimised build whose sizes
-- drop to zero, where an average of empty blocks passes for one.
theorem to_tensor_ok_iff (blocks : List (Block R)) (length : Nat) (walker : WalkerType) (orbitals : Nat)
    (name : String) (t : TensorAverage R) :
    (averageWindow blocks length).toTensor walker orbitals name = .ok t ∧ t.mean.sectors ≠ [] ↔
      ∃ sectors dim, walker.sectorLayout orbitals = .ok (sectors, dim) ∧ 0 < dim ∧ length = sectors * (dim * dim) ∧
        t.mean.sectors = (List.range sectors).map (sectorMean blocks dim) ∧
        t.error.sectors = (List.range sectors).map (sectorError blocks dim) := by
  have means (sectors dim : Nat) := sectors_of_flat (fun k => mean (column blocks k)) sectors dim
  have errors (sectors dim : Nat) := sectors_of_flat (fun k => standardError (column blocks k)) sectors dim
  have sizes : (averageWindow blocks length).mean.size = length ∧ (averageWindow blocks length).error.size = length :=
    ⟨Array.size_ofFn, Array.size_ofFn⟩
  simp only [BlockAverage.toTensor, except_bind_ok_iff, Prod.exists]
  constructor
  · rintro ⟨⟨sectors, dim, layout, mean, meanOk, error, errorOk, same⟩, nonempty⟩
    cases same
    obtain ⟨some, fits⟩ := SpinTensor.of_row_major_size (sector_layout_few layout).2 meanOk nonempty
    rw [SpinTensor.of_row_major_ok_iff some fits] at meanOk
    rw [SpinTensor.of_row_major_ok_iff (sizes.2.symm ▸ sizes.1 ▸ some) (sizes.2.trans (sizes.1.symm.trans fits))] at errorOk
    rw [sizes.1] at some fits
    subst fits
    refine ⟨sectors, dim, layout, Nat.pos_of_ne_zero fun none => ?_, rfl, meanOk.trans (means sectors dim),
      errorOk.trans (errors sectors dim)⟩
    simp [none] at some
  · rintro ⟨sectors, dim, layout, wide, rfl, mean, error⟩
    have several := (sector_layout_few layout).1
    have some : 0 < sectors * (dim * dim) := Nat.mul_pos several (Nat.mul_pos wide wide)
    refine ⟨⟨sectors, dim, layout, t.mean, ?_, t.error, ?_, rfl⟩, ?_⟩
    · rw [SpinTensor.of_row_major_ok_iff (sizes.1.symm ▸ some) sizes.1]
      exact mean.trans (means sectors dim).symm
    · rw [SpinTensor.of_row_major_ok_iff (sizes.2.symm ▸ some) sizes.2]
      exact error.trans (errors sectors dim).symm
    · rw [mean, Ne, List.map_eq_nil_iff, List.range_eq_nil]
      omega

-- Spin sectors of the flat layout and the order of each, by the walker code of the run.
def flatLayout (code : Int) (orbitals : Nat) : Option (Nat × Nat) :=
  if code = 1 then some (1, orbitals)
  else if code = 2 then some (2, orbitals)
  else if code = 3 then (toSize (2 * orbitals)).toOption.map fun dim => (1, dim)
  else none

theorem flat_layout_iff (code : Int) (orbitals sectors dim : Nat) :
    flatLayout code orbitals = some (sectors, dim) ↔ ∃ walker : WalkerType, walker ≠ .undefined ∧
      code = walker.code ∧ walker.sectorLayout orbitals = .ok (sectors, dim) := by
  have doubled : ((toSize (2 * orbitals)).toOption.map fun dim => (1, dim)) = some (sectors, dim) ↔
      WalkerType.nonCollinear.sectorLayout orbitals = .ok (sectors, dim) := by
    rw [WalkerType.sector_layout_spin_orbitals]
    cases toSize (2 * orbitals) <;> simp [Except.toOption, Except.map]
  constructor
  · intro layout
    by_cases closed : code = 1
    · exact ⟨.closed, by simp, closed, by simpa [flatLayout, closed] using layout⟩
    · by_cases collinear : code = 2
      · exact ⟨.collinear, by simp, collinear, by simpa [flatLayout, collinear] using layout⟩
      · by_cases spinOrbital : code = 3
        · refine ⟨.nonCollinear, by simp, spinOrbital, doubled.mp ?_⟩
          simpa [flatLayout, spinOrbital] using layout
        · simp [flatLayout, closed, collinear, spinOrbital] at layout
  · rintro ⟨walker, defined, rfl, layout⟩
    cases walker with
    | undefined => exact absurd rfl defined
    | closed => simpa [flatLayout, WalkerType.code] using layout
    | collinear => simpa [flatLayout, WalkerType.code] using layout
    | nonCollinear => simpa [flatLayout, WalkerType.code] using doubled.mpr layout

theorem flat_layout_count {code : Int} {orbitals count dim : Nat} (layout : flatLayout code orbitals = some (count, dim)) :
    count = if code = 2 then 2 else 1 := by
  by_cases collinear : code = 2
  · simp [flatLayout, collinear] at layout
    simp [collinear, layout.1]
  · rw [flatLayout, if_neg collinear] at layout
    rw [if_neg collinear]
    split_ifs at layout
    · cases layout
      rfl
    · obtain ⟨_, _, same⟩ := Option.map_eq_some_iff.mp layout
      cases same
      rfl

theorem flat_layout_sectors {code : Int} {orbitals sectors dim : Nat}
    (layout : flatLayout code orbitals = some (sectors, dim)) : 0 < sectors := by
  obtain ⟨walker, _, _, held⟩ := (flat_layout_iff _ _ _ _).mp layout
  exact (sector_layout_few held).1

def WalkerType.layoutLength (w : WalkerType) (orbitals : Nat) : Nat :=
  match w with
  | .closed => orbitals * orbitals
  | .collinear => 2 * (orbitals * orbitals)
  | .nonCollinear => 2 * orbitals * (2 * orbitals)
  | .undefined => 0

-- A run whose sectors have no more entries than a word can count.
def Metadata.Fits (m : Metadata) : Prop :=
  ∀ walker, m.walker = .ok walker → walker.layoutLength m.orbitals < UInt64.size

theorem sector_layout_fits {walker : WalkerType} {orbitals : Nat} (defined : walker ≠ .undefined)
    (fits : walker.layoutLength orbitals < UInt64.size) (positive : 1 ≤ orbitals) :
    ∃ sectors dim, walker.sectorLayout orbitals = .ok (sectors, dim) ∧ 1 ≤ dim ∧
      sectors * (dim * dim) = walker.layoutLength orbitals := by
  cases walker with
  | undefined => exact absurd rfl defined
  | closed => exact ⟨1, orbitals, rfl, positive, Nat.one_mul _⟩
  | collinear => exact ⟨2, orbitals, rfl, positive, rfl⟩
  | nonCollinear =>
      have inner : 2 * orbitals < UInt64.size := Nat.lt_of_le_of_lt (Nat.le_mul_of_pos_left _ (by omega)) fits
      refine ⟨1, 2 * orbitals, ?_, by omega, Nat.one_mul _⟩
      rw [WalkerType.sector_layout_spin_orbitals, to_size_fits inner]
      rfl

theorem to_tensor_fits {average : BlockAverage R} {walker : WalkerType} {orbitals : Nat} {name : String}
    {t : TensorAverage R} (fits : walker.layoutLength orbitals < UInt64.size) (positive : 1 ≤ orbitals)
    (ok : average.toTensor walker orbitals name = .ok t) : t.mean.sectors ≠ [] := by
  simp only [BlockAverage.toTensor, except_bind_ok_iff, Prod.exists] at ok
  obtain ⟨sectors, dim, layout, mean, meanOk, error, _, same⟩ := ok
  cases same
  have defined : walker ≠ .undefined := by
    rintro rfl
    cases layout
  obtain ⟨_, _, exact, wide, length⟩ := sector_layout_fits defined fits positive
  cases Except.ok.inj (layout.symm.trans exact)
  have several := (sector_layout_few layout).1
  have size := SpinTensor.of_row_major_fits several (length ▸ fits) meanOk
  have some : 0 < average.mean.size := size ▸ Nat.mul_pos several (Nat.mul_pos wide wide)
  rw [(SpinTensor.of_row_major_ok_iff some size).mp meanOk, Ne, List.map_eq_nil_iff, List.range_eq_nil]
  omega

-- What it takes for the blocks of a run to have an average in the layout of its walkers.
structure Averageable {α : Type} (metadata : Metadata) (s : Selection) (blocks : List (Array α))
    (sectors dim : Nat) : Prop where
  layout : flatLayout metadata.walkerCode metadata.orbitals = some (sectors, dim)
  basis : 1 ≤ metadata.orbitals
  wide : 1 ≤ dim
  stride : 1 ≤ s.stride
  projected : metadata.freeProjection = false
  enough : s.equilibration < blocks.length
  lengths : ∀ b ∈ retained s.equilibration s.stride blocks.length,
    (blocks.getD b #[]).size = sectors * (dim * dim)

theorem Averageable.map {α β : Type} (f : α → β) {metadata : Metadata} {s : Selection} {blocks : List (Array α)}
    {sectors dim : Nat} (able : Averageable metadata s blocks sectors dim) :
    Averageable metadata s (blocks.map fun block => block.map f) sectors dim where
  layout := able.layout
  basis := able.basis
  wide := able.wide
  stride := able.stride
  projected := able.projected
  enough := by simpa using able.enough
  lengths := by
    intro b member
    rw [List.length_map] at member
    have inside : b < blocks.length := by simpa using (Finset.mem_filter.mp member).1
    simpa [List.getD_eq_getElem?_getD, inside] using able.lengths b member

theorem average_tensor_returns (source : Source R) (name : String) (s : Selection) (walker : WalkerType)
    (t : TensorAverage R) :
    (averageTensor source name s).Returns (walker, t) ∧ t.mean.sectors ≠ [] ↔
      ∃ metadata blocks sectors dim, source.metadata = .ok metadata ∧ metadata.walker = .ok walker ∧
        source.series name s.estimator s.path = .ok blocks ∧ Averageable metadata s blocks sectors dim ∧
        t.mean.sectors = (List.range sectors).map (sectorMean (window s.equilibration s.stride blocks) dim) ∧
        t.error.sectors = (List.range sectors).map (sectorError (window s.equilibration s.stride blocks) dim) := by
  simp only [averageTensor, Run.bind_returns, Source.readMetadata, Run.recorded_returns, Run.lift_returns,
    reporting_ok_iff, Run.pure_returns, require_average_returns, average_observable_returns, average_blocks_returns]
  constructor
  · rintro ⟨⟨metadata, read, _, known, orbitals, basis, average, observed, _, shaped, same⟩, nonempty⟩
    cases same
    obtain ⟨_, blocks, again, projected, series, stride, enough, length, lengths, rfl⟩ := observed
    cases Except.ok.inj (read.symm.trans again)
    obtain ⟨positive, rfl⟩ := (basis_ok_iff metadata orbitals).mp basis
    obtain ⟨sectors, dim, layout, wide, rfl, mean, error⟩ := (to_tensor_ok_iff _ _ _ _ _ _).mp ⟨shaped, nonempty⟩
    obtain ⟨defined, code⟩ := (walker_ok_iff metadata walker).mp known
    refine ⟨metadata, blocks, sectors, dim, read, known, series, ?_, mean, error⟩
    exact ⟨(flat_layout_iff _ _ _ _).mpr ⟨walker, defined, code, layout⟩, positive, wide, by omega, projected, enough,
      (window_lengths_iff _ _ _ _).mp lengths⟩
  · rintro ⟨metadata, blocks, sectors, dim, read, known, series, able, mean, error⟩
    have layout : walker.sectorLayout metadata.orbitals = .ok (sectors, dim) := by
      obtain ⟨other, defined, code, layout⟩ := (flat_layout_iff _ _ _ _).mp able.layout
      have same : metadata.walker = .ok other := (walker_ok_iff metadata other).mpr ⟨defined, code⟩
      cases Except.ok.inj (known.symm.trans same)
      exact layout
    obtain ⟨shaped, nonempty⟩ := (to_tensor_ok_iff _ _ _ _ name t).mpr ⟨sectors, dim, layout, able.wide, rfl, mean, error⟩
    exact ⟨⟨metadata, read, walker, known, metadata.orbitals, (basis_ok_iff _ _).mpr ⟨able.basis, rfl⟩, _,
      ⟨metadata, blocks, read, able.projected, series, Nat.ne_of_gt able.stride, able.enough, _,
        (window_lengths_iff _ _ _ _).mpr able.lengths, rfl⟩, t, shaped, rfl⟩, nonempty⟩

theorem average_tensor_fits {source : Source R} {name : String} {s : Selection} {m : Metadata} {walker : WalkerType}
    {t : TensorAverage R} (read : source.metadata = .ok m) (fits : m.Fits)
    (returned : (averageTensor source name s).Returns (walker, t)) : t.mean.sectors ≠ [] := by
  simp only [averageTensor, Run.bind_returns, Source.readMetadata, Run.recorded_returns, Run.lift_returns,
    reporting_ok_iff, Run.pure_returns] at returned
  obtain ⟨metadata, again, _, known, orbitals, basis, average, _, _, shaped, same⟩ := returned
  cases same
  cases Except.ok.inj (read.symm.trans again)
  obtain ⟨positive, rfl⟩ := (basis_ok_iff m orbitals).mp basis
  exact to_tensor_fits (fits _ known) positive shaped

end Layouts

end OrbitalSpectra
