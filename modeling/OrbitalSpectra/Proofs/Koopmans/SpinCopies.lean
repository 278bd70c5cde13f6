import OrbitalSpectra.Proofs.Koopmans.UnitChange

set_option autoImplicit false

namespace OrbitalSpectra

open Sampling

def appended (block : Block Exact) : Block Exact := block ++ block

-- A block followed by itself, that of a Fock matrix doubled first.
noncomputable def copiedBlock (name : String) (block : Block Exact) : Block Exact :=
  if name ∈ fockSeries then appended (block.map (Cplx.times 2))
  else if name = densitySeries then appended block
  else block

def Metadata.asCollinear (m : Metadata) : Metadata := { m with walkerCode := 2 }

noncomputable def Store.spinCopies (store : Store Exact) : Store Exact where
  metadata := store.metadata.asCollinear
  series := store.series.map fun entry =>
    (entry.1, entry.2.map fun path => (path.1, path.2.map (copiedBlock entry.1.name)))

noncomputable def Source.spinCopies (source : Source Exact) : Source Exact where
  metadata := source.metadata.map Metadata.asCollinear
  series name estimator path := (source.series name estimator path).map (List.map (copiedBlock name))

section Stores

variable (f : List (Block Exact) → List (Block Exact))

theorem paths_get_map (paths : Paths Exact) (index : Nat) :
    Paths.get? (paths.map fun path => (path.1, f path.2)) index = (paths.get? index).map f := by
  simp only [Paths.get?, List.find?_map, Option.map_map, Function.comp_def]

theorem paths_longest_map (paths : Paths Exact) :
    Paths.longest (paths.map fun path => (path.1, f path.2)) = paths.longest.map f := by
  simp only [Paths.longest, List.getLast?_map, Option.map_map, Function.comp_def]

theorem copied_paths (store : Store Exact) (key : SeriesKey) :
    store.spinCopies.paths key = (store.paths key).map fun path => (path.1, path.2.map (copiedBlock key.name)) := by
  rw [Store.paths, Store.spinCopies, Store.paths]
  dsimp only
  induction store.series with
  | nil => rfl
  | cons entry rest ih =>
      obtain ⟨other, held⟩ := entry
      rw [List.map_cons, Store.lookup_entry, Store.lookup_entry]
      by_cases here : other = key
      · rw [if_pos here, if_pos here, here]
        rfl
      · rw [if_neg here, if_neg here]
        exact ih

theorem copied_series (store : Store Exact) (name : String) (estimator : Estimator) (path : Option Nat) :
    store.spinCopies.series? name estimator path =
      (store.series? name estimator path).map (List.map (copiedBlock name)) := by
  cases path with
  | none => rw [Store.series?, copied_paths, Store.series?, paths_longest_map (List.map (copiedBlock name))]
  | some index => rw [Store.series?, copied_paths, Store.series?, paths_get_map (List.map (copiedBlock name))]

theorem copied_source (store : Store Exact) : store.spinCopies.source = store.source.spinCopies := by
  simp only [Store.source, Source.spinCopies, copied_series, Source.mk.injEq]
  refine ⟨rfl, ?_⟩
  funext name estimator path
  cases store.series? name estimator path <;> rfl

end Stores

section Blocks

variable {blocks : List (Block Exact)} {dim : Nat}

theorem copied_density : copiedBlock TensorObservable.density.name = appended := by
  funext block
  rw [copiedBlock, if_neg (by decide), if_pos (by decide)]

theorem copied_fock (sign : FockSign) : copiedBlock (TensorObservable.fock sign).name =
    appended ∘ fun block => block.map (Cplx.times 2) := by
  funext block
  rw [copiedBlock, if_pos (by cases sign <;> decide)]
  rfl

theorem copied_size (observable : TensorObservable) (block : Block Exact) :
    (copiedBlock observable.name block).size = 2 * block.size := by
  cases observable with
  | density =>
      rw [copied_density, appended, Array.size_append]
      omega
  | fock sign =>
      rw [copied_fock, Function.comp_apply, appended, Array.size_append, Array.size_map]
      omega

-- Both sectors of the copy read the place of the closed block.
theorem appended_entry {block : Block Exact} (sized : block.size = dim * dim) {s i j : Nat} (sector : s < 2)
    (row : i < dim) (col : j < dim) :
    (appended block).getD (sectorPlace dim s i j) 0 = block.getD (sectorPlace dim 0 i j) 0 := by
  have inside : i * dim + j < block.size := sized ▸ Mat.index_lt row col
  simp only [appended, sectorPlace, Array.getD_eq_getD_getElem?, Nat.zero_mul, Nat.zero_add]
  obtain rfl | rfl : s = 0 ∨ s = 1 := by omega
  · rw [Nat.zero_mul, Nat.zero_add, Array.getElem?_append_left inside]
  · rw [Nat.one_mul, Nat.add_assoc, ← sized, Array.getElem?_append_right (Nat.le_add_right _ _), Nat.add_sub_cancel_left]

theorem appended_column (sized : ∀ block ∈ blocks, block.size = dim * dim) {s i j : Nat} (sector : s < 2)
    (row : i < dim) (col : j < dim) :
    column (blocks.map appended) (sectorPlace dim s i j) = column blocks (sectorPlace dim 0 i j) := by
  rw [column, List.map_map]
  exact List.map_congr_left fun block member => appended_entry (sized block member) sector row col

end Blocks

-- Each spin of the pair has the means of the single tensor, and its errors up to a factor.
structure Entries.Copied (pair single : Entries Exact) (dim : Nat) (factor : ℝ) : Prop where
  mean : ∀ s i j, s < 2 → i < dim → j < dim → pair.mean s i j = single.mean 0 i j
  error : ∀ s i j, s < 2 → i < dim → j < dim → pair.error s i j = .times factor (single.error 0 i j)

namespace Entries.Copied

variable {pair single : Entries Exact} {dim s : Nat} {factor : ℝ} (copied : pair.Copied single dim factor)
  (sector : s < 2)

include copied sector

theorem mean_sector : pair.meanSector dim s = single.meanSector dim 0 :=
  Mat.of_fn_congr fun i j row col => copied.mean s i j sector row col

theorem hermitian_sector : pair.hermitianSector dim s = single.hermitianSector dim 0 := by
  apply Mat.of_fn_congr
  intro i j row col
  rw [copied.mean s i j sector row col, copied.mean s j i sector col row]

theorem error_sector : pair.errorSector dim s = (single.errorSector dim 0).map (Exact.times factor) := by
  rw [errorSector, errorSector, Mat.map_of_fn]
  exact Mat.of_fn_congr fun i j row col => copied.error s i j sector row col

end Entries.Copied

section Entries

variable {blocks : List (Block Exact)} {dim : Nat}

theorem fock_weight (sign : FockSign) : (TensorObservable.fock sign).weight 1 = 2 := by
  simp [TensorObservable.weight]

theorem scale_two (z : Cplx Exact) : z.scale 2.0 = z.times 2 := by
  have part (x : Exact) : x * 2.0 = x.times 2 := by
    rw [Exact.two_eq]
    cases x with
    | undefined => rfl
    | value u => exact congrArg Exact.value (mul_comm u 2)
  exact Cplx.ext (part z.re) (part z.im)

theorem nonnegative_modulus (z : Cplx Exact) (bound : ℝ) (below : z.abs < .value bound) : 0 < bound := by
  obtain ⟨x, y⟩ := z
  cases x with
  | undefined => cases below
  | value u =>
      cases y with
      | undefined => cases below
      | value v => exact (Real.sqrt_nonneg (u * u + v * v)).trans_lt below

-- Nothing is smaller than no errors.
theorem screen_entry_zero (z : Cplx Exact) (e : Exact) : screenEntry 0 z e = z := by
  refine if_neg fun below => ?_
  cases e with
  | undefined => exact Exact.not_lt_undefined z.abs below
  | value y =>
      have bound := nonnegative_modulus z (0 * y) below
      rw [zero_mul] at bound
      exact lt_irrefl 0 bound

theorem screened_zero (e : Entries Exact) : e.screened 0 = e := by
  simp only [Entries.screened, screen_entry_zero]

theorem density_copied (sized : ∀ block ∈ blocks, block.size = dim * dim) :
    (Entries.ofBlocks (blocks.map appended) dim).Copied (Entries.ofBlocks blocks dim) dim 1 where
  mean s i j sector row col := congrArg mean (appended_column sized sector row col)
  error s i j sector row col := by
    rw [Exact.times_one]
    exact congrArg standardError (appended_column sized sector row col)

theorem fock_copied (sized : ∀ block ∈ blocks, block.size = dim * dim) :
    (Entries.ofBlocks ((scaledBlocks 2 blocks).map appended) dim).Copied
      ((Entries.ofBlocks blocks dim).overSpins .closed) dim 2 := by
  have doubled : ∀ block ∈ scaledBlocks 2 blocks, block.size = dim * dim := by
    intro block member
    obtain ⟨raw, listed, rfl⟩ := List.mem_map.mp member
    rw [Array.size_map, sized raw listed]
  constructor
  · intro s i j sector row col
    change mean (column _ _) = (mean (column blocks (sectorPlace dim 0 i j))).scale 2.0
    rw [appended_column doubled sector row col, column_times, mean_times, scale_two]
  · intro s i j sector row col
    change standardError (column _ _) = (standardError (column blocks (sectorPlace dim 0 i j))).times 2
    rw [appended_column doubled sector row col, column_times, standard_error_times two_pos]

end Entries

section Averages

variable {source : Source Exact} {s : Selection} {m : Metadata} {dim : Nat} {observable : TensorObservable}
  {blocks : List (Block Exact)} (closed : m.walkerCode = 1)

include closed

theorem averageable_copied [Build] : Averageable m.asCollinear s (blocks.map (copiedBlock observable.name)) 2 dim ↔
    Averageable m s blocks 1 dim := by
  have layouts : flatLayout m.asCollinear.walkerCode m.asCollinear.orbitals = some (2, dim) ↔
      flatLayout m.walkerCode m.orbitals = some (1, dim) := by
    simp [flatLayout, closed, Metadata.asCollinear]
  have sizes : (∀ b ∈ window s.equilibration s.stride (blocks.map (copiedBlock observable.name)),
      b.size = 2 * (dim * dim)) ↔ ∀ b ∈ window s.equilibration s.stride blocks, b.size = 1 * (dim * dim) := by
    rw [window_map, List.forall_mem_map]
    refine forall₂_congr fun b _ => ?_
    rw [copied_size]
    omega
  rw [window_lengths_iff, window_lengths_iff] at sizes
  constructor
  · rintro ⟨layout, basis, wide, stride, projected, enough, lengths⟩
    exact ⟨layouts.mp layout, basis, wide, stride, projected, by simpa using enough, sizes.mp lengths⟩
  · rintro ⟨layout, basis, wide, stride, projected, enough, lengths⟩
    exact ⟨layouts.mpr layout, basis, wide, stride, projected, by simpa using enough, sizes.mpr lengths⟩

theorem averages_copied [Build] (averages : source.Averages s m 1 dim observable blocks) :
    source.spinCopies.Averages s m.asCollinear 2 dim observable (blocks.map (copiedBlock observable.name)) where
  metadata := congrArg (Except.map Metadata.asCollinear) averages.metadata
  series := congrArg (Except.map (List.map (copiedBlock observable.name))) averages.series
  able := (averageable_copied closed).mpr averages.able

theorem averages_of_copied [Build] {blocks : List (Block Exact)} (read : source.metadata = .ok m) {n : Metadata}
    {count : Nat}
    (averages : source.spinCopies.Averages s n count dim observable blocks) : n = m.asCollinear ∧ count = 2 ∧
      ∃ single, blocks = single.map (copiedBlock observable.name) ∧ source.Averages s m 1 dim observable single := by
  obtain ⟨metadata, series, able⟩ := averages
  obtain ⟨_, again, rfl⟩ := (except_map_ok_iff _ _ _).mp metadata
  cases Except.ok.inj (read.symm.trans again)
  obtain ⟨single, found, rfl⟩ := (except_map_ok_iff _ _ _).mp series
  obtain rfl : count = 2 := flat_layout_count able.layout
  exact ⟨rfl, rfl, single, rfl, read, found, (averageable_copied closed).mp able⟩

omit closed

-- The factor on the errors is the one that a closed run's reader puts on the means.
theorem entries_copied [Build] (observable : TensorObservable) (able : Averageable m s blocks 1 dim) :
    (observable.entries s .collinear dim (blocks.map (copiedBlock observable.name))).Copied
      (observable.entries s .closed dim blocks) dim (observable.weight 1) := by
  have sized := (window_lengths_iff _ _ _ _).mpr able.lengths
  simp only [Nat.one_mul] at sized
  cases observable with
  | density =>
      rw [copied_density, TensorObservable.entries, window_map]
      exact density_copied sized
  | fock sign =>
      rw [copied_fock, TensorObservable.entries, window_map, ← List.map_map, fock_weight]
      exact fock_copied sized

end Averages

-- The sector of either spin: the errors of the Fock matrices are doubled with the blocks.
noncomputable def SectorAverages.copied (sector : SectorAverages Exact) : SectorAverages Exact :=
  { sector with
    removalError := sector.removalError.map (Exact.times 2)
    additionError := sector.additionError.map (Exact.times 2) }

section Sectors

variable {source : Source Exact} {p : Params Exact} {m : Metadata} {dim : Nat}
  {density removal addition : List (Block Exact)}

theorem prepared_sector_copied [Build] (unscreened : p.screenFactor = 0)
    (prepares : source.Prepares p.selection m .closed 1 dim density removal addition) {s : Nat} (sector : s < 2) :
    preparedSector p .collinear dim (density.map (copiedBlock TensorObservable.density.name))
        (removal.map (copiedBlock (TensorObservable.fock .minus).name))
        (addition.map (copiedBlock (TensorObservable.fock .plus).name)) s =
      (preparedSector p .closed dim density removal addition 0).copied := by
  have densities := entries_copied .density prepares.density.able
  have removals := entries_copied (.fock .minus) prepares.removal.able
  have additions := entries_copied (.fock .plus) prepares.addition.able
  have weight : Exact.times (TensorObservable.density.weight 1) = id := funext Exact.times_one
  simp only [preparedSector, unscreened, screened_zero, Entries.sector, SectorAverages.copied,
    densities.hermitian_sector sector, densities.error_sector sector, weight, Mat.map_id, removals.mean_sector sector,
    removals.error_sector sector, additions.mean_sector sector, additions.error_sector sector, fock_weight]

theorem prepares_copied [Build] (prepares : source.Prepares p.selection m .closed 1 dim density removal addition) :
    source.spinCopies.Prepares p.selection m.asCollinear .collinear 2 dim
      (density.map (copiedBlock TensorObservable.density.name))
      (removal.map (copiedBlock (TensorObservable.fock .minus).name))
      (addition.map (copiedBlock (TensorObservable.fock .plus).name)) := by
  have closed : m.walkerCode = 1 := ((walker_ok_iff _ _).mp prepares.walker).2
  exact ⟨(walker_ok_iff _ _).mpr ⟨nofun, rfl⟩, averages_copied closed prepares.density,
    averages_copied closed prepares.removal, averages_copied closed prepares.addition⟩

theorem prepared_sectors_copied [Build] (read : source.metadata = .ok m) (closed : m.walkerCode = 1)
    (unscreened : p.screenFactor = 0) {sectors : List (SectorAverages Exact)}
    (prepared : (preparedSectors source p).Returns sectors) (nonempty : sectors ≠ []) : ∃ sector, sectors = [sector] ∧
      (preparedSectors source.spinCopies p).Returns [sector.copied, sector.copied] := by
  obtain ⟨n, walker, count, dim, density, removal, addition, prepares, rfl⟩ :=
    (prepared_sectors_returns_iff sectors).mp ⟨prepared, nonempty⟩
  cases Except.ok.inj (read.symm.trans prepares.density.metadata)
  obtain rfl : walker = .closed := Except.ok.inj (prepares.walker.symm.trans ((walker_ok_iff _ _).mpr ⟨nofun, closed⟩))
  obtain rfl : count = 1 := by
    have counted := flat_layout_count prepares.density.able.layout
    rwa [closed] at counted
  refine ⟨_, rfl, ((prepared_sectors_returns_iff _).mpr ⟨_, _, _, _, _, _, _, prepares_copied prepares, ?_⟩).1⟩
  exact congrArg₂ (fun alpha beta => [alpha, beta]) (prepared_sector_copied unscreened prepares zero_lt_two)
    (prepared_sector_copied unscreened prepares one_lt_two)

theorem prepared_of_copied [Build] (read : source.metadata = .ok m) (closed : m.walkerCode = 1)
    {pairs : List (SectorAverages Exact)} (prepared : (preparedSectors source.spinCopies p).Returns pairs)
    (nonempty : pairs ≠ []) : ∃ sectors, (preparedSectors source p).Returns sectors ∧ sectors ≠ [] := by
  obtain ⟨n, walker, count, dim, density, removal, addition, prepares, rfl⟩ :=
    (prepared_sectors_returns_iff pairs).mp ⟨prepared, nonempty⟩
  obtain ⟨_, _, single, _, densities⟩ := averages_of_copied closed read prepares.density
  obtain ⟨_, _, removed, _, removals⟩ := averages_of_copied closed read prepares.removal
  obtain ⟨_, _, added, _, additions⟩ := averages_of_copied closed read prepares.addition
  exact ⟨_, (prepared_sectors_returns_iff _).mpr ⟨m, .closed, 1, dim, single, removed, added,
    ⟨(walker_ok_iff _ _).mpr ⟨nofun, closed⟩, densities, removals, additions⟩, rfl⟩⟩

-- The doubled errors are read for being finite only, so the energies of the averages do not see them.
theorem central_copied (solver : EigenSolver Exact) (sector : SectorAverages Exact) (samples : Nat) (cutoff : Exact) :
    sector.copied.central solver samples cutoff = sector.central solver samples cutoff := by
  have verdict : sector.copied.verdict = sector.verdict := by
    simp only [SectorAverages.verdict, SectorAverages.copied, sample_verdict_times]
  rw [SectorAverages.central, verdict]
  rfl

end Sectors

section Analyses

variable {source : Source Exact} {p : Params Exact} {m : Metadata}

-- The closed analysis and the collinear one come to the same spectrum without its error bars, or to none.
theorem central_spectra_copied [Build] (solver : EigenSolver Exact) (read : source.metadata = .ok m)
    (closed : m.walkerCode = 1) (unscreened : p.screenFactor = 0) {sectors : List (SectorAverages Exact)}
    (prepared : (preparedSectors source p).Returns sectors) (nonempty : sectors ≠ []) :
    ∃ central : Except Failure (Spectrum Exact),
      centralSpectra solver source p = central.map .single ∧
      centralSpectra solver source.spinCopies p = central.map fun s => .collinear s s := by
  obtain ⟨sector, rfl, pair⟩ := prepared_sectors_copied read closed unscreened prepared nonempty
  refine ⟨sector.central solver p.samples p.cutoff, ?_, ?_⟩
  · rw [central_of_prepared solver prepared, List.mapM_cons, List.mapM_nil]
    cases sector.central solver p.samples p.cutoff <;> rfl
  · rw [central_of_prepared solver pair, List.mapM_cons, List.mapM_cons, List.mapM_nil, central_copied]
    cases sector.central solver p.samples p.cutoff <;> rfl

-- A single spectrum, and a pair that has its energies for either spin.
def SpinsAgree : KoopmansSpectra Exact → KoopmansSpectra Exact → Prop
  | .single s, .collinear alpha beta =>
      alpha.ionization = s.ionization ∧ alpha.attachment = s.attachment ∧
        beta.ionization = s.ionization ∧ beta.attachment = s.attachment
  | _, _ => False

theorem spins_agree_of_central {central : Except Failure (Spectrum Exact)} {single pair : KoopmansSpectra Exact}
    (first : central.map .single = .ok single.withoutErrors)
    (second : central.map (fun s => .collinear s s) = .ok pair.withoutErrors) : SpinsAgree single pair := by
  obtain ⟨s, rfl, same⟩ := (except_map_ok_iff _ _ _).mp first
  have copies : KoopmansSpectra.collinear s s = pair.withoutErrors := Except.ok.inj second
  cases single with
  | collinear _ _ => cases same
  | single spectrum =>
      cases pair with
      | single _ => cases copies
      | collinear alpha beta =>
          obtain rfl := KoopmansSpectra.single.inj same
          obtain ⟨left, right⟩ := KoopmansSpectra.collinear.inj copies
          obtain ⟨alphaIonization, alphaAttachment, _⟩ := Spectrum.mk.inj left
          obtain ⟨betaIonization, betaAttachment, _⟩ := Spectrum.mk.inj right
          exact ⟨alphaIonization.symm, alphaAttachment.symm, betaIonization.symm, betaAttachment.symm⟩

variable {σ : Type} [NormalStream σ Exact]

theorem spin_copies_agree [Build] (solver : EigenSolver Exact) (store : Store Exact)
    (closed : store.metadata.walkerCode = 1) (p : Params Exact) (unscreened : p.screenFactor = 0) (entropy other : σ) :
    ((∃ single, (koopmansSpectra solver store.source p entropy).Returns single) ↔
      ∃ pair, (koopmansSpectra solver store.spinCopies.source p other).Returns pair) ∧
    ∀ single pair, (koopmansSpectra solver store.source p entropy).Returns single →
      (koopmansSpectra solver store.spinCopies.source p other).Returns pair → SpinsAgree single pair := by
  have read : store.source.metadata = .ok store.metadata := rfl
  rw [copied_source]
  refine ⟨⟨?_, ?_⟩, ?_⟩
  · rintro ⟨single, returned⟩
    obtain ⟨valid, ⟨sectors, prepared, nonempty⟩, found⟩ := koopmans_returned returned
    obtain ⟨central, first, second⟩ := central_spectra_copied solver read closed unscreened prepared nonempty
    obtain ⟨s, rfl, _⟩ := (except_map_ok_iff _ _ _).mp (first.symm.trans found)
    exact koopmans_returns_of_central solver _ p other valid second
  · rintro ⟨pair, returned⟩
    obtain ⟨valid, ⟨pairs, copies, several⟩, found⟩ := koopmans_returned returned
    obtain ⟨sectors, prepared, nonempty⟩ := prepared_of_copied read closed copies several
    obtain ⟨central, first, second⟩ := central_spectra_copied solver read closed unscreened prepared nonempty
    obtain ⟨s, rfl, _⟩ := (except_map_ok_iff _ _ _).mp (second.symm.trans found)
    exact koopmans_returns_of_central solver _ p entropy valid first
  · intro single pair returned copies
    obtain ⟨_, ⟨sectors, prepared, nonempty⟩, found⟩ := koopmans_returned returned
    obtain ⟨_, _, foundCopies⟩ := koopmans_returned copies
    obtain ⟨central, first, second⟩ := central_spectra_copied solver read closed unscreened prepared nonempty
    exact spins_agree_of_central (first.symm.trans found) (second.symm.trans foundCopies)

local instance copiedStream : NormalStream Unit Exact := constantStream

noncomputable def halfBlocks : List (Block Exact) := (List.replicate 2 #[1 / 2]).map fun b => b.map Cplx.exact

noncomputable def closedStore : Store Exact :=
  Store.ofHistory halfMetadata [⟨"one_rdm", .mixed, 0, halfBlocks⟩, ⟨"gen_fock_minus", .mixed, 0, halfBlocks⟩,
    ⟨"gen_fock_plus", .mixed, 0, halfBlocks⟩]

theorem closed_store_constant :
    closedStore.source.Constant halfParams.selection halfMetadata 1 1 2 fun _ => #[1 / 2] where
  metadata := rfl
  series observable := by
    rw [store_series, closedStore, Store.series_of_history]
    rcases observable with _ | (_ | _) <;> rfl
  layout := rfl
  basis := le_rfl
  wide := le_rfl
  stride := le_rfl
  projected := rfl
  several := half_constant.several
  lengths _ := rfl

theorem spin_copies_agree_half : ∃ single pair,
    (koopmansSpectra spectralSolver closedStore.source { halfParams with screenFactor := 0 } ()).Returns single ∧
    (koopmansSpectra spectralSolver closedStore.spinCopies.source { halfParams with screenFactor := 0 } ()).Returns pair ∧
    SpinsAgree single pair ∧ single = .single (errorlessSpectrum [2] [2]) := by
  have faithful := spectral_solver_lower_faithful.faithful
  have numbers : DrawsNumbers Unit := fun _ => ⟨1, rfl⟩
  obtain ⟨single, returned, listed, _⟩ := constant_spectra (p := { halfParams with screenFactor := 0 }) numbers faithful
    closed_store_constant le_rfl rfl le_rfl rfl le_rfl (by decide)
    (fun s inside => Nat.lt_one_iff.mp inside ▸ half_energies) ()
  obtain ⟨both, agree⟩ := spin_copies_agree spectralSolver closedStore rfl { halfParams with screenFactor := 0 } rfl () ()
  obtain ⟨pair, copies⟩ := both.mp ⟨single, returned⟩
  refine ⟨single, pair, returned, copies, agree single pair returned copies, ?_⟩
  cases single with
  | collinear alpha beta => cases listed
  | single spectrum => exact congrArg KoopmansSpectra.single (List.head_eq_of_cons_eq listed)

end Analyses

end OrbitalSpectra
