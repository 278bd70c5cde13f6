import OrbitalSpectra.Proofs.Average.Rescaling
import OrbitalSpectra.Proofs.Average.RetainedWindow
import OrbitalSpectra.Proofs.Exact.Spread

set_option autoImplicit false

namespace OrbitalSpectra

def exactBlocks (blocks : List (Array ℂ)) : List (Block Exact) := blocks.map fun block => block.map Cplx.exact

def entriesAt (blocks : List (Array ℂ)) (k : Nat) : List ℂ := blocks.map fun block => block.getD k 0

def realVectors (blocks : List (Array ℂ)) : List (List ℝ) := blocks.map fun block => block.toList.map Complex.re

noncomputable section

def meanAt (blocks : List (Array ℂ)) (k : Nat) : ℂ := (entriesAt blocks k).sum / blocks.length

def errorAt (blocks : List (Array ℂ)) (k : Nat) : ℝ :=
  sampleSpread ((entriesAt blocks k).map Complex.re) / Real.sqrt blocks.length

def blockStatistics (blocks : List (Array ℂ)) (length : Nat) : BlockAverage Exact where
  mean := Array.ofFn fun k : Fin length => Cplx.exact (meanAt blocks k)
  error := Array.ofFn fun k : Fin length => .value (errorAt blocks k)

end

theorem standard_error_spread (zs : List ℂ) (several : 2 ≤ zs.length) :
    standardError (zs.map Cplx.exact) = .value (sampleSpread (zs.map Complex.re) / Real.sqrt zs.length) := by
  have some : zs ≠ [] := by
    rintro rfl
    simp at several
  have center : (zs.sum / zs.length : ℂ).re = (zs.map Complex.re).sum / zs.length := by
    rw [← Complex.ofReal_natCast, Complex.div_ofReal_re]
    congr 1
    exact map_list_sum Complex.reAddGroupHom zs
  have squares : (zs.map fun z => (z.re - (zs.sum / zs.length : ℂ).re) ^ 2).sum = centredSquares (zs.map Complex.re) := by
    rw [center, centredSquares, List.map_map, List.length_map]
    rfl
  rw [standard_error_exact zs some, if_neg (by omega), squares, sample_spread_eq, List.length_map,
    mul_comm (zs.length : ℝ), ← div_div, Real.sqrt_div' _ (Nat.cast_nonneg _)]

theorem average_window_numbers {blocks : List (Array ℂ)} (several : 2 ≤ blocks.length) (length : Nat) :
    averageWindow (exactBlocks blocks) length = blockStatistics blocks length := by
  have length (k : Nat) : (entriesAt blocks k).length = blocks.length := List.length_map _
  have some (k : Nat) : entriesAt blocks k ≠ [] := by
    rw [← List.length_pos_iff, length]
    omega
  have errors (k : Nat) : standardError ((entriesAt blocks k).map Cplx.exact) = .value (errorAt blocks k) := by
    rw [standard_error_spread _ (by rwa [length]), length]
    rfl
  have means (k : Nat) : mean ((entriesAt blocks k).map Cplx.exact) = Cplx.exact (meanAt blocks k) := by
    rw [mean_exact _ (some k), length]
    rfl
  have columns (k : Nat) : column (exactBlocks blocks) k = (entriesAt blocks k).map Cplx.exact := column_exact blocks k
  simp only [averageWindow, columns, means, errors]
  rfl

theorem average_blocks_numbers {stride : Nat} (positive : 1 ≤ stride) {equilibration length : Nat}
    {blocks : List (Array ℂ)} (several : 2 ≤ (window equilibration stride blocks).length)
    (uniform : ∀ block ∈ window equilibration stride blocks, block.size = length) (name : String) :
    (averageBlocks (exactBlocks blocks) name equilibration stride).Returns
      (blockStatistics (window equilibration stride blocks) length) := by
  have windows : window equilibration stride (exactBlocks blocks) =
      exactBlocks (window equilibration stride blocks) := window_map _ _ _ _
  have enough : equilibration < blocks.length := by
    by_contra short
    rw [(window_empty_iff equilibration stride blocks).mpr (by omega)] at several
    simp at several
  rw [average_blocks_returns, windows, exactBlocks, List.length_map]
  refine ⟨by omega, enough, length, fun block member => ?_, average_window_numbers several length⟩
  obtain ⟨numbers, held, rfl⟩ := List.mem_map.mp member
  rw [Array.size_map, uniform numbers held]

-- A change of the blocks that keeps their sizes changes what is retained.
theorem average_blocks_changed {stride : Nat} (positive : 1 ≤ stride) {equilibration length : Nat}
    {blocks : List (Array ℂ)} (several : 2 ≤ (window equilibration stride blocks).length)
    (uniform : ∀ block ∈ window equilibration stride blocks, block.size = length) (name : String)
    {f : Array ℂ → Array ℂ} (sizes : ∀ block, (f block).size = block.size) :
    (averageBlocks (exactBlocks (blocks.map f)) name equilibration stride).Returns
      (blockStatistics ((window equilibration stride blocks).map f) length) := by
  rw [← window_map]
  apply average_blocks_numbers positive
  · rwa [window_map, List.length_map]
  · rw [window_map]
    intro block member
    obtain ⟨held, kept, rfl⟩ := List.mem_map.mp member
    rw [sizes, uniform held kept]

section Changes

variable {blocks others : List (Array ℂ)} {length : Nat}

theorem statistics_perm (perm : others.Perm blocks) (length : Nat) :
    blockStatistics others length = blockStatistics blocks length := by
  have entries (k : Nat) : (entriesAt others k).Perm (entriesAt blocks k) := perm.map _
  have means (k : Nat) : meanAt others k = meanAt blocks k := by
    rw [meanAt, meanAt, (entries k).sum_eq, perm.length_eq]
  have errors (k : Nat) : errorAt others k = errorAt blocks k := by
    rw [errorAt, errorAt, sample_spread_perm ((entries k).map _), perm.length_eq]
  simp only [blockStatistics, means, errors]

noncomputable def shiftedBlock (c : Nat → ℂ) (block : Array ℂ) : Array ℂ := block.mapIdx fun k z => z + c k

noncomputable def scaledBlock (a : ℝ) (block : Array ℂ) : Array ℂ := block.map fun z => (a : ℂ) * z

noncomputable def BlockAverage.shifted (c : Nat → ℂ) (average : BlockAverage Exact) : BlockAverage Exact :=
  ⟨average.mean.mapIdx fun k z => z + Cplx.exact (c k), average.error⟩

-- The mean takes the sign of the factor, the error does not.
def BlockAverage.scaled (a : ℝ) (average : BlockAverage Exact) : BlockAverage Exact :=
  ⟨average.mean.map (Cplx.times a), average.error.map (Exact.times |a|)⟩

theorem entries_shifted (uniform : ∀ block ∈ blocks, block.size = length) (c : Nat → ℂ) {k : Nat} (inside : k < length) :
    entriesAt (blocks.map (shiftedBlock c)) k = (entriesAt blocks k).map (· + c k) := by
  rw [entriesAt, entriesAt, List.map_map, List.map_map]
  apply List.map_congr_left
  intro block member
  have held : k < block.size := by rwa [uniform block member]
  simp [shiftedBlock, held]

theorem entries_scaled (a : ℝ) (blocks : List (Array ℂ)) (k : Nat) :
    entriesAt (blocks.map (scaledBlock a)) k = (entriesAt blocks k).map fun z => (a : ℂ) * z := by
  rw [entriesAt, entriesAt, List.map_map, List.map_map]
  apply List.map_congr_left
  intro block _
  by_cases held : k < block.size <;> simp [scaledBlock, held]

theorem entries_real (blocks : List (Array ℂ)) (k : Nat) :
    (entriesAt blocks k).map Complex.re = (realVectors blocks).map fun parts => parts.getD k 0 := by
  rw [entriesAt, realVectors, List.map_map, List.map_map]
  apply List.map_congr_left
  intro block _
  by_cases held : k < block.size <;> simp [held]

theorem statistics_shifted (some : blocks ≠ []) (uniform : ∀ block ∈ blocks, block.size = length) (c : Nat → ℂ) :
    blockStatistics (blocks.map (shiftedBlock c)) length = (blockStatistics blocks length).shifted c := by
  have nonzero : (blocks.length : ℂ) ≠ 0 := by simpa using some
  have means (k : Fin length) : meanAt (blocks.map (shiftedBlock c)) k = meanAt blocks k + c k := by
    rw [meanAt, meanAt, entries_shifted uniform c k.isLt, List.sum_map_add, List.map_id', List.map_const',
      List.sum_replicate, List.length_map, entriesAt, List.length_map, nsmul_eq_mul]
    field_simp
  have errors (k : Fin length) : errorAt (blocks.map (shiftedBlock c)) k = errorAt blocks k := by
    have parts : ((entriesAt blocks k).map (· + c k)).map Complex.re =
        ((entriesAt blocks k).map Complex.re).map (· + (c k).re) := by
      rw [List.map_map, List.map_map]
      rfl
    rw [errorAt, errorAt, entries_shifted uniform c k.isLt, parts, sample_spread_shift, List.length_map]
  simp only [blockStatistics, means, errors, BlockAverage.shifted, BlockAverage.mk.injEq, and_true]
  apply Array.ext
  · simp
  · intro k left right
    simp [Cplx.exact_add]

theorem statistics_scaled (a : ℝ) (blocks : List (Array ℂ)) (length : Nat) :
    blockStatistics (blocks.map (scaledBlock a)) length = (blockStatistics blocks length).scaled a := by
  have means (k : Nat) : meanAt (blocks.map (scaledBlock a)) k = a * meanAt blocks k := by
    rw [meanAt, meanAt, entries_scaled, List.sum_map_mul_left, List.map_id', List.length_map, mul_div_assoc]
  have errors (k : Nat) : errorAt (blocks.map (scaledBlock a)) k = |a| * errorAt blocks k := by
    have parts : ((entriesAt blocks k).map fun z => (a : ℂ) * z).map Complex.re =
        ((entriesAt blocks k).map Complex.re).map (a * ·) := by
      rw [List.map_map, List.map_map]
      apply List.map_congr_left
      intro z _
      exact Complex.re_ofReal_mul a z
    rw [errorAt, errorAt, entries_scaled, parts, sample_spread_times, List.length_map, mul_div_assoc]
  simp only [blockStatistics, means, errors, BlockAverage.scaled, Array.map_ofFn, Function.comp_def, Cplx.times_exact,
    Exact.times_value]

theorem statistics_real (same : realVectors others = realVectors blocks) (length : Nat) :
    (blockStatistics others length).error = (blockStatistics blocks length).error := by
  have count : others.length = blocks.length := by simpa [realVectors] using congrArg List.length same
  simp only [blockStatistics, errorAt, entries_real, same, count]

end Changes

-- What the average of retained blocks of one length holds.
structure StatisticsOf (kept : List (Array ℂ)) (length : Nat) (average : BlockAverage Exact) : Prop where
  sizes : average.mean.size = length ∧ average.error.size = length
  mean : ∀ k < length, average.mean[k]? = some (Cplx.exact ((kept.map fun block => block.getD k 0).sum / kept.length))
  nonneg : ∀ k < length, ∃ e, 0 ≤ e ∧ average.error[k]? = some (.value e)
  deviation : ∃ deviations, sampleDeviation ((realVectors kept).map (List.map .value)) = .ok deviations ∧
    ∀ k < length, average.error[k]? = some (deviations.getD k 0 / Scalar.sqrt (kept.length : Exact))
  vanishes : ∀ k < length, average.error[k]? = some (.value 0) ↔
    ∀ first ∈ kept, ∀ second ∈ kept, (first.getD k 0).re = (second.getD k 0).re

section Law

variable {blocks : List (Array ℂ)} {length : Nat}

theorem root_count_ne_zero (several : 2 ≤ blocks.length) : Real.sqrt blocks.length ≠ 0 := by
  rw [Real.sqrt_ne_zero (Nat.cast_nonneg _)]
  exact_mod_cast (by omega : blocks.length ≠ 0)

theorem error_zero_iff (several : 2 ≤ blocks.length) (k : Nat) : errorAt blocks k = 0 ↔
    ∀ first ∈ blocks, ∀ second ∈ blocks, (first.getD k 0).re = (second.getD k 0).re := by
  rw [errorAt, div_eq_zero_iff, or_iff_left (root_count_ne_zero several),
    sample_spread_zero_iff (by simpa [entriesAt] using several)]
  simp [entriesAt]

theorem real_vectors_length (uniform : ∀ block ∈ blocks, block.size = length) :
    ∀ parts ∈ realVectors blocks, parts.length = length := by
  intro parts member
  obtain ⟨block, held, rfl⟩ := List.mem_map.mp member
  rw [List.length_map, Array.length_toList, uniform block held]

theorem sizes_of_real_vectors {others : List (Array ℂ)} (same : realVectors others = realVectors blocks)
    (uniform : ∀ block ∈ blocks, block.size = length) : ∀ block ∈ others, block.size = length := by
  intro block member
  have listed : block.toList.map Complex.re ∈ realVectors blocks := same ▸ List.mem_map_of_mem member
  have sized := real_vectors_length uniform _ listed
  rwa [List.length_map, Array.length_toList] at sized

theorem error_of_spreads (several : 2 ≤ blocks.length) {k : Nat} (inside : k < length) :
    Exact.value (errorAt blocks k) =
      ((spreads (realVectors blocks) length).map Exact.value).getD k 0 / Scalar.sqrt (blocks.length : Exact) := by
  have spread : ((spreads (realVectors blocks) length).map Exact.value).getD k 0 =
      .value (sampleSpread ((entriesAt blocks k).map Complex.re)) := by
    rw [entries_real]
    simp [spreads, inside]
  rw [spread, Exact.nat_eq, Exact.value_sqrt _ (Nat.cast_nonneg _), Exact.value_div _ _ (root_count_ne_zero several)]
  rfl

theorem statistics_of_blocks (several : 2 ≤ blocks.length) (uniform : ∀ block ∈ blocks, block.size = length) :
    StatisticsOf blocks length (blockStatistics blocks length) := by
  have means (k : Nat) (inside : k < length) : (blockStatistics blocks length).mean[k]? =
      some (Cplx.exact (meanAt blocks k)) := by simp [blockStatistics, inside]
  have errors (k : Nat) (inside : k < length) : (blockStatistics blocks length).error[k]? =
      some (.value (errorAt blocks k)) := by simp [blockStatistics, inside]
  exact {
    sizes := ⟨Array.size_ofFn, Array.size_ofFn⟩
    mean := means
    nonneg := fun k inside => ⟨_, div_nonneg (sample_spread_nonneg _) (Real.sqrt_nonneg _), errors k inside⟩
    deviation := by
      refine ⟨_, sample_deviation_exact (real_vectors_length uniform) (by simpa [realVectors] using several), ?_⟩
      intro k inside
      rw [errors k inside, error_of_spreads several inside]
    vanishes := fun k inside => by
      rw [errors k inside, Option.some.injEq, Exact.value_injective.eq_iff, error_zero_iff several] }

end Law

theorem block_statistics_law {stride : Nat} (positive : 1 ≤ stride) {equilibration length : Nat}
    {blocks : List (Array ℂ)} (several : 2 ≤ (window equilibration stride blocks).length)
    (uniform : ∀ block ∈ window equilibration stride blocks, block.size = length) (name : String) :
    ∃ average, (averageBlocks (exactBlocks blocks) name equilibration stride).Returns average ∧
      StatisticsOf (window equilibration stride blocks) length average ∧
      (∀ (others : List (Array ℂ)) (dropped step : Nat), 1 ≤ step →
        (window dropped step others).Perm (window equilibration stride blocks) →
        (averageBlocks (exactBlocks others) name dropped step).Returns average) ∧
      (∀ c : Nat → ℂ, (averageBlocks (exactBlocks (blocks.map (shiftedBlock c))) name equilibration stride).Returns
        (average.shifted c)) ∧
      (∀ a : ℝ, (averageBlocks (exactBlocks (blocks.map (scaledBlock a))) name equilibration stride).Returns
        (average.scaled a)) ∧
      ∀ others : List (Array ℂ),
        realVectors (window equilibration stride others) = realVectors (window equilibration stride blocks) →
        ∃ other, (averageBlocks (exactBlocks others) name equilibration stride).Returns other ∧
          other.error = average.error := by
  have some : window equilibration stride blocks ≠ [] := by
    rintro empty
    simp [empty] at several
  refine ⟨_, average_blocks_numbers positive several uniform name, statistics_of_blocks several uniform, ?_, ?_, ?_, ?_⟩
  · intro others dropped step stepped perm
    rw [← statistics_perm perm]
    exact average_blocks_numbers stepped (by rwa [perm.length_eq])
      (fun block member => uniform block (perm.mem_iff.mp member)) name
  · intro c
    rw [← statistics_shifted some uniform c]
    exact average_blocks_changed positive several uniform name fun _ => Array.size_mapIdx
  · intro a
    rw [← statistics_scaled]
    exact average_blocks_changed positive several uniform name fun _ => Array.size_map
  · intro others same
    have count := congrArg List.length same
    rw [realVectors, realVectors, List.length_map, List.length_map] at count
    exact ⟨_, average_blocks_numbers positive (count ▸ several) (sizes_of_real_vectors same uniform) name,
      statistics_real same length⟩

-- The retained blocks agree in the real part of their second entry, which has no error in either order.
theorem block_statistics_law_pair :
    let blocks : List (Array ℂ) := [#[], #[1, 2], #[3, ⟨2, 5⟩]]
    2 ≤ (window 1 1 blocks).length ∧ (∀ block ∈ window 1 1 blocks, block.size = 2) ∧
      ∃ average, (averageBlocks (exactBlocks blocks) "one_rdm" 1 1).Returns average ∧
        average.mean[0]? = some (Cplx.exact 2) ∧ average.error[1]? = some (.value 0) ∧
        (averageBlocks (exactBlocks [#[3, ⟨2, 5⟩], #[1, 2]]) "one_rdm" 0 1).Returns average := by
  intro blocks
  have kept : window 1 1 blocks = [#[1, 2], #[3, ⟨2, 5⟩]] := rfl
  have several : 2 ≤ (window 1 1 blocks).length := by simp [kept]
  have uniform : ∀ block ∈ window 1 1 blocks, block.size = 2 := by simp [kept]
  obtain ⟨average, returned, statistics, permuted, _⟩ :=
    block_statistics_law (by decide : 1 ≤ 1) several uniform "one_rdm"
  refine ⟨several, uniform, average, returned, ?_, ?_, permuted _ 0 1 le_rfl ?_⟩
  · rw [statistics.mean 0 (by decide), kept]
    norm_num
  · rw [statistics.vanishes 1 (by decide), kept]
    simp
  · rw [kept]
    exact List.Perm.swap _ _ _

end OrbitalSpectra
