import OrbitalSpectra.Proofs.Exact.Spread

set_option autoImplicit false

namespace OrbitalSpectra

variable {n length : Nat}

-- The numbers that the samples `x` have at each place deviate from their mean by `r`.
def Deviates (x : Fin n → Fin length → ℝ) (r : Fin length → ℝ) : Prop :=
  sampleDeviation (List.ofFn fun i => List.ofFn fun k => Exact.value (x i k)) =
    .ok (List.ofFn fun k => Exact.value (r k))

noncomputable def spreadAt (x : Fin n → Fin length → ℝ) (k : Fin length) : ℝ :=
  sampleSpread (List.ofFn fun i => x i k)

theorem deviates_spread (several : 2 ≤ n) (x : Fin n → Fin length → ℝ) : Deviates x (spreadAt x) := by
  let samples : List (List ℝ) := List.ofFn fun i => List.ofFn (x i)
  have uniform : ∀ s ∈ samples, s.length = length := by
    intro s member
    obtain ⟨i, rfl⟩ := List.mem_ofFn.mp member
    exact List.length_ofFn
  have stored : (List.ofFn fun i => List.ofFn fun k => Exact.value (x i k)) = samples.map (List.map .value) := by
    simp only [samples, List.map_ofFn, Function.comp_def]
  have columns : spreads samples length = List.ofFn (spreadAt x) := by
    apply List.ext_getElem
    · simp
    · intro k left right
      have inside : k < length := by simpa using right
      simp [spreads, samples, spreadAt, List.map_ofFn, Function.comp_def, inside]
  rw [Deviates, stored, sample_deviation_exact uniform (by simpa [samples] using several), columns, List.map_ofFn]
  rfl

theorem deviates_iff (several : 2 ≤ n) (x : Fin n → Fin length → ℝ) (r : Fin length → ℝ) :
    Deviates x r ↔ r = spreadAt x := by
  have spread := deviates_spread several x
  constructor
  · intro deviates
    rw [Deviates, spread, Except.ok.injEq, List.ofFn_inj] at deviates
    funext k
    exact (Exact.value_injective (congrFun deviates k)).symm
  · intro same
    rw [same]
    exact spread

section Place

variable (x y : Fin n → ℝ)

theorem squares_of_sums (positive : 0 < n) :
    ∑ i, (x i - (∑ j, x j) / n) ^ 2 = ∑ i, x i ^ 2 - (∑ i, x i) ^ 2 / n := by
  have nonzero : (n : ℝ) ≠ 0 := by positivity
  have expand (i : Fin n) (m : ℝ) : (x i - m) ^ 2 = x i ^ 2 - 2 * m * x i + m ^ 2 := by ring
  simp only [expand, Finset.sum_add_distrib, Finset.sum_sub_distrib, ← Finset.mul_sum, Finset.sum_const,
    Finset.card_univ, Fintype.card_fin, nsmul_eq_mul]
  field_simp
  ring

-- Every pair stands twice among all combinations, and no sample differs from itself.
theorem pairs_twice : 2 * ∑ i, ∑ j ∈ Finset.Ioi i, (x i - x j) ^ 2 = ∑ i, ∑ j, (x i - x j) ^ 2 := by
  have ordered := Finset.sum_sum_Ioi_add_eq_sum_sum_off_diag fun i j => (x i - x j) ^ 2
  have turned (i j : Fin n) : (x j - x i) ^ 2 + (x i - x j) ^ 2 = 2 * (x i - x j) ^ 2 := by ring
  simp only [turned, ← Finset.mul_sum] at ordered
  rw [ordered]
  apply Finset.sum_congr rfl
  intro i _
  rw [← Finset.sum_compl_add_sum {i}]
  simp [sub_sq_comm]

theorem pairs_of_sums : ∑ i, ∑ j ∈ Finset.Ioi i, (x i - x j) ^ 2 = n * ∑ i, x i ^ 2 - (∑ i, x i) ^ 2 := by
  have twice := pairs_twice x
  have expand (i j : Fin n) : (x i - x j) ^ 2 = x i ^ 2 - 2 * x i * x j + x j ^ 2 := by ring
  have all : ∑ i, ∑ j, (x i - x j) ^ 2 = 2 * (n * ∑ i, x i ^ 2 - (∑ i, x i) ^ 2) := by
    simp only [expand, Finset.sum_add_distrib, Finset.sum_sub_distrib, ← Finset.mul_sum, ← Finset.sum_mul,
      Finset.sum_const, Finset.card_univ, Fintype.card_fin, nsmul_eq_mul]
    ring
  linarith

theorem squares_of_pairs (positive : 0 < n) :
    ∑ i, (x i - (∑ j, x j) / n) ^ 2 = 1 / n * ∑ i, ∑ j ∈ Finset.Ioi i, (x i - x j) ^ 2 := by
  have nonzero : (n : ℝ) ≠ 0 := by positivity
  rw [squares_of_sums x positive, pairs_of_sums]
  field_simp

theorem sample_spread_sum : sampleSpread (List.ofFn x) =
    Real.sqrt ((∑ i, (x i - (∑ j, x j) / n) ^ 2) / (n - 1)) := by
  rw [sampleSpread, List.length_ofFn, List.map_ofFn, List.sum_ofFn, List.sum_ofFn]
  rfl

noncomputable def centred : EuclideanSpace ℝ (Fin n) := WithLp.toLp 2 fun i => x i - (∑ j, x j) / n

theorem spread_norm : sampleSpread (List.ofFn x) = ‖centred x‖ / Real.sqrt (n - 1) := by
  rw [sample_spread_sum, EuclideanSpace.norm_eq, Real.sqrt_div (Finset.sum_nonneg fun _ _ => sq_nonneg _)]
  simp only [centred, Real.norm_eq_abs, sq_abs]

theorem centred_add : centred (x + y) = centred x + centred y := by
  ext i
  simp only [centred, PiLp.add_apply, Pi.add_apply, Finset.sum_add_distrib]
  ring

theorem sample_spread_triangle :
    sampleSpread (List.ofFn (x + y)) ≤ sampleSpread (List.ofFn x) + sampleSpread (List.ofFn y) := by
  rw [spread_norm, spread_norm, spread_norm, centred_add, ← add_div]
  gcongr
  exact norm_add_le _ _

end Place

-- The spread `r` of the samples `x` at one place.
structure SpreadOf (x : Fin n → ℝ) (r : ℝ) : Prop where
  nonneg : 0 ≤ r
  squares : r ^ 2 * (n - 1) = ∑ i, (x i - (∑ j, x j) / n) ^ 2
  pairs : r ^ 2 * (n - 1) = 1 / n * ∑ i, ∑ j ∈ Finset.Ioi i, (x i - x j) ^ 2
  vanishes : r = 0 ↔ ∀ i j, x i = x j

theorem spread_of_samples (several : 2 ≤ n) (x : Fin n → ℝ) : SpreadOf x (sampleSpread (List.ofFn x)) := by
  have divisor : 0 < (n : ℝ) - 1 := by
    have count : (2 : ℝ) ≤ n := by exact_mod_cast several
    linarith
  have squares : sampleSpread (List.ofFn x) ^ 2 * (n - 1) = ∑ i, (x i - (∑ j, x j) / n) ^ 2 := by
    rw [sample_spread_sum, Real.sq_sqrt (div_nonneg (Finset.sum_nonneg fun _ _ => sq_nonneg _) divisor.le),
      div_mul_cancel₀ _ divisor.ne']
  exact {
    nonneg := sample_spread_nonneg _
    squares := squares
    pairs := by rw [squares, squares_of_pairs x (by omega)]
    vanishes := by
      rw [sample_spread_zero_iff (by rwa [List.length_ofFn])]
      simp only [List.forall_mem_ofFn_iff] }

theorem sample_deviation_seminorm (several : 2 ≤ n) (x : Fin n → Fin length → ℝ) :
    ∃ r : Fin length → ℝ, Deviates x r ∧ (∀ k, SpreadOf (fun i => x i k) (r k)) ∧
      (∀ π : Equiv.Perm (Fin n), Deviates (x ∘ π) r) ∧
      (∀ c : Fin length → ℝ, Deviates (fun i => x i + c) r) ∧
      (∀ a : ℝ, Deviates (fun i => a • x i) fun k => |a| * r k) ∧
      ∀ (y : Fin n → Fin length → ℝ) (s : Fin length → ℝ), Deviates y s →
        ∃ t, Deviates (fun i => x i + y i) t ∧ ∀ k, t k ≤ r k + s k := by
  refine ⟨spreadAt x, deviates_spread several x, fun k => spread_of_samples several _, ?_, ?_, ?_, ?_⟩
  · intro π
    rw [deviates_iff several]
    funext k
    exact (sample_spread_perm (π.ofFn_comp_perm fun i => x i k)).symm
  · intro c
    rw [deviates_iff several]
    funext k
    have shifted := sample_spread_shift (List.ofFn fun i => x i k) (c k)
    rw [List.map_ofFn] at shifted
    exact shifted.symm
  · intro a
    rw [deviates_iff several]
    funext k
    have scaled := sample_spread_times a (List.ofFn fun i => x i k)
    rw [List.map_ofFn] at scaled
    exact scaled.symm
  · intro y s deviates
    rw [(deviates_iff several y s).mp deviates]
    exact ⟨_, deviates_spread several _, fun k => sample_spread_triangle _ _⟩

-- Three samples, evenly spaced at the first place and equal at the second.
theorem sample_deviation_seminorm_three :
    let x : Fin 3 → Fin 2 → ℝ := fun i k => if k = 0 then 3 * i else 5
    2 ≤ 3 ∧ Deviates x ![3, 0] ∧ Deviates (x ∘ Equiv.swap 0 1) ![3, 0] ∧
      Deviates (fun i => (-2 : ℝ) • x i) ![6, 0] := by
  intro x
  obtain ⟨r, deviates, spread, permuted, _, scaled, _⟩ := sample_deviation_seminorm (by decide : 2 ≤ 3) x
  have first : r 0 = 3 := by
    have squares := (spread 0).squares
    norm_num [x, Fin.sum_univ_three] at squares
    nlinarith [(spread 0).nonneg]
  have second : r 1 = 0 := by
    rw [(spread 1).vanishes]
    intro i j
    rfl
  have found : r = ![3, 0] := by
    funext k
    fin_cases k
    · exact first
    · exact second
  have doubled : (fun k => |(-2 : ℝ)| * r k) = ![6, 0] := by
    rw [found]
    funext k
    fin_cases k <;> norm_num
  rw [found] at deviates permuted
  exact ⟨by decide, deviates, permuted _, doubled ▸ scaled (-2)⟩

end OrbitalSpectra
