import OrbitalSpectra.Proofs.Exact.Bootstrap
import OrbitalSpectra.Proofs.Koopmans.PreparedSectors
import OrbitalSpectra.Proofs.Koopmans.SampleCentre

set_option autoImplicit false

namespace OrbitalSpectra

open Matrix

section Blocks

variable {positions : Finset Nat} {x : Nat → ℂ} {z : ℂ}

theorem constant_mean (some : positions.Nonempty) (same : ∀ b ∈ positions, x b = z) : blockMean positions x = z := by
  have nonzero : (positions.card : ℂ) ≠ 0 := by exact_mod_cast some.card_ne_zero
  rw [blockMean, Finset.sum_congr rfl same, Finset.sum_const, nsmul_eq_mul, mul_div_cancel_left₀ _ nonzero]

theorem constant_error (several : 2 ≤ positions.card) (same : ∀ b ∈ positions, x b = z) :
    blockError positions x = .value 0 := by
  have some : positions.Nonempty := Finset.card_pos.mp (by omega)
  have plural : ¬ positions.card = 1 := by omega
  have squares : ∑ b ∈ positions, ((x b).re - (blockMean positions x).re) ^ 2 = 0 := by
    apply Finset.sum_eq_zero
    intro b member
    rw [same b member, constant_mean some same, sub_self, zero_pow two_ne_zero]
  rw [blockError]
  simp only [if_neg plural, squares, zero_div, Real.sqrt_zero]

end Blocks

-- Numbers as means, without errors.
def Entries.errorless (mean : Nat → Nat → Nat → ℂ) : Entries Exact where
  mean s i j := Cplx.exact (mean s i j)
  error _ _ _ := .value 0

def blockEntry (dim : Nat) (block : Array ℂ) (s i j : Nat) : ℂ := block.getD (sectorPlace dim s i j) 0

theorem retained_inside {equilibration stride count b : Nat} (member : b ∈ retained equilibration stride count) :
    equilibration ≤ b ∧ b < count := by
  have kept := Finset.mem_filter.mp member
  exact ⟨kept.2.1, List.mem_range.mp (by simpa using kept.1)⟩

theorem of_constant_blocks {equilibration stride count : Nat} (dim : Nat) (block : Array ℂ)
    (several : 2 ≤ (retained equilibration stride count).card) :
    Entries.ofBlocks (window equilibration stride ((List.replicate count block).map fun b => b.map Cplx.exact)) dim =
      Entries.errorless (blockEntry dim block) := by
  obtain ⟨b, member⟩ : (retained equilibration stride count).Nonempty := Finset.card_pos.mp (by omega)
  have enough : equilibration < (List.replicate count block).length := by
    have inside := retained_inside member
    rw [List.length_replicate]
    omega
  have same (place : Nat) : ∀ b ∈ retained equilibration stride (List.replicate count block).length,
      ((List.replicate count block).getD b #[]).getD place 0 = block.getD place 0 := by
    intro b member
    rw [List.length_replicate] at member
    simp [List.getD_eq_getElem?_getD, (retained_inside member).2]
  rw [← List.length_replicate (n := count) (a := block)] at several member
  simp only [Entries.ofBlocks, window_mean _ _ _ _ enough, window_error _ _ _ _ enough,
    constant_mean ⟨b, member⟩ (same _), constant_error several (same _)]
  rfl

theorem errorless_over_spins (walker : WalkerType) (sign : FockSign) (mean : Nat → Nat → Nat → ℂ) :
    (Entries.errorless mean).overSpins walker =
      Entries.errorless fun s i j => TensorObservable.weight walker.code (.fock sign) * mean s i j := by
  cases walker with
  | closed =>
      simp only [Entries.overSpins, Entries.errorless, two_scale, TensorObservable.weight, WalkerType.code, if_true]
  | undefined => simp [Entries.overSpins, TensorObservable.weight, WalkerType.code]
  | collinear => simp [Entries.overSpins, TensorObservable.weight, WalkerType.code]
  | nonCollinear => simp [Entries.overSpins, TensorObservable.weight, WalkerType.code]

theorem screen_without_error (factor : ℝ) (z : ℂ) :
    screenEntry (.value factor) (Cplx.exact z) (.value 0) = Cplx.exact z := by
  have kept : ¬ (Cplx.exact z).abs < Exact.value factor * .value 0 := by
    change ¬ Real.sqrt (z.re * z.re + z.im * z.im) < factor * 0
    rw [mul_zero, not_lt]
    exact Real.sqrt_nonneg _
  rw [screenEntry, if_neg kept]

theorem errorless_screened (factor : ℝ) (mean : Nat → Nat → Nat → ℂ) :
    (Entries.errorless mean).screened (.value factor) = Entries.errorless mean := by
  simp only [Entries.screened, Entries.errorless, screen_without_error]

def sectorMatrix (dim : Nat) (mean : Nat → Nat → Nat → ℂ) (s : Nat) : Matrix (Fin dim) (Fin dim) ℂ :=
  of fun i j => mean s i j

theorem errorless_sector (dim s : Nat) (density removal addition : Nat → Nat → Nat → ℂ)
    (hermitian : (sectorMatrix dim density s).IsHermitian) :
    Entries.sector (.errorless density) (.errorless removal) (.errorless addition) dim s =
      exactSector (sectorMatrix dim density s) (sectorMatrix dim removal s) (sectorMatrix dim addition s) := by
  have means (mean : Nat → Nat → Nat → ℂ) :
      (Entries.errorless mean).meanSector dim s = Mat.exact (sectorMatrix dim mean s) :=
    Mat.of_fn_exact _ _ fun _ _ => rfl
  have made : hermitianPart ((Entries.errorless density).meanSector dim s) =
      .ok ((Entries.errorless density).hermitianSector dim s) := hermitian_part_of_fn _ _
  rw [means, exact_hermitian_part, hermitised_of_hermitian hermitian, Except.ok.injEq] at made
  simp only [Entries.sector, ← made, means]
  rfl

theorem retained_unstrided (equilibration count : Nat) :
    (retained equilibration 1 count).card = count - equilibration := by
  have interval : retained equilibration 1 count = Finset.Ico equilibration count := by
    ext b
    simp [retained]
    omega
  rw [interval, Nat.card_Ico]

-- A run whose observables have one block each, recorded over and over.
structure Source.Constant [Build] (source : Source Exact) (s : Selection) (m : Metadata) (sectors dim count : Nat)
    (block : TensorObservable → Array ℂ) : Prop where
  metadata : source.metadata = .ok m
  series : ∀ observable, source.series (TensorObservable.name observable) s.estimator s.path =
    .ok ((List.replicate count (block observable)).map fun b => b.map Cplx.exact)
  layout : flatLayout m.walkerCode m.orbitals = some (sectors, dim)
  basis : 1 ≤ m.orbitals
  wide : 1 ≤ dim
  stride : 1 ≤ s.stride
  projected : m.freeProjection = false
  several : 2 ≤ (retained s.equilibration s.stride count).card
  lengths : ∀ observable, (block observable).size = sectors * (dim * dim)

section Constant

variable {source : Source Exact} {m : Metadata} {sectors dim count : Nat} {block : TensorObservable → Array ℂ}
  {s : Selection}

def constantMean (m : Metadata) (dim : Nat) (block : TensorObservable → Array ℂ) (observable : TensorObservable) :
    Nat → Nat → Nat → ℂ :=
  fun s i j => observable.weight m.walkerCode * blockEntry dim (block observable) s i j

theorem constant_averages [Build] (constant : source.Constant s m sectors dim count block)
    (observable : TensorObservable) :
    source.Averages s m sectors dim observable
      ((List.replicate count (block observable)).map fun b => b.map Cplx.exact) := by
  have able : Averageable m s (List.replicate count (block observable)) sectors dim := by
    obtain ⟨b, member⟩ : (retained s.equilibration s.stride count).Nonempty :=
      Finset.card_pos.mp (Nat.lt_of_lt_of_le Nat.two_pos constant.several)
    refine ⟨constant.layout, constant.basis, constant.wide, constant.stride, constant.projected, ?_, fun b kept => ?_⟩
    · have inside := retained_inside member
      rw [List.length_replicate]
      omega
    · rw [List.length_replicate] at kept
      rw [← constant.lengths observable]
      simp [List.getD_eq_getElem?_getD, (retained_inside kept).2]
  exact ⟨constant.metadata, constant.series observable, able.map Cplx.exact⟩

theorem constant_entries [Build] (constant : source.Constant s m sectors dim count block) {walker : WalkerType}
    (known : m.walker = .ok walker) (observable : TensorObservable) :
    observable.entries s walker dim ((List.replicate count (block observable)).map fun b => b.map Cplx.exact) =
      Entries.errorless (constantMean m dim block observable) := by
  have code := ((walker_ok_iff m walker).mp known).2
  have named : constantMean m dim block observable =
      fun s i j => observable.weight m.walkerCode * blockEntry dim (block observable) s i j := rfl
  rw [TensorObservable.entries, of_constant_blocks dim _ constant.several, named, code]
  cases observable with
  | density => simp only [TensorObservable.read, TensorObservable.weight, Complex.ofReal_one, one_mul]
  | fock sign => exact errorless_over_spins walker sign _

theorem constant_density [Build] (constant : source.Constant s m sectors dim count block) :
    ∃ t, (averageDensity source s).Returns t ∧
      t.Stacked sectors dim (Entries.errorless (constantMean m dim block .density)) := by
  obtain ⟨t, returned, _⟩ := average_returns_of_averages (constant_averages constant .density)
  obtain ⟨walker, defined, code, _⟩ := (flat_layout_iff _ _ _ _).mp constant.layout
  have known : m.walker = .ok walker := (walker_ok_iff m walker).mpr ⟨defined, code⟩
  have stacked := average_stacked_in .density known (constant_averages constant .density) returned
  rw [constant_entries constant known] at stacked
  exact ⟨t, returned, stacked⟩

variable {p : Params Exact} {factor : ℝ}

def constantMatrix (m : Metadata) (dim : Nat) (block : TensorObservable → Array ℂ) (observable : TensorObservable)
    (s : Nat) : Matrix (Fin dim) (Fin dim) ℂ :=
  sectorMatrix dim (constantMean m dim block observable) s

noncomputable def constantSector (m : Metadata) (dim : Nat) (block : TensorObservable → Array ℂ) (s : Nat) :
    SectorAverages Exact :=
  exactSector (constantMatrix m dim block .density s) (constantMatrix m dim block (.fock .minus) s)
    (constantMatrix m dim block (.fock .plus) s)

theorem constant_prepared [Build] (constant : source.Constant p.selection m sectors dim count block)
    (screens : p.screenFactor = .value factor)
    (hermitian : ∀ s < sectors, (constantMatrix m dim block .density s).IsHermitian) :
    (preparedSectors source p).Returns ((List.range sectors).map (constantSector m dim block)) := by
  obtain ⟨walker, defined, code, _⟩ := (flat_layout_iff _ _ _ _).mp constant.layout
  have known : m.walker = .ok walker := (walker_ok_iff m walker).mpr ⟨defined, code⟩
  refine ((prepared_sectors_returns_iff _).mpr ⟨m, walker, sectors, dim, _, _, _, ⟨known,
    constant_averages constant .density, constant_averages constant (.fock .minus),
    constant_averages constant (.fock .plus)⟩, ?_⟩).1
  apply List.map_congr_left
  intro s member
  simp only [preparedSector, constant_entries constant known, screens, errorless_screened]
  exact errorless_sector dim s _ _ _ (hermitian s (List.mem_range.mp member))

end Constant

end OrbitalSpectra
