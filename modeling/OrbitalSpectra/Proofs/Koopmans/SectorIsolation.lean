import OrbitalSpectra.Proofs.Koopmans.SectorData

set_option autoImplicit false

namespace OrbitalSpectra

open NormalStream Sampling

variable {σ R : Type} [Scalar R] [NormalStream σ R]

def Store.retained (store : Store R) (p : Params R) (name : String) : List (Block R) :=
  window p.equilibration p.stride ((store.series? name p.estimator p.path).getD [])

def Store.sector (store : Store R) (p : Params R) (s : Nat) : SectorAverages R :=
  sectorOfBlocks p.screenFactor (store.retained p "one_rdm") (store.retained p "gen_fock_minus")
    (store.retained p "gen_fock_plus") store.metadata.orbitals s

-- Blocks that agree in pairs on the places of one sector, which spans `width` places.
def SectorAgrees (width s : Nat) : List (Block R) → List (Block R) → Prop :=
  List.Forall₂ fun x y => ∀ k < width, x.getD (s * width + k) 0 = y.getD (s * width + k) 0

instance [DecidableEq R] (width s : Nat) (a b : List (Block R)) : Decidable (SectorAgrees width s a b) :=
  inferInstanceAs (Decidable (List.Forall₂ _ a b))

theorem collinear_average [Build] (observable : TensorObservable) {store : Store R} {p : Params R} {t : TensorAverage R}
    (collinear : store.metadata.walkerCode = 2) (returned : (observable.average store.source p.selection).Returns t)
    (nonempty : t.mean.sectors ≠ []) :
    t.mean.sectors = (List.range 2).map (sectorMean (store.retained p observable.name) store.metadata.orbitals) ∧
    t.error.sectors = (List.range 2).map (sectorError (store.retained p observable.name) store.metadata.orbitals) := by
  obtain ⟨walker, raw, averaged, rfl⟩ := (observable.average_returns _ _ _).mp returned
  obtain ⟨metadata, blocks, sectors, dim, read, known, series, able, mean, error⟩ :=
    (average_tensor_returns _ _ _ _ _).mp ⟨averaged, (observable.present_nonempty walker raw).mp nonempty⟩
  cases (store_metadata store metadata).mp read
  have held : store.series? observable.name p.estimator p.path = some blocks := (store_series _ _ _ _ _).mp series
  have layout := able.layout
  rw [flatLayout, collinear, if_neg (by decide), if_pos rfl, Option.some.injEq, Prod.mk.injEq] at layout
  obtain ⟨rfl, rfl⟩ := layout
  have code := ((walker_ok_iff _ _).mp known).2
  have same : observable.present walker raw = raw := by
    cases walker with
    | closed => simp [collinear, WalkerType.code] at code
    | undefined => cases observable <;> rfl
    | collinear => cases observable <;> rfl
    | nonCollinear => cases observable <;> rfl
  rw [same, Store.retained, held, Option.getD_some]
  exact ⟨mean, error⟩

theorem collinear_sectors [Build] {store : Store R} {p : Params R} (collinear : store.metadata.walkerCode = 2)
    {density removal addition screenedDensity screenedRemoval screenedAddition : TensorAverage R}
    (densityMean : (averageDensity store.source p.selection).Returns density)
    (removalMean : (averageFock store.source .minus p.selection).Returns removal)
    (additionMean : (averageFock store.source .plus p.selection).Returns addition)
    (densityOk : density.screened p.screenFactor = .ok screenedDensity)
    (removalOk : removal.screened p.screenFactor = .ok screenedRemoval)
    (additionOk : addition.screened p.screenFactor = .ok screenedAddition) {sectors : List (SectorAverages R)}
    (averaged : sectorAverages screenedDensity screenedRemoval screenedAddition = .ok sectors)
    (nonempty : sectors ≠ []) : sectors = (List.range 2).map (store.sector p) := by
  obtain ⟨densities, removals, additions⟩ := sector_averages_nonempty averaged nonempty
  have densityHeld := collinear_average .density collinear densityMean (mt (screened_empty_iff densityOk).mpr densities)
  have removalHeld :=
    collinear_average (.fock .minus) collinear removalMean (mt (screened_empty_iff removalOk).mpr removals)
  have additionHeld :=
    collinear_average (.fock .plus) collinear additionMean (mt (screened_empty_iff additionOk).mpr additions)
  have known := sector_averages_of_blocks (screened_from_blocks densityOk densityHeld.1 densityHeld.2)
    (screened_from_blocks removalOk removalHeld.1 removalHeld.2)
    (screened_from_blocks additionOk additionHeld.1 additionHeld.2)
  exact Except.ok.inj (averaged.symm.trans known)

-- Where the draws of a sector start on the stream of the seed.
def sectorStart (σ : Type) [NormalStream σ R] (p : Params R) (orbitals s : Nat) (seed : UInt64) : σ :=
  skip R (s * (p.samples * (3 * (orbitals * orbitals)))) (ofSeed R seed)

theorem collinear_spectra_returns [Build] {solver : EigenSolver R} {store : Store R} {p : Params R} {entropy : σ}
    {seed : UInt64} {result : KoopmansSpectra R} (collinear : store.metadata.walkerCode = 2)
    (seeded : p.seed = some seed) (returned : (koopmansSpectra solver store.source p entropy).Returns result) :
    ∀ s < 2, ∃ spectrum, result.toList[s]? = some spectrum ∧
      Yields (sectorSpectrum solver (store.sector p s) p.samples p.cutoff)
        (sectorStart σ p store.metadata.orbitals s seed) spectrum
        (sectorStart σ p store.metadata.orbitals (s + 1) seed) := by
  simp only [koopmansSpectra, Run.bind_returns, Run.lift_returns, reporting_ok_iff] at returned
  obtain ⟨_, _, density, densityMean, addition, additionMean, removal, removalMean, screenedDensity, densityOk,
    screenedRemoval, removalOk, screenedAddition, additionOk, sectors, averaged, ⟨spectra, final⟩, drawn, finished⟩ :=
    returned
  have nonempty : sectors ≠ [] := by
    rintro rfl
    obtain ⟨rfl, _⟩ := (pure_yields _ _ _ _).mp drawn
    exact Run.throw_returns _ _ finished
  obtain rfl :=
    collinear_sectors collinear densityMean removalMean additionMean densityOk removalOk additionOk averaged nonempty
  have start : p.stream entropy = (ofSeed R seed : σ) := by rw [Params.stream, seeded]
  rw [start] at drawn
  have uniform : ∀ sector ∈ (List.range 2).map (store.sector p),
      sector.draws = 3 * (store.metadata.orbitals * store.metadata.orbitals) := by
    intro sector member
    obtain ⟨s, _, rfl⟩ := List.mem_map.mp member
    exact sector_of_blocks_draws _ _ _ _ _ s
  obtain ⟨count, each⟩ := sector_spectra_yields solver p.samples p.cutoff _ _ uniform _ spectra final drawn
  have listed : result.toList = spectra := by
    match spectra, count with
    | [alpha, beta], _ => rw [← (Run.pure_returns _ _).mp finished]; rfl
  intro s inside
  obtain ⟨spectrum, found, yields⟩ := each s (by simpa using inside)
  refine ⟨spectrum, listed ▸ found, ?_⟩
  simpa only [List.getElem_map, List.getElem_range, sectorStart] using yields

theorem column_agrees {width s k : Nat} {a b : List (Block R)} (agree : SectorAgrees width s a b)
    (inside : k < width) : column a (s * width + k) = column b (s * width + k) := by
  induction agree with
  | nil => rfl
  | cons first _ ih => exact congrArg₂ List.cons (first k inside) ih

theorem sector_place_column {dim s i j : Nat} {a b : List (Block R)} (agree : SectorAgrees (dim * dim) s a b)
    (row : i < dim) (col : j < dim) : column a (sectorPlace dim s i j) = column b (sectorPlace dim s i j) := by
  rw [sectorPlace, Nat.add_assoc]
  exact column_agrees agree (Mat.index_lt row col)

theorem screened_entry_agrees {dim s i j : Nat} {a b : List (Block R)} (agree : SectorAgrees (dim * dim) s a b)
    (factor : R) (row : i < dim) (col : j < dim) :
    screenedEntry factor a dim s i j = screenedEntry factor b dim s i j := by
  rw [screenedEntry, screenedEntry, sector_place_column agree row col]

theorem sector_error_agrees {dim s : Nat} {a b : List (Block R)} (agree : SectorAgrees (dim * dim) s a b) :
    sectorError a dim s = sectorError b dim s := by
  apply Mat.of_fn_congr
  intro i j row col
  exact congrArg standardError (sector_place_column agree row col)

theorem screened_sector_agrees {dim s : Nat} {a b : List (Block R)} (agree : SectorAgrees (dim * dim) s a b)
    (factor : R) : screenedSector factor a dim s = screenedSector factor b dim s :=
  Mat.of_fn_congr fun _ _ row col => screened_entry_agrees agree factor row col

theorem screened_density_agrees {dim s : Nat} {a b : List (Block R)} (agree : SectorAgrees (dim * dim) s a b)
    (factor : R) : screenedDensity factor a dim s = screenedDensity factor b dim s := by
  apply Mat.of_fn_congr
  intro i j row col
  rw [screened_entry_agrees agree factor row col, screened_entry_agrees agree factor col row]

theorem store_sector_agrees {a b : Store R} {p : Params R} {s : Nat}
    (orbitals : a.metadata.orbitals = b.metadata.orbitals)
    (agree : ∀ name ∈ ["one_rdm", "gen_fock_plus", "gen_fock_minus"],
      SectorAgrees (a.metadata.orbitals * a.metadata.orbitals) s (a.retained p name) (b.retained p name)) :
    a.sector p s = b.sector p s := by
  have density := agree "one_rdm" (by simp)
  have removal := agree "gen_fock_minus" (by simp)
  have addition := agree "gen_fock_plus" (by simp)
  simp only [Store.sector, sectorOfBlocks, ← orbitals, screened_density_agrees density, screened_sector_agrees removal,
    screened_sector_agrees addition, sector_error_agrees density, sector_error_agrees removal,
    sector_error_agrees addition]

theorem sector_isolation [Build] (solver : EigenSolver R) (a b : Store R) (p : Params R) (seed : UInt64) (s : Nat)
    (entropyA entropyB : σ) (ra rb : KoopmansSpectra R) (aCollinear : a.metadata.walkerCode = 2)
    (bCollinear : b.metadata.walkerCode = 2) (orbitals : a.metadata.orbitals = b.metadata.orbitals)
    (seeded : p.seed = some seed) (inside : s < 2)
    (agree : ∀ name ∈ ["one_rdm", "gen_fock_plus", "gen_fock_minus"],
      SectorAgrees (a.metadata.orbitals * a.metadata.orbitals) s (a.retained p name) (b.retained p name))
    (aReturns : (koopmansSpectra solver a.source p entropyA).Returns ra)
    (bReturns : (koopmansSpectra solver b.source p entropyB).Returns rb) :
    ∃ spectrum, ra.toList[s]? = some spectrum ∧ rb.toList[s]? = some spectrum ∧
      Yields (sectorSpectrum solver (a.sector p s) p.samples p.cutoff)
        (sectorStart σ p a.metadata.orbitals s seed) spectrum
        (sectorStart σ p a.metadata.orbitals (s + 1) seed) := by
  obtain ⟨spectrum, found, yields⟩ := collinear_spectra_returns aCollinear seeded aReturns s inside
  obtain ⟨other, otherFound, otherYields⟩ := collinear_spectra_returns bCollinear seeded bReturns s inside
  rw [← store_sector_agrees orbitals agree, ← orbitals] at otherYields
  obtain ⟨rfl, _⟩ := yields_unique yields otherYields
  exact ⟨spectrum, found, otherFound, yields⟩

local instance rationalScalar : Scalar ℚ where
  decLt := inferInstance
  decLe := inferInstance
  sqrt x := (Nat.sqrt x.num.toNat : ℚ) / Nat.sqrt x.den
  hypot x y := max |x| |y|
  isFinite _ := true
  undefined := 0
  totalLe x y := decide (x ≤ y)
  text _ := ""

local instance alternatingStream : NormalStream Nat ℚ where
  ofSeed seed := seed.toNat
  next k := (if k % 2 = 0 then -1 / 2 else 1 / 2, k + 1)

-- One orbital. The alpha density takes the two given values, all beta entries are fixed.
def pointStore (first second : ℚ) : Store ℚ :=
  Store.ofHistory ⟨1, 2, false⟩
    [⟨"one_rdm", .mixed, 0, [#[⟨first, 0⟩, ⟨1 / 4, 0⟩], #[⟨second, 0⟩, ⟨3 / 4, 0⟩]]⟩,
      ⟨"gen_fock_minus", .mixed, 0, [#[⟨second, 0⟩, ⟨1, 0⟩], #[⟨first, 0⟩, ⟨3, 0⟩]]⟩,
      ⟨"gen_fock_plus", .mixed, 0, [#[⟨second, 0⟩, ⟨1, 0⟩], #[⟨first, 0⟩, ⟨2, 0⟩]]⟩]

def pointParams : Params ℚ := ⟨.mixed, 0, 1, none, 2, 0, 0, some 7⟩

def pointSolver (m : Mat (Cplx ℚ)) : Eigensystem ℚ := ⟨[(m.entry 0 0).re], Mat.identity 1⟩

theorem sector_isolation_unstable_alpha : ∃ (steady unsteady : KoopmansSpectra ℚ) (alpha beta : Spectrum ℚ),
    (koopmansSpectra pointSolver (pointStore (1 / 4) (3 / 4)).source pointParams 0).Returns steady ∧
    (koopmansSpectra pointSolver (pointStore (-1) 2).source pointParams 5).Returns unsteady ∧
    unsteady.toList[0]? = some alpha ∧ alpha.errors.isNone = true ∧
    steady.toList[1]? = some beta ∧ unsteady.toList[1]? = some beta := by
  obtain ⟨steady, steadyReturns⟩ := Run.returns_of_ok
    (x := koopmansSpectra pointSolver (pointStore (1 / 4) (3 / 4)).source pointParams 0) (by decide +kernel)
  obtain ⟨unsteady, unsteadyReturns⟩ := Run.returns_of_ok
    (x := koopmansSpectra pointSolver (pointStore (-1) 2).source pointParams 5) (by decide +kernel)
  obtain ⟨beta, steadyBeta, unsteadyBeta, _⟩ := sector_isolation pointSolver (pointStore (1 / 4) (3 / 4))
    (pointStore (-1) 2) pointParams 7 1 0 5 steady unsteady rfl rfl rfl rfl (by decide)
    (by decide +kernel) steadyReturns unsteadyReturns
  have unstable : ((koopmansSpectra pointSolver (pointStore (-1) 2).source pointParams 5).outcome.toOption.bind
      fun spectra => spectra.toList[0]?).map (fun alpha => alpha.errors.isNone) = some true := by decide +kernel
  rw [unsteadyReturns] at unstable
  obtain ⟨alpha, found, none⟩ := Option.map_eq_some_iff.mp unstable
  exact ⟨steady, unsteady, alpha, beta, steadyReturns, unsteadyReturns, found, none, steadyBeta, unsteadyBeta⟩

end OrbitalSpectra
