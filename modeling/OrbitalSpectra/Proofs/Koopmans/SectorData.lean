import OrbitalSpectra.Proofs.Koopmans.SectorStream
import OrbitalSpectra.Proofs.Average.TensorEntries

set_option autoImplicit false

namespace OrbitalSpectra

variable {R : Type} [Scalar R]

theorem map_m_ok {ε ι α : Type} (f : ι → Except ε α) (g : ι → α) (xs : List ι)
    (each : ∀ x ∈ xs, f x = .ok (g x)) : xs.mapM f = .ok (xs.map g) := by
  induction xs with
  | nil => rfl
  | cons x rest ih =>
      have tail := ih fun y member => each y (List.mem_cons_of_mem x member)
      rw [List.mapM_cons, each x (by simp), tail]
      rfl

theorem map_m_at {ε ι α : Type} {f : ι → Except ε α} {xs : List ι} {ys : List α} (ok : xs.mapM f = .ok ys) {k : Nat}
    {x : ι} (found : xs[k]? = some x) : ∃ y, ys[k]? = some y ∧ f x = .ok y := by
  induction xs generalizing ys k with
  | nil => cases found
  | cons first rest ih =>
      simp only [List.mapM_cons, except_bind_ok_iff] at ok
      obtain ⟨y, made, others, tail, pair⟩ := ok
      cases pair
      cases k with
      | zero =>
          cases found
          exact ⟨y, rfl, made⟩
      | succ k => exact ih tail found

theorem screen_matrix_of_fn (factor : R) (dim : Nat) (f : Nat → Nat → Cplx R) (g : Nat → Nat → R) :
    ∃ kept, screenMatrix (Mat.ofFn dim dim f) (Mat.ofFn dim dim g) factor =
      .ok (Mat.ofFn dim dim fun i j => screenEntry factor (f i j) (g i j), kept) := by
  rw [screenMatrix, Mat.zip_with_of_fn]
  exact ⟨_, rfl⟩

def sectorPlace (dim s i j : Nat) : Nat := s * (dim * dim) + i * dim + j

structure Entries (R : Type) where
  mean : Nat → Nat → Nat → Cplx R
  error : Nat → Nat → Nat → R

namespace Entries

def ofBlocks (blocks : List (Block R)) (dim : Nat) : Entries R where
  mean s i j := OrbitalSpectra.mean (column blocks (sectorPlace dim s i j))
  error s i j := standardError (column blocks (sectorPlace dim s i j))

-- A closed run leaves the sum over both spins to its reader.
def overSpins (walker : WalkerType) (e : Entries R) : Entries R :=
  match walker with
  | .closed => { e with mean := fun s i j => (e.mean s i j).scale 2.0 }
  | _ => e

def screened (factor : R) (e : Entries R) : Entries R :=
  { e with mean := fun s i j => screenEntry factor (e.mean s i j) (e.error s i j) }

def meanSector (e : Entries R) (dim s : Nat) : Mat (Cplx R) := Mat.ofFn dim dim (e.mean s)

def errorSector (e : Entries R) (dim s : Nat) : Mat R := Mat.ofFn dim dim (e.error s)

def hermitianSector (e : Entries R) (dim s : Nat) : Mat (Cplx R) :=
  Mat.ofFn dim dim fun i j => (e.mean s i j + (e.mean s j i).conj).scale 0.5

end Entries

structure TensorAverage.Stacked (t : TensorAverage R) (count dim : Nat) (e : Entries R) : Prop where
  mean : t.mean.sectors = (List.range count).map (e.meanSector dim)
  error : t.error.sectors = (List.range count).map (e.errorSector dim)

theorem screen_sectors_returns (factor : R) (dim : Nat) (e : Entries R) (places : List Nat) :
    ∃ kept, screenSectors factor (places.map (e.meanSector dim)) (places.map (e.errorSector dim)) =
      (places.map ((e.screened factor).meanSector dim), .ok kept) := by
  induction places with
  | nil => exact ⟨0, rfl⟩
  | cons s rest ih =>
      obtain ⟨kept, screened⟩ : ∃ kept, screenMatrix (e.meanSector dim s) (e.errorSector dim s) factor =
          .ok ((e.screened factor).meanSector dim s, kept) := screen_matrix_of_fn factor dim (e.mean s) (e.error s)
      obtain ⟨others, tail⟩ := ih
      refine ⟨kept + others, ?_⟩
      simp only [List.map_cons, screenSectors, screened, tail]
      rfl

theorem screened_stacked {t : TensorAverage R} {count dim : Nat} {e : Entries R} (stacked : t.Stacked count dim e)
    (factor : R) :
    ∃ screened, t.screened factor = .ok screened ∧ screened.Stacked count dim (e.screened factor) := by
  have counts : ¬ t.mean.count ≠ t.error.count := by simp [SpinTensor.count, stacked.mean, stacked.error]
  obtain ⟨kept, sectors⟩ := screen_sectors_returns factor dim e (List.range count)
  rw [← stacked.mean, ← stacked.error] at sectors
  simp only [TensorAverage.screened, screenTensor, if_neg counts, except_map_ok_iff, sectors]
  exact ⟨_, ⟨kept, rfl, rfl⟩, ⟨rfl, stacked.error⟩⟩

def Entries.sector (density removal addition : Entries R) (dim s : Nat) : SectorAverages R where
  density := density.hermitianSector dim s
  densityError := density.errorSector dim s
  removal := removal.meanSector dim s
  removalError := removal.errorSector dim s
  addition := addition.meanSector dim s
  additionError := addition.errorSector dim s

theorem sector_averages_stacked {density removal addition : TensorAverage R} {count dim : Nat} {d r a : Entries R}
    (densityStacked : density.Stacked count dim d) (removalStacked : removal.Stacked count dim r)
    (additionStacked : addition.Stacked count dim a) :
    sectorAverages density removal addition = .ok ((List.range count).map (Entries.sector d r a dim)) := by
  have counted : density.mean.count = count := by simp [SpinTensor.count, densityStacked.mean]
  rw [sectorAverages, counted]
  apply map_m_ok
  intro s member
  have inside := List.mem_range.mp member
  simp only [densityStacked.mean, densityStacked.error, removalStacked.mean, removalStacked.error,
    additionStacked.mean, additionStacked.error, List.getElem?_map, List.getElem?_range inside, Option.map_some,
    or_fault_some]
  change hermitianPart (d.meanSector dim s) >>= _ = _
  rw [Entries.meanSector, hermitian_part_of_fn]
  rfl

theorem screened_empty_iff {t screened : TensorAverage R} {factor : R} (ok : t.screened factor = .ok screened) :
    screened.mean.sectors = [] ↔ t.mean.sectors = [] := by
  simp only [TensorAverage.screened, except_map_ok_iff] at ok
  obtain ⟨_, _, rfl⟩ := ok
  have shapes : (screenTensor t.mean t.error factor).1.sectors.map Mat.shape = t.mean.sectors.map Mat.shape := by
    unfold screenTensor
    split
    · rfl
    · exact screen_sectors_shape factor t.mean.sectors t.error.sectors
  have none := congrArg (fun shapes => shapes = []) shapes
  simpa only [List.map_eq_nil_iff, eq_iff_iff] using none

-- A sector is read from all three tensors.
theorem sector_averages_nonempty {density removal addition : TensorAverage R} {sectors : List (SectorAverages R)}
    (ok : sectorAverages density removal addition = .ok sectors) (nonempty : sectors ≠ []) :
    density.mean.sectors ≠ [] ∧ removal.mean.sectors ≠ [] ∧ addition.mean.sectors ≠ [] := by
  have several : 0 < density.mean.count := by
    refine Nat.pos_of_ne_zero fun none => nonempty ?_
    rw [sectorAverages, none] at ok
    cases ok
    rfl
  obtain ⟨sector, _, read⟩ := map_m_at ok (List.getElem?_range several)
  simp only [except_bind_ok_iff, or_fault_ok_iff] at read
  obtain ⟨_, densityRead, _, _, _, _, _, removalRead, _, _, _, additionRead, _⟩ := read
  have listed {α : Type} {xs : List α} {x : α} (held : xs[0]? = some x) : xs ≠ [] := by
    rintro rfl
    cases held
  exact ⟨listed densityRead, listed removalRead, listed additionRead⟩

-- The averaged entry of a sector, zero where it is small against its error.
def screenedEntry (factor : R) (blocks : List (Block R)) (dim s i j : Nat) : Cplx R :=
  screenEntry factor (mean (column blocks (sectorPlace dim s i j)))
    (standardError (column blocks (sectorPlace dim s i j)))

def screenedSector (factor : R) (blocks : List (Block R)) (dim s : Nat) : Mat (Cplx R) :=
  Mat.ofFn dim dim (screenedEntry factor blocks dim s)

def screenedDensity (factor : R) (blocks : List (Block R)) (dim s : Nat) : Mat (Cplx R) :=
  Mat.ofFn dim dim fun i j =>
    (screenedEntry factor blocks dim s i j + (screenedEntry factor blocks dim s j i).conj).scale 0.5

-- A sector from the retained blocks of the density and of the two Fock matrices.
def sectorOfBlocks (factor : R) (density removal addition : List (Block R)) (dim s : Nat) : SectorAverages R where
  density := screenedDensity factor density dim s
  densityError := sectorError density dim s
  removal := screenedSector factor removal dim s
  removalError := sectorError removal dim s
  addition := screenedSector factor addition dim s
  additionError := sectorError addition dim s

theorem sector_of_blocks_draws (factor : R) (density removal addition : List (Block R)) (dim s : Nat) :
    (sectorOfBlocks factor density removal addition dim s).draws = 3 * (dim * dim) := by
  change dim * dim + dim * dim + dim * dim = _
  omega

-- An averaged tensor that holds the screened statistics of the blocks.
structure ScreenedFrom (factor : R) (blocks : List (Block R)) (count dim : Nat) (t : TensorAverage R) : Prop where
  mean : t.mean.sectors = (List.range count).map (screenedSector factor blocks dim)
  error : t.error.sectors = (List.range count).map (sectorError blocks dim)

theorem screened_from_blocks {t screened : TensorAverage R} {factor : R} {blocks : List (Block R)} {count dim : Nat}
    (ok : t.screened factor = .ok screened)
    (means : t.mean.sectors = (List.range count).map (sectorMean blocks dim))
    (errors : t.error.sectors = (List.range count).map (sectorError blocks dim)) :
    ScreenedFrom factor blocks count dim screened := by
  have stacked : t.Stacked count dim (.ofBlocks blocks dim) := ⟨means, errors⟩
  obtain ⟨_, again, mean, error⟩ := screened_stacked stacked factor
  cases Except.ok.inj (ok.symm.trans again)
  exact ⟨mean, error⟩

theorem sector_averages_of_blocks {factor : R} {densityBlocks removalBlocks additionBlocks : List (Block R)}
    {count dim : Nat} {density removal addition : TensorAverage R}
    (densityFrom : ScreenedFrom factor densityBlocks count dim density)
    (removalFrom : ScreenedFrom factor removalBlocks count dim removal)
    (additionFrom : ScreenedFrom factor additionBlocks count dim addition) :
    sectorAverages density removal addition = .ok ((List.range count).map
      (sectorOfBlocks factor densityBlocks removalBlocks additionBlocks dim)) := by
  have stacked {t : TensorAverage R} {blocks : List (Block R)} (held : ScreenedFrom factor blocks count dim t) :
      t.Stacked count dim ((Entries.ofBlocks blocks dim).screened factor) := ⟨held.mean, held.error⟩
  exact sector_averages_stacked (stacked densityFrom) (stacked removalFrom) (stacked additionFrom)

end OrbitalSpectra
