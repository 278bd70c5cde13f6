import OrbitalSpectra.Eigen.ShiftedSweeps
import OrbitalSpectra.Proofs.Koopmans.SampleDraws
import OrbitalSpectra.Proofs.RankedWhitening

set_option autoImplicit false

namespace OrbitalSpectra

open Sampling

variable {σ R : Type} [Scalar R]

-- The last `rank` eigenvalues are among those above the cutoff, as far as they are defined.
def Eigensystem.KeepsLast (e : Eigensystem R) (rank : Nat) (cutoff : R) : Prop :=
  ∀ k ∈ lastPlaces e.values.length rank, k ∈ e.above cutoff ∨ ¬ Defined (e.value k)

instance (e : Eigensystem R) (rank : Nat) (cutoff : R) : Decidable (e.KeepsLast rank cutoff) :=
  inferInstanceAs (Decidable (∀ k ∈ lastPlaces e.values.length rank, k ∈ e.above cutoff ∨ ¬ Defined (e.value k)))

section Whitening

variable [OrderedScalar R] {solver : EigenSolver R} {s fock : Mat (Cplx R)} {e : Eigensystem R} {n rank : Nat}
  {cutoff : R}

theorem whitened_iff (solved : eigh solver s = .ok e) (fits : rank ≤ e.values.length) (defined : Defined cutoff)
    {held : Option (Mat (Cplx R))} (whitened : whitenWithRank solver s rank cutoff = .ok held) :
    held.isSome = true ↔ e.KeepsLast rank cutoff := by
  have kept : (∀ i ∈ lastPlaces e.values.length rank, ¬ e.value i ≤ cutoff) ↔ e.KeepsLast rank cutoff := by
    refine forall₂_congr fun i place => ?_
    rw [mem_above, not_at_most_iff defined, and_iff_right ((mem_last_places fits).mp place).2]
  rw [whiten_with_rank_places solved fits] at whitened
  cases Except.ok.inj whitened
  rw [← kept]
  split
  · rename_i high
    exact iff_of_true rfl high
  · rename_i low
    exact iff_of_false nofun low

theorem energies_with_rank_iff (square : s.shape = (n, n)) (solved : eigh solver s = .ok e) (inside : rank ≤ n)
    (defined : Defined cutoff) {held : Option (List R)}
    (found : projectedEnergiesWithRank solver s fock rank cutoff = .ok held) :
    held.isSome = true ↔ e.KeepsLast rank cutoff := by
  have length := (eigh_ok_sizes solver square solved).1
  simp only [projectedEnergiesWithRank, except_bind_ok_iff, except_lift_ok_iff, reporting_ok_iff] at found
  obtain ⟨_, _, whitened, whitening, projected⟩ := found
  rw [← whitened_iff solved (length.symm ▸ inside) defined whitening]
  cases whitened with
  | none =>
      cases Except.ok.inj projected
      rfl
  | some x =>
      obtain ⟨energies, _, rfl⟩ := (except_map_ok_iff _ _ _).mp projected
      rfl

end Whitening

-- How a sample of the sector relates to the spectra of its density and of its hole density.
structure AcceptedAbove (solver : EigenSolver R) (sector : SectorAverages R) (ionizationRank attachmentRank : Nat)
    (cutoff : R) (z : Nat → R) (sample : SectorSample R) : Prop where
  ionization : ∃ e, eigh solver (drawnMatrix sector.density sector.densityError z) = .ok e ∧
    (sample.ionization.isSome = true ↔ e.KeepsLast ionizationRank cutoff)
  attachment : ∃ hole e, holeDensity (drawnMatrix sector.density sector.densityError z) = .ok hole ∧
    eigh solver hole = .ok e ∧ (sample.attachment.isSome = true ↔ e.KeepsLast attachmentRank cutoff)

theorem sampled_accepted_above [OrderedScalar R] {solver : EigenSolver R} {sector : SectorAverages R}
    {n ionizationRank attachmentRank : Nat} (fits : sector.Fits n) (ionizationInside : ionizationRank ≤ n)
    (attachmentInside : attachmentRank ≤ n) {cutoff : R} (defined : Defined cutoff) {z : Nat → R}
    {sample : SectorSample R} (sampled : DrawnSample solver sector n ionizationRank attachmentRank cutoff z sample) :
    AcceptedAbove solver sector ionizationRank attachmentRank cutoff z sample := by
  obtain ⟨rfl, _⟩ := Prod.mk.inj fits.density
  have square : (drawnMatrix sector.density sector.densityError z).shape =
      (sector.density.rows, sector.density.rows) := rfl
  obtain ⟨hole, holeOk, holeSquare⟩ := hole_density_square square
  obtain ⟨e, solved, _⟩ := eigh_square solver square
  obtain ⟨f, holeSolved, _⟩ := eigh_square solver holeSquare
  have attachment := sampled.attachment
  rw [SectorAverages.drawnAddition, holeOk] at attachment
  exact ⟨⟨e, solved, energies_with_rank_iff square solved ionizationInside defined sampled.ionization⟩,
    ⟨hole, f, holeOk, holeSolved, energies_with_rank_iff holeSquare holeSolved attachmentInside defined attachment⟩⟩

theorem accepted_above_or_undefined [OrderedScalar R] [NormalStream σ R] (solver : EigenSolver R) (n : Nat) (cutoff : R)
    (finite : Scalar.isFinite cutoff = true) :
    (∀ (s : Mat (Cplx R)) (rank : Nat), s.shape = (n, n) → rank ≤ n → ∃ e held, eigh solver s = .ok e ∧
      whitenWithRank solver s rank cutoff = .ok held ∧ (held.isSome = true ↔ e.KeepsLast rank cutoff)) ∧
    ∀ (sector : SectorAverages R) (ionizationRank attachmentRank samples : Nat) (state next : σ)
      (drawn : List (SectorSample R)), sector.Fits n → ionizationRank ≤ n → attachmentRank ≤ n →
      Yields (sectorSamples solver sector ionizationRank attachmentRank samples cutoff) state drawn next →
      ∀ k sample, drawn[k]? = some sample → AcceptedAbove solver sector ionizationRank attachmentRank cutoff
        (fun i => NormalStream.drawAt R state (k * (3 * (n * n)) + i)) sample := by
  have defined : Defined cutoff := OrderedScalar.defined_of_finite finite
  constructor
  · intro s rank square inside
    obtain ⟨e, solved, length, _⟩ := eigh_square solver square
    obtain ⟨held, whitened, _⟩ := whiten_with_rank_square solver square inside cutoff
    exact ⟨e, held, solved, whitened, whitened_iff solved (length.symm ▸ inside) defined whitened⟩
  · intro sector ionizationRank attachmentRank samples state next drawn fits ionizationInside attachmentInside yields k
      sample found
    obtain ⟨_, _, sampled⟩ := sector_samples_sampled fits yields
    exact sampled_accepted_above fits ionizationInside attachmentInside defined (sampled k sample found)

local instance idleStream : NormalStream Nat Float where
  ofSeed seed := seed.toNat
  next k := (0.0, k + 1)

-- One orbital with an infinite density, whose eigenvalue is undefined.
def overflowed : SectorAverages Float :=
  ⟨Mat.ofRows [[⟨1.0 / 0.0, 0.0⟩]], Mat.ofRows [[0.0]], Mat.ofRows [[⟨1.0, 0.0⟩]], Mat.ofRows [[0.0]],
    Mat.ofRows [[⟨1.0, 0.0⟩]], Mat.ofRows [[0.0]]⟩

-- It is whitened though nothing lies above the cutoff, and so are its samples.
theorem accepted_above_or_undefined_overflowed :
    (∃ e x, eigh Eigen.solve overflowed.density = .ok e ∧ e.above 0.0 = [] ∧
      whitenWithRank Eigen.solve overflowed.density 1 0.0 = .ok (some x)) ∧
    ∃ drawn next sample, Yields (sectorSamples Eigen.solve overflowed 1 1 2 0.0) (0 : Nat) drawn next ∧
      drawn[1]? = some sample ∧ sample.ionization.isSome = true ∧
      AcceptedAbove Eigen.solve overflowed 1 1 0.0 (fun i => NormalStream.drawAt Float 0 (1 * (3 * (1 * 1)) + i))
        sample := by
  obtain ⟨whitened, accepted⟩ := accepted_above_or_undefined (σ := Nat) Eigen.solve 1 0.0 (by decide +kernel)
  constructor
  · obtain ⟨e, held, solved, whitening, kept⟩ := whitened overflowed.density 1 rfl le_rfl
    have evaluated : (eigh Eigen.solve overflowed.density).toOption.map
        (fun e => (e.above 0.0, decide (e.KeepsLast 1 0.0))) = some ([], true) := by decide +kernel
    rw [solved] at evaluated
    obtain ⟨none, keeps⟩ := Prod.mk.inj (Option.some.inj evaluated)
    obtain ⟨x, rfl⟩ := Option.isSome_iff_exists.mp (kept.mpr (of_decide_eq_true keeps))
    exact ⟨e, x, solved, none, whitening⟩
  · obtain ⟨⟨drawn, next⟩, yields⟩ := Run.returns_of_ok
      (x := sectorSamples Eigen.solve overflowed 1 1 2 0.0 (0 : Nat)) (by decide +kernel)
    have evaluated : (sectorSamples Eigen.solve overflowed 1 1 2 0.0 (0 : Nat)).outcome.toOption.bind
        (fun made => made.1[1]?.map fun sample => sample.ionization.isSome) = some true := by decide +kernel
    rw [yields] at evaluated
    obtain ⟨sample, found, some⟩ := Option.map_eq_some_iff.mp evaluated
    refine ⟨drawn, next, sample, yields, found, some, ?_⟩
    exact accepted overflowed 1 1 2 0 next drawn ⟨⟨rfl, rfl, rfl⟩, rfl, rfl, rfl⟩ le_rfl le_rfl yields 1 sample found

end OrbitalSpectra
