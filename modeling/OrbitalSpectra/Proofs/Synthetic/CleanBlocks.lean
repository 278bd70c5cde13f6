import OrbitalSpectra.Proofs.Koopmans.ConstantBlocks
import OrbitalSpectra.Proofs.Store.History
import OrbitalSpectra.Synthetic.Model

set_option autoImplicit false

namespace OrbitalSpectra.Synthetic.Setup

open Sampling

variable (s : Setup Exact)

noncomputable def occupationNumber (i : Nat) : ℝ :=
  if i < s.filled then 0.97 - 0.02 * i else 0.03 + 0.01 * ((i - s.filled : Nat) : ℝ)

noncomputable def orbitalEnergy (i : Nat) : ℝ :=
  if i < s.filled then -0.6 + 0.1 * i else 0.1 + 0.15 * ((i - s.filled : Nat) : ℝ)

theorem occupation_value (i : Nat) : s.occupation i = .value (s.occupationNumber i) := by
  by_cases filled : i < s.filled
  · rw [occupation, occupationNumber, if_pos filled, if_pos filled]
    rfl
  · rw [occupation, occupationNumber, if_neg filled, if_neg filled]
    rfl

theorem energy_value (i : Nat) : s.energy i = .value (s.orbitalEnergy i) := by
  by_cases filled : i < s.filled
  · rw [energy, orbitalEnergy, if_pos filled, if_pos filled]
    rfl
  · rw [energy, orbitalEnergy, if_neg filled, if_neg filled]
    rfl

noncomputable def diagonalNumber : TensorObservable → Nat → ℝ
  | .density, i => s.occupationNumber i
  | .fock .minus, i => (if s.collinear then 1 else 1 / 2) * s.occupationNumber i * s.orbitalEnergy i
  | .fock .plus, i => (if s.collinear then 1 else 1 / 2) * (1 - s.occupationNumber i) * s.orbitalEnergy i

theorem fock_scale_value : s.fockScale = .value (if s.collinear then 1 else 1 / 2) := by
  unfold fockScale
  split
  · rfl
  · exact Exact.half_eq

theorem fock_diagonal_value (sign : FockSign) (i : Nat) :
    s.fockDiagonal sign i = .value (s.diagonalNumber (.fock sign) i) := by
  cases sign <;> simp only [fockDiagonal, fock_scale_value, occupation_value, energy_value, Exact.one_eq] <;> rfl

noncomputable def cleanNumber (d : Nat → ℝ) (k : Nat) : ℝ :=
  if k / s.orbitals % s.orbitals = k % s.orbitals then d (k / s.orbitals % s.orbitals) else 0

noncomputable def cleanBlock (d : Nat → ℝ) : Array ℂ :=
  ((List.range s.blockLength).map fun k => (s.cleanNumber d k : ℂ)).toArray

noncomputable def cleanObservable (observable : TensorObservable) : Array ℂ := s.cleanBlock (s.diagonalNumber observable)

theorem clean_entry_value (d : Nat → ℝ) (k : Nat) :
    s.cleanEntry (fun i => .value (d i)) k = .value (s.cleanNumber d k) := by
  by_cases diagonal : k / s.orbitals % s.orbitals = k % s.orbitals
  · simp only [cleanEntry, cleanNumber, if_pos diagonal]
  · simp only [cleanEntry, cleanNumber, if_neg diagonal, Exact.zero_eq]

section Draws

variable {σ α β : Type}

-- A drawing that has one and the same result from every state of the stream.
def Gives (x : Drawing σ α) (a : α) : Prop := ∀ state, ∃ next, x.run state = .ok (a, next)

theorem gives_pure (a : α) : Gives (pure a : Drawing σ α) a := fun state => ⟨state, rfl⟩

theorem gives_bind {x : Drawing σ α} {f : α → Drawing σ β} {a : α} {b : β} (first : Gives x a) (second : Gives (f a) b) :
    Gives (x >>= f) b := by
  intro state
  obtain ⟨between, drawn⟩ := first state
  obtain ⟨next, rest⟩ := second between
  refine ⟨next, ?_⟩
  rw [StateT.run_bind, drawn]
  exact rest

theorem gives_step {x : Except Failure α} {a : α} (ok : x = .ok a) : Gives (x : Drawing σ α) a := by
  subst ok
  exact fun state => ⟨state, rfl⟩

theorem gives_list {f : α → Drawing σ β} {g : α → β} {xs : List α} (each : ∀ x ∈ xs, Gives (f x) (g x)) :
    Gives (xs.mapM f) (xs.map g) := by
  induction xs with
  | nil => exact gives_pure []
  | cons x rest ih =>
      have others := ih fun y member => each y (List.mem_cons_of_mem x member)
      rw [List.mapM_cons]
      exact gives_bind (each x List.mem_cons_self) (gives_bind others (gives_pure _))

variable [NormalStream σ Exact] [Build] {s}

theorem noisy_block_clean (numbers : DrawsNumbers σ) (quiet : s.noise = .value 0)
    (room : fitsMemory s.blockLength complexSize = true) (d : Nat → ℝ) :
    Gives (s.noisyBlock fun i => .value (d i) : Drawing σ (Block Exact)) ((s.cleanBlock d).map Cplx.exact) := by
  have entry (k : Nat) : Gives (do
      let z ← modifyGet (NormalStream.next : σ → Exact × σ)
      return Cplx.ofReal (s.cleanEntry (fun i => .value (d i)) k + s.noise * z) : Drawing σ (Cplx Exact))
        (Cplx.exact (s.cleanNumber d k)) := by
    intro state
    obtain ⟨z, drawn⟩ := numbers state
    refine ⟨(NormalStream.next (R := Exact) state).2, ?_⟩
    change Except.ok (Cplx.ofReal (_ + s.noise * (NormalStream.next (R := Exact) state).1), _) = _
    rw [drawn, quiet, clean_entry_value, Exact.value_mul, Exact.value_add, zero_mul, add_zero]
    rfl
  have block : (s.cleanBlock d).map Cplx.exact =
      ((List.range s.blockLength).map fun k => Cplx.exact (s.cleanNumber d k)).toArray := by
    rw [cleanBlock, List.map_toArray, List.map_map]
    rfl
  rw [block]
  refine gives_bind (gives_step (to_size_fits (fits_memory_size (by decide) room))) ?_
  refine gives_bind (gives_step (if_pos room)) ?_
  rw [if_neg (not_not_intro rfl)]
  exact gives_bind (gives_list fun k _ => entry k) (gives_pure _)

theorem noisy_blocks_clean (numbers : DrawsNumbers σ) (quiet : s.noise = .value 0) (fits : s.fits = true) (d : Nat → ℝ) :
    Gives (s.noisyBlocks fun i => .value (d i) : Drawing σ (List (Block Exact)))
      ((List.replicate s.blocks (s.cleanBlock d)).map fun b => b.map Cplx.exact) := by
  obtain ⟨list, blocks⟩ := Bool.and_eq_true_iff.mp fits
  have finite : ¬ (!Scalar.isFinite s.noise) = true := by rw [quiet, Exact.value_finite]; decide
  have listed : (List.replicate s.blocks (s.cleanBlock d)).map (fun b => b.map Cplx.exact) =
      (List.range s.blocks).map fun _ => (s.cleanBlock d).map Cplx.exact := by
    rw [List.map_const', List.length_range, List.map_replicate]
  rw [listed, noisyBlocks, if_neg finite]
  refine gives_bind (gives_step (if_pos list)) (gives_list fun k member => noisy_block_clean numbers quiet ?_ d)
  have some : s.blocks ≠ 0 := Nat.ne_zero_of_lt (List.mem_range.mp member)
  simpa [some] using blocks

noncomputable def cleanBlocks (s : Setup Exact) (observable : TensorObservable) : List (Block Exact) :=
  (List.replicate s.blocks (s.cleanObservable observable)).map fun b => b.map Cplx.exact

noncomputable def cleanStore (s : Setup Exact) : Store Exact := Store.ofHistory s.metadata
  [⟨densitySeries, .backPropagated, 0, s.cleanBlocks .density⟩,
    ⟨FockSign.minus.observable, .backPropagated, 0, s.cleanBlocks (.fock .minus)⟩,
    ⟨FockSign.plus.observable, .backPropagated, 0, s.cleanBlocks (.fock .plus)⟩]

theorem store_clean (numbers : DrawsNumbers σ) (quiet : s.noise = .value 0) (fits : s.fits = true) :
    s.store σ = .ok s.cleanStore := by
  have density : s.occupation = fun i => .value (s.diagonalNumber .density i) := funext s.occupation_value
  have fock (sign : FockSign) : s.fockDiagonal sign = fun i => .value (s.diagonalNumber (.fock sign) i) :=
    funext (s.fock_diagonal_value sign)
  have clean (observable : TensorObservable) := noisy_blocks_clean numbers quiet fits (s.diagonalNumber observable)
  have drawn : Gives (s.drawStore : Drawing σ (Store Exact)) s.cleanStore := by
    rw [drawStore, density, fock, fock]
    exact gives_bind (clean .density) (gives_bind (clean _) (gives_bind (clean _) (gives_pure _)))
  obtain ⟨next, run⟩ := drawn (NormalStream.ofSeed Exact s.seed)
  rw [store, run]
  rfl

end Draws

variable {s}

theorem clean_store_series (observable : TensorObservable) :
    s.cleanStore.source.series observable.name .backPropagated none = .ok (s.cleanBlocks observable) := by
  rw [store_series, cleanStore, Store.series_of_history]
  rcases observable with _ | (_ | _) <;> rfl

theorem clean_block_size (d : Nat → ℝ) : (s.cleanBlock d).size = s.sectors * (s.orbitals * s.orbitals) := by
  simp [cleanBlock, blockLength, Nat.mul_assoc]

-- The rows are counted on through the sectors, each of which has as many as there are orbitals.
theorem clean_block_entry (d : Nat → ℝ) {sector i j : Nat} (inside : sector < s.sectors) (row : i < s.orbitals)
    (col : j < s.orbitals) : blockEntry s.orbitals (s.cleanBlock d) sector i j = if i = j then (d i : ℂ) else 0 := by
  have place : sectorPlace s.orbitals sector i j = (sector * s.orbitals + i) * s.orbitals + j := by
    rw [sectorPlace]
    ring
  have rows : sector * s.orbitals + i < s.sectors * s.orbitals := Mat.index_lt inside row
  have listed : sectorPlace s.orbitals sector i j < s.blockLength := by
    rw [place]
    exact Mat.index_lt rows col
  have entry : blockEntry s.orbitals (s.cleanBlock d) sector i j =
      (s.cleanNumber d (sectorPlace s.orbitals sector i j) : ℂ) := by
    simp [blockEntry, cleanBlock, listed]
  rw [entry, cleanNumber, place, Mat.index_div col, Mat.index_mod col, Mat.index_mod row]
  split <;> simp

theorem clean_layout [Build] : flatLayout s.metadata.walkerCode s.metadata.orbitals = some (s.sectors, s.orbitals) := by
  rw [metadata, sectors, walker]
  cases s.collinear <;> rfl

theorem clean_store_constant [Build] (basis : 1 ≤ s.orbitals) (several : 2 ≤ s.blocks) :
    s.cleanStore.source.Constant s.params.selection s.metadata s.sectors s.orbitals s.blocks s.cleanObservable where
  metadata := rfl
  series := clean_store_series
  layout := clean_layout
  basis := basis
  wide := basis
  stride := le_rfl
  projected := rfl
  several := by
    change 2 ≤ (retained (s.blocks / 10) 1 s.blocks).card
    rw [retained_unstrided]
    omega
  lengths _ := clean_block_size _

end OrbitalSpectra.Synthetic.Setup
