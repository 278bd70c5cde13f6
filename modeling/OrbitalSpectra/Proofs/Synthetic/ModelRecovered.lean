import OrbitalSpectra.Proofs.ErrorlessOccupations
import OrbitalSpectra.Proofs.Synthetic.CleanBlocks

set_option autoImplicit false

namespace OrbitalSpectra.Synthetic

open Matrix Sampling

namespace Setup

variable (s : Setup Exact)

noncomputable def keptOrbitals (d : Nat → ℝ) : List Nat := (List.range s.orbitals).filter fun i => 1e-6 < d i

noncomputable def spinOccupations : List ℝ :=
  ((List.range s.orbitals).map fun i => s.sectors * s.occupationNumber i).filter fun x => 1e-6 < x

noncomputable def removalEnergies : List ℝ := (s.keptOrbitals s.occupationNumber).map s.orbitalEnergy

noncomputable def additionEnergies : List ℝ := (s.keptOrbitals fun i => 1 - s.occupationNumber i).map s.orbitalEnergy

-- The list of natural occupations of the model, largest first, and zeros for the orbitals left out.
structure OccupationsRecovered (o : Occupations Exact) : Prop where
  values : ∃ kept : List ℝ, kept.Pairwise (· ≥ ·) ∧ kept.Perm s.spinOccupations ∧
    o.values = (kept ++ List.replicate (s.orbitals - kept.length) 0).map .value
  errors : o.errors = List.replicate s.orbitals (.value 0)

structure SpectrumRecovered (spectrum : Spectrum Exact) : Prop where
  ionization : ∃ es : List ℝ, es.Pairwise (· ≤ ·) ∧ es.Perm s.removalEnergies ∧ spectrum.ionization = es.map .value
  attachment : ∃ es : List ℝ, es.Pairwise (· ≤ ·) ∧ es.Perm s.additionEnergies ∧ spectrum.attachment = es.map .value
  ionizationErrors : spectrum.ionizationErrors = List.replicate spectrum.ionization.length (.value 0)
  attachmentErrors : spectrum.attachmentErrors = List.replicate spectrum.attachment.length (.value 0)

end Setup

section Diagonal

variable {n : Nat} {cutoff : ℝ}

theorem fin_range_kept (d e : Nat → ℝ) :
    ((List.finRange n).filter fun k : Fin n => cutoff < d k).map (fun k : Fin n => e k) =
      ((List.range n).filter fun i => cutoff < d i).map e := by
  rw [← List.map_coe_finRange_eq_range, List.filter_map, List.map_map]
  rfl

theorem kept_energies_perm (d e : Nat → ℝ) :
    (keptEnergies (fun k : Fin n => d k) (fun k => e k) cutoff).Perm
      (((List.range n).filter fun i => cutoff < d i).map e) := by
  rw [keptEnergies, fin_range_kept]
  exact ascending_list_perm _

theorem diagonal_multiple (count : Nat) (d : Fin n → ℝ) :
    count • realDiagonal d = realDiagonal fun k => count * d k := by
  ext i j
  rw [Matrix.smul_apply, realDiagonal, realDiagonal, diagonal_apply, diagonal_apply]
  split <;> simp

theorem kept_diagonal_perm (d : Nat → ℝ) : (keptSpectrum (realDiagonal fun k : Fin n => d k) cutoff).Perm
    (((List.range n).map d).filter fun x => cutoff < x) := by
  rw [(diagonal_form _).kept_eq, ← List.map_coe_finRange_eq_range, List.map_map, List.ofFn_eq_map]
  exact ascending_list_perm _

end Diagonal

namespace Setup

variable {s : Setup Exact}

-- A closed run keeps half of a Fock matrix and doubles it when it is read.
theorem weight_scale (sign : FockSign) :
    (TensorObservable.weight s.metadata.walkerCode (.fock sign)) * (if s.collinear then 1 else 1 / 2) = (1 : ℝ) := by
  rw [TensorObservable.weight, metadata, walker]
  cases s.collinear <;> norm_num [Metadata.ofWalker, WalkerType.code]

noncomputable def sectorNumber (s : Setup Exact) : TensorObservable → Nat → ℝ
  | .density, i => s.occupationNumber i
  | .fock .minus, i => s.occupationNumber i * s.orbitalEnergy i
  | .fock .plus, i => (1 - s.occupationNumber i) * s.orbitalEnergy i

theorem weighted_number (observable : TensorObservable) (i : Nat) :
    observable.weight s.metadata.walkerCode * s.diagonalNumber observable i = s.sectorNumber observable i := by
  rcases observable with _ | sign
  · exact one_mul _
  · have unit := weight_scale (s := s) sign
    cases sign <;> simp only [diagonalNumber, sectorNumber] <;> rw [mul_assoc, ← mul_assoc, unit, one_mul]

noncomputable def cleanSector (s : Setup Exact) (observable : TensorObservable) :
    Nat → Matrix (Fin s.orbitals) (Fin s.orbitals) ℂ :=
  constantMatrix s.metadata s.orbitals s.cleanObservable observable

theorem clean_sector_diagonal (observable : TensorObservable) {sector : Nat} (inside : sector < s.sectors) :
    s.cleanSector observable sector = realDiagonal fun k => s.sectorNumber observable k := by
  apply diagonal_sector
  intro i j
  rw [constantMean, cleanObservable, clean_block_entry _ inside i.isLt j.isLt, ← weighted_number]
  by_cases same : i = j
  · rw [if_pos (congrArg Fin.val same), if_pos same, Complex.ofReal_mul]
  · rw [if_neg fun val => same (Fin.ext val), if_neg same, mul_zero]

theorem clean_energies {sector : Nat} (inside : sector < s.sectors) :
    SectorEnergies (s.cleanSector .density sector) (s.cleanSector (.fock .minus) sector)
      (s.cleanSector (.fock .plus) sector) 1e-6
      (keptEnergies (fun k : Fin s.orbitals => s.occupationNumber k) (fun k => s.orbitalEnergy k) 1e-6)
      (keptEnergies (fun k : Fin s.orbitals => 1 - s.occupationNumber k) (fun k => s.orbitalEnergy k) 1e-6) := by
  rw [clean_sector_diagonal .density inside, clean_sector_diagonal (.fock .minus) inside,
    clean_sector_diagonal (.fock .plus) inside]
  exact diagonal_energies _ _ (by norm_num)

theorem occupations_recovered (s : Setup Exact) :
    let density := s.sectors • realDiagonal fun k : Fin s.orbitals => s.occupationNumber k
    s.OccupationsRecovered ⟨(occupationList density 1e-6).map .value, zerosOf (occupationList density 1e-6)⟩ := by
  intro density
  have hermitian : density.IsHermitian := (multiple_hermitian (diagonal_hermitian _) s.sectors).hermitian
  refine ⟨⟨(keptSpectrum density 1e-6).reverse, ?_, ?_, ?_⟩, ?_⟩
  · exact List.pairwise_reverse.mpr ((ascending_spectrum_sorted density).filter _)
  · refine (List.reverse_perm _).trans ?_
    rw [show density = _ from diagonal_multiple s.sectors _]
    exact kept_diagonal_perm fun i => s.sectors * s.occupationNumber i
  · rw [List.length_reverse]
    rfl
  · have length := (kept_occupations hermitian (show (0 : ℝ) ≤ 1e-6 by norm_num)).length
    exact congrArg (List.replicate · (Exact.value 0)) length

theorem errorless_recovered {ionization attachment : List ℝ} (ionizationSorted : ionization.Pairwise (· ≤ ·))
    (ionizationListed : ionization.Perm s.removalEnergies) (attachmentSorted : attachment.Pairwise (· ≤ ·))
    (attachmentListed : attachment.Perm s.additionEnergies) :
    s.SpectrumRecovered (errorlessSpectrum ionization attachment) where
  ionization := ⟨ionization, ionizationSorted, ionizationListed, rfl⟩
  attachment := ⟨attachment, attachmentSorted, attachmentListed, rfl⟩
  ionizationErrors := by
    change zerosOf ionization = List.replicate (ionization.map Exact.value).length _
    rw [List.length_map]
    rfl
  attachmentErrors := by
    change zerosOf attachment = List.replicate (attachment.map Exact.value).length _
    rw [List.length_map]
    rfl

end Setup

section Recovered

variable {σ : Type} [NormalStream σ Exact]

theorem model_recovered [Build] (numbers : DrawsNumbers σ) (solver : EigenSolver Exact) (faithful : Faithful solver)
    (s : Setup Exact) (quiet : s.noise = .value 0) (basis : 1 ≤ s.orbitals) (several : 2 ≤ s.blocks)
    (fits : s.fits = true) (enough : 2 ≤ s.samples) (room : s.samples < 2 ^ 58) (entropy : σ) :
    (∀ i, s.occupation i = .value (s.occupationNumber i) ∧ s.energy i = .value (s.orbitalEnergy i)) ∧
    ∃ store, s.store σ = .ok store ∧
      (∃ occupations, (naturalOccupations solver store.source s.params entropy).Returns occupations ∧
        s.OccupationsRecovered occupations) ∧
      ∃ result, (koopmansSpectra solver store.source s.params entropy).Returns result ∧
        result.toList.length = s.sectors ∧ (∀ spectrum ∈ result.toList, s.SpectrumRecovered spectrum) ∧
        ((∃ alpha beta, result = .collinear alpha beta) ↔ s.collinear = true) := by
  have constant := Setup.clean_store_constant basis several
  have screens : s.params.screenFactor = .value 2 := Exact.two_eq
  have held : s.params.cutoff = .value 1e-6 := rfl
  have nonneg : (0 : ℝ) ≤ 1e-6 := by norm_num
  have listed := (samples_fit _).mpr room
  refine ⟨fun i => ⟨s.occupation_value i, s.energy_value i⟩, s.cleanStore, Setup.store_clean numbers quiet fits, ?_, ?_⟩
  · have returned := constant_occupations constant (diagonal_hermitian _)
      (fun _ inside => Setup.clean_sector_diagonal .density inside) faithful enough screens zero_le_two held nonneg
      entropy numbers listed
    exact ⟨_, returned, Setup.occupations_recovered s⟩
  · obtain ⟨result, returned, spectra, collinear⟩ := constant_spectra numbers faithful constant enough screens
      zero_le_two held nonneg listed (fun sector inside => Setup.clean_energies inside) entropy
    refine ⟨result, returned, ?_, ?_, ?_⟩
    · rw [spectra, List.length_replicate]
    · intro spectrum member
      rw [spectra] at member
      rw [List.eq_of_mem_replicate member]
      exact Setup.errorless_recovered (ascending_list_sorted _) (kept_energies_perm _ _) (ascending_list_sorted _)
        (kept_energies_perm (fun i => 1 - s.occupationNumber i) _)
    · rw [collinear, Setup.metadata, Setup.walker]
      cases s.collinear <;> simp [Metadata.ofWalker, WalkerType.code]

local instance demoStream : NormalStream Unit Exact := constantStream

-- Two orbitals, one filled and one empty, for walkers of both spins.
def pairSetup (samples : Nat) : Setup Exact := ⟨2, 2, .value 0, true, samples, 7⟩

theorem pair_occupations : (pairSetup 2).spinOccupations = [1.94, 0.06] := by
  have first : (1e-6 : ℝ) < 1.94 := by norm_num
  have second : (1e-6 : ℝ) < 0.06 := by norm_num
  have numbers : (List.range (pairSetup 2).orbitals).map (fun i => ((pairSetup 2).sectors : ℝ) *
      (pairSetup 2).occupationNumber i) = [1.94, 0.06] := by
    simp [List.range_succ, Setup.occupationNumber, Setup.filled, Setup.sectors, pairSetup]
    norm_num
  rw [Setup.spinOccupations, numbers]
  simp [first, second]

theorem pair_energies : (pairSetup 2).removalEnergies = [-0.6, 0.1] ∧ (pairSetup 2).additionEnergies = [-0.6, 0.1] := by
  have occupied (i : Nat) (inside : i < 2) :
      1e-6 < (pairSetup 2).occupationNumber i ∧ 1e-6 < 1 - (pairSetup 2).occupationNumber i := by
    interval_cases i <;> norm_num [Setup.occupationNumber, Setup.filled, pairSetup]
  have all (d : Nat → ℝ) (above : ∀ i < 2, 1e-6 < d i) : (pairSetup 2).keptOrbitals d = [0, 1] :=
    List.filter_eq_self.mpr fun i member => decide_eq_true (above i (List.mem_range.mp member))
  have energies : [0, 1].map (pairSetup 2).orbitalEnergy = [-0.6, 0.1] := by
    simp [Setup.orbitalEnergy, Setup.filled, pairSetup]
  rw [Setup.removalEnergies, Setup.additionEnergies, all _ fun i inside => (occupied i inside).1,
    all _ fun i inside => (occupied i inside).2]
  exact ⟨energies, energies⟩

theorem model_recovered_pair :
    ∃ (store : Store Exact) (occupations : Occupations Exact) (alpha beta : Spectrum Exact),
      (pairSetup 2).store Unit = .ok store ∧
      (naturalOccupations spectralSolver store.source (pairSetup 2).params ()).Returns occupations ∧
      occupations.values = [.value 1.94, .value 0.06] ∧ occupations.errors = [.value 0, .value 0] ∧
      (koopmansSpectra spectralSolver store.source (pairSetup 2).params ()).Returns (.collinear alpha beta) ∧
      ∀ spectrum ∈ [alpha, beta], spectrum.ionization = [.value (-0.6), .value 0.1] ∧
        spectrum.attachment = [.value (-0.6), .value 0.1] ∧ spectrum.ionizationErrors = [.value 0, .value 0] ∧
        spectrum.attachmentErrors = [.value 0, .value 0] := by
  obtain ⟨_, store, drawn, ⟨occupations, occupied, ⟨kept, descending, listed, values⟩, errors⟩, result, returned, _,
    spectra, collinear⟩ := model_recovered (fun _ => ⟨1, rfl⟩) spectralSolver spectral_solver_lower_faithful.faithful
      (pairSetup 2) rfl (by decide) (by decide) (by decide) (by decide) (by decide) ()
  obtain ⟨alpha, beta, rfl⟩ := collinear.mpr rfl
  have ordered : [(-0.6 : ℝ), 0.1].Pairwise (· ≤ ·) := by norm_num
  refine ⟨store, occupations, alpha, beta, drawn, occupied, ?_, errors, returned, fun spectrum member => ?_⟩
  · have largest : [(1.94 : ℝ), 0.06].Pairwise (· ≥ ·) := by norm_num
    rw [pair_occupations] at listed
    rw [values, listed.eq_of_pairwise' descending largest]
    rfl
  · obtain ⟨⟨removed, removedSorted, removedListed, ionization⟩, ⟨added, addedSorted, addedListed, attachment⟩,
      ionizationErrors, attachmentErrors⟩ := spectra spectrum member
    rw [pair_energies.1] at removedListed
    rw [pair_energies.2] at addedListed
    rw [removedListed.eq_of_pairwise' removedSorted ordered] at ionization
    rw [addedListed.eq_of_pairwise' addedSorted ordered] at attachment
    rw [ionization] at ionizationErrors
    rw [attachment] at attachmentErrors
    exact ⟨ionization, attachment, ionizationErrors, attachmentErrors⟩

-- There is no room for a list of so many samples.
theorem model_lost_without_room : ∃ store, (pairSetup (2 ^ 58)).store Unit = .ok store ∧
    (naturalOccupations spectralSolver store.source (pairSetup (2 ^ 58)).params ()).outcome = .error .capacity := by
  have constant : (pairSetup (2 ^ 58)).cleanStore.source.Constant _ _ _ _ _ _ :=
    Setup.clean_store_constant (by decide) (by decide)
  refine ⟨_, Setup.store_clean (fun _ => ⟨1, rfl⟩) rfl (by decide), ?_⟩
  exact constant_occupations_without_room constant (diagonal_hermitian _)
    (fun _ inside => Setup.clean_sector_diagonal .density inside) spectral_solver_lower_faithful.faithful (by decide)
    Exact.two_eq zero_le_two rfl (by norm_num) () (by decide)

end Recovered

end OrbitalSpectra.Synthetic
