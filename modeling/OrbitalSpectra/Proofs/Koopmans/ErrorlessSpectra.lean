import OrbitalSpectra.Proofs.Exact.DiagonalPair
import OrbitalSpectra.Proofs.Koopmans.ConstantBlocks

set_option autoImplicit false

namespace OrbitalSpectra

open Matrix Sampling Run

variable {n : Nat} {solver : EigenSolver Exact} {cutoff : ℝ}

theorem ranked_energies_of_spectrum (faithful : Faithful solver) {γ F : Matrix (Fin n) (Fin n) ℂ}
    (density : γ.IsHermitian) (fock : F.IsHermitian) (nonneg : 0 ≤ cutoff) {es : List ℝ}
    (spectrum : GeneralisedSpectrum γ F cutoff es) :
    projectedEnergiesWithRank solver (Mat.exact γ) (Mat.exact F) es.length (.value cutoff) =
      .ok (some (es.map .value)) := by
  obtain ⟨d, U, sorted, ascending, form⟩ := solves_sorted (faithful n γ density)
  obtain ⟨m, places, whitening⟩ := whitening_exists sorted form nonneg
  have projected := isHermitian_conjTranspose_mul_mul (whitener d U places) fock
  obtain ⟨f, V, answer, projectedForm⟩ := faithful _ _ projected
  obtain rfl := generalised_spectrum_unique spectrum (generalised_spectrum_of_whitening form fock whitening.whitens)
  rw [projectedForm.spectrum_length]
  exact projected_energies_with_rank_exact whitening ⟨f, V, answer, projectedForm⟩

-- Real and Hermitian, so that a sample without errors does not change it.
structure RealHermitian (A : Matrix (Fin n) (Fin n) ℂ) : Prop where
  hermitian : A.IsHermitian
  real : RealEntries A

noncomputable def zerosOf (xs : List ℝ) : List Exact := List.replicate xs.length (.value 0)

noncomputable def errorlessSpectrum (ionization attachment : List ℝ) : Spectrum Exact :=
  ⟨ionization.map .value, attachment.map .value, some ⟨zerosOf ionization, zerosOf attachment⟩⟩

theorem equal_samples_deviation {samples : Nat} (enough : 2 ≤ samples) (xs : List ℝ) :
    sampleDeviation (List.replicate samples (xs.map Exact.value)) = .ok (zerosOf xs) := by
  have uniform : ∀ s ∈ List.replicate samples xs, s.length = xs.length := by
    intro s member
    rw [List.eq_of_mem_replicate member]
  have spread := sample_deviation_exact uniform (by rwa [List.length_replicate])
  rwa [List.map_replicate, spreads_replicate, List.map_replicate] at spread

def errorlessSample (ionization attachment : List ℝ) : SectorSample Exact :=
  ⟨some (ionization.map .value), some (attachment.map .value)⟩

theorem equal_samples_returns {samples : Nat} (enough : 2 ≤ samples) (ionization attachment : List ℝ) :
    (errorsOfSamples (List.replicate samples (errorlessSample ionization attachment)) samples).Returns
      ⟨zerosOf ionization, zerosOf attachment⟩ := by
  have removed : (List.replicate samples (errorlessSample ionization attachment)).filterMap SectorSample.ionization =
      List.replicate samples (ionization.map .value) := List.filterMap_replicate_of_some rfl
  have added : (List.replicate samples (errorlessSample ionization attachment)).filterMap SectorSample.attachment =
      List.replicate samples (attachment.map .value) := List.filterMap_replicate_of_some rfl
  have accepted : ¬ acceptedSamples (List.replicate samples (errorlessSample ionization attachment)) < 2 := by
    rw [acceptedSamples, removed, added, List.length_replicate, List.length_replicate]
    omega
  have outcome := errors_of_samples_outcome (List.replicate samples (errorlessSample ionization attachment)) samples
  rwa [if_neg accepted, removed, added, equal_samples_deviation enough, equal_samples_deviation enough] at outcome

structure SectorEnergies (p F G : Matrix (Fin n) (Fin n) ℂ) (cutoff : ℝ) (ionization attachment : List ℝ) : Prop where
  density : RealHermitian p
  removal : RealHermitian F
  addition : RealHermitian G
  ionization : GeneralisedSpectrum p F cutoff ionization
  attachment : GeneralisedSpectrum (1 - pᵀ) G cutoff attachment

-- Energies at the places of a diagonal density that are above the cutoff.
noncomputable def keptEnergies (d e : Fin n → ℝ) (cutoff : ℝ) : List ℝ :=
  ascendingList (((List.finRange n).filter fun k => cutoff < d k).map e)

theorem diagonal_hermitian (d : Fin n → ℝ) : RealHermitian (realDiagonal d) :=
  ⟨(diagonal_form d).hermitian, diagonal_real d⟩

theorem diagonal_energies (d e : Fin n → ℝ) (nonneg : 0 ≤ cutoff) :
    SectorEnergies (realDiagonal d) (realDiagonal fun k => d k * e k) (realDiagonal fun k => (1 - d k) * e k) cutoff
      (keptEnergies d e cutoff) (keptEnergies (fun k => 1 - d k) e cutoff) where
  density := diagonal_hermitian d
  removal := diagonal_hermitian _
  addition := diagonal_hermitian _
  ionization := diagonal_pair_spectrum d e nonneg
  attachment := by
    rw [diagonal_hole]
    exact diagonal_pair_spectrum _ e nonneg

theorem diagonal_sector {dim s : Nat} {mean : Nat → Nat → Nat → ℂ} {d : Fin dim → ℝ}
    (entries : ∀ i j : Fin dim, mean s i j = if i = j then (d i : ℂ) else 0) :
    sectorMatrix dim mean s = realDiagonal d := by
  ext i j
  rw [sectorMatrix, of_apply, entries, realDiagonal, diagonal_apply]

section Runs

variable {σ : Type} [NormalStream σ Exact] {samples : Nat}

theorem errorless_sector_spectrum (numbers : DrawsNumbers σ) (faithful : Faithful solver) (nonneg : 0 ≤ cutoff)
    {p F G : Matrix (Fin n) (Fin n) ℂ} {ionization attachment : List ℝ}
    (energies : SectorEnergies p F G cutoff ionization attachment) (enough : 2 ≤ samples)
    (room : fitsMemory samples vectorSize = true) (state : σ) :
    ∃ after, (sectorSpectrum solver (exactSector p F G) samples (.value cutoff)).Yields state
      (errorlessSpectrum ionization attachment) after := by
  obtain ⟨⟨density, densityReal⟩, ⟨removalHermitian, removalReal⟩, ⟨additionHermitian, additionReal⟩, removals,
    additions⟩ := energies
  have hole := hole_density_hermitian density
  have ionizationOk := projected_energies_of_spectrum faithful density removalHermitian nonneg removals
  have attachmentOk := projected_energies_of_spectrum faithful hole additionHermitian nonneg additions
  have ionizationPinned := ranked_energies_of_spectrum faithful density removalHermitian nonneg removals
  have attachmentPinned := ranked_energies_of_spectrum faithful hole additionHermitian nonneg additions
  rw [← hermitised_of_hermitian removalHermitian] at ionizationPinned
  rw [← hermitised_of_hermitian additionHermitian] at attachmentPinned
  obtain ⟨after, collected⟩ := collect_yields
    (sample_sector_centred density densityReal removalReal additionReal numbers ionizationPinned attachmentPinned)
    room state
  refine ⟨after, ?_⟩
  simp only [sectorSpectrum, errorsOrWarning, bind_yields, except_yields, run_yields, pure_yields]
  refine ⟨_, _, ⟨ionizationOk, rfl⟩, _, _, ⟨?_, rfl⟩, _, _,
    ⟨_, _, ?_, errors_or_none_found (equal_samples_returns enough _ _), rfl⟩, rfl, rfl⟩
  · exact (attachment_energies_exact solver p G (.value cutoff)).trans attachmentOk
  · rw [List.length_map, List.length_map]
    exact collected

theorem errorless_sector_spectra {sectors : List (SectorAverages Exact)} {spectrum : Spectrum Exact}
    (each : ∀ sector ∈ sectors, ∀ state : σ, ∃ after,
      (sectorSpectrum solver sector samples (.value cutoff)).Yields state spectrum after) (state : σ) :
    ∃ after, (sectorSpectra solver samples (.value cutoff) sectors).Yields state
      (List.replicate sectors.length spectrum) after := by
  induction sectors generalizing state with
  | nil => exact ⟨state, (pure_yields _ _ _ _).mpr ⟨rfl, rfl⟩⟩
  | cons sector rest ih =>
      obtain ⟨head, tail⟩ := List.forall_mem_cons.mp each
      obtain ⟨next, first⟩ := head state
      obtain ⟨after, others⟩ := ih tail next
      simp only [sectorSpectra, bind_yields, pure_yields]
      exact ⟨after, _, next, first, _, after, others, rfl, rfl⟩

theorem arranged_exists {spectra : List (Spectrum Exact)} {code : Int}
    (count : spectra.length = if code = 2 then 2 else 1) : ∃ result, arrangedSpectra spectra = .ok result := by
  rcases spectra with _ | ⟨alpha, _ | ⟨beta, rest⟩⟩
  · split at count <;> cases count
  · exact ⟨_, rfl⟩
  · exact ⟨_, rfl⟩

variable {source : Source Exact} {p : Params Exact} {m : Metadata} {sectors dim count : Nat}
  {block : TensorObservable → Array ℂ} {factor : ℝ} {ionization attachment : List ℝ}

theorem validate_exact {p : Params Exact} (strided : 1 ≤ p.stride) (enough : 2 ≤ p.samples)
    (screens : p.screenFactor = .value factor) (positive : 0 ≤ factor) (held : p.cutoff = .value cutoff) :
    p.validate = .ok () := by
  have factors : Scalar.isFinite p.screenFactor = true ∧ 0 ≤ p.screenFactor := by
    rw [screens]
    exact ⟨Exact.value_finite factor, (Exact.value_le 0 factor).mpr positive⟩
  have finite : Scalar.isFinite p.cutoff = true := by
    rw [held]
    exact Exact.value_finite cutoff
  rw [Params.validate, if_neg (Nat.ne_of_gt strided), if_neg (Nat.not_lt.mpr enough), if_neg (not_not.mpr factors),
    if_neg (not_not.mpr finite)]
  rfl

theorem constant_spectra [Build] (numbers : DrawsNumbers σ) (faithful : Faithful solver)
    (constant : source.Constant p.selection m sectors dim count block) (enough : 2 ≤ p.samples)
    (screens : p.screenFactor = .value factor) (positive : 0 ≤ factor) (held : p.cutoff = .value cutoff)
    (nonneg : 0 ≤ cutoff) (room : fitsMemory p.samples vectorSize = true)
    (energies : ∀ s < sectors, SectorEnergies (constantMatrix m dim block .density s)
      (constantMatrix m dim block (.fock .minus) s) (constantMatrix m dim block (.fock .plus) s) cutoff ionization
      attachment) (entropy : σ) :
    ∃ result, (koopmansSpectra solver source p entropy).Returns result ∧
      result.toList = List.replicate sectors (errorlessSpectrum ionization attachment) ∧
      ((∃ alpha beta, result = .collinear alpha beta) ↔ m.walkerCode = 2) := by
  have prepared := constant_prepared constant screens fun s inside => (energies s inside).density.hermitian
  have each : ∀ sector ∈ (List.range sectors).map (constantSector m dim block), ∀ state : σ, ∃ after,
      (sectorSpectrum solver sector p.samples (.value cutoff)).Yields state (errorlessSpectrum ionization attachment)
        after := by
    intro sector member state
    obtain ⟨s, inside, rfl⟩ := List.mem_map.mp member
    exact errorless_sector_spectrum numbers faithful nonneg (energies s (List.mem_range.mp inside)) enough room state
  obtain ⟨after, spectra⟩ := errorless_sector_spectra each (p.stream entropy)
  rw [List.length_map, List.length_range] at spectra
  have counted : (List.replicate sectors (errorlessSpectrum ionization attachment)).length =
      if m.walkerCode = 2 then 2 else 1 := by
    rw [List.length_replicate]
    exact flat_layout_count constant.layout
  obtain ⟨result, arranged⟩ := arranged_exists counted
  obtain ⟨listed, collinear⟩ := arranged_to_list counted arranged
  refine ⟨result, ?_, listed, collinear⟩
  rw [koopmans_parts]
  simp only [bind_returns, lift_returns, reporting_ok_iff, held]
  exact ⟨(), validate_exact constant.stride enough screens positive held, _, prepared, _, spectra, arranged⟩

end Runs

end OrbitalSpectra
