import OrbitalSpectra.Proofs.Exact.Regularisation
import OrbitalSpectra.Proofs.Koopmans.GeneralisedSpectrum
import OrbitalSpectra.Proofs.Shapes

set_option autoImplicit false

namespace OrbitalSpectra

open Matrix

variable {n : Nat} {p U : Matrix (Fin n) (Fin n) ℂ} {d : Fin n → ℝ}

section Hole

theorem conjugated_unitary (unitary : U ∈ unitaryGroup (Fin n) ℂ) : Uᵀᴴ ∈ unitaryGroup (Fin n) ℂ := by
  rw [mem_unitaryGroup_iff', star_eq_conjTranspose, conjTranspose_conjTranspose]
  have product : (Uᴴ * U)ᵀ = 1 := by
    rw [← star_eq_conjTranspose, mem_unitaryGroup_iff'.mp unitary, transpose_one]
  rwa [transpose_mul] at product

-- The transpose has the conjugate vectors.
theorem Diagonalises.hole (form : Diagonalises p d U) : Diagonalises (1 - pᵀ) (fun k => 1 - d k) Uᵀᴴ where
  unitary := conjugated_unitary form.unitary
  product := by
    have values : (diagonal fun k => ((1 - d k : ℝ) : ℂ)) = 1 - diagonal fun k => (d k : ℂ) := by
      rw [← diagonal_one, diagonal_sub]
      simp only [Complex.ofReal_sub, Complex.ofReal_one]
    have turned : pᵀ = Uᵀᴴ * (diagonal fun k => (d k : ℂ)) * Uᵀ := by
      conv_lhs => rw [form.product]
      rw [transpose_mul, transpose_mul, diagonal_transpose, Matrix.mul_assoc]
      rfl
    have inverse : Uᵀᴴ * Uᵀ = 1 := by
      have product := mem_unitaryGroup_iff.mp (conjugated_unitary form.unitary)
      rwa [star_eq_conjTranspose, conjTranspose_conjTranspose] at product
    rw [values, conjTranspose_conjTranspose, Matrix.mul_sub, Matrix.sub_mul, Matrix.mul_one, inverse, ← turned]

theorem hole_roots (form : Diagonalises p d U) :
    (1 - pᵀ).charpoly.roots = p.charpoly.roots.map fun z => 1 - z := by
  rw [form.charpoly_roots, form.hole.charpoly_roots, Multiset.map_map]
  simp only [Function.comp_def, Complex.ofReal_sub, Complex.ofReal_one]

end Hole

section Counts

noncomputable def orbitalsAbove (d : Fin n → ℝ) (cutoff : ℝ) : Finset (Fin n) := Finset.univ.filter fun k => cutoff < d k

theorem orbitals_above_mem {cutoff : ℝ} {k : Fin n} : k ∈ orbitalsAbove d cutoff ↔ cutoff < d k := by
  rw [orbitalsAbove, Finset.mem_filter, and_iff_right (Finset.mem_univ k)]

theorem orbitals_above_antitone (d : Fin n → ℝ) : Antitone fun cutoff => (orbitalsAbove d cutoff).card := by
  intro low high le
  apply Finset.card_le_card
  intro k member
  exact orbitals_above_mem.mpr (le.trans_lt (orbitals_above_mem.mp member))

-- Below one half no orbital is missing from both densities.
theorem orbitals_above_cover (d : Fin n → ℝ) {cutoff : ℝ} (half : cutoff < 1 / 2) :
    n ≤ (orbitalsAbove d cutoff).card + (orbitalsAbove (fun k => 1 - d k) cutoff).card := by
  have cover : Finset.univ ⊆ orbitalsAbove d cutoff ∪ orbitalsAbove (fun k => 1 - d k) cutoff := by
    intro k _
    rw [Finset.mem_union, orbitals_above_mem, orbitals_above_mem]
    by_contra missing
    obtain ⟨low, lowHole⟩ := not_or.mp missing
    linarith
  calc n = (Finset.univ : Finset (Fin n)).card := (Finset.card_fin n).symm
    _ ≤ (orbitalsAbove d cutoff ∪ orbitalsAbove (fun k => 1 - d k) cutoff).card := Finset.card_le_card cover
    _ ≤ (orbitalsAbove d cutoff).card + (orbitalsAbove (fun k => 1 - d k) cutoff).card := Finset.card_union_le _ _

theorem orbitals_above_kept (form : Diagonalises p d U) (cutoff : ℝ) :
    (keptSpectrum p cutoff).length = (orbitalsAbove d cutoff).card := by
  rw [kept_count form, List.countP_eq_length_filter]
  rfl

end Counts

section Energies

variable {solver : EigenSolver Exact}

-- A Fock matrix adds nothing to the count: the transform has a column for each kept eigenvalue.
theorem projected_energies_above (solves : Solves solver p p) (form : Diagonalises p d U) (F : Matrix (Fin n) (Fin n) ℂ)
    (cutoff : ℝ) : ∃ energies, projectedEnergies solver (Mat.exact p) (Mat.exact F) (.value cutoff) = .ok energies ∧
      energies.length = (orbitalsAbove d cutoff).card := by
  obtain ⟨X, regularised, shape⟩ := leaves_rebuilt solves form cutoff
  have square : (Mat.exact F).shape = (n, n) := rfl
  obtain ⟨energies, projected, count⟩ := projected_eigenvalues_count solver shape square
  refine ⟨energies, ?_, count.trans (orbitals_above_kept form cutoff)⟩
  simp only [projectedEnergies, require_same_shape_exact, except_bind_ok_iff, except_lift_ok_iff, true_and, exists_const]
  exact ⟨_, regularised, projected⟩

-- Energies at every cutoff, one for each eigenvalue above it.
structure CountedEnergies (solver : EigenSolver Exact) (p F G : Matrix (Fin n) (Fin n) ℂ) (d : Fin n → ℝ)
    (ionization attachment : ℝ → List Exact) : Prop where
  ionizationOk : ∀ cutoff : ℝ,
    ionizationEnergies solver (Mat.exact p) (Mat.exact F) (.value cutoff) = .ok (ionization cutoff)
  attachmentOk : ∀ cutoff : ℝ,
    attachmentEnergies solver (Mat.exact p) (Mat.exact G) (.value cutoff) = .ok (attachment cutoff)
  ionizationCount : ∀ cutoff, (ionization cutoff).length = (orbitalsAbove d cutoff).card
  attachmentCount : ∀ cutoff, (attachment cutoff).length = (orbitalsAbove (fun k => 1 - d k) cutoff).card

theorem counted_energies_exist (faithful : Faithful solver) (form : Diagonalises p d U)
    (F G : Matrix (Fin n) (Fin n) ℂ) : ∃ ionization attachment, CountedEnergies solver p F G d ionization attachment := by
  choose ionization ionizationOk ionizationCount using
    projected_energies_above (faithful n p form.hermitian) form F
  choose attachment attachmentOk attachmentCount using
    projected_energies_above (faithful n (1 - pᵀ) form.hole.hermitian) form.hole G
  exact ⟨ionization, attachment, ionizationOk,
    fun cutoff => (attachment_energies_exact solver p G (.value cutoff)).trans (attachmentOk cutoff),
    ionizationCount, attachmentCount⟩

theorem energies_cover_orbitals (solver : EigenSolver Exact) (faithful : Faithful solver) (n : Nat)
    (p F G : Matrix (Fin n) (Fin n) ℂ) (hermitian : p.IsHermitian) :
    holeDensity (Mat.exact p) = .ok (Mat.exact (1 - pᵀ)) ∧
    (1 - pᵀ).charpoly.roots = p.charpoly.roots.map (fun z => 1 - z) ∧
    ∃ ionization attachment : ℝ → List Exact,
      CountedEnergies solver p F G hermitian.eigenvalues ionization attachment ∧
      (∀ cutoff : ℝ, cutoff < 1 / 2 → n ≤ (ionization cutoff).length + (attachment cutoff).length) ∧
      Antitone (fun cutoff => (ionization cutoff).length) ∧ Antitone (fun cutoff => (attachment cutoff).length) := by
  have form := hermitian_form hermitian
  obtain ⟨ionization, attachment, counted⟩ := counted_energies_exist faithful form F G
  refine ⟨hole_density_exact p, hole_roots form, ionization, attachment, counted, ?_, ?_, ?_⟩
  · intro cutoff half
    rw [counted.ionizationCount, counted.attachmentCount]
    exact orbitals_above_cover _ half
  · simp only [counted.ionizationCount]
    exact orbitals_above_antitone _
  · simp only [counted.attachmentCount]
    exact orbitals_above_antitone _

-- An occupied orbital and an empty one, with Fock matrices that are not Hermitian.
theorem energies_cover_orbitals_pair : ∃ ionization attachment : List Exact,
    ionizationEnergies spectralSolver (Mat.exact (realDiagonal ![1, 0])) (Mat.exact !![0, 1; 0, 0])
      (.value (1 / 4)) = .ok ionization ∧
    attachmentEnergies spectralSolver (Mat.exact (realDiagonal ![1, 0])) (Mat.exact !![0, 0; Complex.I, 0])
      (.value (1 / 4)) = .ok attachment ∧ ionization.length = 1 ∧ attachment.length = 1 := by
  have form := diagonal_form ![(1 : ℝ), 0]
  obtain ⟨_, _, ionization, attachment, counted, _⟩ := energies_cover_orbitals spectralSolver
    spectral_solver_lower_faithful.faithful 2 (realDiagonal ![1, 0]) !![0, 1; 0, 0] !![0, 0; Complex.I, 0] form.hermitian
  refine ⟨_, _, counted.ionizationOk _, counted.attachmentOk _, ?_, ?_⟩
  · rw [counted.ionizationCount, ← orbitals_above_kept (hermitian_form form.hermitian), kept_count form]
    norm_num [List.finRange]
  · rw [counted.attachmentCount, ← orbitals_above_kept (hermitian_form form.hermitian).hole, kept_count form.hole]
    norm_num [List.finRange]

end Energies

end OrbitalSpectra
