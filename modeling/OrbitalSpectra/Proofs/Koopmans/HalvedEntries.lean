import OrbitalSpectra.Proofs.Exact.ScreeningAlgebra
import OrbitalSpectra.Proofs.Koopmans.SectorData

set_option autoImplicit false

namespace OrbitalSpectra

open Matrix

section Entries

variable {n : Nat} {P : Matrix (Fin n) (Fin n) ℂ} {E : Matrix (Fin n) (Fin n) ℝ} {factor : ℝ} {i j : Fin n}

-- What screening takes away.
def IsSmall (factor : ℝ) (E : Matrix (Fin n) (Fin n) ℝ) (P : Matrix (Fin n) (Fin n) ℂ) (i j : Fin n) : Prop :=
  ‖P i j‖ < factor * E i j

noncomputable def screenedThenHermitian (factor : ℝ) (E : Matrix (Fin n) (Fin n) ℝ) (P : Matrix (Fin n) (Fin n) ℂ) :
    Matrix (Fin n) (Fin n) ℂ :=
  hermitised (thresholded factor E P)

theorem screened_then_hermitian_entry (factor : ℝ) (E : Matrix (Fin n) (Fin n) ℝ) (P : Matrix (Fin n) (Fin n) ℂ)
    (i j : Fin n) : screenedThenHermitian factor E P i j =
      (threshold (factor * E i j) (P i j) + star (threshold (factor * E j i) (P j i))) / 2 := by
  rw [screenedThenHermitian, hermitised, Matrix.smul_apply, Matrix.add_apply, conjTranspose_apply, smul_eq_mul, one_div,
    inv_mul_eq_div]
  rfl

theorem both_kept (hermitian : P.IsHermitian) (upper : ¬ IsSmall factor E P i j) (lower : ¬ IsSmall factor E P j i) :
    screenedThenHermitian factor E P i j = P i j := by
  rw [screened_then_hermitian_entry, threshold_kept (not_lt.mp upper), threshold_kept (not_lt.mp lower),
    hermitian.apply, add_self_div_two]

theorem both_dropped (upper : IsSmall factor E P i j) (lower : IsSmall factor E P j i) :
    screenedThenHermitian factor E P i j = 0 := by
  rw [screened_then_hermitian_entry, threshold_dropped upper, threshold_dropped lower, star_zero, add_zero, zero_div]

theorem one_dropped (hermitian : P.IsHermitian) (upper : IsSmall factor E P i j) (lower : ¬ IsSmall factor E P j i) :
    screenedThenHermitian factor E P i j = P i j / 2 := by
  rw [screened_then_hermitian_entry, threshold_dropped upper, threshold_kept (not_lt.mp lower), hermitian.apply,
    zero_add]

theorem other_dropped (upper : ¬ IsSmall factor E P i j) (lower : IsSmall factor E P j i) :
    screenedThenHermitian factor E P i j = P i j / 2 := by
  rw [screened_then_hermitian_entry, threshold_kept (not_lt.mp upper), threshold_dropped lower, star_zero, add_zero]

theorem half_unaltered_iff (z : ℂ) : (z / 2 = z ∨ z / 2 = 0) ↔ z = 0 := by
  constructor
  · rintro (same | zero)
    · linear_combination -2 * same
    · linear_combination 2 * zero
  · rintro rfl
    exact .inr (zero_div 2)

structure HermitianScreened (factor : ℝ) (E : Matrix (Fin n) (Fin n) ℝ) (P G : Matrix (Fin n) (Fin n) ℂ) : Prop where
  hermitian : G.IsHermitian
  kept : ∀ i j, ¬ IsSmall factor E P i j → ¬ IsSmall factor E P j i → G i j = P i j
  dropped : ∀ i j, IsSmall factor E P i j → IsSmall factor E P j i → G i j = 0
  halved : ∀ i j, IsSmall factor E P i j → ¬ IsSmall factor E P j i → G i j = P i j / 2 ∧ G j i = P j i / 2
  unaltered : ∀ i j, (G i j = P i j ∨ G i j = 0) ↔ P i j = 0 ∨ (IsSmall factor E P i j ↔ IsSmall factor E P j i)
  even : E.IsSymm → ∀ i j, G i j = P i j ∨ G i j = 0

theorem unaltered_iff (hermitian : P.IsHermitian) (i j : Fin n) :
    (screenedThenHermitian factor E P i j = P i j ∨ screenedThenHermitian factor E P i j = 0) ↔
      P i j = 0 ∨ (IsSmall factor E P i j ↔ IsSmall factor E P j i) := by
  by_cases upper : IsSmall factor E P i j
  · by_cases lower : IsSmall factor E P j i
    · exact iff_of_true (.inr (both_dropped upper lower)) (.inr (iff_of_true upper lower))
    · rw [one_dropped hermitian upper lower, half_unaltered_iff]
      exact (or_iff_left fun same => lower (same.mp upper)).symm
  · by_cases lower : IsSmall factor E P j i
    · rw [other_dropped upper lower, half_unaltered_iff]
      exact (or_iff_left fun same => upper (same.mpr lower)).symm
    · exact iff_of_true (.inl (both_kept hermitian upper lower)) (.inr (iff_of_false upper lower))

theorem hermitian_screened (hermitian : P.IsHermitian) (factor : ℝ) (E : Matrix (Fin n) (Fin n) ℝ) :
    HermitianScreened factor E P (screenedThenHermitian factor E P) where
  hermitian := hermitised_is_hermitian _
  kept _ _ := both_kept hermitian
  dropped _ _ := both_dropped
  halved _ _ upper lower := ⟨one_dropped hermitian upper lower, other_dropped lower upper⟩
  unaltered := unaltered_iff hermitian
  even symmetric i j := by
    have modulus : ‖P i j‖ = ‖P j i‖ := by rw [← hermitian.apply, norm_star]
    have same : IsSmall factor E P i j ↔ IsSmall factor E P j i := by
      rw [IsSmall, IsSmall, modulus, symmetric.apply]
    exact (unaltered_iff hermitian i j).mpr (.inr same)

end Entries

section Sectors

variable {R : Type} [Scalar R]

theorem screen_sectors_at {factor : R} {ms images : List (Mat (Cplx R))} {es : List (Mat R)} {count s : Nat}
    {m : Mat (Cplx R)} {e : Mat R} (run : screenSectors factor ms es = (images, .ok count)) (mean : ms[s]? = some m)
    (error : es[s]? = some e) :
    ∃ image kept, images[s]? = some image ∧ screenMatrix m e factor = .ok (image, kept) := by
  induction ms generalizing es images count s with
  | nil => cases mean
  | cons first ms ih =>
      cases es with
      | nil => cases error
      | cons deviation es =>
          cases held : screenMatrix first deviation factor with
          | error failure =>
              simp only [screenSectors, held] at run
              cases run
          | ok screened =>
              obtain ⟨image, kept⟩ := screened
              simp only [screenSectors, held, Prod.mk.injEq, except_map_ok_iff] at run
              obtain ⟨rfl, others, rest, _⟩ := run
              cases s with
              | zero =>
                  cases mean
                  cases error
                  exact ⟨image, kept, rfl, held⟩
              | succ s =>
                  rw [List.getElem?_cons_succ] at mean error ⊢
                  exact ih (Prod.ext (by rfl) rest) mean error

-- The density of a prepared sector is the Hermitian part of its screened mean.
theorem sector_density {density screened removal addition : TensorAverage R} {sectors : List (SectorAverages R)}
    {factor : R} {s : Nat} {m : Mat (Cplx R)} {e : Mat R} (mean : density.mean.sectors[s]? = some m)
    (error : density.error.sectors[s]? = some e) (screenedOk : density.screened factor = .ok screened)
    (prepared : sectorAverages screened removal addition = .ok sectors) :
    ∃ image kept sector, screenMatrix m e factor = .ok (image, kept) ∧ sectors[s]? = some sector ∧
      hermitianPart image = .ok sector.density := by
  by_cases counts : density.mean.count = density.error.count
  · simp only [TensorAverage.screened, screenTensor, if_neg (not_not_intro counts), except_map_ok_iff] at screenedOk
    obtain ⟨count, run, rfl⟩ := screenedOk
    obtain ⟨image, kept, held, screenedMatrix⟩ := screen_sectors_at (Prod.ext (by rfl) run) mean error
    have inside := (List.getElem?_eq_some_iff.mp held).1
    obtain ⟨sector, listed, made⟩ := map_m_at prepared (List.getElem?_range inside)
    refine ⟨image, kept, sector, screenedMatrix, listed, ?_⟩
    simp only [held, except_bind_ok_iff, or_fault_ok_iff] at made
    obtain ⟨_, ⟨⟩, gamma, hermitian, _, _, _, _, _, _, _, _, _, _, pair⟩ := made
    cases pair
    exact hermitian
  · simp only [TensorAverage.screened, screenTensor, if_pos counts] at screenedOk
    cases screenedOk

end Sectors

theorem screening_halves {n : Nat} (P : Matrix (Fin n) (Fin n) ℂ) (hermitian : P.IsHermitian)
    (E : Matrix (Fin n) (Fin n) ℝ) (factor : ℝ) :
    ∃ G, HermitianScreened factor E P G ∧
      (∃ screened kept, screenMatrix (Mat.exact P) (Mat.numbers E) (.value factor) = .ok (screened, kept) ∧
        hermitianPart screened = .ok (Mat.exact G)) ∧
      ∀ (density screened removal addition : TensorAverage Exact) (sectors : List (SectorAverages Exact)) (s : Nat),
        density.mean.sectors[s]? = some (Mat.exact P) → density.error.sectors[s]? = some (Mat.numbers E) →
        density.screened (.value factor) = .ok screened → sectorAverages screened removal addition = .ok sectors →
          ∃ sector, sectors[s]? = some sector ∧ sector.density = Mat.exact G := by
  have matrix := screen_matrix_numbers factor E P
  have part : hermitianPart (Mat.exact (thresholded factor E P)) = .ok (Mat.exact (screenedThenHermitian factor E P)) :=
    exact_hermitian_part _
  refine ⟨screenedThenHermitian factor E P, hermitian_screened hermitian factor E, ⟨_, _, matrix, part⟩, ?_⟩
  intro density screened removal addition sectors s mean error screenedOk prepared
  obtain ⟨image, kept, sector, image_of, listed, made⟩ := sector_density mean error screenedOk prepared
  cases Except.ok.inj (image_of.symm.trans matrix)
  exact ⟨sector, listed, Except.ok.inj (made.symm.trans part)⟩

noncomputable def lopsidedDensity : Matrix (Fin 2) (Fin 2) ℂ := !![1, 1 / 2; 1 / 2, 1]

def lopsidedErrors : Matrix (Fin 2) (Fin 2) ℝ := !![0, 1; 0, 0]

noncomputable def lopsidedAverage (mean : Matrix (Fin 2) (Fin 2) ℂ) : TensorAverage Exact where
  mean := ⟨[Mat.exact mean], by simp [commonDim, Mat.shape]⟩
  error := ⟨[Mat.numbers lopsidedErrors], by simp [commonDim, numbers_shape]⟩

theorem lopsided_screened : (lopsidedAverage lopsidedDensity).screened (.value 1) =
    .ok (lopsidedAverage (thresholded 1 lopsidedErrors lopsidedDensity)) := by
  have run : screenSectors (.value 1) [Mat.exact lopsidedDensity] [Mat.numbers lopsidedErrors] =
      ([Mat.exact (thresholded 1 lopsidedErrors lopsidedDensity)],
        .ok ((nonzeroPlaces (thresholded 1 lopsidedErrors lopsidedDensity)).card + 0)) := by
    rw [screenSectors, screen_matrix_numbers]
    rfl
  have counts : ¬ (lopsidedAverage lopsidedDensity).mean.count ≠ (lopsidedAverage lopsidedDensity).error.count := by
    simp [lopsidedAverage, SpinTensor.count]
  simp only [TensorAverage.screened, screenTensor, if_neg counts, except_map_ok_iff]
  exact ⟨_, congrArg Prod.snd run, TensorAverage.mk.injEq .. ▸ ⟨SpinTensor.ext_sectors (congrArg Prod.fst run), rfl⟩⟩

noncomputable def lopsidedSector : SectorAverages Exact where
  density := Mat.exact (screenedThenHermitian 1 lopsidedErrors lopsidedDensity)
  densityError := Mat.numbers lopsidedErrors
  removal := Mat.exact (0 : Matrix (Fin 2) (Fin 2) ℂ)
  removalError := Mat.numbers lopsidedErrors
  addition := Mat.exact (0 : Matrix (Fin 2) (Fin 2) ℂ)
  additionError := Mat.numbers lopsidedErrors

theorem lopsided_prepared : sectorAverages (lopsidedAverage (thresholded 1 lopsidedErrors lopsidedDensity))
    (lopsidedAverage 0) (lopsidedAverage 0) = .ok [lopsidedSector] := by
  refine map_m_ok _ (fun _ => lopsidedSector) [0] fun s member => ?_
  obtain rfl := List.mem_singleton.mp member
  simp only [lopsidedAverage, List.getElem?_cons_zero, or_fault_some, except_bind_ok_iff]
  exact ⟨_, rfl, _, exact_hermitian_part _, _, rfl, _, rfl, _, rfl, _, rfl, _, rfl, rfl⟩

-- Only the entry above the diagonal is small against its error. Half of both is left.
theorem screening_halves_lopsided : ∃ (screened : TensorAverage Exact) (sector : SectorAverages Exact),
    (lopsidedAverage lopsidedDensity).screened (.value 1) = .ok screened ∧
    sectorAverages screened (lopsidedAverage 0) (lopsidedAverage 0) = .ok [sector] ∧
    sector.density.entry 0 1 = Cplx.exact (1 / 4) ∧ lopsidedDensity 0 1 = 1 / 2 := by
  have hermitian : lopsidedDensity.IsHermitian := by
    ext i j
    fin_cases i <;> fin_cases j <;> simp [lopsidedDensity]
  have upper : IsSmall 1 lopsidedErrors lopsidedDensity 0 1 := by
    norm_num [IsSmall, lopsidedErrors, lopsidedDensity]
  have lower : ¬ IsSmall 1 lopsidedErrors lopsidedDensity 1 0 := by
    norm_num [IsSmall, lopsidedErrors, lopsidedDensity]
  obtain ⟨G, entries, _, prepared⟩ := screening_halves lopsidedDensity hermitian lopsidedErrors 1
  obtain ⟨_, ⟨⟩, density⟩ := prepared _ _ _ _ _ 0 rfl rfl lopsided_screened lopsided_prepared
  refine ⟨_, lopsidedSector, lopsided_screened, lopsided_prepared, ?_, rfl⟩
  rw [density]
  refine (Mat.exact_entry G 0 1).trans (congrArg Cplx.exact ?_)
  rw [(entries.halved 0 1 upper lower).1]
  norm_num [lopsidedDensity]

end OrbitalSpectra
