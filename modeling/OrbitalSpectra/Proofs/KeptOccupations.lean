import OrbitalSpectra.NaturalOrbitals
import OrbitalSpectra.Proofs.Exact.Bootstrap
import OrbitalSpectra.Proofs.Exact.KeptSpectrum
import OrbitalSpectra.Proofs.Koopmans.CentralMismatch
import OrbitalSpectra.Proofs.OccupationsVerdict

set_option autoImplicit false

namespace OrbitalSpectra

open Matrix Sampling

section Symmetric

variable {n : Nat}

structure Mat.Symmetric (e : Mat Exact) (n : Nat) : Prop where
  square : e.shape = (n, n)
  turned : ∀ i j : Fin n, e.entry i j = e.entry j i

theorem symmetric_part_symmetric {m e : Mat Exact} (ok : symmetricPart m = .ok e) (shape : m.shape = (n, n)) :
    e.Symmetric n := by
  rw [Mat.of_fn_entry m shape, symmetric_part_of_fn] at ok
  cases ok
  refine ⟨rfl, fun i j => ?_⟩
  rw [Mat.entry_ofFn _ i.isLt j.isLt, Mat.entry_ofFn _ j.isLt i.isLt, exact_add_comm]

theorem map_exact (m : Mat ℂ) (square : m.shape = (n, n)) :
    m.map Cplx.exact = Mat.exact (of fun i j : Fin n => m.entry i j) := by
  conv_lhs => rw [Mat.of_fn_entry m square, Mat.map_of_fn]
  exact Mat.of_fn_exact _ _ fun _ _ => rfl

theorem Mat.exact_add_add (A B : Matrix (Fin n) (Fin n) ℂ) : (exact A).add? (exact B) = some (exact (A + B)) :=
  exact_zip Cplx.exact_add A B

theorem sum_sectors_exact (A : Matrix (Fin n) (Fin n) ℂ) (rest : List (Matrix (Fin n) (Fin n) ℂ)) :
    sumSectors ((A :: rest).map Mat.exact) = .ok (Mat.exact (A :: rest).sum) := by
  change (rest.map Mat.exact).foldlM (fun sum m => orFault (sum.add? m)) (Mat.exact A) = _
  induction rest generalizing A with
  | nil => rw [List.sum_singleton]; rfl
  | cons B rest ih =>
      rw [List.map_cons, List.foldlM_cons, Mat.exact_add_add]
      refine (ih (A + B)).trans ?_
      simp only [List.sum_cons, add_assoc]

variable {p : SpinTensor ℂ} {error : SpinTensor Exact}

theorem map_exact_dim (p : SpinTensor ℂ) : (p.map Cplx.exact).dim = p.dim := by
  simp [SpinTensor.dim, SpinTensor.map, List.map_map, Function.comp_def]

theorem map_exact_sectors (p : SpinTensor ℂ) :
    (p.map Cplx.exact).sectors = (p.sectors.map fun a => of fun i j : Fin p.dim => a.entry i j).map Mat.exact := by
  rw [SpinTensor.map, List.map_map]
  exact List.map_congr_left fun a inside => map_exact a (p.uniform a inside)

theorem spin_summed_exact {sum : Mat (Cplx Exact)} {e : Mat Exact}
    (ok : spinSummed (p.map Cplx.exact) error = .ok (sum, e)) :
    ∃ A : Matrix (Fin p.dim) (Fin p.dim) ℂ, A.IsHermitian ∧ sum = Mat.exact A ∧ e.Symmetric p.dim := by
  by_cases odd : (p.map Cplx.exact).count = 0 ∨ (p.map Cplx.exact).shape ≠ error.shape
  · simp only [spinSummed, if_pos odd] at ok
    cases ok
  · obtain ⟨some, same⟩ := not_or.mp odd
    have parts := not_ne_iff.mp same
    simp only [SpinTensor.shape, Prod.mk.injEq, map_exact_dim] at parts
    simp only [spinSummed, if_neg odd, except_bind_ok_iff] at ok
    obtain ⟨total, summed, summedError, errors, hermitian, made, symmetric, turned, pair⟩ := ok
    obtain ⟨rfl, rfl⟩ := Prod.mk.inj (Except.ok.inj pair)
    obtain ⟨A, rfl⟩ : ∃ A : Matrix (Fin p.dim) (Fin p.dim) ℂ, total = Mat.exact A := by
      rw [map_exact_sectors] at summed
      cases held : p.sectors with
      | nil =>
          rw [held] at summed
          cases summed
      | cons first others =>
          rw [held, List.map_cons, sum_sectors_exact] at summed
          exact ⟨_, (Except.ok.inj summed).symm⟩
    rw [exact_hermitian_part] at made
    obtain ⟨other, again, shape⟩ := spin_summed_error_square (parts.1 ▸ some) error.uniform
    cases Except.ok.inj (errors.symm.trans again)
    change summedError.shape = (error.dim, error.dim) at shape
    rw [← parts.2.1] at shape
    exact ⟨hermitised A, hermitised_is_hermitian A, (Except.ok.inj made).symm, symmetric_part_symmetric turned shape⟩

end Symmetric

section Screened

variable {n : Nat}

open Classical in
noncomputable def screened (factor : Exact) (A : Matrix (Fin n) (Fin n) ℂ) (e : Mat Exact) :
    Matrix (Fin n) (Fin n) ℂ :=
  of fun i j => if (Cplx.exact (A i j)).abs < factor * e.entry i j then 0 else A i j

theorem screen_entry_exact (factor : Exact) (A : Matrix (Fin n) (Fin n) ℂ) (e : Mat Exact) (i j : Fin n) :
    screenEntry factor (Cplx.exact (A i j)) (e.entry i j) = Cplx.exact (screened factor A e i j) := by
  by_cases small : (Cplx.exact (A i j)).abs < factor * e.entry i j
  · simp [screenEntry, screened, small, Cplx.exact_zero]
  · simp [screenEntry, screened, small]

theorem screen_matrix_exact (factor : Exact) (A : Matrix (Fin n) (Fin n) ℂ) {e : Mat Exact} (square : e.shape = (n, n)) :
    ∃ kept, screenMatrix (Mat.exact A) e factor = .ok (Mat.exact (screened factor A e), kept) := by
  have zipped : Mat.zipWith? (screenEntry factor) (Mat.exact A) e = some (Mat.exact (screened factor A e)) := by
    conv_lhs => rw [Mat.of_fn_entry e square, Mat.exact, Mat.zip_with_of_fn]
    rw [Option.some.injEq]
    apply Mat.of_fn_exact
    intro i j
    rw [dif_pos ⟨i.isLt, j.isLt⟩, screen_entry_exact]
  exact ⟨_, by rw [screenMatrix, zipped]⟩

theorem conj_abs (z : ℂ) : (Cplx.exact (star z)).abs = (Cplx.exact z).abs := by
  change Exact.value _ = Exact.value _
  simp

-- Screening is even across the diagonal, as the moduli and the errors are.
theorem screened_hermitian (factor : Exact) {A : Matrix (Fin n) (Fin n) ℂ} (hermitian : A.IsHermitian) {e : Mat Exact}
    (symmetric : e.Symmetric n) : (screened factor A e).IsHermitian := by
  ext i j
  have mirrored : star (A j i) = A i j := hermitian.apply i j
  rw [conjTranspose_apply, screened, of_apply, of_apply, ← mirrored, conj_abs, symmetric.turned i j]
  split
  · exact star_zero _
  · rfl

end Screened

-- The occupations that a screened density leaves: its kept eigenvalues, largest first, then zeros.
structure KeptOccupations {n : Nat} (T : Matrix (Fin n) (Fin n) ℂ) (cutoff : ℝ) (values : List ℝ) : Prop where
  listed : values =
    (keptSpectrum T cutoff).reverse ++ List.replicate (n - (keptSpectrum T cutoff).length) 0
  length : values.length = n
  descending : values.Pairwise (· ≥ ·)
  nonneg : ∀ x ∈ values, 0 ≤ x
  gap : ∀ x ∈ values, x = 0 ∨ cutoff < x
  sum : (values.sum : ℂ) = T.trace - (droppedSpectrum T cutoff).sum

section Occupations

variable {n : Nat} {T : Matrix (Fin n) (Fin n) ℂ} {cutoff : ℝ}

theorem kept_above {x : ℝ} (member : x ∈ keptSpectrum T cutoff) : cutoff < x :=
  of_decide_eq_true (List.mem_filter.mp member).2

noncomputable def occupationList (T : Matrix (Fin n) (Fin n) ℂ) (cutoff : ℝ) : List ℝ :=
  (keptSpectrum T cutoff).reverse ++ List.replicate (n - (keptSpectrum T cutoff).length) 0

theorem Rebuilds.occupation_list {B : Matrix (Fin n) (Fin n) ℂ} (rebuilds : Rebuilds T cutoff B) :
    (ascendingSpectrum B).reverse = occupationList T cutoff := by
  rw [rebuilds.spectrum, List.reverse_append, List.reverse_replicate]
  rfl

theorem kept_occupations (hermitian : T.IsHermitian) (nonneg : 0 ≤ cutoff) :
    KeptOccupations T cutoff (occupationList T cutoff) := by
  obtain ⟨d, U, form, _⟩ := diagonalises_exists hermitian
  have gap : ∀ x ∈ occupationList T cutoff, x = 0 ∨ cutoff < x := by
    intro x member
    rcases List.mem_append.mp member with kept | zero
    · exact Or.inr (kept_above (List.mem_reverse.mp kept))
    · exact Or.inl (List.eq_of_mem_replicate zero)
  have sorted : (keptSpectrum T cutoff).Pairwise (· ≤ ·) := (ascending_spectrum_sorted T).filter _
  refine ⟨rfl, ?_, ?_, fun x member => ?_, gap, ?_⟩
  · have short : (keptSpectrum T cutoff).length ≤ n :=
      (List.length_filter_le _ _).trans_eq form.spectrum_length
    simp only [occupationList, List.length_append, List.length_reverse, List.length_replicate]
    omega
  · rw [occupationList, List.pairwise_append]
    refine ⟨List.pairwise_reverse.mpr sorted, List.pairwise_replicate.mpr (Or.inr le_rfl), fun x kept y zero => ?_⟩
    rw [List.eq_of_mem_replicate zero]
    exact (nonneg.trans_lt (kept_above (List.mem_reverse.mp kept))).le
  · rcases gap x member with rfl | above
    · exact le_rfl
    · exact (nonneg.trans_lt above).le
  · have total := spectrum_sum T cutoff
    simp only [occupationList, List.sum_append, List.sum_reverse, List.sum_replicate, smul_zero, add_zero]
    rw [form.trace_eq, ← total, Complex.ofReal_add, add_sub_cancel_right]

end Occupations

section Runs

variable {σ : Type} [NormalStream σ Exact] {n : Nat} {solver : EigenSolver Exact}

theorem sample_occupations_exact (numbers : DrawsNumbers σ) (faithful : Faithful solver)
    {B : Matrix (Fin n) (Fin n) ℂ} {e : Mat Exact} {state next : σ} {sample : List Exact}
    (yields : (sampleOccupations solver (Mat.exact B) e).Yields state sample next) :
    ∃ xs : List ℝ, xs.length = n ∧ sample = xs.map .value := by
  simp only [sampleOccupations, bind_yields, draw_yields, except_yields, pure_yields, reporting_ok_iff] at yields
  obtain ⟨drawn, _, sampled, values, _, ⟨solved, _⟩, rfl, _⟩ := yields
  obtain ⟨C, hermitian, rfl⟩ := sample_matrix_exact numbers sampled
  obtain ⟨d, U, answer, form⟩ := faithful n C hermitian
  cases Except.ok.inj (solved.symm.trans (eigenvalues_exact ⟨d, U, answer, form⟩))
  exact ⟨(ascendingSpectrum C).reverse, by rw [List.length_reverse, form.spectrum_length], by rw [List.map_reverse]⟩

theorem sample_verdict_finite {B : Matrix (Fin n) (Fin n) ℂ} {e : Mat Exact} (square : e.shape = (n, n))
    (finite : ∀ i j : Fin n, Scalar.isFinite (e.entry i j) = true) : sampleVerdict (Mat.exact B) e = .ok () := by
  have fits : ¬ ((Mat.exact B).cols ≠ (Mat.exact B).rows ∨ e.shape ≠ (Mat.exact B).shape) := by
    rw [square]
    exact fun odd => odd.elim (fun differs => differs rfl) fun differs => differs rfl
  have all : ∀ place ∈ columnPlaces n, ¬ refusedPlace e place = true := by
    rw [column_places_forall n fun place => ¬ refusedPlace e place = true]
    intro i j row col
    simpa [refusedPlace] using finite ⟨i, row⟩ ⟨j, col⟩
  rw [sampleVerdict, if_neg fits, Mat.exact_rows, List.find?_eq_none.mpr all]

-- With errors that are numbers there are occupations if there is room for the samples.
theorem occupation_values_exact (faithful : Faithful solver) {p : SpinTensor (Cplx Exact)} {error : SpinTensor Exact}
    {A : Matrix (Fin n) (Fin n) ℂ} {e : Mat Exact} (summed : spinSummed p error = .ok (Mat.exact A, e))
    (hermitian : A.IsHermitian) (symmetric : e.Symmetric n)
    (finite : ∀ i j : Fin n, Scalar.isFinite (e.entry i j) = true) (samples : Nat) (factor : Exact) {cutoff : ℝ}
    (nonneg : 0 ≤ cutoff) :
    occupationValues solver p error samples factor (.value cutoff) = (do
      requireRoom samples vectorSize
      return (occupationList (screened factor A e) cutoff).map .value) := by
  obtain ⟨kept, screenedOk⟩ := screen_matrix_exact factor A symmetric.square
  obtain ⟨B, _, X, rebuilds, _, regularised⟩ :=
    regularise_kept faithful (screened_hermitian factor hermitian symmetric) nonneg
  have solved := eigenvalues_exact (faithful _ B rebuilds.hermitian)
  have drawn := sample_verdict_finite (B := B) symmetric.square finite
  rw [occupationValues, summed]
  change (reporting (screenMatrix (Mat.exact A) e factor) >>= _) = _
  rw [screenedOk]
  change (regularise solver (Mat.exact (screened factor A e)) (.value cutoff) >>= _) = _
  rw [regularised]
  change (requireRoom samples vectorSize >>= _) = _
  refine bind_congr fun _ => ?_
  change (sampleVerdict (Mat.exact B) e >>= _) = _
  rw [drawn]
  change (reporting (eigenvalues solver (Mat.exact B)) >>= _) = _
  rw [solved, ← rebuilds.occupation_list, List.map_reverse]
  rfl

theorem occupations_keep_spectrum (numbers : DrawsNumbers σ) (faithful : Faithful solver) (p : SpinTensor ℂ)
    (error : SpinTensor Exact) (samples : Nat) (factor : Exact) (cutoff : ℝ) (nonneg : 0 ≤ cutoff)
    (state next : σ) (occupations : Occupations Exact)
    (yields : (occupationsOf solver (p.map Cplx.exact) error samples factor (.value cutoff)).Yields state
      occupations next) :
    ∃ (T : Matrix (Fin p.dim) (Fin p.dim) ℂ) (sum : Mat (Cplx Exact)) (e : Mat Exact) (kept : Nat)
      (values errors : List ℝ),
      spinSummed (p.map Cplx.exact) error = .ok (sum, e) ∧
      screenMatrix sum e factor = .ok (Mat.exact T, kept) ∧ T.IsHermitian ∧
      occupations.values = values.map .value ∧ KeptOccupations T cutoff values ∧
      occupations.errors = errors.map .value ∧ errors.length = p.dim ∧ ∀ x ∈ errors, 0 ≤ x := by
  by_cases few : samples < 2
  · simp only [occupationsOf, if_pos few, bind_yields] at yields
    obtain ⟨_, _, refused, _⟩ := yields
    cases refused
  · simp only [occupationsOf, if_neg few, bind_yields, except_yields, run_yields, pure_yields, reporting_ok_iff] at yields
    obtain ⟨⟨sum, e⟩, _, ⟨summed, rfl⟩, ⟨screenedSum, kept⟩, _, ⟨screenedOk, rfl⟩, _, _, _, regularised, _,
      ⟨regularisedOk, rfl⟩, drawn, _, collected, central, _, ⟨solved, rfl⟩, deviations, _, ⟨deviated, rfl⟩, rfl, _⟩ :=
      yields
    obtain ⟨A, hermitian, rfl, symmetric⟩ := spin_summed_exact summed
    obtain ⟨again, screenedAgain⟩ := screen_matrix_exact factor A symmetric.square
    cases Except.ok.inj (screenedOk.symm.trans screenedAgain)
    have screenedHermitian := screened_hermitian factor hermitian symmetric
    obtain ⟨B, _, _, rebuilds, _, found⟩ := regularise_kept faithful screenedHermitian nonneg
    cases Except.ok.inj (regularisedOk.symm.trans found)
    cases Except.ok.inj (solved.symm.trans (eigenvalues_exact (faithful _ B rebuilds.hermitian)))
    obtain ⟨count, each⟩ := collect_each (fun _ _ _ => sample_occupations_exact numbers faithful) collected
    obtain ⟨xss, lengths, rfl⟩ := lists_of_numbers each
    rw [List.length_map] at count
    cases Except.ok.inj (deviated.symm.trans (sample_deviation_exact lengths (by omega)))
    refine ⟨_, _, e, _, _, _, summed, screenedOk, screenedHermitian, ?_, kept_occupations screenedHermitian nonneg, rfl,
      spreads_length _ _, fun x => spreads_nonneg⟩
    rw [← List.map_reverse, rebuilds.occupation_list]

local instance : NormalStream Unit Exact := constantStream

-- Screening takes the small entries off the diagonal; one eigenvalue that is left is negative.
noncomputable def indefiniteDensity : SpinTensor ℂ where
  sectors := [Mat.ofFn 2 2 fun i j => if i ≠ j then 1 / 8 else if i = 0 then -1 / 2 else 1]
  uniform := by simp [commonDim, Mat.shape]

noncomputable def offDiagonalError : SpinTensor Exact where
  sectors := [Mat.ofFn 2 2 fun i j => .value (if i ≠ j then 1 else 0)]
  uniform := by simp [commonDim, Mat.shape]

theorem indefinite_summed : spinSummed (indefiniteDensity.map Cplx.exact) offDiagonalError =
    .ok (Mat.exact !![-1 / 2, 1 / 8; 1 / 8, 1], Mat.ofFn 2 2 fun i j => .value (if i ≠ j then 1 else 0)) := by
  have sector : (Mat.ofFn 2 2 fun i j => if i ≠ j then 1 / 8 else if i = 0 then -1 / 2 else (1 : ℂ)).map Cplx.exact =
      Mat.exact !![-1 / 2, 1 / 8; 1 / 8, 1] := by
    rw [Mat.map_of_fn]
    apply Mat.of_fn_exact
    intro i j
    fin_cases i <;> fin_cases j <;> simp
  have hermitian : (!![-1 / 2, 1 / 8; 1 / 8, 1] : Matrix (Fin 2) (Fin 2) ℂ).IsHermitian := by
    ext i j
    fin_cases i <;> fin_cases j <;> simp
  have errors : symmetricPart (Mat.ofFn 2 2 fun i j => Exact.value (if i ≠ j then 1 else 0)) =
      .ok (Mat.ofFn 2 2 fun i j => .value (if i ≠ j then 1 else 0)) := by
    rw [symmetric_part_of_fn, Except.ok.injEq]
    apply Mat.of_fn_congr
    intro i j _ _
    by_cases same : i = j
    · simp [same, Exact.half_eq]
    · simp [same, Ne.symm same, Exact.half_eq]
      norm_num
  have some : ¬ ((indefiniteDensity.map Cplx.exact).count = 0 ∨
      (indefiniteDensity.map Cplx.exact).shape ≠ offDiagonalError.shape) := by
    rintro (none | differs)
    · cases none
    · exact differs rfl
  simp only [spinSummed, if_neg some, except_bind_ok_iff]
  refine ⟨_, rfl, _, rfl, _, ?_, _, errors, rfl⟩
  rw [sector, exact_hermitian_part, hermitised_of_hermitian hermitian]

theorem indefinite_screened : screened (.value 1) !![-1 / 2, 1 / 8; 1 / 8, 1]
    (Mat.ofFn 2 2 fun i j => .value (if i ≠ j then 1 else 0)) = diagonal fun k => ((![-1 / 2, 1] k : ℝ) : ℂ) := by
  have modulus (z : ℂ) : (Cplx.exact z).abs = .value (Real.sqrt (z.re * z.re + z.im * z.im)) := rfl
  ext i j
  fin_cases i <;> fin_cases j <;> simp [screened, modulus] <;> norm_num

theorem indefinite_kept :
    keptSpectrum (diagonal fun k => ((![-1 / 2, 1] k : ℝ) : ℂ)) 0 = [1] := by
  have form : Diagonalises (diagonal fun k => ((![-1 / 2, 1] k : ℝ) : ℂ)) ![-1 / 2, 1] 1 := ⟨one_mem _, by simp⟩
  have ascending : Monotone ![(-1 / 2 : ℝ), 1] := by
    intro i j before
    fin_cases i <;> fin_cases j <;> simp at before ⊢
    norm_num
  rw [keptSpectrum, form.spectrum_of_monotone ascending]
  norm_num

theorem occupations_keep_spectrum_indefinite : ∃ (occupations : Occupations Exact) (errors : List ℝ) (next : Unit),
    (occupationsOf spectralSolver (indefiniteDensity.map Cplx.exact) offDiagonalError 2 (.value 1) (.value 0)).Yields
      () occupations next ∧
    occupations.values = [.value 1, .value 0] ∧ occupations.errors = errors.map .value ∧ errors.length = 2 ∧
    ∀ x ∈ errors, 0 ≤ x := by
  have faithful := spectral_solver_lower_faithful.faithful
  have symmetric : (Mat.ofFn 2 2 fun i j => Exact.value (if i ≠ j then 1 else 0)).Symmetric 2 :=
    ⟨rfl, fun i j => by fin_cases i <;> fin_cases j <;> simp⟩
  have hermitian : (!![-1 / 2, 1 / 8; 1 / 8, 1] : Matrix (Fin 2) (Fin 2) ℂ).IsHermitian := by
    ext i j
    fin_cases i <;> fin_cases j <;> simp
  have values := occupation_values_exact faithful indefinite_summed hermitian symmetric
    (fun i j => by fin_cases i <;> fin_cases j <;> rfl) 2 (.value 1) le_rfl
  obtain ⟨occupations, next, yields, _⟩ := (occupations_of_decides (σ := Unit) spectralSolver _ _ (le_refl 2) _ _).gives
    _ values ()
  obtain ⟨T, sum, e, kept, xs, errors, summed, screenedOk, _, listed, law, deviations, length, nonneg⟩ :=
    occupations_keep_spectrum (fun _ => ⟨1, rfl⟩) faithful indefiniteDensity offDiagonalError 2 (.value 1) 0 le_rfl ()
      next occupations yields
  refine ⟨occupations, errors, next, yields, ?_, deviations, length, nonneg⟩
  cases Except.ok.inj (summed.symm.trans indefinite_summed)
  obtain ⟨again, found⟩ := screen_matrix_exact (.value 1) !![-1 / 2, 1 / 8; 1 / 8, (1 : ℂ)] symmetric.square
  cases Mat.exact_injective (Prod.mk.inj (Except.ok.inj (screenedOk.symm.trans found))).1
  have spectrum := indefinite_screened ▸ indefinite_kept
  rw [listed, law.listed]
  change List.map _ ((keptSpectrum (n := 2) _ 0).reverse ++ List.replicate (2 - (keptSpectrum (n := 2) _ 0).length) 0) = _
  rw [spectrum]
  rfl

end Runs

end OrbitalSpectra
