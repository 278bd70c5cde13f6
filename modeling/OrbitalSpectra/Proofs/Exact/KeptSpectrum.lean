import OrbitalSpectra.Proofs.Exact.Whitening

set_option autoImplicit false

namespace OrbitalSpectra

open Matrix

variable {n : Nat}

noncomputable def clip (cutoff x : ℝ) : ℝ := if cutoff < x then x else 0

noncomputable def keptSpectrum (A : Matrix (Fin n) (Fin n) ℂ) (cutoff : ℝ) : List ℝ :=
  (ascendingSpectrum A).filter fun x => cutoff < x

noncomputable def droppedSpectrum (A : Matrix (Fin n) (Fin n) ℂ) (cutoff : ℝ) : List ℝ :=
  (ascendingSpectrum A).filter fun x => ¬ cutoff < x

section Clip

variable {cutoff : ℝ}

theorem clip_monotone (nonneg : 0 ≤ cutoff) : Monotone (clip cutoff) := by
  intro x y le
  by_cases first : cutoff < x
  · have second := first.trans_le le
    simpa only [clip, if_pos first, if_pos second] using le
  · by_cases second : cutoff < y
    · simpa only [clip, if_neg first, if_pos second] using (nonneg.trans_lt second).le
    · simp only [clip, if_neg first, if_neg second, le_refl]

-- The values up to the cutoff come first, and all of them become zeros.
theorem clip_sorted (xs : List ℝ) (sorted : xs.Pairwise (· ≤ ·)) :
    xs.map (clip cutoff) = List.replicate (xs.length - (xs.filter fun x => cutoff < x).length) 0 ++
      xs.filter fun x => cutoff < x := by
  induction xs with
  | nil => rfl
  | cons x rest ih =>
      obtain ⟨least, tail⟩ := List.pairwise_cons.mp sorted
      by_cases above : cutoff < x
      · have all : ∀ y ∈ x :: rest, cutoff < y :=
          List.forall_mem_cons.mpr ⟨above, fun y member => above.trans_le (least y member)⟩
        have kept : (x :: rest).filter (fun y => cutoff < y) = x :: rest :=
          List.filter_eq_self.mpr fun y member => decide_eq_true (all y member)
        rw [kept, Nat.sub_self, List.replicate_zero, List.nil_append]
        exact (List.map_congr_left fun y member => if_pos (all y member)).trans (List.map_id _)
      · have dropped : (x :: rest).filter (fun y => cutoff < y) = rest.filter fun y => cutoff < y :=
          List.filter_cons_of_neg (by simpa using above)
        have short := List.length_filter_le (fun y => decide (cutoff < y)) rest
        rw [dropped, List.map_cons, ih tail, clip, if_neg above, List.length_cons, Nat.succ_sub short,
          List.replicate_succ, List.cons_append]

end Clip

namespace Diagonalises

variable {A U : Matrix (Fin n) (Fin n) ℂ} {d : Fin n → ℝ}

theorem hermitian (form : Diagonalises A d U) : A.IsHermitian := by
  rw [form.product]
  apply isHermitian_mul_mul_conjTranspose
  apply isHermitian_diagonal_of_self_adjoint
  funext k
  exact Complex.conj_ofReal (d k)

theorem trace_eq (form : Diagonalises A d U) : A.trace = ((ascendingSpectrum A).sum : ℝ) := by
  have sum : (ascendingSpectrum A).sum = ∑ k, d k := by
    rw [← Multiset.sum_coe, form.spectrum_multiset]
    rfl
  conv_lhs => rw [form.product]
  rw [trace_mul_cycle, form.left_inverse, Matrix.one_mul, trace_diagonal, sum, Complex.ofReal_sum]

end Diagonalises

theorem spectrum_sum (A : Matrix (Fin n) (Fin n) ℂ) (cutoff : ℝ) :
    (keptSpectrum A cutoff).sum + (droppedSpectrum A cutoff).sum = (ascendingSpectrum A).sum := by
  rw [← (List.filter_append_perm (fun x => decide (cutoff < x)) (ascendingSpectrum A)).sum_eq, List.sum_append,
    keptSpectrum, droppedSpectrum]
  simp only [decide_not]

section Rebuilt

variable (d : Fin n → ℝ) (U : Matrix (Fin n) (Fin n) ℂ) (cutoff : ℝ)

noncomputable def rebuilt : Matrix (Fin n) (Fin n) ℂ := U * diagonal (fun k => (clip cutoff (d k) : ℂ)) * Uᴴ

theorem columns_exact {kept : List Nat} (below : ∀ k ∈ kept, k < n) :
    (Eigensystem.exact d U).columns kept = Mat.exact (U.submatrix id (placeOf kept below)) := by
  change Mat.ofFn n kept.length _ = _
  apply Mat.of_fn_exact
  intro r c
  have place : kept.getD c 0 = (placeOf kept below c : Nat) := by simp [placeOf]
  rw [place]
  exact Mat.exact_entry U r _

-- The vectors above the cutoff, each with a value of its own.
theorem upper_values_product (g : Fin n → ℝ) : U.submatrix id (upperPlaces d U cutoff) *
    diagonal (fun c => (g (upperPlaces d U cutoff c) : ℂ)) * (U.submatrix id (upperPlaces d U cutoff))ᴴ =
      U * diagonal (fun k => ((if cutoff < d k then g k else 0 : ℝ) : ℂ)) * Uᴴ := by
  ext i j
  rw [mul_apply, mul_apply]
  simp only [mul_diagonal, submatrix_apply, id_eq, conjTranspose_apply]
  apply Fintype.sum_of_injective (upperPlaces d U cutoff) (upper_places_injective d U cutoff)
  · intro k outside
    have low : ¬ cutoff < d k := fun above => outside ((upper_places_iff d U cutoff k).mp above)
    rw [if_neg low, Complex.ofReal_zero, mul_zero, zero_mul]
  · intro c
    rw [if_pos ((upper_places_iff d U cutoff _).mpr ⟨c, rfl⟩)]

theorem upper_product : U.submatrix id (upperPlaces d U cutoff) *
    diagonal (fun c => (d (upperPlaces d U cutoff c) : ℂ)) * (U.submatrix id (upperPlaces d U cutoff))ᴴ =
      rebuilt d U cutoff := upper_values_product d U cutoff d

theorem reconstruction_exact : (Eigensystem.exact d U).reconstruction ((Eigensystem.exact d U).above (.value cutoff)) =
    .ok (Mat.exact (rebuilt d U cutoff)) := by
  have columns := columns_exact d U (above_inside d U cutoff)
  have scaled : (Mat.ofFn n ((Eigensystem.exact d U).above (.value cutoff)).length fun r c =>
      (((Eigensystem.exact d U).columns ((Eigensystem.exact d U).above (.value cutoff))).entry r c).scale
        ((Eigensystem.exact d U).value (((Eigensystem.exact d U).above (.value cutoff)).getD c 0))) =
      Mat.exact (U.submatrix id (upperPlaces d U cutoff) *
        diagonal fun c => (d (upperPlaces d U cutoff c) : ℂ)) := by
    apply Mat.of_fn_exact
    intro r c
    have place : ((Eigensystem.exact d U).above (.value cutoff)).getD c 0 = (upperPlaces d U cutoff c : Nat) := by
      simp [upperPlaces, placeOf]
    rw [columns, Mat.exact_entry, place, exact_value, Cplx.exact_scale, mul_diagonal]
    rfl
  change orFault (Mat.mul? (Mat.ofFn n _ _) _) = _
  rw [scaled, columns, Mat.exact_adjoint, ← upper_product]
  exact (or_fault_ok_iff _ _).mpr (Mat.exact_mul _ _)

end Rebuilt

theorem above_listed (d : Fin n → ℝ) (U : Matrix (Fin n) (Fin n) ℂ) (cutoff : ℝ) :
    (Eigensystem.exact d U).above (.value cutoff) = ((List.finRange n).filter fun k => cutoff < d k).map Fin.val := by
  rw [above_exact, ← List.map_coe_finRange_eq_range, List.filter_map]
  congr 1
  apply List.filter_congr
  intro k _
  simp only [Function.comp, exact_value, Exact.value_lt]

theorem kept_spectrum_length {A U : Matrix (Fin n) (Fin n) ℂ} {d : Fin n → ℝ} (form : Diagonalises A d U)
    (ascending : Monotone d) (cutoff : ℝ) :
    ((Eigensystem.exact d U).above (.value cutoff)).length = (keptSpectrum A cutoff).length := by
  rw [above_listed, List.length_map, keptSpectrum, form.spectrum_of_monotone ascending, List.ofFn_eq_map,
    List.filter_map, List.length_map]
  rfl

theorem rebuilt_spectrum {A U : Matrix (Fin n) (Fin n) ℂ} {d : Fin n → ℝ} (form : Diagonalises A d U)
    (ascending : Monotone d) {cutoff : ℝ} (nonneg : 0 ≤ cutoff) :
    ascendingSpectrum (rebuilt d U cutoff) =
      List.replicate (n - (keptSpectrum A cutoff).length) 0 ++ keptSpectrum A cutoff := by
  have clipped : Diagonalises (rebuilt d U cutoff) (clip cutoff ∘ d) U := ⟨form.unitary, rfl⟩
  have values : List.ofFn (clip cutoff ∘ d) = (ascendingSpectrum A).map (clip cutoff) := by
    rw [form.spectrum_of_monotone ascending, List.map_ofFn]
  rw [clipped.spectrum_of_monotone ((clip_monotone nonneg).comp ascending), values,
    clip_sorted _ (ascending_spectrum_sorted A), form.spectrum_length]
  rfl

structure Rebuilds (A : Matrix (Fin n) (Fin n) ℂ) (cutoff : ℝ) (B : Matrix (Fin n) (Fin n) ℂ) : Prop where
  form : ∃ (d : Fin n → ℝ) (U : Matrix (Fin n) (Fin n) ℂ), Diagonalises A d U ∧ B = rebuilt d U cutoff
  hermitian : B.IsHermitian
  spectrum : ascendingSpectrum B =
    List.replicate (n - (keptSpectrum A cutoff).length) 0 ++ keptSpectrum A cutoff

theorem regularise_returned {solver : EigenSolver Exact} {A U : Matrix (Fin n) (Fin n) ℂ} {d : Fin n → ℝ}
    (sorted : eigh solver (Mat.exact A) = .ok (Eigensystem.exact d U)) (cutoff : ℝ) :
    regularise solver (Mat.exact A) (.value cutoff) = .ok ⟨Mat.exact (rebuilt d U cutoff),
      (Eigensystem.exact d U).whitening ((Eigensystem.exact d U).above (.value cutoff))⟩ := by
  simp only [regularise, except_bind_ok_iff, except_lift_ok_iff]
  exact ⟨_, sorted, _, reconstruction_exact d U cutoff, rfl⟩

theorem regularise_sorted {solver : EigenSolver Exact} {A U : Matrix (Fin n) (Fin n) ℂ} {d : Fin n → ℝ} {cutoff : ℝ}
    (sorted : eigh solver (Mat.exact A) = .ok (Eigensystem.exact d U)) (nonneg : 0 ≤ cutoff) :
    regularise solver (Mat.exact A) (.value cutoff) =
      .ok ⟨Mat.exact (rebuilt d U cutoff), Mat.exact (whitener d U (upperPlaces d U cutoff))⟩ := by
  rw [regularise_returned sorted, upper_whitening d U nonneg]

-- What is made of a Hermitian matrix: the one rebuilt from its kept spectrum, and a transform with a
-- column for each kept value.
theorem regularise_kept {solver : EigenSolver Exact} (faithful : Faithful solver) {A : Matrix (Fin n) (Fin n) ℂ}
    (hermitian : A.IsHermitian) {cutoff : ℝ} (nonneg : 0 ≤ cutoff) :
    ∃ (B : Matrix (Fin n) (Fin n) ℂ) (m : Nat) (X : Matrix (Fin n) (Fin m) ℂ), Rebuilds A cutoff B ∧
      m = (keptSpectrum A cutoff).length ∧
      regularise solver (Mat.exact A) (.value cutoff) = .ok ⟨Mat.exact B, Mat.exact X⟩ := by
  obtain ⟨d, U, sorted, ascending, form⟩ := solves_sorted (faithful n A hermitian)
  have clipped : Diagonalises (rebuilt d U cutoff) (clip cutoff ∘ d) U := ⟨form.unitary, rfl⟩
  exact ⟨rebuilt d U cutoff, _, whitener d U (upperPlaces d U cutoff),
    ⟨⟨d, U, form, rfl⟩, clipped.hermitian, rebuilt_spectrum form ascending nonneg⟩,
    kept_spectrum_length form ascending cutoff, regularise_sorted sorted nonneg⟩

end OrbitalSpectra
