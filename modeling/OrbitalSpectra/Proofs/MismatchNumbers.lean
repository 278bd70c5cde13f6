import OrbitalSpectra.Proofs.Bootstrap.Verdicts
import OrbitalSpectra.Proofs.Koopmans.MisshapenMatrices
import OrbitalSpectra.Proofs.ScreenedTensors

set_option autoImplicit false

namespace OrbitalSpectra

open AnalysisError

variable {α ι σ R : Type}

-- A mismatch is reported, and the expected number is the found one.
def ReportsEqual (x : Except Failure α) : Prop :=
  ∃ name count, x = .error (.reported (shapeMismatch name count count))

def mismatch? : Except Failure α → Option (String × Nat × Nat)
  | .error (.reported (shapeMismatch name expected found)) => some (name, expected, found)
  | _ => none

theorem mismatch_some_iff (x : Except Failure α) (name : String) (expected found : Nat) :
    mismatch? x = some (name, expected, found) ↔
      x = .error (.reported (shapeMismatch name expected found)) := by
  unfold mismatch?
  split
  · simp
  · rename_i other
    refine iff_of_false (by simp) fun same => other name expected found same

theorem reports_equal_of_find {x : Except Failure α} {held : Option ι} {name : String} {expected found : ι → Nat}
    (reported : mismatch? x = held.map fun a => (name, expected a, found a)) :
    ReportsEqual x ↔ ∃ a, held = some a ∧ expected a = found a := by
  simp only [ReportsEqual, ← mismatch_some_iff, reported, Option.map_eq_some_iff, Prod.mk.injEq]
  constructor
  · rintro ⟨_, count, a, same, _, left, right⟩
    exact ⟨a, same, left.trans right.symm⟩
  · rintro ⟨a, same, numbers⟩
    exact ⟨name, found a, a, same, rfl, numbers, rfl⟩

theorem reports_equal_of_check {x : Except Failure α} {odd : Prop} [Decidable odd] {name : String}
    {expected found : Nat}
    (reported : mismatch? x = if odd then some (name, expected, found) else none) :
    ReportsEqual x ↔ odd ∧ expected = found := by
  simp only [ReportsEqual, ← mismatch_some_iff, reported, Option.ite_none_right_eq_some, Option.some.injEq,
    Prod.mk.injEq]
  constructor
  · rintro ⟨_, count, held, _, left, right⟩
    exact ⟨held, left.trans right.symm⟩
  · rintro ⟨held, same⟩
    exact ⟨name, found, held, rfl, same, rfl⟩

theorem mismatch_map {β : Type} (f : α → β) (x : Except Failure α) : mismatch? (x.map f) = mismatch? x := by
  rcases x with (e | _ | _ | _) | a
  · cases e <;> rfl
  · rfl
  · rfl
  · rfl
  · rfl

section Stacks

-- The first of the matrices that is not square of the size that the first one has.
def firstOdd (ms : List (Mat α)) : Option (Mat α) :=
  ms.find? fun m => m.shape ≠ (commonDim (ms.map Mat.shape), commonDim (ms.map Mat.shape))

theorem of_sectors_mismatch (ms : List (Mat α)) : mismatch? (reporting (SpinTensor.ofSectors ms)) =
    (firstOdd ms).map fun m =>
      ("spin tensor sector", commonDim (ms.map Mat.shape) * commonDim (ms.map Mat.shape), m.size) := by
  by_cases uniform : ∀ m ∈ ms, m.shape = (commonDim (ms.map Mat.shape), commonDim (ms.map Mat.shape))
  · have none : firstOdd ms = none := List.find?_eq_none.mpr (by simpa using uniform)
    rw [SpinTensor.ofSectors, dif_pos uniform, none]
    rfl
  · obtain ⟨m, found⟩ : ∃ m, firstOdd ms = some m := by
      rw [← Option.isSome_iff_exists, firstOdd, List.find?_isSome]
      simpa using uniform
    rw [SpinTensor.ofSectors, dif_neg uniform, found]
    exact congrArg (fun held => mismatch? (reporting (.error (shapeMismatch _ _ (Option.getD held 0)))))
      (congrArg (Option.map Mat.size) found)

end Stacks

variable [Scalar R]

section Screening

theorem screen_matrix_mismatch (m : Mat (Cplx R)) (error : Mat R) (factor : R) :
    mismatch? (reporting (screenMatrix m error factor)) =
      if m.shape ≠ error.shape then some ("screened matrix", m.size, error.size) else none := by
  by_cases same : m.shape = error.shape
  · obtain ⟨screened, kept, ok, _⟩ := screen_matrix_fits same rfl factor
    rw [ok, if_neg (not_not_intro same)]
    rfl
  · rw [screen_matrix_misfit factor same, if_pos same]
    rfl

def firstUnlike (ms : List (Mat (Cplx R))) (es : List (Mat R)) : Option (Mat (Cplx R) × Mat R) :=
  (ms.zip es).find? fun pair => pair.1.shape ≠ pair.2.shape

theorem screen_sectors_mismatch (factor : R) (ms : List (Mat (Cplx R))) (es : List (Mat R)) :
    mismatch? (reporting (screenSectors factor ms es).2) =
      (firstUnlike ms es).map fun pair => ("screened matrix", pair.1.size, pair.2.size) := by
  induction ms generalizing es with
  | nil => rfl
  | cons m ms ih =>
      cases es with
      | nil => rfl
      | cons e es =>
          by_cases same : m.shape = e.shape
          · obtain ⟨screened, kept, ok, _⟩ := screen_matrix_fits same rfl factor
            have next : firstUnlike (m :: ms) (e :: es) = firstUnlike ms es :=
              List.find?_cons_of_neg (by simpa using same)
            rw [next, ← ih es, screenSectors, ok]
            exact (congrArg mismatch? (reporting_map _ _)).trans (mismatch_map _ _)
          · have here : firstUnlike (m :: ms) (e :: es) = some (m, e) :=
              List.find?_cons_of_pos (by simpa using same)
            rw [here, screenSectors, screen_matrix_misfit factor same]
            rfl

-- Squares of two sizes differ in their counts, and so do two numbers of sectors.
theorem screen_tensor_numbers_differ (t : SpinTensor (Cplx R)) (error : SpinTensor R) (factor : R) :
    ¬ ReportsEqual (reporting (screenTensor t error factor).2) := by
  by_cases counts : t.count = error.count
  · have loop : (screenTensor t error factor).2 = (screenSectors factor t.sectors error.sectors).2 := by
      rw [screenTensor, if_neg (not_not_intro counts)]
    rw [loop, reports_equal_of_find (screen_sectors_mismatch factor t.sectors error.sectors)]
    rintro ⟨⟨m, e⟩, found, sizes⟩
    obtain ⟨left, right⟩ := List.of_mem_zip (List.mem_of_find?_eq_some found)
    have differ : m.shape ≠ e.shape := by simpa using List.find?_some found
    obtain ⟨rows, cols⟩ := Prod.mk.inj (t.uniform m left)
    obtain ⟨errorRows, errorCols⟩ := Prod.mk.inj (error.uniform e right)
    simp only [Mat.size, rows, cols, errorRows, errorCols] at sizes
    apply differ
    rw [t.uniform m left, error.uniform e right, Nat.mul_self_inj.mp sizes]
  · rw [screen_tensor_counts factor counts]
    rintro ⟨name, count, same⟩
    simp only [reporting_error, Except.error.injEq, Failure.reported.injEq, shapeMismatch.injEq] at same
    exact counts (same.2.1.trans same.2.2.symm)

end Screening

theorem ionization_reports_equal_iff (solver : EigenSolver R) (p fock : Mat (Cplx R)) (cutoff : R) :
    ReportsEqual (ionizationEnergies solver p fock cutoff) ↔
      fock.shape ≠ p.shape ∧ fock.size = p.size ∨ fock.shape = p.shape ∧ p.rows = 0 ∧ p.cols ≠ 0 := by
  simp only [ReportsEqual, ionizationEnergies, projected_energies_error_iff, Failure.reported.injEq,
    exists_eq_right']
  constructor
  · rintro ⟨name, count, wrong⟩
    obtain ⟨e, held⟩ : ∃ e, e = shapeMismatch name count count := ⟨_, rfl⟩
    rw [← held] at wrong
    cases wrong with
    | fock differ =>
        obtain ⟨_, left, right⟩ := shapeMismatch.inj held
        exact .inl ⟨differ, right.trans left.symm⟩
    | density same oblong =>
        obtain ⟨_, left, right⟩ := shapeMismatch.inj held
        have sizes : p.rows * p.rows = p.rows * p.cols := left.trans right.symm
        have empty : p.rows = 0 := (mul_eq_mul_left_iff.mp sizes).resolve_left oblong
        exact .inr ⟨same, empty, fun none => oblong (empty.trans none.symm)⟩
  · rintro (⟨differ, sizes⟩ | ⟨same, empty, some⟩)
    · have wrong : Misshapen p fock _ := .fock differ
      rw [sizes] at wrong
      exact ⟨_, _, wrong⟩
    · have oblong : p.rows ≠ p.cols := fun square => some (square.symm.trans empty)
      have sizes : p.size = p.rows * p.rows := by rw [Mat.size, empty, Nat.zero_mul, Nat.zero_mul]
      have wrong : Misshapen p fock _ := .density same oblong
      rw [sizes] at wrong
      exact ⟨_, _, wrong⟩

theorem sample_matrix_mismatch [NormalStream σ R] (m : Mat (Cplx R)) (error : Mat R) (state : σ) :
    mismatch? (sampleMatrix m error state).1 =
      if m.cols ≠ m.rows ∨ error.shape ≠ m.shape then some ("perturbed matrix", m.rows * m.rows, error.size)
      else none := by
  have shapeless : (Sampling.ofDraw (sampleMatrix (σ := σ) m error)).Decides (sampleVerdict m error) fun b _ => () = b :=
    (sample_matrix_decides m error).mono fun _ _ _ => rfl
  have decided : ((sampleMatrix m error state).1.map fun drawn => (drawn, (sampleMatrix m error state).2)).map
      (fun _ => ()) = sampleVerdict m error := shapeless.outcome state
  rw [← mismatch_map (fun drawn => (drawn, (sampleMatrix m error state).2)), ← mismatch_map (fun _ => ()), decided,
    sampleVerdict]
  by_cases odd : m.cols ≠ m.rows ∨ error.shape ≠ m.shape
  · rw [if_pos odd, if_pos odd]
    rfl
  · rw [if_neg odd, if_neg odd]
    cases (columnPlaces m.rows).find? (refusedPlace error) <;> rfl

theorem spin_summed_mismatch (p : SpinTensor (Cplx R)) (error : SpinTensor R) :
    mismatch? (spinSummed p error) =
      if p.count = 0 ∨ p.shape ≠ error.shape then some ("one_rdm", p.size, error.size) else none := by
  by_cases odd : p.count = 0 ∨ p.shape ≠ error.shape
  · rw [if_pos odd, spinSummed, if_pos odd]
    rfl
  · obtain ⟨some, same⟩ : p.count ≠ 0 ∧ p.shape = error.shape := by simpa using odd
    obtain ⟨sum, e, summed, _⟩ := spin_summed_square some same
    rw [if_neg odd, summed]
    rfl

-- The counts are exact, as those in words are as long as the squares of the sizes fit.
theorem mismatch_numbers_equal_iff [NormalStream σ R] :
    (∀ ms : List (Mat α), ReportsEqual (reporting (SpinTensor.ofSectors ms)) ↔
      ∃ m, firstOdd ms = some m ∧ commonDim (ms.map Mat.shape) * commonDim (ms.map Mat.shape) = m.size) ∧
    (∀ (m : Mat (Cplx R)) (error : Mat R) (factor : R), ReportsEqual (reporting (screenMatrix m error factor)) ↔
      m.shape ≠ error.shape ∧ m.size = error.size) ∧
    (∀ (factor : R) (ms : List (Mat (Cplx R))) (es : List (Mat R)),
      ReportsEqual (reporting (screenSectors factor ms es).2) ↔
        ∃ pair, firstUnlike ms es = some pair ∧ pair.1.size = pair.2.size) ∧
    (∀ (t : SpinTensor (Cplx R)) (error : SpinTensor R) (factor : R),
      ¬ ReportsEqual (reporting (screenTensor t error factor).2)) ∧
    (∀ (solver : EigenSolver R) (p fock : Mat (Cplx R)) (cutoff : R),
      ReportsEqual (ionizationEnergies solver p fock cutoff) ↔
        fock.shape ≠ p.shape ∧ fock.size = p.size ∨ fock.shape = p.shape ∧ p.rows = 0 ∧ p.cols ≠ 0) ∧
    (∀ (m : Mat (Cplx R)) (error : Mat R) (state : σ), ReportsEqual (sampleMatrix m error state).1 ↔
      (m.cols ≠ m.rows ∨ error.shape ≠ m.shape) ∧ m.rows * m.rows = error.size) ∧
    ∀ (p : SpinTensor (Cplx R)) (error : SpinTensor R), ReportsEqual (spinSummed p error) ↔
      (p.count = 0 ∨ p.shape ≠ error.shape) ∧ p.size = error.size := by
  refine ⟨?_, ?_, ?_, screen_tensor_numbers_differ, ionization_reports_equal_iff, ?_, ?_⟩
  · exact fun ms => reports_equal_of_find (of_sectors_mismatch ms)
  · exact fun m error factor => reports_equal_of_check (screen_matrix_mismatch m error factor)
  · exact fun factor ms es => reports_equal_of_find (screen_sectors_mismatch factor ms es)
  · exact fun m error state => reports_equal_of_check (sample_matrix_mismatch m error state)
  · exact fun p error => reports_equal_of_check (spin_summed_mismatch p error)

-- Of a column with two entries four are expected, and the four of its errors are reported as found.
example [NormalStream σ R] (state : σ) :
    ReportsEqual (sampleMatrix (Mat.zeros 2 1 : Mat (Cplx R)) (Mat.zeros 2 2) state).1 :=
  ⟨"perturbed matrix", 4, rfl⟩

end OrbitalSpectra
