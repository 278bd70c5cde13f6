import OrbitalSpectra.Proofs.Koopmans.PreparedSectors
import OrbitalSpectra.Proofs.PlacesInside
import OrbitalSpectra.Proofs.CentralResults

set_option autoImplicit false

namespace OrbitalSpectra

open AnalysisError

variable {α σ R : Type} [Scalar R]

section Square

variable {n samples : Nat} {reason : String → Nat → Nat → Prop}

theorem sample_verdict_square {m : Mat (Cplx R)} {error : Mat R} (square : m.shape = (n, n))
    (same : error.shape = (n, n)) : Avoids (Failure.Unexplained samples reason) (sampleVerdict m error) := by
  obtain ⟨rows, cols⟩ := Prod.mk.inj square
  have fits : ¬ (m.cols ≠ m.rows ∨ error.shape ≠ m.shape) := by
    rw [rows, cols, square, same]
    simp
  rw [sampleVerdict, if_neg fits]
  split
  · exact error_avoids id
  · exact ok_avoids ()

theorem room_explained : Avoids (Failure.Unexplained samples reason) (requireRoom samples vectorSize) := by
  rw [require_room_samples]
  split
  · exact ok_avoids ()
  · rename_i full
    exact error_avoids full

theorem occupation_values_explained (solver : EigenSolver R) {p : SpinTensor (Cplx R)} {error : SpinTensor R}
    (some : p.count ≠ 0) (same : p.shape = error.shape) (screenFactor cutoff : R) :
    Avoids (Failure.Unexplained samples reason) (occupationValues solver p error samples screenFactor cutoff) := by
  obtain ⟨sum, e, summed, sumShape, errorShape⟩ := spin_summed_square some same
  obtain ⟨screened, kept, screenedOk, shape⟩ := screen_matrix_fits sumShape errorShape screenFactor
  obtain ⟨r, _, regularised, matrix, _⟩ := regularise_square solver shape cutoff
  obtain ⟨values, solved, _⟩ := eigenvalues_square solver matrix
  rw [occupationValues, summed]
  change Avoids _ (reporting (screenMatrix sum e screenFactor) >>= _)
  rw [screenedOk]
  change Avoids _ (regularise solver screened cutoff >>= _)
  rw [regularised]
  change Avoids _ (requireRoom samples vectorSize >>= _)
  refine bind_avoids room_explained fun _ => bind_avoids (sample_verdict_square matrix errorShape) fun _ => ?_
  rw [solved]
  exact ok_avoids _

theorem sector_central_explained (solver : EigenSolver R) {sector : SectorAverages R} (square : sector.Square n)
    (densityError : sector.densityError.shape = (n, n)) (removalError : sector.removalError.shape = (n, n))
    (additionError : sector.additionError.shape = (n, n)) (cutoff : R) :
    Avoids (Failure.Unexplained samples reason) (sector.central solver samples cutoff) := by
  obtain ⟨ionization, ionizationOk⟩ := projected_energies_square solver square.density square.removal cutoff
  obtain ⟨hole, made, shape⟩ := hole_density_square square.density
  obtain ⟨attachment, attachmentOk⟩ := projected_energies_square solver shape square.addition cutoff
  have attached : attachmentEnergies solver sector.density sector.addition cutoff = .ok attachment := by
    rw [attachmentEnergies, made]
    exact attachmentOk
  rw [SectorAverages.central, ionizationEnergies, ionizationOk, attached]
  change Avoids _ (requireRoom samples vectorSize >>= _)
  exact bind_avoids room_explained fun _ => bind_avoids (bind_avoids (sample_verdict_square square.density densityError)
    fun _ => bind_avoids (sample_verdict_square square.removal removalError) fun _ =>
      sample_verdict_square square.addition additionError) fun _ => ok_avoids _

end Square

section Runs

theorem map_m_length {ε ι β : Type} {f : ι → Except ε β} {xs : List ι} {ys : List β} (ok : xs.mapM f = .ok ys) :
    ys.length = xs.length := by
  induction xs generalizing ys with
  | nil =>
      cases ok
      rfl
  | cons x rest ih =>
      simp only [List.mapM_cons, except_bind_ok_iff] at ok
      obtain ⟨y, _, others, tail, same⟩ := ok
      cases same
      rw [List.length_cons, List.length_cons, ih tail]

-- A failure of an analysis is one of its data, or there was no room for so many samples.
structure FailsOnData [Build] (m : Metadata)
    (series : String → Estimator → Option Nat → Except AnalysisError (List (Block R))) (s : Selection)
    (names : List String) (samples : Nat) (x : Except Failure α) : Prop where
  inside : x ≠ .error .fault
  sizes : x ≠ .error .overflow
  room : x = .error .capacity → 2 ^ 58 ≤ samples
  mismatch : ∀ name expected found, x = .error (.reported (shapeMismatch name expected found)) →
    name ∈ names ∧ expected ≠ found ∧ Misfit m series s name expected found

structure ShapesFit (x : Except Failure α) : Prop where
  inside : x ≠ .error .fault
  sizes : x ≠ .error .overflow
  matching : ∀ name expected found, x ≠ .error (.reported (shapeMismatch name expected found))

variable {m : Metadata} {series : String → Estimator → Option Nat → Except AnalysisError (List (Block R))}

theorem fails_on_data [Build] {s : Selection} {names : List String} {samples : Nat} {x : Except Failure α}
    (explained : Avoids (Failure.Unexplained samples (Explained m series s names)) x) :
    FailsOnData m series s names samples x where
  inside failed := explained _ failed trivial
  sizes failed := explained _ failed trivial
  room failed := Nat.not_lt.mp (explained _ failed)
  mismatch _ _ _ failed := not_not.mp (explained _ failed)

theorem shapes_fit {samples : Nat} {x : Except Failure α}
    (explained : Avoids (Failure.Unexplained samples fun _ _ _ => False) x) : ShapesFit x where
  inside failed := explained _ failed trivial
  sizes failed := explained _ failed trivial
  matching _ _ _ failed := explained _ failed id

omit [Scalar R] in
theorem stacked_shapes {t : TensorAverage R} {count dim : Nat} {e : Entries R} (positive : 0 < count)
    (stacked : t.Stacked count dim e) : t.mean.count ≠ 0 ∧ t.mean.shape = t.error.shape := by
  have means := SpinTensor.stack_shape t.mean count dim (e.meanSector dim) (fun _ => rfl) positive stacked.mean
  have errors := SpinTensor.stack_shape t.error count dim (e.errorSector dim) (fun _ => rfl) positive stacked.error
  refine ⟨?_, means.trans errors.symm⟩
  have counted : t.mean.count = count := (Prod.mk.inj means).1
  omega

variable {p : Params R} {reason : String → Nat → Nat → Prop}

theorem validate_explained {samples : Nat} (p : Params R) :
    Avoids (Failure.Unexplained samples reason) (reporting p.validate) := by
  apply reporting_explained
  intro e failed
  obtain ⟨fault, rfl⟩ := validate_fault failed
  exact id

variable [Build] {source : Source R} (read : source.metadata = .ok m) (fits : m.Fits)

include read fits

theorem prepares_of_fits {d r a : TensorAverage R} (densityMean : (averageDensity source p.selection).Returns d)
    (removalMean : (averageFock source .minus p.selection).Returns r)
    (additionMean : (averageFock source .plus p.selection).Returns a) :
    ∃ m walker count dim density removal addition,
      source.Prepares p.selection m walker count dim density removal addition :=
  prepared_averages_exist densityMean (TensorObservable.density.average_fits read fits densityMean)
    removalMean ((TensorObservable.fock .minus).average_fits read fits removalMean)
    additionMean ((TensorObservable.fock .plus).average_fits read fits additionMean)

theorem prepared_sectors_fit {sectors : List (SectorAverages R)}
    (returned : (preparedSectors source p).Returns sectors) : sectors ≠ [] := by
  have steps := returned
  simp only [preparedSectors, Run.bind_returns] at steps
  obtain ⟨d, densityMean, a, additionMean, r, removalMean, _⟩ := steps
  obtain ⟨_, _, _, _, _, _, _, prepares⟩ := prepares_of_fits read fits densityMean removalMean additionMean
  obtain ⟨again, nonempty⟩ := (prepared_sectors_returns_iff _).mpr ⟨_, _, _, _, _, _, _, prepares, rfl⟩
  rwa [Run.returns_unique again returned] at nonempty

theorem prepared_sectors_explained {samples : Nat}
    (averages : ∀ observable : TensorObservable,
      Avoids (Failure.Unexplained samples reason) (observable.average source p.selection).outcome) :
    Avoids (Failure.Unexplained samples reason) (preparedSectors source p).outcome := by
  refine bind_outcome_avoids_known (averages .density) fun d densityMean =>
    bind_outcome_avoids_known (averages (.fock .plus)) fun a additionMean =>
    bind_outcome_avoids_known (averages (.fock .minus)) fun r removalMean => ?_
  obtain ⟨_, walker, count, dim, density, removal, addition, prepares⟩ :=
    prepares_of_fits read fits densityMean removalMean additionMean
  have returned := prepared_sectors_of_averages prepares densityMean removalMean additionMean
  simp only [preparedSectors, Run.bind_returns] at returned
  obtain ⟨_, densityAgain, _, additionAgain, _, removalAgain, rest⟩ := returned
  cases Run.returns_unique densityMean densityAgain
  cases Run.returns_unique additionMean additionAgain
  cases Run.returns_unique removalMean removalAgain
  intro e failed
  simp only [Run.bind_outcome] at failed
  obtain ⟨screenedDensity, densityOk, screenedRemoval, removalOk, screenedAddition, additionOk, sectors⟩ := rest
  rw [densityOk] at failed
  change ((liftM (reporting (r.screened p.screenFactor)) : Run (TensorAverage R)).outcome >>= _) = _ at failed
  rw [removalOk] at failed
  change ((liftM (reporting (a.screened p.screenFactor)) : Run (TensorAverage R)).outcome >>= _) = _ at failed
  rw [additionOk] at failed
  cases failed.symm.trans sectors

variable [NormalStream σ R] (solver : EigenSolver R) (entropy : σ)

theorem natural_occupations_explained
    (averaged : Avoids (Failure.Unexplained p.samples reason) (averageDensity source p.selection).outcome) :
    Avoids (Failure.Unexplained p.samples reason) (naturalOccupations solver source p entropy).outcome := by
  cases valid : p.validate with
  | error e =>
      refine bind_outcome_avoids_known (validate_explained p) fun _ passed => ?_
      cases valid.symm.trans ((reporting_ok_iff _ _).mp passed)
  | ok _ =>
      rw [← map_avoids_iff _ Occupations.values, occupations_central solver source p entropy valid]
      refine bind_avoids_known averaged fun density returned => ?_
      obtain ⟨_, walker, count, dim, blocks, _, averages, stacked⟩ :=
        average_stacked .density returned (TensorObservable.density.average_fits read fits returned)
      obtain ⟨some, same⟩ := stacked_shapes (flat_layout_sectors averages.able.layout) stacked
      exact occupation_values_explained solver some same p.screenFactor p.cutoff

theorem koopmans_spectra_explained
    (prepared : Avoids (Failure.Unexplained p.samples reason) (preparedSectors source p).outcome) :
    Avoids (Failure.Unexplained p.samples reason) (koopmansSpectra solver source p entropy).outcome := by
  cases valid : p.validate with
  | error e =>
      refine bind_outcome_avoids_known (validate_explained p) fun _ passed => ?_
      cases valid.symm.trans ((reporting_ok_iff _ _).mp passed)
  | ok _ =>
      rw [← map_avoids_iff _ KoopmansSpectra.withoutErrors, koopmans_central solver source p entropy valid]
      refine bind_avoids_known prepared fun sectors returned => ?_
      obtain ⟨_, walker, count, dim, density, removal, addition, prepares, rfl⟩ :=
        (prepared_sectors_returns_iff sectors).mp ⟨returned, prepared_sectors_fit read fits returned⟩
      refine bind_avoids_known (map_m_avoids_known fun sector member => ?_) fun spectra central => ?_
      · obtain ⟨s, _, rfl⟩ := List.mem_map.mp member
        exact sector_central_explained solver ⟨rfl, rfl, rfl⟩ rfl rfl rfl p.cutoff
      · have counted := map_m_length central
        have positive := flat_layout_sectors prepares.density.able.layout
        rcases spectra with _ | ⟨alpha, _ | ⟨beta, rest⟩⟩
        · simp at counted
          omega
        · exact ok_avoids _
        · exact ok_avoids _

omit read fits

theorem only_data_misfit (sized : Sized solver) (m : Metadata) (fits : (2 * m.orbitals) ^ 2 < UInt64.size)
    (series : String → Estimator → Option Nat → Except AnalysisError (List (Block R)))
    (own : ∀ name estimator path, Avoids AnalysisError.Mismatch (series name estimator path)) (p : Params R)
    (s : Selection) (entropy : σ) :
    let source : Source R := ⟨.ok m, series⟩
    FailsOnData m series p.selection ["one_rdm"] p.samples (naturalOccupations solver source p entropy).outcome ∧
    FailsOnData m series p.selection ["one_rdm", "gen_fock_plus", "gen_fock_minus"] p.samples
      (koopmansSpectra solver source p entropy).outcome ∧
    (∀ observable : TensorObservable,
      FailsOnData m series s [observable.name] 0 (observable.average source s).outcome) ∧
    FailsOnData m series s ["diag_two_rdm"] 0 (averagePairDensity source s).outcome ∧
    FailsOnData m series s ["on_top_pdm"] 0 (averageOnTopDensity source s).outcome ∧
    (∀ density, (averageDensity source p.selection).Returns density →
      ShapesFit (naturalOccupations solver source p entropy).outcome) ∧
    (∀ density addition removal, (averageDensity source p.selection).Returns density →
      (averageFock source .plus p.selection).Returns addition →
      (averageFock source .minus p.selection).Returns removal →
      ShapesFit (koopmansSpectra solver source p entropy).outcome) ∧
    ReadsInside σ solver := by
  have sectors : m.Fits := fun walker _ => layout_length_fits walker fits
  refine ⟨?_, ?_, ?_, ?_, ?_, ?_, ?_, reads_inside sized⟩
  · exact fails_on_data (natural_occupations_explained rfl sectors solver entropy
      (average_explained own p.selection _ _ (List.mem_singleton.mpr rfl) fits .density rfl))
  · refine fails_on_data (koopmans_spectra_explained rfl sectors solver entropy
      (prepared_sectors_explained rfl sectors fun observable => ?_))
    refine average_explained own p.selection _ _ ?_ fits observable rfl
    rcases observable with _ | (_ | _) <;> simp [TensorObservable.name]
  · intro observable
    exact fails_on_data (average_explained own s _ _ (by simp) fits observable rfl)
  · exact fails_on_data (average_pair_density_explained own s _ _ (by simp) fits rfl)
  · exact fails_on_data (average_observable_explained own s _ _ (by simp))
  · intro density returned
    exact shapes_fit (natural_occupations_explained rfl sectors solver entropy (returned ▸ ok_avoids density))
  · intro density addition removal densityMean additionMean removalMean
    refine shapes_fit (koopmans_spectra_explained rfl sectors solver entropy
      (prepared_sectors_explained rfl sectors fun observable => ?_))
    rcases observable with _ | (_ | _)
    · exact densityMean ▸ ok_avoids density
    · exact additionMean ▸ ok_avoids addition
    · exact removalMean ▸ ok_avoids removal

end Runs

local instance : Scalar ℚ := rationalScalar

local instance : NormalStream Nat ℚ := alternatingStream

def raggedSeries (_ : String) (_ : Estimator) (_ : Option Nat) : Except AnalysisError (List (Block ℚ)) :=
  .ok [#[⟨1 / 2, 0⟩], #[⟨1 / 2, 0⟩, ⟨1 / 4, 0⟩]]

-- The entries of the diagonal, with the axes.
def diagonalSolver (m : Mat (Cplx ℚ)) : Eigensystem ℚ :=
  ⟨(List.range m.rows).map fun k => (m.entry k k).re, Mat.identity m.rows⟩

theorem diagonal_solver_sized : Sized diagonalSolver := fun m _ => ⟨by simp [diagonalSolver], rfl⟩

theorem only_data_misfit_ragged :
    Misfit ⟨1, 1, false⟩ raggedSeries pointParams.selection "one_rdm" 1 2 ∧
    (∀ density, (averageDensity ⟨.ok ⟨1, 1, false⟩, raggedSeries⟩ pointParams.selection).Returns density →
      ShapesFit (naturalOccupations diagonalSolver ⟨.ok ⟨1, 1, false⟩, raggedSeries⟩ pointParams 0).outcome) ∧
    ReadsInside Nat diagonalSolver := by
  have own : ∀ name estimator path, Avoids AnalysisError.Mismatch (raggedSeries name estimator path) :=
    fun _ _ _ => ok_avoids _
  obtain ⟨occupations, _, _, _, _, shapes, _, inside⟩ := only_data_misfit (σ := Nat) diagonalSolver diagonal_solver_sized
    ⟨1, 1, false⟩ (by decide) raggedSeries own pointParams pointParams.selection 0
  refine ⟨(occupations.mismatch "one_rdm" 1 2 ?_).2.2, shapes, inside⟩
  rw [← except_map_error_iff _ fun _ => ()]
  decide +kernel

-- There is no room for the list of the samples, though every shape fits.
theorem data_fits_without_room :
    Sized diagonalSolver ∧ (averageDensity halfStore.source pointParams.selection).outcome.isOk = true ∧
    (naturalOccupations diagonalSolver halfStore.source { pointParams with samples := 2 ^ 62 } 0).outcome =
      .error .capacity := by
  refine ⟨diagonal_solver_sized, by decide +kernel, ?_⟩
  rw [← except_map_error_iff _ fun _ => ()]
  decide +kernel

end OrbitalSpectra
