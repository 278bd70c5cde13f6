import OrbitalSpectra.Params.Document
import OrbitalSpectra.Proofs.CentralResults

set_option autoImplicit false

namespace OrbitalSpectra

open AnalysisError

variable {σ R : Type}

def AnalysisError.Invalid : AnalysisError → Prop
  | invalidParameter _ => True
  | _ => False

def Failure.Invalid : Failure → Prop
  | reported e => e.Invalid
  | _ => False

instance invalid_tame : Tame Failure.Invalid where
  fault := id
  capacity := id
  overflow := id
  walker _ := id
  mode _ := id
  mismatch _ _ _ := id
  sample _ _ _ := id
  draw _ _ := id

-- A source that does not itself report an invalid parameter.
structure Source.Uncritical (source : Source R) : Prop where
  metadata : Avoids AnalysisError.Invalid source.metadata
  series : ∀ name estimator path, Avoids AnalysisError.Invalid (source.series name estimator path)

def Source.EmptyBasis (source : Source R) : Prop :=
  ∃ m walker, source.metadata = .ok m ∧ m.walker = .ok walker ∧ m.orbitals = 0

theorem avoids_invalid {α : Type} {x : Except Failure α} (avoids : Avoids Failure.Invalid x) (fault : ParameterFault) :
    x ≠ .error (.reported (invalidParameter fault)) :=
  fun failed => avoids _ failed trivial

variable [Scalar R]

omit [Scalar R] in
theorem store_uncritical (store : Store R) : store.source.Uncritical where
  metadata := ok_avoids _
  series := by
    intro name estimator path
    unfold Store.source
    dsimp only
    split
    · exact ok_avoids _
    · exact error_avoids id

section Valid

variable {p : Params R} (valid : p.validate = .ok ())

include valid

theorem valid_stride_avoids : p.selection.stride = 0 → ¬ Failure.Invalid (.reported (invalidParameter .zeroStride)) :=
  fun zero => absurd zero (validate_stride valid)

theorem valid_blocks_avoid (blocks : List (Block R)) (name : String) :
    Avoids Failure.Invalid (averageBlocks blocks name p.equilibration p.stride).outcome :=
  average_blocks_avoids blocks name p.equilibration (valid_stride_avoids valid)

variable {source : Source R} (uncritical : source.Uncritical)

include uncritical

theorem Source.Uncritical.spares : source.Spares p.selection Failure.Invalid :=
  ⟨uncritical.metadata, uncritical.series, valid_stride_avoids valid⟩

theorem Source.Uncritical.spares_tensors (inhabited : ¬ source.EmptyBasis) :
    source.SparesTensors p.selection Failure.Invalid where
  toSpares := uncritical.spares valid
  basis := by
    intro m walker read known
    by_cases empty : m.orbitals = 0
    · exact absurd ⟨m, walker, read, known, empty⟩ inhabited
    · rw [Metadata.basis, if_neg empty]
      exact ok_avoids _

end Valid

section Empty

variable {source : Source R} (empty : source.EmptyBasis)

include empty

theorem empty_basis_averages [Build] (name : String) (s : Selection) :
    (averageTensor source name s).outcome = .error (.reported (invalidParameter .emptyBasis)) := by
  obtain ⟨m, walker, read, known, none⟩ := empty
  have basis : m.basis = .error (invalidParameter .emptyBasis) := if_pos none
  have record : source.readMetadata.outcome = .ok m := by
    rw [Source.readMetadata, read]
    rfl
  rw [averageTensor, Run.bind_ok _ record, known]
  change (Run.bind _ _).outcome = _
  rw [basis]
  rfl

theorem empty_basis_density [Build] (s : Selection) :
    (averageDensity source s).outcome = .error (.reported (invalidParameter .emptyBasis)) := by
  rw [averageDensity, Run.bind_error _ (empty_basis_averages empty densitySeries s)]

end Empty

section Outcomes

variable [NormalStream σ R] (solver : EigenSolver R) (source : Source R) {p : Params R}

theorem valid_samples_avoid (valid : p.validate = .ok ()) (density : SpinTensor (Cplx R)) (error : SpinTensor R)
    (state : σ) :
    Avoids Failure.Invalid (occupationsOf solver density error p.samples p.screenFactor p.cutoff state).outcome := by
  have decided := (occupations_of_decides (σ := σ) solver density error (validate_samples valid) p.screenFactor
    p.cutoff).outcome state
  rw [← map_avoids_iff, decided]
  exact occupation_values_avoids solver density error p.samples p.screenFactor p.cutoff

theorem occupations_invalid_iff [Build] (valid : p.validate = .ok ()) (uncritical : source.Uncritical) (entropy : σ)
    (fault : ParameterFault) :
    (naturalOccupations solver source p entropy).outcome = .error (.reported (invalidParameter fault)) ↔
      fault = .emptyBasis ∧ source.EmptyBasis := by
  by_cases empty : source.EmptyBasis
  · have failed : centralOccupations solver source p = .error (.reported (invalidParameter .emptyBasis)) := by
      rw [centralOccupations, empty_basis_density empty]
      rfl
    rw [← except_map_error_iff _ Occupations.values, occupations_central solver source p entropy valid, failed]
    simp [empty, eq_comm]
  · have avoids := central_occupations_spared solver (uncritical.spares_tensors valid empty)
    rw [← occupations_central solver source p entropy valid, map_avoids_iff] at avoids
    exact iff_of_false (avoids_invalid avoids fault) fun held => empty held.2

theorem spectra_invalid_iff [Build] (valid : p.validate = .ok ()) (uncritical : source.Uncritical) (entropy : σ)
    (fault : ParameterFault) :
    (koopmansSpectra solver source p entropy).outcome = .error (.reported (invalidParameter fault)) ↔
      fault = .emptyBasis ∧ source.EmptyBasis := by
  by_cases empty : source.EmptyBasis
  · have failed : centralSpectra solver source p = .error (.reported (invalidParameter .emptyBasis)) := by
      rw [centralSpectra, preparedSectors, Run.bind_error _ (empty_basis_density empty p.selection)]
      rfl
    rw [← except_map_error_iff _ KoopmansSpectra.withoutErrors, koopmans_central solver source p entropy valid, failed]
    simp [empty, eq_comm]
  · have avoids := central_spectra_spared solver (uncritical.spares_tensors valid empty)
    rw [← koopmans_central solver source p entropy valid, map_avoids_iff] at avoids
    exact iff_of_false (avoids_invalid avoids fault) fun held => empty held.2

-- A rejected parameter is the whole run: the error, and no event before it.
theorem rejected_before_reads [Build] {e : AnalysisError} (rejected : p.validate = .error e) (entropy : σ) :
    naturalOccupations solver source p entropy = ⟨.error (.reported e), []⟩ ∧
      koopmansSpectra solver source p entropy = ⟨.error (.reported e), []⟩ := by
  rw [naturalOccupations, koopmansSpectra, rejected]
  exact ⟨rfl, rfl⟩

end Outcomes

theorem of_text_valid {text : String} {p : Params Float} (read : Params.ofText text = .ok p) : p.validate = .ok () := by
  unfold Params.ofText at read
  split at read
  · cases read
  · obtain ⟨_, valid, same⟩ := (except_bind_ok_iff _ _ _).mp read
    cases same
    exact valid

theorem of_bytes_valid {bytes : ByteArray} {p : Params Float} (read : Params.ofBytes bytes = .ok p) :
    p.validate = .ok () := by
  unfold Params.ofBytes at read
  split at read
  · exact of_text_valid read
  · cases read

theorem validation_complete [Build] [NormalStream σ R] (solver : EigenSolver R) (p : Params R) :
    (p.validate = .ok () →
      (∀ source : Source R, source.Uncritical → ∀ (entropy : σ) (fault : ParameterFault),
        ((naturalOccupations solver source p entropy).outcome = .error (.reported (invalidParameter fault)) ↔
          fault = .emptyBasis ∧ source.EmptyBasis) ∧
        ((koopmansSpectra solver source p entropy).outcome = .error (.reported (invalidParameter fault)) ↔
          fault = .emptyBasis ∧ source.EmptyBasis)) ∧
      (∀ source : Source R, source.Uncritical → ∀ name,
        Avoids Failure.Invalid (averageObservable source name p.selection).outcome) ∧
      (∀ (blocks : List (Block R)) (name : String),
        Avoids Failure.Invalid (averageBlocks blocks name p.equilibration p.stride).outcome) ∧
      ∀ (density : SpinTensor (Cplx R)) (error : SpinTensor R) (state : σ), Avoids Failure.Invalid
        (occupationsOf solver density error p.samples p.screenFactor p.cutoff state).outcome) ∧
    (∀ e, p.validate = .error e → ∀ (source : Source R) (entropy : σ),
      naturalOccupations solver source p entropy = ⟨.error (.reported e), []⟩ ∧
      koopmansSpectra solver source p entropy = ⟨.error (.reported e), []⟩) ∧
    (∀ text q, Params.ofText text = .ok q → q.validate = .ok ()) ∧
    ∀ bytes q, Params.ofBytes bytes = .ok q → q.validate = .ok () := by
  refine ⟨fun valid => ⟨?_, ?_, ?_, ?_⟩, ?_, ?_, ?_⟩
  · intro source uncritical entropy fault
    exact ⟨occupations_invalid_iff solver source valid uncritical entropy fault,
      spectra_invalid_iff solver source valid uncritical entropy fault⟩
  · intro source uncritical name
    exact average_observable_avoids name (uncritical.spares valid)
  · exact valid_blocks_avoid valid
  · exact valid_samples_avoid solver valid
  · intro e rejected source entropy
    exact rejected_before_reads solver source rejected entropy
  · exact fun _ _ => of_text_valid
  · exact fun _ _ => of_bytes_valid

local instance emptyScalar : Scalar ℚ := rationalScalar

local instance emptyStream : NormalStream Nat ℚ := alternatingStream

def emptySource : Source ℚ := ⟨.ok ⟨0, 2, false⟩, fun _ _ _ => .ok []⟩

theorem validation_complete_empty_basis :
    (naturalOccupations pointSolver emptySource pointParams 0).outcome =
      .error (.reported (invalidParameter .emptyBasis)) ∧
    (∀ fault, (koopmansSpectra pointSolver halfStore.source pointParams 0).outcome ≠
      .error (.reported (invalidParameter fault))) ∧
    koopmansSpectra pointSolver halfStore.source { pointParams with stride := 0 } 0 =
      ⟨.error (.reported (invalidParameter .zeroStride)), []⟩ := by
  obtain ⟨valid, _, _, _⟩ := validation_complete (σ := Nat) pointSolver pointParams
  obtain ⟨_, rejected, _, _⟩ := validation_complete (σ := Nat) pointSolver { pointParams with stride := 0 }
  obtain ⟨outcomes, _, _, _⟩ := valid (by decide +kernel)
  have uncritical : emptySource.Uncritical := ⟨ok_avoids _, fun _ _ _ => ok_avoids _⟩
  refine ⟨?_, fun fault failed => ?_, (rejected _ (by decide +kernel) halfStore.source 0).2⟩
  · exact (outcomes emptySource uncritical 0 .emptyBasis).1.mpr ⟨rfl, ⟨0, 2, false⟩, .collinear, rfl, rfl, rfl⟩
  · obtain ⟨_, m, _, read, _, none⟩ :=
      (outcomes halfStore.source (store_uncritical _) 0 fault).2.mp failed
    cases read
    cases none

end OrbitalSpectra
