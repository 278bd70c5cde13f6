import OrbitalSpectra.Proofs.Average.Triangle
import OrbitalSpectra.Proofs.Average.TensorEntries
import OrbitalSpectra.Proofs.Reads

set_option autoImplicit false

namespace OrbitalSpectra

open AnalysisError

namespace Metadata

def walkerCheck (m : Metadata) : Except Failure Unit :=
  require (m.walkerCode = 1 ∨ m.walkerCode = 2 ∨ m.walkerCode = 3) (unrecognizedWalkerType m.walkerCode)

def basisCheck (m : Metadata) : Except Failure Unit :=
  require (m.orbitals ≠ 0) (invalidParameter .emptyBasis)

def pairCheck (m : Metadata) : Except Failure Unit :=
  require (m.walkerCode ≠ 3) (unsupportedWalkerType .nonCollinear "diag_two_rdm")

-- The number of pairs of spin orbitals. Only a build that checks its arithmetic refuses it.
def pairSizeCheck [Build] (m : Metadata) : Except Failure Unit :=
  if Build.overflow = .ends ∧ UInt64.size ≤ m.orbitals * (2 * m.orbitals - 1) then .error .overflow else .ok ()

def projectionCheck (m : Metadata) (name : String) : Except Failure Unit :=
  require (m.freeProjection = false) (unsupportedMode s!"free projection error analysis for {name}")

theorem unknown_walker {m : Metadata}
    (unknown : ¬ (m.walkerCode = 1 ∨ m.walkerCode = 2 ∨ m.walkerCode = 3)) :
    m.walker = .error (unrecognizedWalkerType m.walkerCode) := by
  cases held : WalkerType.ofCode? m.walkerCode with
  | none => simp [walker, WalkerType.ofCode, held, Bind.bind, Except.bind]
  | some other =>
      have code : m.walkerCode = other.code := by simpa [WalkerType.ofCode?, eq_comm] using List.find?_some held
      cases other with
      | undefined => simp [walker, WalkerType.ofCode, held, Bind.bind, Except.bind, throw, throwThe, MonadExceptOf.throw]
      | closed => exact absurd (.inl code) unknown
      | collinear => exact absurd (.inr (.inl code)) unknown
      | nonCollinear => exact absurd (.inr (.inr code)) unknown

theorem walker_check (m : Metadata) : (reporting m.walker).map (fun _ => ()) = m.walkerCheck := by
  unfold walkerCheck require
  split
  · rename_i known
    rcases known with code | code | code
    · rw [(walker_ok_iff m .closed).mpr ⟨by simp, code⟩]
      rfl
    · rw [(walker_ok_iff m .collinear).mpr ⟨by simp, code⟩]
      rfl
    · rw [(walker_ok_iff m .nonCollinear).mpr ⟨by simp, code⟩]
      rfl
  · rename_i unknown
    rw [unknown_walker unknown]
    rfl

theorem basis_check (m : Metadata) : (reporting m.basis).map (fun _ => ()) = m.basisCheck := by
  by_cases empty : m.orbitals = 0 <;> simp [basis, basisCheck, require, empty, Except.map]

section Pairs

variable [Build] {m : Metadata} {walker : WalkerType} {orbitals : Nat} (known : m.walker = .ok walker)
  (positive : m.basis = .ok orbitals)

include known positive

theorem pair_refused (spinOrbitals : m.walkerCode = 3) :
    walker.packedLength orbitals = .error (.reported (unsupportedWalkerType .nonCollinear "diag_two_rdm")) := by
  obtain ⟨_, code⟩ := (walker_ok_iff m walker).mp known
  obtain ⟨some, rfl⟩ := (basis_ok_iff m orbitals).mp positive
  have nonzero : m.orbitals ≠ 0 := by omega
  rw [spinOrbitals] at code
  cases walker with
  | nonCollinear => rw [WalkerType.packedLength, if_neg nonzero]; rfl
  | undefined => cases code
  | closed => cases code
  | collinear => cases code

theorem pair_size_check (recorded : m.walkerCode ≠ 3) :
    (walker.packedLength orbitals).map (fun _ => ()) = m.pairSizeCheck := by
  obtain ⟨defined, code⟩ := (walker_ok_iff m walker).mp known
  obtain ⟨some, rfl⟩ := (basis_ok_iff m orbitals).mp positive
  have kept : walker = .closed ∨ walker = .collinear := by
    cases walker with
    | undefined => exact absurd rfl defined
    | closed => exact .inl rfl
    | collinear => exact .inr rfl
    | nonCollinear => exact absurd code recorded
  by_cases refused : Build.overflow = .ends ∧ UInt64.size ≤ m.orbitals * (2 * m.orbitals - 1)
  · rw [packed_length_overflow kept some refused.1 refused.2, pairSizeCheck, if_pos refused]
    rfl
  · obtain ⟨length, held⟩ : ∃ length, walker.packedLength m.orbitals = .ok length := by
      cases build : Build.overflow with
      | wraps => exact packed_length_wraps kept some build
      | ends => exact ⟨_, packed_length_ok kept some (Nat.not_le.mp fun large => refused ⟨build, large⟩)⟩
    rw [held, pairSizeCheck, if_neg refused]
    rfl

end Pairs

end Metadata

def Selection.strideCheck (s : Selection) : Except Failure Unit :=
  require (s.stride ≠ 0) (invalidParameter .zeroStride)

section Observables

variable {R : Type} [Scalar R]

theorem average_blocks_quiet (blocks : List (Block R)) (name : String) (equilibration stride : Nat) :
    (averageBlocks blocks name equilibration stride).reads = [] := by
  by_cases zero : stride = 0
  · simp only [averageBlocks, if_pos zero]
    rfl
  · simp only [averageBlocks, if_neg zero]
    split
    · rfl
    · split <;> rfl

variable (m : Metadata) (series : String → Estimator → Option Nat → Except AnalysisError (List (Block R)))
  (name : String) (s : Selection)

theorem average_observable_unstrided (source : Source R) (zero : s.stride = 0) :
    averageObservable source name s = throw (.reported (invalidParameter .zeroStride)) := by
  simp only [averageObservable, if_pos zero]
  rfl

theorem average_observable_free (strided : s.stride ≠ 0) (free : m.freeProjection = true) :
    averageObservable ⟨.ok m, series⟩ name s =
      ⟨.ok none, [.metadataRead, .notice (.skippedFreeProjection name)]⟩ := by
  simp only [averageObservable, if_neg strided, Source.readMetadata]
  change (Run.bind ⟨.ok m, [.metadataRead]⟩ _) = _
  simp only [Run.bind, if_pos free]
  rfl

theorem average_observable_read (strided : s.stride ≠ 0) (projected : m.freeProjection = false) :
    averageObservable ⟨.ok m, series⟩ name s =
      Run.recorded .metadataRead (.ok m) >>= fun _ =>
        Run.recorded (.seriesRead name s.estimator s.path) (series name s.estimator s.path) >>= fun blocks =>
          averageBlocks blocks name s.equilibration s.stride >>= fun average => pure (some average) := by
  simp only [averageObservable, if_neg strided, Source.readMetadata]
  change (Run.bind ⟨.ok m, [.metadataRead]⟩ _) = Run.bind ⟨.ok m, [.metadataRead]⟩ _
  simp only [Run.bind, projected]
  rfl

theorem average_observable_skips : (averageObservable ⟨.ok m, series⟩ name s).Returns none ↔
    s.stride ≠ 0 ∧ m.freeProjection = true := by
  by_cases zero : s.stride = 0
  · rw [average_observable_unstrided name s _ zero]
    exact iff_of_false (Run.throw_returns _ _) fun both => both.1 zero
  · cases free : m.freeProjection with
    | true =>
        rw [average_observable_free m series name s zero free]
        exact iff_of_true rfl ⟨zero, rfl⟩
    | false =>
        rw [average_observable_read m series name s zero free]
        refine iff_of_false ?_ (by simp)
        simp only [Run.bind_returns, Run.pure_returns]
        rintro ⟨_, _, _, _, _, _, ⟨⟩⟩

theorem average_observable_reads : (averageObservable ⟨.ok m, series⟩ name s).reads =
    if s.stride ≠ 0 ∧ m.freeProjection = false then [s.read name] else [] := by
  by_cases zero : s.stride = 0
  · rw [average_observable_unstrided name s _ zero, if_neg fun both => both.1 zero]
    rfl
  · cases free : m.freeProjection with
    | true =>
        rw [average_observable_free m series name s zero free, if_neg (by simp)]
        rfl
    | false =>
        have quiet (blocks : List (Block R)) :
            (averageBlocks blocks name s.equilibration s.stride >>= fun average => pure (some average)).reads = [] := by
          rw [Run.bind_reads_quiet _ fun _ => rfl, average_blocks_quiet]
        have read : (Run.recorded .metadataRead (.ok m)).Returns m := rfl
        rw [average_observable_read m series name s zero free, if_pos ⟨zero, rfl⟩, Run.bind_reads_returned _ read,
          Run.bind_reads_quiet _ quiet]
        rfl

theorem average_observable_silent (skipped : (averageObservable ⟨.ok m, series⟩ name s).Returns none) :
    (averageObservable ⟨.ok m, series⟩ name s).reads = [] := by
  have free := ((average_observable_skips m series name s).mp skipped).2
  rw [average_observable_reads, if_neg]
  simp [free]

theorem require_average_reads (delivers : String → Prop) :
    ReadsInOrder (firstError [s.strideCheck, m.projectionCheck name]) delivers s [name]
      (requireAverage ⟨.ok m, series⟩ name s) := by
  have reads : (requireAverage ⟨.ok m, series⟩ name s).reads = (averageObservable ⟨.ok m, series⟩ name s).reads := by
    apply Run.bind_reads_quiet
    rintro (_ | average) <;> rfl
  rw [average_observable_reads] at reads
  by_cases zero : s.stride = 0
  · have refusal : firstError [s.strideCheck, m.projectionCheck name] =
        some (.reported (invalidParameter .zeroStride)) := by
      simp [firstError, Selection.strideCheck, require, zero]
    rw [refusal]
    refine ReadsInOrder.of_refused ?_ (reads.trans (if_neg fun both => both.1 zero))
    rw [requireAverage, average_observable_unstrided name s _ zero]
    rfl
  · cases free : m.freeProjection with
    | true =>
        have refusal : firstError [s.strideCheck, m.projectionCheck name] =
            some (.reported (unsupportedMode s!"free projection error analysis for {name}")) := by
          simp [firstError, Selection.strideCheck, Metadata.projectionCheck, require, zero, free]
        rw [refusal]
        refine ReadsInOrder.of_refused ?_ (reads.trans (if_neg (by simp [free])))
        rw [requireAverage, average_observable_free m series name s zero free]
        rfl
    | false =>
        have refusal : firstError [s.strideCheck, m.projectionCheck name] = none := by
          simp [firstError, Selection.strideCheck, Metadata.projectionCheck, require, zero, free]
        rw [refusal]
        exact ReadsInOrder.of_last (reads.trans (if_pos ⟨zero, free⟩)) fun more => absurd rfl more

def tensorChecks : List (Except Failure Unit) :=
  [m.walkerCheck, m.basisCheck, s.strideCheck, m.projectionCheck name]

theorem tensor_checks_none : firstError (tensorChecks m name s) = none ↔
    m.walkerCheck = .ok () ∧ m.orbitals ≠ 0 ∧ s.stride ≠ 0 ∧ m.freeProjection = false := by
  simp only [tensorChecks, first_error_none, Metadata.basisCheck, Selection.strideCheck, Metadata.projectionCheck,
    require_ok, firstError, and_true]

variable [Build]

theorem average_tensor_reads (delivers : String → Prop) :
    ReadsInOrder (firstError (tensorChecks m name s)) delivers s [name] (averageTensor ⟨.ok m, series⟩ name s) := by
  refine ReadsInOrder.after_record (.check_first m.walker_check fun walker _ =>
    .check_first m.basis_check fun orbitals _ => ?_)
  refine (require_average_reads m series name s delivers).then_quiet fun average => ?_
  exact Run.bind_reads_quiet _ fun _ => rfl

def pairChecks : List (Except Failure Unit) :=
  [m.walkerCheck, m.basisCheck, m.pairCheck, m.pairSizeCheck, s.strideCheck, m.projectionCheck "diag_two_rdm"]

theorem average_pair_density_reads (delivers : String → Prop) :
    ReadsInOrder (firstError (pairChecks m s)) delivers s ["diag_two_rdm"]
      (averagePairDensity ⟨.ok m, series⟩ s) := by
  refine ReadsInOrder.after_record (.check_first m.walker_check fun walker known =>
    .check_first m.basis_check fun orbitals positive => ?_)
  rw [reporting_ok_iff] at known positive
  rw [discard, map_const, Function.comp_apply, bind_map_left]
  by_cases spinOrbitals : m.walkerCode = 3
  · have refusal : m.pairCheck = .error (.reported (unsupportedWalkerType .nonCollinear "diag_two_rdm")) :=
      if_neg (not_not_intro spinOrbitals)
    rw [refusal, Metadata.pair_refused known positive spinOrbitals]
    exact ReadsInOrder.of_refused rfl rfl
  · have passed : m.pairCheck = .ok () := if_pos spinOrbitals
    rw [passed]
    change ReadsInOrder (firstError [m.pairSizeCheck, s.strideCheck, m.projectionCheck "diag_two_rdm"]) _ _ _ _
    refine .check_first (Metadata.pair_size_check known positive spinOrbitals) fun _ _ => ?_
    exact (require_average_reads m series "diag_two_rdm" s delivers).then_quiet fun average => rfl

-- The series of a name is there, has an average, and the average has the layout of the walkers.
def Delivers (name : String) : Prop :=
  ∃ blocks average walker tensor, series name s.estimator s.path = .ok blocks ∧
    (averageBlocks blocks name s.equilibration s.stride).Returns average ∧ m.walker = .ok walker ∧
    average.toTensor walker m.orbitals name = .ok tensor

theorem average_tensor_delivers (able : firstError (tensorChecks m name s) = none) :
    (∃ t, (averageTensor ⟨.ok m, series⟩ name s).Returns t) ↔ Delivers m series s name := by
  obtain ⟨_, some, _, projected⟩ := (tensor_checks_none m name s).mp able
  have basis : m.basis = .ok m.orbitals := (basis_ok_iff m _).mpr ⟨by omega, rfl⟩
  simp only [averageTensor, Run.bind_returns, Source.readMetadata, Run.recorded_returns, Run.lift_returns,
    reporting_ok_iff, Run.pure_returns, require_average_returns, average_observable_returns, Except.ok.injEq]
  constructor
  · rintro ⟨_, _, rfl, walker, known, orbitals, sized, average, ⟨_, blocks, rfl, _, held, averaged⟩, tensor, shaped, _⟩
    cases Except.ok.inj (basis.symm.trans sized)
    exact ⟨blocks, average, walker, tensor, held, averaged, known, shaped⟩
  · rintro ⟨blocks, average, walker, tensor, held, averaged, known, shaped⟩
    exact ⟨(walker, tensor), m, rfl, walker, known, m.orbitals, basis, average,
      ⟨m, blocks, rfl, projected, held, averaged⟩, tensor, shaped, rfl⟩

namespace TensorObservable

theorem average_reads (observable : TensorObservable) (delivers : String → Prop) :
    ReadsInOrder (firstError (tensorChecks m observable.name s)) delivers s [observable.name]
      (observable.average ⟨.ok m, series⟩ s) := by
  cases observable with
  | density => exact (average_tensor_reads m series "one_rdm" s delivers).then_quiet fun _ => rfl
  | fock sign =>
      have named : sign.observable = (fock sign).name := by cases sign <;> rfl
      rw [← named]
      refine (average_tensor_reads m series sign.observable s delivers).then_quiet fun held => ?_
      obtain ⟨walker, tensor⟩ := held
      cases walker <;> rfl

theorem average_delivers (observable : TensorObservable)
    (able : firstError (tensorChecks m observable.name s) = none) :
    (∃ t, (observable.average ⟨.ok m, series⟩ s).Returns t) ↔ Delivers m series s observable.name := by
  rw [← average_tensor_delivers m series _ s able]
  simp only [average_returns]
  constructor
  · rintro ⟨_, walker, raw, returned, _⟩
    exact ⟨(walker, raw), returned⟩
  · rintro ⟨⟨walker, raw⟩, returned⟩
    exact ⟨_, walker, raw, returned, rfl⟩

end TensorObservable

end Observables

end OrbitalSpectra
