import OrbitalSpectra.Koopmans
import OrbitalSpectra.Proofs.Average.Reading

set_option autoImplicit false

namespace OrbitalSpectra

open AnalysisError

variable {ε α β R : Type}

def Avoids (bad : ε → Prop) (x : Except ε α) : Prop := ∀ e, x = .error e → ¬ bad e

def AnalysisError.Unstable : AnalysisError → Prop
  | bootstrapUnstable _ _ => True
  | _ => False

def Failure.Unstable : Failure → Prop
  | reported e => e.Unstable
  | _ => False

section Rules

variable {bad : ε → Prop}

theorem ok_avoids (a : α) : Avoids bad (.ok a : Except ε α) := by
  intro e failed
  cases failed

theorem error_avoids {e : ε} (good : ¬ bad e) : Avoids bad (.error e : Except ε α) := by
  rintro _ ⟨⟩
  exact good

theorem bind_avoids_known {x : Except ε α} {f : α → Except ε β} (first : Avoids bad x)
    (rest : ∀ a, x = .ok a → Avoids bad (f a)) : Avoids bad (x >>= f) := by
  cases x with
  | error e => exact error_avoids (first e rfl)
  | ok a => exact rest a rfl

theorem bind_avoids {x : Except ε α} {f : α → Except ε β} (first : Avoids bad x) (rest : ∀ a, Avoids bad (f a)) :
    Avoids bad (x >>= f) :=
  bind_avoids_known first fun a _ => rest a

theorem map_avoids_iff (x : Except ε α) (f : α → β) : Avoids bad (x.map f) ↔ Avoids bad x := by
  cases x <;> simp [Avoids, Except.map]

theorem map_m_avoids_known {ι : Type} {f : ι → Except ε α} {xs : List ι} (each : ∀ x ∈ xs, Avoids bad (f x)) :
    Avoids bad (xs.mapM f) := by
  induction xs with
  | nil => exact ok_avoids []
  | cons x rest ih =>
      rw [List.mapM_cons]
      exact bind_avoids (each x (by simp)) fun _ =>
        bind_avoids (ih fun y member => each y (List.mem_cons_of_mem x member)) fun _ => ok_avoids _

theorem map_m_avoids {ι : Type} {f : ι → Except ε α} (each : ∀ x, Avoids bad (f x)) (xs : List ι) :
    Avoids bad (xs.mapM f) :=
  map_m_avoids_known fun x _ => each x

theorem fold_m_avoids {ι : Type} {f : α → ι → Except ε α} (each : ∀ a x, Avoids bad (f a x)) (a : α) (xs : List ι) :
    Avoids bad (xs.foldlM f a) := by
  induction xs generalizing a with
  | nil => exact ok_avoids a
  | cons x rest ih =>
      rw [List.foldlM_cons]
      exact bind_avoids (each a x) ih

end Rules

theorem bind_outcome_avoids_known {bad : Failure → Prop} {x : Run α} {f : α → Run β} (first : Avoids bad x.outcome)
    (rest : ∀ a, x.Returns a → Avoids bad (f a).outcome) : Avoids bad (x >>= f).outcome := by
  rw [Run.bind_outcome]
  exact bind_avoids_known first rest

theorem bind_outcome_avoids {bad : Failure → Prop} {x : Run α} {f : α → Run β} (first : Avoids bad x.outcome)
    (rest : ∀ a, Avoids bad (f a).outcome) : Avoids bad (x >>= f).outcome :=
  bind_outcome_avoids_known first fun a _ => rest a

def BadReport (bad : Failure → Prop) (e : AnalysisError) : Prop := bad (.reported e)

theorem reporting_avoids {bad : Failure → Prop} {x : Except AnalysisError α}
    (avoids : Avoids (BadReport bad) x) : Avoids bad (reporting x) := by
  cases x with
  | error e => exact error_avoids (avoids e rfl)
  | ok a => exact ok_avoids a

-- Which failures are bad is a parameter. Those that data can lead to are not, so a bad one is given by the
-- source or comes from the check of a parameter.
class Tame (bad : Failure → Prop) : Prop where
  fault : ¬ bad .fault
  capacity : ¬ bad .capacity
  overflow : ¬ bad .overflow
  walker : ∀ code, ¬ bad (.reported (unrecognizedWalkerType code))
  mode : ∀ mode, ¬ bad (.reported (unsupportedMode mode))
  mismatch : ∀ name expected found, ¬ bad (.reported (shapeMismatch name expected found))
  sample : ∀ name blocks equilibration, ¬ bad (.reported (emptySample name blocks equilibration))
  draw : ∀ row col, ¬ bad (.reported (perturbation row col))

instance unstable_tame : Tame Failure.Unstable where
  fault := id
  capacity := id
  overflow := id
  walker _ := id
  mode _ := id
  mismatch _ _ _ := id
  sample _ _ _ := id
  draw _ _ := id

variable {bad : Failure → Prop} [Tame bad]

theorem fault_avoids : Avoids bad (.error .fault : Except Failure α) := error_avoids Tame.fault

theorem mismatch_avoids (name : String) (expected found : Nat) :
    Avoids (BadReport bad) (.error (shapeMismatch name expected found) : Except AnalysisError α) :=
  error_avoids (Tame.mismatch name expected found)

theorem or_fault_avoids (x : Option α) : Avoids bad (orFault x) := by
  cases x with
  | none => exact fault_avoids
  | some a => exact ok_avoids a

theorem room_avoids (count size : Nat) : Avoids bad (requireRoom count size) := by
  unfold requireRoom
  split
  · exact ok_avoids ()
  · exact error_avoids Tame.capacity

section Metadata

variable (m : Metadata) (w : WalkerType) (orbitals : Nat)

theorem walker_avoids : Avoids (BadReport bad) m.walker := by
  unfold Metadata.walker WalkerType.ofCode
  refine bind_avoids ?_ fun walker => ?_
  · split
    · exact ok_avoids _
    · exact error_avoids (Tame.walker _)
  · split
    · exact error_avoids (Tame.walker _)
    · exact ok_avoids _

variable [Build]

theorem to_size_avoids (n : Nat) : Avoids bad (toSize n) := by
  unfold toSize
  split
  · exact ok_avoids n
  · split
    · exact ok_avoids _
    · exact error_avoids Tame.overflow

theorem sector_layout_avoids : Avoids bad (w.sectorLayout orbitals) := by
  cases w with
  | undefined => exact error_avoids (Tame.walker _)
  | closed => exact ok_avoids _
  | collinear => exact ok_avoids _
  | nonCollinear => exact bind_avoids (to_size_avoids _) fun _ => ok_avoids _

omit [Build] in
theorem of_pieces_avoids (dim : Nat) (ps : List (List α)) : Avoids bad (SpinTensor.ofPieces dim ps) := by
  unfold SpinTensor.ofPieces
  split
  · exact ok_avoids _
  · exact fault_avoids

theorem layout_sizes_avoids (found sectors dim : Nat) : Avoids bad (SpinTensor.layoutSizes found sectors dim) := by
  unfold SpinTensor.layoutSizes
  split
  · exact ok_avoids _
  · exact bind_avoids (to_size_avoids _) fun _ => bind_avoids (to_size_avoids _) fun _ => ok_avoids _

theorem of_row_major_avoids (flat : Array α) (sectors dim : Nat) (name : String) :
    Avoids bad (SpinTensor.ofRowMajor flat sectors dim name) := by
  refine bind_avoids (layout_sizes_avoids _ _ _) fun sizes => ?_
  dsimp only
  split
  · exact error_avoids (Tame.mismatch _ _ _)
  · exact of_pieces_avoids _ _

end Metadata

variable [Scalar R]

structure Source.Steady (source : Source R) : Prop where
  metadata : Avoids AnalysisError.Unstable source.metadata
  series : ∀ name estimator path, Avoids AnalysisError.Unstable (source.series name estimator path)

-- Neither what the source reports nor the check of the stride is bad.
structure Source.Spares (source : Source R) (s : Selection) (bad : Failure → Prop) : Prop where
  metadata : Avoids (BadReport bad) source.metadata
  series : ∀ name estimator path, Avoids (BadReport bad) (source.series name estimator path)
  stride : s.stride = 0 → ¬ bad (.reported (invalidParameter .zeroStride))

-- Nor is the check of the basis, where a run comes to it.
structure Source.SparesTensors (source : Source R) (s : Selection) (bad : Failure → Prop) : Prop
    extends source.Spares s bad where
  basis : ∀ m walker, source.metadata = .ok m → m.walker = .ok walker → Avoids (BadReport bad) m.basis

omit [Scalar R] in
theorem Source.Steady.spares {source : Source R} (steady : source.Steady) (s : Selection) :
    source.SparesTensors s Failure.Unstable where
  metadata := steady.metadata
  series := steady.series
  stride _ := id
  basis m _ _ _ := by
    unfold Metadata.basis
    split
    · exact error_avoids id
    · exact ok_avoids _

theorem average_blocks_avoids (blocks : List (Block R)) (name : String) (equilibration : Nat) {stride : Nat}
    (strided : stride = 0 → ¬ bad (.reported (invalidParameter .zeroStride))) :
    Avoids bad (averageBlocks blocks name equilibration stride).outcome := by
  by_cases zero : stride = 0
  · simp only [averageBlocks, if_pos zero]
    exact error_avoids (strided zero)
  · simp only [averageBlocks, if_neg zero]
    split
    · exact error_avoids (Tame.sample _ _ _)
    · split
      · exact error_avoids (Tame.mismatch _ _ _)
      · exact ok_avoids _

section Averages

variable {source : Source R} {s : Selection} (name : String)

theorem average_observable_avoids (spares : source.Spares s bad) :
    Avoids bad (averageObservable source name s).outcome := by
  by_cases zero : s.stride = 0
  · simp only [averageObservable, if_pos zero]
    exact error_avoids (spares.stride zero)
  · simp only [averageObservable, if_neg zero]
    refine bind_outcome_avoids (reporting_avoids spares.metadata) fun metadata => ?_
    split
    · exact ok_avoids none
    · exact bind_outcome_avoids (reporting_avoids (spares.series _ _ _)) fun blocks =>
        bind_outcome_avoids (average_blocks_avoids _ _ _ spares.stride) fun average => ok_avoids _

theorem require_average_avoids (spares : source.Spares s bad) :
    Avoids bad (requireAverage source name s).outcome := by
  refine bind_outcome_avoids (average_observable_avoids name spares) fun held => ?_
  cases held with
  | none => exact error_avoids (Tame.mode _)
  | some average => exact ok_avoids average

variable [Build] (spares : source.SparesTensors s bad)

include spares

theorem average_tensor_avoids : Avoids bad (averageTensor source name s).outcome := by
  refine bind_outcome_avoids_known (reporting_avoids spares.metadata) fun metadata read =>
    bind_outcome_avoids_known (reporting_avoids (walker_avoids metadata)) fun walker known =>
    bind_outcome_avoids (reporting_avoids ?_) fun orbitals =>
    bind_outcome_avoids (require_average_avoids name spares.toSpares) fun average =>
    bind_outcome_avoids ?_ fun tensor => ok_avoids _
  · exact spares.basis metadata walker ((reporting_ok_iff _ _).mp read) ((reporting_ok_iff _ _).mp known)
  · exact bind_avoids (sector_layout_avoids walker orbitals) fun layout =>
      bind_avoids (of_row_major_avoids _ _ _ _) fun mean => bind_avoids (of_row_major_avoids _ _ _ _) fun error =>
      ok_avoids _

theorem average_density_avoids : Avoids bad (averageDensity source s).outcome :=
  bind_outcome_avoids (average_tensor_avoids densitySeries spares) fun _ => ok_avoids _

theorem average_fock_avoids (sign : FockSign) : Avoids bad (averageFock source sign s).outcome := by
  refine bind_outcome_avoids (average_tensor_avoids sign.observable spares) fun held => ?_
  obtain ⟨walker, tensor⟩ := held
  cases walker <;> exact ok_avoids _

end Averages

theorem hermitian_part_avoids (m : Mat (Cplx R)) : Avoids bad (hermitianPart m) :=
  bind_avoids (or_fault_avoids _) fun _ => ok_avoids _

theorem symmetric_part_avoids (m : Mat R) : Avoids bad (symmetricPart m) :=
  bind_avoids (or_fault_avoids _) fun _ => ok_avoids _

section Screening

variable (factor : R)

theorem screen_matrix_avoids (m : Mat (Cplx R)) (error : Mat R) :
    Avoids (BadReport bad) (screenMatrix m error factor) := by
  unfold screenMatrix
  split
  · exact ok_avoids _
  · exact mismatch_avoids _ _ _

theorem screen_sectors_avoids (ms : List (Mat (Cplx R))) (errors : List (Mat R)) :
    Avoids (BadReport bad) (screenSectors factor ms errors).2 := by
  fun_induction screenSectors factor ms errors with
  | case1 m ms error errors failure failed =>
      exact error_avoids (screen_matrix_avoids factor m error failure failed)
  | case2 m ms error errors screened kept ok rest count eq ih =>
      rw [eq] at ih
      exact (map_avoids_iff _ _).mpr ih
  | case3 ms => exact ok_avoids 0

theorem screen_tensor_avoids (t : SpinTensor (Cplx R)) (error : SpinTensor R) :
    Avoids (BadReport bad) (screenTensor t error factor).2 := by
  unfold screenTensor
  split
  · exact mismatch_avoids _ _ _
  · exact screen_sectors_avoids factor _ _

theorem screened_avoids (t : TensorAverage R) : Avoids (BadReport bad) (t.screened factor) :=
  (map_avoids_iff _ _).mpr (screen_tensor_avoids factor t.mean t.error)

end Screening

theorem sector_averages_avoids (density removal addition : TensorAverage R) :
    Avoids bad (sectorAverages density removal addition) :=
  map_m_avoids (fun _ => bind_avoids (or_fault_avoids _) fun _ => bind_avoids (hermitian_part_avoids _) fun _ =>
    bind_avoids (or_fault_avoids _) fun _ => bind_avoids (or_fault_avoids _) fun _ =>
    bind_avoids (or_fault_avoids _) fun _ => bind_avoids (or_fault_avoids _) fun _ =>
    bind_avoids (or_fault_avoids _) fun _ => ok_avoids _) _

section Solver

variable (solver : EigenSolver R)

theorem eigh_avoids (m : Mat (Cplx R)) : Avoids (BadReport bad) (eigh solver m) := by
  unfold eigh
  split
  · exact mismatch_avoids _ _ _
  · exact ok_avoids _

theorem eigenvalues_avoids (m : Mat (Cplx R)) : Avoids (BadReport bad) (eigenvalues solver m) :=
  (map_avoids_iff _ _).mpr (eigh_avoids solver m)

theorem regularise_avoids (m : Mat (Cplx R)) (cutoff : R) : Avoids bad (regularise solver m cutoff) :=
  bind_avoids (reporting_avoids (eigh_avoids solver m)) fun _ => bind_avoids (or_fault_avoids _) fun _ => ok_avoids _

theorem projected_energies_avoids (gamma fock : Mat (Cplx R)) (cutoff : R) :
    Avoids bad (projectedEnergies solver gamma fock cutoff) := by
  refine bind_avoids (reporting_avoids ?_) fun _ => bind_avoids (regularise_avoids solver gamma cutoff) fun r =>
    bind_avoids (or_fault_avoids _) fun _ => bind_avoids (or_fault_avoids _) fun _ =>
    reporting_avoids (eigenvalues_avoids solver _)
  unfold requireSameShape
  split
  · exact ok_avoids ()
  · exact mismatch_avoids _ _ _

theorem attachment_energies_avoids (p fock : Mat (Cplx R)) (cutoff : R) :
    Avoids bad (attachmentEnergies solver p fock cutoff) :=
  bind_avoids (or_fault_avoids _) fun hole => projected_energies_avoids solver hole fock cutoff

end Solver

theorem sum_sectors_avoids (ms : List (Mat (Cplx R))) : Avoids bad (sumSectors ms) := by
  cases ms with
  | nil => exact fault_avoids
  | cons first rest => exact fold_m_avoids (fun _ _ => or_fault_avoids _) first rest

theorem spin_summed_error_avoids (error : SpinTensor R) : Avoids bad (spinSummedError error) := by
  unfold spinSummedError
  split
  · exact or_fault_avoids _
  · exact ok_avoids _
  · exact fault_avoids

theorem spin_summed_avoids (p : SpinTensor (Cplx R)) (error : SpinTensor R) :
    Avoids bad (spinSummed p error) := by
  by_cases odd : p.count = 0 ∨ p.shape ≠ error.shape
  · simp only [spinSummed, if_pos odd]
    exact error_avoids (Tame.mismatch _ _ _)
  · simp only [spinSummed, if_neg odd]
    exact bind_avoids (sum_sectors_avoids _) fun _ => bind_avoids (spin_summed_error_avoids _) fun _ =>
      bind_avoids (hermitian_part_avoids _) fun _ => bind_avoids (symmetric_part_avoids _) fun _ => ok_avoids _

end OrbitalSpectra
