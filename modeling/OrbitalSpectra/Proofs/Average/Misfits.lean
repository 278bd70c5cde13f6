import OrbitalSpectra.Proofs.Average.PairDensityLaw
import OrbitalSpectra.Proofs.Average.Reads
import OrbitalSpectra.Proofs.Avoidance

set_option autoImplicit false

namespace OrbitalSpectra

open AnalysisError

variable {α β R : Type}

def AnalysisError.Mismatch : AnalysisError → Prop
  | shapeMismatch _ _ _ => True
  | _ => False

-- A failure that should not be: a fault, a size too large for a word, no room for a list that fits, or a
-- mismatch without a reason.
def Failure.Unexplained (samples : Nat) (reason : String → Nat → Nat → Prop) : Failure → Prop
  | fault => True
  | overflow => True
  | capacity => samples < 2 ^ 58
  | reported (shapeMismatch name expected found) => ¬ reason name expected found
  | reported _ => False

theorem except_bind_error_iff {ε : Type} (x : Except ε α) (f : α → Except ε β) (e : ε) :
    (x >>= f) = .error e ↔ x = .error e ∨ ∃ a, x = .ok a ∧ f a = .error e := by
  cases x with
  | error other => simp [Bind.bind, Except.bind]
  | ok a => simp [Bind.bind, Except.bind]

section Explained

variable {samples : Nat} {reason : String → Nat → Nat → Prop}

theorem reporting_explained {x : Except AnalysisError α} (matching : Avoids AnalysisError.Mismatch x) :
    Avoids (Failure.Unexplained samples reason) (reporting x) := by
  rintro _ failed
  cases x with
  | ok a => cases failed
  | error e =>
      cases failed
      have other := matching e rfl
      cases e with
      | shapeMismatch name expected found => exact absurd trivial other
      | _ => exact id

theorem walker_matches (m : Metadata) : Avoids AnalysisError.Mismatch m.walker := by
  intro e failed
  have check := m.walker_check
  rw [failed, Metadata.walkerCheck, require] at check
  split at check
  · cases check
  · cases check
    exact id

theorem basis_matches (m : Metadata) : Avoids AnalysisError.Mismatch m.basis := by
  unfold Metadata.basis
  split
  · exact error_avoids id
  · exact ok_avoids _

variable [Build] {walker : WalkerType} {orbitals : Nat} (positive : 1 ≤ orbitals)
  (pairs : orbitals * (2 * orbitals - 1) < UInt64.size)

include positive pairs

theorem packed_length_explained : Avoids (Failure.Unexplained samples reason) (walker.packedLength orbitals) := by
  have nonzero : orbitals ≠ 0 := by omega
  cases walker with
  | closed => exact packed_length_ok (.inl rfl) positive pairs ▸ ok_avoids _
  | collinear => exact packed_length_ok (.inr rfl) positive pairs ▸ ok_avoids _
  | nonCollinear =>
      rw [WalkerType.packedLength, if_neg nonzero]
      exact error_avoids id
  | undefined =>
      rw [WalkerType.packedLength, if_neg nonzero]
      exact error_avoids id

theorem packed_length_start {length : Nat} (fits : walker.packedLength orbitals = .ok length) :
    (walker = .closed ∨ walker = .collinear) ∧
      length = packedStart (2 * orbitals) (walker.recordedRows orbitals) := by
  have nonzero : orbitals ≠ 0 := by omega
  have recorded : walker = .closed ∨ walker = .collinear := by
    cases walker with
    | closed => exact .inl rfl
    | collinear => exact .inr rfl
    | nonCollinear => rw [WalkerType.packedLength, if_neg nonzero] at fits; cases fits
    | undefined => rw [WalkerType.packedLength, if_neg nonzero] at fits; cases fits
  rw [packed_length_ok recorded positive pairs] at fits
  exact ⟨recorded, (Except.ok.inj fits).symm⟩

end Explained

-- The sectors of a run have no more entries than a matrix over its spin orbitals.
theorem layout_length_fits {orbitals : Nat} (walker : WalkerType) (fits : (2 * orbitals) ^ 2 < UInt64.size) :
    walker.layoutLength orbitals < UInt64.size := by
  have less : walker.layoutLength orbitals ≤ (2 * orbitals) ^ 2 := by
    cases walker <;> simp only [WalkerType.layoutLength] <;> nlinarith
  exact less.trans_lt fits

variable [Scalar R]

theorem average_blocks_error {blocks : List (Block R)} {name : String} {equilibration stride : Nat} {e : Failure}
    (failed : (averageBlocks blocks name equilibration stride).outcome = .error e) :
    e = .reported (invalidParameter .zeroStride) ∨ e = .reported (emptySample name blocks.length equilibration) ∨
      ∃ expected found, e = .reported (shapeMismatch name expected found) ∧ expected ≠ found := by
  by_cases zero : stride = 0
  · simp only [averageBlocks, if_pos zero] at failed
    cases failed
    exact .inl rfl
  · simp only [averageBlocks, if_neg zero] at failed
    split at failed
    · cases failed
      exact .inr (.inl rfl)
    · split at failed
      · rename_i first _ _ _ bad odd
        cases failed
        have differs : bad.size ≠ first.size := by simpa using List.find?_some odd
        exact .inr (.inr ⟨first.size, bad.size, rfl, differs.symm⟩)
      · cases failed

-- The errors are as many as the means, so the means are what does not fit a layout.
theorem to_tensor_error [Build] {average : BlockAverage R} {walker : WalkerType} {orbitals : Nat} {name : String}
    {e : Failure} (defined : walker ≠ .undefined) (fits : walker.layoutLength orbitals < UInt64.size)
    (positive : 1 ≤ orbitals) (paired : average.error.size = average.mean.size)
    (failed : average.toTensor walker orbitals name = .error e) :
    ∃ count dim expected found, walker.sectorLayout orbitals = .ok (count, dim) ∧
      e = .reported (shapeMismatch name expected found) ∧ expected ≠ found ∧
      SpinTensor.ofRowMajor average.mean count dim name = .error (.reported (shapeMismatch name expected found)) := by
  obtain ⟨count, dim, laid, _, length⟩ := sector_layout_fits defined fits positive
  have several := (sector_layout_few laid).1
  rw [← length] at fits
  rw [BlockAverage.toTensor, laid] at failed
  change (SpinTensor.ofRowMajor average.mean count dim name >>= _) = _ at failed
  rcases (except_bind_error_iff _ _ _).mp failed with shaped | ⟨mean, shaped, rest⟩
  · obtain ⟨rfl, differs⟩ := SpinTensor.of_row_major_error several fits shaped
    exact ⟨count, dim, _, _, laid, rfl, differs.symm, shaped⟩
  · rcases (except_bind_error_iff _ _ _).mp rest with errors | ⟨_, _, ⟨⟩⟩
    obtain ⟨_, differs⟩ := SpinTensor.of_row_major_error several fits errors
    exact absurd (paired.trans (SpinTensor.of_row_major_fits several fits shaped)) differs

theorem average_blocks_sizes {blocks : List (Block R)} {name : String} {equilibration stride : Nat}
    {average : BlockAverage R} (averaged : (averageBlocks blocks name equilibration stride).Returns average) :
    average.error.size = average.mean.size ∧
      ∀ b ∈ window equilibration stride blocks, b.size = average.mean.size := by
  obtain ⟨_, _, length, same, rfl⟩ := (average_blocks_returns _ _ _ _ _).mp averaged
  simpa [averageWindow] using same

variable [Build]

-- A mismatch of the data of an observable, by the step that reports it.
inductive Misfit (m : Metadata) (series : String → Estimator → Option Nat → Except AnalysisError (List (Block R)))
    (s : Selection) (name : String) (expected found : Nat) : Prop
  | lengths (blocks : List (Block R)) (held : series name s.estimator s.path = .ok blocks)
      (reported : (averageBlocks blocks name s.equilibration s.stride).outcome =
        .error (.reported (shapeMismatch name expected found)))
  | layout (blocks : List (Block R)) (average : BlockAverage R) (walker : WalkerType) (count dim : Nat)
      (held : series name s.estimator s.path = .ok blocks)
      (averaged : (averageBlocks blocks name s.equilibration s.stride).Returns average)
      (known : m.walker = .ok walker) (laid : walker.sectorLayout m.orbitals = .ok (count, dim))
      (reported : SpinTensor.ofRowMajor average.mean count dim name =
        .error (.reported (shapeMismatch name expected found)))
  | triangle (blocks : List (Block R)) (average : BlockAverage R) (walker : WalkerType)
      (held : series name s.estimator s.path = .ok blocks)
      (averaged : (averageBlocks blocks name s.equilibration s.stride).Returns average)
      (known : m.walker = .ok walker)
      (reported : average.unpackPairDensity walker m.orbitals = .error (.reported (shapeMismatch name expected found)))

def Explained (m : Metadata) (series : String → Estimator → Option Nat → Except AnalysisError (List (Block R)))
    (s : Selection) (names : List String) (name : String) (expected found : Nat) : Prop :=
  name ∈ names ∧ expected ≠ found ∧ Misfit m series s name expected found

section Averages

variable {m : Metadata} {series : String → Estimator → Option Nat → Except AnalysisError (List (Block R))}
  (own : ∀ name estimator path, Avoids AnalysisError.Mismatch (series name estimator path)) (s : Selection)
  (names : List String) (samples : Nat) {name : String} (listed : name ∈ names)

include own listed

theorem average_observable_explained :
    Avoids (Failure.Unexplained samples (Explained m series s names))
      (averageObservable ⟨.ok m, series⟩ name s).outcome := by
  by_cases zero : s.stride = 0
  · rw [average_observable_unstrided name s _ zero]
    exact error_avoids id
  · cases free : m.freeProjection with
    | true =>
        rw [average_observable_free m series name s zero free]
        exact ok_avoids none
    | false =>
        rw [average_observable_read m series name s zero free]
        refine bind_outcome_avoids_known (ok_avoids m) fun _ _ =>
          bind_outcome_avoids_known (reporting_explained (own _ _ _)) fun blocks read =>
          bind_outcome_avoids_known ?_ fun average _ => ok_avoids _
        have held : series name s.estimator s.path = .ok blocks := (reporting_ok_iff _ _).mp read
        intro e failed
        rcases average_blocks_error failed with rfl | rfl | ⟨expected, found, rfl, differs⟩
        · exact id
        · exact id
        · exact fun unexplained => unexplained ⟨listed, differs, .lengths blocks held failed⟩

theorem require_average_explained :
    Avoids (Failure.Unexplained samples (Explained m series s names))
      (requireAverage ⟨.ok m, series⟩ name s).outcome := by
  refine bind_outcome_avoids_known (average_observable_explained own s names samples listed) fun held _ => ?_
  cases held with
  | none => exact error_avoids id
  | some average => exact ok_avoids average

omit own listed [Build] in
theorem required_average {average : BlockAverage R} (returned : (requireAverage ⟨.ok m, series⟩ name s).Returns average) :
    ∃ blocks, series name s.estimator s.path = .ok blocks ∧
      (averageBlocks blocks name s.equilibration s.stride).Returns average := by
  obtain ⟨_, blocks, _, _, held, averaged⟩ :=
    (average_observable_returns _ _ _ _).mp ((require_average_returns _ _ _ _).mp returned)
  exact ⟨blocks, held, averaged⟩

variable (fits : (2 * m.orbitals) ^ 2 < UInt64.size)

include fits

theorem average_tensor_explained :
    Avoids (Failure.Unexplained samples (Explained m series s names)) (averageTensor ⟨.ok m, series⟩ name s).outcome := by
  refine bind_outcome_avoids_known (ok_avoids m) fun metadata read => ?_
  cases read
  refine bind_outcome_avoids_known (reporting_explained (walker_matches m)) fun walker known =>
    bind_outcome_avoids_known (reporting_explained (basis_matches m)) fun orbitals sized =>
    bind_outcome_avoids_known (require_average_explained own s names samples listed) fun average required =>
    bind_outcome_avoids_known ?_ fun tensor _ => ok_avoids _
  have known : m.walker = .ok walker := (reporting_ok_iff _ _).mp known
  have defined := ((walker_ok_iff m walker).mp known).1
  obtain ⟨positive, rfl⟩ := (basis_ok_iff m orbitals).mp ((reporting_ok_iff _ _).mp sized)
  obtain ⟨blocks, held, averaged⟩ := required_average s required
  intro e failed
  obtain ⟨count, dim, expected, found, laid, rfl, differs, reported⟩ :=
    to_tensor_error defined (layout_length_fits walker fits) positive (average_blocks_sizes averaged).1 failed
  exact fun unexplained => unexplained ⟨listed, differs,
    .layout blocks average walker count dim held averaged known laid reported⟩

theorem average_explained (observable : TensorObservable) (named : observable.name = name) :
    Avoids (Failure.Unexplained samples (Explained m series s names)) (observable.average ⟨.ok m, series⟩ s).outcome := by
  have tensor := average_tensor_explained (m := m) own s names samples listed fits
  subst named
  cases observable with
  | density => exact bind_outcome_avoids_known tensor fun _ _ => ok_avoids _
  | fock sign =>
      have same : sign.observable = (TensorObservable.fock sign).name := by cases sign <;> decide
      rw [← same] at tensor
      refine bind_outcome_avoids_known tensor fun held _ => ?_
      obtain ⟨walker, raw⟩ := held
      cases walker <;> exact ok_avoids _

theorem average_pair_density_explained (named : name = "diag_two_rdm") :
    Avoids (Failure.Unexplained samples (Explained m series s names)) (averagePairDensity ⟨.ok m, series⟩ s).outcome := by
  subst named
  refine bind_outcome_avoids_known (ok_avoids m) fun metadata read => ?_
  cases read
  refine bind_outcome_avoids_known (reporting_explained (walker_matches m)) fun walker known =>
    bind_outcome_avoids_known (reporting_explained (basis_matches m)) fun orbitals sized => ?_
  have known : m.walker = .ok walker := (reporting_ok_iff _ _).mp known
  obtain ⟨positive, rfl⟩ := (basis_ok_iff m orbitals).mp ((reporting_ok_iff _ _).mp sized)
  rw [discard, map_const, Function.comp_apply, bind_map_left]
  have pairs := pairs_fit fits
  refine bind_outcome_avoids_known (packed_length_explained positive pairs) fun length packed =>
    bind_outcome_avoids_known (require_average_explained own s names samples listed) fun average required => ?_
  have packed : walker.packedLength m.orbitals = .ok length := packed
  obtain ⟨blocks, held, averaged⟩ := required_average s required
  obtain ⟨recorded, start⟩ := packed_length_start positive pairs packed
  intro e failed
  change average.unpackPairDensity walker m.orbitals = .error e at failed
  by_cases complete : average.mean.size = length
  · obtain ⟨result, returned⟩ := (unpack_pair_density_iff recorded positive pairs
      (average_blocks_sizes averaged).1.symm).mpr (complete.trans start)
    cases failed.symm.trans returned
  · have reported : average.unpackPairDensity walker m.orbitals =
        .error (.reported (shapeMismatch "diag_two_rdm" length average.mean.size)) := by
      simp only [BlockAverage.unpackPairDensity, packed]
      exact if_pos complete
    cases failed.symm.trans reported
    exact fun unexplained => unexplained ⟨listed, Ne.symm complete,
      .triangle blocks average walker held averaged known reported⟩

end Averages

end OrbitalSpectra
