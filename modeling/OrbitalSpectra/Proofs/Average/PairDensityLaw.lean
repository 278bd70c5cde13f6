import OrbitalSpectra.Proofs.Average.Triangle
import OrbitalSpectra.Proofs.Exact.Matrix

set_option autoImplicit false

namespace OrbitalSpectra

section Entries

variable {α β : Type} [Zero α] [Zero β]

def recordedEntry (packed : Nat → α) (rows dim i j : Nat) : α :=
  if i < rows ∧ i < j then packed (packedIndex dim i j) else 0

-- The upper triangle over all spin orbitals from the recorded numbers at their positions.
def triangleEntry (walker : WalkerType) (orbitals : Nat) (packed : Nat → α) (i j : Nat) : α :=
  match walker with
  | .closed =>
    if orbitals ≤ i ∧ orbitals ≤ j then
      recordedEntry packed orbitals (2 * orbitals) (i - orbitals) (j - orbitals)
    else recordedEntry packed orbitals (2 * orbitals) i j
  | _ => recordedEntry packed (2 * orbitals) (2 * orbitals) i j

theorem unpack_triangle_get {packed : Array α} {rows dim : Nat} {m : Mat α}
    (ok : unpackTriangle packed rows dim = .ok m) :
    m.shape = (dim, dim) ∧ ∀ i j, i < dim → j < dim →
      m.get? i j = if i < rows ∧ i < j then packed[packedIndex dim i j]? else some 0 := by
  refine ⟨fill_places_shape ok, fun i j row col => ?_⟩
  by_cases recorded : i < rows ∧ i < j
  · rw [if_pos recorded, fill_places_get ok (triangle_places_nodup rows dim)
      (triangle_place recorded.1 recorded.2 col), Nat.zero_add]
  · have apart : (i, j) ∉ trianglePlaces rows dim := fun listed =>
      recorded ((mem_triangle_places_iff rows dim i j).mp listed |>.imp_right And.left)
    rw [if_neg recorded, fill_places_other ok apart, Mat.zeros, Mat.get_of_fn, if_pos ⟨row, col⟩]

theorem unpack_triangle_ok {packed : Array α} {rows dim : Nat} (enough : packedStart dim rows ≤ packed.size) :
    unpackTriangle packed rows dim = .ok (Mat.ofFn dim dim (recordedEntry (fun k => packed.getD k 0) rows dim)) := by
  have inside : ∀ p ∈ trianglePlaces rows dim, p.1 < dim ∧ p.2 < dim := by
    rintro ⟨i, j⟩ listed
    obtain ⟨_, upper, col⟩ := (mem_triangle_places_iff rows dim i j).mp listed
    exact ⟨upper.trans col, col⟩
  obtain ⟨m, filled⟩ : ∃ m, fillPlaces packed (trianglePlaces rows dim) 0 (Mat.zeros dim dim) = .ok m :=
    fill_places_defined inside (by rw [triangle_places_length]; omega)
  obtain ⟨shape, entries⟩ := unpack_triangle_get filled
  obtain ⟨height, width⟩ := Prod.mk.inj shape
  rw [unpackTriangle, filled, Except.ok.injEq]
  refine Mat.ext height width fun i j row col => ?_
  have row : i < dim := height ▸ row
  have col : j < dim := width ▸ col
  rw [entries i j row col, Mat.get_of_fn, if_pos (And.intro row col), recordedEntry]
  by_cases recorded : i < rows ∧ i < j
  · have position : packedIndex dim i j < packed.size :=
      (packed_index_inside recorded.1 recorded.2 col).trans_le enough
    simp [recorded, position]
  · rw [if_neg recorded, if_neg recorded]

theorem repeat_block_of_fn (n dim : Nat) (f : Nat → Nat → α) :
    repeatBlock n (Mat.ofFn dim dim f) =
      Mat.ofFn dim dim fun i j => if n ≤ i ∧ n ≤ j then f (i - n) (j - n) else f i j := by
  apply Mat.of_fn_congr
  intro i j row col
  rw [Mat.ofFn_rows] at row
  rw [Mat.ofFn_cols] at col
  rw [Mat.entry_ofFn f row col, Mat.entry_ofFn f (Nat.lt_of_le_of_lt (Nat.sub_le i n) row)
    (Nat.lt_of_le_of_lt (Nat.sub_le j n) col)]

theorem spin_orbital_triangle_ok {walker : WalkerType} {orbitals : Nat} {packed : Array α}
    (enough : packedStart (2 * orbitals) (walker.recordedRows orbitals) ≤ packed.size) :
    spinOrbitalTriangle walker orbitals packed =
      .ok (Mat.ofFn (2 * orbitals) (2 * orbitals) (triangleEntry walker orbitals fun k => packed.getD k 0)) := by
  cases walker with
  | closed =>
      have triangle : unpackTriangle packed orbitals (2 * orbitals) = _ := unpack_triangle_ok enough
      rw [spinOrbitalTriangle, triangle]
      exact congrArg Except.ok (repeat_block_of_fn orbitals (2 * orbitals) _)
  | undefined => exact unpack_triangle_ok enough
  | collinear => exact unpack_triangle_ok enough
  | nonCollinear => exact unpack_triangle_ok enough

theorem recorded_entry_lower (packed : Nat → α) (rows dim : Nat) {i j : Nat} (lower : j ≤ i) :
    recordedEntry packed rows dim i j = 0 :=
  if_neg fun both => Nat.not_lt.mpr lower both.2

theorem triangle_entry_lower (walker : WalkerType) (orbitals : Nat) (packed : Nat → α) {i j : Nat} (lower : j ≤ i) :
    triangleEntry walker orbitals packed i j = 0 := by
  cases walker with
  | closed =>
      by_cases last : orbitals ≤ i ∧ orbitals ≤ j
      · rw [triangleEntry, if_pos last]
        exact recorded_entry_lower _ _ _ (Nat.sub_le_sub_right lower orbitals)
      · rw [triangleEntry, if_neg last]
        exact recorded_entry_lower _ _ _ lower
  | undefined => exact recorded_entry_lower _ _ _ lower
  | collinear => exact recorded_entry_lower _ _ _ lower
  | nonCollinear => exact recorded_entry_lower _ _ _ lower

theorem triangle_entry_recorded (walker : WalkerType) (orbitals : Nat) (packed : Nat → α) {i j : Nat}
    (row : i < walker.recordedRows orbitals) (upper : i < j) :
    triangleEntry walker orbitals packed i j = packed (packedIndex (2 * orbitals) i j) := by
  cases walker with
  | closed =>
      have first : ¬ (orbitals ≤ i ∧ orbitals ≤ j) := fun last => Nat.not_lt.mpr last.1 row
      rw [triangleEntry, if_neg first]
      exact if_pos ⟨row, upper⟩
  | undefined => exact if_pos ⟨row, upper⟩
  | collinear => exact if_pos ⟨row, upper⟩
  | nonCollinear => exact if_pos ⟨row, upper⟩

theorem triangle_entry_block (orbitals : Nat) (packed : Nat → α) {i j : Nat} (row : i < orbitals) :
    triangleEntry .closed orbitals packed (i + orbitals) (j + orbitals) =
      triangleEntry .closed orbitals packed i j := by
  have last : orbitals ≤ i + orbitals ∧ orbitals ≤ j + orbitals := ⟨Nat.le_add_left _ _, Nat.le_add_left _ _⟩
  have first : ¬ (orbitals ≤ i ∧ orbitals ≤ j) := fun both => Nat.not_lt.mpr both.1 row
  rw [triangleEntry, if_pos last, triangleEntry, if_neg first, Nat.add_sub_cancel, Nat.add_sub_cancel]

theorem triangle_entry_map (f : α → β) (zero : f 0 = 0) (walker : WalkerType) (orbitals : Nat) (packed : Nat → α)
    (i j : Nat) : triangleEntry walker orbitals (fun k => f (packed k)) i j =
      f (triangleEntry walker orbitals packed i j) := by
  cases walker <;> simp only [triangleEntry, recordedEntry, apply_ite f, zero]

end Entries

section Unpacking

variable {R : Type} [Scalar R] [Build]

theorem unpack_pair_density_ok {average : BlockAverage R} {walker : WalkerType} {orbitals : Nat}
    (recorded : walker = .closed ∨ walker = .collinear) (positive : 1 ≤ orbitals)
    (fits : orbitals * (2 * orbitals - 1) < UInt64.size)
    (complete : average.mean.size = packedStart (2 * orbitals) (walker.recordedRows orbitals))
    (paired : average.mean.size = average.error.size) :
    average.unpackPairDensity walker orbitals = .ok
      { mean := Mat.ofFn (2 * orbitals) (2 * orbitals) fun i j =>
          (triangleEntry walker orbitals (fun k => average.mean.getD k 0) i j +
            (triangleEntry walker orbitals (fun k => average.mean.getD k 0) j i).conj).scale 0.5
        error := Mat.ofFn (2 * orbitals) (2 * orbitals) fun i j =>
          (triangleEntry walker orbitals (fun k => average.error.getD k 0) i j +
            triangleEntry walker orbitals (fun k => average.error.getD k 0) j i) * 0.5 } := by
  have same : ¬ average.mean.size ≠ packedStart (2 * orbitals) (walker.recordedRows orbitals) :=
    fun differs => differs complete
  rw [BlockAverage.unpackPairDensity, packed_length_ok recorded positive fits]
  change (if average.mean.size ≠ packedStart (2 * orbitals) (walker.recordedRows orbitals) then _ else _) = _
  rw [if_neg same, spin_orbital_triangle_ok (Nat.le_of_eq complete.symm),
    spin_orbital_triangle_ok (Nat.le_of_eq (complete.symm.trans paired))]
  change (do return MatrixAverage.mk (← hermitianPart _) (← symmetricPart _)) = _
  rw [hermitian_part_of_fn, symmetric_part_of_fn]
  rfl

theorem unpack_pair_density_iff {average : BlockAverage R} {walker : WalkerType} {orbitals : Nat}
    (recorded : walker = .closed ∨ walker = .collinear) (positive : 1 ≤ orbitals)
    (fits : orbitals * (2 * orbitals - 1) < UInt64.size)
    (paired : average.mean.size = average.error.size) :
    (∃ result, average.unpackPairDensity walker orbitals = .ok result) ↔
      average.mean.size = packedStart (2 * orbitals) (walker.recordedRows orbitals) := by
  constructor
  · rintro ⟨result, returned⟩
    by_contra differs
    rw [BlockAverage.unpackPairDensity, packed_length_ok recorded positive fits] at returned
    change (if average.mean.size ≠ packedStart (2 * orbitals) (walker.recordedRows orbitals) then _ else _) = _
      at returned
    rw [if_pos differs] at returned
    cases returned
  · intro complete
    exact ⟨_, unpack_pair_density_ok recorded positive fits complete paired⟩

end Unpacking

section Completion

noncomputable def hermitianCompletion (upper : Nat → Nat → ℂ) (i j : Nat) : ℂ :=
  (1 / 2 : ℂ) * (upper i j + star (upper j i))

noncomputable def symmetricCompletion (upper : Nat → Nat → Exact) (i j : Nat) : Exact := (upper i j + upper j i) * 0.5

theorem hermitian_completion_upper {upper : Nat → Nat → ℂ} {i j : Nat} (lower : upper j i = 0) :
    hermitianCompletion upper i j = upper i j / 2 := by
  rw [hermitianCompletion, lower, star_zero, add_zero]
  ring

theorem hermitian_completion_star (upper : Nat → Nat → ℂ) (i j : Nat) :
    hermitianCompletion upper j i = star (hermitianCompletion upper i j) := by
  rw [hermitianCompletion, hermitianCompletion, star_mul', star_add, star_star, add_comm]
  simp

theorem symmetric_completion_upper {upper : Nat → Nat → Exact} {i j : Nat} (lower : upper j i = 0) :
    symmetricCompletion upper i j = upper i j / .value 2 := by
  rw [symmetricCompletion, lower, Exact.half_eq]
  cases upper i j with
  | undefined => rfl
  | value x =>
      rw [Exact.zero_eq, Exact.value_add, Exact.value_mul, Exact.value_div _ _ two_ne_zero]
      congr 1
      ring

theorem symmetric_completion_turned (upper : Nat → Nat → Exact) (i j : Nat) :
    symmetricCompletion upper j i = symmetricCompletion upper i j := by
  rw [symmetricCompletion, symmetricCompletion, exact_add_comm]

variable (walker : WalkerType) (orbitals : Nat) (mean : Nat → ℂ) (error : Nat → Exact)

theorem mean_entry_recorded {i j : Nat} (row : i < walker.recordedRows orbitals) (upper : i < j) :
    hermitianCompletion (triangleEntry walker orbitals mean) i j = mean (packedIndex (2 * orbitals) i j) / 2 := by
  rw [hermitian_completion_upper (triangle_entry_lower _ _ _ (Nat.le_of_lt upper)),
    triangle_entry_recorded _ _ _ row upper]

theorem error_entry_recorded {i j : Nat} (row : i < walker.recordedRows orbitals) (upper : i < j) :
    symmetricCompletion (triangleEntry walker orbitals error) i j =
      error (packedIndex (2 * orbitals) i j) / .value 2 := by
  rw [symmetric_completion_upper (triangle_entry_lower _ _ _ (Nat.le_of_lt upper)),
    triangle_entry_recorded _ _ _ row upper]

theorem mean_entry_diagonal (i : Nat) : hermitianCompletion (triangleEntry walker orbitals mean) i i = 0 := by
  have diagonal := triangle_entry_lower walker orbitals mean (le_refl i)
  rw [hermitian_completion_upper diagonal, diagonal, zero_div]

theorem error_entry_diagonal (i : Nat) : symmetricCompletion (triangleEntry walker orbitals error) i i = 0 := by
  have diagonal := triangle_entry_lower walker orbitals error (le_refl i)
  rw [symmetric_completion_upper diagonal, diagonal, Exact.zero_eq, Exact.value_div _ _ two_ne_zero, zero_div]

theorem mean_entry_block {i j : Nat} (row : i < orbitals) (col : j < orbitals) :
    hermitianCompletion (triangleEntry .closed orbitals mean) (i + orbitals) (j + orbitals) =
      hermitianCompletion (triangleEntry .closed orbitals mean) i j := by
  rw [hermitianCompletion, triangle_entry_block _ _ row, triangle_entry_block _ _ col, hermitianCompletion]

theorem error_entry_block {i j : Nat} (row : i < orbitals) (col : j < orbitals) :
    symmetricCompletion (triangleEntry .closed orbitals error) (i + orbitals) (j + orbitals) =
      symmetricCompletion (triangleEntry .closed orbitals error) i j := by
  rw [symmetricCompletion, triangle_entry_block _ _ row, triangle_entry_block _ _ col, symmetricCompletion]

end Completion

theorem array_get_map {α β : Type} [Zero α] [Zero β] (f : α → β) (zero : f 0 = 0) (packed : Array α) (k : Nat) :
    (packed.map f).getD k 0 = f (packed.getD k 0) := by
  by_cases inside : k < packed.size
  · simp [Array.getD_eq_getD_getElem?, inside]
  · simp [Array.getD_eq_getD_getElem?, inside, zero]

theorem pair_density_exact [Build] {walker : WalkerType} {orbitals : Nat}
    (recorded : walker = .closed ∨ walker = .collinear) (positive : 1 ≤ orbitals)
    (fits : orbitals * (2 * orbitals - 1) < UInt64.size) (mean : Array ℂ) (error : Array Exact)
    (complete : mean.size = packedStart (2 * orbitals) (walker.recordedRows orbitals))
    (paired : mean.size = error.size) :
    (BlockAverage.mk (mean.map Cplx.exact) error).unpackPairDensity walker orbitals = .ok
      { mean := Mat.ofFn (2 * orbitals) (2 * orbitals) fun i j =>
          Cplx.exact (hermitianCompletion (triangleEntry walker orbitals fun k => mean.getD k 0) i j)
        error := Mat.ofFn (2 * orbitals) (2 * orbitals)
          (symmetricCompletion (triangleEntry walker orbitals fun k => error.getD k 0)) } := by
  have size : (mean.map Cplx.exact).size = mean.size := Array.size_map
  rw [unpack_pair_density_ok recorded positive fits (size.trans complete) (size.trans paired)]
  have entries (i j : Nat) : triangleEntry walker orbitals (fun k => (mean.map Cplx.exact).getD k 0) i j =
      Cplx.exact (triangleEntry walker orbitals (fun k => mean.getD k 0) i j) := by
    simp only [array_get_map Cplx.exact Cplx.exact_zero]
    exact triangle_entry_map Cplx.exact Cplx.exact_zero walker orbitals _ i j
  simp only [entries, Cplx.exact_conj, half_sum_exact]
  rfl

-- Read back in the order of recording, the doubled matrix is what was recorded.
theorem packed_again (walker : WalkerType) (orbitals : Nat) (mean : Array ℂ)
    (complete : mean.size = packedStart (2 * orbitals) (walker.recordedRows orbitals)) :
    ((trianglePlaces (walker.recordedRows orbitals) (2 * orbitals)).map fun p =>
      2 * hermitianCompletion (triangleEntry walker orbitals fun k => mean.getD k 0) p.1 p.2) = mean.toList := by
  have entries : ((trianglePlaces (walker.recordedRows orbitals) (2 * orbitals)).map fun p =>
      2 * hermitianCompletion (triangleEntry walker orbitals fun k => mean.getD k 0) p.1 p.2) =
      ((trianglePlaces (walker.recordedRows orbitals) (2 * orbitals)).map fun p =>
        packedIndex (2 * orbitals) p.1 p.2).map fun k => mean.getD k 0 := by
    rw [List.map_map]
    apply List.map_congr_left
    rintro ⟨i, j⟩ member
    obtain ⟨row, upper, _⟩ := (mem_triangle_places_iff _ _ _ _).mp member
    rw [mean_entry_recorded _ _ _ row upper]
    exact mul_div_cancel₀ _ two_ne_zero
  rw [entries, triangle_indices, ← complete]
  apply List.ext_getElem
  · simp
  · intro k left right
    have inside : k < mean.size := by simpa using right
    simp [Array.getD_eq_getD_getElem?, inside]

-- So many pairs are fewer than the entries of a matrix over spin orbitals.
theorem pairs_fit {orbitals : Nat} (fits : (2 * orbitals) ^ 2 < UInt64.size) :
    orbitals * (2 * orbitals - 1) < UInt64.size := by
  refine Nat.lt_of_le_of_lt ?_ fits
  rw [pow_two]
  exact Nat.mul_le_mul (by omega) (Nat.sub_le _ _)

theorem pair_density_unpacked [Build] (walker : WalkerType) (orbitals : Nat)
    (recorded : walker = .closed ∨ walker = .collinear) (positive : 1 ≤ orbitals)
    (sized : (2 * orbitals) ^ 2 < UInt64.size) :
    let dim := 2 * orbitals
    let rows := if walker = .closed then orbitals else 2 * orbitals
    let place := fun i j => i * (2 * orbitals - 1) - i * (i - 1) / 2 + (j - i - 1)
    ∃ length, walker.packedLength orbitals = .ok length ∧
      length = ((Finset.range rows ×ˢ Finset.range dim).filter fun p => p.1 < p.2).card ∧
      (trianglePlaces rows dim).map (fun p => place p.1 p.2) = List.range length ∧
      (∀ (R : Type) [Scalar R] (average : BlockAverage R), average.mean.size = average.error.size →
        ((∃ result, average.unpackPairDensity walker orbitals = .ok result) ↔ average.mean.size = length)) ∧
      ∀ (mean : Array ℂ) (error : Array Exact), mean.size = length → mean.size = error.size →
        ∃ (M : Nat → Nat → ℂ) (E : Nat → Nat → Exact),
          (BlockAverage.mk (mean.map Cplx.exact) error).unpackPairDensity walker orbitals =
            .ok ⟨Mat.ofFn dim dim fun i j => Cplx.exact (M i j), Mat.ofFn dim dim E⟩ ∧
          (∀ i j, i < rows → i < j → j < dim → M i j = mean.getD (place i j) 0 / 2 ∧
            E i j = error.getD (place i j) 0 / .value 2) ∧
          (∀ i j, M j i = star (M i j) ∧ E j i = E i j) ∧
          (∀ i, M i i = 0 ∧ E i i = 0) ∧
          (walker = .closed → ∀ i j, i < orbitals → j < orbitals →
            M (i + orbitals) (j + orbitals) = M i j ∧ E (i + orbitals) (j + orbitals) = E i j) ∧
          (trianglePlaces rows dim).map (fun p => 2 * M p.1 p.2) = mean.toList := by
  intro dim rows place
  have fits := pairs_fit sized
  have recordedRows : walker.recordedRows orbitals = rows := by
    rcases recorded with rfl | rfl <;> rfl
  have inside : rows ≤ dim := by
    rcases recorded with rfl | rfl
    · exact Nat.le_mul_of_pos_left orbitals two_pos
    · exact le_refl _
  have position (i j : Nat) (row : i < rows) : packedIndex dim i j = place i j := by
    rw [packedIndex, packed_start_closed dim i (by omega)]
  refine ⟨packedStart dim rows, ?_, (triangle_count rows dim).symm, ?_, ?_, ?_⟩
  · rw [packed_length_ok recorded positive fits, recordedRows]
  · rw [← triangle_indices]
    apply List.map_congr_left
    rintro ⟨i, j⟩ member
    exact (position i j ((mem_triangle_places_iff _ _ _ _).mp member).1).symm
  · intro R _ average paired
    rw [unpack_pair_density_iff recorded positive fits paired, recordedRows]
  · intro mean error size paired
    have complete : mean.size = packedStart (2 * orbitals) (walker.recordedRows orbitals) := by
      rw [size, recordedRows]
    refine ⟨_, _, pair_density_exact recorded positive fits mean error complete paired, ?_, ?_, ?_, ?_, ?_⟩
    · intro i j row upper _
      have kept : i < walker.recordedRows orbitals := recordedRows ▸ row
      rw [mean_entry_recorded _ _ _ kept upper, error_entry_recorded _ _ _ kept upper, position i j row]
      exact ⟨rfl, rfl⟩
    · intro i j
      exact ⟨hermitian_completion_star _ i j, symmetric_completion_turned _ i j⟩
    · intro i
      exact ⟨mean_entry_diagonal walker orbitals _ i, error_entry_diagonal walker orbitals _ i⟩
    · rintro rfl i j row col
      exact ⟨mean_entry_block orbitals _ row col, error_entry_block orbitals _ row col⟩
    · rw [← recordedRows]
      exact packed_again walker orbitals mean complete

theorem pair_density_unpacked_closed : ∃ (M : Nat → Nat → ℂ) (E : Nat → Nat → Exact),
    (BlockAverage.mk (#[1, 2, 3, 4, Complex.I].map Cplx.exact) #[0, 0, 0, 0, .undefined]).unpackPairDensity .closed 2 =
      .ok ⟨Mat.ofFn 4 4 fun i j => Cplx.exact (M i j), Mat.ofFn 4 4 E⟩ ∧
      M 2 3 = 1 / 2 ∧ M 3 1 = -Complex.I / 2 ∧ E 3 1 = .undefined := by
  obtain ⟨length, packed, _, _, _, laws⟩ := pair_density_unpacked .closed 2 (Or.inl rfl) (by decide)
    (by decide)
  obtain rfl : 5 = length := Except.ok.inj packed
  obtain ⟨M, E, unpacked, upper, turned, _, block, _⟩ :=
    laws #[1, 2, 3, 4, Complex.I] #[0, 0, 0, 0, .undefined] rfl rfl
  have corner := upper 0 1 (by decide) (by decide) (by decide)
  have last := upper 1 3 (by decide) (by decide) (by decide)
  refine ⟨M, E, unpacked, ?_, ?_, ?_⟩
  · rw [(block rfl 0 1 (by decide) (by decide)).1, corner.1]
    simp
  · rw [(turned 1 3).1, last.1]
    simp
  · rw [(turned 1 3).2, last.2]
    rfl

end OrbitalSpectra
