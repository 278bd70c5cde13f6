import OrbitalSpectra.Proofs.Exact.Eigensystem

set_option autoImplicit false

namespace OrbitalSpectra

variable {R : Type} [Scalar R]

-- A number that comparisons relate to itself.
def Defined (x : R) : Prop := x ≤ x

instance (x : R) : Decidable (Defined x) := scalarDecidableLE x x

class OrderedScalar (R : Type) [Scalar R] : Prop where
  defined_of_le : ∀ {a b : R}, a ≤ b → Defined a ∧ Defined b
  le_transitive : ∀ {a b c : R}, a ≤ b → b ≤ c → a ≤ c
  lt_iff : ∀ {a b : R}, a < b ↔ (Defined a ∧ Defined b) ∧ ¬ b ≤ a
  defined_of_finite : ∀ {a : R}, Scalar.isFinite a = true → Defined a
  total_trans : ∀ a b c : R, Scalar.totalLe a b = true → Scalar.totalLe b c = true → Scalar.totalLe a c = true
  total_total : ∀ a b : R, (Scalar.totalLe a b || Scalar.totalLe b a) = true
  le_of_total : ∀ {a b : R}, Defined a → Defined b → Scalar.totalLe a b = true → a ≤ b

theorem value_getElem (e : Eigensystem R) {k : Nat} (inside : k < e.values.length) : e.value k = e.values[k] := by
  rw [Eigensystem.value, List.getD_eq_getElem _ _ inside]

open OrderedScalar

variable [OrderedScalar R]

theorem above_of_le {cutoff a b : R} (above : cutoff < a) (le : a ≤ b) : cutoff < b := by
  obtain ⟨⟨cutoffDefined, _⟩, strict⟩ := lt_iff.mp above
  refine lt_iff.mpr ⟨⟨cutoffDefined, (defined_of_le le).2⟩, fun below => strict ?_⟩
  exact le_transitive le below

-- A number that is not at or below the cutoff is above it, or it is undefined.
theorem not_at_most_iff {cutoff : R} (defined : Defined cutoff) (x : R) :
    ¬ x ≤ cutoff ↔ cutoff < x ∨ ¬ Defined x := by
  constructor
  · intro high
    by_cases number : Defined x
    · exact Or.inl (lt_iff.mpr ⟨⟨defined, number⟩, high⟩)
    · exact Or.inr number
  · rintro (above | undefined) low
    · exact (lt_iff.mp above).2 low
    · exact undefined (defined_of_le low).1

section Eigenvalues

variable {solver : EigenSolver R} {m : Mat (Cplx R)} {e : Eigensystem R}

theorem eigh_ordered (solved : eigh solver m = .ok e) :
    e.values.Pairwise fun a b => Scalar.totalLe a b = true := by
  unfold eigh at solved
  split at solved
  · cases solved
  · cases Except.ok.inj solved
    apply List.pairwise_map.mpr
    apply List.pairwise_mergeSort
    · exact fun a b c => total_trans ((solver m).value a) ((solver m).value b) ((solver m).value c)
    · exact fun a b => total_total ((solver m).value a) ((solver m).value b)

theorem values_ascend (solved : eigh solver m = .ok e) (defined : ∀ v ∈ e.values, Defined v) {i j : Nat}
    (before : i ≤ j) (inside : j < e.values.length) : e.value i ≤ e.value j := by
  have earlier : i < e.values.length := before.trans_lt inside
  rw [value_getElem e earlier, value_getElem e inside]
  rcases before.eq_or_lt with rfl | strictly
  · exact defined _ (List.getElem_mem inside)
  · exact le_of_total (defined _ (List.getElem_mem earlier)) (defined _ (List.getElem_mem inside))
      (List.pairwise_iff_getElem.mp (eigh_ordered solved) i j earlier inside strictly)

end Eigenvalues

theorem exact_defined_iff (x : Exact) : Defined x ↔ ∃ r, x = .value r := by
  cases x with
  | undefined => exact iff_of_false (fun related => related) (by simp)
  | value r => exact iff_of_true (le_refl r) ⟨r, rfl⟩

theorem exact_related {relation : ℝ → ℝ → Prop} {a b : Exact} (related : Exact.Related relation a b) :
    (∃ x, a = .value x) ∧ ∃ y, b = .value y := by
  cases a with
  | undefined => exact False.elim related
  | value x =>
      cases b with
      | undefined => exact False.elim related
      | value y => exact ⟨⟨x, rfl⟩, y, rfl⟩

instance : OrderedScalar Exact where
  defined_of_le := by
    intro a b le
    rw [exact_defined_iff, exact_defined_iff]
    exact exact_related le
  le_transitive := by
    intro a b c first second
    obtain ⟨⟨x, rfl⟩, y, rfl⟩ := exact_related first
    obtain ⟨_, z, rfl⟩ := exact_related second
    rw [Exact.value_le] at first second ⊢
    exact first.trans second
  lt_iff := by
    intro a b
    rw [exact_defined_iff, exact_defined_iff]
    constructor
    · intro less
      obtain ⟨⟨x, rfl⟩, y, rfl⟩ := exact_related less
      rw [Exact.value_lt] at less
      rw [Exact.value_le]
      exact ⟨⟨⟨x, rfl⟩, y, rfl⟩, not_le.mpr less⟩
    · rintro ⟨⟨⟨x, rfl⟩, y, rfl⟩, high⟩
      rw [Exact.value_le] at high
      exact (Exact.value_lt x y).mpr (not_le.mp high)
  defined_of_finite := by
    rintro (_ | a) finite
    · cases finite
    · exact le_refl a
  total_trans := ordered_trans
  total_total := ordered_total
  le_of_total := by
    rintro (_ | a) (_ | b) left right ordered
    · cases left
    · cases left
    · cases right
    · exact of_decide_eq_true ordered

end OrbitalSpectra
