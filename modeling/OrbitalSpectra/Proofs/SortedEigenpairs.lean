import OrbitalSpectra.Proofs.FloatOrder
import OrbitalSpectra.Proofs.Shapes

set_option autoImplicit false

namespace OrbitalSpectra

open Matrix

-- Words with the sign bit come first, and among themselves they count down.
def WordLe (a b : BitVec 64) : Prop :=
  match a.msb, b.msb with
  | true, false => True
  | false, true => False
  | false, false => a ≤ b
  | true, true => b ≤ a

instance (a b : BitVec 64) : Decidable (WordLe a b) := by
  unfold WordLe
  split <;> infer_instance

theorem word_le_refl (a : BitVec 64) : WordLe a a := by
  unfold WordLe
  cases a.msb <;> exact Nat.le_refl _

def wordPlace (a : BitVec 64) : ℤ := if a.toNat < 2 ^ 63 then a.toNat else 2 ^ 63 - 1 - a.toNat

theorem word_le_iff (a b : BitVec 64) : WordLe a b ↔ wordPlace a ≤ wordPlace b := by
  have sign (w : BitVec 64) : w.msb = !decide (w.toNat < 2 ^ 63) := by
    rw [BitVec.msb_eq_decide, ← decide_not, decide_eq_decide]
    exact not_lt.symm
  unfold WordLe wordPlace
  rw [sign a, sign b]
  by_cases first : a.toNat < 2 ^ 63 <;> by_cases second : b.toNat < 2 ^ 63
  all_goals
    simp only [first, second, decide_true, decide_false, Bool.not_true, Bool.not_false, if_true, if_false,
      BitVec.le_def, true_iff, false_iff]
    omega

-- Numbers that are stored as words and ordered as these. Undefined numbers may differ in their words.
class StoredScalar (R : Type) [Scalar R] where
  word : R → BitVec 64
  ordered_iff : ∀ a b : R, Scalar.totalLe a b = true ↔ WordLe (word a) (word b)

open StoredScalar

instance : StoredScalar Float where
  word x := (orderWord x).toBitVec
  ordered_iff x y := by
    have half : Decimal.twoTo 63 = 2 ^ 63 := Nat.pow_eq
    have place (z : Float) : totalOrderKey z = wordPlace (orderWord z).toBitVec := by
      rw [totalOrderKey, wordPlace, half, UInt64.toNat_toBitVec]
      rfl
    rw [word_le_iff, ← place, ← place]
    exact decide_eq_true_iff

variable {R : Type} [Scalar R]

def Eigensystem.sorted (e : Eigensystem R) (n : Nat) : Eigensystem R where
  values := (e.ascending n).map e.value
  vectors := Mat.ofFn n n fun r c => e.vectors.entry r ((e.ascending n).getD c 0)

theorem eigh_sorted (solver : EigenSolver R) {m : Mat (Cplx R)} {n : Nat} (square : m.shape = (n, n)) :
    eigh solver m = .ok ((solver m).sorted n) := by
  obtain ⟨rfl, cols⟩ := Prod.mk.inj square
  exact if_neg fun odd => odd cols.symm

-- The matrix with the given eigenpairs, for any reading of the stored numbers as exact ones.
noncomputable def Eigensystem.rebuilt (e : Eigensystem R) (n : Nat) (real : R → ℝ) (complex : Cplx R → ℂ) :
    Matrix (Fin n) (Fin n) ℂ :=
  let vectors : Matrix (Fin n) (Fin n) ℂ := of fun i k => complex (e.vectors.entry i k)
  vectors * diagonal (fun k : Fin n => (real (e.value k) : ℂ)) * vectorsᴴ

-- Values that the order does not tell apart keep their places relative to each other.
theorem ascending_stable [OrderedScalar R] (e : Eigensystem R) (n : Nat) : (e.ascending n).Pairwise fun i j =>
    Scalar.totalLe (e.value j) (e.value i) = true → i < j := by
  have perm := ascending_perm e n
  have nodup := perm.nodup_iff.mpr List.nodup_range
  apply List.pairwise_iff_forall_sublist.mpr
  intro i j kept tie
  by_contra late
  have differs : i ≠ j := by
    intro same
    exact List.nodup_iff_sublist.mp nodup i (same ▸ kept)
  have before : j < i := by omega
  have inside : i < n := List.mem_range.mp (perm.mem_iff.mp (kept.subset List.mem_cons_self))
  have counted : [j, i].Sublist (List.range n) := by
    apply List.sublist_of_subperm_of_pairwise (r := (· < ·))
    · apply List.Nodup.subperm
      · simpa using differs.symm
      · intro k member
        rcases List.mem_pair.mp member with rfl | rfl
        · exact List.mem_range.mpr (before.trans inside)
        · exact List.mem_range.mpr inside
    · simpa using before
    · exact List.pairwise_lt_range
  have sorted : [j, i].Sublist (e.ascending n) := List.pair_sublist_mergeSort
    (fun a b c => OrderedScalar.total_trans (e.value a) (e.value b) (e.value c))
    (fun a b => OrderedScalar.total_total (e.value a) (e.value b)) tie counted
  -- Both orders of the two places cannot be found in a list without repetition.
  have same := (nodup.perm_iff_eq_of_sublist kept sorted).mp (List.Perm.swap j i [])
  exact differs (List.cons.inj same).1

section Places

variable {e : Eigensystem R} {n : Nat} {π : Equiv.Perm (Fin n)}
  (order : e.ascending n = List.ofFn fun k => (π k : Nat))

include order

theorem sorted_value (c : Fin n) : (e.sorted n).value c = e.value (π c) := by
  rw [Eigensystem.value, Eigensystem.sorted, order, List.map_ofFn]
  simp

theorem sorted_column (shape : e.vectors.shape = (n, n)) (r c : Fin n) :
    (e.sorted n).vectors.get? r c = e.vectors.get? r (π c) := by
  obtain ⟨rows, cols⟩ := Prod.mk.inj shape
  have place : (e.ascending n).getD c 0 = π c := by
    rw [order]
    simp
  rw [Eigensystem.sorted, Mat.get_of_fn, if_pos ⟨r.isLt, c.isLt⟩, place]
  exact (Mat.get_inside (rows ▸ r.isLt) (cols ▸ (π c).isLt)).symm

theorem sorted_rebuilt (shape : e.vectors.shape = (n, n)) (real : R → ℝ) (complex : Cplx R → ℂ) :
    (e.sorted n).rebuilt n real complex = e.rebuilt n real complex := by
  have entry (r c : Fin n) : (e.sorted n).vectors.entry r c = e.vectors.entry r (π c) := by
    rw [Mat.entry, sorted_column order shape, Mat.entry]
  simp only [Eigensystem.rebuilt, sorted_value order, entry]
  exact product_permuted (of fun i k => complex (e.vectors.entry i k)) (fun k => (real (e.value k) : ℂ)) π

theorem sorted_stable [OrderedScalar R] {a b : Fin n} (before : a < b)
    (tie : Scalar.totalLe ((e.sorted n).value b) ((e.sorted n).value a) = true) : π a < π b := by
  have kept := ascending_stable e n
  rw [order, List.pairwise_ofFn] at kept
  rw [sorted_value order, sorted_value order] at tie
  exact kept before tie

end Places

theorem sorted_values_perm {e : Eigensystem R} {n : Nat} (length : e.values.length = n) :
    (e.sorted n).values.Perm e.values := by
  have listed : (List.range n).map e.value = e.values := by
    apply List.ext_getElem
    · rw [List.length_map, List.length_range, length]
    · intro k left right
      rw [List.getElem_map, List.getElem_range, value_getElem e right]
  exact listed ▸ (ascending_perm e n).map e.value

-- The pairs of `raw` in ascending order: pair `c` is pair `π c` of `raw`.
structure SortedPairs [StoredScalar R] {n : Nat} (raw sorted : Eigensystem R) (π : Equiv.Perm (Fin n)) : Prop where
  sizes : sorted.values.length = n ∧ sorted.vectors.shape = (n, n)
  value : ∀ c : Fin n, sorted.value c = raw.value (π c)
  column : ∀ r c : Fin n, sorted.vectors.get? r c = raw.vectors.get? r (π c)
  values : sorted.values.Perm raw.values
  ascending : sorted.values.Pairwise fun a b => WordLe (word a) (word b)
  numbers : (∀ v ∈ raw.values, Defined v) → sorted.values.Pairwise (· ≤ ·)
  stable : ∀ a b : Fin n, a < b → word (sorted.value a) = word (sorted.value b) → π a < π b
  rebuilt : ∀ real complex, sorted.rebuilt n real complex = raw.rebuilt n real complex

theorem eigenpairs_sorted [OrderedScalar R] [StoredScalar R] (solver : EigenSolver R) {m : Mat (Cplx R)} {n : Nat}
    (square : m.shape = (n, n)) (values : (solver m).values.length = n) (vectors : (solver m).vectors.shape = (n, n)) :
    ∃ (sorted : Eigensystem R) (π : Equiv.Perm (Fin n)), eigh solver m = .ok sorted ∧
      eigenvalues solver m = .ok sorted.values ∧ SortedPairs (solver m) sorted π := by
  obtain ⟨π, order⟩ := ascending_places (solver m) n
  have solved := eigh_sorted solver square
  have ordered := eigh_ordered solved
  have listed := sorted_values_perm values
  refine ⟨_, π, solved, by rw [eigenvalues, solved]; rfl, ?_⟩
  exact {
    sizes := eigh_ok_sizes solver square solved
    value := sorted_value order
    column := sorted_column order vectors
    values := listed
    ascending := ordered.imp fun held => (ordered_iff _ _).mp held
    numbers := fun defined => ordered.imp_of_mem fun first second held =>
      OrderedScalar.le_of_total (defined _ (listed.subset first)) (defined _ (listed.subset second)) held
    stable := by
      intro a b before tie
      apply sorted_stable order before
      rw [ordered_iff, tie]
      exact word_le_refl _
    rebuilt := sorted_rebuilt order vectors }

-- Undefined first, then negative zero, then the two zeros as they came.
theorem eigenpairs_sorted_signed :
    let solver : EigenSolver Float := fun _ => ⟨[0.0, 0.0 / 0.0, -0.0, 0.0], Mat.identity 4⟩
    let m : Mat (Cplx Float) := Mat.zeros 4 4
    m.shape = (4, 4) ∧ (solver m).values.length = 4 ∧ (solver m).vectors.shape = (4, 4) ∧
      ∃ sorted : Eigensystem Float, eigh solver m = .ok sorted ∧
        sorted.values = [0.0 / 0.0, -0.0, 0.0, 0.0] ∧
        ∀ r c : Fin 4, sorted.vectors.get? r c = (solver m).vectors.get? r (![1, 2, 0, 3] c : Fin 4) := by
  intro solver m
  obtain ⟨sorted, π, solved, _, pairs⟩ := eigenpairs_sorted solver (m := m) (n := 4) rfl rfl rfl
  let words : Fin 4 → BitVec 64 := ![0, 0xfff8000000000000, 0x8000000000000000, 0]
  have word_of (k : Fin 4) : word ((solver m).value k) = words k := by
    revert k
    decide +kernel
  have ascending (a b : Fin 4) (before : a < b) : WordLe (words (π a)) (words (π b)) := by
    have count := pairs.sizes.1
    rw [← word_of, ← word_of, ← pairs.value, ← pairs.value, value_getElem sorted (by omega),
      value_getElem sorted (by omega)]
    exact List.pairwise_iff_getElem.mp pairs.ascending a b (by omega) (by omega) before
  have stable (a b : Fin 4) (before : a < b) (tie : words (π a) = words (π b)) : π a < π b := by
    rw [← word_of, ← word_of, ← pairs.value, ← pairs.value] at tie
    exact pairs.stable a b before tie
  -- No other permutation sorts the words and keeps the order of the zeros.
  have only : ∀ π : Equiv.Perm (Fin 4), (∀ a b, a < b → WordLe (words (π a)) (words (π b))) →
      (∀ a b, a < b → words (π a) = words (π b) → π a < π b) → ∀ c, π c = ![1, 2, 0, 3] c := by
    decide +kernel
  have found := only π ascending stable
  have listed (c : Fin 4) : (solver m).value (![1, 2, 0, 3] c : Fin 4) = [0.0 / 0.0, -0.0, 0.0, 0.0][c] := by
    fin_cases c <;> rfl
  refine ⟨rfl, rfl, rfl, sorted, solved, ?_, fun r c => found c ▸ pairs.column r c⟩
  apply List.ext_getElem
  · exact pairs.sizes.1
  · intro k left right
    have place := pairs.value ⟨k, right⟩
    rw [value_getElem sorted left, found] at place
    exact place.trans (listed ⟨k, right⟩)

end OrbitalSpectra
