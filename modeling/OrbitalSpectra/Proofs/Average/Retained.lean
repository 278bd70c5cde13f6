import Mathlib
import OrbitalSpectra.Average.Tensors
import OrbitalSpectra.Proofs.Outcome

set_option autoImplicit false

namespace OrbitalSpectra

variable {R α : Type}

-- Places of the retained ones among `count` blocks, in order.
def retainedPlaces (equilibration stride count : Nat) : List Nat :=
  (List.range count).filter fun b => equilibration ≤ b ∧ stride ∣ b - equilibration

def retained (equilibration stride count : Nat) : Finset Nat :=
  (Finset.range count).filter fun b => equilibration ≤ b ∧ stride ∣ b - equilibration

section Places

variable {equilibration stride count b : Nat}

theorem mem_retained_places :
    b ∈ retainedPlaces equilibration stride count ↔ b < count ∧ equilibration ≤ b ∧ stride ∣ b - equilibration := by
  rw [retainedPlaces, List.mem_filter, List.mem_range, decide_eq_true_iff]

theorem retained_places_empty (short : count ≤ equilibration) : retainedPlaces equilibration stride count = [] := by
  apply List.filter_eq_nil_iff.mpr
  intro b member
  have below := List.mem_range.mp member
  rw [decide_eq_true_iff]
  omega

theorem retained_places_shifted (equilibration stride count : Nat) : retainedPlaces equilibration stride count =
    ((List.range (count - equilibration)).filter fun k => stride ∣ k).map (equilibration + ·) := by
  rcases Nat.le_total count equilibration with short | long
  · rw [retained_places_empty short, Nat.sub_eq_zero_of_le short]
    rfl
  · have dropped : retainedPlaces equilibration stride equilibration = [] := retained_places_empty le_rfl
    rw [retainedPlaces] at dropped
    obtain ⟨rest, rfl⟩ := Nat.exists_eq_add_of_le long
    rw [retainedPlaces, List.range_add, List.filter_append, dropped, List.nil_append, List.filter_map,
      Nat.add_sub_cancel_left]
    congr 1
    apply List.filter_congr
    intro k _
    simp

theorem retained_places_nodup (equilibration stride count : Nat) : (retainedPlaces equilibration stride count).Nodup :=
  List.nodup_range.filter _

theorem retained_places_finset (equilibration stride count : Nat) :
    (retainedPlaces equilibration stride count).toFinset = retained equilibration stride count := by
  ext b
  rw [List.mem_toFinset, mem_retained_places, retained, Finset.mem_filter, Finset.mem_range]

end Places

theorem window_positions (equilibration stride : Nat) (xs : List α) (absent : α) :
    window equilibration stride xs =
      ((List.range (xs.length - equilibration)).filter fun k => stride ∣ k).map
        fun k => xs.getD (equilibration + k) absent := by
  have paired : (xs.drop equilibration).zipIdx =
      (List.range (xs.length - equilibration)).map fun k => (xs.getD (equilibration + k) absent, k) := by
    apply List.ext_getElem
    · simp
    · intro k left right
      have inside : equilibration + k < xs.length := by simp at left; omega
      simp [List.getD_eq_getElem?_getD, inside]
  rw [window, paired, List.filterMap_map, ← List.filterMap_eq_filter, List.map_filterMap]
  apply List.filterMap_congr
  intro k _
  by_cases divides : k % stride = 0 <;> simp [Function.comp, Nat.dvd_iff_mod_eq_zero, divides]

theorem window_places (equilibration stride : Nat) (xs : List α) (absent : α) :
    window equilibration stride xs =
      (retainedPlaces equilibration stride xs.length).map fun b => xs.getD b absent := by
  rw [window_positions equilibration stride xs absent, retained_places_shifted, List.map_map]
  rfl

theorem window_empty_iff (equilibration stride : Nat) (xs : List α) :
    window equilibration stride xs = [] ↔ xs.length ≤ equilibration := by
  constructor
  · intro empty
    by_contra long
    have inside : equilibration < xs.length := by omega
    have first : xs[equilibration] ∈ window equilibration stride xs := by
      rw [window_places equilibration stride xs xs[equilibration]]
      exact List.mem_map.mpr ⟨equilibration, mem_retained_places.mpr ⟨inside, le_rfl, by simp⟩, by simp [inside]⟩
    rw [empty] at first
    cases first
  · intro short
    simp [window, List.drop_eq_nil_of_le short]

theorem window_sum {M : Type} [AddCommMonoid M] (equilibration stride : Nat) (xs : List α) (absent : α)
    (f : α → M) : ((window equilibration stride xs).map f).sum =
      ∑ b ∈ retained equilibration stride xs.length, f (xs.getD b absent) := by
  rw [window_places equilibration stride xs absent, List.map_map,
    ← List.sum_toFinset _ (retained_places_nodup equilibration stride xs.length), retained_places_finset]
  rfl

theorem window_length (equilibration stride : Nat) (xs : List α) :
    (window equilibration stride xs).length = (retained equilibration stride xs.length).card := by
  cases xs with
  | nil => simp [window, retained]
  | cons x rest =>
      have counted := window_sum equilibration stride (x :: rest) x fun _ => 1
      simpa using counted

theorem mem_window_iff (equilibration stride : Nat) (xs : List α) (a : α) :
    a ∈ window equilibration stride xs ↔
      ∃ b ∈ retained equilibration stride xs.length, xs[b]? = some a := by
  rw [window_places equilibration stride xs a, List.mem_map, ← retained_places_finset]
  refine exists_congr fun b => ?_
  rw [List.mem_toFinset]
  refine and_congr_right fun place => ?_
  have inside : b < xs.length := (mem_retained_places.mp place).1
  simp [inside]

end OrbitalSpectra
