import OrbitalSpectra.Proofs.Average.Reading
import OrbitalSpectra.Proofs.Exact.Number

set_option autoImplicit false

namespace OrbitalSpectra

variable {R α : Type}

theorem multiples_below {stride : Nat} (positive : 1 ≤ stride) (bound : Nat) :
    ((List.range bound).filter fun k => stride ∣ k).length = bound ⌈/⌉ stride := by
  induction bound with
  | zero => simp
  | succ m ih =>
      have next : m + 1 + stride - 1 = m + stride - 1 + 1 := by omega
      have last : m + stride - 1 + 1 = m + stride := by omega
      have wrapped : stride ∣ m + stride ↔ stride ∣ m := Nat.dvd_add_self_right
      rw [Nat.ceilDiv_eq_add_pred_div] at ih ⊢
      rw [List.range_succ, List.filter_append, List.length_append, ih, next, Nat.succ_div, last, List.filter_singleton]
      by_cases divides : stride ∣ m <;> simp [divides, wrapped]

theorem window_count {stride : Nat} (positive : 1 ≤ stride) (equilibration : Nat) (xs : List α) (absent : α) :
    (window equilibration stride xs).length = (xs.length - equilibration) ⌈/⌉ stride := by
  rw [window_positions equilibration stride xs absent, List.length_map, multiples_below positive]

theorem window_cons {equilibration : Nat} (stride : Nat) {xs : List α} (enough : equilibration < xs.length) (absent : α) :
    ∃ rest, window equilibration stride xs = xs.getD equilibration absent :: rest := by
  obtain ⟨k, more⟩ : ∃ k, xs.length - equilibration = k + 1 := ⟨xs.length - equilibration - 1, by omega⟩
  rw [window_positions equilibration stride xs absent, more, List.range_succ_eq_map, List.filter_cons_of_pos (by simp),
    List.map_cons, Nat.add_zero]
  exact ⟨_, rfl⟩

section Sizes

variable {blocks : List (Array α)} {equilibration stride : Nat}

def sizeAt (blocks : List (Array α)) (b : Nat) : Nat := (blocks.getD b #[]).size

-- The retained block at place `b` is the first whose size is not that of the first retained one, which
-- is at the place `equilibration`.
structure FirstMisfit (blocks : List (Array α)) (equilibration stride b : Nat) : Prop where
  place : b ∈ retainedPlaces equilibration stride blocks.length
  differs : sizeAt blocks b ≠ sizeAt blocks equilibration
  before : ∀ c ∈ retainedPlaces equilibration stride blocks.length, c < b →
    sizeAt blocks c = sizeAt blocks equilibration

-- All retained blocks, and there are some, have one size.
structure EvenWindow (blocks : List (Array α)) (equilibration stride : Nat) : Prop where
  enough : equilibration < blocks.length
  sizes : ∀ b ∈ retainedPlaces equilibration stride blocks.length, sizeAt blocks b = sizeAt blocks equilibration

theorem FirstMisfit.unique {b c : Nat} (first : FirstMisfit blocks equilibration stride b)
    (second : FirstMisfit blocks equilibration stride c) : b = c := by
  rcases lt_trichotomy b c with less | same | more
  · exact absurd (second.before b first.place less) first.differs
  · exact same
  · exact absurd (first.before c second.place more) second.differs

theorem first_misfit_or_even (stride : Nat) (enough : equilibration < blocks.length) :
    (∃ b, FirstMisfit blocks equilibration stride b) ∨ EvenWindow blocks equilibration stride := by
  classical
  by_cases odd : ∃ b, b ∈ retainedPlaces equilibration stride blocks.length ∧ sizeAt blocks b ≠ sizeAt blocks equilibration
  · refine .inl ⟨Nat.find odd, (Nat.find_spec odd).1, (Nat.find_spec odd).2, fun c place less => ?_⟩
    by_contra differs
    exact Nat.find_min odd less ⟨place, differs⟩
  · push Not at odd
    exact .inr ⟨enough, odd⟩

theorem find_misfit {b : Nat} (misfit : FirstMisfit blocks equilibration stride b) :
    (window equilibration stride blocks).find? (fun block => block.size ≠ sizeAt blocks equilibration) =
      some (blocks.getD b #[]) := by
  have found : (retainedPlaces equilibration stride blocks.length).find?
      (fun c => sizeAt blocks c ≠ sizeAt blocks equilibration) = some b := by
    have place := misfit.place
    rw [mem_retained_places] at place
    rw [retainedPlaces, List.find?_filter, List.find?_range_eq_some]
    refine ⟨?_, List.mem_range.mpr place.1, fun c less => ?_⟩
    · simp [place.2, misfit.differs]
    · by_cases kept : equilibration ≤ c ∧ stride ∣ c - equilibration
      · have even := misfit.before c (mem_retained_places.mpr ⟨less.trans place.1, kept⟩) less
        simp [even]
      · simp [kept]
  rw [window_places equilibration stride blocks #[], List.find?_map]
  exact congrArg _ found

end Sizes

theorem window_whole (xs : List α) : window 0 1 xs = xs := by
  simp [window, Nat.mod_one]

variable [Scalar R]

-- What the average of a window comes to, by the lengths of its retained blocks.
inductive WindowOutcome (blocks : List (Block R)) (name : String) (equilibration stride : Nat) :
    Except Failure (BlockAverage R) → Prop
  | empty (short : blocks.length ≤ equilibration) :
      WindowOutcome blocks name equilibration stride
        (.error (.reported (.emptySample name blocks.length equilibration)))
  | ragged (b : Nat) (misfit : FirstMisfit blocks equilibration stride b) :
      WindowOutcome blocks name equilibration stride
        (.error (.reported (.shapeMismatch name (sizeAt blocks equilibration) (sizeAt blocks b))))
  | even (average : BlockAverage R) (even : EvenWindow blocks equilibration stride)
      (reduced : (averageBlocks (window equilibration stride blocks) name 0 1).Returns average) :
      WindowOutcome blocks name equilibration stride (.ok average)

section Outcome

variable {blocks : List (Block R)} {name : String} {equilibration stride : Nat}

theorem window_outcome_unique {x y : Except Failure (BlockAverage R)}
    (first : WindowOutcome blocks name equilibration stride x)
    (second : WindowOutcome blocks name equilibration stride y) : x = y := by
  cases first with
  | empty short =>
      cases second with
      | empty => rfl
      | ragged b misfit =>
          have place := mem_retained_places.mp misfit.place
          omega
      | even average even reduced => exact absurd even.enough short.not_gt
  | ragged b misfit =>
      cases second with
      | empty short =>
          have place := mem_retained_places.mp misfit.place
          omega
      | ragged c other => rw [misfit.unique other]
      | even average even reduced => exact absurd (even.sizes b misfit.place) misfit.differs
  | even average even reduced =>
      cases second with
      | empty short => exact absurd even.enough short.not_gt
      | ragged b misfit => exact absurd (even.sizes b misfit.place) misfit.differs
      | even other _ again => rw [Run.returns_unique reduced again]

theorem average_blocks_misfit (positive : 1 ≤ stride) (enough : equilibration < blocks.length) {b : Nat}
    (misfit : FirstMisfit blocks equilibration stride b) :
    (averageBlocks blocks name equilibration stride).outcome =
      .error (.reported (.shapeMismatch name (sizeAt blocks equilibration) (sizeAt blocks b))) := by
  have nonzero : stride ≠ 0 := by omega
  obtain ⟨rest, opened⟩ := window_cons stride enough #[]
  have found := find_misfit misfit
  rw [opened, sizeAt] at found
  simp only [averageBlocks, if_neg nonzero, opened, found]
  rfl

theorem average_blocks_even (positive : 1 ≤ stride) (even : EvenWindow blocks equilibration stride) (name : String) :
    (averageBlocks blocks name equilibration stride).Returns
      (averageWindow (window equilibration stride blocks) (sizeAt blocks equilibration)) := by
  rw [average_blocks_returns]
  refine ⟨by omega, even.enough, _, fun block member => ?_, rfl⟩
  rw [window_places equilibration stride blocks #[]] at member
  obtain ⟨b, place, rfl⟩ := List.mem_map.mp member
  exact even.sizes b place

-- The retained blocks are a series of their own that is retained whole.
theorem average_blocks_reduced {average : BlockAverage R}
    (returned : (averageBlocks blocks name equilibration stride).Returns average) :
    (averageBlocks (window equilibration stride blocks) name 0 1).Returns average := by
  rw [average_blocks_returns] at returned ⊢
  obtain ⟨_, enough, length, sizes, averaged⟩ := returned
  obtain ⟨rest, opened⟩ := window_cons stride enough #[]
  rw [window_whole]
  exact ⟨by decide, by simp [opened], length, sizes, averaged⟩

theorem average_blocks_outcome (positive : 1 ≤ stride) (blocks : List (Block R)) (name : String) (equilibration : Nat) :
    WindowOutcome blocks name equilibration stride (averageBlocks blocks name equilibration stride).outcome := by
  rcases Nat.lt_or_ge equilibration blocks.length with enough | short
  · rcases first_misfit_or_even stride enough with ⟨b, misfit⟩ | even
    · rw [average_blocks_misfit positive enough misfit]
      exact .ragged b misfit
    · have returned := average_blocks_even positive even name
      rw [returned]
      exact .even _ even (average_blocks_reduced returned)
  · have nonzero : stride ≠ 0 := by omega
    have failed : (averageBlocks blocks name equilibration stride).outcome =
        .error (.reported (.emptySample name blocks.length equilibration)) := by
      simp only [averageBlocks, if_neg nonzero, (window_empty_iff equilibration stride blocks).mpr short]
      rfl
    exact failed ▸ .empty short

end Outcome

theorem retained_window {stride : Nat} (positive : 1 ≤ stride) (equilibration : Nat) (blocks : List (Block R))
    (name : String) :
    window equilibration stride blocks =
        (retainedPlaces equilibration stride blocks.length).map (fun b => blocks.getD b #[]) ∧
      (equilibration < blocks.length →
        (window equilibration stride blocks).length = (blocks.length - equilibration) ⌈/⌉ stride) ∧
      (∀ outcome, (averageBlocks blocks name equilibration stride).outcome = outcome ↔
        WindowOutcome blocks name equilibration stride outcome) ∧
      ∀ others : List (Block R), others.length = blocks.length →
        (∀ b ∈ retainedPlaces equilibration stride blocks.length, others.getD b #[] = blocks.getD b #[]) →
        averageBlocks others name equilibration stride = averageBlocks blocks name equilibration stride := by
  have outcome := average_blocks_outcome positive blocks name equilibration
  refine ⟨window_places equilibration stride blocks #[], fun _ => window_count positive equilibration blocks #[],
    fun x => ⟨fun same => same ▸ outcome, window_outcome_unique outcome⟩, fun others length same => ?_⟩
  have windows : window equilibration stride others = window equilibration stride blocks := by
    rw [window_places equilibration stride others #[], window_places equilibration stride blocks #[], length]
    exact List.map_congr_left same
  simp only [averageBlocks, windows, length]

-- The second retained block is shorter than the first. An undefined number in a discarded block and the
-- sizes of the discarded blocks do not show.
theorem retained_window_discarded :
    let blocks : List (Block Exact) := [#[0], #[0, 1], #[], #[1], #[]]
    let others : List (Block Exact) := [#[⟨.undefined, 0⟩, 1], #[0, 1], #[0], #[1], #[1, 1]]
    1 ≤ 2 ∧ (window 1 2 blocks).length = 2 ∧
      (averageBlocks blocks "gen_fock_plus" 1 2).outcome =
        .error (.reported (.shapeMismatch "gen_fock_plus" 2 1)) ∧
      averageBlocks others "gen_fock_plus" 1 2 = averageBlocks blocks "gen_fock_plus" 1 2 := by
  intro blocks others
  obtain ⟨_, count, outcome, agree⟩ := retained_window (by decide : 1 ≤ 2) 1 blocks "gen_fock_plus"
  have misfit : FirstMisfit blocks 1 2 3 := ⟨by decide, by decide, by decide⟩
  have places : retainedPlaces 1 2 blocks.length = [1, 3] := by decide
  have ceiling : (blocks.length - 1) ⌈/⌉ 2 = 2 := Nat.ceilDiv_eq_add_pred_div 4 2
  refine ⟨by decide, (count (by decide)).trans ceiling, (outcome _).mpr (.ragged 3 misfit), agree others rfl ?_⟩
  rw [places]
  simp [blocks, others]

end OrbitalSpectra
