import Mathlib
import OrbitalSpectra.Proofs.Outcome

set_option autoImplicit false

namespace OrbitalSpectra

namespace NormalStream

def skip (R : Type) {σ : Type} [NormalStream σ R] : Nat → σ → σ
  | 0, state => state
  | n + 1, state => skip R n (next (R := R) state).2

def drawAt (R : Type) {σ : Type} [NormalStream σ R] (state : σ) (k : Nat) : R := (next (skip R k state)).1

variable (R : Type) {σ : Type} [NormalStream σ R]

theorem skip_add (m n : Nat) (state : σ) : skip R (m + n) state = skip R n (skip R m state) := by
  induction m generalizing state with
  | zero => rw [Nat.zero_add]; rfl
  | succ m ih => rw [Nat.add_right_comm]; exact ih _

end NormalStream

open NormalStream

section Spends

variable {α β σ : Type} (R : Type) [NormalStream σ R]

-- Whenever the step gives a result, it has spent so many draws.
def Sampling.Spends (step : Sampling σ α) (count : Nat) : Prop :=
  ∀ state a next, step.Yields state a next → next = skip R count state

namespace Sampling

theorem pure_spends (a : α) : Spends R (pure a : Sampling σ α) 0 := by
  intro state b next yields
  exact ((pure_yields _ _ _ _).mp yields).2.symm

theorem run_spends (x : Run α) : Spends R (liftM x : Sampling σ α) 0 := by
  intro state a next yields
  exact ((run_yields _ _ _ _).mp yields).2.symm

theorem except_spends (x : Except Failure α) : Spends R (liftM x : Sampling σ α) 0 :=
  run_spends R (liftM x : Run α)

theorem bind_spends {step : Sampling σ α} {f : α → Sampling σ β} {first second : Nat}
    (stepSpends : Spends R step first) (restSpends : ∀ a, Spends R (f a) second) :
    Spends R (step >>= f) (first + second) := by
  intro state b final yields
  obtain ⟨a, next, earlier, later⟩ := (bind_yields _ _ _ _ _).mp yields
  rw [skip_add, ← stepSpends _ _ _ earlier]
  exact restSpends a _ _ _ later

theorem replicate_spends {step : Sampling σ α} {count : Nat} (stepSpends : Spends R step count) (n : Nat) :
    Spends R (replicate step n) (n * count) := by
  induction n with
  | zero =>
      rw [Nat.zero_mul]
      exact pure_spends R []
  | succ n ih =>
      have whole := bind_spends R stepSpends fun first =>
        bind_spends R ih fun rest => pure_spends (σ := σ) R (first :: rest)
      rwa [Nat.add_zero, Nat.add_comm, ← Nat.succ_mul] at whole

theorem collect_spends {step : Sampling σ α} {count : Nat} (stepSpends : Spends R step count) (n : Nat) :
    Spends R (collect step n) (n * count) := by
  have whole := bind_spends R (except_spends (σ := σ) R (requireRoom n vectorSize)) fun _ =>
    replicate_spends R stepSpends n
  rwa [Nat.zero_add] at whole

theorem replicate_yields {step : Sampling σ α} {kind : α → Prop}
    (always : ∀ state, ∃ a after, step.Yields state a after ∧ kind a) (count : Nat) (state : σ) :
    ∃ drawn after, (replicate step count).Yields state drawn after ∧ drawn.length = count ∧ ∀ a ∈ drawn, kind a := by
  induction count generalizing state with
  | zero => exact ⟨[], state, (pure_yields _ _ _ _).mpr ⟨rfl, rfl⟩, rfl, by simp⟩
  | succ count ih =>
      obtain ⟨a, middle, first, holds⟩ := always state
      obtain ⟨drawn, after, rest, length, all⟩ := ih middle
      refine ⟨a :: drawn, after, (bind_yields _ _ _ _ _).mpr ⟨a, middle, first, (bind_yields _ _ _ _ _).mpr ?_⟩,
        congrArg (· + 1) length, List.forall_mem_cons.mpr ⟨holds, all⟩⟩
      exact ⟨drawn, after, rest, (pure_yields _ _ _ _).mpr ⟨rfl, rfl⟩⟩

theorem collect_yields {step : Sampling σ α} {a : α} (always : ∀ state, ∃ after, step.Yields state a after)
    {count : Nat} (room : fitsMemory count vectorSize = true) (state : σ) :
    ∃ after, (collect step count).Yields state (List.replicate count a) after := by
  have copy (state : σ) : ∃ b after, step.Yields state b after ∧ b = a := by
    obtain ⟨after, yields⟩ := always state
    exact ⟨a, after, yields, rfl⟩
  obtain ⟨drawn, after, copies, length, all⟩ := replicate_yields copy count state
  obtain rfl := List.eq_replicate_iff.mpr ⟨length, all⟩
  refine ⟨after, (bind_yields _ _ _ _ _).mpr ⟨(), state, ?_, copies⟩⟩
  exact (except_yields _ _ _ _).mpr ⟨if_pos room, rfl⟩

theorem replicate_each {step : Sampling σ α} {kind : α → Prop}
    (each : ∀ state a next, step.Yields state a next → kind a) {count : Nat} {state next : σ} {drawn : List α}
    (yields : (replicate step count).Yields state drawn next) : drawn.length = count ∧ ∀ a ∈ drawn, kind a := by
  induction count generalizing state drawn with
  | zero =>
      obtain ⟨rfl, _⟩ := (pure_yields _ _ _ _).mp yields
      exact ⟨rfl, by simp⟩
  | succ count ih =>
      simp only [replicate, bind_yields, pure_yields] at yields
      obtain ⟨first, middle, head, rest, _, tail, rfl, rfl⟩ := yields
      obtain ⟨length, all⟩ := ih tail
      exact ⟨congrArg (· + 1) length, List.forall_mem_cons.mpr ⟨each _ _ _ head, all⟩⟩

-- The runs of a step that spends so many draws start that far from each other.
theorem replicate_yields_at {step : Sampling σ α} {count : Nat}
    (spends : Spends R step count) {n : Nat} {state next : σ} {drawn : List α}
    (yields : (replicate step n).Yields state drawn next) :
    drawn.length = n ∧ ∀ k a, drawn[k]? = some a →
      Yields step (skip R (k * count) state) a (skip R ((k + 1) * count) state) := by
  induction n generalizing state drawn with
  | zero =>
      obtain ⟨rfl, _⟩ := (pure_yields _ _ _ _).mp yields
      exact ⟨rfl, by simp⟩
  | succ n ih =>
      simp only [replicate, bind_yields, pure_yields] at yields
      obtain ⟨first, middle, head, rest, _, tail, rfl, rfl⟩ := yields
      obtain rfl := spends _ _ _ head
      obtain ⟨length, each⟩ := ih tail
      refine ⟨congrArg (· + 1) length, ?_⟩
      intro k a found
      cases k with
      | zero =>
          cases Option.some.inj found
          rw [Nat.zero_mul, Nat.zero_add, Nat.one_mul]
          exact head
      | succ k =>
          have past (k : Nat) : skip R ((k + 1) * count) state = skip R (k * count) (skip R count state) := by
            rw [Nat.succ_mul, Nat.add_comm, skip_add]
          rw [past k, past (k + 1)]
          exact each k a found

-- What every result of the step is, all results of its runs are.
theorem collect_each {step : Sampling σ α} {kind : α → Prop}
    (each : ∀ state a next, step.Yields state a next → kind a) {count : Nat} {state next : σ} {drawn : List α}
    (yields : (collect step count).Yields state drawn next) : drawn.length = count ∧ ∀ a ∈ drawn, kind a := by
  obtain ⟨_, _, _, copies⟩ := (bind_yields _ _ _ _ _).mp yields
  exact replicate_each each copies

end Sampling

end Spends

section Entries

variable {σ R : Type} [Scalar R] [NormalStream σ R]

def perturbedEntry (m : Mat (Cplx R)) (error : Mat R) (i j : Nat) (z : R) : R :=
  (m.entry i j).re + error.entry i j * z

theorem draw_entry_ok_iff (m : Mat (Cplx R)) (error : Mat R) (i j : Nat) (state : σ) (x : R) (next : σ) :
    drawEntry m error i j state = (.ok x, next) ↔ Scalar.isFinite (error.entry i j) = true ∧
      perturbedEntry m error i j (drawAt R state 0) = x ∧ skip R 1 state = next := by
  by_cases finite : Scalar.isFinite (error.entry i j) = true
  · simp [drawEntry, finite, perturbedEntry, drawAt, skip]
  · simp [drawEntry, finite]

theorem draw_entries_ok_iff (m : Mat (Cplx R)) (error : Mat R) (places : List (Nat × Nat)) (state : σ)
    (xs : List R) (next : σ) :
    drawEntries m error places state = (.ok xs, next) ↔
      (∀ place ∈ places, Scalar.isFinite (error.entry place.1 place.2) = true) ∧
      xs = places.mapIdx (fun k place => perturbedEntry m error place.1 place.2 (drawAt R state k)) ∧
      next = skip R places.length state := by
  induction places generalizing state xs next with
  | nil =>
      simp only [drawEntries, skip, Prod.mk.injEq, Except.ok.injEq, List.mapIdx_nil, List.length_nil,
        List.not_mem_nil, false_implies, implies_true, true_and]
      exact and_congr eq_comm eq_comm
  | cons place rest ih =>
      obtain ⟨i, j⟩ := place
      have first := draw_entry_ok_iff m error i j state
      cases drawn : drawEntry m error i j state with
      | mk outcome after =>
          cases outcome with
          | error e =>
              have refused : ¬ Scalar.isFinite (error.entry i j) = true := by
                intro finite
                have ok := (first _ _).mpr ⟨finite, rfl, rfl⟩
                rw [drawn] at ok
                cases ok
              simp [drawEntries, drawn, refused]
          | ok x =>
              obtain ⟨finite, rfl, rfl⟩ := (first x after).mp drawn
              have tail := ih (skip R 1 state)
              cases others : drawEntries m error rest (skip R 1 state) with
              | mk result final =>
                  cases result with
                  | error e =>
                      have refused : ¬ ∀ place ∈ rest, Scalar.isFinite (error.entry place.1 place.2) = true := by
                        intro finite
                        have ok := (tail _ _).mpr ⟨finite, rfl, rfl⟩
                        rw [others] at ok
                        cases ok
                      simp only [drawEntries, drawn, others, List.forall_mem_cons]
                      refine iff_of_false (by simp) ?_
                      rintro ⟨⟨_, all⟩, _⟩
                      exact refused all
                  | ok ys =>
                      obtain ⟨all, rfl, rfl⟩ := (tail ys final).mp others
                      simp only [drawEntries, drawn, others, Prod.mk.injEq, Except.ok.injEq, List.mapIdx_cons,
                        List.length_cons, List.forall_mem_cons]
                      constructor
                      · rintro ⟨rfl, rfl⟩
                        exact ⟨⟨finite, all⟩, rfl, rfl⟩
                      · rintro ⟨_, rfl, rfl⟩
                        exact ⟨rfl, rfl⟩

-- Entry `(i, j)` is drawn as number `j * n + i`, column by column.
def perturbed (m : Mat (Cplx R)) (error : Mat R) (state : σ) (i j : Nat) : Cplx R :=
  Cplx.ofReal (perturbedEntry m error i j (drawAt R state (j * m.rows + i)))

theorem column_places_forall (n : Nat) (p : Nat × Nat → Prop) :
    (∀ place ∈ columnPlaces n, p place) ↔ ∀ i j, i < n → j < n → p (i, j) := by
  constructor
  · intro every i j row col
    apply every
    have inside := Mat.index_lt col row
    exact List.mem_map.mpr ⟨j * n + i, List.mem_range.mpr inside, by rw [Mat.index_mod row, Mat.index_div row]⟩
  · intro every place member
    obtain ⟨k, inside, rfl⟩ := List.mem_map.mp member
    have bound := List.mem_range.mp inside
    have positive : 0 < n := Nat.pos_of_ne_zero fun zero => by simp [zero] at bound
    exact every _ _ (Nat.mod_lt k positive) (Nat.div_lt_of_lt_mul bound)

theorem column_places_drawn (n : Nat) (f : Nat → Nat × Nat → R) {i j : Nat} (row : i < n) (col : j < n) :
    ((columnPlaces n).mapIdx f).toArray.getD (j * n + i) 0 = f (j * n + i) (i, j) := by
  have inside := Mat.index_lt col row
  simp [columnPlaces, Array.getD_eq_getD_getElem?, inside, Mat.index_mod row, Mat.index_div row]

theorem sample_matrix_ok_iff (m : Mat (Cplx R)) (error : Mat R) (state : σ) (drawn : Mat (Cplx R)) (next : σ) :
    sampleMatrix m error state = (.ok drawn, next) ↔
      m.cols = m.rows ∧ error.shape = m.shape ∧
      (∀ i j, i < m.rows → j < m.rows → Scalar.isFinite (error.entry i j) = true) ∧
      hermitianPart (Mat.ofFn m.rows m.rows (perturbed m error state)) = .ok drawn ∧
      next = skip R (m.rows * m.rows) state := by
  by_cases odd : m.cols ≠ m.rows ∨ error.shape ≠ m.shape
  · simp only [sampleMatrix, if_pos odd]
    refine iff_of_false (by simp) ?_
    rintro ⟨square, shape, _⟩
    exact odd.elim (fun differs => differs square) fun differs => differs shape
  · have fits : m.cols = m.rows ∧ error.shape = m.shape := by
      constructor
      · by_contra differs
        exact odd (Or.inl differs)
      · by_contra differs
        exact odd (Or.inr differs)
    have entries := draw_entries_ok_iff m error (columnPlaces m.rows) state
    rw [column_places_forall] at entries
    simp only [sampleMatrix, if_neg odd]
    cases result : drawEntries m error (columnPlaces m.rows) state with
    | mk outcome after =>
        cases outcome with
        | error e =>
            refine iff_of_false (by simp) ?_
            rintro ⟨_, _, finite, _⟩
            have ok := (entries _ _).mpr ⟨finite, rfl, rfl⟩
            rw [result] at ok
            cases ok
        | ok xs =>
            obtain ⟨finite, listed, spent⟩ := (entries xs after).mp result
            have same : (Mat.ofFn m.rows m.rows fun i j => Cplx.ofReal (xs.toArray.getD (j * m.rows + i) 0)) =
                Mat.ofFn m.rows m.rows (perturbed m error state) := by
              apply Mat.of_fn_congr
              intro i j row col
              rw [listed, column_places_drawn m.rows _ row col]
              rfl
            have total : (columnPlaces m.rows).length = m.rows * m.rows := by simp [columnPlaces]
            rw [total] at spent
            simp only [same, Prod.mk.injEq]
            constructor
            · rintro ⟨made, rfl⟩
              exact ⟨fits.1, fits.2, finite, made, spent⟩
            · rintro ⟨_, _, _, made, rfl⟩
              exact ⟨made, spent⟩

theorem sample_matrix_spends (m : Mat (Cplx R)) (error : Mat R) :
    Sampling.Spends R (Sampling.ofDraw (sampleMatrix (σ := σ) m error)) (m.rows * m.rows) := by
  intro state drawn next yields
  exact ((sample_matrix_ok_iff m error state drawn next).mp ((Sampling.draw_yields _ _ _ _).mp yields)).2.2.2.2

end Entries

end OrbitalSpectra
