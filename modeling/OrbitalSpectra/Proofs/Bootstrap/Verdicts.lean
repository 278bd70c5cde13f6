import OrbitalSpectra.Proofs.Bootstrap.Draws

set_option autoImplicit false

namespace OrbitalSpectra

variable {α β γ δ σ : Type}

namespace Sampling

-- On every stream the step fails as the verdict does, or gives a result of the kind of its answer.
structure Decides (step : Sampling σ α) (verdict : Except Failure β) (kind : β → α → Prop) : Prop where
  fails : ∀ e, verdict = .error e → ∀ state, (step state).outcome = .error e
  gives : ∀ b, verdict = .ok b → ∀ state, ∃ a next, step.Yields state a next ∧ kind b a

variable {kind : β → α → Prop} {step : Sampling σ α} {verdict : Except Failure β}

theorem Decides.mono {other : β → α → Prop} (decided : Decides step verdict kind)
    (weaker : ∀ b a, kind b a → other b a) : Decides step verdict other where
  fails := decided.fails
  gives := by
    intro b held state
    obtain ⟨a, next, yields, holds⟩ := decided.gives b held state
    exact ⟨a, next, yields, weaker b a holds⟩

theorem returned_decides {x : Run α} {a : α} {b : β} (returned : x.Returns a) (holds : kind b a) :
    Decides (liftM x : Sampling σ α) (.ok b) kind where
  fails := by simp
  gives := by
    rintro _ ⟨⟩ state
    exact ⟨a, state, (run_yields _ _ _ _).mpr ⟨returned, rfl⟩, holds⟩

theorem pure_decides {a : α} {b : β} (holds : kind b a) : Decides (pure a : Sampling σ α) (.ok b) kind :=
  returned_decides (x := pure a) rfl holds

-- What the kind says of the results is the outcome, the stream left aside.
theorem Decides.outcome {view : α → β} (decided : Decides step verdict fun b a => view a = b) (state : σ) :
    (step state).outcome.map (fun drawn => view drawn.1) = verdict := by
  cases held : verdict with
  | error e => rw [decided.fails e held state]; rfl
  | ok b =>
      obtain ⟨a, next, yields, rfl⟩ := decided.gives b held state
      rw [show (step state).outcome = .ok (a, next) from yields]
      rfl

theorem bind_decides {f : α → Sampling σ γ} {next : β → Except Failure δ} {result : δ → γ → Prop}
    (first : Decides step verdict kind)
    (rest : ∀ b a, verdict = .ok b → kind b a → Decides (f a) (next b) result) :
    Decides (step >>= f) (verdict >>= next) result := by
  cases held : verdict with
  | error e =>
      have failed (state : σ) : ((step >>= f) state).outcome = .error e := by
        change (step state >>= fun drawn => f drawn.1 drawn.2).outcome = _
        rw [Run.bind_error _ (first.fails e held state)]
      refine ⟨?_, by rintro _ ⟨⟩⟩
      rintro _ ⟨⟩
      exact failed
  | ok b =>
      constructor
      · intro e later state
        obtain ⟨a, middle, earlier, holds⟩ := first.gives b held state
        change (step state >>= fun drawn => f drawn.1 drawn.2).outcome = _
        rw [Run.bind_ok _ earlier]
        exact (rest b a held holds).fails e later middle
      · intro d later state
        obtain ⟨a, middle, earlier, holds⟩ := first.gives b held state
        obtain ⟨c, final, yields, holds⟩ := (rest b a held holds).gives d later middle
        exact ⟨c, final, (bind_yields _ _ _ _ _).mpr ⟨a, middle, earlier, yields⟩, holds⟩

theorem except_decides (x : Except Failure α) : Decides (liftM x : Sampling σ α) x (· = ·) where
  fails := by
    rintro _ rfl state
    rfl
  gives := by
    rintro a rfl state
    exact ⟨a, state, (except_yields _ _ _ _).mpr ⟨rfl, rfl⟩, rfl⟩

theorem except_bind_decides {x : Except Failure α} {f : α → Sampling σ γ} {next : α → Except Failure δ}
    {result : δ → γ → Prop} (rest : ∀ a, x = .ok a → Decides (f a) (next a) result) :
    Decides ((liftM x : Sampling σ α) >>= f) (x >>= next) result :=
  bind_decides (except_decides x) fun _ _ held same => same ▸ rest _ held

theorem returned_bind_decides {x : Run γ} {a : γ} {f : γ → Sampling σ α} (returned : x.Returns a)
    (rest : Decides (f a) verdict kind) : Decides ((liftM x : Sampling σ γ) >>= f) verdict kind := by
  have first : Decides (liftM x : Sampling σ γ) (.ok a) (· = ·) := returned_decides returned rfl
  have drawn : Decides ((liftM x : Sampling σ γ) >>= f) ((.ok a : Except Failure γ) >>= fun _ => verdict) kind := by
    refine bind_decides first fun b c held same => ?_
    cases held
    cases same
    exact rest
  exact drawn

theorem sure_bind_decides {x : Except Failure γ} {a : γ} {f : γ → Sampling σ α} (ok : x = .ok a)
    (rest : Decides (f a) verdict kind) : Decides ((liftM x : Sampling σ γ) >>= f) verdict kind :=
  returned_bind_decides (x := (liftM x : Run γ)) ok rest

-- Of several copies the first meets what all of them meet.
theorem replicate_decides (decided : Decides step verdict kind) (n : Nat) :
    Decides (replicate step (n + 1)) verdict fun b drawn => drawn.length = n + 1 ∧ ∀ a ∈ drawn, kind b a where
  fails := by
    intro e failed state
    change (step state >>= _).outcome = _
    rw [Run.bind_error _ (decided.fails e failed state)]
  gives := by
    intro b held state
    exact replicate_yields (decided.gives b held) (n + 1) state

theorem collect_decides (decided : Decides step verdict kind) {n : Nat} (some : 1 ≤ n) :
    Decides (collect step n) (requireRoom n vectorSize >>= fun _ => verdict) fun b drawn =>
      drawn.length = n ∧ ∀ a ∈ drawn, kind b a := by
  obtain ⟨count, rfl⟩ : ∃ count, n = count + 1 := ⟨n - 1, by omega⟩
  exact except_bind_decides fun _ _ => replicate_decides decided count

end Sampling

open Sampling

section Matrices

variable {R : Type} [Scalar R] [NormalStream σ R]

def refusedPlace (error : Mat R) (place : Nat × Nat) : Bool := ¬ Scalar.isFinite (error.entry place.1 place.2)

-- A matrix is drawn unless its shape or one of its deviations is refused, the first column by column.
def sampleVerdict (m : Mat (Cplx R)) (error : Mat R) : Except Failure Unit :=
  if m.cols ≠ m.rows ∨ error.shape ≠ m.shape then
    .error (.reported (.shapeMismatch "perturbed matrix" (m.rows * m.rows) error.size))
  else
    match (columnPlaces m.rows).find? (refusedPlace error) with
    | some (i, j) => .error (.reported (.perturbation i j))
    | none => .ok ()

theorem draw_entries_refused (m : Mat (Cplx R)) (error : Mat R) (places : List (Nat × Nat)) (i j : Nat)
    (refused : places.find? (refusedPlace error) = some (i, j)) (state : σ) :
    (drawEntries m error places state).1 = .error (.perturbation i j) := by
  induction places generalizing state with
  | nil => cases refused
  | cons place rest ih =>
      obtain ⟨row, col⟩ := place
      by_cases finite : Scalar.isFinite (error.entry row col) = true
      · rw [List.find?_cons_of_neg (by simp [refusedPlace, finite])] at refused
        have later := ih refused (NormalStream.next (R := R) state).2
        simp only [drawEntries, drawEntry, if_pos finite]
        split
        · rename_i failed
          rw [failed] at later
          exact later
        · rename_i drawn
          rw [drawn] at later
          cases later
      · rw [List.find?_cons_of_pos (by simp [refusedPlace, finite])] at refused
        cases refused
        simp only [drawEntries, drawEntry, if_neg finite]

theorem sample_matrix_decides (m : Mat (Cplx R)) (error : Mat R) :
    Decides (ofDraw (sampleMatrix (σ := σ) m error)) (sampleVerdict m error) fun _ drawn =>
      drawn.shape = (m.rows, m.rows) := by
  by_cases odd : m.cols ≠ m.rows ∨ error.shape ≠ m.shape
  · rw [sampleVerdict, if_pos odd]
    refine ⟨?_, by rintro _ ⟨⟩⟩
    rintro _ ⟨⟩ state
    simp only [ofDraw, sampleMatrix, if_pos odd]
    rfl
  · rw [sampleVerdict, if_neg odd]
    cases found : (columnPlaces m.rows).find? (refusedPlace error) with
    | some place =>
        obtain ⟨i, j⟩ := place
        refine ⟨?_, by rintro _ ⟨⟩⟩
        rintro _ ⟨⟩ state
        cases drawn : drawEntries m error (columnPlaces m.rows) state with
        | mk outcome after =>
            have refused := draw_entries_refused m error _ i j found state
            rw [drawn] at refused
            cases refused
            simp only [ofDraw, sampleMatrix, if_neg odd, drawn]
            rfl
    | none =>
        refine ⟨by rintro _ ⟨⟩, ?_⟩
        rintro _ ⟨⟩ state
        obtain ⟨square, shape⟩ : m.cols = m.rows ∧ error.shape = m.shape := by simpa using odd
        have finite : ∀ i j, i < m.rows → j < m.rows → Scalar.isFinite (error.entry i j) = true := by
          rw [← column_places_forall m.rows fun place => Scalar.isFinite (error.entry place.1 place.2) = true]
          simpa [refusedPlace] using found
        have drawn := (sample_matrix_ok_iff m error state _ _).mpr
          ⟨square, shape, finite, hermitian_part_of_fn _ _, rfl⟩
        exact ⟨_, _, (draw_yields _ _ _ _).mpr drawn, rfl⟩

end Matrices

end OrbitalSpectra
