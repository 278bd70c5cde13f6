import OrbitalSpectra.Bootstrap

set_option autoImplicit false

namespace OrbitalSpectra

variable {α β σ : Type}

theorem reporting_ok_iff (x : Except AnalysisError α) (a : α) : reporting x = .ok a ↔ x = .ok a := by
  cases x <;> simp

theorem or_fault_ok_iff (x : Option α) (a : α) : orFault x = .ok a ↔ x = some a := by
  cases x <;> simp

theorem except_bind_ok_iff {ε : Type} (x : Except ε α) (f : α → Except ε β) (b : β) :
    (x >>= f) = .ok b ↔ ∃ a, x = .ok a ∧ f a = .ok b := by
  cases x with
  | error e => simp [Bind.bind, Except.bind]
  | ok a => simp [Bind.bind, Except.bind]

theorem except_map_ok_iff {ε : Type} (x : Except ε α) (f : α → β) (b : β) :
    x.map f = .ok b ↔ ∃ a, x = .ok a ∧ f a = b := by
  cases x <;> simp [Except.map]

theorem except_map_error_iff {ε : Type} (x : Except ε α) (f : α → β) (e : ε) :
    x.map f = .error e ↔ x = .error e := by
  cases x <;> simp [Except.map]

theorem except_lift_ok_iff (x : Except AnalysisError α) (a : α) :
    (liftM x : Except Failure α) = .ok a ↔ x = .ok a :=
  reporting_ok_iff x a

namespace Run

def Returns (x : Run α) (a : α) : Prop := x.outcome = .ok a

theorem returns_unique {x : Run α} {a b : α} (first : x.Returns a) (second : x.Returns b) : a = b :=
  Except.ok.inj (first.symm.trans second)

theorem returns_of_ok {x : Run α} (ok : x.outcome.isOk = true) : ∃ a, x.Returns a := by
  unfold Returns
  cases held : x.outcome with
  | error e => rw [held] at ok; cases ok
  | ok a => exact ⟨a, rfl⟩

theorem pure_returns (a b : α) : Returns (Pure.pure a : Run α) b ↔ a = b := by
  change Except.ok a = Except.ok b ↔ a = b
  exact ⟨Except.ok.inj, congrArg Except.ok⟩

theorem throw_returns (e : Failure) (a : α) : ¬ Returns (throw e : Run α) a := by
  intro returned
  cases returned

theorem bind_outcome (x : Run α) (f : α → Run β) :
    (x >>= f).outcome = x.outcome >>= fun a => (f a).outcome := by
  cases held : x.outcome with
  | error e => rw [bind_error f held]; rfl
  | ok a => rw [bind_ok f held]; rfl

theorem map_outcome (f : α → β) (x : Run α) : (f <$> x).outcome = x.outcome.map f := by
  rw [← bind_pure_comp, bind_outcome]
  cases x.outcome <;> rfl

theorem try_ok {x : Run α} {a : α} (handle : Failure → Run α) (ok : x.outcome = .ok a) :
    tryCatch x handle = x := by
  simp only [tryCatch, tryCatchThe, MonadExceptOf.tryCatch, ok]

theorem try_error {x : Run α} {e : Failure} (handle : Failure → Run α) (failed : x.outcome = .error e) :
    tryCatch x handle = ⟨(handle e).outcome, x.events ++ (handle e).events⟩ := by
  simp only [tryCatch, tryCatchThe, MonadExceptOf.tryCatch, failed]

theorem bind_returns (x : Run α) (f : α → Run β) (b : β) :
    Returns (x >>= f) b ↔ ∃ a, x.Returns a ∧ (f a).Returns b := by
  unfold Returns
  cases held : x.outcome with
  | error e => simp [bind_error f held]
  | ok a => simp [bind_ok f held]

-- What follows a step matters at its results only.
theorem bind_congr_returns {x : Run α} {f g : α → Run β} (same : ∀ a, x.Returns a → f a = g a) :
    x >>= f = x >>= g := by
  cases held : x.outcome with
  | error e => rw [bind_error f held, bind_error g held]
  | ok a => rw [bind_ok f held, bind_ok g held, same a held]

theorem lift_returns (x : Except Failure α) (a : α) : Returns (liftM x : Run α) a ↔ x = .ok a :=
  Iff.rfl

theorem lift_reporting_returns (x : Except AnalysisError α) (a : α) :
    Returns (liftM (reporting x) : Run α) a ↔ x = .ok a := by
  rw [lift_returns, reporting_ok_iff]

theorem recorded_returns (event : Event) (x : Except AnalysisError α) (a : α) :
    Returns (recorded event x) a ↔ x = .ok a :=
  reporting_ok_iff x a

theorem note_returns (n : Notice) (a : Unit) : Returns (note n) a := rfl

end Run

namespace Sampling

-- The step, started on the stream in `state`, gives `a` and leaves the stream in `next`.
def Yields (step : Sampling σ α) (state : σ) (a : α) (next : σ) : Prop :=
  (step state).Returns (a, next)

theorem yields_unique {step : Sampling σ α} {state : σ} {a b : α} {next final : σ}
    (first : step.Yields state a next) (second : step.Yields state b final) : a = b ∧ next = final :=
  Prod.mk.inj (Run.returns_unique first second)

theorem pure_yields (a b : α) (state next : σ) :
    Yields (pure a : Sampling σ α) state b next ↔ a = b ∧ state = next := by
  change Run.Returns (pure (a, state) : Run (α × σ)) (b, next) ↔ _
  rw [Run.pure_returns, Prod.mk.injEq]

theorem bind_yields (step : Sampling σ α) (f : α → Sampling σ β) (state : σ) (b : β) (final : σ) :
    Yields (step >>= f) state b final ↔
      ∃ a next, Yields step state a next ∧ Yields (f a) next b final := by
  change Run.Returns (step state >>= fun drawn => f drawn.1 drawn.2) (b, final) ↔ _
  rw [Run.bind_returns, Prod.exists]
  rfl

theorem bind_congr_yields {step : Sampling σ α} {f g : α → Sampling σ β}
    (same : ∀ state a next, Yields step state a next → f a = g a) : step >>= f = step >>= g := by
  funext state
  exact Run.bind_congr_returns fun drawn yields => congrFun (same state drawn.1 drawn.2 yields) drawn.2

theorem run_yields (x : Run α) (state : σ) (a : α) (next : σ) :
    Yields (liftM x : Sampling σ α) state a next ↔ x.Returns a ∧ state = next := by
  change Run.Returns (x >>= fun held => pure (held, state)) (a, next) ↔ _
  simp only [Run.bind_returns, Run.pure_returns, Prod.mk.injEq]
  constructor
  · rintro ⟨held, returned, rfl, rfl⟩
    exact ⟨returned, rfl⟩
  · rintro ⟨returned, rfl⟩
    exact ⟨a, returned, rfl, rfl⟩

theorem except_yields (x : Except Failure α) (state : σ) (a : α) (next : σ) :
    Yields (liftM x : Sampling σ α) state a next ↔ x = .ok a ∧ state = next :=
  run_yields (liftM x : Run α) state a next

theorem draw_yields (draw : σ → Except Failure α × σ) (state : σ) (a : α) (next : σ) :
    Yields (ofDraw draw) state a next ↔ draw state = (.ok a, next) := by
  change ((draw state).1.map fun held => (held, (draw state).2)) = .ok (a, next) ↔ _
  cases drawn : draw state with
  | mk outcome after => cases outcome <;> simp [Except.map]

end Sampling

end OrbitalSpectra
