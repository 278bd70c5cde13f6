import OrbitalSpectra.Proofs.Outcome

set_option autoImplicit false

namespace OrbitalSpectra

variable {α β σ : Type}

section Outcomes

theorem except_map_eq {ε : Type} (f : α → β) (x : Except ε α) : x.map f = f <$> x := rfl

theorem or_fault_map (f : α → β) (x : Option α) : orFault (x.map f) = (orFault x).map f := by
  cases x <;> rfl

theorem reporting_map (f : α → β) (x : Except AnalysisError α) : reporting (x.map f) = (reporting x).map f := by
  cases x <;> rfl

theorem map_m_map {ε ι : Type} (f : ι → Except ε α) (g : α → β) (xs : List ι) :
    xs.mapM (fun x => (f x).map g) = (xs.mapM f).map (List.map g) := by
  induction xs with
  | nil => rfl
  | cons x rest ih =>
      rw [List.mapM_cons, List.mapM_cons, ih]
      cases f x with
      | error e => rfl
      | ok first =>
          cases rest.mapM f with
          | error e => rfl
          | ok others => rfl

end Outcomes

namespace Run

theorem recorded_map (f : α → β) (event : Event) (x : Except AnalysisError α) :
    recorded event (x.map f) = f <$> recorded event x := by
  cases x <;> rfl

theorem lift_map (f : α → β) (x : Except Failure α) : (liftM (x.map f) : Run β) = f <$> (liftM x : Run α) := by
  cases x <;> rfl

theorem map_events (f : α → β) (x : Run α) : (f <$> x).events = x.events := by
  cases held : x.outcome with
  | error e => rw [← bind_pure_comp, bind_error _ held]
  | ok a =>
      rw [← bind_pure_comp, bind_ok _ held]
      exact List.append_nil _

theorem try_map (f : α → β) (x : Run α) {handle : Failure → Run α} {other : Failure → Run β}
    (same : ∀ e, other e = f <$> handle e) : tryCatch (f <$> x) other = f <$> tryCatch x handle := by
  have mapped := map_outcome f x
  cases held : x.outcome with
  | ok a =>
      rw [held] at mapped
      rw [try_ok handle held, try_ok other mapped]
  | error e =>
      rw [held] at mapped
      rw [try_error handle held, try_error other mapped, same]
      apply ext
      · rw [map_outcome, map_outcome]
      · rw [map_events, map_events, map_events]

end Run

namespace Sampling

theorem run_lift_map (f : α → β) (x : Run α) :
    (liftM (f <$> x) : Sampling σ β) = f <$> (liftM x : Sampling σ α) := by
  funext state
  change ((f <$> x) >>= fun b => pure (b, state)) =
    (fun held : α × σ => (f held.1, held.2)) <$> (x >>= fun a => pure (a, state))
  simp only [bind_map_left, map_bind, map_pure]

theorem except_lift_map (f : α → β) (x : Except Failure α) :
    (liftM (x.map f) : Sampling σ β) = f <$> (liftM x : Sampling σ α) := by
  cases x <;> rfl

theorem except_lift_ok (a : α) : (liftM (Except.ok a : Except Failure α) : Sampling σ α) = pure a := rfl

theorem of_draw_map {f : α → β} {draw : σ → Except Failure α × σ} {other : σ → Except Failure β × σ}
    (same : ∀ state, other state = ((draw state).1.map f, (draw state).2)) : ofDraw other = f <$> ofDraw draw := by
  funext state
  change Run.ofExcept ((other state).1.map fun b => (b, (other state).2)) =
    (fun held : α × σ => (f held.1, held.2)) <$> Run.ofExcept ((draw state).1.map fun a => (a, (draw state).2))
  rw [same]
  cases (draw state).1 <;> rfl

theorem replicate_map (f : α → β) (step : Sampling σ α) (n : Nat) :
    replicate (f <$> step) n = List.map f <$> replicate step n := by
  induction n with
  | zero => simp [replicate]
  | succ n ih => simp [replicate, ih, map_bind]

theorem collect_map (f : α → β) (step : Sampling σ α) (n : Nat) :
    collect (f <$> step) n = List.map f <$> collect step n := by
  rw [collect, collect, replicate_map, map_bind]

end Sampling

end OrbitalSpectra
