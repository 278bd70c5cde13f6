import OrbitalSpectra.Proofs.Outcome

set_option autoImplicit false

namespace OrbitalSpectra

variable {α β σ τ : Type}

namespace Run

def trace (view : Event → Option τ) (x : Run α) : List τ := x.events.filterMap view

variable {view : Event → Option τ}

theorem bind_trace_returned {x : Run α} {a : α} (f : α → Run β) (returned : x.Returns a) :
    (x >>= f).trace view = x.trace view ++ (f a).trace view := by
  rw [bind_ok f returned, trace, List.filterMap_append]
  rfl

theorem bind_trace_failed {x : Run α} {e : Failure} (f : α → Run β) (failed : x.outcome = .error e) :
    (x >>= f).trace view = x.trace view := by
  rw [bind_error f failed]
  rfl

theorem bind_trace_last (x : Run α) {f : α → Run β} (last : ∀ a, (f a).trace view = []) :
    (x >>= f).trace view = x.trace view := by
  cases held : x.outcome with
  | error e => exact bind_trace_failed f held
  | ok a => rw [bind_trace_returned f held, last, List.append_nil]

theorem bind_trace_none {x : Run α} {f : α → Run β} (first : x.trace view = []) (rest : ∀ a, (f a).trace view = []) :
    (x >>= f).trace view = [] :=
  (bind_trace_last x rest).trans first

theorem try_trace_failed {x : Run α} {e : Failure} (handle : Failure → Run α) (failed : x.outcome = .error e) :
    (tryCatch x handle).trace view = x.trace view ++ (handle e).trace view := by
  rw [try_error handle failed, trace, List.filterMap_append]
  rfl

theorem try_trace_none {x : Run α} {handle : Failure → Run α} (tried : x.trace view = [])
    (handled : ∀ e, (handle e).trace view = []) : (tryCatch x handle).trace view = [] := by
  cases held : x.outcome with
  | ok a => rw [try_ok handle held, tried]
  | error e => rw [try_trace_failed handle held, tried, handled, List.append_nil]

def warningOf : Event → Option Notice
  | .notice n => if n.level = .warning then some n else none
  | _ => none

def warnings (x : Run α) : List Notice := x.trace warningOf

end Run

namespace Sampling

def Eventless (step : Sampling σ α) : Prop := ∀ state, (step state).events = []

theorem pure_eventless (a : α) : Eventless (pure a : Sampling σ α) := fun _ => rfl

theorem draw_eventless (draw : σ → Except Failure α × σ) : Eventless (ofDraw draw) := fun _ => rfl

theorem bind_eventless {step : Sampling σ α} {f : α → Sampling σ β} (first : step.Eventless)
    (rest : ∀ a, (f a).Eventless) : Eventless (step >>= f) := by
  intro state
  change (step state >>= fun drawn => f drawn.1 drawn.2).events = []
  cases held : (step state).outcome with
  | error e => rw [Run.bind_error _ held, first state]
  | ok drawn => rw [Run.bind_ok _ held, first state, rest drawn.1 drawn.2, List.append_nil]

theorem except_eventless (x : Except Failure α) : Eventless (liftM x : Sampling σ α) := by
  cases x <;> exact fun _ => rfl

theorem replicate_eventless {step : Sampling σ α} (eventless : step.Eventless) (n : Nat) :
    Eventless (replicate step n) := by
  induction n with
  | zero => exact pure_eventless []
  | succ n ih => exact bind_eventless eventless fun first => bind_eventless ih fun rest => pure_eventless _

theorem collect_eventless {step : Sampling σ α} (eventless : step.Eventless) (n : Nat) : Eventless (collect step n) :=
  bind_eventless (except_eventless _) fun _ => replicate_eventless eventless n

theorem Eventless.trace {step : Sampling σ α} (eventless : step.Eventless) (view : Event → Option τ) (state : σ) :
    (step state).trace view = [] := by
  rw [Run.trace, eventless state, List.filterMap_nil]

theorem bind_trace {step : Sampling σ α} {f : α → Sampling σ β} {state next : σ} {a : α} (view : Event → Option τ)
    (yields : step.Yields state a next) :
    ((step >>= f) state).trace view = (step state).trace view ++ (f a next).trace view :=
  Run.bind_trace_returned (fun drawn : α × σ => f drawn.1 drawn.2) yields

theorem run_trace (x : Run α) (view : Event → Option τ) (state : σ) :
    ((liftM x : Sampling σ α) state).trace view = x.trace view := Run.bind_trace_last x fun _ => rfl

end Sampling

end OrbitalSpectra
