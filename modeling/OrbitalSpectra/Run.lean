import OrbitalSpectra.Metadata

set_option autoImplicit false

namespace OrbitalSpectra

inductive Level
  | warning
  | information
  | debugging
  deriving DecidableEq, Repr

inductive Notice
  | skippedFreeProjection (name : String)
  | averaged (name : String) (retained blocks : Nat)
  | screened (nonzero entries : Nat)
  | computedOccupations (count samples : Nat)
  | discardedSamples (ionization attachment : Nat)
  | errorBarsUnavailable (error : AnalysisError)
  deriving DecidableEq, Repr

namespace Notice

def level : Notice → Level
  | skippedFreeProjection _ => .warning
  | averaged _ _ _ => .debugging
  | screened _ _ => .debugging
  | computedOccupations _ _ => .information
  | discardedSamples _ _ => .debugging
  | errorBarsUnavailable _ => .warning

def message : Notice → String
  | skippedFreeProjection name =>
    s!"error analysis for free projection not implemented, skipping {name}"
  | averaged name retained blocks => s!"averaged {name} over {retained} of {blocks} blocks"
  | screened nonzero entries => s!"screened 1-RDM keeps {nonzero} of {entries} entries"
  | computedOccupations count samples =>
    s!"computed {count} NOONs from {samples} bootstrap samples"
  | discardedSamples ionization attachment =>
    s!"discarded {ionization} ip and {attachment} ea bootstrap samples with a collapsed subspace"
  | errorBarsUnavailable error => s!"EKT error bars unavailable: {error.message}"

end Notice

inductive Event
  | metadataRead
  | seriesRead (name : String) (estimator : Estimator) (path : Option Nat)
  | notice (n : Notice)
  deriving DecidableEq, Repr

structure Run (α : Type) where
  outcome : Except Failure α
  events : List Event

namespace Run

variable {α β : Type}

def ofExcept (outcome : Except Failure α) : Run α := ⟨outcome, []⟩

def pure (a : α) : Run α := ofExcept (.ok a)

def bind (x : Run α) (f : α → Run β) : Run β :=
  match x.outcome with
  | .ok a => ⟨(f a).outcome, x.events ++ (f a).events⟩
  | .error e => ⟨.error e, x.events⟩

instance : Monad Run where
  pure := Run.pure
  bind := Run.bind

instance : MonadExceptOf Failure Run where
  throw e := ofExcept (.error e)
  tryCatch x handle :=
    match x.outcome with
    | .ok _ => x
    | .error e => ⟨(handle e).outcome, x.events ++ (handle e).events⟩

instance : MonadLift (Except Failure) Run := ⟨ofExcept⟩

-- A step recorded before its outcome is known.
def recorded (event : Event) (outcome : Except AnalysisError α) : Run α := ⟨reporting outcome, [event]⟩

def note (n : Notice) : Run Unit := ⟨.ok (), [.notice n]⟩

def notices (x : Run α) : List Notice :=
  x.events.filterMap fun
    | .notice n => some n
    | _ => none

theorem ext {x y : Run α} (outcome : x.outcome = y.outcome) (events : x.events = y.events) : x = y := by
  cases x
  cases y
  simp_all

theorem bind_ok {x : Run α} {a : α} (f : α → Run β) (ok : x.outcome = .ok a) :
    x >>= f = ⟨(f a).outcome, x.events ++ (f a).events⟩ := by
  simp [Bind.bind, bind, ok]

theorem bind_error {x : Run α} {e : Failure} (f : α → Run β) (failed : x.outcome = .error e) :
    x >>= f = ⟨.error e, x.events⟩ := by
  simp [Bind.bind, bind, failed]

instance : LawfulMonad Run := LawfulMonad.mk'
  Run
  (by
    intro α x
    apply ext <;> cases h : x.outcome <;> simp [Functor.map, bind, h, Run.pure, ofExcept])
  (by
    intro α β a f
    rfl)
  (by
    intro α β γ x f g
    cases h : x.outcome with
    | error e => simp [Bind.bind, bind, h]
    | ok a => cases k : (f a).outcome <;> simp [Bind.bind, bind, h, k])

end Run

end OrbitalSpectra
