import OrbitalSpectra.Proofs.Events
import OrbitalSpectra.Source
import OrbitalSpectra.Average.Blocks

set_option autoImplicit false

namespace OrbitalSpectra

variable {α β σ : Type}

abbrev Read := String × Estimator × Option Nat

def Selection.read (s : Selection) (name : String) : Read := (name, s.estimator, s.path)

namespace Run

def reads (x : Run α) : List Read :=
  x.events.filterMap fun
    | .seriesRead name estimator path => some (name, estimator, path)
    | _ => none

theorem bind_reads_returned {x : Run α} {a : α} (f : α → Run β) (returned : x.Returns a) :
    (x >>= f).reads = x.reads ++ (f a).reads := bind_trace_returned f returned

theorem bind_reads_failed {x : Run α} {e : Failure} (f : α → Run β) (failed : x.outcome = .error e) :
    (x >>= f).reads = x.reads := bind_trace_failed f failed

theorem bind_reads_quiet (x : Run α) {f : α → Run β} (quiet : ∀ a, (f a).reads = []) :
    (x >>= f).reads = x.reads := bind_trace_last x quiet

theorem bind_quiet {x : Run α} {f : α → Run β} (first : x.reads = []) (rest : ∀ a, (f a).reads = []) :
    (x >>= f).reads = [] := bind_trace_none first rest

theorem try_quiet {x : Run α} {handle : Failure → Run α} (tried : x.reads = [])
    (handled : ∀ e, (handle e).reads = []) : (tryCatch x handle).reads = [] := try_trace_none tried handled

end Run

def Sampling.Quiet (step : Sampling σ α) : Prop := ∀ state, (step state).reads = []

namespace Sampling

theorem Eventless.quiet {step : Sampling σ α} (eventless : step.Eventless) : Quiet step := eventless.trace _

theorem run_quiet {x : Run α} (quiet : x.reads = []) : Quiet (liftM x : Sampling σ α) := by
  intro state
  exact Run.bind_quiet quiet fun _ => rfl

theorem except_quiet (x : Except Failure α) : Quiet (liftM x : Sampling σ α) := (except_eventless x).quiet

theorem pure_quiet (a : α) : Quiet (pure a : Sampling σ α) := (pure_eventless a).quiet

theorem bind_quiet {step : Sampling σ α} {f : α → Sampling σ β} (first : step.Quiet) (rest : ∀ a, (f a).Quiet) :
    Quiet (step >>= f) := by
  intro state
  exact Run.bind_quiet (first state) fun drawn => rest drawn.1 drawn.2

end Sampling

def require (condition : Prop) [Decidable condition] (error : AnalysisError) : Except Failure Unit :=
  if condition then .ok () else .error (.reported error)

theorem require_ok (condition : Prop) [Decidable condition] (error : AnalysisError) :
    require condition error = .ok () ↔ condition := by
  by_cases holds : condition <;> simp [require, holds]

def firstError : List (Except Failure Unit) → Option Failure
  | [] => none
  | .ok _ :: checks => firstError checks
  | .error e :: _ => some e

theorem first_error_none (check : Except Failure Unit) (checks : List (Except Failure Unit)) :
    firstError (check :: checks) = none ↔ check = .ok () ∧ firstError checks = none := by
  cases check <;> simp [firstError]

-- What a run reads under a selection. With a refusal it reads nothing and fails with it. Otherwise
-- it reads the named series in order, each after the first when the one before it delivered.
structure ReadsInOrder (refusal : Option Failure) (delivers : String → Prop) (s : Selection)
    (names : List String) (x : Run α) : Prop where
  ordered : x.reads <+: names.map s.read
  next : ∀ k name, names[k]? = some name → k + 1 < names.length →
    (k + 1 < x.reads.length ↔ k < x.reads.length ∧ delivers name)
  silent : x.reads = [] ↔ refusal ≠ none
  refused : ∀ e, refusal = some e → x.outcome = .error e

namespace ReadsInOrder

variable {delivers : String → Prop} {s : Selection} {names : List String} {name : String}
  {refusal : Option Failure}

theorem of_refused {x : Run α} {e : Failure} (failed : x.outcome = .error e)
    (quiet : x.reads = []) : ReadsInOrder (some e) delivers s names x where
  ordered := by rw [quiet]; exact List.nil_prefix
  next := by simp [quiet]
  silent := by simp [quiet]
  refused := by
    rintro _ ⟨⟩
    exact failed

theorem single_reads {x : Run α} (ordered : ReadsInOrder none delivers s [name] x) : x.reads = [s.read name] := by
  have some : x.reads ≠ [] := fun quiet => ordered.silent.mp quiet rfl
  obtain ⟨rest, reads, last⟩ := (List.prefix_cons_iff.mp ordered.ordered).resolve_left some
  rw [reads, List.prefix_nil.mp last]

theorem of_last {x : Run α} (reads : x.reads = [s.read name])
    (lost : names ≠ [] → ¬ delivers name) : ReadsInOrder none delivers s (name :: names) x where
  ordered := by rw [reads]; exact List.prefix_append [s.read name] _
  next := by
    intro k other listed inside
    rw [reads]
    cases k with
    | zero =>
        cases listed
        have more : names ≠ [] := by simpa [List.length_pos_iff] using inside
        simpa using lost more
    | succ k => simp
  silent := by simp [reads]
  refused := by simp

theorem of_delivered {x : Run α} {y : Run β} (delivered : delivers name) (reads : x.reads = s.read name :: y.reads)
    (rest : ReadsInOrder none delivers s names y) : ReadsInOrder none delivers s (name :: names) x where
  ordered := by
    rw [reads, List.map_cons, List.prefix_cons_inj]
    exact rest.ordered
  next := by
    intro k other listed inside
    rw [reads]
    cases k with
    | zero =>
        cases listed
        have some : y.reads ≠ [] := fun quiet => rest.silent.mp quiet rfl
        simpa [List.length_pos_iff, delivered] using some
    | succ k => simpa using rest.next k other (by simpa using listed) (by simpa using inside)
  silent := by simp [reads]
  refused := by simp

theorem check_first {check : Except Failure Unit} {checks : List (Except Failure Unit)}
    {x : Except Failure α} {f : α → Run β} (same : x.map (fun _ => ()) = check)
    (rest : ∀ a, x = .ok a → ReadsInOrder (firstError checks) delivers s names (f a)) :
    ReadsInOrder (firstError (check :: checks)) delivers s names ((liftM x : Run α) >>= f) := by
  subst same
  cases x with
  | error e => exact of_refused rfl rfl
  | ok a => exact rest a rfl

theorem then_quiet {x : Run α} {f : α → Run β} (first : ReadsInOrder refusal delivers s names x)
    (quiet : ∀ a, (f a).reads = []) : ReadsInOrder refusal delivers s names (x >>= f) where
  ordered := by rw [Run.bind_reads_quiet x quiet]; exact first.ordered
  next := by rw [Run.bind_reads_quiet x quiet]; exact first.next
  silent := by rw [Run.bind_reads_quiet x quiet]; exact first.silent
  refused := by
    intro e refusal
    rw [Run.bind_error f (first.refused e refusal)]

theorem unrefused {x : Run α} {a : α} (first : ReadsInOrder refusal delivers s names x) (returned : x.Returns a) :
    refusal = none := by
  cases refusal with
  | none => rfl
  | some e => cases (first.refused e rfl).symm.trans returned

-- A read before others, which is the first that can be refused.
theorem read_first {x : Run α} {f : α → Run β} (first : ReadsInOrder refusal delivers s [name] x)
    (answered : refusal = none → ((∃ a, x.Returns a) ↔ delivers name))
    (rest : ∀ a, x.Returns a → ReadsInOrder none delivers s names (f a)) :
    ReadsInOrder refusal delivers s (name :: names) (x >>= f) := by
  cases refusal with
  | some e =>
      have failed := first.refused e rfl
      refine of_refused (by rw [Run.bind_error f failed]) ?_
      rw [Run.bind_reads_failed f failed]
      exact first.silent.mpr (by simp)
  | none =>
      have single := first.single_reads
      cases held : x.outcome with
      | error e =>
          have lost : ¬ delivers name := by
            intro delivered
            obtain ⟨a, returned⟩ := (answered rfl).mpr delivered
            cases held.symm.trans returned
          exact of_last (by rw [Run.bind_reads_failed f held, single]) fun _ => lost
      | ok a =>
          have delivered : delivers name := (answered rfl).mp ⟨a, held⟩
          refine of_delivered delivered ?_ (rest a held)
          rw [Run.bind_reads_returned f held, single]
          rfl

-- The record of the run is not a series.
theorem after_record {R : Type} {m : Metadata}
    {series : String → Estimator → Option Nat → Except AnalysisError (List (Block R))} {f : Metadata → Run α}
    (rest : ReadsInOrder refusal delivers s names (f m)) :
    ReadsInOrder refusal delivers s names ((⟨.ok m, series⟩ : Source R).readMetadata >>= f) :=
  ⟨rest.ordered, rest.next, rest.silent, rest.refused⟩

end ReadsInOrder

end OrbitalSpectra
