import OrbitalSpectra.Walker

set_option autoImplicit false

namespace OrbitalSpectra

-- A parameter outside its range. Numbers that are not integers stand as they are written.
inductive ParameterFault
  | zeroStride
  | tooFewSamples (count : Nat)
  | tooFewSamplesForError (count : Nat)
  | screenFactor (value : String)
  | cutoff (value : String)
  | emptyBasis
  deriving DecidableEq, Repr

namespace ParameterFault

def message : ParameterFault → String
  | zeroStride => "stride must be at least 1"
  | tooFewSamples count => s!"nsamp must be at least 2, got {count}"
  | tooFewSamplesForError count => s!"nsamp must be at least 2 to estimate an error, got {count}"
  | screenFactor value => s!"screen_factor must be finite and non-negative, got {value}"
  | cutoff value => s!"cutoff must be finite, got {value}"
  | emptyBasis => "NMO must be positive"

end ParameterFault

inductive DocumentFault
  | encoding
  | malformed (detail : String) (line : Nat)
  | expected (what : String)
  | unknownAnchor (name : String)
  | unknownHandle (handle : String)
  | repeatedDirective
  | unsupportedVersion (major minor : Nat)
  | severalDocuments
  | notAMapping
  | unknownKey (key : String)
  | repeatedKey (key : String)
  | missingKey (key : String)
  | wrongType (field : String)
  deriving DecidableEq, Repr

namespace DocumentFault

def message : DocumentFault → String
  | encoding => "the text is not valid UTF-8"
  | malformed detail line => s!"{detail} at line {line + 1}"
  | expected what => s!"did not find expected {what}"
  | unknownAnchor name => s!"unknown anchor {name}"
  | unknownHandle handle => s!"undefined tag handle {handle}"
  | repeatedDirective => "duplicate directive"
  | unsupportedVersion major minor => s!"unsupported version {major}.{minor}"
  | severalDocuments => "more than one document"
  | notAMapping => "expected a mapping"
  | unknownKey key => s!"unknown field {key}"
  | repeatedKey key => s!"duplicate field {key}"
  | missingKey key => s!"missing field {key}"
  | wrongType field => s!"invalid value for {field}"

end DocumentFault

inductive AnalysisError
  | unrecognizedWalkerType (code : Int)
  | unsupportedWalkerType (walker : WalkerType) (observable : String)
  | unsupportedMode (mode : String)
  | shapeMismatch (observable : String) (expected found : Nat)
  | emptySample (observable : String) (blocks equilibration : Nat)
  | invalidParameter (fault : ParameterFault)
  | missingObservable (name : String) (estimator : Estimator)
  | perturbation (row col : Nat)
  | bootstrapUnstable (accepted requested : Nat)
  | configuration (fault : DocumentFault)
  deriving DecidableEq, Repr

namespace AnalysisError

def message : AnalysisError → String
  | unrecognizedWalkerType code => s!"unrecognized walker type code {code}"
  | unsupportedWalkerType walker observable =>
    s!"{observable} is not supported for {walker.name} walkers"
  | unsupportedMode mode => s!"unsupported analysis mode: {mode}"
  | shapeMismatch observable expected found =>
    s!"shape mismatch for {observable}: expected {expected} elements, found {found}"
  | emptySample observable blocks equilibration =>
    s!"no blocks retained for {observable}: {blocks} blocks, {equilibration} dropped for equilibration"
  | invalidParameter fault => s!"invalid parameter: {fault.message}"
  | missingObservable name estimator => s!"observable {name} not found for estimator {estimator.name}"
  | perturbation row col =>
    s!"cannot perturb matrix: element ({row}, {col}): " ++
      "variation parameter is non-finite in (log)normal distribution"
  | bootstrapUnstable accepted requested =>
    s!"bootstrap unstable: only {accepted} of {requested} samples kept a consistent rank"
  | configuration fault => s!"configuration error: {fault.message}"

end AnalysisError

-- A failure is reported, with its cause, or it ends the program: a fault is an entry outside a matrix or a
-- vector, or an operation on shapes that do not match; capacity is exceeded by a list that no memory can
-- hold; an overflow is a size that no word can hold.
inductive Failure
  | reported (error : AnalysisError)
  | fault
  | capacity
  | overflow
  deriving DecidableEq, Repr

variable {α : Type}

-- A step that has no result is a fault.
def orFault : Option α → Except Failure α
  | some a => .ok a
  | none => .error .fault

def reporting : Except AnalysisError α → Except Failure α
  | .ok a => .ok a
  | .error e => .error (.reported e)

instance : MonadLift (Except AnalysisError) (Except Failure) := ⟨reporting⟩

@[simp] theorem or_fault_some (a : α) : orFault (some a) = .ok a := rfl

@[simp] theorem or_fault_none : orFault (none : Option α) = .error .fault := rfl

@[simp] theorem reporting_ok (a : α) : reporting (.ok a) = .ok a := rfl

@[simp] theorem reporting_error (e : AnalysisError) :
    reporting (.error e : Except AnalysisError α) = .error (.reported e) := rfl

end OrbitalSpectra
