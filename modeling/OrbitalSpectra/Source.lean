import OrbitalSpectra.Run
import OrbitalSpectra.Mat

set_option autoImplicit false

namespace OrbitalSpectra

abbrev Block (R : Type) := Array (Cplx R)

def densitySeries : String := "one_rdm"

structure Source (R : Type) where
  metadata : Except AnalysisError Metadata
  -- the blocks of an observable; no path index means the longest path
  series : String → Estimator → Option Nat → Except AnalysisError (List (Block R))

namespace Source

variable {R : Type}

def readMetadata (s : Source R) : Run Metadata := Run.recorded .metadataRead s.metadata

def readSeries (s : Source R) (name : String) (estimator : Estimator) (path : Option Nat) :
    Run (List (Block R)) :=
  Run.recorded (.seriesRead name estimator path) (s.series name estimator path)

end Source

end OrbitalSpectra
