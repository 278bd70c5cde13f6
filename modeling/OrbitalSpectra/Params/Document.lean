import OrbitalSpectra.Params
import OrbitalSpectra.Scalar.Float
import OrbitalSpectra.Yaml.Record

set_option autoImplicit false

namespace OrbitalSpectra

open Yaml

namespace Params

def fieldNames : List String :=
  ["estimator", "equilibration", "stride", "bp_index", "nsamp", "screen_factor", "cutoff", "seed"]

-- The parameters of a record, which has no other fields and none of them twice. Ranges are not
-- looked at.
def ofRecord (d : Document) (r : Record) : Reading (Params Float) := do
  r.requireKnown fieldNames
  r.requireOnce fieldNames
  let p : Params Float := default
  let index? := d.optional? d.unsigned?
  return {
    estimator := ← r.getD "estimator" (fun n => (d.name? n).bind Estimator.ofName?) p.estimator
    equilibration := ← r.getD "equilibration" d.unsigned? p.equilibration
    stride := ← r.getD "stride" d.unsigned? p.stride
    path := ← r.getD "bp_index" index? p.path
    samples := ← r.getD "nsamp" d.unsigned? p.samples
    screenFactor := ← r.getD "screen_factor" d.float? p.screenFactor
    cutoff := ← r.getD "cutoff" d.float? p.cutoff
    seed := ← r.getD "seed" (fun n => (index? n).map (·.map Nat.toUInt64)) p.seed }

def ofDocument (d : Document) : Reading (Params Float) := do ofRecord d (← d.record)

def decode (text : String) : Reading (Params Float) := do ofDocument (← Document.ofText text)

-- Parameters of a text, which must be within their ranges.
def ofText (text : String) : Except AnalysisError (Params Float) :=
  match decode text with
  | .error fault => .error (.configuration fault)
  | .ok p => do
    p.validate
    return p

def ofBytes (bytes : ByteArray) : Except AnalysisError (Params Float) :=
  match String.fromUTF8? bytes with
  | some text => ofText text
  | none => .error (.configuration .encoding)

end Params

end OrbitalSpectra
