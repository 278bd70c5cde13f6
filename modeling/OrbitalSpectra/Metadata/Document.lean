import OrbitalSpectra.Metadata
import OrbitalSpectra.Yaml.Record

set_option autoImplicit false

namespace OrbitalSpectra

open Yaml

namespace Metadata

def fieldNames : List String := ["NMO", "WalkerType", "FreeProjection"]

-- All three fields must be there, each once. Other fields do not count.
def ofDocument (d : Document) : Reading Metadata := do
  let r ← d.record
  r.requireOnce fieldNames
  return {
    orbitals := ← r.get "NMO" d.unsigned?
    walkerCode := ← r.get "WalkerType" d.signed?
    freeProjection := ← r.get "FreeProjection" d.boolean? }

def ofText (text : String) : Except AnalysisError Metadata :=
  match Document.ofText text >>= ofDocument with
  | .ok m => .ok m
  | .error fault => .error (.configuration fault)

end Metadata

-- A document whose only value is one of some names.
def namedValue {α : Type} (what : String) (ofName? : String → Option α) (text : String) :
    Except AnalysisError α :=
  let value : Reading α := do
    let d ← Document.ofText text
    match (d.root.bind d.name?).bind ofName? with
    | some a => return a
    | none => throw (.wrongType what)
  value.mapError .configuration

def WalkerType.ofText : String → Except AnalysisError WalkerType := namedValue "walker type" ofName?

def Estimator.ofText : String → Except AnalysisError Estimator := namedValue "estimator" ofName?

def FockSign.ofText : String → Except AnalysisError FockSign := namedValue "sign" ofName?

end OrbitalSpectra
