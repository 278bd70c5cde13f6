import OrbitalSpectra.Yaml.Value

set_option autoImplicit false

namespace OrbitalSpectra.Yaml

abbrev Record := List (String × Node)

namespace Record

variable {α : Type}

def keys (r : Record) : List String := r.map Prod.fst

def requireKnown (r : Record) (fields : List String) : Reading Unit :=
  match r.keys.find? fun key => !fields.contains key with
  | some key => .error (.unknownKey key)
  | none => .ok ()

def requireOnce (r : Record) (fields : List String) : Reading Unit :=
  match fields.find? fun field => 1 < r.keys.count field with
  | some field => .error (.repeatedKey field)
  | none => .ok ()

def get? (r : Record) (field : String) (value? : Node → Option α) : Reading (Option α) :=
  match r.lookup field with
  | none => .ok none
  | some n =>
    match value? n with
    | some a => .ok (some a)
    | none => .error (.wrongType field)

def getD (r : Record) (field : String) (value? : Node → Option α) (default : α) : Reading α := do
  return (← r.get? field value?).getD default

def get (r : Record) (field : String) (value? : Node → Option α) : Reading α := do
  match ← r.get? field value? with
  | some a => return a
  | none => throw (.missingKey field)

end Record

namespace Document

-- The record of a document. A document without a value has no fields.
def record (d : Document) : Reading Record :=
  match d.root with
  | none | some (.scalar _ .plain "") => .ok []
  | some (.mapping _ entries) => entries.mapM fun (key, n) =>
    match d.text? key with
    | some key => .ok (key, n)
    | none => .error .notAMapping
  | some _ => .error .notAMapping

end Document

end OrbitalSpectra.Yaml
