import OrbitalSpectra.Yaml.Node

set_option autoImplicit false

namespace OrbitalSpectra.Yaml

structure Document where
  -- nothing when the text holds blanks and comments only
  root : Option Node
  anchors : Anchors

structure Directives where
  version : Option (Nat × Nat)
  handles : Handles

def Directives.none : Directives := ⟨.none, []⟩

-- The directives in front, and the tokens after them.
def takeDirectives : List Token → Directives → Reading (Directives × List Token)
  | .versionDirective major minor :: rest, d =>
    if d.version.isSome then .error .repeatedDirective
    else if major = 1 ∧ (minor = 1 ∨ minor = 2) then
      takeDirectives rest { d with version := some (major, minor) }
    else .error (.unsupportedVersion major minor)
  | .tagDirective handle expansion :: rest, d =>
    if (d.handles.lookup handle).isSome then .error .repeatedDirective
    else takeDirectives rest { d with handles := (handle, expansion) :: d.handles }
  | rest, d => .ok (d, rest)

def Token.isDirective : Token → Bool
  | .versionDirective .. | .tagDirective .. => true
  | _ => false

-- A token that cannot be part of a document, so that it ends the one before.
def Token.isBoundary (t : Token) : Bool := t.isDirective || t = .documentStart || t = .documentEnd

-- The node of a document without a marker in front, or after one.
def rootNode (handles : Handles) (marked : Bool) (tokens : List Token) : Reading (Node × Progress) :=
  let start : Progress := ⟨tokens, Anchors.empty⟩
  if marked && tokens.head?.all Token.isBoundary then .ok (Node.empty, start)
  else Grammar.node (handles ++ defaultHandles) (3 * tokens.length + 3) .block start

namespace Document

def ofTokens (tokens : List Token) : Reading Document := do
  if tokens.isEmpty then return ⟨none, Anchors.empty⟩
  let (directives, rest) ← takeDirectives tokens Directives.none
  let marked := rest.head? = some .documentStart
  if !marked && tokens.head?.any Token.isDirective then throw (.expected "document start")
  let (root, after) ← rootNode directives.handles marked (if marked then rest.tail else rest)
  if (after.tokens.dropWhile (· = .documentEnd)).isEmpty then return ⟨some root, after.anchors⟩
  else throw .severalDocuments

def ofText (text : String) : Reading Document := do ofTokens (← Token.ofText text)

def resolve (d : Document) : Node → Node
  | .alias number => (d.anchors.node? number).getD (.alias number)
  | n => n

end Document

end OrbitalSpectra.Yaml
