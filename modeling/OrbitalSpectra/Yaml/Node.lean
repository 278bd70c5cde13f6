import OrbitalSpectra.Yaml.Token

set_option autoImplicit false

namespace OrbitalSpectra.Yaml

inductive Node
  | scalar (tag : Option Tag) (style : Style) (text : String)
  | sequence (tag : Option Tag) (items : List Node)
  | mapping (tag : Option Tag) (entries : List (Node × Node))
  -- the node that the number stands for
  | alias (number : Nat)
  deriving Repr

def Node.empty : Node := .scalar none .plain ""

-- Anchored nodes in the order in which they begin. A name gets as its number how many other names
-- there were before it, also when it is used again, and a number stands for the last node that got it.
structure Anchors where
  names : List (String × Nat)
  -- the number of each anchored node with its place in the order, the last one first
  places : List (Nat × Nat)
  -- finished nodes under their places
  nodes : List (Nat × Node)

namespace Anchors

def empty : Anchors := ⟨[], [], []⟩

def number? (a : Anchors) (name : String) : Option Nat := a.names.lookup name

def start (a : Anchors) (name : String) : Nat × Anchors :=
  let number := a.names.length
  let place := a.places.length
  let names := (name, number) :: a.names.filter (·.1 ≠ name)
  (place, { a with names, places := (number, place) :: a.places })

def finish (a : Anchors) (place : Nat) (n : Node) : Anchors :=
  { a with nodes := (place, n) :: a.nodes }

def node? (a : Anchors) (number : Nat) : Option Node :=
  (a.places.lookup number).bind fun place => a.nodes.lookup place

end Anchors

-- What a node is part of, which decides on the blocks it may open.
inductive Context
  | flow
  | block
  -- a key or a value of a block mapping, where a sequence needs no indentation of its own
  | blockEntry
  deriving DecidableEq

structure Progress where
  tokens : List Token
  anchors : Anchors

abbrev Grammar := StateT Progress (Except DocumentFault)

abbrev Handles := List (String × Tag)

def defaultHandles : Handles := [("!", Tag.ofText "!"), ("!!", Tag.core "")]

namespace Grammar

variable {α : Type}

def expected (what : String) : Grammar α := throw (.expected what)

def peek : Grammar (Option Token) := return (← get).tokens.head?

def skip : Grammar Unit := modify fun s => { s with tokens := s.tokens.tail }

def nextIsOneOf (ts : List Token) : Grammar Bool := return (← peek).any ts.contains

def accept (t : Token) : Grammar Bool := do
  let found ← nextIsOneOf [t]
  if found then skip
  return found

-- A node that is left out in front of the given tokens.
def unlessNext (ts : List Token) (node : Grammar Node) : Grammar Node := do
  if ← nextIsOneOf ts then return Node.empty else node

def takeAnchor : Grammar (Option String) := do
  match ← peek with
  | some (.anchor name) => skip; return some name
  | _ => return none

def resolveTag (handles : Handles) (handle : String) (suffix : Tag) : Reading Tag :=
  if handle = "" then .ok suffix
  else match handles.lookup handle with
    | some expansion => .ok (expansion ++ suffix)
    | none => .error (.unknownHandle handle)

def takeTag (handles : Handles) : Grammar (Option Tag) := do
  match ← peek with
  | some (.tag handle suffix) => skip; return some (← resolveTag handles handle suffix)
  | _ => return none

def takeProperties (handles : Handles) : Grammar (Option String × Option Tag) := do
  let anchor ← takeAnchor
  let tag ← takeTag handles
  let anchor ← if anchor.isNone && tag.isSome then takeAnchor else pure anchor
  return (anchor, tag)

def separator (first : Bool) (closing : String) : Grammar Unit := do
  unless first do
    unless ← accept .flowEntry do expected ("comma or " ++ closing)

def aliasOf (name : String) : Grammar Node := do
  match (← get).anchors.number? name with
  | some number => return .alias number
  | none => throw (.unknownAnchor name)

def startAnchor (name : String) : Grammar Nat := do
  let (place, anchors) := (← get).anchors.start name
  modify fun s => { s with anchors }
  return place

def finishAnchor (place : Nat) (n : Node) : Grammar Unit :=
  modify fun s => { s with anchors := s.anchors.finish place n }

mutual

def node (handles : Handles) : Nat → Context → Grammar Node
  | 0, _ => expected "node content"
  | fuel + 1, context => do
    match ← peek with
    | some (.alias name) => skip; aliasOf name
    | _ =>
      let (anchor, tag) ← takeProperties handles
      let place ← anchor.mapM startAnchor
      let n ← content handles fuel context tag (anchor.isSome || tag.isSome)
      if let some place := place then finishAnchor place n
      return n

-- What follows the properties. Nothing needs to follow if there are any.
def content (handles : Handles) : Nat → Context → Option Tag → Bool → Grammar Node
  | 0, _, _, _ => expected "node content"
  | fuel + 1, context, tag, hasProperties => do
    match ← peek, context with
    | some (.scalar style text), _ => skip; return .scalar tag style text
    | some .flowSequenceStart, _ => skip; return .sequence tag (← flowItems handles fuel true)
    | some .flowMappingStart, _ => skip; return .mapping tag (← flowEntries handles fuel true)
    | some .blockEntry, .blockEntry => return .sequence tag (← unindentedItems handles fuel)
    | some .blockSequenceStart, .block | some .blockSequenceStart, .blockEntry =>
      skip; return .sequence tag (← blockItems handles fuel)
    | some .blockMappingStart, .block | some .blockMappingStart, .blockEntry =>
      skip; return .mapping tag (← blockEntries handles fuel)
    | _, _ => if hasProperties then return .scalar tag .plain "" else expected "node content"

def blockItems (handles : Handles) : Nat → Grammar (List Node)
  | 0 => expected "dash"
  | fuel + 1 => do
    if ← accept .blockEntry then
      let item ← unlessNext [.blockEntry, .blockEnd] (node handles fuel .block)
      return item :: (← blockItems handles fuel)
    else if ← accept .blockEnd then return []
    else expected "dash"

-- Items at the column of the mapping that the sequence is a value of.
def unindentedItems (handles : Handles) : Nat → Grammar (List Node)
  | 0 => expected "dash"
  | fuel + 1 => do
    if ← accept .blockEntry then
      let item ← unlessNext [.blockEntry, .key, .value, .blockEnd] (node handles fuel .block)
      return item :: (← unindentedItems handles fuel)
    else return []

def blockEntries (handles : Handles) : Nat → Grammar (List (Node × Node))
  | 0 => expected "key"
  | fuel + 1 => do
    let part := unlessNext [.key, .value, .blockEnd] (node handles fuel .blockEntry)
    if ← accept .key then
      let key ← part
      let value ← if ← accept .value then part else pure Node.empty
      return (key, value) :: (← blockEntries handles fuel)
    else if ← accept .blockEnd then return []
    else expected "key"

def flowItems (handles : Handles) : Nat → Bool → Grammar (List Node)
  | 0, _ => expected "node content"
  | fuel + 1, first => do
    if ← accept .flowSequenceEnd then return []
    separator first "closing bracket"
    if ← accept .flowSequenceEnd then return []
    let item ← if ← accept .key then singlePair handles fuel else node handles fuel .flow
    return item :: (← flowItems handles fuel false)

-- A mapping of one entry, written without braces inside a sequence. The token after an empty key
-- does not count.
def singlePair (handles : Handles) : Nat → Grammar Node
  | 0 => expected "node content"
  | fuel + 1 => do
    let emptyKey ← nextIsOneOf [.value, .flowEntry, .flowSequenceEnd]
    let key ← if emptyKey then skip; pure Node.empty else node handles fuel .flow
    let value ←
      if ← accept .value then unlessNext [.flowEntry, .flowSequenceEnd] (node handles fuel .flow)
      else pure Node.empty
    return .mapping none [(key, value)]

def flowEntries (handles : Handles) : Nat → Bool → Grammar (List (Node × Node))
  | 0, _ => expected "node content"
  | fuel + 1, first => do
    if ← accept .flowMappingEnd then return []
    separator first "closing brace"
    if ← accept .flowMappingEnd then return []
    let entry ←
      if ← accept .key then
        let key ← unlessNext [.value, .flowEntry, .flowMappingEnd] (node handles fuel .flow)
        let value ←
          if ← accept .value then unlessNext [.flowEntry, .flowMappingEnd] (node handles fuel .flow)
          else pure Node.empty
        pure (key, value)
      else
        let key ← node handles fuel .flow
        pure (key, Node.empty)
    return entry :: (← flowEntries handles fuel false)

end

end Grammar

end OrbitalSpectra.Yaml
