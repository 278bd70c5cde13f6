import OrbitalSpectra.Yaml.Tag
import OrbitalSpectra.Yaml.Text

set_option autoImplicit false

namespace OrbitalSpectra.Yaml

inductive Token
  | versionDirective (major minor : Nat)
  | tagDirective (handle : String) (expansion : Tag)
  | documentStart
  | documentEnd
  | blockSequenceStart
  | blockMappingStart
  | blockEnd
  | flowSequenceStart
  | flowSequenceEnd
  | flowMappingStart
  | flowMappingEnd
  | blockEntry
  | flowEntry
  | key
  | value
  | alias (name : String)
  | anchor (name : String)
  | tag (handle : String) (suffix : Tag)
  | scalar (style : Style) (text : String)
  deriving DecidableEq, Repr

-- A place where a key without an indicator may have begun.
structure PendingKey where
  position : Nat
  -- the place can hold nothing but a key
  required : Bool
  offset : Nat
  line : Nat
  column : Nat

structure Layout where
  cursor : Cursor
  tokens : Array Token
  -- column of the innermost open block, and of those around it; minus one is the document
  indent : Int
  outer : List Int
  -- whether a key without an indicator may begin here
  keyAllowed : Bool
  -- the pending key of each open flow collection, innermost first, and last that of the block
  pending : List (Option PendingKey)

namespace Layout

def ofText (text : String) : Layout := ⟨Cursor.ofText text, #[], -1, [], true, [none]⟩

def inFlow (s : Layout) : Bool := 1 < s.pending.length

def fail {α : Type} (s : Layout) (detail : String) : Reading α := s.cursor.fail detail

def emit (s : Layout) (t : Token) : Layout := { s with tokens := s.tokens.push t }

def insertAt (s : Layout) (position : Nat) (t : Token) : Layout :=
  { s with tokens := s.tokens.insertIdxIfInBounds position t }

def emitOver (s : Layout) (n : Nat) (t : Token) : Layout :=
  { s.emit t with cursor := s.cursor.advanceBy n }

def allowKey (s : Layout) (allowed : Bool) : Layout := { s with keyAllowed := allowed }

-- Bytes of the longest key without an indicator.
def keyLimit : Nat := 1024

-- A pending key ends with its line and after its greatest length; a required one must not.
def dropStale (s : Layout) : Reading Layout := do
  let pending ← s.pending.mapM fun
    | some k =>
      if k.line < s.cursor.line || k.offset + keyLimit < s.cursor.offset then
        if k.required then s.fail "could not find the colon of a key" else .ok none
      else .ok (some k)
    | none => .ok none
  return { s with pending }

def dropPending (s : Layout) : Reading Layout :=
  match s.pending with
  | some k :: rest =>
    if k.required then s.fail "could not find the colon of a key"
    else .ok { s with pending := none :: rest }
  | _ => .ok s

def markKey (s : Layout) : Reading Layout := do
  if s.keyAllowed then
    let s ← s.dropPending
    let c := s.cursor
    let k : PendingKey := {
      position := s.tokens.size
      required := !s.inFlow && s.indent == (c.column : Int)
      offset := c.offset
      line := c.line
      column := c.column }
    return { s with pending := some k :: s.pending.tail }
  else return s

def openBlock (s : Layout) (column position : Nat) (t : Token) : Layout :=
  if s.inFlow || (column : Int) ≤ s.indent then s
  else { s.insertAt position t with indent := column, outer := s.indent :: s.outer }

def closeBlocks (column : Int) : List Int → Layout → Layout
  | [], s => s
  | around :: outer, s =>
    if column < s.indent then closeBlocks column outer { s.emit .blockEnd with indent := around, outer }
    else s

def unindent (s : Layout) (column : Int) : Layout := if s.inFlow then s else closeBlocks column s.outer s

-- Over blanks, comments and line breaks to the next token. A tab may not stand where a key may
-- begin in a block.
def skipToToken : Nat → Layout → Layout
  | 0, s => s
  | fuel + 1, s =>
    let c := s.cursor
    let c := if c.column = 0 && c.starts byteOrderMark then c.advance else c
    let c := c.skipWhile fun a => a = ' ' || ((s.inFlow || !s.keyAllowed) && a = '\t')
    let c := c.skipComment
    if c.peek.any isBreak then
      skipToToken fuel { s with cursor := c.takeBreak.2, keyAllowed := s.keyAllowed || !s.inFlow }
    else { s with cursor := c }

def versionNumber (c : Cursor) : Reading (Nat × Cursor) :=
  let (digits, c) := c.takeWhile Decimal.ordinary
  match Decimal.natural? 10 digits with
  | some n => if digits.length ≤ 9 then .ok (n, c) else c.fail "an extremely long version number"
  | none => c.fail "expected a version number"

def directiveBody (name : String) (c : Cursor) : Reading (Token × Cursor) := do
  let c := c.skipWhile isBlank
  if name = "YAML" then
    let (major, c) ← versionNumber c
    if !c.starts '.' then c.fail "expected a digit or a point"
    let (minor, c) ← versionNumber c.advance
    return (.versionDirective major minor, c)
  else if name = "TAG" then
    let (handle, c) ← Tag.takeHandle true c
    if !c.peek.any isBlank then c.fail "expected a blank"
    let (expansion, c) ← Tag.take true (c.skipWhile isBlank)
    if !c.blankAt 0 then c.fail "expected a blank or a line break"
    return (.tagDirective handle expansion, c)
  else c.fail "unknown directive name"

def directive (s : Layout) : Reading Layout := do
  let (name, c) := s.cursor.advance.takeWhile isWordChar
  if name.isEmpty then c.fail "could not find a directive name"
  if !c.blankAt 0 then c.fail "unexpected character in a directive name"
  let (token, c) ← directiveBody (String.ofList name) c
  let c := (c.skipWhile isBlank).skipComment
  if !c.atBreakOrEnd then c.fail "expected a comment or a line break"
  return { s.emit token with cursor := c.takeBreak.2 }

def endsName (a : Char) : Bool :=
  isBlank a || isBreak a || ['?', ':', ',', ']', '}', '%', '@', '\x60'].contains a

def anchorName (c : Cursor) : Reading (String × Cursor) :=
  let (name, c) := c.advance.takeWhile isWordChar
  if name.isEmpty || !endOr endsName c.peek then c.fail "expected alphabetic or numeric characters"
  else .ok (String.ofList name, c)

def takeTag (s : Layout) : Reading Layout := do
  let ((handle, suffix), c) ← Tag.takeParts s.cursor
  if c.blankAt 0 || (s.inFlow && c.starts ',') then
    return { s.emit (.tag handle suffix) with cursor := c }
  else c.fail "expected a blank or a line break"

def documentMarker (s : Layout) : Reading Layout := do
  let s ← (s.unindent (-1)).dropPending
  let t := if s.cursor.starts '-' then Token.documentStart else .documentEnd
  return (s.emitOver 3 t).allowKey false

def openFlow (s : Layout) (t : Token) : Reading Layout := do
  let s ← s.markKey
  return ({ s with pending := none :: s.pending }.emitOver 1 t).allowKey true

def closeFlow (s : Layout) (t : Token) : Reading Layout := do
  let s ← s.dropPending
  let pending := if s.inFlow then s.pending.tail else s.pending
  return ({ s with pending }.emitOver 1 t).allowKey false

def flowEntry (s : Layout) : Reading Layout := do
  let s ← s.dropPending
  return (s.emitOver 1 .flowEntry).allowKey true

-- An indicator that opens a block where none is open at its column.
def opening (s : Layout) (t : Token) : Reading Layout :=
  if s.inFlow then .ok s
  else if s.keyAllowed then .ok (s.openBlock s.cursor.column s.tokens.size t)
  else s.fail "a block is not allowed in this context"

def blockEntry (s : Layout) : Reading Layout := do
  let s ← (← s.opening .blockSequenceStart).dropPending
  return (s.emitOver 1 .blockEntry).allowKey true

def explicitKey (s : Layout) : Reading Layout := do
  let s ← (← s.opening .blockMappingStart).dropPending
  return (s.emitOver 1 .key).allowKey (!s.inFlow)

def value (s : Layout) : Reading Layout := do
  match s.pending with
  | some k :: rest =>
    let s := (s.insertAt k.position .key).openBlock k.column k.position .blockMappingStart
    return ({ s with pending := none :: rest }.emitOver 1 .value).allowKey false
  | _ =>
    let s ← s.opening .blockMappingStart
    return (s.emitOver 1 .value).allowKey (!s.inFlow)

def anchored (s : Layout) (t : String → Token) : Reading Layout := do
  let s ← s.markKey
  let (name, c) ← anchorName s.cursor
  return { (s.emit (t name)).allowKey false with cursor := c }

def blockScalar (s : Layout) (style : Style) : Reading Layout := do
  let s ← s.dropPending
  let (text, c) ← blockText (style = .literal) s.indent s.cursor.advance
  return { (s.emit (.scalar style text)).allowKey true with cursor := c }

def quotedScalar (s : Layout) : Reading Layout := do
  let s ← s.markKey
  let c := s.cursor.advance
  let (text, c) ← quotedText (s.cursor.starts '\'') (c.rest.length + 1) c ""
  return { (s.emit (.scalar .quoted text)).allowKey false with cursor := c }

def plainScalar (s : Layout) : Reading Layout := do
  let s ← s.markKey
  let c := s.cursor
  let p ← plainText (s.indent + 1).toNat s.inFlow (c.rest.length + 1) c .none ""
  return { (s.emit (.scalar .plain p.text)).allowKey p.broken with cursor := p.cursor }

def isIndicator (a : Char) : Bool := "-?:,[]\x7b\x7d#&*!|>'\"%@\x60".contains a

def beginsPlain (s : Layout) (a : Char) : Bool :=
  !(isBlank a || isBreak a || isIndicator a) ||
    (a = '-' && !(s.cursor.peekAt 1).any isBlank) ||
    (!s.inFlow && (a = '?' || a = ':') && !s.cursor.blankAt 1)

def take (s : Layout) (a : Char) : Reading Layout := do
  let c := s.cursor
  if c.column = 0 && a = '%' then
    let s ← (s.unindent (-1)).dropPending
    (s.allowKey false).directive
  else if c.atMarker then s.documentMarker
  else if a = '[' then s.openFlow .flowSequenceStart
  else if a = '{' then s.openFlow .flowMappingStart
  else if a = ']' then s.closeFlow .flowSequenceEnd
  else if a = '}' then s.closeFlow .flowMappingEnd
  else if a = ',' then s.flowEntry
  else if a = '-' && c.blankAt 1 then s.blockEntry
  else if a = '?' && (s.inFlow || c.blankAt 1) then s.explicitKey
  else if a = ':' && (s.inFlow || c.blankAt 1) then s.value
  else if a = '*' then s.anchored .alias
  else if a = '&' then s.anchored .anchor
  else if a = '!' then (← s.markKey).allowKey false |>.takeTag
  else if a = '|' && !s.inFlow then s.blockScalar .literal
  else if a = '>' && !s.inFlow then s.blockScalar .folded
  else if a = '\'' || a = '"' then s.quotedScalar
  else if s.beginsPlain a then s.plainScalar
  else s.fail "a character that cannot start any token"

def run : Nat → Layout → Reading (List Token)
  | 0, s => s.fail "unexpected end"
  | fuel + 1, s => do
    let s ← (s.skipToToken (s.cursor.rest.length + 1)).dropStale
    let s := s.unindent s.cursor.column
    match s.cursor.peek with
    | none => return (← (s.unindent (-1)).dropPending).tokens.toList
    | some a => run fuel (← s.take a)

end Layout

-- The tokens of a text. Every token is at least one character long, which bounds their number.
def Token.ofText (text : String) : Reading (List Token) :=
  let s := Layout.ofText text
  if text.toList.all isPrintable then s.run (s.cursor.rest.length + 1)
  else s.fail "control characters are not allowed"

end OrbitalSpectra.Yaml
