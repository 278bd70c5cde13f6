import OrbitalSpectra.Decimal.Reading
import OrbitalSpectra.Yaml.Cursor

set_option autoImplicit false

namespace OrbitalSpectra.Yaml

inductive Style
  | plain
  | quoted
  | literal
  | folded
  deriving DecidableEq, Repr

structure Gap where
  blanks : String
  broken : Bool
  firstBreak : String
  laterBreaks : String

namespace Gap

def none : Gap := ⟨"", false, "", ""⟩

-- The gap after a line break that does not count.
def joined : Gap := ⟨"", true, "", ""⟩

def fold (g : Gap) : String :=
  if g.broken then
    if g.firstBreak = "\n" then
      if g.laterBreaks = "" then " " else g.laterBreaks
    else g.firstBreak ++ g.laterBreaks
  else g.blanks

def push (g : Gap) (blank : Char) : Gap := if g.broken then g else { g with blanks := g.blanks.push blank }

def lineBreak (g : Gap) (text : String) : Gap :=
  if g.broken then { g with laterBreaks := g.laterBreaks ++ text } else ⟨"", true, text, ""⟩

-- Reads on to the next character that is no white space. A tab left of column `limit` may not
-- begin a line.
def read (limit : Nat) : Nat → Cursor → Gap → Reading (Gap × Cursor)
  | 0, c, g => .ok (g, c)
  | fuel + 1, c, g =>
    match c.peek with
    | .some a =>
      if isBlank a then
        if g.broken && c.column < limit && a = '\t' then c.fail "a tab character violates indentation"
        else read limit fuel c.advance (g.push a)
      else if isBreak a then
        let (text, c) := c.takeBreak
        read limit fuel c (g.lineBreak text)
      else .ok (g, c)
    | .none => .ok (g, c)

end Gap

def isFlowIndicator (a : Char) : Bool := a = ',' || a = '[' || a = ']' || a = '{' || a = '}'

-- A word of a plain scalar, up to a blank or to a character that ends the scalar.
def plainWord (inFlow : Bool) : Nat → Cursor → String → Reading (String × Cursor)
  | 0, c, word => .ok (word, c)
  | fuel + 1, c, word =>
    match c.peek with
    | none => .ok (word, c)
    | some a =>
      if isBlank a || isBreak a then .ok (word, c)
      else if inFlow && a = ':' && (c.peekAt 1).any (fun b => b = '?' || isFlowIndicator b) then
        c.fail "unexpected colon"
      else if (a = ':' && c.blankAt 1) || (inFlow && isFlowIndicator a) then .ok (word, c)
      else plainWord inFlow fuel c.advance (word.push a)

structure PlainText where
  text : String
  cursor : Cursor
  -- the scalar was followed by a line break
  broken : Bool

def plainText (limit : Nat) (inFlow : Bool) : Nat → Cursor → Gap → String → Reading PlainText
  | 0, c, g, text => .ok ⟨text, c, g.broken⟩
  | fuel + 1, c, g, text =>
    if c.atMarker || c.starts '#' then .ok ⟨text, c, g.broken⟩
    else do
      let (word, c) ← plainWord inFlow (c.rest.length + 1) c ""
      if word = "" then return ⟨text, c, g.broken⟩
      let text := text ++ g.fold ++ word
      if c.peek.any fun a => isBlank a || isBreak a then
        let (g, c) ← Gap.read limit (c.rest.length + 1) c .none
        if !inFlow && c.column < limit then return ⟨text, c, g.broken⟩
        plainText limit inFlow fuel c g text
      else return ⟨text, c, false⟩

inductive Escape
  | char (c : Char)
  | code (digits : Nat)

def escape? : Char → Option Escape
  | '0' => some (.char '\x00')
  | 'a' => some (.char '\x07')
  | 'b' => some (.char '\x08')
  | 't' => some (.char '\t')
  | '\t' => some (.char '\t')
  | 'n' => some (.char '\n')
  | 'v' => some (.char '\x0b')
  | 'f' => some (.char '\x0c')
  | 'r' => some (.char '\r')
  | 'e' => some (.char '\x1b')
  | ' ' => some (.char ' ')
  | '"' => some (.char '"')
  | '/' => some (.char '/')
  | '\\' => some (.char '\\')
  | 'N' => some (.char '\u0085')
  | '_' => some (.char '\u00a0')
  | 'L' => some (.char '\u2028')
  | 'P' => some (.char '\u2029')
  | 'x' => some (.code 2)
  | 'u' => some (.code 4)
  | 'U' => some (.code 8)
  | _ => none

-- The character after a backslash, from the cursor on it.
def takeEscape (c : Cursor) : Reading (Char × Cursor) :=
  match c.peek.bind escape? with
  | none => c.fail "unknown escape character"
  | some (.char a) => .ok (a, c.advance)
  | some (.code digits) =>
    let c := c.advance
    let run := c.rest.take digits
    match Decimal.natural? 16 run with
    | none => c.fail "expected a hexadecimal number"
    | some n =>
      if run.length = digits ∧ n.isValidChar then .ok (Char.ofNat n, Cursor.advanceBy digits c)
      else c.fail "invalid character code"

def quotedText (single : Bool) : Nat → Cursor → String → Reading (String × Cursor)
  | 0, c, _ => c.fail "unexpected end of a quoted scalar"
  | fuel + 1, c, text =>
    let gap (c : Cursor) (g : Gap) : Reading (String × Cursor) := do
      let (g, c) ← g.read 0 (c.rest.length + 1) c
      quotedText single fuel c (text ++ g.fold)
    match c.rest with
    | [] => c.fail "unexpected end of a quoted scalar"
    | a :: rest =>
      if c.atMarker then c.fail "unexpected document marker"
      else if isBlank a || isBreak a then gap c .none
      else if single then
        if a = '\'' then
          if rest.head? = some '\'' then quotedText single fuel (c.advanceBy 2) (text.push a)
          else .ok (text, c.advance)
        else quotedText single fuel c.advance (text.push a)
      else if a = '"' then .ok (text, c.advance)
      else if a = '\\' then
        if rest.head?.any isBreak then gap c.advance.takeBreak.2 .joined
        else do
          let (e, c) ← takeEscape c.advance
          quotedText single fuel c (text.push e)
      else quotedText single fuel c.advance (text.push a)

inductive Chomping
  | strip
  | clip
  | keep
  deriving DecidableEq

structure BlockHeader where
  chomping : Chomping
  increment : Nat

def chomping? : Option Char → Option Chomping
  | some '+' => some .keep
  | some '-' => some .strip
  | _ => none

-- An indentation indicator, if one is there; zero is none.
def takeIncrement (c : Cursor) : Reading (Nat × Cursor) :=
  match c.peek.bind (Decimal.digit? 10) with
  | none => .ok (0, c)
  | some 0 => c.fail "an indentation indicator equal to zero"
  | some n => .ok (n, c.advance)

-- Indicators after `|` or `>`, in either order, up to the next line.
def takeBlockHeader (c : Cursor) : Reading (BlockHeader × Cursor) := do
  let (chomping, c) := match chomping? c.peek with
    | some chomping => (some chomping, c.advance)
    | none => (none, c)
  let (increment, c) ← takeIncrement c
  let (chomping, c) := match chomping, increment, chomping? c.peek with
    | none, _ + 1, some chomping => (some chomping, c.advance)
    | _, _, _ => (chomping, c)
  let c := (c.skipWhile isBlank).skipComment
  if c.atBreakOrEnd then return (⟨chomping.getD .clip, increment⟩, c.takeBreak.2)
  else c.fail "expected a comment or a line break"

-- Line breaks before a line of the block, and the indentation they show.
structure BlockBreaks where
  text : String
  widest : Nat
  cursor : Cursor

-- Over blank lines up to a line with text. Without a known indentation every blank counts.
def takeBreaks (indent : Option Nat) : Nat → Cursor → Nat → String → Reading BlockBreaks
  | 0, c, widest, text => .ok ⟨text, widest, c⟩
  | fuel + 1, c, widest, text =>
    let room := (indent.map (· - c.column)).getD c.rest.length
    let blanks := (c.rest.take room).takeWhile (· = ' ')
    let c := Cursor.advanceBy blanks.length c
    let widest := max widest c.column
    if c.starts '\t' && (indent.map fun n => decide (c.column < n)).getD true then
      c.fail "a tab character where an indentation blank is expected"
    else if c.peek.any isBreak then
      let (b, c) := c.takeBreak
      takeBreaks indent fuel c widest (text ++ b)
    else .ok ⟨text, widest, c⟩

structure BlockText where
  text : String
  lastBreak : String
  cursor : Cursor

def blockLines (literal : Bool) (indent : Nat) :
    Nat → BlockBreaks → String → String → Bool → Reading (BlockText × String)
  | 0, b, text, lastBreak, _ => .ok (⟨text, lastBreak, b.cursor⟩, b.text)
  | fuel + 1, b, text, lastBreak, blankBefore =>
    let c := b.cursor
    if c.column = indent && c.peek.isSome then do
      let blankNow := c.peek.any isBlank
      let text :=
        if !literal && lastBreak = "\n" && !blankBefore && !blankNow then
          (if b.text = "" then text ++ " " else text) ++ b.text
        else text ++ lastBreak ++ b.text
      let (line, c) := c.takeWhile fun a => !isBreak a
      let text := text ++ String.ofList line
      let (lastBreak, c) := c.takeBreak
      let next ← takeBreaks (some indent) (c.rest.length + 1) c 0 ""
      blockLines literal indent fuel next text lastBreak blankNow
    else .ok (⟨text, lastBreak, c⟩, b.text)

-- A block scalar from the place after its indicator, inside a block indented by `parent`.
def blockText (literal : Bool) (parent : Int) (c : Cursor) : Reading (String × Cursor) := do
  let (header, c) ← takeBlockHeader c
  let known : Option Nat :=
    if header.increment = 0 then none else some ((max parent 0).toNat + header.increment)
  let first ← takeBreaks known (c.rest.length + 1) c 0 ""
  let indent := known.getD (max first.widest (max (parent + 1) 1).toNat)
  let (block, breaks) ← blockLines literal indent (c.rest.length + 1) first "" "" false
  let text := match header.chomping with
    | .strip => block.text
    | .clip => block.text ++ block.lastBreak
    | .keep => block.text ++ block.lastBreak ++ breaks
  return (text, block.cursor)

end OrbitalSpectra.Yaml
