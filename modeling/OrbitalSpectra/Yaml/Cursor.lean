import OrbitalSpectra.Failure

set_option autoImplicit false

namespace OrbitalSpectra.Yaml

structure Cursor where
  rest : List Char
  -- bytes of the text in front of the place
  offset : Nat
  line : Nat
  column : Nat

abbrev Reading (α : Type) := Except DocumentFault α

def isBreak (c : Char) : Bool :=
  c = '\n' || c = '\r' || c = '\u0085' || c = '\u2028' || c = '\u2029'

def isBlank (c : Char) : Bool := c = ' ' || c = '\t'

def byteOrderMark : Char := '\ufeff'

def isWordChar (c : Char) : Bool :=
  ('a' ≤ c && c ≤ 'z') || ('A' ≤ c && c ≤ 'Z') || ('0' ≤ c && c ≤ '9') || c = '_' || c = '-'

def isPrintable (c : Char) : Bool :=
  let n := c.toNat
  c = '\t' || c = '\n' || c = '\r' || n = 0x85 || (0x20 ≤ n && n ≤ 0x7e) ||
    (0xa0 ≤ n && n ≤ 0xd7ff) || (0xe000 ≤ n && n ≤ 0xfffd) || 0x10000 ≤ n

-- Nothing is left, or a character of the class.
def endOr (p : Char → Bool) : Option Char → Bool
  | none => true
  | some c => p c

namespace Cursor

def ofText (text : String) : Cursor := ⟨text.toList, 0, 0, 0⟩

def fail {α : Type} (c : Cursor) (detail : String) : Reading α := .error (.malformed detail c.line)

def peek (c : Cursor) : Option Char := c.rest.head?

def peekAt (c : Cursor) (k : Nat) : Option Char := c.rest[k]?

def starts (c : Cursor) (a : Char) : Bool := c.peek == some a

def blankAt (c : Cursor) (k : Nat) : Bool := endOr (fun a => isBlank a || isBreak a) (c.peekAt k)

def atBreakOrEnd (c : Cursor) : Bool := endOr isBreak c.peek

def advance (c : Cursor) : Cursor :=
  let size := (c.peek.map Char.utf8Size).getD 0
  { c with rest := c.rest.tail, offset := c.offset + size, column := c.column + 1 }

def advanceBy : Nat → Cursor → Cursor
  | 0, c => c
  | n + 1, c => advanceBy n c.advance

-- Over a line break, with the text it stands for: two characters can make one break.
def takeBreak (c : Cursor) : String × Cursor :=
  match c.rest with
  | '\r' :: '\n' :: rest => ("\n", ⟨rest, c.offset + 2, c.line + 1, 0⟩)
  | a :: rest =>
    if isBreak a then
      let text := if a = '\u2028' || a = '\u2029' then a.toString else "\n"
      (text, ⟨rest, c.offset + a.utf8Size, c.line + 1, 0⟩)
    else ("", c)
  | [] => ("", c)

-- The longest run of characters of a class without line breaks, and the place after it.
def takeWhile (p : Char → Bool) (c : Cursor) : List Char × Cursor :=
  let run := c.rest.takeWhile p
  (run, advanceBy run.length c)

def skipWhile (p : Char → Bool) (c : Cursor) : Cursor := (c.takeWhile p).2

def skipComment (c : Cursor) : Cursor :=
  if c.starts '#' then c.skipWhile fun a => !isBreak a else c

-- Whether a line that starts or ends a document begins here.
def atMarker (c : Cursor) : Bool :=
  c.column = 0 && (['-', '-', '-'].isPrefixOf c.rest || ['.', '.', '.'].isPrefixOf c.rest) && c.blankAt 3

end Cursor

end OrbitalSpectra.Yaml
