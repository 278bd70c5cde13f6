import OrbitalSpectra.Decimal.Reading
import OrbitalSpectra.Yaml.Cursor

set_option autoImplicit false

namespace OrbitalSpectra.Yaml

-- Percent escapes need not encode a text, so a tag is a string of bytes. Its first zero byte ends it.
structure Tag where
  bytes : List UInt8
  deriving DecidableEq, Repr

namespace Tag

def ofBytes (bytes : List UInt8) : Tag := ⟨bytes.takeWhile (· ≠ 0)⟩

def encode (cs : List Char) : List UInt8 := cs.flatMap String.utf8EncodeChar

def ofText (text : String) : Tag := ofBytes (encode text.toList)

def text? (t : Tag) : Option String := String.fromUTF8? ⟨t.bytes.toArray⟩

def append (a b : Tag) : Tag := ⟨a.bytes ++ b.bytes⟩

instance : Append Tag := ⟨append⟩

def core (kind : String) : Tag := ofText ("tag:yaml.org,2002:" ++ kind)

def localName? (t : Tag) : Option String := do
  match (← t.text?).toList with
  | '!' :: [] => return "!"
  | '!' :: name => return String.ofList name
  | _ => none

-- A handle. In a directive only the short one may do without a second exclamation mark.
def takeHandle (directive : Bool) (c : Cursor) : Reading (String × Cursor) :=
  if c.starts '!' then
    let (word, c) := c.advance.takeWhile isWordChar
    let handle := "!" ++ String.ofList word
    if c.starts '!' then .ok (handle ++ "!", c.advance)
    else if directive && handle != "!" then c.fail "expected an exclamation mark"
    else .ok (handle, c)
  else c.fail "expected an exclamation mark"

def isTagChar (verbatim : Bool) (a : Char) : Bool :=
  isWordChar a || ";/?:@&=+$.!~*'()".contains a || (verbatim && (a = ',' || a = '[' || a = ']'))

-- A byte written as a percent sign and two hexadecimal digits.
def escapedByte (c : Cursor) : Reading (UInt8 × Cursor) :=
  match c.rest with
  | '%' :: a :: b :: _ =>
    match Decimal.natural? 16 [a, b] with
    | some n => .ok (n.toUInt8, c.advanceBy 3)
    | none => c.fail "expected an escaped octet"
  | _ => c.fail "expected an escaped octet"

-- Bytes of one encoded character, from its first byte.
def encodedLength (first : UInt8) : Nat :=
  if first < 0x80 then 1
  else if first &&& 0xe0 = 0xc0 then 2
  else if first &&& 0xf0 = 0xe0 then 3
  else if first &&& 0xf8 = 0xf0 then 4
  else 0

def continuationBytes : Nat → Cursor → Reading (List UInt8 × Cursor)
  | 0, c => .ok ([], c)
  | n + 1, c => do
    let (b, next) ← escapedByte c
    if b &&& 0xc0 = 0x80 then
      let (rest, next) ← continuationBytes n next
      return (b :: rest, next)
    else c.fail "an incorrect trailing octet"

-- Escapes in the number that the first of them asks for. What they encode is not looked at.
def escapedBytes (c : Cursor) : Reading (List UInt8 × Cursor) := do
  let (first, next) ← escapedByte c
  match encodedLength first with
  | 0 => c.fail "an incorrect leading octet"
  | n + 1 =>
    let (rest, next) ← continuationBytes n next
    return (first :: rest, next)

-- The bytes up to a character that a tag cannot hold.
def takeBytes (verbatim : Bool) : Nat → Cursor → Reading (List UInt8 × Cursor)
  | 0, c => .ok ([], c)
  | fuel + 1, c =>
    match c.peek with
    | some '%' => do
      let (bytes, c) ← escapedBytes c
      let (rest, c) ← takeBytes verbatim fuel c
      return (bytes ++ rest, c)
    | some a =>
      if isTagChar verbatim a then do
        let (rest, c) ← takeBytes verbatim fuel c.advance
        return (encode [a] ++ rest, c)
      else return ([], c)
    | none => return ([], c)

-- A tag of at least one character, which can stand for a zero byte and so for nothing.
def take (verbatim : Bool) (c : Cursor) : Reading (Tag × Cursor) := do
  let (bytes, after) ← takeBytes verbatim (c.rest.length + 1) c
  if bytes.isEmpty then c.fail "expected a tag" else return (ofBytes bytes, after)

-- Handle and suffix; both the verbatim form and the lone mark have an empty handle.
def takeParts (c : Cursor) : Reading ((String × Tag) × Cursor) := do
  if c.peekAt 1 = some '<' then
    let (suffix, c) ← take true (c.advanceBy 2)
    if c.starts '>' then return (("", suffix), c.advance) else c.fail "expected a closing bracket"
  else
    let (handle, c) ← takeHandle false c
    if 1 < handle.length && handle.endsWith "!" then
      let (suffix, c) ← take false c
      return ((handle, suffix), c)
    else
      let (bytes, c) ← takeBytes false (c.rest.length + 1) c
      let suffix := ofText (handle.drop 1).toString ++ ofBytes bytes
      return (if suffix.bytes.isEmpty then ("", ofText "!") else ("!", suffix), c)

end Tag

end OrbitalSpectra.Yaml
