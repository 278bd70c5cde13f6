import OrbitalSpectra.Decimal.Reading
import OrbitalSpectra.Yaml.Document

set_option autoImplicit false

namespace OrbitalSpectra.Yaml

def radix? : Char → Option Nat
  | 'x' => some 16
  | 'o' => some 8
  | 'b' => some 2
  | _ => none

-- A natural after the mark of its radix, or a decimal one without a zero in front.
def natural? : List Char → Option Nat
  | '0' :: mark :: digits => (radix? mark).bind fun radix => Decimal.natural? radix digits
  | cs => Decimal.natural? 10 cs

def dropPlus : List Char → List Char
  | '+' :: rest => rest
  | cs => cs

def unsigned? (cs : List Char) : Option Nat := (natural? (dropPlus cs)).filter (· < UInt64.size)

def signed? (cs : List Char) : Option Int :=
  let n : Option Int := match cs with
    | '-' :: rest => (natural? rest).map fun n => -(n : Int)
    | cs => (natural? (dropPlus cs)).map fun n => (n : Int)
  n.filter fun n => decide (-(UInt64.size : Int) ≤ 2 * n ∧ 2 * n < UInt64.size)

def infinityWords : List (List Char) := [".inf", ".Inf", ".INF"].map String.toList

def undefinedWords : List (List Char) := [".nan", ".NaN", ".NAN"].map String.toList

-- A decimal within the range of floats, or a word for infinity or for no number.
def float? (cs : List Char) : Option Float :=
  if undefinedWords.contains cs then some (0.0 / 0.0)
  else if infinityWords.contains (dropPlus cs) then some (1.0 / 0.0)
  else if cs.head? = some '-' ∧ infinityWords.contains cs.tail then some (-1.0 / 0.0)
  else (Decimal.signed? cs).filter Float.isFinite

def boolean? (text : String) : Option Bool :=
  if ["true", "True", "TRUE"].contains text then some true
  else if ["false", "False", "FALSE"].contains text then some false
  else none

def isNull (text : String) : Bool := ["~", "null", "Null", "NULL"].contains text

namespace Document

variable {α : Type}

def bare? (d : Document) (kind : String) (n : Node) : Option String :=
  match d.resolve n with
  | .scalar tag style text =>
    if style = .plain ∨ (style = .literal ∧ tag = some (Tag.core kind)) then some text else none
  | _ => none

def text? (d : Document) (n : Node) : Option String :=
  match d.resolve n with
  | .scalar _ _ text => some text
  | _ => none

def unsigned? (d : Document) (n : Node) : Option Nat :=
  (d.bare? "int" n).bind fun text => Yaml.unsigned? text.toList

def signed? (d : Document) (n : Node) : Option Int :=
  (d.bare? "int" n).bind fun text => Yaml.signed? text.toList

def float? (d : Document) (n : Node) : Option Float :=
  (d.bare? "float" n).bind fun text => Yaml.float? text.toList

def boolean? (d : Document) (n : Node) : Option Bool := (d.bare? "bool" n).bind Yaml.boolean?

-- A name out of a list: the text of a scalar, or its tag in front of nothing.
def name? (d : Document) (n : Node) : Option String :=
  match d.resolve n with
  | .scalar tag style text =>
    match tag.bind Tag.localName? with
    | some name => if style = .plain ∧ (text = "" ∨ isNull text) then some name else none
    | none => some text
  | _ => none

-- A value that may be null. A tag other than that of null says that it is not.
def optional? (d : Document) (value? : Node → Option α) (n : Node) : Option (Option α) :=
  match d.resolve n with
  | .scalar none .plain text =>
    if text = "" ∨ isNull text then some none else (value? n).map some
  | .scalar (some tag) .plain text =>
    if tag = Tag.core "null" then (if isNull text then some none else none)
    else (value? n).map some
  | _ => (value? n).map some

end Document

end OrbitalSpectra.Yaml
