import OrbitalSpectra.Decimal.Reading
import OrbitalSpectra.Synthetic.Report

set_option autoImplicit false

namespace OrbitalSpectra.Synthetic

inductive OptionName
  | orbitals
  | blocks
  | noise
  | collinear
  | samples
  | seed
  | help
  | version
  deriving DecidableEq, Repr

namespace OptionName

def ofLong? : String → Option OptionName
  | "nmo" => some orbitals
  | "blocks" => some blocks
  | "noise" => some noise
  | "collinear" => some collinear
  | "nsamp" => some samples
  | "seed" => some seed
  | "help" => some help
  | "version" => some version
  | _ => none

def ofShort? : Char → Option OptionName
  | 'n' => some orbitals
  | 'b' => some blocks
  | 's' => some noise
  | 'c' => some collinear
  | 'h' => some help
  | 'V' => some version
  | _ => none

def takesValue : OptionName → Bool
  | collinear | help | version => false
  | _ => true

end OptionName

inductive UsageFault
  | unknownArgument (argument : String)
  | missingValue (name : OptionName)
  | unwantedValue (name : OptionName)
  | invalidValue (name : OptionName) (value : String)
  | repeated (name : OptionName)
  deriving DecidableEq, Repr

namespace UsageFault

def message : UsageFault → String
  | unknownArgument argument => s!"unexpected argument {argument}"
  | missingValue _ => "an option lacks its value"
  | unwantedValue _ => "an option takes no value"
  | invalidValue _ value => s!"invalid value {value}"
  | repeated _ => "an option is given twice"

end UsageFault

inductive Stop
  | help
  | version
  | usage (fault : UsageFault)

def count? (text : String) : Option Nat :=
  let n := match text.toList with
    | '+' :: digits => Decimal.natural? 10 digits
    | digits => Decimal.natural? 10 digits
  n.filter (· < UInt64.size)

-- A decimal without a sign, or a word for infinity or for no number in any case of letters.
def magnitude? (cs : List Char) : Option Float :=
  let word := String.ofList (cs.map Char.toLower)
  if word = "inf" || word = "infinity" then some (1.0 / 0.0)
  else if word = "nan" then some (0.0 / 0.0)
  else Decimal.unsigned? cs

def amplitude? (text : String) : Option Float :=
  match text.toList with
  | '-' :: rest => (magnitude? rest).map fun x => -x
  | '+' :: rest => magnitude? rest
  | cs => magnitude? cs

def defaults : Setup Float where
  orbitals := 6
  blocks := 200
  noise := 0.01
  collinear := false
  samples := 50
  seed := 7

structure Choices where
  setup : Setup Float
  given : List OptionName

namespace Choices

def initial : Choices := ⟨defaults, []⟩

def assign (s : Setup Float) (name : OptionName) (value : String) : Option (Setup Float) :=
  match name with
  | .orbitals => (count? value).map fun n => { s with orbitals := n }
  | .blocks => (count? value).map fun n => { s with blocks := n }
  | .noise => (amplitude? value).map fun x => { s with noise := x }
  | .samples => (count? value).map fun n => { s with samples := n }
  | .seed => (count? value).map fun n => { s with seed := n.toUInt64 }
  | .collinear | .help | .version => none

def give (c : Choices) (name : OptionName) (setup : Setup Float) : Except Stop Choices :=
  if c.given.contains name then .error (.usage (.repeated name))
  else .ok ⟨setup, name :: c.given⟩

def setValue (c : Choices) (name : OptionName) (value : String) : Except Stop Choices :=
  match assign c.setup name value with
  | some setup => c.give name setup
  | none => .error (.usage (.invalidValue name value))

def setFlag (c : Choices) (name : OptionName) : Except Stop Choices :=
  match name with
  | .help => .error .help
  | .version => .error .version
  | _ => c.give name { c.setup with collinear := true }

-- What is still to come: nothing, or the value of the last option.
structure Step where
  choices : Choices
  waiting : Option OptionName

-- The options behind one dash. The rest after an option with a value is its value, an equals sign
-- in front of it left out.
def shortOptions : List Char → Choices → Except Stop Step
  | [], c => .ok ⟨c, none⟩
  | a :: rest, c =>
    match OptionName.ofShort? a with
    | none => .error (.usage (.unknownArgument a.toString))
    | some name =>
      if name.takesValue then
        match rest with
        | [] => .ok ⟨c, some name⟩
        | '=' :: value => (c.setValue name (String.ofList value)).map fun c => ⟨c, none⟩
        | value => (c.setValue name (String.ofList value)).map fun c => ⟨c, none⟩
      else c.setFlag name >>= shortOptions rest

-- The option behind two dashes, with its value after an equals sign or without.
def longOption (text : List Char) (c : Choices) : Except Stop Step :=
  let name := String.ofList (text.takeWhile (· ≠ '='))
  match OptionName.ofLong? name, text.dropWhile (· ≠ '=') with
  | none, _ => .error (.usage (.unknownArgument name))
  | some name, [] =>
    if name.takesValue then .ok ⟨c, some name⟩ else (c.setFlag name).map fun c => ⟨c, none⟩
  | some name, _ :: value =>
    if name.takesValue then (c.setValue name (String.ofList value)).map fun c => ⟨c, none⟩
    else .error (.usage (.unwantedValue name))

def readOption (argument : String) (c : Choices) : Except Stop Step :=
  match argument.toList with
  | '-' :: '-' :: text => longOption text c
  | '-' :: a :: rest => shortOptions (a :: rest) c
  | _ => .error (.usage (.unknownArgument argument))

-- Whether an argument that follows an option can be its value.
def isValue (argument : String) : Bool := !argument.startsWith "-" || argument = "-"

-- All arguments in order. After two dashes there are no options, and nothing else is expected.
def readAll : List String → Step → Except Stop Choices
  | [], ⟨c, none⟩ => .ok c
  | argument :: rest, ⟨c, none⟩ =>
    if argument = "--" then
      match rest with
      | [] => .ok c
      | extra :: _ => .error (.usage (.unknownArgument extra))
    else readOption argument c >>= readAll rest
  | [], ⟨_, some name⟩ => .error (.usage (.missingValue name))
  | argument :: rest, ⟨c, some name⟩ =>
    if isValue argument then do
      let c ← c.setValue name argument
      readAll rest ⟨c, none⟩
    else .error (.usage (.missingValue name))

end Choices

def Setup.ofArguments (arguments : List String) : Except Stop (Setup Float) :=
  (Choices.readAll arguments ⟨.initial, none⟩).map Choices.setup

def helpLines : List String :=
  ["NOON and EKT analysis of synthetic AFQMC data",
   "",
   "Options:",
   "  -n, --nmo <NMO>        Number of orbitals [default: 6]",
   "  -b, --blocks <BLOCKS>  Number of recorded blocks [default: 200]",
   "  -s, --noise <NOISE>    Per-block noise amplitude [default: 0.01]",
   "  -c, --collinear        Use collinear walkers",
   "      --nsamp <NSAMP>    Bootstrap samples [default: 50]",
   "      --seed <SEED>      Random seed for data and bootstrap [default: 7]",
   "  -h, --help             Print help",
   "  -V, --version          Print version"]

def versionLine : String := "orbital-spectra 0.1.0"

def run (arguments : List String) : Transcript :=
  match Setup.ofArguments arguments with
  | .ok s => report s
  | .error .help => .ofLines helpLines
  | .error .version => .ofLines [versionLine]
  | .error (.usage fault) => ⟨2, [], ["error: " ++ fault.message]⟩

end OrbitalSpectra.Synthetic
