import OrbitalSpectra.Decimal.Text
import OrbitalSpectra.Eigen.ShiftedSweeps
import OrbitalSpectra.Koopmans
import OrbitalSpectra.Random.Ziggurat
import OrbitalSpectra.Synthetic.Model

set_option autoImplicit false

namespace OrbitalSpectra.Synthetic

structure Transcript where
  code : UInt32
  output : List String
  errors : List String

namespace Transcript

def ofLines (output : List String) : Transcript := ⟨0, output, []⟩

def complaint (line : String) : Transcript := ⟨0, [], [line]⟩

def brokenOff (line : String) : Transcript := ⟨101, [], [line]⟩

-- One after the other, up to the first that ends the run.
def andThen (first second : Transcript) : Transcript :=
  if first.code = 0 then
    ⟨second.code, first.output ++ second.output, first.errors ++ second.errors⟩
  else first

end Transcript

-- Numbers keep their minus sign when they round to zero.
def numberText : Decimal.Convention := ⟨true, none⟩

def fixedText (places : Nat) (x : Float) : String := Decimal.fixed numberText places x

def column (width places : Nat) (x : Float) : String :=
  Decimal.rightAligned width (fixedText places x)

def electronvolts : Float := 27.21138602

def headerLines (s : Setup Float) : List String :=
  ["Synthetic AFQMC RDM Analysis",
   "============================",
   "",
   s!"  Orbitals:  {s.orbitals}",
   s!"  Walkers:   {s.walker.name}",
   s!"  Blocks:    {s.blocks}",
   "  Noise:     " ++ Decimal.scientific numberText 3 s.noise,
   ""]

def occupationLine (index : Nat) (value error : Float) : String :=
  "  " ++ Decimal.rightAligned 3 (toString index) ++ ": " ++ column 8 5 value ++ " ± " ++
    fixedText 5 error

def occupationLines (o : Occupations Float) : List String :=
  ["Natural orbital occupations:"] ++
    (o.values.zip o.errors).zipIdx.map (fun ((value, error), k) => occupationLine k value error) ++ [""]

def energyLine (kind : String) (value error : Float) : String :=
  "  " ++ kind ++ ": " ++ column 9 5 value ++ " ± " ++ fixedText 5 error ++ " Ha (" ++
    column 8 3 (electronvolts * value) ++ " eV)"

def energyLines (kind : String) (values errors : List Float) : List String :=
  List.zipWith (energyLine kind) values errors

def spectrumLines (sector : Nat) (s : Spectrum Float) : List String :=
  [s!"EKT spectrum, sector {sector}:"] ++
    energyLines "IP" s.ionization s.ionizationErrors ++
    energyLines "EA" s.attachment s.attachmentErrors ++ [""]

def spectraLines (s : KoopmansSpectra Float) : List String :=
  s.toList.zipIdx.flatMap fun (spectrum, k) => spectrumLines k spectrum

def analysisPart {α : Type} (title : String) (lines : α → List String) (x : Run α) : Transcript :=
  match x.outcome with
  | .ok a => .ofLines (lines a)
  | .error (.reported e) => .complaint (title ++ " analysis failed: " ++ e.message)
  | .error .fault | .error .capacity | .error .overflow => .brokenOff (title ++ " analysis broke off")

def analyses (s : Setup Float) (store : Store Float) : Transcript :=
  let stream := Keystream.ofSeed s.seed
  let occupations := naturalOccupations Eigen.solve store.source s.params stream
  let spectra := koopmansSpectra Eigen.solve store.source s.params stream
  (analysisPart "NOON" occupationLines occupations).andThen
    (analysisPart "EKT" spectraLines spectra)

-- The system is drawn after the header is written.
def report (s : Setup Float) : Transcript :=
  (Transcript.ofLines (headerLines s)).andThen
    (match s.store Keystream with
    | .ok store => analyses s store
    | .error _ => .brokenOff "the model system cannot be drawn")

end OrbitalSpectra.Synthetic
