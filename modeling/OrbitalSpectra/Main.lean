import OrbitalSpectra.Synthetic.Options

set_option autoImplicit false

open OrbitalSpectra in
def main (arguments : List String) : IO UInt32 := do
  let transcript := Synthetic.run arguments
  transcript.output.forM fun line => IO.println line
  transcript.errors.forM fun line => IO.eprintln line
  return transcript.code
