set_option autoImplicit false

namespace OrbitalSpectra

namespace ChaCha

def rotateLeft (x : UInt32) (n : UInt32) : UInt32 := (x <<< n) ||| (x >>> (32 - n))

def rotateRight (x : UInt32) (n : UInt32) : UInt32 := (x >>> n) ||| (x <<< ((32 - n) % 32))

abbrev Words := Array UInt32

@[inline] def word (s : Words) (i : Nat) : UInt32 := s.getD i 0

def quarterRound (s : Words) (i j k l : Nat) : Words :=
  let a := word s i + word s j
  let d := rotateLeft (word s l ^^^ a) 16
  let c := word s k + d
  let b := rotateLeft (word s j ^^^ c) 12
  let a := a + b
  let d := rotateLeft (d ^^^ a) 8
  let c := c + d
  let b := rotateLeft (b ^^^ c) 7
  (((s.setIfInBounds i a).setIfInBounds j b).setIfInBounds k c).setIfInBounds l d

-- One round over the columns and one over the diagonals.
def doubleRound (s : Words) : Words :=
  let s := quarterRound s 0 4 8 12
  let s := quarterRound s 1 5 9 13
  let s := quarterRound s 2 6 10 14
  let s := quarterRound s 3 7 11 15
  let s := quarterRound s 0 5 10 15
  let s := quarterRound s 1 6 11 12
  let s := quarterRound s 2 7 8 13
  quarterRound s 3 4 9 14

def doubleRounds : Nat := 6

-- "expand 32-byte k", read as four little-endian words.
def constants : List UInt32 := [0x61707865, 0x3320646e, 0x79622d32, 0x6b206574]

def initial (key : List UInt32) (counter : UInt64) : Words :=
  (constants ++ key ++ [counter.toUInt32, (counter >>> 32).toUInt32, 0, 0]).toArray

def block (key : List UInt32) (counter : UInt64) : List UInt32 :=
  let start := initial key counter
  (Array.zipWith (· + ·) (doubleRounds.repeat doubleRound start) start).toList

-- One step of the seed expansion: a key word and the next state.
def expand (state : UInt64) : UInt32 × UInt64 :=
  let state := state * 6364136223846793005 + 11634580027462260723
  (rotateRight ((((state >>> 18) ^^^ state) >>> 27).toUInt32) (state >>> 59).toUInt32, state)

def keyWords : Nat → UInt64 → List UInt32
  | 0, _ => []
  | n + 1, state =>
    let (w, state) := expand state
    w :: keyWords n state

end ChaCha

-- The rest of a keystream: words of the current block that are left, then the blocks from a
-- counter on.
structure Keystream where
  key : List UInt32
  counter : UInt64
  pending : List UInt32

namespace Keystream

def ofSeed (seed : UInt64) : Keystream := ⟨ChaCha.keyWords 8 seed, 0, []⟩

def next32 (s : Keystream) : UInt32 × Keystream :=
  match s.pending with
  | w :: rest => (w, { s with pending := rest })
  | [] =>
    match ChaCha.block s.key s.counter with
    | w :: rest => (w, { s with counter := s.counter + 1, pending := rest })
    | [] => (0, { s with counter := s.counter + 1 })

-- Two words, the low half first.
def next64 (s : Keystream) : UInt64 × Keystream :=
  let (low, s) := s.next32
  let (high, s) := s.next32
  (low.toUInt64 ||| (high.toUInt64 <<< 32), s)

end Keystream

end OrbitalSpectra
