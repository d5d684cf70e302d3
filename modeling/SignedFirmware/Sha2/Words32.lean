import SignedFirmware.Sha2.BlockHash

namespace SignedFirmware.Words32

/-- The state is eight words. -/
structure State where
  a : UInt32
  b : UInt32
  c : UInt32
  d : UInt32
  e : UInt32
  f : UInt32
  g : UInt32
  h : UInt32
  deriving DecidableEq, Repr

/-- The first 32 bits of the fractions of the cube roots of 64 primes. -/
def roundConstants : Vector UInt32 64 :=
  #v[
    0x428a2f98, 0x71374491, 0xb5c0fbcf, 0xe9b5dba5, 0x3956c25b, 0x59f111f1, 0x923f82a4, 0xab1c5ed5,
    0xd807aa98, 0x12835b01, 0x243185be, 0x550c7dc3, 0x72be5d74, 0x80deb1fe, 0x9bdc06a7, 0xc19bf174,
    0xe49b69c1, 0xefbe4786, 0x0fc19dc6, 0x240ca1cc, 0x2de92c6f, 0x4a7484aa, 0x5cb0a9dc, 0x76f988da,
    0x983e5152, 0xa831c66d, 0xb00327c8, 0xbf597fc7, 0xc6e00bf3, 0xd5a79147, 0x06ca6351, 0x14292967,
    0x27b70a85, 0x2e1b2138, 0x4d2c6dfc, 0x53380d13, 0x650a7354, 0x766a0abb, 0x81c2c92e, 0x92722c85,
    0xa2bfe8a1, 0xa81a664b, 0xc24b8b70, 0xc76c51a3, 0xd192e819, 0xd6990624, 0xf40e3585, 0x106aa070,
    0x19a4c116, 0x1e376c08, 0x2748774c, 0x34b0bcb5, 0x391c0cb3, 0x4ed8aa4a, 0x5b9cca4f, 0x682e6ff3,
    0x748f82ee, 0x78a5636f, 0x84c87814, 0x8cc70208, 0x90befffa, 0xa4506ceb, 0xbef9a3f7, 0xc67178f2]

/-- The state before the first block of a 256-bit digest. -/
def start256 : State :=
  ⟨0x6a09e667, 0xbb67ae85, 0x3c6ef372, 0xa54ff53a, 0x510e527f, 0x9b05688c, 0x1f83d9ab, 0x5be0cd19⟩

/-- This turns a word to the right. -/
def rotate (word count : UInt32) : UInt32 := (word >>> count) ||| (word <<< (32 - count))

/-- This mixes one schedule word and one round constant into the state. -/
def round (constant word : UInt32) (state : State) : State :=
  let sum := rotate state.e 6 ^^^ rotate state.e 11 ^^^ rotate state.e 25
  let choice := (state.e &&& state.f) ^^^ (~~~state.e &&& state.g)
  let first := state.h + sum + choice + constant + word
  let turned := rotate state.a 2 ^^^ rotate state.a 13 ^^^ rotate state.a 22
  let majority := (state.a &&& state.b) ^^^ (state.a &&& state.c) ^^^ (state.b &&& state.c)
  ⟨first + (turned + majority), state.a, state.b, state.c,
    state.d + first, state.e, state.f, state.g⟩

/-- The new word replaces the oldest one, which stands at `index`. -/
def nextWord (window : Window UInt32) (index : Nat) : UInt32 :=
  let early := window.word (index + 1)
  let late := window.word (index + 14)
  window.word index + (rotate early 7 ^^^ rotate early 18 ^^^ (early >>> 3)) +
    window.word (index + 9) + (rotate late 17 ^^^ rotate late 19 ^^^ (late >>> 10))

/-- This reads a block as sixteen words. -/
def wordsOf (block : Bytes) : Window UInt32 :=
  let bytes := block.toArray
  Vector.ofFn fun index : Fin 16 =>
    UInt32.ofNat (bigEndianValue (bytes.extract (4 * index) (4 * index + 4)).toList)

/-- The state after all rounds is added to the one before. -/
def compress (state : State) (block : Bytes) : State :=
  let (_, last) := Nat.fold 64 (fun index _ (window, state) =>
    let mixed := round roundConstants[index] (window.word index) state
    (window.replace index (nextWord window index), mixed)) (wordsOf block, state)
  ⟨state.a + last.a, state.b + last.b, state.c + last.c, state.d + last.d,
    state.e + last.e, state.f + last.f, state.g + last.g, state.h + last.h⟩

/-- The bytes of a state, each word highest byte first. -/
def State.bytes (state : State) : Bytes :=
  [state.a, state.b, state.c, state.d, state.e, state.f, state.g, state.h].flatMap
    fun word => bigEndian 4 word.toNat

@[simp] theorem State.length_bytes (state : State) : state.bytes.length = 32 := by
  simp [State.bytes]

/-- The block hash behind the 256-bit digest. -/
def hash256 : BlockHash State :=
  ⟨64, by decide, 8, start256, compress⟩

end SignedFirmware.Words32
