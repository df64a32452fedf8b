import Rapidly.Binary.Numbers
import Rapidly.Fallible.Except
import Rapidly.FileSharing.Messages

/-!
# Hashing a file as it streams

`StreamingSHA256` of `utils/file-sharing/streaming-hash.ts`: the uploader hashes a file with it
before it is sent, the downloader as its chunks arrive. What arrives is copied into a block of 64
bytes, and a block that is full is taken in. The state can be saved and restored in between.

The arithmetic is that of numbers and typed arrays: an element is read as a number, the operators
work on these as they do in JavaScript, and what is stored is cut to the width of the array.
-/

namespace Rapidly.FileSharing

open Binary

/-- `K` -/
def K : List Word := [
  0x428a2f98, 0x71374491, 0xb5c0fbcf, 0xe9b5dba5, 0x3956c25b, 0x59f111f1,
  0x923f82a4, 0xab1c5ed5, 0xd807aa98, 0x12835b01, 0x243185be, 0x550c7dc3,
  0x72be5d74, 0x80deb1fe, 0x9bdc06a7, 0xc19bf174, 0xe49b69c1, 0xefbe4786,
  0x0fc19dc6, 0x240ca1cc, 0x2de92c6f, 0x4a7484aa, 0x5cb0a9dc, 0x76f988da,
  0x983e5152, 0xa831c66d, 0xb00327c8, 0xbf597fc7, 0xc6e00bf3, 0xd5a79147,
  0x06ca6351, 0x14292967, 0x27b70a85, 0x2e1b2138, 0x4d2c6dfc, 0x53380d13,
  0x650a7354, 0x766a0abb, 0x81c2c92e, 0x92722c85, 0xa2bfe8a1, 0xa81a664b,
  0xc24b8b70, 0xc76c51a3, 0xd192e819, 0xd6990624, 0xf40e3585, 0x106aa070,
  0x19a4c116, 0x1e376c08, 0x2748774c, 0x34b0bcb5, 0x391c0cb3, 0x4ed8aa4a,
  0x5b9cca4f, 0x682e6ff3, 0x748f82ee, 0x78a5636f, 0x84c87814, 0x8cc70208,
  0x90befffa, 0xa4506ceb, 0xbef9a3f7, 0xc67178f2]

/-- `rotr` -/
def rotr (x : ℤ) (n : ℕ) : ℤ := Number.or (Number.shiftRight x n) (Number.shiftLeft x (32 - n))

/-- An element of a `Uint32Array`, which the index is within. -/
def wordElement (array : List Word) (i : ℕ) : ℤ := (array.getD i 0).toNat

/-- An element of a `Uint8Array`, which the index is within. -/
def byteElement (array : Bytes) (i : ℕ) : ℤ := (array.getD i 0).toNat

/-- `fill(0, start, end)`, from within an array. -/
def fillZeros (array : Bytes) (start stop : ℕ) : Bytes := writeAt array start (zeros (stop - start))

/-- The fields of a `StreamingSHA256`. -/
structure StreamingSHA256 where
  h : List Word
  buffer : Bytes
  bufferOffset : ℕ
  totalBytes : ℤ
  finalized : Bool
deriving DecidableEq

/-- What `serialize` returns. -/
structure SerializedHash where
  h : List ℤ
  buffer : List ℤ
  bufferOffset : ℕ
  totalBytes : ℤ

/-- `a` to `h` of `processBlock`. -/
structure WorkingVariables where
  a : ℤ
  b : ℤ
  c : ℤ
  d : ℤ
  e : ℤ
  f : ℤ
  g : ℤ
  h : ℤ

namespace StreamingSHA256

/-- `constructor` -/
def new : StreamingSHA256 where
  h := [0x6a09e667, 0xbb67ae85, 0x3c6ef372, 0xa54ff53a, 0x510e527f, 0x9b05688c, 0x1f83d9ab,
    0x5be0cd19]
  buffer := zeros 64
  bufferOffset := 0
  totalBytes := 0
  finalized := false

/-! ### `processBlock` -/

/-- `W[t]` for the first 16 words. -/
def firstWord (block : Bytes) (t : ℕ) : Word :=
  Number.toUint32 (Number.or (Number.or (Number.or
    (Number.shiftLeft (byteElement block (t * 4)) 24)
    (Number.shiftLeft (byteElement block (t * 4 + 1)) 16))
    (Number.shiftLeft (byteElement block (t * 4 + 2)) 8))
    (byteElement block (t * 4 + 3)))

/-- `W[t]` for the other words. -/
def laterWord (W : List Word) (t : ℕ) : Word :=
  let s0 := Number.xor (Number.xor (rotr (wordElement W (t - 15)) 7)
    (rotr (wordElement W (t - 15)) 18)) (Number.shiftRight (wordElement W (t - 15)) 3)
  let s1 := Number.xor (Number.xor (rotr (wordElement W (t - 2)) 17)
    (rotr (wordElement W (t - 2)) 19)) (Number.shiftRight (wordElement W (t - 2)) 10)
  Number.toUint32 (Number.or (Number.add (Number.add (Number.add (wordElement W (t - 16)) s0)
    (wordElement W (t - 7))) s1) 0)

/-- The message schedule of a block, filled by the two loops. -/
def messageSchedule (block : Bytes) : List Word :=
  let W := (List.range 16).foldl (fun W t => W.set t (firstWord block t)) (List.replicate 64 0)
  (List.range' 16 48).foldl (fun W t => W.set t (laterWord W t)) W

/-- A round. -/
def round (W : List Word) (v : WorkingVariables) (t : ℕ) : WorkingVariables :=
  let S1 := Number.xor (Number.xor (rotr v.e 6) (rotr v.e 11)) (rotr v.e 25)
  let ch := Number.xor (Number.and v.e v.f) (Number.and (Number.not v.e) v.g)
  let temp1 := Number.or (Number.add (Number.add (Number.add (Number.add v.h S1) ch)
    (wordElement K t)) (wordElement W t)) 0
  let S0 := Number.xor (Number.xor (rotr v.a 2) (rotr v.a 13)) (rotr v.a 22)
  let maj := Number.xor (Number.xor (Number.and v.a v.b) (Number.and v.a v.c)) (Number.and v.b v.c)
  let temp2 := Number.or (Number.add S0 maj) 0
  { h := v.g
    g := v.f
    f := v.e
    e := Number.or (Number.add v.d temp1) 0
    d := v.c
    c := v.b
    b := v.a
    a := Number.or (Number.add temp1 temp2) 0 }

/-- An element of `h` after a block. -/
def updatedWord (h : List Word) (i : ℕ) (x : ℤ) : Word :=
  Number.toUint32 (Number.or (Number.add (wordElement h i) x) 0)

/-- `processBlock`, on the buffer, which is the block of all its calls. -/
def processBlock (s : StreamingSHA256) : StreamingSHA256 :=
  let W := messageSchedule s.buffer
  let v := (List.range 64).foldl (round W)
    { a := wordElement s.h 0, b := wordElement s.h 1, c := wordElement s.h 2,
      d := wordElement s.h 3, e := wordElement s.h 4, f := wordElement s.h 5,
      g := wordElement s.h 6, h := wordElement s.h 7 }
  { s with
    h := [updatedWord s.h 0 v.a, updatedWord s.h 1 v.b, updatedWord s.h 2 v.c,
      updatedWord s.h 3 v.d, updatedWord s.h 4 v.e, updatedWord s.h 5 v.f,
      updatedWord s.h 6 v.g, updatedWord s.h 7 v.h] }

/-! ### `update` -/

/-- Copy as much of the bytes as the buffer has room for, and take in the block if it is full. -/
def copyInto (s : StreamingSHA256) (bytes : Bytes) (offset toCopy : ℕ) : StreamingSHA256 :=
  let s := { s with
    buffer := writeAt s.buffer s.bufferOffset ((bytes.drop offset).take toCopy)
    bufferOffset := s.bufferOffset + toCopy }
  if s.bufferOffset = 64 then { s.processBlock with bufferOffset := 0 } else s

/-- The loop of `update`; every turn copies a byte at least. -/
def copyLoop (bytes : Bytes) : ℕ → ℕ → StreamingSHA256 → StreamingSHA256
  | 0, _, s => s
  | fuel + 1, offset, s =>
    if offset < bytes.length then
      let toCopy := min (64 - s.bufferOffset) (bytes.length - offset)
      copyLoop bytes fuel (offset + toCopy) (s.copyInto bytes offset toCopy)
    else s

/-- `update` -/
def update (s : StreamingSHA256) (bytes : Bytes) : Except String StreamingSHA256 :=
  if s.finalized then .error "Hash already finalized"
  else .ok (copyLoop bytes bytes.length 0
    { s with totalBytes := Number.add s.totalBytes bytes.length })

/-! ### Checkpoints -/

/-- `serialize` -/
def serialize (s : StreamingSHA256) : Except String SerializedHash :=
  if s.finalized then .error "Cannot serialize finalized hash"
  else .ok
    { h := s.h.map fun w => (w.toNat : ℤ)
      buffer := s.buffer.map fun b => (b.toNat : ℤ)
      bufferOffset := s.bufferOffset
      totalBytes := s.totalBytes }

/-- `deserialize` -/
def deserialize (state : SerializedHash) : StreamingSHA256 :=
  { new with
    h := state.h.map Number.toUint32
    buffer := state.buffer.map Number.toUint8
    bufferOffset := state.bufferOffset
    totalBytes := state.totalBytes }

/-! ### `finalize` -/

/-- `toString(16).padStart(8, '0')` of an element. -/
def hexWord (w : Word) : List Char :=
  let digits := Nat.toDigits 16 w.toNat
  List.replicate (8 - digits.length) '0' ++ digits

/-- The number of bits, split in two, in the last eight bytes of the buffer. -/
def lengthBytes (totalBits : ℤ) : Bytes :=
  -- a quotient by a power of two is exact
  let highBits := totalBits / 0x100000000
  let lowBits := Number.shiftRight totalBits 0
  [Number.toUint8 (Number.and (Number.shiftRight highBits 24) 0xff),
    Number.toUint8 (Number.and (Number.shiftRight highBits 16) 0xff),
    Number.toUint8 (Number.and (Number.shiftRight highBits 8) 0xff),
    Number.toUint8 (Number.and highBits 0xff),
    Number.toUint8 (Number.and (Number.shiftRight lowBits 24) 0xff),
    Number.toUint8 (Number.and (Number.shiftRight lowBits 16) 0xff),
    Number.toUint8 (Number.and (Number.shiftRight lowBits 8) 0xff),
    Number.toUint8 (Number.and lowBits 0xff)]

/-- The byte that begins the padding, and the block that it ends if there is no room for the
length. -/
def beginPadding (s : StreamingSHA256) : StreamingSHA256 :=
  let s := { s with
    buffer := writeAt s.buffer s.bufferOffset [0x80]
    bufferOffset := s.bufferOffset + 1 }
  if 56 < s.bufferOffset then
    let s := { s with buffer := fillZeros s.buffer s.bufferOffset s.buffer.length }
    { s.processBlock with bufferOffset := 0 }
  else s

/-- The last block: zeros, and the length. -/
def endPadding (s : StreamingSHA256) (totalBits : ℤ) : StreamingSHA256 :=
  let s := { s with buffer := fillZeros s.buffer s.bufferOffset 56 }
  let s := { s with buffer := writeAt s.buffer 56 (lengthBytes totalBits) }
  s.processBlock

/-- `finalize`, with the hash as it is left behind. -/
def finalize (s : StreamingSHA256) : Except String (String × StreamingSHA256) :=
  if s.finalized then .error "Hash already finalized"
  else
    let totalBits := Number.mul s.totalBytes 8
    let s := ({ s with finalized := true }.beginPadding).endPadding totalBits
    .ok (String.ofList (s.h.flatMap hexWord), s)

/-! ### Runs -/

/-- What is called in the course of hashing: an update, or `serialize` and, with what it returns,
`deserialize`. -/
inductive Call where
  | update (bytes : Bytes)
  | checkpoint

/-- A call, and the hash that goes on. -/
def Call.run (s : StreamingSHA256) : Call → Except String StreamingSHA256
  | .update bytes => s.update bytes
  | .checkpoint => return deserialize (← s.serialize)

/-- The bytes of a call. -/
def Call.bytes : Call → Bytes
  | .update bytes => bytes
  | .checkpoint => []

/-- All calls, from a new hash on. -/
def run (calls : List Call) : Except String StreamingSHA256 := calls.foldlM Call.run new

/-- The digits that `finalize` returns in the end. -/
def digits (calls : List Call) : Except String String := return (← (← run calls).finalize).1

end StreamingSHA256

end Rapidly.FileSharing
