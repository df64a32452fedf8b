import Mathlib.Data.Nat.NthRoot.Defs
import Mathlib.Data.Nat.Prime.Defs
import Rapidly.Binary.Blocks
import Rapidly.Binary.Buffer

/-!
# SHA-256

The hash function of FIPS 180-4 on byte strings: its constants as roots of primes, the message
schedule, the compression function, and the padding with the length in 64 bits. A message has whole
bytes here, and a message and its digest are lists of them.

`digest` hashes a message as a whole: it is padded, and its blocks are taken in.
-/

namespace Binary

/-- A word of 32 bits. -/
abbrev Word := BitVec 32

/-- The number in the four bytes at an offset, most significant first. -/
def wordAt (bytes : List UInt8) (i : ℕ) : Word :=
  BitVec.ofNat 32 (ofBytes ((bytes.drop i).take 4).reverse)

namespace Sha256

/-! ### Functions and constants -/

def ch (x y z : Word) : Word := (x &&& y) ^^^ (~~~x &&& z)

def maj (x y z : Word) : Word := (x &&& y) ^^^ (x &&& z) ^^^ (y &&& z)

/-- `Σ₀` -/
def bigSigma0 (x : Word) : Word := x.rotateRight 2 ^^^ x.rotateRight 13 ^^^ x.rotateRight 22

/-- `Σ₁` -/
def bigSigma1 (x : Word) : Word := x.rotateRight 6 ^^^ x.rotateRight 11 ^^^ x.rotateRight 25

/-- `σ₀` -/
def smallSigma0 (x : Word) : Word := x.rotateRight 7 ^^^ x.rotateRight 18 ^^^ (x >>> 3)

/-- `σ₁` -/
def smallSigma1 (x : Word) : Word := x.rotateRight 17 ^^^ x.rotateRight 19 ^^^ (x >>> 10)

/-- The first 32 bits of the fraction of the `k`-th root of a number. -/
def rootBits (k p : ℕ) : Word := BitVec.ofNat 32 (Nat.nthRoot k (p * 2 ^ (32 * k)))

/-- The first 64 primes. -/
def primes : List ℕ := (List.range 312).filter Nat.Prime

theorem prime_iff {n : ℕ} (hn : n < 312) :
    n.Prime ↔ 2 ≤ n ∧ ∀ m ∈ List.range 16, n < (m + 2) * (m + 2) ∨ n % (m + 2) ≠ 0 := by
  rw [Nat.prime_def_le_sqrt]
  refine and_congr_right fun _ => ⟨fun h m _ => ?_, fun h m htwo hle hdvd => ?_⟩
  · refine or_iff_not_imp_left.mpr fun hsquare hmod => ?_
    exact h (m + 2) (by omega) (Nat.le_sqrt.mpr (by omega)) (Nat.dvd_of_mod_eq_zero hmod)
  · have hsquare : m * m ≤ n := Nat.le_sqrt.mp hle
    have hm : m < 18 := by
      refine Nat.lt_of_not_le fun hlarge => ?_
      have hmul := Nat.mul_le_mul hlarge hlarge
      omega
    obtain ⟨k, rfl⟩ := Nat.exists_eq_add_of_le' htwo
    obtain hlt | hmod := h k (List.mem_range.mpr (by omega))
    · omega
    · exact hmod (Nat.mod_eq_zero_of_dvd hdvd)

theorem primes_eq : primes =
    [2, 3, 5, 7, 11, 13, 17, 19, 23, 29, 31, 37, 41, 43, 47, 53, 59, 61, 67, 71, 73, 79, 83, 89,
      97, 101, 103, 107, 109, 113, 127, 131, 137, 139, 149, 151, 157, 163, 167, 173, 179, 181, 191,
      193, 197, 199, 211, 223, 227, 229, 233, 239, 241, 251, 257, 263, 269, 271, 277, 281, 283, 293,
      307, 311] := by
  have htrial : primes = (List.range 312).filter fun n =>
      2 ≤ n ∧ ∀ m ∈ List.range 16, n < (m + 2) * (m + 2) ∨ n % (m + 2) ≠ 0 :=
    List.filter_congr fun n hn => decide_eq_decide.mpr (prime_iff (List.mem_range.mp hn))
  rw [htrial]
  decide +kernel

/-- The constants of the rounds. -/
def roundConstants : List Word := primes.map (rootBits 3)

/-- Working variables, or a hash value. -/
structure State where
  a : Word
  b : Word
  c : Word
  d : Word
  e : Word
  f : Word
  g : Word
  h : Word
deriving DecidableEq

namespace State

/-- The words in their order. -/
def words (s : State) : List Word := [s.a, s.b, s.c, s.d, s.e, s.f, s.g, s.h]

/-- The sum, word by word. -/
def add (s t : State) : State :=
  ⟨s.a + t.a, s.b + t.b, s.c + t.c, s.d + t.d, s.e + t.e, s.f + t.f, s.g + t.g, s.h + t.h⟩

/-- A round with a constant and a word of the schedule. -/
def round (s : State) (k w : Word) : State :=
  let t₁ := s.h + bigSigma1 s.e + ch s.e s.f s.g + k + w
  let t₂ := bigSigma0 s.a + maj s.a s.b s.c
  ⟨t₁ + t₂, s.a, s.b, s.c, s.d + t₁, s.e, s.f, s.g⟩

/-- The hash value that all messages begin with. -/
def initial : State :=
  ⟨rootBits 2 2, rootBits 2 3, rootBits 2 5, rootBits 2 7, rootBits 2 11, rootBits 2 13,
    rootBits 2 17, rootBits 2 19⟩

end State

/-! ### Blocks -/

/-- The word of a schedule that comes behind those there are. -/
def nextWord (w : List Word) : Word :=
  smallSigma1 (w.getD (w.length - 2) 0) + w.getD (w.length - 7) 0 +
    smallSigma0 (w.getD (w.length - 15) 0) + w.getD (w.length - 16) 0

/-- `n` more words of a schedule. -/
def extend : ℕ → List Word → List Word
  | 0, w => w
  | n + 1, w => extend n (w ++ [nextWord w])

/-- The words of a block. -/
def messageWords (block : List UInt8) : List Word :=
  (List.range 16).map fun t => wordAt block (4 * t)

/-- The message schedule of a block. -/
def schedule (block : List UInt8) : List Word := extend 48 (messageWords block)

/-- The compression function. -/
def compress (H : State) (block : List UInt8) : State :=
  let w := schedule block
  H.add ((List.range 64).foldl (fun s t => s.round (roundConstants.getD t 0) (w.getD t 0)) H)

/-! ### The schedule -/

@[simp] theorem length_messageWords (block : List UInt8) : (messageWords block).length = 16 := by
  rw [messageWords, List.length_map, List.length_range]

/-! ### Messages -/

/-- The number of zeros behind the first byte of the padding of `n` bytes. -/
def padZeros (n : ℕ) : ℕ := (119 - n % 64) % 64

/-- A one, zeros, and the number of bits. -/
def padding (n : ℕ) : List UInt8 := 0x80 :: (zeros (padZeros n) ++ beBytes 8 (8 * n))

/-- The hash value of a message. -/
def hash (message : List UInt8) : State :=
  absorbed compress 64 .initial (message ++ padding message.length)

/-- The digest of a message. -/
def digest (message : List UInt8) : List UInt8 :=
  (hash message).words.flatMap fun w => beBytes 4 w.toNat

end Sha256

end Binary
