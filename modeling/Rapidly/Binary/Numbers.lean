import Mathlib.Data.BitVec
import Rapidly.Binary.Sha256

/-!
# Numbers that stand for words

The integers among the numbers of JavaScript, which are doubles, with the operators that are used
for 32-bit arithmetic. A sum is rounded as a double is; the bitwise operators convert their operands
to words first, and make a signed number of their result, or an unsigned one (`>>>`).

`Stands b x w` says that the number `x`, which is at most `b` up to its sign, stands for the word
`w`: all that matters of it is its remainder. There is one lemma for each operator.
-/

namespace Binary.Number

/-- The double that is closest to an integer; of two such, the one with an even significand. -/
def toDouble (n : ℤ) : ℤ :=
  let unit : ℤ := 2 ^ (n.natAbs.log2 - 52)
  if 2 * (n % unit) < unit ∨ 2 * (n % unit) = unit ∧ 2 ∣ n / unit then n / unit * unit
  else (n / unit + 1) * unit

/-- `x + y` -/
def add (x y : ℤ) : ℤ := toDouble (x + y)

/-- `x * y` -/
def mul (x y : ℤ) : ℤ := toDouble (x * y)

/-- The conversion to an unsigned word, as in `>>>` and in a `Uint32Array`. -/
def toUint32 (x : ℤ) : Word := BitVec.ofInt 32 x

/-- The conversion of a number to a byte, as in a `Uint8Array`. -/
def toUint8 (x : ℤ) : UInt8 := UInt8.ofInt x

/-- `x | y` -/
def or (x y : ℤ) : ℤ := (toUint32 x ||| toUint32 y).toInt

/-- `x & y` -/
def and (x y : ℤ) : ℤ := (toUint32 x &&& toUint32 y).toInt

/-- `x ^ y` -/
def xor (x y : ℤ) : ℤ := (toUint32 x ^^^ toUint32 y).toInt

/-- `~x` -/
def not (x : ℤ) : ℤ := (~~~toUint32 x).toInt

/-- `x << n`, for a count below 32. -/
def shiftLeft (x : ℤ) (n : ℕ) : ℤ := (toUint32 x <<< n).toInt

/-- `x >>> n`, for a count below 32. -/
def shiftRight (x : ℤ) (n : ℕ) : ℤ := (toUint32 x >>> n).toNat

/-! ### Numbers that are exact -/

theorem toDouble_of_lt {n : ℤ} (h : n.natAbs < 2 ^ 53) : toDouble n = n := by
  have hlog : n.natAbs.log2 - 52 = 0 := by
    by_cases hn : n.natAbs = 0
    · rw [hn, Nat.log2_zero]
    · have := (Nat.log2_lt hn).mpr h
      omega
  rw [toDouble, hlog, pow_zero, if_pos (Or.inl (by omega)), Int.ediv_one, mul_one]

theorem mul_of_lt {x y : ℤ} (h : (x * y).natAbs < 2 ^ 53) : mul x y = x * y := toDouble_of_lt h

theorem add_of_lt {x y : ℤ} (h : (x + y).natAbs < 2 ^ 53) : add x y = x + y := toDouble_of_lt h

/-! ### Words -/

/-- The number stands for the word. -/
structure Stands (b : ℕ) (x : ℤ) (w : Word) : Prop where
  le : x.natAbs ≤ b
  toUint32_eq : toUint32 x = w

section Stands

variable {b c n : ℕ} {x y : ℤ} {v w : Word}

theorem toUint32_toInt (w : Word) : toUint32 w.toInt = w := BitVec.ofInt_toInt

theorem toUint32_toNat (w : Word) : toUint32 w.toNat = w := by
  rw [toUint32, BitVec.ofInt_natCast, BitVec.ofNat_toNat, BitVec.setWidth_eq]

theorem toUint8_toNat (b : UInt8) : toUint8 b.toNat = b := by
  have hlt := b.toNat_lt
  have hmod : (b.toNat : ℤ) % 2 ^ 8 = b.toNat := by omega
  rw [toUint8, UInt8.ofInt, hmod, Int.toNat_natCast, UInt8.ofNat_toNat]

theorem stands_toInt (w : Word) : Stands (2 ^ 32) w.toInt w := by
  have hlow := BitVec.le_toInt w
  have hhigh := @BitVec.toInt_lt 32 w
  refine ⟨?_, toUint32_toInt w⟩
  omega

theorem stands_toNat (w : Word) : Stands (2 ^ 32) w.toNat w :=
  ⟨w.isLt.le, toUint32_toNat w⟩

theorem Stands.add (hx : Stands b x w) (hy : Stands c y v) (h : b + c < 2 ^ 53) :
    Stands (b + c) (add x y) (w + v) := by
  have hle : (x + y).natAbs ≤ b + c :=
    (Int.natAbs_add_le x y).trans (Nat.add_le_add hx.le hy.le)
  rw [add_of_lt (hle.trans_lt h)]
  refine ⟨hle, ?_⟩
  rw [toUint32, BitVec.ofInt_add]
  exact congrArg₂ _ hx.toUint32_eq hy.toUint32_eq

theorem Stands.or (hx : Stands b x w) (hy : Stands c y v) : Stands (2 ^ 32) (or x y) (w ||| v) := by
  rw [Number.or, hx.toUint32_eq, hy.toUint32_eq]
  exact stands_toInt _

theorem Stands.and (hx : Stands b x w) (hy : Stands c y v) :
    Stands (2 ^ 32) (and x y) (w &&& v) := by
  rw [Number.and, hx.toUint32_eq, hy.toUint32_eq]
  exact stands_toInt _

theorem Stands.xor (hx : Stands b x w) (hy : Stands c y v) :
    Stands (2 ^ 32) (xor x y) (w ^^^ v) := by
  rw [Number.xor, hx.toUint32_eq, hy.toUint32_eq]
  exact stands_toInt _

theorem Stands.not (hx : Stands b x w) : Stands (2 ^ 32) (not x) (~~~w) := by
  rw [Number.not, hx.toUint32_eq]
  exact stands_toInt _

theorem Stands.shiftLeft (hx : Stands b x w) (n : ℕ) :
    Stands (2 ^ 32) (shiftLeft x n) (w <<< n) := by
  rw [Number.shiftLeft, hx.toUint32_eq]
  exact stands_toInt _

theorem Stands.shiftRight (hx : Stands b x w) (n : ℕ) :
    Stands (2 ^ 32) (shiftRight x n) (w >>> n) := by
  rw [Number.shiftRight, hx.toUint32_eq]
  exact stands_toNat _

theorem Stands.orZero (hx : Stands b x w) : Stands (2 ^ 32) (Number.or x 0) w := by
  have hzero : Stands 0 0 (0 : Word) := ⟨Nat.le_refl 0, rfl⟩
  have hor := hx.or hzero
  rwa [show w ||| (0 : Word) = w from BitVec.or_zero] at hor

theorem Stands.toUint8 (hx : Stands b x w) : toUint8 x = UInt8.ofNat w.toNat := by
  have hw : w.toNat = (x % 2 ^ 32).toNat := by
    rw [← hx.toUint32_eq, toUint32, BitVec.toNat_ofInt]
    rfl
  apply UInt8.toNat.inj
  rw [Number.toUint8, UInt8.ofInt, UInt8.toNat_ofNat', UInt8.toNat_ofNat', hw]
  omega

theorem Stands.toUint8_and (hx : Stands b x w) :
    Number.toUint8 (Number.and x 0xff) = UInt8.ofNat w.toNat := by
  have hmask : Stands (2 ^ 32) 0xff (0xff : Word) := ⟨by decide, rfl⟩
  have hlow : w.toNat &&& 0xff = w.toNat % 2 ^ 8 := Nat.and_two_pow_sub_one_eq_mod w.toNat 8
  rw [(hx.and hmask).toUint8]
  apply UInt8.toNat.inj
  rw [UInt8.toNat_ofNat', UInt8.toNat_ofNat', BitVec.toNat_and]
  exact (congrArg (· % 2 ^ 8) hlow).trans (Nat.mod_mod _ _)

end Stands

end Binary.Number
