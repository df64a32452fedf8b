import Mathlib.Data.Nat.Init
import Mathlib.Logic.Function.Iterate

/-!
# Cyclic redundancy checks

A reflected CRC over any polynomial: the register is shifted by one bit at a time, and the
polynomial is added for each one that is shifted out (`shiftBit`). `crc` is the check of a list of
bytes by this definition.

Programs use a table of what eight shifts make of each byte. As the shifts are linear
(`shiftBits_xor`), the table gives the same register (`shiftByte_eq_table`).

If the highest coefficient of the polynomial is there, no shift loses anything, and a check sees
every change of a single byte (`crc_inj_byte`).
-/

namespace Binary

variable {w : ℕ} (polynomial : BitVec w)

/-- Shift out one bit. -/
def shiftBit (c : BitVec w) : BitVec w :=
  if c.getLsbD 0 then (c >>> 1) ^^^ polynomial else c >>> 1

/-- Shift out `k` bits. -/
def shiftBits : ℕ → BitVec w → BitVec w
  | 0, c => c
  | k + 1, c => shiftBits k (shiftBit polynomial c)

/-- Add a byte to the register and shift it out. -/
def shiftByte (c : BitVec w) (b : UInt8) : BitVec w :=
  shiftBits polynomial 8 (c ^^^ b.toBitVec.setWidth w)

/-- The check of some bytes: the register is set to ones before and inverted after. -/
def crc (bytes : List UInt8) : BitVec w := ~~~ bytes.foldl (shiftByte polynomial) (BitVec.allOnes w)

section Lemmas

variable {polynomial} {a b c : BitVec w} {k : ℕ}

theorem shiftBit_xor :
    shiftBit polynomial (a ^^^ b) = shiftBit polynomial a ^^^ shiftBit polynomial b := by
  unfold shiftBit
  rw [BitVec.getLsbD_xor, BitVec.ushiftRight_xor_distrib]
  generalize a >>> 1 = a', b >>> 1 = b'
  cases a.getLsbD 0 <;> cases b.getLsbD 0
  · rfl
  · exact BitVec.xor_assoc ..
  · change a' ^^^ b' ^^^ polynomial = a' ^^^ polynomial ^^^ b'
    rw [BitVec.xor_assoc, BitVec.xor_comm b', BitVec.xor_assoc]
  · -- the polynomial is added twice
    change a' ^^^ b' = a' ^^^ polynomial ^^^ (b' ^^^ polynomial)
    rw [BitVec.xor_comm b', BitVec.xor_assoc, ← BitVec.xor_assoc polynomial, BitVec.xor_self,
      BitVec.zero_xor]

theorem shiftBits_xor : shiftBits polynomial k (a ^^^ b) =
    shiftBits polynomial k a ^^^ shiftBits polynomial k b := by
  induction k generalizing a b with
  | zero => rfl
  | succ k ih => rw [shiftBits, shiftBit_xor, ih, shiftBits, shiftBits]

theorem shiftBits_of_zeros (h : ∀ i < k, c.getLsbD i = false) :
    shiftBits polynomial k c = c >>> k := by
  induction k generalizing c with
  | zero => rw [shiftBits, BitVec.ushiftRight_zero]
  | succ k ih =>
    have hfirst : shiftBit polynomial c = c >>> 1 := by
      rw [shiftBit, h 0 (Nat.succ_pos k), if_neg Bool.false_ne_true]
    have hrest : ∀ i < k, (c >>> 1).getLsbD i = false := by
      intro i hi
      rw [BitVec.getLsbD_ushiftRight]
      exact h (1 + i) (by omega)
    rw [shiftBits, hfirst, ih hrest, ← BitVec.shiftRight_add, Nat.add_comm]

theorem and_not_xor_and (x mask : BitVec w) : (x &&& ~~~mask) ^^^ (x &&& mask) = x := by
  ext i hi
  rw [BitVec.getElem_xor, BitVec.getElem_and, BitVec.getElem_and, BitVec.getElem_not]
  cases x[i] <;> cases mask[i] <;> rfl

theorem getLsbD_mask (i : ℕ) :
    (BitVec.ofNat w 255).getLsbD i = (decide (i < w) && decide (i < 8)) := by
  rw [BitVec.getLsbD_ofNat]
  congr 1
  exact Nat.testBit_two_pow_sub_one 8 i

theorem shiftBits_high (x : BitVec w) :
    shiftBits polynomial 8 (x &&& ~~~BitVec.ofNat w 255) = x >>> 8 := by
  rw [shiftBits_of_zeros]
  · refine BitVec.eq_of_getLsbD_eq fun i hi => ?_
    rw [BitVec.getLsbD_ushiftRight, BitVec.getLsbD_ushiftRight, BitVec.getLsbD_and,
      BitVec.getLsbD_not, getLsbD_mask]
    by_cases hi' : 8 + i < w
    · simp [hi']
    · simp [hi', BitVec.getLsbD_of_ge x (8 + i) (by omega)]
  · intro i hi
    rw [BitVec.getLsbD_and, BitVec.getLsbD_not, getLsbD_mask, decide_eq_true hi]
    cases decide (i < w) <;> simp

theorem xor_byte_shift (c : BitVec w) (b : UInt8) :
    (c ^^^ b.toBitVec.setWidth w) >>> 8 = c >>> 8 := by
  refine BitVec.eq_of_getLsbD_eq fun i hi => ?_
  have hout : b.toBitVec.getLsbD (8 + i) = false := BitVec.getLsbD_of_ge _ _ (by omega)
  rw [BitVec.getLsbD_ushiftRight, BitVec.getLsbD_ushiftRight, BitVec.getLsbD_xor,
    BitVec.getLsbD_setWidth, hout, Bool.and_false, Bool.xor_false]

/-- **The table.** A byte is shifted out by looking up what its sum with the low byte of the
register comes to. -/
theorem shiftByte_eq_table (c : BitVec w) (b : UInt8) :
    shiftByte polynomial c b = (c >>> 8) ^^^
      shiftBits polynomial 8 ((c ^^^ b.toBitVec.setWidth w) &&& BitVec.ofNat w 255) := by
  rw [← xor_byte_shift c b, ← @shiftBits_high w polynomial, ← shiftBits_xor, and_not_xor_and,
    shiftByte]

/-! ### What a check sees -/

theorem eq_zero_of_shiftBit (hmsb : polynomial.msb = true) (h : shiftBit polynomial c = 0#w) :
    c = 0#w := by
  rw [shiftBit] at h
  split at h
  next hlow =>
    -- the polynomial would be a shifted register, whose highest bit is gone
    have hshift : c >>> 1 = polynomial := BitVec.xor_eq_zero_iff.mp h
    have htop : (c >>> 1).getLsbD (w - 1) = true := by
      rw [hshift, ← BitVec.msb_eq_getLsbD_last]
      exact hmsb
    rw [BitVec.getLsbD_ushiftRight] at htop
    have hlt := BitVec.lt_of_getLsbD htop
    omega
  next hlow =>
    refine BitVec.eq_of_getLsbD_eq fun i hi => ?_
    rw [BitVec.getLsbD_zero]
    rcases i with _ | i
    · exact (Bool.not_eq_true _).mp hlow
    · have hbit := congrArg (fun x => x.getLsbD i) h
      simp only [BitVec.getLsbD_ushiftRight, BitVec.getLsbD_zero] at hbit
      rw [Nat.add_comm]
      exact hbit

theorem shiftBit_injective (hmsb : polynomial.msb = true) :
    Function.Injective (shiftBit polynomial) := by
  intro a b hab
  have hzero : shiftBit polynomial (a ^^^ b) = 0#w := by
    rw [shiftBit_xor, hab]
    exact BitVec.xor_self
  exact BitVec.xor_eq_zero_iff.mp (eq_zero_of_shiftBit hmsb hzero)

theorem shiftBits_injective (hmsb : polynomial.msb = true) :
    Function.Injective (shiftBits polynomial k) := by
  induction k with
  | zero => exact fun a b hab => hab
  | succ k ih => exact fun a b hab => shiftBit_injective hmsb (ih hab)

theorem foldl_shiftByte_injective (hmsb : polynomial.msb = true) (bytes : List UInt8) :
    Function.Injective fun c : BitVec w => bytes.foldl (shiftByte polynomial) c := by
  induction bytes with
  | nil => exact fun a b hab => hab
  | cons x bytes ih =>
    intro a b hab
    have hfirst := shiftBits_injective hmsb (ih hab)
    exact (BitVec.xor_left_inj _).mp hfirst

/-- **A check sees every change of a byte.** -/
theorem crc_inj_byte (hmsb : polynomial.msb = true) (hw : 8 ≤ w) {before after : List UInt8}
    {x y : UInt8}
    (h : crc polynomial (before ++ x :: after) = crc polynomial (before ++ y :: after)) :
    x = y := by
  unfold crc at h
  rw [List.foldl_append, List.foldl_append, List.foldl_cons, List.foldl_cons] at h
  have hregister := foldl_shiftByte_injective hmsb after (BitVec.not_inj.mp h)
  have hsum := (BitVec.xor_right_inj _).mp (shiftBits_injective hmsb hregister)
  have hbyte := congrArg (BitVec.setWidth 8) hsum
  rw [BitVec.setWidth_setWidth_of_le _ hw, BitVec.setWidth_setWidth_of_le _ hw,
    BitVec.setWidth_eq, BitVec.setWidth_eq] at hbyte
  exact UInt8.toBitVec_inj.mp hbyte

end Lemmas

end Binary
