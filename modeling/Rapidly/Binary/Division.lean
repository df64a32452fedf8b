import Mathlib.Algebra.Order.Floor.Ring
import Mathlib.Data.Int.Log
import Mathlib.Data.Rat.Floor
import Mathlib.Tactic.FieldSimp
import Mathlib.Tactic.Linarith

/-!
# Quotients of doubles

The quotient of two natural numbers as Python and JavaScript have it: the double that is closest
to it. The limits of the exponent are left out.

A quotient that is rounded can reach the next integer. Below `2 ^ 53` it does so only from within
that integer's own distance, so that its ceiling stays (`ceil_toDouble_div`).
-/

namespace Binary.Quotient

/-- The closest integer; of two such, the even one. -/
def roundEven (x : ℚ) : ℤ :=
  if 2 * (x - ⌊x⌋) < 1 ∨ 2 * (x - ⌊x⌋) = 1 ∧ 2 ∣ ⌊x⌋ then ⌊x⌋ else ⌊x⌋ + 1

/-- The distance of two neighbouring doubles. -/
def unit (q : ℚ) : ℚ := 2 ^ (Int.log 2 q - 52)

/-- The closest number with fifty-three binary digits. -/
def toDouble (q : ℚ) : ℚ := if q = 0 then 0 else roundEven (q / unit q) * unit q

variable {x q : ℚ} {k : ℤ} {n d : ℕ}

theorem sub_roundEven_le (x : ℚ) : 2 * (x - roundEven x) ≤ 1 := by
  have hlt := Int.lt_floor_add_one x
  rw [roundEven]
  split
  next h => exact h.elim le_of_lt fun h => h.1.le
  next =>
    push_cast
    linarith

theorem roundEven_le (h : x ≤ k) : roundEven x ≤ k := by
  have hfloor := Int.floor_le x
  rw [roundEven]
  split
  next => exact Int.floor_le_iff.mpr (lt_of_le_of_lt h (by linarith))
  next hup =>
    -- the fraction is not zero
    have hfrac : (⌊x⌋ : ℚ) < x := by
      refine lt_of_le_of_ne hfloor fun heq => hup (.inl ?_)
      rw [← heq, Int.floor_intCast, sub_self, mul_zero]
      exact one_pos
    exact Int.add_one_le_of_lt (by exact_mod_cast lt_of_lt_of_le hfrac h)

theorem toDouble_of_pos (hq : 0 < q) : toDouble q = roundEven (q / unit q) * unit q :=
  if_neg hq.ne'

theorem unit_pos (q : ℚ) : 0 < unit q := zpow_pos (by norm_num) _

theorem unit_mul_le (hq : 0 < q) : unit q * 2 ^ 52 ≤ q := by
  have hself : (2 : ℚ) ^ Int.log 2 q ≤ q := by
    exact_mod_cast Int.zpow_log_le_self (b := 2) (by norm_num) hq
  calc unit q * 2 ^ 52 = 2 ^ (Int.log 2 q - 52) * 2 ^ (52 : ℤ) := rfl
    _ = 2 ^ Int.log 2 q := by rw [← zpow_add₀ (by norm_num : (2 : ℚ) ≠ 0), sub_add_cancel]
    _ ≤ q := hself

theorem sub_toDouble_le (hq : 0 < q) : 2 * (q - toDouble q) * 2 ^ 52 ≤ q := by
  have hround := mul_le_mul_of_nonneg_right (sub_roundEven_le (q / unit q)) (unit_pos q).le
  have hcancel : q / unit q * unit q = q := div_mul_cancel₀ q (unit_pos q).ne'
  have herror : 2 * (q - toDouble q) ≤ unit q := by
    rw [toDouble_of_pos hq]
    linarith
  exact (mul_le_mul_of_nonneg_right herror (by norm_num)).trans (unit_mul_le hq)

theorem toDouble_le (hq : 0 < q) (hlt : q < 2 ^ 53) (hk : q ≤ k) : toDouble q ≤ k := by
  have hlog : Int.log 2 q ≤ 52 := by
    have hlt := (Int.lt_zpow_iff_log_lt (b := 2) (x := 53) (by norm_num) hq).mp
      (by exact_mod_cast hlt)
    omega
  obtain ⟨j, hj⟩ := Int.eq_ofNat_of_zero_le (Int.sub_nonneg.mpr hlog)
  have hone : (2 : ℚ) ^ j * unit q = 1 := by
    rw [unit, ← zpow_natCast, ← zpow_add₀ (by norm_num : (2 : ℚ) ≠ 0)]
    have hzero : (j : ℤ) + (Int.log 2 q - 52) = 0 := by omega
    rw [hzero, zpow_zero]
  have hdigits : roundEven (q / unit q) ≤ k * 2 ^ j := by
    refine roundEven_le ?_
    rw [div_le_iff₀ (unit_pos q)]
    push_cast
    rwa [mul_assoc, hone, mul_one]
  have hcast : (roundEven (q / unit q) : ℚ) ≤ k * 2 ^ j := by exact_mod_cast hdigits
  calc toDouble q = roundEven (q / unit q) * unit q := toDouble_of_pos hq
    _ ≤ k * 2 ^ j * unit q := mul_le_mul_of_nonneg_right hcast (unit_pos q).le
    _ = k := by rw [mul_assoc, hone, mul_one]

/-- The double has the ceiling of the quotient, below `2 ^ 53`. -/
theorem ceil_toDouble_div (hd : 0 < d) (hn : n < 2 ^ 53) :
    ⌈toDouble ((n : ℚ) / d)⌉ = ⌈(n : ℚ) / d⌉ := by
  rcases Nat.eq_zero_or_pos n with rfl | hpos
  · simp [toDouble]
  have hd' : (0 : ℚ) < d := by exact_mod_cast hd
  have hn' : (n : ℚ) < 2 ^ 53 := by exact_mod_cast hn
  have hq : (0 : ℚ) < n / d := div_pos (by exact_mod_cast hpos) hd'
  have hqd : (n : ℚ) / d * d = n := div_mul_cancel₀ _ hd'.ne'
  set q : ℚ := (n : ℚ) / d
  rw [Int.ceil_eq_iff]
  constructor
  · -- the error is smaller than the distance from the integer below
    have hbelow : ((⌈q⌉ : ℚ) - 1) * d + 1 ≤ n := by
      have hlt : ((⌈q⌉ : ℚ) - 1) * d < n := by
        rw [← hqd]
        exact mul_lt_mul_of_pos_right (by linarith [Int.ceil_lt_add_one q]) hd'
      exact_mod_cast Int.add_one_le_of_lt (by exact_mod_cast hlt)
    have herror : (q - toDouble q) * d < 1 := by
      have hmul := mul_le_mul_of_nonneg_right (sub_toDouble_le hq) hd'.le
      have hsplit : 2 * (q - toDouble q) * 2 ^ 52 * d = (q - toDouble q) * d * 2 ^ 53 := by ring
      rw [hqd, hsplit] at hmul
      refine lt_of_mul_lt_mul_right ?_ (by norm_num : (0 : ℚ) ≤ 2 ^ 53)
      rw [one_mul]
      exact hmul.trans_lt hn'
    refine lt_of_mul_lt_mul_right ?_ hd'.le
    linarith
  · refine toDouble_le hq ?_ (Int.le_ceil q)
    have hle : q * 1 ≤ q * d :=
      mul_le_mul_of_nonneg_left (by exact_mod_cast hd) hq.le
    linarith

theorem natCeil_toDouble_div (hd : 0 < d) (hn : n < 2 ^ 53) :
    ⌈toDouble ((n : ℚ) / d)⌉₊ = ⌈(n : ℚ) / d⌉₊ := by
  rw [← Int.ceil_toNat, ceil_toDouble_div hd hn, Int.ceil_toNat]

end Binary.Quotient
