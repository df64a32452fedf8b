import Mathlib.Data.List.Basic
import Mathlib.Algebra.Order.Ring.Nat

/-!
# Data in blocks

A function that takes in one block after the other, as the compression function of a hash does.
`absorbed f n s data` is what it makes of the full blocks of some data, and `remainder n data` is
what is behind them.

These two are all that has to be kept of the data when more of it follows: `absorbed_append_of_lt`
and `absorbed_append_of_eq` say what they become when a block is not filled yet, and when it is.
-/

namespace Binary

section Blocks

variable {α σ : Type} (f : σ → List α → σ) (n : ℕ) (s : σ) (data : List α)

/-- Take in the first `k` blocks of `n` elements. -/
def absorb : ℕ → σ
  | 0 => s
  | k + 1 => f (absorb k) ((data.drop (n * k)).take n)

/-- Take in all full blocks. -/
def absorbed : σ := absorb f n s data (data.length / n)

/-- What is behind the full blocks. -/
def remainder : List α := data.drop (n * (data.length / n))

variable {f n s data} {more : List α}

theorem absorb_append {k : ℕ} (h : n * k ≤ data.length) :
    absorb f n s (data ++ more) k = absorb f n s data k := by
  induction k with
  | zero => rfl
  | succ k ih =>
    rw [Nat.mul_succ] at h
    have hlength : n ≤ (data.drop (n * k)).length := by
      rw [List.length_drop]
      omega
    rw [absorb, absorb, ih (by omega), List.drop_append_of_le_length (by omega),
      List.take_append_of_le_length hlength]

theorem length_div_append (h : data.length % n + more.length < n) :
    (data ++ more).length / n = data.length / n := by
  have hsplit := Nat.mod_add_div data.length n
  rw [List.length_append]
  refine Nat.div_eq_of_lt_le ?_ ?_
  · rw [Nat.mul_comm]
    omega
  · rw [Nat.succ_mul, Nat.mul_comm]
    omega

/-- **A block that is not filled.** -/
theorem absorbed_append_of_lt (h : data.length % n + more.length < n) :
    absorbed f n s (data ++ more) = absorbed f n s data ∧
      remainder n (data ++ more) = remainder n data ++ more := by
  have hle : n * (data.length / n) ≤ data.length := Nat.mul_div_le _ _
  rw [absorbed, absorbed, remainder, remainder, length_div_append h]
  exact ⟨absorb_append hle, List.drop_append_of_le_length hle⟩

/-- **A block that is filled.** -/
theorem absorbed_append_of_eq (hn : 0 < n) (h : data.length % n + more.length = n) :
    absorbed f n s (data ++ more) = f (absorbed f n s data) (remainder n data ++ more) ∧
      remainder n (data ++ more) = [] := by
  have hle : n * (data.length / n) ≤ data.length := Nat.mul_div_le _ _
  have hsplit := Nat.mod_add_div data.length n
  have hlength : (data ++ more).length = n * (data.length / n + 1) := by
    rw [List.length_append, Nat.mul_succ]
    omega
  have hdiv : (data ++ more).length / n = data.length / n + 1 := by
    rw [hlength, Nat.mul_div_cancel_left _ hn]
  have hblock : ((data ++ more).drop (n * (data.length / n))).take n =
      remainder n data ++ more := by
    rw [List.drop_append_of_le_length hle]
    refine List.take_of_length_le ?_
    rw [List.length_append, List.length_drop]
    omega
  constructor
  · rw [absorbed, hdiv, absorb, absorb_append hle, hblock, absorbed]
  · rw [remainder, hdiv, ← hlength, List.drop_length]

end Blocks

end Binary
