import Mathlib.Algebra.Order.Ring.Int
import Mathlib.Data.Int.ConditionallyCompleteOrder
import Mathlib.Data.Int.SuccPred
import Mathlib.Order.SuccPred.Basic
import Mathlib.Data.List.Nodup

/-!
# Periods of a time line

A `Grid` divides the integers into periods, numbered in order, with the start of each and the
number of the period that an instant is in. `trunc` takes an instant to the start of its period.

`seriesFrom` is the series that starts with an instant and goes on in steps while it does not pass
its end. If the steps lead from period to period, the series has the start of each of its instants
once (`Grid.count_seriesFrom`).
-/

namespace Chronology

/-- A division of the integers into periods. -/
structure Grid where
  /-- Where a period starts. -/
  start : ℤ → ℤ
  /-- The period that an instant is in. -/
  index : ℤ → ℤ
  strictMono : StrictMono start
  start_index_le : ∀ t, start (index t) ≤ t
  lt_start_index_succ : ∀ t, t < start (index t + 1)

namespace Grid

variable (g : Grid)

/-- The start of the period of an instant. -/
def trunc (t : ℤ) : ℤ := g.start (g.index t)

variable {g}

theorem le_index_iff {k t : ℤ} : k ≤ g.index t ↔ g.start k ≤ t := by
  constructor
  · intro h
    exact (g.strictMono.monotone h).trans (g.start_index_le t)
  · intro h
    have hlt : g.start k < g.start (g.index t + 1) := h.trans_lt (g.lt_start_index_succ t)
    exact Int.lt_add_one_iff.mp (g.strictMono.lt_iff_lt.mp hlt)

@[simp] theorem index_start (k : ℤ) : g.index (g.start k) = k := by
  refine le_antisymm ?_ (le_index_iff.mpr le_rfl)
  exact g.strictMono.le_iff_le.mp (g.start_index_le _)

theorem trunc_le (t : ℤ) : g.trunc t ≤ t := g.start_index_le t

theorem sub_le_start_sub_start {j k : ℤ} (h : k ≤ j) : j - k ≤ g.start j - g.start k := by
  obtain ⟨n, rfl⟩ := Int.le.dest h
  induction n with
  | zero => simp
  | succ n ih =>
    have hstep : g.start (k + n) < g.start (k + (n + 1 : ℕ)) := g.strictMono (by omega)
    omega

/-- Periods of one length. -/
def uniform (origin width : ℤ) (hwidth : 0 < width) : Grid where
  start k := origin + k * width
  index t := (t - origin) / width
  strictMono j k h := by
    have hmul := mul_lt_mul_of_pos_right h hwidth
    dsimp only
    omega
  start_index_le t := by
    have h := Int.ediv_mul_le (t - origin) hwidth.ne'
    omega
  lt_start_index_succ t := by
    have h := Int.lt_ediv_add_one_mul_self (t - origin) hwidth
    omega

/-- The periods of a grid of days, in a unit of which a day has `width`. -/
def scale (g : Grid) (origin width : ℤ) (hwidth : 0 < width) : Grid where
  start k := origin + g.start k * width
  index t := g.index ((t - origin) / width)
  strictMono j k h := by
    have hmul := mul_lt_mul_of_pos_right (g.strictMono h) hwidth
    dsimp only
    omega
  start_index_le t := by
    have h := (Int.le_ediv_iff_mul_le hwidth).mp (g.start_index_le ((t - origin) / width))
    omega
  lt_start_index_succ t := by
    have h := (Int.ediv_lt_iff_lt_mul hwidth).mp (g.lt_start_index_succ ((t - origin) / width))
    omega

end Grid

/-! ### Series -/

/-- The instants from `t` on, in steps, as long as they do not pass the end. -/
def seriesFrom (step : ℤ → ℤ) (stop : ℤ) : ℕ → ℤ → List ℤ
  | 0, _ => []
  | fuel + 1, t => if t ≤ stop then t :: seriesFrom step stop fuel (step t) else []

/-- The series between two instants. A step takes at least one unit of time. -/
def series (step : ℤ → ℤ) (t stop : ℤ) : List ℤ := seriesFrom step stop (stop - t + 1).toNat t

variable {step : ℤ → ℤ} {stop : ℤ}

theorem series_ne_nil_iff {t : ℤ} : series step t stop ≠ [] ↔ t ≤ stop := by
  constructor
  · intro hne
    by_contra h
    refine hne ?_
    rw [series]
    cases (stop - t + 1).toNat with
    | zero => rfl
    | succ fuel => rw [seriesFrom, if_neg h]
  · intro h
    have hfuel : (stop - t + 1).toNat = (stop - t).toNat + 1 := by omega
    rw [series, hfuel, seriesFrom, if_pos h]
    exact List.cons_ne_nil _ _

namespace Grid

variable {g : Grid}

/-- In steps from period to period, the series has each start up to its end once. -/
theorem count_seriesFrom (hstep : ∀ k, step (g.start k) = g.start (k + 1)) {fuel : ℕ} {j k : ℤ}
    (hfuel : j - k < fuel) :
    (seriesFrom step stop fuel (g.start k)).count (g.start j) =
      if k ≤ j ∧ g.start j ≤ stop then 1 else 0 := by
  induction fuel generalizing k with
  | zero =>
    have hjk : ¬(k ≤ j ∧ g.start j ≤ stop) := fun h => by omega
    rw [if_neg hjk]
    rfl
  | succ fuel ih =>
    rw [seriesFrom]
    by_cases hstop : g.start k ≤ stop
    · rw [if_pos hstop, hstep, List.count_cons, ih (by push_cast at hfuel; omega)]
      by_cases hj : j = k
      · subst hj
        have hafter : ¬(j + 1 ≤ j ∧ g.start j ≤ stop) := fun h => by omega
        rw [if_neg hafter, beq_self_eq_true, if_pos rfl, if_pos ⟨le_rfl, hstop⟩]
      · have hne : (g.start k == g.start j) = false :=
          beq_false_of_ne fun h => hj (g.strictMono.injective h).symm
        rw [hne, if_neg Bool.false_ne_true, Nat.add_zero]
        exact if_congr (and_congr_left fun _ => by omega) rfl rfl
    · have hbefore : ¬(k ≤ j ∧ g.start j ≤ stop) := fun h =>
        hstop ((g.strictMono.monotone h.1).trans h.2)
      rw [if_neg hstop, if_neg hbefore]
      rfl

/-- In steps from period to period, the series has starts of periods only. -/
theorem exists_of_mem_series (hstep : ∀ k, step (g.start k) = g.start (k + 1)) {k t : ℤ}
    (ht : t ∈ series step (g.start k) stop) : ∃ j, t = g.start j := by
  have hfrom : ∀ (fuel : ℕ) (k : ℤ), t ∈ seriesFrom step stop fuel (g.start k) →
      ∃ j, t = g.start j := by
    intro fuel
    induction fuel with
    | zero => exact fun _ h => absurd h List.not_mem_nil
    | succ fuel ih =>
      intro k h
      rw [seriesFrom] at h
      split at h
      · rcases List.mem_cons.mp h with rfl | h
        · exact ⟨k, rfl⟩
        · rw [hstep] at h
          exact ih _ h
      · exact absurd h List.not_mem_nil
  exact hfrom _ _ ht

/-- The series from the start of a period has the start of each of its instants once. -/
theorem count_series (hstep : ∀ k, step (g.start k) = g.start (k + 1)) {k t : ℤ}
    (hlower : g.start k ≤ t) (hupper : t ≤ stop) :
    (series step (g.start k) stop).count (g.trunc t) = 1 := by
  have hk : k ≤ g.index t := le_index_iff.mpr hlower
  have hstart : g.start (g.index t) ≤ stop := (g.trunc_le t).trans hupper
  have hdist := sub_le_start_sub_start (g := g) hk
  have hfuel : g.index t - k < (stop - g.start k + 1).toNat := by omega
  rw [series, trunc, count_seriesFrom hstep hfuel, if_pos ⟨hk, hstart⟩]

end Grid

end Chronology
