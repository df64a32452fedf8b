import Mathlib.Algebra.Order.Group.Defs
import Mathlib.Data.List.Basic

/-!
# Windows

Events that are counted in windows of one length: a window opens with an event, and takes a number
of events until it ends. The next one opens with the first event after that, so that windows do not
overlap, but there may be gaps between them.

An interval as long as a window can reach into two windows. It cannot have the opening event of the
first of them, if it has that of the second: `countP_times_le`.
-/

namespace Chronology

variable {α : Type*}

/-- A window, by the time of the event it opens with and the times of the others. -/
structure Window (α : Type*) where
  start : α
  later : List α

/-- The times of the events. -/
def Window.times (W : Window α) : List α := W.start :: W.later

variable [AddCommGroup α] [LinearOrder α]

/-- The time is in an interval of a length. -/
def inInterval (w t x : α) : Bool := t ≤ x ∧ x < t + w

theorem inInterval_iff {w t x : α} : inInterval w t x = true ↔ t ≤ x ∧ x < t + w :=
  decide_eq_true_iff

/-- The window ends in time, and takes so many events after the first one. -/
structure Window.Within (W : Window α) (w : α) (n : ℕ) : Prop where
  ends : ∀ x ∈ W.later, inInterval w W.start x
  length_le : W.later.length ≤ n

/-- The windows are in order and do not overlap. -/
def Apart (w : α) (windows : List (Window α)) : Prop :=
  windows.Pairwise fun W W' => W.start + w ≤ W'.start

section Count

variable [IsOrderedAddMonoid α] {w : α} {windows : List (Window α)} {n : ℕ}

theorem countP_start_le_one (h : Apart w windows) (t : α) :
    windows.countP (fun W => inInterval w t W.start) ≤ 1 := by
  induction windows with
  | nil => exact Nat.zero_le 1
  | cons W windows ih =>
    obtain ⟨hfirst, hrest⟩ := List.pairwise_cons.mp h
    by_cases hstart : inInterval w t W.start = true
    · -- the other windows open after the end of the interval
      have hnone : windows.countP (fun W => inInterval w t W.start) = 0 := by
        rw [List.countP_eq_zero]
        intro W' hW' hin
        obtain ⟨-, hlt⟩ := inInterval_iff.mp hin
        have hge : t + w ≤ W'.start :=
          (add_le_add_left (inInterval_iff.mp hstart).1 w).trans (hfirst W' hW')
        exact absurd hlt (not_lt.mpr hge)
      rw [List.countP_cons, hnone, if_pos hstart]
    · rw [List.countP_cons, if_neg hstart]
      exact ih hrest

/-- A window that opens in the interval has all its events there at most, one that opens in the
interval before has all but the first, and any other has none. -/
theorem Window.Within.countP_times_le {W : Window α} (h : W.Within w n) (t : α) :
    W.times.countP (inInterval w t) ≤
      (if inInterval w t W.start then n + 1 else 0) +
        if inInterval w (t - w) W.start then n else 0 := by
  have hlater : W.later.countP (inInterval w t) ≤ n :=
    List.countP_le_length.trans h.length_le
  rw [Window.times]
  by_cases hstart : inInterval w t W.start = true
  · rw [List.countP_cons_of_pos hstart, if_pos hstart]
    omega
  rw [List.countP_cons_of_neg hstart, if_neg hstart, Nat.zero_add]
  by_cases hbefore : inInterval w (t - w) W.start = true
  · rwa [if_pos hbefore]
  rw [if_neg hbefore, Nat.le_zero, List.countP_eq_zero]
  intro x hx hin
  obtain ⟨hle, hlt⟩ := inInterval_iff.mp hin
  obtain ⟨hle', hlt'⟩ := inInterval_iff.mp (h.ends x hx)
  rcases lt_or_ge W.start t with hlt | hge
  · refine hbefore (inInterval_iff.mpr ⟨?_, ?_⟩)
    · rw [sub_le_iff_le_add]
      exact hle.trans hlt'.le
    · rwa [sub_add_cancel]
  · exact hstart (inInterval_iff.mpr ⟨hge, hle'.trans_lt hlt⟩)

/-- **Events in an interval**, for windows that take `n` events after the first. -/
theorem countP_times_le (h : Apart w windows) (hwithin : ∀ W ∈ windows, W.Within w n) (t : α) :
    (windows.flatMap Window.times).countP (inInterval w t) ≤ 2 * n + 1 := by
  have hsum : (windows.flatMap Window.times).countP (inInterval w t) ≤
      (n + 1) * windows.countP (fun W => inInterval w t W.start) +
        n * windows.countP fun W => inInterval w (t - w) W.start := by
    clear h
    induction windows with
    | nil => exact Nat.zero_le _
    | cons W windows ih =>
      have hW := (hwithin W List.mem_cons_self).countP_times_le t
      have hrest := ih fun W' hW' => hwithin W' (List.mem_cons_of_mem _ hW')
      rw [List.flatMap_cons, List.countP_append, List.countP_cons, List.countP_cons, Nat.mul_add,
        Nat.mul_add, mul_ite, mul_ite, Nat.mul_one, Nat.mul_one,
        Nat.mul_zero, Nat.mul_zero]
      omega
  have hfirst := Nat.mul_le_mul_left (n + 1) (countP_start_le_one h t)
  have hsecond := Nat.mul_le_mul_left n (countP_start_le_one h (t - w))
  omega

end Count

end Chronology
