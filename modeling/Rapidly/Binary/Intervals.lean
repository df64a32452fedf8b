import Mathlib.Algebra.Order.Ring.Nat
import Mathlib.Data.List.Basic

/-!
# Cutting an interval into steps

`Consecutive start cuts` says that half-open intervals follow each other without gap or overlap
from `start` on, and `endOf start cuts` is where they end. What they cut out of a list is then
what lies between the two (`flatMap_extract`).

`cut step start stop i` is the `i`th interval when `start..stop` is cut into steps of a fixed
length, the last of which may be shorter. There are `cutCount step start stop` of them; an empty
interval takes one empty step, not none.
-/

namespace Binary

/-! ### Consecutive intervals -/

/-- Half-open intervals, the first from `start` on, each of the others from where the one before
it ends. -/
def Consecutive : ℕ → List (ℕ × ℕ) → Prop
  | _, [] => True
  | start, c :: cs => c.1 = start ∧ c.1 ≤ c.2 ∧ Consecutive c.2 cs

/-- Where consecutive intervals end. -/
def endOf (start : ℕ) (cuts : List (ℕ × ℕ)) : ℕ := cuts.foldl (fun _ c => c.2) start

section Consecutive

variable {start : ℕ} {c : ℕ × ℕ} {cuts : List (ℕ × ℕ)}

@[simp] theorem endOf_nil (start : ℕ) : endOf start [] = start := rfl

@[simp] theorem endOf_cons (start : ℕ) (c : ℕ × ℕ) (cuts : List (ℕ × ℕ)) :
    endOf start (c :: cuts) = endOf c.2 cuts := rfl

@[simp] theorem endOf_concat (start : ℕ) (cuts : List (ℕ × ℕ)) (c : ℕ × ℕ) :
    endOf start (cuts ++ [c]) = c.2 := by
  rw [endOf, List.foldl_append]
  rfl

theorem consecutive_concat :
    Consecutive start (cuts ++ [c]) ↔
      Consecutive start cuts ∧ c.1 = endOf start cuts ∧ c.1 ≤ c.2 := by
  induction cuts generalizing start with
  | nil => simp [Consecutive]
  | cons c' cuts ih => simp [Consecutive, ih, and_assoc]

theorem Consecutive.le_endOf (h : Consecutive start cuts) : start ≤ endOf start cuts := by
  induction cuts generalizing start with
  | nil => exact le_rfl
  | cons c cuts ih =>
    obtain ⟨rfl, hle, hrest⟩ := h
    exact hle.trans (ih hrest)

theorem extract_append_extract {α : Type*} (l : List α) {i j k : ℕ} (hij : i ≤ j) (hjk : j ≤ k) :
    l.extract i j ++ l.extract j k = l.extract i k := by
  rw [List.extract_eq_take_drop, List.extract_eq_take_drop, List.extract_eq_take_drop]
  -- the part up to `k` is the part up to `j` and what comes after it
  have hsplit : (l.drop i).take (k - i) =
      (l.drop i).take (j - i) ++ ((l.drop i).drop (j - i)).take (k - j) := by
    rw [← List.take_add]
    congr 1
    omega
  rw [hsplit, List.drop_drop]
  congr 3
  omega

theorem flatMap_extract {α : Type*} (l : List α) (h : Consecutive start cuts) :
    cuts.flatMap (fun c => l.extract c.1 c.2) = l.extract start (endOf start cuts) := by
  induction cuts generalizing start with
  | nil => simp
  | cons c cuts ih =>
    obtain ⟨rfl, hle, hrest⟩ := h
    rw [List.flatMap_cons, ih hrest, endOf_cons,
      extract_append_extract l hle hrest.le_endOf]

end Consecutive

/-! ### Steps of a fixed length -/

/-- How many steps it takes from `start` to `stop`. -/
def cutCount (step start stop : ℕ) : ℕ := (stop - start - 1) / step + 1

/-- The `i`th step from `start` to `stop`. -/
def cut (step start stop i : ℕ) : ℕ × ℕ := (start + i * step, min stop (start + (i + 1) * step))

/-- The first `k` steps from `start` to `stop`. -/
def cuts (step start stop k : ℕ) : List (ℕ × ℕ) := (List.range k).map (cut step start stop)

section Cuts

variable {step start stop i k : ℕ}

theorem cuts_succ (step start stop k : ℕ) :
    cuts step start stop (k + 1) = cuts step start stop k ++ [cut step start stop k] := by
  rw [cuts, List.range_succ, List.map_append]
  rfl

theorem lt_of_lt_cutCount (hstep : 0 < step) (hi : i + 1 < cutCount step start stop) :
    start + (i + 1) * step < stop := by
  have hle : i + 1 ≤ (stop - start - 1) / step := by
    rw [cutCount] at hi
    omega
  have hmul : (i + 1) * step ≤ stop - start - 1 := (Nat.le_div_iff_mul_le hstep).mp hle
  have hpos : 0 < (i + 1) * step := Nat.mul_pos i.succ_pos hstep
  omega

theorem le_of_cutCount_le (hstep : 0 < step) (hi : cutCount step start stop ≤ i + 1) :
    stop ≤ start + (i + 1) * step := by
  have hlt : (stop - start - 1) / step < i + 1 := by
    rw [cutCount] at hi
    omega
  have hmul : stop - start - 1 < (i + 1) * step := (Nat.div_lt_iff_lt_mul hstep).mp hlt
  omega

theorem le_iff_cutCount_le (hstep : 0 < step) :
    stop ≤ start + (i + 1) * step ↔ cutCount step start stop ≤ i + 1 := by
  refine ⟨fun h => ?_, le_of_cutCount_le hstep⟩
  by_contra hlt
  exact absurd (lt_of_lt_cutCount hstep (not_le.mp hlt)) (not_lt.mpr h)

theorem cut_fst_le (hstep : 0 < step) (hle : start ≤ stop) (hi : i < cutCount step start stop) :
    (cut step start stop i).1 ≤ stop := by
  rw [cut]
  cases i with
  | zero => simpa using hle
  | succ i => exact (lt_of_lt_cutCount hstep hi).le

theorem cut_fst_le_snd (hstep : 0 < step) (hle : start ≤ stop)
    (hi : i < cutCount step start stop) :
    (cut step start stop i).1 ≤ (cut step start stop i).2 := by
  have hfst := cut_fst_le hstep hle hi
  rw [cut] at hfst ⊢
  have hmul : i * step ≤ (i + 1) * step := Nat.mul_le_mul_right step i.le_succ
  exact le_min hfst (by omega)

theorem endOf_cuts (hstep : 0 < step) (hk : k < cutCount step start stop) :
    endOf start (cuts step start stop k) = start + k * step := by
  cases k with
  | zero => simp [cuts]
  | succ k =>
    rw [cuts_succ, endOf_concat, cut]
    exact min_eq_right (lt_of_lt_cutCount hstep hk).le

theorem endOf_cuts_cutCount (hstep : 0 < step) :
    endOf start (cuts step start stop (cutCount step start stop)) = stop := by
  have hcount : cutCount step start stop = (stop - start - 1) / step + 1 := rfl
  rw [hcount, cuts_succ, endOf_concat, cut]
  exact min_eq_left (le_of_cutCount_le hstep hcount.le)

theorem consecutive_cuts (hstep : 0 < step) (hle : start ≤ stop)
    (hk : k ≤ cutCount step start stop) : Consecutive start (cuts step start stop k) := by
  induction k with
  | zero => exact trivial
  | succ k ih =>
    rw [cuts_succ, consecutive_concat]
    refine ⟨ih (k.le_succ.trans hk), ?_, cut_fst_le_snd hstep hle hk⟩
    rw [endOf_cuts hstep hk, cut]

/-- Steps that start at a later point are not more than those left from the beginning. -/
theorem div_add_cutCount_le (step : ℕ) (hle : start ≤ stop) :
    start / step + cutCount step start stop ≤ stop / step + 1 := by
  have hsum : start / step + (stop - start - 1) / step ≤ (start + (stop - start - 1)) / step :=
    Nat.div_add_div_le_add_div
  have hmono : (start + (stop - start - 1)) / step ≤ stop / step :=
    Nat.div_le_div_right (by omega)
  rw [cutCount]
  omega

end Cuts

end Binary
