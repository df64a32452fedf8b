import Mathlib.Algebra.Order.Ring.Int
import Mathlib.Tactic.Linarith

/-!
# Delays of bulk jobs

`make_bulk_job_delay_calculator` of `worker/_enqueue.py`: the jobs of a batch are spread over
time, evenly while the batch is small, and in slots of several jobs when it is too large for
that. A division by zero is an error of the model, in the making of a calculator and in its use.

The slots are as large as they can be, and the first ones take what remains
(`batchSlot_lt_iff`). There are never fewer jobs than slots, because fewer jobs would have been
spread evenly (`numSlots_le`).

* `spreads_calculator`: no division by zero, no delay for the first job, no job before an earlier
  one, and all within the spread unless it may spill.
-/

namespace Rapidly.Worker

/-! ### Integers of Python -/

/-- `ZeroDivisionError` -/
inductive ZeroDivisionError where
  | mk
deriving DecidableEq

/-- `a // b` -/
def floorDiv (a b : ℤ) : Except ZeroDivisionError ℤ := if b = 0 then .error .mk else .ok (a.fdiv b)

/-- `a % b` -/
def floorMod (a b : ℤ) : Except ZeroDivisionError ℤ := if b = 0 then .error .mk else .ok (a.fmod b)

/-- `ms or None` -/
def orNone (ms : ℤ) : Option ℤ := if ms = 0 then none else some ms

/-- A delay in milliseconds. -/
def milliseconds (delay : Option ℤ) : ℤ := delay.getD 0

section Integers

variable {a b : ℤ}

theorem floorDiv_of_pos (h : 0 < b) : floorDiv a b = .ok (a / b) := by
  rw [floorDiv, if_neg h.ne', Int.fdiv_eq_ediv_of_nonneg a h.le]

theorem floorMod_of_pos (h : 0 < b) : floorMod a b = .ok (a % b) := by
  rw [floorMod, if_neg h.ne', Int.fmod_eq_emod_of_nonneg a h.le]

@[simp] theorem milliseconds_orNone (ms : ℤ) : milliseconds (orNone ms) = ms := by
  rw [orNone, milliseconds]
  split
  case isTrue hzero => exact hzero.symm
  case isFalse => rfl

end Integers

/-! ### The calculator -/

/-- `BulkJobDelayCalculator` -/
abbrev BulkJobDelayCalculator := ℤ → Except ZeroDivisionError (Option ℤ)

/-- The settings of `make_bulk_job_delay_calculator`. -/
structure SpreadSettings where
  targetDelayMs : ℤ := 200
  minDelayMs : ℤ := 50
  maxSpreadMs : ℤ := 300000
  allowSpill : Bool := true
  targetDelayMs_pos : 0 < targetDelayMs := by decide
  minDelayMs_pos : 0 < minDelayMs := by decide
  maxSpreadMs_pos : 0 < maxSpreadMs := by decide

/-- `_linear_delay` -/
def linearDelay (perItemMs : ℤ) : BulkJobDelayCalculator := fun index =>
  .ok (orNone (index * perItemMs))

/-- `_batched_delay` -/
def batchedDelay (minDelayMs baseSize overflowSize overflowCount overflowBoundary : ℤ) :
    BulkJobDelayCalculator := fun index => do
  let slot ←
    if index < overflowBoundary then floorDiv index overflowSize
    else (floorDiv (index - overflowBoundary) baseSize).map (overflowCount + ·)
  return orNone (slot * minDelayMs)

/-- `make_bulk_job_delay_calculator` -/
def makeBulkJobDelayCalculator (totalCount : ℤ) (s : SpreadSettings) :
    Except ZeroDivisionError BulkJobDelayCalculator := do
  if totalCount * s.targetDelayMs ≤ s.maxSpreadMs then return linearDelay s.targetDelayMs
  let compressed ← floorDiv s.maxSpreadMs totalCount
  if s.minDelayMs ≤ compressed then return linearDelay compressed
  if s.allowSpill then return linearDelay s.minDelayMs
  let numSlots := (← floorDiv s.maxSpreadMs s.minDelayMs) + 1
  let baseSize ← floorDiv totalCount numSlots
  let overflowSize := baseSize + 1
  let overflowCount ← floorMod totalCount numSlots
  let overflowBoundary := overflowCount * overflowSize
  return batchedDelay s.minDelayMs baseSize overflowSize overflowCount overflowBoundary

/-! ### Spreading -/

/-- What a calculator for so many jobs promises. -/
structure Spreads (s : SpreadSettings) (totalCount : ℤ) (calculator : BulkJobDelayCalculator) :
    Prop where
  answers : ∀ index, ∃ delay, calculator index = .ok delay
  first : calculator 0 = .ok none
  mono : ∀ {i j : ℤ} {a b : Option ℤ}, 0 ≤ i → i ≤ j → j < totalCount → calculator i = .ok a →
    calculator j = .ok b → milliseconds a ≤ milliseconds b
  within : s.allowSpill = false → ∀ {i : ℤ} {a : Option ℤ}, 0 ≤ i → i < totalCount →
    calculator i = .ok a → milliseconds a ≤ s.maxSpreadMs

section Spreading

variable {s : SpreadSettings} {totalCount : ℤ}

theorem spreads_of_slots {calculator : BulkJobDelayCalculator} (slot : ℤ → ℤ) {perSlot : ℤ}
    (hcalculator : ∀ index, calculator index = .ok (orNone (slot index * perSlot)))
    (hperSlot : 0 ≤ perSlot) (hfirst : slot 0 = 0)
    (hmono : ∀ i j, 0 ≤ i → i ≤ j → j < totalCount → slot i ≤ slot j)
    (hwithin : s.allowSpill = false → ∀ i, 0 ≤ i → i < totalCount →
      slot i * perSlot ≤ s.maxSpreadMs) :
    Spreads s totalCount calculator := by
  have hdelay {i : ℤ} {a : Option ℤ} (h : calculator i = .ok a) :
      milliseconds a = slot i * perSlot := by
    rw [hcalculator] at h
    rw [← Except.ok.inj h, milliseconds_orNone]
  constructor
  · exact fun index => ⟨_, hcalculator index⟩
  · rw [hcalculator, hfirst, zero_mul]
    rfl
  · intro i j a b hi hij hj ha hb
    rw [hdelay ha, hdelay hb]
    exact mul_le_mul_of_nonneg_right (hmono i j hi hij hj) hperSlot
  · intro hspill i a hi htotal ha
    rw [hdelay ha]
    exact hwithin hspill i hi htotal

theorem spreads_linearDelay {perItemMs : ℤ} (hperItem : 0 ≤ perItemMs)
    (hwithin : s.allowSpill = false → totalCount * perItemMs ≤ s.maxSpreadMs) :
    Spreads s totalCount (linearDelay perItemMs) := by
  refine spreads_of_slots id (fun _ => rfl) hperItem rfl (fun _ _ _ hij _ => hij) ?_
  intro hspill i _ hi
  exact (mul_le_mul_of_nonneg_right hi.le hperItem).trans (hwithin hspill)

end Spreading

/-! ### Slots of several jobs -/

/-- The slot of a job: the first `overflowCount` slots have one job more than the others. -/
def batchSlot (baseSize overflowCount index : ℤ) : ℤ :=
  if index < overflowCount * (baseSize + 1) then index / (baseSize + 1)
  else overflowCount + (index - overflowCount * (baseSize + 1)) / baseSize

section Slots

variable {baseSize overflowCount index : ℤ}

theorem batchSlot_lt_iff (hbase : 0 < baseSize) (k : ℤ) :
    batchSlot baseSize overflowCount index < k ↔
      index < k * baseSize + min k overflowCount := by
  have hsize : 0 < baseSize + 1 := by omega
  rw [batchSlot]
  split
  case isTrue hindex =>
    rw [Int.ediv_lt_iff_lt_mul hsize]
    rcases le_total k overflowCount with hk | hk
    · rw [min_eq_left hk, mul_add, mul_one]
    · -- all slots with one more job are in front
      have hmul : overflowCount * baseSize ≤ k * baseSize :=
        mul_le_mul_of_nonneg_right hk hbase.le
      rw [min_eq_right hk]
      exact iff_of_true (by nlinarith) (by nlinarith)
  case isFalse hindex =>
    rw [← lt_sub_iff_add_lt', Int.ediv_lt_iff_lt_mul hbase]
    rcases le_total k overflowCount with hk | hk
    · have hmul : k * baseSize ≤ overflowCount * baseSize :=
        mul_le_mul_of_nonneg_right hk hbase.le
      rw [min_eq_left hk]
      exact iff_of_false (by nlinarith) (by nlinarith)
    · rw [min_eq_right hk, sub_lt_iff_lt_add, sub_mul]
      constructor
      · intro h
        linarith
      · intro h
        linarith

theorem batchSlot_mono (hbase : 0 < baseSize) {i j : ℤ} (hij : i ≤ j) :
    batchSlot baseSize overflowCount i ≤ batchSlot baseSize overflowCount j := by
  by_contra hlt
  have hj := (batchSlot_lt_iff hbase _).mp (Int.not_le.mp hlt)
  have hi := (batchSlot_lt_iff hbase _).mpr (Int.lt_of_le_of_lt hij hj)
  exact Int.lt_irrefl _ hi

/-- There are not more slots than jobs when the delay of an even spread is too small. -/
theorem numSlots_le {s : SpreadSettings} {totalCount : ℤ} (htotal : 0 < totalCount)
    (h : s.maxSpreadMs / totalCount < s.minDelayMs) :
    s.maxSpreadMs / s.minDelayMs + 1 ≤ totalCount := by
  rw [Int.ediv_lt_iff_lt_mul htotal, mul_comm] at h
  exact Int.add_one_le_of_lt ((Int.ediv_lt_iff_lt_mul s.minDelayMs_pos).mpr h)

theorem batchedDelay_eq (minDelayMs overflowCount index : ℤ) (hbase : 0 < baseSize) :
    batchedDelay minDelayMs baseSize (baseSize + 1) overflowCount
        (overflowCount * (baseSize + 1)) index =
      .ok (orNone (batchSlot baseSize overflowCount index * minDelayMs)) := by
  have hsize : 0 < baseSize + 1 := by omega
  rw [batchedDelay, batchSlot]
  split
  case isTrue => rw [floorDiv_of_pos hsize]; rfl
  case isFalse => rw [floorDiv_of_pos hbase]; rfl

theorem spreads_batchedDelay {s : SpreadSettings} {totalCount : ℤ} (htotal : 0 < totalCount)
    (h : s.maxSpreadMs / totalCount < s.minDelayMs) :
    let numSlots := s.maxSpreadMs / s.minDelayMs + 1
    Spreads s totalCount (batchedDelay s.minDelayMs (totalCount / numSlots)
      (totalCount / numSlots + 1) (totalCount % numSlots)
      (totalCount % numSlots * (totalCount / numSlots + 1))) := by
  intro numSlots
  have hslots : 0 < numSlots :=
    Int.lt_add_one_of_le (Int.ediv_nonneg s.maxSpreadMs_pos.le s.minDelayMs_pos.le)
  have hbase : 0 < totalCount / numSlots := by
    refine Int.lt_of_add_one_le ((Int.le_ediv_iff_mul_le hslots).mpr ?_)
    rw [zero_add, one_mul]
    exact numSlots_le htotal h
  have hcount : 0 ≤ totalCount % numSlots := Int.emod_nonneg _ hslots.ne'
  have hless : totalCount % numSlots < numSlots := Int.emod_lt_of_pos _ hslots
  refine spreads_of_slots (batchSlot (totalCount / numSlots) (totalCount % numSlots))
    (fun index => batchedDelay_eq _ _ index hbase) s.minDelayMs_pos.le ?_
    (fun i j _ hij _ => batchSlot_mono hbase hij) ?_
  · have hbefore := @batchSlot_lt_iff _ (totalCount % numSlots) 0 hbase 0
    have hafter := @batchSlot_lt_iff _ (totalCount % numSlots) 0 hbase 1
    rw [min_eq_left hcount] at hbefore
    omega
  · intro _ i _ hi
    have hsum : numSlots * (totalCount / numSlots) + totalCount % numSlots = totalCount :=
      Int.mul_ediv_add_emod totalCount numSlots
    have hlast : batchSlot (totalCount / numSlots) (totalCount % numSlots) i < numSlots := by
      rw [batchSlot_lt_iff hbase, min_eq_right hless.le, hsum]
      exact hi
    calc batchSlot (totalCount / numSlots) (totalCount % numSlots) i * s.minDelayMs
        ≤ s.maxSpreadMs / s.minDelayMs * s.minDelayMs :=
          mul_le_mul_of_nonneg_right (Int.le_of_lt_add_one hlast) s.minDelayMs_pos.le
      _ ≤ s.maxSpreadMs := Int.ediv_mul_le _ s.minDelayMs_pos.ne'

end Slots

/-- **The delays of a batch.** -/
theorem spreads_calculator (s : SpreadSettings) {totalCount : ℤ} (htotal : 0 ≤ totalCount) :
    ∃ calculator, makeBulkJobDelayCalculator totalCount s = .ok calculator ∧
      Spreads s totalCount calculator := by
  rw [makeBulkJobDelayCalculator]
  by_cases hfits : totalCount * s.targetDelayMs ≤ s.maxSpreadMs
  · rw [if_pos hfits]
    exact ⟨_, rfl, spreads_linearDelay s.targetDelayMs_pos.le fun _ => hfits⟩
  have hpos : 0 < totalCount := by
    refine htotal.lt_of_ne ?_
    rintro rfl
    rw [zero_mul] at hfits
    exact hfits s.maxSpreadMs_pos.le
  rw [if_neg hfits, floorDiv_of_pos hpos]
  by_cases hcompressed : s.minDelayMs ≤ s.maxSpreadMs / totalCount
  · refine ⟨linearDelay (s.maxSpreadMs / totalCount), if_pos hcompressed,
      spreads_linearDelay (s.minDelayMs_pos.le.trans hcompressed) fun _ => ?_⟩
    rw [mul_comm]
    exact Int.ediv_mul_le _ hpos.ne'
  by_cases hspill : s.allowSpill = true
  · refine ⟨linearDelay s.minDelayMs, ?_, spreads_linearDelay s.minDelayMs_pos.le fun hnot => ?_⟩
    · exact (if_neg hcompressed).trans (if_pos hspill)
    · exact absurd hspill (by rw [hnot]; exact Bool.false_ne_true)
  refine ⟨_, ?_, spreads_batchedDelay hpos (not_le.mp hcompressed)⟩
  refine (if_neg hcompressed).trans ((if_neg hspill).trans ?_)
  have hslots : 0 < s.maxSpreadMs / s.minDelayMs + 1 :=
    Int.lt_add_one_of_le (Int.ediv_nonneg s.maxSpreadMs_pos.le s.minDelayMs_pos.le)
  rw [floorDiv_of_pos s.minDelayMs_pos]
  change floorDiv totalCount (s.maxSpreadMs / s.minDelayMs + 1) >>= _ = _
  rw [floorDiv_of_pos hslots]
  change floorMod totalCount (s.maxSpreadMs / s.minDelayMs + 1) >>= _ = _
  rw [floorMod_of_pos hslots]
  rfl

/-- Seventeen jobs in five slots. -/
theorem spreads_calculator_seventeen :
    ∃ calculator, makeBulkJobDelayCalculator 17
        { minDelayMs := 50, maxSpreadMs := 200, allowSpill := false } = .ok calculator ∧
      Spreads { minDelayMs := 50, maxSpreadMs := 200, allowSpill := false } 17 calculator :=
  spreads_calculator _ (by decide)

end Rapidly.Worker
