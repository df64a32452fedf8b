import Rapidly.Chronology.Grid

/-!
# The Gregorian calendar

Days are numbered as in Python's `date.toordinal`, the first of January of the year 1 being 1, and
extended to all integers. `weeks` start on Mondays; `years` are numbered as usual. `months` are
counted from the March of the year 0: in years that start with March the leap day comes last, and
the months before a day are a linear function of its number in the year.
-/

namespace Chronology

/-! ### Years -/

/-- The number of the last day before a year. -/
def daysBeforeYear (y : ℤ) : ℤ := (y - 1) * 365 + (y - 1) / 4 - (y - 1) / 100 + (y - 1) / 400

/-- The first day of a year. -/
def yearStart (y : ℤ) : ℤ := daysBeforeYear y + 1

/-- The year of a day: a mean year is a little short or long. -/
def yearOfDay (d : ℤ) : ℤ :=
  let y := d * 400 / 146097 + 1
  if yearStart (y + 1) ≤ d then y + 1 else if yearStart y ≤ d then y else y - 1

theorem yearStart_yearOfDay (d : ℤ) :
    yearStart (yearOfDay d) ≤ d ∧ d < yearStart (yearOfDay d + 1) := by
  unfold yearOfDay
  dsimp only
  split_ifs with h h'
  · refine ⟨h, ?_⟩
    unfold yearStart daysBeforeYear
    omega
  · exact ⟨h', lt_of_not_ge h⟩
  · refine ⟨?_, by rw [sub_add_cancel]; exact lt_of_not_ge h'⟩
    unfold yearStart daysBeforeYear
    omega

theorem yearStart_succ (y : ℤ) :
    yearStart (y + 1) = yearStart y + 365 ∨ yearStart (y + 1) = yearStart y + 366 := by
  unfold yearStart daysBeforeYear
  omega

theorem strictMono_yearStart : StrictMono yearStart := by
  refine strictMono_int_of_lt_succ fun y => ?_
  have := yearStart_succ y
  omega

/-! ### Months -/

/-- The first day of a month. -/
def monthStart (k : ℤ) : ℤ := yearStart (k / 12 + 1) - 306 + (153 * (k % 12) + 2) / 5

/-- The year that starts with the March before a day. -/
def marchYear (d : ℤ) : ℤ := yearOfDay (d + 306) - 1

/-- The month of a day. -/
def monthOfDay (d : ℤ) : ℤ :=
  12 * marchYear d + (5 * (d - (yearStart (marchYear d + 1) - 306)) + 2) / 153

theorem monthStart_of_month (y : ℤ) {m : ℤ} (h : 0 ≤ m) (h' : m < 12) :
    monthStart (12 * y + m) = yearStart (y + 1) - 306 + (153 * m + 2) / 5 := by
  have hdiv : (12 * y + m) / 12 = y := by omega
  have hmod : (12 * y + m) % 12 = m := by omega
  rw [monthStart, hdiv, hmod]

theorem monthStart_succ (y : ℤ) {m : ℤ} (h : 0 ≤ m) (h' : m < 12) :
    monthStart (12 * y + m + 1) =
      if m = 11 then yearStart (y + 2) - 306
      else yearStart (y + 1) - 306 + (153 * (m + 1) + 2) / 5 := by
  split_ifs with hlast
  · have hnext : 12 * y + m + 1 = 12 * (y + 1) + 0 := by omega
    rw [hnext, monthStart_of_month _ le_rfl (by decide), add_assoc, one_add_one_eq_two]
    omega
  · rw [add_assoc, monthStart_of_month y (by omega) (by omega)]

theorem strictMono_monthStart : StrictMono monthStart := by
  refine strictMono_int_of_lt_succ fun k => ?_
  obtain ⟨y, m, h, h', rfl⟩ : ∃ y m : ℤ, 0 ≤ m ∧ m < 12 ∧ k = 12 * y + m :=
    ⟨k / 12, k % 12, by omega, by omega, by omega⟩
  have hyear := yearStart_succ (y + 1)
  rw [add_assoc, one_add_one_eq_two] at hyear
  rw [monthStart_of_month y h h', monthStart_succ y h h']
  split_ifs <;> omega

theorem monthStart_monthOfDay (d : ℤ) :
    monthStart (monthOfDay d) ≤ d ∧ d < monthStart (monthOfDay d + 1) := by
  have hyear := yearStart_yearOfDay (d + 306)
  have hmarch : yearOfDay (d + 306) = marchYear d + 1 := by
    unfold marchYear
    omega
  have hlength := yearStart_succ (marchYear d + 1)
  rw [hmarch] at hyear
  rw [add_assoc, one_add_one_eq_two] at hyear hlength
  have hlower : 0 ≤ (5 * (d - (yearStart (marchYear d + 1) - 306)) + 2) / 153 := by omega
  have hupper : (5 * (d - (yearStart (marchYear d + 1) - 306)) + 2) / 153 < 12 := by omega
  rw [monthOfDay, monthStart_of_month _ hlower hupper, monthStart_succ _ hlower hupper]
  refine ⟨by omega, ?_⟩
  split_ifs <;> omega

/-- A year starts with its January, the tenth month after a March. -/
theorem yearStart_eq_monthStart (y : ℤ) : yearStart y = monthStart (12 * y - 2) := by
  have hmonth : 12 * y - 2 = 12 * (y - 1) + 10 := by omega
  rw [hmonth, monthStart_of_month _ (by decide) (by decide), sub_add_cancel]
  omega

/-! ### Grids of days -/

def years : Grid where
  start := yearStart
  index := yearOfDay
  strictMono := strictMono_yearStart
  start_index_le d := (yearStart_yearOfDay d).1
  lt_start_index_succ d := (yearStart_yearOfDay d).2

def months : Grid where
  start := monthStart
  index := monthOfDay
  strictMono := strictMono_monthStart
  start_index_le d := (monthStart_monthOfDay d).1
  lt_start_index_succ d := (monthStart_monthOfDay d).2

/-- Weeks start on Mondays, like the year 1. -/
def weeks : Grid := Grid.uniform 1 7 (by decide)

def days : Grid := Grid.uniform 0 1 (by decide)

/-! ### Moving by months -/

/-- The day `n` months later: the same day of the month, or the last one of a shorter month. -/
def addMonths (n d : ℤ) : ℤ :=
  min (monthStart (monthOfDay d + n) + (d - monthStart (monthOfDay d)))
    (monthStart (monthOfDay d + n + 1) - 1)

/-- From the first of a month one comes to the first of a month. -/
theorem addMonths_monthStart (n k : ℤ) : addMonths n (monthStart k) = monthStart (k + n) := by
  have hmonth : monthOfDay (monthStart k) = k := months.index_start k
  have hnext : monthStart (k + n) < monthStart (k + n + 1) := strictMono_monthStart (by omega)
  rw [addMonths, hmonth]
  omega

end Chronology
