import Rapidly.Analytics.Metrics.Conservation
import Rapidly.Chronology.Gregorian

/-!
# Time zones without transitions

What `date_trunc` and `generate_series` of the database and Python's `zoneinfo` do in a zone with a
fixed offset from UTC, and which of its requests conserve the rows: hours, days, months and years
always fit, because the series starts with the start of one of them. A series of weeks starts with
the first day as it is, while `date_trunc` goes back to the Monday.
-/

namespace Rapidly.Analytics

open Relational Identity FileSharing Chronology

/-! ### Dates -/

/-- `date.toordinal`. -/
def Date.toordinal (date : Date) : ℤ := monthStart (12 * date.year + date.month - 3) + date.day - 1

/-- The constructor of `date` accepts the numbers. -/
structure Date.Valid (date : Date) : Prop where
  month : 1 ≤ date.month ∧ date.month ≤ 12
  day : 1 ≤ date.day ∧
    (date.day : ℤ) ≤ monthStart (12 * date.year + date.month - 2) -
      monthStart (12 * date.year + date.month - 3)

/-- `date.weekday` is that of a Monday. -/
def Date.IsMonday (date : Date) : Prop := date.toordinal % 7 = 1

instance (date : Date) : Decidable date.IsMonday := inferInstanceAs (Decidable (_ = _))

/-- `MAX_INTERVAL_DAYS`. -/
def maxIntervalDays : TimeInterval → ℤ
  | .hour => 7
  | .day => 366
  | .week => 7 * 53
  | .month => 365 * 4
  | .year => 365 * 10

/-- `is_under_limits`. -/
def isUnderLimits (startDate endDate : Date) (interval : TimeInterval) : Bool :=
  endDate.toordinal - startDate.toordinal ≤ maxIntervalDays interval

/-! ### Zones with a fixed offset -/

/-- An hour in microseconds. -/
def hourLength : ℤ := 3600000000

/-- A day in microseconds. -/
def dayLength : ℤ := 86400000000

/-- The midnight of the day with the ordinal 0, in a zone with an offset from UTC. The epoch is
the day 719163. -/
def dayZero (offset : ℤ) : ℤ := -(719163 * dayLength) - offset

/-- The midnight of a date. -/
def midnight (offset : ℤ) (date : Date) : ℤ := dayZero offset + date.toordinal * dayLength

/-- The periods of `date_trunc`. -/
def periods (offset : ℤ) : TimeInterval → Grid
  | .hour => .uniform (dayZero offset) hourLength (by decide)
  | .day => days.scale (dayZero offset) dayLength (by decide)
  | .week => weeks.scale (dayZero offset) dayLength (by decide)
  | .month => months.scale (dayZero offset) dayLength (by decide)
  | .year => years.scale (dayZero offset) dayLength (by decide)

/-- A timestamp `n` months later, at the same time of the day. -/
def plusMonths (offset : ℤ) (n : ℤ) (t : ℤ) : ℤ :=
  dayZero offset + addMonths n ((t - dayZero offset) / dayLength) * dayLength +
    (t - dayZero offset) % dayLength

/-- A timestamp plus one interval. -/
def plusInterval (offset : ℤ) : TimeInterval → ℤ → ℤ
  | .hour, t => t + hourLength
  | .day, t => t + dayLength
  | .week, t => t + 7 * dayLength
  | .month, t => plusMonths offset 1 t
  | .year, t => plusMonths offset 12 t

/-- The time zone is known and has no transitions. -/
structure Calendar.FixedOffset (cal : Calendar) (zone : String) (offset : ℤ) : Prop where
  knows : cal.knowsTimezone zone
  startOfDay : ∀ date, cal.startOfDay zone date = midnight offset date
  endOfDay : ∀ date, cal.endOfDay zone date = midnight offset date + dayLength - 1
  dateTrunc : ∀ interval t, cal.dateTrunc zone interval t = (periods offset interval).trunc t
  generateSeries : ∀ interval t stop,
    cal.generateSeries zone interval t stop = series (plusInterval offset interval) t stop

section Steps

variable (offset : ℤ)

theorem plusMonths_midnight (n k : ℤ) :
    plusMonths offset n (dayZero offset + monthStart k * dayLength) =
      dayZero offset + monthStart (k + n) * dayLength := by
  have hday : (dayZero offset + monthStart k * dayLength - dayZero offset) / dayLength =
      monthStart k := by
    unfold dayLength
    omega
  have htime : (dayZero offset + monthStart k * dayLength - dayZero offset) % dayLength = 0 := by
    unfold dayLength
    omega
  rw [plusMonths, hday, htime, addMonths_monthStart, add_zero]

/-- From the start of a period, an interval leads to the start of the next one. -/
theorem plusInterval_start (interval : TimeInterval) (k : ℤ) :
    plusInterval offset interval ((periods offset interval).start k) =
      (periods offset interval).start (k + 1) := by
  cases interval with
  | hour =>
    change dayZero offset + k * hourLength + hourLength = dayZero offset + (k + 1) * hourLength
    rw [add_one_mul, add_assoc]
  | day =>
    change dayZero offset + (0 + k * 1) * dayLength + dayLength =
      dayZero offset + (0 + (k + 1) * 1) * dayLength
    unfold dayLength
    omega
  | week =>
    change dayZero offset + (1 + k * 7) * dayLength + 7 * dayLength =
      dayZero offset + (1 + (k + 1) * 7) * dayLength
    unfold dayLength
    omega
  | month => exact plusMonths_midnight offset 1 k
  | year =>
    change plusMonths offset 12 (dayZero offset + yearStart k * dayLength) =
      dayZero offset + yearStart (k + 1) * dayLength
    have hmonth : 12 * (k + 1) - 2 = 12 * k - 2 + 12 := by omega
    rw [yearStart_eq_monthStart, plusMonths_midnight, yearStart_eq_monthStart, hmonth]

end Steps

/-! ### The first day of the series -/

/-- The day that the series of an answer starts with. -/
def firstDay (request : MetricsRequest) : Date :=
  match request.interval with
  | .month => { request.startDate with day := 1 }
  | .year => { request.startDate with month := 1, day := 1 }
  | _ => request.startDate

section Rows

variable {cal : Calendar} {db : Database} {principal : Principal} {request : MetricsRequest}
  {offset : ℤ}

theorem timestampSeries_of_fixedOffset (hzone : cal.FixedOffset request.timezone offset) :
    timestampSeries cal request =
      series (plusInterval offset request.interval) (midnight offset (firstDay request))
        (midnight offset request.endDate + dayLength - 1) := by
  have hsession : cal.sessionTimezone request.timezone = request.timezone := if_pos hzone.knows
  have hfirst : timestampSeries cal request =
      cal.generateSeries (cal.sessionTimezone request.timezone) request.interval
        (cal.startOfDay request.timezone (firstDay request)) (bounds cal request).2 := rfl
  rw [hfirst, hsession, hzone.generateSeries, hzone.startOfDay, bounds, hzone.endOfDay]

theorem dayColumn_of_fixedOffset (hzone : cal.FixedOffset request.timezone offset) (t : ℤ) :
    dayColumn cal request t = (periods offset request.interval).trunc t := by
  have hsession : cal.sessionTimezone request.timezone = request.timezone := if_pos hzone.knows
  rw [dayColumn, hsession, hzone.dateTrunc]

theorem toordinal_firstDay_le (hstart : request.startDate.Valid) :
    (firstDay request).toordinal ≤ request.startDate.toordinal := by
  have hday := hstart.day.1
  unfold firstDay
  cases request.interval with
  | month =>
    unfold Date.toordinal
    dsimp only
    omega
  | year =>
    have hmonth := hstart.month.1
    have hmono := strictMono_monthStart.monotone
      (show 12 * (request.startDate.year : ℤ) + ((1 : ℕ) : ℤ) - 3 ≤
        12 * request.startDate.year + request.startDate.month - 3 by omega)
    unfold Date.toordinal
    dsimp only
    omega
  | hour => exact le_rfl
  | day => exact le_rfl
  | week => exact le_rfl

/-- The series starts with a period, unless it is one of weeks and does not start on a Monday. -/
theorem exists_midnight_firstDay (offset : ℤ)
    (hweek : request.interval = .week → request.startDate.IsMonday) :
    ∃ k, midnight offset (firstDay request) = (periods offset request.interval).start k := by
  unfold firstDay
  cases hinterval : request.interval with
  | hour =>
    refine ⟨24 * request.startDate.toordinal, ?_⟩
    change dayZero offset + request.startDate.toordinal * dayLength =
      dayZero offset + 24 * request.startDate.toordinal * hourLength
    unfold dayLength hourLength
    omega
  | day =>
    refine ⟨request.startDate.toordinal, ?_⟩
    change dayZero offset + request.startDate.toordinal * dayLength =
      dayZero offset + (0 + request.startDate.toordinal * 1) * dayLength
    rw [zero_add, mul_one]
  | week =>
    have hmonday : request.startDate.toordinal % 7 = 1 := hweek hinterval
    refine ⟨request.startDate.toordinal / 7, ?_⟩
    change dayZero offset + request.startDate.toordinal * dayLength =
      dayZero offset + (1 + request.startDate.toordinal / 7 * 7) * dayLength
    congr 2
    omega
  | month =>
    refine ⟨12 * request.startDate.year + request.startDate.month - 3, ?_⟩
    change dayZero offset + (monthStart _ + ((1 : ℕ) : ℤ) - 1) * dayLength =
      dayZero offset + monthStart _ * dayLength
    rw [Nat.cast_one, add_sub_cancel_right]
  | year =>
    refine ⟨request.startDate.year, ?_⟩
    change dayZero offset + (monthStart (12 * request.startDate.year + ((1 : ℕ) : ℤ) - 3) +
      ((1 : ℕ) : ℤ) - 1) * dayLength = dayZero offset + yearStart _ * dayLength
    have hmonth : 12 * (request.startDate.year : ℤ) + 1 - 3 = 12 * request.startDate.year - 2 := by
      omega
    rw [Nat.cast_one, add_sub_cancel_right, hmonth, yearStart_eq_monthStart]

theorem trunc_notMem_series (offset stop t : ℤ) {date : Date} (hdate : ¬date.IsMonday) :
    (periods offset .week).trunc t ∉
      series (plusInterval offset .week) (midnight offset date) stop := by
  intro hmem
  -- the series runs through the weeks that start on the weekday of the date
  have hstep : ∀ k, plusInterval offset .week
      ((Grid.uniform (midnight offset date) (7 * dayLength) (by decide)).start k) =
        (Grid.uniform (midnight offset date) (7 * dayLength) (by decide)).start (k + 1) := by
    intro k
    change midnight offset date + k * (7 * dayLength) + 7 * dayLength =
      midnight offset date + (k + 1) * (7 * dayLength)
    rw [add_one_mul, add_assoc]
  have hzero : midnight offset date =
      (Grid.uniform (midnight offset date) (7 * dayLength) (by decide)).start 0 := by
    change _ = midnight offset date + 0 * (7 * dayLength)
    rw [zero_mul, add_zero]
  rw [hzero] at hmem
  obtain ⟨j, hj⟩ := Grid.exists_of_mem_series hstep hmem
  obtain ⟨k, hk⟩ : ∃ k, (periods offset .week).trunc t = dayZero offset + (1 + k * 7) * dayLength :=
    ⟨_, rfl⟩
  have hsame : dayZero offset + (1 + k * 7) * dayLength =
      dayZero offset + date.toordinal * dayLength + j * (7 * dayLength) := hk.symm.trans hj
  refine hdate ?_
  unfold Date.IsMonday
  unfold dayLength at hsame
  omega

theorem count_dayColumn_eq_one_iff (hzone : cal.FixedOffset request.timezone offset)
    (hstart : request.startDate.Valid) {t : ℤ} (hlower : (bounds cal request).1 ≤ t)
    (hupper : t ≤ (bounds cal request).2) :
    (timestampSeries cal request).count (dayColumn cal request t) = 1 ↔
      (request.interval = .week → request.startDate.IsMonday) := by
  rw [bounds, hzone.startOfDay] at hlower
  rw [bounds, hzone.endOfDay] at hupper
  rw [timestampSeries_of_fixedOffset hzone, dayColumn_of_fixedOffset hzone]
  constructor
  · intro hcount hweek
    by_contra hmonday
    have hfirst : firstDay request = request.startDate := by rw [firstDay, hweek]
    have hnot := trunc_notMem_series offset (midnight offset request.endDate + dayLength - 1) t
      hmonday
    rw [hfirst, hweek, List.count_eq_zero.mpr hnot] at hcount
    exact Nat.zero_ne_one hcount
  · intro hweek
    obtain ⟨k, hk⟩ := exists_midnight_firstDay offset hweek
    have hle : midnight offset (firstDay request) ≤ midnight offset request.startDate := by
      have h := toordinal_firstDay_le hstart
      unfold midnight dayLength
      omega
    rw [hk] at hle ⊢
    exact Grid.count_series (plusInterval_start offset request.interval) (hle.trans hlower) hupper

/-! ### The condition -/

theorem mem_sessionRows_bounds {r : SessionRow} (hr : r ∈ sessionRows cal db principal request) :
    (bounds cal request).1 ≤ r.session.createdAt ∧
      r.session.createdAt ≤ (bounds cal request).2 := by
  rw [sessionRows] at hr
  obtain ⟨s, hs, rfl⟩ := Multiset.mem_map.mp hr
  exact (Table.mem_select.mp (Multiset.mem_coe.mp hs)).2.2

end Rows

/-- In a zone without transitions: there is a period, or no selected metric takes the last one;
each selected event matches one of the named customers; and weeks are asked for from a Monday on,
or there is nothing to count. -/
structure Tiled (cal : Calendar) (db : Database) (principal : Principal)
    (request : MetricsRequest) : Prop where
  succeeds : (firstDay request).toordinal ≤ request.endDate.toordinal ∨
    ∀ m ∈ filteredAllMetrics request.metrics, m.slug ∉ latestMetrics
  customers : .events ∈ filteredQueries request.metrics → ∀ e ∈ db.events.rows,
    SelectedEvent cal db principal request e → ∀ ids ∈ request.customerId,
      ((db.customers.select (·.id ∈ ids)).filter (OfCustomer e)).length = 1
  weeks : request.interval = .week → request.startDate.IsMonday ∨
    ((.events ∈ filteredQueries request.metrics → selectedEvents cal db principal request = 0) ∧
      (.fileShareSessions ∈ filteredQueries request.metrics →
        sessionRows cal db principal request = 0))

theorem aligned_iff_tiled {cal : Calendar} {db : Database} {principal : Principal}
    {request : MetricsRequest} {offset : ℤ}
    (hzone : cal.FixedOffset request.timezone offset) (hstart : request.startDate.Valid) :
    Aligned cal db principal request ↔ Tiled cal db principal request := by
  have hseries : timestampSeries cal request ≠ [] ↔
      (firstDay request).toordinal ≤ request.endDate.toordinal := by
    rw [timestampSeries_of_fixedOffset hzone, series_ne_nil_iff]
    unfold midnight dayLength
    constructor <;> intro h <;> omega
  constructor
  · intro h
    refine ⟨h.succeeds.imp_left hseries.mp,
      fun hquery e he hselected => (h.events hquery e he hselected).2, fun hweek => ?_⟩
    by_cases hmonday : request.startDate.IsMonday
    · exact .inl hmonday
    refine .inr ⟨fun hquery => Multiset.eq_zero_of_forall_notMem fun e he => hmonday ?_,
      fun hquery => Multiset.eq_zero_of_forall_notMem fun r hr => hmonday ?_⟩
    · obtain ⟨hdb, hselected⟩ := mem_selectedEvents.mp he
      exact (count_dayColumn_eq_one_iff hzone hstart hselected.1 hselected.2.1).mp
        (h.events hquery e hdb hselected).1 hweek
    · have hbounds := mem_sessionRows_bounds hr
      exact (count_dayColumn_eq_one_iff hzone hstart hbounds.1 hbounds.2).mp
        (h.sessions hquery r hr) hweek
  · intro h
    refine ⟨h.succeeds.imp_left hseries.mpr, fun hquery e he hselected =>
      ⟨?_, h.customers hquery e he hselected⟩, fun hquery r hr => ?_⟩
    · refine (count_dayColumn_eq_one_iff hzone hstart hselected.1 hselected.2.1).mpr fun hweek => ?_
      refine (h.weeks hweek).resolve_right fun hnone => ?_
      have hmem := mem_selectedEvents.mpr ⟨he, hselected⟩
      rw [hnone.1 hquery] at hmem
      exact Multiset.notMem_zero e hmem
    · have hbounds := mem_sessionRows_bounds hr
      refine (count_dayColumn_eq_one_iff hzone hstart hbounds.1 hbounds.2).mpr fun hweek => ?_
      refine (h.weeks hweek).resolve_right fun hnone => ?_
      rw [hnone.2 hquery] at hr
      exact Multiset.notMem_zero r hr

/-- A database that knows no zone besides UTC. -/
def utcCalendar : Calendar where
  startOfDay _ := midnight 0
  endOfDay _ date := midnight 0 date + dayLength - 1
  knowsTimezone zone := zone == "UTC"
  dateTrunc _ interval := (periods 0 interval).trunc
  generateSeries _ interval := series (plusInterval 0 interval)

theorem fixedOffset_utcCalendar : utcCalendar.FixedOffset "UTC" 0 :=
  ⟨rfl, fun _ => rfl, fun _ => rfl, fun _ _ => rfl, fun _ _ _ => rfl⟩

/-- A share of the eighth of January 2026, a Thursday. -/
def thursdayShare : Database :=
  { oneShare with
    fileShareSessions := Table.singleton
      { id := 5, shortSlug := "abc", workspaceId := some 1, createdAt := 1767873600000000 }
    fileSharePayments_session := by decide }

/-- Three weeks of January, from the Wednesday before on. -/
def fromWednesday (interval : TimeInterval) : MetricsRequest where
  startDate := ⟨2026, 1, 7⟩
  endDate := ⟨2026, 1, 28⟩
  interval := interval

theorem valid_wednesday : (⟨2026, 1, 7⟩ : Date).Valid :=
  ⟨by decide, by decide +kernel⟩

end Rapidly.Analytics
