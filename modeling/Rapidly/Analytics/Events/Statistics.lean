import Mathlib.Data.List.Dedup
import Mathlib.Data.List.Pairwise
import Mathlib.Data.Rat.Defs
import Rapidly.Fallible.Traversal
import Rapidly.Identity.Schema
import Rapidly.KeyValue.Grouping

/-!
# Event statistics over time

`list_statistics_timeseries` of `analytics/event/actions.py`, with the dictionaries that
`get_hierarchy_stats` of `queries.py` makes of the rows of its statement. The statement groups by
timestamp and event type, so that these are unique among its rows (`TimeseriesRows`); a row of the
outer join that has no event has no name.

Each period gets its own row of every event type, or an entry of zeros. A row is looked up by its
name alone. An entry of zeros has the percentiles `p50` and `p95`, which a response does not have,
in the place of `p10` and `p90`.

* `completes_iff`: the periods are complete exactly if no event type is missing in one of them and
  no two event types have one name (and all have a label and an id).
-/

namespace Rapidly.Analytics.Statistics

open Identity (Uuid Time)
open KeyValue

/-! ### Rows of the statement -/

/-- The three columns by which the statement groups, beside the timestamp. -/
structure EventTypeInfo where
  name : Option String
  label : Option String
  eventTypeId : Option Uuid
deriving DecidableEq

/-- A row; `column` has the aggregates under the labels that the statement gives them. -/
structure StatsRow where
  eventType : EventTypeInfo
  occurrences : ℕ
  customers : ℕ
  column : String → Option ℚ

structure TimeseriesRow extends StatsRow where
  timestamp : Time

/-- The result of the statement with a timestamp series: one row for each group. -/
structure TimeseriesRows where
  rows : List TimeseriesRow
  grouped : rows.Pairwise fun r r' => (r.timestamp, r.eventType) ≠ (r'.timestamp, r'.eventType)

/-! ### `get_hierarchy_stats` -/

/-- The measures of a row, by the key they get. -/
inductive Measure where
  | totals
  | averages
  | p10
  | p90
  | p99
deriving DecidableEq

def Measure.key : Measure → String
  | .totals => "totals"
  | .averages => "averages"
  | .p10 => "p10"
  | .p90 => "p90"
  | .p99 => "p99"

def Measure.suffix : Measure → String
  | .totals => "sum"
  | .averages => "avg"
  | m => m.key

/-- `field.replace(".", "_")` -/
def safeName (field : String) : String :=
  .ofList (field.toList.map fun c => if c = '.' then '_' else c)

/-- A dictionary with a value for each aggregate field. -/
def byField (aggregateFields : List String) (value : String → ℚ) : List (String × ℚ) :=
  ofEntries (aggregateFields.map fun field => (safeName field, value (safeName field)))

/-- The dictionary of a row. -/
structure Stat where
  eventType : EventTypeInfo
  occurrences : ℕ
  customers : ℕ
  measures : List (String × List (String × ℚ))

/-- One turn of the loop of `get_hierarchy_stats`, without the timestamp. -/
def entry (aggregateFields : List String) (row : StatsRow) : Stat where
  eventType := row.eventType
  occurrences := row.occurrences
  customers := row.customers
  measures := [Measure.totals, .averages, .p10, .p90, .p99].map fun m =>
    (m.key, byField aggregateFields fun name => (row.column (name ++ "_" ++ m.suffix)).getD 0)

/-! ### `EventStatistics` -/

structure EventStatistics where
  name : String
  label : String
  eventTypeId : Uuid
  occurrences : ℕ
  customers : ℕ
  totals : List (String × ℚ)
  averages : List (String × ℚ)
  p10 : List (String × ℚ)
  p90 : List (String × ℚ)
  p99 : List (String × ℚ)
deriving DecidableEq

/-- `EventStatistics(**s)`; `none` is the validation error. Other keys are ignored, and a measure
without its key is empty. -/
def EventStatistics.validate (s : Stat) : Option EventStatistics := do
  let name ← s.eventType.name
  let label ← s.eventType.label
  let eventTypeId ← s.eventType.eventTypeId
  let measure (m : Measure) := (find s.measures m.key).getD []
  return {
    name, label, eventTypeId
    occurrences := s.occurrences
    customers := s.customers
    totals := measure .totals
    averages := measure .averages
    p10 := measure .p10
    p90 := measure .p90
    p99 := measure .p99 }

def EventStatistics.eventType (e : EventStatistics) : EventTypeInfo :=
  ⟨some e.name, some e.label, some e.eventTypeId⟩

/-! ### `list_statistics_timeseries` -/

/-- `stats_by_timestamp`, and the values of `all_event_types`, which are also their keys. -/
structure Collected where
  statsByTimestamp : List (Time × List Stat)
  allEventTypes : List EventTypeInfo

/-- One turn of the loop over `timeseries_stats`. -/
def collectStat (acc : Collected) (stat : Time × Stat) : Collected :=
  if stat.2.eventType.name = none then acc
  else
    { statsByTimestamp := addTo acc.statsByTimestamp stat.1 stat.2
      allEventTypes :=
        if stat.2.eventType ∈ acc.allEventTypes then acc.allEventTypes
        else acc.allEventTypes ++ [stat.2.eventType] }

def collected (aggregateFields : List String) (rows : List TimeseriesRow) : Collected :=
  (rows.map fun row => (row.timestamp, entry aggregateFields row.toStatsRow)).foldl collectStat
    ⟨[], []⟩

/-- The entry for a missing event type. -/
def filler (aggregateFields : List String) (info : EventTypeInfo) : Stat where
  eventType := info
  occurrences := 0
  customers := 0
  measures := ["totals", "averages", "p50", "p95", "p99"].map fun key =>
    (key, byField aggregateFields fun _ => 0)

/-- `complete_stats` of a period. -/
def completeStats (aggregateFields : List String) (acc : Collected) (periodStart : Time) :
    List Stat :=
  let periodStats := (find acc.statsByTimestamp periodStart).getD []
  let statsByName := ofEntries (periodStats.map fun s => (s.eventType.name, s))
  acc.allEventTypes.map fun info => (find statsByName info.name).getD (filler aggregateFields info)

structure StatisticsPeriod where
  timestamp : Time
  periodStart : Time
  periodEnd : Time
  stats : List EventStatistics

structure ListStatisticsTimeseries where
  periods : List StatisticsPeriod
  totals : List EventStatistics

/-- One turn of the loop over the timestamps. -/
def period (aggregateFields : List String) (acc : Collected) (timestamps : List Time)
    (endTimestamp : Time) (i : ℕ) (periodStart : Time) : Option StatisticsPeriod := do
  let periodEnd := timestamps[i + 1]?.getD endTimestamp
  let stats ← (completeStats aggregateFields acc periodStart).mapM EventStatistics.validate
  return { timestamp := periodStart, periodStart, periodEnd, stats }

/-- `list_statistics_timeseries`, of the rows of the two statements and the timestamps. -/
def listStatisticsTimeseries (aggregateFields : List String) (endTimestamp : Time)
    (timeseriesRows : List TimeseriesRow) (timestamps : List Time) (totalsRows : List StatsRow) :
    Option ListStatisticsTimeseries := do
  let acc := collected aggregateFields timeseriesRows
  let periods ← timestamps.zipIdx.mapM fun ts =>
    period aggregateFields acc timestamps endTimestamp ts.2 ts.1
  let totals ← (totalsRows.map (entry aggregateFields)).mapM EventStatistics.validate
  return { periods, totals }

/-! ### What the loop collects -/

section Collecting

variable {aggregateFields : List String} {rows : List TimeseriesRow} {row row' : TimeseriesRow}
  {ts : Time} {info : EventTypeInfo}

/-- The rows that have an event. -/
def named (rows : List TimeseriesRow) : List TimeseriesRow :=
  rows.filter fun row => row.eventType.name ≠ none

theorem mem_named : row ∈ named rows ↔ row ∈ rows ∧ row.eventType.name ≠ none := by
  rw [named, List.mem_filter, decide_eq_true_iff]

theorem collected_concat (aggregateFields : List String) (rows : List TimeseriesRow)
    (row : TimeseriesRow) : collected aggregateFields (rows ++ [row]) =
      collectStat (collected aggregateFields rows)
        (row.timestamp, entry aggregateFields row.toStatsRow) := by
  rw [collected, List.map_append, List.foldl_append]
  rfl

theorem concat_of_name_eq_none (aggregateFields : List String) (rows : List TimeseriesRow)
    (hname : row.eventType.name = none) :
    collected aggregateFields (rows ++ [row]) = collected aggregateFields rows ∧
      named (rows ++ [row]) = named rows := by
  rw [collected_concat, named, List.filter_append, ← named,
    List.filter_cons_of_neg (by simpa using hname), List.filter_nil, List.append_nil]
  exact ⟨if_pos hname, rfl⟩

theorem concat_of_name_ne_none (aggregateFields : List String) (rows : List TimeseriesRow)
    (hname : row.eventType.name ≠ none) :
    collected aggregateFields (rows ++ [row]) =
        { statsByTimestamp := addTo (collected aggregateFields rows).statsByTimestamp row.timestamp
            (entry aggregateFields row.toStatsRow)
          allEventTypes :=
            if row.eventType ∈ (collected aggregateFields rows).allEventTypes then
              (collected aggregateFields rows).allEventTypes
            else (collected aggregateFields rows).allEventTypes ++ [row.eventType] } ∧
      named (rows ++ [row]) = named rows ++ [row] := by
  rw [collected_concat, named, List.filter_append, ← named,
    List.filter_cons_of_pos (by simpa using hname), List.filter_nil]
  exact ⟨if_neg hname, rfl⟩

theorem find_statsByTimestamp (rows : List TimeseriesRow) (ts : Time) :
    (find (collected aggregateFields rows).statsByTimestamp ts).getD [] =
      ((named rows).filter fun row => row.timestamp = ts).map
        fun row => entry aggregateFields row.toStatsRow := by
  induction rows using List.reverseRecOn with
  | nil => rfl
  | append_singleton rows row ih =>
    by_cases hname : row.eventType.name = none
    · obtain ⟨hcollected, hnamed⟩ := concat_of_name_eq_none aggregateFields rows hname
      rw [hcollected, hnamed, ih]
    · obtain ⟨hcollected, hnamed⟩ := concat_of_name_ne_none aggregateFields rows hname
      rw [hcollected, hnamed, List.filter_append, List.map_append, ← ih, addTo, find_put]
      by_cases hts : ts = row.timestamp
      · rw [if_pos hts, List.filter_cons_of_pos (by simpa using hts.symm), hts]
        rfl
      · rw [if_neg hts, List.filter_cons_of_neg (by simpa using Ne.symm hts), List.filter_nil,
          List.map_nil, List.append_nil]

theorem mem_allEventTypes : info ∈ (collected aggregateFields rows).allEventTypes ↔
    ∃ row ∈ named rows, row.eventType = info := by
  induction rows using List.reverseRecOn with
  | nil => simp [collected, named]
  | append_singleton rows row ih =>
    by_cases hname : row.eventType.name = none
    · obtain ⟨hcollected, hnamed⟩ := concat_of_name_eq_none aggregateFields rows hname
      rw [hcollected, hnamed, ih]
    · obtain ⟨hcollected, hnamed⟩ := concat_of_name_ne_none aggregateFields rows hname
      simp only [hcollected, hnamed, List.mem_append, List.mem_singleton, or_and_right, exists_or,
        exists_eq_left, ← ih]
      split
      next hmem =>
        exact ⟨.inl, fun h => h.elim id fun heq => heq ▸ hmem⟩
      next => rw [List.mem_append, List.mem_singleton, eq_comm (a := info)]

theorem nodup_allEventTypes (rows : List TimeseriesRow) :
    (collected aggregateFields rows).allEventTypes.Nodup := by
  induction rows using List.reverseRecOn with
  | nil => exact List.nodup_nil
  | append_singleton rows row ih =>
    by_cases hname : row.eventType.name = none
    · obtain ⟨hcollected, -⟩ := concat_of_name_eq_none aggregateFields rows hname
      rwa [hcollected]
    · obtain ⟨hcollected, -⟩ := concat_of_name_ne_none aggregateFields rows hname
      rw [hcollected]
      split
      · exact ih
      next hnew =>
        refine List.nodup_append.mpr ⟨ih, List.nodup_singleton _, ?_⟩
        rintro info hinfo _ hlast rfl
        rw [List.mem_singleton.mp hlast] at hinfo
        exact hnew hinfo

/-- The dictionary that a period has for an event type. -/
def lookedUp (aggregateFields : List String) (rows : List TimeseriesRow) (ts : Time)
    (info : EventTypeInfo) : Stat :=
  let stats := (named rows).filter fun row => row.timestamp = ts
  let statsByName := ofEntries (stats.map fun row =>
    (row.eventType.name, entry aggregateFields row.toStatsRow))
  (find statsByName info.name).getD (filler aggregateFields info)

theorem completeStats_collected (aggregateFields : List String) (rows : List TimeseriesRow)
    (ts : Time) : completeStats aggregateFields (collected aggregateFields rows) ts =
      (collected aggregateFields rows).allEventTypes.map (lookedUp aggregateFields rows ts) := by
  rw [completeStats, find_statsByTimestamp, List.map_map]
  rfl

theorem lookedUp_cases (aggregateFields : List String) (rows : List TimeseriesRow) (ts : Time)
    (info : EventTypeInfo) :
    (∃ row ∈ named rows, row.timestamp = ts ∧ row.eventType.name = info.name ∧
      lookedUp aggregateFields rows ts info = entry aggregateFields row.toStatsRow) ∨
    (∀ row ∈ named rows, row.timestamp = ts → row.eventType.name ≠ info.name) ∧
      lookedUp aggregateFields rows ts info = filler aggregateFields info := by
  rw [lookedUp]
  set entries := (((named rows).filter fun row => row.timestamp = ts).map fun row =>
    (row.eventType.name, entry aggregateFields row.toStatsRow)) with hentries
  cases hfind : find (ofEntries entries) info.name with
  | some stat =>
    obtain ⟨row, hrow, heq⟩ := List.mem_map.mp (mem_of_find_ofEntries hfind)
    obtain ⟨hname, rfl⟩ := Prod.mk.inj heq
    rw [List.mem_filter, decide_eq_true_iff] at hrow
    exact .inl ⟨row, hrow.1, hrow.2, hname, rfl⟩
  | none =>
    refine .inr ⟨fun row hrow hts hname => ?_, rfl⟩
    have hnone := isSome_find_ofEntries.not.mp (Option.not_isSome_iff_eq_none.mpr hfind)
    refine hnone (List.mem_map.mpr ⟨_, List.mem_map.mpr ⟨row, ?_, rfl⟩, hname⟩)
    rw [List.mem_filter, decide_eq_true_iff]
    exact ⟨hrow, hts⟩

/-- Event types with one name get the same dictionary where there is a row of the name. -/
theorem lookedUp_eq_of_name (aggregateFields : List String) {info' : EventTypeInfo}
    (hrow : row ∈ named rows)
    (hts : row.timestamp = ts) (hname : row.eventType.name = info.name)
    (hname' : info.name = info'.name) :
    lookedUp aggregateFields rows ts info = lookedUp aggregateFields rows ts info' := by
  have hsome : (find (ofEntries (((named rows).filter fun row => row.timestamp = ts).map fun row =>
      (row.eventType.name, entry aggregateFields row.toStatsRow))) info.name).isSome := by
    refine isSome_find_ofEntries.mpr (List.mem_map.mpr ⟨_, List.mem_map.mpr ⟨row, ?_, rfl⟩, hname⟩)
    rw [List.mem_filter, decide_eq_true_iff]
    exact ⟨hrow, hts⟩
  obtain ⟨stat, hstat⟩ := Option.isSome_iff_exists.mp hsome
  rw [lookedUp, lookedUp, ← hname', hstat, Option.getD_some, Option.getD_some]

end Collecting

/-! ### Validation -/

section Validation

variable {aggregateFields : List String} {s : Stat} {e : EventStatistics} {info : EventTypeInfo}
  {row : StatsRow}

/-- An event type with a label and an id. -/
def EventTypeInfo.Complete (info : EventTypeInfo) : Prop :=
  info.name.isSome ∧ info.label.isSome ∧ info.eventTypeId.isSome

theorem isSome_validate_iff : (EventStatistics.validate s).isSome ↔ s.eventType.Complete := by
  obtain ⟨⟨name, label, eventTypeId⟩, occurrences, customers, measures⟩ := s
  cases name <;> cases label <;> cases eventTypeId <;>
    simp [EventStatistics.validate, EventTypeInfo.Complete]

theorem eventType_of_validate (h : EventStatistics.validate s = some e) :
    e.eventType = s.eventType := by
  obtain ⟨⟨name, label, eventTypeId⟩, occurrences, customers, measures⟩ := s
  cases name <;> cases label <;> cases eventTypeId <;>
    simp [EventStatistics.validate] at h
  subst h
  rfl

theorem map_eventType_validate {infos : List EventTypeInfo} {f : EventTypeInfo → Stat}
    (h : ∀ info ∈ infos, (EventStatistics.validate (f info)).isSome) :
    (infos.map fun info => EventStatistics.validate (f info)).map
        (Option.map EventStatistics.eventType) =
      (infos.map fun info => (f info).eventType).map some := by
  rw [List.map_map, List.map_map]
  refine List.map_congr_left fun info hinfo => ?_
  obtain ⟨e, he⟩ := Option.isSome_iff_exists.mp (h info hinfo)
  rw [Function.comp_apply, he, Option.map_some, eventType_of_validate he, Function.comp_apply]

theorem p10_of_validate (h : EventStatistics.validate s = some e) :
    e.p10 = (find s.measures Measure.p10.key).getD [] := by
  obtain ⟨⟨name, label, eventTypeId⟩, occurrences, customers, measures⟩ := s
  cases name <;> cases label <;> cases eventTypeId <;>
    simp [EventStatistics.validate] at h
  subst h
  rfl

theorem find_measures_entry (aggregateFields : List String) (row : StatsRow) (m : Measure) :
    find (entry aggregateFields row).measures m.key = some (byField aggregateFields fun name =>
      (row.column (name ++ "_" ++ m.suffix)).getD 0) := by
  cases m <;> simp [entry, find_cons, Measure.key]

theorem find_measures_filler (aggregateFields : List String) (info : EventTypeInfo) :
    find (filler aggregateFields info).measures Measure.p10.key = none := by
  simp [filler, find_cons, Measure.key]

theorem byField_ne_nil (h : aggregateFields ≠ []) (value : String → ℚ) :
    byField aggregateFields value ≠ [] := by
  obtain ⟨field, fields, rfl⟩ := List.exists_cons_of_ne_nil h
  intro hnil
  have hsome : (find (byField (field :: fields) value) (safeName field)).isSome := by
    rw [byField, isSome_find_ofEntries]
    exact List.mem_map.mpr ⟨_, List.mem_cons_self, rfl⟩
  rw [hnil] at hsome
  cases hsome

end Validation

/-! ### Complete periods -/

section Completeness

variable {aggregateFields : List String} {endTimestamp ts : Time} {timestamps : List Time}
  {totalsRows : List StatsRow} {info : EventTypeInfo} {row row' : TimeseriesRow}

/-- The event types that occur in the rows, each of them once. -/
def eventTypes (rows : List TimeseriesRow) : List EventTypeInfo :=
  ((named rows).map fun row => row.eventType).dedup

/-- The row of a timestamp and an event type, or a row in which nothing is counted. -/
def expected (rows : List TimeseriesRow) (ts : Time) (info : EventTypeInfo) : StatsRow :=
  ((rows.find? fun row => row.timestamp = ts ∧ row.eventType = info).map fun row =>
    row.toStatsRow).getD ⟨info, 0, 0, fun _ => none⟩

/-- There is one period for each timestamp, with one entry for each event type. -/
def Completes (aggregateFields : List String) (endTimestamp : Time) (stats : TimeseriesRows)
    (timestamps : List Time) (totalsRows : List StatsRow) : Prop :=
  ∃ response,
    listStatisticsTimeseries aggregateFields endTimestamp stats.rows timestamps totalsRows =
      some response ∧
    (response.periods.map fun period => period.timestamp) = timestamps ∧
    ∀ period ∈ response.periods, (period.stats.map some).Perm
      ((eventTypes stats.rows).map fun info => EventStatistics.validate
        (entry aggregateFields (expected stats.rows period.timestamp info)))

/-- Nothing has to be filled in, and no name stands for two event types. -/
structure Covered (aggregateFields : List String) (rows : List TimeseriesRow) (ts : Time) :
    Prop where
  complete : ∀ info ∈ eventTypes rows, info.Complete
  present : aggregateFields ≠ [] → ∀ info ∈ eventTypes rows,
    ∃ row ∈ rows, row.timestamp = ts ∧ row.eventType = info
  distinct : ∀ row ∈ named rows, row.timestamp = ts → ∀ info ∈ eventTypes rows,
    info.name = row.eventType.name → info = row.eventType

theorem mem_eventTypes {rows : List TimeseriesRow} :
    info ∈ eventTypes rows ↔ ∃ row ∈ named rows, row.eventType = info := by
  rw [eventTypes, List.mem_dedup, List.mem_map]

theorem allEventTypes_perm (aggregateFields : List String) (rows : List TimeseriesRow) :
    (collected aggregateFields rows).allEventTypes.Perm (eventTypes rows) :=
  (List.perm_ext_iff_of_nodup (nodup_allEventTypes rows) (List.nodup_dedup _)).mpr fun _ =>
    mem_allEventTypes.trans mem_eventTypes.symm

variable (stats : TimeseriesRows)

theorem eq_of_group (hrow : row ∈ stats.rows) (hrow' : row' ∈ stats.rows)
    (hts : row.timestamp = row'.timestamp) (htype : row.eventType = row'.eventType) :
    row = row' := by
  have : Std.Symm fun r r' : TimeseriesRow =>
      (r.timestamp, r.eventType) ≠ (r'.timestamp, r'.eventType) := ⟨fun _ _ => Ne.symm⟩
  by_contra hne
  exact stats.grouped.forall hrow hrow' hne (Prod.ext hts htype)

theorem expected_of_mem (hrow : row ∈ stats.rows) :
    expected stats.rows row.timestamp row.eventType = row.toStatsRow := by
  have hsome : (stats.rows.find? fun r => r.timestamp = row.timestamp ∧
      r.eventType = row.eventType).isSome :=
    List.find?_isSome.mpr ⟨row, hrow, by simp⟩
  obtain ⟨row', hrow'⟩ := Option.isSome_iff_exists.mp hsome
  have hgroup := List.find?_some hrow'
  obtain ⟨hts, htype⟩ := of_decide_eq_true hgroup
  obtain rfl := eq_of_group stats (List.mem_of_find?_eq_some hrow') hrow hts htype
  rw [expected, hrow']
  rfl

theorem expected_of_missing {rows : List TimeseriesRow}
    (h : ∀ row ∈ rows, row.timestamp = ts → row.eventType ≠ info) :
    expected rows ts info = ⟨info, 0, 0, fun _ => none⟩ := by
  have hnone : rows.find? (fun row => row.timestamp = ts ∧ row.eventType = info) = none :=
    List.find?_eq_none.mpr fun row hrow => by simpa using h row hrow
  rw [expected, hnone]
  rfl

theorem eventType_expected {rows : List TimeseriesRow} :
    (expected rows ts info).eventType = info := by
  cases hfind : rows.find? fun row => row.timestamp = ts ∧ row.eventType = info with
  | none => rw [expected, hfind]; rfl
  | some row =>
    have hgroup := List.find?_some hfind
    rw [expected, hfind]
    exact (of_decide_eq_true hgroup).2

theorem isSome_validate_expected {rows : List TimeseriesRow} :
    (EventStatistics.validate (entry aggregateFields (expected rows ts info))).isSome ↔
      info.Complete := by
  rw [isSome_validate_iff, entry, eventType_expected]

theorem validate_lookedUp (h : Covered aggregateFields stats.rows ts)
    (hinfo : info ∈ eventTypes stats.rows) :
    EventStatistics.validate (lookedUp aggregateFields stats.rows ts info) =
      EventStatistics.validate (entry aggregateFields (expected stats.rows ts info)) := by
  obtain ⟨row, hrow, rfl, hname, heq⟩ | ⟨hmissing, heq⟩ :=
    lookedUp_cases aggregateFields stats.rows ts info
  · obtain rfl := h.distinct row hrow rfl info hinfo hname.symm
    rw [heq, expected_of_mem stats (mem_named.mp hrow).1]
  · have hnone : ∀ row ∈ stats.rows, row.timestamp = ts → row.eventType ≠ info := by
      rintro row hrow hts rfl
      obtain ⟨row', hrow', htype⟩ := mem_eventTypes.mp hinfo
      refine hmissing row (mem_named.mpr ⟨hrow, ?_⟩) hts rfl
      rw [← htype]
      exact (mem_named.mp hrow').2
    have hempty : aggregateFields = [] := by
      by_contra hfields
      obtain ⟨row, hrow, hts, htype⟩ := h.present hfields info hinfo
      exact hnone row hrow hts htype
    rw [heq, expected_of_missing hnone, hempty]
    rfl

theorem covered_of_perm
    (hperm : ((eventTypes stats.rows).map fun info =>
        EventStatistics.validate (lookedUp aggregateFields stats.rows ts info)).Perm
      ((eventTypes stats.rows).map fun info =>
        EventStatistics.validate (entry aggregateFields (expected stats.rows ts info))))
    (hsome : ∀ info ∈ eventTypes stats.rows,
      (EventStatistics.validate (lookedUp aggregateFields stats.rows ts info)).isSome) :
    Covered aggregateFields stats.rows ts := by
  have hcomplete : ∀ info ∈ eventTypes stats.rows, info.Complete := by
    intro info hinfo
    have hmem := hperm.mem_iff.mpr (List.mem_map_of_mem hinfo)
    obtain ⟨info', hinfo', heq⟩ := List.mem_map.mp hmem
    have hvalid := hsome info' hinfo'
    rwa [heq, isSome_validate_expected] at hvalid
  -- each entry is of another event type
  have htypes : ((eventTypes stats.rows).map fun info =>
      (lookedUp aggregateFields stats.rows ts info).eventType).Nodup := by
    have hmap := hperm.map (Option.map EventStatistics.eventType)
    rw [map_eventType_validate hsome, map_eventType_validate fun info hinfo =>
      isSome_validate_expected.mpr (hcomplete info hinfo)] at hmap
    have hself : ((eventTypes stats.rows).map fun info =>
        (entry aggregateFields (expected stats.rows ts info)).eventType) = eventTypes stats.rows :=
      (List.map_congr_left fun info _ => eventType_expected).trans (List.map_id _)
    rw [hself] at hmap
    refine List.Nodup.of_map some (hmap.nodup_iff.mpr ?_)
    exact (List.nodup_dedup _).map (Option.some_injective _)
  refine ⟨hcomplete, fun hfields info hinfo => ?_, fun row hrow hts info hinfo hname => ?_⟩
  · by_contra hmissing
    push Not at hmissing
    have hmem := hperm.mem_iff.mpr (List.mem_map_of_mem hinfo)
    obtain ⟨info', hinfo', heq⟩ := List.mem_map.mp hmem
    rw [expected_of_missing hmissing] at heq
    obtain ⟨e, he⟩ := Option.isSome_iff_exists.mp (hsome info' hinfo')
    have htype := (eventType_of_validate he).symm.trans (eventType_of_validate (heq ▸ he))
    obtain ⟨row, hrow, hts, -, hrowed⟩ | ⟨-, hfilled⟩ :=
      lookedUp_cases aggregateFields stats.rows ts info'
    · rw [hrowed] at htype
      exact hmissing row (mem_named.mp hrow).1 hts htype
    · -- the filler has no tenth percentile
      have hfiller := p10_of_validate he
      have hzero := p10_of_validate (heq ▸ he)
      rw [hfilled, find_measures_filler, Option.getD_none] at hfiller
      rw [find_measures_entry, Option.getD_some, hfiller] at hzero
      exact byField_ne_nil hfields _ hzero.symm
  · have hsame := lookedUp_eq_of_name aggregateFields hrow hts hname.symm hname
    exact List.inj_on_of_nodup_map htypes hinfo (mem_eventTypes.mpr ⟨row, hrow, rfl⟩)
      (congrArg Stat.eventType hsame)

/-! ### The response -/

theorem period_eq_some_iff {acc : Collected} {i : ℕ} {p : StatisticsPeriod} :
    period aggregateFields acc timestamps endTimestamp i ts = some p ↔
      ∃ entries : List EventStatistics,
        (completeStats aggregateFields acc ts).map EventStatistics.validate = entries.map some ∧
        p = ⟨ts, ts, timestamps[i + 1]?.getD endTimestamp, entries⟩ := by
  rw [period]
  constructor
  · intro h
    obtain ⟨entries, hentries, h⟩ := Option.bind_eq_some_iff.mp h
    exact ⟨entries, Fallible.mapM_eq_some_iff.mp hentries, (Option.some.inj h).symm⟩
  · rintro ⟨entries, hentries, rfl⟩
    rw [Fallible.mapM_eq_some_iff.mpr hentries]
    rfl

theorem map_validate_completeStats (stats : TimeseriesRows) (aggregateFields : List String)
    (ts : Time) :
    ((completeStats aggregateFields (collected aggregateFields stats.rows) ts).map
        EventStatistics.validate).Perm ((eventTypes stats.rows).map fun info =>
      EventStatistics.validate (lookedUp aggregateFields stats.rows ts info)) := by
  rw [completeStats_collected, List.map_map]
  exact (allEventTypes_perm aggregateFields stats.rows).map _

theorem covered_iff : Covered aggregateFields stats.rows ts ↔
    ∃ entries : List EventStatistics,
      (completeStats aggregateFields (collected aggregateFields stats.rows) ts).map
        EventStatistics.validate = entries.map some ∧
      (entries.map some).Perm ((eventTypes stats.rows).map fun info =>
        EventStatistics.validate (entry aggregateFields (expected stats.rows ts info))) := by
  have hlookedUp := map_validate_completeStats stats aggregateFields ts
  constructor
  · intro h
    have hsame : ((eventTypes stats.rows).map fun info =>
          EventStatistics.validate (lookedUp aggregateFields stats.rows ts info)) =
        (eventTypes stats.rows).map fun info =>
          EventStatistics.validate (entry aggregateFields (expected stats.rows ts info)) :=
      List.map_congr_left fun info hinfo => validate_lookedUp stats h hinfo
    rw [hsame] at hlookedUp
    have hsome : ((completeStats aggregateFields (collected aggregateFields stats.rows) ts).mapM
        EventStatistics.validate).isSome := by
      refine (Fallible.isSome_mapM_iff _).mpr fun stat hstat => ?_
      obtain ⟨info, hinfo, heq⟩ := List.mem_map.mp
        (hlookedUp.mem_iff.mp (List.mem_map_of_mem hstat))
      rw [← heq, isSome_validate_expected]
      exact h.complete info hinfo
    obtain ⟨entries, hentries⟩ := Option.isSome_iff_exists.mp hsome
    have hmap := Fallible.mapM_eq_some_iff.mp hentries
    exact ⟨entries, hmap, hmap ▸ hlookedUp⟩
  · rintro ⟨entries, hentries, hperm⟩
    rw [hentries] at hlookedUp
    refine covered_of_perm stats (hlookedUp.symm.trans hperm) fun info hinfo => ?_
    have hmem := hlookedUp.mem_iff.mpr (List.mem_map_of_mem hinfo)
    obtain ⟨e, -, he⟩ := List.mem_map.mp hmem
    rw [← he]
    rfl

theorem listStatisticsTimeseries_eq_some_iff {rows : List TimeseriesRow}
    {response : ListStatisticsTimeseries} :
    listStatisticsTimeseries aggregateFields endTimestamp rows timestamps totalsRows =
        some response ↔
      (timestamps.zipIdx.map fun ts => period aggregateFields (collected aggregateFields rows)
        timestamps endTimestamp ts.2 ts.1) = response.periods.map some ∧
      ((totalsRows.map (entry aggregateFields)).map EventStatistics.validate) =
        response.totals.map some := by
  rw [listStatisticsTimeseries]
  constructor
  · intro h
    obtain ⟨periods, hperiods, h⟩ := Option.bind_eq_some_iff.mp h
    obtain ⟨totals, htotals, h⟩ := Option.bind_eq_some_iff.mp h
    obtain rfl := Option.some.inj h
    exact ⟨Fallible.mapM_eq_some_iff.mp hperiods, Fallible.mapM_eq_some_iff.mp htotals⟩
  · rintro ⟨hperiods, htotals⟩
    rw [Fallible.mapM_eq_some_iff.mpr hperiods]
    rw [Fallible.mapM_eq_some_iff.mpr htotals]
    rfl

theorem map_timestamp_periods {acc : Collected} {periods : List StatisticsPeriod}
    (h : (timestamps.zipIdx.map fun ts => period aggregateFields acc timestamps endTimestamp
      ts.2 ts.1) = periods.map some) :
    (periods.map fun p => p.timestamp) = timestamps := by
  have hsome : ∀ ts ∈ timestamps.zipIdx, (period aggregateFields acc timestamps endTimestamp
      ts.2 ts.1).map (fun p => p.timestamp) = some ts.1 := by
    intro ts hts
    have hmem := h ▸ List.mem_map_of_mem hts
    obtain ⟨p, -, hp⟩ := List.mem_map.mp hmem
    obtain ⟨entries, -, rfl⟩ := period_eq_some_iff.mp hp.symm
    rw [← hp]
    rfl
  refine List.map_injective_iff.mpr (Option.some_injective _) ?_
  calc (periods.map fun p => p.timestamp).map some
      = (periods.map some).map (Option.map fun p => p.timestamp) := by
        rw [List.map_map, List.map_map]
        rfl
    _ = (timestamps.zipIdx.map Prod.fst).map some := by
        rw [← h, List.map_map, List.map_map]
        exact List.map_congr_left hsome
    _ = timestamps.map some := by rw [List.zipIdx_map_fst]

theorem Completes.covered {stats : TimeseriesRows}
    (h : Completes aggregateFields endTimestamp stats timestamps totalsRows)
    (hts : ts ∈ timestamps) : Covered aggregateFields stats.rows ts := by
  obtain ⟨response, hresponse, -, hcomplete⟩ := h
  obtain ⟨hperiods, -⟩ := listStatisticsTimeseries_eq_some_iff.mp hresponse
  obtain ⟨i, hi⟩ := List.getElem?_of_mem hts
  have hmem := hperiods ▸ List.mem_map_of_mem (List.mk_mem_zipIdx_iff_getElem?.mpr hi)
  obtain ⟨p, hp, heq⟩ := List.mem_map.mp hmem
  obtain ⟨entries, hentries, rfl⟩ := period_eq_some_iff.mp heq.symm
  exact (covered_iff stats).mpr ⟨entries, hentries, hcomplete _ hp⟩

/-- The totals of each event type are accepted, and every period is covered. -/
theorem completes_iff (aggregateFields : List String) (endTimestamp : Time)
    (stats : TimeseriesRows) (timestamps : List Time) (totalsRows : List StatsRow) :
    Completes aggregateFields endTimestamp stats timestamps totalsRows ↔
      (∀ ts ∈ timestamps, Covered aggregateFields stats.rows ts) ∧
      ∀ row ∈ totalsRows, row.eventType.Complete := by
  constructor
  · intro h
    refine ⟨fun ts hts => h.covered hts, fun row hrow => ?_⟩
    obtain ⟨response, hresponse, -, -⟩ := h
    obtain ⟨-, htotals⟩ := listStatisticsTimeseries_eq_some_iff.mp hresponse
    have hmem := htotals ▸ List.mem_map_of_mem (List.mem_map_of_mem hrow)
    obtain ⟨e, -, he⟩ := List.mem_map.mp hmem
    have hsome : (EventStatistics.validate (entry aggregateFields row)).isSome := by
      rw [← he]
      rfl
    exact isSome_validate_iff.mp hsome
  · rintro ⟨hcovered, htotals⟩
    have hperiod : ∀ ts ∈ timestamps.zipIdx, (period aggregateFields
        (collected aggregateFields stats.rows) timestamps endTimestamp ts.2 ts.1).isSome := by
      intro ts hts
      have hmem := List.mem_of_getElem? (List.mem_zipIdx_iff_getElem?.mp hts)
      obtain ⟨entries, hentries, -⟩ := (covered_iff stats).mp (hcovered ts.1 hmem)
      rw [period_eq_some_iff.mpr ⟨entries, hentries, rfl⟩]
      rfl
    have hvalid : ∀ stat ∈ totalsRows.map (entry aggregateFields),
        (EventStatistics.validate stat).isSome := by
      intro stat hstat
      obtain ⟨row, hrow, rfl⟩ := List.mem_map.mp hstat
      exact isSome_validate_iff.mpr (htotals row hrow)
    obtain ⟨periods, hperiods⟩ := Option.isSome_iff_exists.mp
      ((Fallible.isSome_mapM_iff _).mpr hperiod)
    obtain ⟨totals, htotals⟩ := Option.isSome_iff_exists.mp
      ((Fallible.isSome_mapM_iff _).mpr hvalid)
    have hmap := Fallible.mapM_eq_some_iff.mp hperiods
    refine ⟨⟨periods, totals⟩, listStatisticsTimeseries_eq_some_iff.mpr
      ⟨hmap, Fallible.mapM_eq_some_iff.mp htotals⟩, map_timestamp_periods hmap, fun p hp => ?_⟩
    obtain ⟨ts, hts, heq⟩ := Fallible.exists_of_mem_mapM hperiods p hp
    have hmem := List.mem_of_getElem? (List.mem_zipIdx_iff_getElem?.mp hts)
    obtain ⟨entries, hentries, rfl⟩ := period_eq_some_iff.mp heq
    obtain ⟨entries', hentries', hperm⟩ := (covered_iff stats).mp (hcovered ts.1 hmem)
    rw [hentries] at hentries'
    exact hentries' ▸ hperm

/-- An event type that has events in the first of two periods. -/
def firstPeriodOnly : TimeseriesRows where
  rows := [⟨⟨⟨some "render", some "Render", some 1⟩, 1, 1, fun _ => some 5⟩, 0⟩]
  grouped := List.pairwise_singleton _ _

/-- In the second period its entry has no `p10`. -/
theorem not_completes_firstPeriodOnly :
    ¬Completes ["_cost.amount"] 2 firstPeriodOnly [0, 1]
      [⟨⟨some "render", some "Render", some 1⟩, 1, 1, fun _ => some 5⟩] := by
  intro h
  have hmem : ⟨some "render", some "Render", some 1⟩ ∈ eventTypes firstPeriodOnly.rows := by decide
  have hcovered : Covered ["_cost.amount"] firstPeriodOnly.rows 1 := h.covered (by decide)
  obtain ⟨row, hrow, hts, -⟩ := hcovered.present (by decide) _ hmem
  obtain rfl := List.mem_singleton.mp hrow
  exact absurd hts (by decide)

end Completeness

end Rapidly.Analytics.Statistics
