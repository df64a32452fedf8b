import Rapidly.Analytics.Metrics.Selection
import Rapidly.Relational.Buckets

/-!
# Every row is counted once

The periods of an answer should share out the rows that the filters select from the requested days:
each row is counted in one period, and once. The buckets of the rows come from `date_trunc`, the
periods from a series that starts with the first day, and the two are joined by equality; the join
of the customer filter yields an event once for each customer that it matches.

* `Conserves` says that a request succeeds and counts every row once, so that metrics which add up
  over rows (`SQLMetric.Additive`) have the sum of their periods for their value on all rows.
* `conserves_iff_aligned` is the exact condition.
-/

namespace Rapidly.Analytics

open Relational Identity FileSharing

/-! ### Metrics that add up -/

/-- The aggregate of the metric adds up over rows. -/
def SQLMetric.Additive (m : SQLMetric) : Prop :=
  match m.sqlExpression with
  | .events aggregate => IsAdditive aggregate
  | .fileShareSessions aggregate => IsAdditive aggregate

/-- The aggregate of the metric on all rows. -/
def SQLMetric.onAll (m : SQLMetric) (events : Multiset Event) (sessions : Multiset SessionRow) :
    ℚ :=
  match m.sqlExpression with
  | .events aggregate => aggregate events
  | .fileShareSessions aggregate => aggregate sessions

theorem isAdditive_totalCosts : IsAdditive totalCosts where
  zero := rfl
  add s t := by rw [totalCosts, Multiset.filterMap_add, Multiset.sum_add, totalCosts, totalCosts]

theorem isAdditive_countSessions (p : FileShareSession → Bool) :
    IsAdditive fun rows => (countSessions rows p : ℚ) where
  zero := rfl
  add s t := by
    rw [countSessions, Multiset.filter_add, Multiset.card_add, Nat.cast_add]
    rfl

theorem isAdditive_totalPayments (column : FileSharePayment → ℤ) :
    IsAdditive fun rows => (totalPayments column rows : ℚ) where
  zero := rfl
  add s t := by
    rw [totalPayments, Multiset.map_add, Multiset.sum_add, Int.cast_add]
    rfl

theorem additive_metrics :
    ∀ m ∈ [costsMetric, cumulativeCostsMetric, fileShareSessionsMetric, fileShareDownloadsMetric,
      fileShareFreeSessionsMetric, fileShareActiveSessionsMetric,
      fileShareCompletedSessionsMetric, fileShareExpiredSessionsMetric,
      fileShareTotalSizeBytesMetric, cumulativeFileShareSessionsMetric,
      cumulativeFileShareDownloadsMetric, fileShareRevenueMetric, fileSharePaidSessionsMetric,
      fileSharePlatformFeesMetric, cumulativeFileSharePlatformFeesMetric], m.Additive := by
  have hcard : IsAdditive fun rows : Multiset SessionRow => (rows.card : ℚ) :=
    ⟨rfl, fun s t => by rw [Multiset.card_add, Nat.cast_add]⟩
  have hdownloads : IsAdditive fun rows : Multiset SessionRow => (totalDownloads rows : ℚ) :=
    ⟨rfl, fun s t => by
      rw [totalDownloads, Multiset.map_add, Multiset.sum_add, Int.cast_add]
      rfl⟩
  have hsize : IsAdditive fun rows : Multiset SessionRow =>
      (((rows.filterMap fun r => r.session.fileSizeBytes).sum : ℤ) : ℚ) :=
    ⟨rfl, fun s t => by rw [Multiset.filterMap_add, Multiset.sum_add, Int.cast_add]⟩
  intro m hm
  simp only [List.mem_cons, List.not_mem_nil, or_false] at hm
  rcases hm with rfl | rfl | rfl | rfl | rfl | rfl | rfl | rfl | rfl | rfl | rfl | rfl | rfl |
    rfl | rfl
  · exact isAdditive_totalCosts
  · exact isAdditive_totalCosts
  · exact hcard
  · exact hdownloads
  · exact isAdditive_countSessions _
  · exact isAdditive_countSessions _
  · exact isAdditive_countSessions _
  · exact isAdditive_countSessions _
  · exact hsize
  · exact hcard
  · exact hdownloads
  · exact isAdditive_totalPayments _
  · exact isAdditive_countSessions _
  · exact isAdditive_totalPayments _
  · exact isAdditive_totalPayments _

/-! ### What the filters select -/

section Conserves

variable (cal : Calendar) (db : Database) (principal : Principal) (request : MetricsRequest)

/-- The filters select the event, and its timestamp lies in the requested days. -/
def SelectedEvent (e : Event) : Prop :=
  (bounds cal request).1 ≤ e.timestamp ∧ e.timestamp ≤ (bounds cal request).2 ∧
    InEventScope db principal request e.workspaceId ∧
      ∀ ids ∈ request.customerId, ∃ c ∈ db.customers.rows, c.id ∈ ids ∧ OfCustomer e c

instance (e : Event) : Decidable (SelectedEvent cal db principal request e) :=
  inferInstanceAs (Decidable (_ ∧ _))

/-- The selected events, each once. -/
def selectedEvents : Multiset Event := db.events.select (SelectedEvent cal db principal request)

/-- An answer counts every selected row in one period, and once. -/
structure CountsOnce (r : MetricsResponse) : Prop where
  events : .events ∈ filteredQueries request.metrics →
    ∀ e ∈ selectedEvents cal db principal request,
      (r.periods.map fun p => (bucket (fun e => dayColumn cal request e.timestamp)
        (eventRows cal db principal request) p.timestamp).count e).sum = 1
  sessions : .fileShareSessions ∈ filteredQueries request.metrics →
    ∀ s ∈ sessionRows cal db principal request,
      (r.periods.map fun p => (bucket (fun r => dayColumn cal request r.session.createdAt)
        (sessionRows cal db principal request) p.timestamp).count s).sum = 1

/-- The sum over the periods of a selected metric that adds up is its value on all selected
rows. The columns that accumulate over the series are no such sums. -/
def SumsMatch (r : MetricsResponse) : Prop :=
  ∀ m ∈ metricsSql, m.Additive → m.slug ∉ cumulativeMetrics → Selects request.metrics m.slug →
    cumulativeSum r.periods m.slug =
      m.onAll (selectedEvents cal db principal request) (sessionRows cal db principal request)

/-- **Conservation**: the request succeeds and shares out the selected rows. -/
def Conserves : Prop :=
  ∃ r, getMetrics cal db principal request = some r ∧ CountsOnce cal db principal request r ∧
    SumsMatch cal db principal request r

/-! ### The condition -/

/-- The metrics whose total takes the last period. -/
def latestMetrics : List String :=
  ["cumulative_costs", "cost_per_user", "active_user_by_event", "file_share_active_sessions",
    "cumulative_file_share_sessions", "cumulative_file_share_downloads",
    "file_share_payment_conversion", "cumulative_file_share_platform_fees"]

/-- There is a period, or no selected metric takes the last one; each selected row is truncated to
a timestamp that the series has once; and each selected event matches one of the named
customers. -/
structure Aligned : Prop where
  succeeds : timestampSeries cal request ≠ [] ∨
    ∀ m ∈ filteredAllMetrics request.metrics, m.slug ∉ latestMetrics
  events : .events ∈ filteredQueries request.metrics → ∀ e ∈ db.events.rows,
    SelectedEvent cal db principal request e →
      (timestampSeries cal request).count (dayColumn cal request e.timestamp) = 1 ∧
        ∀ ids ∈ request.customerId,
          ((db.customers.select (·.id ∈ ids)).filter (OfCustomer e)).length = 1
  sessions : .fileShareSessions ∈ filteredQueries request.metrics →
    ∀ r ∈ sessionRows cal db principal request,
      (timestampSeries cal request).count (dayColumn cal request r.session.createdAt) = 1

variable {cal db principal request}

/-! ### Success -/

theorem isSome_getCumulative_nil {m : Metric} (hm : m ∈ metrics) :
    (m.getCumulative []).isSome ↔ m.slug ∉ latestMetrics := by
  have hall : ∀ m ∈ metrics, (m.getCumulative []).isSome ↔ m.slug ∉ latestMetrics := by decide
  exact hall m hm

/-- A request succeeds if there is a period, or no selected metric takes the last one. -/
theorem getMetrics_isSome_iff :
    (∃ r, getMetrics cal db principal request = some r) ↔
      (timestampSeries cal request ≠ [] ∨
        ∀ m ∈ filteredAllMetrics request.metrics, m.slug ∉ latestMetrics) := by
  by_cases hseries : timestampSeries cal request = []
  · have hmap : (∃ r, getMetrics cal db principal request = some r) ↔
        ((filteredAllMetrics request.metrics).mapM fun m : Metric =>
          (m.getCumulative []).map (m.slug, ·)).isSome := by
      rw [getMetrics, metricsResponse, hseries, List.map_nil]
      generalize ((filteredAllMetrics request.metrics).mapM fun m : Metric =>
        (m.getCumulative []).map (m.slug, ·)) = totals
      rcases totals with _ | totals
      · refine iff_of_false ?_ Bool.false_ne_true
        rintro ⟨_, h⟩
        exact Option.some_ne_none _ h.symm
      · exact iff_of_true ⟨_, rfl⟩ rfl
    rw [hmap, Fallible.isSome_mapM_iff, or_iff_right (not_not_intro hseries)]
    refine forall₂_congr fun m hm => ?_
    rw [Option.isSome_map, isSome_getCumulative_nil (filteredAllMetrics_subset hm)]
  · obtain ⟨r, hr, -⟩ := @metricsResponse_eq_some cal request (eventRows cal db principal request)
      (sessionRows cal db principal request) hseries
    exact iff_of_true ⟨r, hr⟩ (.inl hseries)

/-! ### Rows of the event query -/

theorem count_map_fst_join {α β : Type*} [DecidableEq α] {l : List α} {m : List β}
    {on : α → β → Prop} [∀ a b, Decidable (on a b)] (hl : l.Nodup) {a : α} (ha : a ∈ l) :
    ((join l m on).map Prod.fst).count a = (m.filter (on a)).length := by
  rw [map_fst_join]
  induction l with
  | nil => exact absurd ha List.not_mem_nil
  | cons b l ih =>
    obtain ⟨hb, hl⟩ := List.nodup_cons.mp hl
    rw [List.flatMap_cons, List.count_append, List.count_replicate]
    rcases List.mem_cons.mp ha with rfl | ha
    · have hzero : (l.flatMap fun a => List.replicate (m.filter (on a)).length a).count a = 0 := by
        refine List.count_eq_zero.mpr fun hmem => ?_
        obtain ⟨c, hc, hrep⟩ := List.mem_flatMap.mp hmem
        exact hb (List.eq_of_mem_replicate hrep ▸ hc)
      rw [hzero, beq_self_eq_true, if_pos rfl, Nat.add_zero]
    · have hne : (b == a) = false := beq_false_of_ne fun heq => hb (heq ▸ ha)
      rw [hne, ih hl ha]
      exact Nat.zero_add _

theorem mem_selectedEvents {e : Event} :
    e ∈ selectedEvents cal db principal request ↔
      e ∈ db.events ∧ SelectedEvent cal db principal request e :=
  Multiset.mem_coe.trans Table.mem_select

theorem mem_eventRows_iff {e : Event} :
    e ∈ eventRows cal db principal request ↔ e ∈ selectedEvents cal db principal request := by
  rw [mem_selectedEvents, mem_eventRows]
  rfl

theorem count_selectedEvents {e : Event} (he : e ∈ selectedEvents cal db principal request) :
    (selectedEvents cal db principal request).count e = 1 :=
  Multiset.count_eq_one_of_mem (Multiset.coe_nodup.mpr (db.events.nodup_rows.filter _)) he

/-- A selected event is a row of the query once for each named customer that it matches. -/
theorem count_eventRows_eq_one_iff {e : Event}
    (he : e ∈ selectedEvents cal db principal request) :
    (eventRows cal db principal request).count e = 1 ↔
      ∀ ids ∈ request.customerId,
        ((db.customers.select (·.id ∈ ids)).filter (OfCustomer e)).length = 1 := by
  have hmem := mem_eventRows_iff.mpr he
  rw [eventRows] at hmem ⊢
  rcases hids : request.customerId with _ | ids
  · rw [hids] at hmem
    refine iff_of_true (Multiset.count_eq_one_of_mem ?_ hmem) (by simp)
    exact Multiset.coe_nodup.mpr (db.events.nodup_rows.filter _)
  · have hleft : e ∈ db.events.select fun e => (bounds cal request).1 ≤ e.timestamp ∧
        e.timestamp ≤ (bounds cal request).2 ∧ InEventScope db principal request e.workspaceId := by
      obtain ⟨hdb, hlower, hupper, hscope, -⟩ := mem_selectedEvents.mp he
      exact Table.mem_select.mpr ⟨hdb, hlower, hupper, hscope⟩
    have hcount := @count_map_fst_join _ _ _ _ (db.customers.select (·.id ∈ ids)) OfCustomer _
      (db.events.nodup_rows.filter _) _ hleft
    rw [Multiset.coe_count]
    constructor
    · rintro h _ ⟨⟩
      exact hcount.symm.trans h
    · intro h
      exact hcount.trans (h ids rfl)

theorem count_sessionRows {r : SessionRow} (hr : r ∈ sessionRows cal db principal request) :
    (sessionRows cal db principal request).count r = 1 := by
  refine Multiset.count_eq_one_of_mem ?_ hr
  rw [sessionRows]
  refine Multiset.Nodup.map (fun s s' h => (SessionRow.mk.inj h).1) ?_
  exact Multiset.coe_nodup.mpr (db.fileShareSessions.nodup_rows.filter _)

/-! ### The exact condition -/

theorem sum_periods {r : MetricsResponse} (hr : getMetrics cal db principal request = some r)
    (f : Time → ℕ) :
    (r.periods.map fun p => f p.timestamp).sum = ((timestampSeries cal request).map f).sum := by
  rw [(metricsResponse_eq_some_iff hr).1, List.map_map]
  rfl

/-- An answer counts the rows once exactly if they are aligned with the series. -/
theorem countsEachOnce_iff {r : MetricsResponse}
    (hr : getMetrics cal db principal request = some r) :
    CountsOnce cal db principal request r ↔ Aligned cal db principal request := by
  have hevent : ∀ e ∈ selectedEvents cal db principal request,
      ((r.periods.map fun p => (bucket (fun e => dayColumn cal request e.timestamp)
        (eventRows cal db principal request) p.timestamp).count e).sum = 1 ↔
      (timestampSeries cal request).count (dayColumn cal request e.timestamp) = 1 ∧
        ∀ ids ∈ request.customerId,
          ((db.customers.select (·.id ∈ ids)).filter (OfCustomer e)).length = 1) := by
    intro e he
    rw [sum_periods hr fun t => (bucket (fun e => dayColumn cal request e.timestamp)
      (eventRows cal db principal request) t).count e, sum_count_bucket_eq_one_iff,
      count_eventRows_eq_one_iff he]
  have hsession : ∀ s ∈ sessionRows cal db principal request,
      ((r.periods.map fun p => (bucket (fun r => dayColumn cal request r.session.createdAt)
        (sessionRows cal db principal request) p.timestamp).count s).sum = 1 ↔
      (timestampSeries cal request).count (dayColumn cal request s.session.createdAt) = 1) := by
    intro s hs
    rw [sum_periods hr fun t => (bucket (fun r => dayColumn cal request r.session.createdAt)
      (sessionRows cal db principal request) t).count s, sum_count_bucket_eq_one_iff,
      and_iff_left (count_sessionRows hs)]
  constructor
  · intro h
    refine ⟨getMetrics_isSome_iff.mp ⟨r, hr⟩, fun hquery e he hselected => ?_,
      fun hquery s hs => (hsession s hs).mp (h.sessions hquery s hs)⟩
    have hmem := mem_selectedEvents.mpr ⟨he, hselected⟩
    exact (hevent e hmem).mp (h.events hquery e hmem)
  · intro h
    refine ⟨fun hquery e he => ?_, fun hquery s hs => (hsession s hs).mpr (h.sessions hquery s hs)⟩
    obtain ⟨hdb, hselected⟩ := mem_selectedEvents.mp he
    exact (hevent e he).mpr (h.events hquery e hdb hselected)

theorem Aligned.eventRows_eq (h : Aligned cal db principal request)
    (hquery : .events ∈ filteredQueries request.metrics) :
    eventRows cal db principal request = selectedEvents cal db principal request := by
  ext e
  by_cases he : e ∈ selectedEvents cal db principal request
  · obtain ⟨hdb, hselected⟩ := mem_selectedEvents.mp he
    rw [count_selectedEvents he,
      (count_eventRows_eq_one_iff he).mpr (h.events hquery e hdb hselected).2]
  · rw [Multiset.count_eq_zero_of_notMem he,
      Multiset.count_eq_zero_of_notMem fun hmem => he (mem_eventRows_iff.mp hmem)]

theorem columnSum_of_additive (h : Aligned cal db principal request) {m : SQLMetric}
    (hquery : m.query ∈ filteredQueries request.metrics) (hadditive : m.Additive)
    (hcumulative : m.slug ∉ cumulativeMetrics) :
    columnSum cal request (eventRows cal db principal request)
        (sessionRows cal db principal request) m =
      m.onAll (selectedEvents cal db principal request)
        (sessionRows cal db principal request) := by
  have hfalse : decide (m.slug ∈ cumulativeMetrics) = false := decide_eq_false hcumulative
  have hbucket : ∀ {Row : Type} [DecidableEq Row] (day : Row → Time) {aggregate : Multiset Row → ℚ}
      (rows : Multiset Row) (t : Time), IsAdditive aggregate →
      bucketValue day aggregate rows t = aggregate (bucket day rows t) := by
    intro Row _ day aggregate rows t hadd
    rw [bucketValue, bucket]
    split
    next hempty => rw [hempty, hadd.zero]
    next => rfl
  unfold columnSum metricColumn SQLMetric.onAll
  unfold SQLMetric.Additive at hadditive
  unfold SQLMetric.query at hquery
  cases haggregate : m.sqlExpression with
  | events aggregate =>
    rw [haggregate] at hadditive hquery
    have honce : ∀ e ∈ eventRows cal db principal request,
        (timestampSeries cal request).count (dayColumn cal request e.timestamp) = 1 := by
      intro e he
      obtain ⟨hdb, hselected⟩ := mem_selectedEvents.mp (mem_eventRows_iff.mp he)
      exact (h.events hquery e hdb hselected).1
    have hsum := hadditive.sum_bucket honce
    rw [h.eventRows_eq hquery] at hsum ⊢
    refine (congrArg List.sum (List.map_congr_left fun t _ => ?_)).trans hsum
    dsimp only
    rw [hfalse, columnValue, if_neg Bool.false_ne_true, hbucket _ _ _ hadditive]
  | fileShareSessions aggregate =>
    rw [haggregate] at hadditive hquery
    have hsum := hadditive.sum_bucket (h.sessions hquery)
    refine (congrArg List.sum (List.map_congr_left fun t _ => ?_)).trans hsum
    dsimp only
    rw [hfalse, columnValue, if_neg Bool.false_ne_true, hbucket _ _ _ hadditive]

/-- A request succeeds and shares out the rows that its filters select
exactly if there is a period or no selected metric takes the last one, each selected row is
truncated to a timestamp that the series has once, and each selected event matches one of the named
customers. -/
theorem conserves_iff_aligned (cal : Calendar) (db : Database) (principal : Principal)
    (request : MetricsRequest) :
    Conserves cal db principal request ↔ Aligned cal db principal request := by
  constructor
  · rintro ⟨r, hr, hcounts, -⟩
    exact (countsEachOnce_iff hr).mp hcounts
  · intro h
    obtain ⟨r, hr⟩ := (@getMetrics_isSome_iff cal db principal request).mpr h.succeeds
    refine ⟨r, hr, (countsEachOnce_iff hr).mpr h, fun m hm hadditive hcumulative hselects => ?_⟩
    have hcomputed : m ∈ filteredMetrics request.metrics :=
      mem_filteredMetrics_of_selects hm hselects
        (by rw [sqlMetricsOf, if_pos (List.mem_map_of_mem hm)]; exact List.mem_singleton.mpr rfl)
    rw [(metricsResponse_eq_some_iff hr).1, cumulativeSum_periods hm, if_pos hselects]
    exact columnSum_of_additive h (query_mem_filteredQueries hcomputed) hadditive hcumulative

end Conserves

end Rapidly.Analytics
