import Rapidly.Analytics.Metrics.Isolation

/-!
# Which metrics are asked for

Two requests that differ only in their selection of metrics, and a metric that both contain. The
values of the metric in the periods are the same in both answers. Its total is computed from the
periods of the answer, which show the selected metrics only; three metrics divide the totals of two
other metrics (`quotients`), and find nothing to divide where these are not selected.

* `period_values` says what a period shows of a metric that the database computes.
* `getCumulative_quotient` is the total of a quotient for a selection.
* `sameInAnswers_iff` says when the selection makes no difference.
-/

namespace Rapidly.Analytics

open Relational Identity FileSharing

/-! ### What two answers agree on -/

/-- The selection contains the slug; without a selection all metrics are meant. -/
def Selects (selection : Option (List String)) (slug : String) : Prop := ∀ l ∈ selection, slug ∈ l

instance (selection : Option (List String)) (slug : String) : Decidable (Selects selection slug) :=
  inferInstanceAs (Decidable (∀ l ∈ selection, _))

/-- The values of a metric in the periods, and its total, are the same. -/
def SameMetric (slug : String) (a a' : MetricsResponse) : Prop :=
  (a.periods.map fun p => (p.timestamp, p.values slug)) =
      (a'.periods.map fun p => (p.timestamp, p.values slug)) ∧
    a.totals.lookup slug = a'.totals.lookup slug

/-- The request with another selection. -/
def MetricsRequest.select (request : MetricsRequest) (selection : Option (List String)) :
    MetricsRequest :=
  { request with metrics := selection }

/-- The answers to two selections agree on a metric that both contain. -/
def SameInAnswers (cal : Calendar) (db : Database) (principal : Principal)
    (request : MetricsRequest) (slug : String) (S S' : Option (List String)) : Prop :=
  Selects S slug → Selects S' slug → ∀ a a',
    getMetrics cal db principal (request.select S) = some a →
      getMetrics cal db principal (request.select S') = some a' → SameMetric slug a a'

/-! ### Quotients -/

/-- A metric whose total divides the sum of an amount by the total of another metric. -/
structure Quotient where
  metric : SQLMetric
  amount : SQLMetric
  divisor : SQLMetric
  /-- The total of the divisor is its last value instead of its sum. -/
  latest : Bool := false

/-- The metrics whose totals are quotients of those of other metrics. -/
def quotients : List Quotient :=
  [{ metric := costPerUserMetric, amount := costsMetric, divisor := activeUserMetric,
     latest := true },
    { metric := fileShareAvgDownloadsMetric, amount := fileShareDownloadsMetric,
      divisor := fileShareSessionsMetric },
    { metric := fileShareAvgPriceMetric, amount := fileShareRevenueMetric,
      divisor := fileSharePaidSessionsMetric }]

/-- The total of the divisor in an answer. -/
def Quotient.divisorTotal (q : Quotient) (periods : List MetricsPeriod) : Option ℚ :=
  if q.latest then cumulativeLast periods q.divisor.slug
  else some (cumulativeSum periods q.divisor.slug)

/-- A quotient of totals, zero unless the divisor is positive. -/
def quotient (amount divisor : ℚ) : ℚ := if divisor > 0 then amount / divisor else 0

theorem quotient_eq_zero_iff {amount divisor : ℚ} :
    quotient amount divisor = 0 ↔ amount = 0 ∨ divisor ≤ 0 := by
  rw [quotient]
  split
  next hpos =>
    rw [div_eq_zero_iff]
    constructor
    · rintro (h | h)
      · exact .inl h
      · exact .inr h.le
    · rintro (h | h)
      · exact .inl h
      · exact absurd hpos (not_lt.mpr h)
  next hpos => exact iff_of_true rfl (.inr (not_lt.mp hpos))

variable {q : Quotient} {selection : Option (List String)} {m : SQLMetric}

theorem getCumulative_eq_quotient (hq : q ∈ quotients) (periods : List MetricsPeriod) :
    q.metric.getCumulative periods =
      (q.divisorTotal periods).map
        (quotient (cumulativeSum periods q.amount.slug)) := by
  simp only [quotients, List.mem_cons, List.not_mem_nil, or_false] at hq
  obtain rfl | rfl | rfl := hq
  · change (cumulativeLast periods "active_user_by_event").bind _ = Option.map _ _
    rw [Option.map_eq_bind]
    rfl
  · rfl
  · rfl

theorem getCumulative_congr {m : Metric} (hm : m ∈ metrics)
    (hother : ∀ q ∈ quotients, m.slug ≠ q.metric.slug) {periods periods' : List MetricsPeriod}
    (h : periods.map (·.values m.slug) = periods'.map (·.values m.slug)) :
    m.getCumulative periods = m.getCumulative periods' := by
  have hgetD : periods.map (·.getD m.slug) = periods'.map (·.getD m.slug) := by
    have hmap := congrArg (List.map (Option.getD · (0 : ℚ))) h
    rwa [List.map_map, List.map_map] at hmap
  have hsum : cumulativeSum periods m.slug = cumulativeSum periods' m.slug :=
    congrArg List.sum hgetD
  have hlast : cumulativeLast periods m.slug = cumulativeLast periods' m.slug := by
    have hmap := congrArg List.getLast? hgetD
    rwa [List.getLast?_map, List.getLast?_map] at hmap
  have hcases : (∀ p, m.getCumulative p = some (cumulativeSum p m.slug)) ∨
      (∀ p, m.getCumulative p = cumulativeLast p m.slug) ∨
      (∀ p, m.getCumulative p = (cumulativeLast p m.slug).map toInt) ∨
      ∃ q ∈ quotients, m.slug = q.metric.slug := by
    simp only [metrics, metricsSql, metricsPostCompute, List.map_cons, List.map_nil,
      List.cons_append, List.nil_append, List.mem_cons, List.not_mem_nil, or_false] at hm
    rcases hm with rfl | rfl | rfl | rfl | rfl | rfl | rfl | rfl | rfl | rfl | rfl | rfl | rfl |
      rfl | rfl | rfl | rfl | rfl | rfl | rfl | rfl
    all_goals first
      | exact .inl fun _ => rfl
      | exact .inr (.inl fun _ => rfl)
      | exact .inr (.inr (.inl fun _ => rfl))
      | exact .inr (.inr (.inr (by decide)))
  obtain h | h | h | ⟨q, hq, hslug⟩ := hcases
  · rw [h, h, hsum]
  · rw [h, h, hlast]
  · rw [h, h, hlast]
  · exact absurd hslug (hother q hq)

/-! ### What a period shows -/

section Shown

variable {cal : Calendar} {request : MetricsRequest} {events : Multiset Event}
  {sessions : Multiset SessionRow} {slug : String}

theorem mem_filteredAllMetrics {m : Metric} :
    m ∈ filteredAllMetrics selection ↔ m ∈ metrics ∧ Selects selection m.slug := by
  rcases selection with _ | slugs
  · exact (and_iff_left nofun).symm
  · change m ∈ metrics.filter (·.slug ∈ slugs) ↔ _
    simp [Selects]

theorem Selects.mem_requestedSlugs (h : Selects selection slug)
    (hslug : slug ∈ metrics.map Metric.slug) : slug ∈ requestedSlugs selection := by
  rcases selection with _ | _ | ⟨a, l⟩
  · exact hslug
  · exact hslug
  · exact h (a :: l) rfl

theorem filteredPostComputeMetrics_subset :
    filteredPostComputeMetrics selection ⊆ metricsPostCompute := by
  rcases selection with _ | slugs
  · exact List.Subset.refl _
  · exact List.filter_subset_self _

theorem mem_filteredMetrics_of_selects (hm : m ∈ metricsSql) (h : Selects selection slug)
    (hof : m.slug ∈ sqlMetricsOf slug) : m ∈ filteredMetrics selection := by
  rcases selection with _ | slugs
  · exact hm
  · refine List.mem_filter.mpr ⟨hm, decide_eq_true ?_⟩
    exact mem_sqlMetricSlugs.mpr ⟨slug, h slugs rfl, hof⟩

/-- **What a period shows** of a metric that the database computes: its column, if the metric is
selected, and nothing otherwise. -/
theorem period_values (hm : m ∈ metricsSql) (t : Time) :
    (period cal request events sessions t).values m.slug =
      if Selects request.metrics m.slug then some (metricColumn cal request events sessions m t)
      else none := by
  have hslug : m.slug ∈ metrics.map Metric.slug :=
    List.mem_map.mpr ⟨m.toMetric, List.mem_append_left _ (List.mem_map_of_mem hm), rfl⟩
  have hne : m.slug ≠ "cashflow" := by
    have hall : ∀ m' ∈ metricsSql, m'.slug ≠ "cashflow" := by decide
    exact hall m hm
  have hsql : sqlMetricsOf m.slug = [m.slug] := if_pos (List.mem_map_of_mem hm)
  have hvalue : computeMetaMetrics t (filteredPostComputeMetrics request.metrics)
      (periodDict cal request events sessions t) m.slug =
        periodDict cal request events sessions t m.slug :=
    computeMetaMetrics_of_ne filteredPostComputeMetrics_subset hne t _
  change (if m.slug ∈ requestedSlugs request.metrics then _ else none) = _
  rw [hvalue]
  by_cases h : Selects request.metrics m.slug
  · have hcomputed : m ∈ filteredMetrics request.metrics :=
      mem_filteredMetrics_of_selects hm h (hsql ▸ List.mem_singleton.mpr rfl)
    rw [if_pos (h.mem_requestedSlugs hslug), if_pos h, periodDict_slug hcomputed]
  · rw [if_neg h]
    split
    next hrequested =>
      -- Only the empty selection shows a metric that it does not contain, and computes none.
      rcases hmetrics : request.metrics with _ | _ | ⟨a, l⟩
      · exact absurd (hmetrics ▸ nofun) h
      · have hnone : filteredMetrics request.metrics = [] := by
          rw [hmetrics]
          rfl
        rw [periodDict]
        cases hfind : (selectedColumns request).find? (·.slug = m.slug) with
        | none => rfl
        | some m' =>
          have hmem := (mem_selectedColumns.mp (List.mem_of_find?_eq_some hfind)).1
          rw [hnone] at hmem
          exact absurd hmem List.not_mem_nil
      · rw [hmetrics] at hrequested h
        exact absurd (fun l' hl' => by obtain rfl := Option.some.inj hl'; exact hrequested) h
    next => rfl

theorem period_values_cashflow (h : Selects request.metrics "cashflow") (t : Time) :
    (period cal request events sessions t).values "cashflow" =
      some (metricColumn cal request events sessions fileShareRevenueMetric t -
        metricColumn cal request events sessions costsMetric t) := by
  have hmeta : filteredPostComputeMetrics request.metrics = [cashflowMetric] := by
    rcases hmetrics : request.metrics with _ | slugs
    · rfl
    · refine List.filter_eq_self.mpr fun m' hm' => ?_
      rw [List.mem_singleton.mp hm']
      exact decide_eq_true (mem_metaMetricSlugs (h slugs hmetrics))
  have hrevenue : fileShareRevenueMetric ∈ filteredMetrics request.metrics :=
    mem_filteredMetrics_of_selects (by simp [metricsSql]) h (by decide)
  have hcosts : costsMetric ∈ filteredMetrics request.metrics :=
    mem_filteredMetrics_of_selects (by simp [metricsSql]) h (by decide)
  have hdictRevenue : periodDict cal request events sessions t "file_share_revenue" =
      some (metricColumn cal request events sessions fileShareRevenueMetric t) :=
    periodDict_slug hrevenue t
  have hdictCosts : periodDict cal request events sessions t "costs" =
      some (metricColumn cal request events sessions costsMetric t) := periodDict_slug hcosts t
  change (if "cashflow" ∈ requestedSlugs request.metrics then _ else none) = _
  rw [if_pos (h.mem_requestedSlugs (by decide)), hmeta, computeMetaMetrics_cashflow, hdictRevenue,
    hdictCosts, Option.getD_some, Option.getD_some]

end Shown

/-! ### Totals -/

section Totals

variable {cal : Calendar} {request : MetricsRequest} {events : Multiset Event}
  {sessions : Multiset SessionRow} {a : MetricsResponse}

theorem lookup_totals {l : List Metric} {periods : List MetricsPeriod}
    {totals : List (String × ℚ)} (hnodup : (l.map Metric.slug).Nodup)
    (h : (l.mapM fun m => (m.getCumulative periods).map (m.slug, ·)) = some totals)
    {m : Metric} (hm : m ∈ l) : totals.lookup m.slug = m.getCumulative periods := by
  induction l generalizing totals with
  | nil => exact absurd hm List.not_mem_nil
  | cons m' l ih =>
    rw [List.mapM_cons] at h
    obtain ⟨pair, hpair, h⟩ := Option.bind_eq_some_iff.mp h
    obtain ⟨rest, hrest, h⟩ := Option.bind_eq_some_iff.mp h
    obtain ⟨total, htotal, rfl⟩ := Option.map_eq_some_iff.mp hpair
    obtain rfl : (m'.slug, total) :: rest = totals := Option.some.inj h
    rw [List.map_cons, List.nodup_cons] at hnodup
    rcases List.mem_cons.mp hm with rfl | hm
    · rw [List.lookup_cons_self, htotal]
    · have hne : (m.slug == m'.slug) = false :=
        beq_false_of_ne fun heq => hnodup.1 (heq ▸ List.mem_map_of_mem hm)
      rw [List.lookup_cons, hne]
      exact ih hnodup.2 hrest hm

theorem metricsResponse_eq_some_iff (h : metricsResponse cal request events sessions = some a) :
    a.periods = (timestampSeries cal request).map (period cal request events sessions) ∧
      ∀ m ∈ metrics, Selects request.metrics m.slug →
        a.totals.lookup m.slug = m.getCumulative a.periods := by
  obtain ⟨totals, htotals, h⟩ := Option.bind_eq_some_iff.mp h
  obtain rfl := Option.some.inj h
  refine ⟨rfl, fun m hm hselects => lookup_totals ?_ htotals ?_⟩
  · have hnodup : (metrics.map Metric.slug).Nodup := by decide
    rcases request.metrics with _ | slugs
    · exact hnodup
    · exact hnodup.sublist (List.filter_sublist.map _)
  · exact mem_filteredAllMetrics.mpr ⟨hm, hselects⟩

variable (cal request events sessions)

/-- The sum of a column over the series. -/
def columnSum (m : SQLMetric) : ℚ :=
  ((timestampSeries cal request).map (metricColumn cal request events sessions m)).sum

/-- The last value of a column, zero if there is none. -/
def columnLast (m : SQLMetric) : ℚ :=
  ((timestampSeries cal request).getLast?.map (metricColumn cal request events sessions m)).getD 0

/-- The divisor of a quotient in the data. -/
def Quotient.divisorColumn (q : Quotient) : ℚ :=
  if q.latest then columnLast cal request events sessions q.divisor
  else columnSum cal request events sessions q.divisor

variable {cal request events sessions}

theorem getD_period (hm : m ∈ metricsSql) (t : Time) :
    (period cal request events sessions t).getD m.slug =
      if Selects request.metrics m.slug then metricColumn cal request events sessions m t
      else 0 := by
  rw [MetricsPeriod.getD, period_values hm]
  split <;> rfl

theorem cumulativeSum_periods (hm : m ∈ metricsSql) :
    cumulativeSum ((timestampSeries cal request).map (period cal request events sessions)) m.slug =
      if Selects request.metrics m.slug then columnSum cal request events sessions m else 0 := by
  rw [cumulativeSum, List.map_map]
  split
  next h =>
    refine congrArg List.sum (List.map_congr_left fun t _ => ?_)
    rw [Function.comp_apply, getD_period hm, if_pos h]
  next h =>
    refine List.sum_eq_zero fun x hx => ?_
    obtain ⟨t, -, rfl⟩ := List.mem_map.mp hx
    rw [Function.comp_apply, getD_period hm, if_neg h]

theorem cumulativeLast_periods (hm : m ∈ metricsSql) (hseries : timestampSeries cal request ≠ []) :
    cumulativeLast ((timestampSeries cal request).map (period cal request events sessions)) m.slug =
      some (if Selects request.metrics m.slug then columnLast cal request events sessions m
        else 0) := by
  rw [cumulativeLast, columnLast, List.getLast?_map, List.getLast?_eq_some_getLast hseries,
    Option.map_some, Option.map_some, getD_period hm, Option.map_some, Option.getD_some]

theorem quotients_mem (hq : q ∈ quotients) :
    q.metric ∈ metricsSql ∧ q.amount ∈ metricsSql ∧ q.divisor ∈ metricsSql := by
  simp only [quotients, List.mem_cons, List.not_mem_nil, or_false] at hq
  obtain rfl | rfl | rfl := hq <;> simp [metricsSql]

theorem divisorTotal_periods (hq : q ∈ quotients) (hseries : timestampSeries cal request ≠ []) :
    q.divisorTotal ((timestampSeries cal request).map (period cal request events sessions)) =
      some (if Selects request.metrics q.divisor.slug then
        q.divisorColumn cal request events sessions else 0) := by
  have hdivisor := (quotients_mem hq).2.2
  rw [Quotient.divisorTotal, Quotient.divisorColumn]
  cases q.latest with
  | true => exact cumulativeLast_periods hdivisor hseries
  | false => exact congrArg some (cumulativeSum_periods hdivisor)

/-- **The total of a quotient**: that of the data, if both metrics it is computed from are
selected, and zero otherwise. -/
theorem getCumulative_quotient (hq : q ∈ quotients) (hseries : timestampSeries cal request ≠ []) :
    q.metric.getCumulative
        ((timestampSeries cal request).map (period cal request events sessions)) =
      some (if Selects request.metrics q.amount.slug ∧ Selects request.metrics q.divisor.slug then
        quotient (columnSum cal request events sessions q.amount)
          (q.divisorColumn cal request events sessions)
      else 0) := by
  rw [getCumulative_eq_quotient hq, divisorTotal_periods hq hseries, Option.map_some,
    cumulativeSum_periods (quotients_mem hq).2.1]
  by_cases hamount : Selects request.metrics q.amount.slug
  · by_cases hdivisor : Selects request.metrics q.divisor.slug
    · rw [if_pos hamount, if_pos hdivisor, if_pos (And.intro hamount hdivisor)]
    · have hnot : ¬(Selects request.metrics q.amount.slug ∧
          Selects request.metrics q.divisor.slug) := fun h => hdivisor h.2
      rw [if_neg hdivisor, if_neg hnot, quotient_eq_zero_iff.mpr (.inr le_rfl)]
  · have hnot : ¬(Selects request.metrics q.amount.slug ∧
        Selects request.metrics q.divisor.slug) := fun h => hamount h.1
    rw [if_neg hamount, if_neg hnot, quotient_eq_zero_iff.mpr (.inl rfl)]

end Totals

/-! ### Two selections -/

section Select

variable (cal : Calendar) (db : Database) (principal : Principal) (request : MetricsRequest)
  (S S' : Option (List String))

theorem timestampSeries_select :
    timestampSeries cal (request.select S) = timestampSeries cal request := rfl

theorem metricColumn_select (events : Multiset Event) (sessions : Multiset SessionRow)
    (m : SQLMetric) (t : Time) :
    metricColumn cal (request.select S) events sessions m t =
      metricColumn cal request events sessions m t := rfl

theorem columnSum_select (events : Multiset Event) (sessions : Multiset SessionRow)
    (m : SQLMetric) :
    columnSum cal (request.select S) events sessions m =
      columnSum cal request events sessions m := rfl

theorem divisorColumn_select (events : Multiset Event) (sessions : Multiset SessionRow)
    (q : Quotient) :
    q.divisorColumn cal (request.select S) events sessions =
      q.divisorColumn cal request events sessions := rfl

/-- Both metrics that the total of a quotient is computed from are selected. -/
def Quotient.Complete (q : Quotient) (selection : Option (List String)) : Prop :=
  Selects selection q.amount.slug ∧ Selects selection q.divisor.slug

instance (q : Quotient) (selection : Option (List String)) : Decidable (q.Complete selection) :=
  inferInstanceAs (Decidable (_ ∧ _))

/-- The selections agree on whether they are complete for the quotient, or the amount or its
divisor vanishes in the data. -/
def Quotient.Settled (q : Quotient) : Prop :=
  (q.Complete S ↔ q.Complete S') ∨
    columnSum cal request (eventRows cal db principal request)
      (sessionRows cal db principal request) q.amount = 0 ∨
    q.divisorColumn cal request (eventRows cal db principal request)
      (sessionRows cal db principal request) ≤ 0

variable {cal db principal request S S'}

/-- The values of a metric that both selections contain are the same in the periods. -/
theorem period_values_select {m : Metric} (hm : m ∈ metrics) (h : Selects S m.slug)
    (h' : Selects S' m.slug) (events : Multiset Event) (sessions : Multiset SessionRow)
    (t : Time) :
    (period cal (request.select S) events sessions t).values m.slug =
      (period cal (request.select S') events sessions t).values m.slug := by
  have hshown : Selects (request.select S).metrics m.slug := h
  have hshown' : Selects (request.select S').metrics m.slug := h'
  rcases List.mem_append.mp hm with hsql | hmeta
  · obtain ⟨m', hm', rfl⟩ := List.mem_map.mp hsql
    rw [period_values hm', period_values hm', if_pos hshown, if_pos hshown',
      metricColumn_select, metricColumn_select]
  · have hcashflow : m.slug = "cashflow" := by
      obtain ⟨m', hm', rfl⟩ := List.mem_map.mp hmeta
      rw [List.mem_singleton.mp hm']
      rfl
    rw [hcashflow] at hshown hshown' ⊢
    rw [period_values_cashflow hshown, period_values_cashflow hshown', metricColumn_select,
      metricColumn_select, metricColumn_select, metricColumn_select]

/-- The total of a quotient is the same for both selections exactly if they are settled. -/
theorem getCumulative_quotient_select (hq : q ∈ quotients)
    (hseries : timestampSeries cal request ≠ []) :
    (q.metric.getCumulative ((timestampSeries cal request).map
        (period cal (request.select S) (eventRows cal db principal request)
          (sessionRows cal db principal request))) =
      q.metric.getCumulative ((timestampSeries cal request).map
        (period cal (request.select S') (eventRows cal db principal request)
          (sessionRows cal db principal request)))) ↔ q.Settled cal db principal request S S' := by
  have htotal : ∀ selection,
      q.metric.getCumulative ((timestampSeries cal request).map
        (period cal (request.select selection) (eventRows cal db principal request)
          (sessionRows cal db principal request))) =
      some (if q.Complete selection then
        quotient (columnSum cal request (eventRows cal db principal request)
          (sessionRows cal db principal request) q.amount)
          (q.divisorColumn cal request (eventRows cal db principal request)
            (sessionRows cal db principal request))
      else 0) := fun selection => by
    have h := @getCumulative_quotient q cal (request.select selection)
      (eventRows cal db principal request) (sessionRows cal db principal request) hq hseries
    rw [columnSum_select, divisorColumn_select] at h
    exact h
  rw [htotal, htotal, Option.some_inj, Quotient.Settled, ← quotient_eq_zero_iff]
  by_cases h : q.Complete S
  · by_cases h' : q.Complete S'
    · rw [if_pos h, if_pos h']
      exact iff_of_true rfl (.inl (iff_of_true h h'))
    · rw [if_pos h, if_neg h']
      exact (or_iff_right fun hiff => h' (hiff.mp h)).symm
  · by_cases h' : q.Complete S'
    · rw [if_neg h, if_pos h', eq_comm]
      exact (or_iff_right fun hiff => h (hiff.mpr h')).symm
    · rw [if_neg h, if_neg h']
      exact iff_of_true rfl (.inl (iff_of_false h h'))

/-- Where the answers agree on the total of a quotient, the selections are settled. -/
theorem SameInAnswers.settled (hq : q ∈ quotients)
    (hsame : SameInAnswers cal db principal request q.metric.slug S S')
    (h : Selects S q.metric.slug) (h' : Selects S' q.metric.slug) :
    q.Settled cal db principal request S S' := by
  by_cases hseries : timestampSeries cal request = []
  · refine .inr (.inl ?_)
    rw [columnSum, hseries]
    rfl
  · have hanswer : ∀ selection, Selects selection q.metric.slug → ∃ a,
        getMetrics cal db principal (request.select selection) = some a ∧
          a.totals.lookup q.metric.slug =
            q.metric.getCumulative ((timestampSeries cal request).map
              (period cal (request.select selection) (eventRows cal db principal request)
                (sessionRows cal db principal request))) := by
      intro selection hselects
      obtain ⟨a, ha, hperiods⟩ := @metricsResponse_eq_some cal (request.select selection)
        (eventRows cal db principal request) (sessionRows cal db principal request) hseries
      have hmem : q.metric.toMetric ∈ metrics :=
        List.mem_append_left _ (List.mem_map_of_mem (quotients_mem hq).1)
      have htotal := (metricsResponse_eq_some_iff ha).2 _ hmem hselects
      rw [hperiods] at htotal
      exact ⟨a, ha, htotal⟩
    obtain ⟨a, ha, htotal⟩ := hanswer S h
    obtain ⟨a', ha', htotal'⟩ := hanswer S' h'
    rw [← getCumulative_quotient_select hq hseries, ← htotal, ← htotal']
    exact (hsame h h' a a' ha ha').2

end Select

/-! ### A share that was downloaded -/

/-- A workspace with a share that was downloaded three times on the first of January. -/
def oneShare : Database where
  toDatabase := twoWorkspaces.toDatabase
  fileShareSessions := Table.singleton
    { id := 5, shortSlug := "abc", workspaceId := some 1, createdAt := 86400000000
      downloadCount := 3 }

def firstOfJanuary : MetricsRequest where
  startDate := ⟨2026, 1, 1⟩
  endDate := ⟨2026, 1, 1⟩
  interval := .day

end Rapidly.Analytics
