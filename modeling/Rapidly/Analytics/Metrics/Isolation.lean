import Mathlib.Algebra.Order.BigOperators.Group.Multiset
import Rapidly.Analytics.Metrics.Query
import Rapidly.Fallible.Traversal

/-!
# Tenant isolation of the dashboard

A principal's metrics should depend on the workspaces the principal may read and on nothing
else. The two queries treat the workspace filter of a request differently: the one over file
shares narrows what the principal may read by it, the one over events uses it instead of what
the principal may read.

* `sessionRows_congr`: the rows of the file-share query depend on readable workspaces only.
* `eventRows_congr`: so do those of the event query, as long as its scope is readable.
* `foreignCosts_shown` is a request that shows another workspace's costs.
* `isolated_iff` is the exact condition. Its converse direction puts one event into a workspace
  that the filter names and the principal may not read, and finds it in the response.
-/

namespace Rapidly.Analytics

open Relational Identity FileSharing

/-! ### What isolation says -/

/-- The databases agree on the events, sessions, payments and customers of the workspaces with
a property. -/
structure AgreeOn (p : Uuid → Prop) (db db' : Database) : Prop where
  events : Table.Agree (fun e => p e.workspaceId) db.events db'.events
  customers : Table.Agree (fun c => p c.workspaceId) db.customers db'.customers
  sessions : Table.Agree (fun s => ∃ w ∈ s.workspaceId, p w) db.fileShareSessions
    db'.fileShareSessions
  payments : ∀ s ∈ db.fileShareSessions, (∃ w ∈ s.workspaceId, p w) →
    Table.Agree (fun q => q.sessionId = s.id) db.fileSharePayments db'.fileSharePayments

/-- The principal may read the same workspaces in both databases. -/
def SameReadable (principal : Principal) (db db' : Database) : Prop :=
  ∀ w, db.Readable principal w ↔ db'.Readable principal w

/-- The answer to the request does not depend on anything but the workspaces the principal may
read; which these are is taken from a given database. -/
def Isolated (cal : Calendar) (db : Database) (principal : Principal)
    (request : MetricsRequest) : Prop :=
  ∀ db₁ db₂, SameReadable principal db db₁ → SameReadable principal db db₂ →
    AgreeOn (db.Readable principal) db₁ db₂ →
      getMetrics cal db₁ principal request = getMetrics cal db₂ principal request

/-- An event metric is computed for the request. -/
def NeedsEvents (request : MetricsRequest) : Prop :=
  ∃ m ∈ filteredMetrics request.metrics, m.query = .events

instance (request : MetricsRequest) : Decidable (NeedsEvents request) :=
  inferInstanceAs (Decidable (∃ m ∈ _, _))

/-- An instant of the requested days is in a bucket of the response. -/
def HasBucket (cal : Calendar) (request : MetricsRequest) : Prop :=
  ∃ t, (bounds cal request).1 ≤ t ∧ t ≤ (bounds cal request).2 ∧
    dayColumn cal request t ∈ timestampSeries cal request

/-- The filter names a workspace that the principal may not read. -/
def NamesUnreadable (db : Database) (principal : Principal) (request : MetricsRequest) : Prop :=
  ∃ ids ∈ request.workspaceId, ∃ w ∈ ids, ¬db.Readable principal w

/-! ### The rows of the two queries -/

section Rows

variable {cal : Calendar} {db db₁ db₂ : Database} {principal : Principal}
  {request : MetricsRequest}

/-- The sessions of the file-share query are those in a readable workspace that the filter
names. -/
theorem mem_readableFileShareSessions {s : FileShareSession} (hs : s ∈ db.fileShareSessions) :
    s.id ∈ readableFileShareSessions db principal request ↔
      ∃ w ∈ s.workspaceId, db.Readable principal w ∧ Filtered request.workspaceId w := by
  rw [readableFileShareSessions, List.mem_map]
  constructor
  · rintro ⟨s', hs', hid⟩
    rw [Table.mem_select] at hs'
    obtain rfl : s' = s := Table.eq_of_key_eq hs'.1 hs hid
    exact hs'.2
  · intro h
    exact ⟨s, Table.mem_select.mpr ⟨hs, h⟩, rfl⟩

theorem selected_session_iff {s : FileShareSession} {B : Prop} :
    s ∈ db.fileShareSessions ∧ s.id ∈ readableFileShareSessions db principal request ∧ B ↔
      (s ∈ db.fileShareSessions ∧
        ∃ w ∈ s.workspaceId, db.Readable principal w ∧ Filtered request.workspaceId w) ∧ B := by
  rw [← and_assoc]
  exact and_congr_left fun _ => and_congr_right fun hs => mem_readableFileShareSessions hs

theorem sessionRows_congr (h₁ : SameReadable principal db db₁)
    (h₂ : SameReadable principal db db₂) (h : AgreeOn (db.Readable principal) db₁ db₂) :
    sessionRows cal db₁ principal request = sessionRows cal db₂ principal request := by
  have hmem : ∀ s, s ∈ db₁.fileShareSessions ∧
      (s.id ∈ readableFileShareSessions db₁ principal request ∧
        (bounds cal request).1 ≤ s.createdAt ∧ s.createdAt ≤ (bounds cal request).2) ↔
      s ∈ db₂.fileShareSessions ∧ (s.id ∈ readableFileShareSessions db₂ principal request ∧
        (bounds cal request).1 ≤ s.createdAt ∧ s.createdAt ≤ (bounds cal request).2) := by
    intro s
    rw [selected_session_iff, selected_session_iff]
    refine and_congr_left fun _ => ?_
    constructor
    · rintro ⟨hs, w, hw, hread, hfilter⟩
      have hdb := (h₁ w).mpr hread
      exact ⟨(h.sessions s ⟨w, hw, hdb⟩).mp hs, w, hw, (h₂ w).mp hdb, hfilter⟩
    · rintro ⟨hs, w, hw, hread, hfilter⟩
      have hdb := (h₂ w).mpr hread
      exact ⟨(h.sessions s ⟨w, hw, hdb⟩).mpr hs, w, hw, (h₁ w).mp hdb, hfilter⟩
  rw [sessionRows, sessionRows, Multiset.coe_eq_coe.mpr (Table.select_perm hmem)]
  refine Multiset.map_congr rfl fun s hs => ?_
  have hselected := (hmem s).mpr (Table.mem_select.mp (Multiset.mem_coe.mp hs))
  obtain ⟨⟨hs₁, w, hw, hread, -⟩, -⟩ := selected_session_iff.mp hselected
  have hpayments := h.payments s hs₁ ⟨w, hw, (h₁ w).mpr hread⟩
  have hperm := hpayments.select_perm (fun _ hq => hq) fun _ => Iff.rfl
  rw [Multiset.coe_eq_coe.mpr hperm]

/-- A readable event has as many matching customers in both databases: one it refers to by
identifier exists in both, any other belongs to its workspace. -/
theorem length_ofCustomer (h : AgreeOn (db.Readable principal) db₁ db₂) {e : Event}
    (he₁ : e ∈ db₁.events) (he₂ : e ∈ db₂.events) (hread : db.Readable principal e.workspaceId)
    (ids : List Uuid) :
    ((db₁.customers.select (·.id ∈ ids)).filter (OfCustomer e)).length =
      ((db₂.customers.select (·.id ∈ ids)).filter (OfCustomer e)).length := by
  have hone : ∀ {d d' : Database}, Table.Agree (fun c => db.Readable principal c.workspaceId)
      d.customers d'.customers → e ∈ d'.events → ∀ k,
      (∃ c ∈ d.customers, (c.id ∈ ids ∧ OfCustomer e c) ∧ c.id = k) →
      ∃ c ∈ d'.customers, (c.id ∈ ids ∧ OfCustomer e c) ∧ c.id = k := by
    rintro d d' hagree he' k ⟨c, hc, ⟨hids, hof⟩, rfl⟩
    rcases hof with hid | hexternal
    · obtain ⟨c', hc', hkey⟩ := d'.events_customer e he' c.id hid
      exact ⟨c', hc', ⟨by rwa [hkey], .inl (by rw [hid, hkey])⟩, hkey⟩
    · have hworkspace : db.Readable principal c.workspaceId := hexternal.2.2 ▸ hread
      exact ⟨c, (hagree c hworkspace).mp hc, ⟨hids, .inr hexternal⟩, rfl⟩
  have hback : Table.Agree (fun c => db.Readable principal c.workspaceId) db₂.customers
      db₁.customers := fun c hc => (h.customers c hc).symm
  have hlength := Table.length_select_eq fun k =>
    ⟨hone h.customers he₂ k, hone hback he₁ k⟩
  simpa only [Table.select, List.filter_filter, Bool.decide_and, Bool.and_comm] using hlength

theorem eventRows_congr (h₁ : SameReadable principal db db₁)
    (h₂ : SameReadable principal db db₂) (h : AgreeOn (db.Readable principal) db₁ db₂)
    (hscope : ¬NamesUnreadable db principal request) :
    eventRows cal db₁ principal request = eventRows cal db₂ principal request := by
  have hsame : ∀ w, InEventScope db₁ principal request w ↔
      InEventScope db₂ principal request w := by
    intro w
    unfold InEventScope
    cases request.workspaceId with
    | none => exact (h₁ w).symm.trans (h₂ w)
    | some ids => exact Iff.rfl
  have hread : ∀ w, InEventScope db₁ principal request w → db.Readable principal w := by
    intro w hw
    rw [InEventScope] at hw
    cases hids : request.workspaceId with
    | none =>
      rw [hids] at hw
      exact (h₁ w).mpr hw
    | some ids =>
      rw [hids] at hw
      by_contra hnot
      exact hscope ⟨ids, hids, w, hw, hnot⟩
  have hselect := h.events.select_perm
    (fun e (he : (bounds cal request).1 ≤ e.timestamp ∧
      e.timestamp ≤ (bounds cal request).2 ∧ InEventScope db₁ principal request e.workspaceId) =>
      hread _ he.2.2)
    fun e => and_congr_right fun _ => and_congr_right fun _ => hsame e.workspaceId
  unfold eventRows
  cases request.customerId with
  | none => exact Multiset.coe_eq_coe.mpr hselect
  | some ids =>
    refine Multiset.coe_eq_coe.mpr (map_fst_join_perm hselect fun e he => ?_)
    have hdb := Table.mem_select.mp he
    have hdb' := Table.mem_select.mp (hselect.subset he)
    exact length_ofCustomer h hdb.1 hdb'.1 (hread _ hdb.2.2.2) ids

theorem mem_eventRows {e : Event} :
    e ∈ eventRows cal db principal request ↔ e ∈ db.events ∧
      (bounds cal request).1 ≤ e.timestamp ∧ e.timestamp ≤ (bounds cal request).2 ∧
        InEventScope db principal request e.workspaceId ∧
          ∀ ids ∈ request.customerId, ∃ c ∈ db.customers, c.id ∈ ids ∧ OfCustomer e c := by
  rw [eventRows]
  cases request.customerId with
  | none => simp
  | some ids => simp [and_assoc]

end Rows

/-! ### What a response shows -/

section Response

variable {cal : Calendar} {request : MetricsRequest} {events events' : Multiset Event}
  {sessions : Multiset SessionRow}

variable {slugs : Option (List String)} {m : SQLMetric} {t : Time}

theorem filteredMetrics_subset : filteredMetrics slugs ⊆ metricsSql := by
  cases slugs with
  | none => exact List.Subset.refl _
  | some slugs => exact List.filter_subset_self _

theorem filteredAllMetrics_subset : filteredAllMetrics slugs ⊆ metrics := by
  cases slugs with
  | none => exact List.Subset.refl _
  | some slugs => exact List.filter_subset_self _

theorem mem_selectedColumns :
    m ∈ selectedColumns request ↔
      m ∈ filteredMetrics request.metrics ∧ m.query ∈ filteredQueries request.metrics := by
  simp [selectedColumns, and_comm, and_left_comm]

theorem query_mem_filteredQueries
    (hm : m ∈ filteredMetrics slugs) : m.query ∈ filteredQueries slugs := by
  have hall : m.query ∈ [MetricQuery.events, .fileShareSessions] := by
    cases m.query <;> decide
  cases slugs with
  | none => exact hall
  | some slugs =>
    have hquery := List.mem_map_of_mem (f := SQLMetric.query) hm
    have hne := List.ne_nil_of_mem hquery
    rw [filteredQueries, if_neg hne]
    exact List.mem_filter.mpr ⟨hall, decide_eq_true hquery⟩

/-- The slugs of the registry are distinct, so a column is found under its slug. -/
theorem periodDict_slug (hm : m ∈ filteredMetrics request.metrics) (t : Time) :
    periodDict cal request events sessions t m.slug =
      some (metricColumn cal request events sessions m t) := by
  have hnodup : (metricsSql.map (·.slug)).Nodup := by decide
  have hselected := mem_selectedColumns.mpr ⟨hm, query_mem_filteredQueries hm⟩
  rw [periodDict]
  cases hfind : (selectedColumns request).find? (·.slug = m.slug) with
  | none =>
    have hne := List.find?_eq_none.mp hfind m hselected
    simp at hne
  | some m' =>
    have hmem := mem_selectedColumns.mp (List.mem_of_find?_eq_some hfind)
    have hslug : m'.slug = m.slug := by simpa using List.find?_some hfind
    have hsame : m' = m := List.inj_on_of_nodup_map hnodup (filteredMetrics_subset hmem.1)
      (filteredMetrics_subset hm) hslug
    rw [hsame, Option.map_some]

theorem metricsResponse_congr
    (h : ∀ m ∈ filteredMetrics request.metrics, ∀ t ∈ timestampSeries cal request,
      metricColumn cal request events sessions m t =
        metricColumn cal request events' sessions m t) :
    metricsResponse cal request events sessions =
      metricsResponse cal request events' sessions := by
  have hperiods : (timestampSeries cal request).map (period cal request events sessions) =
      (timestampSeries cal request).map (period cal request events' sessions) := by
    refine List.map_congr_left fun t ht => ?_
    have hdict : periodDict cal request events sessions t =
        periodDict cal request events' sessions t := by
      funext slug
      rw [periodDict, periodDict]
      cases hfind : (selectedColumns request).find? (·.slug = slug) with
      | none => rfl
      | some m =>
        have hmem := mem_selectedColumns.mp (List.mem_of_find?_eq_some hfind)
        rw [Option.map_some, Option.map_some, h m hmem.1 t ht]
    rw [period, period, hdict]
  rw [metricsResponse, metricsResponse, hperiods]

theorem metricColumn_congr
    (h : ∀ t ∈ timestampSeries cal request,
      events.filter (fun e => dayColumn cal request e.timestamp = t) =
        events'.filter (fun e => dayColumn cal request e.timestamp = t))
    (m : SQLMetric) (ht : t ∈ timestampSeries cal request) :
    metricColumn cal request events sessions m t =
      metricColumn cal request events' sessions m t := by
  unfold metricColumn
  cases m.sqlExpression with
  | fileShareSessions aggregate => rfl
  | events aggregate =>
    have hbucket : ∀ u ∈ timestampSeries cal request,
        bucketValue (fun e => dayColumn cal request e.timestamp) aggregate events u =
          bucketValue (fun e => dayColumn cal request e.timestamp) aggregate events' u := by
      intro u hu
      rw [bucketValue, bucketValue, h u hu]
    dsimp only [columnValue]
    congr 1
    · have hseries := List.map_congr_left fun u hu =>
        hbucket u (List.mem_of_mem_filter (p := (· ≤ t)) hu)
      rw [hseries]
    · exact hbucket t ht

theorem metricColumn_of_ne (h : m.query ≠ .events) (t : Time) :
    metricColumn cal request events sessions m t =
      metricColumn cal request events' sessions m t := by
  unfold metricColumn
  cases haggregate : m.sqlExpression with
  | fileShareSessions aggregate => rfl
  | events aggregate => simp [SQLMetric.query, haggregate] at h

theorem metricsResponse_eq_some (h : timestampSeries cal request ≠ []) :
    ∃ r, metricsResponse cal request events sessions = some r ∧
      r.periods = (timestampSeries cal request).map (period cal request events sessions) := by
  have hperiods : (timestampSeries cal request).map (period cal request events sessions) ≠ [] := by
    simpa using h
  have htotals : ((filteredAllMetrics request.metrics).mapM fun m : Metric =>
      (m.getCumulative ((timestampSeries cal request).map
        (period cal request events sessions))).map (m.slug, ·)).isSome := by
    refine (Fallible.isSome_mapM_iff _).mpr fun m hm => ?_
    rw [Option.isSome_map]
    exact isSome_getCumulative (filteredAllMetrics_subset hm) hperiods
  obtain ⟨totals, hsome⟩ := Option.isSome_iff_exists.mp htotals
  exact ⟨_, by rw [metricsResponse, hsome]; rfl, rfl⟩

/-- A meta metric that is not the cash flow changes nothing; there is no other. -/
theorem computeMetaMetrics_of_ne {metas : List MetaMetric} (hmetas : metas ⊆ metricsPostCompute)
    {slug : String} (hslug : slug ≠ "cashflow") (t : Time) (dict : String → Option ℚ) :
    computeMetaMetrics t metas dict slug = dict slug := by
  have hfold : ∀ (l : List MetaMetric) (acc : (String → Option ℚ) × (String → Option ℚ)),
      l ⊆ metricsPostCompute → (l.foldl (fun acc m =>
        let value := some (m.computeFromPeriod { timestamp := t, values := acc.1 })
        (Function.update acc.1 m.slug value, Function.update acc.2 m.slug value)) acc).2 slug =
          acc.2 slug := by
    intro l
    induction l with
    | nil => exact fun _ _ => rfl
    | cons m l ih =>
      intro acc hl
      have hm : m = cashflowMetric := by
        simpa [metricsPostCompute] using hl (List.mem_cons_self ..)
      rw [List.foldl_cons, ih _ fun m' hm' => hl (List.mem_cons_of_mem _ hm')]
      refine Function.update_of_ne ?_ _ _
      rw [hm]
      exact hslug
  rw [computeMetaMetrics, hfold metas _ hmetas]

theorem computeMetaMetrics_cashflow (t : Time) (dict : String → Option ℚ) :
    computeMetaMetrics t [cashflowMetric] dict "cashflow" =
      some ((dict "file_share_revenue").getD 0 - (dict "costs").getD 0) := by
  simp [computeMetaMetrics, cashflowMetric, Metric.summed, MetricsPeriod.getD]

/-- An event metric is computed because its slug is requested, or as the costs of the cash
flow. -/
theorem requested_or_cashflow (hm : m ∈ filteredMetrics request.metrics)
    (hevents : m.query = .events) :
    m.slug ∈ requestedSlugs request.metrics ∨
      ∃ slugs ∈ request.metrics, "cashflow" ∈ slugs ∧ m.slug = "costs" := by
  have hrevenue : m.slug ≠ "file_share_revenue" := by
    have hall : ∀ m' ∈ metricsSql, m'.query = .events → m'.slug ≠ "file_share_revenue" := by
      decide
    exact hall m (filteredMetrics_subset hm) hevents
  cases hmetrics : request.metrics with
  | none =>
    have hslug := List.mem_map_of_mem (f := (·.slug)) (filteredMetrics_subset hm)
    exact .inl (by simpa [requestedSlugs, metrics] using .inl (List.mem_map.mp hslug))
  | some slugs =>
    rw [hmetrics, filteredMetrics, List.mem_filter] at hm
    obtain ⟨slug, hslug, hof⟩ := mem_sqlMetricSlugs.mp (of_decide_eq_true hm.2)
    have hrequested : requestedSlugs (some slugs) = slugs := by
      cases slugs with
      | nil => exact absurd hslug List.not_mem_nil
      | cons _ _ => rfl
    rw [hrequested]
    rw [sqlMetricsOf] at hof
    split_ifs at hof with hsql hmeta
    · exact .inl (by rwa [List.mem_singleton.mp hof])
    · have hcosts : m.slug = "costs" := by simpa [hrevenue] using hof
      exact .inr ⟨slugs, rfl, hmeta ▸ hslug, hcosts⟩
    · exact absurd hof List.not_mem_nil

/-- A column that differs shows in the period: under the slug of the metric, or through the
cash flow it was computed for. -/
theorem period_ne (hm : m ∈ filteredMetrics request.metrics)
    (hevents : m.query = .events)
    (h : metricColumn cal request events sessions m t ≠
      metricColumn cal request events' sessions m t) :
    period cal request events sessions t ≠ period cal request events' sessions t := by
  have hmetas : filteredPostComputeMetrics request.metrics ⊆ metricsPostCompute := by
    cases request.metrics with
    | none => exact List.Subset.refl _
    | some slugs => exact List.filter_subset_self _
  have hslug : m.slug ≠ "cashflow" := by
    have hall : ∀ m' ∈ metricsSql, m'.slug ≠ "cashflow" := by decide
    exact hall m (filteredMetrics_subset hm)
  intro hsame
  have hvalue : ∀ slug ∈ requestedSlugs request.metrics,
      computeMetaMetrics t (filteredPostComputeMetrics request.metrics)
        (periodDict cal request events sessions t) slug =
      computeMetaMetrics t (filteredPostComputeMetrics request.metrics)
        (periodDict cal request events' sessions t) slug := by
    intro slug hrequested
    have hvalues := congrFun (congrArg MetricsPeriod.values hsame) slug
    simpa only [period, if_pos hrequested] using hvalues
  rcases requested_or_cashflow hm hevents with hrequested | ⟨slugs, hslugs, hcashflow, hcosts⟩
  · -- no meta metric writes under the slug of the metric
    have hcolumn := hvalue m.slug hrequested
    rw [computeMetaMetrics_of_ne hmetas hslug, computeMetaMetrics_of_ne hmetas hslug,
      periodDict_slug hm, periodDict_slug hm, Option.some_inj] at hcolumn
    exact h hcolumn
  · -- the cash flow is the revenue, which does not depend on the events, less this column
    have hmetrics : request.metrics = some slugs := hslugs
    have hmeta : filteredPostComputeMetrics request.metrics = [cashflowMetric] := by
      rw [hmetrics, filteredPostComputeMetrics, metricsPostCompute]
      exact List.filter_eq_self.mpr fun m' hm' => by
        rw [List.mem_singleton.mp hm']
        exact decide_eq_true (mem_metaMetricSlugs hcashflow)
    have hrevenue : fileShareRevenueMetric ∈ filteredMetrics request.metrics := by
      rw [hmetrics]
      refine List.mem_filter.mpr ⟨by simp [metricsSql], decide_eq_true ?_⟩
      exact mem_sqlMetricSlugs.mpr ⟨"cashflow", hcashflow, by decide⟩
    have hrequested : "cashflow" ∈ requestedSlugs request.metrics := by
      rw [hmetrics]
      cases slugs with
      | nil => exact absurd hcashflow List.not_mem_nil
      | cons _ _ => exact hcashflow
    have hdict : ∀ rows : Multiset Event,
        periodDict cal request rows sessions t "file_share_revenue" =
          some (metricColumn cal request rows sessions fileShareRevenueMetric t) :=
      fun _ => periodDict_slug hrevenue t
    have hcashflows := hvalue "cashflow" hrequested
    rw [hmeta, computeMetaMetrics_cashflow, computeMetaMetrics_cashflow, ← hcosts,
      periodDict_slug hm, periodDict_slug hm, hdict, hdict] at hcashflows
    have hcolumn : metricColumn cal request events sessions fileShareRevenueMetric t =
        metricColumn cal request events' sessions fileShareRevenueMetric t :=
      metricColumn_of_ne (by decide) t
    rw [hcolumn] at hcashflows
    simp only [Option.getD_some, Option.some_inj, sub_right_inj] at hcashflows
    exact h hcashflows

theorem metricsResponse_ne (hm : m ∈ filteredMetrics request.metrics)
    (hevents : m.query = .events) (ht : t ∈ timestampSeries cal request)
    (h : metricColumn cal request events sessions m t ≠
      metricColumn cal request events' sessions m t) :
    metricsResponse cal request events sessions ≠
      metricsResponse cal request events' sessions := by
  have hresponse : ∀ rows : Multiset Event, ∃ r,
      metricsResponse cal request rows sessions = some r ∧
        r.periods = (timestampSeries cal request).map (period cal request rows sessions) :=
    fun _ => metricsResponse_eq_some (List.ne_nil_of_mem ht)
  obtain ⟨r, hr, hperiods⟩ := hresponse events
  obtain ⟨r', hr', hperiods'⟩ := hresponse events'
  intro hsame
  rw [hr, hr', Option.some_inj] at hsame
  rw [hsame, hperiods'] at hperiods
  exact period_ne hm hevents h (List.map_inj_left.mp hperiods t ht).symm

end Response

/-! ### Events with a cost and a customer -/

section Positive

/-- Every row has a positive cost and a customer. -/
def Costly (rows : Multiset Event) : Prop :=
  ∀ e ∈ rows, 0 < e.cost.join.getD 0 ∧ e.customerId ≠ none

variable {rows : Multiset Event}

theorem totalCosts_pos (h : Costly rows) {e : Event} (he : e ∈ rows) : 0 < totalCosts rows := by
  obtain ⟨hcost, -⟩ := h e he
  have hsome : e.cost.join = some (e.cost.join.getD 0) := by
    cases hjoin : e.cost.join with
    | none => simp [hjoin] at hcost
    | some q => rfl
  refine hcost.trans_le (Multiset.single_le_sum (fun q hq => ?_) _ ?_)
  · obtain ⟨e', he', hq⟩ := (Multiset.mem_filterMap _ _).mp hq
    have hcost' := (h e' he').1
    rw [hq] at hcost'
    exact hcost'.le
  · exact (Multiset.mem_filterMap _ _).mpr ⟨e, he, hsome⟩

theorem activeUsers_pos (h : Costly rows) {e : Event} (he : e ∈ rows) : 0 < activeUsers rows := by
  obtain ⟨c, hc⟩ := Option.ne_none_iff_exists'.mp (h e he).2
  have hmem : c ∈ (rows.filterMap Event.customerId).dedup :=
    Multiset.mem_dedup.mpr ((Multiset.mem_filterMap _ _).mpr ⟨e, he, hc⟩)
  exact Nat.add_pos_left (Multiset.card_pos_iff_exists_mem.mpr ⟨c, hmem⟩) _

theorem costPerUser_pos (h : Costly rows) {e : Event} (he : e ∈ rows) :
    0 < (if activeUsers rows = 0 then 0
      else (rows.map fun e => e.cost.join.getD 0).sum / activeUsers rows : ℚ) := by
  have husers := activeUsers_pos h he
  rw [if_neg husers.ne']
  refine div_pos ((h e he).1.trans_le ?_) (by exact_mod_cast husers)
  refine Multiset.single_le_sum (fun q hq => ?_) _ (Multiset.mem_map.mpr ⟨e, he, rfl⟩)
  obtain ⟨e', he', rfl⟩ := Multiset.mem_map.mp hq
  exact (h e' he').1.le

theorem aggregate_pos {m : SQLMetric} (hm : m ∈ metricsSql) {aggregate : Multiset Event → ℚ}
    (haggregate : m.sqlExpression = .events aggregate) (h : Costly rows) {e : Event}
    (he : e ∈ rows) : 0 < aggregate rows := by
  have hcases : m = costsMetric ∨ m = cumulativeCostsMetric ∨ m = costPerUserMetric ∨
      m = activeUserMetric := by
    simp only [metricsSql, List.mem_cons, List.not_mem_nil, or_false] at hm
    rcases hm with rfl | rfl | rfl | rfl | hm
    · exact .inl rfl
    · exact .inr (.inl rfl)
    · exact .inr (.inr (.inl rfl))
    · exact .inr (.inr (.inr rfl))
    · rcases hm with rfl | rfl | rfl | rfl | rfl | rfl | rfl | rfl | rfl | rfl | rfl | rfl |
        rfl | rfl | rfl | rfl <;> cases haggregate
  rcases hcases with rfl | rfl | rfl | rfl <;> cases haggregate
  · exact totalCosts_pos h he
  · exact totalCosts_pos h he
  · exact costPerUser_pos h he
  · exact Nat.cast_pos.mpr (activeUsers_pos h he)

section Column

variable {day : Event → Time} {aggregate : Multiset Event → ℚ}

theorem bucketValue_pos (haggregate : ∀ rows, Costly rows → ∀ e ∈ rows, 0 < aggregate rows)
    (h : Costly rows) {e : Event} (he : e ∈ rows) :
    0 < bucketValue day aggregate rows (day e) := by
  have hmem : e ∈ rows.filter (day · = day e) := Multiset.mem_filter.mpr ⟨he, rfl⟩
  rw [bucketValue, if_neg (Multiset.eq_zero_iff_forall_notMem.not.mpr fun hnot => hnot e hmem)]
  exact haggregate _ (fun e' he' => h e' (Multiset.mem_of_mem_filter he')) e hmem

theorem bucketValue_nonneg (haggregate : ∀ rows, Costly rows → ∀ e ∈ rows, 0 < aggregate rows)
    (h : Costly rows) (t : Time) : 0 ≤ bucketValue day aggregate rows t := by
  by_cases hempty : rows.filter (day · = t) = 0
  · rw [bucketValue, if_pos hempty]
  · obtain ⟨e, he⟩ := Multiset.exists_mem_of_ne_zero hempty
    obtain ⟨hrow, rfl⟩ := Multiset.mem_filter.mp he
    exact (bucketValue_pos haggregate h hrow).le

theorem columnValue_pos (haggregate : ∀ rows, Costly rows → ∀ e ∈ rows, 0 < aggregate rows)
    (h : Costly rows) {e : Event} (he : e ∈ rows) (cumulative : Bool) {series : List Time}
    (hseries : day e ∈ series) :
    0 < columnValue day aggregate cumulative series rows (day e) := by
  have hbucket : 0 < bucketValue day aggregate rows (day e) := bucketValue_pos haggregate h he
  rw [columnValue]
  split
  · refine hbucket.trans_le (List.single_le_sum (fun q hq => ?_) _ ?_)
    · obtain ⟨t, -, rfl⟩ := List.mem_map.mp hq
      exact bucketValue_nonneg haggregate h t
    · exact List.mem_map_of_mem (List.mem_filter.mpr ⟨hseries, by simp⟩)
  · exact hbucket

theorem columnValue_zero (cumulative : Bool) (series : List Time) (t : Time) :
    columnValue day aggregate cumulative series 0 t = 0 := by
  have hbucket : bucketValue day aggregate 0 = fun _ => 0 := by
    funext u
    rw [bucketValue, if_pos (Multiset.filter_zero _)]
  rw [columnValue, hbucket]
  simp

end Column

theorem metricColumn_ne {cal : Calendar} {request : MetricsRequest}
    {sessions : Multiset SessionRow} {m : SQLMetric} (hm : m ∈ metricsSql)
    (hevents : m.query = .events) (h : Costly rows) {e : Event} (he : e ∈ rows)
    (hbucket : dayColumn cal request e.timestamp ∈ timestampSeries cal request) :
    metricColumn cal request 0 sessions m (dayColumn cal request e.timestamp) ≠
      metricColumn cal request rows sessions m (dayColumn cal request e.timestamp) := by
  unfold metricColumn
  cases haggregate : m.sqlExpression with
  | fileShareSessions aggregate => simp [SQLMetric.query, haggregate] at hevents
  | events aggregate =>
    dsimp only
    rw [columnValue_zero]
    exact (columnValue_pos (fun _ hcostly _ => aggregate_pos hm haggregate hcostly) h he _
      hbucket).ne

end Positive

/-! ### A foreign event -/

section Foreign

/-- The database with a workspace and a customer in it, where they are missing. -/
def withTenant (db : Identity.Database) (w c : Uuid) : Identity.Database :=
  { db with
    workspaces := db.workspaces.insert { id := w }
    customers := db.customers.insert { id := c, workspaceId := w }
    customers_workspace := by
      intro r hr
      rcases Table.mem_insert hr with rfl | hr
      · exact Table.exists_key_insert db.workspaces { id := w }
      · exact db.customers_workspace.insert _ r hr
    members_customer := db.members_customer.insert _
    members_workspace := db.members_workspace.insert _
    workspaceAccessTokens_workspace := db.workspaceAccessTokens_workspace.insert _
    customerSessions_customer := db.customerSessions_customer.insert _ }

/-- The database whose only events, if any, are those of one customer in one workspace. -/
def withEvents (db : Database) (w c : Uuid) (events : Table Event.id)
    (h : ∀ e ∈ events, e.workspaceId = w ∧ e.customerId = some c) : Database :=
  { db with
    toDatabase := withTenant db.toDatabase w c
    events := events
    events_workspace := by
      intro e he
      rw [(h e he).1]
      exact Table.exists_key_insert db.workspaces { id := w }
    events_customer := by
      intro e he k hk
      rw [(h e he).2] at hk
      obtain rfl := Option.some_inj.mp hk
      exact Table.exists_key_insert db.customers { id := c, workspaceId := w } }

/-- An event of a customer that costs one unit. -/
def foreignEvent (w c : Uuid) (t : Time) : Event where
  id := 0
  workspaceId := w
  timestamp := t
  customerId := some c
  cost := some (some 1)

/-- The table of one event. -/
def onlyEvent (e : Event) : Table Event.id := ⟨[e], List.nodup_singleton _⟩

theorem mem_onlyEvent {e e' : Event} : e' ∈ onlyEvent e ↔ e' = e := List.mem_singleton

variable {cal : Calendar} {db : Database} {principal : Principal} {request : MetricsRequest}

/-- The database without events, where the foreign event is missing. -/
def withoutForeign (db : Database) (w c : Uuid) : Database :=
  withEvents db w c Table.empty fun _ he => absurd he List.not_mem_nil

/-- The database whose only event is the foreign one. -/
def withForeign (db : Database) (w c : Uuid) (t : Time) : Database :=
  withEvents db w c (onlyEvent (foreignEvent w c t)) fun _ he => by
    rw [mem_onlyEvent.mp he]
    exact ⟨rfl, rfl⟩

/-- The foreign event is invisible to a principal who may not read its workspace. -/
theorem agreeOn_foreign {p : Uuid → Prop} {w : Uuid} (hw : ¬p w) (c : Uuid) (t : Time) :
    AgreeOn p (withoutForeign db w c) (withForeign db w c t) where
  events e he := by
    refine iff_of_false List.not_mem_nil fun hmem => hw ?_
    rwa [mem_onlyEvent.mp hmem] at he
  customers _ _ := Iff.rfl
  sessions _ _ := Iff.rfl
  payments _ _ _ _ _ := Iff.rfl

theorem foreignEvent_mem_eventRows {ids : List Uuid} (hids : request.workspaceId = some ids)
    {w c : Uuid} (hw : w ∈ ids) (hc : Filtered request.customerId c) {t : Time}
    (hfrom : (bounds cal request).1 ≤ t) (hto : t ≤ (bounds cal request).2) :
    foreignEvent w c t ∈ eventRows cal (withForeign db w c t) principal request := by
  refine mem_eventRows.mpr ⟨mem_onlyEvent.mpr rfl, hfrom, hto, ?_, fun ids' hids' => ?_⟩
  · rw [InEventScope, hids]
    exact hw
  · obtain ⟨customer, hmem, hkey⟩ :=
      Table.exists_key_insert db.customers { id := c, workspaceId := w }
    refine ⟨customer, hmem, ?_, .inl ?_⟩
    · rw [hkey]
      exact hc ids' hids'
    · rw [hkey]
      rfl

/-- The foreign event is in the answer to a request whose filter names its workspace. -/
theorem getMetrics_foreign_ne {ids : List Uuid} (hids : request.workspaceId = some ids)
    {w c : Uuid} (hw : w ∈ ids) (hc : Filtered request.customerId c) {t : Time}
    (hfrom : (bounds cal request).1 ≤ t) (hto : t ≤ (bounds cal request).2)
    (hbucket : dayColumn cal request t ∈ timestampSeries cal request)
    (hneeds : NeedsEvents request) :
    getMetrics cal (withoutForeign db w c) principal request ≠
      getMetrics cal (withForeign db w c t) principal request := by
  obtain ⟨m, hm, hevents⟩ := hneeds
  have hrow : foreignEvent w c t ∈ eventRows cal (withForeign db w c t) principal request :=
    foreignEvent_mem_eventRows hids hw hc hfrom hto
  have hcostly : Costly (eventRows cal (withForeign db w c t) principal request) := by
    intro e he
    rw [mem_onlyEvent.mp (mem_eventRows.mp he).1]
    exact ⟨by norm_num [foreignEvent], nofun⟩
  have hnone : eventRows cal (withoutForeign db w c) principal request = 0 :=
    Multiset.eq_zero_iff_forall_notMem.mpr fun _ he =>
      absurd (mem_eventRows.mp he).1 List.not_mem_nil
  -- The sessions are those of the given database on both sides.
  have hsessions : sessionRows cal (withoutForeign db w c) principal request =
      sessionRows cal (withForeign db w c t) principal request := rfl
  rw [getMetrics, getMetrics, hnone, hsessions]
  exact metricsResponse_ne hm hevents hbucket
    (metricColumn_ne (filteredMetrics_subset hm) hevents hcostly hrow hbucket)

/-- The days of a month in UTC. -/
def dayCalendar : Calendar where
  startOfDay _ date := date.day * 86400000000
  endOfDay _ date := date.day * 86400000000 + 86399999999
  knowsTimezone _ := true
  dateTrunc _ _ t := t / 86400000000 * 86400000000
  generateSeries _ _ start stop :=
    (List.range ((stop - start) / 86400000000 + 1).toNat).map (start + · * 86400000000)

def twoWorkspaces : Database :=
  { Database.empty with
    workspaces := ⟨[{ id := 1 }, { id := 2 }], by decide⟩
    customers_workspace := by decide
    members_workspace := by decide
    workspaceAccessTokens_workspace := by decide
    events_workspace := by decide }

/-- The costs of workspace 2 on the first of January. -/
def foreignRequest : MetricsRequest where
  startDate := ⟨2026, 1, 1⟩
  endDate := ⟨2026, 1, 1⟩
  interval := .day
  workspaceId := some [2]
  metrics := some ["costs"]

/-- Workspace 1 is shown the costs of workspace 2. -/
theorem foreignCosts_shown :
    ¬Isolated dayCalendar twoWorkspaces (.workspace { id := 1 }) foreignRequest := by
  intro h
  have hread : ¬twoWorkspaces.Readable (.workspace { id := 1 }) 2 := by decide
  have hsame := h (withoutForeign twoWorkspaces 2 3) (withForeign twoWorkspaces 2 3 86400000000)
    (fun _ => Iff.rfl) (fun _ => Iff.rfl) (agreeOn_foreign hread 3 86400000000)
  have hids : foreignRequest.workspaceId = some [2] := rfl
  exact getMetrics_foreign_ne hids (List.mem_singleton.mpr rfl) (by decide) (by decide)
    (by decide) (by decide) (by decide) hsame

end Foreign

/-! ### The exact condition -/

/-- No bucket has events if the customer filter is empty or there is no bucket. -/
theorem filter_eventRows_eq_zero {cal : Calendar} {db : Database} {principal : Principal}
    {request : MetricsRequest} (h : request.customerId ≠ some [] → ¬HasBucket cal request)
    {t : Time} (ht : t ∈ timestampSeries cal request) :
    (eventRows cal db principal request).filter
      (fun e => dayColumn cal request e.timestamp = t) = 0 := by
  refine Multiset.eq_zero_iff_forall_notMem.mpr fun e he => ?_
  obtain ⟨hrow, rfl⟩ := Multiset.mem_filter.mp he
  obtain ⟨-, hfrom, hto, -, hcustomer⟩ := mem_eventRows.mp hrow
  refine h (fun hnil => ?_) ⟨e.timestamp, hfrom, hto, ht⟩
  obtain ⟨c, -, hc, -⟩ := hcustomer [] hnil
  exact absurd hc List.not_mem_nil

/-- A request is answered from readable workspaces alone unless its workspace filter names an
unreadable one, an event metric is computed for it, some customer meets its customer filter, and
an instant of its days falls into a bucket. -/
theorem isolated_iff (cal : Calendar) (db : Database) (principal : Principal)
    (request : MetricsRequest) :
    Isolated cal db principal request ↔
      (NamesUnreadable db principal request → NeedsEvents request →
        request.customerId ≠ some [] → ¬HasBucket cal request) := by
  constructor
  · rintro hisolated ⟨ids, hids, w, hw, hread⟩ hneeds hcustomer ⟨t, hfrom, hto, hbucket⟩
    obtain ⟨c, hc⟩ : ∃ c, Filtered request.customerId c := by
      cases hfilter : request.customerId with
      | none => exact ⟨0, nofun⟩
      | some cs =>
        cases cs with
        | nil => exact absurd hfilter hcustomer
        | cons c _ =>
          refine ⟨c, fun ids' hids' => ?_⟩
          rw [← Option.some_inj.mp hids']
          exact List.mem_cons_self ..
    have hsame : ∀ d : Database, d.memberships = db.memberships →
        SameReadable principal db d := by
      intro d hd w'
      unfold Database.Readable Identity.Database.MemberOf
      rw [hd]
    exact getMetrics_foreign_ne hids hw hc hfrom hto hbucket hneeds
      (hisolated (withoutForeign db w c) (withForeign db w c t) (hsame _ rfl) (hsame _ rfl)
        (agreeOn_foreign hread c t))
  · intro hcondition db₁ db₂ h₁ h₂ h
    rw [getMetrics, getMetrics, sessionRows_congr h₁ h₂ h]
    by_cases hscope : NamesUnreadable db principal request
    · refine metricsResponse_congr fun m hm t ht => ?_
      by_cases hevents : m.query = .events
      · -- Either no customer meets the filter, or no event falls into a bucket.
        refine metricColumn_congr (fun u hu => ?_) m ht
        rw [filter_eventRows_eq_zero (hcondition hscope ⟨m, hm, hevents⟩) hu,
          filter_eventRows_eq_zero (hcondition hscope ⟨m, hm, hevents⟩) hu]
      · exact metricColumn_of_ne hevents t
    · rw [eventRows_congr h₁ h₂ h hscope]

end Rapidly.Analytics
