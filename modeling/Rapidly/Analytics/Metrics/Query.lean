import Rapidly.Analytics.Metrics.Registry

/-!
# Metrics queries

`get_metrics` of `analytics/metrics/actions.py` on top of the query builders of `queries.py`.

A request selects the rows of two tables (`eventRows`, `sessionRows`), groups them into the
buckets of a series of timestamps, and computes one value for each metric and timestamp. How
dates, time zones and truncation work is the business of Python's `zoneinfo` and of the
database: a `Calendar` stands for both.
-/

namespace Rapidly.Analytics

open Relational Identity FileSharing

/-! ### Time -/

/-- `TimeInterval`. -/
inductive TimeInterval where
  | year
  | month
  | week
  | day
  | hour
deriving DecidableEq

structure Date where
  year : ℕ
  month : ℕ
  day : ℕ
deriving DecidableEq

/-- Time zones and the time functions of the database, whose zone is the first argument. -/
structure Calendar where
  /-- The first instant of a day. -/
  startOfDay : String → Date → Time
  /-- The last instant of a day. -/
  endOfDay : String → Date → Time
  /-- The database knows the time zone. -/
  knowsTimezone : String → Bool
  /-- `date_trunc`. -/
  dateTrunc : String → TimeInterval → Time → Time
  /-- `generate_series`, whose timestamps are distinct and ascending. -/
  generateSeries : String → TimeInterval → Time → Time → List Time

/-- `configure_session_timezone`. -/
def Calendar.sessionTimezone (cal : Calendar) (timezone : String) : String :=
  if cal.knowsTimezone timezone then timezone else "UTC"

/-! ### Requests -/

/-- The tables the queries read. -/
structure Database extends Identity.Database where
  events : Table Event.id := Table.empty
  fileShareSessions : Table FileShareSession.id := Table.empty
  fileSharePayments : Table FileSharePayment.id := Table.empty
  events_workspace : events.References Event.workspaceId workspaces := by decide
  events_customer : events.ReferencesNullable Event.customerId customers := by decide
  fileSharePayments_session :
    fileSharePayments.References FileSharePayment.sessionId fileShareSessions := by decide

/-- The database without rows. -/
def Database.empty : Database := { toDatabase := Identity.Database.empty }

/-- The subjects a metrics request may have. -/
inductive Principal where
  | user (user : User)
  | workspace (workspace : Workspace)
deriving DecidableEq

structure MetricsRequest where
  startDate : Date
  endDate : Date
  timezone : String := "UTC"
  interval : TimeInterval
  workspaceId : Option (List Uuid) := none
  shareId : Option (List Uuid) := none
  customerId : Option (List Uuid) := none
  metrics : Option (List String) := none
deriving DecidableEq

/-- The filter names the value, or there is no filter. -/
def Filtered (ids : Option (List Uuid)) (id : Uuid) : Prop := ∀ ids' ∈ ids, id ∈ ids'

instance (ids : Option (List Uuid)) (id : Uuid) : Decidable (Filtered ids id) :=
  inferInstanceAs (Decidable (∀ ids' ∈ ids, _))

section Query

variable (cal : Calendar) (db : Database) (principal : Principal) (request : MetricsRequest)

/-- The workspaces the principal may read. -/
def Database.Readable (w : Uuid) : Prop :=
  match principal with
  | .user user => db.MemberOf user.id w
  | .workspace workspace => w = workspace.id

instance (w : Uuid) : Decidable (db.Readable principal w) := by
  unfold Database.Readable
  split <;> infer_instance

/-- The first and the last instant of the requested days. -/
def bounds : Time × Time :=
  (cal.startOfDay request.timezone request.startDate,
    cal.endOfDay request.timezone request.endDate)

/-- The timestamps of the response: from the start of the first month or year for those
intervals. -/
def timestampSeries : List Time :=
  let firstDay := match request.interval with
    | .month => { request.startDate with day := 1 }
    | .year => { request.startDate with month := 1, day := 1 }
    | _ => request.startDate
  cal.generateSeries (cal.sessionTimezone request.timezone) request.interval
    (cal.startOfDay request.timezone firstDay) (bounds cal request).2

/-- The bucket of an instant. -/
def dayColumn (t : Time) : Time :=
  cal.dateTrunc (cal.sessionTimezone request.timezone) request.interval t

/-! ### The rows of a query -/

/-- The workspace condition of `get_events_metrics_cte`: the filter if there is one, else what
the principal may read. -/
def InEventScope (w : Uuid) : Prop :=
  match request.workspaceId with
  | some ids => w ∈ ids
  | none => db.Readable principal w

instance (w : Uuid) : Decidable (InEventScope db principal request w) := by
  rw [InEventScope]
  split <;> infer_instance

/-- The join condition of the customer filter. -/
def OfCustomer (e : Event) (c : Customer) : Prop :=
  e.customerId = some c.id ∨
    c.externalId ≠ none ∧ e.externalCustomerId = c.externalId ∧ e.workspaceId = c.workspaceId

instance (e : Event) (c : Customer) : Decidable (OfCustomer e c) :=
  inferInstanceAs (Decidable (_ ∨ _))

/-- The events that `get_events_metrics_cte` aggregates. -/
def eventRows : Multiset Event :=
  let selected := db.events.select fun e =>
    (bounds cal request).1 ≤ e.timestamp ∧ e.timestamp ≤ (bounds cal request).2 ∧
      InEventScope db principal request e.workspaceId
  match request.customerId with
  | none => selected
  | some ids => (join selected (db.customers.select (·.id ∈ ids)) OfCustomer).map Prod.fst

/-- `_get_readable_file_share_sessions_statement`: what the principal may read, narrowed by the
filter. -/
def readableFileShareSessions : List Uuid :=
  (db.fileShareSessions.select fun s => ∃ w ∈ s.workspaceId,
    db.Readable principal w ∧ Filtered request.workspaceId w).map FileShareSession.id

/-- The sessions that `get_file_share_sessions_metrics_cte` aggregates, with the payments its
correlated subqueries read. -/
def sessionRows : Multiset SessionRow :=
  let selected := db.fileShareSessions.select fun s =>
    s.id ∈ readableFileShareSessions db principal request ∧
      (bounds cal request).1 ≤ s.createdAt ∧ s.createdAt ≤ (bounds cal request).2
  (selected : Multiset FileShareSession).map fun s =>
    { session := s, payments := db.fileSharePayments.select (·.sessionId = s.id) }

end Query

/-! ### Which metrics are computed -/

/-- The slugs that `_expand_metrics_with_dependencies` has collected. -/
structure Expansion where
  sqlMetricSlugs : List String := []
  metaMetricSlugs : List String := []
  visited : List String := []

/-- `resolve_dependencies`. A meta metric is visited once, so the depth is bounded by their
number. -/
def resolveDependencies : ℕ → Expansion → String → Expansion
  | 0, x, _ => x
  | depth + 1, x, slug =>
    if slug ∈ x.visited then x
    else if slug ∈ metricsSql.map (·.slug) then
      { x with sqlMetricSlugs := slug :: x.sqlMetricSlugs, visited := slug :: x.visited }
    else
      match metricsPostCompute.find? (·.slug = slug) with
      | none => { x with visited := slug :: x.visited }
      | some m => m.dependencies.foldl (resolveDependencies depth)
          { x with metaMetricSlugs := slug :: x.metaMetricSlugs, visited := slug :: x.visited }

/-- `_expand_metrics_with_dependencies`. -/
def expandMetricsWithDependencies (slugs : List String) : Expansion :=
  slugs.foldl (fun x slug =>
    resolveDependencies (metricsPostCompute.length + 1) { x with visited := [] } slug) {}

/-- The SQL metrics behind a requested slug: the metric itself, or what the meta metric depends
on. -/
def sqlMetricsOf (slug : String) : List String :=
  if slug ∈ metricsSql.map (·.slug) then [slug]
  else if slug = "cashflow" then ["costs", "file_share_revenue"]
  else []

theorem resolveDependencies_eq (x : Expansion) (slug : String) :
    let y := resolveDependencies (metricsPostCompute.length + 1) { x with visited := [] } slug
    y.sqlMetricSlugs = sqlMetricsOf slug ++ x.sqlMetricSlugs ∧
      y.metaMetricSlugs = (if slug = "cashflow" then ["cashflow"] else []) ++
        x.metaMetricSlugs := by
  rw [sqlMetricsOf, resolveDependencies]
  by_cases hsql : slug ∈ metricsSql.map (·.slug)
  · have hne : slug ≠ "cashflow" := by
      rintro rfl
      exact absurd hsql (by decide)
    simp [hsql, hne]
  · by_cases hmeta : slug = "cashflow"
    · subst hmeta
      exact ⟨rfl, rfl⟩
    · have hfind : metricsPostCompute.find? (·.slug = slug) = none := by
        simpa [metricsPostCompute, cashflowMetric, Metric.summed, eq_comm] using hmeta
      simp [hsql, hmeta, hfind]

theorem mem_sqlMetricSlugs {slugs : List String} {s : String} :
    s ∈ (expandMetricsWithDependencies slugs).sqlMetricSlugs ↔
      ∃ slug ∈ slugs, s ∈ sqlMetricsOf slug := by
  have hfold : ∀ (slugs : List String) (x : Expansion),
      s ∈ (slugs.foldl (fun x slug => resolveDependencies (metricsPostCompute.length + 1)
        { x with visited := [] } slug) x).sqlMetricSlugs ↔
        s ∈ x.sqlMetricSlugs ∨ ∃ slug ∈ slugs, s ∈ sqlMetricsOf slug := by
    intro slugs
    induction slugs with
    | nil => simp
    | cons slug slugs ih =>
      intro x
      rw [List.foldl_cons, ih, (resolveDependencies_eq x slug).1, List.mem_append]
      simp only [List.mem_cons, exists_eq_or_imp]
      tauto
  rw [expandMetricsWithDependencies, hfold]
  simp

theorem mem_metaMetricSlugs {slugs : List String} (h : "cashflow" ∈ slugs) :
    "cashflow" ∈ (expandMetricsWithDependencies slugs).metaMetricSlugs := by
  have hfold : ∀ (slugs : List String) (x : Expansion),
      "cashflow" ∈ x.metaMetricSlugs ∨ "cashflow" ∈ slugs →
        "cashflow" ∈ (slugs.foldl (fun x slug => resolveDependencies
          (metricsPostCompute.length + 1) { x with visited := [] } slug) x).metaMetricSlugs := by
    intro slugs
    induction slugs with
    | nil => simp
    | cons slug slugs ih =>
      intro x hx
      rw [List.foldl_cons]
      refine ih _ ?_
      rw [(resolveDependencies_eq x slug).2, List.mem_append]
      rcases hx with hx | hx
      · exact .inl (.inr hx)
      · rcases List.mem_cons.mp hx with rfl | hx
        · exact .inl (.inl (by simp))
        · exact .inr hx
  exact hfold slugs {} (.inr h)

/-- `_get_filtered_metrics`. -/
def filteredMetrics : Option (List String) → List SQLMetric
  | none => metricsSql
  | some slugs =>
    metricsSql.filter (·.slug ∈ (expandMetricsWithDependencies slugs).sqlMetricSlugs)

/-- `_get_filtered_queries` of `_get_required_queries`: all queries when none is required. -/
def filteredQueries (slugs : Option (List String)) : List MetricQuery :=
  let required := match slugs with
    | none => []
    | some _ => (filteredMetrics slugs).map SQLMetric.query
  if required = [] then [.events, .fileShareSessions]
  else [.events, .fileShareSessions].filter (· ∈ required)

/-- `_get_filtered_post_compute_metrics`. -/
def filteredPostComputeMetrics : Option (List String) → List MetaMetric
  | none => metricsPostCompute
  | some slugs =>
    metricsPostCompute.filter (·.slug ∈ (expandMetricsWithDependencies slugs).metaMetricSlugs)

/-- `_get_filtered_all_metrics`. -/
def filteredAllMetrics : Option (List String) → List Metric
  | none => metrics
  | some slugs => metrics.filter (·.slug ∈ slugs)

/-- The slugs that a response shows. -/
def requestedSlugs : Option (List String) → List String
  | none | some [] => metrics.map Metric.slug
  | some slugs => slugs

/-! ### The response -/

/-- The metrics whose columns accumulate over the series. -/
def cumulativeMetrics : List String :=
  ["cumulative_costs", "cumulative_file_share_platform_fees",
    "cumulative_file_share_sessions", "cumulative_file_share_downloads"]

section Columns

variable {Row : Type} [DecidableEq Row] (day : Row → Time) (aggregate : Multiset Row → ℚ)

/-- The aggregate of a bucket, zero for an empty one. -/
def bucketValue (rows : Multiset Row) (t : Time) : ℚ :=
  if rows.filter (day · = t) = 0 then 0 else aggregate (rows.filter (day · = t))

/-- The value of a column at a timestamp of the series. -/
def columnValue (cumulative : Bool) (series : List Time) (rows : Multiset Row) (t : Time) : ℚ :=
  if cumulative then ((series.filter (· ≤ t)).map (bucketValue day aggregate rows)).sum
  else bucketValue day aggregate rows t

end Columns

section Response

variable (cal : Calendar) (request : MetricsRequest) (events : Multiset Event)
  (sessions : Multiset SessionRow)

/-- The column of a metric. -/
def metricColumn (m : SQLMetric) (t : Time) : ℚ :=
  let cumulative : Bool := m.slug ∈ cumulativeMetrics
  let series := timestampSeries cal request
  match m.sqlExpression with
  | .events aggregate =>
    columnValue (fun e => dayColumn cal request e.timestamp) aggregate cumulative series events t
  | .fileShareSessions aggregate =>
    columnValue (fun r => dayColumn cal request r.session.createdAt) aggregate cumulative
      series sessions t

/-- The columns of the metrics statement: those of each query that runs. -/
def selectedColumns : List SQLMetric :=
  (filteredQueries request.metrics).flatMap fun query =>
    (filteredMetrics request.metrics).filter (·.query = query)

/-- A row of the metrics statement. -/
def periodDict (t : Time) (slug : String) : Option ℚ :=
  ((selectedColumns request).find? (·.slug = slug)).map
    fun m => metricColumn cal request events sessions m t

/-- Compute the meta metrics one after the other, each from the values so far and zeros. -/
def computeMetaMetrics (t : Time) (metas : List MetaMetric) (dict : String → Option ℚ) :
    String → Option ℚ :=
  let temp := metas.foldl
    (fun (temp : String → Option ℚ) m => Function.update temp m.slug (some 0)) dict
  let computed := metas.foldl
    (fun (acc : (String → Option ℚ) × (String → Option ℚ)) m =>
      let value := some (m.computeFromPeriod { timestamp := t, values := acc.1 })
      (Function.update acc.1 m.slug value, Function.update acc.2 m.slug value)) (temp, dict)
  computed.2

/-- A period of the response. -/
def period (t : Time) : MetricsPeriod where
  timestamp := t
  values slug :=
    if slug ∈ requestedSlugs request.metrics then
      computeMetaMetrics t (filteredPostComputeMetrics request.metrics)
        (periodDict cal request events sessions t) slug
    else none

structure MetricsResponse where
  periods : List MetricsPeriod
  totals : List (String × ℚ)
  /-- Slug, display name and type of each metric. -/
  metrics : List (String × String × MetricType)

/-- The response to a request, from the rows of its two queries; `none` where a total
raises. -/
def metricsResponse : Option MetricsResponse := do
  let periods := (timestampSeries cal request).map (period cal request events sessions)
  let totals ← (filteredAllMetrics request.metrics).mapM fun m =>
    (m.getCumulative periods).map (m.slug, ·)
  some
    { periods, totals,
      metrics := (filteredAllMetrics request.metrics).map
        fun m => (m.slug, m.displayName, m.type) }

end Response

/-- `get_metrics`. -/
def getMetrics (cal : Calendar) (db : Database) (principal : Principal)
    (request : MetricsRequest) : Option MetricsResponse :=
  metricsResponse cal request (eventRows cal db principal request)
    (sessionRows cal db principal request)

end Rapidly.Analytics
