import Mathlib.Algebra.BigOperators.Group.Multiset.Basic
import Mathlib.Data.Multiset.Dedup
import Mathlib.Data.Multiset.Filter
import Mathlib.Data.Rat.Floor
import Rapidly.FileSharing.Schema

/-!
# The metrics of the dashboard

The registry of `analytics/metrics/metrics.py`. An SQL metric aggregates the rows of one time
bucket; a query sees a table as a collection of rows without order, so an aggregate is a
function of a multiset. A meta metric is computed from the other values of a period.

Amounts are exact rationals where the database computes with `numeric` and double precision.
-/

namespace Rapidly.Analytics

open Identity FileSharing

/-! ### Rows -/

/-- A telemetry event. -/
structure Event where
  id : Uuid
  workspaceId : Uuid
  timestamp : Time
  customerId : Option Uuid := none
  externalCustomerId : Option String := none
  /-- The `_cost` object of the metadata, if there is one, and its amount. -/
  cost : Option (Option ℚ) := none
deriving DecidableEq

/-- A file-share session with its payments. -/
structure SessionRow where
  session : FileShareSession
  payments : Multiset FileSharePayment
deriving DecidableEq

/-! ### Periods -/

/-- `MetricsPeriod`: a value, or none, for each slug. -/
structure MetricsPeriod where
  timestamp : Time
  values : String → Option ℚ

/-- `getattr(p, slug) or 0`. -/
def MetricsPeriod.getD (p : MetricsPeriod) (slug : String) : ℚ := (p.values slug).getD 0

/-- `cumulative_sum`. -/
def cumulativeSum (periods : List MetricsPeriod) (slug : String) : ℚ :=
  (periods.map (·.getD slug)).sum

/-- `cumulative_last`, which raises on an empty list. -/
def cumulativeLast (periods : List MetricsPeriod) (slug : String) : Option ℚ :=
  periods.getLast?.map (·.getD slug)

/-! ### Metrics -/

/-- `MetricType`. -/
inductive MetricType where
  | scalar
  | currency
  | currencySubCent
  | percentage
deriving DecidableEq

structure Metric where
  slug : String
  displayName : String
  type : MetricType
  /-- `get_cumulative`, `none` where it raises. -/
  getCumulative : List MetricsPeriod → Option ℚ

/-- `MetricQuery`. -/
inductive MetricQuery where
  | events
  | fileShareSessions
deriving DecidableEq

/-- `get_sql_expression`, after the `coalesce` of the query: the aggregate of a bucket. -/
inductive SQLExpression where
  | events (aggregate : Multiset Event → ℚ)
  | fileShareSessions (aggregate : Multiset SessionRow → ℚ)

structure SQLMetric extends Metric where
  sqlExpression : SQLExpression

/-- `SQLMetric.query`. -/
def SQLMetric.query (m : SQLMetric) : MetricQuery :=
  match m.sqlExpression with
  | .events _ => .events
  | .fileShareSessions _ => .fileShareSessions

structure MetaMetric extends Metric where
  dependencies : List String
  computeFromPeriod : MetricsPeriod → ℚ

/-- A metric whose total is the sum of its periods. -/
def Metric.summed (slug displayName : String) (type : MetricType) : Metric :=
  { slug, displayName, type, getCumulative := fun periods => some (cumulativeSum periods slug) }

/-- A metric whose total is its last period. -/
def Metric.latest (slug displayName : String) (type : MetricType) : Metric :=
  { slug, displayName, type, getCumulative := fun periods => cumulativeLast periods slug }

/-! ### Cost and users -/

/-- `SUM` of the cost amounts. -/
def totalCosts (rows : Multiset Event) : ℚ := (rows.filterMap fun e => e.cost.join).sum

/-- The distinct customers, by either identifier. -/
def activeUsers (rows : Multiset Event) : ℕ :=
  (rows.filterMap Event.customerId).dedup.card +
    (rows.filterMap Event.externalCustomerId).dedup.card

def costsMetric : SQLMetric where
  toMetric := .summed "costs" "Costs" .currencySubCent
  sqlExpression := .events totalCosts

def cumulativeCostsMetric : SQLMetric where
  toMetric := .latest "cumulative_costs" "Cumulative Costs" .currencySubCent
  sqlExpression := .events totalCosts

/-- `int(x)`, which truncates towards zero. -/
def toInt (q : ℚ) : ℚ := q.num.tdiv q.den

def activeUserMetric : SQLMetric where
  slug := "active_user_by_event"
  displayName := "Active User (By event)"
  type := .scalar
  getCumulative periods := (cumulativeLast periods "active_user_by_event").map toInt
  sqlExpression := .events fun rows => activeUsers rows

def costPerUserMetric : SQLMetric where
  slug := "cost_per_user"
  displayName := "Cost Per User"
  type := .currencySubCent
  getCumulative periods := do
    let totalActiveUsers ← cumulativeLast periods "active_user_by_event"
    some (if totalActiveUsers > 0 then cumulativeSum periods "costs" / totalActiveUsers else 0)
  sqlExpression := .events fun rows =>
    if activeUsers rows = 0 then 0
    else (rows.map fun e => e.cost.join.getD 0).sum / activeUsers rows

/-! ### File-share sessions -/

/-- `COUNT` of the sessions with a property. -/
def countSessions (rows : Multiset SessionRow) (p : FileShareSession → Bool) : ℕ :=
  (rows.filter fun r => p r.session).card

/-- `SUM` of the downloads. -/
def totalDownloads (rows : Multiset SessionRow) : ℤ :=
  (rows.map fun r => r.session.downloadCount).sum

/-- The completed payments of a session. -/
def SessionRow.completed (r : SessionRow) : Multiset FileSharePayment :=
  r.payments.filter fun p => p.status = .completed

/-- `SUM` of a column of the completed payments. -/
def totalPayments (column : FileSharePayment → ℤ) (rows : Multiset SessionRow) : ℤ :=
  (rows.map fun r => (r.completed.map column).sum).sum

def fileShareSessionsMetric : SQLMetric where
  toMetric := .summed "file_share_sessions" "File Share Sessions" .scalar
  sqlExpression := .fileShareSessions fun rows => rows.card

def fileShareDownloadsMetric : SQLMetric where
  toMetric := .summed "file_share_downloads" "File Share Downloads" .scalar
  sqlExpression := .fileShareSessions fun rows => totalDownloads rows

def fileShareFreeSessionsMetric : SQLMetric where
  toMetric := .summed "file_share_free_sessions" "Free File Shares" .scalar
  sqlExpression := .fileShareSessions fun rows => countSessions rows (·.priceCents.isNone)

def fileShareActiveSessionsMetric : SQLMetric where
  toMetric := .latest "file_share_active_sessions" "Active Sessions" .scalar
  sqlExpression := .fileShareSessions fun rows => countSessions rows (·.status = .active)

def fileShareCompletedSessionsMetric : SQLMetric where
  toMetric := .summed "file_share_completed_sessions" "Completed Sessions" .scalar
  sqlExpression := .fileShareSessions fun rows => countSessions rows (·.status = .completed)

def fileShareExpiredSessionsMetric : SQLMetric where
  toMetric := .summed "file_share_expired_sessions" "Expired Sessions" .scalar
  sqlExpression := .fileShareSessions fun rows => countSessions rows (·.status = .expired)

def fileShareAvgDownloadsMetric : SQLMetric where
  slug := "file_share_avg_downloads"
  displayName := "Avg Downloads Per Share"
  type := .scalar
  getCumulative periods :=
    let totalSessions := cumulativeSum periods "file_share_sessions"
    some (if totalSessions > 0 then cumulativeSum periods "file_share_downloads" / totalSessions
      else 0)
  sqlExpression := .fileShareSessions fun rows =>
    if rows.card = 0 then 0 else totalDownloads rows / rows.card

def fileShareTotalSizeBytesMetric : SQLMetric where
  toMetric := .summed "file_share_total_size_bytes" "Total Data Shared (bytes)" .scalar
  sqlExpression := .fileShareSessions fun rows =>
    ((rows.filterMap fun r => r.session.fileSizeBytes).sum : ℤ)

def cumulativeFileShareSessionsMetric : SQLMetric where
  toMetric := .latest "cumulative_file_share_sessions" "Cumulative File Shares" .scalar
  sqlExpression := fileShareSessionsMetric.sqlExpression

def cumulativeFileShareDownloadsMetric : SQLMetric where
  toMetric := .latest "cumulative_file_share_downloads" "Cumulative Downloads" .scalar
  sqlExpression := fileShareDownloadsMetric.sqlExpression

/-! ### Revenue and payments -/

def fileShareRevenueMetric : SQLMetric where
  toMetric := .summed "file_share_revenue" "File Share Revenue" .currency
  sqlExpression := .fileShareSessions fun rows =>
    totalPayments FileSharePayment.amountCents rows

def fileSharePaidSessionsMetric : SQLMetric where
  toMetric := .summed "file_share_paid_sessions" "Paid File Shares" .scalar
  sqlExpression := .fileShareSessions fun rows => countSessions rows (·.priceCents.isSome)

def fileShareAvgPriceMetric : SQLMetric where
  slug := "file_share_avg_price"
  displayName := "Average Share Price"
  type := .currency
  getCumulative periods :=
    let totalPaid := cumulativeSum periods "file_share_paid_sessions"
    some (if totalPaid > 0 then cumulativeSum periods "file_share_revenue" / totalPaid else 0)
  sqlExpression := .fileShareSessions fun rows =>
    let prices := rows.filterMap fun r => r.session.priceCents
    if prices.card = 0 then 0 else (⌈(prices.sum : ℚ) / prices.card⌉ : ℤ)

def fileSharePaymentConversionMetric : SQLMetric where
  toMetric := .latest "file_share_payment_conversion" "Payment Conversion Rate" .percentage
  sqlExpression := .fileShareSessions fun rows =>
    let paidSessions := countSessions rows (·.priceCents.isSome)
    if paidSessions = 0 then 0
    else ((rows.filter fun r => 0 < r.completed.card).card : ℚ) / paidSessions

def fileSharePlatformFeesMetric : SQLMetric where
  toMetric := .summed "file_share_platform_fees" "File Share Platform Fees" .currency
  sqlExpression := .fileShareSessions fun rows =>
    totalPayments FileSharePayment.platformFeeCents rows

def cumulativeFileSharePlatformFeesMetric : SQLMetric where
  toMetric := .latest "cumulative_file_share_platform_fees"
    "Cumulative File Share Platform Fees" .currency
  sqlExpression := fileSharePlatformFeesMetric.sqlExpression

/-! ### Meta metrics and the registries -/

def cashflowMetric : MetaMetric where
  toMetric := .summed "cashflow" "Cashflow" .currency
  dependencies := ["file_share_revenue", "costs"]
  computeFromPeriod period := period.getD "file_share_revenue" - period.getD "costs"

/-- `METRICS_SQL`. -/
def metricsSql : List SQLMetric :=
  [costsMetric, cumulativeCostsMetric, costPerUserMetric, activeUserMetric,
    fileShareSessionsMetric, fileShareDownloadsMetric, fileShareFreeSessionsMetric,
    fileShareActiveSessionsMetric, fileShareCompletedSessionsMetric,
    fileShareExpiredSessionsMetric, fileShareAvgDownloadsMetric,
    fileShareTotalSizeBytesMetric, cumulativeFileShareSessionsMetric,
    cumulativeFileShareDownloadsMetric, fileShareRevenueMetric, fileSharePaidSessionsMetric,
    fileShareAvgPriceMetric, fileSharePaymentConversionMetric, fileSharePlatformFeesMetric,
    cumulativeFileSharePlatformFeesMetric]

/-- `METRICS_POST_COMPUTE`. -/
def metricsPostCompute : List MetaMetric := [cashflowMetric]

/-- `METRICS`. -/
def metrics : List Metric :=
  metricsSql.map SQLMetric.toMetric ++ metricsPostCompute.map MetaMetric.toMetric

theorem isSome_getCumulative {m : Metric} (hm : m ∈ metrics) {periods : List MetricsPeriod}
    (hperiods : periods ≠ []) : (m.getCumulative periods).isSome := by
  have hlast : ∀ slug, (cumulativeLast periods slug).isSome := by
    intro slug
    simpa [cumulativeLast] using hperiods
  have hactive := Option.isSome_iff_exists.mp (hlast "active_user_by_event")
  obtain ⟨users, husers⟩ := hactive
  simp only [metrics, metricsSql, metricsPostCompute, List.map_cons, List.map_nil,
    List.cons_append, List.nil_append, List.mem_cons, List.not_mem_nil, or_false] at hm
  rcases hm with rfl | rfl | rfl | rfl | rfl | rfl | rfl | rfl | rfl | rfl | rfl | rfl | rfl |
    rfl | rfl | rfl | rfl | rfl | rfl | rfl | rfl
  all_goals first
    | rfl
    | exact hlast _
    | simp [costPerUserMetric, activeUserMetric, husers]

end Rapidly.Analytics
