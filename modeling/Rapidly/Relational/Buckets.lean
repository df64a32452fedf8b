import Mathlib.Algebra.BigOperators.Group.Multiset.Basic
import Mathlib.Algebra.GroupWithZero.Nat
import Mathlib.Data.Multiset.Count

/-!
# Rows counted in buckets

A query that groups rows into buckets and reports on a series of buckets counts a row once for each
time that its bucket is in the series (`sum_count_bucket`). If every row is counted once, the
buckets of the series make up the rows (`sum_bucket_of_once`), and an aggregate that adds up
(`IsAdditive`) has the sum of its buckets for its value on all rows (`IsAdditive.sum_bucket`).
-/

namespace Relational

variable {Row Bucket M : Type*} [DecidableEq Bucket]

/-- The rows of a bucket. -/
def bucket (of : Row → Bucket) (rows : Multiset Row) (t : Bucket) : Multiset Row :=
  rows.filter (of · = t)

variable {of : Row → Bucket} {series : List Bucket} {rows : Multiset Row}

theorem sum_count_bucket [DecidableEq Row] (of : Row → Bucket) (series : List Bucket)
    (rows : Multiset Row) (r : Row) :
    (series.map fun t => (bucket of rows t).count r).sum =
      series.count (of r) * rows.count r := by
  induction series with
  | nil => simp
  | cons t series ih =>
    rw [List.map_cons, List.sum_cons, ih, List.count_cons, bucket, Multiset.count_filter]
    by_cases h : of r = t
    · rw [if_pos h, if_pos (beq_iff_eq.mpr h.symm), Nat.add_mul, Nat.one_mul, Nat.add_comm]
    · rw [if_neg h, if_neg fun heq => h (beq_iff_eq.mp heq).symm, Nat.zero_add, Nat.add_zero]

/-- A row is counted in one bucket, and once, exactly if its bucket is in the series once and the
row is there once. -/
theorem sum_count_bucket_eq_one_iff [DecidableEq Row] {r : Row} :
    (series.map fun t => (bucket of rows t).count r).sum = 1 ↔
      series.count (of r) = 1 ∧ rows.count r = 1 := by
  rw [sum_count_bucket]
  constructor
  · intro h
    exact ⟨Nat.eq_one_of_mul_eq_one_right h, Nat.eq_one_of_mul_eq_one_left h⟩
  · rintro ⟨h, h'⟩
    rw [h, h']

/-- If the bucket of every row is in the series once, the buckets make up the rows. -/
theorem sum_bucket_of_once [DecidableEq Row] (h : ∀ r ∈ rows, series.count (of r) = 1) :
    (series.map (bucket of rows)).sum = rows := by
  have hcount : ∀ (l : List (Multiset Row)) (r : Row), l.sum.count r = (l.map (·.count r)).sum := by
    intro l r
    induction l with
    | nil => exact Multiset.count_zero r
    | cons s l ih => rw [List.sum_cons, Multiset.count_add, ih, List.map_cons, List.sum_cons]
  ext r
  rw [hcount, List.map_map]
  refine (sum_count_bucket of series rows r).trans ?_
  by_cases hr : r ∈ rows
  · rw [h r hr, Nat.one_mul]
  · rw [Multiset.count_eq_zero_of_notMem hr, Nat.mul_zero]

/-! ### Aggregates that add up -/

/-- The aggregate of two collections together is the sum of their aggregates. -/
structure IsAdditive [AddMonoid M] (aggregate : Multiset Row → M) : Prop where
  zero : aggregate 0 = 0
  add : ∀ s t, aggregate (s + t) = aggregate s + aggregate t

theorem IsAdditive.list_sum [AddMonoid M] {aggregate : Multiset Row → M}
    (h : IsAdditive aggregate) (l : List (Multiset Row)) :
    aggregate l.sum = (l.map aggregate).sum := by
  induction l with
  | nil => exact h.zero
  | cons s l ih => rw [List.sum_cons, h.add, ih, List.map_cons, List.sum_cons]

/-- An aggregate that adds up is the sum of the buckets, if every row is counted once. -/
theorem IsAdditive.sum_bucket [DecidableEq Row] [AddMonoid M] {aggregate : Multiset Row → M}
    (hadd : IsAdditive aggregate) (h : ∀ r ∈ rows, series.count (of r) = 1) :
    (series.map fun t => aggregate (bucket of rows t)).sum = aggregate rows := by
  have hsum := hadd.list_sum (series.map (bucket of rows))
  rw [sum_bucket_of_once h, List.map_map] at hsum
  exact hsum.symm

end Relational
