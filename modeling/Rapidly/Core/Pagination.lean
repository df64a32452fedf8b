import Rapidly.Binary.Division
import Rapidly.Relational.Paging

/-!
# Pages of a list

`core/pagination.py` and `Repository.paginate` of `core/queries/base.py`. A page is cut out of an
execution of the statement, with the number of all rows in one more column of each of its rows; the
total is read from the last row of the page.

Of an execution it is known that it returns the rows of the statement in an order that the sorting
allows (`Relational.Answers`). Another page is another execution.

* `paginates_iff`: the pages partition the rows, and the requested page reports their numbers,
  exactly if the sorting keeps ties apart, the quotient is not rounded beyond an integer, and the
  page is not beyond the last one. There the page has no row to read the total from.
-/

namespace Rapidly.Core

open Relational Binary.Quotient

universe u

/-- `PaginationParams`, as `_parse_pagination_params` lets them pass: both are greater than zero. -/
structure PaginationParams where
  page : ℕ
  limit : ℕ
  page_pos : 0 < page
  limit_pos : 0 < limit

/-- `PageMeta` -/
structure PageMeta where
  total : ℕ
  page : ℕ
  perPage : ℕ
  pages : ℕ
deriving DecidableEq

/-- `PaginatedList` -/
structure PaginatedList (T : Type u) where
  data : List T
  pageMeta : PageMeta

variable {Row : Type u} [DecidableEq Row]

/-! ### `paginate` -/

/-- The rows of `statement.offset(offset).limit(limit).add_columns(over(func.count()))`. -/
def countedRows (result : List Row) (offset limit : ℕ) : List (Row × ℕ) :=
  ((result.map fun row => (row, result.length)).drop offset).take limit

/-- What both functions do with a row. -/
def collect (acc : List Row × ℕ) (row : Row × ℕ) : List Row × ℕ := (acc.1 ++ [row.1], row.2)

/-- `paginate`, of an execution that returns `result` -/
def paginate (result : List Row) (pagination : PaginationParams) : List Row × ℕ :=
  let offset := pagination.limit * (pagination.page - 1)
  let rows := firsts (countedRows result offset pagination.limit)
  if rows = [] then ([], 0)
  else rows.foldl collect ([], 0)

/-- `Repository.paginate` -/
def Repository.paginate (result : List Row) (limit page : ℕ) : List Row × ℕ :=
  let offset := (page - 1) * limit
  (firsts (countedRows result offset limit)).foldl collect ([], 0)

/-- `PaginatedList.from_paginated_results` -/
def fromPaginatedResults (items : List Row) (totalCount : ℕ) (pagination : PaginationParams) :
    PaginatedList Row where
  data := items
  pageMeta :=
    { total := totalCount
      page := pagination.page
      perPage := pagination.limit
      pages :=
        if pagination.limit ≠ 0 then ⌈toDouble ((totalCount : ℚ) / pagination.limit)⌉₊ else 0 }

/-- A list endpoint. -/
def list (result : List Row) (pagination : PaginationParams) : PaginatedList Row :=
  let (items, total) := paginate result pagination
  fromPaginatedResults items total pagination

/-! ### What a page reports -/

variable {le : Row → Row → Prop} {rows result : List Row} {limit k : ℕ}
  {pagination : PaginationParams}

omit [DecidableEq Row] in
theorem foldl_collect (rows items : List Row) (n total : ℕ) :
    (rows.map fun row => (row, n)).foldl collect (items, total) =
      (items ++ rows, if rows = [] then total else n) := by
  induction rows generalizing items total with
  | nil => simp
  | cons row rows ih =>
    rw [List.map_cons, List.foldl_cons, collect, ih]
    simp

omit [DecidableEq Row] in
theorem countedRows_eq (result : List Row) (limit k : ℕ) :
    countedRows result (k * limit) limit =
      (slice limit k result).map fun row => (row, result.length) := by
  rw [countedRows, slice, List.map_take, List.map_drop]

theorem firsts_countedRows (result : List Row) (limit k : ℕ) :
    firsts (countedRows result (k * limit) limit) =
      (firsts (slice limit k result)).map fun row => (row, result.length) := by
  rw [countedRows_eq, firsts_map fun row row' h => congrArg Prod.fst h]

/-- The total is that of the rows if there is a row on the page. -/
def reportedTotal (n limit k : ℕ) : ℕ := if n ≤ k * limit then 0 else n

theorem Repository.paginate_eq (hlimit : 0 < limit) (result : List Row) (page : ℕ) :
    Repository.paginate result limit page =
      (firsts (slice limit (page - 1) result), reportedTotal result.length limit (page - 1)) := by
  rw [Repository.paginate, firsts_countedRows, foldl_collect, List.nil_append]
  simp only [firsts_eq_nil_iff, slice_eq_nil_iff hlimit, reportedTotal]

/-- The two functions agree: without a row, the loop leaves what the other returns at once. -/
theorem paginate_eq (result : List Row) (pagination : PaginationParams) :
    paginate result pagination = Repository.paginate result pagination.limit pagination.page := by
  rw [paginate, Repository.paginate, Nat.mul_comm]
  split
  next h => rw [h, List.foldl_nil]
  next => rfl

theorem list_eq (result : List Row) (pagination : PaginationParams) :
    list result pagination =
      fromPaginatedResults (firsts (slice pagination.limit (pagination.page - 1) result))
        (reportedTotal result.length pagination.limit (pagination.page - 1)) pagination := by
  rw [list, paginate_eq, Repository.paginate_eq pagination.limit_pos]

theorem pageMeta_list (result : List Row) (pagination : PaginationParams) :
    let total := reportedTotal result.length pagination.limit (pagination.page - 1)
    (list result pagination).pageMeta =
      { total := total
        page := pagination.page
        perPage := pagination.limit
        pages := ⌈toDouble ((total : ℚ) / pagination.limit)⌉₊ } := by
  rw [list_eq, fromPaginatedResults, if_pos pagination.limit_pos.ne']

/-! ### The pages and the result -/

/-- `page` and `limit` of a request. -/
def pageOf (hlimit : 0 < limit) (k : ℕ) : PaginationParams := ⟨k + 1, limit, k.succ_pos, hlimit⟩

/-- The pages one after the other, as many as the first one reports. Each is one execution. -/
def concatenation (hlimit : 0 < limit) (execution : ℕ → List Row) : List Row :=
  let pages := (list (execution 0) (pageOf hlimit 0)).pageMeta.pages
  (List.range pages).flatMap fun k => (list (execution k) (pageOf hlimit k)).data

/-- The pages are the result, and the numbers that come with the requested page are right. -/
structure Paginates (le : Row → Row → Prop) (rows : List Row) (pagination : PaginationParams) :
    Prop where
  partition : ∀ execution, (∀ k, Answers le rows (execution k)) →
    Answers le rows (concatenation pagination.limit_pos execution)
  counts : ∀ result, Answers le rows result → (list result pagination).pageMeta =
    { total := rows.length
      page := pagination.page
      perPage := pagination.limit
      pages := ⌈(rows.length : ℚ) / pagination.limit⌉₊ }

theorem concatenation_eq (hlimit : 0 < limit) {execution : ℕ → List Row}
    (h : ∀ k, Answers le rows (execution k)) :
    concatenation hlimit execution =
      pages limit ⌈toDouble ((rows.length : ℚ) / limit)⌉₊ execution := by
  have htotal : reportedTotal (execution 0).length limit 0 = rows.length := by
    rw [reportedTotal, Nat.zero_mul, (h 0).perm.length_eq]
    split <;> omega
  have hpages : (list (execution 0) (pageOf hlimit 0)).pageMeta.pages =
      ⌈toDouble ((rows.length : ℚ) / limit)⌉₊ := by
    rw [pageMeta_list]
    simp only [pageOf, Nat.zero_add, Nat.sub_self, htotal]
  rw [concatenation, hpages, pages]
  exact List.flatMap_congr fun k _ => by rw [list_eq]; rfl

theorem le_ceil_iff (pagination : PaginationParams) (n : ℕ) :
    pagination.page ≤ ⌈(n : ℚ) / pagination.limit⌉₊ ↔
      ¬n ≤ (pagination.page - 1) * pagination.limit := by
  have hlimit : (0 : ℚ) < pagination.limit := by exact_mod_cast pagination.limit_pos
  have hpage := pagination.page_pos
  have hlt : pagination.page - 1 < ⌈(n : ℚ) / pagination.limit⌉₊ ↔
      (pagination.page - 1) * pagination.limit < n := by
    rw [Nat.lt_ceil, lt_div_iff₀ hlimit]
    exact_mod_cast Iff.rfl
  rw [Nat.not_le, ← hlt]
  omega

theorem length_le_ceil_mul (hlimit : 0 < limit) (n : ℕ) : n ≤ ⌈(n : ℚ) / limit⌉₊ * limit := by
  have hlimit' : (0 : ℚ) < limit := by exact_mod_cast hlimit
  have hle := (div_le_iff₀ hlimit').mp (Nat.le_ceil ((n : ℚ) / limit))
  exact_mod_cast hle

/-- The sorting keeps ties apart, the quotient of the numbers is not rounded beyond an integer, and
the page is one of the result. -/
theorem paginates_iff (total : ∀ a b, le a b ∨ le b a) (trans : ∀ a b c, le a b → le b c → le a c) :
    Paginates le rows pagination ↔
      (∀ result, Answers le rows result → TiesApart le pagination.limit result) ∧
      ⌈toDouble ((rows.length : ℚ) / pagination.limit)⌉₊ =
        ⌈(rows.length : ℚ) / pagination.limit⌉₊ ∧
      (rows = [] ∨ pagination.page ≤ ⌈(rows.length : ℚ) / pagination.limit⌉₊) := by
  classical
  have hrefl (a : Row) : le a a := (total a a).elim id id
  have hlimit := pagination.limit_pos
  have hanswers : ∃ result, Answers le rows result :=
    ⟨_, (Sorting.insertion le total trans).answers rows⟩
  have hpages := pages_perm_iff hrefl trans hlimit (length_le_ceil_mul hlimit rows.length) hanswers
  constructor
  · intro h
    obtain ⟨result, hresult⟩ := hanswers
    have hcounts := h.counts result hresult
    rw [pageMeta_list, PageMeta.mk.injEq, hresult.perm.length_eq] at hcounts
    obtain ⟨htotal, -, -, hceil⟩ := hcounts
    rw [htotal] at hceil
    refine ⟨hpages.mp fun execution hexecution => ?_, hceil, ?_⟩
    · have hpartition := h.partition execution hexecution
      rwa [concatenation_eq hlimit hexecution, hceil] at hpartition
    · rw [le_ceil_iff, ← List.length_eq_zero_iff]
      rw [reportedTotal] at htotal
      split at htotal
      next => exact .inl htotal.symm
      next hle => exact .inr hle
  · rintro ⟨hties, hceil, hpage⟩
    constructor
    · intro execution hexecution
      rw [concatenation_eq hlimit hexecution, hceil]
      exact hpages.mpr hties execution hexecution
    · intro result hresult
      have htotal : reportedTotal rows.length pagination.limit (pagination.page - 1) =
          rows.length := by
        rw [le_ceil_iff, ← List.length_eq_zero_iff] at hpage
        rw [reportedTotal]
        split
        next hle => exact (hpage.resolve_right (not_not.mpr hle)).symm
        next => rfl
      rw [pageMeta_list, hresult.perm.length_eq]
      simp only [htotal, hceil]

/-- The three rows 1, 2, 3 and the second page of two. -/
theorem paginates_secondPage :
    Paginates (· ≤ ·) [2, 1, 3] ⟨2, 2, by decide, by decide⟩ := by
  refine (paginates_iff Nat.le_total fun _ _ _ => Nat.le_trans).mpr ⟨fun result hresult => ?_, ?_⟩
  · exact .of_nodup (fun _ _ => Nat.le_antisymm) hresult.pairwise
      (hresult.perm.nodup_iff.mpr (by decide))
  · refine ⟨natCeil_toDouble_div two_pos (by decide), .inr ?_⟩
    rw [le_ceil_iff]
    decide

/-- The page beyond the last one reports that there are no rows. -/
theorem not_paginates_beyond : ¬Paginates (· ≤ ·) [7] ⟨2, 10, by decide, by decide⟩ := by
  intro h
  have hcounts := h.counts [7] ⟨List.pairwise_singleton _ _, .refl _⟩
  exact absurd (congrArg PageMeta.total hcounts) (by decide)

end Rapidly.Core
