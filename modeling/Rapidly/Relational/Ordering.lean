import Mathlib.Data.List.Sort

/-!
# Ordered queries

The order in which a database returns rows that compare equal is up to the database. A
`Sorting le` is what is known of an `ORDER BY`: the same rows, in an order that `le` allows. The
first row of a result comes before all others (`le_of_sort_eq_cons`). Rows are ordered by two
columns at most (`Lexicographic`).
-/

namespace Relational

universe u

/-- An `ORDER BY`. -/
structure Sorting {Row : Type u} (le : Row → Row → Prop) where
  sort : List Row → List Row
  perm : ∀ rows, (sort rows).Perm rows
  pairwise : ∀ rows, (sort rows).Pairwise le

namespace Sorting

variable {Row : Type u} {le : Row → Row → Prop} (s : Sorting le) {rows rest : List Row} {r r' : Row}

@[simp] theorem mem_sort : r ∈ s.sort rows ↔ r ∈ rows := (s.perm rows).mem_iff

@[simp] theorem length_sort (rows : List Row) : (s.sort rows).length = rows.length :=
  (s.perm rows).length_eq

theorem nodup_sort (h : rows.Nodup) : (s.sort rows).Nodup := (s.perm rows).nodup_iff.mpr h

theorem le_of_sort_eq_cons (hle : le r r) (h : s.sort rows = r :: rest) (hr' : r' ∈ rows) :
    le r r' := by
  have hpairwise := s.pairwise rows
  rw [h, List.pairwise_cons] at hpairwise
  rw [← s.mem_sort, h, List.mem_cons] at hr'
  obtain rfl | hr' := hr'
  · exact hle
  · exact hpairwise.1 r' hr'

/-- Rows that compare equal stay as they were. -/
def insertion (le : Row → Row → Prop) [DecidableRel le] (total : ∀ a b, le a b ∨ le b a)
    (trans : ∀ a b c, le a b → le b c → le a c) : Sorting le where
  sort rows := rows.insertionSort le
  perm rows := List.perm_insertionSort le rows
  pairwise rows :=
    have : Std.Total le := ⟨total⟩
    have : IsTrans Row le := ⟨trans⟩
    List.pairwise_insertionSort le rows

end Sorting

/-! ### Two columns -/

/-- `ORDER BY f, g` -/
def Lexicographic {Row : Type u} {α β : Type*} [LT α] [LE β] (f : Row → α) (g : Row → β)
    (r r' : Row) : Prop := f r < f r' ∨ f r = f r' ∧ g r ≤ g r'

section Lexicographic

variable {Row : Type u} {α β : Type*} [LinearOrder α] [LinearOrder β] {f : Row → α} {g : Row → β}

instance (f : Row → α) (g : Row → β) : DecidableRel (Lexicographic f g) :=
  fun _ _ => inferInstanceAs (Decidable (_ ∨ _))

theorem Lexicographic.total (r r' : Row) : Lexicographic f g r r' ∨ Lexicographic f g r' r := by
  obtain h | h | h := lt_trichotomy (f r) (f r')
  · exact .inl (.inl h)
  · obtain hle | hle := le_total (g r) (g r')
    · exact .inl (.inr ⟨h, hle⟩)
    · exact .inr (.inr ⟨h.symm, hle⟩)
  · exact .inr (.inl h)

theorem Lexicographic.trans (r r' r'' : Row) (h : Lexicographic f g r r')
    (h' : Lexicographic f g r' r'') : Lexicographic f g r r'' := by
  obtain hlt | ⟨heq, hle⟩ := h
  · obtain hlt' | ⟨heq', -⟩ := h'
    · exact .inl (hlt.trans hlt')
    · exact .inl (heq' ▸ hlt)
  · obtain hlt' | ⟨heq', hle'⟩ := h'
    · exact .inl (heq ▸ hlt')
    · exact .inr ⟨heq.trans heq', hle.trans hle'⟩

theorem Lexicographic.refl (r : Row) : Lexicographic f g r r := .inr ⟨rfl, le_rfl⟩

/-- A sorting that keeps the order of rows that compare equal. -/
def Sorting.stable (f : Row → α) (g : Row → β) : Sorting (Lexicographic f g) :=
  .insertion (Lexicographic f g) Lexicographic.total Lexicographic.trans

end Lexicographic

end Relational
