import Mathlib.Algebra.Order.BigOperators.Group.List
import Mathlib.Algebra.Order.Ring.Nat
import Mathlib.Data.List.Dedup
import Mathlib.Data.Multiset.Count
import Rapidly.Relational.Ordering

/-!
# Pages of an ordered query

A result is read page by page, and each page is cut out of an execution of its own. Rows that the
ordering leaves tied may change places between two executions. Where the cut does not part tied
rows that differ, what stands in front of it is the same in every execution (`take_perm_take`), so
that each page has the rows that it has in any other execution (`slice_perm`).

* `pages_perm_iff`: the pages, with repeated rows left out of each, together are the result exactly
  if tied rows are different on one page, and the same on two (`TiesApart`).
-/

namespace Relational

universe u

variable {Row : Type u} {le : Row → Row → Prop} {limit k : ℕ} {l l' rows : List Row}

/-- The rows in an order that `le` allows: what an execution may return. -/
structure Answers (le : Row → Row → Prop) (rows l : List Row) : Prop where
  pairwise : l.Pairwise le
  perm : l.Perm rows

theorem Sorting.answers (s : Sorting le) (rows : List Row) : Answers le rows (s.sort rows) :=
  ⟨s.pairwise rows, s.perm rows⟩

/-! ### Pages -/

/-- A page, counted from zero. -/
def slice (limit k : ℕ) (l : List Row) : List Row := (l.drop (k * limit)).take limit

theorem take_append_slice (limit k : ℕ) (l : List Row) :
    l.take (k * limit) ++ slice limit k l = l.take ((k + 1) * limit) := by
  rw [slice, Nat.add_mul, Nat.one_mul, List.take_add]

theorem flatMap_slice (limit : ℕ) (l : List Row) (n : ℕ) :
    ((List.range n).flatMap fun k => slice limit k l) = l.take (n * limit) := by
  induction n with
  | zero => simp
  | succ n ih =>
    rw [List.range_succ, List.flatMap_append, ih, List.flatMap_singleton, take_append_slice]

theorem getElem?_slice {i : ℕ} (hi : i < limit) :
    (slice limit k l)[i]? = l[k * limit + i]? := by
  rw [slice, List.getElem?_take_of_lt hi, List.getElem?_drop]

theorem getElem?_slice_div {i : ℕ} (hlimit : 0 < limit) :
    (slice limit (i / limit) l)[i % limit]? = l[i]? := by
  rw [getElem?_slice (Nat.mod_lt i hlimit), Nat.div_add_mod']

theorem slice_eq_nil_iff (hlimit : 0 < limit) : slice limit k l = [] ↔ l.length ≤ k * limit := by
  rw [slice, List.take_eq_nil_iff, List.drop_eq_nil_iff]
  exact or_iff_right hlimit.ne'

/-! ### Repeated rows -/

section Firsts

variable [DecidableEq Row] {r : Row}

/-- The rows that do not occur before. -/
def firsts (l : List Row) : List Row := l.reverse.dedup.reverse

@[simp] theorem mem_firsts : r ∈ firsts l ↔ r ∈ l := by
  rw [firsts, List.mem_reverse, List.mem_dedup, List.mem_reverse]

theorem firsts_sublist (l : List Row) : (firsts l).Sublist l := by
  rw [firsts, ← List.sublist_reverse_iff]
  exact List.dedup_sublist l.reverse

theorem firsts_eq_self_iff : firsts l = l ↔ l.Nodup := by
  rw [firsts, List.reverse_eq_iff, List.dedup_eq_self, List.nodup_reverse]

@[simp] theorem firsts_eq_nil_iff : firsts l = [] ↔ l = [] := by
  rw [firsts, List.reverse_eq_nil_iff, List.dedup_eq_nil, List.reverse_eq_nil_iff]

theorem length_firsts_lt (h : ¬l.Nodup) : (firsts l).length < l.length :=
  lt_of_le_of_ne (firsts_sublist l).length_le fun heq =>
    h (firsts_eq_self_iff.mp ((firsts_sublist l).eq_of_length heq))

theorem firsts_map {α : Type*} [DecidableEq α] {f : α → Row} (hf : Function.Injective f)
    (l : List α) : firsts (l.map f) = (firsts l).map f := by
  rw [firsts, firsts, ← List.map_reverse, List.dedup_map_of_injective hf, List.map_reverse]

end Firsts

/-! ### Ties -/

/-- Of two rows that compare equal, those on one page are different, and those on two pages are
the same. -/
def TiesApart (le : Row → Row → Prop) (limit : ℕ) (l : List Row) : Prop :=
  ∀ i j a b, i < j → l[i]? = some a → l[j]? = some b → le b a → (a = b ↔ i / limit ≠ j / limit)

theorem TiesApart.of_nodup (hantisymm : ∀ a b, le a b → le b a → a = b) (h : l.Pairwise le)
    (hnodup : l.Nodup) : TiesApart le limit l := by
  intro i j a b hij ha hb hle
  obtain ⟨hi, rfl⟩ := List.getElem?_eq_some_iff.mp ha
  obtain ⟨hj, rfl⟩ := List.getElem?_eq_some_iff.mp hb
  have heq := hantisymm _ _ (List.pairwise_iff_getElem.mp h i j hi hj hij) hle
  exact absurd (hnodup.getElem_inj_iff.mp heq) hij.ne

theorem take_perm_take [DecidableEq Row] (h' : l'.Pairwise le) (hperm : l'.Perm l) {m : ℕ}
    (hties : ∀ a ∈ l.take m, ∀ b ∈ l.drop m, le b a → a = b) :
    (l'.take m).Perm (l.take m) := by
  have hcount (x : Row) : (l'.take m).count x + (l'.drop m).count x =
      (l.take m).count x + (l.drop m).count x := by
    rw [← List.count_append, ← List.count_append, List.take_append_drop, List.take_append_drop,
      hperm.count_eq]
  have hlength : (l'.take m).length = (l.take m).length := by
    rw [List.length_take, List.length_take, hperm.length_eq]
  rw [← List.take_append_drop m l', List.pairwise_append] at h'
  by_contra hdiffer
  -- a row that is in front more often in the one, and a row in the other
  obtain ⟨x, hx⟩ : ∃ x, (l'.take m).count x < (l.take m).count x := by
    by_contra hnone
    push Not at hnone
    refine hdiffer (Multiset.coe_eq_coe.mp (Multiset.eq_of_le_of_card_le ?_ ?_)).symm
    · exact Multiset.le_iff_count.mpr fun x => by simpa using hnone x
    · simp [hlength]
  obtain ⟨y, hy⟩ : ∃ y, (l.take m).count y < (l'.take m).count y := by
    by_contra hnone
    push Not at hnone
    refine hdiffer (Multiset.coe_eq_coe.mp (Multiset.eq_of_le_of_card_le ?_ ?_))
    · exact Multiset.le_iff_count.mpr fun y => by simpa using hnone y
    · simp [hlength]
  have hxfront : x ∈ l.take m := List.count_pos_iff.mp (by omega)
  have hxback : x ∈ l'.drop m := List.count_pos_iff.mp (by have := hcount x; omega)
  have hyfront : y ∈ l'.take m := List.count_pos_iff.mp (by omega)
  have hyback : y ∈ l.drop m := List.count_pos_iff.mp (by have := hcount y; omega)
  have hsame : x = y := hties x hxfront y hyback (h'.2.2 y hyfront x hxback)
  rw [hsame] at hx
  omega

theorem TiesApart.eq_of_le (h : TiesApart le limit l) (hlimit : 0 < limit) {a b : Row}
    (ha : a ∈ l.take (k * limit)) (hb : b ∈ l.drop (k * limit)) (hle : le b a) : a = b := by
  obtain ⟨i, hi⟩ := List.getElem?_of_mem ha
  obtain ⟨j, hj⟩ := List.getElem?_of_mem hb
  have hik : i < k * limit := by
    have := (List.getElem?_eq_some_iff.mp hi).1
    rw [List.length_take] at this
    omega
  rw [List.getElem?_take_of_lt hik] at hi
  rw [List.getElem?_drop] at hj
  refine (h i (k * limit + j) a b (by omega) hi hj hle).mpr ?_
  have hpage : i / limit < k := (Nat.div_lt_iff_lt_mul hlimit).mpr hik
  have hpage' : k ≤ (k * limit + j) / limit :=
    (Nat.le_div_iff_mul_le hlimit).mpr (Nat.le_add_right _ _)
  omega

theorem TiesApart.nodup_slice (h : TiesApart le limit l) (hlimit : 0 < limit)
    (hrefl : ∀ r, le r r) (k : ℕ) : (slice limit k l).Nodup := by
  rw [List.nodup_iff_getElem?_ne_getElem?]
  intro i j hij hj heq
  have hlt : j < limit := by
    rw [slice, List.length_take] at hj
    omega
  rw [getElem?_slice (hij.trans hlt), getElem?_slice hlt] at heq
  rw [slice, List.length_take, List.length_drop] at hj
  obtain ⟨b, hb⟩ : ∃ b, l[k * limit + j]? = some b :=
    ⟨_, List.getElem?_eq_getElem (by omega)⟩
  refine (h (k * limit + i) (k * limit + j) b b (by omega) (heq.trans hb) hb (hrefl b)).mp rfl ?_
  rw [Nat.mul_comm, Nat.mul_add_div hlimit, Nat.mul_add_div hlimit,
    Nat.div_eq_of_lt (hij.trans hlt), Nat.div_eq_of_lt hlt]

/-- A row stands at one place of a page without repeated rows. -/
theorem eq_mod_of_getElem?_slice {i m : ℕ} {a : Row} (hlimit : 0 < limit)
    (hnodup : (slice limit (i / limit) l).Nodup) (ha : l[i]? = some a)
    (hm : (slice limit (i / limit) l)[m]? = some a) : i % limit = m := by
  have hplace : (slice limit (i / limit) l)[i % limit]? = some a := by
    rw [getElem?_slice_div hlimit, ha]
  exact (List.getElem?_inj (List.getElem?_eq_some_iff.mp hplace).1 hnodup).mp
    (hplace.trans hm.symm)

/-- A page of one execution has the rows that it has in another. -/
theorem TiesApart.slice_perm [DecidableEq Row] (hties : TiesApart le limit l) (hlimit : 0 < limit)
    (hl' : Answers le l l') (k : ℕ) : (slice limit k l').Perm (slice limit k l) := by
  have hfront (m : ℕ) : (l'.take (m * limit)).Perm (l.take (m * limit)) :=
    take_perm_take hl'.pairwise hl'.perm fun a ha b hb => hties.eq_of_le hlimit ha hb
  refine (List.perm_append_left_iff (l.take (k * limit))).mp ?_
  calc l.take (k * limit) ++ slice limit k l'
      |>.Perm (l'.take (k * limit) ++ slice limit k l') := (hfront k).symm.append_right _
    _ |>.Perm (l.take (k * limit) ++ slice limit k l) := by
      rw [take_append_slice, take_append_slice]
      exact hfront (k + 1)

/-- Two rows that compare equal may stand in each other's place. -/
theorem Answers.swap (hrefl : ∀ r, le r r) (htrans : ∀ a b c, le a b → le b c → le a c)
    (h : Answers le rows l) {i j : ℕ} {a b : Row} (hij : i < j) (ha : l[i]? = some a)
    (hb : l[j]? = some b) (hle : le b a) : Answers le rows ((l.set i b).set j a) := by
  obtain ⟨hi, rfl⟩ := List.getElem?_eq_some_iff.mp ha
  obtain ⟨hj, rfl⟩ := List.getElem?_eq_some_iff.mp hb
  have hpairwise := List.pairwise_iff_getElem.mp h.pairwise
  refine ⟨?_, (List.set_set_perm hi hj).trans h.perm⟩
  -- each row compares equal to the one in whose place it stands
  have hequal (p : ℕ) (hp : p < l.length) (hp' : p < ((l.set i l[j]).set j l[i]).length) :
      le ((l.set i l[j]).set j l[i])[p] l[p] ∧ le l[p] ((l.set i l[j]).set j l[i])[p] := by
    rw [List.getElem_set]
    split
    next heq =>
      subst heq
      exact ⟨hpairwise i j hi hj hij, hle⟩
    next =>
      rw [List.getElem_set]
      split
      next heq =>
        subst heq
        exact ⟨hle, hpairwise i j hi hj hij⟩
      next => exact ⟨hrefl _, hrefl _⟩
  rw [List.pairwise_iff_getElem]
  intro p q hp hq hpq
  have hp' : p < l.length := by simpa using hp
  have hq' : q < l.length := by simpa using hq
  exact htrans _ _ _ (hequal p hp' hp).1
    (htrans _ _ _ (hpairwise p q hp' hq' hpq) (hequal q hq' hq).2)

theorem not_mem_slice_swap {i j : ℕ} {a b : Row} (hlimit : 0 < limit) (ha : l[i]? = some a)
    (hne : a ≠ b) (hpages : i / limit ≠ j / limit) (hnodup : (slice limit (i / limit) l).Nodup) :
    a ∉ slice limit (i / limit) ((l.set i b).set j a) := by
  intro hmem
  obtain ⟨m, hm⟩ := List.getElem?_of_mem hmem
  have hlt : m < limit := by
    have hlt := (List.getElem?_eq_some_iff.mp hm).1
    rw [slice, List.length_take] at hlt
    omega
  have hmpage : (i / limit * limit + m) / limit = i / limit := by
    rw [Nat.mul_comm, Nat.mul_add_div hlimit, Nat.div_eq_of_lt hlt, Nat.add_zero]
  have hjne : j ≠ i / limit * limit + m := by
    rintro rfl
    exact hpages hmpage.symm
  rw [getElem?_slice hlt, List.getElem?_set_ne hjne] at hm
  by_cases him : i = i / limit * limit + m
  · rw [← him, List.getElem?_set_self (List.getElem?_eq_some_iff.mp ha).1] at hm
    exact hne (Option.some.inj hm).symm
  · rw [List.getElem?_set_ne him, ← getElem?_slice hlt] at hm
    have hmod := eq_mod_of_getElem?_slice hlimit hnodup ha hm
    have hdiv := Nat.div_add_mod' i limit
    omega

/-! ### The pages of several executions -/

section Pages

variable [DecidableEq Row] {n : ℕ}

/-- The first pages, each of an execution of its own and without repeated rows. -/
def pages (limit n : ℕ) (execution : ℕ → List Row) : List Row :=
  (List.range n).flatMap fun k => firsts (slice limit k (execution k))

theorem TiesApart.pages_eq (hties : TiesApart le limit l) (hlimit : 0 < limit)
    (hrefl : ∀ r, le r r) {execution : ℕ → List Row} (h : ∀ k, Answers le l (execution k)) (n : ℕ) :
    pages limit n execution = (List.range n).flatMap fun k => slice limit k (execution k) :=
  List.flatMap_congr fun k _ => firsts_eq_self_iff.mpr <|
    (hties.slice_perm hlimit (h k) k).nodup_iff.mpr (hties.nodup_slice hlimit hrefl k)

/-- The pages are the rows of one execution, in an order that `le` allows. -/
theorem TiesApart.answers_pages (hties : TiesApart le limit l) (hlimit : 0 < limit)
    (hrefl : ∀ r, le r r) (hl : l.Pairwise le) {execution : ℕ → List Row}
    (h : ∀ k, Answers le l (execution k)) (n : ℕ) :
    Answers le (l.take (n * limit)) (pages limit n execution) := by
  rw [hties.pages_eq hlimit hrefl h, ← flatMap_slice]
  constructor
  · have hsorted : ((List.range n).flatMap fun k => slice limit k l).Pairwise le := by
      rw [flatMap_slice]
      exact hl.sublist (List.take_sublist _ _)
    rw [List.pairwise_flatMap] at hsorted ⊢
    refine ⟨fun k _ => ?_, hsorted.2.imp fun {k m} hbefore a ha b hb => ?_⟩
    · exact (h k).pairwise.sublist ((List.take_sublist _ _).trans (List.drop_sublist _ _))
    · exact hbefore a ((hties.slice_perm hlimit (h k) k).mem_iff.mp ha)
        b ((hties.slice_perm hlimit (h m) m).mem_iff.mp hb)
  · exact List.Perm.flatMap_left _ fun k _ => hties.slice_perm hlimit (h k) k

/-- No page of the rows repeats a row if the pages together are the rows. -/
theorem nodup_slice_of_pages_perm (hn : l.length ≤ n * limit)
    (h : (pages limit n fun _ => l).Perm l) (hk : k < n) : (slice limit k l).Nodup := by
  by_contra hrepeated
  have hlength := h.length_eq
  rw [pages, List.length_flatMap] at hlength
  have hlt : ((List.range n).map fun k => (firsts (slice limit k l)).length).sum <
      ((List.range n).map fun k => (slice limit k l).length).sum :=
    List.sum_lt_sum _ _ (fun k _ => (firsts_sublist _).length_le)
      ⟨k, List.mem_range.mpr hk, length_firsts_lt hrepeated⟩
  rw [hlength, ← List.length_flatMap, flatMap_slice, List.take_of_length_le hn] at hlt
  exact lt_irrefl _ hlt

theorem tiesApart_of_pages_perm (hrefl : ∀ r, le r r)
    (htrans : ∀ a b c, le a b → le b c → le a c) (hlimit : 0 < limit)
    (hn : rows.length ≤ n * limit)
    (h : ∀ execution, (∀ k, Answers le rows (execution k)) → (pages limit n execution).Perm rows)
    (hl : Answers le rows l) : TiesApart le limit l := by
  have hself : (pages limit n fun _ => l).Perm rows := h (fun _ => l) fun _ => hl
  have hn' : l.length ≤ n * limit := by rwa [hl.perm.length_eq]
  intro i j a b hij ha hb hle
  have hi := (List.getElem?_eq_some_iff.mp ha).1
  have hpage : i / limit < n := Nat.div_lt_of_lt_mul (by rw [Nat.mul_comm]; omega)
  have hnodup := nodup_slice_of_pages_perm hn' (hself.trans hl.perm.symm) hpage
  constructor
  · rintro rfl heq
    have hmod := eq_mod_of_getElem?_slice hlimit hnodup ha
      (show (slice limit (i / limit) l)[j % limit]? = some a by
        rw [heq, getElem?_slice_div hlimit, hb])
    have hdiv := Nat.div_add_mod i limit
    rw [heq, hmod, Nat.div_add_mod] at hdiv
    omega
  · intro hpages
    by_contra hne
    -- the execution of this page alone has the two rows in each other's place
    set swapped := (l.set i b).set j a
    have hswapped := h (fun k => if k = i / limit then swapped else l) fun k => by
      split
      · exact hl.swap hrefl htrans hij ha hb hle
      · exact hl
    have hgone : (firsts (slice limit (i / limit) swapped)).count a = 0 :=
      List.count_eq_zero_of_not_mem
        (mem_firsts.not.mpr (not_mem_slice_swap hlimit ha hne hpages hnodup))
    have hcount := (hswapped.trans hself.symm).count_eq a
    rw [pages, pages, List.count_flatMap, List.count_flatMap] at hcount
    refine hcount.not_lt (List.sum_lt_sum _ _ (fun k _ => ?_)
      ⟨i / limit, List.mem_range.mpr hpage, ?_⟩)
    · simp only [Function.comp_apply]
      split
      next heq =>
        rw [heq, hgone]
        exact Nat.zero_le _
      next => exact le_rfl
    · simp only [Function.comp_apply, if_true]
      rw [hgone]
      refine List.count_pos_iff.mpr (mem_firsts.mpr ?_)
      exact List.mem_of_getElem? ((getElem?_slice_div hlimit).trans ha)

theorem pages_perm_iff (hrefl : ∀ r, le r r) (htrans : ∀ a b c, le a b → le b c → le a c)
    (hlimit : 0 < limit) (hn : rows.length ≤ n * limit) (hrows : ∃ l, Answers le rows l) :
    (∀ execution, (∀ k, Answers le rows (execution k)) →
      Answers le rows (pages limit n execution)) ↔
      ∀ l, Answers le rows l → TiesApart le limit l := by
  constructor
  · exact fun h l => tiesApart_of_pages_perm hrefl htrans hlimit hn fun execution hexecution =>
      (h execution hexecution).perm
  · intro h execution hexecution
    obtain ⟨l, hl⟩ := hrows
    have hpages := (h l hl).answers_pages hlimit hrefl hl.pairwise
      (fun k => ⟨(hexecution k).pairwise, (hexecution k).perm.trans hl.perm.symm⟩) n
    rw [List.take_of_length_le (hl.perm.length_eq.trans_le hn)] at hpages
    exact ⟨hpages.pairwise, hpages.perm.trans hl.perm⟩

end Pages

end Relational
