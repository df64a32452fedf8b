import Rapidly.Analytics.Events.Steps

/-!
# Sorting a batch of events

`_topological_sort_events` of `analytics/event/actions.py` for any batch, against what the parent
references say: each one names the last event of the batch that has this id (`ResolvesTo`).

The function takes a reference that is the empty text for none, although an event may have the
empty text as its external id and `_resolve_parent` finds it under this id. It treats such an event
like one without a parent. These come first in the result, in the order of the batch
(`prefix_of_kahn_eq_some`), which says exactly when no harm is done.

* `sorts_iff`: the sort keeps its promises exactly if every event with an empty reference comes
  after an event without a parent, or there is a cycle anyway.
-/

namespace Rapidly.Analytics.Ingestion

open KeyValue Graph

section Sorting

variable {α : Type} (links : α → Links) (events : List α)

/-! ### References -/

/-- The reference names the last event that has it as an id, which is at the index. -/
structure Names (ref : Ref) (p : ℕ) : Prop where
  named : ∃ e ∈ events[p]?, ref ∈ (links e).refs
  last : ∀ q > p, ∀ e ∈ events[q]?, ref ∉ (links e).refs

/-- The event at an index has the reference to a parent, and this is the event at the other. -/
structure Resolves (ref : Ref) (i p : ℕ) : Prop where
  has : ∃ e ∈ events[i]?, (links e).parentId = some ref
  names : Names links events ref p

/-- The parent of an event, among the events. -/
def ResolvesTo (i p : ℕ) : Prop := ∃ ref, Resolves links events ref i p

/-- The parent of an event, unless the reference is empty. -/
def ResolvesNonempty (i p : ℕ) : Prop := ∃ ref, ref.truthy ∧ Resolves links events ref i p

/-- `sorted_indices`, once all events are sorted. -/
def sortedIndices : Option (List ℕ) := kahn events.length (parentIndex links events)

/-- The sort raises the error exactly on a cycle, and otherwise returns the events, each of them
after its parent. Events that look alike are told apart by their indices. -/
structure Sorts : Prop where
  raises : topologicalSort links events = .error .circularDependency ↔
    ¬Acyclic (ResolvesTo links events)
  returns : Acyclic (ResolvesTo links events) → ∃ order, sortedIndices links events = some order ∧
    order.Perm (List.range events.length) ∧
    (∀ i p, ResolvesTo links events i p → order.idxOf p < order.idxOf i) ∧
    ∃ sorted, topologicalSort links events = .ok sorted ∧
      sorted = order.filterMap (events[·]?) ∧ sorted.Perm events

/-- An event with an empty reference comes after the event this names, which has no parent; in a
batch with a cycle it need not. -/
def EmptyReferencesBehind : Prop :=
  Acyclic (ResolvesNonempty links events) → ∀ i p, Resolves links events (.text "") i p →
    p < i ∧ ∀ q, ¬ResolvesTo links events p q

variable {links events} {ref : Ref} {i p q : ℕ}

theorem Names.unique (hp : Names links events ref p) (hq : Names links events ref q) : p = q := by
  obtain ⟨e, he, href⟩ := hp.named
  obtain ⟨e', he', href'⟩ := hq.named
  rcases Nat.lt_trichotomy p q with hlt | heq | hgt
  · exact absurd href' (hp.last q hlt e' he')
  · exact heq
  · exact absurd href (hq.last p hgt e he)

theorem Names.lt (hp : Names links events ref p) : p < events.length := by
  obtain ⟨e, he, -⟩ := hp.named
  exact (List.getElem?_eq_some_iff.mp he).1

theorem names_concat {e : α} : Names links (events ++ [e]) ref p ↔
    ref ∈ (links e).refs ∧ p = events.length ∨
      ref ∉ (links e).refs ∧ Names links events ref p := by
  have hnew : (events ++ [e])[events.length]? = some e := List.getElem?_concat_length
  have hold {j : ℕ} (hj : j < events.length) : (events ++ [e])[j]? = events[j]? :=
    List.getElem?_append_left hj
  constructor
  · intro h
    have hlt := h.lt
    rw [List.length_append, List.length_singleton] at hlt
    by_cases href : ref ∈ (links e).refs
    · refine .inl ⟨href, ?_⟩
      by_contra hne
      exact h.last events.length (by omega) e hnew href
    · refine .inr ⟨href, ?_⟩
      obtain ⟨e', he', href'⟩ := h.named
      have hp : p < events.length := by
        rcases Nat.lt_succ_iff_lt_or_eq.mp hlt with hp | rfl
        · exact hp
        · obtain rfl := Option.some_inj.mp (he'.symm.trans hnew)
          exact absurd href' href
      rw [Option.mem_def, hold hp] at he'
      refine ⟨⟨e', he', href'⟩, fun q hq e'' he'' => h.last q hq e'' ?_⟩
      rw [Option.mem_def, hold (List.getElem?_eq_some_iff.mp he'').1]
      exact he''
  · rintro (⟨href, rfl⟩ | ⟨href, h⟩)
    · refine ⟨⟨e, hnew, href⟩, fun q hq e' he' => ?_⟩
      have hlt := (List.getElem?_eq_some_iff.mp he').1
      rw [List.length_append, List.length_singleton] at hlt
      omega
    · obtain ⟨e', he', href'⟩ := h.named
      refine ⟨⟨e', (hold h.lt).trans he', href'⟩, fun q hq e'' he'' => ?_⟩
      rw [Option.mem_def, List.getElem?_append] at he''
      split at he''
      · exact h.last q hq e'' he''
      · obtain rfl := List.mem_singleton.mp (List.mem_of_getElem? he'')
        exact href

theorem find_idToIndex : find (idToIndex links events) ref = some p ↔ Names links events ref p := by
  induction events using List.reverseRecOn generalizing p with
  | nil =>
    refine iff_of_false (by simp [idToIndex, ofEntries]) fun h => ?_
    exact Nat.not_lt_zero p h.lt
  | append_singleton events e ih =>
    rw [idToIndex, List.zipIdx_append, List.flatMap_append, find_ofEntries_append, ← idToIndex,
      names_concat]
    simp only [List.zipIdx_singleton, List.flatMap_singleton, find_ofEntries_map, Nat.zero_add]
    split
    case isTrue href =>
      rw [Option.some_or, Option.some_inj]
      simp [href, eq_comm]
    case isFalse href =>
      rw [Option.none_or, ih]
      simp [href]

theorem parentIndex_eq_some_iff :
    parentIndex links events i = some p ↔ ResolvesNonempty links events i p := by
  rw [parentIndex, Option.bind_eq_some_iff]
  constructor
  · rintro ⟨e, he, hparent⟩
    obtain ⟨ref, href, hfind⟩ := Option.bind_eq_some_iff.mp hparent
    split at hfind
    next htruthy => exact ⟨ref, htruthy, ⟨e, he, href⟩, find_idToIndex.mp hfind⟩
    next => cases hfind
  · rintro ⟨ref, htruthy, ⟨e, he, href⟩, hnames⟩
    refine ⟨e, he, ?_⟩
    rw [href, Option.bind_some, if_pos htruthy]
    exact find_idToIndex.mpr hnames

theorem ref_eq_empty_of_not_truthy (h : ¬ref.truthy) : ref = .text "" := by
  cases ref with
  | id id => exact absurd rfl h
  | text s => exact congrArg Ref.text (by simpa [Ref.truthy] using h)

theorem Resolves.ref_unique {ref' : Ref} (h : Resolves links events ref i p)
    (h' : Resolves links events ref' i q) : ref = ref' := by
  obtain ⟨e, he, href⟩ := h.has
  obtain ⟨e', he', href'⟩ := h'.has
  obtain rfl := Option.some_inj.mp (he.symm.trans he')
  exact Option.some_inj.mp (href.symm.trans href')

theorem ResolvesNonempty.resolvesTo (h : ResolvesNonempty links events i p) :
    ResolvesTo links events i p := h.imp fun _ => And.right

theorem resolvesTo_iff : ResolvesTo links events i p ↔
    ResolvesNonempty links events i p ∨ Resolves links events (.text "") i p := by
  constructor
  · rintro ⟨ref, h⟩
    by_cases htruthy : ref.truthy
    · exact .inl ⟨ref, htruthy, h⟩
    · exact .inr (ref_eq_empty_of_not_truthy htruthy ▸ h)
  · rintro (h | h)
    · exact h.resolvesTo
    · exact ⟨_, h⟩

theorem Resolves.parentIndex_eq_none (h : Resolves links events (.text "") i p) :
    parentIndex links events i = none := by
  refine Option.eq_none_iff_forall_ne_some.mpr fun q hq => ?_
  obtain ⟨ref, htruthy, href⟩ := parentIndex_eq_some_iff.mp hq
  rw [href.ref_unique h] at htruthy
  exact absurd htruthy (by decide)

/-! ### The result -/

theorem lt_of_parentIndex (h : parentIndex links events i = some p) :
    i < events.length ∧ p < events.length := by
  obtain ⟨ref, -, href⟩ := parentIndex_eq_some_iff.mp h
  obtain ⟨e, he, -⟩ := href.has
  exact ⟨(List.getElem?_eq_some_iff.mp he).1, href.names.lt⟩

theorem sortedIndices_eq_none_iff :
    sortedIndices links events = none ↔ ¬Acyclic (ResolvesNonempty links events) := by
  have hparent : (fun i p => parentIndex links events i = some p) =
      ResolvesNonempty links events := by
    funext i p
    exact propext parentIndex_eq_some_iff
  rw [sortedIndices, kahn_eq_none_iff fun c p => lt_of_parentIndex, hparent]

variable {order : List ℕ}

theorem ResolvesNonempty.idxOf_lt (h : ResolvesNonempty links events i p)
    (horder : sortedIndices links events = some order) : order.idxOf p < order.idxOf i := by
  obtain ⟨hperm, hfirst⟩ := kahn_eq_some horder
  have hparent := parentIndex_eq_some_iff.mpr h
  have hi : i ∈ order := hperm.mem_iff.mpr (List.mem_range.mpr (lt_of_parentIndex hparent).1)
  exact hfirst.idxOf_lt hi hparent (Set.notMem_empty p)

/-- The event that an empty reference names comes first in the result exactly if it has no parent
itself and comes first in the batch. -/
theorem Resolves.idxOf_lt_iff (h : Resolves links events (.text "") i p)
    (horder : sortedIndices links events = some order) :
    order.idxOf p < order.idxOf i ↔ p < i ∧ parentIndex links events p = none := by
  obtain ⟨e, he, -⟩ := h.has
  have hi : i < events.length := (List.getElem?_eq_some_iff.mp he).1
  obtain ⟨rest, rfl⟩ := prefix_of_kahn_eq_some horder
  set roots := (List.range events.length).filter fun c => parentIndex links events c = none
    with hroots
  have hmem {c : ℕ} : c ∈ roots ↔ c < events.length ∧ parentIndex links events c = none := by
    rw [hroots, List.mem_filter, List.mem_range, decide_eq_true_iff]
  have hiroot : i ∈ roots := hmem.mpr ⟨hi, h.parentIndex_eq_none⟩
  rw [List.idxOf_append_of_mem hiroot]
  by_cases hp : parentIndex links events p = none
  · have hproot : p ∈ roots := hmem.mpr ⟨h.names.lt, hp⟩
    have hsorted : roots.Pairwise (· < ·) := List.pairwise_lt_range.filter _
    rw [List.idxOf_append_of_mem hproot, and_iff_left hp]
    exact idxOf_lt_idxOf_iff hsorted hproot hiroot
  · have hproot : p ∉ roots := fun hmem' => hp (hmem.mp hmem').2
    refine iff_of_false (fun hlt => ?_) fun hand => hp hand.2
    rw [List.idxOf_append_of_notMem hproot] at hlt
    have := List.idxOf_lt_length_iff.mpr hiroot
    omega

/-- **Sorting a batch.** -/
theorem sorts_iff (links : α → Links) (events : List α) :
    Sorts links events ↔ EmptyReferencesBehind links events := by
  have hmono : Acyclic (ResolvesTo links events) → Acyclic (ResolvesNonempty links events) :=
    fun h => h.mono fun _ _ => ResolvesNonempty.resolvesTo
  rcases horder : sortedIndices links events with _ | order
  · -- there is a cycle, and the error is raised
    have hcycle := sortedIndices_eq_none_iff.mp horder
    have herror : topologicalSort links events = .error .circularDependency := by
      rw [topologicalSort, ← sortedIndices, horder]
    refine iff_of_true ⟨?_, fun h => absurd (hmono h) hcycle⟩ fun h => absurd h hcycle
    exact iff_of_true herror fun h => hcycle (hmono h)
  have hacyclic : Acyclic (ResolvesNonempty links events) := by
    by_contra hcycle
    rw [sortedIndices_eq_none_iff.mpr hcycle] at horder
    cases horder
  have hok : topologicalSort links events = .ok (order.filterMap (events[·]?)) := by
    rw [topologicalSort, ← sortedIndices, horder]
  have hperm := (kahn_eq_some horder).1
  constructor
  · intro hsorts _ i p hempty
    have hwhole : Acyclic (ResolvesTo links events) := by
      by_contra hcycle
      rw [hsorts.raises.mpr hcycle] at hok
      cases hok
    obtain ⟨order', horder', -, hfirst, -⟩ := hsorts.returns hwhole
    obtain rfl := Option.some_inj.mp (horder.symm.trans horder')
    obtain ⟨hlt, hroot⟩ := (hempty.idxOf_lt_iff horder).mp (hfirst i p ⟨_, hempty⟩)
    refine ⟨hlt, fun q hq => ?_⟩
    rcases resolvesTo_iff.mp hq with hq | hq
    · rw [parentIndex_eq_some_iff.mpr hq] at hroot
      cases hroot
    · -- the event would name itself, or the empty reference would name another one
      obtain rfl := hq.names.unique hempty.names
      exact Nat.lt_irrefl _ ((hq.idxOf_lt_iff horder).mp (hfirst _ _ ⟨_, hq⟩)).1
  · intro hbehind
    have hfirst : ∀ i p, ResolvesTo links events i p → order.idxOf p < order.idxOf i := by
      intro i p h
      rcases resolvesTo_iff.mp h with h | h
      · exact h.idxOf_lt horder
      · obtain ⟨hlt, hroot⟩ := hbehind hacyclic i p h
        refine (h.idxOf_lt_iff horder).mpr ⟨hlt, ?_⟩
        refine Option.eq_none_iff_forall_ne_some.mpr fun q hq => hroot q ?_
        exact (parentIndex_eq_some_iff.mp hq).resolvesTo
    refine ⟨iff_of_false (fun h => by cases hok.symm.trans h) (not_not.mpr ?_), fun _ => ?_⟩
    · exact acyclic_of_lt order.idxOf hfirst
    · exact ⟨order, horder, hperm, hfirst, _, hok, rfl, (topologicalSort_eq_ok hok).1⟩

end Sorting

/-- The child is sent first, and names its parent by the empty text. -/
def childOfEmpty : List Links := [⟨none, some "child", some (.text "")⟩, ⟨none, some "", none⟩]

theorem not_sorts_childOfEmpty : ¬Sorts id childOfEmpty := by
  intro h
  have hempty : Resolves id childOfEmpty (.text "") 0 1 := by
    refine ⟨⟨_, rfl, rfl⟩, ⟨_, rfl, by decide⟩, fun q hq e he => ?_⟩
    have hlt := (List.getElem?_eq_some_iff.mp he).1
    rw [childOfEmpty, List.length_cons, List.length_singleton] at hlt
    omega
  have hacyclic : Acyclic (ResolvesTo id childOfEmpty) := by
    by_contra hcycle
    exact absurd (h.raises.mpr hcycle) (by decide)
  obtain ⟨order, horder, -, hfirst, -⟩ := h.returns hacyclic
  have hsame : sortedIndices id childOfEmpty = some [0, 1] := by decide
  obtain rfl := Option.some_inj.mp (hsame.symm.trans horder)
  exact absurd (hfirst 0 1 ⟨_, hempty⟩) (by decide)

end Rapidly.Analytics.Ingestion
