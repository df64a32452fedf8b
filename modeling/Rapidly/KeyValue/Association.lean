import Mathlib.Data.List.Induction
import Mathlib.Data.List.Nodup

/-!
# Association lists

A table as the list of its keys and values in the order in which they were added. `List.lookup`
reads it, a new entry goes to the end, `assign` puts a value in the place of an older one and
`remove` deletes a key.

A table that is only written by `put`, which does whichever of the two is needed, has every key
once; then its entries are what `find` finds.
-/

namespace KeyValue

universe u v

variable {K : Type u} {V : Type v} [DecidableEq K]

/-- The value of the key is replaced. -/
def assign (table : List (K × V)) (k : K) (v : V) : List (K × V) :=
  table.map fun e => if e.1 = k then (k, v) else e

/-- The value of a key. -/
def find (table : List (K × V)) (k : K) : Option V := table.lookup k

/-- The key gets the value, in its old place or at the end. -/
def put (table : List (K × V)) (k : K) (v : V) : List (K × V) :=
  if (find table k).isSome then assign table k v else table ++ [(k, v)]

/-- The table made of entries, in order; a later value replaces an earlier one. -/
def ofEntries (entries : List (K × V)) : List (K × V) :=
  entries.foldl (fun table e => put table e.1 e.2) []

/-- The key is deleted. -/
def remove (table : List (K × V)) (k : K) : List (K × V) := table.filter fun e => e.1 ≠ k

section Lemmas

variable {table : List (K × V)} {k k' : K} {v : V}

@[simp] theorem length_assign (table : List (K × V)) (k : K) (v : V) :
    (assign table k v).length = table.length := List.length_map _

theorem length_remove_le (table : List (K × V)) (k : K) :
    (remove table k).length ≤ table.length := List.length_filter_le _ _

theorem lookup_cons_eq_ite :
    ((k, v) :: table).lookup k' = if k' = k then some v else table.lookup k' := by
  by_cases hk : k' = k
  · rw [if_pos hk, List.lookup_cons, beq_iff_eq.mpr hk]
  · rw [if_neg hk, List.lookup_cons, beq_eq_false_iff_ne.mpr hk]

/-- A new entry is found under its key, unless the key was there before. -/
theorem lookup_concat : (table ++ [(k, v)]).lookup k' =
    (table.lookup k').or (if k' = k then some v else none) := by
  rw [List.lookup_append, lookup_cons_eq_ite, List.lookup_nil]

theorem lookup_concat_self (h : table.lookup k = none) :
    (table ++ [(k, v)]).lookup k = some v := by
  rw [lookup_concat, h, if_pos rfl, Option.none_or]

theorem lookup_assign : (assign table k v).lookup k' =
    if k' = k then (table.lookup k').map fun _ => v else table.lookup k' := by
  induction table with
  | nil => simp [assign]
  | cons e table ih =>
    obtain ⟨name, old⟩ := e
    rw [assign] at ih
    rw [assign, List.map_cons]
    by_cases hname : name = k
    · rw [if_pos hname, hname, lookup_cons_eq_ite, lookup_cons_eq_ite, ih]
      by_cases hk : k' = k
      · rw [if_pos hk, if_pos hk, if_pos hk, Option.map_some]
      · simp only [if_neg hk]
    · rw [if_neg hname, lookup_cons_eq_ite, lookup_cons_eq_ite, ih]
      by_cases hk : k' = name
      · rw [if_pos hk, if_pos hk, if_neg fun h => hname (hk.symm.trans h)]
      · simp only [if_neg hk]

theorem lookup_remove : (remove table k).lookup k' =
    if k' = k then none else table.lookup k' := by
  induction table with
  | nil => simp [remove]
  | cons e table ih =>
    obtain ⟨name, old⟩ := e
    rw [remove] at ih
    rw [remove, List.filter_cons]
    by_cases hname : name = k
    · rw [if_neg (by simp [hname]), ih, lookup_cons_eq_ite]
      by_cases hk : k' = k
      · rw [if_pos hk, if_pos hk]
      · rw [if_neg hk, if_neg hk, if_neg fun h => hk (h.trans hname)]
    · rw [if_pos (by simpa using hname), lookup_cons_eq_ite, lookup_cons_eq_ite, ih]
      by_cases hk : k' = name
      · rw [if_pos hk, if_pos hk, if_neg fun h => hname (hk.symm.trans h)]
      · simp only [if_neg hk]

theorem assign_of_lookup_eq_none (h : table.lookup k = none) (v : V) :
    assign table k v = table := by
  have hid : ∀ e ∈ table, (if e.1 = k then (k, v) else e) = id e := by
    intro e he
    have hne := List.lookup_eq_none_iff.mp h e he
    exact if_neg fun heq => by simp [heq] at hne
  rw [assign, List.map_congr_left hid, List.map_id]

theorem remove_of_lookup_eq_none (h : table.lookup k = none) : remove table k = table := by
  rw [remove, List.filter_eq_self]
  intro e he
  have hne := List.lookup_eq_none_iff.mp h e he
  simpa using fun heq : e.1 = k => by simp [heq] at hne

theorem assign_concat {w : V} (h : table.lookup k = none) :
    assign (table ++ [(k, v)]) k w = table ++ [(k, w)] := by
  have htable := assign_of_lookup_eq_none h w
  rw [assign] at htable
  rw [assign, List.map_append, htable]
  simp

theorem remove_concat (h : table.lookup k = none) : remove (table ++ [(k, v)]) k = table := by
  have htable := remove_of_lookup_eq_none h
  rw [remove] at htable
  rw [remove, List.filter_append, htable]
  simp

/-! ### Finding -/

@[simp] theorem find_nil (k : K) : find ([] : List (K × V)) k = none := rfl

theorem find_cons :
    find ((k, v) :: table) k' = if k' = k then some v else find table k' := lookup_cons_eq_ite

theorem find_assign : find (assign table k v) k' =
    if k' = k then (find table k').map fun _ => v else find table k' := lookup_assign

theorem find_concat :
    find (table ++ [(k, v)]) k' = (find table k').or (if k' = k then some v else none) :=
  lookup_concat

theorem find_remove : find (remove table k) k' = if k' = k then none else find table k' :=
  lookup_remove

theorem find_map (table : List (K × V)) (f : K → V → V) (k : K) :
    find (table.map fun e => (e.1, f e.1 e.2)) k = (find table k).map (f k) := by
  induction table with
  | nil => rfl
  | cons e table ih =>
    rw [List.map_cons, find_cons, find_cons, ih]
    by_cases hk : k = e.1
    · rw [if_pos hk, if_pos hk, hk, Option.map_some]
    · rw [if_neg hk, if_neg hk]

theorem find_put : find (put table k v) k' =
    if k' = k then some v else find table k' := by
  rw [put]
  split
  next hsome =>
    rw [find_assign]
    by_cases hk : k' = k
    · obtain ⟨w, hw⟩ := Option.isSome_iff_exists.mp hsome
      rw [if_pos hk, if_pos hk, hk, hw, Option.map_some]
    · rw [if_neg hk, if_neg hk]
  next hnone =>
    rw [find_concat]
    by_cases hk : k' = k
    · rw [if_pos hk, if_pos hk, hk, Option.not_isSome_iff_eq_none.mp hnone, Option.none_or]
    · rw [if_neg hk, if_neg hk, Option.or_none]

theorem assign_assign (table : List (K × V)) (k : K) (v w : V) :
    assign (assign table k v) k w = assign table k w := by
  rw [assign, assign, assign, List.map_map]
  refine List.map_congr_left fun e _ => ?_
  dsimp only [Function.comp_apply]
  by_cases he : e.1 = k
  · rw [if_pos he, if_pos rfl, if_pos he]
  · rw [if_neg he, if_neg he]

theorem ofEntries_concat (entries : List (K × V)) (e : K × V) :
    ofEntries (entries ++ [e]) = put (ofEntries entries) e.1 e.2 := by
  rw [ofEntries, List.foldl_append]
  rfl

theorem mem_of_find_ofEntries {entries : List (K × V)} (h : find (ofEntries entries) k = some v) :
    (k, v) ∈ entries := by
  induction entries using List.reverseRecOn with
  | nil => cases h
  | append_singleton entries e ih =>
    rw [ofEntries_concat, find_put] at h
    split at h
    next hk =>
      obtain rfl := Option.some_inj.mp h
      rw [hk]
      exact List.mem_concat_self
    next => exact List.mem_append_left _ (ih h)

theorem isSome_find_ofEntries {entries : List (K × V)} :
    (find (ofEntries entries) k).isSome ↔ k ∈ entries.map Prod.fst := by
  induction entries using List.reverseRecOn with
  | nil => simp [ofEntries, find]
  | append_singleton entries e ih =>
    rw [ofEntries_concat, find_put, List.map_append, List.mem_append, List.map_singleton,
      List.mem_singleton]
    split
    next hk => simp [hk]
    next hk => rw [ih]; simp [hk]

theorem find_ofEntries (entries : List (K × V)) (k : K) :
    find (ofEntries entries) k = find entries.reverse k := by
  induction entries using List.reverseRecOn with
  | nil => rfl
  | append_singleton entries e ih =>
    rw [ofEntries_concat, find_put, List.reverse_append, List.reverse_singleton,
      List.singleton_append, find_cons, ih]

theorem find_ofEntries_append (entries entries' : List (K × V)) (k : K) :
    find (ofEntries (entries ++ entries')) k =
      (find (ofEntries entries') k).or (find (ofEntries entries) k) := by
  rw [find_ofEntries, find_ofEntries, find_ofEntries, List.reverse_append]
  exact List.lookup_append

theorem find_ofEntries_map (keys : List K) (v : V) (k : K) :
    find (ofEntries (keys.map fun key => (key, v))) k = if k ∈ keys then some v else none := by
  split
  case isTrue hk =>
    have hsome : (find (ofEntries (keys.map fun key => (key, v))) k).isSome := by
      rw [isSome_find_ofEntries, List.map_map]
      exact List.mem_map.mpr ⟨k, hk, rfl⟩
    obtain ⟨w, hw⟩ := Option.isSome_iff_exists.mp hsome
    obtain ⟨key, -, heq⟩ := List.mem_map.mp (mem_of_find_ofEntries hw)
    rw [hw, ← (Prod.mk.inj heq).2]
  case isFalse hk =>
    rw [← Option.not_isSome_iff_eq_none, isSome_find_ofEntries, List.map_map]
    intro hmem
    obtain ⟨key, hkey, rfl⟩ := List.mem_map.mp hmem
    exact hk hkey

theorem put_put (table : List (K × V)) (k : K) (v w : V) :
    put (put table k v) k w = put table k w := by
  have hsome : (find (put table k v) k).isSome := by
    rw [find_put, if_pos rfl]
    rfl
  rw [put, if_pos hsome, put, put]
  by_cases hthere : (find table k).isSome
  · rw [if_pos hthere, if_pos hthere, assign_assign]
  · rw [if_neg hthere, if_neg hthere, assign_concat (Option.not_isSome_iff_eq_none.mp hthere)]

theorem length_put_le (table : List (K × V)) (k : K) (v : V) :
    (put table k v).length ≤ table.length + 1 := by
  rw [put]
  split
  · rw [length_assign]
    exact Nat.le_succ _
  · exact Nat.le_of_eq (List.length_append ..)

theorem length_put_of_isSome (h : (find table k).isSome) (v : V) :
    (put table k v).length = table.length := by
  rw [put, if_pos h, length_assign]

/-! ### Tables that have every key once -/

theorem map_fst_assign : (assign table k v).map Prod.fst = table.map Prod.fst := by
  have hsame : ∀ e ∈ table, (if e.1 = k then (k, v) else e).1 = e.1 := by
    intro e _
    split
    next h => exact h.symm
    · rfl
  rw [assign, List.map_map]
  exact List.map_congr_left hsame

theorem find_eq_none_iff : find table k = none ↔ k ∉ table.map Prod.fst := by
  rw [find, List.lookup_eq_none_iff, List.mem_map]
  constructor
  · rintro h ⟨e, he, rfl⟩
    have hne := h e he
    simp at hne
  · intro h e he
    have hne : k ≠ e.1 := fun heq => h ⟨e, he, heq.symm⟩
    exact bne_iff_ne.mpr hne

theorem find_eq_some_iff (h : (table.map Prod.fst).Nodup) :
    find table k = some v ↔ (k, v) ∈ table := by
  induction table with
  | nil => simp
  | cons e table ih =>
    obtain ⟨name, old⟩ := e
    obtain ⟨hnew, hrest⟩ := List.nodup_cons.mp h
    rw [find_cons, List.mem_cons, Prod.mk.injEq]
    by_cases hk : k = name
    · rw [if_pos hk, Option.some_inj]
      constructor
      · intro hv
        exact .inl ⟨hk, hv.symm⟩
      · rintro (⟨-, hv⟩ | hmem)
        · exact hv.symm
        · exact absurd (List.mem_map_of_mem hmem) (hk ▸ hnew)
    · rw [if_neg hk, ih hrest]
      exact ⟨.inr, fun hor => hor.resolve_left fun heq => hk heq.1⟩

theorem nodup_put (h : (table.map Prod.fst).Nodup) : ((put table k v).map Prod.fst).Nodup := by
  rw [put]
  split
  · rwa [map_fst_assign]
  next hnone =>
    have hnew := find_eq_none_iff.mp (Option.not_isSome_iff_eq_none.mp hnone)
    rw [List.map_append, List.map_singleton, List.nodup_append]
    refine ⟨h, List.nodup_singleton k, fun a ha b hb hab => hnew ?_⟩
    obtain rfl : b = k := List.mem_singleton.mp hb
    rwa [← hab]

omit [DecidableEq K] in
theorem nodup_filter {p : K × V → Bool} (h : (table.map Prod.fst).Nodup) :
    ((table.filter p).map Prod.fst).Nodup := h.sublist ((List.filter_sublist).map _)

theorem mem_put {e : K × V} (he : e ∈ put table k v) :
    e = (k, v) ∨ e ∈ table ∧ e.1 ≠ k := by
  rw [put] at he
  split at he
  · obtain ⟨old, hold, heq⟩ := List.mem_map.mp he
    split at heq
    · exact .inl heq.symm
    next hne =>
      obtain rfl := heq
      exact .inr ⟨hold, hne⟩
  next hnone =>
    have hnew := find_eq_none_iff.mp (Option.not_isSome_iff_eq_none.mp hnone)
    rcases List.mem_append.mp he with hold | hlast
    · exact .inr ⟨hold, fun heq => hnew (heq ▸ List.mem_map_of_mem hold)⟩
    · exact .inl (List.mem_singleton.mp hlast)

theorem mem_remove {e : K × V} : e ∈ remove table k ↔ e ∈ table ∧ e.1 ≠ k := by
  rw [remove, List.mem_filter, decide_eq_true_iff]

end Lemmas

end KeyValue
