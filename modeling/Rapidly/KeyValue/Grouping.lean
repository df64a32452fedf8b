import Mathlib.Data.List.Basic
import Rapidly.KeyValue.Association

/-!
# Grouping

Values are collected under their keys, each group in the order in which its values came. The
groups stand in the order in which their keys came first. What was collected under a key is what
has the key (`filter_flatMap_grouped`), and cutting a group into pieces does not change it
(`flatten_toChunks`).
-/

namespace KeyValue

universe u v

variable {K : Type u} {V : Type v} [DecidableEq K]

/-- A value is added to the group of its key. -/
def addTo (groups : List (K × List V)) (k : K) (v : V) : List (K × List V) :=
  put groups k ((find groups k).getD [] ++ [v])

def grouped (entries : List (K × V)) : List (K × List V) :=
  entries.foldl (fun groups e => addTo groups e.1 e.2) []

section Groups

variable {entries : List (K × V)} {groups : List (K × List V)} {k : K}

theorem grouped_concat (entries : List (K × V)) (e : K × V) :
    grouped (entries ++ [e]) = addTo (grouped entries) e.1 e.2 := by
  rw [grouped, List.foldl_append]
  rfl

theorem nodup_grouped (entries : List (K × V)) : ((grouped entries).map Prod.fst).Nodup := by
  induction entries using List.reverseRecOn with
  | nil => exact List.nodup_nil
  | append_singleton entries e ih =>
    rw [grouped_concat]
    exact nodup_put ih

theorem find_grouped (entries : List (K × V)) (k : K) :
    (find (grouped entries) k).getD [] = (entries.filter fun e => e.1 = k).map Prod.snd := by
  induction entries using List.reverseRecOn with
  | nil => rfl
  | append_singleton entries e ih =>
    rw [grouped_concat, addTo, find_put, List.filter_append, List.map_append, ← ih]
    by_cases hk : k = e.1
    · have hown : [e].filter (fun e' => e'.1 = e.1) = [e] := List.filter_eq_self.mpr (by simp)
      rw [if_pos hk, hk, hown]
      rfl
    · rw [if_neg hk, List.filter_cons_of_neg (by simpa using Ne.symm hk), List.filter_nil,
        List.map_nil, List.append_nil]

/-- Of the entries of a table without repeated keys, those of one key are its group. -/
theorem filter_flatMap (h : (groups.map Prod.fst).Nodup) (k : K) :
    ((groups.flatMap fun g => g.2.map fun v => (g.1, v)).filter fun e => e.1 = k) =
      ((find groups k).getD []).map fun v => (k, v) := by
  induction groups with
  | nil => rfl
  | cons g groups ih =>
    obtain ⟨name, values⟩ := g
    rw [List.map_cons, List.nodup_cons] at h
    rw [List.flatMap_cons, List.filter_append, ih h.2, find_cons]
    by_cases hk : k = name
    · have hnone : find groups k = none := find_eq_none_iff.mpr (hk ▸ h.1)
      have hall : ∀ e ∈ values.map fun v => (name, v), decide (e.1 = k) = true := by
        rintro e he
        obtain ⟨v, -, rfl⟩ := List.mem_map.mp he
        exact decide_eq_true hk.symm
      rw [if_pos hk, hnone, List.filter_eq_self.mpr hall, hk]
      exact List.append_nil _
    · have hall : ∀ e ∈ values.map fun v => (name, v), ¬decide (e.1 = k) = true := by
        rintro e he
        obtain ⟨v, -, rfl⟩ := List.mem_map.mp he
        simpa using Ne.symm hk
      rw [if_neg hk, List.filter_eq_nil_iff.mpr hall, List.nil_append]

/-- **Grouping loses nothing** and keeps the order of each group. -/
theorem filter_flatMap_grouped (entries : List (K × V)) (k : K) :
    (((grouped entries).flatMap fun g => g.2.map fun v => (g.1, v)).filter fun e => e.1 = k) =
      entries.filter fun e => e.1 = k := by
  rw [filter_flatMap (nodup_grouped entries), find_grouped, List.map_map]
  have hid : ∀ e ∈ entries.filter fun e => decide (e.1 = k),
      ((fun v => (k, v)) ∘ Prod.snd) e = id e := by
    intro e he
    have hk := of_decide_eq_true (List.mem_filter.mp he).2
    rw [Function.comp_apply, ← hk]
    rfl
  rw [List.map_congr_left hid, List.map_id]

end Groups

/-! ### Writing entries -/

section Writing

variable {table entries : List (K × V)} {k : K} {v : V}

/-- Each entry is put into a table. -/
def putAll (table entries : List (K × V)) : List (K × V) :=
  entries.foldl (fun table e => put table e.1 e.2) table

theorem putAll_append (table entries entries' : List (K × V)) :
    putAll table (entries ++ entries') = putAll (putAll table entries) entries' :=
  List.foldl_append

theorem find_putAll_of_notMem (h : k ∉ entries.map Prod.fst) :
    find (putAll table entries) k = find table k := by
  induction entries using List.reverseRecOn with
  | nil => rfl
  | append_singleton entries e ih =>
    rw [List.map_append, List.mem_append, List.map_singleton, List.mem_singleton, not_or] at h
    rw [putAll_append, putAll, List.foldl_cons, List.foldl_nil, find_put, if_neg h.2, ih h.1]

theorem find_putAll_of_mem (h : (entries.map Prod.fst).Nodup) (he : (k, v) ∈ entries) :
    find (putAll table entries) k = some v := by
  induction entries using List.reverseRecOn with
  | nil => exact absurd he List.not_mem_nil
  | append_singleton entries e ih =>
    rw [List.map_append, List.map_singleton, List.nodup_append] at h
    obtain ⟨hentries, -, hdisjoint⟩ := h
    rw [putAll_append, putAll, List.foldl_cons, List.foldl_nil, find_put]
    obtain he | he := List.mem_append.mp he
    · have hne := hdisjoint k (List.mem_map_of_mem he) e.1 (List.mem_singleton_self _)
      rw [if_neg hne, ih hentries he]
    · obtain rfl := List.mem_singleton.mp he
      exact if_pos rfl

end Writing

/-! ### Pieces -/

section Chunks

variable {α : Type u}

theorem flatten_toChunks_go (n : ℕ) (l : List α) (piece : Array α) (pieces : Array (List α)) :
    (List.toChunks.go n l piece pieces).flatten =
      pieces.toList.flatten ++ (piece.toList ++ l) := by
  induction l generalizing piece pieces with
  | nil => simp [List.toChunks.go]
  | cons a l ih =>
    rw [List.toChunks.go]
    split
    · rw [ih]
      simp
    · rw [ih]
      simp

theorem flatten_toChunks (n : ℕ) (l : List α) : (l.toChunks n).flatten = l := by
  cases l with
  | nil => rfl
  | cons a l =>
    cases n with
    | zero => exact List.append_nil _
    | succ n => exact flatten_toChunks_go (n + 1) l #[a] #[]

end Chunks

end KeyValue
