import Mathlib.Data.List.Dedup
import Mathlib.Data.List.Perm.Basic
import Mathlib.Data.List.Nodup

/-!
# Tables and queries

A `Table key` is a finite collection of rows with distinct primary keys. Rows are kept in a
list, but no order is meant: two tables with the same rows answer a query with permutations
of one another (`Agree.select_perm`).

* `select` and `join` are the relational operators, with their membership lemmas.
* `oneOrNone` is the outcome of a query that expects at most one distinct row: it fails when
  there are several.
* `get` looks a row up by its key.
* `Agree p t t'` says that two tables have the same rows among those with property `p`; it is
  how a statement says that two databases look the same to somebody.
* `modify`, `remove`, `add` and `insert` are the writes; they keep the keys distinct.
-/

namespace Relational

universe u v

/-- A table whose rows have distinct primary keys. -/
structure Table {Row : Type u} {Key : Type v} (key : Row → Key) where
  /-- The rows; their order carries no meaning. -/
  rows : List Row
  /-- Primary keys are distinct. -/
  nodup : (rows.map key).Nodup

namespace Table

variable {Row : Type u} {Key : Type v} {key : Row → Key} {t t' : Table key} {r r' : Row}
  {k : Key} {rs : List Row} {f : Row → Row}

instance : Membership Row (Table key) := ⟨fun t r => r ∈ t.rows⟩

theorem mem_def : r ∈ t ↔ r ∈ t.rows := Iff.rfl

instance [DecidableEq Row] (t : Table key) (r : Row) : Decidable (r ∈ t) :=
  inferInstanceAs (Decidable (r ∈ t.rows))

theorem eq_of_key_eq (hr : r ∈ t) (hr' : r' ∈ t) (h : key r = key r') : r = r' :=
  List.inj_on_of_nodup_map t.nodup hr hr' h

theorem nodup_rows (t : Table key) : t.rows.Nodup := List.Nodup.of_map key t.nodup

/-- The empty table. -/
def empty : Table key := ⟨[], List.nodup_nil⟩

/-- The table with one row. -/
def singleton (row : Row) : Table key := ⟨[row], List.nodup_singleton _⟩

/-! ### Selection -/

/-- The rows with a property. -/
def select (t : Table key) (p : Row → Prop) [DecidablePred p] : List Row := t.rows.filter p

@[simp] theorem mem_select {p : Row → Prop} [DecidablePred p] : r ∈ t.select p ↔ r ∈ t ∧ p r := by
  simp [select, mem_def]

/-- The row with a given key. -/
def get [DecidableEq Key] (t : Table key) (k : Key) : Option Row :=
  t.rows.find? fun r => key r = k

theorem get_eq_some_iff [DecidableEq Key] : t.get k = some r ↔ r ∈ t ∧ key r = k := by
  constructor
  · intro h
    exact ⟨List.mem_of_find?_eq_some h, by simpa using List.find?_some h⟩
  · rintro ⟨hr, rfl⟩
    cases hget : t.get (key r) with
    | none =>
      have hne := List.find?_eq_none.mp hget r hr
      simp at hne
    | some r' =>
      have hr' : r' ∈ t := List.mem_of_find?_eq_some hget
      have hkey : key r' = key r := by simpa using List.find?_some hget
      rw [eq_of_key_eq hr' hr hkey]

/-! ### Constraints -/

/-- A unique column: no two rows have the same value in it. -/
def UniqueOn {Value : Type*} (t : Table key) (f : Row → Value) : Prop := (t.rows.map f).Nodup

instance {Value : Type*} [DecidableEq Value] (t : Table key) (f : Row → Value) :
    Decidable (t.UniqueOn f) :=
  inferInstanceAs (Decidable (List.Nodup _))

theorem UniqueOn.eq {Value : Type*} {f : Row → Value} (h : t.UniqueOn f) (hr : r ∈ t) (hr' : r' ∈ t)
    (hf : f r = f r') : r = r' :=
  List.inj_on_of_nodup_map h hr hr' hf

/-- A unique column that may be null: no two rows have the same value in it, other than null. -/
def UniqueNullable {Value : Type*} (t : Table key) (f : Row → Option Value) : Prop :=
  (t.rows.filterMap f).Nodup

instance {Value : Type*} [DecidableEq Value] (t : Table key) (f : Row → Option Value) :
    Decidable (t.UniqueNullable f) :=
  inferInstanceAs (Decidable (List.Nodup _))

theorem UniqueNullable.eq {Value : Type*} {f : Row → Option Value} (h : t.UniqueNullable f)
    (hr : r ∈ t) (hr' : r' ∈ t) {v : Value} (hv : f r = some v) (hv' : f r' = some v) : r = r' := by
  have hapart := List.pairwise_iff_getElem.mp (List.pairwise_filterMap.mp h)
  obtain ⟨i, hi, rfl⟩ := List.getElem_of_mem hr
  obtain ⟨j, hj, rfl⟩ := List.getElem_of_mem hr'
  rcases Nat.lt_trichotomy i j with hlt | rfl | hlt
  · exact absurd rfl (hapart i j hi hj hlt v hv v hv')
  · rfl
  · exact absurd rfl (hapart j i hj hi hlt v hv' v hv)

/-- A foreign key: every value of the column is the key of a row of the other table. -/
def References {Row' Key' : Type*} {key' : Row' → Key'} (t : Table key) (f : Row → Key')
    (t' : Table key') : Prop :=
  ∀ r ∈ t.rows, ∃ r' ∈ t'.rows, key' r' = f r

instance {Row' Key' : Type*} [DecidableEq Key'] {key' : Row' → Key'} (t : Table key)
    (f : Row → Key') (t' : Table key') : Decidable (t.References f t') :=
  inferInstanceAs (Decidable (∀ r ∈ t.rows, _))

/-- A foreign key that may be null. -/
def ReferencesNullable {Row' Key' : Type*} {key' : Row' → Key'} (t : Table key)
    (f : Row → Option Key') (t' : Table key') : Prop :=
  ∀ r ∈ t.rows, ∀ k ∈ f r, ∃ r' ∈ t'.rows, key' r' = k

instance {Row' Key' : Type*} [DecidableEq Key'] {key' : Row' → Key'} (t : Table key)
    (f : Row → Option Key') (t' : Table key') : Decidable (t.ReferencesNullable f t') :=
  inferInstanceAs (Decidable (∀ r ∈ t.rows, ∀ k ∈ f r, _))

/-! ### Agreement -/

/-- Two tables have the same rows among those with a property. -/
def Agree (p : Row → Prop) (t t' : Table key) : Prop := ∀ r, p r → (r ∈ t ↔ r ∈ t')

/-- Two queries whose answers have the same rows have the same answer, up to order. -/
theorem select_perm {q q' : Row → Prop} [DecidablePred q] [DecidablePred q']
    (h : ∀ r, r ∈ t ∧ q r ↔ r ∈ t' ∧ q' r) : (t.select q).Perm (t'.select q') := by
  have hnodup : (t.select q).Nodup := t.nodup_rows.filter _
  have hnodup' : (t'.select q').Nodup := t'.nodup_rows.filter _
  refine (List.perm_ext_iff_of_nodup hnodup hnodup').mpr fun r => ?_
  rw [mem_select, mem_select]
  exact h r

/-- A query that only asks for rows on which two tables agree gets the same rows from both. -/
theorem Agree.select_perm {p q q' : Row → Prop} [DecidablePred q] [DecidablePred q']
    (h : Agree p t t') (hqp : ∀ r, q r → p r) (hqq' : ∀ r, q r ↔ q' r) :
    (t.select q).Perm (t'.select q') := by
  refine Table.select_perm fun r => ?_
  rw [← hqq' r]
  exact and_congr_left fun hq => h r (hqp r hq)

/-- Two queries whose answers have the same keys have answers of the same size. -/
theorem length_select_eq {q q' : Row → Prop} [DecidablePred q] [DecidablePred q']
    (h : ∀ k, (∃ r ∈ t, q r ∧ key r = k) ↔ ∃ r ∈ t', q' r ∧ key r = k) :
    (t.select q).length = (t'.select q').length := by
  have hnodup : ((t.select q).map key).Nodup := t.nodup.sublist (List.filter_sublist.map key)
  have hnodup' : ((t'.select q').map key).Nodup :=
    t'.nodup.sublist (List.filter_sublist.map key)
  have hperm : ((t.select q).map key).Perm ((t'.select q').map key) := by
    refine (List.perm_ext_iff_of_nodup hnodup hnodup').mpr fun k => ?_
    simpa [and_assoc] using h k
  simpa using hperm.length_eq

/-! ### Writes -/

theorem comp_rewrite {Value : Type*} {g : Row → Value} {p : Row → Prop} [DecidablePred p]
    (hg : ∀ r, g (f r) = g r) : (g ∘ fun r => if p r then f r else r) = g := by
  funext r
  rw [Function.comp_apply]
  split
  · exact hg r
  · rfl

/-- Rewrite the rows with a property, keeping their keys. -/
def modify (t : Table key) (p : Row → Prop) [DecidablePred p] (f : Row → Row)
    (hf : ∀ r, key (f r) = key r) : Table key where
  rows := t.rows.map fun r => if p r then f r else r
  nodup := by
    rw [List.map_map, comp_rewrite hf]
    exact t.nodup

theorem countP_modify [DecidableEq Key] (hr : r ∈ t) (hf : ∀ r, key (f r) = key r) (p : Row → Prop)
    [DecidablePred p] :
    (t.modify (fun r' => key r' = key r) f hf).rows.countP p + (if p r then 1 else 0) =
      t.rows.countP p + if p (f r) then 1 else 0 := by
  obtain ⟨before, after, hrows⟩ := List.append_of_mem (mem_def.mp hr)
  have hnodup := t.nodup
  rw [hrows, List.map_append, List.map_cons] at hnodup
  have hother : ∀ r' ∈ before ++ after, key r' ≠ key r := by
    intro r' hr' hkey
    have hmem := List.mem_map_of_mem (f := key) hr'
    rw [hkey, List.map_append] at hmem
    exact (List.nodup_middle.mp hnodup).notMem hmem
  have hmap (l : List Row) (hl : ∀ r' ∈ l, key r' ≠ key r) :
      l.map (fun r' => if key r' = key r then f r' else r') = l := by
    conv_rhs => rw [← List.map_id l]
    refine List.map_congr_left fun r' hr' => ?_
    rw [if_neg (hl r' hr'), id_eq]
  have hbefore := hmap before fun r' hr' => hother r' (List.mem_append_left _ hr')
  have hafter := hmap after fun r' hr' => hother r' (List.mem_append_right _ hr')
  have hrewritten : (t.modify (fun r' => key r' = key r) f hf).rows = before ++ f r :: after := by
    change t.rows.map _ = _
    rw [hrows, List.map_append, List.map_cons, hbefore, hafter, if_pos rfl]
  rw [hrewritten, hrows]
  simp only [List.countP_append, List.countP_cons, decide_eq_true_eq]
  omega

theorem get_modify [DecidableEq Key] (t : Table key) (p : Row → Prop) [DecidablePred p]
    (f : Row → Row) (hf : ∀ r, key (f r) = key r) (k : Key) :
    (t.modify p f hf).get k = (t.get k).map fun r => if p r then f r else r := by
  have hkey : (fun r => decide (key r = k)) ∘ (fun r => if p r then f r else r) =
      fun r => decide (key r = k) := by
    funext r
    rw [Function.comp_apply]
    split
    · rw [hf]
    · rfl
  rw [get, modify, List.find?_map, hkey, get]

/-- The other rows stay when the one with a key is rewritten. -/
theorem get_modify_of_ne [DecidableEq Key] (t : Table key) {j k : Key} (h : k ≠ j)
    (f : Row → Row) (hf : ∀ r, key (f r) = key r) :
    (t.modify (fun r => key r = j) f hf).get k = t.get k := by
  rw [get_modify]
  rcases hget : t.get k with _ | r
  · rfl
  · have hkey : key r ≠ j := by
      rw [(get_eq_some_iff.mp hget).2]
      exact h
    rw [Option.map_some, if_neg hkey]

theorem mem_modify {p : Row → Prop} [DecidablePred p] (hf : ∀ r, key (f r) = key r) :
    r' ∈ t.modify p f hf ↔ ∃ r ∈ t, r' = if p r then f r else r := by
  simp only [mem_def, modify, List.mem_map, eq_comm]

theorem mem_modify_of_mem (hr : r ∈ t) {p : Row → Prop} [DecidablePred p]
    (hf : ∀ r, key (f r) = key r) : (if p r then f r else r) ∈ t.modify p f hf :=
  (mem_modify hf).mpr ⟨r, hr, rfl⟩

theorem mem_modify_key [DecidableEq Key]
    (hf : ∀ r, key (f r) = key r) : r' ∈ t.modify (fun r => key r = k) f hf ↔
      r' ∈ t ∧ key r' ≠ k ∨ ∃ r ∈ t, key r = k ∧ r' = f r := by
  rw [mem_modify hf]
  constructor
  · rintro ⟨r, hr, rfl⟩
    by_cases hkey : key r = k
    · exact .inr ⟨r, hr, hkey, if_pos hkey⟩
    · rw [if_neg hkey]
      exact .inl ⟨hr, hkey⟩
  · rintro (⟨hr, hkey⟩ | ⟨r, hr, hkey, rfl⟩)
    · exact ⟨r', hr, (if_neg hkey).symm⟩
    · exact ⟨r, hr, (if_pos hkey).symm⟩

theorem UniqueOn.modify {Value : Type*} {g : Row → Value} (h : t.UniqueOn g)
    {p : Row → Prop} [DecidablePred p] {hf : ∀ r, key (f r) = key r}
    (hg : ∀ r, g (f r) = g r) : (t.modify p f hf).UniqueOn g := by
  rw [UniqueOn, Table.modify, List.map_map, comp_rewrite hg]
  exact h

/-- A nullable column that a rewriting keeps is still unique. -/
theorem UniqueNullable.modify {Value : Type*} {g : Row → Option Value} (h : t.UniqueNullable g)
    {p : Row → Prop} [DecidablePred p] {hf : ∀ r, key (f r) = key r} (hg : ∀ r, g (f r) = g r) :
    (t.modify p f hf).UniqueNullable g := by
  rw [UniqueNullable, Table.modify, List.filterMap_map, comp_rewrite hg]
  exact h

/-- A nullable column stays unique if no other row has the new value. -/
theorem UniqueNullable.modify_key [DecidableEq Key] {Value : Type*} {g : Row → Option Value}
    (h : t.UniqueNullable g) {hf : ∀ r, key (f r) = key r}
    (hnew : ∀ r ∈ t, key r ≠ k → ∀ r' ∈ t, key r' = k → ∀ v, g (f r') = some v → g r ≠ some v) :
    (t.modify (fun r => key r = k) f hf).UniqueNullable g := by
  have hkeys := List.pairwise_map.mp t.nodup
  have hapart := List.pairwise_filterMap.mp h
  rw [UniqueNullable, Table.modify]
  refine List.pairwise_filterMap.mpr (List.pairwise_map.mpr ?_)
  refine (hkeys.and hapart).imp_of_mem fun {a b} ha hb hab v hv w hw => ?_
  by_cases hak : key a = k
  · have hbk : key b ≠ k := fun hbk => hab.1 (hak.trans hbk.symm)
    rw [if_pos hak] at hv
    rw [if_neg hbk] at hw
    rintro rfl
    exact hnew b hb hbk a ha hak v hv hw
  · rw [if_neg hak] at hv
    split at hw
    next hbk =>
      rintro rfl
      exact hnew a ha hak b hb hbk v hw hv
    next => exact hab.2 v hv w hw

theorem References.modify {Row' Key' : Type*} {key' : Row' → Key'} {g : Row → Key'}
    {t' : Table key'} (h : t.References g t') {p : Row → Prop} [DecidablePred p]
    {hf : ∀ r, key (f r) = key r} (hg : ∀ r, g (f r) = g r) :
    (t.modify p f hf).References g t' := by
  intro r' hr'
  obtain ⟨r, hr, rfl⟩ := (mem_modify hf).mp hr'
  have hsame : g (if p r then f r else r) = g r := by
    split
    · exact hg r
    · rfl
  rw [hsame]
  exact h r hr

/-- Delete the rows with a property. -/
def remove (t : Table key) (p : Row → Prop) [DecidablePred p] : Table key where
  rows := t.rows.filter fun r => ¬p r
  nodup := t.nodup.sublist (List.filter_sublist.map key)

@[simp] theorem mem_remove {p : Row → Prop} [DecidablePred p] : r ∈ t.remove p ↔ r ∈ t ∧ ¬p r := by
  simp [remove, mem_def]

theorem UniqueOn.remove {Value : Type*} {g : Row → Value} (h : t.UniqueOn g) (p : Row → Prop)
    [DecidablePred p] : (t.remove p).UniqueOn g :=
  h.sublist (List.filter_sublist.map g)

theorem References.remove {Row' Key' : Type*} {key' : Row' → Key'}
    {g : Row → Key'} {t' : Table key'} (h : t.References g t') (p : Row → Prop)
    [DecidablePred p] : (t.remove p).References g t' :=
  fun r hr => h r (mem_remove.mp hr).1

/-- Add a row under a new key. -/
def add (t : Table key) (r : Row) (h : key r ∉ t.rows.map key) : Table key :=
  ⟨r :: t.rows, List.nodup_cons.mpr ⟨h, t.nodup⟩⟩

@[simp] theorem mem_add {h : key r ∉ t.rows.map key} :
    r' ∈ t.add r h ↔ r' = r ∨ r' ∈ t := List.mem_cons

/-- A unique column stays unique when the new row has a new value in it. -/
theorem UniqueOn.add {Value : Type*} {g : Row → Value} (h : t.UniqueOn g)
    {hr : key r ∉ t.rows.map key} (hg : g r ∉ t.rows.map g) : (t.add r hr).UniqueOn g :=
  List.nodup_cons.mpr ⟨hg, h⟩

/-- A unique nullable column stays unique when the new row has a new value in it, or none. -/
theorem UniqueNullable.add {Value : Type*} {g : Row → Option Value}
    (h : t.UniqueNullable g) {hr : key r ∉ t.rows.map key}
    (hg : ∀ v ∈ g r, v ∉ t.rows.filterMap g) : (t.add r hr).UniqueNullable g := by
  rcases hv : g r with _ | v
  · rw [UniqueNullable, Table.add, List.filterMap_cons_none hv]
    exact h
  · rw [UniqueNullable, Table.add, List.filterMap_cons_some hv]
    exact List.nodup_cons.mpr ⟨hg v hv, h⟩

/-- A foreign key stays one when the new row refers to a row that is there. -/
theorem References.add {Row' Key' : Type*} {key' : Row' → Key'} {g : Row → Key'} {t' : Table key'}
    (h : t.References g t') {hr : key r ∉ t.rows.map key} (hg : ∃ r' ∈ t'.rows, key' r' = g r) :
    (t.add r hr).References g t' :=
  List.forall_mem_cons.mpr ⟨hg, h⟩

/-- Add rows, all or none: `none` where a key would be taken twice. -/
def addAll [DecidableEq Key] (t : Table key) (rs : List Row) : Option (Table key) :=
  if h : (rs.map key ++ t.rows.map key).Nodup then
    some ⟨rs ++ t.rows, by rw [List.map_append]; exact h⟩
  else none

theorem addAll_eq_some [DecidableEq Key] (h : t.addAll rs = some t') :
    (∀ r, r ∈ t' ↔ r ∈ rs ∨ r ∈ t) ∧ ∀ r ∈ rs, ∀ r' ∈ t, key r ≠ key r' := by
  rw [addAll] at h
  split at h
  next hnodup =>
    obtain rfl := Option.some.inj h
    refine ⟨fun r => List.mem_append, fun r hr r' hr' => ?_⟩
    exact (List.nodup_append.mp hnodup).2.2 _ (List.mem_map_of_mem hr) _ (List.mem_map_of_mem hr')
  next => cases h

/-- Rows can be added when their keys are distinct and none is taken. -/
theorem exists_addAll [DecidableEq Key] (hrs : (rs.map key).Nodup)
    (hnew : ∀ r ∈ rs, ∀ r' ∈ t, key r ≠ key r') : ∃ t', t.addAll rs = some t' := by
  have hnodup : (rs.map key ++ t.rows.map key).Nodup := by
    refine List.nodup_append.mpr ⟨hrs, t.nodup, fun k hk k' hk' => ?_⟩
    obtain ⟨r, hr, rfl⟩ := List.mem_map.mp hk
    obtain ⟨r', hr', rfl⟩ := List.mem_map.mp hk'
    exact hnew r hr r' hr'
  exact ⟨_, by rw [addAll, dif_pos hnodup]⟩

/-- Add a row, unless its key is taken. -/
def insert [DecidableEq Key] (t : Table key) (r : Row) : Table key :=
  if h : key r ∈ t.rows.map key then t
  else ⟨r :: t.rows, by rw [List.map_cons]; exact List.nodup_cons.mpr ⟨h, t.nodup⟩⟩

theorem mem_insert [DecidableEq Key] (h : r' ∈ t.insert r) : r' = r ∨ r' ∈ t := by
  rw [insert] at h
  split at h
  · exact .inr h
  · exact List.mem_cons.mp h

theorem subset_insert [DecidableEq Key] (r : Row) (h : r' ∈ t) : r' ∈ t.insert r := by
  rw [insert]
  split
  · exact h
  · exact List.mem_cons_of_mem _ h

/-- A row of a table to which rows have been added one by one was there, or is one of them under
a new key. -/
theorem mem_foldl_insert [DecidableEq Key]
    (h : r ∈ rs.foldl insert t) : r ∈ t ∨ r ∈ rs ∧ ∀ r' ∈ t, key r' ≠ key r := by
  induction rs generalizing t with
  | nil => exact .inl h
  | cons r₀ rs ih =>
    rw [List.foldl_cons] at h
    obtain hold | ⟨hmem, hnew⟩ := ih h
    · rw [insert] at hold
      split at hold
      · exact .inl hold
      · rename_i hfree
        rcases List.mem_cons.mp hold with rfl | hold
        · refine .inr ⟨List.mem_cons_self, fun r' hr' hkey => hfree ?_⟩
          exact List.mem_map.mpr ⟨r', hr', hkey⟩
        · exact .inl hold
    · exact .inr ⟨List.mem_cons_of_mem _ hmem, fun r' hr' => hnew r' (subset_insert r₀ hr')⟩

theorem subset_foldl_insert [DecidableEq Key] (rs : List Row)
    (h : r ∈ t) : r ∈ rs.foldl insert t := by
  induction rs generalizing t with
  | nil => exact h
  | cons r₀ rs ih => exact ih (subset_insert r₀ h)

theorem get_insert_of_some [DecidableEq Key]
    (h : t.get k = some r) (r' : Row) : (t.insert r').get k = some r := by
  obtain ⟨hr, hkey⟩ := get_eq_some_iff.mp h
  exact get_eq_some_iff.mpr ⟨subset_insert r' hr, hkey⟩

/-- After an insertion the key is taken, by the new row or by an old one. -/
theorem exists_key_insert [DecidableEq Key] (t : Table key) (r : Row) :
    ∃ r' ∈ t.insert r, key r' = key r := by
  rw [insert]
  split
  · rename_i h
    exact List.mem_map.mp h
  · exact ⟨r, List.mem_cons_self .., rfl⟩

/-- A foreign key survives insertions into the table it points to. -/
theorem References.insert {Row' Key' : Type*} [DecidableEq Key'] {key' : Row' → Key'}
    {f : Row → Key'} {t' : Table key'} (h : t.References f t') (r' : Row') :
    t.References f (t'.insert r') := by
  intro r hr
  obtain ⟨r'', hr'', hkey⟩ := h r hr
  exact ⟨r'', subset_insert r' hr'', hkey⟩

end Table

/-! ### Queries over several tables -/

section Query

variable {α β : Type*}

/-- The pairs of rows that meet a join condition. -/
def join (l : List α) (m : List β) (on : α → β → Prop) [∀ a b, Decidable (on a b)] :
    List (α × β) :=
  l.flatMap fun a => (m.filter (on a)).map (Prod.mk a)

@[simp] theorem mem_join {l : List α} {m : List β} {on : α → β → Prop}
    [∀ a b, Decidable (on a b)] {a : α} {b : β} :
    (a, b) ∈ join l m on ↔ a ∈ l ∧ b ∈ m ∧ on a b := by
  simp [join]

/-- The left rows of a join, each as often as it has partners. -/
theorem map_fst_join {l : List α} {m : List β} {on : α → β → Prop}
    [∀ a b, Decidable (on a b)] :
    (join l m on).map Prod.fst = l.flatMap fun a => List.replicate (m.filter (on a)).length a := by
  rw [join, List.map_flatMap]
  congr 1
  funext a
  rw [List.map_map, Function.comp_def, List.map_const']

/-- The left rows of two joins are the same, up to order, when the left sides are and each row
has as many partners in both. -/
theorem map_fst_join_perm {l l' : List α} {m m' : List β} {on : α → β → Prop}
    [∀ a b, Decidable (on a b)] (hl : l.Perm l')
    (h : ∀ a ∈ l, (m.filter (on a)).length = (m'.filter (on a)).length) :
    ((join l m on).map Prod.fst).Perm ((join l' m' on).map Prod.fst) := by
  rw [map_fst_join, map_fst_join]
  refine (List.Perm.flatMap_left l fun a ha => ?_).trans (hl.flatMap_right _)
  rw [h a ha]

/-- The error of a query that found several rows where at most one was expected. -/
inductive MultipleResultsFound where
  | mk
deriving DecidableEq

/-- The one distinct row of a result, `none` when it is empty; an error when there are
several. -/
def oneOrNone [DecidableEq α] (l : List α) : Except MultipleResultsFound (Option α) :=
  match l.dedup with
  | [] => .ok none
  | [a] => .ok (some a)
  | _ :: _ :: _ => .error .mk

theorem oneOrNone_eq_some_iff [DecidableEq α] {l : List α} {a : α} :
    oneOrNone l = .ok (some a) ↔ a ∈ l ∧ ∀ b ∈ l, b = a := by
  have hmem : ∀ b, b ∈ l ↔ b ∈ l.dedup := fun b => List.mem_dedup.symm
  have hnodup := List.nodup_dedup l
  simp only [oneOrNone, hmem]
  match l.dedup, hnodup with
  | [], _ => simp
  | [c], _ => simp [eq_comm]
  | c :: d :: rest, hnodup =>
    refine ⟨nofun, fun ⟨_, hall⟩ => ?_⟩
    have hcd : c = d := (hall c (by simp)).trans (hall d (by simp)).symm
    simp [hcd] at hnodup

theorem oneOrNone_eq_none_iff [DecidableEq α] {l : List α} :
    oneOrNone l = .ok none ↔ l = [] := by
  rw [← List.dedup_eq_nil]
  rw [oneOrNone]
  match l.dedup with
  | [] => simp
  | [c] => simp
  | c :: d :: rest => simp

theorem oneOrNone_perm [DecidableEq α] {l l' : List α} (h : l.Perm l') :
    oneOrNone l = oneOrNone l' := by
  have hdedup := h.dedup
  rw [oneOrNone, oneOrNone]
  match l.dedup, l'.dedup, hdedup with
  | [], m, hnil =>
    rw [hnil.symm.eq_nil]
  | [a], m, hone =>
    rw [List.singleton_perm.mp hone]
  | a :: b :: rest, m, hmore =>
    obtain ⟨c, d, rest', rfl⟩ : ∃ c d rest', m = c :: d :: rest' := by
      match m, hmore.length_eq with
      | c :: d :: rest', _ => exact ⟨c, d, rest', rfl⟩
    rfl

end Query

end Relational
