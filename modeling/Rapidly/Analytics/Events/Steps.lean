import Rapidly.Analytics.Events.Ingestion

/-!
# What the steps of an ingestion do

One lemma for each part of `ingest`, so that nothing later on unfolds it.

* `topologicalSort_eq_ok`: the sorted events are the events of the batch, and every event comes
  after the event of the batch that it names as its parent.
* `insertStatements_eq_ok_iff`: which rows are inserted (`newRows`), and when the foreign keys
  allow it.
-/

namespace Rapidly.Analytics.Ingestion

open Relational Identity KeyValue Graph

/-! ### Sorting -/

section Sorting

variable {α : Type} {links : α → Links} {events sorted : List α} {ref : Ref} {i : ℕ}

theorem exists_of_find_idToIndex (h : find (idToIndex links events) ref = some i) :
    ∃ e, events[i]? = some e ∧ ref ∈ (links e).refs := by
  have hmem := mem_of_find_ofEntries h
  rw [List.mem_flatMap] at hmem
  obtain ⟨⟨e, j⟩, he, hmem⟩ := hmem
  obtain ⟨ref', href, heq⟩ := List.mem_map.mp hmem
  obtain ⟨rfl, rfl⟩ := Prod.mk.inj heq
  exact ⟨e, List.mk_mem_zipIdx_iff_getElem?.mp he, href⟩

theorem exists_find_idToIndex {e : α} (he : e ∈ events) (href : ref ∈ (links e).refs) :
    ∃ i, find (idToIndex links events) ref = some i := by
  rw [← Option.isSome_iff_exists, idToIndex, isSome_find_ofEntries]
  obtain ⟨i, hi⟩ := List.getElem?_of_mem he
  refine List.mem_map.mpr ⟨(ref, i), List.mem_flatMap.mpr ⟨(e, i), ?_, ?_⟩, rfl⟩
  · exact List.mk_mem_zipIdx_iff_getElem?.mpr hi
  · exact List.mem_map.mpr ⟨ref, href, rfl⟩

/-- In the list every event comes after one that it names as its parent, if there is one among
the events at all. An empty text names nothing here. -/
def AfterParents (links : α → Links) (events : List α) : List α → List α → Prop
  | _, [] => True
  | done, e :: rest =>
    (∀ ref ∈ (links e).parentId, ref.truthy → (∃ e' ∈ events, ref ∈ (links e').refs) →
      ∃ e' ∈ done, ref ∈ (links e').refs) ∧ AfterParents links events (done ++ [e]) rest

theorem afterParents_of_parentsFirst {done : List α} {s : Set ℕ} {indices : List ℕ}
    (h : ParentsFirst (parentIndex links events) s indices)
    (hdone : ∀ i ∈ s, ∃ e ∈ done, events[i]? = some e) (hlt : ∀ i ∈ indices, i < events.length) :
    AfterParents links events done (indices.filterMap (events[·]?)) := by
  induction indices generalizing done s with
  | nil => trivial
  | cons i indices ih =>
    obtain ⟨e₀, hi⟩ : ∃ e, events[i]? = some e :=
      ⟨_, List.getElem?_eq_getElem (hlt i (List.mem_cons_self ..))⟩
    rw [List.filterMap_cons_some hi]
    refine ⟨fun ref href htruthy ⟨e', he', hnamed⟩ => ?_, ih h.2 (fun j hj => ?_) fun j hj => ?_⟩
    · obtain ⟨j, hj⟩ := exists_find_idToIndex he' hnamed
      have hparent : parentIndex links events i = some j := by
        rw [parentIndex, hi, Option.bind_some, href, Option.bind_some, if_pos htruthy, hj]
      obtain ⟨e, he, hget⟩ := hdone j (h.1 j hparent)
      obtain ⟨e₁, hget₁, hnamed₁⟩ := exists_of_find_idToIndex hj
      obtain rfl := Option.some_inj.mp (hget.symm.trans hget₁)
      exact ⟨e, he, hnamed₁⟩
    · rcases Set.mem_insert_iff.mp hj with rfl | hj
      · exact ⟨_, List.mem_concat_self, hi⟩
      · obtain ⟨e, he, hget⟩ := hdone j hj
        exact ⟨e, List.mem_append_left _ he, hget⟩
    · exact hlt j (List.mem_cons_of_mem i hj)

theorem filterMap_range_getElem? (l : List α) : (List.range l.length).filterMap (l[·]?) = l := by
  induction l using List.reverseRecOn with
  | nil => rfl
  | append_singleton l e ih =>
    have hold : (List.range l.length).filterMap ((l ++ [e])[·]?) =
        (List.range l.length).filterMap (l[·]?) := by
      refine List.filterMap_congr fun j hj => ?_
      exact List.getElem?_append_left (List.mem_range.mp hj)
    rw [List.length_append, List.length_singleton, List.range_succ, List.filterMap_append, hold, ih]
    simp

theorem topologicalSort_eq_ok (h : topologicalSort links events = .ok sorted) :
    sorted.Perm events ∧ AfterParents links events [] sorted := by
  rw [topologicalSort] at h
  split at h
  next indices hkahn =>
    obtain ⟨hperm, horder⟩ := kahn_eq_some hkahn
    obtain rfl := Except.ok.inj h
    refine ⟨?_, afterParents_of_parentsFirst horder (fun i hi => absurd hi (Set.notMem_empty i))
      fun i hi => List.mem_range.mp (hperm.mem_iff.mp hi)⟩
    exact (hperm.filterMap _).trans (by rw [filterMap_range_getElem?])
  next => cases h

end Sorting

/-! ### The ids of a batch -/

section Ids

variable {draws : Draw → Uuid} {batch : List EventCreate} {x y : String} {u : Uuid}

theorem exists_of_find_batchExternalIdMap (h : find (batchExternalIdMap draws batch) x = some u) :
    ∃ i e, batch[i]? = some e ∧ e.externalId = some x ∧ u = draws (.externalId i) := by
  have hmem := mem_of_find_ofEntries h
  rw [List.mem_filterMap] at hmem
  obtain ⟨⟨e, i⟩, he, hmap⟩ := hmem
  obtain ⟨x', hx', heq⟩ := Option.map_eq_some_iff.mp hmap
  obtain ⟨rfl, rfl⟩ := Prod.mk.inj heq
  exact ⟨i, e, List.mk_mem_zipIdx_iff_getElem?.mp he, hx', rfl⟩

theorem isSome_find_batchExternalIdMap :
    (find (batchExternalIdMap draws batch) x).isSome ↔ ∃ e ∈ batch, e.externalId = some x := by
  rw [batchExternalIdMap, isSome_find_ofEntries, List.mem_map]
  constructor
  · rintro ⟨⟨x', u⟩, hmem, rfl⟩
    obtain ⟨⟨e, i⟩, he, hmap⟩ := List.mem_filterMap.mp hmem
    obtain ⟨x, hx, heq⟩ := Option.map_eq_some_iff.mp hmap
    obtain ⟨rfl, -⟩ := Prod.mk.inj heq
    exact ⟨e, List.mem_of_getElem? (List.mk_mem_zipIdx_iff_getElem?.mp he), hx⟩
  · rintro ⟨e, he, hx⟩
    obtain ⟨i, hi⟩ := List.getElem?_of_mem he
    refine ⟨(x, draws (.externalId i)), List.mem_filterMap.mpr ⟨(e, i), ?_, ?_⟩, rfl⟩
    · exact List.mk_mem_zipIdx_iff_getElem?.mpr hi
    · exact Option.map_eq_some_iff.mpr ⟨x, hx, rfl⟩

theorem find_batchExternalIdMap_inj (hdraws : draws.Injective)
    (hx : find (batchExternalIdMap draws batch) x = some u)
    (hy : find (batchExternalIdMap draws batch) y = some u) : x = y := by
  obtain ⟨i, e, hi, hex, hu⟩ := exists_of_find_batchExternalIdMap hx
  obtain ⟨j, f, hj, hfy, hu'⟩ := exists_of_find_batchExternalIdMap hy
  obtain rfl := Draw.externalId.inj (hdraws (hu.symm.trans hu'))
  obtain rfl := Option.some_inj.mp (hi.symm.trans hj)
  exact Option.some_inj.mp (hex.symm.trans hfy)

end Ids

/-! ### Insertion -/

section Insertion

variable {taken taken' : List String} {rows rows' : List Event} {r : Event}

/-- The rows that are inserted: the first with each external id, unless the external id is taken
already, and all rows without one. -/
def newRows (taken : List String) : List Event → List Event
  | [] => []
  | r :: rest =>
    match r.externalId with
    | none => r :: newRows taken rest
    | some x => if x ∈ taken then newRows taken rest else r :: newRows (x :: taken) rest

theorem newRows_congr (h : ∀ r ∈ rows, ∀ x ∈ r.externalId, (x ∈ taken ↔ x ∈ taken')) :
    newRows taken rows = newRows taken' rows := by
  induction rows generalizing taken taken' with
  | nil => rfl
  | cons r rest ih =>
    have hrest : ∀ r' ∈ rest, ∀ x ∈ r'.externalId, (x ∈ taken ↔ x ∈ taken') := fun r' hr' =>
      h r' (List.mem_cons_of_mem r hr')
    rw [newRows, newRows]
    rcases hr : r.externalId with _ | x
    · exact congrArg _ (ih hrest)
    · dsimp only
      have hnew : newRows (x :: taken) rest = newRows (x :: taken') rest := by
        refine ih fun r' hr' y hy => ?_
        rw [List.mem_cons, List.mem_cons, hrest r' hr' y hy]
      rw [ih hrest, hnew]
      simp only [h r List.mem_cons_self x hr]

theorem newRows_append : newRows taken (rows ++ rows') =
    newRows taken rows ++
      newRows ((newRows taken rows).filterMap (fun e => e.externalId) ++ taken) rows' := by
  induction rows generalizing taken with
  | nil => rfl
  | cons r rest ih =>
    rw [List.cons_append, newRows, newRows]
    rcases hr : r.externalId with _ | x
    · dsimp only
      rw [ih, List.cons_append, List.filterMap_cons_none (f := fun e : Event => e.externalId) hr]
    · dsimp only
      split
      · exact ih
      · rw [ih, List.cons_append, List.filterMap_cons_some (f := fun e : Event => e.externalId) hr]
        refine congrArg _ (congrArg _ (newRows_congr fun _ _ y _ => ?_))
        simp only [List.mem_append, List.mem_cons]
        tauto

theorem newRows_sublist (taken : List String) (rows : List Event) :
    (newRows taken rows).Sublist rows := by
  induction rows generalizing taken with
  | nil => exact List.Sublist.refl _
  | cons r rest ih =>
    rw [newRows]
    rcases r.externalId with _ | x
    · exact (ih taken).cons_cons r
    · dsimp only
      split
      · exact (ih taken).cons r
      · exact (ih (x :: taken)).cons_cons r

theorem not_mem_of_mem_newRows (h : r ∈ newRows taken rows) : ∀ x ∈ r.externalId, x ∉ taken := by
  induction rows generalizing taken with
  | nil => exact absurd h List.not_mem_nil
  | cons r' rest ih =>
    rw [newRows] at h
    rcases hr' : r'.externalId with _ | x' <;> rw [hr'] at h
    · rcases List.mem_cons.mp h with rfl | h
      · intro x hx
        rw [hr'] at hx
        cases hx
      · exact ih h
    · dsimp only at h
      split at h
      · exact ih h
      next hnot =>
        rcases List.mem_cons.mp h with rfl | h
        · intro x hx
          obtain rfl := Option.some_inj.mp (hr'.symm.trans hx)
          exact hnot
        · exact fun x hx hmem => ih h x hx (List.mem_cons_of_mem x' hmem)

theorem exists_newRows {x : String} (hr : r ∈ rows) (hx : r.externalId = some x)
    (hnot : x ∉ taken) : ∃ r' ∈ newRows taken rows, r'.externalId = some x := by
  induction rows generalizing taken with
  | nil => exact absurd hr List.not_mem_nil
  | cons r' rest ih =>
    rw [newRows]
    rcases hr' : r'.externalId with _ | x'
    · rcases List.mem_cons.mp hr with rfl | hr
      · rw [hr'] at hx
        cases hx
      · obtain ⟨s, hs, hsx⟩ := ih hr hnot
        exact ⟨s, List.mem_cons_of_mem r' hs, hsx⟩
    · dsimp only
      by_cases heq : x' = x
      · subst heq
        rw [if_neg hnot]
        exact ⟨r', List.mem_cons_self .., hr'⟩
      · have hrest : r ∈ rest := by
          refine (List.mem_cons.mp hr).resolve_left fun h => heq ?_
          rw [h] at hx
          exact Option.some_inj.mp (hr'.symm.trans hx)
        split
        · exact ih hrest hnot
        · obtain ⟨s, hs, hsx⟩ := @ih (x' :: taken) hrest fun hmem =>
            (List.mem_cons.mp hmem).elim (fun h => heq h.symm) hnot
          exact ⟨s, List.mem_cons_of_mem r' hs, hsx⟩

/-- A row with the id of an earlier one also has its external id, so that it is dropped. -/
def Apart (r r' : Event) : Prop :=
  r.id = r'.id → r'.externalId ≠ none ∧ r.externalId = r'.externalId

/-- The external ids of some rows. -/
def externalIds (rows : List Event) : List String := rows.filterMap fun e => e.externalId

theorem mem_externalIds {x : String} :
    x ∈ externalIds rows ↔ ∃ e ∈ rows, e.externalId = some x := List.mem_filterMap

theorem insertRows_eq (t : EventRows) (hold : ∀ s ∈ t.table.rows, ∀ r ∈ rows, Apart s r)
    (hrows : rows.Pairwise Apart) :
    ∃ t', insertRows t rows = .ok (t', newRows (externalIds t.table.rows) rows) ∧
      t'.table.rows = (newRows (externalIds t.table.rows) rows).reverse ++ t.table.rows := by
  induction rows generalizing t with
  | nil => exact ⟨t, rfl, rfl⟩
  | cons r rest ih =>
    obtain ⟨hr, hrest⟩ := List.pairwise_cons.mp hrows
    have hrest' : ∀ s ∈ t.table.rows, ∀ r' ∈ rest, Apart s r' := fun s hs r' hr' =>
      hold s hs r' (List.mem_cons_of_mem r hr')
    rw [insertRows]
    by_cases hx : t.Conflicts r
    · obtain ⟨x, hsome, hmem⟩ := hx
      have hnew : newRows (externalIds t.table.rows) (r :: rest) =
          newRows (externalIds t.table.rows) rest := by
        rw [newRows, Option.mem_def.mp hsome]
        exact if_pos hmem
      rw [dif_pos ⟨x, hsome, hmem⟩, hnew]
      exact ih t hrest' hrest
    · -- the id is new, or else the external id would not be
      have hid : r.id ∉ t.table.rows.map Event.id := by
        intro hmem
        obtain ⟨s, hs, hsr⟩ := List.mem_map.mp hmem
        obtain ⟨hne, hsame⟩ := hold s hs r (List.mem_cons_self ..) hsr
        obtain ⟨x, hsome⟩ := Option.ne_none_iff_exists'.mp hne
        exact hx ⟨x, hsome, mem_externalIds.mpr ⟨s, hs, hsame.trans hsome⟩⟩
      have hold' : ∀ s ∈ (t.add r hid hx).table.rows, ∀ r' ∈ rest, Apart s r' := by
        intro s hs r' hr'
        rcases List.mem_cons.mp hs with rfl | hs
        · exact hr r' hr'
        · exact hrest' s hs r' hr'
      obtain ⟨t', ht', hrows'⟩ := ih (t.add r hid hx) hold' hrest
      have hnew : newRows (externalIds t.table.rows) (r :: rest) =
          r :: newRows (externalIds (t.add r hid hx).table.rows) rest := by
        rw [newRows]
        rcases hsome : r.externalId with _ | x
        · refine congrArg _ (newRows_congr fun _ _ y _ => ?_)
          simp [mem_externalIds, EventRows.add, Table.add, hsome]
        · have hfree : x ∉ externalIds t.table.rows := fun hmem => hx ⟨x, hsome, hmem⟩
          dsimp only
          rw [if_neg hfree]
          refine congrArg _ (newRows_congr fun _ _ y _ => ?_)
          simp [mem_externalIds, EventRows.add, Table.add, hsome, eq_comm]
      rw [dif_neg hx, dif_neg hid, ht', hnew]
      refine ⟨t', rfl, ?_⟩
      rw [hrows', List.reverse_cons, List.append_assoc]
      rfl

/-- The event is stored. -/
def Database.HasEvent (db : Database) (u : Uuid) : Prop := ∃ e ∈ db.events.rows, e.id = u

/-- The references of a row to other events. -/
def Event.refs (r : Event) : List Uuid := r.parentId.toList ++ r.rootId.toList

/-- New rows refer to stored events and to one another. -/
def Closed (db : Database) (new : List Event) : Prop :=
  ∀ r ∈ new, ∀ u ∈ r.refs, db.HasEvent u ∨ ∃ s ∈ new, s.id = u

/-- The database with new rows. -/
structure Inserted (db db' : Database) (new : List Event) : Prop where
  directory : db'.toDatabase = db.toDatabase
  eventTypes : db'.eventTypes = db.eventTypes
  rows : db'.events.rows = new.reverse ++ db.events.rows

variable {db db' : Database} {new : List Event}

theorem Inserted.mem_rows (h : Inserted db db' new) :
    r ∈ db'.events.rows ↔ r ∈ new ∨ r ∈ db.events.rows := by
  rw [h.rows, List.mem_append, List.mem_reverse]

theorem Inserted.hasEvent (h : Inserted db db' new)
    {u : Uuid} : db'.HasEvent u ↔ db.HasEvent u ∨ ∃ s ∈ new, s.id = u := by
  constructor
  · rintro ⟨e, he, hid⟩
    exact (h.mem_rows.mp he).symm.imp (fun he => ⟨e, he, hid⟩) fun he => ⟨e, he, hid⟩
  · rintro (⟨e, he, hid⟩ | ⟨e, he, hid⟩)
    · exact ⟨e, h.mem_rows.mpr (.inr he), hid⟩
    · exact ⟨e, h.mem_rows.mpr (.inl he), hid⟩

theorem Inserted.trans {db db₁ db₂ : Database} {new new' : List Event} (h : Inserted db db₁ new)
    (h' : Inserted db₁ db₂ new') : Inserted db db₂ (new ++ new') where
  directory := h'.directory.trans h.directory
  eventTypes := h'.eventTypes.trans h.eventTypes
  rows := by rw [h'.rows, h.rows, List.reverse_append, List.append_assoc]

theorem references_iff {t : EventRows} (ht : t.table.rows = new.reverse ++ db.events.rows) :
    t.References ↔ Closed db new := by
  have hmem : ∀ e, e ∈ t.table.rows ↔ e ∈ new ∨ e ∈ db.events.rows := by
    intro e
    rw [ht, List.mem_append, List.mem_reverse]
  have hhas : ∀ u, (∃ e ∈ t.table.rows, e.id = u) ↔ db.HasEvent u ∨ ∃ s ∈ new, s.id = u := by
    intro u
    simp only [hmem, or_and_right, exists_or, Database.HasEvent, or_comm]
  constructor
  · rintro ⟨hparent, hroot⟩ r hr u hu
    rcases List.mem_append.mp hu with hu | hu
    · exact (hhas u).mp (hparent r ((hmem r).mpr (.inl hr)) u (Option.mem_toList.mp hu))
    · exact (hhas u).mp (hroot r ((hmem r).mpr (.inl hr)) u (Option.mem_toList.mp hu))
  · intro hclosed
    constructor
    · intro r hr u hu
      refine (hhas u).mpr (((hmem r).mp hr).elim (fun hnew => ?_) fun hold => .inl ?_)
      · exact hclosed r hnew u (List.mem_append_left _ (Option.mem_toList.mpr hu))
      · exact db.events_parent r hold u hu
    · intro r hr u hu
      refine (hhas u).mpr (((hmem r).mp hr).elim (fun hnew => ?_) fun hold => .inl ?_)
      · exact hclosed r hnew u (List.mem_append_right _ (Option.mem_toList.mpr hu))
      · exact db.events_root r hold u hu

theorem insertStatement_eq (db : Database) (hold : ∀ s ∈ db.events.rows, ∀ r ∈ rows, Apart s r)
    (hrows : rows.Pairwise Apart) :
    (Closed db (newRows (externalIds db.events.rows) rows) ∧
      ∃ db', insertStatement db rows = .ok (db', newRows (externalIds db.events.rows) rows) ∧
        Inserted db db' (newRows (externalIds db.events.rows) rows)) ∨
    (¬Closed db (newRows (externalIds db.events.rows) rows) ∧
      insertStatement db rows = .error .foreignKeyViolation) := by
  obtain ⟨t, ht, hrows'⟩ := insertRows_eq ⟨db.events, db.events_externalId⟩ hold hrows
  by_cases hclosed : Closed db (newRows (externalIds db.events.rows) rows)
  · have href : t.References := (references_iff hrows').mpr hclosed
    refine .inl ⟨hclosed, db.withEvents t href, ?_, rfl, rfl, hrows'⟩
    rw [insertStatement, ht]
    exact dif_pos href
  · refine .inr ⟨hclosed, ?_⟩
    rw [insertStatement, ht]
    exact dif_neg fun href => hclosed ((references_iff hrows').mp href)

/-- The rows of the first statement are there when the next ones are inserted. -/
theorem Inserted.closed_append_iff {new new' : List Event} (h : Inserted db db' new)
    (hclosed : Closed db new) : Closed db (new ++ new') ↔ Closed db' new' := by
  constructor
  · intro hall r hr u hu
    rw [h.hasEvent, or_assoc]
    refine (hall r (List.mem_append_right _ hr) u hu).imp_right ?_
    rintro ⟨s, hs, hid⟩
    exact (List.mem_append.mp hs).imp (fun hs => ⟨s, hs, hid⟩) fun hs => ⟨s, hs, hid⟩
  · intro hnew r hr u hu
    rcases List.mem_append.mp hr with hr | hr
    · refine (hclosed r hr u hu).imp_right ?_
      rintro ⟨s, hs, hid⟩
      exact ⟨s, List.mem_append_left _ hs, hid⟩
    · rcases hnew r hr u hu with hhas | ⟨s, hs, hid⟩
      · refine (h.hasEvent.mp hhas).imp_right ?_
        rintro ⟨s, hs, hid⟩
        exact ⟨s, List.mem_append_left _ hs, hid⟩
      · exact .inr ⟨s, List.mem_append_right _ hs, hid⟩

theorem Inserted.newRows_append (h : Inserted db db' (newRows (externalIds db.events.rows) rows))
    (rows' : List Event) :
    newRows (externalIds db.events.rows) (rows ++ rows') =
      newRows (externalIds db.events.rows) rows ++ newRows (externalIds db'.events.rows) rows' := by
  rw [Ingestion.newRows_append]
  refine congrArg _ (newRows_congr fun _ _ x _ => ?_)
  rw [List.mem_append, mem_externalIds, mem_externalIds, List.mem_filterMap]
  simp only [h.mem_rows, or_and_right, exists_or]

theorem insertStatements_cons (h : insertStatement db rows = .ok (db', new))
    (rest : List (List Event)) :
    insertStatements db (rows :: rest) =
      (insertStatements db' rest).map fun q => (q.1, new ++ q.2) := by
  rw [insertStatements, h]
  change (insertStatements db' rest).bind _ = _
  rcases insertStatements db' rest with _ | _ <;> rfl

/-- All statements are executed if after each of them the new rows are closed; otherwise a
foreign key is violated. -/
theorem insertStatements_eq (db : Database) (statements : List (List Event))
    (hold : ∀ s ∈ db.events.rows, ∀ r ∈ statements.flatten, Apart s r)
    (hrows : statements.flatten.Pairwise Apart) :
    ((∀ k, Closed db (newRows (externalIds db.events.rows) (statements.take k).flatten)) ∧
      ∃ db', insertStatements db statements =
          .ok (db', newRows (externalIds db.events.rows) statements.flatten) ∧
        Inserted db db' (newRows (externalIds db.events.rows) statements.flatten)) ∨
    ((∃ k, ¬Closed db (newRows (externalIds db.events.rows) (statements.take k).flatten)) ∧
      insertStatements db statements = .error .foreignKeyViolation) := by
  induction statements generalizing db with
  | nil =>
    refine .inl ⟨fun k r hr => ?_, db, rfl, rfl, rfl, rfl⟩
    rw [List.take_nil, List.flatten_nil] at hr
    exact absurd hr List.not_mem_nil
  | cons rows rest ih =>
    rw [List.flatten_cons] at hold hrows
    obtain ⟨hfirst, hrest, hcross⟩ := List.pairwise_append.mp hrows
    have hold₀ : ∀ s ∈ db.events.rows, ∀ r ∈ rows, Apart s r := fun s hs r hr =>
      hold s hs r (List.mem_append_left _ hr)
    rcases insertStatement_eq db hold₀ hfirst with ⟨hclosed, db₁, hok, hins⟩ | ⟨hclosed, herror⟩
    · have hold₁ : ∀ s ∈ db₁.events.rows, ∀ r ∈ rest.flatten, Apart s r := by
        intro s hs r hr
        rcases hins.mem_rows.mp hs with hs | hs
        · exact hcross s ((newRows_sublist _ rows).subset hs) r hr
        · exact hold s hs r (List.mem_append_right _ hr)
      have hnext (k : ℕ) :
          Closed db (newRows (externalIds db.events.rows) ((rows :: rest).take (k + 1)).flatten) ↔
            Closed db₁ (newRows (externalIds db₁.events.rows) (rest.take k).flatten) := by
        rw [List.take_succ_cons, List.flatten_cons, hins.newRows_append,
          hins.closed_append_iff hclosed]
      rw [insertStatements_cons hok, List.flatten_cons, hins.newRows_append]
      rcases ih db₁ hold₁ hrest with ⟨hall, db₂, hok₂, hins₂⟩ | ⟨⟨k, hk⟩, herror⟩
      · refine .inl ⟨fun k => ?_, db₂, ?_, hins.trans hins₂⟩
        · rcases k with _ | k
          · exact fun r hr => absurd hr List.not_mem_nil
          · exact (hnext k).mpr (hall k)
        · rw [hok₂]
          rfl
      · refine .inr ⟨⟨k + 1, fun hall => hk ((hnext k).mp hall)⟩, ?_⟩
        rw [herror]
        rfl
    · -- the first statement fails already
      refine .inr ⟨⟨1, ?_⟩, ?_⟩
      · rw [List.take_succ_cons, List.take_zero, List.flatten_singleton]
        exact hclosed
      · rw [insertStatements, herror]
        rfl

end Insertion

end Rapidly.Analytics.Ingestion
