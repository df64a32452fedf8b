import Rapidly.Projects.Steps

/-!
# Replacing assignees and labels

An update of a work item may carry a list of assignees and a list of labels, which are to replace
those that the work item has. `Replaces` is what such an update is for: it succeeds, and then the
work item has exactly what is on the lists. `Store.Valid` says that an update is in order: the
work item is found, and everything it names has been verified.

The replacement compares the list with the live join rows, and inserts a row for each target that
has none. The row of a target that was removed before is still in the table under the same unique
pair, so that the insertion fails. `replaces_iff_noneReadded` says that in every run this is the
only way in which a valid update fails, and `readded_fails` is an assignee who comes back.
-/

namespace Rapidly.Projects

open Relational Transition Fallible

open Identity (Uuid Time WorkspaceMembership)

/-! ### Keys that stay -/

section Keys

variable {Row Row' Key Key' : Type} {key : Row → Key} {key' : Row' → Key'} {t : Table key}
  {t' : Table key'} {p : Row' → Prop} [DecidablePred p] {f : Row' → Row'}

theorem exists_key_modify (hf : ∀ r, key' (f r) = key' r) {k : Key'}
    (h : ∃ r ∈ t', key' r = k) : ∃ r ∈ t'.modify p f hf, key' r = k := by
  obtain ⟨r, hr, hk⟩ := h
  refine ⟨_, Table.mem_modify_of_mem (p := p) hr hf, ?_⟩
  split
  · exact (hf r).trans hk
  · exact hk

theorem references_modify {g : Row → Key'} (h : t.References g t')
    (hf : ∀ r, key' (f r) = key' r) : t.References g (t'.modify p f hf) :=
  fun r hr => exists_key_modify hf (h r hr)

end Keys

/-! ### Updates that are in order -/

/-- An update that is in order: the caller may write the work item, and the columns, the assignees
and the labels have been verified. -/
def Store.Valid (s : Store) (subject : Subject) (id : Uuid) (data : WorkItemUpdate) : Prop :=
  ∃ item project, s.getWorkItem subject id = some item ∧
    s.verifyUpdate subject item data = .ok project ∧ ¬data.Nulls ∧
    (∀ ids ∈ data.assigneeIds, s.verifyAssignees project.workspaceId ids = .ok ()) ∧
    ∀ ids ∈ data.labelIds, s.verifyLabels project.id ids = .ok ()

/-- The update succeeds, and the work item has what is on the lists. -/
def Store.Replaces (s : Store) (subject : Subject) (id : Uuid) (data : WorkItemUpdate)
    (now : Time) : Prop :=
  ∃ s', s.updateWorkItem subject id data now = .ok s' ∧
    (∀ ids ∈ data.assigneeIds, ∀ userId, userId ∈ s'.getAssigneeIds id ↔ userId ∈ ids) ∧
    ∀ ids ∈ data.labelIds, ∀ labelId, labelId ∈ s'.getLabelIds id ↔ labelId ∈ ids

/-- Nobody and nothing on the lists was removed from the work item before. -/
def Store.NoneReadded (s : Store) (id : Uuid) (data : WorkItemUpdate) : Prop :=
  (∀ ids ∈ data.assigneeIds, NoneRemoved s.assignees id ids) ∧
    ∀ ids ∈ data.labelIds, NoneRemoved s.itemLabels id ids

section Step

variable {s s' : Store} {subject : Subject} {id : Uuid} {item : WorkItem} {project : Project}
  {now : Time}

theorem exists_writeFields {data : WorkItemUpdate} (hnulls : ¬data.Nulls)
    (hverify : s.verifyUpdate subject item data = .ok project) :
    ∃ s', s.writeFields item data = .ok s' := by
  obtain ⟨-, -, hparent⟩ := Store.verifyUpdate_eq_ok hverify
  have hnumber : (s.workItems.modify (·.id = item.id) data.apply fun _ => rfl).UniqueOn
      WorkItem.number := s.workItems_number.modify (f := data.apply) fun _ => rfl
  have hparents : (s.workItems.modify (·.id = item.id) data.apply fun _ => rfl).ReferencesNullable
      WorkItem.parentId (s.workItems.modify (·.id = item.id) data.apply fun _ => rfl) := by
    intro r' hr' p hp
    refine exists_key_modify (f := data.apply) (fun _ => rfl) ?_
    obtain ⟨r, hr, rfl⟩ := (Table.mem_modify (f := data.apply) fun _ => rfl).mp hr'
    split at hp
    · rcases hgiven : data.parentId with _ | parent
      · have hold : r.parentId = some p := by rw [← hp, WorkItemUpdate.apply, hgiven]; rfl
        exact s.workItems_parent r hr p hold
      · have hnew : parent = some p := by rw [← hp, WorkItemUpdate.apply, hgiven]; rfl
        obtain ⟨-, row, hrow, hid, -⟩ := hparent p (by rw [hgiven, hnew]; rfl)
        exact ⟨row, hrow, hid⟩
    · exact s.workItems_parent r hr p hp
  rw [Store.writeFields, if_neg hnulls, Store.withWorkItems, dif_pos]
  · exact ⟨_, rfl⟩
  · exact ⟨⟨hnumber, hparents⟩,
      references_modify (f := data.apply) s.assignees_workItem fun _ => rfl,
      references_modify (f := data.apply) s.itemLabels_workItem fun _ => rfl⟩

theorem references_reconcile {t t' : Table JoinRow.key} {workItems : Table WorkItem.id}
    {targets : List Uuid} (ht : t.References JoinRow.workItemId workItems)
    (hitem : ∃ r ∈ workItems, r.id = item.id)
    (h : reconcile t item.id targets now = .ok t') :
    t'.References JoinRow.workItemId workItems := by
  intro r hr
  rcases workItemId_of_mem_reconcile h hr with hown | ⟨r₀, hr₀, hsame⟩
  · rw [hown]
    exact hitem
  · rw [← hsame]
    exact ht r₀ hr₀

/-- A verified list replaces what is joined exactly when nothing on it comes back. -/
theorem exists_replace_iff {t : Table JoinRow.key} {ids : List Uuid}
    {verified : Except ProjectError Unit} {write : Table JoinRow.key → Except ProjectError Store}
    (hverify : verified = .ok ())
    (hwrite : ∀ t', reconcile t item.id ids now = .ok t' → ∃ s', write t' = .ok s') :
    (∃ s', (verified >>= fun _ => reconcile t item.id ids now >>= write) = .ok s') ↔
      NoneRemoved t item.id ids := by
  have hreconciled : (∃ t', reconcile t item.id ids now = .ok t') ↔ NoneRemoved t item.id ids :=
    exists_reconcile_iff
  rw [← hreconciled]
  constructor
  · rintro ⟨s', h⟩
    obtain ⟨_, -, h⟩ := bind_eq_ok.mp h
    obtain ⟨t', hreconcile, -⟩ := bind_eq_ok.mp h
    exact ⟨t', hreconcile⟩
  · rintro ⟨t', hreconcile⟩
    obtain ⟨s', hs'⟩ := hwrite t' hreconcile
    exact ⟨s', bind_eq_ok.mpr ⟨(), hverify, bind_eq_ok.mpr ⟨t', hreconcile, hs'⟩⟩⟩

theorem exists_replaceAssignees_iff {assigneeIds : Option (List Uuid)}
    (hitem : ∃ r ∈ s.workItems, r.id = item.id)
    (hverify : ∀ ids ∈ assigneeIds, s.verifyAssignees project.workspaceId ids = .ok ()) :
    (∃ s', s.replaceAssignees project item now assigneeIds = .ok s') ↔
      ∀ ids ∈ assigneeIds, NoneRemoved s.assignees item.id ids := by
  rcases assigneeIds with _ | ids
  · exact ⟨fun _ => nofun, fun _ => ⟨s, rfl⟩⟩
  · simp only [Option.mem_some_iff, forall_eq']
    exact exists_replace_iff (hverify ids rfl) fun assignees hreconcile =>
      ⟨_, dif_pos (references_reconcile s.assignees_workItem hitem hreconcile)⟩

theorem exists_replaceLabels_iff {labelIds : Option (List Uuid)}
    (hitem : ∃ r ∈ s.workItems, r.id = item.id)
    (hverify : ∀ ids ∈ labelIds, s.verifyLabels project.id ids = .ok ()) :
    (∃ s', s.replaceLabels project item now labelIds = .ok s') ↔
      ∀ ids ∈ labelIds, NoneRemoved s.itemLabels item.id ids := by
  rcases labelIds with _ | ids
  · exact ⟨fun _ => nofun, fun _ => ⟨s, rfl⟩⟩
  · simp only [Option.mem_some_iff, forall_eq']
    exact exists_replace_iff (hverify ids rfl) fun itemLabels hreconcile =>
      ⟨_, dif_pos (references_reconcile s.itemLabels_workItem hitem hreconcile)⟩

/-- An update in order succeeds exactly when nobody and nothing on its lists comes back. -/
theorem exists_updateWorkItem_iff {data : WorkItemUpdate} (hvalid : s.Valid subject id data) :
    (∃ s', s.updateWorkItem subject id data now = .ok s') ↔ s.NoneReadded id data := by
  obtain ⟨item, project, hget, hverify, hnulls, hassignees, hlabels⟩ := hvalid
  obtain ⟨hitem, rfl, -⟩ := Store.getWorkItem_eq_some hget
  obtain ⟨s₁, hs₁⟩ := exists_writeFields hnulls hverify
  have htables := Store.writeFields_eq_ok hs₁
  have hitem₁ : ∃ r ∈ s₁.workItems, r.id = item.id := by
    rw [htables]
    exact exists_key_modify (f := data.apply) (fun _ => rfl) ⟨item, hitem, rfl⟩
  have hassignees₁ : ∀ ids ∈ data.assigneeIds,
      s₁.verifyAssignees project.workspaceId ids = .ok () := by
    intro ids hids
    rw [Store.verifyAssignees, htables]
    exact hassignees ids hids
  have hreplace : (∃ s₂, s₁.replaceAssignees project item now data.assigneeIds = .ok s₂) ↔
      ∀ ids ∈ data.assigneeIds, NoneRemoved s₁.assignees item.id ids :=
    exists_replaceAssignees_iff hitem₁ hassignees₁
  have hok (s' : Store) : s.updateWorkItem subject item.id data now = .ok s' ↔
      ∃ s₂, s₁.replaceAssignees project item now data.assigneeIds = .ok s₂ ∧
        s₂.replaceLabels project item now data.labelIds = .ok s' := by
    rw [Store.updateWorkItem, hget]
    change ((s.verifyUpdate subject item data).bind _) = _ ↔ _
    rw [hverify]
    rw [hs₁]
    change (s₁.replaceAssignees project item now data.assigneeIds >>= fun s₂ =>
      s₂.replaceLabels project item now data.labelIds) = _ ↔ _
    exact bind_eq_ok
  -- The replacement of the labels sees the tables that the first one leaves alone.
  have hlabels₂ (s₂ : Store)
      (hs₂ : s₁.replaceAssignees project item now data.assigneeIds = .ok s₂) :
      (∃ s', s₂.replaceLabels project item now data.labelIds = .ok s') ↔
        ∀ ids ∈ data.labelIds, NoneRemoved s.itemLabels item.id ids := by
    obtain ⟨assignees, -, htables₂⟩ := Store.replaceAssignees_eq_ok hs₂
    have hitem₂ : ∃ r ∈ s₂.workItems, r.id = item.id := by
      rw [htables₂]
      exact hitem₁
    have hverify₂ : ∀ ids ∈ data.labelIds, s₂.verifyLabels project.id ids = .ok () := by
      intro ids hids
      rw [Store.verifyLabels, htables₂, htables]
      exact hlabels ids hids
    rw [exists_replaceLabels_iff hitem₂ hverify₂, htables₂, htables]
  rw [htables] at hreplace
  constructor
  · rintro ⟨s', hs'⟩
    obtain ⟨s₂, hs₂, hs'⟩ := (hok s').mp hs'
    exact ⟨hreplace.mp ⟨s₂, hs₂⟩, (hlabels₂ s₂ hs₂).mp ⟨s', hs'⟩⟩
  · rintro ⟨hnone, hnone'⟩
    obtain ⟨s₂, hs₂⟩ := hreplace.mpr hnone
    obtain ⟨s', hs'⟩ := (hlabels₂ s₂ hs₂).mpr hnone'
    exact ⟨s', (hok s').mpr ⟨s₂, hs₂, hs'⟩⟩

theorem mem_of_updateWorkItem {data : WorkItemUpdate}
    (h : s.updateWorkItem subject id data now = .ok s') :
    (∀ ids ∈ data.assigneeIds, ∀ userId, userId ∈ s'.getAssigneeIds id ↔ userId ∈ ids) ∧
      ∀ ids ∈ data.labelIds, ∀ labelId, labelId ∈ s'.getLabelIds id ↔ labelId ∈ ids := by
  obtain ⟨item, project, assignees, itemLabels, hget, -, -, hassignees, hlabels, htables⟩ :=
    Store.updateWorkItem_eq_ok h
  obtain ⟨-, rfl, -⟩ := Store.getWorkItem_eq_some hget
  rw [Store.getAssigneeIds, Store.getLabelIds, htables]
  refine ⟨fun ids hids userId => ?_, fun ids hids labelId => ?_⟩
  · rw [hids] at hassignees
    exact mem_joinedIds_reconcile hassignees
  · rw [hids] at hlabels
    exact mem_joinedIds_reconcile hlabels

/-- **One update.** -/
theorem replaces_step {data : WorkItemUpdate} (hvalid : s.Valid subject id data) :
    s.Replaces subject id data now ↔ s.NoneReadded id data := by
  have hok : (∃ s', s.updateWorkItem subject id data now = .ok s') ↔ s.NoneReadded id data :=
    exists_updateWorkItem_iff hvalid
  rw [← hok]
  constructor
  · rintro ⟨s', hs', -⟩
    exact ⟨s', hs'⟩
  · rintro ⟨s', hs'⟩
    exact ⟨s', hs', mem_of_updateWorkItem hs'⟩

end Step

/-! ### Over a run -/

/-- An update of a work item that is in order replaces what it is to replace. -/
def ReplacesWhenValid (s : Store) : Operation → Prop
  | .updateWorkItem subject id data now =>
    s.Valid subject id data → s.Replaces subject id data now
  | _ => True

/-- An update of a work item that is in order names nobody and nothing removed before. -/
def NoneReaddedWhenValid (s : Store) : Operation → Prop
  | .updateWorkItem subject id data _ => s.Valid subject id data → s.NoneReadded id data
  | _ => True

/-- **Assignee and label replacement.** In every sequence of operations, all updates that are in
order succeed and leave what is on their lists, if and only if none of them names an assignee or a
label that was removed from the work item before. -/
theorem replaces_iff_noneReadded (start : Store) (ops : List Operation) :
    (operations start).Along (fun _ s op => ReplacesWhenValid s op) ops ↔
      (operations start).Along (fun _ s op => NoneReaddedWhenValid s op) ops := by
  refine (operations start).along_congr fun past op => ?_
  rcases op with _ | _ | _ | _ | _ | _ | _ | ⟨subject, id, data, now⟩ | _ | _
  case updateWorkItem => exact forall_congr' fun hvalid => replaces_step hvalid
  all_goals exact Iff.rfl

/-- The member is assigned, removed and assigned again. -/
def assignedAgain : List Operation :=
  [.updateWorkItem (.workspace 9) 20 { assigneeIds := some [7] } 1,
    .updateWorkItem (.workspace 9) 20 { assigneeIds := some [] } 2,
    .updateWorkItem (.workspace 9) 20 { assigneeIds := some [7] } 3]

/-- **An assignee who comes back.** The third update is in order and fails. -/
theorem readded_fails :
    ¬∀ start ops, (operations start).Along (fun _ s op => ReplacesWhenValid s op) ops := by
  intro h
  obtain ⟨-, -, hreplaces, -⟩ := h oneItem assignedAgain
  obtain ⟨s', hs', -⟩ := hreplaces
    ⟨_, { id := 1, workspaceId := 9 }, rfl, rfl, by decide, by
      rintro _ ⟨⟩
      rfl, nofun⟩
  cases hs'

end Rapidly.Projects
