import Rapidly.Projects.Actions

/-!
# What an operation does

For each operation one lemma that says what is there when it succeeds: the row it was about, the
checks it has passed, and the tables it leaves. The invariants of the following modules are
derived from these.
-/

namespace Rapidly.Projects

open Relational Transition Fallible

open Identity (Uuid Time WorkspaceMembership)

theorem insertAll_eq_ok {Row Key : Type} [DecidableEq Key] {key : Row → Key} {t t' : Table key}
    {rs : List Row} : insertAll t rs = .ok t' ↔ t.addAll rs = some t' := by
  rw [insertAll]
  rcases t.addAll rs with _ | t''
  · exact ⟨nofun, nofun⟩
  · exact ⟨fun h => congrArg some (Except.ok.inj h), fun h => congrArg _ (Option.some.inj h)⟩

theorem insertAll_singleton {Row Key : Type} [DecidableEq Key] {key : Row → Key}
    {t t' : Table key} {row : Row} (h : insertAll t [row] = .ok t') :
    (∀ r, r ∈ t' → r = row ∨ r ∈ t) ∧ (∀ r ∈ t, r ∈ t') ∧ ∀ r ∈ t, key row ≠ key r := by
  obtain ⟨hmem, hkey⟩ := Table.addAll_eq_some (insertAll_eq_ok.mp h)
  refine ⟨fun r hr => ?_, fun r hr => (hmem r).mpr (.inr hr), hkey row List.mem_cons_self⟩
  exact ((hmem r).mp hr).imp_left List.mem_singleton.mp

theorem construct_eq_ok {data : WorkItemCreate} {id projectId : Uuid} {sequenceNumber : ℕ}
    {item : WorkItem} (h : data.construct id projectId sequenceNumber = .ok item) :
    item = {
      id, projectId, sequenceNumber, name := data.name, priority := data.priority,
      stateId := data.stateId, parentId := data.parentId, isDraft := data.isDraft } := by
  obtain ⟨_, -, hitem⟩ := bind_eq_ok.mp h
  exact (Except.ok.inj hitem).symm

/-! ### Replacement of join rows -/

section Reconcile

variable {t t' : Table JoinRow.key} {workItemId id : Uuid} {targets : List Uuid} {now : Time}

@[simp] theorem mem_joinedIds :
    id ∈ joinedIds t workItemId ↔
      ∃ r ∈ t, r.workItemId = workItemId ∧ r.targetId = id ∧ r.deletedAt = none := by
  simp only [joinedIds, List.mem_map, Table.mem_select]
  constructor
  · rintro ⟨r, ⟨hr, hitem, hlive⟩, htarget⟩
    exact ⟨r, hr, hitem, htarget, hlive⟩
  · rintro ⟨r, hr, hitem, htarget, hlive⟩
    exact ⟨r, ⟨hr, hitem, hlive⟩, htarget⟩

/-- No target was joined to the work item before and removed since. -/
def NoneRemoved (t : Table JoinRow.key) (workItemId : Uuid) (targets : List Uuid) : Prop :=
  ∀ r ∈ t.rows, r.workItemId = workItemId → r.targetId ∈ targets → r.deletedAt = none

instance (t : Table JoinRow.key) (workItemId : Uuid) (targets : List Uuid) :
    Decidable (NoneRemoved t workItemId targets) :=
  inferInstanceAs (Decidable (∀ r ∈ t.rows, _))

theorem exists_reconcile_iff :
    (∃ t', reconcile t workItemId targets now = .ok t') ↔ NoneRemoved t workItemId targets := by
  rw [reconcile]
  constructor
  · rintro ⟨t', h⟩ r hr hitem htarget
    by_contra hdeleted
    obtain ⟨-, hkey⟩ := Table.addAll_eq_some (insertAll_eq_ok.mp h)
    -- A removed target is missing, and its row is still in the table.
    have hmissing : r.targetId ∈ targets.dedup.filter fun id => id ∉ joinedIds t workItemId := by
      refine List.mem_filter.mpr ⟨List.mem_dedup.mpr htarget, decide_eq_true fun hjoined => ?_⟩
      obtain ⟨r', hr', hitem', htarget', hlive⟩ := mem_joinedIds.mp hjoined
      have hsame : r' = r :=
        t.eq_of_key_eq hr' hr (Prod.ext (hitem'.trans hitem.symm) htarget')
      exact hdeleted (hsame ▸ hlive)
    have hkept := Table.mem_modify_of_mem (Table.mem_def.mpr hr)
      (p := fun r => r.workItemId = workItemId ∧ r.deletedAt = none ∧ r.targetId ∉ targets)
      (JoinRow.key_setDeletedAt now)
    rw [if_neg fun hp => hp.2.2 htarget] at hkept
    exact hkey _ (List.mem_map_of_mem hmissing) r hkept (Prod.ext hitem.symm rfl)
  · intro hnone
    simp only [insertAll_eq_ok]
    refine Table.exists_addAll ?_ fun r hr r' hr' hkey => ?_
    · rw [List.map_map]
      exact (List.nodup_dedup targets).filter _ |>.map fun _ _ h => (Prod.mk.inj h).2
    · obtain ⟨id, hid, rfl⟩ := List.mem_map.mp hr
      obtain ⟨htarget, hmissing⟩ := List.mem_filter.mp hid
      obtain ⟨r₀, hr₀, hrewritten⟩ := (Table.mem_modify _).mp hr'
      have hkey₀ : (workItemId, id) = r₀.key := by
        rw [hrewritten] at hkey
        split at hkey
        · exact hkey
        · exact hkey
      obtain ⟨hitem, htarget₀⟩ := Prod.mk.inj hkey₀
      refine of_decide_eq_true hmissing (mem_joinedIds.mpr ⟨r₀, hr₀, hitem.symm, htarget₀.symm, ?_⟩)
      refine hnone r₀ hr₀ hitem.symm ?_
      rw [← htarget₀]
      exact List.mem_dedup.mp htarget

/-- **A replacement.** Afterwards the targets are joined to the work item and nothing else. -/
theorem mem_joinedIds_reconcile (h : reconcile t workItemId targets now = .ok t') :
    id ∈ joinedIds t' workItemId ↔ id ∈ targets := by
  rw [reconcile] at h
  obtain ⟨hmem, -⟩ := Table.addAll_eq_some (insertAll_eq_ok.mp h)
  rw [mem_joinedIds]
  constructor
  · rintro ⟨r, hr, hitem, rfl, hlive⟩
    rcases (hmem r).mp hr with hnew | hkept
    · obtain ⟨id, hid, rfl⟩ := List.mem_map.mp hnew
      exact List.mem_dedup.mp (List.mem_filter.mp hid).1
    · obtain ⟨r₀, hr₀, rfl⟩ := (Table.mem_modify _).mp hkept
      split at hlive
      · cases hlive
      next hp =>
        rw [if_neg hp] at hitem ⊢
        by_contra htarget
        exact hp ⟨hitem, hlive, htarget⟩
  · intro htarget
    by_cases hjoined : id ∈ joinedIds t workItemId
    · obtain ⟨r, hr, hitem, rfl, hlive⟩ := mem_joinedIds.mp hjoined
      have hkept := Table.mem_modify_of_mem hr
        (p := fun r => r.workItemId = workItemId ∧ r.deletedAt = none ∧ r.targetId ∉ targets)
        (JoinRow.key_setDeletedAt now)
      rw [if_neg fun hp => hp.2.2 htarget] at hkept
      exact ⟨r, (hmem r).mpr (.inr hkept), hitem, rfl, hlive⟩
    · refine ⟨{ workItemId, targetId := id }, (hmem _).mpr (.inl ?_), rfl, rfl, rfl⟩
      exact List.mem_map_of_mem
        (List.mem_filter.mpr ⟨List.mem_dedup.mpr htarget, decide_eq_true hjoined⟩)

theorem mem_reconcile_of_ne (h : reconcile t workItemId targets now = .ok t') {r : JoinRow}
    (hne : r.workItemId ≠ workItemId) : r ∈ t' ↔ r ∈ t := by
  rw [reconcile] at h
  obtain ⟨hmem, -⟩ := Table.addAll_eq_some (insertAll_eq_ok.mp h)
  rw [hmem r]
  constructor
  · rintro (hnew | hkept)
    · obtain ⟨id, -, rfl⟩ := List.mem_map.mp hnew
      exact absurd rfl hne
    · obtain ⟨r₀, hr₀, rfl⟩ := (Table.mem_modify _).mp hkept
      split at hne
      next hp => exact absurd hp.1 hne
      next hp => rwa [if_neg hp]
  · intro hr
    have hkept := Table.mem_modify_of_mem hr
      (p := fun r => r.workItemId = workItemId ∧ r.deletedAt = none ∧ r.targetId ∉ targets)
      (JoinRow.key_setDeletedAt now)
    rw [if_neg fun hp => hne hp.1] at hkept
    exact .inr hkept

/-- Every row after a replacement belongs to the work item, or to one that had a row before. -/
theorem workItemId_of_mem_reconcile (h : reconcile t workItemId targets now = .ok t')
    {r : JoinRow} (hr : r ∈ t') :
    r.workItemId = workItemId ∨ ∃ r₀ ∈ t, r₀.workItemId = r.workItemId := by
  by_cases hitem : r.workItemId = workItemId
  · exact .inl hitem
  · exact .inr ⟨r, (mem_reconcile_of_ne h hitem).mp hr, rfl⟩

end Reconcile

/-- A replacement, where there is a list. -/
def reconcileOptional (t : Table JoinRow.key) (workItemId : Uuid) (now : Time) :
    Option (List Uuid) → Except ProjectError (Table JoinRow.key)
  | none => .ok t
  | some targets => reconcile t workItemId targets now

namespace Store

variable {s s' : Store} {subject : Subject} {id : Uuid} {now : Time}

/-! ### Lookups and checks -/

theorem get_filter_eq_some {Row Key : Type} [DecidableEq Key] {key : Row → Key} {t : Table key}
    {k : Key} {p q : Row → Prop} [DecidablePred fun r => p r ∧ q r] {r : Row}
    (h : (t.get k).filter (fun r => p r ∧ q r) = some r) : r ∈ t ∧ key r = k ∧ p r := by
  obtain ⟨hget, hfound⟩ := Option.filter_eq_some_iff.mp h
  obtain ⟨hr, hkey⟩ := Table.get_eq_some_iff.mp hget
  exact ⟨hr, hkey, (of_decide_eq_true hfound).1⟩

theorem getState_eq_some {r : ProjectState} (h : s.getState subject id = some r) :
    r ∈ s.states ∧ r.id = id ∧ r.deletedAt = none := get_filter_eq_some h

theorem getLabel_eq_some {r : ProjectLabel} (h : s.getLabel subject id = some r) :
    r ∈ s.labels ∧ r.id = id ∧ r.deletedAt = none := get_filter_eq_some h

theorem getWorkItem_eq_some {r : WorkItem} (h : s.getWorkItem subject id = some r) :
    r ∈ s.workItems ∧ r.id = id ∧ r.deletedAt = none := get_filter_eq_some h

variable {projectId : Uuid} {project : Project} {item : WorkItem} {data : WorkItemUpdate}

theorem ensureMember_id
    (h : s.ensureMember subject projectId = .ok project) : project.id = projectId := by
  rw [ensureMember] at h
  split at h
  · cases h
  next found hget =>
    obtain ⟨_, -, hfound⟩ := bind_eq_ok.mp h
    obtain rfl := Except.ok.inj hfound
    exact (Table.get_eq_some_iff.mp (Option.filter_eq_some_iff.mp hget).1).2

theorem verifyState_eq_ok {projectId stateId : Uuid}
    (h : s.verifyState projectId stateId = .ok ()) :
    ∃ r ∈ s.states, r.id = stateId ∧ r.projectId = projectId ∧ r.deletedAt = none := by
  rw [verifyState] at h
  split at h
  next hstate => exact hstate
  next => cases h

theorem verifyParent_eq_ok {projectId parentId : Uuid}
    (h : s.verifyParent projectId parentId = .ok ()) :
    ∃ r ∈ s.workItems, r.id = parentId ∧ r.projectId = projectId ∧ r.deletedAt = none := by
  rw [verifyParent] at h
  split at h
  next hparent => exact hparent
  next => cases h

theorem verifyLabels_eq_ok {labelIds : List Uuid} (h : s.verifyLabels projectId labelIds = .ok ()) :
    ∀ id ∈ labelIds, ∃ r ∈ s.labels, r.id = id ∧ r.projectId = projectId ∧ r.deletedAt = none := by
  rw [verifyLabels] at h
  split at h
  next hlabels => exact hlabels
  next => cases h

/-! ### States -/

theorem createState_eq_ok {data : ProjectStateCreate}
    (h : s.createState subject id data = .ok s') :
    ∃ states,
      insertAll s.states [{ id, projectId := data.projectId, name := data.name }] = .ok states ∧
      s'.toTables = { s.toTables with states } := by
  obtain ⟨project, hmember, h⟩ := bind_eq_ok.mp h
  rw [ensureMember_id hmember] at h
  split at h
  · cases h
  · cases h
  · obtain ⟨states, hinsert, h⟩ := bind_eq_ok.mp h
    exact ⟨states, hinsert, withStates_eq_ok h⟩

theorem updateState_eq_ok {data : ProjectStateUpdate}
    (h : s.updateState subject id data = .ok s') :
    ∃ state, s.getState subject id = some state ∧
      s'.toTables = { s.toTables with
        states := s.states.modify (·.id = state.id) data.apply fun _ => rfl } := by
  rw [updateState] at h
  split at h
  · cases h
  next state hget =>
    obtain ⟨project, -, h⟩ := bind_eq_ok.mp h
    split at h
    · cases h
    · exact ⟨state, hget, withStates_eq_ok h⟩

theorem deleteState_eq_ok (h : s.deleteState subject id now = .ok s') :
    ∃ state, s.getState subject id = some state ∧
      s'.toTables = { s.toTables with
        states := s.states.modify (·.id = state.id) (ProjectState.setDeletedAt now)
          fun _ => rfl } := by
  rw [deleteState] at h
  split at h
  · cases h
  next state hget =>
    obtain ⟨project, -, h⟩ := bind_eq_ok.mp h
    exact ⟨state, hget, withStates_eq_ok h⟩

/-! ### Labels -/

theorem checkParentLabel_eq_ok {parentId : Option Uuid}
    (h : s.checkParentLabel subject projectId parentId = .ok ()) :
    ∀ p ∈ parentId, ∃ r ∈ s.labels, r.id = p ∧ projectId = r.projectId := by
  rintro p rfl
  rw [checkParentLabel] at h
  split at h
  · cases h
  next r hget =>
    split at h
    · cases h
    next hproject =>
      obtain ⟨hr, hid, -⟩ := getLabel_eq_some hget
      exact ⟨r, hr, hid, (not_not.mp hproject).symm⟩

theorem createLabel_eq_ok {data : ProjectLabelCreate}
    (h : s.createLabel subject id data = .ok s') :
    ∃ labels,
      s.checkParentLabel subject data.projectId data.parentId = .ok () ∧
      insertAll s.labels
        [{ id, projectId := data.projectId, parentId := data.parentId, name := data.name }] =
        .ok labels ∧
      s'.toTables = { s.toTables with labels } := by
  obtain ⟨project, hmember, h⟩ := bind_eq_ok.mp h
  rw [ensureMember_id hmember] at h
  obtain ⟨_, hparent, h⟩ := bind_eq_ok.mp h
  split at h
  · cases h
  · cases h
  · obtain ⟨labels, hinsert, h⟩ := bind_eq_ok.mp h
    exact ⟨labels, hparent, hinsert, withLabels_eq_ok h⟩

theorem updateLabel_eq_ok {data : ProjectLabelUpdate}
    (h : s.updateLabel subject id data = .ok s') :
    ∃ label, s.getLabel subject id = some label ∧
      s'.toTables = { s.toTables with
        labels := s.labels.modify (·.id = label.id) data.apply fun _ => rfl } := by
  rw [updateLabel] at h
  split at h
  · cases h
  next label hget =>
    obtain ⟨project, -, h⟩ := bind_eq_ok.mp h
    split at h
    · cases h
    · exact ⟨label, hget, withLabels_eq_ok h⟩

theorem deleteLabel_eq_ok (h : s.deleteLabel subject id now = .ok s') :
    ∃ label, s.getLabel subject id = some label ∧
      s'.toTables = { s.toTables with
        labels := s.labels.modify (·.id = label.id) (ProjectLabel.setDeletedAt now)
          fun _ => rfl } := by
  rw [deleteLabel] at h
  split at h
  · cases h
  next label hget =>
    obtain ⟨project, -, h⟩ := bind_eq_ok.mp h
    exact ⟨label, hget, withLabels_eq_ok h⟩

/-! ### Work items -/

/-- What `create` has checked of a work item, in the words of the rows. -/
structure Verified (s : Store) (projectId : Uuid) (data : WorkItemCreate) : Prop where
  state : ∃ r ∈ s.states, r.id = data.stateId ∧ r.projectId = projectId ∧ r.deletedAt = none
  parent : ∀ p ∈ data.parentId, ∃ r ∈ s.workItems, r.id = p ∧ projectId = r.projectId
  labels : ∀ id ∈ data.labelIds, ∃ r ∈ s.labels,
    r.id = id ∧ r.projectId = projectId ∧ r.deletedAt = none

theorem verifyCreate_eq_ok {data : WorkItemCreate} (h : s.verifyCreate subject data = .ok project) :
    project.id = data.projectId ∧ s.Verified project.id data := by
  obtain ⟨project', hmember, h⟩ := bind_eq_ok.mp h
  obtain ⟨_, hstate, h⟩ := bind_eq_ok.mp h
  obtain ⟨_, hparent, h⟩ := bind_eq_ok.mp h
  obtain ⟨_, hlabels, h⟩ := bind_eq_ok.mp h
  obtain ⟨_, -, h⟩ := bind_eq_ok.mp h
  obtain rfl := Except.ok.inj h
  refine ⟨ensureMember_id hmember, verifyState_eq_ok hstate, fun p hp => ?_,
    verifyLabels_eq_ok hlabels⟩
  rw [hp] at hparent
  obtain ⟨r, hr, hid, hproject, -⟩ := verifyParent_eq_ok hparent
  exact ⟨r, hr, hid, hproject.symm⟩

theorem createWorkItem_eq_ok {data : WorkItemCreate}
    (h : s.createWorkItem subject id data = .ok s') :
    ∃ item workItems assignees itemLabels,
      item.id = id ∧ item.projectId = data.projectId ∧ item.stateId = data.stateId ∧
        item.parentId = data.parentId ∧
      s.Verified data.projectId data ∧
      insertAll s.workItems [item] = .ok workItems ∧
      insertAll s.itemLabels
        (data.labelIds.dedup.map fun targetId => { workItemId := id, targetId }) =
        .ok itemLabels ∧
      s'.toTables = { s.toTables with workItems, assignees, itemLabels } := by
  obtain ⟨project, hverify, h⟩ := bind_eq_ok.mp h
  obtain ⟨hid, hverified⟩ := verifyCreate_eq_ok hverify
  obtain ⟨item, hitem, h⟩ := bind_eq_ok.mp h
  rw [hid] at hverified hitem
  obtain rfl := construct_eq_ok hitem
  obtain ⟨s₁, hinsert, h⟩ := bind_eq_ok.mp h
  obtain ⟨workItems, hworkItems, hinsert⟩ := bind_eq_ok.mp hinsert
  have htables := withWorkItems_eq_ok hinsert
  obtain ⟨assignees, -, h⟩ := bind_eq_ok.mp h
  obtain ⟨s₂, hassignees, h⟩ := bind_eq_ok.mp h
  have htables₂ := withAssignees_eq_ok hassignees
  obtain ⟨itemLabels, hitemLabels, h⟩ := bind_eq_ok.mp h
  rw [htables₂, htables] at hitemLabels
  refine ⟨_, workItems, assignees, itemLabels, rfl, rfl, rfl, rfl, hverified, hworkItems,
    hitemLabels, ?_⟩
  rw [withItemLabels_eq_ok h, htables₂, htables]

theorem verifyUpdate_eq_ok (h : s.verifyUpdate subject item data = .ok project) :
    project.id = item.projectId ∧
      (∀ stateId ∈ data.stateId.join, ∃ r ∈ s.states,
        r.id = stateId ∧ r.projectId = item.projectId ∧ r.deletedAt = none) ∧
      ∀ p ∈ data.parentId.join, p ≠ item.id ∧
        ∃ r ∈ s.workItems, r.id = p ∧ item.projectId = r.projectId := by
  obtain ⟨project', hmember, h⟩ := bind_eq_ok.mp h
  have hid := ensureMember_id hmember
  obtain ⟨_, hstate, h⟩ := bind_eq_ok.mp h
  split at h
  · cases h
  next hself =>
    obtain ⟨_, hparent, h⟩ := bind_eq_ok.mp h
    obtain rfl := Except.ok.inj h
    rw [hid] at hstate hparent
    refine ⟨hid, fun stateId hstateId => ?_, fun p hp => ⟨?_, ?_⟩⟩
    · rw [hstateId] at hstate
      exact verifyState_eq_ok hstate
    · rintro rfl
      exact hself (Option.join_eq_some_iff.mp hp)
    · rw [hp] at hparent
      obtain ⟨r, hr, hrid, hproject, -⟩ := verifyParent_eq_ok hparent
      exact ⟨r, hr, hrid, hproject.symm⟩

theorem writeFields_eq_ok (h : s.writeFields item data = .ok s') :
    s'.toTables = { s.toTables with
      workItems := s.workItems.modify (·.id = item.id) data.apply fun _ => rfl } := by
  rw [writeFields] at h
  split at h
  · cases h
  · exact withWorkItems_eq_ok h

theorem replaceAssignees_eq_ok {assigneeIds : Option (List Uuid)}
    (h : s.replaceAssignees project item now assigneeIds = .ok s') :
    ∃ assignees, reconcileOptional s.assignees item.id now assigneeIds = .ok assignees ∧
      s'.toTables = { s.toTables with assignees } := by
  rcases assigneeIds with _ | targets
  · exact ⟨s.assignees, rfl, by rw [Except.ok.inj h]⟩
  · obtain ⟨_, -, h⟩ := bind_eq_ok.mp h
    obtain ⟨assignees, hreconcile, h⟩ := bind_eq_ok.mp h
    exact ⟨assignees, hreconcile, withAssignees_eq_ok h⟩

theorem replaceLabels_eq_ok {labelIds : Option (List Uuid)}
    (h : s.replaceLabels project item now labelIds = .ok s') :
    ∃ itemLabels, (∀ targets ∈ labelIds, s.verifyLabels project.id targets = .ok ()) ∧
      reconcileOptional s.itemLabels item.id now labelIds = .ok itemLabels ∧
      s'.toTables = { s.toTables with itemLabels } := by
  rcases labelIds with _ | targets
  · exact ⟨s.itemLabels, nofun, rfl, by rw [Except.ok.inj h]⟩
  · obtain ⟨_, hverify, h⟩ := bind_eq_ok.mp h
    obtain ⟨itemLabels, hreconcile, h⟩ := bind_eq_ok.mp h
    refine ⟨itemLabels, ?_, hreconcile, withItemLabels_eq_ok h⟩
    rintro _ ⟨⟩
    exact hverify

theorem updateWorkItem_eq_ok (h : s.updateWorkItem subject id data now = .ok s') :
    ∃ item project assignees itemLabels, s.getWorkItem subject id = some item ∧
      s.verifyUpdate subject item data = .ok project ∧
      (∀ targets ∈ data.labelIds, s.verifyLabels item.projectId targets = .ok ()) ∧
      reconcileOptional s.assignees item.id now data.assigneeIds = .ok assignees ∧
      reconcileOptional s.itemLabels item.id now data.labelIds = .ok itemLabels ∧
      s'.toTables = { s.toTables with
        workItems := s.workItems.modify (·.id = item.id) data.apply fun _ => rfl
        assignees
        itemLabels } := by
  rw [updateWorkItem] at h
  split at h
  · cases h
  next item hget =>
    obtain ⟨project, hverify, h⟩ := bind_eq_ok.mp h
    obtain ⟨s₁, hfields, h⟩ := bind_eq_ok.mp h
    obtain ⟨s₂, hassignees, h⟩ := bind_eq_ok.mp h
    have htables := writeFields_eq_ok hfields
    obtain ⟨assignees, hassignees, htables₂⟩ := replaceAssignees_eq_ok hassignees
    obtain ⟨itemLabels, hlabels, hitemLabels, htables₃⟩ := replaceLabels_eq_ok h
    rw [htables] at htables₂ hassignees
    rw [htables₂] at htables₃ hitemLabels
    refine ⟨item, project, assignees, itemLabels, hget, hverify, fun targets htargets => ?_,
      hassignees, hitemLabels, htables₃⟩
    have hverified := hlabels targets htargets
    rw [verifyLabels, htables₂, (verifyUpdate_eq_ok hverify).1] at hverified
    exact hverified

theorem deleteWorkItem_eq_ok (h : s.deleteWorkItem subject id now = .ok s') :
    ∃ item, s.getWorkItem subject id = some item ∧
      s'.toTables = { s.toTables with
        workItems := s.workItems.modify (·.id = item.id) (WorkItem.setDeletedAt now)
          fun _ => rfl } := by
  rw [deleteWorkItem] at h
  split at h
  · cases h
  next item hget =>
    obtain ⟨project, -, h⟩ := bind_eq_ok.mp h
    exact ⟨item, hget, withWorkItems_eq_ok h⟩

/-- An operation that fails changes nothing; one that succeeds leaves what it answers with. -/
theorem performed_cases (s : Store) (op : Operation) :
    s.performed op = s ∨ s.perform op = .ok (s.performed op) := by
  rw [performed]
  rcases s.perform op with e | s'
  · exact .inl rfl
  · exact .inr rfl

end Store

end Rapidly.Projects
