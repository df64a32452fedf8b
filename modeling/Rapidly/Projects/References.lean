import Rapidly.Projects.Steps

/-!
# The references of work items

A work item is in a workflow state and may have labels. `Store.ReferencesLive` says that the state
of each live work item is a live state of its project, and so is each label listed for it.

What is written is verified: `create` and `update` of a work item ask for live states and labels
of its project. What is deleted is not: `delete` of a state or of a label marks the row as deleted
and asks for no work item, and the foreign keys of the database (`restrict` for states, `cascade`
for labels) see no deletion. `dangling_of_deleteState` is a state deleted under its work item, and
`referencesLive_of_unused` says that nothing else breaks the references.
-/

namespace Rapidly.Projects

open Relational Transition

open Identity (Uuid Time)

/-! ### Live rows of a project -/

section LiveIn

variable {Row : Type} {key : Row → Uuid} {t t' : Table key} {projectOf : Row → Uuid}
  {deletedOf : Row → Option Time} {projectId id : Uuid}

/-- A row of a project that is not deleted. -/
def LiveIn (t : Table key) (projectOf : Row → Uuid) (deletedOf : Row → Option Time)
    (projectId id : Uuid) : Prop :=
  ∃ r ∈ t.rows, key r = id ∧ projectOf r = projectId ∧ deletedOf r = none

instance (t : Table key) (projectOf : Row → Uuid) (deletedOf : Row → Option Time)
    (projectId id : Uuid) : Decidable (LiveIn t projectOf deletedOf projectId id) :=
  inferInstanceAs (Decidable (∃ r ∈ t.rows, _))

theorem LiveIn.mono (h : LiveIn t projectOf deletedOf projectId id) (hsub : ∀ r ∈ t, r ∈ t') :
    LiveIn t' projectOf deletedOf projectId id := by
  obtain ⟨r, hr, hrow⟩ := h
  exact ⟨r, hsub r hr, hrow⟩

theorem LiveIn.modify (h : LiveIn t projectOf deletedOf projectId id) {p : Row → Prop}
    [DecidablePred p] {f : Row → Row} (hf : ∀ r, key (f r) = key r)
    (hproject : ∀ r, projectOf (f r) = projectOf r)
    (hdeleted : ∀ r, deletedOf (f r) = deletedOf r) :
    LiveIn (t.modify p f hf) projectOf deletedOf projectId id := by
  obtain ⟨r, hr, hid, hrproject, hlive⟩ := h
  refine ⟨_, Table.mem_modify_of_mem (p := p) hr hf, ?_⟩
  split
  · exact ⟨(hf r).trans hid, (hproject r).trans hrproject, (hdeleted r).trans hlive⟩
  · exact ⟨hid, hrproject, hlive⟩

theorem LiveIn.modify_of_ne (h : LiveIn t projectOf deletedOf projectId id) {k : Uuid}
    (hne : id ≠ k) {f : Row → Row} (hf : ∀ r, key (f r) = key r) :
    LiveIn (t.modify (fun r => key r = k) f hf) projectOf deletedOf projectId id := by
  obtain ⟨r, hr, hid, hrow⟩ := h
  have hkept := Table.mem_modify_of_mem (p := fun r => key r = k) hr hf
  rw [if_neg fun hkey => hne (hid.symm.trans hkey)] at hkept
  exact ⟨r, hkept, hid, hrow⟩

end LiveIn

/-! ### What is joined -/

section Joined

variable {t t' : Table JoinRow.key} {workItemId item id : Uuid} {ids : List Uuid} {now : Time}

theorem mem_joinedIds_insertAll
    (h : insertAll t (ids.map fun targetId => { workItemId, targetId }) = .ok t')
    (hid : id ∈ joinedIds t' item) :
    id ∈ joinedIds t item ∨ item = workItemId ∧ id ∈ ids := by
  obtain ⟨hmem, -⟩ := Table.addAll_eq_some (insertAll_eq_ok.mp h)
  obtain ⟨r, hr, hitem, htarget, hlive⟩ := mem_joinedIds.mp hid
  rcases (hmem r).mp hr with hnew | hold
  · obtain ⟨targetId, hgiven, rfl⟩ := List.mem_map.mp hnew
    exact .inr ⟨hitem.symm, htarget ▸ hgiven⟩
  · exact .inl (mem_joinedIds.mpr ⟨r, hold, hitem, htarget, hlive⟩)

theorem mem_joinedIds_reconcileOptional_of_ne {targets : Option (List Uuid)}
    (h : reconcileOptional t workItemId now targets = .ok t') (hne : item ≠ workItemId) :
    id ∈ joinedIds t' item ↔ id ∈ joinedIds t item := by
  rcases targets with _ | targets
  · rw [Except.ok.inj h]
  · rw [mem_joinedIds, mem_joinedIds]
    refine exists_congr fun r => ?_
    constructor
    · rintro ⟨hr, rfl, hrow⟩
      exact ⟨(mem_reconcile_of_ne h hne).mp hr, rfl, hrow⟩
    · rintro ⟨hr, rfl, hrow⟩
      exact ⟨(mem_reconcile_of_ne h hne).mpr hr, rfl, hrow⟩

end Joined

/-! ### The invariant -/

/-- A live state of a project. -/
def Store.LiveState (s : Store) : Uuid → Uuid → Prop :=
  LiveIn s.states ProjectState.projectId ProjectState.deletedAt

/-- A live label of a project. -/
def Store.LiveLabel (s : Store) : Uuid → Uuid → Prop :=
  LiveIn s.labels ProjectLabel.projectId ProjectLabel.deletedAt

instance (s : Store) (projectId id : Uuid) : Decidable (s.LiveState projectId id) :=
  inferInstanceAs (Decidable (LiveIn _ _ _ projectId id))

instance (s : Store) (projectId id : Uuid) : Decidable (s.LiveLabel projectId id) :=
  inferInstanceAs (Decidable (LiveIn _ _ _ projectId id))

/-- The state of each live work item, and each label listed for it, is live and of its project. -/
def Store.ReferencesLive (s : Store) : Prop :=
  ∀ item ∈ s.workItems.rows, item.deletedAt = none →
    s.LiveState item.projectId item.stateId ∧
      ∀ id ∈ s.getLabelIds item.id, s.LiveLabel item.projectId id

instance (s : Store) : Decidable s.ReferencesLive :=
  inferInstanceAs (Decidable (∀ item ∈ s.workItems.rows, _))

/-- What is deleted is in no use: no live work item is in the state, or has the label. -/
def Unused (s : Store) : Operation → Prop
  | .deleteState _ id _ =>
    ∀ item ∈ s.workItems.rows, item.deletedAt = none → item.stateId ≠ id
  | .deleteLabel _ id _ =>
    ∀ item ∈ s.workItems.rows, item.deletedAt = none → id ∉ s.getLabelIds item.id
  | _ => True

instance (s : Store) : DecidablePred (Unused s)
  | .deleteState _ _ _ | .deleteLabel _ _ _ =>
    inferInstanceAs (Decidable (∀ item ∈ s.workItems.rows, _))
  | .createState _ _ _ | .updateState _ _ _ | .createLabel _ _ _ | .updateLabel _ _ _
  | .createWorkItem _ _ _ | .updateWorkItem _ _ _ _ | .deleteWorkItem _ _ _
  | .directory _ _ _ => isTrue trivial

section Step

variable {s s' : Store} {subject : Subject} {id : Uuid} {now : Time}

theorem Store.ReferencesLive.of_states (h : s.ReferencesLive) {states : Table ProjectState.id}
    (htables : s'.toTables = { s.toTables with states })
    (hstates : ∀ item ∈ s.workItems, item.deletedAt = none →
      s.LiveState item.projectId item.stateId →
        LiveIn states ProjectState.projectId ProjectState.deletedAt item.projectId item.stateId) :
    s'.ReferencesLive := by
  intro item hitem hlive
  rw [htables] at hitem
  rw [LiveState, getLabelIds, htables]
  simp only [LiveLabel, htables]
  exact (h item hitem hlive).imp_left (hstates item hitem hlive)

theorem Store.ReferencesLive.of_labels (h : s.ReferencesLive) {labels : Table ProjectLabel.id}
    (htables : s'.toTables = { s.toTables with labels })
    (hlabels : ∀ item ∈ s.workItems, item.deletedAt = none → ∀ id ∈ s.getLabelIds item.id,
      s.LiveLabel item.projectId id →
        LiveIn labels ProjectLabel.projectId ProjectLabel.deletedAt item.projectId id) :
    s'.ReferencesLive := by
  intro item hitem hlive
  rw [htables] at hitem
  rw [LiveState, getLabelIds, htables]
  simp only [LiveLabel, htables]
  exact (h item hitem hlive).imp_right fun hlabel id hid =>
    hlabels item hitem hlive id hid (hlabel id hid)

theorem Store.ReferencesLive.createState (h : s.ReferencesLive) {data : ProjectStateCreate}
    (hs' : s.createState subject id data = .ok s') : s'.ReferencesLive := by
  obtain ⟨states, hinsert, htables⟩ := Store.createState_eq_ok hs'
  obtain ⟨-, hold, -⟩ := insertAll_singleton hinsert
  exact h.of_states htables fun _ _ _ hstate => hstate.mono hold

theorem Store.ReferencesLive.updateState (h : s.ReferencesLive) {data : ProjectStateUpdate}
    (hs' : s.updateState subject id data = .ok s') : s'.ReferencesLive := by
  obtain ⟨state, -, htables⟩ := Store.updateState_eq_ok hs'
  exact h.of_states htables fun _ _ _ hstate =>
    hstate.modify (f := data.apply) (fun _ => rfl) (fun _ => rfl) fun _ => rfl

theorem Store.ReferencesLive.deleteState (h : s.ReferencesLive)
    (hunused : Unused s (.deleteState subject id now))
    (hs' : s.deleteState subject id now = .ok s') : s'.ReferencesLive := by
  obtain ⟨state, hget, htables⟩ := Store.deleteState_eq_ok hs'
  obtain ⟨-, rfl, -⟩ := Store.getState_eq_some hget
  exact h.of_states htables fun item hitem hlive hstate =>
    hstate.modify_of_ne (f := ProjectState.setDeletedAt now) (hunused item hitem hlive)
      fun _ => rfl

theorem Store.ReferencesLive.createLabel (h : s.ReferencesLive) {data : ProjectLabelCreate}
    (hs' : s.createLabel subject id data = .ok s') : s'.ReferencesLive := by
  obtain ⟨labels, -, hinsert, htables⟩ := Store.createLabel_eq_ok hs'
  obtain ⟨-, hold, -⟩ := insertAll_singleton hinsert
  exact h.of_labels htables fun _ _ _ _ _ hlabel => hlabel.mono hold

theorem Store.ReferencesLive.updateLabel (h : s.ReferencesLive) {data : ProjectLabelUpdate}
    (hs' : s.updateLabel subject id data = .ok s') : s'.ReferencesLive := by
  obtain ⟨label, -, htables⟩ := Store.updateLabel_eq_ok hs'
  exact h.of_labels htables fun _ _ _ _ _ hlabel =>
    hlabel.modify (f := data.apply) (fun _ => rfl) (fun _ => rfl) fun _ => rfl

theorem Store.ReferencesLive.deleteLabel (h : s.ReferencesLive)
    (hunused : Unused s (.deleteLabel subject id now))
    (hs' : s.deleteLabel subject id now = .ok s') : s'.ReferencesLive := by
  obtain ⟨label, hget, htables⟩ := Store.deleteLabel_eq_ok hs'
  obtain ⟨-, rfl, -⟩ := Store.getLabel_eq_some hget
  refine h.of_labels htables fun item hitem hlive id hid hlabel => ?_
  refine hlabel.modify_of_ne (f := ProjectLabel.setDeletedAt now) (fun heq => ?_) fun _ => rfl
  exact hunused item hitem hlive (heq ▸ hid)

/-- A new work item refers to what was verified; the old ones refer to what they did. -/
theorem Store.ReferencesLive.createWorkItem (h : s.ReferencesLive) {data : WorkItemCreate}
    (hs' : s.createWorkItem subject id data = .ok s') : s'.ReferencesLive := by
  obtain ⟨item, workItems, assignees, itemLabels, rfl, hproject, hstateId, -, hverified, hinsert,
    hjoin, htables⟩ := Store.createWorkItem_eq_ok hs'
  obtain ⟨hrows, -, hkey⟩ := insertAll_singleton hinsert
  intro item' hitem' hlive
  rw [LiveState, getLabelIds, htables]
  rw [htables] at hitem'
  have hlabels (id : Uuid) (hid : id ∈ joinedIds itemLabels item'.id) :
      id ∈ s.getLabelIds item'.id ∨ item'.id = item.id ∧ id ∈ data.labelIds :=
    (mem_joinedIds_insertAll hjoin hid).imp_right fun h => ⟨h.1, List.mem_dedup.mp h.2⟩
  rcases hrows item' hitem' with rfl | hold
  · rw [hproject, hstateId]
    refine ⟨hverified.state, fun id hid => ?_⟩
    rw [LiveLabel, htables]
    rcases hlabels id hid with hjoined | ⟨-, hgiven⟩
    · -- Nothing refers to the identifier of a new work item.
      obtain ⟨r, hr, hrow, -⟩ := mem_joinedIds.mp hjoined
      obtain ⟨item₀, hitem₀, hid₀⟩ := s.itemLabels_workItem r hr
      exact absurd (hid₀.trans hrow).symm (hkey item₀ hitem₀)
    · exact hverified.labels id hgiven
  · obtain ⟨hstate, hlabel⟩ := h item' hold hlive
    refine ⟨hstate, fun id hid => ?_⟩
    rw [LiveLabel, htables]
    rcases hlabels id hid with hjoined | ⟨heq, -⟩
    · exact hlabel id hjoined
    · exact absurd heq.symm (hkey item' hold)

/-- A new state and new labels of a work item are verified; the old ones were live before. -/
theorem Store.ReferencesLive.updateWorkItem (h : s.ReferencesLive) {data : WorkItemUpdate}
    (hs' : s.updateWorkItem subject id data now = .ok s') : s'.ReferencesLive := by
  obtain ⟨item, project, assignees, itemLabels, hget, hverify, hverified, -, hreconcile,
    htables⟩ := Store.updateWorkItem_eq_ok hs'
  obtain ⟨hitem, -, -⟩ := Store.getWorkItem_eq_some hget
  obtain ⟨-, hnewState, -⟩ := Store.verifyUpdate_eq_ok hverify
  intro item' hitem' hlive
  rw [LiveState, getLabelIds, htables]
  rw [htables] at hitem'
  obtain ⟨item₀, hitem₀, hrewritten⟩ :=
    (Table.mem_modify (f := data.apply) fun _ => rfl).mp hitem'
  split at hrewritten
  next hsame =>
    obtain rfl := s.workItems.eq_of_key_eq hitem₀ hitem hsame
    subst hrewritten
    obtain ⟨hstate, hlabel⟩ := h item₀ hitem₀ hlive
    refine ⟨?_, fun id hid => ?_⟩
    · change LiveIn _ _ _ item₀.projectId (data.stateId.join.getD item₀.stateId)
      rcases hchange : data.stateId.join with _ | stateId
      · exact hstate
      · exact hnewState stateId hchange
    · rw [LiveLabel, htables]
      rcases hgiven : data.labelIds with _ | targets
      · rw [hgiven] at hreconcile
        rw [← Except.ok.inj hreconcile] at hid
        exact hlabel id hid
      · rw [hgiven] at hreconcile
        exact verifyLabels_eq_ok (hverified targets hgiven) id
          ((mem_joinedIds_reconcile hreconcile).mp hid)
  next hother =>
    subst hrewritten
    obtain ⟨hstate, hlabel⟩ := h item' hitem₀ hlive
    refine ⟨hstate, fun id hid => ?_⟩
    rw [LiveLabel, htables]
    exact hlabel id ((mem_joinedIds_reconcileOptional_of_ne hreconcile hother).mp hid)

theorem Store.ReferencesLive.deleteWorkItem (h : s.ReferencesLive)
    (hs' : s.deleteWorkItem subject id now = .ok s') : s'.ReferencesLive := by
  obtain ⟨item, -, htables⟩ := Store.deleteWorkItem_eq_ok hs'
  intro item' hitem' hlive
  rw [LiveState, getLabelIds, htables]
  simp only [LiveLabel, htables]
  rw [htables] at hitem'
  obtain ⟨item₀, hitem₀, rfl⟩ :=
    (Table.mem_modify (f := WorkItem.setDeletedAt now) fun _ => rfl).mp hitem'
  split at hlive
  · cases hlive
  next hother =>
    rw [if_neg hother]
    exact h item₀ hitem₀ hlive

theorem Store.ReferencesLive.performed (h : s.ReferencesLive) (op : Operation)
    (hunused : Unused s op) : (s.performed op).ReferencesLive := by
  rcases s.performed_cases op with hsame | hok
  · rwa [hsame]
  · rcases op with ⟨_, _, _⟩ | ⟨_, _, _⟩ | ⟨_, _, _⟩ | ⟨_, _, _⟩ | ⟨_, _, _⟩ | ⟨_, _, _⟩ |
      ⟨_, _, _⟩ | ⟨_, _, _, _⟩ | ⟨_, _, _⟩ | ⟨_, _, _⟩
    · exact h.createState hok
    · exact h.updateState hok
    · exact h.deleteState hunused hok
    · exact h.createLabel hok
    · exact h.updateLabel hok
    · exact h.deleteLabel hunused hok
    · exact h.createWorkItem hok
    · exact h.updateWorkItem hok
    · exact h.deleteWorkItem hok
    · exact h

end Step

/-- **Project references stay live.** From a state in which they are, in every sequence of
operations that delete no state and no label in use, the state of each live work item and the
labels listed for it are live and of its project. -/
theorem referencesLive_of_unused (start : Store) (hstart : start.ReferencesLive)
    {ops : List Operation} (h : (operations start).Along (fun _ s op => Unused s op) ops) :
    ((operations start).after ops).ReferencesLive :=
  (operations start).invariant_of_along (fun _ s _ => s.ReferencesLive) hstart
    (fun _ op hlive hunused => hlive.performed op hunused) h

/-- The work item is moved to another state, and the old one is deleted. -/
theorem moved_referencesLive :
    ((operations oneItem).after
      [.updateWorkItem (.workspace 9) 20 { stateId := some (some 6) } 1,
        .deleteState (.workspace 9) 5 2]).ReferencesLive :=
  referencesLive_of_unused oneItem (by decide) (by decide)

/-- **A dangling reference.** The state that the work item is in is deleted. -/
theorem dangling_of_deleteState :
    ¬∀ start ops, start.ReferencesLive → ((operations start).after ops).ReferencesLive := by
  intro h
  have hlive := h oneItem [.deleteState (.workspace 9) 5 1] (by decide)
  revert hlive
  decide

end Rapidly.Projects
