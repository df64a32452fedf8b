import Rapidly.Projects.Steps

/-!
# Labels and work items as forests

Labels and work items may have a parent each. `Store.Forests` says that neither parent relation
has a cycle and that every parent belongs to the project of its child, deleted rows included.

The creations keep this: a parent is checked to be there and of the same project, and a new row
is nobody's parent. The updates do not. That of a work item only rejects the item itself as its
parent, that of a label asks nothing; the foreign key is all that is left. `cycle_of_updateLabel`
closes a cycle of two labels, and `forests_of_parentsAllowed` says which new parents keep the
forests.
-/

namespace Rapidly.Projects

open Relational Relation Transition

open Identity (Uuid Time)

/-- The parent relations of labels and of work items have no cycle, and every parent belongs to
the project of its child. -/
structure Store.Forests (s : Store) : Prop where
  labels : s.labels.Hierarchical ProjectLabel.parentId ProjectLabel.projectId
  workItems : s.workItems.Hierarchical WorkItem.parentId WorkItem.projectId

/-- The new parent of a work item is not below it; that of a label is neither the label itself nor
below it, and belongs to the same project. -/
def ParentAllowed (s : Store) : Operation → Prop
  | .updateLabel subject id data =>
    ∀ label ∈ s.getLabel subject id, ∀ p ∈ data.parentId.join,
      ¬ReflTransGen (s.labels.ParentIn ProjectLabel.parentId) p id ∧
        ∀ r ∈ s.labels, r.id = p → r.projectId = label.projectId
  | .updateWorkItem _ id data _ =>
    ∀ p ∈ data.parentId.join, ¬TransGen (s.workItems.ParentIn WorkItem.parentId) p id
  | _ => True

section Step

variable {s s' : Store} {subject : Subject} {id : Uuid} {now : Time}

theorem Store.Forests.of_tables (h : s.Forests) (hlabels : s'.labels = s.labels)
    (hitems : s'.workItems = s.workItems) : s'.Forests :=
  ⟨hlabels ▸ h.labels, hitems ▸ h.workItems⟩

theorem Store.Forests.createLabel (h : s.Forests) {data : ProjectLabelCreate}
    (hs' : s.createLabel subject id data = .ok s') : s'.Forests := by
  obtain ⟨labels, hparent, hinsert, htables⟩ := Store.createLabel_eq_ok hs'
  obtain ⟨hrows, -, hkey⟩ := insertAll_singleton hinsert
  refine ⟨?_, by rw [htables]; exact h.workItems⟩
  rw [htables]
  exact h.labels.add s.labels_parent hrows hkey (Store.checkParentLabel_eq_ok hparent)

theorem Store.Forests.updateLabel (h : s.Forests) {data : ProjectLabelUpdate}
    (hallowed : ParentAllowed s (.updateLabel subject id data))
    (hs' : s.updateLabel subject id data = .ok s') : s'.Forests := by
  obtain ⟨label, hget, htables⟩ := Store.updateLabel_eq_ok hs'
  obtain ⟨hlabel, rfl, -⟩ := Store.getLabel_eq_some hget
  refine ⟨?_, by rw [htables]; exact h.workItems⟩
  rw [htables]
  refine h.labels.modify (f := data.apply) (fun _ => rfl) (fun _ => rfl) data.parentId
    (fun _ => rfl) fun p hp => ?_
  obtain ⟨hpath, hproject⟩ := hallowed label hget p hp
  refine ⟨hpath, fun r hr r' hr' hid hid' => ?_⟩
  rw [s.labels.eq_of_key_eq hr hlabel hid, hproject r' hr' hid']

theorem Store.Forests.deleteLabel (h : s.Forests) (hs' : s.deleteLabel subject id now = .ok s') :
    s'.Forests := by
  obtain ⟨label, -, htables⟩ := Store.deleteLabel_eq_ok hs'
  refine ⟨?_, by rw [htables]; exact h.workItems⟩
  rw [htables]
  exact h.labels.modify (f := ProjectLabel.setDeletedAt now) (fun _ => rfl) (fun _ => rfl) none
    (fun _ => rfl) nofun

theorem Store.Forests.createWorkItem (h : s.Forests) {data : WorkItemCreate}
    (hs' : s.createWorkItem subject id data = .ok s') : s'.Forests := by
  obtain ⟨item, workItems, assignees, itemLabels, -, hproject, -, hparent, hverified, hinsert, -,
    htables⟩ := Store.createWorkItem_eq_ok hs'
  obtain ⟨hrows, -, hkey⟩ := insertAll_singleton hinsert
  refine ⟨by rw [htables]; exact h.labels, ?_⟩
  rw [htables]
  refine h.workItems.add s.workItems_parent hrows hkey ?_
  rw [hparent, hproject]
  exact hverified.parent

theorem Store.Forests.updateWorkItem (h : s.Forests) {data : WorkItemUpdate}
    (hallowed : ParentAllowed s (.updateWorkItem subject id data now))
    (hs' : s.updateWorkItem subject id data now = .ok s') : s'.Forests := by
  obtain ⟨item, project, assignees, itemLabels, hget, hverify, -, -, -, htables⟩ :=
    Store.updateWorkItem_eq_ok hs'
  obtain ⟨hitem, rfl, -⟩ := Store.getWorkItem_eq_some hget
  obtain ⟨-, -, hparent⟩ := Store.verifyUpdate_eq_ok hverify
  refine ⟨by rw [htables]; exact h.labels, ?_⟩
  rw [htables]
  refine h.workItems.modify (f := data.apply) (fun _ => rfl) (fun _ => rfl) data.parentId
    (fun _ => rfl) fun p hp => ?_
  obtain ⟨hne, r₀, hr₀, hid₀, hproject⟩ := hparent p hp
  refine ⟨fun hpath => ?_, fun r hr r' hr' hid hid' => ?_⟩
  · -- The code itself rejects the item as its own parent.
    rcases reflTransGen_iff_eq_or_transGen.mp hpath with heq | hbelow
    · exact hne heq.symm
    · exact hallowed p hp hbelow
  · rw [s.workItems.eq_of_key_eq hr hitem hid, hproject,
      s.workItems.eq_of_key_eq hr' hr₀ (hid'.trans hid₀.symm)]

theorem Store.Forests.deleteWorkItem (h : s.Forests)
    (hs' : s.deleteWorkItem subject id now = .ok s') : s'.Forests := by
  obtain ⟨item, -, htables⟩ := Store.deleteWorkItem_eq_ok hs'
  refine ⟨by rw [htables]; exact h.labels, ?_⟩
  rw [htables]
  exact h.workItems.modify (f := WorkItem.setDeletedAt now) (fun _ => rfl) (fun _ => rfl) none
    (fun _ => rfl) nofun

theorem Store.Forests.performed (h : s.Forests) (op : Operation) (hallowed : ParentAllowed s op) :
    (s.performed op).Forests := by
  rcases s.performed_cases op with hsame | hok
  · rwa [hsame]
  · rcases op with ⟨_, _, _⟩ | ⟨_, _, _⟩ | ⟨_, _, _⟩ | ⟨_, _, _⟩ | ⟨_, _, _⟩ | ⟨_, _, _⟩ |
      ⟨_, _, _⟩ | ⟨_, _, _, _⟩ | ⟨_, _, _⟩ | ⟨_, _, _⟩
    · obtain ⟨states, -, htables⟩ := Store.createState_eq_ok hok
      exact h.of_tables (by rw [htables]) (by rw [htables])
    · obtain ⟨state, -, htables⟩ := Store.updateState_eq_ok hok
      exact h.of_tables (by rw [htables]) (by rw [htables])
    · obtain ⟨state, -, htables⟩ := Store.deleteState_eq_ok hok
      exact h.of_tables (by rw [htables]) (by rw [htables])
    · exact h.createLabel hok
    · exact h.updateLabel hallowed hok
    · exact h.deleteLabel hok
    · exact h.createWorkItem hok
    · exact h.updateWorkItem hallowed hok
    · exact h.deleteWorkItem hok
    · exact h.of_tables rfl rfl

end Step

/-- **Hierarchies stay forests.** From a state in which they are, in every sequence of operations
whose new parents are allowed, the parent relations of labels and work items have no cycle and
stay within the projects. -/
theorem forests_of_parentsAllowed (start : Store) (hstart : start.Forests)
    {ops : List Operation}
    (h : (operations start).Along (fun _ s op => ParentAllowed s op) ops) :
    ((operations start).after ops).Forests :=
  (operations start).invariant_of_along (fun _ s _ => s.Forests) hstart
    (fun _ op hforests hallowed => hforests.performed op hallowed) h

/-- A project with an admin, and a state for its work items. -/
def oneProject : Store where
  projects := Table.singleton { id := 1, workspaceId := 9 }
  states := Table.singleton { id := 5, projectId := 1, name := "Todo" }

theorem oneProject_forests : oneProject.Forests :=
  ⟨Table.hierarchical_empty, Table.hierarchical_empty⟩

/-- Two labels of the project. -/
def twoLabels : List Operation :=
  [.createLabel (.workspace 9) 10 { projectId := 1, name := "Bug" },
    .createLabel (.workspace 9) 11 { projectId := 1, name := "Critical" }]

/-- The second label is moved below the first one. -/
theorem moved_forests :
    ((operations oneProject).after
      (twoLabels ++ [.updateLabel (.workspace 9) 11 { parentId := some (some 10) }])).Forests := by
  refine forests_of_parentsAllowed oneProject oneProject_forests ?_
  have hroot : ∀ r ∈ ((operations oneProject).after twoLabels).labels.rows,
      r.id = 10 → r.parentId = none := by decide
  have hlabel : ((operations oneProject).after twoLabels).getLabel (.workspace 9) 11 =
      some { id := 11, projectId := 1, name := "Critical" } := by decide
  have hproject : ∀ r ∈ ((operations oneProject).after twoLabels).labels.rows,
      r.projectId = 1 := by decide
  refine (System.along_snoc _).mpr ⟨⟨trivial, trivial, trivial⟩, fun label hget p hp => ?_⟩
  obtain rfl : 10 = p := Option.some.inj hp
  obtain rfl := Option.some.inj (hlabel.symm.trans hget)
  refine ⟨fun hpath => ?_, fun r hr _ => hproject r hr⟩
  rcases ReflTransGen.cases_head hpath with heq | ⟨c, ⟨r, hr, hid, hparent⟩, -⟩
  · cases heq
  · rw [hroot r hr hid] at hparent
    cases hparent

/-- **A cycle.** The second label is moved below the first one, and then the first one below the
second. -/
theorem cycle_of_updateLabel :
    ¬∀ start ops, start.Forests → ((operations start).after ops).Forests := by
  intro h
  have hforests := h oneProject
    (twoLabels ++
      [.updateLabel (.workspace 9) 11 { parentId := some (some 10) },
        .updateLabel (.workspace 9) 10 { parentId := some (some 11) }])
    oneProject_forests
  exact Graph.not_acyclic_of_two (a := 10) (b := 11) (by decide) (by decide)
    hforests.labels.acyclic

end Rapidly.Projects
