import Rapidly.Projects.Store
import Rapidly.Transition.System

/-!
# Actions on states, labels and work items

The operations of `projects/state/actions.py`, `projects/label/actions.py` and
`projects/work_item/actions.py`, each with the lookup that its route makes first. An operation is
one transaction: it answers with the new state, or with an error that leaves the state as it was.
`operations` is the system of all their sequences, in which projects, their members and the
memberships of workspaces may change in any way in between.

An update has a field for each attribute of the payload that a modelled row has: `none` where the
attribute is unset, `some none` where it is set to null.

`create` of a work item passes the keyword `estimate_point_id`, which the row no longer declares;
the constructor of the ORM rejects a keyword that is not an attribute of the row.
-/

namespace Rapidly.Projects

open Relational Transition

open Identity (Uuid Time WorkspaceMembership)

/-! ### Payloads -/

structure ProjectStateCreate where
  projectId : Uuid
  name : String
deriving DecidableEq

structure ProjectStateUpdate where
  name : Option (Option String) := none
deriving DecidableEq

structure ProjectLabelCreate where
  projectId : Uuid
  parentId : Option Uuid := none
  name : String
deriving DecidableEq

structure ProjectLabelUpdate where
  parentId : Option (Option Uuid) := none
  name : Option (Option String) := none
deriving DecidableEq

structure WorkItemCreate where
  projectId : Uuid
  name : String
  priority : WorkItemPriority := .none
  stateId : Uuid
  parentId : Option Uuid := none
  isDraft : Bool := false
  assigneeIds : List Uuid := []
  labelIds : List Uuid := []
deriving DecidableEq

structure WorkItemUpdate where
  name : Option (Option String) := none
  priority : Option (Option WorkItemPriority) := none
  stateId : Option (Option Uuid) := none
  parentId : Option (Option Uuid) := none
  isDraft : Option (Option Bool) := none
  assigneeIds : Option (List Uuid) := none
  labelIds : Option (List Uuid) := none
deriving DecidableEq

/-- A column that cannot be null is set to null. -/
def ProjectStateUpdate.Nulls (data : ProjectStateUpdate) : Prop := data.name = some none

instance (data : ProjectStateUpdate) : Decidable data.Nulls := inferInstanceAs (Decidable (_ = _))

def ProjectLabelUpdate.Nulls (data : ProjectLabelUpdate) : Prop := data.name = some none

instance (data : ProjectLabelUpdate) : Decidable data.Nulls := inferInstanceAs (Decidable (_ = _))

def WorkItemUpdate.Nulls (data : WorkItemUpdate) : Prop :=
  data.name = some none ∨ data.priority = some none ∨ data.stateId = some none ∨
    data.isDraft = some none

instance (data : WorkItemUpdate) : Decidable data.Nulls := inferInstanceAs (Decidable (_ ∨ _))

/-- A column after an update, where it cannot be null. -/
def patch {α : Type} (change : Option (Option α)) (old : α) : α := change.join.getD old

/-! ### Rewritten rows -/

def ProjectStateUpdate.apply (data : ProjectStateUpdate) (r : ProjectState) : ProjectState :=
  { r with name := patch data.name r.name }

def ProjectLabelUpdate.apply (data : ProjectLabelUpdate) (r : ProjectLabel) : ProjectLabel :=
  { r with parentId := data.parentId.getD r.parentId, name := patch data.name r.name }

def WorkItemUpdate.apply (data : WorkItemUpdate) (r : WorkItem) : WorkItem :=
  { r with
    name := patch data.name r.name
    priority := patch data.priority r.priority
    stateId := patch data.stateId r.stateId
    parentId := data.parentId.getD r.parentId
    isDraft := patch data.isDraft r.isDraft }

/-- `set_deleted_at`, and `soft_delete` of the repositories. -/
def ProjectState.setDeletedAt (now : Time) (r : ProjectState) : ProjectState :=
  { r with deletedAt := some now }

def ProjectLabel.setDeletedAt (now : Time) (r : ProjectLabel) : ProjectLabel :=
  { r with deletedAt := some now }

def WorkItem.setDeletedAt (now : Time) (r : WorkItem) : WorkItem :=
  { r with deletedAt := some now }

def JoinRow.setDeletedAt (now : Time) (r : JoinRow) : JoinRow := { r with deletedAt := some now }

theorem JoinRow.key_setDeletedAt (now : Time) (r : JoinRow) : (r.setDeletedAt now).key = r.key :=
  rfl

namespace Store

variable (s : Store)

/-! ### States -/

/-- `create` of a state. -/
def createState (subject : Subject) (id : Uuid) (data : ProjectStateCreate) :
    Except ProjectError Store := do
  let project ← s.ensureMember subject data.projectId
  match oneOrNone (s.states.select fun r =>
      r.projectId = project.id ∧ r.name = data.name ∧ r.deletedAt = none) with
  | .error _ => .error .multipleResultsFound
  | .ok (some _) =>
    .error (.resourceAlreadyExists
      ("A state named '" ++ data.name ++ "' already exists in this project."))
  | .ok none =>
    let states ← insertAll s.states [{ id, projectId := project.id, name := data.name }]
    s.withStates states

/-- `update` of a state. -/
def updateState (subject : Subject) (id : Uuid) (data : ProjectStateUpdate) :
    Except ProjectError Store :=
  match s.getState subject id with
  | none => .error (.resourceNotFound "Not found")
  | some state => do
    let _ ← s.ensureMember subject state.projectId
    if data.Nulls then .error .integrityError
    else s.withStates (s.states.modify (·.id = state.id) data.apply fun _ => rfl)

/-- `delete` of a state. -/
def deleteState (subject : Subject) (id : Uuid) (now : Time) : Except ProjectError Store :=
  match s.getState subject id with
  | none => .error (.resourceNotFound "Not found")
  | some state => do
    let _ ← s.ensureMember subject state.projectId
    s.withStates (s.states.modify (·.id = state.id) (ProjectState.setDeletedAt now) fun _ => rfl)

/-! ### Labels -/

/-- The parent that `create` of a label is given. -/
def checkParentLabel (subject : Subject) (projectId : Uuid) :
    Option Uuid → Except ProjectError Unit
  | none => .ok ()
  | some parentId =>
    match s.getLabel subject parentId with
    | none => .error (.resourceNotFound "Parent label not found.")
    | some parent =>
      if parent.projectId ≠ projectId then
        .error (.badRequest "Parent label belongs to a different project.")
      else .ok ()

/-- `create` of a label. -/
def createLabel (subject : Subject) (id : Uuid) (data : ProjectLabelCreate) :
    Except ProjectError Store := do
  let project ← s.ensureMember subject data.projectId
  s.checkParentLabel subject project.id data.parentId
  match oneOrNone (s.labels.select fun r =>
      r.projectId = project.id ∧ r.name = data.name ∧ r.deletedAt = none) with
  | .error _ => .error .multipleResultsFound
  | .ok (some _) =>
    .error (.resourceAlreadyExists
      ("A label named '" ++ data.name ++ "' already exists in this project."))
  | .ok none =>
    let labels ← insertAll s.labels
      [{ id, projectId := project.id, parentId := data.parentId, name := data.name }]
    s.withLabels labels

/-- `update` of a label: nothing is asked about a new parent. -/
def updateLabel (subject : Subject) (id : Uuid) (data : ProjectLabelUpdate) :
    Except ProjectError Store :=
  match s.getLabel subject id with
  | none => .error (.resourceNotFound "Not found")
  | some label => do
    let _ ← s.ensureMember subject label.projectId
    if data.Nulls then .error .integrityError
    else s.withLabels (s.labels.modify (·.id = label.id) data.apply fun _ => rfl)

/-- `delete` of a label. -/
def deleteLabel (subject : Subject) (id : Uuid) (now : Time) : Except ProjectError Store :=
  match s.getLabel subject id with
  | none => .error (.resourceNotFound "Not found")
  | some label => do
    let _ ← s.ensureMember subject label.projectId
    s.withLabels (s.labels.modify (·.id = label.id) (ProjectLabel.setDeletedAt now) fun _ => rfl)

/-! ### Work items -/

/-- `_verify_parent`, where there is a parent. -/
def verifyOptionalParent (projectId : Uuid) : Option Uuid → Except ProjectError Unit
  | none => .ok ()
  | some parentId => s.verifyParent projectId parentId

/-- `_verify_state`, where a state is set. -/
def verifyOptionalState (projectId : Uuid) : Option Uuid → Except ProjectError Unit
  | none => .ok ()
  | some stateId => s.verifyState projectId stateId

end Store

/-- The mapped attributes of `WorkItem`, those of `BaseEntity` included. -/
def WorkItem.attributes : List String :=
  ["id", "created_at", "modified_at", "deleted_at", "project_id", "sequence_number", "name",
    "description_json", "description_html", "description_binary", "priority", "state_id",
    "parent_id", "start_date", "target_date", "completed_at", "sort_order", "is_draft",
    "archived_at", "project", "state"]

/-- The keywords with which `create` calls the constructor. -/
def WorkItem.createKeywords : List String :=
  ["project_id", "sequence_number", "name", "description_json", "description_html", "priority",
    "state_id", "estimate_point_id", "parent_id", "start_date", "target_date", "sort_order",
    "is_draft"]

/-- The declarative constructor: every keyword has to be an attribute. -/
def checkKeywords (className : String) (attributes keywords : List String) :
    Except ProjectError Unit :=
  match keywords.find? fun k => k ∉ attributes with
  | some k =>
    .error (.typeError ("'" ++ k ++ "' is an invalid keyword argument for " ++ className))
  | none => .ok ()

/-- `WorkItem(...)`, as `create` calls it. -/
def WorkItemCreate.construct (data : WorkItemCreate) (id projectId : Uuid) (sequenceNumber : ℕ) :
    Except ProjectError WorkItem := do
  checkKeywords "WorkItem" WorkItem.attributes WorkItem.createKeywords
  return {
    id, projectId, sequenceNumber, name := data.name, priority := data.priority,
    stateId := data.stateId, parentId := data.parentId, isDraft := data.isDraft }

/-- `get_assignee_ids` and `get_label_ids`: what is joined to a work item. -/
def joinedIds (t : Table JoinRow.key) (workItemId : Uuid) : List Uuid :=
  (t.select fun r => r.workItemId = workItemId ∧ r.deletedAt = none).map JoinRow.targetId

/-- `_reconcile_assignees` and `_reconcile_labels`: the live rows of a work item that are not
wanted are deleted, and a row is inserted for each target without a live one. -/
def reconcile (t : Table JoinRow.key) (workItemId : Uuid) (targets : List Uuid) (now : Time) :
    Except ProjectError (Table JoinRow.key) :=
  let missing := targets.dedup.filter fun id => id ∉ joinedIds t workItemId
  let kept := t.modify
    (fun r => r.workItemId = workItemId ∧ r.deletedAt = none ∧ r.targetId ∉ targets)
    (JoinRow.setDeletedAt now) (JoinRow.key_setDeletedAt now)
  insertAll kept (missing.map fun targetId => { workItemId, targetId })

namespace Store

variable (s : Store)

/-- `get_assignee_ids`. -/
def getAssigneeIds (workItemId : Uuid) : List Uuid := joinedIds s.assignees workItemId

/-- `get_label_ids`. -/
def getLabelIds (workItemId : Uuid) : List Uuid := joinedIds s.itemLabels workItemId

/-- `_reconcile_assignees`. -/
def reconcileAssignees (workItemId : Uuid) (targets : List Uuid) (now : Time) :
    Except ProjectError Store := do
  let assignees ← reconcile s.assignees workItemId targets now
  s.withAssignees assignees

/-- `_reconcile_labels`. -/
def reconcileLabels (workItemId : Uuid) (targets : List Uuid) (now : Time) :
    Except ProjectError Store := do
  let itemLabels ← reconcile s.itemLabels workItemId targets now
  s.withItemLabels itemLabels

/-- The checks of `create`, up to the number: the project. -/
def verifyCreate (subject : Subject) (data : WorkItemCreate) : Except ProjectError Project := do
  let project ← s.ensureMember subject data.projectId
  s.verifyState project.id data.stateId
  s.verifyOptionalParent project.id data.parentId
  s.verifyLabels project.id data.labelIds
  s.verifyAssignees project.workspaceId data.assigneeIds
  return project

/-- Insert a work item. -/
def insertWorkItem (item : WorkItem) : Except ProjectError Store := do
  let workItems ← insertAll s.workItems [item]
  s.withWorkItems workItems

/-- The join rows of a new work item. -/
def insertJoinRows (item : WorkItem) (data : WorkItemCreate) : Except ProjectError Store := do
  let assignees ← insertAll s.assignees
    (data.assigneeIds.dedup.map fun targetId => { workItemId := item.id, targetId })
  let s' ← s.withAssignees assignees
  let itemLabels ← insertAll s'.itemLabels
    (data.labelIds.dedup.map fun targetId => { workItemId := item.id, targetId })
  s'.withItemLabels itemLabels

/-- `create` of a work item. -/
def createWorkItem (subject : Subject) (id : Uuid) (data : WorkItemCreate) :
    Except ProjectError Store := do
  let project ← s.verifyCreate subject data
  let item ← data.construct id project.id (s.nextSequenceNumber project.id)
  let s' ← s.insertWorkItem item
  s'.insertJoinRows item data

/-- The checks of `update` before anything is written: the project. -/
def verifyUpdate (subject : Subject) (item : WorkItem) (data : WorkItemUpdate) :
    Except ProjectError Project := do
  let project ← s.ensureMember subject item.projectId
  s.verifyOptionalState project.id data.stateId.join
  if data.parentId = some (some item.id) then
    .error (.badRequest "A work item cannot be its own parent.")
  else
    s.verifyOptionalParent project.id data.parentId.join
    return project

/-- The write of the fields of a work item. -/
def writeFields (item : WorkItem) (data : WorkItemUpdate) : Except ProjectError Store :=
  if data.Nulls then .error .integrityError
  else s.withWorkItems (s.workItems.modify (·.id = item.id) data.apply fun _ => rfl)

/-- The replacement of the assignees. -/
def replaceAssignees (project : Project) (item : WorkItem) (now : Time) :
    Option (List Uuid) → Except ProjectError Store
  | none => .ok s
  | some assigneeIds => do
    s.verifyAssignees project.workspaceId assigneeIds
    s.reconcileAssignees item.id assigneeIds now

/-- The replacement of the labels. -/
def replaceLabels (project : Project) (item : WorkItem) (now : Time) :
    Option (List Uuid) → Except ProjectError Store
  | none => .ok s
  | some labelIds => do
    s.verifyLabels project.id labelIds
    s.reconcileLabels item.id labelIds now

/-- `update` of a work item. -/
def updateWorkItem (subject : Subject) (id : Uuid) (data : WorkItemUpdate) (now : Time) :
    Except ProjectError Store :=
  match s.getWorkItem subject id with
  | none => .error (.resourceNotFound "Not found")
  | some item => do
    let project ← s.verifyUpdate subject item data
    let s₁ ← s.writeFields item data
    let s₂ ← s₁.replaceAssignees project item now data.assigneeIds
    s₂.replaceLabels project item now data.labelIds

/-- `delete` of a work item. -/
def deleteWorkItem (subject : Subject) (id : Uuid) (now : Time) : Except ProjectError Store :=
  match s.getWorkItem subject id with
  | none => .error (.resourceNotFound "Not found")
  | some item => do
    let _ ← s.ensureMember subject item.projectId
    s.withWorkItems (s.workItems.modify (·.id = item.id) (WorkItem.setDeletedAt now) fun _ => rfl)

end Store

/-! ### Sequences of operations -/

inductive Operation where
  | createState (subject : Subject) (id : Uuid) (data : ProjectStateCreate)
  | updateState (subject : Subject) (id : Uuid) (data : ProjectStateUpdate)
  | deleteState (subject : Subject) (id : Uuid) (now : Time)
  | createLabel (subject : Subject) (id : Uuid) (data : ProjectLabelCreate)
  | updateLabel (subject : Subject) (id : Uuid) (data : ProjectLabelUpdate)
  | deleteLabel (subject : Subject) (id : Uuid) (now : Time)
  | createWorkItem (subject : Subject) (id : Uuid) (data : WorkItemCreate)
  | updateWorkItem (subject : Subject) (id : Uuid) (data : WorkItemUpdate) (now : Time)
  | deleteWorkItem (subject : Subject) (id : Uuid) (now : Time)
  /-- The projects, their members and the memberships of workspaces change. -/
  | directory (projects : Table Project.id) (projectMembers : Table ProjectMember.key)
      (memberships : Table WorkspaceMembership.key)

/-- Perform an operation. -/
def Store.perform (s : Store) : Operation → Except ProjectError Store
  | .createState subject id data => s.createState subject id data
  | .updateState subject id data => s.updateState subject id data
  | .deleteState subject id now => s.deleteState subject id now
  | .createLabel subject id data => s.createLabel subject id data
  | .updateLabel subject id data => s.updateLabel subject id data
  | .deleteLabel subject id now => s.deleteLabel subject id now
  | .createWorkItem subject id data => s.createWorkItem subject id data
  | .updateWorkItem subject id data now => s.updateWorkItem subject id data now
  | .deleteWorkItem subject id now => s.deleteWorkItem subject id now
  | .directory projects projectMembers memberships =>
    .ok { s with projects, projectMembers, memberships }

/-- The state after an operation: that before it, where it fails. -/
def Store.performed (s : Store) (op : Operation) : Store :=
  match s.perform op with
  | .ok s' => s'
  | .error _ => s

/-- All sequences of operations. What is observed is an error. -/
def operations (start : Store) : System Store Operation ProjectError where
  init := start
  step s op :=
    (s.performed op,
      match s.perform op with
      | .ok _ => []
      | .error e => [e])

end Rapidly.Projects
