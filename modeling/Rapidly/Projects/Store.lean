import Rapidly.Fallible.Except
import Rapidly.Identity.Schema
import Rapidly.Relational.Hierarchy

/-!
# The tables of projects

The rows of `models/project*.py` and `models/work_item*.py`, with the queries and the guards that
the actions of states, labels and work items share. A row has the columns that some modelled
function reads or that a constraint is about.

`Store` bundles the tables with the constraints that the database checks: the unique columns,
which count deleted rows too, and the foreign keys to parents and from the join tables to work
items. A write puts a new table in place of an old one if the constraints are met (`withStates`,
`withLabels`, `withWorkItems`, `withAssignees`, `withItemLabels`), and fails with an
`IntegrityError` otherwise. The two join tables have their unique pair for a key.
-/

namespace Rapidly.Projects

open Relational Fallible

open Identity (Uuid Time WorkspaceMembership)

/-! ### Rows -/

/-- `ProjectMemberRole`. -/
inductive ProjectMemberRole where
  | admin
  | member
  | guest
deriving DecidableEq

/-- `_ROLE_RANK`. -/
def ProjectMemberRole.rank : ProjectMemberRole → ℕ
  | .guest => 0
  | .member => 1
  | .admin => 2

def ProjectMemberRole.value : ProjectMemberRole → String
  | .guest => "guest"
  | .member => "member"
  | .admin => "admin"

structure Project where
  id : Uuid
  workspaceId : Uuid
  deletedAt : Option Time := none
deriving DecidableEq

structure ProjectMember where
  projectId : Uuid
  userId : Uuid
  role : ProjectMemberRole
  deletedAt : Option Time := none
deriving DecidableEq

/-- The unique pair of a project member. -/
def ProjectMember.key (m : ProjectMember) : Uuid × Uuid := (m.projectId, m.userId)

structure ProjectState where
  id : Uuid
  projectId : Uuid
  name : String
  deletedAt : Option Time := none
deriving DecidableEq

structure ProjectLabel where
  id : Uuid
  projectId : Uuid
  parentId : Option Uuid := none
  name : String
  deletedAt : Option Time := none
deriving DecidableEq

/-- `WorkItemPriority`. -/
inductive WorkItemPriority where
  | urgent
  | high
  | medium
  | low
  | none
deriving DecidableEq

structure WorkItem where
  id : Uuid
  projectId : Uuid
  sequenceNumber : ℕ
  name : String
  priority : WorkItemPriority := .none
  stateId : Uuid
  parentId : Option Uuid := none
  isDraft : Bool := false
  deletedAt : Option Time := none
deriving DecidableEq

/-- A row of a join table: a work item and what is joined to it. -/
structure JoinRow where
  workItemId : Uuid
  targetId : Uuid
  deletedAt : Option Time := none
deriving DecidableEq

/-- The unique pair of a join row. -/
def JoinRow.key (r : JoinRow) : Uuid × Uuid := (r.workItemId, r.targetId)

/-- The unique pair of a named row. -/
def ProjectState.nameKey (r : ProjectState) : Uuid × String := (r.projectId, r.name)

def ProjectLabel.nameKey (r : ProjectLabel) : Uuid × String := (r.projectId, r.name)

/-- The unique pair of a work item: its number in its project. -/
def WorkItem.number (r : WorkItem) : Uuid × ℕ := (r.projectId, r.sequenceNumber)

/-! ### The database -/

structure Tables where
  memberships : Table WorkspaceMembership.key := Table.empty
  projects : Table Project.id := Table.empty
  projectMembers : Table ProjectMember.key := Table.empty
  states : Table ProjectState.id := Table.empty
  labels : Table ProjectLabel.id := Table.empty
  workItems : Table WorkItem.id := Table.empty
  assignees : Table JoinRow.key := Table.empty
  itemLabels : Table JoinRow.key := Table.empty

/-- The tables, with their constraints. -/
structure Store extends Tables where
  states_name : states.UniqueOn ProjectState.nameKey := by decide
  labels_name : labels.UniqueOn ProjectLabel.nameKey := by decide
  labels_parent : labels.ReferencesNullable ProjectLabel.parentId labels := by decide
  workItems_number : workItems.UniqueOn WorkItem.number := by decide
  workItems_parent : workItems.ReferencesNullable WorkItem.parentId workItems := by decide
  assignees_workItem : assignees.References JoinRow.workItemId workItems := by decide
  itemLabels_workItem : itemLabels.References JoinRow.workItemId workItems := by decide

/-- The subject of an `AuthPrincipal[User | Workspace]`. -/
inductive Subject where
  | user (id : Uuid)
  | workspace (id : Uuid)
deriving DecidableEq

/-- How an operation fails. -/
inductive ProjectError where
  | resourceNotFound (message : String)
  | notPermitted (message : String)
  | badRequest (message : String)
  | resourceAlreadyExists (message : String)
  | multipleResultsFound
  /-- The constructor of a row rejects a keyword. -/
  | typeError (message : String)
  /-- The database rejects a write. -/
  | integrityError
deriving DecidableEq

namespace Store

variable (s : Store)

/-! ### Queries -/

/-- The rows of a workspace are readable for the subject. -/
def Reads (subject : Subject) (workspaceId : Uuid) : Prop :=
  match subject with
  | .user id => ∃ m ∈ s.memberships.rows,
      m.userId = id ∧ m.workspaceId = workspaceId ∧ m.deletedAt = none
  | .workspace id => workspaceId = id

instance (subject : Subject) (workspaceId : Uuid) : Decidable (s.Reads subject workspaceId) :=
  match subject with
  | .user _ => inferInstanceAs (Decidable (∃ m ∈ s.memberships.rows, _))
  | .workspace id => inferInstanceAs (Decidable (workspaceId = id))

/-- `get_readable_statement` of projects, for one project. -/
def getProject (subject : Subject) (id : Uuid) : Option Project :=
  (s.projects.get id).filter fun p => p.deletedAt = none ∧ s.Reads subject p.workspaceId

/-- The join of `get_readable_statement` of states, labels and work items: the project of a row is
readable; whether it is deleted is not asked. -/
def ReadsProject (subject : Subject) (projectId : Uuid) : Prop :=
  ∃ p ∈ s.projects.get projectId, s.Reads subject p.workspaceId

instance (subject : Subject) (projectId : Uuid) : Decidable (s.ReadsProject subject projectId) :=
  inferInstanceAs (Decidable (∃ p ∈ s.projects.get projectId, _))

/-- `get` of the states. -/
def getState (subject : Subject) (id : Uuid) : Option ProjectState :=
  (s.states.get id).filter fun r => r.deletedAt = none ∧ s.ReadsProject subject r.projectId

/-- `get` of the labels. -/
def getLabel (subject : Subject) (id : Uuid) : Option ProjectLabel :=
  (s.labels.get id).filter fun r => r.deletedAt = none ∧ s.ReadsProject subject r.projectId

/-- `get` of the work items. -/
def getWorkItem (subject : Subject) (id : Uuid) : Option WorkItem :=
  (s.workItems.get id).filter fun r => r.deletedAt = none ∧ s.ReadsProject subject r.projectId

/-- `get_member_role`. -/
def getMemberRole (projectId userId : Uuid) : Option ProjectMemberRole :=
  ((s.projectMembers.get (projectId, userId)).filter fun m => m.deletedAt = none).map
    ProjectMember.role

/-- `next_sequence_number`. -/
def nextSequenceNumber (projectId : Uuid) : ℕ :=
  ((s.workItems.select fun r => r.projectId = projectId).map WorkItem.sequenceNumber).foldl max 0 +
    1

/-! ### Guards -/

/-- `require_role`. -/
def requireRole (subject : Subject) (project : Project) (minimum : ProjectMemberRole) :
    Except ProjectError Unit :=
  match subject with
  | .workspace id =>
    if id ≠ project.workspaceId then .error (.notPermitted "Workspace mismatch.") else .ok ()
  | .user id =>
    match s.getMemberRole project.id id with
    | none => .error (.notPermitted "You are not a member of this project.")
    | some role =>
      if minimum.rank ≤ role.rank then .ok ()
      else
        .error (.notPermitted
          ("This action requires the '" ++ minimum.value ++ "' project role or higher."))

/-- `_ensure_member`, and the start of the three `create`: the project is readable, and the caller
at least a member of it. -/
def ensureMember (subject : Subject) (projectId : Uuid) : Except ProjectError Project :=
  match s.getProject subject projectId with
  | none => .error (.resourceNotFound "Project not found.")
  | some project => do
    s.requireRole subject project .member
    return project

/-- `_verify_state`. -/
def verifyState (projectId stateId : Uuid) : Except ProjectError Unit :=
  if ∃ r ∈ s.states.rows, r.id = stateId ∧ r.projectId = projectId ∧ r.deletedAt = none then
    .ok ()
  else .error (.badRequest "State does not belong to this project.")

/-- `_verify_parent`. -/
def verifyParent (projectId parentId : Uuid) : Except ProjectError Unit :=
  if ∃ r ∈ s.workItems.rows, r.id = parentId ∧ r.projectId = projectId ∧ r.deletedAt = none then
    .ok ()
  else .error (.badRequest "Parent work item does not belong to this project.")

/-- `_verify_labels`; of an empty list there is nothing to verify. -/
def verifyLabels (projectId : Uuid) (labelIds : List Uuid) : Except ProjectError Unit :=
  if ∀ id ∈ labelIds, ∃ r ∈ s.labels.rows,
      r.id = id ∧ r.projectId = projectId ∧ r.deletedAt = none then .ok ()
  else .error (.badRequest "One or more labels do not belong to this project.")

/-- `_verify_assignees`; of an empty list there is nothing to verify. -/
def verifyAssignees (workspaceId : Uuid) (userIds : List Uuid) : Except ProjectError Unit :=
  if ∀ id ∈ userIds, ∃ m ∈ s.memberships.rows,
      m.userId = id ∧ m.workspaceId = workspaceId ∧ m.deletedAt = none then .ok ()
  else .error (.badRequest "One or more assignees are not workspace members.")

/-! ### Writes -/

/-- Put a new table of states in place. -/
def withStates (states : Table ProjectState.id) : Except ProjectError Store :=
  if h : states.UniqueOn ProjectState.nameKey then .ok { s with states, states_name := h }
  else .error .integrityError

/-- Put a new table of labels in place. -/
def withLabels (labels : Table ProjectLabel.id) : Except ProjectError Store :=
  if h : labels.UniqueOn ProjectLabel.nameKey ∧
      labels.ReferencesNullable ProjectLabel.parentId labels then
    .ok { s with labels, labels_name := h.1, labels_parent := h.2 }
  else .error .integrityError

/-- Put a new table of work items in place. -/
def withWorkItems (workItems : Table WorkItem.id) : Except ProjectError Store :=
  if h : (workItems.UniqueOn WorkItem.number ∧
      workItems.ReferencesNullable WorkItem.parentId workItems) ∧
      s.assignees.References JoinRow.workItemId workItems ∧
      s.itemLabels.References JoinRow.workItemId workItems then
    .ok
      { s with
        workItems
        workItems_number := h.1.1
        workItems_parent := h.1.2
        assignees_workItem := h.2.1
        itemLabels_workItem := h.2.2 }
  else .error .integrityError

/-- Put a new table of assignees in place. -/
def withAssignees (assignees : Table JoinRow.key) : Except ProjectError Store :=
  if h : assignees.References JoinRow.workItemId s.workItems then
    .ok { s with assignees, assignees_workItem := h }
  else .error .integrityError

/-- Put a new table of the labels of work items in place. -/
def withItemLabels (itemLabels : Table JoinRow.key) : Except ProjectError Store :=
  if h : itemLabels.References JoinRow.workItemId s.workItems then
    .ok { s with itemLabels, itemLabels_workItem := h }
  else .error .integrityError

variable {s} {s' : Store}

theorem withStates_eq_ok {states : Table ProjectState.id} (h : s.withStates states = .ok s') :
    s'.toTables = { s.toTables with states } := by
  obtain ⟨_, rfl⟩ := dite_eq_ok.mp h
  rfl

theorem withLabels_eq_ok {labels : Table ProjectLabel.id} (h : s.withLabels labels = .ok s') :
    s'.toTables = { s.toTables with labels } := by
  obtain ⟨_, rfl⟩ := dite_eq_ok.mp h
  rfl

theorem withWorkItems_eq_ok {workItems : Table WorkItem.id}
    (h : s.withWorkItems workItems = .ok s') : s'.toTables = { s.toTables with workItems } := by
  obtain ⟨_, rfl⟩ := dite_eq_ok.mp h
  rfl

theorem withAssignees_eq_ok {assignees : Table JoinRow.key}
    (h : s.withAssignees assignees = .ok s') : s'.toTables = { s.toTables with assignees } := by
  obtain ⟨_, rfl⟩ := dite_eq_ok.mp h
  rfl

theorem withItemLabels_eq_ok {itemLabels : Table JoinRow.key}
    (h : s.withItemLabels itemLabels = .ok s') :
    s'.toTables = { s.toTables with itemLabels } := by
  obtain ⟨_, rfl⟩ := dite_eq_ok.mp h
  rfl

end Store

/-- A small database: a project with two states and a label, a work item that has the label, and a
member of the workspace. -/
def oneItem : Store where
  memberships := Table.singleton { userId := 7, workspaceId := 9 }
  projects := Table.singleton { id := 1, workspaceId := 9 }
  states :=
    ⟨[{ id := 5, projectId := 1, name := "Todo" }, { id := 6, projectId := 1, name := "Done" }],
      by decide⟩
  labels := Table.singleton { id := 10, projectId := 1, name := "Bug" }
  workItems :=
    Table.singleton { id := 20, projectId := 1, sequenceNumber := 1, name := "Crash", stateId := 5 }
  itemLabels := Table.singleton { workItemId := 20, targetId := 10 }

/-- Insert rows into a table. -/
def insertAll {Row Key : Type} [DecidableEq Key] {key : Row → Key} (t : Table key)
    (rs : List Row) : Except ProjectError (Table key) :=
  match t.addAll rs with
  | none => .error .integrityError
  | some t' => .ok t'

end Rapidly.Projects
