import Rapidly.Projects.Steps
import Rapidly.Transition.Tasks

/-!
# The numbers of work items

`create` of a work item reads the project and the role of the caller, verifies what the data
names, reads the largest number in the project, and inserts its work item under the next one.
`creations` runs such calls side by side at the granularity of their statements; all other
operations may happen in between, deletions included. What is observed is how a create ends that
has passed its checks.

The numbers of a project are distinct in every state, deleted work items included: the unique
constraint is part of `Store`. But no create that has passed its checks succeeds. The row is built
with the keyword `estimate_point_id`, which is no attribute of `WorkItem` any more
(`construct_eq_error`), so that the insertion, on which two creates with the same number would
compete, is never reached. `numbering_iff` puts this as a statement about runs.
-/

namespace Rapidly.Projects

open Relational Transition Fallible

open Identity (Uuid)

/-! ### A create, statement by statement -/

/-- How far a create has got. -/
inductive CreateProgress where
  | called
  | found (project : Project)
  | authorised (project : Project)
  | stateVerified (project : Project)
  | parentVerified (project : Project)
  | labelsVerified (project : Project)
  | assigneesVerified (project : Project)
  /-- All checks are passed, and the next number is read. -/
  | numbered (project : Project) (sequenceNumber : ℕ)
  | ended (result : Except ProjectError WorkItem)

/-- A call of `create`. -/
structure Creation where
  subject : Subject
  id : Uuid
  data : WorkItemCreate
  progress : CreateProgress := .called

/-- A check, and where it leads. -/
def Creation.check {α : Type} (c : Creation) (result : Except ProjectError α)
    (next : α → CreateProgress) : Creation :=
  { c with
    progress :=
      match result with
      | .ok a => next a
      | .error e => .ended (.error e) }

/-- The project that `create` reads first. -/
def Store.findProject (s : Store) (subject : Subject) (projectId : Uuid) :
    Except ProjectError Project :=
  match s.getProject subject projectId with
  | none => .error (.resourceNotFound "Project not found.")
  | some project => .ok project

/-- The write of `create`, with the commit. -/
def Store.writeCreated (s : Store) (c : Creation) (project : Project) (sequenceNumber : ℕ) :
    Except ProjectError (Store × WorkItem) := do
  let item ← c.data.construct c.id project.id sequenceNumber
  let s₁ ← s.insertWorkItem item
  let s₂ ← s₁.insertJoinRows item c.data
  return (s₂, item)

/-- The next statement of a create. -/
def Creation.advance (s : Store) (c : Creation) :
    Store × Creation × List (Except ProjectError WorkItem) :=
  match c.progress with
  | .called => (s, c.check (s.findProject c.subject c.data.projectId) .found, [])
  | .found project =>
    (s, c.check (s.requireRole c.subject project .member) fun _ => .authorised project, [])
  | .authorised project =>
    (s, c.check (s.verifyState project.id c.data.stateId) fun _ => .stateVerified project, [])
  | .stateVerified project =>
    (s, c.check (s.verifyOptionalParent project.id c.data.parentId)
      fun _ => .parentVerified project, [])
  | .parentVerified project =>
    (s, c.check (s.verifyLabels project.id c.data.labelIds) fun _ => .labelsVerified project, [])
  | .labelsVerified project =>
    (s, c.check (s.verifyAssignees project.workspaceId c.data.assigneeIds)
      fun _ => .assigneesVerified project, [])
  | .assigneesVerified project =>
    (s, { c with progress := .numbered project (s.nextSequenceNumber project.id) }, [])
  | .numbered project sequenceNumber =>
    match s.writeCreated c project sequenceNumber with
    | .ok (s', item) => (s', { c with progress := .ended (.ok item) }, [.ok item])
    | .error e => (s, { c with progress := .ended (.error e) }, [.error e])
  | .ended _ => (s, c, [])

/-- Creates side by side, and all other operations in between. -/
def creations (start : Store) :
    Tasks Store Creation Operation Unit (Except ProjectError WorkItem) where
  init := start
  arrive s _ op :=
    match op with
    | .createWorkItem subject id data => (s, [{ subject, id, data }], [])
    | op => (s.performed op, [], [])
  advance s _ _ c := c.advance s

/-! ### What a create that has passed its checks comes to -/

theorem find_createKeywords :
    (WorkItem.createKeywords.find? fun k => k ∉ WorkItem.attributes) =
      some "estimate_point_id" := by
  decide

/-- **The row is not built.** -/
theorem construct_eq_error (data : WorkItemCreate) (id projectId : Uuid) (sequenceNumber : ℕ) :
    data.construct id projectId sequenceNumber =
      .error (.typeError "'estimate_point_id' is an invalid keyword argument for WorkItem") := by
  rw [WorkItemCreate.construct, checkKeywords, find_createKeywords]
  rfl

theorem writeCreated_eq_error (s : Store) (c : Creation) (project : Project)
    (sequenceNumber : ℕ) :
    s.writeCreated c project sequenceNumber =
      .error (.typeError "'estimate_point_id' is an invalid keyword argument for WorkItem") := by
  rw [Store.writeCreated, construct_eq_error]
  rfl

theorem advance_numbered {s : Store} {c : Creation} {project : Project} {sequenceNumber : ℕ}
    (h : c.progress = .numbered project sequenceNumber) :
    c.advance s =
      (s, { c with progress := .ended (.error
        (.typeError "'estimate_point_id' is an invalid keyword argument for WorkItem")) },
      [.error (.typeError "'estimate_point_id' is an invalid keyword argument for WorkItem")]) := by
  rw [Creation.advance.eq_def, h]
  dsimp only
  rw [writeCreated_eq_error]

/-- The database rejects a work item whose number is taken in its project. Of two creates that
have read the same maximum, the later one would come to this, and nobody would retry it. -/
theorem insertWorkItem_of_taken {s : Store} {item : WorkItem}
    (h : ∃ r ∈ s.workItems, r.number = item.number) :
    s.insertWorkItem item = .error .integrityError := by
  rw [Store.insertWorkItem, insertAll]
  rcases hadd : s.workItems.addAll [item] with _ | workItems
  · rfl
  · obtain ⟨hmem, hkey⟩ := Table.addAll_eq_some hadd
    obtain ⟨r, hr, hnumber⟩ := h
    change s.withWorkItems workItems = _
    rw [Store.withWorkItems, dif_neg]
    rintro ⟨⟨hunique, -⟩, -⟩
    have hsame : item = r :=
      hunique.eq ((hmem item).mpr (.inl List.mem_cons_self)) ((hmem r).mpr (.inr hr)) hnumber.symm
    exact hkey item List.mem_cons_self r hr (congrArg WorkItem.id hsame)

/-! ### A create on its own -/

section Alone

variable {s : Store} {subject : Subject} {id : Uuid} {data : WorkItemCreate}

theorem ensureMember_eq (projectId : Uuid) :
    s.ensureMember subject projectId = do
      let project ← s.findProject subject projectId
      s.requireRole subject project .member
      return project := by
  rw [Store.ensureMember, Store.findProject]
  rcases s.getProject subject projectId with _ | project
  · rfl
  · rfl

/-- The next statement, where nothing else happens. -/
def Creation.next (s : Store) (c : Creation) : Creation := (c.advance s).2.1

theorem iterate_ended {c : Creation} {result : Except ProjectError WorkItem}
    (h : c.progress = .ended result) (n : ℕ) : (Creation.next s)^[n] c = c := by
  refine Function.iterate_fixed ?_ n
  rw [Creation.next, Creation.advance.eq_def, h]

/-- A check of a create that fails with an error: either the check fails, or the rest does. -/
theorem iterate_check {c : Creation} {α : Type} {result : Except ProjectError α}
    {next : α → CreateProgress} {rest : α → Except ProjectError Store} {e : ProjectError} {n : ℕ}
    (hstep : c.next s = c.check result next) (he : result >>= rest = .error e)
    (hrest : ∀ a, rest a = .error e →
      ((Creation.next s)^[n] { c with progress := next a }).progress = .ended (.error e)) :
    ((Creation.next s)^[n + 1] c).progress = .ended (.error e) := by
  rw [Function.iterate_succ_apply, hstep]
  rcases result with e' | a
  · obtain rfl := Except.error.inj he
    have hended : (c.check (.error e') next).progress = .ended (.error e') := rfl
    rw [iterate_ended hended]
    exact hended
  · exact hrest a he

end Alone

/-! ### Over a run -/

/-- A create that has passed its checks comes to its insertion. -/
def Inserts (p : Pool Store Creation) : Turn Operation Unit → Prop
  | .event _ => False
  | .resumed i _ => ∃ c project n, p.tasks[i]? = some c ∧ c.progress = .numbered project n

/-- The claimed numbering: each create that has passed its checks succeeds, and the numbers of the
work items of a project are distinct. -/
structure NumberingHolds (start : Store) (ls : List (Turn Operation Unit)) : Prop where
  succeeds : ∀ result ∈ (creations start).system.log ls, ∃ item, result = .ok item
  distinct : ((creations start).system.after ls).shared.workItems.UniqueOn WorkItem.number

section Run

variable {start : Store} {p : Pool Store Creation} {l : Turn Operation Unit}

theorem step_of_inserts (h : Inserts p l) :
    ((creations start).step p l).2 =
      [.error (.typeError "'estimate_point_id' is an invalid keyword argument for WorkItem")] := by
  rcases l with op | ⟨i, _⟩
  · exact h.elim
  · obtain ⟨c, project, n, hi, hprogress⟩ := h
    rw [Tasks.step_resumed hi]
    change (c.advance p.shared).2.2 = _
    rw [advance_numbered hprogress]

theorem step_of_not_inserts (h : ¬Inserts p l) : ((creations start).step p l).2 = [] := by
  rcases l with op | ⟨i, _⟩
  · rw [Tasks.step_event]
    rcases op with _ | _ | _ | _ | _ | _ | _ | _ | _ | _
    all_goals rfl
  · rcases hi : p.tasks[i]? with _ | c
    · rw [Tasks.step_resumed_none hi]
    · rw [Tasks.step_resumed hi]
      change (c.advance p.shared).2.2 = _
      rcases hprogress : c.progress with _ | _ | _ | _ | _ | _ | _ | ⟨project, n⟩ | _
      case numbered => exact absurd ⟨c, project, n, hi, hprogress⟩ h
      all_goals rw [Creation.advance.eq_def, hprogress]

/-- **Work-item numbering.** In every interleaving of creates and other operations the claimed
numbering holds if and only if no create that has passed its checks has come to its insertion:
none of them succeeds. -/
theorem numbering_iff (start : Store) (ls : List (Turn Operation Unit)) :
    NumberingHolds start ls ↔
      (creations start).system.Along (fun _ p l => ¬Inserts p l) ls := by
  have hdistinct := ((creations start).system.after ls).shared.workItems_number
  have hlog : (∀ result ∈ (creations start).system.log ls, ∃ item, result = .ok item) ↔
      (creations start).system.Along (fun _ p l => ¬Inserts p l) ls := by
    induction ls using List.reverseRecOn with
    | nil => exact ⟨fun _ => System.along_nil _ _, fun _ _ h => absurd h List.not_mem_nil⟩
    | append_singleton ls l ih =>
      have ih := ih ((creations start).system.after ls).shared.workItems_number
      rw [System.along_snoc, System.log_snoc, Tasks.system_step, List.forall_mem_append, ih]
      refine and_congr_right fun _ => ?_
      constructor
      · intro hok hinserts
        rw [step_of_inserts hinserts, List.forall_mem_singleton] at hok
        obtain ⟨item, hitem⟩ := hok
        cases hitem
      · intro hno
        rw [step_of_not_inserts hno]
        exact fun _ h => absurd h List.not_mem_nil
  exact ⟨fun h => hlog.mp h.succeeds, fun h => ⟨hlog.mpr h, hdistinct⟩⟩

end Run

/-- Two creates with valid data, side by side, up to the number of each. -/
def twoCreates : List (Turn Operation Unit) :=
  [.event (.createWorkItem (.workspace 9) 21 { projectId := 1, name := "Slow", stateId := 5 }),
    .event (.createWorkItem (.workspace 9) 22 { projectId := 1, name := "Leak", stateId := 5 })] ++
    (List.replicate 7 [.resumed 0 (), .resumed 1 ()]).flatten

/-- **A create that fails.** Both creates have read the number 2, and the first one builds its
row. -/
theorem created_fails : ¬∀ start ls, NumberingHolds start ls := by
  intro h
  have hinserts : Inserts ((creations oneItem).system.after twoCreates) (.resumed 0 ()) :=
    ⟨_, { id := 1, workspaceId := 9 }, 2, rfl, rfl⟩
  have hok := (h oneItem (twoCreates ++ [.resumed 0 ()])).succeeds
  rw [System.log_snoc, Tasks.system_step, step_of_inserts hinserts, List.forall_mem_append,
    List.forall_mem_singleton] at hok
  obtain ⟨item, hitem⟩ := hok.2
  cases hitem

end Rapidly.Projects
