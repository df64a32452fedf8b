import Rapidly.Graph.Kahn
import Rapidly.Identity.Schema
import Rapidly.KeyValue.Association

/-!
# Ingestion of events

`ingest` of `analytics/event/actions.py` with what it calls, from the batch of events that a
client sends to the rows of the `events` table. One call is one transaction.

An event may name its parent by the parent's id or by its external id, and the parent may be in
the same batch. So the batch is sorted first (`topologicalSort`); every external id of the batch
gets a fresh id (`batchExternalIdMap`); then the events are turned into dicts, one after the
other (`processEvent`), and the dicts are inserted (`insertBatch`), where a row whose external id
is stored already is dropped.

Two things are left open. Which text is a UUID, and which one, is a parameter (`parseUuid`). How
the rows are divided into `INSERT` statements is up to SQLAlchemy, which sends rows with different
columns separately and in order: a `Batching`. Foreign keys are checked after each statement.
-/

namespace Rapidly.Analytics.Ingestion

open Relational Identity KeyValue Graph

/-! ### Rows -/

/-- `EventSource`. -/
inductive EventSource where
  | system
  | user
deriving DecidableEq

/-- Whom an event is about: the fields of `EventCreateCustomer` or of
`EventCreateExternalCustomer`. -/
inductive CustomerReference where
  | internal (customerId : Uuid) (memberId : Option Uuid)
  | external (externalCustomerId : String) (externalMemberId : Option String)
deriving DecidableEq

/-- The columns of an event apart from its id and its place in the hierarchy. -/
structure EventColumns where
  timestamp : Time
  name : String
  source : EventSource
  externalId : Option String
  customer : CustomerReference
  /-- JSON, stored as it is. -/
  userMetadata : String
  workspaceId : Uuid
  eventTypeId : Option Uuid
deriving DecidableEq

/-- A row of the `events` table. -/
structure Event extends EventColumns where
  id : Uuid
  parentId : Option Uuid
  rootId : Option Uuid
deriving DecidableEq

/-- An event on its way to the table; a key that is not in the dict yet is `none`. -/
structure EventDict extends EventColumns where
  id : Option Uuid
  parentId : Option Uuid
  rootId : Option Uuid
deriving DecidableEq

structure EventType where
  id : Uuid
  name : String
  label : String
  workspaceId : Uuid
  deletedAt : Option Time := none
deriving DecidableEq

/-- The events with their unique index, while a statement is being executed. -/
structure EventRows where
  table : Table Event.id
  externalId_unique : table.UniqueNullable fun e => e.externalId

/-- The tables ingestion reads and writes, with the constraints of the schema. Both unique
indexes are on one column: they are not restricted to a workspace. -/
structure Database extends Identity.Database where
  eventTypes : Table EventType.id := Table.empty
  events : Table Event.id := Table.empty
  eventTypes_name : eventTypes.UniqueOn EventType.name := by decide
  events_externalId : (events.UniqueNullable fun e => e.externalId) := by decide
  events_parent : events.ReferencesNullable Event.parentId events := by decide
  events_root : events.ReferencesNullable Event.rootId events := by decide

/-! ### Requests and errors -/

/-- `EventCreate`. -/
structure EventCreate where
  timestamp : Time
  name : String
  workspaceId : Option Uuid := none
  externalId : Option String := none
  parentId : Option String := none
  metadata : String := ""
  customer : CustomerReference
deriving DecidableEq

/-- The subject of an `AuthPrincipal`. -/
inductive Subject where
  | user (id : Uuid)
  | workspace (id : Uuid)
deriving DecidableEq

/-- The input an error shows. -/
inductive Input where
  | absent
  | uuid (id : Uuid)
  | text (s : String)
deriving DecidableEq

structure ValidationError where
  type : String
  msg : String
  loc : String × String × ℕ × String
  input : Input
deriving DecidableEq

inductive IngestError where
  /-- `EventIngestValidationError` and `RequestValidationError`. -/
  | validation (errors : List ValidationError)
  /-- "Circular dependency detected in event parent relationships" -/
  | circularDependency
  | multipleResultsFound
  /-- A value is too long for its column. -/
  | dataError
  | uniqueViolation
  | foreignKeyViolation
deriving DecidableEq

/-- An error of the event at an index, in one of its fields. -/
def invalid (type msg : String) (index : ℕ) (field : String) (input : Input) : IngestError :=
  .validation [{ type, msg, loc := ("body", "events", index, field), input }]

/-- What `uuid4` is called for. -/
inductive Draw where
  /-- The external id of the event at an index of the batch. -/
  | externalId (index : ℕ)
  /-- The row at a position of the sorted events, if it has no external id. -/
  | row (position : ℕ)
  /-- The event type of the event at an index of the batch. -/
  | eventType (index : ℕ)
deriving DecidableEq

/-! ### Sorting -/

/-- What `_topological_sort_events` finds in an id or in a reference to a parent. -/
inductive Ref where
  | id (id : Uuid)
  | text (s : String)
deriving DecidableEq

/-- The falsy reference is the empty text. -/
def Ref.truthy : Ref → Bool
  | .id _ => true
  | .text s => s ≠ ""

/-- The keys of a dict that `_topological_sort_events` reads. -/
structure Links where
  id : Option Uuid
  externalId : Option String
  parentId : Option Ref
deriving DecidableEq

/-- The references under which an event can be found. -/
def Links.refs (l : Links) : List Ref :=
  (l.id.map Ref.id).toList ++ (l.externalId.map Ref.text).toList

section Sorting

variable {α : Type} (links : α → Links) (events : List α)

/-- `id_to_index`. -/
def idToIndex : List (Ref × ℕ) :=
  ofEntries (events.zipIdx.flatMap fun e => (links e.1).refs.map fun ref => (ref, e.2))

/-- The index of the parent of the event at an index, if it is among the events. -/
def parentIndex (index : ℕ) : Option ℕ :=
  (events[index]?).bind fun e =>
    (links e).parentId.bind fun ref =>
      if ref.truthy then find (idToIndex links events) ref else none

/-- `_topological_sort_events`. -/
def topologicalSort : Except IngestError (List α) :=
  match kahn events.length (parentIndex links events) with
  | some indices => .ok (indices.filterMap (events[·]?))
  | none => .error .circularDependency

end Sorting

/-! ### Validation -/

section Validation

variable (db : Database) (subject : Subject) (index : ℕ)

/-- `get_allowed_workspace_ids`. -/
def AllowedWorkspace (userId workspaceId : Uuid) : Prop :=
  (∃ w ∈ db.workspaces.rows, w.id = workspaceId) ∧ db.MemberOf userId workspaceId

instance (userId workspaceId : Uuid) : Decidable (AllowedWorkspace db userId workspaceId) :=
  inferInstanceAs (Decidable (_ ∧ _))

/-- `_get_workspace_validation_function`. -/
def validateWorkspaceId (workspaceId : Option Uuid) : Except IngestError Uuid :=
  match subject, workspaceId with
  | .workspace id, none => .ok id
  | .workspace _, some w =>
    .error (invalid "workspace_token"
      "Setting workspace_id is disallowed when using an workspace token." index "workspace_id"
      (.uuid w))
  | .user _, none =>
    .error (invalid "missing" "workspace_id is required." index "workspace_id" .absent)
  | .user id, some w =>
    if AllowedWorkspace db id w then .ok w
    else .error (invalid "workspace_id" "Workspace not found." index "workspace_id" (.uuid w))

/-- The subject may name the customers of a workspace. -/
def Reads (workspaceId : Uuid) : Prop :=
  match subject with
  | .user id => db.MemberOf id workspaceId
  | .workspace id => workspaceId = id

instance (workspaceId : Uuid) : Decidable (Reads db subject workspaceId) :=
  match subject with
  | .user id => inferInstanceAs (Decidable (db.MemberOf id workspaceId))
  | .workspace id => inferInstanceAs (Decidable (workspaceId = id))

/-- `get_allowed_customer_ids`. -/
def AllowedCustomer (customerId : Uuid) : Prop :=
  ∃ c ∈ db.customers.rows, c.id = customerId ∧ c.deletedAt = none ∧ Reads db subject c.workspaceId

instance (customerId : Uuid) : Decidable (AllowedCustomer db subject customerId) :=
  inferInstanceAs (Decidable (∃ c ∈ db.customers.rows, _))

/-- `get_existing_ids`. -/
def ExistingMember (memberId : Uuid) : Prop :=
  ∃ m ∈ db.members.rows, m.id = memberId ∧ m.deletedAt = none

instance (memberId : Uuid) : Decidable (ExistingMember db memberId) :=
  inferInstanceAs (Decidable (∃ m ∈ db.members.rows, _))

/-- `_get_member_validation_function`. -/
def validateMemberId (memberId : Uuid) : Except IngestError Unit :=
  if ExistingMember db memberId then .ok ()
  else .error (invalid "member_id" "Member not found." index "member_id" (.uuid memberId))

/-- `_get_customer_validation_function`, and the check of the member. -/
def validateCustomer : CustomerReference → Except IngestError Unit
  | .external _ _ => .ok ()
  | .internal customerId memberId =>
    if AllowedCustomer db subject customerId then
      match memberId with
      | none => .ok ()
      | some id => validateMemberId db index id
    else
      .error (invalid "customer_id" "Customer not found." index "customer_id" (.uuid customerId))

end Validation

/-! ### Parents and event types -/

/-- What `_resolve_parent` returns. -/
inductive Parent where
  | stored (event : Event)
  | inBatch (id : Uuid)
deriving DecidableEq

def Parent.id : Parent → Uuid
  | .stored event => event.id
  | .inBatch id => id

section Lookup

variable (parseUuid : String → Option Uuid) (db : Database)

/-- The event is named by the text: by its id or by its external id. -/
def Named (text : String) (e : Event) : Prop :=
  parseUuid text = some e.id ∨ e.externalId = some text

instance (text : String) (e : Event) : Decidable (Named parseUuid text e) :=
  inferInstanceAs (Decidable (_ ∨ _))

/-- `find_parent_event`. -/
def findParentEvent (text : String) (workspaceId : Uuid) :
    Except MultipleResultsFound (Option Event) :=
  oneOrNone (db.events.select fun e => e.workspaceId = workspaceId ∧ Named parseUuid text e)

/-- `_resolve_parent`; `ids` is the `batch_external_id_map`. -/
def resolveParent (index : ℕ) (parentId : String) (workspaceId : Uuid)
    (ids : List (String × Uuid)) : Except IngestError Parent :=
  match find ids parentId with
  | some id => .ok (.inBatch id)
  | none =>
    match findParentEvent parseUuid db parentId workspaceId with
    | .ok (some event) => .ok (.stored event)
    | .ok none =>
      .error (invalid "parent_id" "Parent event not found." index "parent_id" (.text parentId))
    | .error _ => .error .multipleResultsFound

/-- `_NAME_MAX_LEN`, of the names of events and of event types. -/
def nameMaxLen : ℕ := 128

/-- `get_by_name_and_workspace`. -/
def getByNameAndWorkspace (name : String) (workspaceId : Uuid) : Option EventType :=
  db.eventTypes.rows.find? fun t =>
    t.name = name ∧ t.workspaceId = workspaceId ∧ t.deletedAt = none

/-- `get_or_create`: after an `IntegrityError` the event type is looked up a second time, and not
found either. -/
def getOrCreate (name : String) (workspaceId id : Uuid) :
    Except IngestError (Database × EventType) :=
  match getByNameAndWorkspace db name workspaceId with
  | some existing => .ok (db, existing)
  | none =>
    let eventType : EventType := { id, name, label := name, workspaceId }
    if nameMaxLen < name.length then .error .dataError
    else if hname : name ∈ db.eventTypes.rows.map EventType.name then .error .uniqueViolation
    else if hid : id ∈ db.eventTypes.rows.map EventType.id then .error .uniqueViolation
    else
      .ok ({ db with
        eventTypes := db.eventTypes.add eventType hid
        eventTypes_name := List.nodup_cons.mpr ⟨hname, db.eventTypes_name⟩ }, eventType)

end Lookup

/-! ### From a batch to dicts -/

/-- `batch_external_id_map`: the last event with an external id provides its id. -/
def batchExternalIdMap (draws : Draw → Uuid) (batch : List EventCreate) : List (String × Uuid) :=
  ofEntries (batch.zipIdx.filterMap fun e =>
    e.1.externalId.map fun x => (x, draws (.externalId e.2)))

/-- The entry of an event in `event_metadata`; an empty external id gets no `id`. -/
def metadataLinks (ids : List (String × Uuid)) (e : EventCreate × ℕ) : Links where
  id := e.1.externalId.bind fun x => if x ≠ "" then find ids x else none
  externalId := e.1.externalId
  parentId := e.1.parentId.map Ref.text

/-- The variables of the loop over the sorted events. -/
structure Progress where
  db : Database
  eventTypesCache : List ((String × Uuid) × Uuid) := []
  events : List EventDict := []
  errors : List ValidationError := []
  processedEvents : List (Uuid × EventDict) := []

section Process

variable (parseUuid : String → Option Uuid) (draws : Draw → Uuid) (subject : Subject)
  (ids : List (String × Uuid))

/-- The `root_id` of the dict; without a parent it is left to `insert_batch`. -/
def rootOfParent (processedEvents : List (Uuid × EventDict)) : Option Parent → Option Uuid
  | none => none
  | some (.stored event) => some (event.rootId.getD event.id)
  | some (.inBatch id) => (find processedEvents id).map fun parent => parent.rootId.getD id

/-- The dict of an event that has passed its checks. -/
def eventDict (processedEvents : List (Uuid × EventDict)) (e : EventCreate) (workspaceId : Uuid)
    (eventTypeId : Uuid) (parent : Option Parent) : EventDict where
  timestamp := e.timestamp
  name := e.name
  source := .user
  externalId := e.externalId
  customer := e.customer
  userMetadata := e.metadata
  workspaceId := workspaceId
  eventTypeId := some eventTypeId
  id := e.externalId.bind (find ids)
  parentId := parent.map Parent.id
  rootId := rootOfParent processedEvents parent

/-- The checks of the loop's body: the workspace, and the parent. -/
def checkEvent (db : Database) (e : EventCreate) (index : ℕ) :
    Except IngestError (Uuid × Option Parent) := do
  let workspaceId ← validateWorkspaceId db subject index e.workspaceId
  validateCustomer db subject index e.customer
  match e.parentId with
  | none => return (workspaceId, none)
  | some parentId =>
    let parent ← resolveParent parseUuid db index parentId workspaceId ids
    return (workspaceId, some parent)

/-- The event type of an event, out of `event_types_cache` if it is there. -/
def eventTypeOf (progress : Progress) (name : String) (workspaceId id : Uuid) :
    Except IngestError (Progress × Uuid) :=
  match find progress.eventTypesCache (name, workspaceId) with
  | some eventTypeId => .ok (progress, eventTypeId)
  | none => do
    let (db, eventType) ← getOrCreate progress.db name workspaceId id
    return ({ progress with
      db
      eventTypesCache := put progress.eventTypesCache (name, workspaceId) eventType.id },
      eventType.id)

/-- The loop's body, for an event and its index. -/
def processEvent (progress : Progress) (e : EventCreate × ℕ) : Except IngestError Progress :=
  match checkEvent parseUuid subject ids progress.db e.1 e.2 with
  | .error (.validation errors) => .ok { progress with errors := progress.errors ++ errors }
  | .error error => .error error
  | .ok (workspaceId, parent) => do
    let (progress, eventTypeId) ← eventTypeOf progress e.1.name workspaceId
      (draws (.eventType e.2))
    let dict := eventDict ids progress.processedEvents e.1 workspaceId eventTypeId parent
    return { progress with
      events := progress.events ++ [dict]
      processedEvents := match dict.id with
        | some id => put progress.processedEvents id dict
        | none => progress.processedEvents }

/-- `ingest` up to the insertion. -/
def prepare (db : Database) (batch : List EventCreate) : Except IngestError Progress := do
  let ids := batchExternalIdMap draws batch
  let sorted ← topologicalSort (metadataLinks ids) batch.zipIdx
  let progress ← sorted.foldlM (processEvent parseUuid draws subject ids) { db }
  if progress.errors ≠ [] then .error (.validation progress.errors) else .ok progress

end Process

/-! ### Insertion -/

/-- A row has the external id of the row that is being inserted. -/
def EventRows.Conflicts (t : EventRows) (r : Event) : Prop :=
  ∃ x ∈ r.externalId, x ∈ t.table.rows.filterMap fun e => e.externalId

instance (t : EventRows) (r : Event) : Decidable (t.Conflicts r) :=
  inferInstanceAs (Decidable (∃ x ∈ r.externalId, _))

/-- A row under a new id and a new external id. -/
def EventRows.add (t : EventRows) (r : Event) (hid : r.id ∉ t.table.rows.map Event.id)
    (hx : ¬t.Conflicts r) : EventRows where
  table := t.table.add r hid
  externalId_unique := by
    rw [Table.UniqueNullable, Table.add, List.filterMap_cons]
    split
    next => exact t.externalId_unique
    next x hsome => exact List.nodup_cons.mpr ⟨fun hmem => hx ⟨x, hsome, hmem⟩, t.externalId_unique⟩

/-- The rows of one statement, `on_conflict_do_nothing(index_elements=["external_id"])`, and
which of them are inserted. -/
def insertRows : EventRows → List Event → Except IngestError (EventRows × List Event)
  | t, [] => .ok (t, [])
  | t, r :: rest =>
    if hx : t.Conflicts r then insertRows t rest
    else if hid : r.id ∈ t.table.rows.map Event.id then .error .uniqueViolation
    else do
      let (t, inserted) ← insertRows (t.add r hid hx) rest
      return (t, r :: inserted)

/-- The foreign keys of the events to one another. -/
def EventRows.References (t : EventRows) : Prop :=
  t.table.ReferencesNullable Event.parentId t.table ∧
    t.table.ReferencesNullable Event.rootId t.table

instance (t : EventRows) : Decidable t.References := inferInstanceAs (Decidable (_ ∧ _))

def Database.withEvents (db : Database) (t : EventRows) (h : t.References) : Database :=
  { db with
    events := t.table
    events_externalId := t.externalId_unique
    events_parent := h.1
    events_root := h.2 }

/-- One statement. At its end the foreign keys are checked; those of the rows that were there
before hold. -/
def insertStatement (db : Database) (rows : List Event) :
    Except IngestError (Database × List Event) := do
  let (t, inserted) ← insertRows ⟨db.events, db.events_externalId⟩ rows
  if h : t.References then .ok (db.withEvents t h, inserted) else .error .foreignKeyViolation

def insertStatements : Database → List (List Event) → Except IngestError (Database × List Event)
  | db, [] => .ok (db, [])
  | db, rows :: rest => do
    let (db, inserted) ← insertStatement db rows
    let (db, more) ← insertStatements db rest
    return (db, inserted ++ more)

/-- The rows are divided into consecutive statements. -/
structure Batching where
  split : List Event → List (List Event)
  flatten_split : ∀ rows, (split rows).flatten = rows

/-- The root of a row whose dict has none: its own id; or that of its parent, which is looked up
in the table. -/
def resolveRoot (db : Database) (id : Uuid) : Option Uuid → Uuid
  | none => id
  | some parentId =>
    match db.events.get parentId with
    | some parent => parent.rootId.getD parentId
    | none => parentId

/-- The row of a dict; `id` is the id it gets if it has none. -/
def EventDict.toRow (db : Database) (id : Uuid) (dict : EventDict) : Event where
  toEventColumns := dict.toEventColumns
  id := dict.id.getD id
  parentId := dict.parentId
  rootId := some (dict.rootId.getD (resolveRoot db (dict.id.getD id) dict.parentId))

/-- The rows that `insert_batch` inserts. -/
def rowsOf (draws : Draw → Uuid) (db : Database) (events : List EventDict) : List Event :=
  events.mapIdx fun position dict => dict.toRow db (draws (.row position))

/-- What a call of `ingest` has done: the rows inserted, whose ids are enqueued, and how many
were duplicates. -/
structure Ingested where
  inserted : List Event
  duplicates : ℕ
deriving DecidableEq

/-- `insert_batch`. -/
def insertBatch (draws : Draw → Uuid) (batching : Batching) (db : Database)
    (events : List EventDict) : Except IngestError (Database × Ingested) := do
  let (db, inserted) ← insertStatements db (batching.split (rowsOf draws db events))
  return (db, { inserted, duplicates := events.length - inserted.length })

/-- `ingest`. -/
def ingest (parseUuid : String → Option Uuid) (draws : Draw → Uuid) (batching : Batching)
    (db : Database) (subject : Subject) (batch : List EventCreate) :
    Except IngestError (Database × Ingested) := do
  let progress ← prepare parseUuid draws subject db batch
  insertBatch draws batching progress.db progress.events

end Rapidly.Analytics.Ingestion
