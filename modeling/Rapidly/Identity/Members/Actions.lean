import Rapidly.Identity.Schema

/-!
# Members of a customer

The operations of `identity/member/actions.py`, with the queries of
`MemberRepository` they make, over the tables they read and write. Every operation is one
transaction: it answers with the new state, or with an error that leaves the state as it was.

The creations have two stages. An *entry* is what an operation has found before it writes: a
member that is there already and is returned as it is, or a row to insert. The guards of
`create` belong to the first stage; the unique constraints act in the second. No creation looks
at the owners of the customer.

`update` and `delete` are given the member that `api.py` has loaded for them, which is not
deleted and which the subject of the request may read. `transfer_ownership` is given any two
members.
-/

namespace Rapidly.Identity.Members

open Relational

/-- `MemberRole`. -/
inductive MemberRole where
  | owner
  | billingManager
  | member
deriving DecidableEq

/-- `CustomerType`. -/
inductive CustomerType where
  | individual
  | team
deriving DecidableEq

structure Workspace extends Identity.Workspace where
  /-- `feature_settings.get("member_model_enabled", False)`. -/
  memberModelEnabled : Bool := false
deriving DecidableEq

structure Customer extends Identity.Customer where
  type : Option CustomerType := none
  email : String
  name : Option String := none
deriving DecidableEq

structure Member extends Identity.Member where
  email : String
  name : Option String := none
  externalId : Option String := none
  role : MemberRole := .member
deriving DecidableEq

/-- The tables the operations read and write. Both unique constraints hold of deleted members
too, and null external ids are distinct. -/
structure State where
  workspaces : Table (fun w : Workspace => w.id) := Table.empty
  memberships : Table WorkspaceMembership.key := Table.empty
  customers : Table (fun c : Customer => c.id) := Table.empty
  members : Table (fun m : Member => m.id) := Table.empty
  members_email : (members.UniqueOn fun m => (m.customerId, m.email)) := by decide
  members_externalId :
    (members.UniqueNullable fun m => m.externalId.map (Prod.mk m.customerId)) := by decide

/-- The subject of an `AuthPrincipal[User | Workspace]`. -/
inductive Subject where
  | user (id : Uuid)
  | workspace (id : Uuid)
deriving DecidableEq

inductive MemberError where
  | notPermitted (message : String)
  | resourceNotFound (message : String)
  /-- A `RequestValidationError` with one error: where it is, its message and the input. -/
  | validation (loc : List String) (msg : String) (input : Option MemberRole)
  | multipleResultsFound
  | integrityError
deriving DecidableEq

/-- `a or b` on texts: the empty text is falsy. -/
def orElse (a : Option String) (b : String) : String :=
  match a with
  | some s => if s = "" then b else s
  | none => b

/-! ### Queries -/

namespace State

variable (db : State)

/-- The rows of a workspace are readable for the subject. -/
def Reads (subject : Subject) (workspaceId : Uuid) : Prop :=
  match subject with
  | .user id => ∃ m ∈ db.memberships.rows,
      m.userId = id ∧ m.workspaceId = workspaceId ∧ m.deletedAt = none
  | .workspace id => workspaceId = id

instance (subject : Subject) (workspaceId : Uuid) : Decidable (db.Reads subject workspaceId) :=
  match subject with
  | .user _ => inferInstanceAs (Decidable (∃ m ∈ db.memberships.rows, _))
  | .workspace id => inferInstanceAs (Decidable (workspaceId = id))

/-- `list_by_customer`. -/
def listByCustomer (customerId : Uuid) : List Member :=
  db.members.select fun m => m.customerId = customerId ∧ m.deletedAt = none

/-- `get_by_customer_and_email`, for an email that is not empty, and
`get_by_customer_id_and_email`. -/
def getByCustomerIdAndEmail (customerId : Uuid) (email : String) :
    Except MemberError (Option Member) :=
  (oneOrNone (db.members.select fun m =>
    m.customerId = customerId ∧ m.email = email ∧ m.deletedAt = none)).mapError
    fun _ => .multipleResultsFound

/-- `get_by_customer_and_email`. -/
def getByCustomerAndEmail (customer : Customer) (email : String) :
    Except MemberError (Option Member) :=
  db.getByCustomerIdAndEmail customer.id (orElse (some email) customer.email)

/-- `get` of the actions. -/
def get (subject : Subject) (id : Uuid) : Option Member :=
  (db.members.get id).filter fun m => m.deletedAt = none ∧ db.Reads subject m.workspaceId

/-! ### Writes -/

/-- The constraints let a row in. -/
structure Accepts (m : Member) : Prop where
  id : m.id ∉ db.members.rows.map fun m => m.id
  email : (m.customerId, m.email) ∉ db.members.rows.map fun m => (m.customerId, m.email)
  externalId : ∀ v ∈ m.externalId.map (Prod.mk m.customerId),
    v ∉ db.members.rows.filterMap fun m => m.externalId.map (Prod.mk m.customerId)

instance (m : Member) : Decidable (db.Accepts m) :=
  decidable_of_iff
    (m.id ∉ (db.members.rows.map fun m => m.id) ∧
      (m.customerId, m.email) ∉ (db.members.rows.map fun m => (m.customerId, m.email)) ∧
      ∀ v ∈ m.externalId.map (Prod.mk m.customerId),
        v ∉ db.members.rows.filterMap fun m => m.externalId.map (Prod.mk m.customerId))
    ⟨fun h => ⟨h.1, h.2.1, h.2.2⟩, fun h => ⟨h.id, h.email, h.externalId⟩⟩

/-- `create(member, flush=True)` of the repository. -/
def insert (m : Member) : Except MemberError State :=
  if h : db.Accepts m then
    .ok
      { db with
        members := db.members.add m h.id
        members_email := db.members_email.add h.email
        members_externalId := db.members_externalId.add h.externalId }
  else .error .integrityError

end State

/-- An `update_dict`: the attributes to set. -/
structure Changes where
  name : Option String := none
  role : Option MemberRole := none
  deletedAt : Option Time := none
deriving DecidableEq

def Member.apply (m : Member) (changes : Changes) : Member :=
  { m with
    name := changes.name <|> m.name
    role := changes.role.getD m.role
    deletedAt := changes.deletedAt <|> m.deletedAt }

@[simp] theorem Member.apply_id (m : Member) (changes : Changes) : (m.apply changes).id = m.id :=
  rfl

/-- `update` of the repository, on the row with the given id. -/
def State.update (db : State) (id : Uuid) (changes : Changes) : State :=
  { db with
    members := db.members.modify (fun m => m.id = id) (·.apply changes) fun _ => rfl
    members_email := db.members_email.modify fun _ => rfl
    members_externalId := db.members_externalId.modify fun _ => rfl }

/-! ### Guards -/

/-- `_owner_count`. -/
def ownerCount (members : List Member) : ℕ := members.countP fun m => m.role = .owner

/-- `_guard_role_transition`. -/
def guardRoleTransition (m : Member) (target : MemberRole) (peers : List Member) :
    Except MemberError Unit :=
  if (m.role = .owner ∧ target ≠ .owner) ∧ ownerCount peers ≤ 1 ∨
      (target = .owner ∧ m.role ≠ .owner) ∧ 1 ≤ ownerCount peers then
    .error (.validation ["body", "role"] "Customer must have exactly one owner." (some target))
  else .ok ()

/-- `_guard_feature_enabled`. -/
def guardFeatureEnabled (workspace : Workspace) : Except MemberError Unit :=
  if workspace.memberModelEnabled then .ok ()
  else .error (.notPermitted "Member management is not enabled for this workspace")

/-- `_guard_individual_limit`. -/
def guardIndividualLimit (db : State) (customer : Customer) : Except MemberError Unit :=
  if customer.type.getD .individual = .individual ∧ 1 ≤ (db.listByCustomer customer.id).length then
    .error (.notPermitted
      ("Individual customers can only have one member. " ++
        "Upgrade to a team customer to add more."))
  else .ok ()

/-- `_resolve_customer`: the customer, with its workspace. -/
def resolveCustomer (db : State) (subject : Subject) (customerId : Uuid) :
    Except MemberError (Customer × Workspace) :=
  match (db.customers.get customerId).filter fun c =>
      c.deletedAt = none ∧ db.Reads subject c.workspaceId with
  | none => .error (.resourceNotFound "Customer not found")
  | some customer =>
    match db.workspaces.get customer.workspaceId with
    | none => .error (.resourceNotFound "Customer not found")
    | some workspace => .ok (customer, workspace)

/-! ### Creation -/

/-- What a creation has found before it writes. -/
inductive Entry where
  | existing (m : Member)
  | new (m : Member)
deriving DecidableEq

/-- `create`, up to the insertion. -/
def createEntry (db : State) (subject : Subject) (id customerId : Uuid) (email : String)
    (name externalId : Option String) (role : MemberRole) : Except MemberError Entry := do
  let (customer, workspace) ← resolveCustomer db subject customerId
  guardFeatureEnabled workspace
  guardIndividualLimit db customer
  match ← db.getByCustomerAndEmail customer email with
  | some existing => .ok (.existing existing)
  | none =>
    .ok (.new
      { id, customerId, workspaceId := customer.workspaceId, email, name, externalId, role })

/-- `create_owner_member`, up to the insertion; `none` where the feature is off. -/
def createOwnerMemberEntry (db : State) (id : Uuid) (customer : Customer) (workspace : Workspace)
    (ownerEmail ownerName ownerExternalId : Option String) :
    Except MemberError (Option Entry) :=
  if workspace.memberModelEnabled then do
    let email := orElse ownerEmail customer.email
    match ← db.getByCustomerAndEmail customer email with
    | some existing => .ok (some (.existing existing))
    | none =>
      .ok (some (.new
        { id, customerId := customer.id, workspaceId := workspace.id, email,
          name := (ownerName.filter (· ≠ "")) <|> customer.name,
          externalId := (ownerExternalId.filter (· ≠ "")) <|> customer.externalId,
          role := .owner }))
  else .ok none

/-- `add_to_customer`, up to the insertion. -/
def addToCustomerEntry (db : State) (id : Uuid) (customer : Customer) (email : String)
    (name : Option String) (role : MemberRole) : Except MemberError Entry := do
  match ← db.getByCustomerIdAndEmail customer.id email with
  | some existing => .ok (.existing existing)
  | none =>
    .ok (.new
      { id, customerId := customer.id, workspaceId := customer.workspaceId, email, name, role })

/-- `_create_with_conflict_guard`: where a constraint is violated, the member with the email is
looked up once more. -/
def createWithConflictGuard (db : State) (m : Member) (customer : Customer) (email : String) :
    Except MemberError (State × Member) :=
  match db.insert m with
  | .ok db' => .ok (db', m)
  | .error e => do
    match ← db.getByCustomerAndEmail customer email with
    | some existing => .ok (db, existing)
    | none => .error e

/-! ### Operations on a member -/

/-- `delete`. -/
def delete (db : State) (now : Time) (m : Member) : Except MemberError (State × Member) :=
  if m.role = .owner ∧ ownerCount (db.listByCustomer m.customerId) ≤ 1 then
    .error (.validation ["body"] "Cannot remove the only owner — transfer ownership first." none)
  else
    let changes : Changes := { deletedAt := some now }
    .ok (db.update m.id changes, m.apply changes)

/-- `update`. -/
def update (db : State) (m : Member) (name : Option String) (role : Option MemberRole) :
    Except MemberError (State × Member) := do
  match role with
  | some target =>
    if m.role ≠ target then guardRoleTransition m target (db.listByCustomer m.customerId)
  | none => pure ()
  let changes : Changes := { name, role }
  .ok (db.update m.id changes, m.apply changes)

/-- `transfer_ownership`: the new owner is promoted before the current owner is demoted. Where
both are one row, it is one object. -/
def transferOwnership (db : State) (currentOwner newOwner : Member) : State × Member :=
  let promoted := db.update newOwner.id { role := some .owner }
  let demoted := promoted.update currentOwner.id { role := some .billingManager }
  (demoted,
    if newOwner.id = currentOwner.id then newOwner.apply { role := some .billingManager }
    else newOwner.apply { role := some .owner })

/-! ### Requests -/

/-- An operation, with the ids of the rows it is about, or a change of the tables that are only
read here. -/
inductive Operation where
  | create (subject : Subject) (id customerId : Uuid) (email : String)
      (name externalId : Option String) (role : MemberRole)
  | createOwnerMember (id customerId : Uuid) (ownerEmail ownerName ownerExternalId : Option String)
  | addToCustomer (id customerId : Uuid) (email : String) (name : Option String)
      (role : MemberRole)
  | update (subject : Subject) (memberId : Uuid) (name : Option String)
      (role : Option MemberRole)
  | delete (subject : Subject) (memberId : Uuid) (now : Time)
  | transferOwnership (currentOwner newOwner : Uuid)
  | directory (workspaces : Table fun w : Workspace => w.id)
      (memberships : Table WorkspaceMembership.key) (customers : Table fun c : Customer => c.id)

variable (db : State)

/-- What a creation has found before it writes; `none` for the other operations, and where the
rows it is about do not exist. -/
def entry : Operation → Except MemberError (Option Entry)
  | .create subject id customerId email name externalId role =>
    some <$> createEntry db subject id customerId email name externalId role
  | .createOwnerMember id customerId ownerEmail ownerName ownerExternalId =>
    match db.customers.get customerId with
    | none => .ok none
    | some customer =>
      match db.workspaces.get customer.workspaceId with
      | none => .ok none
      | some workspace =>
        createOwnerMemberEntry db id customer workspace ownerEmail ownerName ownerExternalId
  | .addToCustomer id customerId email name role =>
    match db.customers.get customerId with
    | none => .ok none
    | some customer => some <$> addToCustomerEntry db id customer email name role
  | _ => .ok none

/-- The second stage of a creation. -/
def complete (op : Operation) (m : Member) : Except MemberError (State × Member) :=
  match op with
  | .addToCustomer .. => (fun db' => (db', m)) <$> db.insert m
  | _ =>
    match db.customers.get m.customerId with
    | none => .error .integrityError
    | some customer => createWithConflictGuard db m customer m.email

/-- Both stages of a creation. -/
def performCreation (op : Operation) : Except MemberError (State × Option Member) := do
  match ← entry db op with
  | none => .ok (db, none)
  | some (.existing m) => .ok (db, some m)
  | some (.new m) => (Prod.map id some) <$> complete db op m

/-- Perform an operation; the member it answers with, if any. -/
def perform (op : Operation) : Except MemberError (State × Option Member) :=
  match op with
  | .update subject memberId name role =>
    match db.get subject memberId with
    | none => .error (.resourceNotFound "Member not found")
    | some m => (Prod.map id some) <$> update db m name role
  | .delete subject memberId now =>
    match db.get subject memberId with
    | none => .error (.resourceNotFound "Member not found")
    | some m => (Prod.map id some) <$> delete db now m
  | .transferOwnership currentOwner newOwner =>
    match db.members.get currentOwner, db.members.get newOwner with
    | some currentOwner, some newOwner =>
      .ok (Prod.map id some (transferOwnership db currentOwner newOwner))
    | _, _ => .error (.resourceNotFound "Member not found")
  | .directory workspaces memberships customers =>
    .ok ({ db with workspaces, memberships, customers }, none)
  | op => performCreation db op

end Rapidly.Identity.Members
