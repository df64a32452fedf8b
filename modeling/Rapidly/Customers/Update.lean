import Rapidly.Identity.Schema

/-!
# Updating a customer

`update` of `customers/customer/actions.py`, on a session as SQLAlchemy keeps it: the object of the
customer can be ahead of its row, and a query first sends what is pending to the database
(`Session.flush`). The database refuses a row that breaks one of its unique indexes.

The email is assigned to the object before the other rules are looked at. When one of them is
broken the object keeps the email, and the lookup of the external id sends it to the database even
if another customer has it.

* `updates_iff`: the update keeps its promises exactly if no rule is broken, or the email does not
  change and the rule that is broken is one that the function looks at.
-/

namespace Rapidly.Customers.Update

open Identity (Uuid Time)
open Relational Relational.Table

/-! ### Rows -/

/-- `CustomerType` -/
inductive CustomerType where
  | individual
  | team
deriving DecidableEq

/-- The columns that an update reads or writes. JSON columns stand as their text. -/
structure Customer where
  id : Uuid
  workspaceId : Uuid
  type : Option CustomerType := some .individual
  externalId : Option String := none
  email : String
  emailVerified : Bool := false
  name : Option String := none
  billingAddress : Option String := none
  userMetadata : String := "{}"
  deletedAt : Option Time := none
deriving DecidableEq

/-- The partial unique index over `workspace_id, lower(email)`. -/
def Customer.emailIndex (dbLower : String → String) (c : Customer) : Option (Uuid × String) :=
  if c.deletedAt = none then some (c.workspaceId, dbLower c.email) else none

/-- `UniqueConstraint("workspace_id", "external_id")`, which deleted rows are part of. -/
def Customer.externalIdIndex (c : Customer) : Option (Uuid × String) :=
  c.externalId.map fun externalId => (c.workspaceId, externalId)

/-- The table with its constraints; `dbLower` is the `lower` of the database. -/
structure Database (dbLower : String → String) where
  customers : Table Customer.id
  emails : customers.UniqueNullable (Customer.emailIndex dbLower)
  externalIds : customers.UniqueNullable Customer.externalIdIndex

variable {dbLower : String → String}

/-- The `UPDATE` of a row; `none` is the `IntegrityError`. -/
def Database.write (db : Database dbLower) (c : Customer) : Option (Database dbLower) :=
  let customers := db.customers.modify (fun r => r.id = c.id) (fun r => { c with id := r.id })
    fun _ => rfl
  if h : customers.UniqueNullable (Customer.emailIndex dbLower) ∧
      customers.UniqueNullable Customer.externalIdIndex then
    some ⟨customers, h.1, h.2⟩
  else none

/-! ### The session -/

/-- What the transaction sees, the object of the customer, and how often it was sent. -/
structure Session (dbLower : String → String) where
  db : Database dbLower
  customer : Customer
  sent : ℕ

inductive Failure where
  | integrityError
  | multipleResultsFound
deriving DecidableEq

namespace Session

variable (s : Session dbLower)

/-- The changes of the object are sent. -/
def flush : Option (Session dbLower) :=
  if s.customer ∈ s.db.customers then some s
  else (s.db.write s.customer).map fun db => { s with db, sent := s.sent + 1 }

/-- `Repository.get_one_or_none` -/
def getOneOrNone (p : Customer → Prop) [DecidablePred p] :
    Except Failure (Session dbLower × Option Customer) :=
  match s.flush with
  | none => .error .integrityError
  | some s =>
    match oneOrNone (s.db.customers.select p) with
    | .ok found => .ok (s, found)
    | .error _ => .error .multipleResultsFound

/-- `get_by_email_and_workspace`; `lower` is the method of Python's strings. -/
def getByEmailAndWorkspace (lower : String → String) (email : String) (workspaceId : Uuid) :
    Except Failure (Session dbLower × Option Customer) :=
  s.getOneOrNone fun c =>
    c.deletedAt = none ∧ dbLower c.email = lower email ∧ c.workspaceId = workspaceId

/-- `get_by_external_id_and_workspace` -/
def getByExternalIdAndWorkspace (externalId : String) (workspaceId : Uuid) :
    Except Failure (Session dbLower × Option Customer) :=
  s.getOneOrNone fun c =>
    c.deletedAt = none ∧ c.externalId = some externalId ∧ c.workspaceId = workspaceId

end Session

/-! ### Requests -/

/-- `CustomerUpdateBase`. A field that may be left out or be null has two `Option`s; of `email`
both mean the same. -/
structure CustomerUpdateBase where
  email : Option String := none
  name : Option (Option String) := none
  billingAddress : Option (Option String) := none
  metadata : Option String := none
deriving DecidableEq

/-- `CustomerUpdate` -/
structure CustomerUpdate extends CustomerUpdateBase where
  externalId : Option (Option String) := none
  type : Option (Option CustomerType) := none
deriving DecidableEq

/-- `CustomerUpdate | CustomerUpdateExternalID` -/
inductive Payload where
  | update (data : CustomerUpdate)
  | updateExternalId (data : CustomerUpdateBase)
deriving DecidableEq

namespace Payload

def base : Payload → CustomerUpdateBase
  | .update data => data.toCustomerUpdateBase
  | .updateExternalId data => data

def email (u : Payload) : Option String := u.base.email

/-- The external id of a `CustomerUpdate`, if it was sent. -/
def externalId : Payload → Option (Option String)
  | .update data => data.externalId
  | .updateExternalId _ => none

/-- The type of a `CustomerUpdate`, if it was sent. -/
def type : Payload → Option (Option CustomerType)
  | .update data => data.type
  | .updateExternalId _ => none

end Payload

/-- An entry of a `RequestValidationError`. -/
structure ValidationError where
  field : String
  message : String
  input : Option String
deriving DecidableEq

/-! ### `update` -/

/-- The rule about the email, and its assignment. -/
def checkEmail (lower : String → String) (s : Session dbLower) (u : Payload) :
    Except Failure (Session dbLower × List ValidationError) :=
  match u.email with
  | none => .ok (s, [])
  | some email =>
    if lower s.customer.email = lower email then .ok (s, [])
    else do
      let (s, alreadyExists) ← s.getByEmailAndWorkspace lower email s.customer.workspaceId
      let errors : List ValidationError :=
        if alreadyExists.isSome then
          [⟨"email", "A customer with this email address already exists.", some email⟩]
        else []
      return ({ s with customer := { s.customer with email, emailVerified := false } }, errors)

/-- The rules about the external id. -/
def checkExternalId (s : Session dbLower) (u : Payload) :
    Except Failure (Session dbLower × List ValidationError) :=
  match u.externalId with
  | none => .ok (s, [])
  | some externalId =>
    if s.customer.externalId = externalId then .ok (s, [])
    else if s.customer.externalId ≠ none then
      .ok (s, [⟨"external_id", "Customer external ID cannot be updated.", externalId⟩])
    else
      match externalId with
      | none => .ok (s, [])
      | some taken => do
        let (s, found) ← s.getByExternalIdAndWorkspace taken s.customer.workspaceId
        let errors : List ValidationError :=
          if found.isSome then
            [⟨"external_id", "A customer with this external ID already exists.", some taken⟩]
          else []
        return (s, errors)

/-- The rule about the type. -/
def checkType (c : Customer) (u : Payload) : List ValidationError :=
  if c.type.getD .individual = .team ∧ u.type = some (some .individual) then
    [⟨"type", "Customer type cannot be downgraded from 'team' to 'individual'.", some "individual"⟩]
  else []

/-- `repository.update`: the fields that were sent are set. -/
def assign (c : Customer) (u : Payload) : Customer :=
  { c with
    name := u.base.name.getD c.name
    billingAddress := u.base.billingAddress.getD c.billingAddress
    userMetadata := u.base.metadata.getD c.userMetadata
    externalId := u.externalId.getD c.externalId
    type := u.type.getD c.type }

inductive Outcome (dbLower : String → String) where
  | returned (s : Session dbLower)
  | requestValidationError (errors : List ValidationError) (s : Session dbLower)
  | failed (failure : Failure)

/-- `update` -/
def update (lower : String → String) (s : Session dbLower) (u : Payload) : Outcome dbLower :=
  let checked : Except Failure (Session dbLower × List ValidationError) := do
    let (s, emailErrors) ← checkEmail lower s u
    let (s, externalIdErrors) ← checkExternalId s u
    return (s, emailErrors ++ externalIdErrors ++ checkType s.customer u)
  match checked with
  | .error failure => .failed failure
  | .ok (s, errors) =>
    if errors ≠ [] then .requestValidationError errors s
    else .returned { s with customer := assign s.customer u }

/-! ### Writing a row -/

section Writing

variable {db db' : Database dbLower} {c r : Customer} {s s' : Session dbLower}

/-- No other row has an entry of the customer in an index. -/
structure Database.Free (db : Database dbLower) (c : Customer) : Prop where
  email : ∀ r ∈ db.customers, r.id ≠ c.id → ∀ v, c.emailIndex dbLower = some v →
    r.emailIndex dbLower ≠ some v
  externalId : ∀ r ∈ db.customers, r.id ≠ c.id → ∀ v, c.externalIdIndex = some v →
    r.externalIdIndex ≠ some v

/-- Every other row is as it was. -/
def OthersSame (db db' : Database dbLower) (c : Customer) : Prop :=
  ∀ r, r.id ≠ c.id → (r ∈ db'.customers ↔ r ∈ db.customers)

theorem mem_modify_customers (hid : ∃ r ∈ db.customers, r.id = c.id) :
    r ∈ db.customers.modify (fun r => r.id = c.id) (fun r => { c with id := r.id }) (fun _ => rfl) ↔
      r ∈ db.customers ∧ r.id ≠ c.id ∨ r = c := by
  rw [mem_modify_key]
  refine or_congr_right ⟨?_, ?_⟩
  · rintro ⟨r', -, hid', rfl⟩
    rw [hid']
  · rintro rfl
    obtain ⟨r', hr', hid'⟩ := hid
    exact ⟨r', hr', hid', by rw [hid']⟩

theorem Database.Free.exists_write (h : db.Free c) (hid : ∃ r ∈ db.customers, r.id = c.id) :
    ∃ db', db.write c = some db' ∧ c ∈ db'.customers ∧ OthersSame db db' c := by
  have hindices : (db.customers.modify (fun r => r.id = c.id) (fun r => { c with id := r.id })
        fun _ => rfl).UniqueNullable (Customer.emailIndex dbLower) ∧
      (db.customers.modify (fun r => r.id = c.id) (fun r => { c with id := r.id })
        fun _ => rfl).UniqueNullable Customer.externalIdIndex :=
    ⟨db.emails.modify_key fun r hr hne _ _ _ v hv => h.email r hr hne v hv,
      db.externalIds.modify_key fun r hr hne _ _ _ v hv => h.externalId r hr hne v hv⟩
  refine ⟨_, dif_pos hindices, (mem_modify_customers hid).mpr (.inr rfl), fun r hne => ?_⟩
  refine (mem_modify_customers hid).trans ⟨fun hr => ?_, fun hr => .inl ⟨hr, hne⟩⟩
  exact (hr.resolve_right fun heq => hne (heq ▸ rfl)).1

theorem Database.Free.exists_flush (h : s.db.Free s.customer)
    (hid : ∃ r ∈ s.db.customers, r.id = s.customer.id) :
    ∃ s', s.flush = some s' ∧ s'.customer = s.customer ∧ s.customer ∈ s'.db.customers ∧
      OthersSame s.db s'.db s.customer := by
  rw [Session.flush]
  split
  next hmem => exact ⟨s, rfl, rfl, hmem, fun _ _ => Iff.rfl⟩
  next =>
    obtain ⟨db', hwrite, hmem, hothers⟩ := h.exists_write hid
    rw [hwrite]
    exact ⟨_, rfl, rfl, hmem, hothers⟩

theorem customer_of_flush (h : s.flush = some s') : s'.customer = s.customer := by
  rw [Session.flush] at h
  split at h
  · rw [Option.some.inj h]
  · obtain ⟨db, -, rfl⟩ := Option.map_eq_some_iff.mp h
    rfl

end Writing

/-! ### Queries -/

section Queries

variable {s s' : Session dbLower} {p : Customer → Prop} [DecidablePred p]

theorem flush_of_getOneOrNone {found : Option Customer}
    (h : s.getOneOrNone p = .ok (s', found)) : s.flush = some s' := by
  rw [Session.getOneOrNone] at h
  split at h
  next => cases h
  next flushed hflush =>
    split at h
    next =>
      obtain ⟨rfl, -⟩ := Prod.mk.inj (Except.ok.inj h)
      exact hflush
    next => cases h

theorem exists_getOneOrNone (hflush : s.flush = some s')
    (hone : ∀ r ∈ s'.db.customers, ∀ r' ∈ s'.db.customers, p r → p r' → r = r') :
    ∃ found, s.getOneOrNone p = .ok (s', found) ∧
      (found.isSome ↔ ∃ r ∈ s'.db.customers, p r) := by
  rw [Session.getOneOrNone, hflush]
  dsimp only
  by_cases hfound : ∃ r ∈ s'.db.customers, p r
  · obtain ⟨r, hr, hpr⟩ := hfound
    have hselect : oneOrNone (s'.db.customers.select p) = .ok (some r) := by
      refine oneOrNone_eq_some_iff.mpr ⟨mem_select.mpr ⟨hr, hpr⟩, fun r' hr' => ?_⟩
      obtain ⟨hmem, hpr'⟩ := mem_select.mp hr'
      exact hone r' hmem r hr hpr' hpr
    rw [hselect]
    exact ⟨some r, rfl, iff_of_true rfl ⟨r, hr, hpr⟩⟩
  · have hselect : oneOrNone (s'.db.customers.select p) = .ok none := by
      rw [oneOrNone_eq_none_iff, List.eq_nil_iff_forall_not_mem]
      intro r hr
      exact hfound ⟨r, mem_select.mp hr⟩
    rw [hselect]
    exact ⟨none, rfl, iff_of_false Bool.false_ne_true hfound⟩

theorem exists_getByEmail (hflush : s.flush = some s') (lower : String → String) (email : String)
    (workspaceId : Uuid) : ∃ found,
      s.getByEmailAndWorkspace lower email workspaceId = .ok (s', found) ∧
      (found.isSome ↔ ∃ r ∈ s'.db.customers, r.deletedAt = none ∧ dbLower r.email = lower email ∧
        r.workspaceId = workspaceId) := by
  refine exists_getOneOrNone hflush fun r hr r' hr' hp hp' => ?_
  have hindex (r : Customer) (hp : r.deletedAt = none ∧ dbLower r.email = lower email ∧
      r.workspaceId = workspaceId) : r.emailIndex dbLower = some (workspaceId, lower email) := by
    rw [Customer.emailIndex, if_pos hp.1, hp.2.1, hp.2.2]
  exact s'.db.emails.eq hr hr' (hindex r hp) (hindex r' hp')

theorem exists_getByExternalId (hflush : s.flush = some s') (externalId : String)
    (workspaceId : Uuid) : ∃ found,
      s.getByExternalIdAndWorkspace externalId workspaceId = .ok (s', found) ∧
      (found.isSome ↔ ∃ r ∈ s'.db.customers, r.deletedAt = none ∧ r.externalId = some externalId ∧
        r.workspaceId = workspaceId) := by
  refine exists_getOneOrNone hflush fun r hr r' hr' hp hp' => ?_
  have hindex (r : Customer) (hp : r.deletedAt = none ∧ r.externalId = some externalId ∧
      r.workspaceId = workspaceId) : r.externalIdIndex = some (workspaceId, externalId) := by
    rw [Customer.externalIdIndex, hp.2.1, hp.2.2, Option.map_some]
  exact s'.db.externalIds.eq hr hr' (hindex r hp) (hindex r' hp')

end Queries

/-! ### The rules -/

/-- A customer that was loaded, and not changed since. -/
structure Loaded (dbLower : String → String) where
  db : Database dbLower
  customer : Customer
  stored : customer ∈ db.customers

def Loaded.session (l : Loaded dbLower) : Session dbLower := ⟨l.db, l.customer, 0⟩

section Rules

variable (lower : String → String) (l : Loaded dbLower) (u : Payload)

/-- Another customer of the workspace has the email. -/
def EmailTaken : Prop :=
  ∃ email ∈ u.email, ∃ r ∈ l.db.customers, r.id ≠ l.customer.id ∧
    r.workspaceId = l.customer.workspaceId ∧ r.deletedAt = none ∧
    dbLower r.email = dbLower email

/-- Another customer of the workspace has the external id. -/
def ExternalIdTaken : Prop :=
  ∃ externalId, u.externalId = some (some externalId) ∧ ∃ r ∈ l.db.customers,
    r.id ≠ l.customer.id ∧ r.workspaceId = l.customer.workspaceId ∧ r.externalId = some externalId

/-- The external id changes although there was one. -/
def ExternalIdSet (c : Customer) : Prop :=
  ∃ externalId ∈ u.externalId, c.externalId ≠ none ∧ externalId ≠ c.externalId

/-- A team becomes an individual; no type means the same. -/
def Downgraded : Prop :=
  l.customer.type = some .team ∧ ∃ type ∈ u.type, type.getD .individual = .individual

/-- A rule is broken. -/
def Conflict : Prop :=
  EmailTaken l u ∨ ExternalIdTaken l u ∨ ExternalIdSet u l.customer ∨ Downgraded l u

/-- The email changes, not only in its letter case. -/
def EmailChanges (c : Customer) (email : String) : Prop :=
  u.email = some email ∧ lower c.email ≠ lower email

/-- The lookup finds a customer of the workspace under the email. -/
def EmailFound (email : String) : Prop :=
  ∃ r ∈ l.db.customers, r.deletedAt = none ∧ dbLower r.email = lower email ∧
    r.workspaceId = l.customer.workspaceId

/-- `checkExternalId` rejects the external id: that of a customer that is not deleted, or any if
there was one. -/
def ExternalIdRejected : Prop :=
  ExternalIdSet u l.customer ∨
    ∃ externalId, u.externalId = some (some externalId) ∧ l.customer.externalId = none ∧
      ∃ r ∈ l.db.customers, r.deletedAt = none ∧ r.externalId = some externalId ∧
        r.workspaceId = l.customer.workspaceId

/-- A rule other than that about the email rejects the update; no type is not rejected. -/
def Rejected : Prop :=
  ExternalIdRejected l u ∨ l.customer.type = some .team ∧ u.type = some (some .individual)

/-- The update raises its error exactly if a rule is broken, and then it has changed nothing and
sent nothing; the database refuses neither what is sent on the way nor what is sent in the end. -/
structure Updates : Prop where
  raises : (∃ errors s, update lower l.session u = .requestValidationError errors s) ↔ Conflict l u
  atomic : ∀ errors s, update lower l.session u = .requestValidationError errors s →
    s.customer = l.customer ∧ s.db.customers.rows = l.db.customers.rows ∧ s.sent = 0
  accepted : ∀ failure, update lower l.session u ≠ .failed failure
  committed : ∀ s, update lower l.session u = .returned s → s.flush.isSome

end Rules

section Steps

variable {lower : String → String} {l : Loaded dbLower} {u : Payload} {email : String}
  {s s' : Session dbLower} {errors : List ValidationError}

theorem Rejected.conflict (h : Rejected l u) : Conflict l u := by
  obtain (hset | ⟨externalId, hu, hnone, r, hr, -, hext, hws⟩) | ⟨hteam, hu⟩ := h
  · exact .inr (.inr (.inl hset))
  · refine .inr (.inl ⟨externalId, hu, r, hr, fun hid => ?_, hws, hext⟩)
    have heq := eq_of_key_eq hr l.stored hid
    rw [heq, hnone] at hext
    cases hext
  · exact .inr (.inr (.inr ⟨hteam, _, hu, rfl⟩))

theorem flush_session (l : Loaded dbLower) : l.session.flush = some l.session := if_pos l.stored

theorem checkEmail_of_not_changes (h : ∀ email, ¬EmailChanges lower u s.customer email) :
    checkEmail lower s u = .ok (s, []) := by
  rw [checkEmail]
  split
  next => rfl
  next email hemail => exact if_pos (not_not.mp fun hne => h email ⟨hemail, hne⟩)

/-- The customer with the new email. -/
def withEmail (c : Customer) (email : String) : Customer := { c with email, emailVerified := false }

theorem exists_checkEmail (h : EmailChanges lower u l.customer email) :
    ∃ errors, checkEmail lower l.session u =
        .ok ({ l.session with customer := withEmail l.customer email }, errors) ∧
      (errors = [] ↔ ¬EmailFound lower l email) := by
  obtain ⟨found, hfound, hiff⟩ :=
    exists_getByEmail (flush_session l) lower email l.customer.workspaceId
  have hchanges : ¬lower l.session.customer.email = lower email := h.2
  rw [checkEmail, h.1]
  dsimp only
  rw [if_neg hchanges]
  refine ⟨_, (congrArg (· >>= _) hfound).trans rfl, ?_⟩
  rw [EmailFound, ← show l.session.db = l.db from rfl, ← hiff]
  cases found with
  | none => simp
  | some r => simp

theorem customer_of_checkExternalId (h : checkExternalId s u = .ok (s', errors)) :
    s'.customer = s.customer := by
  rw [checkExternalId] at h
  split at h
  next => rw [(Prod.mk.inj (Except.ok.inj h)).1]
  next externalId _ =>
    split at h
    next => rw [(Prod.mk.inj (Except.ok.inj h)).1]
    next =>
      split at h
      next => rw [(Prod.mk.inj (Except.ok.inj h)).1]
      next =>
        cases externalId with
        | none => rw [(Prod.mk.inj (Except.ok.inj h)).1]
        | some taken =>
          dsimp only at h
          cases hquery : s.getByExternalIdAndWorkspace taken s.customer.workspaceId with
          | error failure =>
            rw [hquery] at h
            cases h
          | ok found =>
            rw [hquery] at h
            rw [← (Prod.mk.inj (Except.ok.inj h)).1]
            exact customer_of_flush (flush_of_getOneOrNone hquery)

/-- The customer in a session, as it was loaded but for the email. -/
structure Edited (l : Loaded dbLower) (c : Customer) : Prop where
  id : c.id = l.customer.id
  workspaceId : c.workspaceId = l.customer.workspaceId
  externalId : c.externalId = l.customer.externalId
  type : c.type = l.customer.type

theorem held_iff {c : Customer} {db : Database dbLower} (hc : Edited l c) (hmem : c ∈ db.customers)
    (hothers : OthersSame l.db db c) (hnone : l.customer.externalId = none) (externalId : String) :
    (∃ r ∈ db.customers, r.deletedAt = none ∧ r.externalId = some externalId ∧
        r.workspaceId = l.customer.workspaceId) ↔
      ∃ r ∈ l.db.customers, r.deletedAt = none ∧ r.externalId = some externalId ∧
        r.workspaceId = l.customer.workspaceId := by
  constructor
  · rintro ⟨r, hr, hlive, hext, hws⟩
    refine ⟨r, (hothers r fun hid => ?_).mp hr, hlive, hext, hws⟩
    rw [eq_of_key_eq hr hmem hid, hc.externalId, hnone] at hext
    cases hext
  · rintro ⟨r, hr, hlive, hext, hws⟩
    refine ⟨r, (hothers r fun hid => ?_).mpr hr, hlive, hext, hws⟩
    rw [eq_of_key_eq hr l.stored (hid.trans hc.id), hnone] at hext
    cases hext

/-- The session with the customer in it, which may have been sent. -/
structure Holds (l : Loaded dbLower) (c : Customer) (s : Session dbLower) : Prop where
  customer : s.customer = c
  others : OthersSame l.db s.db c
  stored : ∃ r ∈ s.db.customers, r.id = c.id
  flushed : s = { l.session with customer := c } ∨
    ({ l.session with customer := c } : Session dbLower).flush = some s

theorem exists_checkExternalId {c : Customer} (hc : Edited l c) (hfree : l.db.Free c) :
    ∃ s' errors, checkExternalId { l.session with customer := c } u = .ok (s', errors) ∧
      Holds l c s' ∧ (errors = [] ↔ ¬ExternalIdRejected l u) := by
  set s : Session dbLower := { l.session with customer := c }
  have hs : Holds l c s := ⟨rfl, fun _ _ => Iff.rfl, ⟨_, l.stored, hc.id.symm⟩, .inl rfl⟩
  rw [checkExternalId]
  cases hu : u.externalId with
  | none =>
    refine ⟨s, [], rfl, hs, iff_of_true rfl ?_⟩
    rintro (⟨externalId, hext, -⟩ | ⟨externalId, hext, -⟩) <;> rw [hu] at hext <;> cases hext
  | some externalId =>
    dsimp only
    have hext : s.customer.externalId = l.customer.externalId := hc.externalId
    have hws : s.customer.workspaceId = l.customer.workspaceId := hc.workspaceId
    rw [hext, hws]
    by_cases hkept : l.customer.externalId = externalId
    · rw [if_pos hkept]
      refine ⟨s, [], rfl, hs, iff_of_true rfl ?_⟩
      rintro (⟨_, hmem, -, hne⟩ | ⟨taken, hmem, hnone, -⟩)
      · obtain rfl := Option.some.inj (hu.symm.trans hmem)
        exact hne hkept.symm
      · rw [← hkept, hnone] at hu
        cases hu.symm.trans hmem
    rw [if_neg hkept]
    by_cases hnone : l.customer.externalId = none
    · rw [if_neg (not_not.mpr hnone)]
      cases externalId with
      | none => exact absurd hnone hkept
      | some taken =>
        obtain ⟨s', hflush, hcustomer, hmem, hothers⟩ := Database.Free.exists_flush (s := s) hfree
          ⟨l.customer, l.stored, hc.id.symm⟩
        obtain ⟨found, hfound, hiff⟩ := exists_getByExternalId hflush taken l.customer.workspaceId
        dsimp only
        rw [hfound]
        refine ⟨s', _, rfl, ⟨hcustomer, hothers, ⟨_, hmem, rfl⟩, .inr hflush⟩, ?_⟩
        rw [held_iff hc hmem hothers hnone] at hiff
        have hrejected : ExternalIdRejected l u ↔ found.isSome := by
          rw [hiff]
          constructor
          · rintro (⟨_, -, hset, -⟩ | ⟨_, hu', -, hheld⟩)
            · exact absurd hnone hset
            · obtain rfl := Option.some.inj (Option.some.inj (hu.symm.trans hu'))
              exact hheld
          · exact fun hheld => .inr ⟨taken, hu, hnone, hheld⟩
        rw [hrejected]
        cases found with
        | none => simp
        | some r => simp
    · rw [if_pos hnone]
      refine ⟨s, _, rfl, hs, iff_of_false (List.cons_ne_nil _ _) ?_⟩
      exact not_not.mpr (.inl ⟨externalId, hu, hnone, Ne.symm hkept⟩)

theorem checkType_eq_nil_iff {c : Customer} (hc : c.type = l.customer.type) :
    checkType c u = [] ↔ ¬(l.customer.type = some .team ∧ u.type = some (some .individual)) := by
  have hteam : c.type.getD .individual = .team ↔ l.customer.type = some .team := by
    rw [hc]
    rcases l.customer.type with _ | ⟨_ | _⟩ <;> simp
  rw [← hteam, checkType]
  split
  next h => exact iff_of_false (List.cons_ne_nil _ _) (not_not.mpr h)
  next h => exact iff_of_true rfl h

/-! ### The whole update -/

/-- The end of the function. -/
def outcome (s : Session dbLower) (u : Payload) (errors : List ValidationError) :
    Outcome dbLower :=
  if errors ≠ [] then .requestValidationError errors s
  else .returned { s with customer := assign s.customer u }

theorem update_eq_outcome {errors' : List ValidationError}
    (hemail : checkEmail lower l.session u = .ok (s, errors))
    (hexternalId : checkExternalId s u = .ok (s', errors')) :
    update lower l.session u = outcome s' u (errors ++ errors' ++ checkType s'.customer u) := by
  rw [update, hemail]
  dsimp only [bind, Except.bind]
  rw [hexternalId]
  rfl

theorem append_eq_nil_iff_not_rejected {errors' errors'' : List ValidationError}
    (h' : errors' = [] ↔ ¬ExternalIdRejected l u)
    (h'' : errors'' = [] ↔ ¬(l.customer.type = some .team ∧ u.type = some (some .individual))) :
    errors ++ errors' ++ errors'' = [] ↔ errors = [] ∧ ¬Rejected l u := by
  rw [List.append_eq_nil_iff, List.append_eq_nil_iff, h', h'', Rejected, not_or, and_assoc]

theorem edited_self (l : Loaded dbLower) : Edited l l.customer := ⟨rfl, rfl, rfl, rfl⟩

theorem edited_withEmail (l : Loaded dbLower) (email : String) :
    Edited l (withEmail l.customer email) := ⟨rfl, rfl, rfl, rfl⟩

theorem free_self (l : Loaded dbLower) : l.db.Free l.customer where
  email _ hr hne _ hv hr' := hne (congrArg Customer.id (l.db.emails.eq hr l.stored hr' hv))
  externalId _ hr hne _ hv hr' :=
    hne (congrArg Customer.id (l.db.externalIds.eq hr l.stored hr' hv))

/-- Without a conflict no index stands against the new email or what is assigned in the end. -/
theorem free_of_not_conflict (h : ¬Conflict l u) {c : Customer} (hc : Edited l c)
    (hlive : c.deletedAt = l.customer.deletedAt)
    (hemail : c.email = l.customer.email ∨ u.email = some c.email) :
    l.db.Free c ∧ l.db.Free (assign c u) := by
  have hindex : ∀ r ∈ l.db.customers, r.id ≠ l.customer.id → ∀ v, c.emailIndex dbLower = some v →
      r.emailIndex dbLower ≠ some v := by
    intro r hr hne v hv hv'
    obtain hsame | hnew := hemail
    · rw [Customer.emailIndex, hlive, hc.workspaceId, hsame] at hv
      exact (free_self l).email r hr hne v hv hv'
    · rw [Customer.emailIndex] at hv hv'
      split at hv
      next =>
        split at hv'
        next hlive' =>
          obtain ⟨hws, heq⟩ := Prod.mk.inj (Option.some.inj (hv'.trans hv.symm))
          exact h (.inl ⟨c.email, hnew, r, hr, hne, hws.trans hc.workspaceId, hlive', heq⟩)
        next => cases hv'
      next => cases hv
  have hkept : ∀ r ∈ l.db.customers, r.id ≠ l.customer.id → ∀ v, c.externalIdIndex = some v →
      r.externalIdIndex ≠ some v := by
    intro r hr hne v hv hv'
    rw [Customer.externalIdIndex, hc.externalId, hc.workspaceId] at hv
    exact (free_self l).externalId r hr hne v hv hv'
  refine ⟨⟨?_, ?_⟩, ⟨?_, ?_⟩⟩
  · exact fun r hr hne => hindex r hr (hc.id ▸ hne)
  · exact fun r hr hne => hkept r hr (hc.id ▸ hne)
  · exact fun r hr hne => hindex r hr (hc.id ▸ hne)
  · intro r hr hne v hv hv'
    have hne' : r.id ≠ l.customer.id := hc.id ▸ hne
    cases hu : u.externalId with
    | none =>
      refine hkept r hr hne' v ?_ hv'
      rwa [Customer.externalIdIndex, assign, hu] at hv
    | some externalId =>
      cases externalId with
      | none =>
        rw [Customer.externalIdIndex, assign, hu] at hv
        cases hv
      | some taken =>
        rw [Customer.externalIdIndex, assign, hu] at hv
        obtain rfl := Option.some.inj hv
        obtain ⟨hext, hr', heq⟩ := Option.map_eq_some_iff.mp hv'
        obtain ⟨hws, rfl⟩ := Prod.mk.inj heq
        exact h (.inr (.inl ⟨_, hu, r, hr, hne', hws.trans hc.workspaceId, hr'⟩))

theorem Database.Free.of_othersSame {db db' : Database dbLower} {c c' : Customer}
    (h : db.Free c') (hid : c'.id = c.id) (hothers : OthersSame db db' c) : db'.Free c' where
  email r hr hne := h.email r ((hothers r (hid ▸ hne)).mp hr) hne
  externalId r hr hne := h.externalId r ((hothers r (hid ▸ hne)).mp hr) hne

theorem Holds.isSome_flush {c : Customer} (h : Holds l c s) (hfree : l.db.Free (assign c u)) :
    ({ s with customer := assign s.customer u } : Session dbLower).flush.isSome := by
  rw [h.customer]
  obtain ⟨s', hflush, -⟩ := Database.Free.exists_flush
    (s := { s with customer := assign c u }) (hfree.of_othersSame rfl h.others) h.stored
  rw [hflush]
  rfl

theorem exists_update_of_not_changes (h : ∀ email, ¬EmailChanges lower u l.customer email) :
    ∃ errors, update lower l.session u = outcome l.session u errors ∧
      (errors = [] ↔ ¬Rejected l u) := by
  obtain ⟨s', errors, hcheck, hholds, hiff⟩ :=
    exists_checkExternalId (u := u) (edited_self l) (free_self l)
  obtain rfl : s' = l.session :=
    hholds.flushed.elim id fun hflush => Option.some.inj (hflush.symm.trans (flush_session l))
  refine ⟨_, update_eq_outcome (checkEmail_of_not_changes h) hcheck, ?_⟩
  refine (append_eq_nil_iff_not_rejected hiff (checkType_eq_nil_iff rfl)).trans ?_
  exact and_iff_right rfl

theorem exists_update_of_changes (h : EmailChanges lower u l.customer email)
    (hfree : l.db.Free (withEmail l.customer email)) :
    ∃ s' errors, update lower l.session u = outcome s' u errors ∧
      Holds l (withEmail l.customer email) s' ∧
      (errors = [] ↔ ¬EmailFound lower l email ∧ ¬Rejected l u) := by
  obtain ⟨errors, hemail, hfound⟩ := exists_checkEmail h
  obtain ⟨s', errors', hcheck, hholds, hiff⟩ :=
    exists_checkExternalId (u := u) (edited_withEmail l email) hfree
  have htype : s'.customer.type = l.customer.type := by rw [hholds.customer]; rfl
  refine ⟨s', _, update_eq_outcome hemail hcheck, hholds, ?_⟩
  rw [append_eq_nil_iff_not_rejected hiff (checkType_eq_nil_iff htype), hfound]

theorem email_of_changes (h : EmailChanges lower u l.customer email)
    (hupdate : update lower l.session u = .requestValidationError errors s) :
    s.customer.email = email := by
  obtain ⟨emailErrors, hemail, -⟩ := exists_checkEmail h
  cases hcheck : checkExternalId { l.session with customer := withEmail l.customer email } u with
  | error failure =>
    rw [update, hemail] at hupdate
    dsimp only [bind, Except.bind] at hupdate
    rw [hcheck] at hupdate
    cases hupdate
  | ok checked =>
    obtain ⟨s', errors'⟩ := checked
    rw [update_eq_outcome hemail hcheck, outcome] at hupdate
    split at hupdate
    next =>
      obtain ⟨-, rfl⟩ := Outcome.requestValidationError.inj hupdate
      rw [customer_of_checkExternalId hcheck]
      rfl
    next => cases hupdate

/-- Either no rule is broken and the lookup finds nobody, or the email does not change and another
rule rejects the update. -/
theorem updates_iff (lower : String → String) (l : Loaded dbLower) (u : Payload) :
    Updates lower l u ↔
      ¬Conflict l u ∧
          (∀ email, EmailChanges lower u l.customer email → ¬EmailFound lower l email) ∨
        (∀ email, ¬EmailChanges lower u l.customer email) ∧ Rejected l u := by
  constructor
  · intro h
    by_cases hconflict : Conflict l u
    · obtain ⟨errors, s, hupdate⟩ := h.raises.mpr hconflict
      have hsame := h.atomic errors s hupdate
      have hunchanged : ∀ email, ¬EmailChanges lower u l.customer email := by
        intro email hchanges
        have hemail := email_of_changes hchanges hupdate
        rw [hsame.1] at hemail
        exact hchanges.2 (congrArg lower hemail)
      obtain ⟨errors', houtcome, hiff⟩ := exists_update_of_not_changes hunchanged
      refine .inr ⟨hunchanged, not_not.mp fun hnot => ?_⟩
      rw [houtcome, hiff.mpr hnot] at hupdate
      cases hupdate
    · refine .inl ⟨hconflict, fun email hchanges hfound => hconflict ?_⟩
      have hfree := (free_of_not_conflict hconflict (edited_withEmail l email) rfl
        (.inr hchanges.1)).1
      obtain ⟨s, errors, houtcome, -, hiff⟩ := exists_update_of_changes hchanges hfree
      have herrors : errors ≠ [] := fun hnil => (hiff.mp hnil).1 hfound
      exact h.raises.mp ⟨errors, s, houtcome.trans (if_pos herrors)⟩
  · rintro (⟨hconflict, hnobody⟩ | ⟨hunchanged, hrejected⟩)
    · have hnot : ¬Rejected l u := fun hrejected => hconflict hrejected.conflict
      -- whichever of the two is assigned, the update returns and is sent
      obtain ⟨c, s, houtcome, hholds, hfree⟩ : ∃ c s, update lower l.session u = outcome s u [] ∧
          Holds l c s ∧ l.db.Free (assign c u) := by
        by_cases hchanges : ∃ email, EmailChanges lower u l.customer email
        · obtain ⟨email, hchanges⟩ := hchanges
          have hfree := free_of_not_conflict hconflict (edited_withEmail l email) rfl
            (.inr hchanges.1)
          obtain ⟨s, errors, houtcome, hholds, hiff⟩ := exists_update_of_changes hchanges hfree.1
          rw [hiff.mpr ⟨hnobody email hchanges, hnot⟩] at houtcome
          exact ⟨_, s, houtcome, hholds, hfree.2⟩
        · push Not at hchanges
          obtain ⟨errors, houtcome, hiff⟩ := exists_update_of_not_changes hchanges
          rw [hiff.mpr hnot] at houtcome
          refine ⟨l.customer, l.session, houtcome, ?_, ?_⟩
          · exact ⟨rfl, fun _ _ => Iff.rfl, ⟨_, l.stored, rfl⟩, .inl rfl⟩
          · exact (free_of_not_conflict hconflict (edited_self l) rfl (.inl rfl)).2
      have hreturned : update lower l.session u =
          .returned { s with customer := assign s.customer u } := houtcome
      constructor
      · refine iff_of_false ?_ hconflict
        rintro ⟨errors, s', hupdate⟩
        rw [hreturned] at hupdate
        cases hupdate
      · intro errors s' hupdate
        rw [hreturned] at hupdate
        cases hupdate
      · intro failure hupdate
        rw [hreturned] at hupdate
        cases hupdate
      · intro s' hupdate
        rw [hreturned] at hupdate
        rw [← Outcome.returned.inj hupdate]
        exact hholds.isSome_flush hfree
    · obtain ⟨errors, houtcome, hiff⟩ := exists_update_of_not_changes hunchanged
      have herrors : errors ≠ [] := fun hnil => hiff.mp hnil hrejected
      have hraised : update lower l.session u = .requestValidationError errors l.session :=
        houtcome.trans (if_pos herrors)
      constructor
      · exact iff_of_true ⟨errors, l.session, hraised⟩ hrejected.conflict
      · intro errors' s' hupdate
        rw [hraised] at hupdate
        obtain ⟨-, rfl⟩ := Outcome.requestValidationError.inj hupdate
        exact ⟨rfl, rfl, rfl⟩
      · intro failure hupdate
        rw [hraised] at hupdate
        cases hupdate
      · intro s' hupdate
        rw [hraised] at hupdate
        cases hupdate

end Steps

/-- Two customers of one workspace; the first one is loaded. -/
def twoCustomers : Loaded id where
  db :=
    { customers := ⟨[{ id := 1, workspaceId := 7, email := "ann@example.com" },
        { id := 2, workspaceId := 7, email := "bob@example.com" }], by decide⟩
      emails := by decide
      externalIds := by decide }
  customer := { id := 1, workspaceId := 7, email := "ann@example.com" }
  stored := by decide

/-- The email of the second one together with a new external id: the lookup of the external id sends
the email. -/
theorem not_updates_twoCustomers :
    ¬Updates id twoCustomers
      (.update { email := some "bob@example.com", externalId := some (some "usr_1") }) :=
  fun h => h.accepted .integrityError rfl

end Rapidly.Customers.Update
