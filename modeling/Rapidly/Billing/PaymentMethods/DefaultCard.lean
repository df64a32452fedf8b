import Rapidly.Relational.ReadCommitted
import Rapidly.Transition.Tasks

/-!
# The default card of a customer

`upsert_from_stripe`, `set_default`, `delete` and `set_default_internal` of
`billing/payment_method/actions.py`, as `add_payment_method`, `confirm_payment_method` and
`setup_intent_succeeded` call them, side by side, one SQL statement a step. What an operation
changes without a flush is written when its transaction ends; in which order the ORM writes the
customer and the method that `delete` has changed is left open.

* `operations` is the system, for any number of customers, methods and operations.
* `defaults_valid` says in which runs a default is always a method of its customer that is not
  deleted.
-/

namespace Rapidly.Billing

open Relational Transition

namespace DefaultCard

/-- A saved card. -/
structure PaymentMethod where
  customerId : ℕ
  processorId : String
  /-- `type` and `method_metadata`. -/
  details : String
  /-- `deleted_at` is not null. -/
  isDeleted : Bool := false
deriving DecidableEq

/-- A row of the payment methods, from its `INSERT` on. -/
abbrev Row := Versioned (Option PaymentMethod)

/-- The column `default_payment_method_id` of each customer, and the payment methods. -/
structure State where
  customers : List (Versioned (Option ℕ))
  methods : List Row := []

/-- Which cards an operation that saves a card makes the default: `set_default` of the request, or
the first card of the customer, for a SetupIntent. -/
inductive SetDefault where
  | always
  | never
  | first
deriving DecidableEq

/-- What an operation has changed and not flushed. -/
inductive Write where
  | setDefault (customer : ℕ) (method : Option ℕ)
  | softDelete (method : ℕ)
deriving DecidableEq

/-- An operation. -/
inductive Task where
  /-- `upsert_from_stripe` is about to look for the card. -/
  | looking (customer : ℕ) (processorId details : String) (setDefault : SetDefault)
  /-- It has not found it, or has. -/
  | inserting (customer : ℕ) (processorId details : String) (setDefault : SetDefault)
  | restoring (customer method : ℕ) (loaded : PaymentMethod) (details : String)
    (setDefault : SetDefault)
  /-- The card is saved. -/
  | saved (customer method : ℕ) (setDefault : SetDefault)
  /-- `set_default` is about to look for the method. -/
  | setting (customer method : ℕ)
  /-- The method that is to be deleted is loaded; then `delete` loads the customer. -/
  | loading (method : ℕ)
  | deleting (customer method : ℕ)
  /-- The session is about to flush, and then to commit. -/
  | flushing (writes : List Write)
  | ended
  | failed
deriving DecidableEq

/-- How the next step of an operation turns out. -/
inductive Answer where
  | executed
  /-- The method is written before the customer. -/
  | reversed
  | raised
deriving DecidableEq

inductive Event where
  | save (customer : ℕ) (processorId details : String) (setDefault : SetDefault)
  | setDefault (customer method : ℕ)
  | delete (method : ℕ)
deriving DecidableEq

/-- A method that is not deleted. -/
def Live (v : Option PaymentMethod) : Prop := ∃ pm ∈ v, pm.isDeleted = false

instance (v : Option PaymentMethod) : Decidable (Live v) :=
  inferInstanceAs (Decidable (∃ pm ∈ v, _))

/-- `get_by_customer_and_processor_id`, deleted methods included. -/
def State.getByCustomerAndProcessorId (s : State) (customer : ℕ) (processorId : String) :
    Option (Option (ℕ × PaymentMethod)) :=
  getOneOrNone s.methods fun pm => pm.customerId = customer ∧ pm.processorId = processorId

/-- `get_by_id`. -/
def State.getById (s : State) (method : ℕ) : Option PaymentMethod :=
  (s.methods[method]?.bind Versioned.committed).filter fun pm => pm.isDeleted = false

/-- `list_by_customer`, as a transaction sees it. -/
def State.listByCustomer (s : State) (i customer : ℕ) : List PaymentMethod :=
  (s.methods.filterMap fun r => r.seenBy i).filter fun pm =>
    pm.customerId = customer ∧ pm.isDeleted = false

/-- The method has the customer and the processor id, in one of the versions. -/
def Row.HasKey (r : Row) (customer : ℕ) (processorId : String) : Prop :=
  ∃ pm ∈ r.latest, pm.customerId = customer ∧ pm.processorId = processorId

instance (r : Row) (customer : ℕ) (processorId : String) :
    Decidable (r.HasKey customer processorId) :=
  inferInstanceAs (Decidable (∃ pm ∈ r.latest, _))

/-- The columns that an upsert changes: those that differ from what was loaded. -/
def PaymentMethod.restore (loaded : PaymentMethod) (details : String) (pm : PaymentMethod) :
    PaymentMethod :=
  { pm with
    details := if loaded.details = details then pm.details else details
    isDeleted := if loaded.isDeleted then false else pm.isDeleted }

def PaymentMethod.softDelete (pm : PaymentMethod) : PaymentMethod := { pm with isDeleted := true }

/-- The row of a new card. -/
def insertedRow (i customer : ℕ) (processorId details : String) : Row where
  committed := none
  pending := some (i, some { customerId := customer, processorId, details })

/-- A transaction writes a payment method. -/
def State.writeMethod (s : State) (i method : ℕ) (f : PaymentMethod → PaymentMethod) : State :=
  { s with methods := s.methods.modify method fun r => r.write i (r.latest.map f) }

/-- A transaction writes the default of a customer. -/
def State.writeDefault (s : State) (i customer : ℕ) (method : Option ℕ) : State :=
  { s with customers := s.customers.modify customer fun r => r.write i method }

/-- The end of a transaction that commits. -/
def State.commit (s : State) (i : ℕ) : State where
  customers := s.customers.map (·.commit i)
  methods := s.methods.map (·.commit i)

/-- The end of a transaction that is rolled back. -/
def State.rollback (s : State) (i : ℕ) : State where
  customers := s.customers.map (·.rollback i)
  methods := s.methods.map (·.rollback i)

/-- One step of an operation. A statement waits while another transaction holds the row. -/
def Task.advance (s : State) (i : ℕ) : Answer → Task → State × Task × List Unit
  | .executed, .looking customer processorId details setDefault =>
    match s.getByCustomerAndProcessorId customer processorId with
    | none => (s.rollback i, .failed, [])
    | some none => (s, .inserting customer processorId details setDefault, [])
    | some (some (method, pm)) => (s, .restoring customer method pm details setDefault, [])
  | .executed, .inserting customer processorId details setDefault =>
    if ∃ r ∈ s.methods, r.LockedFor i ∧ r.HasKey customer processorId then
      (s, .inserting customer processorId details setDefault, [])
    -- the unique constraint
    else if ∃ r ∈ s.methods, r.HasKey customer processorId then (s.rollback i, .failed, [])
    else
      ({ s with methods := s.methods ++ [insertedRow i customer processorId details] },
        .saved customer s.methods.length setDefault, [])
  | .executed, .restoring customer method loaded details setDefault =>
    if loaded.isDeleted = false ∧ loaded.details = details then
      (s, .saved customer method setDefault, [])
    else if ∃ r ∈ s.methods[method]?, r.LockedFor i then
      (s, .restoring customer method loaded details setDefault, [])
    else (s.writeMethod i method (loaded.restore details), .saved customer method setDefault, [])
  | .executed, .saved customer method .always =>
    (s, .flushing [.setDefault customer (some method)], [])
  | .executed, .saved _ _ .never => (s, .flushing [], [])
  | .executed, .saved customer method .first =>
    if (s.listByCustomer i customer).length = 1 then
      (s, .flushing [.setDefault customer (some method)], [])
    else (s, .flushing [], [])
  | .executed, .setting customer method =>
    match s.getById method with
    | some pm =>
      if pm.customerId = customer then (s, .flushing [.setDefault customer (some method)], [])
      else (s.rollback i, .failed, [])
    | none => (s.rollback i, .failed, [])
  | .executed, .loading method =>
    match s.getById method with
    | some pm => (s, .deleting pm.customerId method, [])
    | none => (s.rollback i, .failed, [])
  | .executed, .deleting customer method =>
    if ∃ r ∈ s.customers[customer]?, r.committed = some method then
      (s, .flushing [.setDefault customer none, .softDelete method], [])
    else (s, .flushing [.softDelete method], [])
  | .reversed, .deleting customer method =>
    if ∃ r ∈ s.customers[customer]?, r.committed = some method then
      (s, .flushing [.softDelete method, .setDefault customer none], [])
    else (s, .flushing [.softDelete method], [])
  | .executed, .flushing [] => (s.commit i, .ended, [])
  | .executed, .flushing (.setDefault customer method :: writes) =>
    if ∃ r ∈ s.customers[customer]?, r.LockedFor i then
      (s, .flushing (.setDefault customer method :: writes), [])
    else (s.writeDefault i customer method, .flushing writes, [])
  | .executed, .flushing (.softDelete method :: writes) =>
    if ∃ r ∈ s.methods[method]?, r.LockedFor i then
      (s, .flushing (.softDelete method :: writes), [])
    else (s.writeMethod i method PaymentMethod.softDelete, .flushing writes, [])
  | .raised, .ended => (s, .ended, [])
  | .raised, _ => (s.rollback i, .failed, [])
  | _, t => (s, t, [])

/-- The operations, for any number of customers that have no card yet. -/
def operations (customers : ℕ) : Tasks State Task Event Answer Unit where
  init := { customers := List.replicate customers { committed := none } }
  arrive s _
    | .save customer processorId details setDefault =>
      (s, [.looking customer processorId details setDefault], [])
    | .setDefault customer method => (s, [.setting customer method], [])
    | .delete method => (s, [.loading method], [])
  advance s i := Task.advance s i

/-- Each default is a method of its customer that is not deleted. -/
def Valid (s : State) : Prop :=
  ∀ c < s.customers.length, ∀ r ∈ s.customers[c]?, ∀ m ∈ r.committed, ∃ row ∈ s.methods[m]?,
    ∃ pm ∈ row.committed, pm.customerId = c ∧ pm.isDeleted = false

instance (s : State) : Decidable (Valid s) :=
  inferInstanceAs (Decidable (∀ c < s.customers.length, ∀ r ∈ s.customers[c]?,
    ∀ m ∈ r.committed, ∃ row ∈ s.methods[m]?, ∃ pm ∈ row.committed, _))

/-- The method is not deleted, neither in what the transaction sees nor in what another one has
written. -/
def Row.LiveFor (r : Row) (i : ℕ) : Prop := Live r.latest ∧ Live (r.seenBy i)

instance (r : Row) (i : ℕ) : Decidable (r.LiveFor i) := inferInstanceAs (Decidable (_ ∧ _))

/-- No customer has the method as default, neither in what the transaction sees, unless it is about
to clear it, nor in what one has written. -/
def State.Unreferenced (s : State) (i method : ℕ) (writes : List Write) : Prop :=
  ∀ c < s.customers.length, ∀ r ∈ s.customers[c]?,
    (r.seenBy i = some method → .setDefault c none ∈ writes) ∧
      ∀ w ∈ r.pending, w.2 ≠ some method

instance (s : State) (i method : ℕ) (writes : List Write) :
    Decidable (s.Unreferenced i method writes) :=
  inferInstanceAs (Decidable (∀ c < _, ∀ r ∈ s.customers[c]?, _))

/-- A method that is made the default is not deleted, and a method that is deleted is the default of
no customer. -/
def Undisturbed : System.Condition (Pool State Task) (Turn Event Answer)
  | _, p, .resumed i .executed =>
    match p.tasks[i]? with
    | some (.flushing (.setDefault c (some m) :: _)) =>
      (∀ r ∈ p.shared.customers[c]?, ¬r.LockedFor i) → ∃ r ∈ p.shared.methods[m]?, r.LiveFor i
    | some (.flushing (.softDelete m :: writes)) =>
      (∀ r ∈ p.shared.methods[m]?, ¬r.LockedFor i) → p.shared.Unreferenced i m writes
    | _ => True
  | _, _, _ => True

instance (past : List (Turn Event Answer)) (p : Pool State Task) (l : Turn Event Answer) :
    Decidable (Undisturbed past p l) := by
  unfold Undisturbed
  split
  · split <;> infer_instance
  · infer_instance

/-! ### The rows -/

variable {r : Versioned (Option ℕ)} {row : Row} {v : Option PaymentMethod} {i j c m : ℕ}
variable {f : PaymentMethod → PaymentMethod} {s : State} {t : Task} {answer : Answer}

theorem Live.map (h : Live v) (hf : ∀ pm, pm.isDeleted = false → (f pm).isDeleted = false) :
    Live (v.map f) := by
  obtain ⟨pm, rfl, hlive⟩ := h
  exact ⟨f pm, rfl, hf pm hlive⟩

theorem Row.LiveFor.write (h : row.LiveFor i) (hlocked : ¬row.LockedFor j) (hv : Live v) :
    Row.LiveFor (row.write j v) i := by
  refine ⟨hv, ?_⟩
  by_cases hij : i = j
  · rw [hij, Versioned.seenBy_write_self]
    exact hv
  · have hnot : ∀ w, row.pending ≠ some (i, w) := fun w hw => hlocked ⟨_, hw, hij⟩
    rw [Versioned.seenBy_write_of_ne hij, ← Versioned.seenBy_of_pending hnot]
    exact h.2

theorem Row.LiveFor.commit (h : row.LiveFor i) : Row.LiveFor (row.commit j) i := by
  rcases row.pending_cases j with ⟨v, hv⟩ | hnot
  · have hlive : Live v := Versioned.latest_eq_of_pending hv ▸ h.1
    rw [Versioned.commit_eq hv]
    exact ⟨hlive, hlive⟩
  · rwa [Versioned.commit_of_pending hnot]

theorem Row.LiveFor.rollback (h : row.LiveFor i) (hne : i ≠ j) :
    Row.LiveFor (row.rollback j) i := by
  rcases row.pending_cases j with ⟨v, hv⟩ | hnot
  · have hseen : row.seenBy i = row.committed := by
      refine Versioned.seenBy_of_pending fun w hw => hne ?_
      exact congrArg Prod.fst (Option.some.inj (hw.symm.trans hv))
    have hlive : Live row.committed := hseen ▸ h.2
    rw [Versioned.rollback_eq hv]
    exact ⟨hlive, hlive⟩
  · rwa [Versioned.rollback_of_pending hnot]

/-- All versions of the method belong to the customer. -/
structure Row.Owned (row : Row) (c : ℕ) : Prop where
  committed : ∀ pm ∈ row.committed, pm.customerId = c
  pending : ∀ j v, row.pending = some (j, v) → ∀ pm ∈ v, pm.customerId = c

theorem Row.Owned.latest (h : row.Owned c) : ∀ pm ∈ row.latest, pm.customerId = c := by
  cases hpending : row.pending with
  | none =>
    rw [Versioned.latest_of_pending hpending]
    exact h.committed
  | some w =>
    rw [Versioned.latest_eq_of_pending hpending]
    exact h.pending w.1 w.2 hpending

theorem Row.Owned.write (h : row.Owned c) (hf : ∀ pm, (f pm).customerId = pm.customerId) :
    Row.Owned (row.write j (row.latest.map f)) c := by
  refine ⟨h.committed, fun k v hv pm hpm => ?_⟩
  obtain ⟨rfl, rfl⟩ := Prod.mk.inj (Option.some.inj hv)
  obtain ⟨pm', hpm', rfl⟩ := Option.map_eq_some_iff.mp hpm
  exact (hf pm').trans (h.latest pm' hpm')

theorem Row.Owned.commit (h : row.Owned c) : Row.Owned (row.commit j) c := by
  rcases row.pending_cases j with ⟨v, hv⟩ | hnot
  · rw [Versioned.commit_eq hv]
    exact ⟨h.pending j v hv, fun _ _ h => absurd h nofun⟩
  · rwa [Versioned.commit_of_pending hnot]

theorem Row.Owned.rollback (h : row.Owned c) : Row.Owned (row.rollback j) c := by
  rcases row.pending_cases j with ⟨v, hv⟩ | hnot
  · rw [Versioned.rollback_eq hv]
    exact ⟨h.committed, fun _ _ h => absurd h nofun⟩
  · rwa [Versioned.rollback_of_pending hnot]

/-- There is such a method, of the customer. -/
def State.OwnedIn (s : State) (m c : ℕ) : Prop := ∃ row, s.methods[m]? = some row ∧ row.Owned c

theorem State.OwnedIn.append (h : s.OwnedIn m c) (row : Row) :
    State.OwnedIn { s with methods := s.methods ++ [row] } m c := by
  obtain ⟨row', hrow, howned⟩ := h
  refine ⟨row', ?_, howned⟩
  rw [List.getElem?_append_left (List.getElem?_eq_some_iff.mp hrow).1]
  exact hrow

variable {k : ℕ} {pm : PaymentMethod} {processorId details : String} {writes : List Write}

theorem State.OwnedIn.writeMethod (h : s.OwnedIn m c)
    (hf : ∀ pm, (f pm).customerId = pm.customerId) : (s.writeMethod i k f).OwnedIn m c := by
  obtain ⟨row, hrow, howned⟩ := h
  by_cases hk : m = k
  · subst hk
    exact ⟨_, getElem?_modify_self hrow, howned.write hf⟩
  · exact ⟨row, (getElem?_modify_of_ne hk).trans hrow, howned⟩

theorem State.OwnedIn.commit (h : s.OwnedIn m c) : (s.commit i).OwnedIn m c := by
  obtain ⟨row, hrow, howned⟩ := h
  refine ⟨row.commit i, ?_, howned.commit⟩
  rw [State.commit, List.getElem?_map, hrow]
  rfl

theorem State.OwnedIn.rollback (h : s.OwnedIn m c) : (s.rollback i).OwnedIn m c := by
  obtain ⟨row, hrow, howned⟩ := h
  refine ⟨row.rollback i, ?_, howned.rollback⟩
  rw [State.rollback, List.getElem?_map, hrow]
  rfl

/-- All versions of a method belong to one customer. -/
def State.Owners (s : State) : Prop := ∀ m < s.methods.length, ∃ c, s.OwnedIn m c

theorem State.Owners.of_owned {s' : State} (h : s.Owners)
    (hlength : s'.methods.length = s.methods.length)
    (howned : ∀ m c, s.OwnedIn m c → s'.OwnedIn m c) : s'.Owners := by
  intro m hm
  rw [hlength] at hm
  obtain ⟨c, hc⟩ := h m hm
  exact ⟨c, howned m c hc⟩

theorem State.Owners.ownedIn (h : s.Owners) (hrow : s.methods[m]? = some row)
    (hpm : row.committed = some pm) : s.OwnedIn m pm.customerId := by
  obtain ⟨c, row', hrow', howned⟩ := h m (List.getElem?_eq_some_iff.mp hrow).1
  obtain rfl := Option.some.inj (hrow.symm.trans hrow')
  rw [howned.committed pm hpm]
  exact ⟨row, hrow, howned⟩

theorem State.ownedIn_of_getById (h : s.Owners)
    (hfound : s.getById m = some pm) : s.OwnedIn m pm.customerId := by
  obtain ⟨hbind, -⟩ := Option.filter_eq_some_iff.mp hfound
  obtain ⟨row, hrow, hpm⟩ := Option.bind_eq_some_iff.mp hbind
  exact h.ownedIn hrow hpm

theorem State.ownedIn_of_getByCustomerAndProcessorId (h : s.Owners)
    (hfound : s.getByCustomerAndProcessorId c processorId = some (some (m, pm))) :
    s.OwnedIn m c := by
  obtain ⟨row, hrow, hpm, hkey⟩ := getOneOrNone_eq_some hfound
  rw [← (of_decide_eq_true hkey).1]
  exact h.ownedIn hrow hpm

/-! ### The references -/

/-- The transaction has written another default. -/
def Replaced (r : Versioned (Option ℕ)) (j m : ℕ) : Prop :=
  ∃ v, r.pending = some (j, v) ∧ v ≠ some m

/-- Each default is live, up to a deletion that clears it; each default that is written and not
committed is live. -/
structure Refs (clears : ℕ → ℕ → Prop) (s : State) : Prop where
  committed : ∀ (c m : ℕ) (r : Versioned (Option ℕ)), s.customers[c]? = some r →
    r.committed = some m → ∃ row, s.methods[m]? = some row ∧ row.Owned c ∧ Live row.committed ∧
      ∀ j v, row.pending = some (j, v) → Live v ∨ Replaced r j m ∨ clears j c
  pending : ∀ (c m i : ℕ) (r : Versioned (Option ℕ)), s.customers[c]? = some r →
    r.pending = some (i, some m) → ∃ row, s.methods[m]? = some row ∧ row.Owned c ∧ row.LiveFor i

variable {clears clears' : ℕ → ℕ → Prop}

theorem Refs.valid (h : Refs clears s) : Valid s := by
  intro c _ r hr m hm
  obtain ⟨row, hrow, howned, ⟨pm, hpm, hlive⟩, -⟩ := h.committed c m r hr hm
  exact ⟨row, hrow, pm, hpm, howned.committed pm hpm, hlive⟩

theorem Refs.mono (h : Refs clears s) (hclears : ∀ j c, clears j c → clears' j c) :
    Refs clears' s := by
  refine ⟨fun c m r hr hm => ?_, h.pending⟩
  obtain ⟨row, hrow, howned, hlive, hpending⟩ := h.committed c m r hr hm
  refine ⟨row, hrow, howned, hlive, fun j v hv => ?_⟩
  exact (hpending j v hv).imp_right (Or.imp_right (hclears j c))

theorem Refs.append (h : Refs clears s) (row : Row) :
    Refs clears { s with methods := s.methods ++ [row] } := by
  have happend : ∀ (m : ℕ) (row' : Row), s.methods[m]? = some row' →
      (s.methods ++ [row])[m]? = some row' := by
    intro m row' hrow'
    rw [List.getElem?_append_left (List.getElem?_eq_some_iff.mp hrow').1]
    exact hrow'
  refine ⟨fun c m r hr hm => ?_, fun c m i r hr hm => ?_⟩
  · obtain ⟨row', hrow', hrest⟩ := h.committed c m r hr hm
    exact ⟨row', happend m row' hrow', hrest⟩
  · obtain ⟨row', hrow', hrest⟩ := h.pending c m i r hr hm
    exact ⟨row', happend m row' hrow', hrest⟩

theorem Refs.writeMethod (h : Refs clears s) (hlocked : ¬∃ row ∈ s.methods[k]?, row.LockedFor i)
    (hf : ∀ pm, (f pm).customerId = pm.customerId)
    (hlive : ∀ pm, pm.isDeleted = false → (f pm).isDeleted = false) :
    Refs clears (s.writeMethod i k f) := by
  refine ⟨fun c m r hr hm => ?_, fun c m j r hr hm => ?_⟩
  · obtain ⟨row, hrow, howned, hcommitted, hpending⟩ := h.committed c m r hr hm
    by_cases hk : m = k
    · subst hk
      refine ⟨_, getElem?_modify_self hrow, howned.write hf, hcommitted, fun j v hv => ?_⟩
      obtain ⟨rfl, rfl⟩ := Prod.mk.inj (Option.some.inj hv)
      cases hold : row.pending with
      | none =>
        rw [Versioned.latest_of_pending hold]
        exact .inl (hcommitted.map hlive)
      | some w =>
        obtain ⟨j, v⟩ := w
        obtain rfl : j = i := by
          by_contra hne
          exact hlocked ⟨row, hrow, (j, v), hold, hne⟩
        rw [Versioned.latest_eq_of_pending hold]
        exact (hpending j v hold).imp_left fun hv => hv.map hlive
    · exact ⟨row, (getElem?_modify_of_ne hk).trans hrow, howned, hcommitted, hpending⟩
  · obtain ⟨row, hrow, howned, hfor⟩ := h.pending c m j r hr hm
    by_cases hk : m = k
    · subst hk
      have hunlocked : ¬row.LockedFor i := fun hl => hlocked ⟨row, hrow, hl⟩
      exact ⟨_, getElem?_modify_self hrow, howned.write hf, hfor.write hunlocked (hfor.1.map hlive)⟩
    · exact ⟨row, (getElem?_modify_of_ne hk).trans hrow, howned, hfor⟩

theorem Refs.softDelete (h : Refs clears s) (hfree : s.Unreferenced i k writes)
    (hclears : ∀ j c, clears j c → clears' j c)
    (hwrites : ∀ c, .setDefault c none ∈ writes → clears' i c) :
    Refs clears' (s.writeMethod i k PaymentMethod.softDelete) := by
  refine ⟨fun c m r hr hm => ?_, fun c m j r hr hm => ?_⟩
  · obtain ⟨row, hrow, howned, hcommitted, hpending⟩ := h.committed c m r hr hm
    by_cases hk : m = k
    · subst hk
      refine ⟨_, getElem?_modify_self hrow, howned.write fun _ => rfl, hcommitted, fun j v hv => ?_⟩
      obtain ⟨rfl, -⟩ := Prod.mk.inj (Option.some.inj hv)
      obtain ⟨hseen, hnot⟩ := hfree c (List.getElem?_eq_some_iff.mp hr).1 r hr
      right
      -- the transaction has cleared the default, or is about to
      by_cases hsees : r.seenBy i = some m
      · exact .inr (hwrites c (hseen hsees))
      · rcases r.pending_cases i with ⟨w, hw⟩ | hnone
        · exact .inl ⟨w, hw, hnot _ hw⟩
        · exact absurd ((Versioned.seenBy_of_pending hnone).trans hm) hsees
    · refine ⟨row, (getElem?_modify_of_ne hk).trans hrow, howned, hcommitted, fun j v hv => ?_⟩
      exact (hpending j v hv).imp_right (Or.imp_right (hclears j c))
  · obtain ⟨row, hrow, howned, hfor⟩ := h.pending c m j r hr hm
    have hk : m ≠ k := by
      rintro rfl
      exact (hfree c (List.getElem?_eq_some_iff.mp hr).1 r hr).2 _ hm rfl
    exact ⟨row, (getElem?_modify_of_ne hk).trans hrow, howned, hfor⟩

theorem Refs.writeDefault {w : Option ℕ} (h : Refs clears s)
    (hlocked : ¬∃ r ∈ s.customers[k]?, r.LockedFor i)
    (hlive : ∀ m, w = some m → ∃ row, s.methods[m]? = some row ∧ row.Owned k ∧ row.LiveFor i)
    (hclears : ∀ j c, clears j c → clears' j c ∨ j = i ∧ c = k) :
    Refs clears' (s.writeDefault i k w) := by
  refine ⟨fun c m r hr hm => ?_, fun c m j r hr hm => ?_⟩
  · rcases getElem?_modify_cases hr with ⟨r, hold, rfl, rfl⟩ | ⟨hold, hne⟩
    · obtain ⟨row, hrow, howned, hcommitted, hpending⟩ := h.committed c m r hold hm
      refine ⟨row, hrow, howned, hcommitted, fun j v hv => ?_⟩
      -- a deletion that is in the transaction is live, or is of another method
      have hown : j = i → Live v ∨ Replaced (r.write i w) j m := by
        rintro rfl
        by_cases hw : w = some m
        · obtain ⟨row', hrow', -, hfor⟩ := hlive m hw
          obtain rfl := Option.some.inj (hrow.symm.trans hrow')
          exact .inl (Versioned.latest_eq_of_pending hv ▸ hfor.1)
        · exact .inr ⟨w, rfl, hw⟩
      rcases hpending j v hv with hlive' | ⟨w', hw', -⟩ | hclear
      · exact .inl hlive'
      · have hj : j = i := by
          by_contra hne
          exact hlocked ⟨r, hold, (j, w'), hw', hne⟩
        exact (hown hj).imp_right .inl
      · rcases hclears j c hclear with hclear' | ⟨hj, -⟩
        · exact .inr (.inr hclear')
        · exact (hown hj).imp_right .inl
    · obtain ⟨row, hrow, howned, hcommitted, hpending⟩ := h.committed c m r hold hm
      refine ⟨row, hrow, howned, hcommitted, fun j v hv => ?_⟩
      rcases hpending j v hv with hlive' | hreplaced | hclear
      · exact .inl hlive'
      · exact .inr (.inl hreplaced)
      · rcases hclears j c hclear with hclear' | ⟨-, hc⟩
        · exact .inr (.inr hclear')
        · exact absurd hc hne
  · rcases getElem?_modify_cases hr with ⟨r, -, rfl, rfl⟩ | ⟨hold, -⟩
    · obtain ⟨rfl, rfl⟩ := Prod.mk.inj (Option.some.inj hm)
      exact hlive m rfl
    · exact h.pending c m j r hold hm

theorem Refs.commit (h : Refs clears s) (hdone : ∀ c, ¬clears i c) : Refs clears (s.commit i) := by
  refine ⟨fun c m r' hr' hm => ?_, fun c m j r' hr' hm => ?_⟩
  · obtain ⟨r, hr, rfl⟩ := getElem?_map_cases hr'
    rcases r.pending_cases i with ⟨w, hw⟩ | hnot
    · rw [Versioned.commit_eq hw] at hm ⊢
      obtain rfl : w = some m := hm
      obtain ⟨row, hrow, howned, hfor⟩ := h.pending c m i r hr hw
      have hfor' := hfor.commit (j := i)
      refine ⟨row.commit i, getElem?_map_of_eq hrow _, howned.commit, ?_, fun j v hv => ?_⟩
      · have hseen : Versioned.seenBy (row.commit i) i = (row.commit i).committed := by
          refine Versioned.seenBy_of_pending fun v hv => ?_
          rcases row.pending_cases i with ⟨v', hv'⟩ | hnone
          · rw [Versioned.commit_eq hv'] at hv
            exact absurd hv nofun
          · exact hnone v (Versioned.pending_of_commit hv)
        exact hseen ▸ hfor'.2
      · exact .inl (Versioned.latest_eq_of_pending hv ▸ hfor'.1)
    · rw [Versioned.commit_of_pending hnot] at hm ⊢
      obtain ⟨row, hrow, howned, hcommitted, hpending⟩ := h.committed c m r hr hm
      refine ⟨row.commit i, getElem?_map_of_eq hrow _, howned.commit, ?_, fun j v hv => ?_⟩
      · rcases row.pending_cases i with ⟨v, hv⟩ | hnone
        · rw [Versioned.commit_eq hv]
          rcases hpending i v hv with hlive | ⟨w, hw, -⟩ | hclear
          · exact hlive
          · exact absurd hw (hnot w)
          · exact absurd hclear (hdone c)
        · rwa [Versioned.commit_of_pending hnone]
      · exact hpending j v (Versioned.pending_of_commit hv)
  · obtain ⟨r, hr, rfl⟩ := getElem?_map_cases hr'
    obtain ⟨row, hrow, howned, hfor⟩ := h.pending c m j r hr (Versioned.pending_of_commit hm)
    exact ⟨row.commit i, getElem?_map_of_eq hrow _, howned.commit, hfor.commit⟩

theorem Refs.rollback (h : Refs clears s) (hclears : ∀ j c, j ≠ i → clears j c → clears' j c) :
    Refs clears' (s.rollback i) := by
  refine ⟨fun c m r' hr' hm => ?_, fun c m j r' hr' hm => ?_⟩
  · obtain ⟨r, hr, rfl⟩ := getElem?_map_cases hr'
    rw [Versioned.committed_rollback] at hm
    obtain ⟨row, hrow, howned, hcommitted, hpending⟩ := h.committed c m r hr hm
    refine ⟨row.rollback i, getElem?_map_of_eq hrow _, howned.rollback, ?_, fun j v hv => ?_⟩
    · rwa [Versioned.committed_rollback]
    · have hne : j ≠ i := Versioned.ne_of_pending_rollback hv
      have hold := Versioned.pending_of_rollback hv
      rcases hpending j v hold with hlive | ⟨w, hw, hw'⟩ | hclear
      · exact .inl hlive
      · refine .inr (.inl ⟨w, ?_, hw'⟩)
        have hnot : ∀ w', r.pending ≠ some (i, w') := fun w' h' =>
          hne (congrArg Prod.fst (Option.some.inj (hw.symm.trans h')))
        rwa [Versioned.rollback_of_pending hnot]
      · exact .inr (.inr (hclears j c hne hclear))
  · obtain ⟨r, hr, rfl⟩ := getElem?_map_cases hr'
    have hne : j ≠ i := Versioned.ne_of_pending_rollback hm
    have hold := Versioned.pending_of_rollback hm
    obtain ⟨row, hrow, howned, hfor⟩ := h.pending c m j r hr hold
    exact ⟨row.rollback i, getElem?_map_of_eq hrow _, howned.rollback, hfor.rollback hne⟩

/-! ### The operations -/

/-- The operation is about to clear the default of the customer. -/
def Task.Clears (c : ℕ) : Task → Prop
  | .flushing writes => .setDefault c none ∈ writes
  | _ => False

/-- What an operation is about to make a default is a method of the customer. -/
def Assertion (s : State) : Task → Prop
  | .restoring c m _ _ _ => s.OwnedIn m c
  | .saved c m _ => s.OwnedIn m c
  | .flushing writes => ∀ c m, .setDefault c (some m) ∈ writes → s.OwnedIn m c
  | _ => True

theorem Assertion.mono {s' : State} (h : Assertion s t)
    (howned : ∀ m c, s.OwnedIn m c → s'.OwnedIn m c) : Assertion s' t := by
  cases t with
  | restoring c m loaded details setDefault => exact howned m c h
  | saved c m setDefault => exact howned m c h
  | flushing writes => exact fun c m hmem => howned m c (h c m hmem)
  | _ => trivial

/-- What holds after a step of the operation `i`. -/
structure Kept (clears : ℕ → ℕ → Prop) (s : State) (i : ℕ) (r : State × Task × List Unit) :
    Prop where
  refs : ∀ clears' : ℕ → ℕ → Prop, (∀ j c, j ≠ i → clears j c → clears' j c) →
    (∀ c, r.2.1.Clears c → clears' i c) → Refs clears' r.1
  assertion : Assertion r.1 r.2.1
  owned : ∀ m c, s.OwnedIn m c → r.1.OwnedIn m c
  owners : s.Owners → r.1.Owners

variable {t' : Task}

theorem Kept.of_eq (h : Refs clears s) (hclears : ∀ c, clears i c → t.Clears c)
    (hnext : ∀ c, t.Clears c → t'.Clears c) (ht : Assertion s t') :
    Kept clears s i (s, t', []) where
  refs clears' hother hown := by
    refine h.mono fun j c hc => ?_
    by_cases hj : j = i
    · subst hj
      exact hown c (hnext c (hclears c hc))
    · exact hother j c hj hc
  assertion := ht
  owned _ _ h := h
  owners h := h

theorem Kept.of_rollback (h : Refs clears s) : Kept clears s i (s.rollback i, .failed, []) where
  refs _ hother _ := h.rollback hother
  assertion := trivial
  owned _ _ h := h.rollback
  owners h := h.of_owned (List.length_map _) fun _ _ h => h.rollback

theorem kept_restoring {loaded : PaymentMethod} {setDefault : SetDefault} (h : Refs clears s)
    (hclears : ∀ c, ¬clears i c) (howned : s.OwnedIn m c)
    (hlocked : ¬∃ row ∈ s.methods[m]?, row.LockedFor i) :
    Kept clears s i (s.writeMethod i m (loaded.restore details), .saved c m setDefault, []) where
  refs clears' hother _ := by
    have hlive : ∀ pm : PaymentMethod, pm.isDeleted = false →
        (loaded.restore details pm).isDeleted = false := by
      intro pm hpm
      simp only [PaymentMethod.restore, hpm, ite_self]
    have hcustomer : ∀ pm, (loaded.restore details pm).customerId = pm.customerId := fun _ => rfl
    refine (h.writeMethod hlocked hcustomer hlive).mono fun j c hc => ?_
    refine hother j c ?_ hc
    rintro rfl
    exact hclears c hc
  assertion := howned.writeMethod fun _ => rfl
  owned _ _ h := h.writeMethod fun _ => rfl
  owners h := h.of_owned (List.length_modify ..) fun _ _ h => h.writeMethod fun _ => rfl

theorem ownedIn_inserted :
    State.OwnedIn { s with methods := s.methods ++ [insertedRow i c processorId details] }
      s.methods.length c := by
  refine ⟨_, List.getElem?_concat_length, fun pm hpm => absurd hpm (Option.not_mem_none pm), ?_⟩
  intro j v hv pm hpm
  obtain ⟨-, rfl⟩ := Prod.mk.inj (Option.some.inj hv)
  rw [← Option.some.inj hpm]

theorem kept_inserting {setDefault : SetDefault} (h : Refs clears s) (hclears : ∀ c, ¬clears i c) :
    Kept clears s i ({ s with methods := s.methods ++ [insertedRow i c processorId details] },
      .saved c s.methods.length setDefault, []) where
  refs clears' hother _ := by
    refine (h.append _).mono fun j c hc => ?_
    refine hother j c ?_ hc
    rintro rfl
    exact hclears c hc
  assertion := ownedIn_inserted
  owned _ _ h := h.append _
  owners h k hk := by
    rw [List.length_append] at hk
    rcases Nat.lt_succ_iff_lt_or_eq.mp hk with hlt | rfl
    · obtain ⟨c', hc'⟩ := h k hlt
      exact ⟨c', hc'.append _⟩
    · exact ⟨c, ownedIn_inserted⟩

theorem kept_setDefault {w : Option ℕ} (h : Refs clears s)
    (hclears : ∀ c, clears i c → (Task.flushing (.setDefault m w :: writes)).Clears c)
    (ht : Assertion s (.flushing (.setDefault m w :: writes)))
    (hlocked : ¬∃ r ∈ s.customers[m]?, r.LockedFor i)
    (hlive : ∀ k, w = some k → ∃ row ∈ s.methods[k]?, row.LiveFor i) :
    Kept clears s i (s.writeDefault i m w, .flushing writes, []) where
  refs clears' hother hown := by
    refine h.writeDefault hlocked (fun k hk => ?_) fun j c hc => ?_
    · obtain ⟨row, hrow, hfor⟩ := hlive k hk
      obtain ⟨row', hrow', howned⟩ := ht m k (hk ▸ List.mem_cons_self)
      obtain rfl := Option.some.inj (hrow.symm.trans hrow')
      exact ⟨row, hrow, howned, hfor⟩
    · by_cases hj : j = i
      · subst hj
        rcases List.mem_cons.mp (hclears c hc) with hhead | htail
        · exact .inr ⟨rfl, (Write.setDefault.inj hhead).1⟩
        · exact .inl (hown c htail)
      · exact .inl (hother j c hj hc)
  assertion c k hmem := ht c k (List.mem_cons_of_mem _ hmem)
  owned _ _ h := h
  owners h := h

theorem kept_softDelete (h : Refs clears s)
    (hclears : ∀ c, clears i c → (Task.flushing (.softDelete m :: writes)).Clears c)
    (ht : Assertion s (.flushing (.softDelete m :: writes))) (hfree : s.Unreferenced i m writes) :
    Kept clears s i (s.writeMethod i m PaymentMethod.softDelete, .flushing writes, []) where
  refs clears' hother hown := by
    refine h.softDelete hfree (fun j c hc => ?_) hown
    by_cases hj : j = i
    · subst hj
      rcases List.mem_cons.mp (hclears c hc) with hhead | htail
      · exact absurd hhead nofun
      · exact hown c htail
    · exact hother j c hj hc
  assertion c k hmem := (ht c k (List.mem_cons_of_mem _ hmem)).writeMethod fun _ => rfl
  owned _ _ h := h.writeMethod fun _ => rfl
  owners h := h.of_owned (List.length_modify ..) fun _ _ h => h.writeMethod fun _ => rfl

theorem kept_commit (h : Refs clears s)
    (hclears : ∀ c, clears i c → (Task.flushing []).Clears c) :
    Kept clears s i (s.commit i, .ended, []) where
  refs clears' hother _ := by
    have hdone : ∀ c, ¬clears i c := fun c hc => List.not_mem_nil (hclears c hc)
    refine (h.commit hdone).mono fun j c hc => ?_
    refine hother j c ?_ hc
    rintro rfl
    exact hdone c hc
  assertion := trivial
  owned _ _ h := h.commit
  owners h := h.of_owned (List.length_map _) fun _ _ h => h.commit

variable {past ls : List (Turn Event Answer)} {p : Pool State Task} {n : ℕ}

theorem Refs.advance (h : Refs clears p.shared) (howners : p.shared.Owners)
    (hi : p.tasks[i]? = some t) (hclears : ∀ c, clears i c → t.Clears c)
    (ht : Assertion p.shared t) (hC : Undisturbed past p (.resumed i answer)) :
    Kept clears p.shared i (t.advance p.shared i answer) := by
  have hdefault : ∀ c m, p.shared.OwnedIn m c →
      Assertion p.shared (.flushing [.setDefault c (some m)]) := by
    intro c m howned c' m' hmem
    obtain ⟨rfl, hm⟩ := Write.setDefault.inj (List.mem_singleton.mp hmem)
    rwa [Option.some.inj hm]
  fun_cases Task.advance p.shared i answer t
  case case2 => exact .of_eq h hclears nofun trivial
  case case3 hfound =>
    exact .of_eq h hclears nofun (State.ownedIn_of_getByCustomerAndProcessorId howners hfound)
  case case4 => exact .of_eq h hclears (fun _ h => h) ht
  case case6 => exact kept_inserting h hclears
  case case7 => exact .of_eq h hclears nofun ht
  case case8 => exact .of_eq h hclears (fun _ h => h) ht
  case case9 hlocked => exact kept_restoring h hclears ht hlocked
  case case10 c m => exact .of_eq h hclears nofun (hdefault c m ht)
  case case11 => exact .of_eq h hclears nofun nofun
  case case12 c m _ => exact .of_eq h hclears nofun (hdefault c m ht)
  case case13 => exact .of_eq h hclears nofun nofun
  case case14 m pm hfound =>
    exact .of_eq h hclears nofun (hdefault _ m (State.ownedIn_of_getById howners hfound))
  case case17 => exact .of_eq h hclears nofun trivial
  case case19 => exact .of_eq h hclears nofun (by simp [Assertion])
  case case20 => exact .of_eq h hclears nofun (by simp [Assertion])
  case case21 => exact .of_eq h hclears nofun (by simp [Assertion])
  case case22 => exact .of_eq h hclears nofun (by simp [Assertion])
  case case23 => exact kept_commit h hclears
  case case24 => exact .of_eq h hclears (fun _ h => h) ht
  case case25 c w writes hlocked =>
    refine kept_setDefault h hclears ht hlocked ?_
    rintro m rfl
    rw [Undisturbed, hi] at hC
    exact hC fun r hr hl => hlocked ⟨r, hr, hl⟩
  case case26 => exact .of_eq h hclears (fun _ h => h) ht
  case case27 m writes hlocked =>
    refine kept_softDelete h hclears ht ?_
    rw [Undisturbed, hi] at hC
    exact hC fun r hr hl => hlocked ⟨r, hr, hl⟩
  case case28 => exact .of_eq h hclears (fun _ h => h) ht
  case case30 => exact .of_eq h hclears (fun _ h => h) ht
  all_goals exact .of_rollback h

/-- The operation `j` is about to clear the default of the customer. -/
def Clears (p : Pool State Task) (j c : ℕ) : Prop := ∃ t ∈ p.tasks[j]?, t.Clears c

/-- What holds in every state of the runs. -/
structure Sound (p : Pool State Task) : Prop where
  refs : Refs (Clears p) p.shared
  owners : p.shared.Owners
  task : ∀ (i : ℕ) (t : Task), p.tasks[i]? = some t → Assertion p.shared t

theorem sound_init : Sound (operations n).system.init where
  refs := by
    have hnone : ∀ (c : ℕ) (r : Versioned (Option ℕ)),
        (operations n).system.init.shared.customers[c]? = some r → r = { committed := none } :=
      fun c r hr => List.eq_of_mem_replicate (List.mem_of_getElem? hr)
    refine ⟨fun c m r hr hm => ?_, fun c m i r hr hm => ?_⟩
    · rw [hnone c r hr] at hm
      exact absurd hm nofun
    · rw [hnone c r hr] at hm
      exact absurd hm nofun
  owners _ h := absurd h (Nat.not_lt_zero _)
  task _ _ hi := absurd hi nofun

theorem Sound.event (h : Sound p) (e : Event) : Sound ((operations n).step p (.event e)).1 := by
  obtain ⟨t, hstep, hclears, ht⟩ : ∃ t : Task, ((operations n).step p (.event e)).1 =
      { shared := p.shared, tasks := p.tasks ++ [t] } ∧ (∀ c, ¬t.Clears c) ∧
        Assertion p.shared t := by
    cases e with
    | save c processorId details setDefault => exact ⟨_, rfl, fun _ h => h, trivial⟩
    | setDefault c m => exact ⟨_, rfl, fun _ h => h, trivial⟩
    | delete m => exact ⟨_, rfl, fun _ h => h, trivial⟩
  rw [hstep]
  refine ⟨h.refs.mono fun j c ⟨t', ht', hc⟩ => ⟨t', ?_, hc⟩, h.owners, fun i t' hi => ?_⟩
  · exact (List.getElem?_append_left (List.getElem?_eq_some_iff.mp ht').1).trans ht'
  · rcases List.mem_append.mp (List.mem_of_getElem? hi) with hold | hnew
    · obtain ⟨j, hj⟩ := List.mem_iff_getElem?.mp hold
      exact h.task j t' hj
    · rw [List.mem_singleton.mp hnew]
      exact ht

theorem invariant : (operations n).Invariant Undisturbed Sound where
  init := sound_init
  event hp _ := hp.event _
  resumed {past p i answer t} h hC hi := by
    have hlt : i < p.tasks.length := (List.getElem?_eq_some_iff.mp hi).1
    have hclears : ∀ c, Clears p i c → t.Clears c := by
      rintro c ⟨t', ht', hc⟩
      rwa [Option.some.inj (hi.symm.trans ht')]
    have hkept := h.refs.advance h.owners hi hclears (h.task i t hi) hC
    refine ⟨hkept.refs _ (fun j c hj ⟨t', ht', hc⟩ => ⟨t', ?_, hc⟩) (fun c hc => ⟨_, ?_, hc⟩),
      hkept.owners h.owners, fun j t' hj => ?_⟩
    · exact (List.getElem?_set_ne (Ne.symm hj)).trans ht'
    · exact List.getElem?_set_self hlt
    · by_cases hji : j = i
      · subst hji
        rw [List.getElem?_set_self hlt] at hj
        rw [← Option.some.inj hj]
        exact hkept.assertion
      · dsimp only at hj
        rw [List.getElem?_set_ne (Ne.symm hji)] at hj
        exact (h.task j t' hj).mono hkept.owned

/-- **The default card is live and owned.** In a run in which, whenever a method is made the
default, it is not deleted for the transaction and no other one has deleted it, and whenever a
method is deleted, it is the default of no customer, nor about to be, the default of each customer
is a method of the customer that is not deleted. -/
theorem defaults_valid {n : ℕ} {ls : List (Turn Event Answer)}
    (h : (operations n).system.Along Undisturbed ls) :
    Valid ((operations n).system.after ls).shared :=
  (invariant.after h).refs.valid

/-- A card is saved and made the default, deleted, and saved again from a repeated event. -/
def savedAgain : List (Turn Event Answer) :=
  [.event (.save 0 "pm_1" "visa" .always), .resumed 0 .executed, .resumed 0 .executed,
    .resumed 0 .executed, .resumed 0 .executed, .resumed 0 .executed, .event (.delete 0),
    .resumed 1 .executed, .resumed 1 .reversed, .resumed 1 .executed, .resumed 1 .executed,
    .resumed 1 .executed, .event (.save 0 "pm_1" "visa" .first), .resumed 2 .executed,
    .resumed 2 .executed, .resumed 2 .executed, .resumed 2 .executed, .resumed 2 .executed]

theorem savedAgain_valid :
    ((operations 1).system.after savedAgain).shared.customers = [{ committed := some 0 }] ∧
      Valid ((operations 1).system.after savedAgain).shared :=
  ⟨by decide, defaults_valid (by decide)⟩

/-- A card is made the default and deleted, side by side: both operations have found the card, and
the deletion commits first. -/
def deletedFirst : List (Turn Event Answer) :=
  [.event (.save 0 "pm_1" "visa" .never), .resumed 0 .executed, .resumed 0 .executed,
    .resumed 0 .executed, .resumed 0 .executed, .event (.setDefault 0 0), .event (.delete 0),
    .resumed 1 .executed, .resumed 2 .executed, .resumed 2 .executed, .resumed 2 .executed,
    .resumed 2 .executed, .resumed 1 .executed, .resumed 1 .executed]

/-- A saved card is saved again from a repeated event, which has found it before it is deleted, and
is made the default. -/
def repeated : List (Turn Event Answer) :=
  [.event (.save 0 "pm_1" "visa" .never), .resumed 0 .executed, .resumed 0 .executed,
    .resumed 0 .executed, .resumed 0 .executed, .event (.save 0 "pm_1" "visa" .always),
    .event (.delete 0), .resumed 1 .executed, .resumed 2 .executed, .resumed 2 .executed,
    .resumed 2 .executed, .resumed 2 .executed, .resumed 1 .executed, .resumed 1 .executed,
    .resumed 1 .executed, .resumed 1 .executed]

/-- The default is a deleted card. -/
theorem not_defaults_valid :
    ¬Valid ((operations 1).system.after deletedFirst).shared ∧
      ¬Valid ((operations 1).system.after repeated).shared := by
  decide

end DefaultCard

end Rapidly.Billing
