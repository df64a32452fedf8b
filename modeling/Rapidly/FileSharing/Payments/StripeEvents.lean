import Rapidly.FileSharing.Schema
import Rapidly.Relational.ReadCommitted
import Rapidly.Transition.Tasks

/-!
# Provider events and the status of a payment

The checkout requests, which record payments with `_pg_create_payment`, and the handlers of
`integrations/stripe/workers.py` for `checkout.session.completed`, `payment_intent.succeeded` and
`payment_intent.payment_failed`, side by side, one SQL statement on the payments at a time. A
handler looks its payment up by the id that the event carries, and writes the status later; what it
finds in between in other tables and at Stripe is part of the labels.

* `payments` is the system, for any number of payments, events and handlers.
* `status_agrees` says in which runs the status is `completed` exactly once a success event was
  delivered, in whatever order all of this happens, and stays so.
-/

namespace Rapidly.FileSharing

open Identity Relational Transition

namespace Payments

namespace StripeEvents

/-- The metadata that an object of Stripe carries. -/
structure Metadata where
  platform : Option String := none
  channelSlug : Option String := none
  shareId : Option String := none
  productId : Option String := none
deriving DecidableEq

structure CheckoutSession where
  id : String
  metadata : Metadata := {}
  /-- The address and the name of `customer_details`. -/
  email : Option String := none
  name : Option String := none
  amountTotal : Option ℤ := none
  currency : Option String := none
  paymentIntent : Option String := none
deriving DecidableEq

structure PaymentIntent where
  id : String
  metadata : Metadata := {}
deriving DecidableEq

/-- The events that have to do with payments. -/
inductive StripeEvent where
  | checkoutSessionCompleted (session : CheckoutSession)
  | paymentIntentSucceeded (intent : PaymentIntent)
  | paymentIntentPaymentFailed (intent : PaymentIntent)
deriving DecidableEq

/-- It is an event of success for the payment: it carries its ids. -/
def StripeEvent.succeeds : StripeEvent → FileSharePayment → Bool
  | .checkoutSessionCompleted session, p => p.stripeCheckoutSessionId = some session.id
  | .paymentIntentSucceeded intent, p => p.stripePaymentIntentId = some intent.id
  | .paymentIntentPaymentFailed _, _ => false

/-- What a handler writes to a payment. -/
inductive Update where
  | complete (session : CheckoutSession) (email : String) (customerId : Uuid)
    (paymentId : Option Uuid)
  | succeed (intent : PaymentIntent)
  | fail (intent : PaymentIntent)
deriving DecidableEq

/-- The event that the update is made for. -/
def Update.event : Update → StripeEvent
  | .complete session _ _ _ => .checkoutSessionCompleted session
  | .succeed intent => .paymentIntentSucceeded intent
  | .fail intent => .paymentIntentPaymentFailed intent

/-- The columns that the `UPDATE` sets. -/
def Update.apply : Update → FileSharePayment → FileSharePayment
  | .complete session email customerId paymentId, p =>
    { p with
      buyerEmail := some email
      buyerName := session.name
      status := .completed
      amountCents := session.amountTotal.getD 0
      currency := if session.currency.getD "" = "" then "usd" else session.currency.getD ""
      customerId := some customerId
      stripePaymentIntentId := session.paymentIntent
      paymentId := paymentId.orElse fun _ => p.paymentId }
  | .succeed intent, p =>
    { p with status := .completed, stripePaymentIntentId := some intent.id }
  | .fail _, p => { p with status := .failed }

/-- What a checkout request records. -/
structure NewPayment where
  id : Uuid
  sessionId : Uuid
  amountCents : ℤ
  currency : String
  platformFeeCents : ℤ
  stripeCheckoutSessionId : Option String := none
  stripePaymentIntentId : Option String := none
  paymentMethodId : Option Uuid := none
deriving DecidableEq

/-- The row of a new payment. -/
def NewPayment.row (new : NewPayment) : FileSharePayment where
  id := new.id
  sessionId := new.sessionId
  amountCents := new.amountCents
  currency := new.currency
  platformFeeCents := new.platformFeeCents
  stripeCheckoutSessionId := new.stripeCheckoutSessionId
  stripePaymentIntentId := new.stripePaymentIntentId
  paymentMethodId := new.paymentMethodId

/-- A row of the table of payments, from its `INSERT` on. -/
abbrev Row := Versioned (Option FileSharePayment)

/-- The rows, in the order of their insertion. -/
structure State where
  rows : List Row := []

def State.getByStripeCheckoutSessionId (s : State) (id : String) :
    Option (Option (ℕ × FileSharePayment)) :=
  getOneOrNone s.rows fun p => p.stripeCheckoutSessionId = some id

def State.getByStripePaymentIntentId (s : State) (id : String) :
    Option (Option (ℕ × FileSharePayment)) :=
  getOneOrNone s.rows fun p => p.stripePaymentIntentId = some id

/-- Another transaction has inserted a payment for the same checkout session. -/
def State.Inserting (s : State) (i : ℕ) (p : FileSharePayment) : Prop :=
  p.stripeCheckoutSessionId ≠ none ∧ ∃ r ∈ s.rows, ∃ w ∈ r.pending, w.1 ≠ i ∧
    ∃ q ∈ w.2, q.stripeCheckoutSessionId = p.stripeCheckoutSessionId

instance (s : State) (i : ℕ) (p : FileSharePayment) : Decidable (s.Inserting i p) :=
  inferInstanceAs (Decidable (_ ∧ ∃ r ∈ s.rows, ∃ w ∈ r.pending, _ ∧ ∃ q ∈ w.2, _))

/-- The unique index rejects the payment. -/
def State.Recorded (s : State) (p : FileSharePayment) : Prop :=
  p.stripeCheckoutSessionId ≠ none ∧ ∃ r ∈ s.rows, ∃ q ∈ r.committed,
    q.stripeCheckoutSessionId = p.stripeCheckoutSessionId

instance (s : State) (p : FileSharePayment) : Decidable (s.Recorded p) :=
  inferInstanceAs (Decidable (_ ∧ ∃ r ∈ s.rows, ∃ q ∈ r.committed, _))

/-- The row of a payment that a transaction has inserted. -/
def insertedRow (i : ℕ) (p : FileSharePayment) : Row where
  committed := none
  pending := some (i, some p)

/-- Change one row. -/
def State.modify (s : State) (k : ℕ) (f : Row → Row) : State := { s with rows := s.rows.modify k f }

/-- A checkout request, or the handler of an event. -/
inductive Task where
  /-- The request is about to record a payment. -/
  | inserting (payment : FileSharePayment)
  /-- It has recorded it, and ends with a commit or a rollback. -/
  | inserted (row : ℕ)
  /-- The handler is about to look its payment up. -/
  | handling (event : StripeEvent)
  /-- It looks the share up, the customer and the charge. -/
  | collecting (session : CheckoutSession) (found : Option ℕ)
  /-- It is about to write the payment. -/
  | updating (update : Update) (row : ℕ)
  /-- It ends with a commit or a rollback, after an update or without one. -/
  | updated (update : Update) (row : ℕ)
  | ending (event : StripeEvent) (completed : Option ℕ)
  | ended
  | failed
deriving DecidableEq

/-- How the next step of a task turns out. -/
inductive Answer where
  | executed
  /-- The share is not there. -/
  | missing
  /-- The customer, and the payment record of the charge if there is one. -/
  | collected (customerId : Uuid) (paymentId : Option Uuid)
  | raised
deriving DecidableEq

inductive Event where
  /-- A checkout request has come to record its payment. -/
  | checkout (new : NewPayment)
  /-- The stored event is taken from the queue. -/
  | delivered (event : StripeEvent)
deriving DecidableEq

inductive Obs where
  | delivered (event : StripeEvent)
  /-- The handler of the event has committed. -/
  | handled (event : StripeEvent)
deriving DecidableEq

/-- What a handler does with the payment that it finds. A handler that raises is tried again. -/
def StripeEvent.look (s : State) (event : StripeEvent) : Task :=
  match event with
  | .checkoutSessionCompleted session =>
    if session.metadata.platform ≠ some "rapidly" then .ending event none
    else if session.metadata.shareId.getD "" = "" ∧ session.metadata.productId.getD "" = "" then
      .ending event none
    else match s.getByStripeCheckoutSessionId session.id with
      | none => .handling event
      | some none => .collecting session none
      | some (some (row, p)) =>
        if p.status = .completed then .ending event (some row) else .collecting session (some row)
  | .paymentIntentSucceeded intent =>
    if intent.metadata.platform ≠ some "rapidly" then .ending event none
    else if intent.metadata.channelSlug.getD "" = "" ∧ intent.metadata.shareId.getD "" = "" then
      .ending event none
    else match s.getByStripePaymentIntentId intent.id with
      | none => .handling event
      | some none => .ending event none
      | some (some (row, p)) =>
        if p.status = .completed then .ending event (some row) else .updating (.succeed intent) row
  | .paymentIntentPaymentFailed intent =>
    if intent.metadata.platform ≠ some "rapidly" then .ending event none
    else match s.getByStripePaymentIntentId intent.id with
      | none => .handling event
      | some none => .ending event none
      | some (some (row, p)) =>
        if p.status = .pending then .updating (.fail intent) row else .ending event none

/-- `checkout_session_completed`, once it has collected what it writes. -/
def CheckoutSession.collect (session : CheckoutSession) (found : Option ℕ) (customerId : Uuid)
    (paymentId : Option Uuid) : Task :=
  match session.email, found with
  | some email, some row => .updating (.complete session email customerId paymentId) row
  | _, _ => .ending (.checkoutSessionCompleted session) none

/-- One step of a request or a handler. A statement waits while another transaction holds the
row. -/
def Task.advance (s : State) (i : ℕ) : Answer → Task → State × Task × List Obs
  | .executed, .inserting p =>
    if s.Inserting i p then (s, .inserting p, [])
    else if s.Recorded p then (s, .failed, [])
    else ({ s with rows := s.rows ++ [insertedRow i p] }, .inserted s.rows.length, [])
  | .raised, .inserting _ => (s, .failed, [])
  | .executed, .inserted row => (s.modify row (·.commit i), .ended, [])
  | .raised, .inserted row => (s.modify row (·.rollback i), .failed, [])
  | .executed, .handling event => (s, event.look s, [])
  | .collected customerId paymentId, .collecting session found =>
    (s, session.collect found customerId paymentId, [])
  | .missing, .collecting session _ => (s, .ending (.checkoutSessionCompleted session) none, [])
  | .raised, .collecting session _ => (s, .handling (.checkoutSessionCompleted session), [])
  | .executed, .updating update row =>
    if ∃ r ∈ s.rows[row]?, r.LockedFor i then (s, .updating update row, [])
    else (s.modify row fun r => r.write i (r.committed.map update.apply), .updated update row, [])
  | .raised, .updating update _ => (s, .handling update.event, [])
  | .executed, .updated update row =>
    (s.modify row (·.commit i), .ended, [.handled update.event])
  | .raised, .updated update row => (s.modify row (·.rollback i), .handling update.event, [])
  | .executed, .ending event _ => (s, .ended, [.handled event])
  | .raised, .ending event _ => (s, .handling event, [])
  | _, t => (s, t, [])

/-- The checkout requests and the handlers, from an empty table on. -/
def payments : Tasks State Task Event Answer Obs where
  init := {}
  arrive s _
    | .checkout new => (s, [.inserting new.row], [])
    | .delivered event => (s, [.handling event], [.delivered event])
  advance s i := Task.advance s i

/-- The events that have been delivered. -/
def delivered (log : List Obs) : List StripeEvent :=
  log.filterMap fun
    | .delivered event => some event
    | .handled _ => none

/-- The events that have been handled. -/
def handled (log : List Obs) : List StripeEvent :=
  log.filterMap fun
    | .delivered _ => none
    | .handled event => some event

/-- Once all events have been handled, each payment is completed exactly if a success event for it
was delivered. -/
def Agrees (log : List Obs) (s : State) : Prop :=
  (∀ event ∈ delivered log, event ∈ handled log) → ∀ r ∈ s.rows, ∀ p ∈ r.committed,
    (p.status = .completed ↔ ∃ event ∈ delivered log, event.succeeds p = true)

instance (log : List Obs) (s : State) : Decidable (Agrees log s) :=
  inferInstanceAs (Decidable (_ → ∀ r ∈ s.rows, ∀ p ∈ r.committed, _))

/-- The row is a completed payment. -/
def Row.Completed (r : Row) : Prop := ∃ p ∈ r.committed, p.status = .completed

instance (r : Row) : Decidable r.Completed :=
  inferInstanceAs (Decidable (∃ p ∈ r.committed, _))

/-- Completed payments stay completed in the step. -/
def StayCompleted : System.Condition (Pool State Task) (Turn Event Answer) := fun _ p l =>
  ∀ k < p.shared.rows.length, (∃ r ∈ p.shared.rows[k]?, r.Completed) →
    ∃ r ∈ (payments.step p l).1.shared.rows[k]?, r.Completed

instance (past : List (Turn Event Answer)) (p : Pool State Task) (l : Turn Event Answer) :
    Decidable (StayCompleted past p l) :=
  inferInstanceAs (Decidable (∀ k < _, _))

/-- The committed payments that the event is a success for are in one of the rows. -/
def State.OnlyIn (s : State) (event : StripeEvent) (row : Option ℕ) : Prop :=
  ∀ k < s.rows.length, ∀ r ∈ s.rows[k]?, ∀ p ∈ r.committed, event.succeeds p = true → row = some k

instance (s : State) (event : StripeEvent) (row : Option ℕ) : Decidable (s.OnlyIn event row) :=
  inferInstanceAs (Decidable (∀ k < _, _))

/-- When a payment is committed, no success event for it has been handled; when the handler of a
success event commits, the payments that it is for are the one that it has written or found
completed; a payment that is marked as failed is not completed. -/
def Ordered : System.Condition (Pool State Task) (Turn Event Answer)
  | past, p, .resumed i .executed =>
    match p.tasks[i]? with
    | some (.inserted row) => ∀ r ∈ p.shared.rows[row]?, ∀ w ∈ r.pending, w.1 = i → ∀ q ∈ w.2,
        ∀ event ∈ handled (payments.system.log past), event.succeeds q = false
    | some (.updating (.fail _) row) => ∀ r ∈ p.shared.rows[row]?, ¬r.LockedFor i → ¬r.Completed
    | some (.updated update row) => p.shared.OnlyIn update.event (some row)
    | some (.ending event completed) => p.shared.OnlyIn event completed
    | _ => True
  | _, _, _ => True

instance (past : List (Turn Event Answer)) (p : Pool State Task) (l : Turn Event Answer) :
    Decidable (Ordered past p l) := by
  unfold Ordered
  split
  · split <;> infer_instance
  · infer_instance

/-! ### The rows -/

variable {log : List Obs} {event : StripeEvent} {update : Update} {p q : FileSharePayment}
variable {i j k : ℕ} {r r' : Row} {s s' : State} {t : Task} {answer : Answer}

@[simp] theorem delivered_append_delivered :
    delivered (log ++ [.delivered event]) = delivered log ++ [event] := by
  simp [delivered]

@[simp] theorem delivered_append_handled :
    delivered (log ++ [.handled event]) = delivered log := by
  simp [delivered]

@[simp] theorem handled_append_delivered :
    handled (log ++ [.delivered event]) = handled log := by
  simp [handled]

@[simp] theorem handled_append_handled :
    handled (log ++ [.handled event]) = handled log ++ [event] := by
  simp [handled]

/-- The payment that an update is made for. -/
def Update.Targets : Update → FileSharePayment → Prop
  | .complete session _ _ _, p => p.stripeCheckoutSessionId = some session.id
  | .succeed _, _ => True
  | .fail _, _ => True

@[simp] theorem Update.apply_stripeCheckoutSessionId :
    (update.apply p).stripeCheckoutSessionId = p.stripeCheckoutSessionId := by
  cases update <;> rfl

theorem Update.succeeds_apply (htarget : update.Targets p)
    (h : (update.apply p).status = .completed) (hp : p.status ≠ .completed ∨
      ∀ intent, update ≠ .fail intent) :
    update.event.succeeds (update.apply p) = true := by
  cases update with
  | complete session email customerId paymentId => exact decide_eq_true htarget
  | succeed intent => exact decide_eq_true rfl
  | fail intent => exact absurd h nofun

/-- A completed payment has been paid, and a payment is completed once a success event for it has
been handled. -/
structure Correct (log : List Obs) (p : FileSharePayment) : Prop where
  completed : ∀ event ∈ handled log, event.succeeds p = true → p.status = .completed
  paid : p.status = .completed → ∃ event ∈ delivered log, event.succeeds p = true

/-- The committed version is correct; what is written and not committed will be, and does not take
a completion back. -/
structure Row.Sound (log : List Obs) (r : Row) : Prop where
  committed : ∀ p ∈ r.committed, Correct log p
  pending : ∀ i v, r.pending = some (i, v) → ∃ p, v = some p ∧
    (p.status = .completed → ∃ event ∈ delivered log, event.succeeds p = true) ∧
    ∀ q ∈ r.committed, p.stripeCheckoutSessionId = q.stripeCheckoutSessionId ∧
      (p.status = .completed ∨
        q.status ≠ .completed ∧ p.stripePaymentIntentId = q.stripePaymentIntentId)

/-- What others can rely on when the task `j` changes the row. -/
structure Row.Rely (j : ℕ) (r r' : Row) : Prop where
  locked : ∀ i v, i ≠ j → r.pending = some (i, v) → r' = r
  committed : ∀ q ∈ r.committed, ∃ q' ∈ r'.committed,
    q'.stripeCheckoutSessionId = q.stripeCheckoutSessionId ∧
      (q.status = .completed → q'.status = .completed)

theorem Row.Rely.refl (j : ℕ) (r : Row) : r.Rely j r :=
  ⟨fun _ _ _ _ => rfl, fun q hq => ⟨q, hq, rfl, fun h => h⟩⟩

theorem Row.Sound.write (h : r.Sound log) (hlocked : ¬r.LockedFor i)
    (hcommitted : r.committed = some p) (htarget : update.Targets p)
    (hdelivered : update.event ∈ delivered log)
    (hfail : ∀ intent, update = .fail intent → p.status ≠ .completed) :
    Row.Sound log (r.write i (r.committed.map update.apply)) ∧
      r.Rely i (r.write i (r.committed.map update.apply)) := by
  refine ⟨⟨h.committed, fun j v hv => ?_⟩, fun j v hne hv => ?_, (Row.Rely.refl i r).committed⟩
  · obtain ⟨rfl, rfl⟩ := Prod.mk.inj (Option.some.inj hv)
    refine ⟨update.apply p, by rw [hcommitted]; rfl, fun hcompleted => ?_, fun q hq => ?_⟩
    · refine ⟨update.event, hdelivered, Update.succeeds_apply htarget hcompleted ?_⟩
      by_cases hp : p.status = .completed
      · exact .inr fun intent hu => hfail intent hu hp
      · exact .inl hp
    · obtain rfl := Option.some.inj (hcommitted.symm.trans hq)
      refine ⟨Update.apply_stripeCheckoutSessionId, ?_⟩
      cases update with
      | complete => exact .inl rfl
      | succeed => exact .inl rfl
      | fail intent => exact .inr ⟨hfail intent rfl, rfl⟩
  · exact absurd ⟨_, hv, hne⟩ hlocked

theorem Row.Sound.commit (h : r.Sound log) (hnew : r.committed = none → ∀ p,
    r.pending = some (i, some p) → ∀ event ∈ handled log, event.succeeds p = false) :
    Row.Sound log (r.commit i) ∧ r.Rely i (r.commit i) := by
  rcases r.pending_cases i with ⟨v, hv⟩ | hnot
  · obtain ⟨p, rfl, hpaid, hkept⟩ := h.pending i v hv
    rw [Versioned.commit_eq hv]
    refine ⟨⟨fun p' hp' => ⟨fun e he hsucceeds => ?_, ?_⟩, fun _ _ h => absurd h nofun⟩,
      fun j v' hne hv' => ?_, fun q hq => ⟨p, rfl, (hkept q hq).1, fun hcompleted => ?_⟩⟩
    · obtain rfl := Option.some.inj hp'
      cases hcommitted : r.committed with
      | none =>
        rw [hnew hcommitted p hv e he] at hsucceeds
        exact absurd hsucceeds Bool.false_ne_true
      | some q =>
        obtain ⟨hsession, hcompleted | ⟨hopen, hintent⟩⟩ := hkept q hcommitted
        · exact hcompleted
        · -- the ids are the same, so a success event for it would have completed the payment
          refine absurd ((h.committed q hcommitted).completed e he ?_) hopen
          cases e with
          | checkoutSessionCompleted => rwa [StripeEvent.succeeds, hsession] at hsucceeds
          | paymentIntentSucceeded => rwa [StripeEvent.succeeds, hintent] at hsucceeds
          | paymentIntentPaymentFailed => exact absurd hsucceeds Bool.false_ne_true
    · obtain rfl := Option.some.inj hp'
      exact hpaid
    · exact absurd (congrArg Prod.fst (Option.some.inj (hv.symm.trans hv'))).symm hne
    · rcases (hkept q hq).2 with hstays | ⟨hopen, -⟩
      · exact hstays
      · exact absurd hcompleted hopen
  · rw [Versioned.commit_of_pending hnot]
    exact ⟨h, .refl i r⟩

theorem Row.Sound.rollback (h : r.Sound log) :
    Row.Sound log (r.rollback i) ∧ r.Rely i (r.rollback i) := by
  rcases r.pending_cases i with ⟨v, hv⟩ | hnot
  · rw [Versioned.rollback_eq hv]
    refine ⟨⟨h.committed, fun _ _ h => absurd h nofun⟩, fun j v' hne hv' => ?_,
      (Row.Rely.refl i r).committed⟩
    exact absurd (congrArg Prod.fst (Option.some.inj (hv.symm.trans hv'))).symm hne
  · rw [Versioned.rollback_of_pending hnot]
    exact ⟨h, .refl i r⟩

theorem Row.Sound.delivered (h : r.Sound log) (event : StripeEvent) :
    r.Sound (log ++ [.delivered event]) := by
  refine ⟨fun p hp => ⟨?_, fun hcompleted => ?_⟩, fun i v hv => ?_⟩
  · rw [handled_append_delivered]
    exact (h.committed p hp).completed
  · obtain ⟨e, he, hsucceeds⟩ := (h.committed p hp).paid hcompleted
    rw [delivered_append_delivered]
    exact ⟨e, List.mem_append_left _ he, hsucceeds⟩
  · obtain ⟨p, hp, hpaid, hkept⟩ := h.pending i v hv
    refine ⟨p, hp, fun hcompleted => ?_, hkept⟩
    obtain ⟨e, he, hsucceeds⟩ := hpaid hcompleted
    rw [delivered_append_delivered]
    exact ⟨e, List.mem_append_left _ he, hsucceeds⟩

theorem Row.Sound.handled (h : r.Sound log)
    (hcompleted : ∀ p ∈ r.committed, event.succeeds p = true → p.status = .completed) :
    r.Sound (log ++ [.handled event]) := by
  refine ⟨fun p hp => ⟨fun e he hsucceeds => ?_, ?_⟩, ?_⟩
  · rw [handled_append_handled] at he
    rcases List.mem_append.mp he with hold | hnew
    · exact (h.committed p hp).completed e hold hsucceeds
    · rw [List.mem_singleton.mp hnew] at hsucceeds
      exact hcompleted p hp hsucceeds
  · rw [delivered_append_handled]
    exact (h.committed p hp).paid
  · rw [delivered_append_handled]
    exact h.pending

/-! ### The table -/

/-- The committed row under the number has the property. -/
def HasRow (s : State) (k : ℕ) (P : FileSharePayment → Prop) : Prop :=
  ∃ r q, s.rows[k]? = some r ∧ r.committed = some q ∧ P q

theorem hasRow_of_getOneOrNone {P : FileSharePayment → Bool}
    (h : getOneOrNone s.rows P = some (some (k, p))) :
    HasRow s k fun q => q = p ∧ P q = true := by
  obtain ⟨r, hr, hp, hP⟩ := getOneOrNone_eq_some h
  exact ⟨r, p, hr, hp, rfl, hP⟩

/-- All rows are sound. -/
def Sound (log : List Obs) (s : State) : Prop := ∀ r ∈ s.rows, r.Sound log

/-- What others can rely on in a step of the task `j`. -/
def Rely (j : ℕ) (s s' : State) : Prop :=
  ∀ (k : ℕ) (r : Row), s.rows[k]? = some r → ∃ r', s'.rows[k]? = some r' ∧ r.Rely j r'

theorem Rely.refl (j : ℕ) (s : State) : Rely j s s := fun _ r hr => ⟨r, hr, .refl j r⟩

theorem Sound.modify {f : Row → Row} (hs : Sound log s)
    (hrow : ∀ r, s.rows[k]? = some r → (f r).Sound log ∧ r.Rely i (f r)) :
    Sound log (s.modify k f) ∧ Rely i s (s.modify k f) := by
  refine ⟨fun r hr => ?_, fun j r hj => ?_⟩
  · obtain ⟨j, hj⟩ := List.mem_iff_getElem?.mp hr
    rcases getElem?_modify_cases hj with ⟨r₀, hr₀, -, rfl⟩ | ⟨hold, -⟩
    · exact (hrow r₀ hr₀).1
    · exact hs r (List.mem_of_getElem? hold)
  · by_cases hjk : j = k
    · subst hjk
      exact ⟨f r, getElem?_modify_self hj, (hrow r hj).2⟩
    · exact ⟨r, (getElem?_modify_of_ne hjk).trans hj, .refl i r⟩

theorem Sound.insert (hs : Sound log s) (hp : p.status ≠ .completed) :
    Sound log { s with rows := s.rows ++ [insertedRow i p] } ∧
      Rely i s { s with rows := s.rows ++ [insertedRow i p] } := by
  refine ⟨fun r hr => ?_, fun j r hj => ⟨r, ?_, .refl i r⟩⟩
  · rcases List.mem_append.mp hr with hold | hnew
    · exact hs r hold
    · rw [List.mem_singleton.mp hnew]
      refine ⟨fun q hq => absurd hq (Option.not_mem_none q), fun j v hv => ?_⟩
      obtain ⟨rfl, rfl⟩ := Prod.mk.inj (Option.some.inj hv)
      exact ⟨p, rfl, fun h => absurd h hp, fun q hq => absurd hq (Option.not_mem_none q)⟩
  · dsimp only
    rw [List.getElem?_append_left (List.getElem?_eq_some_iff.mp hj).1]
    exact hj

theorem Sound.delivered (hs : Sound log s) (event : StripeEvent) :
    Sound (log ++ [.delivered event]) s := fun r hr => (hs r hr).delivered event

theorem Sound.handled (hs : Sound log s) (hcompleted : ∀ (k : ℕ) (r : Row), s.rows[k]? = some r →
    ∀ p ∈ r.committed, event.succeeds p = true → p.status = .completed) :
    Sound (log ++ [.handled event]) s := by
  intro r hr
  obtain ⟨k, hk⟩ := List.mem_iff_getElem?.mp hr
  exact (hs r hr).handled (hcompleted k r hk)

/-- The assertion about a task. -/
def Assertion (log : List Obs) (s : State) (i : ℕ) : Task → Prop
  | .inserting p => p.status ≠ .completed
  | .handling event => event ∈ delivered log
  | .collecting session found => .checkoutSessionCompleted session ∈ delivered log ∧
      ∀ k ∈ found,
        HasRow s k fun q => (StripeEvent.checkoutSessionCompleted session).succeeds q = true
  | .updating update k => update.event ∈ delivered log ∧ HasRow s k update.Targets
  | .updated update k => update.event ∈ delivered log ∧ ∃ r q p, s.rows[k]? = some r ∧
      r.committed = some q ∧ r.pending = some (i, some p) ∧
      ((∀ intent, update ≠ .fail intent) → p.status = .completed)
  | .ending event completed => event ∈ delivered log ∧
      ∀ k ∈ completed, HasRow s k fun q => q.status = .completed
  | _ => True

theorem HasRow.mono {P Q : FileSharePayment → Prop} (h : HasRow s k P) (hPQ : ∀ q, P q → Q q) :
    HasRow s k Q := by
  obtain ⟨r, q, hr, hq, hP⟩ := h
  exact ⟨r, q, hr, hq, hPQ q hP⟩

theorem HasRow.rely {P : FileSharePayment → Prop} (h : HasRow s k P) (hrely : Rely j s s')
    (hP : ∀ q q' : FileSharePayment, q'.stripeCheckoutSessionId = q.stripeCheckoutSessionId →
      (q.status = .completed → q'.status = .completed) → P q → P q') : HasRow s' k P := by
  obtain ⟨r, q, hr, hq, hPq⟩ := h
  obtain ⟨r', hr', hrow⟩ := hrely k r hr
  obtain ⟨q', hq', hsession, hstatus⟩ := hrow.committed q hq
  exact ⟨r', q', hr', hq', hP q q' hsession hstatus hPq⟩

theorem Update.Targets.congr (h : update.Targets p)
    (hsession : q.stripeCheckoutSessionId = p.stripeCheckoutSessionId) : update.Targets q := by
  cases update with
  | complete session email customerId paymentId => exact hsession.trans h
  | succeed intent => trivial
  | fail intent => trivial

variable {log' : List Obs}

theorem Assertion.rely (h : Assertion log s i t) (hlog : delivered log ⊆ delivered log')
    (hrely : Rely j s s') (hne : i ≠ j) : Assertion log' s' i t := by
  cases t with
  | inserting p => exact h
  | inserted k => trivial
  | handling event => exact hlog h
  | collecting session found =>
    refine ⟨hlog h.1, fun k hk => (h.2 k hk).rely hrely fun q q' hsession _ hq => ?_⟩
    rw [StripeEvent.succeeds] at hq ⊢
    rwa [hsession]
  | updating update k =>
    exact ⟨hlog h.1, h.2.rely hrely fun q q' hsession _ hq => hq.congr hsession⟩
  | updated update k =>
    obtain ⟨hdelivered, r, q, p, hr, hq, hp, hcompleted⟩ := h
    obtain ⟨r', hr', hrow⟩ := hrely k r hr
    obtain rfl := hrow.locked i _ hne hp
    exact ⟨hlog hdelivered, r', q, p, hr', hq, hp, hcompleted⟩
  | ending event completed =>
    exact ⟨hlog h.1, fun k hk => (h.2 k hk).rely hrely fun q q' _ hstatus hq => hstatus hq⟩
  | ended => trivial
  | failed => trivial

theorem assertion_ending_none (h : event ∈ delivered log) :
    Assertion log s i (.ending event none) :=
  ⟨h, fun k hk => absurd hk (Option.not_mem_none k)⟩

theorem assertion_ending_some {P : FileSharePayment → Bool} (h : event ∈ delivered log)
    (hfound : getOneOrNone s.rows P = some (some (k, p))) (hcompleted : p.status = .completed) :
    Assertion log s i (.ending event (some k)) := by
  refine ⟨h, fun k' hk' => ?_⟩
  obtain rfl := Option.some.inj hk'
  refine (hasRow_of_getOneOrNone hfound).mono fun q hq => ?_
  rw [hq.1]
  exact hcompleted

theorem assertion_look (h : event ∈ delivered log) : Assertion log s i (event.look s) := by
  fun_cases StripeEvent.look s event
  case case3 => exact h
  case case4 => exact ⟨h, fun k hk => absurd hk (Option.not_mem_none k)⟩
  case case5 hfound hcompleted => exact assertion_ending_some h hfound hcompleted
  case case6 hfound _ =>
    refine ⟨h, fun k' hk' => ?_⟩
    obtain rfl := Option.some.inj hk'
    exact (hasRow_of_getOneOrNone hfound).mono fun q hq => hq.2
  case case9 => exact h
  case case11 hfound hcompleted => exact assertion_ending_some h hfound hcompleted
  case case12 hfound _ => exact ⟨h, (hasRow_of_getOneOrNone hfound).mono fun _ _ => trivial⟩
  case case14 => exact h
  case case16 hfound _ => exact ⟨h, (hasRow_of_getOneOrNone hfound).mono fun _ _ => trivial⟩
  all_goals exact assertion_ending_none h

theorem assertion_collect {session : CheckoutSession} {found : Option ℕ} (customerId : Uuid)
    (paymentId : Option Uuid) (h : Assertion log s i (.collecting session found)) :
    Assertion log s i (session.collect found customerId paymentId) := by
  unfold CheckoutSession.collect
  split
  next email k _ =>
    refine ⟨h.1, (h.2 k rfl).mono fun q hq => ?_⟩
    have hsession : q.stripeCheckoutSessionId = some session.id := of_decide_eq_true hq
    exact hsession
  next => exact assertion_ending_none h.1

/-! ### The proof outline -/

/-- After a step the table is sound, and the step of the task can be relied on. -/
structure Kept (log : List Obs) (s : State) (i : ℕ) (r : State × Task × List Obs) : Prop where
  sound : Sound (log ++ r.2.2) r.1
  assertion : Assertion (log ++ r.2.2) r.1 i r.2.1
  rely : Rely i s r.1
  delivered : delivered log ⊆ delivered (log ++ r.2.2)

theorem Kept.of_eq (hs : Sound log s) (ht : Assertion log s i t) : Kept log s i (s, t, []) where
  sound := (List.append_nil log).symm ▸ hs
  assertion := (List.append_nil log).symm ▸ ht
  rely := .refl i s
  delivered := (List.append_nil log).symm ▸ List.Subset.refl _

theorem Kept.of_modify (hs : Sound log s' ∧ Rely i s s') (ht : Assertion log s' i t) :
    Kept log s i (s', t, []) where
  sound := (List.append_nil log).symm ▸ hs.1
  assertion := (List.append_nil log).symm ▸ ht
  rely := hs.2
  delivered := (List.append_nil log).symm ▸ List.Subset.refl _

theorem Kept.of_handled (hs : Sound log s' ∧ Rely i s s')
    (hcompleted : ∀ (k : ℕ) (r : Row), s'.rows[k]? = some r →
      ∀ p ∈ r.committed, event.succeeds p = true → p.status = .completed) :
    Kept log s i (s', .ended, [.handled event]) where
  sound := hs.1.handled hcompleted
  assertion := trivial
  rely := hs.2
  delivered := by rw [delivered_append_handled]; exact List.Subset.refl _

theorem kept_inserted (hs : Sound log s)
    (hnew : ∀ r ∈ s.rows[k]?, ∀ w ∈ r.pending, w.1 = i → ∀ q ∈ w.2,
      ∀ event ∈ handled log, event.succeeds q = false) :
    Kept log s i (s.modify k (·.commit i), .ended, []) := by
  refine .of_modify (hs.modify fun r hr => ?_) trivial
  exact (hs r (List.mem_of_getElem? hr)).commit fun _ q hq => hnew r hr _ hq rfl q rfl

theorem kept_updating (hs : Sound log s) (ht : Assertion log s i (.updating update k))
    (hlocked : ¬∃ r ∈ s.rows[k]?, r.LockedFor i)
    (hfail : ∀ intent, update = .fail intent → ∀ r ∈ s.rows[k]?, ¬r.Completed) :
    Kept log s i (s.modify k fun r => r.write i (r.committed.map update.apply),
      .updated update k, []) := by
  obtain ⟨hdelivered, r, q, hr, hq, htarget⟩ := ht
  have hopen : ∀ intent, update = .fail intent → q.status ≠ .completed :=
    fun intent hu hcompleted => hfail intent hu r hr ⟨q, hq, hcompleted⟩
  have hrow := (hs r (List.mem_of_getElem? hr)).write (fun h => hlocked ⟨r, hr, h⟩) hq htarget
    hdelivered hopen
  refine .of_modify (hs.modify fun r' hr' => ?_)
    ⟨hdelivered, r.write i (r.committed.map update.apply), q, update.apply q, ?_, hq, ?_, ?_⟩
  · obtain rfl := Option.some.inj (hr.symm.trans hr')
    exact hrow
  · exact getElem?_modify_self hr
  · rw [Versioned.pending_write, hq]
    rfl
  · intro hsuccess
    cases update with
    | complete => rfl
    | succeed => rfl
    | fail intent => exact absurd rfl (hsuccess intent)

theorem kept_updated (hs : Sound log s) (ht : Assertion log s i (.updated update k))
    (honly : s.OnlyIn update.event (some k)) :
    Kept log s i (s.modify k (·.commit i), .ended, [.handled update.event]) := by
  obtain ⟨-, r, q, p, hr, hq, hp, hcompleted⟩ := ht
  refine .of_handled (hs.modify fun r' hr' => ?_) fun j r' hj q' hq' hsucceeds => ?_
  · obtain rfl := Option.some.inj (hr.symm.trans hr')
    exact (hs r (List.mem_of_getElem? hr)).commit fun hnone => absurd (hnone.symm.trans hq) nofun
  · rcases getElem?_modify_cases hj with ⟨r₀, hr₀, -, rfl⟩ | ⟨hold, hne⟩
    · obtain rfl := Option.some.inj (hr.symm.trans hr₀)
      rw [Versioned.commit_eq hp] at hq'
      obtain rfl := Option.some.inj hq'
      refine hcompleted fun intent hu => ?_
      rw [hu] at hsucceeds
      exact Bool.false_ne_true hsucceeds
    · have hlt := (List.getElem?_eq_some_iff.mp hold).1
      exact absurd (Option.some.inj (honly j hlt r' hold q' hq' hsucceeds)).symm hne

theorem kept_ending {completed : Option ℕ} (hs : Sound log s)
    (ht : Assertion log s i (.ending event completed)) (honly : s.OnlyIn event completed) :
    Kept log s i (s, .ended, [.handled event]) := by
  refine .of_handled ⟨hs, .refl i s⟩ fun k r hr p hp hsucceeds => ?_
  have hlt := (List.getElem?_eq_some_iff.mp hr).1
  obtain ⟨r', q, hr', hq, hcompleted⟩ := ht.2 k (honly k hlt r hr p hp hsucceeds)
  obtain rfl := Option.some.inj (hr.symm.trans hr')
  obtain rfl := Option.some.inj (hp.symm.trans hq)
  exact hcompleted

theorem kept_rollback (hs : Sound log s) (ht : Assertion log (s.modify k (·.rollback i)) i t) :
    Kept log s i (s.modify k (·.rollback i), t, []) :=
  .of_modify (hs.modify fun r hr => (hs r (List.mem_of_getElem? hr)).rollback) ht

variable {past ls : List (Turn Event Answer)} {pool : Pool State Task}

theorem Sound.advance (hs : Sound (payments.system.log past) pool.shared)
    (hi : pool.tasks[i]? = some t) (ht : Assertion (payments.system.log past) pool.shared i t)
    (hC : Ordered past pool (.resumed i answer)) :
    Kept (payments.system.log past) pool.shared i (t.advance pool.shared i answer) := by
  fun_cases Task.advance pool.shared i answer t
  case case1 => exact .of_eq hs ht
  case case3 p _ _ => exact .of_modify (hs.insert ht) trivial
  case case5 k =>
    rw [Ordered, hi] at hC
    exact kept_inserted hs hC
  case case6 k => exact kept_rollback hs trivial
  case case7 event => exact .of_eq hs (assertion_look ht)
  case case8 customerId paymentId session found =>
    exact .of_eq hs (assertion_collect customerId paymentId ht)
  case case9 session found => exact .of_eq hs (assertion_ending_none ht.1)
  case case10 session found => exact .of_eq hs ht.1
  case case11 update k _ => exact .of_eq hs ht
  case case12 update k hlocked =>
    refine kept_updating hs ht hlocked ?_
    rintro intent rfl r hr
    rw [Ordered, hi] at hC
    exact hC r hr fun h => hlocked ⟨r, hr, h⟩
  case case13 update k => exact .of_eq hs ht.1
  case case14 update k =>
    refine kept_updated hs ht ?_
    rw [Ordered, hi] at hC
    exact hC
  case case15 update k => exact kept_rollback hs ht.1
  case case16 event completed =>
    refine kept_ending hs ht ?_
    rw [Ordered, hi] at hC
    exact hC
  case case17 event completed => exact .of_eq hs ht.1
  case case18 => exact .of_eq hs ht
  all_goals exact .of_eq hs trivial

theorem outline : payments.Outline Ordered Sound Assertion where
  init r hr := absurd hr List.not_mem_nil
  event {_ _ e} h _ := by
    cases e with
    | checkout new => exact (List.append_nil _).symm ▸ h.shared
    | delivered event => exact h.shared.delivered event
  started {past _ e} _ _ k t ht := by
    have hmem := List.mem_of_getElem? ht
    cases e with
    | checkout new =>
      rw [List.mem_singleton.mp hmem]
      exact nofun
    | delivered event =>
      rw [List.mem_singleton.mp hmem]
      change event ∈ StripeEvents.delivered (payments.system.log past ++ [.delivered event])
      rw [delivered_append_delivered]
      exact List.mem_append_right _ (List.mem_singleton_self event)
  undisturbed {past p e} h _ i t hi := by
    refine (h.task i t hi).rely (j := i + 1) ?_ ?_ (by omega)
    · cases e with
      | checkout new => exact (List.append_nil (payments.system.log past)).symm ▸ List.Subset.refl _
      | delivered event =>
        change StripeEvents.delivered _ ⊆
          StripeEvents.delivered (payments.system.log past ++ [.delivered event])
        rw [delivered_append_delivered]
        exact List.subset_append_left _ _
    · cases e <;> exact .refl _ _
  resumed {_ _ _ _ _} h hC hi :=
    have hkept := h.shared.advance hi (h.task _ _ hi) hC
    ⟨hkept.sound, hkept.assertion⟩
  interferes {_ _ _ _ _} h hC hi j other hj hne :=
    have hkept := h.shared.advance hi (h.task _ _ hi) hC
    (h.task j other hj).rely hkept.delivered hkept.rely hne

theorem Rely.stayCompleted (h : Rely j s s') (hk : ∃ r ∈ s.rows[k]?, r.Completed) :
    ∃ r ∈ s'.rows[k]?, r.Completed := by
  obtain ⟨r, hr, p, hp, hcompleted⟩ := hk
  obtain ⟨r', hr', hrow⟩ := h k r hr
  obtain ⟨p', hp', -, hstatus⟩ := hrow.committed p hp
  exact ⟨r', hr', p', hp', hstatus hcompleted⟩

theorem stayCompleted_of_ordered
    (h : Tasks.Holds Sound Assertion (payments.system.log past) pool) (l : Turn Event Answer)
    (hC : Ordered past pool l) : StayCompleted past pool l := by
  intro k _ hk
  rcases l with e | ⟨i, answer⟩
  · cases e <;> exact hk
  · cases hi : pool.tasks[i]? with
    | none =>
      rw [Tasks.step_resumed_none hi]
      exact hk
    | some t =>
      rw [Tasks.step_resumed hi]
      exact (h.shared.advance hi (h.task i t hi) hC).rely.stayCompleted hk

theorem Sound.agrees (h : Sound log s) : Agrees log s := by
  intro hhandled r hr p hp
  have hcorrect := (h r hr).committed p hp
  constructor
  · intro hcompleted
    exact hcorrect.paid hcompleted
  · rintro ⟨event, hdelivered, hsucceeds⟩
    exact hcorrect.completed event (hhandled event hdelivered) hsucceeds

/-- **Payment status is order-independent.** In a run in which a payment is committed before the
handler of a success event for it commits, in which such a handler writes the payment or finds it
completed, and in which no completed payment is marked as failed: completed payments stay completed,
and once all events have been handled, a payment is completed exactly if a success event for it was
delivered. -/
theorem status_agrees {ls : List (Turn Event Answer)} (h : payments.system.Along Ordered ls) :
    payments.system.Along StayCompleted ls ∧
      Agrees (payments.system.log ls) (payments.system.after ls).shared :=
  ⟨outline.along_of_along (fun _ l hholds hC => stayCompleted_of_ordered hholds l hC) h,
    (outline.holds h).shared.agrees⟩

/-- A payment with a saved card. -/
def savedCard : NewPayment where
  id := 1
  sessionId := 1
  amountCents := 500
  currency := "usd"
  platformFeeCents := 50
  stripePaymentIntentId := some "pi_1"

def savedCardIntent : PaymentIntent where
  id := "pi_1"
  metadata := { platform := some "rapidly", channelSlug := some "slug" }

/-- The payment is recorded, fails, and is tried again with success. -/
def failedBefore : List (Turn Event Answer) :=
  [.event (.checkout savedCard), .resumed 0 .executed, .resumed 0 .executed,
    .event (.delivered (.paymentIntentPaymentFailed savedCardIntent)),
    .event (.delivered (.paymentIntentSucceeded savedCardIntent)), .resumed 1 .executed,
    .resumed 2 .executed, .resumed 1 .executed, .resumed 2 .executed, .resumed 1 .executed,
    .resumed 2 .executed, .resumed 2 .executed]

theorem failedBefore_agrees :
    payments.system.Along StayCompleted failedBefore ∧
      Agrees (payments.system.log failedBefore) (payments.system.after failedBefore).shared :=
  status_agrees (by decide)

/-- The payment succeeds before the checkout request has committed. -/
def early : List (Turn Event Answer) :=
  [.event (.checkout savedCard), .resumed 0 .executed,
    .event (.delivered (.paymentIntentSucceeded savedCardIntent)), .resumed 1 .executed,
    .resumed 1 .executed, .resumed 0 .executed]

/-- Both handlers find the payment pending, and the failure is written last. -/
def overwritten : List (Turn Event Answer) :=
  [.event (.checkout savedCard), .resumed 0 .executed, .resumed 0 .executed,
    .event (.delivered (.paymentIntentPaymentFailed savedCardIntent)),
    .event (.delivered (.paymentIntentSucceeded savedCardIntent)), .resumed 1 .executed,
    .resumed 2 .executed, .resumed 2 .executed, .resumed 2 .executed, .resumed 1 .executed,
    .resumed 1 .executed]

/-- A payment that was paid stays pending, and a completed one is marked as failed. -/
theorem not_status_agrees :
    ¬Agrees (payments.system.log early) (payments.system.after early).shared ∧
      ¬payments.system.Along StayCompleted overwritten ∧
      ¬Agrees (payments.system.log overwritten) (payments.system.after overwritten).shared := by
  decide

end StripeEvents

end Payments

end Rapidly.FileSharing
