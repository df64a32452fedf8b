import Rapidly.Identity.Schema
import Rapidly.Messaging.Webhooks.SafeAddresses
import Rapidly.Transition.Tasks

/-!
# The delivery of webhook events

Transactions create webhook events, and workers take messages of the queue and attempt to
deliver the events they name, as `_webhook_event_send` does. Each attempt is one transaction of
`AsyncSessionMaker`: it is committed when the actor returns and rolled back when it raises, and
the tasks it has dispatched are put into the queue only when it returns (`JobQueueManager`).
Under read-committed isolation every statement sees what has been committed by then.

An attempt is split where others can come in between: the statement that loads the event, the
one that counts undelivered events, the lookup of the host, the request, and the commit. What
the resolver and the endpoint answer is part of the label. An attempt that raises is handed to
the retry middleware of dramatiq, which puts the message back with one more retry, or drops it
when its retries are used up. Attempts are numbered, and the number stands for the id of the
delivery an attempt creates.

The database and the queue are assumed to work. Messages may appear in the queue at any time, so
that the dispatch of a new event, a redelivery and a message that Redis hands out twice are all
covered.
-/

namespace Rapidly.Messaging.Webhooks

open Identity Relational Transition

/-! ### The database and the queue -/

structure WebhookEndpoint where
  id : Uuid
  url : String
  enabled : Bool := true
deriving DecidableEq

structure WebhookEvent where
  id : Uuid
  webhookEndpointId : Uuid
  createdAt : Time
  /-- `none` for an archived event. -/
  payload : Option String
  lastHttpCode : Option ℕ := none
  succeeded : Option Bool := none
  skipped : Bool := false
  deletedAt : Option Time := none
deriving DecidableEq

structure WebhookDelivery where
  id : ℕ
  webhookEventId : Uuid
  webhookEndpointId : Uuid
  succeeded : Bool
  httpCode : Option ℕ
  response : Option String
deriving DecidableEq

/-- A message of the actor `webhook_event.send`. -/
structure Message where
  webhookEventId : Uuid
  redeliver : Bool := false
  retries : ℕ := 0
deriving DecidableEq

/-- A task that an attempt dispatches. -/
inductive Job where
  /-- `webhook_event.success`. -/
  | success (webhookEventId : Uuid)
  /-- `webhook_event.failed`. -/
  | failed (webhookEventId : Uuid)
deriving DecidableEq

structure State where
  now : Time := 0
  endpoints : Table WebhookEndpoint.id := Table.empty
  events : Table WebhookEvent.id := Table.empty
  deliveries : List WebhookDelivery := []
  queue : List Message := []
  jobs : List Job := []

/-- The settings an attempt depends on, and how `urlparse` takes a URL apart. -/
structure Config where
  /-- `settings.ENV == Environment.development`. -/
  development : Bool := false
  /-- `settings.WEBHOOK_MAX_RETRIES`. -/
  maxRetries : ℕ := 10
  urlparse : String → Option ParseResult

/-- The minute of `is_latest_event`, in microseconds. -/
def minute : Time := 60000000

/-- The events that `count_undelivered_older_than` counts for an event. -/
def State.undelivered (s : State) (event : WebhookEvent) : List WebhookEvent :=
  s.events.select fun e =>
    e.deletedAt = none ∧ e.webhookEndpointId = event.webhookEndpointId ∧ e.id ≠ event.id ∧
      (∀ d ∈ s.deliveries, d.webhookEventId ≠ e.id) ∧ e.createdAt < event.createdAt ∧
      s.now - minute ≤ e.createdAt

/-! ### The outcome of a request -/

/-- How `client.post` and `raise_for_status` end. -/
inductive PostOutcome where
  /-- A response, with the text of the error that `raise_for_status` raises for it. -/
  | response (status : ℕ) (text statusError : String)
  /-- An `httpx.HTTPError` or `SSLError`, before or after the request is sent. -/
  | httpError (sent : Bool) (message : String)
  /-- Another exception. -/
  | unexpected (sent : Bool)
deriving DecidableEq

/-- The request is sent. -/
def PostOutcome.sent : PostOutcome → Bool
  | .response .. => true
  | .httpError sent _ => sent
  | .unexpected sent => sent

/-- `raise_for_status` does not raise. -/
def isSuccess (status : ℕ) : Prop := 200 ≤ status ∧ status < 300

instance (status : ℕ) : Decidable (isSuccess status) := inferInstanceAs (Decidable (_ ∧ _))

/-- The delivery and the event as an attempt leaves them, and the task it dispatches. -/
structure Saved where
  /-- `delivery.succeeded`, and `event.succeeded`. -/
  succeeded : Bool
  httpCode : Option ℕ
  response : Option String
  job : Option Job
deriving DecidableEq

/-- An attempt raises, and its transaction is rolled back. -/
inductive Raised where
  | retry
  | valueError
deriving DecidableEq

/-- `response.text[:2048] if response.text else None`. -/
def responseText (text : String) : Option String :=
  if text = "" then none else some (String.ofList (text.toList.take 2048))

/-- The end of an attempt after its request: the clauses `except`, `else` and `finally`. -/
def conclude (canRetry : Bool) (eventId : Uuid) : PostOutcome → Except Raised Saved
  | .response status text statusError =>
    if isSuccess status then
      .ok
        { succeeded := true, httpCode := some status, response := responseText text
          job := some (.success eventId) }
    else if canRetry then .error .retry
    else
      .ok
        { succeeded := false, httpCode := some status
          response := some ((responseText text).getD statusError)
          job := some (.failed eventId) }
  | .httpError _ message =>
    if canRetry then .error .retry
    else
      .ok
        { succeeded := false, httpCode := none, response := some message
          job := some (.failed eventId) }
  | .unexpected _ => .error .valueError

/-- The end of an attempt whose URL is rejected. -/
def rejectedUrl : Saved where
  succeeded := false
  httpCode := none
  response := some "URL resolves to a private/internal IP address"
  job := none

/-- The end of an attempt in development. -/
def notSent (eventId : Uuid) : Saved where
  succeeded := true
  httpCode := some 200
  response := none
  job := some (.success eventId)

/-! ### Attempts -/

/-- What a transaction does next. -/
inductive Attempt where
  /-- The commit of a transaction that has created events. -/
  | creating (events : List WebhookEvent)
  /-- `get_by_id`. -/
  | loading (m : Message)
  /-- `is_latest_event`. -/
  | counting (m : Message) (event : WebhookEvent) (url : String)
  /-- `_resolve_safe_addrs`; the ids of the events that were there to be counted are kept for
  the specification. -/
  | resolving (m : Message) (event : WebhookEvent) (url : String) (seen : List Uuid)
  /-- `client.post`. -/
  | posting (m : Message) (event : WebhookEvent) (seen : List Uuid)
  /-- The commit. -/
  | saving (m : Message) (event : WebhookEvent) (saved : Saved)
  | finished
deriving DecidableEq

/-- What happens outside of the attempts. -/
inductive Event where
  | tick (now : Time)
  /-- A transaction has created events. -/
  | begun (events : List WebhookEvent)
  | enqueued (m : Message)
  /-- A worker takes the message at a position of the queue. -/
  | taken (position : ℕ)
  | endpointChanged (endpoint : WebhookEndpoint)
  | eventDeleted (id : Uuid) (now : Time)
  /-- `archive_payloads`, for one event. -/
  | archived (id : Uuid)
  /-- `skip_pending_by_endpoint`. -/
  | pendingSkipped (endpointId : Uuid)
deriving DecidableEq

/-- How the next step of an attempt turns out. -/
inductive Answer where
  | executed
  | rolledBack
  | resolved (addrs : Lookup)
  | posted (outcome : PostOutcome)
deriving DecidableEq

def Answer.lookup : Answer → Lookup
  | .resolved addrs => addrs
  | _ => none

def Answer.outcome : Answer → PostOutcome
  | .posted outcome => outcome
  | _ => .unexpected false

/-- What is observed of a run. -/
inductive Observation where
  /-- Attempt `i` has not sent a request: the URL is rejected, this is development, or the
  client has failed. -/
  | attempted (i : ℕ) (eventId : Uuid)
  /-- Attempt `i` has sent a request for an event. -/
  | sent (i : ℕ) (event : WebhookEvent) (now : Time) (outcome : PostOutcome)
  /-- Attempt `i` has failed, and the message will not be tried again. -/
  | gaveUp (i : ℕ) (eventId : Uuid)
deriving DecidableEq

/-- What is observed of a call of `client.post`. -/
def observe (i : ℕ) (event : WebhookEvent) (now : Time) (outcome : PostOutcome) : Observation :=
  if outcome.sent then .sent i event now outcome else .attempted i event.id

variable (config : Config)

/-- Rewrite the row of an event. -/
def State.modifyEvents (s : State) (p : WebhookEvent → Prop) [DecidablePred p]
    (f : WebhookEvent → WebhookEvent) (hf : ∀ e, (f e).id = e.id) : State :=
  { s with events := s.events.modify p f hf }

/-- The retry middleware: the message of an attempt that has raised is put back, unless its
retries are used up. -/
def State.requeue (s : State) (m : Message) : State :=
  if m.retries < config.maxRetries then
    { s with queue := s.queue ++ [{ m with retries := m.retries + 1 }] }
  else s

section Requeue

variable {config} {s : State} {m : Message}

@[simp] theorem requeue_events : (s.requeue config m).events = s.events := by
  rw [State.requeue]
  split <;> rfl

@[simp] theorem requeue_deliveries : (s.requeue config m).deliveries = s.deliveries := by
  rw [State.requeue]
  split <;> rfl

end Requeue

/-- What is observed of it. -/
def lost (i : ℕ) (m : Message) : List Observation :=
  if m.retries < config.maxRetries then [] else [.gaveUp i m.webhookEventId]

def WebhookEvent.markSkipped (e : WebhookEvent) : WebhookEvent := { e with skipped := true }

def WebhookEvent.archive (e : WebhookEvent) : WebhookEvent := { e with payload := none }

def WebhookEvent.delete (now : Time) (e : WebhookEvent) : WebhookEvent :=
  { e with deletedAt := some now }

/-- The attributes that an attempt sets, given the event it has loaded. -/
def WebhookEvent.record (event : WebhookEvent) (saved : Saved) (e : WebhookEvent) :
    WebhookEvent :=
  { e with
    lastHttpCode := saved.httpCode <|> e.lastHttpCode
    succeeded := some saved.succeeded
    skipped := if event.skipped then false else e.skipped }

/-- The row of the delivery. -/
def Saved.delivery (saved : Saved) (i : ℕ) (event : WebhookEvent) : WebhookDelivery where
  id := i
  webhookEventId := event.id
  webhookEndpointId := event.webhookEndpointId
  succeeded := saved.succeeded
  httpCode := saved.httpCode
  response := saved.response

/-- The commit of an attempt: the event, the delivery and the dispatched task. -/
def State.save (s : State) (i : ℕ) (event : WebhookEvent) (saved : Saved) : State :=
  { s.modifyEvents (fun e => e.id = event.id) (.record event saved) fun _ => rfl with
    deliveries := s.deliveries ++ [saved.delivery i event]
    jobs := s.jobs ++ saved.job.toList }

/-- The first statement of an attempt, and the checks of the event it loads. -/
def load (s : State) (m : Message) : State × Attempt × List Observation :=
  match (s.events.get m.webhookEventId).filter fun e => e.deletedAt = none with
  | none => (s.requeue config m, .finished, [])
  | some event =>
    match s.endpoints.get event.webhookEndpointId with
    | none => (s.requeue config m, .finished, [])
    | some endpoint =>
      if ¬endpoint.enabled then
        (s.modifyEvents (fun e => e.id = event.id) .markSkipped fun _ => rfl, .finished, [])
      else if event.payload = none then (s, .finished, [])
      else if event.succeeded = some true ∧ ¬m.redeliver then (s, .finished, [])
      else (s, .counting m event endpoint.url, [])

/-- The next step of attempt `i`. -/
def advance (s : State) (i : ℕ) (answer : Answer) :
    Attempt → State × Attempt × List Observation
  | .creating events =>
    if answer = .rolledBack then (s, .finished, [])
    else ({ s with events := events.foldl Table.insert s.events }, .finished, [])
  | .loading m => load config s m
  | .counting m event url =>
    if s.undelivered event = [] then
      (s, .resolving m event url (s.events.rows.map WebhookEvent.id), [])
    else (s.requeue config m, .finished, lost config i m)
  | .resolving m event url seen =>
    match resolveSafeAddrs config.urlparse (fun _ => answer.lookup) url with
    | none => (s, .saving m event rejectedUrl, [.attempted i event.id])
    | some _ =>
      if config.development then
        (s, .saving m event (notSent event.id), [.attempted i event.id])
      else (s, .posting m event seen, [])
  | .posting m event _ =>
    match conclude (m.retries < config.maxRetries) event.id answer.outcome with
    | .ok saved => (s, .saving m event saved, [observe i event s.now answer.outcome])
    | .error _ =>
      (s.requeue config m, .finished, observe i event s.now answer.outcome :: lost config i m)
  | .saving _ event saved =>
    (s.save i event saved, .finished, if saved.succeeded then [] else [.gaveUp i event.id])
  | .finished => (s, .finished, [])

/-- What happens outside of the attempts. -/
def arrive (s : State) : Event → State × List Attempt × List Observation
  | .tick now => ({ s with now := max s.now now }, [], [])
  | .begun events => (s, [.creating events], [])
  | .enqueued m => ({ s with queue := s.queue ++ [m] }, [], [])
  | .taken position =>
    match s.queue[position]? with
    | none => (s, [], [])
    | some m => ({ s with queue := s.queue.eraseIdx position }, [.loading m], [])
  | .endpointChanged endpoint =>
    ({ s with
        endpoints := (s.endpoints.insert endpoint).modify (fun e => e.id = endpoint.id)
          (fun e => { endpoint with id := e.id }) fun _ => rfl }, [], [])
  | .eventDeleted id now =>
    (s.modifyEvents (fun e => e.id = id) (.delete now) fun _ => rfl, [], [])
  | .archived id =>
    (s.modifyEvents (fun e => e.id = id) .archive fun _ => rfl, [], [])
  | .pendingSkipped endpointId =>
    (s.modifyEvents
      (fun e => e.webhookEndpointId = endpointId ∧ e.succeeded = none ∧ e.skipped = false ∧
        e.deletedAt = none)
      .markSkipped fun _ => rfl, [], [])

/-- The transactions and the stores they share. -/
def deliveryTasks : Tasks State Attempt Event Answer Observation where
  init := {}
  arrive s _ e := arrive s e
  advance := advance config

/-! ### One endpoint and one event -/

def hooksConfig : Config where
  urlparse := fun _ => some ⟨"https", some "hooks.example.com", some none⟩

def hooksEndpoint : WebhookEndpoint := { id := 1, url := "https://hooks.example.com/x" }

def firstEvent : WebhookEvent :=
  { id := 10, webhookEndpointId := 1, createdAt := 0, payload := some "first" }

end Rapidly.Messaging.Webhooks
