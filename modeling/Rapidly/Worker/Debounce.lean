import Rapidly.KeyValue.Lifetime
import Rapidly.Transition.Tasks

/-!
# Debounced jobs

Jobs with the same debounce key share a hash in Redis. `set_debounce_key` makes the message that
is being enqueued the owner of the hash and marks it as not executed; the message is pushed to
its queue afterwards. When a worker takes a message, `DebounceMiddleware` reads the hash: it skips
the message if the hash is marked as executed, and otherwise if another message owns it, unless
the hash has waited for too long. After a successful execution it marks the hash as executed.

This is the model of the jobs of one debounce key, on any number of workers. Messages are
numbered in the order in which they are enqueued, which stands for their fresh identifiers. A
queued message may be taken at any time, so that every choice of delays is covered. What the
broker is relied on for: an exception that a middleware raises, apart from `SkipMessage`, is
logged and does not stop the message; a message that is not acknowledged when its worker dies is
delivered again; a job that raises is put back as the same message, or given up.
-/

namespace Rapidly.Worker.Debounce

open KeyValue Transition

/-- A message, by the order in which it was enqueued. -/
abbrev MessageId := ℕ

/-- The debounce hash; a field that is not there is `none`. -/
structure DebounceHash where
  enqueueTimestamp : Option ℕ := none
  messageId : Option MessageId := none
  executed : Option Bool := none
deriving DecidableEq

/-- `_KEY_TTL`, in seconds. -/
def keyTtl : ℕ := 3600

/-- Redis and the broker. -/
structure State where
  /-- The time, in milliseconds. -/
  now : ℕ := 0
  /-- The debounce key. -/
  hash : Store Unit DebounceHash := Store.empty
  /-- The messages that wait for a worker. -/
  queue : List MessageId := []
  /-- How many messages have been enqueued. -/
  enqueued : ℕ := 0

/-- How a message that is executed came through the middleware. -/
inductive Mode where
  /-- The hash was not there, or could not be read: no option has been set. -/
  | unobserved
  | owner
  | maxThreshold
deriving DecidableEq

/-- What a producer or a worker does next. -/
inductive Job where
  /-- `_push_batch`, after `set_debounce_key`. -/
  | pushing (id : MessageId)
  /-- `before_process_message`. -/
  | checking (id : MessageId)
  /-- The job is about to be started. -/
  | starting (id : MessageId) (mode : Mode)
  /-- The job is running; `after_process_message` comes next. -/
  | running (id : MessageId) (mode : Mode)
  | finished
deriving DecidableEq

inductive Event where
  /-- A message is built, and `set_debounce_key` is executed for it. -/
  | enqueue
  /-- A worker takes a message from the queue. -/
  | deliver (id : MessageId)
  | elapse (milliseconds : ℕ)
deriving DecidableEq

/-- How the next step turns out. -/
inductive Answer where
  | done
  /-- An exception: Redis cannot be reached or, where the job is running, the job fails; in that
  case it is retried or given up. -/
  | failed (retry : Bool)
  /-- The job succeeds, but what `after_process_message` has to write is not written. -/
  | unrecorded
  /-- The process dies. -/
  | crashed
deriving DecidableEq

inductive Observation where
  | enqueued (id : MessageId)
  /-- The execution of a message starts; `i` is the number of the worker's task. -/
  | started (i : ℕ)
  | skipped (id : MessageId)
deriving DecidableEq

namespace State

variable (s : State)

/-- `now_timestamp`. -/
def nowTimestamp : ℕ := s.now / 1000

/-- `set_debounce_key`: `HSETNX`, `HSET`, `HSET`, `EXPIRE`. -/
def setDebounceKey (id : MessageId) : State :=
  let old := (s.hash.get s.now ()).getD {}
  { s with
    hash := s.hash.setex s.now () keyTtl
      { enqueueTimestamp := some (old.enqueueTimestamp.getD s.nowTimestamp)
        messageId := some id
        executed := some false } }

/-- `after_process_message` after an execution by the owner: `HSET executed 1` and
`HDEL enqueue_timestamp`. -/
def markExecuted : State :=
  match s.hash.entryAt s.now () with
  | none => { s with hash := s.hash.put () (some ⟨{ executed := some true }, none⟩) }
  | some e =>
    { s with
      hash := s.hash.put () (some { e with
        value := { e.value with executed := some true, enqueueTimestamp := none } }) }

/-- `after_process_message` after an execution beyond the maximal threshold:
`HSET enqueue_timestamp` and `EXPIRE`. -/
def bumpTimestamp : State :=
  let old := (s.hash.get s.now ()).getD {}
  { s with
    hash := s.hash.setex s.now () keyTtl { old with enqueueTimestamp := some s.nowTimestamp } }

/-- `after_process_message`. Without the options of `before_process_message` it raises in front
of its commands. -/
def afterProcess (mode : Mode) (succeeded : Bool) : State :=
  match mode with
  | .unobserved => s
  | .maxThreshold => s.bumpTimestamp
  | .owner => if succeeded then s.markExecuted else s

/-- Put a message into the queue. -/
def push (id : MessageId) : State := { s with queue := s.queue ++ [id] }

end State

/-- An event, with the number of tasks so far. -/
def arrive (s : State) (_ : ℕ) : Event → State × List Job × List Observation
  | .enqueue =>
    ({ s.setDebounceKey s.enqueued with enqueued := s.enqueued + 1 }, [.pushing s.enqueued],
      [.enqueued s.enqueued])
  | .deliver id =>
    if id ∈ s.queue then ({ s with queue := s.queue.erase id }, [.checking id], [])
    else (s, [], [])
  | .elapse milliseconds => ({ s with now := s.now + milliseconds }, [], [])

section Model

-- `_max_threshold` of each message, in seconds
variable (maxThreshold : MessageId → ℕ)

/-- `before_process_message`: how the message is executed, `none` if it is skipped. A missing
field of a hash that is there raises, and the message is executed. -/
def beforeProcess (s : State) (id : MessageId) : Option Mode :=
  match s.hash.get s.now () with
  | none => some .unobserved
  | some data =>
    if data.executed = some true then none
    else
      match data.messageId, data.enqueueTimestamp with
      | some owner, some enqueueTs =>
        if owner = id then some .owner
        else if enqueueTs + maxThreshold id < s.nowTimestamp then some .maxThreshold
        else none
      | _, _ => some .unobserved

/-- One step of a producer or a worker; `i` is the number of its task. -/
def advance (s : State) (i : ℕ) : Answer → Job → State × Job × List Observation
  | .done, .pushing id => (s.push id, .finished, [])
  | _, .pushing _ => (s, .finished, [])
  | .crashed, .checking id => (s.push id, .finished, [])
  | .done, .checking id =>
    match beforeProcess maxThreshold s id with
    | none => (s, .finished, [.skipped id])
    | some mode => (s, .starting id mode, [])
  | _, .checking id => (s, .starting id .unobserved, [])
  | .crashed, .starting id _ => (s.push id, .finished, [])
  | _, .starting id mode => (s, .running id mode, [.started i])
  | .done, .running _ mode => (s.afterProcess mode true, .finished, [])
  | .failed retry, .running id mode =>
    (if retry then (s.afterProcess mode false).push id else s.afterProcess mode false,
      .finished, [])
  | .unrecorded, .running _ _ => (s, .finished, [])
  | .crashed, .running id _ => (s.push id, .finished, [])
  | _, .finished => (s, .finished, [])

/-- The producers and the workers. -/
def jobs : Tasks State Job Event Answer Observation where
  init := {}
  arrive := arrive
  advance := advance maxThreshold

end Model

end Rapidly.Worker.Debounce
