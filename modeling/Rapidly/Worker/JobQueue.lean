import Mathlib.Data.List.Forall2
import Rapidly.KeyValue.Grouping
import Rapidly.Worker.Debounce

/-!
# The job queue

The `JobQueueManager` of `worker/_enqueue.py`. It collects the jobs and events of a request; a flush
makes a message of each job, and one more of all events, and pushes them to the queues of the
broker in batches, each batch into the hash of the queue first and then into its list.

The messages are made in the order of the jobs and grouped by queue after that, so what is pushed to
a queue depends on the messages for this queue only (`queue_pushAll`, `msgs_pushAll`).

* `flush_calls`: after any calls, a flush delivers every job to its queue, once and in order.
-/

namespace Rapidly.Worker

open KeyValue
open Debounce (MessageId DebounceHash keyTtl)

/-- `TaskQueue` -/
inductive TaskQueue where
  | highPriority
  | mediumPriority
  | lowPriority
  | webhooks
deriving DecidableEq

/-- The name of a queue of the broker. -/
structure QueueName where
  queue : TaskQueue
  /-- The name ends with `.DQ`. -/
  delayed : Bool := false
deriving DecidableEq

/-- `dq_name` -/
def dqName (name : QueueName) : QueueName := { name with delayed := true }

inductive JSONSerializable where
  | mapping (fields : List (String × JSONSerializable))
  | iterable (items : List JSONSerializable)
  | str (s : String)
  | int (n : ℤ)
  /-- A floating-point number, by its bits. -/
  | float (bits : UInt64)
  | bool (b : Bool)
  | uuid (id : ℕ)
  | none

/-- A pending job, as `dispatch_task` is called for it. -/
structure Job where
  actor : String
  args : List JSONSerializable := []
  kwargs : List (String × JSONSerializable) := []
  /-- In milliseconds. -/
  delay : Option ℤ := none

/-- A message of the broker, with the options that are set when it is made. -/
structure Message where
  queueName : QueueName
  actorName : String
  args : List JSONSerializable
  kwargs : List (String × JSONSerializable)
  messageId : MessageId
  redisMessageId : ℕ
  debounceKey : Option String := none
  eta : Option ℤ := none

/-- What a flush knows of an actor. -/
structure Actor where
  queueName : TaskQueue
  /-- `debounce_key`, the function that makes the key. -/
  debounceKey : Option (List JSONSerializable → List (String × JSONSerializable) →
    Option String) := none
  /-- In seconds. -/
  debounceMinThreshold : Option ℤ := none

/-- `dramatiq.Broker`, with an encoder of messages. -/
structure Broker (β : Type) where
  getActor : String → Option Actor
  encode : Message → β

/-- `dramatiq.ActorNotFound` -/
structure ActorNotFound where
  name : String
deriving DecidableEq

/-- The keys `dramatiq:{queue_name}.msgs` and `dramatiq:{queue_name}`, and the debounce hashes. -/
structure Redis (β : Type) where
  msgs : QueueName → List (ℕ × β) := fun _ => []
  queue : QueueName → List ℕ := fun _ => []
  debounce : Store String DebounceHash := Store.empty

/-- What is read when a message is made: the new identifiers, and the time in milliseconds. -/
structure Reading where
  redisMessageId : ℕ
  messageId : MessageId
  now : ℕ
deriving DecidableEq

/-- `_FLUSH_BATCH_SIZE` -/
def flushBatchSize : ℕ := 50

/-- `WORKER_DEFAULT_DEBOUNCE_MIN_THRESHOLD`, in seconds. -/
def defaultDebounceMinThreshold : ℤ := 15

/-! ### Messages -/

section Building

variable {β : Type}

/-- The key and the delay that `set_debounce_key` returns. -/
def debounceOf (actor : Actor) (args : List JSONSerializable)
    (kwargs : List (String × JSONSerializable)) : Option (String × ℤ) := do
  let factory ← actor.debounceKey
  let keyValue ← factory args kwargs
  return ("debounce:" ++ keyValue,
    actor.debounceMinThreshold.getD defaultDebounceMinThreshold * 1000)

/-- What `set_debounce_key` writes. -/
def setDebounceKey (redis : Redis β) (r : Reading) (fullKey : String) : Redis β :=
  let old := (redis.debounce.get r.now fullKey).getD {}
  { redis with
    debounce := redis.debounce.setex r.now fullKey keyTtl
      { enqueueTimestamp := some (old.enqueueTimestamp.getD (r.now / 1000))
        messageId := some r.messageId
        executed := some false } }

/-- The delay of the job, or the longer one of its debounce key. -/
def effectiveDelay (delay : Option ℤ) (debounce : Option (String × ℤ)) : Option ℤ :=
  match debounce with
  | none => delay
  | some (_, debounceDelay) =>
    match delay with
    | some delay => some (max delay debounceDelay)
    | none => some debounceDelay

/-- The delay becomes the time in `eta`, on the delayed queue. -/
def Message.postpone (message : Message) (now : ℕ) (delay : Option ℤ) : Message :=
  match delay with
  | some delay =>
    if delay > 0 then
      { message with queueName := dqName message.queueName, eta := some (now + delay) }
    else message
  | none => message

/-- The message of a job. -/
def message (actor : Actor) (r : Reading) (job : Job) : Message :=
  let debounce := debounceOf actor job.args job.kwargs
  Message.postpone
    { queueName := { queue := actor.queueName }
      actorName := job.actor
      args := job.args
      kwargs := job.kwargs
      messageId := r.messageId
      redisMessageId := r.redisMessageId
      debounceKey := debounce.map Prod.fst }
    r.now (effectiveDelay job.delay debounce)

/-- `_build_message` -/
def buildMessage (broker : Broker β) (redis : Redis β) (r : Reading) (job : Job) :
    Redis β × Except ActorNotFound Message :=
  match broker.getActor job.actor with
  | none => (redis, .error ⟨job.actor⟩)
  | some actor =>
    (match debounceOf actor job.args job.kwargs with
      | none => redis
      | some (fullKey, _) => setDebounceKey redis r fullKey,
      .ok (message actor r job))

/-- The first loop of `flush`. -/
def buildMessages (broker : Broker β) (redis : Redis β) :
    List (Reading × Job) → Redis β × Except ActorNotFound (List Message)
  | [] => (redis, .ok [])
  | (r, job) :: requests =>
    let built := buildMessage broker redis r job
    match built.2 with
    | .error e => (built.1, .error e)
    | .ok message =>
      let rest := buildMessages broker built.1 requests
      (rest.1, rest.2.map (message :: ·))

end Building

/-! ### The manager -/

/-- `JobQueueManager` -/
structure JobQueueManager where
  pendingJobs : List Job := []
  pendingEvents : List ℕ := []

namespace JobQueueManager

variable {β : Type} (mgr : JobQueueManager)

def dispatchTask (job : Job) : JobQueueManager :=
  { mgr with pendingJobs := mgr.pendingJobs ++ [job] }

def enqueueEvents (eventIds : List ℕ) : JobQueueManager :=
  { mgr with pendingEvents := mgr.pendingEvents ++ eventIds }

end JobQueueManager

/-- A call of `dispatch_task` or `enqueue_events`. -/
inductive Enqueue where
  | dispatchTask (job : Job)
  | enqueueEvents (eventIds : List ℕ)

def JobQueueManager.apply (mgr : JobQueueManager) : Enqueue → JobQueueManager
  | .dispatchTask job => mgr.dispatchTask job
  | .enqueueEvents eventIds => mgr.enqueueEvents eventIds

/-- The job for the events. -/
def ingested (eventIds : List ℕ) : Job where
  actor := "event.ingested"
  args := [.iterable (eventIds.map .uuid)]

section Flush

variable {β : Type}

/-- `_push_batch`: `HSET` and `RPUSH`. -/
def pushBatch (redis : Redis β) (name : QueueName) (batch : List (ℕ × β)) : Redis β :=
  { redis with
    msgs := Function.update redis.msgs name (putAll (redis.msgs name) batch)
    queue := Function.update redis.queue name (redis.queue name ++ batch.map Prod.fst) }

/-- The messages of one queue. -/
def pushQueue (redis : Redis β) (name : QueueName) (messages : List (ℕ × β)) : Redis β :=
  (messages.toChunks flushBatchSize).foldl (fun redis batch => pushBatch redis name batch) redis

/-- What a flush leaves behind. -/
structure Flushed (β : Type) where
  manager : JobQueueManager
  redis : Redis β
  raised : Option ActorNotFound := none

/-- The jobs with what is read for each of them. -/
def requests (readings : ℕ → Reading) (jobs : List Job) : List (Reading × Job) :=
  jobs.mapIdx fun i job => (readings i, job)

/-- What is pushed for a message, and where. -/
def Broker.entry (broker : Broker β) (m : Message) : QueueName × (ℕ × β) :=
  (m.queueName, m.redisMessageId, broker.encode m)

/-- `flush` -/
def JobQueueManager.flush (mgr : JobQueueManager) (broker : Broker β) (readings : ℕ → Reading)
    (redis : Redis β) : Flushed β :=
  let mgr := if mgr.pendingEvents ≠ [] then mgr.dispatchTask (ingested mgr.pendingEvents) else mgr
  if mgr.pendingJobs.isEmpty then { manager := {}, redis }
  else
    let built := buildMessages broker redis (requests readings mgr.pendingJobs)
    match built.2 with
    | .error e => { manager := mgr, redis := built.1, raised := some e }
    | .ok messages =>
      let perQueue := grouped (messages.map broker.entry)
      { manager := {}
        redis := perQueue.foldl (fun redis g => pushQueue redis g.1 g.2) built.1 }

end Flush

/-! ### Pushing -/

section Pushing

variable {β : Type} {redis : Redis β} {name name' : QueueName} {batch batch' : List (ℕ × β)}
  {groups : List (QueueName × List (ℕ × β))}

theorem queue_pushBatch : (pushBatch redis name batch).queue name' =
    redis.queue name' ++ if name = name' then batch.map Prod.fst else [] := by
  rw [pushBatch]
  dsimp only
  by_cases h : name = name'
  · rw [if_pos h, h, Function.update_self]
  · rw [if_neg h, Function.update_of_ne (Ne.symm h), List.append_nil]

theorem msgs_pushBatch : (pushBatch redis name batch).msgs name' =
    putAll (redis.msgs name') (if name = name' then batch else []) := by
  rw [pushBatch]
  dsimp only
  by_cases h : name = name'
  · rw [if_pos h, h, Function.update_self]
  · rw [if_neg h, Function.update_of_ne (Ne.symm h)]
    rfl

theorem pushBatch_nil (redis : Redis β) (name : QueueName) : pushBatch redis name [] = redis := by
  rw [pushBatch, List.map_nil, List.append_nil, Function.update_eq_self, putAll, List.foldl_nil,
    Function.update_eq_self]

theorem pushBatch_pushBatch (redis : Redis β) (name : QueueName) (batch batch' : List (ℕ × β)) :
    pushBatch (pushBatch redis name batch) name batch' =
      pushBatch redis name (batch ++ batch') := by
  simp only [pushBatch, Function.update_self, Function.update_idem, putAll_append,
    List.map_append, List.append_assoc]

theorem pushQueue_eq (redis : Redis β) (name : QueueName) (messages : List (ℕ × β)) :
    pushQueue redis name messages = pushBatch redis name messages := by
  have hbatches (batches : List (List (ℕ × β))) (redis : Redis β) :
      batches.foldl (fun redis batch => pushBatch redis name batch) redis =
        pushBatch redis name batches.flatten := by
    induction batches generalizing redis with
    | nil => exact (pushBatch_nil redis name).symm
    | cons batch batches ih =>
      rw [List.foldl_cons, ih, pushBatch_pushBatch, List.flatten_cons]
  rw [pushQueue, hbatches, flatten_toChunks]

/-- The second loop of `flush`. -/
def pushAll (redis : Redis β) (groups : List (QueueName × List (ℕ × β))) : Redis β :=
  groups.foldl (fun redis g => pushQueue redis g.1 g.2) redis

/-- The entries of the groups for one queue. -/
def entriesOf (groups : List (QueueName × List (ℕ × β))) (name : QueueName) :
    List (QueueName × (ℕ × β)) :=
  (groups.flatMap fun g => g.2.map fun e => (g.1, e)).filter fun e => e.1 = name

theorem map_snd_entriesOf_cons (g : QueueName × List (ℕ × β)) :
    (entriesOf (g :: groups) name).map Prod.snd =
      (if g.1 = name then g.2 else []) ++ (entriesOf groups name).map Prod.snd := by
  rw [entriesOf, List.flatMap_cons, List.filter_append, List.map_append, ← entriesOf]
  congr 1
  rw [List.filter_map, List.map_map]
  by_cases h : g.1 = name
  · have hall : g.2.filter ((fun e => decide (e.1 = name)) ∘ fun e => (g.1, e)) = g.2 :=
      List.filter_eq_self.mpr fun _ _ => decide_eq_true h
    rw [if_pos h, hall]
    exact List.map_id _
  · have hnone : g.2.filter ((fun e => decide (e.1 = name)) ∘ fun e => (g.1, e)) = [] :=
      List.filter_eq_nil_iff.mpr fun _ _ htrue => h (of_decide_eq_true htrue)
    rw [if_neg h, hnone]
    rfl

theorem queue_pushAll : (pushAll redis groups).queue name =
    redis.queue name ++ (entriesOf groups name).map fun e => e.2.1 := by
  have hmap (groups : List (QueueName × List (ℕ × β))) :
      ((entriesOf groups name).map fun e => e.2.1) =
        ((entriesOf groups name).map Prod.snd).map Prod.fst := (List.map_map).symm
  rw [pushAll]
  induction groups generalizing redis with
  | nil => exact (List.append_nil _).symm
  | cons g groups ih =>
    rw [List.foldl_cons, ih, pushQueue_eq, queue_pushBatch, List.append_assoc, hmap, hmap,
      map_snd_entriesOf_cons, List.map_append]
    split
    · rfl
    · rfl

theorem msgs_pushAll : (pushAll redis groups).msgs name =
    putAll (redis.msgs name) ((entriesOf groups name).map Prod.snd) := by
  rw [pushAll]
  induction groups generalizing redis with
  | nil => rfl
  | cons g groups ih =>
    rw [List.foldl_cons, ih, pushQueue_eq, msgs_pushBatch, map_snd_entriesOf_cons, putAll_append]

end Pushing

/-! ### What is delivered -/

section Delivery

variable {β : Type} {broker : Broker β} {redis : Redis β} {readings : ℕ → Reading} {job : Job}
  {request : Reading × Job} {sent : List (Reading × Job)} {messages : List Message}

/-- The message that is sent for a job. -/
structure Sent (broker : Broker β) (request : Reading × Job) (m : Message) : Prop where
  actorName : m.actorName = request.2.actor
  args : m.args = request.2.args
  kwargs : m.kwargs = request.2.kwargs
  redisMessageId : m.redisMessageId = request.1.redisMessageId
  /-- It goes to the queue of the actor, or to the delayed one if there is something to wait
  for. -/
  queueName : ∃ actor ∈ broker.getActor request.2.actor, m.queueName = ⟨actor.queueName,
    (effectiveDelay request.2.delay (debounceOf actor request.2.args request.2.kwargs)).any
      (0 < ·)⟩
  delayed : ∀ delay ∈ request.2.delay, 0 < delay → m.queueName.delayed

/-- The messages are in their queues, each of them once and in order, with their bodies; nothing
else has changed. -/
structure Delivers (broker : Broker β) (before after : Redis β) (messages : List Message) :
    Prop where
  queue : ∀ name, after.queue name =
    before.queue name ++ (messages.filter fun m => m.queueName = name).map Message.redisMessageId
  once : ∀ m ∈ messages, ∀ name,
    (after.queue name).count m.redisMessageId = if m.queueName = name then 1 else 0
  body : ∀ m ∈ messages,
    find (after.msgs m.queueName) m.redisMessageId = some (broker.encode m)
  kept : ∀ id, (∀ m ∈ messages, m.redisMessageId ≠ id) → ∀ name,
    find (after.msgs name) id = find (before.msgs name) id

/-- The new identifiers differ from each other and from all that are in use. -/
structure Fresh (redis : Redis β) (requests : List (Reading × Job)) : Prop where
  nodup : (requests.map fun request => request.1.redisMessageId).Nodup
  unused : ∀ request ∈ requests, ∀ name, request.1.redisMessageId ∉ redis.queue name

/-- The job that a call enqueues, if any. -/
def Enqueue.jobs : Enqueue → List Job
  | .dispatchTask job => [job]
  | .enqueueEvents _ => []

/-- The events that a call enqueues. -/
def Enqueue.events : Enqueue → List ℕ
  | .dispatchTask _ => []
  | .enqueueEvents eventIds => eventIds

/-- The jobs that were enqueued, and one for all events. -/
def jobsOf (calls : List Enqueue) : List Job :=
  calls.flatMap Enqueue.jobs ++
    if calls.flatMap Enqueue.events = [] then [] else [ingested (calls.flatMap Enqueue.events)]

theorem postpone_eq (m : Message) (now : ℕ) (delay : Option ℤ) : m.postpone now delay =
    { m with
      queueName := if delay.any (0 < ·) then dqName m.queueName else m.queueName
      eta := if delay.any (0 < ·) then delay.map (now + ·) else m.eta } := by
  cases delay with
  | none => rfl
  | some delay =>
    rw [Message.postpone]
    dsimp only [Option.any_some, Option.map_some]
    by_cases h : delay > 0
    · rw [if_pos h, if_pos (decide_eq_true h), if_pos (decide_eq_true h)]
    · rw [if_neg h, if_neg (fun htrue => h (of_decide_eq_true htrue)),
        if_neg (fun htrue => h (of_decide_eq_true htrue))]

theorem any_effectiveDelay {delay : ℤ} (h : 0 < delay) (debounce : Option (String × ℤ)) :
    (effectiveDelay (some delay) debounce).any (0 < ·) = true := by
  cases debounce with
  | none => exact decide_eq_true h
  | some debounce => exact decide_eq_true (lt_of_lt_of_le h (le_max_left _ _))

theorem sent_message {actor : Actor} (h : broker.getActor request.2.actor = some actor) :
    Sent broker request (message actor request.1 request.2) := by
  obtain ⟨r, job⟩ := request
  have hqueue : (message actor r job).queueName = ⟨actor.queueName,
      (effectiveDelay job.delay (debounceOf actor job.args job.kwargs)).any (0 < ·)⟩ := by
    rw [message, postpone_eq]
    cases (effectiveDelay job.delay (debounceOf actor job.args job.kwargs)).any (0 < ·) with
    | true => rfl
    | false => rfl
  have hfields : (message actor r job).actorName = job.actor ∧
      (message actor r job).args = job.args ∧ (message actor r job).kwargs = job.kwargs ∧
      (message actor r job).redisMessageId = r.redisMessageId := by
    rw [message, postpone_eq]
    exact ⟨rfl, rfl, rfl, rfl⟩
  obtain ⟨hname, hargs, hkwargs, hid⟩ := hfields
  refine ⟨hname, hargs, hkwargs, hid, ⟨actor, h, hqueue⟩, fun delay hdelay hpos => ?_⟩
  rw [hqueue, hdelay]
  exact any_effectiveDelay hpos _

theorem buildMessages_frame (broker : Broker β) (redis : Redis β) (sent : List (Reading × Job)) :
    (buildMessages broker redis sent).1.queue = redis.queue ∧
      (buildMessages broker redis sent).1.msgs = redis.msgs := by
  have hone (redis : Redis β) (r : Reading) (job : Job) :
      (buildMessage broker redis r job).1.queue = redis.queue ∧
        (buildMessage broker redis r job).1.msgs = redis.msgs := by
    rw [buildMessage]
    split
    · exact ⟨rfl, rfl⟩
    next actor _ =>
      cases debounceOf actor job.args job.kwargs with
      | none => exact ⟨rfl, rfl⟩
      | some debounce => exact ⟨rfl, rfl⟩
  induction sent generalizing redis with
  | nil => exact ⟨rfl, rfl⟩
  | cons request sent ih =>
    obtain ⟨hqueue, hmsgs⟩ := hone redis request.1 request.2
    rw [buildMessages]
    cases hbuilt : (buildMessage broker redis request.1 request.2).2 with
    | error e => exact ⟨hqueue, hmsgs⟩
    | ok m =>
      obtain ⟨hqueue', hmsgs'⟩ := ih (buildMessage broker redis request.1 request.2).1
      exact ⟨hqueue'.trans hqueue, hmsgs'.trans hmsgs⟩

theorem exists_buildMessages (redis : Redis β)
    (h : ∀ request ∈ sent, (broker.getActor request.2.actor).isSome) :
    ∃ messages, (buildMessages broker redis sent).2 = .ok messages ∧
      List.Forall₂ (Sent broker) sent messages := by
  induction sent generalizing redis with
  | nil => exact ⟨[], rfl, .nil⟩
  | cons request sent ih =>
    obtain ⟨hactor, hsent⟩ := List.forall_mem_cons.mp h
    obtain ⟨actor, hactor⟩ := Option.isSome_iff_exists.mp hactor
    obtain ⟨messages, hmessages, hall⟩ :=
      ih (buildMessage broker redis request.1 request.2).1 hsent
    have hbuilt : (buildMessage broker redis request.1 request.2).2 =
        .ok (message actor request.1 request.2) := by
      rw [buildMessage, hactor]
    refine ⟨message actor request.1 request.2 :: messages, ?_, .cons (sent_message hactor) hall⟩
    rw [buildMessages]
    dsimp only
    rw [hbuilt, hmessages]
    rfl

theorem map_redisMessageId (h : List.Forall₂ (Sent broker) sent messages) :
    messages.map Message.redisMessageId = sent.map fun request => request.1.redisMessageId := by
  induction h with
  | nil => rfl
  | cons hm _ ih => rw [List.map_cons, List.map_cons, hm.redisMessageId, ih]

theorem entriesOf_grouped (broker : Broker β) (messages : List Message) (name : QueueName) :
    entriesOf (grouped (messages.map broker.entry)) name =
      (messages.filter fun m => m.queueName = name).map broker.entry := by
  rw [entriesOf, filter_flatMap_grouped, List.filter_map]
  rfl

theorem delivers_pushAll {before : Redis β} (hids : (messages.map Message.redisMessageId).Nodup)
    (hunused : ∀ m ∈ messages, ∀ name, m.redisMessageId ∉ redis.queue name)
    (hqueue : redis.queue = before.queue) (hmsgs : redis.msgs = before.msgs) :
    Delivers broker before (pushAll redis (grouped (messages.map broker.entry))) messages := by
  have hown (name : QueueName) :
      ((messages.filter fun m => m.queueName = name).map Message.redisMessageId).Nodup :=
    hids.sublist (List.filter_sublist.map _)
  have hpushed (name : QueueName) :
      (pushAll redis (grouped (messages.map broker.entry))).queue name = redis.queue name ++
        (messages.filter fun m => m.queueName = name).map Message.redisMessageId := by
    rw [queue_pushAll, entriesOf_grouped, List.map_map]
    rfl
  have hbodies (name : QueueName) :
      (pushAll redis (grouped (messages.map broker.entry))).msgs name = putAll (redis.msgs name)
        ((messages.filter fun m => m.queueName = name).map fun m =>
          (m.redisMessageId, broker.encode m)) := by
    rw [msgs_pushAll, entriesOf_grouped, List.map_map]
    rfl
  refine ⟨fun name => hqueue ▸ hpushed name, fun m hm name => ?_, fun m hm => ?_,
    fun id hid name => ?_⟩
  · -- the queue had no such identifier before, and its new ones differ
    rw [hpushed, List.count_append, List.count_eq_zero_of_not_mem (hunused m hm name),
      Nat.zero_add]
    split
    next hname =>
      refine List.count_eq_one_of_mem (hown name) (List.mem_map_of_mem ?_)
      exact List.mem_filter.mpr ⟨hm, decide_eq_true hname⟩
    next hname =>
      refine List.count_eq_zero_of_not_mem fun hmem => hname ?_
      obtain ⟨m', hm', hid⟩ := List.mem_map.mp hmem
      obtain ⟨hm', hname'⟩ := List.mem_filter.mp hm'
      rw [← List.inj_on_of_nodup_map hids hm' hm hid]
      exact of_decide_eq_true hname'
  · -- no later body of the queue takes the place of this one
    rw [hbodies]
    refine find_putAll_of_mem ?_ (List.mem_map.mpr
      ⟨m, List.mem_filter.mpr ⟨hm, decide_eq_true rfl⟩, rfl⟩)
    rw [List.map_map]
    exact hown m.queueName
  · rw [hbodies, find_putAll_of_notMem, hmsgs]
    rw [List.map_map]
    intro hmem
    obtain ⟨m, hm, hsame⟩ := List.mem_map.mp hmem
    exact hid m (List.mem_filter.mp hm).1 hsame

theorem apply_eq (mgr : JobQueueManager) (call : Enqueue) : mgr.apply call =
    { pendingJobs := mgr.pendingJobs ++ call.jobs
      pendingEvents := mgr.pendingEvents ++ call.events } := by
  cases call with
  | dispatchTask job =>
    rw [Enqueue.jobs, Enqueue.events, List.append_nil]
    rfl
  | enqueueEvents eventIds =>
    rw [Enqueue.jobs, Enqueue.events, List.append_nil]
    rfl

theorem foldl_apply (calls : List Enqueue) (mgr : JobQueueManager) :
    calls.foldl JobQueueManager.apply mgr =
      { pendingJobs := mgr.pendingJobs ++ calls.flatMap Enqueue.jobs
        pendingEvents := mgr.pendingEvents ++ calls.flatMap Enqueue.events } := by
  induction calls generalizing mgr with
  | nil =>
    rw [List.flatMap_nil, List.flatMap_nil, List.append_nil, List.append_nil]
    rfl
  | cons call calls ih =>
    rw [List.foldl_cons, ih, apply_eq, List.flatMap_cons, List.flatMap_cons, List.append_assoc,
      List.append_assoc]

theorem flush_foldl_apply (calls : List Enqueue) (broker : Broker β) (readings : ℕ → Reading)
    (redis : Redis β) :
    (calls.foldl JobQueueManager.apply {}).flush broker readings redis =
      if (jobsOf calls).isEmpty then { manager := {}, redis }
      else
        match (buildMessages broker redis (requests readings (jobsOf calls))).2 with
        | .error e =>
          { manager := ⟨jobsOf calls, calls.flatMap Enqueue.events⟩
            redis := (buildMessages broker redis (requests readings (jobsOf calls))).1
            raised := some e }
        | .ok messages =>
          { manager := {}
            redis := pushAll (buildMessages broker redis (requests readings (jobsOf calls))).1
              (grouped (messages.map broker.entry)) } := by
  have hmgr : (if calls.flatMap Enqueue.events ≠ [] then
      JobQueueManager.dispatchTask ⟨calls.flatMap Enqueue.jobs, calls.flatMap Enqueue.events⟩
        (ingested (calls.flatMap Enqueue.events))
      else ⟨calls.flatMap Enqueue.jobs, calls.flatMap Enqueue.events⟩) =
        (⟨jobsOf calls, calls.flatMap Enqueue.events⟩ : JobQueueManager) := by
    rw [jobsOf]
    by_cases h : calls.flatMap Enqueue.events = []
    · rw [if_neg (not_not.mpr h), if_pos h, List.append_nil]
    · rw [if_pos h, if_neg h]
      rfl
  rw [foldl_apply, List.nil_append, List.nil_append, JobQueueManager.flush]
  rw [hmgr]
  rfl

/-- **A flush delivers every job.** After any calls, if the broker has the actors, the messages of
all jobs are in their queues, once and in order, and the manager is empty. -/
theorem flush_calls {calls : List Enqueue}
    (hactors : ∀ job ∈ jobsOf calls, (broker.getActor job.actor).isSome)
    (hfresh : Fresh redis (requests readings (jobsOf calls))) :
    let flushed := (calls.foldl JobQueueManager.apply {}).flush broker readings redis
    flushed.raised = none ∧ flushed.manager = {} ∧ ∃ messages,
      List.Forall₂ (Sent broker) (requests readings (jobsOf calls)) messages ∧
        Delivers broker redis flushed.redis messages := by
  dsimp only
  rw [flush_foldl_apply]
  split
  next hempty =>
    -- nothing was enqueued
    rw [List.isEmpty_iff.mp hempty]
    refine ⟨rfl, rfl, [], .nil, fun name => (List.append_nil _).symm, ?_, ?_, fun _ _ _ => rfl⟩
    · exact fun m hm => absurd hm List.not_mem_nil
    · exact fun m hm => absurd hm List.not_mem_nil
  next =>
    have hregistered : ∀ request ∈ requests readings (jobsOf calls),
        (broker.getActor request.2.actor).isSome := by
      intro request hrequest
      obtain ⟨i, hi, rfl⟩ := List.mem_mapIdx.mp hrequest
      exact hactors _ (List.getElem_mem hi)
    obtain ⟨messages, hmessages, hsent⟩ := exists_buildMessages redis hregistered
    -- debounce keys may have been written by now, but no queue
    obtain ⟨hqueue, hmsgs⟩ := buildMessages_frame broker redis (requests readings (jobsOf calls))
    have hids := map_redisMessageId hsent
    rw [hmessages]
    refine ⟨rfl, rfl, messages, hsent, delivers_pushAll (hids ▸ hfresh.nodup) ?_ hqueue hmsgs⟩
    intro m hm name
    have hid : m.redisMessageId ∈ messages.map Message.redisMessageId := List.mem_map_of_mem hm
    rw [hids] at hid
    obtain ⟨request, hrequest, hsame⟩ := List.mem_map.mp hid
    rw [hqueue, ← hsame]
    exact hfresh.unused request hrequest name

/-- A broker with two actors. -/
def twoActors : Broker String where
  getActor name :=
    if name = "email.send" then some { queueName := .highPriority }
    else if name = "event.ingested" then some { queueName := .lowPriority }
    else none
  encode m := m.actorName

theorem flush_twoActors :
    let calls : List Enqueue := [.dispatchTask { actor := "email.send" }, .enqueueEvents [7, 8],
      .dispatchTask { actor := "email.send", delay := some 500 }]
    let readings (i : ℕ) : Reading := ⟨100 + i, i, 0⟩
    let flushed := (calls.foldl JobQueueManager.apply {}).flush twoActors readings {}
    flushed.raised = none ∧ flushed.manager = {} ∧ ∃ messages,
      List.Forall₂ (Sent twoActors) (requests readings (jobsOf calls)) messages ∧
        Delivers twoActors {} flushed.redis messages :=
  flush_calls (by decide) ⟨by decide, fun _ _ _ => List.not_mem_nil⟩

end Delivery

end Rapidly.Worker
