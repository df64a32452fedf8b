import Rapidly.Relational.ReadCommitted
import Rapidly.Transition.Tasks

/-!
# Deliveries of a provider event

`enqueue` and `handle` of `analytics/external_event/actions.py` and the webhook endpoints of
`integrations/stripe/api.py`, for one event: any number of deliveries, of runs of its task and of
resends by an admin, side by side, one SQL statement or one step of the end of a request at a time.
`dispatch_task` keeps the job in memory; `JobQueueManager.flush` puts it on the queue once the
application has answered. Whether the dependency `get_db_session` commits before or after the
answer is a matter of the framework, and a parameter here.

* `deliveries` is the system; what is observed are the answers with success, the jobs put on the
  queue, and the commits of the handler.
* `notLost_and_once` says in which runs no event is lost, and none handled twice.
-/

namespace Rapidly.Analytics

open Relational Transition

namespace ExternalEvents

/-- The endpoints that take events of Stripe. -/
inductive Endpoint where
  | webhook
  | webhookConnect
deriving DecidableEq

/-- The event types that an endpoint accepts: `_DIRECT_WEBHOOKS` and `_CONNECT_WEBHOOKS`. -/
def Endpoint.webhooks : Endpoint → List String
  | .webhook => ["identity.verification_session.verified",
      "identity.verification_session.processing", "identity.verification_session.requires_input",
      "identity.verification_session.canceled", "setup_intent.succeeded",
      "payment_intent.succeeded", "payment_intent.payment_failed", "checkout.session.completed"]
  | .webhookConnect => ["account.updated", "checkout.session.completed"]

/-- The row of the event. -/
structure ExternalEvent where
  id : ℕ
  isHandled : Bool := false
deriving DecidableEq

/-- What happens at the end of a request that has not raised. -/
inductive Exit where
  | answer
  | commit
  | flush
deriving DecidableEq

/-- The end of a request, for a framework that ends the dependencies after the response or before
it. -/
def exits (commitsAfterResponse : Bool) : List Exit :=
  if commitsAfterResponse then [.answer, .commit, .flush] else [.commit, .answer, .flush]

/-- A delivery, a run of the event's task, or a resend. -/
inductive Task where
  /-- `enqueue` is about to look for the event. -/
  | selecting
  /-- It is about to insert the event, and dispatches its task. -/
  | inserting
  /-- The endpoint has returned, with the job that is pending; some steps of the end are done. -/
  | exiting (job : Option ℕ) (done : ℕ)
  /-- `handle` is about to load the event, for update. -/
  | locking (id : ℕ)
  /-- The body of the handler runs; then `handle` marks the event as handled. -/
  | handling (id : ℕ)
  | committing (id : ℕ)
  /-- `resend` is about to look at the event. -/
  | resending
  | flushing (id : ℕ)
  | finished
  | failed
deriving DecidableEq

/-- The row with the event's source and external id, and the ids of the rows that the queue has
jobs for. -/
structure State where
  row : Versioned (Option ExternalEvent) := { committed := none }
  queue : List ℕ := []
  /-- The id of the next row. -/
  next : ℕ := 0

inductive Event where
  /-- Stripe delivers the event. -/
  | delivered
  /-- A worker takes a job; it may get it again. -/
  | consumed (id : ℕ)
  | resent
  /-- `external_event.prune` deletes the row if it is handled. -/
  | pruned
deriving DecidableEq

inductive Obs where
  /-- A delivery is answered with success. -/
  | answered
  /-- The event's task is put on the queue. -/
  | queued
  /-- The handler has completed its effects. -/
  | completed
deriving DecidableEq

/-- `delete_before`, where it reaches the row and does not have to wait. -/
def prune (row : Versioned (Option ExternalEvent)) : Versioned (Option ExternalEvent) :=
  match row.committed, row.pending with
  | some { isHandled := true, .. }, none => { committed := none }
  | _, _ => row

/-- One step of a delivery, a handler or a resend. A step that does not come to its end, because
the process stops or an exception is raised, leaves the rest of the request undone. -/
def Task.advance (commitsAfterResponse : Bool) (s : State) (i : ℕ) :
    Outcome → Task → State × Task × List Obs
  | .executed, .selecting =>
    match s.row.committed with
    | some _ => (s, .exiting none 0, [])
    | none => (s, .inserting, [])
  | .executed, .inserting =>
    if s.row.LockedFor i then (s, .inserting, [])
    else match s.row.committed with
      -- the unique constraint on the source and the external id
      | some _ => (s, .failed, [])
      | none =>
        ({ s with row := s.row.write i (some { id := s.next }), next := s.next + 1 },
          .exiting (some s.next) 0, [])
  | .executed, .exiting job done =>
    match (exits commitsAfterResponse)[done]? with
    | some .answer => (s, .exiting job (done + 1), [.answered])
    | some .commit => ({ s with row := s.row.commit i }, .exiting job (done + 1), [])
    | some .flush =>
      ({ s with queue := job.toList ++ s.queue }, .exiting job (done + 1),
        job.toList.map fun _ => .queued)
    | none => (s, .finished, [])
  | .raised, .exiting _ _ => ({ s with row := s.row.rollback i }, .failed, [])
  | .executed, .locking id =>
    if s.row.LockedFor i then (s, .locking id, [])
    else match s.row.committed with
      | some r =>
        if r.id = id ∧ r.isHandled = false then
          ({ s with row := s.row.write i (some r) }, .handling id, [])
        else (s, .failed, [])
      | none => (s, .failed, [])
  | .executed, .handling id =>
    ({ s with row := s.row.write i (some { id, isHandled := true }) }, .committing id, [])
  | .executed, .committing _ => ({ s with row := s.row.commit i }, .finished, [.completed])
  | .raised, .handling _ => ({ s with row := s.row.rollback i }, .failed, [])
  | .raised, .committing _ => ({ s with row := s.row.rollback i }, .failed, [])
  | .executed, .resending =>
    match s.row.committed with
    | some r => if r.isHandled then (s, .failed, []) else (s, .flushing r.id, [])
    | none => (s, .failed, [])
  | .executed, .flushing id => ({ s with queue := id :: s.queue }, .finished, [.queued])
  | .raised, .selecting => (s, .failed, [])
  | .raised, .inserting => (s, .failed, [])
  | .raised, .locking _ => (s, .failed, [])
  | .raised, .resending => (s, .failed, [])
  | .raised, .flushing _ => (s, .failed, [])
  | _, t => (s, t, [])

/-- The task that a delivery starts: events of other types are answered and dropped. -/
def Endpoint.receive (endpoint : Endpoint) (type : String) : Task :=
  if type ∈ endpoint.webhooks then .selecting else .exiting none 0

/-- The deliveries of an event of some type to an endpoint. -/
def deliveries (commitsAfterResponse : Bool) (endpoint : Endpoint) (type : String) :
    Tasks State Task Event Outcome Obs where
  init := {}
  arrive s _
    | .delivered => (s, [endpoint.receive type], [])
    | .consumed id => (s, if id ∈ s.queue then [.locking id] else [], [])
    | .resent => (s, [.resending], [])
    | .pruned => ({ s with row := prune s.row }, [], [])
  advance s i := Task.advance commitsAfterResponse s i

/-- The delivery has not come to its end. -/
def Task.inProgress : Task → Bool
  | .selecting => true
  | .inserting => true
  | .exiting _ done => done < 3
  | _ => false

/-- Once a delivery of an event that has a task is answered with success, the task has been put on
the queue, apart from what deliveries in progress are about to do. -/
def NotLost (endpoint : Endpoint) (type : String) (log : List Obs) (p : Pool State Task) : Prop :=
  type ∈ endpoint.webhooks → (∀ t ∈ p.tasks, t.inProgress = false) → .answered ∈ log →
    .queued ∈ log

instance (endpoint : Endpoint) (type : String) (log : List Obs) (p : Pool State Task) :
    Decidable (NotLost endpoint type log p) :=
  inferInstanceAs (Decidable (_ → _ → _ → _))

/-- A request that has stored the event stops before its end only as long as it has neither
answered nor committed; the event is not stored again once its handler has completed. -/
def Kept (commitsAfterResponse : Bool) (endpoint : Endpoint) (type : String) :
    System.Condition (Pool State Task) (Turn Event Outcome)
  | _, p, .resumed i .raised =>
    match p.tasks[i]? with
    | some (.exiting (some _) done) => done = 0 ∨ 3 ≤ done
    | _ => True
  | past, p, .resumed i .executed =>
    match p.tasks[i]? with
    | some .inserting => ¬p.shared.row.LockedFor i → p.shared.row.committed = none →
        .completed ∉ (deliveries commitsAfterResponse endpoint type).system.log past
    | _ => True
  | _, _, _ => True

instance (commitsAfterResponse : Bool) (endpoint : Endpoint) (type : String)
    (past : List (Turn Event Outcome)) (p : Pool State Task) (l : Turn Event Outcome) :
    Decidable (Kept commitsAfterResponse endpoint type past p l) := by
  unfold Kept
  split
  · split <;> infer_instance
  · split <;> infer_instance
  · infer_instance

/-! ### What a step does -/

variable {commitsAfterResponse : Bool} {endpoint : Endpoint} {type : String} {s : State} {i : ℕ}
variable {answer : Outcome} {t : Task}

theorem done_lt_two {done : ℕ} {e : Exit} (h : (exits commitsAfterResponse)[done]? = some e)
    (he : e ≠ .flush) : done < 2 := by
  rcases done with _ | _ | _ | done
  · omega
  · omega
  · refine absurd (Option.some.inj (h.symm.trans ?_)) he
    cases commitsAfterResponse <;> rfl
  · cases commitsAfterResponse <;> exact absurd h nofun

theorem answered_mem_advance (h : .answered ∈ (t.advance commitsAfterResponse s i answer).2.2) :
    ∃ job done, t = .exiting job done ∧ done < 2 ∧
      (t.advance commitsAfterResponse s i answer).2.1 = .exiting job (done + 1) := by
  revert h
  fun_cases Task.advance commitsAfterResponse s i answer t
  case case6 job done hexit =>
    intro _
    exact ⟨job, done, rfl, done_lt_two hexit nofun, rfl⟩
  all_goals simp

theorem advance_eq_exiting {done : ℕ}
    (h : (t.advance commitsAfterResponse s i answer).2.1 = .exiting none done) :
    s.row.committed ≠ none ∨ ∃ done, t = .exiting none done := by
  revert h
  fun_cases Task.advance commitsAfterResponse s i answer t
  case case1 r hcommitted =>
    intro _
    left
    rw [hcommitted]
    exact Option.some_ne_none r
  case case28 =>
    intro h
    exact .inr ⟨done, h⟩
  all_goals simp +contextual

/-- A delivery with a job that has come to answer or commit goes on to hand the job on. -/
theorem advance_exiting {id done : ℕ} (hpos : 0 < done) (hlt : done < 3) :
    ((Task.exiting (some id) done).advance commitsAfterResponse s i .executed).2.1 =
        .exiting (some id) (done + 1) ∧
      (done + 1 < 3 ∨ .queued ∈
        ((Task.exiting (some id) done).advance commitsAfterResponse s i .executed).2.2) := by
  obtain rfl | rfl : done = 1 ∨ done = 2 := by omega
  · refine ⟨?_, .inl (by omega)⟩
    cases commitsAfterResponse <;> rfl
  · refine ⟨?_, .inr ?_⟩
    · cases commitsAfterResponse <;> rfl
    · cases commitsAfterResponse <;> exact List.mem_singleton_self _

/-- The task is in the transaction of a handler that has loaded the event. -/
def Task.locks : Task → Bool
  | .handling _ => true
  | .committing _ => true
  | _ => false

/-- **What a step can do to the row**: nothing, insert it, lock it for a handler, mark it as
handled, commit or roll back. -/
theorem advance_cases (commitsAfterResponse : Bool) (s : State) (i : ℕ) (answer : Outcome)
    (t : Task) :
    let r := t.advance commitsAfterResponse s i answer
    (r.1.row = s.row ∧ .completed ∉ r.2.2 ∧ (r.2.1 = t ∨ r.2.1.locks = false)) ∨
      (answer = .executed ∧ t = .inserting ∧ ¬s.row.LockedFor i ∧ s.row.committed = none ∧
        r.1.row = s.row.write i (some { id := s.next }) ∧
          r.2 = (.exiting (some s.next) 0, [])) ∨
      (∃ e : ExternalEvent, ¬s.row.LockedFor i ∧ s.row.committed = some e ∧
        e.isHandled = false ∧ r.1.row = s.row.write i (some e) ∧ r.2 = (.handling e.id, [])) ∨
      (∃ id, t = .handling id ∧ r.1.row = s.row.write i (some { id, isHandled := true }) ∧
        r.2 = (.committing id, [])) ∨
      (∃ job done, t = .exiting job done ∧ done < 2 ∧ r.1.row = s.row.commit i ∧
        r.2 = (.exiting job (done + 1), [])) ∨
      (∃ id, t = .committing id ∧ r.1.row = s.row.commit i ∧ r.2 = (.finished, [.completed])) ∨
      (r.1.row = s.row.rollback i ∧ r.2 = (.failed, [])) := by
  fun_cases Task.advance commitsAfterResponse s i answer t
  case case3 hlocked => exact .inl ⟨rfl, List.not_mem_nil, .inl rfl⟩
  case case5 hlocked hcommitted =>
    exact .inr (.inl ⟨rfl, rfl, hlocked, hcommitted, rfl, rfl⟩)
  case case7 job done hexit =>
    have hlt : done < 2 := done_lt_two hexit nofun
    exact .inr (.inr (.inr (.inr (.inl ⟨job, done, rfl, hlt, rfl, rfl⟩))))
  case case8 job done hexit =>
    refine .inl ⟨rfl, ?_, .inr rfl⟩
    cases job <;> simp
  case case11 id hlocked => exact .inl ⟨rfl, List.not_mem_nil, .inl rfl⟩
  case case12 id hlocked e hcommitted hopen =>
    refine .inr (.inr (.inl ⟨e, hlocked, hcommitted, hopen.2, rfl, ?_⟩))
    rw [hopen.1]
  case case15 id => exact .inr (.inr (.inr (.inl ⟨id, rfl, rfl, rfl⟩)))
  case case16 id => exact .inr (.inr (.inr (.inr (.inr (.inl ⟨id, rfl, rfl, rfl⟩)))))
  case case10 | case17 | case18 =>
    exact .inr (.inr (.inr (.inr (.inr (.inr ⟨rfl, rfl⟩)))))
  case case28 => exact .inl ⟨rfl, List.not_mem_nil, .inl rfl⟩
  all_goals exact .inl ⟨rfl, by simp, .inr rfl⟩

theorem Kept.insert {past : List (Turn Event Outcome)} {p : Pool State Task}
    (h : Kept commitsAfterResponse endpoint type past p (.resumed i answer))
    (hi : p.tasks[i]? = some t) : answer = .executed → t = .inserting →
      ¬p.shared.row.LockedFor i → p.shared.row.committed = none →
        .completed ∉ (deliveries commitsAfterResponse endpoint type).system.log past := by
  rintro rfl rfl
  rw [Kept, hi] at h
  exact h

theorem Kept.goesOn {past : List (Turn Event Outcome)} {p : Pool State Task} {id done : ℕ}
    (h : Kept commitsAfterResponse endpoint type past p (.resumed i answer))
    (hi : p.tasks[i]? = some (.exiting (some id) done)) (hpos : 0 < done) (hlt : done < 3) :
    answer = .executed := by
  cases answer with
  | executed => rfl
  | raised =>
    rw [Kept, hi] at h
    omega

/-! ### At most once -/

/-- The handler has completed at most once, and no version of the row is unhandled then. -/
structure Sound (log : List Obs) (s : State) : Prop where
  once : log.count .completed ≤ 1
  committed : .completed ∈ log → ∀ e ∈ s.row.committed, e.isHandled = true
  pending : .completed ∈ log → ∀ w ∈ s.row.pending, ∀ e ∈ w.2, e.isHandled = true

/-- A handler has locked the row, and has written a version of it. -/
structure Locked (log : List Obs) (s : State) (i : ℕ) (v : Option ExternalEvent) : Prop where
  committed : s.row.committed ≠ none
  pending : s.row.pending = some (i, v)
  fresh : .completed ∉ log

/-- The assertion about a task. -/
def Assertion (log : List Obs) (s : State) (i : ℕ) : Task → Prop
  | .handling _ => ∃ v, Locked log s i v
  | .committing id => Locked log s i (some { id, isHandled := true })
  | _ => True

theorem assertion_of_locks {log : List Obs} (h : t.locks = false) : Assertion log s i t := by
  cases t
  case handling => exact absurd h nofun
  case committing => exact absurd h nofun
  all_goals trivial

variable {log log' : List Obs} {s' : State} {j : ℕ}

/-- What others can rely on in a step of the task `j`. -/
def Rely (j : ℕ) (log : List Obs) (s : State) (log' : List Obs) (s' : State) : Prop :=
  ∀ i v, i ≠ j → s.row.pending = some (i, v) →
    s'.row = s.row ∧ (.completed ∈ log' → .completed ∈ log)

theorem Assertion.rely (h : Assertion log s i t) (hrely : Rely j log s log' s') (hne : i ≠ j) :
    Assertion log' s' i t := by
  have hlocked : ∀ v, Locked log s i v → Locked log' s' i v := by
    intro v hv
    obtain ⟨hrow, hfresh⟩ := hrely i v hne hv.pending
    refine ⟨?_, ?_, fun hmem => hv.fresh (hfresh hmem)⟩
    · rw [hrow]
      exact hv.committed
    · rw [hrow]
      exact hv.pending
  cases t
  case handling =>
    obtain ⟨v, hv⟩ := h
    exact ⟨v, hlocked v hv⟩
  case committing => exact hlocked _ h
  all_goals trivial

theorem Rely.of_not_lockedFor (h : ¬s.row.LockedFor j) : Rely j log s log' s' :=
  fun _ _ hne hv => absurd ⟨_, hv, hne⟩ h

theorem Rely.commit (h : s'.row = s.row.commit j) (hlog : .completed ∈ log' → .completed ∈ log) :
    Rely j log s log' s' := by
  intro i v hne hv
  refine ⟨?_, hlog⟩
  rw [h, Versioned.commit_of_pending]
  intro v' hv'
  exact hne (congrArg Prod.fst (Option.some.inj (hv.symm.trans hv')))

theorem Rely.rollback (h : s'.row = s.row.rollback j)
    (hlog : .completed ∈ log' → .completed ∈ log) : Rely j log s log' s' := by
  intro i v hne hv
  refine ⟨?_, hlog⟩
  rw [h, Versioned.rollback_of_pending]
  intro v' hv'
  exact hne (congrArg Prod.fst (Option.some.inj (hv.symm.trans hv')))

theorem mem_append_of_notMem {obs : List Obs} (h : .completed ∉ obs) :
    .completed ∈ log ++ obs ↔ .completed ∈ log := by
  rw [List.mem_append, or_iff_left h]

/-- A step without a completed handler, after which no version of the row is unhandled that was
not there before. -/
theorem Sound.append {obs : List Obs} (hs : Sound log s) (hobs : .completed ∉ obs)
    (hcommitted : .completed ∈ log → ∀ e ∈ s'.row.committed, e.isHandled = true)
    (hpending : .completed ∈ log → ∀ w ∈ s'.row.pending, ∀ e ∈ w.2, e.isHandled = true) :
    Sound (log ++ obs) s' := by
  have hmem : .completed ∈ log ++ obs ↔ .completed ∈ log := mem_append_of_notMem hobs
  refine ⟨?_, fun h => hcommitted (hmem.mp h), fun h => hpending (hmem.mp h)⟩
  rw [List.count_append, List.count_eq_zero.mpr hobs]
  exact hs.once

/-- While the handler has not completed, any version of the row may be written. -/
theorem Sound.fresh (hs : Sound log s) (hfresh : .completed ∉ log) (s' : State) :
    Sound (log ++ []) s' := by
  refine hs.append List.not_mem_nil ?_ ?_
  · intro h
    exact absurd h hfresh
  · intro h
    exact absurd h hfresh

theorem Sound.commit (hs : Sound log s) (hrow : s'.row = s.row.commit i) :
    Sound (log ++ []) s' := by
  rcases s.row.pending_cases i with ⟨v, hv⟩ | hnot
  · rw [Versioned.commit_eq hv] at hrow
    refine hs.append List.not_mem_nil (fun h e he => ?_) (fun _ w hw => ?_)
    · rw [hrow] at he
      exact hs.pending h _ hv e he
    · rw [hrow] at hw
      exact absurd hw (Option.not_mem_none w)
  · rw [Versioned.commit_of_pending hnot] at hrow
    refine hs.append List.not_mem_nil ?_ ?_
    · rw [hrow]
      exact hs.committed
    · rw [hrow]
      exact hs.pending

theorem Sound.rollback (hs : Sound log s) (hrow : s'.row = s.row.rollback i) :
    Sound (log ++ []) s' := by
  refine hs.append List.not_mem_nil (fun h => ?_) (fun h w hw => ?_)
  · rw [hrow, Versioned.committed_rollback]
    exact hs.committed h
  · rw [hrow] at hw
    exact hs.pending h w (Versioned.pending_of_rollback hw)

/-- What a step does to the assertions, where the event is not inserted again. -/
theorem Sound.advance (hs : Sound log s) (ht : Assertion log s i t)
    (hinsert : answer = .executed → t = .inserting → ¬s.row.LockedFor i →
      s.row.committed = none → .completed ∉ log) :
    let r := t.advance commitsAfterResponse s i answer
    Sound (log ++ r.2.2) r.1 ∧ Assertion (log ++ r.2.2) r.1 i r.2.1 ∧
      Rely i log s (log ++ r.2.2) r.1 := by
  have hcases := advance_cases commitsAfterResponse s i answer t
  generalize t.advance commitsAfterResponse s i answer = r at hcases ⊢
  obtain ⟨s', t', obs⟩ := r
  dsimp only at hcases ⊢
  rcases hcases with ⟨hrow, hobs, hnext⟩ | ⟨rfl, rfl, hlocked, hnone, hrow, heq⟩ |
    ⟨e, hlocked, hcommitted, hopen, hrow, heq⟩ | ⟨id, rfl, hrow, heq⟩ |
    ⟨job, done, rfl, hlt, hrow, heq⟩ | ⟨id, rfl, hrow, heq⟩ | ⟨hrow, heq⟩
  · -- nothing is written
    refine ⟨hs.append hobs ?_ ?_, ?_, fun _ _ _ _ => ⟨hrow, (mem_append_of_notMem hobs).mp⟩⟩
    · rw [hrow]
      exact hs.committed
    · rw [hrow]
      exact hs.pending
    · rcases hnext with rfl | hlocks
      · have hrely : Rely (i + 1) log s (log ++ obs) s' :=
          fun _ _ _ _ => ⟨hrow, (mem_append_of_notMem hobs).mp⟩
        exact ht.rely hrely (by omega)
      · exact assertion_of_locks hlocks
  · -- the event is inserted
    obtain ⟨rfl, rfl⟩ := Prod.mk.inj heq
    have hfresh := hinsert rfl rfl hlocked hnone
    exact ⟨hs.fresh hfresh s', trivial, .of_not_lockedFor hlocked⟩
  · -- the row is locked for a job, and is not handled yet
    obtain ⟨rfl, rfl⟩ := Prod.mk.inj heq
    have hfresh : .completed ∉ log := by
      intro h
      have hhandled := hs.committed h e hcommitted
      rw [hopen] at hhandled
      exact absurd hhandled nofun
    refine ⟨hs.fresh hfresh s', ⟨some e, ?_, ?_, ?_⟩, .of_not_lockedFor hlocked⟩
    · rw [hrow, Versioned.committed_write, hcommitted]
      exact Option.some_ne_none e
    · rw [hrow, Versioned.pending_write]
    · rwa [List.append_nil]
  · -- the job marks the event as handled
    obtain ⟨rfl, rfl⟩ := Prod.mk.inj heq
    obtain ⟨v, hv⟩ := ht
    refine ⟨hs.fresh hv.fresh s', ⟨?_, ?_, ?_⟩, .of_not_lockedFor ?_⟩
    · rw [hrow]
      exact hv.committed
    · rw [hrow, Versioned.pending_write]
    · rw [List.append_nil]
      exact hv.fresh
    · rintro ⟨w, hw, hne⟩
      exact hne (congrArg Prod.fst (Option.some.inj (hv.pending.symm.trans hw))).symm
  · obtain ⟨rfl, rfl⟩ := Prod.mk.inj heq
    refine ⟨hs.commit hrow, trivial, .commit hrow ?_⟩
    rw [List.append_nil]
    exact fun h => h
  · -- the job commits, and nothing can complete the event again
    obtain ⟨rfl, rfl⟩ := Prod.mk.inj heq
    have hlock : Locked log s i (some { id, isHandled := true }) := ht
    rw [Versioned.commit_eq hlock.pending] at hrow
    refine ⟨⟨?_, fun _ e he => ?_, fun _ w hw => ?_⟩, trivial, fun j v hne hv => ?_⟩
    · rw [List.count_append, List.count_eq_zero.mpr hlock.fresh]
      decide
    · rw [hrow] at he
      rw [← Option.some.inj he]
    · rw [hrow] at hw
      exact absurd hw (Option.not_mem_none w)
    · have heq := Option.some.inj (hlock.pending.symm.trans hv)
      exact absurd (congrArg Prod.fst heq).symm hne
  · obtain ⟨rfl, rfl⟩ := Prod.mk.inj heq
    refine ⟨hs.rollback hrow, trivial, .rollback hrow ?_⟩
    rw [List.append_nil]
    exact fun h => h

theorem prune_eq_or (row : Versioned (Option ExternalEvent)) :
    prune row = row ∨ row.pending = none ∧ prune row = { committed := none } := by
  unfold prune
  split
  next hpending => exact .inr ⟨hpending, rfl⟩
  next => exact .inl rfl

theorem Sound.prune (hs : Sound log s) :
    Sound (log ++ []) { s with row := ExternalEvents.prune s.row } := by
  rcases prune_eq_or s.row with heq | ⟨-, heq⟩
  · rw [heq, List.append_nil]
    exact hs
  · rw [heq]
    refine hs.append List.not_mem_nil (fun _ e he => ?_) (fun _ w hw => ?_)
    · exact absurd he (Option.not_mem_none e)
    · exact absurd hw (Option.not_mem_none w)

theorem Rely.prune : Rely j log s (log ++ []) { s with row := ExternalEvents.prune s.row } := by
  intro i v _ hv
  rw [List.append_nil]
  refine ⟨?_, fun h => h⟩
  rcases prune_eq_or s.row with heq | ⟨hnone, -⟩
  · exact heq
  · exact absurd (hnone.symm.trans hv) nofun

theorem arrive_locks (s : State) (n : ℕ) (e : Event) :
    ∀ t ∈ ((deliveries commitsAfterResponse endpoint type).arrive s n e).2.1,
      t.locks = false := by
  intro t ht
  rcases e with _ | id | _ | _
  · rw [List.mem_singleton.mp ht, Endpoint.receive]
    split <;> rfl
  · dsimp only [deliveries] at ht
    split at ht
    · rw [List.mem_singleton.mp ht]
      rfl
    · exact absurd ht List.not_mem_nil
  · rw [List.mem_singleton.mp ht]
    rfl
  · exact absurd ht List.not_mem_nil

theorem outline : (deliveries commitsAfterResponse endpoint type).Outline
    (Kept commitsAfterResponse endpoint type) Sound Assertion where
  init := ⟨Nat.zero_le 1, fun h => absurd h List.not_mem_nil, fun h => absurd h List.not_mem_nil⟩
  event {_ _ e} h _ := by
    rcases e with _ | id | _ | _
    · exact (List.append_nil _).symm ▸ h.shared
    · exact (List.append_nil _).symm ▸ h.shared
    · exact (List.append_nil _).symm ▸ h.shared
    · exact h.shared.prune
  started {_ p e} _ _ k t hk :=
    assertion_of_locks (arrive_locks p.shared p.tasks.length e t (List.mem_of_getElem? hk))
  undisturbed {_ _ e} h _ i t hi := by
    have ht := h.task i t hi
    rcases e with _ | id | _ | _
    · exact (List.append_nil _).symm ▸ ht
    · exact (List.append_nil _).symm ▸ ht
    · exact (List.append_nil _).symm ▸ ht
    · exact ht.rely (j := i + 1) .prune (by omega)
  resumed {_ _ _ _ _} h hC hi := by
    obtain ⟨hsound, hassertion, -⟩ := h.shared.advance (h.task _ _ hi) (hC.insert hi)
    exact ⟨hsound, hassertion⟩
  interferes {_ _ _ _ _} h hC hi j other hj hne := by
    obtain ⟨-, -, hrely⟩ := h.shared.advance (h.task _ _ hi) (hC.insert hi)
    exact (h.task j other hj).rely hrely hne

/-! ### No event is lost -/

/-- The task is on the queue, or a delivery that goes on is about to put it there. -/
def Secured (log : List Obs) (p : Pool State Task) : Prop :=
  .queued ∈ log ∨
    ∃ (j id done : ℕ), p.tasks[j]? = some (.exiting (some id) done) ∧ 0 < done ∧ done < 3

/-- A delivery has been answered, or will be answered without a job of its own. -/
def Promised (log : List Obs) (p : Pool State Task) : Prop :=
  .answered ∈ log ∨ p.shared.row.committed ≠ none ∨
    ∃ (j done : ℕ), p.tasks[j]? = some (.exiting none done)

variable {past ls : List (Turn Event Outcome)} {p : Pool State Task}

theorem Secured.resumed (h : Secured log p) (hi : p.tasks[i]? = some t)
    (hC : Kept commitsAfterResponse endpoint type past p (.resumed i answer)) :
    let r := t.advance commitsAfterResponse p.shared i answer
    Secured (log ++ r.2.2) { shared := r.1, tasks := p.tasks.set i r.2.1 } := by
  rcases h with hqueued | ⟨j, id, done, hj, hpos, hlt⟩
  · exact .inl (List.mem_append_left _ hqueued)
  · by_cases hji : j = i
    · subst hji
      obtain rfl : t = .exiting (some id) done := Option.some.inj (hi.symm.trans hj)
      obtain rfl := hC.goesOn hj hpos hlt
      obtain ⟨hnext, hsecured⟩ := @advance_exiting commitsAfterResponse p.shared j id done hpos hlt
      rcases hsecured with hlt' | hqueued
      · refine .inr ⟨j, id, done + 1, ?_, by omega, hlt'⟩
        rw [hnext]
        exact List.getElem?_set_self (List.getElem?_eq_some_iff.mp hj).1
      · exact .inl (List.mem_append_right _ hqueued)
    · refine .inr ⟨j, id, done, ?_, hpos, hlt⟩
      rwa [List.getElem?_set_ne (Ne.symm hji)]

/-- A step that makes a promise is one of a delivery that will hand its job on. -/
theorem Promised.resumed (hp : Tasks.Holds Sound Assertion log p) (hi : p.tasks[i]? = some t) :
    let r := t.advance commitsAfterResponse p.shared i answer
    Promised (log ++ r.2.2) { shared := r.1, tasks := p.tasks.set i r.2.1 } →
      Promised log p ∨ ∃ id done, r.2.1 = .exiting (some id) done ∧ 0 < done ∧ done < 3 := by
  intro r h
  -- a delivery without a job was promised one before
  have hexiting : ∀ job done, t = .exiting job done → done < 2 → r.2.1 = .exiting job (done + 1) →
      Promised log p ∨ ∃ id done, r.2.1 = .exiting (some id) done ∧ 0 < done ∧ done < 3 := by
    intro job done ht hlt hnext
    subst ht
    cases job with
    | none => exact .inl (.inr (.inr ⟨i, done, hi⟩))
    | some id => exact .inr ⟨id, done + 1, hnext, by omega, by omega⟩
  rcases h with hanswered | hcommitted | ⟨j, done, hj⟩
  · rcases List.mem_append.mp hanswered with hold | hnew
    · exact .inl (.inl hold)
    · obtain ⟨job, done, ht, hlt, hnext⟩ := answered_mem_advance hnew
      exact hexiting job done ht hlt hnext
  · by_cases hold : p.shared.row.committed = none
    · rcases advance_cases commitsAfterResponse p.shared i answer t with ⟨hrow, -⟩ |
        ⟨-, -, -, -, hrow, -⟩ | ⟨_, -, -, -, hrow, -⟩ | ⟨_, -, hrow, -⟩ |
        ⟨job, done, ht, hlt, -, heq⟩ | ⟨id, rfl, -⟩ | ⟨hrow, -⟩
      · exact absurd (hrow ▸ hold) hcommitted
      · exact absurd (hrow ▸ hold) hcommitted
      · exact absurd (hrow ▸ hold) hcommitted
      · exact absurd (hrow ▸ hold) hcommitted
      · exact hexiting job done ht hlt (congrArg Prod.fst heq)
      · have hlock : Locked log p.shared i _ := hp.task i _ hi
        exact absurd hold hlock.committed
      · refine absurd ?_ hcommitted
        rw [hrow, Versioned.committed_rollback, hold]
    · exact .inl (.inr (.inl hold))
  · by_cases hji : j = i
    · subst hji
      rw [List.getElem?_set_self (List.getElem?_eq_some_iff.mp hi).1] at hj
      rcases advance_eq_exiting (Option.some.inj hj) with hstored | ⟨done', rfl⟩
      · exact .inl (.inr (.inl hstored))
      · exact .inl (.inr (.inr ⟨j, done', hi⟩))
    · dsimp only at hj
      rw [List.getElem?_set_ne (Ne.symm hji)] at hj
      exact .inl (.inr (.inr ⟨j, done, hj⟩))

theorem Promised.event (htype : type ∈ endpoint.webhooks) (e : Event)
    (h : Promised (log ++ ((deliveries commitsAfterResponse endpoint type).step p (.event e)).2)
      ((deliveries commitsAfterResponse endpoint type).step p (.event e)).1) :
    Promised log p := by
  rw [Tasks.step_event] at h
  rcases h with hanswered | hcommitted | ⟨j, done, hj⟩
  · left
    rcases e with _ | id | _ | _ <;> exact List.append_nil log ▸ hanswered
  · right
    left
    rcases e with _ | id | _ | _
    · exact hcommitted
    · exact hcommitted
    · exact hcommitted
    · rcases prune_eq_or p.shared.row with heq | ⟨-, heq⟩
      · exact fun hnone => hcommitted ((congrArg Versioned.committed heq).trans hnone)
      · exact absurd (congrArg Versioned.committed heq) hcommitted
  · right
    right
    rcases Nat.lt_or_ge j p.tasks.length with hlt | hge
    · dsimp only at hj
      rw [List.getElem?_append_left hlt] at hj
      exact ⟨j, done, hj⟩
    · dsimp only at hj
      rw [List.getElem?_append_right hge] at hj
      have hmem := List.mem_of_getElem? hj
      rcases e with _ | id | _ | _
      · have heq := List.mem_singleton.mp hmem
        rw [Endpoint.receive, if_pos htype] at heq
        exact absurd heq nofun
      · dsimp only [deliveries] at hmem
        split at hmem
        · exact absurd (List.mem_singleton.mp hmem) nofun
        · exact absurd hmem List.not_mem_nil
      · exact absurd (List.mem_singleton.mp hmem) nofun
      · exact absurd hmem List.not_mem_nil

theorem Secured.event (h : Secured log p) (e : Event) :
    Secured (log ++ ((deliveries commitsAfterResponse endpoint type).step p (.event e)).2)
      ((deliveries commitsAfterResponse endpoint type).step p (.event e)).1 := by
  rw [Tasks.step_event]
  rcases h with hqueued | ⟨j, id, done, hj, hpos, hlt⟩
  · exact .inl (List.mem_append_left _ hqueued)
  · refine .inr ⟨j, id, done, ?_, hpos, hlt⟩
    exact getElem?_append_of_some hj _

/-- In a run whose steps meet the condition, whatever has been promised is secured. -/
theorem secured_of_kept (htype : type ∈ endpoint.webhooks)
    (h : (deliveries commitsAfterResponse endpoint type).system.Along
      (Kept commitsAfterResponse endpoint type) ls) :
    Promised ((deliveries commitsAfterResponse endpoint type).system.log ls)
      ((deliveries commitsAfterResponse endpoint type).system.after ls) →
    Secured ((deliveries commitsAfterResponse endpoint type).system.log ls)
      ((deliveries commitsAfterResponse endpoint type).system.after ls) := by
  induction ls using List.reverseRecOn with
  | nil =>
    rintro (hanswered | hcommitted | ⟨j, done, hj⟩)
    · exact absurd hanswered List.not_mem_nil
    · exact absurd rfl hcommitted
    · exact absurd hj nofun
  | append_singleton ls l ih =>
    rw [System.along_snoc] at h
    have hholds := outline.holds h.1
    rw [System.after_snoc, System.log_snoc, Tasks.system_step]
    intro hpromised
    rcases l with e | ⟨i, answer⟩
    · exact (ih h.1 (hpromised.event htype e)).event e
    · cases hi : ((deliveries commitsAfterResponse endpoint type).system.after ls).tasks[i]? with
      | none =>
        rw [Tasks.step_resumed_none hi, List.append_nil] at hpromised ⊢
        exact ih h.1 hpromised
      | some t =>
        rw [Tasks.step_resumed hi] at hpromised ⊢
        rcases Promised.resumed hholds hi hpromised with hold | ⟨id, done, hnext, hpos, hlt⟩
        · exact (ih h.1 hold).resumed hi h.2
        · refine .inr ⟨i, id, done, ?_, hpos, hlt⟩
          rw [List.getElem?_set_self (List.getElem?_eq_some_iff.mp hi).1]
          exact congrArg some hnext

/-- **No provider event is lost.** In a run in which every delivery that has stored the event, and
has answered or committed, comes to its end, and in which the event is not stored again once its
handler has completed: once no delivery is in progress, an event that has been answered has been
put on the queue; and the handler completes its effects at most once. -/
theorem notLost_and_once {commitsAfterResponse : Bool} {endpoint : Endpoint} {type : String}
    {ls : List (Turn Event Outcome)}
    (h : (deliveries commitsAfterResponse endpoint type).system.Along
      (Kept commitsAfterResponse endpoint type) ls) :
    NotLost endpoint type ((deliveries commitsAfterResponse endpoint type).system.log ls)
        ((deliveries commitsAfterResponse endpoint type).system.after ls) ∧
      ((deliveries commitsAfterResponse endpoint type).system.log ls).count .completed ≤ 1 := by
  refine ⟨fun htype hended hanswered => ?_, (outline.holds h).shared.once⟩
  rcases secured_of_kept htype h (.inl hanswered) with hqueued | ⟨j, id, done, hj, -, hlt⟩
  · exact hqueued
  · have hdone := hended _ (List.mem_of_getElem? hj)
    exact absurd hlt (of_decide_eq_false hdone)

/-- Two deliveries side by side, of which the second one fails, and the handler. -/
def sideBySide : List (Turn Event Outcome) :=
  [.event .delivered, .event .delivered, .resumed 0 .executed, .resumed 1 .executed,
    .resumed 0 .executed, .resumed 1 .executed, .resumed 0 .executed, .resumed 0 .executed,
    .resumed 1 .executed, .resumed 0 .executed, .event (.consumed 0), .resumed 2 .executed,
    .resumed 2 .executed, .resumed 2 .executed]

theorem sideBySide_kept :
    NotLost .webhook "setup_intent.succeeded"
        ((deliveries true .webhook "setup_intent.succeeded").system.log sideBySide)
        ((deliveries true .webhook "setup_intent.succeeded").system.after sideBySide) ∧
      ((deliveries true .webhook "setup_intent.succeeded").system.log sideBySide).count
        .completed ≤ 1 :=
  notLost_and_once (by decide)

/-- A delivery that is answered, and then stopped. -/
def stopped : List (Turn Event Outcome) :=
  [.event .delivered, .resumed 0 .executed, .resumed 0 .executed, .resumed 0 .executed,
    .resumed 0 .raised]

/-- Another delivery, which finds the event stored or not, is answered. -/
def redelivered : List (Turn Event Outcome) :=
  stopped ++ [.event .delivered, .resumed 1 .executed, .resumed 1 .executed,
    .resumed 1 .executed, .resumed 1 .executed]

/-- A delivery, its handler, the deletion of the event, and all of this again. -/
def pruned : List (Turn Event Outcome) :=
  [.event .delivered, .resumed 0 .executed, .resumed 0 .executed, .resumed 0 .executed,
    .resumed 0 .executed, .resumed 0 .executed, .event (.consumed 0), .resumed 1 .executed,
    .resumed 1 .executed, .resumed 1 .executed, .event .pruned, .event .delivered,
    .resumed 2 .executed, .resumed 2 .executed, .resumed 2 .executed, .resumed 2 .executed,
    .resumed 2 .executed, .event (.consumed 1), .resumed 3 .executed, .resumed 3 .executed,
    .resumed 3 .executed]

/-- The process stops between the answer and the commit; or between the commit and the answer, and
the event is delivered again. An event that is deleted and delivered again is handled again. -/
theorem not_notLost :
    ¬NotLost .webhook "setup_intent.succeeded"
        ((deliveries true .webhook "setup_intent.succeeded").system.log stopped)
        ((deliveries true .webhook "setup_intent.succeeded").system.after stopped) ∧
      ¬NotLost .webhook "setup_intent.succeeded"
        ((deliveries false .webhook "setup_intent.succeeded").system.log redelivered)
        ((deliveries false .webhook "setup_intent.succeeded").system.after redelivered) ∧
      ((deliveries true .webhook "setup_intent.succeeded").system.log pruned).count
        .completed = 2 := by
  decide

end ExternalEvents

end Rapidly.Analytics
