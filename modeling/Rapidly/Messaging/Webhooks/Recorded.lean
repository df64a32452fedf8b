import Rapidly.Messaging.Webhooks.Worker

/-!
# What attempts leave behind

The delivery of an attempt is added to the session in a `finally` clause, but the session is
that of `AsyncSessionMaker`: when the attempt ends in `Retry` it is rolled back, and the row is
lost (`retried_unrecorded`). A rejected URL ends the attempt with a `return` inside of `try`:
the event is marked as failed, but the branch that dispatches `webhook_event.failed` is not
reached. An attempt that raises for another reason, or that has to wait for earlier events with
its last retry, drops the message and leaves the event as it was.

`Recorded` is the claimed record: every request of an attempt that is over has exactly one row
with its outcome, and whenever a message is given up the event is marked as failed and the
failure handler is dispatched. `Conclusive` is the condition on the steps under which it is
kept, along every run (`recorded_of_conclusive`).
-/

namespace Rapidly.Messaging.Webhooks

open Identity Relational Transition System

/-! ### The record -/

/-- The row that records a request. -/
def PostOutcome.delivery (i : ℕ) (event : WebhookEvent) : PostOutcome → WebhookDelivery
  | .response status text statusError =>
    { id := i, webhookEventId := event.id, webhookEndpointId := event.webhookEndpointId
      succeeded := isSuccess status, httpCode := some status
      response :=
        if isSuccess status then responseText text
        else some ((responseText text).getD statusError) }
  | .httpError _ message =>
    { id := i, webhookEventId := event.id, webhookEndpointId := event.webhookEndpointId
      succeeded := false, httpCode := none, response := some message }
  | .unexpected _ =>
    { id := i, webhookEventId := event.id, webhookEndpointId := event.webhookEndpointId
      succeeded := false, httpCode := none, response := none }

/-- The rows of an attempt. -/
def State.rowsOf (s : State) (i : ℕ) : List WebhookDelivery := s.deliveries.filter fun d => d.id = i

/-- A request of an attempt that is over has exactly one row, with its outcome. -/
def RequestRecorded (p : Pool State Attempt) : Observation → Prop
  | .sent i event _ outcome =>
    p.tasks[i]? = some .finished → p.shared.rowsOf i = [outcome.delivery i event]
  | _ => True

instance (p : Pool State Attempt) (o : Observation) : Decidable (RequestRecorded p o) :=
  match o with
  | .sent i event _ outcome => inferInstanceAs (Decidable (p.tasks[i]? = some .finished →
      p.shared.rowsOf i = [outcome.delivery i event]))
  | .attempted _ _ => isTrue trivial
  | .gaveUp _ _ => isTrue trivial

/-- The event of a message that is given up is marked as failed, and the failure handler is
dispatched. -/
def FailureRecorded (s : State) : Observation → Prop
  | .gaveUp _ eventId => .failed eventId ∈ s.jobs ∧
      ∀ e ∈ s.events.rows, e.id = eventId → e.deletedAt = none → e.succeeded = some false
  | _ => True

instance (s : State) (o : Observation) : Decidable (FailureRecorded s o) :=
  match o with
  | .gaveUp _ eventId => inferInstanceAs (Decidable (.failed eventId ∈ s.jobs ∧
      ∀ e ∈ s.events.rows, e.id = eventId → e.deletedAt = none → e.succeeded = some false))
  | .attempted _ _ => isTrue trivial
  | .sent _ _ _ _ => isTrue trivial

variable (config : Config)

/-- After the step all requests of attempts that are over are recorded, and if the step has given
a message up, so is its failure. -/
def Recorded : Condition (Pool State Attempt) (Turn Event Answer) := fun past p l =>
  (∀ o ∈ (deliveryTasks config).system.log (past ++ [l]),
    RequestRecorded ((deliveryTasks config).system.step p l).1 o) ∧
  ∀ o ∈ ((deliveryTasks config).system.step p l).2,
    FailureRecorded ((deliveryTasks config).system.step p l).1.shared o

instance (past : List (Turn Event Answer)) (p : Pool State Attempt) (l : Turn Event Answer) :
    Decidable (Recorded config past p l) :=
  inferInstanceAs (Decidable ((∀ o ∈ _, RequestRecorded _ o) ∧ ∀ o ∈ _, FailureRecorded _ o))

/-! ### The condition -/

/-- The request succeeds or fails for good; an exception that is not an error of the request comes
before it is sent, and not with the last retry. -/
def Final (m : Message) : PostOutcome → Prop
  | .response status _ _ => isSuccess status ∨ config.maxRetries ≤ m.retries
  | .httpError sent _ => sent = false ∨ config.maxRetries ≤ m.retries
  | .unexpected sent => sent = false ∧ m.retries < config.maxRetries

instance (m : Message) (outcome : PostOutcome) : Decidable (Final config m outcome) :=
  match outcome with
  | .response status _ _ =>
    inferInstanceAs (Decidable (isSuccess status ∨ config.maxRetries ≤ m.retries))
  | .httpError sent _ => inferInstanceAs (Decidable (sent = false ∨ config.maxRetries ≤ m.retries))
  | .unexpected sent => inferInstanceAs (Decidable (sent = false ∧ m.retries < config.maxRetries))

/-- With its last retry an attempt does not have to wait for earlier events; its URL is not
rejected; and its request is the last one. -/
def Conclusive (s : State) (answer : Answer) : Attempt → Prop
  | .counting m event _ => s.undelivered event = [] ∨ m.retries < config.maxRetries
  | .resolving _ _ url _ =>
    (resolveSafeAddrs config.urlparse (fun _ => answer.lookup) url).isSome
  | .posting m _ _ => Final config m answer.outcome
  | _ => True

instance (s : State) (answer : Answer) (t : Attempt) : Decidable (Conclusive config s answer t) :=
  match t with
  | .counting m event _ =>
    inferInstanceAs (Decidable (s.undelivered event = [] ∨ m.retries < config.maxRetries))
  | .resolving _ _ url _ => inferInstanceAs (Decidable
      ((resolveSafeAddrs config.urlparse (fun _ => answer.lookup) url).isSome = true))
  | .posting m _ _ => inferInstanceAs (Decidable (Final config m answer.outcome))
  | .creating _ => isTrue trivial
  | .loading _ => isTrue trivial
  | .saving _ _ _ => isTrue trivial
  | .finished => isTrue trivial

/-- Every step is conclusive. -/
def AllConclusive : Condition (Pool State Attempt) (Turn Event Answer) := fun _ p l =>
  ∀ r ∈ p.resumed l, Conclusive config p.shared r.1 r.2

instance (past : List (Turn Event Answer)) (p : Pool State Attempt) (l : Turn Event Answer) :
    Decidable (AllConclusive config past p l) :=
  inferInstanceAs (Decidable (∀ r ∈ p.resumed l, _))

/-! ### What an attempt has sent -/

section Own

variable {config} {s s' : State} {log obs : List Observation} {event : WebhookEvent}
variable {t : Attempt} {i j : ℕ} {answer : Answer} {m : Message} {outcome : PostOutcome}

/-- The observation is a request of attempt `i`. -/
def SentBy (i : ℕ) : Observation → Prop
  | .sent j _ _ _ => j = i
  | _ => False

/-- Attempt `i` has not sent anything, and has no row. -/
structure Clean (log : List Observation) (s : State) (i : ℕ) : Prop where
  unsent : ∀ o ∈ log, ¬SentBy i o
  rows : s.rowsOf i = []

/-- All requests of attempt `i` have the row. -/
def SentAs (log : List Observation) (i : ℕ) (row : WebhookDelivery) : Prop :=
  ∀ event now outcome, .sent i event now outcome ∈ log → outcome.delivery i event = row

/-- What attempt `i` has sent, and what it is about to save. -/
def Owns (log : List Observation) (s : State) (i : ℕ) : Attempt → Prop
  | .saving _ event saved => s.rowsOf i = [] ∧ SentAs log i (saved.delivery i event) ∧
      (saved.succeeded = false → saved.job = some (.failed event.id))
  | .finished => ∀ event now outcome, .sent i event now outcome ∈ log →
      s.rowsOf i = [outcome.delivery i event]
  | _ => Clean log s i

/-- A step that neither sends a request of attempt `i` nor changes its rows. -/
structure Quiet (i : ℕ) (s s' : State) (obs : List Observation) : Prop where
  unsent : ∀ o ∈ obs, ¬SentBy i o
  rows : s'.rowsOf i = s.rowsOf i

theorem Clean.quiet (h : Clean log s i) (hquiet : Quiet i s s' obs) :
    Clean (log ++ obs) s' i := by
  refine ⟨fun o ho => ?_, hquiet.rows.trans h.rows⟩
  rcases List.mem_append.mp ho with ho | ho
  · exact h.unsent o ho
  · exact hquiet.unsent o ho

theorem mem_of_quiet {now : Time} (hquiet : Quiet i s s' obs)
    (h : .sent i event now outcome ∈ log ++ obs) : .sent i event now outcome ∈ log := by
  rcases List.mem_append.mp h with h | h
  · exact h
  · exact absurd rfl (hquiet.unsent _ h)

theorem Owns.quiet (h : Owns log s i t) (hquiet : Quiet i s s' obs) :
    Owns (log ++ obs) s' i t := by
  rcases t with _ | _ | _ | _ | _ | ⟨m, event, saved⟩ | _
  case saving =>
    refine ⟨hquiet.rows.trans h.1, fun event' now outcome hsent => ?_, h.2.2⟩
    exact h.2.1 event' now outcome (mem_of_quiet hquiet hsent)
  case finished =>
    intro event now outcome hsent
    exact hquiet.rows.trans (h event now outcome (mem_of_quiet hquiet hsent))
  all_goals exact Clean.quiet h hquiet

theorem Clean.finished (h : Clean log s i) : Owns log s i .finished :=
  fun _ _ _ hsent => absurd rfl (h.unsent _ hsent)

theorem quiet_of_deliveries (hunsent : ∀ o ∈ obs, ¬SentBy j o)
    (h : s'.deliveries = s.deliveries) : Quiet j s s' obs :=
  ⟨hunsent, by rw [State.rowsOf, State.rowsOf, h]⟩

theorem lost_unsent_by {o : Observation} (h : o ∈ lost config i m) : ¬SentBy j o := by
  rw [lost] at h
  split at h
  · cases h
  · obtain rfl := List.mem_singleton.mp h
    exact id

theorem observe_unsent_by {now : Time} (hji : j ≠ i) : ¬SentBy j (observe i event now outcome) := by
  rw [observe]
  split
  · exact fun h => hji h.symm
  · exact id

theorem load_cases (config : Config) (s : State) (m : Message) :
    (load config s m).1.deliveries = s.deliveries ∧ (load config s m).2.2 = [] ∧
      ((load config s m).2.1 = .finished ∨
        ∃ event url, (load config s m).2.1 = .counting m event url) := by
  rw [load]
  split
  · exact ⟨requeue_deliveries, rfl, .inl rfl⟩
  · split
    · exact ⟨requeue_deliveries, rfl, .inl rfl⟩
    · split
      · exact ⟨rfl, rfl, .inl rfl⟩
      · split
        · exact ⟨rfl, rfl, .inl rfl⟩
        · split
          · exact ⟨rfl, rfl, .inl rfl⟩
          · exact ⟨rfl, rfl, .inr ⟨_, _, rfl⟩⟩

theorem quiet_advance (hji : j ≠ i) :
    Quiet j s (advance config s i answer t).1 (advance config s i answer t).2.2 := by
  have hsame : Quiet j s s [] := ⟨fun _ ho => absurd ho List.not_mem_nil, rfl⟩
  have hattempted (event : WebhookEvent) : Quiet j s s [.attempted i event.id] := by
    refine quiet_of_deliveries (fun o ho => ?_) rfl
    obtain rfl := List.mem_singleton.mp ho
    exact id
  rcases t with events | m | ⟨m, event, url⟩ | ⟨m, event, url, seen⟩ | ⟨m, event, seen⟩ |
    ⟨m, event, saved⟩ | _
  case creating =>
    rw [advance]
    split
    · exact hsame
    · exact quiet_of_deliveries (fun _ ho => absurd ho List.not_mem_nil) rfl
  case loading =>
    obtain ⟨hdeliveries, hobs, -⟩ := load_cases config s m
    refine quiet_of_deliveries (fun o ho => ?_) hdeliveries
    rw [advance, hobs] at ho
    cases ho
  case counting =>
    rw [advance]
    split
    · exact hsame
    · exact quiet_of_deliveries (fun _ ho => lost_unsent_by ho) requeue_deliveries
  case resolving =>
    rw [advance]
    split
    · exact hattempted event
    · split
      · exact hattempted event
      · exact hsame
  case posting =>
    rw [advance]
    split
    · refine quiet_of_deliveries (fun o ho => ?_) rfl
      obtain rfl := List.mem_singleton.mp ho
      exact observe_unsent_by hji
    · refine quiet_of_deliveries (fun o ho => ?_) requeue_deliveries
      rcases List.mem_cons.mp ho with rfl | ho
      · exact observe_unsent_by hji
      · exact lost_unsent_by ho
  case saving =>
    rw [advance]
    refine ⟨fun o ho => ?_, ?_⟩
    · dsimp only at ho
      split at ho
      · cases ho
      · obtain rfl := List.mem_singleton.mp ho
        exact id
    · -- the delivery that is recorded belongs to the task itself
      change List.filter _ (s.deliveries ++ [saved.delivery i event]) = List.filter _ s.deliveries
      have hother : (saved.delivery i event).id ≠ j := Ne.symm hji
      rw [List.filter_append, List.filter_cons_of_neg (by simpa using hother), List.filter_nil,
        List.append_nil]
  case finished => exact hsame

/-! ### Steps -/

theorem conclude_eq_ok {canRetry : Bool} {saved : Saved}
    (h : conclude canRetry event.id outcome = .ok saved) (i : ℕ) :
    outcome.delivery i event = saved.delivery i event ∧
      (saved.succeeded = false → saved.job = some (.failed event.id)) := by
  rcases outcome with ⟨status, text, statusError⟩ | ⟨sent, message⟩ | sent
  · rw [conclude] at h
    split at h
    · rename_i hsuccess
      obtain rfl := Except.ok.inj h
      refine ⟨?_, nofun⟩
      rw [PostOutcome.delivery, Saved.delivery, if_pos hsuccess, decide_eq_true hsuccess]
    · rename_i hfailure
      split at h
      · simp at h
      · obtain rfl := Except.ok.inj h
        refine ⟨?_, fun _ => rfl⟩
        rw [PostOutcome.delivery, Saved.delivery, if_neg hfailure, decide_eq_false hfailure]
  · rw [conclude] at h
    split at h
    · simp at h
    · obtain rfl := Except.ok.inj h
      exact ⟨rfl, fun _ => rfl⟩
  · simp [conclude] at h

/-- A final outcome that is not saved comes from a request that was not sent, and there are
retries left. -/
theorem conclude_eq_error {raised : Raised} (hfinal : Final config m outcome)
    (h : conclude (m.retries < config.maxRetries) event.id outcome = .error raised) :
    outcome.sent = false ∧ m.retries < config.maxRetries := by
  rcases outcome with ⟨status, text, statusError⟩ | ⟨sent, message⟩ | sent
  · rw [conclude] at h
    split at h
    · simp at h
    · rename_i hfailure
      split at h
      · rename_i hretry
        have hlt := of_decide_eq_true hretry
        rcases hfinal with hsuccess | hle
        · exact absurd hsuccess hfailure
        · omega
      · simp at h
  · rw [conclude] at h
    split at h
    · rename_i hretry
      have hlt := of_decide_eq_true hretry
      rcases hfinal with hsent | hle
      · exact ⟨hsent, hlt⟩
      · omega
    · simp at h
  · exact hfinal

/-- An own step of an attempt: what it owns, and what it gives up. -/
structure Concluded (log : List Observation) (i : ℕ)
    (r : State × Attempt × List Observation) : Prop where
  owns : Owns (log ++ r.2.2) r.1 i r.2.1
  failure : ∀ o ∈ r.2.2, FailureRecorded r.1 o

theorem Clean.same (h : Clean log s i) : Clean (log ++ []) s i := by
  rwa [List.append_nil]

theorem Clean.requeue (h : Clean log s i) : Clean (log ++ []) (s.requeue config m) i :=
  h.quiet (quiet_of_deliveries (fun _ ho => absurd ho List.not_mem_nil) requeue_deliveries)

theorem failureRecorded_nil : ∀ o ∈ ([] : List Observation), FailureRecorded s o :=
  fun _ ho => absurd ho List.not_mem_nil

theorem failureRecorded_observe {now : Time} : FailureRecorded s (observe i event now outcome) := by
  rw [observe]
  split
  · trivial
  · trivial

theorem concluded_creating {events : List WebhookEvent} (h : Clean log s i) :
    Concluded log i (advance config s i answer (.creating events)) := by
  rw [advance]
  split
  · exact ⟨h.same.finished, failureRecorded_nil⟩
  · have hclean : Clean (log ++ []) { s with events := events.foldl Table.insert s.events } i :=
      h.quiet (quiet_of_deliveries (fun _ ho => absurd ho List.not_mem_nil) rfl)
    exact ⟨hclean.finished, failureRecorded_nil⟩

theorem concluded_loading (h : Clean log s i) :
    Concluded log i (advance config s i answer (.loading m)) := by
  obtain ⟨hdeliveries, hobs, hnext⟩ := load_cases config s m
  rw [advance]
  have hclean : Clean (log ++ (load config s m).2.2) (load config s m).1 i := by
    rw [hobs]
    exact h.quiet (quiet_of_deliveries (fun _ ho => absurd ho List.not_mem_nil) hdeliveries)
  refine ⟨?_, ?_⟩
  · obtain hfinished | ⟨event, url, hcounting⟩ := hnext
    · rw [hfinished]
      exact hclean.finished
    · rw [hcounting]
      exact hclean
  · rw [hobs]
    exact failureRecorded_nil

theorem concluded_counting {url : String} (h : Clean log s i)
    (hconclusive : Conclusive config s answer (.counting m event url)) :
    Concluded log i (advance config s i answer (.counting m event url)) := by
  rw [advance]
  split
  · exact ⟨h.same, failureRecorded_nil⟩
  · rename_i hwaits
    have hlt : m.retries < config.maxRetries := hconclusive.resolve_left hwaits
    rw [lost, if_pos hlt]
    exact ⟨h.requeue.finished, failureRecorded_nil⟩

theorem concluded_resolving {url : String} {seen : List Uuid} (h : Clean log s i)
    (hconclusive : Conclusive config s answer (.resolving m event url seen)) :
    Concluded log i (advance config s i answer (.resolving m event url seen)) := by
  rw [advance]
  split
  · rename_i hrejected
    rw [Conclusive, hrejected] at hconclusive
    simp at hconclusive
  · split
    · refine ⟨⟨h.rows, fun event' now outcome hsent => ?_, nofun⟩, fun o ho => ?_⟩
      · rcases List.mem_append.mp hsent with hsent | hsent
        · exact absurd rfl (h.unsent _ hsent)
        · simp at hsent
      · obtain rfl := List.mem_singleton.mp ho
        exact trivial
    · exact ⟨h.same, failureRecorded_nil⟩

theorem concluded_posting {seen : List Uuid} (h : Clean log s i)
    (hconclusive : Conclusive config s answer (.posting m event seen)) :
    Concluded log i (advance config s i answer (.posting m event seen)) := by
  rw [advance]
  split
  · rename_i saved hsaved
    obtain ⟨hdelivery, hjob⟩ := conclude_eq_ok hsaved i
    refine ⟨⟨h.rows, fun event' now outcome hsent => ?_, hjob⟩, fun o ho => ?_⟩
    · rcases List.mem_append.mp hsent with hsent | hsent
      · exact absurd rfl (h.unsent _ hsent)
      · have hobserved := List.mem_singleton.mp hsent
        rw [observe] at hobserved
        split at hobserved
        · obtain ⟨-, rfl, -, rfl⟩ := Observation.sent.inj hobserved
          exact hdelivery
        · nomatch hobserved
    · obtain rfl := List.mem_singleton.mp ho
      exact failureRecorded_observe
  · rename_i raised hraised
    obtain ⟨hunsent, hlt⟩ := conclude_eq_error hconclusive hraised
    rw [lost, if_pos hlt, observe, hunsent, if_neg Bool.false_ne_true]
    have hclean : Clean (log ++ [.attempted i event.id]) (s.requeue config m) i := by
      refine h.quiet (quiet_of_deliveries (fun o ho => ?_) requeue_deliveries)
      obtain rfl := List.mem_singleton.mp ho
      exact id
    refine ⟨hclean.finished, fun o ho => ?_⟩
    obtain rfl := List.mem_singleton.mp ho
    exact trivial

theorem concluded_saving {saved : Saved} (h : Owns log s i (.saving m event saved)) :
    Concluded log i (advance config s i answer (.saving m event saved)) := by
  obtain ⟨hrows, hsentAs, hjob⟩ := h
  have hnew : (s.save i event saved).rowsOf i = [saved.delivery i event] := by
    change List.filter _ (s.deliveries ++ [saved.delivery i event]) = _
    have hid : (saved.delivery i event).id = i := rfl
    rw [List.filter_append, List.filter_cons_of_pos (by simpa using hid), List.filter_nil]
    rw [State.rowsOf] at hrows
    rw [hrows, List.nil_append]
  rw [advance]
  refine ⟨fun event' now outcome hsent => ?_, fun o ho => ?_⟩
  · rcases List.mem_append.mp hsent with hsent | hsent
    · rw [hnew, hsentAs event' now outcome hsent]
    · dsimp only at hsent
      split at hsent
      · cases hsent
      · simp at hsent
  · dsimp only at ho
    split at ho
    · cases ho
    · rename_i hfailed
      have hfailed : saved.succeeded = false := by simpa using hfailed
      obtain rfl := List.mem_singleton.mp ho
      refine ⟨List.mem_append_right _ ?_, fun e he hid _ => ?_⟩
      · rw [hjob hfailed]
        exact List.mem_singleton_self _
      · obtain ⟨e₀, -, rfl⟩ :=
          (Table.mem_modify (f := WebhookEvent.record event saved) fun _ => rfl).mp he
        by_cases hrow : e₀.id = event.id
        · rw [if_pos hrow]
          exact congrArg some hfailed
        · rw [if_neg hrow] at hid
          exact absurd hid hrow

/-- **Steps of attempts.** A conclusive step keeps the record of the attempt. -/
theorem concluded_advance (h : Owns log s i t) (hconclusive : Conclusive config s answer t) :
    Concluded log i (advance config s i answer t) := by
  rcases t with events | m | ⟨m, event, url⟩ | ⟨m, event, url, seen⟩ | ⟨m, event, seen⟩ |
    ⟨m, event, saved⟩ | _
  case creating => exact concluded_creating h
  case loading => exact concluded_loading h
  case counting => exact concluded_counting h hconclusive
  case resolving => exact concluded_resolving h hconclusive
  case posting => exact concluded_posting h hconclusive
  case saving => exact concluded_saving h
  case finished =>
    refine ⟨fun event now outcome hsent => ?_, failureRecorded_nil⟩
    rw [advance, List.append_nil] at hsent
    exact h event now outcome hsent

end Own

/-! ### Runs -/

section Runs

variable {config} {ls : List (Turn Event Answer)}

/-- What happens outside of the attempts sends nothing and leaves the deliveries as they are. -/
theorem arrive_deliveries (s : State) (e : Event) :
    (arrive s e).2.2 = [] ∧ (arrive s e).1.deliveries = s.deliveries := by
  rcases e with _ | _ | _ | position | _ | _ | _ | _
  case taken =>
    rw [arrive]
    split
    · exact ⟨rfl, rfl⟩
    · exact ⟨rfl, rfl⟩
  all_goals exact ⟨rfl, rfl⟩

theorem owns_of_started {s s' : State} {log : List Observation} {i : ℕ} {t : Attempt} {e : Event}
    (ht : t ∈ (arrive s e).2.1) (h : Clean log s' i) : Owns log s' i t := by
  rcases e with _ | _ | _ | position | _ | _ | _ | _
  case begun =>
    obtain rfl := List.mem_singleton.mp ht
    exact h
  case taken =>
    rw [arrive] at ht
    split at ht
    · cases ht
    · obtain rfl := List.mem_singleton.mp ht
      exact h
  all_goals cases ht

/-- Requests and rows belong to attempts that have been started. -/
structure InNumber (log : List Observation) (p : Pool State Attempt) : Prop where
  sent : ∀ o ∈ log, ∀ i, SentBy i o → i < p.tasks.length
  row : ∀ d ∈ p.shared.deliveries, d.id < p.tasks.length

theorem InNumber.step {log : List Observation} {p : Pool State Attempt} (h : InNumber log p)
    (l : Turn Event Answer) :
    InNumber (log ++ ((deliveryTasks config).step p l).2) ((deliveryTasks config).step p l).1 := by
  rcases l with e | ⟨i, answer⟩
  · obtain ⟨hobs, hdeliveries⟩ := arrive_deliveries p.shared e
    rw [Tasks.step_event]
    refine ⟨fun o ho j hj => ?_, fun d hd => ?_⟩
    · change o ∈ log ++ (arrive p.shared e).2.2 at ho
      rw [hobs, List.append_nil] at ho
      exact (h.sent o ho j hj).trans_le (by simp)
    · change d ∈ (arrive p.shared e).1.deliveries at hd
      rw [hdeliveries] at hd
      exact (h.row d hd).trans_le (by simp)
  · rcases hi : p.tasks[i]? with _ | t
    · rw [Tasks.step_resumed_none hi]
      rwa [List.append_nil]
    · have hlt : i < p.tasks.length := (List.getElem?_eq_some_iff.mp hi).1
      rw [Tasks.step_resumed hi]
      refine ⟨fun o ho j hj => ?_, fun d hd => ?_⟩
      · rw [List.length_set]
        rcases List.mem_append.mp ho with ho | ho
        · exact h.sent o ho j hj
        · by_cases hji : j = i
          · rwa [hji]
          · have hquiet : Quiet j p.shared (advance config p.shared i answer t).1
                (advance config p.shared i answer t).2.2 := quiet_advance hji
            exact absurd hj (hquiet.unsent o ho)
      · rw [List.length_set]
        by_cases hdi : d.id = i
        · rwa [hdi]
        · have hquiet : Quiet d.id p.shared (advance config p.shared i answer t).1
              (advance config p.shared i answer t).2.2 := quiet_advance hdi
          have hrows := hquiet.rows
          have hmem : d ∈ (advance config p.shared i answer t).1.rowsOf d.id :=
            List.mem_filter.mpr ⟨hd, decide_eq_true rfl⟩
          rw [hrows] at hmem
          exact h.row d (List.mem_filter.mp hmem).1

/-- Attempts are numbered as they are started. -/
def Numbered (config : Config) : Condition (Pool State Attempt) (Turn Event Answer) :=
  fun past p _ => InNumber ((deliveryTasks config).system.log past) p

theorem along_numbered : (deliveryTasks config).system.Along (Numbered config) ls := by
  refine System.along_of_forall _ (fun past _ => ?_) ls
  exact System.invariant _ (fun _ p log => InNumber log p)
    ⟨fun _ ho => absurd ho List.not_mem_nil, fun _ hd => absurd hd List.not_mem_nil⟩
    (fun _ l h => h.step l) past

theorem InNumber.clean {log : List Observation} {p : Pool State Attempt} (h : InNumber log p)
    {i : ℕ} (hi : p.tasks.length ≤ i) : Clean log p.shared i := by
  refine ⟨fun o ho hsent => ?_, List.filter_eq_nil_iff.mpr fun d hd => ?_⟩
  · have hlt := h.sent o ho i hsent
    omega
  · have hlt := h.row d hd
    have hne : d.id ≠ i := by omega
    simpa using hne

theorem recordOutline : (deliveryTasks config).Outline
    (fun past p l => AllConclusive config past p l ∧ Numbered config past p l)
    (fun _ _ => True) Owns where
  init := trivial
  event _ _ := trivial
  started {past p e} h hC k t ht := by
    obtain ⟨hobs, hdeliveries⟩ := arrive_deliveries p.shared e
    refine owns_of_started (List.mem_of_getElem? ht) ?_
    refine (hC.2.clean (Nat.le_add_right _ k)).quiet
      (quiet_of_deliveries (fun o ho => ?_) hdeliveries)
    change o ∈ (arrive p.shared e).2.2 at ho
    rw [hobs] at ho
    cases ho
  undisturbed {past p e} h _ i t ht := by
    obtain ⟨hobs, hdeliveries⟩ := arrive_deliveries p.shared e
    refine (h.task i t ht).quiet (quiet_of_deliveries (fun o ho => ?_) hdeliveries)
    change o ∈ (arrive p.shared e).2.2 at ho
    rw [hobs] at ho
    cases ho
  resumed {past p i answer t} h hC ht :=
    ⟨trivial, (concluded_advance (h.task i t ht) (hC.1 _ (Pool.resumed_eq ht answer))).owns⟩
  interferes {past p i answer t} h _ _ j other hj hji :=
    (h.task j other hj).quiet (quiet_advance hji)

end Runs

/-- The event is committed, and a first attempt gets a response. -/
def attempted (m : Message) (outcome : PostOutcome) : List (Turn Event Answer) :=
  [.event (.endpointChanged hooksEndpoint), .event (.begun [firstEvent]), .resumed 0 .executed,
    .event (.enqueued m), .event (.taken 0), .resumed 1 .executed, .resumed 1 .executed,
    .resumed 1 (.resolved (some ["93.184.216.34"])), .resumed 1 (.posted outcome),
    .resumed 1 .executed]

end Rapidly.Messaging.Webhooks
