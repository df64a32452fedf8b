import Rapidly.Messaging.Webhooks.Worker

/-!
# The order of webhook requests

`is_latest_event` lets an attempt go on when its statement counts no earlier event of the
endpoint, at most a minute old, that is without a delivery. It sees the events that are
committed by then. An event whose creation time is earlier but whose transaction commits later
is not counted, and is attempted after the other one (`lateCommit_unordered`).

`Ordered` is what the claimed order says about the events that exist and the requests that have
been sent so far. `CommittedInTime` is the condition under which it is kept: before a request
for a later event is sent, an event has been committed when the attempt counted, or has been
attempted since; and no event is committed after a later one has been sent. Along every run
whose steps meet it the order is kept (`ordered_of_committedInTime`). The proof is an outline
in which an attempt that has counted knows that the events it saw are attempted, are deleted, or
have become too old.
-/

namespace Rapidly.Messaging.Webhooks

open Identity Relational Transition System

/-! ### The order -/

/-- The observation is an attempt to deliver the event. -/
def Observation.Attempts (eventId : Uuid) : Observation → Prop
  | .attempted _ id => id = eventId
  | .sent _ event _ _ => event.id = eventId
  | .gaveUp _ _ => False

instance (eventId : Uuid) (o : Observation) : Decidable (o.Attempts eventId) :=
  match o with
  | .attempted _ id => inferInstanceAs (Decidable (id = eventId))
  | .sent _ event _ _ => inferInstanceAs (Decidable (event.id = eventId))
  | .gaveUp _ _ => isFalse id

/-- The event is an earlier one of the endpoint than another, and at most a minute old. -/
def Before (e event : WebhookEvent) (now : Time) : Prop :=
  e.webhookEndpointId = event.webhookEndpointId ∧ e.createdAt < event.createdAt ∧
    now ≤ e.createdAt + minute

instance (e event : WebhookEvent) (now : Time) : Decidable (Before e event now) :=
  inferInstanceAs (Decidable (_ ∧ _ ∧ _))

/-- The observation is a request for a later event of the endpoint. -/
def SentAfter (e : WebhookEvent) : Observation → Prop
  | .sent _ event now _ => Before e event now
  | _ => False

instance (e : WebhookEvent) (o : Observation) : Decidable (SentAfter e o) :=
  match o with
  | .sent _ event now _ => inferInstanceAs (Decidable (Before e event now))
  | .attempted _ _ => isFalse id
  | .gaveUp _ _ => isFalse id

def WasAttempted (log : List Observation) (eventId : Uuid) : Prop :=
  ∃ o ∈ log, o.Attempts eventId

instance (log : List Observation) (eventId : Uuid) : Decidable (WasAttempted log eventId) :=
  inferInstanceAs (Decidable (∃ o ∈ log, _))

/-- Every event that is not deleted has been attempted before any request for a later event of
its endpoint that was sent within a minute of its creation. -/
def Ordered (log : List Observation) (s : State) : Prop :=
  ∀ e ∈ s.events.rows, e.deletedAt = none → ∀ o ∈ log, SentAfter e o →
    ∃ a ∈ log, a.Attempts e.id ∧ Precedes log a o

instance (log : List Observation) (s : State) : Decidable (Ordered log s) :=
  inferInstanceAs (Decidable (∀ e ∈ s.events.rows, _))

variable (config : Config)

/-- After the step the requests are in order. -/
def InOrder : Condition (Pool State Attempt) (Turn Event Answer) := fun past p l =>
  Ordered ((deliveryTasks config).system.log (past ++ [l]))
    ((deliveryTasks config).system.step p l).1.shared

instance (past : List (Turn Event Answer)) (p : Pool State Attempt) (l : Turn Event Answer) :
    Decidable (InOrder config past p l) :=
  inferInstanceAs (Decidable (Ordered _ _))

/-- When an attempt sends a request, the earlier events of the endpoint were there when it
counted, or have been attempted since. When events are committed, no later one has been sent. -/
def Timely (log : List Observation) (s : State) (answer : Answer) : Attempt → Prop
  | .posting _ event seen => answer.outcome.sent → ∀ e ∈ s.events.rows, e.deletedAt = none →
      Before e event s.now → e.id ∈ seen ∨ WasAttempted log e.id
  | .creating events => answer ≠ .rolledBack → ∀ e ∈ events, ∀ o ∈ log, ¬SentAfter e o
  | _ => True

instance (log : List Observation) (s : State) (answer : Answer) (t : Attempt) :
    Decidable (Timely log s answer t) :=
  match t with
  | .posting _ event seen => inferInstanceAs (Decidable (answer.outcome.sent →
      ∀ e ∈ s.events.rows, e.deletedAt = none → Before e event s.now →
        e.id ∈ seen ∨ WasAttempted log e.id))
  | .creating events => inferInstanceAs (Decidable (answer ≠ .rolledBack →
      ∀ e ∈ events, ∀ o ∈ log, ¬SentAfter e o))
  | .loading _ => isTrue trivial
  | .counting _ _ _ => isTrue trivial
  | .resolving _ _ _ _ => isTrue trivial
  | .saving _ _ _ => isTrue trivial
  | .finished => isTrue trivial

/-- Every step is in time. -/
def CommittedInTime : Condition (Pool State Attempt) (Turn Event Answer) := fun past p l =>
  ∀ r ∈ p.resumed l, Timely ((deliveryTasks config).system.log past) p.shared r.1 r.2

instance (past : List (Turn Event Answer)) (p : Pool State Attempt) (l : Turn Event Answer) :
    Decidable (CommittedInTime config past p l) :=
  inferInstanceAs (Decidable (∀ r ∈ p.resumed l, _))

/-! ### What becomes of the events -/

section Later

variable {config} {s s' s'' : State} {log obs : List Observation} {event : WebhookEvent}
variable {seen : List Uuid} {e e' : WebhookEvent}

/-- A row of an event, later on. -/
structure Same (e e' : WebhookEvent) : Prop where
  id : e'.id = e.id
  endpoint : e'.webhookEndpointId = e.webhookEndpointId
  createdAt : e'.createdAt = e.createdAt
  deleted : e'.deletedAt = none → e.deletedAt = none

theorem same_markSkipped (e : WebhookEvent) : Same e e.markSkipped := ⟨rfl, rfl, rfl, fun h => h⟩

theorem same_archive (e : WebhookEvent) : Same e e.archive := ⟨rfl, rfl, rfl, fun h => h⟩

theorem same_delete (now : Time) (e : WebhookEvent) : Same e (e.delete now) :=
  ⟨rfl, rfl, rfl, nofun⟩

theorem same_record (event : WebhookEvent) (saved : Saved) (e : WebhookEvent) :
    Same e (.record event saved e) :=
  ⟨rfl, rfl, rfl, fun h => h⟩

theorem Same.refl (e : WebhookEvent) : Same e e := ⟨rfl, rfl, rfl, fun h => h⟩

/-- Time passes, rows stay, and rows that are added have new ids. -/
structure Later (s s' : State) : Prop where
  now : s.now ≤ s'.now
  row : ∀ e' ∈ s'.events, (∃ e ∈ s.events, Same e e') ∨ ∀ e ∈ s.events, e.id ≠ e'.id
  kept : ∀ e ∈ s.events, ∃ e' ∈ s'.events, Same e e'

theorem Later.of_events_eq (hnow : s.now ≤ s'.now) (h : s'.events = s.events) : Later s s' where
  now := hnow
  row e he := .inl ⟨e, h ▸ he, Same.refl e⟩
  kept e he := ⟨e, h ▸ he, Same.refl e⟩

theorem Later.modifyEvents (p : WebhookEvent → Prop) [DecidablePred p]
    {f : WebhookEvent → WebhookEvent} (hf : ∀ e, Same e (f e)) :
    Later s (s.modifyEvents p f fun e => (hf e).id) := by
  have hsame (e : WebhookEvent) : Same e (if p e then f e else e) := by
    split
    · exact hf e
    · exact Same.refl e
  refine ⟨le_rfl, fun e' he' => .inl ?_, fun e he => ?_⟩
  · obtain ⟨e, he, rfl⟩ := (Table.mem_modify fun e => (hf e).id).mp he'
    exact ⟨e, he, hsame e⟩
  · exact ⟨_, Table.mem_modify_of_mem he fun e => (hf e).id, hsame e⟩

theorem Later.insert (events : List WebhookEvent) :
    Later s { s with events := events.foldl Table.insert s.events } where
  now := le_rfl
  row e he := by
    obtain hold | ⟨-, hnew⟩ := Table.mem_foldl_insert he
    · exact .inl ⟨e, hold, Same.refl e⟩
    · exact .inr hnew
  kept e he := ⟨e, Table.subset_foldl_insert events he, Same.refl e⟩

theorem Before.same (h : Before e' event s'.now) (hsame : Same e e') (hnow : s.now ≤ s'.now) :
    Before e event s.now := by
  obtain ⟨hendpoint, hearlier, hage⟩ := h
  rw [hsame.endpoint] at hendpoint
  rw [hsame.createdAt] at hearlier hage
  exact ⟨hendpoint, hearlier, hnow.trans hage⟩

theorem SentAfter.same {o : Observation} (h : SentAfter e' o) (hsame : Same e e') :
    SentAfter e o := by
  rcases o with _ | ⟨i, event, now, outcome⟩ | _
  · exact h
  · obtain ⟨hendpoint, hearlier, hage⟩ := h
    rw [hsame.endpoint] at hendpoint
    rw [hsame.createdAt] at hearlier hage
    exact ⟨hendpoint, hearlier, hage⟩
  · exact h

theorem WasAttempted.append {eventId : Uuid} (h : WasAttempted log eventId) :
    WasAttempted (log ++ obs) eventId := by
  obtain ⟨o, ho, hattempts⟩ := h
  exact ⟨o, List.mem_append_left _ ho, hattempts⟩

/-- The order is kept when the new rows are not behind a request, and the new requests come after
attempts of the earlier events. -/
theorem Ordered.later (h : Ordered log s) (hlater : Later s s')
    (hnew : ∀ e' ∈ s'.events, (∀ e ∈ s.events, e.id ≠ e'.id) → ∀ o ∈ log, ¬SentAfter e' o)
    (hsent : ∀ e' ∈ s'.events, e'.deletedAt = none → ∀ o ∈ obs, SentAfter e' o →
      WasAttempted log e'.id) : Ordered (log ++ obs) s' := by
  intro e' he' hlive o ho hafter
  rcases List.mem_append.mp ho with ho | ho
  · obtain ⟨e, he, hsame⟩ | hfresh := hlater.row e' he'
    · obtain ⟨a, ha, hattempts, hprecedes⟩ :=
        h e he (hsame.deleted hlive) o ho (hafter.same hsame)
      rw [← hsame.id] at hattempts
      exact ⟨a, List.mem_append_left _ ha, hattempts, hprecedes.append⟩
    · exact absurd hafter (hnew e' he' hfresh o ho)
  · obtain ⟨a, ha, hattempts⟩ := hsent e' he' hlive o ho hafter
    exact ⟨a, List.mem_append_left _ ha, hattempts, precedes_of_mem_append ha ho⟩

theorem Ordered.unsent (h : Ordered log s) (hlater : Later s s')
    (hold : ∀ e' ∈ s'.events, ∃ e ∈ s.events, e.id = e'.id)
    (hunsent : ∀ o ∈ obs, ∀ e, ¬SentAfter e o) : Ordered (log ++ obs) s' := by
  refine h.later hlater (fun e' he' hfresh => ?_) fun e' _ _ o ho hafter => ?_
  · obtain ⟨e, he, hid⟩ := hold e' he'
    exact absurd hid (hfresh e he)
  · exact absurd hafter (hunsent o ho e')

end Later

/-! ### What attempts know -/

section Know

variable {config} {s s' : State} {log obs : List Observation} {event : WebhookEvent}
variable {seen : List Uuid} {t : Attempt} {i : ℕ} {answer : Answer} {m : Message}

/-- The event is the one that was loaded. -/
def Loaded (s : State) (event : WebhookEvent) : Prop :=
  ∃ e ∈ s.events, e.id = event.id ∧ e.createdAt = event.createdAt

/-- The events that were seen are attempted, or need not be. -/
structure Seen (log : List Observation) (s : State) (event : WebhookEvent) (seen : List Uuid) :
    Prop where
  row : ∀ id ∈ seen, ∃ e ∈ s.events, e.id = id
  attempted : ∀ e ∈ s.events, e.deletedAt = none → e.id ∈ seen → Before e event s.now →
    WasAttempted log e.id

theorem Loaded.later (h : Loaded s event) (hlater : Later s s') : Loaded s' event := by
  obtain ⟨e, he, hid, hcreated⟩ := h
  obtain ⟨e', he', hsame⟩ := hlater.kept e he
  exact ⟨e', he', hsame.id.trans hid, hsame.createdAt.trans hcreated⟩

theorem Seen.later (h : Seen log s event seen) (hlater : Later s s') :
    Seen (log ++ obs) s' event seen := by
  refine ⟨fun id hid => ?_, fun e' he' hlive hseen hbefore => ?_⟩
  · obtain ⟨e, he, rfl⟩ := h.row id hid
    obtain ⟨e', he', hsame⟩ := hlater.kept e he
    exact ⟨e', he', hsame.id⟩
  · obtain ⟨e, he, hsame⟩ | hfresh := hlater.row e' he'
    · rw [hsame.id] at hseen ⊢
      exact (h.attempted e he (hsame.deleted hlive) hseen
        (hbefore.same hsame hlater.now)).append
    · obtain ⟨e, he, hid⟩ := h.row e'.id hseen
      exact absurd hid (hfresh e he)

/-- What an attempt knows. -/
def Knows (log : List Observation) (s : State) : Attempt → Prop
  | .counting _ event _ => Loaded s event
  | .resolving _ event _ seen => Seen log s event seen
  | .posting _ event seen => Seen log s event seen
  | .saving _ event _ => WasAttempted log event.id
  | _ => True

theorem Knows.later (h : Knows log s t) (hlater : Later s s') : Knows (log ++ obs) s' t := by
  rcases t with _ | _ | _ | _ | _ | _ | _
  case counting => exact Loaded.later h hlater
  case resolving => exact Seen.later h hlater
  case posting => exact Seen.later h hlater
  case saving => exact WasAttempted.append h
  all_goals trivial

/-- The assertion about the database: what has a delivery has been attempted, and the requests
are in order. -/
structure Shared (log : List Observation) (s : State) : Prop where
  delivered : ∀ d ∈ s.deliveries, WasAttempted log d.webhookEventId
  ordered : Ordered log s

theorem Shared.append (h : Shared log s) (hdeliveries : s'.deliveries = s.deliveries)
    (hordered : Ordered (log ++ obs) s') : Shared (log ++ obs) s' := by
  refine ⟨fun d hd => ?_, hordered⟩
  rw [hdeliveries] at hd
  exact (h.delivered d hd).append

/-- The rows of `s'` are rows of `s`. -/
def NoNewRows (s s' : State) : Prop := ∀ e' ∈ s'.events, ∃ e ∈ s.events, e.id = e'.id

theorem NoNewRows.of_events_eq (h : s'.events = s.events) : NoNewRows s s' :=
  fun e he => ⟨e, h ▸ he, rfl⟩

theorem NoNewRows.modifyEvents (p : WebhookEvent → Prop) [DecidablePred p]
    {f : WebhookEvent → WebhookEvent} (hf : ∀ e, (f e).id = e.id) :
    NoNewRows s (s.modifyEvents p f hf) := by
  intro e' he'
  obtain ⟨e, he, rfl⟩ := (Table.mem_modify hf).mp he'
  refine ⟨e, he, ?_⟩
  split
  · exact (hf e).symm
  · rfl

theorem Shared.unsent (h : Shared log s) (hlater : Later s s')
    (hdeliveries : s'.deliveries = s.deliveries) (hrows : NoNewRows s s')
    (hunsent : ∀ o ∈ obs, ∀ e, ¬SentAfter e o) : Shared (log ++ obs) s' :=
  h.append hdeliveries (h.ordered.unsent hlater hrows hunsent)

theorem seen_of_undelivered (h : Shared log s) (hloaded : Loaded s event)
    (hnone : s.undelivered event = []) :
    Seen log s event (s.events.rows.map WebhookEvent.id) := by
  refine ⟨fun id hid => ?_, fun e he hlive _ hbefore => ?_⟩
  · obtain ⟨e, he, rfl⟩ := List.mem_map.mp hid
    exact ⟨e, he, rfl⟩
  · obtain ⟨hendpoint, hearlier, hage⟩ := hbefore
    obtain ⟨e₀, he₀, hid₀, hcreated₀⟩ := hloaded
    have hne : e.id ≠ event.id := by
      intro hid
      have heq := Table.eq_of_key_eq he he₀ (hid.trans hid₀.symm)
      rw [heq, hcreated₀] at hearlier
      exact lt_irrefl _ hearlier
    by_contra hnot
    have hmem : e ∈ s.undelivered event := by
      refine Table.mem_select.mpr ⟨he, hlive, hendpoint, hne, fun d hd hd' => hnot ?_, hearlier,
        Int.sub_right_le_of_le_add hage⟩
      rw [← hd']
      exact h.delivered d hd
    rw [hnone] at hmem
    cases hmem

/-! ### Steps -/

theorem unsent_nil : ∀ o ∈ ([] : List Observation), ∀ e, ¬SentAfter e o :=
  fun _ h => absurd h List.not_mem_nil

theorem later_requeue : Later s (s.requeue config m) := by
  rw [State.requeue]
  split
  · exact Later.of_events_eq le_rfl rfl
  · exact Later.of_events_eq le_rfl rfl

theorem lost_unsent {o : Observation} (h : o ∈ lost config i m) (e : WebhookEvent) :
    ¬SentAfter e o := by
  rw [lost] at h
  split at h
  · cases h
  · obtain rfl := List.mem_singleton.mp h
    exact id

theorem Shared.same (h : Shared log s) : Shared (log ++ []) s :=
  h.unsent (.of_events_eq le_rfl rfl) rfl (.of_events_eq rfl) unsent_nil

theorem Shared.requeue (h : Shared log s) : Shared (log ++ []) (s.requeue config m) :=
  h.unsent later_requeue requeue_deliveries (.of_events_eq requeue_events) unsent_nil

theorem ordered_of_observe (h : Shared log s) (hseen : Seen log s event seen)
    (htimely : Timely log s answer (.posting m event seen)) (hobs : ∀ o ∈ obs,
      o = observe i event s.now answer.outcome ∨ ∀ e, ¬SentAfter e o) (hlater : Later s s')
    (hevents : s'.events = s.events) : Ordered (log ++ obs) s' := by
  refine h.ordered.later hlater (fun e' he' hfresh => ?_) fun e he hlive o ho hafter => ?_
  · exact absurd rfl (hfresh e' (hevents ▸ he'))
  · obtain rfl | hunsent := hobs o ho
    · rw [observe] at hafter
      split at hafter
      · rename_i hsent
        rw [hevents] at he
        obtain hin | hattempted := htimely hsent e he hlive hafter
        · exact hseen.attempted e he hlive hin hafter
        · exact hattempted
      · exact absurd hafter id
    · exact absurd hafter (hunsent e)

theorem attempts_observe {now : Time} {outcome : PostOutcome} :
    (observe i event now outcome).Attempts event.id := by
  rw [observe]
  split
  · exact rfl
  · exact rfl

/-- A step that keeps the assertion about the database and establishes what the attempt knows. -/
structure Kept (log : List Observation) (s : State)
    (r : State × Attempt × List Observation) : Prop where
  later : Later s r.1
  shared : Shared (log ++ r.2.2) r.1
  knows : Knows (log ++ r.2.2) r.1 r.2.1

theorem kept_creating {events : List WebhookEvent} (h : Shared log s)
    (htimely : Timely log s answer (.creating events)) :
    Kept log s (advance config s i answer (.creating events)) := by
  rw [advance]
  split
  · exact ⟨.of_events_eq le_rfl rfl, h.same, trivial⟩
  · rename_i hcommitted
    refine ⟨.insert events, h.append rfl ?_, trivial⟩
    refine h.ordered.later (.insert events) (fun e he hfresh => ?_)
      fun _ _ _ o ho => absurd ho List.not_mem_nil
    obtain hold | ⟨hnew, -⟩ := Table.mem_foldl_insert he
    · exact absurd rfl (hfresh e hold)
    · exact htimely hcommitted e hnew

theorem kept_loading (h : Shared log s) :
    Kept log s (advance config s i answer (.loading m)) := by
  rw [advance, load]
  split
  · exact ⟨later_requeue, h.requeue, trivial⟩
  · rename_i event hevent
    split
    · exact ⟨later_requeue, h.requeue, trivial⟩
    · split
      · have hskipped := Later.modifyEvents (s := s) (fun e => e.id = event.id) same_markSkipped
        have hrows := NoNewRows.modifyEvents (s := s) (fun e => e.id = event.id)
          fun e => (same_markSkipped e).id
        exact ⟨hskipped, h.unsent hskipped rfl hrows unsent_nil, trivial⟩
      · split
        · exact ⟨.of_events_eq le_rfl rfl, h.same, trivial⟩
        · split
          · exact ⟨.of_events_eq le_rfl rfl, h.same, trivial⟩
          · have hmem : event ∈ s.events :=
              (Table.get_eq_some_iff.mp (Option.filter_eq_some_iff.mp hevent).1).1
            exact ⟨.of_events_eq le_rfl rfl, h.same, event, hmem, rfl, rfl⟩

theorem kept_counting {url : String} (h : Shared log s) (hloaded : Loaded s event) :
    Kept log s (advance config s i answer (.counting m event url)) := by
  rw [advance]
  split
  · rename_i hnone
    have hlater : Later s s := .of_events_eq le_rfl rfl
    exact ⟨hlater, h.same, (seen_of_undelivered h hloaded hnone).later hlater⟩
  · refine ⟨later_requeue, ?_, trivial⟩
    exact h.unsent later_requeue requeue_deliveries (.of_events_eq requeue_events)
      fun o ho e => lost_unsent ho e

theorem kept_resolving {url : String} (h : Shared log s) (hseen : Seen log s event seen) :
    Kept log s (advance config s i answer (.resolving m event url seen)) := by
  have hlater : Later s s := .of_events_eq le_rfl rfl
  have hattempted : WasAttempted (log ++ [.attempted i event.id]) event.id :=
    ⟨_, List.mem_append_right _ (List.mem_singleton_self _), rfl⟩
  have hshared : Shared (log ++ [.attempted i event.id]) s := by
    refine h.unsent hlater rfl (.of_events_eq rfl) fun o ho e => ?_
    obtain rfl := List.mem_singleton.mp ho
    exact id
  rw [advance]
  split
  · exact ⟨hlater, hshared, hattempted⟩
  · split
    · exact ⟨hlater, hshared, hattempted⟩
    · exact ⟨hlater, h.same, hseen.later hlater⟩

theorem kept_posting (h : Shared log s) (hseen : Seen log s event seen)
    (htimely : Timely log s answer (.posting m event seen)) :
    Kept log s (advance config s i answer (.posting m event seen)) := by
  have hlater : Later s s := .of_events_eq le_rfl rfl
  rw [advance]
  split
  · refine ⟨hlater, h.append rfl ?_, ?_⟩
    · refine ordered_of_observe h hseen htimely (i := i) (fun o ho => ?_) hlater rfl
      exact .inl (List.mem_singleton.mp ho)
    · exact ⟨_, List.mem_append_right _ (List.mem_singleton_self _), attempts_observe⟩
  · refine ⟨later_requeue, h.append requeue_deliveries ?_, trivial⟩
    refine ordered_of_observe h hseen htimely (i := i) (fun o ho => ?_) later_requeue
      requeue_events
    rcases List.mem_cons.mp ho with rfl | ho
    · exact .inl rfl
    · exact .inr (lost_unsent ho)

theorem kept_saving {saved : Saved} (h : Shared log s) (hattempted : WasAttempted log event.id) :
    Kept log s (advance config s i answer (.saving m event saved)) := by
  have hmodified := Later.modifyEvents (s := s) (fun e => e.id = event.id) (same_record event saved)
  have hlater : Later s (s.save i event saved) := ⟨hmodified.now, hmodified.row, hmodified.kept⟩
  have hrows : NoNewRows s (s.save i event saved) :=
    NoNewRows.modifyEvents (fun e => e.id = event.id) fun e => (same_record event saved e).id
  rw [advance]
  refine ⟨hlater, ⟨fun d hd => ?_, ?_⟩, trivial⟩
  · rcases List.mem_append.mp hd with hd | hd
    · exact (h.delivered d hd).append
    · obtain rfl := List.mem_singleton.mp hd
      exact hattempted.append
  · refine h.ordered.unsent hlater hrows fun o ho e => ?_
    split at ho
    · cases ho
    · obtain rfl := List.mem_singleton.mp ho
      exact id

/-- **Steps of attempts.** A step that is in time keeps the assertion about the database and
establishes what the attempt knows. -/
theorem advance_spec (h : Shared log s) (hknows : Knows log s t)
    (htimely : Timely log s answer t) : Kept log s (advance config s i answer t) := by
  rcases t with events | m | ⟨m, event, url⟩ | ⟨m, event, url, seen⟩ | ⟨m, event, seen⟩ |
    ⟨m, event, saved⟩ | _
  case creating => exact kept_creating h htimely
  case loading => exact kept_loading h
  case counting => exact kept_counting h hknows
  case resolving => exact kept_resolving h hknows
  case posting => exact kept_posting h hknows htimely
  case saving => exact kept_saving h hknows
  case finished => exact ⟨.of_events_eq le_rfl rfl, h.same, trivial⟩

theorem arrive_spec (h : Shared log s) (e : Event) :
    Later s (arrive s e).1 ∧ Shared (log ++ (arrive s e).2.2) (arrive s e).1 := by
  have hmodified (p : WebhookEvent → Prop) [DecidablePred p] (f : WebhookEvent → WebhookEvent)
      (hf : ∀ e, Same e (f e)) :
      Later s (s.modifyEvents p f fun e => (hf e).id) ∧
        Shared (log ++ []) (s.modifyEvents p f fun e => (hf e).id) :=
    ⟨.modifyEvents p hf,
      h.unsent (.modifyEvents p hf) rfl (.modifyEvents p fun e => (hf e).id) unsent_nil⟩
  rcases e with now | events | m | position | endpoint | ⟨id, now⟩ | id | endpointId
  case tick =>
    have hlater : Later s { s with now := max s.now now } := .of_events_eq (le_max_left _ _) rfl
    exact ⟨hlater, h.unsent hlater rfl (.of_events_eq rfl) unsent_nil⟩
  case taken =>
    rw [arrive]
    split
    · exact ⟨.of_events_eq le_rfl rfl, h.same⟩
    · exact ⟨.of_events_eq le_rfl rfl,
        h.unsent (.of_events_eq le_rfl rfl) rfl (.of_events_eq rfl) unsent_nil⟩
  case eventDeleted => exact hmodified _ _ (same_delete now)
  case archived => exact hmodified _ _ same_archive
  case pendingSkipped => exact hmodified _ _ same_markSkipped
  all_goals exact ⟨.of_events_eq le_rfl rfl,
    h.unsent (.of_events_eq le_rfl rfl) rfl (.of_events_eq rfl) unsent_nil⟩

theorem knows_of_started {e : Event} (ht : t ∈ (arrive s e).2.1) : Knows log s' t := by
  rcases e with _ | _ | _ | position | _ | _ | _ | _
  case begun =>
    obtain rfl := List.mem_singleton.mp ht
    exact trivial
  case taken =>
    rw [arrive] at ht
    split at ht
    · cases ht
    · obtain rfl := List.mem_singleton.mp ht
      exact trivial
  all_goals cases ht

end Know

/-! ### Runs -/

section Runs

variable {config} {ls : List (Turn Event Answer)}

theorem outline : (deliveryTasks config).Outline (CommittedInTime config) Shared
    fun log s _ t => Knows log s t where
  init := ⟨nofun, fun _ he => absurd he List.not_mem_nil⟩
  event h _ := (arrive_spec h.shared _).2
  started h _ k t ht := knows_of_started (List.mem_of_getElem? ht)
  undisturbed h _ i t ht := (h.task i t ht).later (arrive_spec h.shared _).1
  resumed {past p i answer t} h hC ht := by
    have htimely : Timely ((deliveryTasks config).system.log past) p.shared answer t :=
      hC (answer, t) (Pool.resumed_eq ht answer)
    have hkept : Kept ((deliveryTasks config).system.log past) p.shared
        (advance config p.shared i answer t) := advance_spec h.shared (h.task i t ht) htimely
    exact ⟨hkept.shared, hkept.knows⟩
  interferes {past p i answer t} h hC ht j other hj _ := by
    have htimely : Timely ((deliveryTasks config).system.log past) p.shared answer t :=
      hC (answer, t) (Pool.resumed_eq ht answer)
    exact (h.task j other hj).later (advance_spec h.shared (h.task i t ht) htimely).later

/-- **Webhook ordering.** In every run whose steps are in time, the requests are in order after
every step. -/
theorem ordered_of_committedInTime
    (h : (deliveryTasks config).system.Along (CommittedInTime config) ls) :
    (deliveryTasks config).system.Along (InOrder config) ls := by
  refine outline.along_of_along (fun past l hholds hC => ?_) h
  have hstep := (outline.step hholds l hC).shared.ordered
  rw [InOrder, log_snoc]
  exact hstep

end Runs

def secondEvent : WebhookEvent :=
  { id := 11, webhookEndpointId := 1, createdAt := 1, payload := some "second" }

/-- Attempt `i` delivers the event of the first message in the queue. -/
def delivered (i : ℕ) : List (Turn Event Answer) :=
  [.event (.taken 0), .resumed i .executed, .resumed i .executed,
    .resumed i (.resolved (some ["93.184.216.34"])),
    .resumed i (.posted (.response 200 "" "")), .resumed i .executed]

/-- Both events are committed; the first one is delivered, then the second one. -/
def bothCommitted : List (Turn Event Answer) :=
  [.event (.endpointChanged hooksEndpoint), .event (.begun [firstEvent]),
    .event (.begun [secondEvent]), .resumed 1 .executed, .resumed 0 .executed,
    .event (.enqueued { webhookEventId := 10 }), .event (.enqueued { webhookEventId := 11 })] ++
    delivered 2 ++ delivered 3

theorem bothCommitted_ordered :
    (deliveryTasks hooksConfig).system.Along (InOrder hooksConfig) bothCommitted :=
  ordered_of_committedInTime (by decide +kernel)

/-- The transaction of the first event is still open when the second one is delivered. -/
def lateCommit : List (Turn Event Answer) :=
  [.event (.endpointChanged hooksEndpoint), .event (.begun [firstEvent]),
    .event (.begun [secondEvent]), .resumed 1 .executed,
    .event (.enqueued { webhookEventId := 11 })] ++ delivered 2 ++ [.resumed 0 .executed]

theorem lateCommit_unordered :
    ¬(deliveryTasks hooksConfig).system.Along (InOrder hooksConfig) lateCommit := by
  decide +kernel

end Rapidly.Messaging.Webhooks
