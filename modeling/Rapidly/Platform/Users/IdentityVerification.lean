import Rapidly.Relational.ReadCommitted
import Rapidly.Transition.Tasks

/-!
# Identity verification

The verification status of one user, as `platform/user/actions.py` changes it: the handlers of
the provider's events (`integrations/stripe/workers.py`), `create_identity_verification` and
`delete_identity_verification`, side by side, one SQL statement a step. The events come in any
order, any number of times, for any session. `repository.update` does not flush: the row is
written when the transaction commits, and only with the columns that the operation has set.

* `verification` is the system.
* `verified_stays` says in which runs a user who is verified stays so until the verification is
  deleted.
-/

namespace Rapidly.Platform

open Relational Transition

namespace IdentityVerification

/-- `IdentityVerificationStatus`. -/
inductive Status where
  | unverified
  | pending
  | verified
  | failed
deriving DecidableEq

/-- The status of a `VerificationSession` of the provider. -/
inductive SessionStatus where
  | requiresInput
  | processing
  | verified
  | canceled
deriving DecidableEq

/-- A `VerificationSession` of the provider. -/
structure VerificationSession where
  id : String
  status : SessionStatus
  clientSecret : Option String := none
deriving DecidableEq

/-- The columns of a user. -/
structure User where
  identityVerificationStatus : Status := .unverified
  identityVerificationId : Option String := none
deriving DecidableEq

/-- `identity_verified`. -/
def User.identityVerified (user : User) : Bool := user.identityVerificationStatus = .verified

/-- What an operation has set and not flushed: the `update_dict` of its `repository.update`. -/
inductive Update where
  | status (target : Status)
  | session (id : String)
  /-- `delete_identity_verification`. -/
  | reset
deriving DecidableEq

def Update.apply : Update → User → User
  | .status target, user => { user with identityVerificationStatus := target }
  | .session id, user => { user with identityVerificationId := some id }
  | .reset, _ => { identityVerificationStatus := .unverified, identityVerificationId := none }

/-- The handlers of `identity.verification_session` events. -/
inductive EventKind where
  | verified
  | processing
  | requiresInput
  | canceled
deriving DecidableEq

/-- An operation. -/
inductive Task where
  /-- A handler is about to load the user of the session. -/
  | handling (kind : EventKind) (session : VerificationSession)
  /-- `create_identity_verification` loads the user and asks for the session, or for a new one. -/
  | creating
  | retrieving (id : String)
  | requesting
  /-- `delete_identity_verification` loads the user and redacts the session. -/
  | deleting
  | redacting
  /-- The session is about to flush, and then to commit. -/
  | flushing (update : Update)
  | committing (update : Update)
  | ended
  | failed
deriving DecidableEq

/-- How the next step of an operation turns out: a statement is executed or a request succeeds,
possibly with a session, or an exception is raised. A handler whose user is deleted or blocked
raises. -/
inductive Answer where
  | executed
  | session (found : Option VerificationSession)
  | raised
deriving DecidableEq

inductive Event where
  | webhook (kind : EventKind) (session : VerificationSession)
  | create
  | delete
deriving DecidableEq

/-- What a handler does with the user that it has loaded: `identity_verification_verified`,
`identity_verification_pending` and `identity_verification_failed`. -/
def handle (kind : EventKind) (session : VerificationSession) (user : User) : Task :=
  match kind with
  | .verified =>
    if session.status = .verified then .flushing (.status .verified) else .failed
  | .processing =>
    -- a late event shall not change the status
    if user.identityVerified then .ended
    else if session.status = .processing then .flushing (.status .pending)
    else .failed
  | .requiresInput => .flushing (.status .failed)
  | .canceled => .flushing (.status .failed)

/-- `_guard_verification_state`, then `_get_or_create_verification_session`. -/
def create (user : User) : Task :=
  if user.identityVerified then .failed
  else if user.identityVerificationStatus = .pending then .failed
  else match user.identityVerificationId with
    | some id => .retrieving id
    | none => .requesting

/-- The end of `create_identity_verification`. -/
def useSession (session : VerificationSession) : Task :=
  if session.clientSecret = none then .failed else .flushing (.session session.id)

/-- One step of an operation. The `UPDATE` waits while another transaction holds the row. -/
def Task.advance (user : Versioned User) (i : ℕ) :
    Answer → Task → Versioned User × Task × List Unit
  | .executed, .handling kind session =>
    if user.committed.identityVerificationId = some session.id then
      (user, handle kind session user.committed, [])
    else (user, .failed, [])
  | .executed, .creating => (user, create user.committed, [])
  | .session found, .retrieving _ =>
    match found with
    | some session =>
      if session.status = .requiresInput then (user, useSession session, [])
      else (user, .requesting, [])
    | none => (user, .requesting, [])
  | .session (some session), .requesting => (user, useSession session, [])
  | .executed, .deleting =>
    match user.committed.identityVerificationId with
    | some _ => (user, .redacting, [])
    | none => (user, .flushing .reset, [])
  -- a session that the provider does not know is no error
  | .executed, .redacting => (user, .flushing .reset, [])
  | .executed, .flushing update =>
    if user.LockedFor i then (user, .flushing update, [])
    else (user.write i (update.apply user.latest), .committing update, [])
  | .executed, .committing _ => (user.commit i, .ended, [])
  | .raised, .ended => (user, .ended, [])
  | .raised, _ => (user.rollback i, .failed, [])
  | _, t => (user, t, [])

/-- The operations on one user, from its creation on. -/
def verification : Tasks (Versioned User) Task Event Answer Unit where
  init := { committed := {} }
  arrive user _
    | .webhook kind session => (user, [.handling kind session], [])
    | .create => (user, [.creating], [])
    | .delete => (user, [.deleting], [])
  advance user i := Task.advance user i

/-- A user who is verified stays so, unless `delete_identity_verification` commits. -/
def VerifiedStays : System.Condition (Pool (Versioned User) Task) (Turn Event Answer)
  | _, p, l => p.shared.committed.identityVerified →
      (verification.step p l).1.shared.committed.identityVerified ∨
        p.resumed l = some (.executed, .committing .reset)

instance (past : List (Turn Event Answer)) (p : Pool (Versioned User) Task)
    (l : Turn Event Answer) : Decidable (VerifiedStays past p l) :=
  inferInstanceAs (Decidable (_ → _ ∨ _))

/-- A handler that writes another status than verified writes it to a user who is not verified by
then. -/
def Timely : System.Condition (Pool (Versioned User) Task) (Turn Event Answer)
  | _, p, .resumed i .executed =>
    match p.tasks[i]? with
    | some (.flushing (.status target)) =>
      target ≠ .verified → ¬p.shared.LockedFor i → ¬p.shared.committed.identityVerified
    | _ => True
  | _, _, _ => True

instance (past : List (Turn Event Answer)) (p : Pool (Versioned User) Task)
    (l : Turn Event Answer) : Decidable (Timely past p l) := by
  unfold Timely
  split
  · split <;> infer_instance
  · infer_instance

variable {user : Versioned User} {i : ℕ} {answer : Answer} {t : Task}

/-- What one step of an operation can do. -/
inductive Advanced (user : Versioned User) (i : ℕ) :
    Answer → Task → Versioned User × Task → Prop
  | went (answer : Answer) (t t' : Task) (h : ∀ update, t ≠ .committing update) :
    Advanced user i answer t (user, t')
  | stayed (answer : Answer) (t : Task) : Advanced user i answer t (user, t)
  | flushed (update : Update) (h : ¬user.LockedFor i) :
    Advanced user i .executed (.flushing update)
      (user.write i (update.apply user.latest), .committing update)
  | committed (update : Update) :
    Advanced user i .executed (.committing update) (user.commit i, .ended)
  | failed (t : Task) : Advanced user i .raised t (user.rollback i, .failed)

theorem Task.advanced : Advanced user i answer t
    ((t.advance user i answer).1, (t.advance user i answer).2.1) := by
  fun_cases Task.advance user i answer t
  case case11 hlocked => exact .stayed ..
  case case12 hfree => exact .flushed _ hfree
  case case13 => exact .committed _
  case case14 => exact .stayed ..
  case case15 => exact .failed _
  case case16 => exact .stayed ..
  all_goals exact .went _ _ _ (by simp)

/-- No column but the status decides whether a user is verified, and only two updates set it. -/
theorem Update.apply_verified {update : Update} {u : User} (hu : u.identityVerified)
    (hstatus : ∀ target, update = .status target → target = .verified) :
    (update.apply u).identityVerified ∨ update = .reset := by
  cases update with
  | status target =>
    left
    rw [hstatus target rfl]
    rfl
  | session id => exact .inl hu
  | reset => exact .inr rfl

variable {past ls : List (Turn Event Answer)} {p : Pool (Versioned User) Task}

/-- A version that is not committed is that of an operation that is about to commit, and a verified
user is verified in it too, unless the operation is a deletion. -/
def Sound (p : Pool (Versioned User) Task) : Prop :=
  ∀ (i : ℕ) (u : User), p.shared.pending = some (i, u) → ∃ update,
    p.tasks[i]? = some (.committing update) ∧
      (p.shared.committed.identityVerified → u.identityVerified ∨ update = .reset)

theorem Sound.event (h : Sound p) (e : Event) : Sound (verification.step p (.event e)).1 := by
  have hshared : (verification.step p (.event e)).1.shared = p.shared := by cases e <;> rfl
  intro i u hpending
  rw [hshared] at hpending ⊢
  obtain ⟨update, hi, hverified⟩ := h i u hpending
  exact ⟨update, getElem?_append_of_some hi _, hverified⟩

theorem apply_verified_of_timely {update : Update} (hC : Timely past p (.resumed i .executed))
    (hi : p.tasks[i]? = some (.flushing update)) (hfree : ¬p.shared.LockedFor i)
    (hverified : p.shared.committed.identityVerified) :
    (update.apply p.shared.committed).identityVerified ∨ update = .reset := by
  refine Update.apply_verified hverified ?_
  rintro target rfl
  by_contra hne
  rw [Timely, hi] at hC
  exact hC hne hfree hverified

theorem Sound.advanced {r : Versioned User × Task} (h : Sound p)
    (hC : Timely past p (.resumed i answer)) (hi : p.tasks[i]? = some t)
    (hr : Advanced p.shared i answer t r) :
    Sound { shared := r.1, tasks := p.tasks.set i r.2 } := by
  have hset : ∀ t' : Task, (p.tasks.set i t')[i]? = some t' := fun _ =>
    List.getElem?_set_self (List.getElem?_eq_some_iff.mp hi).1
  -- what the others have written is as it was
  have hother : ∀ (t' : Task) (j : ℕ) (u : User), j ≠ i → p.shared.pending = some (j, u) →
      ∃ update, (p.tasks.set i t')[j]? = some (.committing update) ∧
        (p.shared.committed.identityVerified → u.identityVerified ∨ update = .reset) := by
    intro t' j u hji hpending
    obtain ⟨update, hj, hverified⟩ := h j u hpending
    exact ⟨update, (List.getElem?_set_ne (Ne.symm hji)).trans hj, hverified⟩
  cases hr with
  | went _ _ t' hnot =>
    intro j u hpending
    refine hother t' j u ?_ hpending
    rintro rfl
    obtain ⟨update, hj, -⟩ := h j u hpending
    exact hnot update (Option.some.inj (hi.symm.trans hj))
  | stayed =>
    obtain ⟨hlt, rfl⟩ := List.getElem?_eq_some_iff.mp hi
    rw [List.set_getElem_self]
    exact h
  | flushed update hfree =>
    have hnone : p.shared.pending = none := by
      refine Versioned.pending_eq_none hfree fun u hu => ?_
      obtain ⟨update', hi', -⟩ := h i u hu
      exact absurd (hi.symm.trans hi') (by simp)
    rintro j u hpending
    obtain ⟨rfl, rfl⟩ := Prod.mk.inj (Option.some.inj hpending)
    refine ⟨update, hset _, fun hverified => ?_⟩
    rw [Versioned.latest_of_pending hnone]
    exact apply_verified_of_timely hC hi hfree hverified
  | committed update =>
    intro j u hpending
    have hold := Versioned.pending_of_commit hpending
    have hji : j ≠ i := by
      rintro rfl
      rw [Versioned.commit_eq hold] at hpending
      exact absurd hpending (by simp)
    have hkept : p.shared.commit i = p.shared := by
      refine Versioned.commit_of_pending fun u' hu' => hji ?_
      exact congrArg Prod.fst (Option.some.inj (hold.symm.trans hu'))
    rw [hkept]
    exact hother _ j u hji hold
  | failed =>
    intro j u hpending
    have hji : j ≠ i := Versioned.ne_of_pending_rollback hpending
    rw [Versioned.committed_rollback]
    exact hother _ j u hji (Versioned.pending_of_rollback hpending)

theorem invariant : verification.Invariant Timely Sound where
  init i u hpending := absurd hpending (by simp [verification, Tasks.system])
  event hp _ := hp.event _
  resumed hp hC hi := hp.advanced hC hi Task.advanced

theorem Advanced.committed_cases {r : Versioned User × Task} (h : Advanced user i answer t r) :
    r.1.committed = user.committed ∨
      ∃ update, answer = .executed ∧ t = .committing update ∧ r.1 = user.commit i := by
  cases h with
  | went => exact .inl rfl
  | stayed => exact .inl rfl
  | flushed => exact .inl rfl
  | committed update => exact .inr ⟨update, rfl, rfl, rfl⟩
  | failed => exact .inl Versioned.committed_rollback

/-- The commit of an operation other than the deletion leaves a verified user verified. -/
theorem Sound.commit {update : Update} (h : Sound p) (hi : p.tasks[i]? = some (.committing update))
    (hverified : p.shared.committed.identityVerified) :
    (p.shared.commit i).committed.identityVerified ∨ update = .reset := by
  rcases p.shared.pending_cases i with ⟨u, hu⟩ | hnot
  · obtain ⟨update', hi', hu'⟩ := h i u hu
    obtain rfl := Task.committing.inj (Option.some.inj (hi.symm.trans hi'))
    rw [Versioned.commit_eq hu]
    exact hu' hverified
  · rw [Versioned.commit_of_pending hnot]
    exact .inl hverified

theorem Sound.stays (h : Sound p) (past : List (Turn Event Answer)) (l : Turn Event Answer) :
    VerifiedStays past p l := by
  intro hverified
  rcases l with e | ⟨i, answer⟩
  · have hshared : (verification.step p (.event e)).1.shared = p.shared := by cases e <;> rfl
    rw [hshared]
    exact .inl hverified
  · cases hi : p.tasks[i]? with
    | none =>
      rw [Tasks.step_resumed_none hi]
      exact .inl hverified
    | some t =>
      have hadvanced : Advanced p.shared i answer t
          ((t.advance p.shared i answer).1, (t.advance p.shared i answer).2.1) := Task.advanced
      rw [Tasks.step_resumed hi, Pool.resumed_eq hi]
      rcases hadvanced.committed_cases with hsame | ⟨update, rfl, rfl, hcommit⟩
      · left
        exact (congrArg User.identityVerified hsame).trans hverified
      · rcases h.commit hi hverified with hstays | rfl
        · left
          exact (congrArg (fun r => r.committed.identityVerified) hcommit).trans hstays
        · right
          rfl

/-- **A verified user stays verified.** In a run in which no handler of a processing, requires_input
or canceled event writes the status of a user who is verified by then, a user who is verified stays
so in every step but the commit of `delete_identity_verification`. -/
theorem verified_stays {ls : List (Turn Event Answer)}
    (h : verification.system.Along Timely ls) :
    verification.system.Along VerifiedStays ls :=
  invariant.along (fun past _ l hp _ => hp.stays past l) h

/-- A first attempt needs more input, a second one succeeds; an event of it comes late, and the
verification is deleted in the end. -/
def secondAttempt : List (Turn Event Answer) :=
  [.event .create, .resumed 0 .executed,
    .resumed 0 (.session (some ⟨"vs_1", .requiresInput, some "secret"⟩)), .resumed 0 .executed,
    .resumed 0 .executed, .event (.webhook .requiresInput ⟨"vs_1", .requiresInput, none⟩),
    .resumed 1 .executed, .resumed 1 .executed, .resumed 1 .executed,
    .event (.webhook .verified ⟨"vs_1", .verified, none⟩), .resumed 2 .executed,
    .resumed 2 .executed, .resumed 2 .executed,
    .event (.webhook .processing ⟨"vs_1", .processing, none⟩), .resumed 3 .executed,
    .event .delete, .resumed 4 .executed, .resumed 4 .executed, .resumed 4 .executed,
    .resumed 4 .executed]

theorem secondAttempt_stays :
    (verification.system.after (secondAttempt.take 13)).shared.committed.identityVerified ∧
      verification.system.Along VerifiedStays secondAttempt :=
  ⟨by decide, verified_stays (by decide)⟩

/-- The event of a first attempt comes after the one of the second attempt. -/
def late : List (Turn Event Answer) :=
  [.event .create, .resumed 0 .executed,
    .resumed 0 (.session (some ⟨"vs_1", .requiresInput, some "secret"⟩)), .resumed 0 .executed,
    .resumed 0 .executed, .event (.webhook .verified ⟨"vs_1", .verified, none⟩),
    .resumed 1 .executed, .resumed 1 .executed, .resumed 1 .executed,
    .event (.webhook .requiresInput ⟨"vs_1", .requiresInput, none⟩), .resumed 2 .executed,
    .resumed 2 .executed, .resumed 2 .executed]

/-- The handler of a processing event has loaded the user before the verified event is handled. -/
def overtaken : List (Turn Event Answer) :=
  [.event .create, .resumed 0 .executed,
    .resumed 0 (.session (some ⟨"vs_1", .requiresInput, some "secret"⟩)), .resumed 0 .executed,
    .resumed 0 .executed, .event (.webhook .processing ⟨"vs_1", .processing, none⟩),
    .event (.webhook .verified ⟨"vs_1", .verified, none⟩), .resumed 1 .executed,
    .resumed 2 .executed, .resumed 2 .executed, .resumed 2 .executed, .resumed 1 .executed,
    .resumed 1 .executed]

/-- A verified user becomes failed, and pending, by an event that comes late. -/
theorem not_verified_stays :
    ¬verification.system.Along VerifiedStays late ∧
      (verification.system.after late).shared.committed.identityVerificationStatus = .failed ∧
      ¬verification.system.Along VerifiedStays overtaken ∧
      (verification.system.after overtaken).shared.committed.identityVerificationStatus =
        .pending := by
  decide

end IdentityVerification

end Rapidly.Platform
