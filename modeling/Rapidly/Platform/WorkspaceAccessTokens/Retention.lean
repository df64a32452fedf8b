import Rapidly.Identity.Auth.Middleware

/-!
# How long deleted access tokens are kept

A workspace access token is deleted softly: at the request of an operator, because a secret
scanner reports it as leaked, or by the daily job once it has expired. A second job removes rows
for good, after a period of retention, but only those that the first has deleted: the others stay
for the audit. Who deleted a row is not stored. The second job takes a row for one of the first's
if it expired before it was deleted.

`history` runs these operations in any order and at any time. A deletion by request is two steps,
the lookup and the write, so that time passes and other operations run in between.

* `retains_of_timely`: what was deleted by request is kept, what was deleted on expiry is removed
  in due time, and no job touches a token that is still accepted, in every run in which the
  writes of deletions by request find tokens that have not expired.
* `removed_of_expired` is what becomes of a token that has: an operator may well delete it, until
  the first job runs, and it is removed like one that the job has deleted.
-/

namespace Rapidly.Platform.WorkspaceAccessTokens

open Relational Identity Identity.Auth Transition

/-! ### Rows and their clean-up -/

/-- The condition of `soft_delete_expired`. -/
def Expired (now : Time) (t : WorkspaceAccessToken) : Prop :=
  (∃ expiresAt ∈ t.expiresAt, expiresAt < now) ∧ t.deletedAt = none

/-- The condition of `hard_delete_expiry_soft_deletes_older_than`. -/
def Aged (cutoff : Time) (t : WorkspaceAccessToken) : Prop :=
  ∃ deletedAt ∈ t.deletedAt, deletedAt < cutoff ∧ ∃ expiresAt ∈ t.expiresAt, expiresAt < deletedAt

instance (now : Time) : DecidablePred (Expired now) := fun _ => inferInstanceAs (Decidable (_ ∧ _))

instance (cutoff : Time) : DecidablePred (Aged cutoff) := fun t =>
  inferInstanceAs (Decidable (∃ _ ∈ t.deletedAt, _))

/-- Set `deleted_at` of the tokens with a property. -/
def setDeletedAt (db : Database) (p : WorkspaceAccessToken → Prop) [DecidablePred p]
    (now : Time) : Database :=
  { db with
    workspaceAccessTokens :=
      db.workspaceAccessTokens.modify p (fun t => { t with deletedAt := some now }) fun _ => rfl
    workspaceAccessTokens_token := db.workspaceAccessTokens_token.modify fun _ => rfl
    workspaceAccessTokens_workspace := db.workspaceAccessTokens_workspace.modify fun _ => rfl }

/-- Remove the tokens with a property. -/
def removeTokens (db : Database) (p : WorkspaceAccessToken → Prop) [DecidablePred p] : Database :=
  { db with
    workspaceAccessTokens := db.workspaceAccessTokens.remove p
    workspaceAccessTokens_token := db.workspaceAccessTokens_token.remove p
    workspaceAccessTokens_workspace := db.workspaceAccessTokens_workspace.remove p }

/-- `update`, of the columns that the schema allows. -/
def updateScopes (db : Database) (id : Uuid) (scopes : List Scope) : Database :=
  { db with
    workspaceAccessTokens :=
      db.workspaceAccessTokens.modify (·.id = id) (fun t => { t with scopes }) fun _ => rfl
    workspaceAccessTokens_token := db.workspaceAccessTokens_token.modify fun _ => rfl
    workspaceAccessTokens_workspace := db.workspaceAccessTokens_workspace.modify fun _ => rfl }

/-! ### The lookups -/

/-- The filter of `get_readable_statement`. -/
def Readable (db : Database) : Subject → WorkspaceAccessToken → Prop
  | .user user, t => db.MemberOf user.id t.workspaceId
  | .workspace workspace, t => t.workspaceId = workspace.id
  | _, _ => True

instance (db : Database) : ∀ subject, DecidablePred (Readable db subject)
  | .user _, _ => inferInstanceAs (Decidable (db.MemberOf _ _))
  | .workspace _, _ => inferInstanceAs (Decidable (_ = _))
  | .anonymous, _ | .customer _, _ | .member _, _ => isTrue trivial

/-- `get`. -/
def get (db : Database) (subject : Subject) (id : Uuid) : Option WorkspaceAccessToken :=
  (getOneOrNone <| db.workspaceAccessTokens.select fun t =>
    t.deletedAt = none ∧ Readable db subject t ∧ t.id = id).join

/-- `get_by_token`. -/
def getByToken (tokenHash : String → String) (db : Database) (now : Time) (token : String) :
    Option WorkspaceAccessToken :=
  (getOneOrNone (workspaceAccessTokenRows db now (tokenHash token))).join

/-! ### Histories -/

/-- Who asks for the deletion of a token. -/
inductive Requester where
  | operator
  | leakReport
deriving DecidableEq

/-- The database and the clock, with the requests that have looked a token up and are about to
delete it. -/
structure State where
  db : Database := Database.empty
  now : Time := 0
  /-- The identifier of the next token. -/
  nextId : Uuid := 0
  deleting : List (Requester × Uuid) := []
  fresh : ∀ t ∈ db.workspaceAccessTokens, t.id < nextId

/-- What happens to tokens, and to the world around them. -/
inductive Event where
  | pass (microseconds : ℕ)
  | create (token : String) (workspaceId : Uuid) (scopes : List Scope) (expiresIn : Option ℤ)
  | update (subject : Subject) (id : Uuid) (scopes : List Scope)
  /-- The route `DELETE /{id}` looks the token up. -/
  | delete (subject : Subject) (id : Uuid)
  /-- `revoke_leaked` looks the token up. -/
  | revokeLeaked (token : String)
  /-- A request that has looked a token up writes its deletion. -/
  | softDelete (requester : Requester) (id : Uuid)
  | softDeleteExpired
  | hardDeleteAgedSoftDeletes
  /-- Every table but the tokens' changes. -/
  | others (db : Database)

/-- A soft deletion: by request, or by the job. -/
inductive Observation where
  | requested (requester : Requester) (id : Uuid) (deletedAt : Time)
  | expired (id : Uuid) (deletedAt : Time)
deriving DecidableEq

namespace State

variable (s : State)

/-- The tokens. -/
abbrev tokens : Table WorkspaceAccessToken.id := s.db.workspaceAccessTokens

theorem nextId_notMem : s.nextId ∉ s.tokens.rows.map WorkspaceAccessToken.id := by
  intro h
  obtain ⟨t, ht, hid⟩ := List.mem_map.mp h
  exact absurd hid (s.fresh t ht).ne

theorem fresh_modify {p : WorkspaceAccessToken → Prop} [DecidablePred p]
    {f : WorkspaceAccessToken → WorkspaceAccessToken} (hf : ∀ t, (f t).id = t.id) :
    ∀ t ∈ s.tokens.modify p f hf, t.id < s.nextId := by
  intro t' ht'
  obtain ⟨t, ht, rfl⟩ := (Table.mem_modify hf).mp ht'
  split
  · rw [hf]
    exact s.fresh t ht
  · exact s.fresh t ht

/-- `create`, in the workspace of the payload. A token with the hash of another, or in a workspace
that does not exist, is refused by the database. -/
def create (token : String) (workspaceId : Uuid) (scopes : List Scope)
    (expiresIn : Option ℤ) : State :=
  let t : WorkspaceAccessToken :=
    { id := s.nextId, token, workspaceId, scopes
      -- a duration of zero counts as none
      expiresAt := (expiresIn.filter (· ≠ 0)).map (s.now + ·) }
  if h : token ∉ s.tokens.rows.map WorkspaceAccessToken.token ∧
      ∃ w ∈ s.db.workspaces.rows, w.id = workspaceId then
    { s with
      db :=
        { s.db with
          workspaceAccessTokens := s.tokens.add t s.nextId_notMem
          workspaceAccessTokens_token := s.db.workspaceAccessTokens_token.add h.1
          workspaceAccessTokens_workspace := s.db.workspaceAccessTokens_workspace.add h.2 }
      nextId := s.nextId + 1
      fresh := List.forall_mem_cons.mpr
        ⟨Nat.lt_succ_self _, fun t ht => Nat.lt_succ_of_lt (s.fresh t ht)⟩ }
  else s

/-- Set `deleted_at` of the tokens with a property to the current time. -/
def mark (p : WorkspaceAccessToken → Prop) [DecidablePred p] : State :=
  { s with
    db := setDeletedAt s.db p s.now
    fresh := s.fresh_modify (f := fun t => { t with deletedAt := some s.now }) fun _ => rfl }

/-- Remove the tokens with a property. -/
def purge (p : WorkspaceAccessToken → Prop) [DecidablePred p] : State :=
  { s with
    db := removeTokens s.db p
    fresh := fun t ht => s.fresh t (Table.mem_remove.mp ht).1 }

/-- Set the scopes of a token. -/
def update (id : Uuid) (scopes : List Scope) : State :=
  { s with
    db := updateScopes s.db id scopes
    fresh := s.fresh_modify (f := fun t => { t with scopes }) fun _ => rfl }

/-- The other tables become those of another database, unless that leaves a token without a
workspace. -/
def others (db : Database) : State :=
  if h : s.tokens.References WorkspaceAccessToken.workspaceId db.workspaces then
    { s with
      db :=
        { db with
          workspaceAccessTokens := s.tokens
          workspaceAccessTokens_token := s.db.workspaceAccessTokens_token
          workspaceAccessTokens_workspace := h } }
  else s

/-- A request that has looked up a token, if it has found one, is about to delete it. -/
def begin (requester : Requester) (found : Option WorkspaceAccessToken) : State :=
  { s with deleting := found.toList.map (fun t => (requester, t.id)) ++ s.deleting }

variable {s} {t : WorkspaceAccessToken} {p : WorkspaceAccessToken → Prop} [DecidablePred p]

theorem mem_mark : t ∈ (s.mark p).tokens ↔
    ∃ t' ∈ s.tokens, t = if p t' then { t' with deletedAt := some s.now } else t' :=
  Table.mem_modify (f := fun t : WorkspaceAccessToken => { t with deletedAt := some s.now })
    fun _ => rfl

theorem mem_purge : t ∈ (s.purge p).tokens ↔ t ∈ s.tokens ∧ ¬p t := Table.mem_remove

theorem mem_update {id : Uuid} {scopes : List Scope} : t ∈ (s.update id scopes).tokens ↔
    ∃ t' ∈ s.tokens, t = if t'.id = id then { t' with scopes } else t' :=
  Table.mem_modify (f := fun t : WorkspaceAccessToken => { t with scopes }) fun _ => rfl

theorem mem_create_of_mem (h : t ∈ s.tokens) (token : String) (workspaceId : Uuid)
    (scopes : List Scope) (expiresIn : Option ℤ) :
    t ∈ (s.create token workspaceId scopes expiresIn).tokens := by
  rw [create]
  split
  · exact List.mem_cons_of_mem _ h
  · exact h

theorem tokens_others (db : Database) : (s.others db).tokens = s.tokens := by
  rw [others]
  split
  · rfl
  · rfl

end State

variable (tokenHash : String → String) (retention : Time)

/-- One event; `retention` is `WORKSPACE_ACCESS_TOKEN_HARD_DELETE_AFTER`. -/
def step (s : State) : Event → State × List Observation
  | .pass microseconds => ({ s with now := s.now + microseconds }, [])
  | .create token workspaceId scopes expiresIn =>
    (s.create token workspaceId scopes expiresIn, [])
  | .update subject id scopes =>
    (if (get s.db subject id).isSome then s.update id scopes else s, [])
  | .delete subject id => (s.begin .operator (get s.db subject id), [])
  | .revokeLeaked token => (s.begin .leakReport (getByToken tokenHash s.db s.now token), [])
  | .softDelete requester id =>
    if (requester, id) ∈ s.deleting then
      -- whether the token has been deleted in between is not checked again
      ({ s.mark (·.id = id) with deleting := s.deleting.erase (requester, id) },
        (s.tokens.select (·.id = id)).map fun t => .requested requester t.id s.now)
    else (s, [])
  | .softDeleteExpired =>
    (s.mark (Expired s.now), (s.tokens.select (Expired s.now)).map fun t => .expired t.id s.now)
  | .hardDeleteAgedSoftDeletes => (s.purge (Aged (s.now - retention)), [])
  | .others db => (s.others db, [])

/-- Every history of tokens, from a database without any. -/
def history : System State Event Observation where
  init := { fresh := List.forall_mem_nil _ }
  step := step tokenHash retention

/-! ### What a step does -/

variable {requester : Requester} {past : List Event}

section Step

variable {tokenHash retention} {s : State} {t : WorkspaceAccessToken} {id : Uuid} {time : Time}

/-- `deleted_at` of a token after an event. -/
def deletedAtAfter (s : State) (t : WorkspaceAccessToken) : Event → Option Time
  | .softDelete requester id =>
    if (requester, id) ∈ s.deleting ∧ t.id = id then some s.now else t.deletedAt
  | .softDeleteExpired => if Expired s.now t then some s.now else t.deletedAt
  | _ => t.deletedAt

theorem step_token (tokenHash : String → String) (retention : Time) (ht : t ∈ s.tokens)
    (l : Event) :
    (l = .hardDeleteAgedSoftDeletes ∧ Aged (s.now - retention) t) ∨
      ∃ t' ∈ (step tokenHash retention s l).1.tokens,
        t'.id = t.id ∧ t'.expiresAt = t.expiresAt ∧ t'.deletedAt = deletedAtAfter s t l := by
  cases l with
  | pass | delete | revokeLeaked => exact .inr ⟨t, ht, rfl, rfl, rfl⟩
  | create token workspaceId scopes expiresIn =>
    exact .inr ⟨t, State.mem_create_of_mem ht token workspaceId scopes expiresIn, rfl, rfl, rfl⟩
  | others db => exact .inr ⟨t, (State.tokens_others db).symm ▸ ht, rfl, rfl, rfl⟩
  | update subject id scopes =>
    rw [step]
    split
    · refine .inr ⟨_, State.mem_update.mpr ⟨t, ht, rfl⟩, ?_⟩
      split
      · exact ⟨rfl, rfl, rfl⟩
      · exact ⟨rfl, rfl, rfl⟩
    · exact .inr ⟨t, ht, rfl, rfl, rfl⟩
  | softDelete requester id =>
    rw [step, deletedAtAfter]
    by_cases hdeleting : (requester, id) ∈ s.deleting
    · rw [if_pos hdeleting]
      refine .inr ⟨_, State.mem_mark.mpr ⟨t, ht, rfl⟩, ?_⟩
      by_cases hid : t.id = id
      · rw [if_pos hid, if_pos ⟨hdeleting, hid⟩]
        exact ⟨rfl, rfl, rfl⟩
      · rw [if_neg hid, if_neg fun h => hid h.2]
        exact ⟨rfl, rfl, rfl⟩
    · rw [if_neg hdeleting, if_neg fun h => hdeleting h.1]
      exact .inr ⟨t, ht, rfl, rfl, rfl⟩
  | softDeleteExpired =>
    refine .inr ⟨_, State.mem_mark.mpr ⟨t, ht, rfl⟩, ?_⟩
    rw [deletedAtAfter]
    split
    · exact ⟨rfl, rfl, rfl⟩
    · exact ⟨rfl, rfl, rfl⟩
  | hardDeleteAgedSoftDeletes =>
    by_cases haged : Aged (s.now - retention) t
    · exact .inl ⟨rfl, haged⟩
    · exact .inr ⟨t, State.mem_purge.mpr ⟨ht, haged⟩, rfl, rfl, rfl⟩

/-- The clock and the counter of identifiers do not run back, and a token was there before or is
new. -/
structure Frame (s s' : State) : Prop where
  now : s.now ≤ s'.now
  nextId : s.nextId ≤ s'.nextId
  tokens : ∀ t ∈ s'.tokens, (∃ t' ∈ s.tokens, t'.id = t.id) ∨ t.id = s.nextId

theorem Frame.refl (s : State) : Frame s s := ⟨le_rfl, le_rfl, fun t ht => .inl ⟨t, ht, rfl⟩⟩

theorem Frame.mark (s : State) (p : WorkspaceAccessToken → Prop) [DecidablePred p] :
    Frame s (s.mark p) := by
  refine ⟨le_rfl, le_rfl, fun t ht => .inl ?_⟩
  obtain ⟨t', ht', rfl⟩ := State.mem_mark.mp ht
  exact ⟨t', ht', by split <;> rfl⟩

theorem frame_step (tokenHash : String → String) (retention : Time) (s : State) (l : Event) :
    Frame s (step tokenHash retention s l).1 := by
  cases l with
  | pass microseconds =>
    exact ⟨le_add_of_nonneg_right (Int.natCast_nonneg microseconds), le_rfl, (Frame.refl s).tokens⟩
  | delete | revokeLeaked => exact ⟨le_rfl, le_rfl, (Frame.refl s).tokens⟩
  | create =>
    rw [step, State.create]
    split
    · refine ⟨le_rfl, Nat.le_succ _, fun t ht => ?_⟩
      rcases List.mem_cons.mp ht with rfl | ht
      · exact .inr rfl
      · exact .inl ⟨t, ht, rfl⟩
    · exact .refl s
  | others db =>
    rw [step, State.others]
    split
    · exact ⟨le_rfl, le_rfl, (Frame.refl s).tokens⟩
    · exact .refl s
  | update subject id scopes =>
    rw [step]
    split
    · refine ⟨le_rfl, le_rfl, fun t ht => .inl ?_⟩
      obtain ⟨t', ht', rfl⟩ := State.mem_update.mp ht
      exact ⟨t', ht', by split <;> rfl⟩
    · exact .refl s
  | softDelete requester id =>
    rw [step]
    split
    · exact ⟨le_rfl, le_rfl, (Frame.mark s _).tokens⟩
    · exact .refl s
  | softDeleteExpired => exact .mark s _
  | hardDeleteAgedSoftDeletes =>
    exact ⟨le_rfl, le_rfl, fun t ht => .inl ⟨t, (State.mem_purge.mp ht).1, rfl⟩⟩

/-- An identifier that has been used, and has no token. -/
def Gone (s : State) (id : Uuid) : Prop := id < s.nextId ∧ ∀ t ∈ s.tokens, t.id ≠ id

theorem Gone.step (h : Gone s id) (l : Event) :
    Gone (WorkspaceAccessTokens.step tokenHash retention s l).1 id := by
  have hframe := frame_step tokenHash retention s l
  refine ⟨h.1.trans_le hframe.nextId, fun t ht hid => ?_⟩
  rcases hframe.tokens t ht with ⟨t', ht', hid'⟩ | hnew
  · exact h.2 t' ht' (hid'.trans hid)
  · exact h.1.ne (hid.symm.trans hnew)

theorem gone_of_aged (tokenHash : String → String) (ht : t ∈ s.tokens)
    (haged : Aged (s.now - retention) t) :
    Gone (step tokenHash retention s .hardDeleteAgedSoftDeletes).1 t.id := by
  refine ⟨s.fresh t ht, fun t' ht' hid => ?_⟩
  obtain ⟨ht', hnot⟩ := State.mem_purge.mp ht'
  obtain rfl := Table.eq_of_key_eq ht' ht hid
  exact hnot haged

theorem requested_mem_step {l : Event}
    (h : .requested requester id time ∈ (step tokenHash retention s l).2) :
    l = .softDelete requester id ∧ (requester, id) ∈ s.deleting ∧ ∃ t ∈ s.tokens, t.id = id := by
  cases l with
  | pass | create | update | delete | revokeLeaked | hardDeleteAgedSoftDeletes | others => cases h
  | softDelete requester' id' =>
    rw [step] at h
    split at h
    next hdeleting =>
      obtain ⟨t, hselected, heq⟩ := List.mem_map.mp h
      obtain ⟨ht, rfl⟩ := Table.mem_select.mp hselected
      cases heq
      exact ⟨rfl, hdeleting, t, ht, rfl⟩
    next => cases h
  | softDeleteExpired =>
    obtain ⟨t, -, heq⟩ := List.mem_map.mp h
    cases heq

theorem expired_mem_step {l : Event}
    (h : .expired id time ∈ (step tokenHash retention s l).2) :
    l = .softDeleteExpired ∧ time = s.now ∧ ∃ t ∈ s.tokens, t.id = id ∧ Expired s.now t := by
  cases l with
  | pass | create | update | delete | revokeLeaked | hardDeleteAgedSoftDeletes | others => cases h
  | softDelete requester' id' =>
    rw [step] at h
    split at h
    · obtain ⟨t, -, heq⟩ := List.mem_map.mp h
      cases heq
    · cases h
  | softDeleteExpired =>
    obtain ⟨t, ht, heq⟩ := List.mem_map.mp h
    obtain ⟨ht, hexpired⟩ := Table.mem_select.mp ht
    cases heq
    exact ⟨rfl, rfl, t, ht, rfl, hexpired⟩

end Step

/-! ### Retention -/

/-- The write of a deletion by request finds a token that has not expired. -/
def Timely (_ : List Event) (s : State) : Event → Prop
  | .softDelete requester id => (requester, id) ∈ s.deleting →
    ∀ t ∈ s.tokens.rows, t.id = id → ∀ expiresAt ∈ t.expiresAt, s.now ≤ expiresAt
  | _ => True

instance (past : List Event) (s : State) : ∀ l, Decidable (Timely past s l)
  | .softDelete _ _ => inferInstanceAs (Decidable (_ → _))
  | .pass _ | .create .. | .update .. | .delete .. | .revokeLeaked _ | .softDeleteExpired
  | .hardDeleteAgedSoftDeletes | .others _ => isTrue trivial

/-- A run of the second job leaves no token that the first has deleted longer ago than the
period of retention. -/
def PurgesExpired : System.Condition State Event := fun past s l =>
  l = .hardDeleteAgedSoftDeletes → ∀ id time,
    .expired id time ∈ (history tokenHash retention).log past → time < s.now - retention →
      ∀ t ∈ (step tokenHash retention s l).1.tokens, t.id ≠ id

/-- A run of a job leaves the tokens that are accepted as they are. -/
def SparesAccepted : System.Condition State Event := fun _ s l =>
  l = .softDeleteExpired ∨ l = .hardDeleteAgedSoftDeletes → ∀ hashed,
    ∀ t ∈ workspaceAccessTokenRows s.db s.now hashed, t ∈ (step tokenHash retention s l).1.tokens

/-- What is kept of deleted tokens, and what is not. -/
structure Retains (events : List Event) : Prop where
  /-- A token deleted by request is still there. -/
  keepsRequested : ∀ requester id time,
    .requested requester id time ∈ (history tokenHash retention).log events →
      ∃ t ∈ ((history tokenHash retention).after events).tokens, t.id = id
  purgesExpired : (history tokenHash retention).Along (PurgesExpired tokenHash retention) events
  sparesAccepted : (history tokenHash retention).Along (SparesAccepted tokenHash retention) events

/-- A token that was deleted before it expired. -/
def DeletedInTime (t : WorkspaceAccessToken) : Prop :=
  ∃ deletedAt ∈ t.deletedAt, ∀ expiresAt ∈ t.expiresAt, deletedAt ≤ expiresAt

/-- A token that had expired when it was deleted. -/
def DeletedLate (time : Time) (t : WorkspaceAccessToken) : Prop :=
  t.deletedAt = some time ∧ ∃ expiresAt ∈ t.expiresAt, expiresAt < time

/-- The rows tell who has deleted them. -/
structure Accounted (s : State) (log : List Observation) : Prop where
  requested : ∀ requester id time, .requested requester id time ∈ log →
    ∃ t ∈ s.tokens, t.id = id ∧ DeletedInTime t
  expired : ∀ id time, .expired id time ∈ log →
    Gone s id ∨ time ≤ s.now ∧ ∃ t ∈ s.tokens, t.id = id ∧ DeletedLate time t

section Runs

variable {tokenHash retention} {s : State} {t : WorkspaceAccessToken} {l : Event} {time : Time}

theorem DeletedInTime.not_aged (h : DeletedInTime t) (cutoff : Time) : ¬Aged cutoff t := by
  rintro ⟨deletedAt, hdeleted, -, expiresAt, hexpires, hlt⟩
  obtain ⟨deletedAt', hdeleted', hle⟩ := h
  obtain rfl := Option.mem_unique hdeleted hdeleted'
  exact absurd (hle expiresAt hexpires) hlt.not_ge

theorem DeletedLate.aged (h : DeletedLate time t) {cutoff : Time} (hcutoff : time < cutoff) :
    Aged cutoff t :=
  ⟨time, h.1, hcutoff, h.2⟩

theorem not_expired_of_deleted (h : t.deletedAt = some time) (now : Time) : ¬Expired now t :=
  fun hexpired => Option.some_ne_none time (h.symm.trans hexpired.2)

theorem DeletedInTime.step (h : DeletedInTime t) (ht : t ∈ s.tokens) (htimely : Timely past s l) :
    ∃ t' ∈ (step tokenHash retention s l).1.tokens, t'.id = t.id ∧ DeletedInTime t' := by
  rcases step_token tokenHash retention ht l with
    ⟨-, haged⟩ | ⟨t', ht', hid, hexpires, hdeleted⟩
  · exact absurd haged (h.not_aged _)
  refine ⟨t', ht', hid, ?_⟩
  rw [DeletedInTime, hexpires, hdeleted]
  cases l with
  | softDelete requester id =>
    rw [deletedAtAfter]
    split
    next hwrite => exact ⟨s.now, rfl, htimely hwrite.1 t ht hwrite.2⟩
    next => exact h
  | softDeleteExpired =>
    obtain ⟨deletedAt, hsome, hle⟩ := h
    rw [deletedAtAfter, if_neg (not_expired_of_deleted hsome s.now)]
    exact ⟨deletedAt, hsome, hle⟩
  | _ => exact h

/-- A deletion of an expired token stays one, through timely steps, unless the token is removed. -/
theorem DeletedLate.step (h : DeletedLate time t) (htime : time ≤ s.now) (ht : t ∈ s.tokens)
    (htimely : Timely past s l) :
    Gone (step tokenHash retention s l).1 t.id ∨
      ∃ t' ∈ (step tokenHash retention s l).1.tokens, t'.id = t.id ∧ DeletedLate time t' := by
  rcases step_token tokenHash retention ht l with
    ⟨rfl, haged⟩ | ⟨t', ht', hid, hexpires, hdeleted⟩
  · exact .inl (gone_of_aged tokenHash ht haged)
  refine .inr ⟨t', ht', hid, ?_⟩
  rw [DeletedLate, hexpires, hdeleted]
  obtain ⟨hsome, expiresAt, hmem, hlt⟩ := h
  cases l with
  | softDelete requester id =>
    have hnot : ¬((requester, id) ∈ s.deleting ∧ t.id = id) := fun hwrite =>
      absurd (htimely hwrite.1 t ht hwrite.2 expiresAt hmem) (hlt.trans_le htime).not_ge
    rw [deletedAtAfter, if_neg hnot]
    exact ⟨hsome, expiresAt, hmem, hlt⟩
  | softDeleteExpired =>
    rw [deletedAtAfter, if_neg (not_expired_of_deleted hsome s.now)]
    exact ⟨hsome, expiresAt, hmem, hlt⟩
  | _ => exact ⟨hsome, expiresAt, hmem, hlt⟩

theorem deletedInTime_softDelete (ht : t ∈ s.tokens) (hdeleting : (requester, t.id) ∈ s.deleting)
    (htimely : Timely past s (.softDelete requester t.id)) :
    ∃ t' ∈ (step tokenHash retention s (.softDelete requester t.id)).1.tokens,
      t'.id = t.id ∧ DeletedInTime t' := by
  rcases step_token tokenHash retention ht
    (.softDelete requester t.id) with ⟨h, -⟩ | ⟨t', ht', hid, hexpires, hdeleted⟩
  · cases h
  refine ⟨t', ht', hid, s.now, ?_, ?_⟩
  · rw [hdeleted, deletedAtAfter, if_pos ⟨hdeleting, rfl⟩]
    rfl
  · rw [hexpires]
    exact htimely hdeleting t ht rfl

theorem deletedLate_softDeleteExpired (ht : t ∈ s.tokens) (hexpired : Expired s.now t) :
    ∃ t' ∈ (step tokenHash retention s .softDeleteExpired).1.tokens,
      t'.id = t.id ∧ DeletedLate s.now t' := by
  rcases step_token tokenHash retention ht .softDeleteExpired with
    ⟨h, -⟩ | ⟨t', ht', hid, hexpires, hdeleted⟩
  · cases h
  refine ⟨t', ht', hid, ?_⟩
  rw [DeletedLate, hexpires, hdeleted, deletedAtAfter, if_pos hexpired]
  exact ⟨rfl, hexpired.1⟩

theorem Accounted.step {log : List Observation} (h : Accounted s log) (htimely : Timely past s l) :
    Accounted (step tokenHash retention s l).1 (log ++ (step tokenHash retention s l).2) where
  requested requester id time hmem := by
    rcases List.mem_append.mp hmem with hold | hnew
    · obtain ⟨t, ht, rfl, hintime⟩ := h.requested requester id time hold
      exact hintime.step ht htimely
    · obtain ⟨rfl, hdeleting, t, ht, rfl⟩ := requested_mem_step hnew
      exact deletedInTime_softDelete ht hdeleting htimely
  expired id time hmem := by
    rcases List.mem_append.mp hmem with hold | hnew
    · rcases h.expired id time hold with hgone | ⟨htime, t, ht, rfl, hlate⟩
      · exact .inl (hgone.step l)
      · exact (hlate.step htime ht htimely).imp_right
          fun hstays => ⟨htime.trans (frame_step _ _ s l).now, hstays⟩
    · obtain ⟨rfl, rfl, t, ht, rfl, hexpired⟩ := expired_mem_step hnew
      exact .inr ⟨(frame_step _ _ s _).now, deletedLate_softDeleteExpired ht hexpired⟩

theorem Accounted.purgesExpired (h : Accounted s ((history tokenHash retention).log past)) :
    PurgesExpired tokenHash retention past s l := by
  rintro rfl id time hexpired htime
  rcases h.expired id time hexpired with hgone | ⟨-, t, ht, rfl, hlate⟩
  · exact (hgone.step _).2
  · exact (gone_of_aged tokenHash ht (hlate.aged htime)).2

theorem sparesAccepted (past : List Event) (s : State) (l : Event) :
    SparesAccepted tokenHash retention past s l := by
  intro hjob hashed t haccepted
  obtain ⟨ht, hnot, -, hexpires, -⟩ := mem_workspaceAccessTokenRows.mp haccepted
  rcases hjob with rfl | rfl
  · refine State.mem_mark.mpr ⟨t, ht, (if_neg fun hexpired => ?_).symm⟩
    obtain ⟨expiresAt, hmem, hlt⟩ := hexpired.1
    rw [Option.mem_def.mp hmem] at hexpires
    exact absurd (of_decide_eq_true hexpires) hlt.not_gt
  · refine State.mem_purge.mpr ⟨ht, fun haged => ?_⟩
    obtain ⟨deletedAt, hsome, -⟩ := haged
    rw [hnot] at hsome
    cases hsome

theorem removed_of_expired {expiresAt : Time} (ht : t ∈ s.tokens)
    (hexpires : expiresAt ∈ t.expiresAt) (hlt : expiresAt < s.now)
    (hdeleting : (requester, t.id) ∈ s.deleting) {wait : ℕ} (hwait : retention < wait) :
    ∀ t' ∈ ((history tokenHash retention).runFrom s
        [.softDelete requester t.id, .pass wait, .hardDeleteAgedSoftDeletes]).1.tokens,
      t'.id ≠ t.id := by
  rcases step_token tokenHash retention ht
    (.softDelete requester t.id) with ⟨h, -⟩ | ⟨t', ht', hid, hexpires', hdeleted⟩
  · cases h
  rw [deletedAtAfter, if_pos ⟨hdeleting, rfl⟩] at hdeleted
  have hlate : DeletedLate s.now t' := ⟨hdeleted, expiresAt, hexpires'.symm ▸ hexpires, hlt⟩
  have hnow : (step tokenHash retention s (.softDelete requester t.id)).1.now = s.now := by
    rw [step, if_pos hdeleting]
    rfl
  intro t'' ht'' heq
  refine (gone_of_aged tokenHash
    (s := (step tokenHash retention (step tokenHash retention s
      (.softDelete requester t.id)).1 (.pass wait)).1) ht' (hlate.aged ?_)).2 t'' ht''
    (heq.trans hid.symm)
  change s.now < (step tokenHash retention s (.softDelete requester t.id)).1.now + wait - retention
  rw [hnow]
  exact Int.lt_sub_right_of_add_lt (Int.add_lt_add_left hwait s.now)

end Runs

/-- **Retention of access tokens.** In every run whose deletions by request find tokens that have
not expired, the tokens deleted by request stay, those deleted on expiry are gone after the first
run of the second job past their retention, and no job touches a token that is accepted. -/
theorem retains_of_timely {events : List Event}
    (h : (history tokenHash retention).Along Timely events) :
    Retains tokenHash retention events := by
  have hinit : Accounted (history tokenHash retention).init [] :=
    ⟨fun _ _ _ hmem => absurd hmem List.not_mem_nil, fun _ _ hmem => absurd hmem List.not_mem_nil⟩
  refine ⟨fun requester id time hmem => ?_, ?_, ?_⟩
  · have haccounted := (history tokenHash retention).invariant_of_along
      (fun _ s log => Accounted s log) hinit (fun _ _ hinv htimely => hinv.step htimely) h
    obtain ⟨t, ht, hid, -⟩ := haccounted.requested requester id time hmem
    exact ⟨t, ht, hid⟩
  · exact (history tokenHash retention).along_of_along (fun _ s log => Accounted s log) hinit
      (fun _ _ hinv htimely => hinv.step htimely) (fun _ _ hinv _ => hinv.purgesExpired) h
  · exact System.along_of_forall _ (fun past l => sparesAccepted past _ l) events

/-- `WORKSPACE_ACCESS_TOKEN_HARD_DELETE_AFTER`, by default: ninety days. -/
def hardDeleteAfter : Time := 90 * 24 * 3600 * 1000000

/-- The workspace of a few tokens. -/
def workspace : Workspace := { id := 3 }

/-- A database with the workspace. -/
def oneWorkspace : Database :=
  { Database.empty with
    workspaces := Table.singleton workspace
    customers_workspace := by decide
    members_workspace := by decide
    workspaceAccessTokens_workspace := by decide }

/-- Two tokens are created for an hour. An operator deletes one at once, the other expires. -/
def deletedAtOnce : List Event :=
  [.others oneWorkspace, .create "a" 3 [] (some 3600000000), .create "b" 3 [] (some 3600000000),
    .delete (.workspace workspace) 0, .softDelete .operator 0, .pass 7200000000,
    .softDeleteExpired, .pass (91 * 24 * 3600 * 1000000), .hardDeleteAgedSoftDeletes]

theorem retains_of_timely_deletedAtOnce : Retains id hardDeleteAfter deletedAtOnce :=
  retains_of_timely id hardDeleteAfter (by decide +kernel)

/-- A token is created for an hour. An operator deletes it after two, before the first job. -/
def deletedAfterExpiry : List Event :=
  [.others oneWorkspace, .create "a" 3 [] (some 3600000000), .pass 7200000000,
    .delete (.workspace workspace) 0, .softDelete .operator 0,
    .pass (91 * 24 * 3600 * 1000000), .hardDeleteAgedSoftDeletes]

/-- The token that the operator has deleted is removed. -/
theorem not_retains_deletedAfterExpiry : ¬Retains id hardDeleteAfter deletedAfterExpiry := by
  intro h
  obtain ⟨t, ht, -⟩ := h.keepsRequested .operator 0 7200000000 (by decide +kernel)
  have hnone : ((history id hardDeleteAfter).after deletedAfterExpiry).tokens.rows = [] := by
    decide +kernel
  rw [Table.mem_def, hnone] at ht
  cases ht

end Rapidly.Platform.WorkspaceAccessTokens
