import Rapidly.Identity.Schema
import Rapidly.Transition.System

/-!
# The review of workspaces

The status of a workspace, as the operations of `platform/workspace/actions.py` write it: the
decisions of the staff, the validation with AI and the appeals against it, and the updates that
the payment provider sends for an account. Every operation is one transaction: it answers with the
new state, or with an error that leaves the state as it was.

* `statusFromStripeAccount` is what an update of the account makes of the status of a workspace.
* `performed_status` says once which operation can move a workspace to which status.
* `reviewsStand` is the run theorem: a workspace that is denied or under review is active again
  only after `confirm_workspace_reviewed` or `approve_appeal`.
-/

namespace Rapidly.Platform

open Relational Transition

open Identity (Uuid Time)

/-! ### Rows -/

/-- `WorkspaceStatus`. -/
inductive WorkspaceStatus where
  | created
  | onboardingStarted
  | initialReview
  | ongoingReview
  | denied
  | active
deriving DecidableEq

/-- `WorkspaceStatus.review_statuses`. -/
def WorkspaceStatus.reviewStatuses : List WorkspaceStatus := [.initialReview, .ongoingReview]

/-- `Account.Status`. -/
inductive AccountStatus where
  | created
  | onboardingStarted
  | underReview
  | denied
  | active
deriving DecidableEq

/-- The status mapping of `sync_account_status`. -/
def WorkspaceStatus.accountStatus : WorkspaceStatus → Option AccountStatus
  | .created => none
  | .onboardingStarted => some .onboardingStarted
  | .initialReview => some .underReview
  | .ongoingReview => some .underReview
  | .denied => some .denied
  | .active => some .active

structure Workspace where
  id : Uuid
  accountId : Option Uuid := none
  status : WorkspaceStatus := .created
  statusUpdatedAt : Option Time := none
  nextReviewThreshold : ℤ := 0
  initiallyReviewedAt : Option Time := none
  blockedAt : Option Time := none
  deletedAt : Option Time := none
deriving DecidableEq

namespace Workspace

variable (w : Workspace)

def isUnderReview : Bool := w.status ∈ WorkspaceStatus.reviewStatuses

def isActive : Bool := w.status = .active

/-- A new status, and when it was set. -/
def setStatus (status : WorkspaceStatus) (now : Time) : Workspace :=
  { w with status, statusUpdatedAt := some now }

/-- The columns that `confirm_workspace_reviewed` writes. -/
def setReviewed (nextReviewThreshold : ℤ) (now : Time) : Workspace :=
  { w.setStatus .active now with
    nextReviewThreshold, initiallyReviewedAt := w.initiallyReviewedAt.or (some now) }

end Workspace

/-- `WorkspaceReview.Verdict`. -/
inductive Verdict where
  | pass
  | fail
  | uncertain
deriving DecidableEq

/-- `WorkspaceReview.AppealDecision`. -/
inductive AppealDecision where
  | approved
  | rejected
deriving DecidableEq

/-- A review; there is at most one for a workspace, deleted or not. -/
structure WorkspaceReview where
  workspaceId : Uuid
  verdict : Verdict
  appealSubmittedAt : Option Time := none
  appealReason : Option String := none
  appealReviewedAt : Option Time := none
  appealDecision : Option AppealDecision := none
  deletedAt : Option Time := none
deriving DecidableEq

namespace WorkspaceReview

variable (r : WorkspaceReview)

/-- An appeal that nobody has decided. -/
def appealPending : Bool := r.appealSubmittedAt.isSome && r.appealDecision.isNone

def submit (reason : String) (now : Time) : WorkspaceReview :=
  { r with appealSubmittedAt := some now, appealReason := some reason }

def decided (decision : AppealDecision) (now : Time) : WorkspaceReview :=
  { r with appealDecision := some decision, appealReviewedAt := some now }

end WorkspaceReview

structure Account where
  id : Uuid
  status : AccountStatus := .created
deriving DecidableEq

def Account.setStatus (status : AccountStatus) (a : Account) : Account := { a with status }

/-- A task that an operation puts on the queue. -/
inductive Task where
  | reviewed (workspaceId : Uuid) (initialReview : Bool)
  | underReview (workspaceId : Uuid)
deriving DecidableEq

/-- How an operation fails. -/
inductive ReviewError where
  | resourceNotFound
  | valueError (message : String)
  /-- The database rejects a write. -/
  | integrityError
deriving DecidableEq

structure Store where
  workspaces : Table Workspace.id := Table.empty
  reviews : Table WorkspaceReview.workspaceId := Table.empty
  accounts : Table Account.id := Table.empty
  tasks : List Task := []

namespace Store

variable (s : Store)

/-! ### Operations -/

/-- Rewrite the row of a workspace. -/
def updateWorkspace (id : Uuid) (f : Workspace → Workspace) (hf : ∀ w, (f w).id = w.id) : Store :=
  { s with workspaces := s.workspaces.modify (·.id = id) f hf }

/-- Rewrite the review of a workspace. -/
def updateReview (id : Uuid) (f : WorkspaceReview → WorkspaceReview)
    (hf : ∀ r, (f r).workspaceId = r.workspaceId) : Store :=
  { s with reviews := s.reviews.modify (·.workspaceId = id) f hf }

/-- `get_by_workspace`: the review, if it is not deleted. -/
def getReview (id : Uuid) : Option WorkspaceReview :=
  (s.reviews.get id).filter (·.deletedAt = none)

/-- `sync_account_status`. -/
def syncAccountStatus (w : Workspace) : Store :=
  match w.accountId, w.status.accountStatus with
  | some accountId, some status =>
    { s with accounts := s.accounts.modify (·.id = accountId) (.setStatus status) fun _ => rfl }
  | _, _ => s

/-- The decision that `confirm_workspace_reviewed` and `deny_workspace` imply for an appeal that is
pending. -/
def settleAppeal (id : Uuid) (decision : AppealDecision) (now : Time) : Store :=
  match s.getReview id with
  | none => s
  | some review =>
    if review.appealPending then s.updateReview id (·.decided decision now) fun _ => rfl else s

/-- `confirm_workspace_reviewed`; the threshold has a check constraint. -/
def confirmWorkspaceReviewed (id : Uuid) (nextReviewThreshold : ℤ) (now : Time) :
    Except ReviewError Store :=
  match s.workspaces.get id with
  | none => .error .resourceNotFound
  | some w =>
    if nextReviewThreshold < 0 then .error .integrityError
    else
      let s := s.updateWorkspace id (·.setReviewed nextReviewThreshold now) fun _ => rfl
      let s := s.syncAccountStatus (w.setReviewed nextReviewThreshold now)
      let s := s.settleAppeal id .approved now
      .ok { s with tasks := s.tasks ++ [.reviewed id w.initiallyReviewedAt.isNone] }

/-- `deny_workspace` of a workspace that has been loaded. -/
def deny (w : Workspace) (now : Time) : Store :=
  let s := s.updateWorkspace w.id (·.setStatus .denied now) fun _ => rfl
  let s := s.syncAccountStatus (w.setStatus .denied now)
  s.settleAppeal w.id .rejected now

/-- `deny_workspace`. -/
def denyWorkspace (id : Uuid) (now : Time) : Except ReviewError Store :=
  match s.workspaces.get id with
  | none => .error .resourceNotFound
  | some w => .ok (s.deny w now)

/-- `set_workspace_under_review`. -/
def setWorkspaceUnderReview (id : Uuid) (now : Time) : Except ReviewError Store :=
  match s.workspaces.get id with
  | none => .error .resourceNotFound
  | some w =>
    let s := s.updateWorkspace id (·.setStatus .ongoingReview now) fun _ => rfl
    let s := s.syncAccountStatus (w.setStatus .ongoingReview now)
    .ok { s with tasks := s.tasks ++ [.underReview id] }

/-- `INSERT` of a review, which fails if the workspace has one, deleted or not. -/
def insertReview (review : WorkspaceReview) : Except ReviewError Store :=
  if h : review.workspaceId ∈ s.reviews.rows.map WorkspaceReview.workspaceId then
    .error .integrityError
  else .ok { s with reviews := s.reviews.add review h }

/-- `validate_with_ai`, with the verdict of the validator. -/
def validateWithAi (id : Uuid) (verdict : Verdict) (now : Time) : Except ReviewError Store :=
  match s.workspaces.get id with
  | none => .error .resourceNotFound
  | some w =>
    match s.getReview id with
    | some _ => .ok s
    | none =>
      (if verdict = .pass then s else s.deny w now).insertReview { workspaceId := id, verdict }

/-- `submit_appeal`. -/
def submitAppeal (id : Uuid) (reason : String) (now : Time) : Except ReviewError Store :=
  match s.workspaces.get id with
  | none => .error .resourceNotFound
  | some _ =>
    match s.getReview id with
    | none => .error (.valueError "Workspace must have a review before submitting appeal")
    | some review =>
      if review.verdict = .pass then
        .error (.valueError "Cannot submit appeal for a passed review")
      else if review.appealSubmittedAt.isSome then
        .error (.valueError "Appeal has already been submitted for this workspace")
      else .ok (s.updateReview id (·.submit reason now) fun _ => rfl)

/-- The checks of `approve_appeal` and `deny_appeal`; `doing` is what the first message says. -/
def checkAppeal (id : Uuid) (doing : String) : Except ReviewError Unit :=
  match s.getReview id with
  | none => .error (.valueError ("Workspace must have a review before " ++ doing ++ " appeal"))
  | some review =>
    if review.appealSubmittedAt.isNone then
      .error (.valueError "No appeal has been submitted for this workspace")
    else if review.appealDecision.isSome then
      .error (.valueError "Appeal has already been reviewed")
    else .ok ()

/-- `approve_appeal`. -/
def approveAppeal (id : Uuid) (now : Time) : Except ReviewError Store :=
  match s.workspaces.get id with
  | none => .error .resourceNotFound
  | some w =>
    match s.checkAppeal id "approving" with
    | .error e => .error e
    | .ok _ =>
      let s := s.updateWorkspace id (·.setStatus .active now) fun _ => rfl
      let s := s.updateReview id (·.decided .approved now) fun _ => rfl
      .ok (s.syncAccountStatus (w.setStatus .active now))

/-- `deny_appeal`. -/
def denyAppeal (id : Uuid) (now : Time) : Except ReviewError Store :=
  match s.workspaces.get id with
  | none => .error .resourceNotFound
  | some _ =>
    match s.checkAppeal id "denying" with
    | .error e => .error e
    | .ok _ => .ok (s.updateReview id (·.decided .rejected now) fun _ => rfl)

end Store

/-! ### Updates from the payment provider -/

/-- What `update_status_from_stripe_account` reads of the account. -/
structure StripeAccount where
  id : Uuid
  currency : Option String := none
  isDetailsSubmitted : Bool
  isChargesEnabled : Bool
  isPayoutsEnabled : Bool
deriving DecidableEq

/-- Some capability of the account is missing. -/
def StripeAccount.capabilityMissing (account : StripeAccount) : Bool :=
  !account.isDetailsSubmitted || !account.isChargesEnabled || !account.isPayoutsEnabled

/-- The status that the account gives a workspace that is not denied, if it gives it one. The reset
comes second, and the review of the workspace is not asked about there. -/
def Workspace.statusFromStripeAccount (w : Workspace) (account : StripeAccount) :
    Option WorkspaceStatus :=
  let update : Option WorkspaceStatus :=
    if !w.isUnderReview && !w.isActive && account.currency.isSome && account.isDetailsSubmitted &&
        account.isChargesEnabled && account.isPayoutsEnabled then
      some .active
    else none
  if account.capabilityMissing then some .onboardingStarted else update

namespace Store

variable (s : Store)

/-- `get_all_by_account`. -/
def getAllByAccount (accountId : Uuid) : List Workspace :=
  s.workspaces.select fun w =>
    w.deletedAt = none ∧ w.accountId = some accountId ∧ w.blockedAt = none

/-- One round of the loop of `update_status_from_stripe_account`. -/
def updateStatus (account : StripeAccount) (now : Time) (w : Workspace) : Store :=
  if w.status = .denied then s
  else
    match w.statusFromStripeAccount account with
    | none => s.syncAccountStatus w
    | some status =>
      (s.updateWorkspace w.id (·.setStatus status now) fun _ => rfl).syncAccountStatus
        (w.setStatus status now)

/-- `update_status_from_stripe_account`. -/
def updateStatusFromStripeAccount (account : StripeAccount) (now : Time) : Store :=
  (s.getAllByAccount account.id).foldl (fun s w => s.updateStatus account now w) s

end Store

/-! ### Sequences of operations -/

inductive Operation where
  | confirmWorkspaceReviewed (id : Uuid) (nextReviewThreshold : ℤ) (now : Time)
  | denyWorkspace (id : Uuid) (now : Time)
  | setWorkspaceUnderReview (id : Uuid) (now : Time)
  | validateWithAi (id : Uuid) (verdict : Verdict) (now : Time)
  | submitAppeal (id : Uuid) (reason : String) (now : Time)
  | approveAppeal (id : Uuid) (now : Time)
  | denyAppeal (id : Uuid) (now : Time)
  | updateStatusFromStripeAccount (account : StripeAccount) (now : Time)
  /-- The account of a workspace changes, or the workspace is blocked, restored or deleted. -/
  | directory (id : Uuid) (accountId : Option Uuid) (blockedAt deletedAt : Option Time)
deriving DecidableEq

/-- The columns of a workspace that other operations write. -/
def Workspace.setDirectory (accountId : Option Uuid) (blockedAt deletedAt : Option Time)
    (w : Workspace) : Workspace :=
  { w with accountId, blockedAt, deletedAt }

/-- The operation lets a workspace be active again: `confirm_workspace_reviewed` or
`approve_appeal`. -/
def Operation.clears (id : Uuid) : Operation → Bool
  | .confirmWorkspaceReviewed id' _ _ => id' = id
  | .approveAppeal id' _ => id' = id
  | _ => false

namespace Store

/-- Perform an operation. -/
def perform (s : Store) : Operation → Except ReviewError Store
  | .confirmWorkspaceReviewed id threshold now => s.confirmWorkspaceReviewed id threshold now
  | .denyWorkspace id now => s.denyWorkspace id now
  | .setWorkspaceUnderReview id now => s.setWorkspaceUnderReview id now
  | .validateWithAi id verdict now => s.validateWithAi id verdict now
  | .submitAppeal id reason now => s.submitAppeal id reason now
  | .approveAppeal id now => s.approveAppeal id now
  | .denyAppeal id now => s.denyAppeal id now
  | .updateStatusFromStripeAccount account now => .ok (s.updateStatusFromStripeAccount account now)
  | .directory id accountId blockedAt deletedAt =>
    .ok (s.updateWorkspace id (.setDirectory accountId blockedAt deletedAt) fun _ => rfl)

/-- The state after an operation: that before it, where it fails. -/
def performed (s : Store) (op : Operation) : Store :=
  match s.perform op with
  | .ok s' => s'
  | .error _ => s

end Store

/-- All sequences of operations. What is observed is an error. -/
def operations (start : Store) : System Store Operation ReviewError where
  init := start
  step s op :=
    (s.performed op,
      match s.perform op with
      | .ok _ => []
      | .error e => [e])

/-! ### What an operation does to the status -/

namespace Store

/-- The status of a workspace. -/
def statusOf (s : Store) (id : Uuid) : Option WorkspaceStatus :=
  (s.workspaces.get id).map Workspace.status

variable {s s' : Store} {id id' : Uuid} {now : Time}

theorem statusOf_of_workspaces (h : s'.workspaces = s.workspaces) (id : Uuid) :
    s'.statusOf id = s.statusOf id := by
  rw [statusOf, statusOf, h]

@[simp] theorem syncAccountStatus_workspaces (w : Workspace) :
    (s.syncAccountStatus w).workspaces = s.workspaces := by
  rw [syncAccountStatus]
  split <;> rfl

@[simp] theorem settleAppeal_workspaces (decision : AppealDecision) :
    (s.settleAppeal id decision now).workspaces = s.workspaces := by
  rw [settleAppeal]
  split
  · rfl
  · split <;> rfl

/-- Rewriting a workspace decides about its status and leaves those of the others. -/
theorem statusOf_updateWorkspace {f : Workspace → Workspace} {hf : ∀ w, (f w).id = w.id}
    {status : WorkspaceStatus} (hstatus : ∀ w, (f w).status = status) :
    (s.updateWorkspace id f hf).statusOf id' = s.statusOf id' ∨
      id' = id ∧ (s.updateWorkspace id f hf).statusOf id' = some status := by
  rw [statusOf, updateWorkspace, Table.get_modify, statusOf]
  rcases hget : s.workspaces.get id' with _ | w
  · exact .inl rfl
  · have hid : w.id = id' := (Table.get_eq_some_iff.mp hget).2
    rw [Option.map_some, Option.map_some, Option.map_some, hid]
    by_cases h : id' = id
    · rw [if_pos h, hstatus]
      exact .inr ⟨h, rfl⟩
    · rw [if_neg h]
      exact .inl rfl

theorem statusOf_updateWorkspace_of_status {f : Workspace → Workspace}
    {hf : ∀ w, (f w).id = w.id} (hstatus : ∀ w, (f w).status = w.status) :
    (s.updateWorkspace id f hf).statusOf id' = s.statusOf id' := by
  rw [statusOf, updateWorkspace, Table.get_modify, statusOf, Option.map_map]
  congr 1
  funext w
  rw [Function.comp_apply]
  split
  · exact hstatus w
  · rfl

theorem statusOf_deny {w : Workspace} :
    (s.deny w now).statusOf id = s.statusOf id ∨
      id = w.id ∧ (s.deny w now).statusOf id = some .denied := by
  have h : (s.deny w now).statusOf id =
      (s.updateWorkspace w.id (·.setStatus .denied now) fun _ => rfl).statusOf id :=
    statusOf_of_workspaces (by rw [deny, settleAppeal_workspaces, syncAccountStatus_workspaces]) id
  rw [h]
  exact statusOf_updateWorkspace fun _ => rfl

theorem statusOf_updateStatus {account : StripeAccount} {w : Workspace} :
    (s.updateStatus account now w).statusOf id = s.statusOf id ∨
      id = w.id ∧ w.status ≠ .denied ∧ w.statusFromStripeAccount account ≠ none ∧
        (s.updateStatus account now w).statusOf id = w.statusFromStripeAccount account := by
  rw [updateStatus]
  split
  · exact .inl rfl
  next hdenied =>
    rcases w.statusFromStripeAccount account with _ | status
    · exact .inl (statusOf_of_workspaces (syncAccountStatus_workspaces w) id)
    · dsimp only
      rw [statusOf_of_workspaces (syncAccountStatus_workspaces _) id]
      rcases @statusOf_updateWorkspace s w.id id (·.setStatus status now) (fun _ => rfl) status
        (fun _ => rfl) with h | ⟨hid, h⟩
      · exact .inl h
      · exact .inr ⟨hid, hdenied, nofun, h⟩

/-- The loop leaves a status, or sets it to what the account gives to the workspace. -/
theorem statusOf_foldl_updateStatus {account : StripeAccount} (ws : List Workspace) :
    (ws.foldl (fun s w => s.updateStatus account now w) s).statusOf id = s.statusOf id ∨
      ∃ w ∈ ws, id = w.id ∧ w.status ≠ .denied ∧ w.statusFromStripeAccount account ≠ none ∧
        (ws.foldl (fun s w => s.updateStatus account now w) s).statusOf id =
          w.statusFromStripeAccount account := by
  induction ws generalizing s with
  | nil => exact .inl rfl
  | cons w ws ih =>
    rw [List.foldl_cons]
    rcases @ih (s.updateStatus account now w) with h | ⟨w', hw', h⟩
    · rw [h]
      rcases @statusOf_updateStatus s id now account w with h | h
      · exact .inl h
      · exact .inr ⟨w, List.mem_cons_self, h⟩
    · exact .inr ⟨w', List.mem_cons_of_mem w hw', h⟩

theorem statusOf_confirmWorkspaceReviewed {threshold : ℤ}
    (h : s.confirmWorkspaceReviewed id' threshold now = .ok s') :
    s'.statusOf id = s.statusOf id ∨ id = id' := by
  rw [confirmWorkspaceReviewed] at h
  split at h
  · cases h
  next w hget =>
    split at h
    · cases h
    · obtain rfl := Except.ok.inj h
      refine (@statusOf_updateWorkspace s id' id (·.setReviewed threshold now) (fun _ => rfl) _
        fun _ => rfl).imp (fun h => ?_) And.left
      rw [← h]
      refine statusOf_of_workspaces ?_ id
      rw [settleAppeal_workspaces, syncAccountStatus_workspaces]

theorem statusOf_setWorkspaceUnderReview (h : s.setWorkspaceUnderReview id' now = .ok s') :
    s'.statusOf id = s.statusOf id ∨ s'.statusOf id = some .ongoingReview := by
  rw [setWorkspaceUnderReview] at h
  split at h
  · cases h
  next w hget =>
    obtain rfl := Except.ok.inj h
    have hsame : ∀ tasks, ({ (s.updateWorkspace id' (·.setStatus .ongoingReview now)
        fun _ => rfl).syncAccountStatus (w.setStatus .ongoingReview now) with tasks } :
          Store).statusOf id =
        (s.updateWorkspace id' (·.setStatus .ongoingReview now) fun _ => rfl).statusOf id :=
      fun _ => statusOf_of_workspaces (syncAccountStatus_workspaces _) id
    rw [hsame]
    exact (@statusOf_updateWorkspace s id' id (·.setStatus .ongoingReview now) (fun _ => rfl) _
      fun _ => rfl).imp_right And.right

theorem insertReview_workspaces {review : WorkspaceReview} (h : s.insertReview review = .ok s') :
    s'.workspaces = s.workspaces := by
  rw [insertReview] at h
  split at h
  · cases h
  · rw [← Except.ok.inj h]

theorem statusOf_validateWithAi {verdict : Verdict}
    (h : s.validateWithAi id' verdict now = .ok s') :
    s'.statusOf id = s.statusOf id ∨ s'.statusOf id = some .denied := by
  rw [validateWithAi] at h
  split at h
  · cases h
  · split at h
    · rw [Except.ok.inj h]
      exact .inl rfl
    · rw [statusOf_of_workspaces (insertReview_workspaces h) id]
      split
      · exact .inl rfl
      · exact statusOf_deny.imp_right And.right

theorem statusOf_approveAppeal (h : s.approveAppeal id' now = .ok s') :
    s'.statusOf id = s.statusOf id ∨ id = id' := by
  rw [approveAppeal] at h
  split at h
  · cases h
  next w hget =>
    split at h
    · cases h
    · obtain rfl := Except.ok.inj h
      refine (@statusOf_updateWorkspace s id' id (·.setStatus .active now) (fun _ => rfl) _
        fun _ => rfl).imp (fun h => ?_) And.left
      rw [← h]
      exact statusOf_of_workspaces (syncAccountStatus_workspaces _) id

theorem submitAppeal_workspaces {reason : String} (h : s.submitAppeal id' reason now = .ok s') :
    s'.workspaces = s.workspaces := by
  rw [submitAppeal] at h
  split at h
  · cases h
  · split at h
    · cases h
    · split at h
      · cases h
      · split at h
        · cases h
        · rw [← Except.ok.inj h]
          rfl

theorem denyAppeal_workspaces (h : s.denyAppeal id' now = .ok s') :
    s'.workspaces = s.workspaces := by
  rw [denyAppeal] at h
  split at h
  · cases h
  · split at h
    · cases h
    · rw [← Except.ok.inj h]
      rfl

/-- The workspace is denied or under review. -/
def Held (s : Store) (id : Uuid) : Prop :=
  ∃ status ∈ s.statusOf id, status = .denied ∨ status ∈ WorkspaceStatus.reviewStatuses

instance (id : Uuid) : Decidable (s.Held id) :=
  inferInstanceAs (Decidable (∃ status ∈ s.statusOf id, _))

theorem Held.of_statusOf_eq (h : s.Held id) (hsame : s'.statusOf id = s.statusOf id) :
    s'.Held id := by
  obtain ⟨status, hstatus, hheld⟩ := h
  exact ⟨status, hsame.trans hstatus, hheld⟩

/-- An account that misses a capability gives the status of no workspace that is under review. -/
def KeepsReviews (s : Store) : Operation → Prop
  | .updateStatusFromStripeAccount account _ =>
    account.capabilityMissing = true → ∀ w ∈ s.getAllByAccount account.id, w.isUnderReview = false
  | _ => True

instance (op : Operation) : Decidable (s.KeepsReviews op) := by
  cases op <;> unfold KeepsReviews <;> infer_instance

/-- Without a missing capability an account gives no status to a workspace under review. -/
theorem statusFromStripeAccount_of_isUnderReview {account : StripeAccount} {w : Workspace}
    (hreview : w.isUnderReview = true) (hcomplete : account.capabilityMissing = false) :
    w.statusFromStripeAccount account = none := by
  simp [Workspace.statusFromStripeAccount, hreview, hcomplete]

/-- An update from the provider that keeps the reviews keeps each workspace denied or under
review. -/
theorem Held.updateStatusFromStripeAccount (h : s.Held id) {account : StripeAccount}
    (hkeeps : s.KeepsReviews (.updateStatusFromStripeAccount account now)) :
    (s.updateStatusFromStripeAccount account now).Held id := by
  rcases @statusOf_foldl_updateStatus s id now account (s.getAllByAccount account.id) with
    hsame | ⟨w, hw, rfl, hdenied, hgiven, -⟩
  · exact h.of_statusOf_eq hsame
  · exfalso
    obtain ⟨status, hstatus, hheld⟩ := h
    have hget : s.workspaces.get w.id = some w :=
      Table.get_eq_some_iff.mpr ⟨(Table.mem_select.mp hw).1, rfl⟩
    have heq : w.status = status := by
      rw [statusOf, hget] at hstatus
      exact Option.some.inj hstatus
    have hreview : w.isUnderReview = true := by
      rw [Workspace.isUnderReview, heq]
      exact decide_eq_true (hheld.resolve_left fun h => hdenied (heq.trans h))
    cases hmissing : account.capabilityMissing with
    | true =>
      have hnot := hkeeps hmissing w hw
      rw [hreview] at hnot
      exact absurd hnot nofun
    | false => exact hgiven (statusFromStripeAccount_of_isUnderReview hreview hmissing)

/-- **One operation.** A workspace that is denied or under review stays so, unless the operation
lets it be active again. -/
theorem Held.performed (h : s.Held id) {op : Operation} (hkeeps : s.KeepsReviews op) :
    (s.performed op).Held id ∨ op.clears id = true ∧ ∃ s', s.perform op = .ok s' := by
  rw [Store.performed]
  cases hperform : s.perform op with
  | error e => exact .inl h
  | ok s' =>
    rcases op with ⟨id', threshold, now⟩ | ⟨id', now⟩ | ⟨id', now⟩ | ⟨id', verdict, now⟩ |
      ⟨id', reason, now⟩ | ⟨id', now⟩ | ⟨id', now⟩ | ⟨account, now⟩ |
      ⟨id', accountId, blockedAt, deletedAt⟩
    · rcases statusOf_confirmWorkspaceReviewed hperform with hsame | hid
      · exact .inl (h.of_statusOf_eq hsame)
      · exact .inr ⟨decide_eq_true hid.symm, s', rfl⟩
    · rw [perform, denyWorkspace] at hperform
      split at hperform
      · cases hperform
      · obtain rfl := Except.ok.inj hperform
        rcases statusOf_deny with hsame | ⟨-, hdenied⟩
        · exact .inl (h.of_statusOf_eq hsame)
        · exact .inl ⟨.denied, hdenied, .inl rfl⟩
    · rcases statusOf_setWorkspaceUnderReview hperform with hsame | hreview
      · exact .inl (h.of_statusOf_eq hsame)
      · exact .inl ⟨.ongoingReview, hreview, .inr (by decide)⟩
    · rcases statusOf_validateWithAi hperform with hsame | hdenied
      · exact .inl (h.of_statusOf_eq hsame)
      · exact .inl ⟨.denied, hdenied, .inl rfl⟩
    · exact .inl (h.of_statusOf_eq (statusOf_of_workspaces (submitAppeal_workspaces hperform) id))
    · rcases statusOf_approveAppeal hperform with hsame | hid
      · exact .inl (h.of_statusOf_eq hsame)
      · exact .inr ⟨decide_eq_true hid.symm, s', rfl⟩
    · exact .inl (h.of_statusOf_eq (statusOf_of_workspaces (denyAppeal_workspaces hperform) id))
    · obtain rfl := Except.ok.inj hperform
      exact .inl (h.updateStatusFromStripeAccount hkeeps)
    · obtain rfl := Except.ok.inj hperform
      exact .inl (h.of_statusOf_eq (statusOf_updateWorkspace_of_status fun _ => rfl))

end Store

/-! ### Every sequence of operations -/

/-- Within the operations `mid`, performed after `past`, one that succeeds lets the workspace be
active again. -/
def ClearedWithin (start : Store) (past mid : List Operation) (id : Uuid) : Prop :=
  ∃ before op rest s', mid = before ++ op :: rest ∧ op.clears id = true ∧
    ((operations start).after (past ++ before)).perform op = .ok s'

/-- **Review decisions stand.** Between a moment at which a workspace is denied or under review and
a later one at which it is active, it has been cleared. -/
def ReviewsStand (start : Store) (ops : List Operation) : Prop :=
  ∀ id past mid rest, ops = past ++ mid ++ rest → ((operations start).after past).Held id →
    ((operations start).after (past ++ mid)).statusOf id = some .active →
      ClearedWithin start past mid id

theorem ClearedWithin.snoc {start : Store} {past mid : List Operation} {id : Uuid}
    (h : ClearedWithin start past mid id) (op : Operation) :
    ClearedWithin start past (mid ++ [op]) id := by
  obtain ⟨before, op', rest, s', hmid, hop⟩ := h
  exact ⟨before, op', rest ++ [op], s', by rw [hmid, List.append_assoc, List.cons_append], hop⟩

theorem held_or_clearedWithin (start : Store) {past mid : List Operation} {id : Uuid}
    (hheld : ((operations start).after past).Held id)
    (h : (operations start).Along (fun _ s op => s.KeepsReviews op) (past ++ mid)) :
    ((operations start).after (past ++ mid)).Held id ∨ ClearedWithin start past mid id := by
  induction mid using List.reverseRecOn with
  | nil =>
    rw [List.append_nil]
    exact .inl hheld
  | append_singleton mid op ih =>
    rw [← List.append_assoc, System.along_snoc] at h
    obtain ⟨halong, hkeeps⟩ := h
    rw [← List.append_assoc, System.after_snoc]
    rcases ih halong with hmid | hcleared
    · rcases hmid.performed hkeeps with hstill | ⟨hclears, s', hok⟩
      · exact .inl hstill
      · exact .inr ⟨mid, op, [], s', rfl, hclears, hok⟩
    · exact .inr (hcleared.snoc op)

/-- **Review decisions stand** in every run in which no update from the provider with a missing
capability comes to a workspace that is under review. -/
theorem reviewsStand (start : Store) {ops : List Operation}
    (h : (operations start).Along (fun _ s op => s.KeepsReviews op) ops) :
    ReviewsStand start ops := by
  rintro id past mid rest rfl hheld hactive
  have halong : (operations start).Along (fun _ s op => s.KeepsReviews op) (past ++ mid) :=
    ((operations start).alongFrom_append.mp h).1
  rcases held_or_clearedWithin start hheld halong with hstill | hcleared
  · exfalso
    obtain ⟨status, hstatus, hcase⟩ := hstill
    rw [hactive] at hstatus
    obtain rfl := Option.some.inj hstatus
    revert hcase
    decide
  · exact hcleared

/-! ### A workspace with an account -/

/-- A workspace that is active, with its account. -/
def activeWorkspace : Store where
  workspaces := Table.singleton { id := 1, accountId := some 8, status := .active }
  accounts := Table.singleton { id := 8, status := .active }

/-- The account with all its capabilities, or without payouts. -/
def stripeAccount (isPayoutsEnabled : Bool) : StripeAccount :=
  { id := 8, currency := some "usd", isDetailsSubmitted := true, isChargesEnabled := true
    isPayoutsEnabled }

/-- The workspace is denied, its account is updated, it is put under review and confirmed. -/
theorem confirmed_reviewsStand :
    ReviewsStand activeWorkspace
      [.denyWorkspace 1 5, .updateStatusFromStripeAccount (stripeAccount false) 6,
        .updateStatusFromStripeAccount (stripeAccount true) 7, .setWorkspaceUnderReview 1 8,
        .updateStatusFromStripeAccount (stripeAccount true) 9,
        .confirmWorkspaceReviewed 1 100 10] :=
  reviewsStand activeWorkspace (by decide)

/-- The workspace is put under review; the account loses its payouts and gets them back, and the
workspace is active. -/
theorem not_reviewsStand :
    ¬ ReviewsStand activeWorkspace
      [.setWorkspaceUnderReview 1 5, .updateStatusFromStripeAccount (stripeAccount false) 6,
        .updateStatusFromStripeAccount (stripeAccount true) 7] := by
  intro h
  have hcleared := h 1 [.setWorkspaceUnderReview 1 5]
    [.updateStatusFromStripeAccount (stripeAccount false) 6,
      .updateStatusFromStripeAccount (stripeAccount true) 7] [] rfl (by decide) (by decide)
  obtain ⟨before, op, rest, s', hmid, hclears, -⟩ := hcleared
  have hnone : ∀ op' ∈ [Operation.updateStatusFromStripeAccount (stripeAccount false) 6,
      .updateStatusFromStripeAccount (stripeAccount true) 7], op'.clears 1 = false := by decide
  have hop : op ∈ [Operation.updateStatusFromStripeAccount (stripeAccount false) 6,
      .updateStatusFromStripeAccount (stripeAccount true) 7] :=
    hmid ▸ List.mem_append_right before List.mem_cons_self
  rw [hnone op hop] at hclears
  exact absurd hclears nofun

end Rapidly.Platform
