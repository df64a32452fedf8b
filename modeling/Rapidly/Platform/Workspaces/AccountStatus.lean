import Rapidly.Platform.Anonymization
import Rapidly.Platform.Workspaces.Review

/-!
# The status of an account

The status of an account is a copy: `sync_account_status` pushes that of a workspace to the account
it is linked to. Besides the operations on the status of a workspace, the model has those that
link workspaces to accounts: `set_account`, `get_or_create_account_for_workspace`,
`setup_manual_payout` and `request_deletion`, one after the other. That a request comes from
somebody who may read the workspace is not modelled; it can only keep an operation from happening.

* `changes` is the system, for any number of workspaces and accounts.
* `follows_after` says in which runs the status of every account fits its workspaces.
-/

namespace Rapidly.Platform

open Relational Transition

open Identity (Uuid Time)

/-- The operation is one on the status of workspaces. -/
def Operation.isStatus : Operation → Bool
  | .directory .. => false
  | _ => true

namespace AccountSync

/-- The other columns of an account. -/
structure Columns where
  adminId : Uuid := 0
  stripeId : Option String := none
  deletedAt : Option Time := none
deriving DecidableEq

structure State where
  store : Store := {}
  columns : Uuid → Columns := fun _ => {}

/-- How an operation fails. -/
inductive ChangeError where
  | review (e : ReviewError)
  | resourceNotFound
  | pendingPaymentsExist
  | invalidAccount (id : Uuid)
  | notPermitted
  | accountServiceError
  | badRequest (detail : String)
  | integrityError
deriving DecidableEq

namespace State

variable (s : State)

/-- A workspace that a request can read. -/
def get (id : Uuid) : Option Workspace :=
  (s.store.workspaces.get id).filter fun w => w.deletedAt = none ∧ w.blockedAt = none

/-- An account that is not deleted. -/
def getAccount (id : Uuid) : Option Account :=
  (s.store.accounts.get id).filter fun _ => (s.columns id).deletedAt = none

/-- An account that a user can read: the admin. -/
def getReadableAccount (user id : Uuid) : Option Account :=
  (s.getAccount id).filter fun _ => (s.columns id).adminId = user

/-- The check of `set_account` for payments. -/
def Pending (w : Workspace) (accountId : Uuid) (skipPendingCheck hasPendingPayments : Bool) :
    Prop :=
  (∃ old ∈ w.accountId, old ≠ accountId) ∧ skipPendingCheck = false ∧ hasPendingPayments = true

instance (w : Workspace) (accountId : Uuid) (skipPendingCheck hasPendingPayments : Bool) :
    Decidable (Pending w accountId skipPendingCheck hasPendingPayments) :=
  inferInstanceAs (Decidable ((∃ old ∈ w.accountId, _) ∧ _))

/-- Link a workspace to an account. -/
def link (w : Workspace) (accountId : Uuid) : State :=
  { s with
    store := s.store.updateWorkspace w.id (fun w => { w with accountId := some accountId })
      fun _ => rfl }

/-- `set_account`. -/
def setAccount (user : Uuid) (w : Workspace) (accountId : Uuid)
    (skipPendingCheck hasPendingPayments : Bool) : Except ChangeError State :=
  if Pending w accountId skipPendingCheck hasPendingPayments then .error .pendingPaymentsExist
  else
    match s.getReadableAccount user accountId with
    | none => .error (.invalidAccount accountId)
    | some _ => .ok (s.link w accountId)

/-- `INSERT` of an account. Its identifier is new, so no workspace refers to it. -/
def createAccount (id : Uuid) (status : AccountStatus) (columns : Columns) :
    Except ChangeError State :=
  if h : id ∈ s.store.accounts.rows.map Account.id then .error .integrityError
  else if ∃ w ∈ s.store.workspaces.rows, w.accountId = some id then .error .integrityError
  else .ok {
    store := { s.store with accounts := s.store.accounts.add { id, status } h }
    columns k := if k = id then columns else s.columns k }

/-- The end of `get_or_create_account_for_workspace`: a new account is created and linked. What the
provider answers is the identifier of the account there. -/
def provision (admin : Uuid) (w : Workspace) (newId : Uuid) (stripeId : Option String)
    (forceNew hasPendingPayments : Bool) : Except ChangeError State :=
  match stripeId with
  | none => .error .accountServiceError
  | some stripeId =>
    match s.createAccount newId .onboardingStarted
        { adminId := admin, stripeId := some stripeId } with
    | .error e => .error e
    | .ok s => s.setAccount admin w newId forceNew hasPendingPayments

/-- `get_or_create_account_for_workspace`. -/
def getOrCreateAccount (admin : Uuid) (w : Workspace) (newId : Uuid) (stripeId : Option String)
    (forceNew hasPendingPayments : Bool) : Except ChangeError State :=
  match w.accountId.bind s.getAccount with
  | none => s.provision admin w newId stripeId forceNew hasPendingPayments
  | some account =>
    if forceNew then s.provision admin w newId stripeId forceNew hasPendingPayments
    else if truthy (s.columns account.id).stripeId then .ok s
    else
      match stripeId with
      | none => .error .accountServiceError
      | some stripeId =>
        .ok { s with
          columns k := if k = account.id then { s.columns k with stripeId } else s.columns k }

/-- `setup_manual_payout`. -/
def setupManualPayout (w : Workspace) (admin newId : Uuid) : Except ChangeError State :=
  if w.accountId.isSome then .error (.badRequest "Workspace already has an account")
  else
    match s.createAccount newId .active { adminId := admin } with
    | .error e => .error e
    | .ok s => .ok (s.link w newId)

/-- The request may delete the workspace, and the provider lets its account be deleted. -/
def Deletes (user : Uuid) (w : Workspace) (removes : Bool) : Prop :=
  ∀ a ∈ w.accountId, (s.getReadableAccount user a).isSome ∧
    (truthy (s.columns a).stripeId = true → removes = true)

instance (user : Uuid) (w : Workspace) (removes : Bool) : Decidable (s.Deletes user w removes) :=
  inferInstanceAs (Decidable (∀ a ∈ w.accountId, _))

/-- `request_deletion`; a deletion that the provider does not let happen is reported. -/
def requestDeletion (user : Uuid) (w : Workspace) (now : Time) (removes : Bool) :
    Except ChangeError State :=
  if ∃ a ∈ w.accountId, s.getReadableAccount user a = none then .error .notPermitted
  else if s.Deletes user w removes then
    .ok {
      store := s.store.updateWorkspace w.id
        (fun w => { w with accountId := none, deletedAt := some now }) fun _ => rfl
      columns k :=
        if w.accountId = some k then
          { s.columns k with stripeId := none, deletedAt := some now }
        else s.columns k }
  else .ok s

end State

inductive Change where
  | createWorkspace (id : Uuid)
  | status (op : { op : Operation // op.isStatus })
  | setAccount (user id accountId : Uuid)
  | getOrCreateAccount (admin id newId : Uuid) (stripeId : Option String)
      (forceNew hasPendingPayments : Bool)
  | setupManualPayout (id admin newId : Uuid)
  | requestDeletion (user id : Uuid) (now : Time) (removes : Bool)

namespace State

variable (s : State)

def perform : Change → Except ChangeError State
  | .createWorkspace id =>
    if h : id ∈ s.store.workspaces.rows.map Workspace.id then .error .integrityError
    else .ok { s with store := { s.store with workspaces := s.store.workspaces.add { id } h } }
  | .status op =>
    match s.store.perform op.1 with
    | .error e => .error (.review e)
    | .ok store => .ok { s with store }
  | .setAccount user id accountId =>
    match s.get id with
    | none => .error .resourceNotFound
    | some w => s.setAccount user w accountId true false
  | .getOrCreateAccount admin id newId stripeId forceNew hasPendingPayments =>
    match s.get id with
    | none => .error .resourceNotFound
    | some w => s.getOrCreateAccount admin w newId stripeId forceNew hasPendingPayments
  | .setupManualPayout id admin newId =>
    match s.store.workspaces.get id with
    | none => .error .resourceNotFound
    | some w => s.setupManualPayout w admin newId
  | .requestDeletion user id now removes =>
    match s.get id with
    | none => .error .resourceNotFound
    | some w => s.requestDeletion user w now removes

/-- The state after an operation: that before it, where it fails. -/
def performed (change : Change) : State :=
  match s.perform change with
  | .ok s' => s'
  | .error _ => s

end State

/-- All sequences of operations, from an empty database on. What is observed is an error. -/
def changes : System State Change ChangeError where
  init := {}
  step s change :=
    (s.performed change,
      match s.perform change with
      | .ok _ => []
      | .error e => [e])

end AccountSync

/-! ### Statuses that fit -/

/-- The status of an account fits each of the workspaces: it is denied if one of them is, and not
active if one of them is under review. -/
def AccountStatus.FitsEach (status : AccountStatus) (ws : List Workspace) : Prop :=
  ∀ w ∈ ws, (w.status = .denied → status = .denied) ∧ (w.isUnderReview = true → status ≠ .active)

/-- If there is only one workspace, its status is mapped to that of the account. -/
def AccountStatus.FitsOnly (status : AccountStatus) (ws : List Workspace) : Prop :=
  ∀ w ∈ ws, (∀ w' ∈ ws, w' = w) → ∀ mapped ∈ w.status.accountStatus, status = mapped

instance (status : AccountStatus) (ws : List Workspace) : Decidable (status.FitsEach ws) :=
  inferInstanceAs (Decidable (∀ w ∈ ws, _))

instance (status : AccountStatus) (ws : List Workspace) : Decidable (status.FitsOnly ws) :=
  inferInstanceAs (Decidable (∀ w ∈ ws, _ → ∀ mapped ∈ w.status.accountStatus, _))

namespace Store

variable (s : Store)

/-- The workspaces that are linked to an account and not deleted. -/
def linkedTo (a : Uuid) : List Workspace :=
  s.workspaces.select fun w => w.deletedAt = none ∧ w.accountId = some a

/-- Those other than one. -/
def othersOn (id a : Uuid) : List Workspace :=
  s.workspaces.select fun w => (w.deletedAt = none ∧ w.accountId = some a) ∧ w.id ≠ id

/-- **The status of every account follows its workspaces.** -/
def Follows : Prop :=
  ∀ a ∈ s.accounts.rows, a.status.FitsEach (s.linkedTo a.id) ∧ a.status.FitsOnly (s.linkedTo a.id)

instance : Decidable s.Follows := inferInstanceAs (Decidable (∀ a ∈ s.accounts.rows, _))

/-! ### Operations that fit -/

/-- A status that is pushed to the account of a workspace fits the other workspaces there. -/
def FitsPush (w : Workspace) (status : AccountStatus) : Prop :=
  ∀ a ∈ w.accountId, status.FitsEach (s.othersOn w.id a) ∧
    (w.deletedAt ≠ none → status.FitsOnly (s.othersOn w.id a))

/-- The status of the account that a workspace leaves fits the one that remains there. -/
def FitsWithout (w : Workspace) : Prop :=
  ∀ old ∈ w.accountId, ∀ b ∈ s.accounts.get old, b.status.FitsOnly (s.othersOn w.id old)

/-- The status of the account that a workspace is linked to fits it. -/
def FitsLink (w : Workspace) (a : Uuid) (status : AccountStatus) : Prop :=
  w.deletedAt = none → w.accountId ≠ some a →
    status.FitsEach [w] ∧ (s.othersOn w.id a = [] → status.FitsOnly [w]) ∧ s.FitsWithout w

/-- The workspace to which an operation gives a status, unless it fails. -/
def target : Operation → Option (Uuid × WorkspaceStatus)
  | .confirmWorkspaceReviewed id threshold _ => if threshold < 0 then none else some (id, .active)
  | .denyWorkspace id _ => some (id, .denied)
  | .setWorkspaceUnderReview id _ => some (id, .ongoingReview)
  | .validateWithAi id verdict _ =>
    if verdict = .pass ∨ id ∈ s.reviews.rows.map WorkspaceReview.workspaceId then none
    else some (id, .denied)
  | .approveAppeal id _ =>
    match s.checkAppeal id "approving" with
    | .error _ => none
    | .ok _ => some (id, .active)
  | _ => none

/-- What an operation pushes fits the other workspaces of the account. -/
def FitsStatus (op : Operation) : Prop :=
  match op with
  | .updateStatusFromStripeAccount account _ =>
    ∀ w ∈ s.getAllByAccount account.id, w.status ≠ .denied →
      ∀ status ∈ ((w.statusFromStripeAccount account).getD w.status).accountStatus,
        s.FitsPush w status
  | op =>
    ∀ t ∈ s.target op, ∀ w ∈ s.workspaces.get t.1, ∀ status ∈ t.2.accountStatus,
      s.FitsPush w status

instance (w : Workspace) (status : AccountStatus) : Decidable (s.FitsPush w status) :=
  inferInstanceAs (Decidable (∀ a ∈ w.accountId, _))

instance (w : Workspace) : Decidable (s.FitsWithout w) :=
  inferInstanceAs (Decidable (∀ old ∈ w.accountId, ∀ b ∈ s.accounts.get old, _))

instance (w : Workspace) (a : Uuid) (status : AccountStatus) :
    Decidable (s.FitsLink w a status) :=
  inferInstanceAs (Decidable (_ → _ → _ ∧ (_ → _) ∧ _))

instance (op : Operation) : Decidable (s.FitsStatus op) :=
  match op with
  | .updateStatusFromStripeAccount account _ =>
    inferInstanceAs (Decidable (∀ w ∈ s.getAllByAccount account.id, w.status ≠ .denied → _))
  | .confirmWorkspaceReviewed .. | .denyWorkspace .. | .setWorkspaceUnderReview ..
  | .validateWithAi .. | .submitAppeal .. | .approveAppeal .. | .denyAppeal .. | .directory .. =>
    inferInstanceAs (Decidable (∀ t ∈ s.target _, ∀ w ∈ _, ∀ status ∈ _, _))

end Store

namespace AccountSync

/-- An operation keeps the statuses of the accounts in step with their workspaces: what it pushes
fits the other workspaces of the account, the account that it links a workspace to fits the
workspace, and the account that it takes a workspace from fits the one that remains. -/
def Fitting : System.Condition State Change
  | _, _, .createWorkspace _ => True
  | _, s, .status op => s.store.FitsStatus op.1
  | _, s, .setAccount user id accountId =>
    ∀ w ∈ s.get id, ∀ account ∈ s.getReadableAccount user accountId,
      s.store.FitsLink w accountId account.status
  | _, s, .getOrCreateAccount _ id newId stripeId forceNew hasPendingPayments =>
    ∀ w ∈ s.get id, (w.accountId.bind s.getAccount = none ∨ forceNew = true) →
      stripeId.isSome → ¬State.Pending w newId forceNew hasPendingPayments →
        s.store.FitsLink w newId .onboardingStarted
  | _, s, .setupManualPayout id _ newId =>
    ∀ w ∈ s.store.workspaces.get id, w.accountId = none → s.store.FitsLink w newId .active
  | _, s, .requestDeletion user id _ removes =>
    ∀ w ∈ s.get id, s.Deletes user w removes → s.store.FitsWithout w

instance (past : List Change) (s : State) (change : Change) :
    Decidable (Fitting past s change) := by
  cases change <;> unfold Fitting <;> infer_instance

end AccountSync

/-! ### What a rewritten workspace changes -/

section

variable {s s' : Store} {w x : Workspace} {a id : Uuid} {status : AccountStatus}
variable {ws ws' others : List Workspace}

theorem AccountStatus.FitsEach.congr (h : status.FitsEach ws) (hmem : ∀ x ∈ ws', x ∈ ws) :
    status.FitsEach ws' := fun w hw => h w (hmem w hw)

theorem AccountStatus.FitsOnly.congr (h : status.FitsOnly ws) (hmem : ∀ x, x ∈ ws' ↔ x ∈ ws) :
    status.FitsOnly ws' := by
  intro w hw honly
  exact h w ((hmem w).mp hw) fun w' hw' => honly w' ((hmem w').mpr hw')

theorem AccountStatus.FitsEach.cons (h : status.FitsEach others) (hx : status.FitsEach [x])
    (hmem : ∀ y ∈ ws, y ∈ others ∨ y = x) : status.FitsEach ws := by
  intro y hy
  rcases hmem y hy with hother | rfl
  · exact h y hother
  · exact hx y (List.mem_singleton_self y)

theorem AccountStatus.FitsOnly.cons (hx : others = [] → status.FitsOnly [x]) (hws : x ∈ ws)
    (hmem : ∀ y, y ∈ others → y ∈ ws ∧ y ≠ x) : status.FitsOnly ws := by
  intro y hy honly
  obtain rfl := honly x hws
  have hnil : others = [] := by
    refine List.eq_nil_iff_forall_not_mem.mpr fun z hz => ?_
    obtain ⟨hzws, hne⟩ := hmem z hz
    exact hne (honly z hzws)
  refine hx hnil x (List.mem_singleton_self x) fun z hz => List.mem_singleton.mp hz

theorem AccountStatus.fits_self {w : Workspace} (h : w.status.accountStatus = some status) :
    status.FitsEach [w] ∧ status.FitsOnly [w] := by
  constructor
  · intro x hx
    obtain rfl := List.mem_singleton.mp hx
    constructor
    · intro hdenied
      rw [hdenied] at h
      exact (Option.some.inj h).symm
    · intro hreview hactive
      rw [hactive] at h
      have hmem : x.status ∈ WorkspaceStatus.reviewStatuses := of_decide_eq_true hreview
      revert h hmem
      cases x.status <;> decide
  · intro x hx _ mapped hmapped
    obtain rfl := List.mem_singleton.mp hx
    exact Option.some.inj (h.symm.trans hmapped)

namespace Store

theorem mem_othersOn : x ∈ s.othersOn id a ↔ x ∈ s.linkedTo a ∧ x.id ≠ id := by
  rw [othersOn, linkedTo, Table.mem_select, Table.mem_select]
  exact and_assoc.symm

/-- The workspaces that are linked to an account: one, if it is, and the others. -/
theorem mem_linkedTo (hw : s.workspaces.get w.id = some w) :
    x ∈ s.linkedTo a ↔
      x ∈ s.othersOn w.id a ∨ x = w ∧ w.deletedAt = none ∧ w.accountId = some a := by
  rw [mem_othersOn]
  constructor
  · intro hx
    by_cases hid : x.id = w.id
    · have hmem := Table.mem_select.mp hx
      have hxw : x = w := by
        have hget := Table.get_eq_some_iff.mpr ⟨hmem.1, hid⟩
        exact Option.some.inj (hget.symm.trans hw)
      exact .inr ⟨hxw, hxw ▸ hmem.2⟩
    · exact .inl ⟨hx, hid⟩
  · rintro (⟨hx, -⟩ | ⟨rfl, hlinked⟩)
    · exact hx
    · exact Table.mem_select.mpr ⟨(Table.get_eq_some_iff.mp hw).1, hlinked⟩

/-- They are, after it has been rewritten, what it is rewritten to, and the others. -/
theorem mem_linkedTo_updateWorkspace {f : Workspace → Workspace} {hf : ∀ w, (f w).id = w.id}
    (hw : s.workspaces.get w.id = some w) :
    x ∈ (s.updateWorkspace w.id f hf).linkedTo a ↔
      x ∈ s.othersOn w.id a ∨ x = f w ∧ (f w).deletedAt = none ∧ (f w).accountId = some a := by
  rw [linkedTo, Table.mem_select, updateWorkspace, Table.mem_modify, mem_othersOn, linkedTo,
    Table.mem_select]
  constructor
  · rintro ⟨⟨y, hy, rfl⟩, hlinked⟩
    by_cases hid : y.id = w.id
    · have hyw : y = w := by
        have hget := Table.get_eq_some_iff.mpr ⟨hy, hid⟩
        exact Option.some.inj (hget.symm.trans hw)
      rw [if_pos hid] at hlinked ⊢
      rw [hyw] at hlinked ⊢
      exact .inr ⟨rfl, hlinked⟩
    · rw [if_neg hid] at hlinked ⊢
      exact .inl ⟨⟨hy, hlinked⟩, hid⟩
  · rintro (⟨⟨hx, hlinked⟩, hid⟩ | ⟨rfl, hlinked⟩)
    · exact ⟨⟨x, hx, (if_neg hid).symm⟩, hlinked⟩
    · exact ⟨⟨w, (Table.get_eq_some_iff.mp hw).1, (if_pos rfl).symm⟩, hlinked⟩

variable {f : Workspace → Workspace} {hf : ∀ w, (f w).id = w.id}

theorem mem_linkedTo_of_not (hw : s.workspaces.get w.id = some w)
    (hbefore : ¬(w.deletedAt = none ∧ w.accountId = some a))
    (hafter : ¬((f w).deletedAt = none ∧ (f w).accountId = some a)) :
    x ∈ (s.updateWorkspace w.id f hf).linkedTo a ↔ x ∈ s.linkedTo a := by
  rw [mem_linkedTo_updateWorkspace hw, mem_linkedTo hw]
  simp only [hbefore, hafter, and_false]

theorem fits_of_not (hw : s.workspaces.get w.id = some w)
    (hbefore : ¬(w.deletedAt = none ∧ w.accountId = some a))
    (hafter : ¬((f w).deletedAt = none ∧ (f w).accountId = some a))
    (h : status.FitsEach (s.linkedTo a) ∧ status.FitsOnly (s.linkedTo a)) :
    status.FitsEach ((s.updateWorkspace w.id f hf).linkedTo a) ∧
      status.FitsOnly ((s.updateWorkspace w.id f hf).linkedTo a) :=
  ⟨h.1.congr fun _ hx => (mem_linkedTo_of_not hw hbefore hafter).mp hx,
    h.2.congr fun _ => mem_linkedTo_of_not hw hbefore hafter⟩

theorem fits_of_linked (hw : s.workspaces.get w.id = some w)
    (hafter : (f w).deletedAt = none ∧ (f w).accountId = some a)
    (hothers : status.FitsEach (s.othersOn w.id a)) (heach : status.FitsEach [f w])
    (honly : s.othersOn w.id a = [] → status.FitsOnly [f w]) :
    status.FitsEach ((s.updateWorkspace w.id f hf).linkedTo a) ∧
      status.FitsOnly ((s.updateWorkspace w.id f hf).linkedTo a) := by
  refine ⟨hothers.cons heach fun y hy => ?_, .cons honly ?_ fun y hy => ⟨?_, ?_⟩⟩
  · exact ((mem_linkedTo_updateWorkspace hw).mp hy).imp_right And.left
  · exact (mem_linkedTo_updateWorkspace hw).mpr (.inr ⟨rfl, hafter⟩)
  · exact (mem_linkedTo_updateWorkspace hw).mpr (.inl hy)
  · rintro rfl
    exact (mem_othersOn.mp hy).2 (hf w)

theorem fits_of_others (hw : s.workspaces.get w.id = some w)
    (hafter : ¬((f w).deletedAt = none ∧ (f w).accountId = some a))
    (heach : status.FitsEach (s.othersOn w.id a)) (honly : status.FitsOnly (s.othersOn w.id a)) :
    status.FitsEach ((s.updateWorkspace w.id f hf).linkedTo a) ∧
      status.FitsOnly ((s.updateWorkspace w.id f hf).linkedTo a) := by
  have hmem : ∀ x, x ∈ (s.updateWorkspace w.id f hf).linkedTo a ↔ x ∈ s.othersOn w.id a := by
    intro x
    rw [mem_linkedTo_updateWorkspace hw]
    simp only [hafter, and_false, or_false]
  exact ⟨heach.congr fun x hx => (hmem x).mp hx, honly.congr hmem⟩

theorem fitsEach_othersOn (h : status.FitsEach (s.linkedTo a)) :
    status.FitsEach (s.othersOn id a) := h.congr fun _ hx => (mem_othersOn.mp hx).1

/-! ### Operations on the status -/

theorem Follows.of_eq (h : s.Follows) (hworkspaces : s'.workspaces = s.workspaces)
    (haccounts : s'.accounts = s.accounts) : s'.Follows := by
  intro b hb
  rw [haccounts] at hb
  have hlinked : s'.linkedTo b.id = s.linkedTo b.id := by rw [linkedTo, linkedTo, hworkspaces]
  rw [hlinked]
  exact h b hb

theorem Follows.pushed (h : s.Follows) (f : Workspace → Workspace) (hf : ∀ w, (f w).id = w.id)
    (hw : s.workspaces.get w.id = some w)
    (hstatus : (f w).status.accountStatus = some status) (haccount : (f w).accountId = w.accountId)
    (hdeleted : (f w).deletedAt = w.deletedAt) (hfits : s.FitsPush w status) :
    ((s.updateWorkspace w.id f hf).syncAccountStatus (f w)).Follows := by
  have hsame : ∀ b ∈ s.accounts.rows, w.accountId ≠ some b.id →
      b.status.FitsEach ((s.updateWorkspace w.id f hf).linkedTo b.id) ∧
        b.status.FitsOnly ((s.updateWorkspace w.id f hf).linkedTo b.id) := by
    intro b hb hne
    refine fits_of_not hw (fun hlinked => hne hlinked.2) (fun hlinked => hne ?_) (h b hb)
    rw [← haccount]
    exact hlinked.2
  rw [syncAccountStatus, haccount, hstatus]
  cases hA : w.accountId with
  | none =>
    intro b hb
    exact hsame b hb (by simp [hA])
  | some a =>
    intro b' hb'
    have hmodify : b' ∈ s.accounts.modify (·.id = a) (.setStatus status) fun _ => rfl := hb'
    obtain ⟨b, hb, rfl⟩ := (Table.mem_modify _).mp hmodify
    by_cases hid : b.id = a
    · have hfit : status.FitsEach ((s.updateWorkspace w.id f hf).linkedTo a) ∧
          status.FitsOnly ((s.updateWorkspace w.id f hf).linkedTo a) := by
        obtain ⟨hothers, honly⟩ := hfits a hA
        obtain ⟨hself, hselfOnly⟩ := AccountStatus.fits_self hstatus
        by_cases hlive : w.deletedAt = none
        · exact fits_of_linked hw ⟨hdeleted.trans hlive, haccount.trans hA⟩ hothers hself
            fun _ => hselfOnly
        · refine fits_of_others hw (fun hlinked => hlive ?_) hothers (honly hlive)
          exact hdeleted.symm.trans hlinked.1
      rw [if_pos hid]
      rw [← hid] at hfit
      exact hfit
    · rw [if_neg hid]
      refine hsame b hb ?_
      rw [hA]
      exact fun hsome => hid (Option.some.inj hsome).symm

variable {now : Time} {account : StripeAccount}

@[simp] theorem settleAppeal_accounts {decision : AppealDecision} :
    (s.settleAppeal id decision now).accounts = s.accounts := by
  rw [settleAppeal]
  split
  · rfl
  · split <;> rfl

theorem Follows.deny (h : s.Follows) (hw : s.workspaces.get w.id = some w)
    (hfits : s.FitsPush w .denied) : (s.deny w now).Follows := by
  have hpushed := h.pushed (·.setStatus .denied now) (fun _ => rfl) hw
    (by rfl) rfl rfl hfits
  exact hpushed.of_eq (settleAppeal_workspaces _) settleAppeal_accounts

theorem deny_reviews (h : s.getReview w.id = none) : (s.deny w now).reviews = s.reviews := by
  have hsync : ∀ (s : Store) (w : Workspace), (s.syncAccountStatus w).reviews = s.reviews := by
    intro s w
    rw [syncAccountStatus]
    split <;> rfl
  have hreview : ((s.updateWorkspace w.id (·.setStatus .denied now)
      fun _ => rfl).syncAccountStatus (w.setStatus .denied now)).getReview w.id = none := by
    rw [getReview, hsync]
    exact h
  rw [deny, settleAppeal, hreview]
  exact hsync _ _

theorem insertReview_eq_ok {review : WorkspaceReview} (h : s.insertReview review = .ok s') :
    review.workspaceId ∉ s.reviews.rows.map WorkspaceReview.workspaceId ∧
      s'.accounts = s.accounts := by
  rw [insertReview] at h
  split at h
  · cases h
  next hnew =>
    rw [← Except.ok.inj h]
    exact ⟨hnew, rfl⟩

theorem submitAppeal_accounts {reason : String}
    (h : s.submitAppeal id reason now = .ok s') : s'.accounts = s.accounts := by
  rw [submitAppeal] at h
  split at h
  · cases h
  · split at h
    · cases h
    · split at h
      · cases h
      · split at h
        · cases h
        · rw [← Except.ok.inj h]
          rfl

theorem denyAppeal_accounts (h : s.denyAppeal id now = .ok s') : s'.accounts = s.accounts := by
  rw [denyAppeal] at h
  split at h
  · cases h
  · split at h
    · cases h
    · rw [← Except.ok.inj h]
      rfl

theorem get_id (hw : s.workspaces.get id = some w) : w.id = id := (Table.get_eq_some_iff.mp hw).2

/-- What is pushed to the account of the workspace that an operation targets fits it. -/
theorem FitsStatus.push {op : Operation} {ws : WorkspaceStatus} (h : s.FitsStatus op)
    (hnot : ∀ account now, op ≠ .updateStatusFromStripeAccount account now)
    (htarget : s.target op = some (w.id, ws)) (hw : s.workspaces.get w.id = some w)
    (hstatus : ws.accountStatus = some status) : s.FitsPush w status := by
  cases op with
  | updateStatusFromStripeAccount account now => exact absurd rfl (hnot account now)
  | _ => exact h _ htarget w hw status hstatus

theorem Follows.confirmWorkspaceReviewed {threshold : ℤ} (h : s.Follows)
    (hfits : s.FitsStatus (.confirmWorkspaceReviewed id threshold now))
    (hok : s.confirmWorkspaceReviewed id threshold now = .ok s') : s'.Follows := by
  rw [Store.confirmWorkspaceReviewed] at hok
  split at hok
  · cases hok
  next w hw =>
    split at hok
    · cases hok
    next hthreshold =>
      obtain rfl := get_id hw
      have hpushed := h.pushed (·.setReviewed threshold now) (fun _ => rfl) hw (by rfl) rfl rfl
        (hfits.push (by simp) (if_neg hthreshold) hw rfl)
      rw [← Except.ok.inj hok]
      exact hpushed.of_eq (settleAppeal_workspaces _) settleAppeal_accounts

theorem Follows.denyWorkspace (h : s.Follows) (hfits : s.FitsStatus (.denyWorkspace id now))
    (hok : s.denyWorkspace id now = .ok s') : s'.Follows := by
  rw [Store.denyWorkspace] at hok
  split at hok
  · cases hok
  next w hw =>
    obtain rfl := get_id hw
    rw [← Except.ok.inj hok]
    exact h.deny hw (hfits.push (by simp) rfl hw rfl)

theorem Follows.setWorkspaceUnderReview (h : s.Follows)
    (hfits : s.FitsStatus (.setWorkspaceUnderReview id now))
    (hok : s.setWorkspaceUnderReview id now = .ok s') : s'.Follows := by
  rw [Store.setWorkspaceUnderReview] at hok
  split at hok
  · cases hok
  next w hw =>
    obtain rfl := get_id hw
    have hpushed := h.pushed (·.setStatus .ongoingReview now) (fun _ => rfl) hw (by rfl) rfl rfl
      (hfits.push (by simp) rfl hw rfl)
    rw [← Except.ok.inj hok]
    exact hpushed.of_eq rfl rfl

theorem Follows.validateWithAi {verdict : Verdict} (h : s.Follows)
    (hfits : s.FitsStatus (.validateWithAi id verdict now))
    (hok : s.validateWithAi id verdict now = .ok s') : s'.Follows := by
  rw [Store.validateWithAi] at hok
  split at hok
  · cases hok
  next w hw =>
    obtain rfl := get_id hw
    split at hok
    · rw [← Except.ok.inj hok]
      exact h
    next hreview =>
      -- the review is inserted last, and the denial with it is rolled back where there is one
      have hworkspaces := insertReview_workspaces hok
      obtain ⟨hnew, haccounts⟩ := insertReview_eq_ok hok
      refine Follows.of_eq ?_ hworkspaces haccounts
      by_cases hpass : verdict = .pass
      · rw [if_pos hpass]
        exact h
      · rw [if_neg hpass] at hnew ⊢
        rw [deny_reviews hreview] at hnew
        exact h.deny hw (hfits.push (by simp) (if_neg (not_or.mpr ⟨hpass, hnew⟩)) hw rfl)

theorem Follows.approveAppeal (h : s.Follows) (hfits : s.FitsStatus (.approveAppeal id now))
    (hok : s.approveAppeal id now = .ok s') : s'.Follows := by
  rw [Store.approveAppeal] at hok
  split at hok
  · cases hok
  next w hw =>
    obtain rfl := get_id hw
    split at hok
    · cases hok
    next u hcheck =>
      have htarget : s.target (.approveAppeal w.id now) = some (w.id, .active) := by
        rw [target, hcheck]
      have hpushed := h.pushed (·.setStatus .active now) (fun _ => rfl) hw (by rfl) rfl rfl
        (hfits.push (by simp) htarget hw rfl)
      rw [← Except.ok.inj hok]
      refine hpushed.of_eq ?_ ?_
      · rw [syncAccountStatus_workspaces, syncAccountStatus_workspaces]
        rfl
      · rw [syncAccountStatus, syncAccountStatus]
        cases (w.setStatus .active now).accountId <;> rfl

/-! ### Updates from the payment provider -/

theorem statusFromStripeAccount_cases {st : WorkspaceStatus}
    (h : w.statusFromStripeAccount account = some st) : st = .active ∨ st = .onboardingStarted := by
  unfold Workspace.statusFromStripeAccount at h
  dsimp only at h
  split at h
  · exact .inr (Option.some.inj h).symm
  · split at h
    · exact .inl (Option.some.inj h).symm
    · cases h

theorem updateWorkspace_self (s : Store) (id : Uuid) :
    (s.updateWorkspace id (fun w => w) fun _ => rfl) = s := by
  have hrows : (s.workspaces.modify (·.id = id) (fun w => w) fun _ => rfl) = s.workspaces := by
    unfold Table.modify
    congr
    simp
  rw [updateWorkspace, hrows]

theorem Follows.updateStatus (h : s.Follows)
    (hw : s.workspaces.get w.id = some w)
    (hfits : w.status ≠ .denied →
      ∀ status ∈ ((w.statusFromStripeAccount account).getD w.status).accountStatus,
        s.FitsPush w status) : (s.updateStatus account now w).Follows := by
  rw [Store.updateStatus]
  split
  · exact h
  next hdenied =>
    have hfit := hfits hdenied
    cases hgiven : w.statusFromStripeAccount account with
    | none =>
      rw [hgiven] at hfit
      cases hstatus : w.status.accountStatus with
      | none =>
        refine h.of_eq (syncAccountStatus_workspaces w) ?_
        rw [syncAccountStatus, hstatus]
        cases w.accountId <;> rfl
      | some status =>
        have hpushed := h.pushed (fun w => w) (fun _ => rfl) hw hstatus rfl rfl
          (hfit status hstatus)
        rwa [updateWorkspace_self] at hpushed
    | some st =>
      rw [hgiven] at hfit
      obtain ⟨status, hstatus⟩ : ∃ status, st.accountStatus = some status := by
        rcases statusFromStripeAccount_cases hgiven with rfl | rfl
        · exact ⟨_, rfl⟩
        · exact ⟨_, rfl⟩
      exact h.pushed (·.setStatus st now) (fun _ => rfl) hw hstatus rfl rfl
        (hfit status hstatus)

/-- What a round does to the other workspaces, and to those that are linked to an account. -/
theorem updateStatus_frame (id a : Uuid) (hw : s.workspaces.get w.id = some w) :
    (∀ k, k ≠ w.id → (s.updateStatus account now w).workspaces.get k = s.workspaces.get k) ∧
      ∀ x, x ∈ (s.updateStatus account now w).othersOn id a →
        x ∈ s.othersOn id a ∨ x.status = .active ∨ x.status = .onboardingStarted := by
  rw [Store.updateStatus]
  split
  · exact ⟨fun _ _ => rfl, fun _ hx => .inl hx⟩
  · cases hgiven : w.statusFromStripeAccount account with
    | none =>
      refine ⟨fun k _ => by rw [syncAccountStatus_workspaces], fun x hx => .inl ?_⟩
      rwa [othersOn, syncAccountStatus_workspaces] at hx
    | some st =>
      refine ⟨fun k hk => ?_, fun x hx => ?_⟩
      · rw [syncAccountStatus_workspaces]
        exact s.workspaces.get_modify_of_ne hk (·.setStatus st now) fun _ => rfl
      · rw [othersOn, syncAccountStatus_workspaces] at hx
        obtain ⟨hlinked, hne⟩ := mem_othersOn.mp hx
        rcases (mem_linkedTo_updateWorkspace hw).mp hlinked with hother | ⟨rfl, -⟩
        · exact .inl (mem_othersOn.mpr ⟨(mem_othersOn.mp hother).1, hne⟩)
        · exact .inr (statusFromStripeAccount_cases hgiven)

theorem Follows.foldl_updateStatus (h : s.Follows)
    (hnodup : (ws.map Workspace.id).Nodup) (hget : ∀ w ∈ ws, s.workspaces.get w.id = some w)
    (hlive : ∀ w ∈ ws, w.deletedAt = none)
    (hfits : ∀ w ∈ ws, w.status ≠ .denied →
      ∀ status ∈ ((w.statusFromStripeAccount account).getD w.status).accountStatus,
        s.FitsPush w status) :
    (ws.foldl (fun s w => s.updateStatus account now w) s).Follows := by
  induction ws generalizing s with
  | nil => exact h
  | cons w ws ih =>
    have hw := hget w List.mem_cons_self
    rw [List.map_cons, List.nodup_cons] at hnodup
    rw [List.foldl_cons]
    refine ih (h.updateStatus hw (hfits w List.mem_cons_self)) hnodup.2 (fun w' hw' => ?_)
      (fun w' hw' => hlive w' (List.mem_cons_of_mem w hw')) fun w' hw' hdenied status hstatus => ?_
    · have hne : w'.id ≠ w.id := by
        intro hid
        exact hnodup.1 (hid ▸ List.mem_map_of_mem hw')
      rw [(updateStatus_frame w'.id 0 hw).1 _ hne]
      exact hget w' (List.mem_cons_of_mem w hw')
    · intro a ha
      obtain ⟨hothers, -⟩ := hfits w' (List.mem_cons_of_mem w hw') hdenied status hstatus a ha
      refine ⟨fun x hx => ?_, fun hdeleted => ?_⟩
      · rcases (updateStatus_frame _ _ hw).2 x hx with hold | hactive | hstarted
        · exact hothers x hold
        · simp [Workspace.isUnderReview, WorkspaceStatus.reviewStatuses, hactive]
        · simp [Workspace.isUnderReview, WorkspaceStatus.reviewStatuses, hstarted]
      · exact absurd (hlive w' (List.mem_cons_of_mem w hw')) hdeleted

/-- **One operation on the status** of workspaces. -/
theorem Follows.perform {op : Operation} (h : s.Follows) (hop : op.isStatus = true)
    (hfits : s.FitsStatus op) (hok : s.perform op = .ok s') : s'.Follows := by
  cases op with
  | updateStatusFromStripeAccount account now =>
    have hmem : ∀ w ∈ s.getAllByAccount account.id, w ∈ s.workspaces ∧ w.deletedAt = none :=
      fun w hw => ⟨(Table.mem_select.mp hw).1, (Table.mem_select.mp hw).2.1⟩
    rw [← Except.ok.inj hok]
    refine h.foldl_updateStatus ?_ (fun w hw => ?_) (fun w hw => (hmem w hw).2) hfits
    · exact s.workspaces.nodup.sublist (List.filter_sublist.map _)
    · exact Table.get_eq_some_iff.mpr ⟨(hmem w hw).1, rfl⟩
  | confirmWorkspaceReviewed id threshold now => exact h.confirmWorkspaceReviewed hfits hok
  | denyWorkspace id now => exact h.denyWorkspace hfits hok
  | setWorkspaceUnderReview id now => exact h.setWorkspaceUnderReview hfits hok
  | validateWithAi id verdict now => exact h.validateWithAi hfits hok
  | submitAppeal id reason now =>
    exact h.of_eq (submitAppeal_workspaces hok) (submitAppeal_accounts hok)
  | approveAppeal id now => exact h.approveAppeal hfits hok
  | denyAppeal id now => exact h.of_eq (denyAppeal_workspaces hok) (denyAppeal_accounts hok)
  | directory => exact absurd hop (by simp [Operation.isStatus])

/-! ### Accounts and workspaces -/

theorem Follows.left {b : Account} (h : s.Follows) (hw : s.workspaces.get w.id = some w)
    (hb : b ∈ s.accounts) (hafter : ¬((f w).deletedAt = none ∧ (f w).accountId = some b.id))
    (hwithout : w.deletedAt = none → s.FitsWithout w) :
    b.status.FitsEach ((s.updateWorkspace w.id f hf).linkedTo b.id) ∧
      b.status.FitsOnly ((s.updateWorkspace w.id f hf).linkedTo b.id) := by
  by_cases hbefore : w.deletedAt = none ∧ w.accountId = some b.id
  · refine fits_of_others hw hafter (fitsEach_othersOn (h b hb).1) ?_
    exact hwithout hbefore.1 b.id hbefore.2 b (Table.get_eq_some_iff.mpr ⟨hb, rfl⟩)
  · exact fits_of_not hw hbefore hafter (h b hb)

theorem Follows.link {account : Account} (h : s.Follows) (hw : s.workspaces.get w.id = some w)
    (haccount : s.accounts.get a = some account) (hfits : s.FitsLink w a account.status) :
    (s.updateWorkspace w.id (fun w => { w with accountId := some a }) fun _ => rfl).Follows := by
  intro b hb
  by_cases hlive : w.deletedAt = none
  · by_cases hsame : w.accountId = some a
    · -- nothing changes
      have hself : ({ w with accountId := some a } : Workspace) = w := by rw [← hsame]
      have hmem : ∀ x, x ∈ (s.updateWorkspace w.id (fun w => { w with accountId := some a })
          fun _ => rfl).linkedTo b.id ↔ x ∈ s.linkedTo b.id := by
        intro x
        rw [mem_linkedTo_updateWorkspace hw, mem_linkedTo hw, hself]
      exact ⟨(h b hb).1.congr fun x hx => (hmem x).mp hx, (h b hb).2.congr hmem⟩
    · obtain ⟨heach, honly, hwithout⟩ := hfits hlive hsame
      by_cases hid : b.id = a
      · have hget : s.accounts.get a = some b := Table.get_eq_some_iff.mpr ⟨hb, hid⟩
        obtain rfl := Option.some.inj (haccount.symm.trans hget)
        subst hid
        refine fits_of_linked hw ⟨hlive, rfl⟩ (fitsEach_othersOn (h account hb).1) ?_ fun hnil => ?_
        · intro x hx
          obtain rfl := List.mem_singleton.mp hx
          exact heach w (List.mem_singleton_self w)
        · intro x hx _ mapped hmapped
          obtain rfl := List.mem_singleton.mp hx
          exact honly hnil w (List.mem_singleton_self w) (fun y hy => List.mem_singleton.mp hy)
            mapped hmapped
      · refine h.left hw hb (fun hlinked => hid ?_) fun _ => hwithout
        exact (Option.some.inj hlinked.2).symm
  · exact fits_of_not hw (fun hlinked => hlive hlinked.1) (fun hlinked => hlive hlinked.1) (h b hb)

theorem Follows.unlink (h : s.Follows) (hw : s.workspaces.get w.id = some w)
    (hwithout : w.deletedAt = none → s.FitsWithout w) :
    (s.updateWorkspace w.id (fun w => { w with accountId := none, deletedAt := some now })
      fun _ => rfl).Follows :=
  fun _ hb => h.left hw hb (fun hlinked => absurd hlinked.1 (by simp)) hwithout

end Store

namespace AccountSync

variable {t t' : State} {user newId : Uuid} {stripeId : Option String}

theorem createAccount_eq_ok {columns : Columns}
    (h : t.createAccount id status columns = .ok t') (hfollows : t.store.Follows) :
    t'.store.Follows ∧ t'.store.workspaces = t.store.workspaces ∧
      t'.store.accounts.get id = some { id, status } ∧
      ∀ w ∈ t.store.workspaces, w.accountId ≠ some id ∧
        ∀ k ∈ w.accountId, t'.store.accounts.get k = t.store.accounts.get k := by
  rw [State.createAccount] at h
  split at h
  · cases h
  next hnew =>
    split at h
    · cases h
    next hfree =>
      obtain rfl := Except.ok.inj h
      refine ⟨fun b hb => ?_, rfl, ?_, fun w hw => ?_⟩
      · rcases List.mem_cons.mp hb with rfl | hold
        · have hnil : t.store.linkedTo id = [] := by
            refine List.eq_nil_iff_forall_not_mem.mpr fun x hx => ?_
            obtain ⟨hmem, -, hlinked⟩ := Table.mem_select.mp hx
            exact hfree ⟨x, hmem, hlinked⟩
          have hnil' : ({ t.store with
              accounts := t.store.accounts.add { id, status } hnew } : Store).linkedTo id = [] :=
            hnil
          rw [hnil']
          exact ⟨by simp [AccountStatus.FitsEach], by simp [AccountStatus.FitsOnly]⟩
        · exact hfollows b hold
      · exact Table.get_eq_some_iff.mpr ⟨List.mem_cons_self, rfl⟩
      · refine ⟨fun hlinked => hfree ⟨w, hw, hlinked⟩, fun k hk => ?_⟩
        have hne : ¬id = k := by
          rintro rfl
          exact hfree ⟨w, hw, hk⟩
        exact List.find?_cons_of_neg (by simpa using hne)

theorem State.get_of_get (hw : t.get id = some w) :
    t.store.workspaces.get w.id = some w ∧ w.deletedAt = none := by
  obtain ⟨hrow, hlive⟩ := Option.filter_eq_some_iff.mp hw
  rw [Store.get_id hrow]
  exact ⟨hrow, (of_decide_eq_true hlive).1⟩

theorem setAccount_follows {skip pending : Bool} (h : t.store.Follows)
    (hw : t.store.workspaces.get w.id = some w)
    (hfits : ∀ account ∈ t.getReadableAccount user a, ¬State.Pending w a skip pending →
      t.store.FitsLink w a account.status)
    (hok : t.setAccount user w a skip pending = .ok t') : t'.store.Follows := by
  rw [State.setAccount] at hok
  split at hok
  · cases hok
  next hpending =>
    split at hok
    · cases hok
    next account haccount =>
      have hget : t.store.accounts.get a = some account :=
        (Option.filter_eq_some_iff.mp (Option.filter_eq_some_iff.mp haccount).1).1
      rw [← Except.ok.inj hok]
      exact h.link hw hget (hfits account haccount hpending)

theorem fitsLink_of_createAccount {columns : Columns}
    (h : t.createAccount newId status columns = .ok t') (hfollows : t.store.Follows)
    (hw : t.store.workspaces.get w.id = some w) (hfits : t.store.FitsLink w newId status) :
    t'.store.FitsLink w newId status := by
  obtain ⟨-, hworkspaces, -, hframe⟩ := createAccount_eq_ok h hfollows
  have hothers : ∀ k, t'.store.othersOn w.id k = t.store.othersOn w.id k := by
    intro k
    rw [Store.othersOn, Store.othersOn, hworkspaces]
  intro hlive hne
  obtain ⟨heach, honly, hwithout⟩ := hfits hlive hne
  refine ⟨heach, fun hnil => honly (hothers newId ▸ hnil), fun old hold b hb => ?_⟩
  rw [(hframe w (Table.get_eq_some_iff.mp hw).1).2 old hold] at hb
  rw [hothers old]
  exact hwithout old hold b hb

theorem provision_follows {admin : Uuid} {forceNew pending : Bool} (h : t.store.Follows)
    (hw : t.store.workspaces.get w.id = some w)
    (hfits : stripeId.isSome → ¬State.Pending w newId forceNew pending →
      t.store.FitsLink w newId .onboardingStarted)
    (hok : t.provision admin w newId stripeId forceNew pending = .ok t') : t'.store.Follows := by
  unfold State.provision at hok
  split at hok
  · cases hok
  · split at hok
    · cases hok
    next s' hcreate =>
      obtain ⟨hfollows, hworkspaces, hget, -⟩ := createAccount_eq_ok hcreate h
      have hw' : s'.store.workspaces.get w.id = some w := by rw [hworkspaces, hw]
      refine setAccount_follows hfollows hw' (fun account haccount hpending => ?_) hok
      have hrow : s'.store.accounts.get newId = some account :=
        (Option.filter_eq_some_iff.mp (Option.filter_eq_some_iff.mp haccount).1).1
      obtain rfl := Option.some.inj (hget.symm.trans hrow)
      exact fitsLink_of_createAccount hcreate h hw (hfits rfl hpending)

theorem getOrCreateAccount_follows {admin : Uuid} {forceNew pending : Bool} (h : t.store.Follows)
    (hw : t.store.workspaces.get w.id = some w)
    (hfits : w.accountId.bind t.getAccount = none ∨ forceNew = true → stripeId.isSome →
      ¬State.Pending w newId forceNew pending → t.store.FitsLink w newId .onboardingStarted)
    (hok : t.getOrCreateAccount admin w newId stripeId forceNew pending = .ok t') :
    t'.store.Follows := by
  rw [State.getOrCreateAccount] at hok
  split at hok
  next hnone => exact provision_follows h hw (hfits (.inl hnone)) hok
  · split at hok
    next hforce => exact provision_follows h hw (hfits (.inr hforce)) hok
    · split at hok
      · rw [← Except.ok.inj hok]
        exact h
      · split at hok
        · cases hok
        · rw [← Except.ok.inj hok]
          exact h

theorem setupManualPayout_follows {admin : Uuid} (h : t.store.Follows)
    (hw : t.store.workspaces.get w.id = some w)
    (hfits : w.accountId = none → t.store.FitsLink w newId .active)
    (hok : t.setupManualPayout w admin newId = .ok t') : t'.store.Follows := by
  rw [State.setupManualPayout] at hok
  split at hok
  · cases hok
  next hlinked =>
    split at hok
    · cases hok
    next s' hcreate =>
      have hnone : w.accountId = none := by simpa using hlinked
      obtain ⟨hfollows, hworkspaces, hget, -⟩ := createAccount_eq_ok hcreate h
      have hw' : s'.store.workspaces.get w.id = some w := by rw [hworkspaces, hw]
      rw [← Except.ok.inj hok]
      exact hfollows.link hw' hget (fitsLink_of_createAccount hcreate h hw (hfits hnone))

theorem requestDeletion_follows {now : Time} {removes : Bool} (h : t.store.Follows)
    (hw : t.store.workspaces.get w.id = some w)
    (hfits : t.Deletes user w removes → t.store.FitsWithout w)
    (hok : t.requestDeletion user w now removes = .ok t') : t'.store.Follows := by
  rw [State.requestDeletion] at hok
  split at hok
  · cases hok
  · split at hok
    next hdeletes =>
      rw [← Except.ok.inj hok]
      exact h.unlink hw fun _ => hfits hdeletes
    · rw [← Except.ok.inj hok]
      exact h

theorem createWorkspace_follows {row : Workspace} {hnew} (h : s.Follows)
    (hrow : row.accountId = none) :
    ({ s with workspaces := s.workspaces.add row hnew } : Store).Follows := by
  intro b hb
  have hmem : ∀ x, x ∈ ({ s with workspaces := s.workspaces.add row hnew } : Store).linkedTo b.id ↔
      x ∈ s.linkedTo b.id := by
    intro x
    rw [Store.linkedTo, Store.linkedTo, Table.mem_select, Table.mem_select, Table.mem_add]
    constructor
    · rintro ⟨rfl | hx, hlinked⟩
      · exact absurd hlinked.2 (by simp [hrow])
      · exact ⟨hx, hlinked⟩
    · exact fun hx => ⟨.inr hx.1, hx.2⟩
  exact ⟨(h b hb).1.congr fun x hx => (hmem x).mp hx, (h b hb).2.congr hmem⟩

/-- **One operation.** -/
theorem performed_follows {past : List Change} {change : Change} (h : t.store.Follows)
    (hfits : Fitting past t change) : (t.performed change).store.Follows := by
  rw [State.performed]
  cases hperform : t.perform change with
  | error e => exact h
  | ok t' =>
    cases change with
    | createWorkspace id =>
      rw [State.perform] at hperform
      split at hperform
      · cases hperform
      · rw [← Except.ok.inj hperform]
        exact createWorkspace_follows h rfl
    | status op =>
      rw [State.perform] at hperform
      split at hperform
      · cases hperform
      next store hok =>
        rw [← Except.ok.inj hperform]
        exact h.perform op.2 hfits hok
    | setAccount user id accountId =>
      rw [State.perform] at hperform
      split at hperform
      · cases hperform
      next w hw =>
        exact setAccount_follows h (State.get_of_get hw).1
          (fun account haccount _ => hfits w hw account haccount) hperform
    | getOrCreateAccount admin id newId stripeId forceNew pending =>
      rw [State.perform] at hperform
      split at hperform
      · cases hperform
      next w hw => exact getOrCreateAccount_follows h (State.get_of_get hw).1 (hfits w hw) hperform
    | setupManualPayout id admin newId =>
      rw [State.perform] at hperform
      split at hperform
      · cases hperform
      next w hw =>
        obtain rfl := Store.get_id hw
        exact setupManualPayout_follows h hw (hfits w hw) hperform
    | requestDeletion user id now removes =>
      rw [State.perform] at hperform
      split at hperform
      · cases hperform
      next w hw => exact requestDeletion_follows h (State.get_of_get hw).1 (hfits w hw) hperform

/-- **The status of an account follows its workspaces** after every operation of a run in which
each operation keeps them in step. -/
theorem follows_after {cs : List Change} (h : changes.Along Fitting cs) :
    (changes.after cs).store.Follows := by
  refine System.invariant_of_along _ (fun _ s _ => s.store.Follows) (fun b hb => ?_)
    (fun _ _ hfollows hC => performed_follows hfollows hC) h
  exact absurd hb (by simp [changes, Table.empty])

/-! ### An account of two workspaces -/

/-- A workspace gets an account, completes it, is put under review and confirmed; a second one
switches to the account. -/
def shared : List Change :=
  [.createWorkspace 1, .getOrCreateAccount 5 1 8 (some "acct_1") false false,
    .status ⟨.updateStatusFromStripeAccount
      { id := 8, currency := some "usd", isDetailsSubmitted := true, isChargesEnabled := true
        isPayoutsEnabled := true } 10, rfl⟩,
    .status ⟨.setWorkspaceUnderReview 1 11, rfl⟩,
    .status ⟨.confirmWorkspaceReviewed 1 100 12, rfl⟩, .createWorkspace 2, .setAccount 5 2 8]

theorem shared_follows :
    (changes.after shared).store.accounts.rows = [{ id := 8, status := .active }] ∧
      (changes.after shared).store.Follows :=
  ⟨by decide, follows_after (by decide)⟩

/-- The first workspace is denied, and the second one is confirmed afterwards; or a denied workspace
is linked to a new account. -/
theorem not_follows_after :
    ¬(changes.after (shared ++ [.status ⟨.denyWorkspace 1 13, rfl⟩,
        .status ⟨.confirmWorkspaceReviewed 2 100 14, rfl⟩])).store.Follows ∧
      ¬(changes.after [.createWorkspace 1, .status ⟨.denyWorkspace 1 10, rfl⟩,
        .getOrCreateAccount 5 1 8 (some "acct_1") false false]).store.Follows := by
  decide

end AccountSync

end

end Rapidly.Platform
