import Rapidly.Identity.Schema
import Rapidly.Platform.Anonymization

/-!
# The deletion of a workspace

`delete` of `platform/workspace/api.py`: the request loads the workspace, `request_deletion`
deletes its account at the payment provider and in the database, inside a handler that catches
every exception, and then anonymises and deletes the workspace. The request is one transaction, so
an exception that leaves it leaves the database as it was.

* `delete` is the request, for every database and every behaviour of the provider.
* `leavesOthers_iff` says exactly when it leaves the other workspaces and their accounts alone.
-/

namespace Rapidly.Platform

open Relational

open Identity (Uuid Time WorkspaceMembership)

namespace Deletion

/-- A workspace, with the columns that the deletion reads and writes. -/
structure Workspace where
  id : Uuid
  accountId : Option Uuid := none
  name : String
  slug : String
  avatarUrl : Option String := none
  email : Option String := none
  website : Option String := none
  socials : List (String × String) := []
  details : List (String × String) := []
  customerInvoicePrefix : String := ""
  bio : Option String := none
  company : Option String := none
  blog : Option String := none
  location : Option String := none
  twitterUsername : Option String := none
  blockedAt : Option Time := none
  deletedAt : Option Time := none
deriving DecidableEq

structure Account where
  id : Uuid
  adminId : Uuid
  stripeId : Option String := none
  isDetailsSubmitted : Bool := false
  isChargesEnabled : Bool := false
  isPayoutsEnabled : Bool := false
  deletedAt : Option Time := none
deriving DecidableEq

/-- `clear_stripe_fields`. -/
def Account.clearStripeFields (a : Account) : Account :=
  { a with
    stripeId := none, isDetailsSubmitted := false, isChargesEnabled := false
    isPayoutsEnabled := false }

def Account.softDelete (now : Time) (a : Account) : Account := { a with deletedAt := some now }

/-- A task that the request puts on the queue. -/
inductive Task where
  | workspaceDeletionRequested (workspaceId userId : Uuid) (blockedReasons : List String)
deriving DecidableEq

structure Store where
  workspaces : Table Workspace.id := Table.empty
  accounts : Table Account.id := Table.empty
  memberships : Table WorkspaceMembership.key := Table.empty
  tasks : List Task := []

/-- The payment provider: whether it has an account and what comes of deleting it, or the text of
an exception. -/
structure Provider where
  accountExists : String → Except String Bool
  deleteAccount : String → Except String Unit

/-- `WorkspaceDeletionCheckResult`. -/
structure CheckResult where
  canDeleteImmediately : Bool
  blockedReasons : List String
deriving DecidableEq

/-- How the request fails. -/
inductive DeletionError where
  | resourceNotFound
  | notPermitted (message : String)
  | assertionError
deriving DecidableEq

variable (sha256 : String → String)

/-- A text column that `_build_pii_anonymization_dict` replaces with its digest, unless it is
empty. -/
def anonymizeField (value : Option String) : Option String :=
  if truthy value then value.map sha256 else value

/-- The columns that `_build_pii_anonymization_dict` without the slug changes. -/
def Workspace.anonymize (w : Workspace) : Workspace :=
  { w with
    name := if w.name = "" then w.name else sha256 w.name
    website := anonymizeField sha256 w.website
    customerInvoicePrefix :=
      if w.customerInvoicePrefix = "" then w.customerInvoicePrefix
      else sha256 w.customerInvoicePrefix
    bio := anonymizeField sha256 w.bio
    company := anonymizeField sha256 w.company
    blog := anonymizeField sha256 w.blog
    location := anonymizeField sha256 w.location
    twitterUsername := anonymizeField sha256 w.twitterUsername
    email := if truthy w.email then w.email.bind (anonymizeEmailForDeletion sha256) else w.email
    avatarUrl :=
      if truthy w.avatarUrl then some "https://avatars.githubusercontent.com/u/105373340?s=48&v=4"
      else w.avatarUrl
    details := []
    socials := [] }

/-- The assertion of `anonymize_email_for_deletion` on the address of the workspace holds. -/
def Workspace.emailOk (w : Workspace) : Bool :=
  !truthy w.email || (w.email.bind (anonymizeEmailForDeletion sha256)).isSome

def Workspace.softDelete (now : Time) (w : Workspace) : Workspace :=
  { w with deletedAt := some now }

def Workspace.unlink (w : Workspace) : Workspace := { w with accountId := none }

namespace Store

variable (s : Store)

/-- Rewrite the row of a workspace. -/
def updateWorkspace (id : Uuid) (f : Workspace → Workspace) (hf : ∀ w, (f w).id = w.id) : Store :=
  { s with workspaces := s.workspaces.modify (·.id = id) f hf }

/-- Rewrite the row of an account. -/
def updateAccount (id : Uuid) (f : Account → Account) (hf : ∀ a, (f a).id = a.id) : Store :=
  { s with accounts := s.accounts.modify (·.id = id) f hf }

/-- `get` of a workspace that the user can read. -/
def get (user id : Uuid) : Option Workspace :=
  (s.workspaces.get id).filter fun w =>
    w.deletedAt = none ∧ w.blockedAt = none ∧
      ∃ m ∈ s.memberships.rows, m.userId = user ∧ m.workspaceId = id ∧ m.deletedAt = none

/-- `get_by_id` of an account. -/
def getAccount (id : Uuid) : Option Account := (s.accounts.get id).filter (·.deletedAt = none)

/-- `is_user_admin`. -/
def isUserAdmin (accountId user : Uuid) : Bool :=
  match s.getAccount accountId with
  | none => false
  | some account => account.adminId = user

/-- `delete_stripe_account`. -/
def deleteStripeAccount (provider : Provider) (account : Account) : Except String Store :=
  match account.stripeId.filter (· ≠ "") with
  | none => .error "Account does not have a Stripe ID"
  | some stripeId =>
    match provider.accountExists stripeId with
    | .error e => .error e
    | .ok false => .error ("Stripe Account ID " ++ stripeId ++ " doesn't exist")
    | .ok true =>
      match provider.deleteAccount stripeId with
      | .error e => .error e
      | .ok _ => .ok (s.updateAccount account.id Account.clearStripeFields fun _ => rfl)

/-- `_delete_account`. -/
def deleteAccount (provider : Provider) (w : Workspace) (now : Time) : Except String Store :=
  match w.accountId with
  | none => .ok s
  | some accountId =>
    match s.getAccount accountId with
    | none => .ok s
    | some account =>
      match if truthy account.stripeId then s.deleteStripeAccount provider account else .ok s with
      | .error e => .error e
      | .ok s =>
        let s := s.updateWorkspace w.id Workspace.unlink fun _ => rfl
        .ok (s.updateAccount account.id (.softDelete now) fun _ => rfl)

/-- `soft_delete_workspace`. -/
def softDeleteWorkspace (w : Workspace) (now : Time) : Except DeletionError Store :=
  if w.emailOk sha256 then
    let s := s.updateWorkspace w.id (·.anonymize sha256) fun _ => rfl
    .ok (s.updateWorkspace w.id (.softDelete now) fun _ => rfl)
  else .error .assertionError

/-- `request_deletion`. -/
def requestDeletion (provider : Provider) (user : Uuid) (w : Workspace) (now : Time) :
    Except DeletionError (Store × CheckResult) :=
  if ∃ accountId ∈ w.accountId, ¬s.isUserAdmin accountId user then
    .error (.notPermitted "Only the account admin can delete an workspace with an account")
  else
    match s.deleteAccount provider w now with
    | .error _ =>
      let reasons := ["stripe_account_deletion_failed"]
      .ok ({ s with tasks := s.tasks ++ [.workspaceDeletionRequested w.id user reasons] },
        { canDeleteImmediately := false, blockedReasons := reasons })
    | .ok s =>
      match s.softDeleteWorkspace sha256 w now with
      | .error e => .error e
      | .ok s => .ok (s, { canDeleteImmediately := true, blockedReasons := [] })

/-- The request. -/
def delete (provider : Provider) (user id : Uuid) (now : Time) :
    Except DeletionError (Store × CheckResult) :=
  match s.get user id with
  | none => .error .resourceNotFound
  | some w => s.requestDeletion sha256 provider user w now

/-- The store after the request: that before it, where it fails. -/
def deleted (provider : Provider) (user id : Uuid) (now : Time) : Store :=
  match s.delete sha256 provider user id now with
  | .ok (s', _) => s'
  | .error _ => s

/-- Another workspace that is not deleted uses the account. -/
def UsedByOther (id accountId : Uuid) : Prop :=
  ∃ w ∈ s.workspaces.rows, w.id ≠ id ∧ w.accountId = some accountId ∧ w.deletedAt = none

instance (id accountId : Uuid) : Decidable (s.UsedByOther id accountId) :=
  inferInstanceAs (Decidable (∃ w ∈ s.workspaces.rows, _))

/-- **Deleting a workspace leaves the others alone.** -/
structure LeavesOthers (provider : Provider) (user id : Uuid) (now : Time) : Prop where
  /-- The other workspaces are as they were. -/
  workspaces : ∀ k, k ≠ id →
    (s.deleted sha256 provider user id now).workspaces.get k = s.workspaces.get k
  /-- An account that another workspace uses is deleted no more than it was, and has the identifier
  that it had at the provider. -/
  accounts : ∀ k, s.UsedByOther id k →
    ((s.deleted sha256 provider user id now).accounts.get k).map
        (fun a => (a.deletedAt, a.stripeId)) =
      (s.accounts.get k).map fun a => (a.deletedAt, a.stripeId)
  /-- A workspace that could not be deleted is still there, with its account. -/
  impossible : ∀ s' result, s.delete sha256 provider user id now = .ok (s', result) →
    result.canDeleteImmediately = false →
      ∃ w, s.get user id = some w ∧ s'.workspaces.get id = some w

end Store

/-- What the provider says to the deletion of an account lets it go on. -/
def Provider.Removes (provider : Provider) (stripeId : Option String) : Prop :=
  ∀ x ∈ stripeId, x ≠ "" → provider.accountExists x = .ok true ∧
    provider.deleteAccount x = .ok ()

/-! ### What the request does -/

section

variable {sha256 : String → String} {s s' : Store} {provider : Provider} {w : Workspace}
variable {a : Account} {user id k : Uuid} {now : Time} {e : String}

theorem truthy_eq_true {value : Option String} :
    truthy value = true ↔ ∃ x ∈ value, x ≠ "" := by
  cases value with
  | none => simp [truthy]
  | some x => simp [truthy]

theorem Store.deleteStripeAccount_eq (s : Store) (provider : Provider)
    (h : truthy a.stripeId = true) :
    (provider.Removes a.stripeId ∧ s.deleteStripeAccount provider a =
        .ok (s.updateAccount a.id Account.clearStripeFields fun _ => rfl)) ∨
      ¬provider.Removes a.stripeId ∧ ∃ e, s.deleteStripeAccount provider a = .error e := by
  obtain ⟨x, hx, hne⟩ := truthy_eq_true.mp h
  have hfilter : a.stripeId.filter (· ≠ "") = some x := by
    rw [Option.mem_def.mp hx]
    exact if_pos (decide_eq_true hne)
  have hremoves : provider.Removes a.stripeId ↔
      provider.accountExists x = .ok true ∧ provider.deleteAccount x = .ok () := by
    constructor
    · intro hr
      exact hr x hx hne
    · intro hr y hy _
      rwa [← Option.some.inj ((Option.mem_def.mp hx).symm.trans (Option.mem_def.mp hy))]
  rw [hremoves, deleteStripeAccount, hfilter]
  dsimp only
  split
  next e hexists => exact .inr ⟨by simp [hexists], e, rfl⟩
  next hexists => exact .inr ⟨by simp [hexists], _, rfl⟩
  next hexists =>
    split
    next e hdelete => exact .inr ⟨by simp [hdelete], e, rfl⟩
    next hdelete => exact .inl ⟨⟨hexists, hdelete⟩, rfl⟩

/-- The account of a workspace, if it has one that is not deleted. -/
def Store.accountOf (s : Store) (w : Workspace) : Option Account := w.accountId.bind s.getAccount

/-- The rows after an account has been deleted. -/
structure Store.AccountDeleted (s : Store) (w : Workspace) (a : Account) (now : Time)
    (s' : Store) : Prop where
  workspaces : ∀ k, k ≠ w.id → s'.workspaces.get k = s.workspaces.get k
  accounts : ∀ k, k ≠ a.id → s'.accounts.get k = s.accounts.get k
  deletedAt : ∀ b, s'.accounts.get a.id = some b → b.deletedAt = some now

theorem Store.accountDeleted (hs : ∀ k, k ≠ a.id → s'.accounts.get k = s.accounts.get k)
    (hw : s'.workspaces = s.workspaces) :
    s.AccountDeleted w a now ((s'.updateWorkspace w.id Workspace.unlink fun _ => rfl).updateAccount
      a.id (.softDelete now) fun _ => rfl) where
  workspaces k hk := by
    rw [← hw]
    exact s'.workspaces.get_modify_of_ne hk Workspace.unlink fun _ => rfl
  accounts k hk := (s'.accounts.get_modify_of_ne hk (.softDelete now) fun _ => rfl).trans (hs k hk)
  deletedAt b hb := by
    have hmodify := Table.get_modify s'.accounts (·.id = a.id) (.softDelete now) (fun _ => rfl) a.id
    obtain ⟨c, hc, rfl⟩ := Option.map_eq_some_iff.mp (hmodify.symm.trans hb)
    have hid : c.id = a.id := (Table.get_eq_some_iff.mp hc).2
    rw [if_pos hid]
    rfl

theorem Store.deleteAccount_cases (s : Store) (w : Workspace) (provider : Provider) (now : Time) :
    (s.accountOf w = none ∧ s.deleteAccount provider w now = .ok s) ∨
      (∃ a s', s.accountOf w = some a ∧ provider.Removes a.stripeId ∧
        s.deleteAccount provider w now = .ok s' ∧ s.AccountDeleted w a now s') ∨
      ∃ a e, s.accountOf w = some a ∧ ¬provider.Removes a.stripeId ∧
        s.deleteAccount provider w now = .error e := by
  rw [accountOf, deleteAccount]
  cases w.accountId with
  | none => exact .inl ⟨rfl, rfl⟩
  | some accountId =>
    dsimp only [Option.bind_some]
    cases s.getAccount accountId with
    | none => exact .inl ⟨rfl, rfl⟩
    | some a =>
      right
      dsimp only
      by_cases hstripe : truthy a.stripeId = true
      · rw [if_pos hstripe]
        rcases s.deleteStripeAccount_eq provider hstripe with
          ⟨hremoves, heq⟩ | ⟨hnot, e, heq⟩
        · rw [heq]
          refine .inl ⟨a, _, rfl, hremoves, rfl, accountDeleted (fun k hk => ?_) rfl⟩
          exact s.accounts.get_modify_of_ne hk Account.clearStripeFields fun _ => rfl
        · rw [heq]
          exact .inr ⟨a, e, rfl, hnot, rfl⟩
      · have hremoves : provider.Removes a.stripeId := fun x hx hne =>
          absurd (truthy_eq_true.mpr ⟨x, hx, hne⟩) hstripe
        rw [if_neg hstripe]
        exact .inl ⟨a, _, rfl, hremoves, rfl, accountDeleted (fun _ _ => rfl) rfl⟩

/-- The request deletes the account, too: its user is the admin, the provider does not object, and
the workspace can be anonymised. -/
structure Store.DeletesAccount (s : Store) (sha256 : String → String) (provider : Provider)
    (user id : Uuid) (w : Workspace) (a : Account) : Prop where
  loaded : s.get user id = some w
  account : s.accountOf w = some a
  admin : a.adminId = user
  removes : provider.Removes a.stripeId
  emailOk : w.emailOk sha256 = true

theorem Store.id_of_get (h : s.get user id = some w) : w.id = id :=
  (Table.get_eq_some_iff.mp (Option.filter_eq_some_iff.mp h).1).2

theorem Store.softDeleteWorkspace_eq (s : Store) (now : Time) (h : w.emailOk sha256 = true) :
    ∃ s', s.softDeleteWorkspace sha256 w now = .ok s' ∧ s'.accounts = s.accounts ∧
      ∀ k, k ≠ w.id → s'.workspaces.get k = s.workspaces.get k := by
  refine ⟨_, if_pos h, rfl, fun k hk => ?_⟩
  refine (Table.get_modify_of_ne _ hk (Workspace.softDelete now) fun _ => rfl).trans ?_
  exact s.workspaces.get_modify_of_ne hk (·.anonymize sha256) fun _ => rfl

theorem Store.requestDeletion_of_ok
    (hadmin : ¬∃ accountId ∈ w.accountId, ¬s.isUserAdmin accountId user)
    (h : s.deleteAccount provider w now = .ok s') :
    s.requestDeletion sha256 provider user w now =
      match s'.softDeleteWorkspace sha256 w now with
      | .error e => .error e
      | .ok s => .ok (s, { canDeleteImmediately := true, blockedReasons := [] }) := by
  rw [requestDeletion, if_neg hadmin, h]

/-- The admin of the account of a workspace is the user, where the user may delete it. -/
theorem Store.adminId_of_isUserAdmin
    (hadmin : ¬∃ accountId ∈ w.accountId, ¬s.isUserAdmin accountId user)
    (ha : s.accountOf w = some a) : a.adminId = user := by
  obtain ⟨accountId, hid, hget⟩ := Option.bind_eq_some_iff.mp ha
  by_contra hne
  refine hadmin ⟨accountId, hid, ?_⟩
  rw [isUserAdmin, hget]
  simpa using hne

theorem Store.isUserAdmin_of_adminId (ha : s.accountOf w = some a) (hadmin : a.adminId = user) :
    ¬∃ accountId ∈ w.accountId, ¬s.isUserAdmin accountId user := by
  obtain ⟨accountId, hid, hget⟩ := Option.bind_eq_some_iff.mp ha
  rintro ⟨accountId', hid', hnot⟩
  obtain rfl := Option.some.inj (hid.symm.trans hid')
  rw [isUserAdmin, hget] at hnot
  exact hnot (decide_eq_true hadmin)

theorem Store.DeletesAccount.delete (h : s.DeletesAccount sha256 provider user id w a)
    (now : Time) :
    ∃ s', s.delete sha256 provider user id now =
        .ok (s', { canDeleteImmediately := true, blockedReasons := [] }) ∧
      s.AccountDeleted w a now s' := by
  have hadmin := isUserAdmin_of_adminId h.account h.admin
  rw [Store.delete, h.loaded]
  rcases s.deleteAccount_cases w provider now with
    ⟨hnone, -⟩ | ⟨a', s', ha', -, hok, hdeleted⟩ | ⟨a', e, ha', hnot, -⟩
  · rw [h.account] at hnone
    exact absurd hnone (by simp)
  · obtain rfl := Option.some.inj (h.account.symm.trans ha')
    obtain ⟨s'', hsoft, haccounts, hworkspaces⟩ :=
      s'.softDeleteWorkspace_eq now h.emailOk
    dsimp only
    rw [requestDeletion_of_ok hadmin hok, hsoft]
    refine ⟨s'', rfl, fun k hk => ?_, fun k hk => ?_, fun b hb => ?_⟩
    · exact (hworkspaces k hk).trans (hdeleted.workspaces k hk)
    · rw [haccounts]
      exact hdeleted.accounts k hk
    · rw [haccounts] at hb
      exact hdeleted.deletedAt b hb
  · obtain rfl := Option.some.inj (h.account.symm.trans ha')
    exact absurd h.removes hnot

theorem Store.delete_cases (sha256 : String → String) (s : Store) (provider : Provider)
    (user id : Uuid) (now : Time) :
    (∃ e, s.delete sha256 provider user id now = .error e) ∨
      (∃ w tasks reasons, s.get user id = some w ∧ s.delete sha256 provider user id now =
        .ok ({ s with tasks }, { canDeleteImmediately := false, blockedReasons := reasons })) ∨
      (∃ s', s.delete sha256 provider user id now =
          .ok (s', { canDeleteImmediately := true, blockedReasons := [] }) ∧
        s'.accounts = s.accounts ∧ ∀ k, k ≠ id → s'.workspaces.get k = s.workspaces.get k) ∨
      ∃ w a, s.DeletesAccount sha256 provider user id w a := by
  cases hw : s.get user id with
  | none => exact .inl ⟨_, by rw [Store.delete, hw]⟩
  | some w =>
    by_cases hadmin : ∃ accountId ∈ w.accountId, ¬s.isUserAdmin accountId user
    · exact .inl ⟨_, by rw [Store.delete, hw]; exact if_pos hadmin⟩
    · have hdelete : s.delete sha256 provider user id now =
          s.requestDeletion sha256 provider user w now := by rw [Store.delete, hw]
      rw [hdelete]
      rcases s.deleteAccount_cases w provider now with
        ⟨-, hok⟩ | ⟨a, s', ha, hremoves, hok, -⟩ | ⟨a, e, -, -, herror⟩
      · rw [requestDeletion_of_ok hadmin hok]
        by_cases hemail : w.emailOk sha256 = true
        · obtain ⟨s', hsoft, haccounts, hworkspaces⟩ := s.softDeleteWorkspace_eq now hemail
          rw [hsoft]
          refine .inr (.inr (.inl ⟨s', rfl, haccounts, fun k hk => hworkspaces k ?_⟩))
          rw [id_of_get hw]
          exact hk
        · rw [softDeleteWorkspace, if_neg hemail]
          exact .inl ⟨_, rfl⟩
      · rw [requestDeletion_of_ok hadmin hok]
        by_cases hemail : w.emailOk sha256 = true
        · have hid : a.adminId = user := adminId_of_isUserAdmin hadmin ha
          exact .inr (.inr (.inr ⟨w, a, hw, ha, hid, hremoves, hemail⟩))
        · rw [softDeleteWorkspace, if_neg hemail]
          exact .inl ⟨_, rfl⟩
      · rw [requestDeletion, if_neg hadmin, herror]
        exact .inr (.inl ⟨w, _, _, rfl, rfl⟩)

theorem Store.deleted_of_ok {result : CheckResult}
    (h : s.delete sha256 provider user id now = .ok (s', result)) :
    s.deleted sha256 provider user id now = s' := by
  rw [Store.deleted, h]

theorem Store.deleted_of_error {e : DeletionError}
    (h : s.delete sha256 provider user id now = .error e) :
    s.deleted sha256 provider user id now = s := by
  rw [Store.deleted, h]

theorem Store.leavesOthers_of_accounts
    (haccounts : (s.deleted sha256 provider user id now).accounts = s.accounts)
    (hworkspaces : ∀ k, k ≠ id →
      (s.deleted sha256 provider user id now).workspaces.get k = s.workspaces.get k)
    (himpossible : ∀ s' result, s.delete sha256 provider user id now = .ok (s', result) →
      result.canDeleteImmediately = false →
        ∃ w, s.get user id = some w ∧ s'.workspaces = s.workspaces) :
    s.LeavesOthers sha256 provider user id now where
  workspaces := hworkspaces
  accounts k _ := by rw [haccounts]
  impossible s' result hok hfalse := by
    obtain ⟨w, hw, hsame⟩ := himpossible s' result hok hfalse
    refine ⟨w, hw, ?_⟩
    rw [hsame]
    exact (Option.filter_eq_some_iff.mp hw).1

/-- Where the request deletes an account that no other workspace uses, it leaves the others
alone. -/
theorem Store.DeletesAccount.leavesOthers (h : s.DeletesAccount sha256 provider user id w a)
    (hunused : ¬s.UsedByOther id a.id) : s.LeavesOthers sha256 provider user id now := by
  obtain ⟨s', hok, hdeleted⟩ := h.delete now
  have hs' : s.deleted sha256 provider user id now = s' := deleted_of_ok hok
  refine ⟨fun k hk => ?_, fun k hk => ?_, fun s'' result hok' hfalse => ?_⟩
  · rw [hs']
    refine hdeleted.workspaces k ?_
    rw [id_of_get h.loaded]
    exact hk
  · have hne : k ≠ a.id := by
      rintro rfl
      exact hunused hk
    rw [hs', hdeleted.accounts k hne]
  · rw [hok] at hok'
    obtain ⟨-, rfl⟩ := Prod.mk.inj (Except.ok.inj hok')
    exact absurd hfalse (by simp)

/-- **Deleting a workspace leaves the others alone** exactly where it does not delete an account
that another workspace uses. -/
theorem leavesOthers_iff (sha256 : String → String) (s : Store) (provider : Provider)
    (user id : Uuid) (now : Time) :
    s.LeavesOthers sha256 provider user id now ↔
      ∀ w a, s.DeletesAccount sha256 provider user id w a → ¬s.UsedByOther id a.id := by
  constructor
  · intro h w a hdeletes hused
    obtain ⟨s', hok, hdeleted⟩ := hdeletes.delete now
    have haccounts := h.accounts a.id hused
    rw [Store.deleted_of_ok hok] at haccounts
    obtain ⟨accountId, -, hget⟩ := Option.bind_eq_some_iff.mp hdeletes.account
    obtain ⟨hrow, hlive⟩ := Option.filter_eq_some_iff.mp hget
    have hid : a.id = accountId := (Table.get_eq_some_iff.mp hrow).2
    rw [← hid] at hrow
    rw [hrow] at haccounts
    obtain ⟨b, hb, hsame⟩ := Option.map_eq_some_iff.mp haccounts
    have hsome : some now = a.deletedAt :=
      (hdeleted.deletedAt b hb).symm.trans (congrArg Prod.fst hsame)
    rw [of_decide_eq_true hlive] at hsome
    exact absurd hsome (by simp)
  · intro h
    rcases s.delete_cases sha256 provider user id now with ⟨e, herror⟩ |
      ⟨w, tasks, reasons, hw, hok⟩ | ⟨s', hok, haccounts, hworkspaces⟩ | ⟨w, a, hdeletes⟩
    · refine Store.leavesOthers_of_accounts ?_ (fun k _ => ?_) fun s' result hok => ?_
      · rw [Store.deleted_of_error herror]
      · rw [Store.deleted_of_error herror]
      · rw [herror] at hok
        exact absurd hok (by simp)
    · refine Store.leavesOthers_of_accounts ?_ (fun k _ => ?_) fun s' result hok' _ => ⟨w, hw, ?_⟩
      · rw [Store.deleted_of_ok hok]
      · rw [Store.deleted_of_ok hok]
      · rw [hok] at hok'
        rw [← (Prod.mk.inj (Except.ok.inj hok')).1]
    · refine Store.leavesOthers_of_accounts ?_ (fun k hk => ?_) fun s'' result hok' hfalse => ?_
      · rw [Store.deleted_of_ok hok, haccounts]
      · rw [Store.deleted_of_ok hok]
        exact hworkspaces k hk
      · rw [hok] at hok'
        obtain ⟨-, rfl⟩ := Prod.mk.inj (Except.ok.inj hok')
        exact absurd hfalse (by simp)
    · exact hdeletes.leavesOthers (h w a hdeletes)

end

/-! ### A shared account -/

/-- Two workspaces of a user, who has switched the second one to the account of the first. -/
def shared : Store where
  workspaces := (Table.singleton
    { id := 2, name := "Second", slug := "second", accountId := some 8 }).add
      { id := 1, name := "First", slug := "first", accountId := some 8 } (by decide)
  accounts := Table.singleton { id := 8, adminId := 5, stripeId := some "acct_1" }
  memberships := (Table.singleton { userId := 5, workspaceId := 2 }).add
    { userId := 5, workspaceId := 1 } (by decide)

/-- The provider finds every account and deletes it. -/
def provider : Provider where
  accountExists _ := .ok true
  deleteAccount _ := .ok ()

/-- The first workspace is deleted, and the second one is left with a deleted account without a
provider. -/
theorem not_leavesOthers : ¬shared.LeavesOthers (fun _ => "digest") provider 5 1 9 := by
  intro h
  exact absurd (h.accounts 8 (by decide)) (by decide)

end Deletion

end Rapidly.Platform
