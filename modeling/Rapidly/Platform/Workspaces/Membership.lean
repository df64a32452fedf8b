import Rapidly.Relational.ReadCommitted
import Rapidly.Transition.Tasks

/-!
# The members and the admin of a workspace

`invite_member`, `leave` and `set_account` of `platform/workspace/actions.py`, `remove_member_safe`
of `platform/workspace_membership/actions.py` and `change_admin` of `billing/account/actions.py`,
any number of each on any workspaces, which may share accounts, one SQL statement a step.

* `operations` is the system, from any state in which the admin of the account of a workspace is a
  member.
* `members_kept` says in which runs a workspace that had a member keeps one, and its admin.
-/

namespace Rapidly.Platform

open Relational Transition

namespace WorkspaceMembers

/-- `deleted_at` is null, or is not. -/
inductive Status where
  | active
  | deleted
deriving DecidableEq

/-- A `WorkspaceMembership` with its primary key, from its `INSERT` on. -/
structure Row where
  workspaceId : ℕ
  userId : ℕ
  status : Versioned (Option Status)
deriving DecidableEq

def Row.Is (r : Row) (workspace user : ℕ) : Prop := r.workspaceId = workspace ∧ r.userId = user

instance (r : Row) (workspace user : ℕ) : Decidable (r.Is workspace user) :=
  inferInstanceAs (Decidable (_ ∧ _))

/-- The rows that an `UPDATE` of `remove_member` or `reactivate_membership` finds, and those that an
`INSERT` may not meet. -/
def Row.Removable (workspace user : ℕ) (r : Row) : Bool :=
  r.Is workspace user ∧ r.status.committed = some .active

def Row.Visible (workspace user : ℕ) (r : Row) : Bool :=
  r.Is workspace user ∧ r.status.committed ≠ none

def Row.Taken (workspace user : ℕ) (r : Row) : Bool :=
  r.Is workspace user ∧ r.status.latest ≠ none

structure Account where
  adminId : Versioned ℕ
  /-- `stripe_id` is not empty. -/
  hasStripe : Bool := false
deriving DecidableEq

structure User where
  isDeleted : Bool := false
  /-- `identity_verification_status` is `verified`. -/
  isVerified : Bool := true
deriving DecidableEq

/-- The column `account_id` of the workspaces, the accounts, the memberships and the users. -/
structure State where
  workspaces : List (Versioned (Option ℕ))
  accounts : List Account
  memberships : List Row
  users : List User
deriving DecidableEq

/-- An operation. -/
inductive Task where
  /-- `invite_member` looks for the membership and inserts it, in `add_user`, or reactivates it. -/
  | inviting (workspace user : ℕ)
  | adding (workspace user : ℕ)
  | reactivating (workspace user : ℕ)
  /-- `leave`, for a workspace that the user reads: the admin is looked up, the members are
  counted, and the membership is deleted. -/
  | leaving (workspace user : ℕ)
  | leavingAs (workspace user : ℕ) (account : Option ℕ)
  | counting (workspace user : ℕ)
  /-- `remove_member` of the API, for the caller, or of the admin panel: the caller has to be the
  admin, the user a member, and not the admin. -/
  | removingFor (workspace : ℕ) (caller : Option ℕ) (user : ℕ)
  | authorizing (workspace caller user : ℕ) (account : Option ℕ)
  | checking (workspace user : ℕ) (account : Option ℕ)
  | sparing (workspace user : ℕ) (account : Option ℕ)
  | removing (workspace user : ℕ)
  /-- `set_account`, for a workspace and an account that the user reads. -/
  | switching (workspace user account : ℕ)
  | reading (workspace user account : ℕ) (loaded : Option ℕ)
  | settingAccount (workspace account : ℕ)
  /-- `change_admin`: the user has to be a member of the workspace, and verified. -/
  | changing (workspace user : ℕ)
  | qualifying (workspace user account : ℕ)
  | verifying (user account : ℕ)
  | settingAdmin (user account : ℕ)
  | committing
  | ended
  /-- A guard has raised. -/
  | refused
  | failed
deriving DecidableEq

inductive Event where
  | invite (workspace user : ℕ)
  | leave (workspace user : ℕ)
  | remove (workspace : ℕ) (caller : Option ℕ) (user : ℕ)
  | switchAccount (workspace user account : ℕ)
  | changeAdmin (workspace user : ℕ)
  /-- The `stripe_id` of the account is set, or cleared. -/
  | stripeChanged (account : ℕ) (hasStripe : Bool)
deriving DecidableEq

namespace State

variable (s : State)

/-- The user is there and not deleted. -/
def LiveUser (user : ℕ) : Prop := ∃ u ∈ s.users[user]?, u.isDeleted = false

instance (user : ℕ) : Decidable (s.LiveUser user) :=
  inferInstanceAs (Decidable (∃ u ∈ s.users[user]?, _))

/-- The user is a member of the workspace. -/
def IsMember (workspace user : ℕ) : Prop :=
  ∃ r ∈ s.memberships, r.Is workspace user ∧ r.status.committed = some .active

instance (workspace user : ℕ) : Decidable (s.IsMember workspace user) :=
  inferInstanceAs (Decidable (∃ r ∈ s.memberships, _))

/-- `get_member_count`. -/
def getMemberCount (workspace : ℕ) : ℕ :=
  s.memberships.countP fun r => r.workspaceId = workspace ∧ r.status.committed = some .active

/-- `get_admin_user`, for the `account_id` that has been loaded. -/
def getAdminUser (account : Option ℕ) : Option ℕ :=
  (account.bind fun a => (s.accounts[a]?).map fun a => a.adminId.committed).filter s.LiveUser

/-- One of the rows is locked by another transaction. -/
def Waits (i : ℕ) (p : Row → Bool) : Prop :=
  ∃ r ∈ s.memberships, p r = true ∧ r.status.LockedFor i

instance (i : ℕ) (p : Row → Bool) : Decidable (s.Waits i p) :=
  inferInstanceAs (Decidable (∃ r ∈ s.memberships, _))

/-- An `UPDATE` of the memberships. -/
def update (i : ℕ) (p : Row → Bool) (status : Status) : State :=
  { s with
    memberships := s.memberships.map fun r =>
      if p r then { r with status := r.status.write i (some status) } else r }

/-- `remove_member`. -/
def removeMember (i workspace user : ℕ) : State :=
  s.update i (Row.Removable workspace user) .deleted

/-- `reactivate_membership`. -/
def reactivateMembership (i workspace user : ℕ) : State :=
  s.update i (Row.Visible workspace user) .active

def insert (i workspace user : ℕ) : State :=
  { s with
    memberships := s.memberships ++
      [{ workspaceId := workspace, userId := user
         status := { committed := none, pending := some (i, some .active) } }] }

def setAccount (i workspace account : ℕ) : State :=
  { s with workspaces := s.workspaces.modify workspace (·.write i (some account)) }

def setAdmin (i user account : ℕ) : State :=
  { s with
    accounts := s.accounts.modify account fun a => { a with adminId := a.adminId.write i user } }

/-- The end of a transaction, in all tables. -/
def finish (f : ∀ {V : Type}, Versioned V → Versioned V) : State :=
  { s with
    workspaces := s.workspaces.map f
    accounts := s.accounts.map fun a => { a with adminId := f a.adminId }
    memberships := s.memberships.map fun r => { r with status := f r.status } }

def commit (i : ℕ) : State := s.finish (Versioned.commit · i)

def rollback (i : ℕ) : State := s.finish (Versioned.rollback · i)

end State

/-- One step of an operation. A statement waits while another transaction holds a row. -/
def Task.advance (s : State) (i : ℕ) : Outcome → Task → State × Task × List Unit
  | .executed, .inviting workspace user =>
    if s.IsMember workspace user then (s, .ended, []) else (s, .adding workspace user, [])
  | .executed, .adding workspace user =>
    if s.Waits i (Row.Taken workspace user) then (s, .adding workspace user, [])
    -- the primary key
    else if s.memberships.any (Row.Taken workspace user) then
      (s, .reactivating workspace user, [])
    else (s.insert i workspace user, .committing, [])
  | .executed, .reactivating workspace user =>
    if s.Waits i (Row.Visible workspace user) then (s, .reactivating workspace user, [])
    else (s.reactivateMembership i workspace user, .committing, [])
  | .executed, .leaving workspace user =>
    match s.workspaces[workspace]? with
    | some w =>
      if s.IsMember workspace user then (s, .leavingAs workspace user w.committed, [])
      else (s, .refused, [])
    | none => (s, .refused, [])
  | .executed, .leavingAs workspace user account =>
    if s.getAdminUser account = some user then (s, .refused, [])
    else (s, .counting workspace user, [])
  | .executed, .counting workspace user =>
    if s.getMemberCount workspace ≤ 1 then (s, .refused, [])
    else (s, .removing workspace user, [])
  | .executed, .removingFor workspace caller user =>
    match s.workspaces[workspace]?, caller with
    | some w, some caller =>
      if s.IsMember workspace caller then (s, .authorizing workspace caller user w.committed, [])
      else (s, .refused, [])
    | some w, none => (s, .checking workspace user w.committed, [])
    | none, _ => (s, .refused, [])
  | .executed, .authorizing workspace caller user account =>
    if s.getAdminUser account = some caller then (s, .checking workspace user account, [])
    else (s, .refused, [])
  | .executed, .checking workspace user account =>
    if s.IsMember workspace user then (s, .sparing workspace user account, [])
    else (s, .refused, [])
  | .executed, .sparing workspace user account =>
    if s.getAdminUser account = some user then (s, .refused, [])
    else (s, .removing workspace user, [])
  | .executed, .removing workspace user =>
    if s.Waits i (Row.Removable workspace user) then (s, .removing workspace user, [])
    else (s.removeMember i workspace user, .committing, [])
  | .executed, .switching workspace user account =>
    match s.workspaces[workspace]? with
    | some w =>
      if s.IsMember workspace user then (s, .reading workspace user account w.committed, [])
      else (s, .refused, [])
    | none => (s, .refused, [])
  | .executed, .reading workspace user account loaded =>
    if ∃ a ∈ s.accounts[account]?, a.adminId.committed = user then
      if loaded = some account then (s, .committing, [])
      else (s, .settingAccount workspace account, [])
    else (s, .refused, [])
  | .executed, .settingAccount workspace account =>
    if ∃ w ∈ s.workspaces[workspace]?, w.LockedFor i then
      (s, .settingAccount workspace account, [])
    else (s.setAccount i workspace account, .committing, [])
  | .executed, .changing workspace user =>
    match (s.workspaces[workspace]?).bind Versioned.committed with
    | none => (s, .refused, [])
    | some account =>
      match s.accounts[account]? with
      | none => (s, .refused, [])
      | some a =>
        if a.hasStripe = true ∨ a.adminId.committed = user then (s, .refused, [])
        else (s, .qualifying workspace user account, [])
  | .executed, .qualifying workspace user account =>
    if s.IsMember workspace user then (s, .verifying user account, []) else (s, .refused, [])
  | .executed, .verifying user account =>
    if ∃ u ∈ s.users[user]?, u.isDeleted = false ∧ u.isVerified = true then
      (s, .settingAdmin user account, [])
    else (s, .refused, [])
  | .executed, .settingAdmin user account =>
    if ∃ a ∈ s.accounts[account]?, a.adminId.LockedFor i then (s, .settingAdmin user account, [])
    else (s.setAdmin i user account, .committing, [])
  | .executed, .committing => (s.commit i, .ended, [])
  | .raised, .ended => (s, .ended, [])
  | .raised, .refused => (s, .refused, [])
  | .raised, _ => (s.rollback i, .failed, [])
  | _, t => (s, t, [])

/-- The admin of the account of a workspace, when there is one, is a member. -/
def State.AdminIsMember (s : State) : Prop :=
  ∀ workspace < s.workspaces.length, ∀ w ∈ s.workspaces[workspace]?,
    ∀ user ∈ s.getAdminUser w.committed, s.IsMember workspace user

instance (s : State) : Decidable s.AdminIsMember :=
  inferInstanceAs (Decidable (∀ workspace < s.workspaces.length, _))

/-- What the operations begin with, all of it committed. -/
structure Snapshot where
  /-- The `account_id` of each workspace. -/
  workspaces : List (Option ℕ)
  /-- The admin of each account, and whether it has a `stripe_id`. -/
  accounts : List (ℕ × Bool)
  memberships : List (ℕ × ℕ × Status)
  users : List User

def Snapshot.state (start : Snapshot) : State where
  workspaces := start.workspaces.map fun account => { committed := account }
  accounts := start.accounts.map fun (adminId, hasStripe) =>
    { adminId := { committed := adminId }, hasStripe }
  memberships := start.memberships.map fun (workspaceId, userId, status) =>
    { workspaceId, userId, status := { committed := some status } }
  users := start.users

/-- A beginning in which the admins are members. -/
structure Start extends Snapshot where
  adminIsMember : toSnapshot.state.AdminIsMember

/-- The operations on any workspaces. -/
def operations (start : Start) : Tasks State Task Event Outcome Unit where
  init := start.state
  arrive s _
    | .invite workspace user => (s, [.inviting workspace user], [])
    | .leave workspace user => (s, [.leaving workspace user], [])
    | .remove workspace caller user => (s, [.removingFor workspace caller user], [])
    | .switchAccount workspace user account => (s, [.switching workspace user account], [])
    | .changeAdmin workspace user => (s, [.changing workspace user], [])
    | .stripeChanged account hasStripe =>
      ({ s with accounts := s.accounts.modify account fun a => { a with hasStripe } }, [], [])
  advance s i := Task.advance s i

/-! ### Members and admins that stay -/

namespace State

variable (s : State)

def HasMember (workspace : ℕ) : Prop :=
  ∃ r ∈ s.memberships, r.workspaceId = workspace ∧ r.status.committed = some .active

instance (workspace : ℕ) : Decidable (s.HasMember workspace) :=
  inferInstanceAs (Decidable (∃ r ∈ s.memberships, _))

/-- The user is a member, however the transactions end. -/
def Stays (workspace user : ℕ) : Prop :=
  ∃ r ∈ s.memberships, r.Is workspace user ∧ r.status.Stands (· = some .active)

instance (workspace user : ℕ) : Decidable (s.Stays workspace user) :=
  inferInstanceAs (Decidable (∃ r ∈ s.memberships, _))

/-- The workspace has the account, or is about to have it. -/
def MayHaveAccount (workspace account : ℕ) : Prop :=
  ∃ w ∈ s.workspaces[workspace]?, w.Admits (some account)

instance (workspace account : ℕ) : Decidable (s.MayHaveAccount workspace account) :=
  inferInstanceAs (Decidable (∃ w ∈ s.workspaces[workspace]?, _))

/-- The user is the admin of the account, or is about to be. -/
def MayBeAdmin (user account : ℕ) : Prop := ∃ a ∈ s.accounts[account]?, a.adminId.Admits user

instance (user account : ℕ) : Decidable (s.MayBeAdmin user account) :=
  inferInstanceAs (Decidable (∃ a ∈ s.accounts[account]?, _))

end State

/-- A workspace with a member has one after the step, and the admins are members. -/
def KeepsMembers (start : Start) : System.Condition (Pool State Task) (Turn Event Outcome)
  | _, p, l =>
    (∀ workspace, p.shared.HasMember workspace →
        ((operations start).step p l).1.shared.HasMember workspace) ∧
      ((operations start).step p l).1.shared.AdminIsMember

/-- When a membership is deleted, another member of the workspace stays, and the user neither is nor
is about to be the admin of an account that the workspace has or is about to have. When an account
is set, each of its admins, and when an admin is set, the new one, is a member who stays of the
workspaces concerned. -/
def Guarded : System.Condition (Pool State Task) (Turn Event Outcome)
  | _, p, .resumed i .executed =>
    match p.tasks[i]? with
    | some (.removing workspace user) =>
      ¬p.shared.Waits i (Row.Removable workspace user) →
        p.shared.memberships.any (Row.Removable workspace user) →
        (∃ r ∈ p.shared.memberships, r.workspaceId = workspace ∧ r.userId ≠ user ∧
            r.status.Stands (· = some .active)) ∧
          ∀ account < p.shared.accounts.length, p.shared.MayHaveAccount workspace account →
            p.shared.MayBeAdmin user account → ¬p.shared.LiveUser user
    | some (.settingAccount workspace account) =>
      (¬∃ w ∈ p.shared.workspaces[workspace]?, w.LockedFor i) →
        ∀ user < p.shared.users.length, p.shared.MayBeAdmin user account →
          p.shared.LiveUser user → p.shared.Stays workspace user
    | some (.settingAdmin user account) =>
      (¬∃ a ∈ p.shared.accounts[account]?, a.adminId.LockedFor i) →
        ∀ workspace < p.shared.workspaces.length, p.shared.MayHaveAccount workspace account →
          p.shared.LiveUser user → p.shared.Stays workspace user
    | _ => True
  | _, _, _ => True

instance (past : List (Turn Event Outcome)) (p : Pool State Task) (l : Turn Event Outcome) :
    Decidable (Guarded past p l) := by
  unfold Guarded
  split
  · split <;> infer_instance
  · infer_instance

/-! ### The steps -/

variable {s s' : State} {i : ℕ} {answer : Outcome} {t : Task}

/-- What one step of an operation can do. -/
inductive Advanced (s : State) (i : ℕ) : Outcome → Task → State × Task → Prop
  | went (answer : Outcome) (t t' : Task) : Advanced s i answer t (s, t')
  | inserted (workspace user : ℕ) :
    Advanced s i .executed (.adding workspace user) (s.insert i workspace user, .committing)
  | reactivated (workspace user : ℕ) :
    Advanced s i .executed (.reactivating workspace user)
      (s.reactivateMembership i workspace user, .committing)
  | removed (workspace user : ℕ) (hfree : ¬s.Waits i (Row.Removable workspace user)) :
    Advanced s i .executed (.removing workspace user)
      (s.removeMember i workspace user, .committing)
  | accountSet (workspace account : ℕ) (hfree : ¬∃ w ∈ s.workspaces[workspace]?, w.LockedFor i) :
    Advanced s i .executed (.settingAccount workspace account)
      (s.setAccount i workspace account, .committing)
  | adminSet (user account : ℕ) (hfree : ¬∃ a ∈ s.accounts[account]?, a.adminId.LockedFor i) :
    Advanced s i .executed (.settingAdmin user account) (s.setAdmin i user account, .committing)
  | committed : Advanced s i .executed .committing (s.commit i, .ended)
  | failed (answer : Outcome) (t : Task) : Advanced s i answer t (s.rollback i, .failed)

theorem Task.advanced :
    Advanced s i answer t ((t.advance s i answer).1, (t.advance s i answer).2.1) := by
  fun_cases Task.advance s i answer t
  case case5 => exact .inserted ..
  case case7 => exact .reactivated ..
  case case26 hfree => exact .removed _ _ hfree
  case case34 hfree => exact .accountSet _ _ hfree
  case case44 hfree => exact .adminSet _ _ hfree
  case case45 => exact .committed
  case case48 => exact .failed ..
  all_goals exact .went ..

variable {workspace user account : ℕ}

theorem State.Stays.hasMember (h : s.Stays workspace user) : s.HasMember workspace :=
  let ⟨r, hr, his, hstands⟩ := h
  ⟨r, hr, his.1, hstands.1⟩

theorem State.Stays.update {p : Row → Bool} {status : Status} (h : s.Stays workspace user)
    (hp : status = .active ∨ ∀ r ∈ s.memberships, r.Is workspace user → p r = false) :
    (s.update i p status).Stays workspace user := by
  obtain ⟨r, hr, his, hstands⟩ := h
  refine ⟨_, List.mem_map_of_mem hr, ?_⟩
  rcases hp with rfl | hp
  · split
    · exact ⟨his, hstands.write rfl⟩
    · exact ⟨his, hstands⟩
  · rw [if_neg (by simp [hp r hr his])]
    exact ⟨his, hstands⟩

theorem State.Stays.insert {workspace user w u : ℕ} (h : s.Stays workspace user) :
    (s.insert i w u).Stays workspace user :=
  let ⟨r, hr, hstays⟩ := h
  ⟨r, List.mem_append_left _ hr, hstays⟩

theorem State.Stays.commit (h : s.Stays workspace user) : (s.commit i).Stays workspace user :=
  let ⟨_, hr, his, hstands⟩ := h
  ⟨_, List.mem_map_of_mem hr, his, hstands.commit⟩

theorem State.Stays.rollback (h : s.Stays workspace user) : (s.rollback i).Stays workspace user :=
  let ⟨_, hr, his, hstands⟩ := h
  ⟨_, List.mem_map_of_mem hr, his, hstands.rollback⟩

/-! ### The invariant -/

/-- Whichever transactions commit, a workspace with a member keeps one, and the admins of its
accounts are members who stay. -/
structure Kept (s : State) : Prop where
  members : ∀ workspace, s.HasMember workspace → ∃ user, s.Stays workspace user
  admins : ∀ workspace account user, s.MayHaveAccount workspace account →
    s.MayBeAdmin user account → s.LiveUser user → s.Stays workspace user

/-- A step from such a state to such a state, in which no workspace loses its last member. -/
structure Keeps (s s' : State) : Prop where
  kept : Kept s'
  stays : ∀ workspace, (∃ user, s.Stays workspace user) → ∃ user, s'.Stays workspace user

theorem Kept.adminIsMember (h : Kept s) : s.AdminIsMember := by
  intro workspace _ w hw user hadmin
  obtain ⟨hadmin, hlive⟩ := Option.filter_eq_some_iff.mp hadmin
  obtain ⟨account, haccount, hadmin⟩ := Option.bind_eq_some_iff.mp hadmin
  obtain ⟨a, ha, huser⟩ := Option.map_eq_some_iff.mp hadmin
  obtain ⟨r, hr, his, hstands⟩ := h.admins workspace account user ⟨w, hw, .inl haccount⟩
    ⟨a, ha, .inl huser⟩ (of_decide_eq_true hlive)
  exact ⟨r, hr, his, hstands.1⟩

/-- A step that changes no committed membership, lets every membership that stays stay, and brings
about no account of a workspace and no admin but those for whom it is shown. -/
theorem Kept.keeps (h : Kept s)
    (hmember : ∀ workspace, s'.HasMember workspace →
      s.HasMember workspace ∨ ∃ user, s'.Stays workspace user)
    (hstays : ∀ workspace user, s.Stays workspace user → s'.Stays workspace user)
    (hadmins : ∀ workspace account user, s'.MayHaveAccount workspace account →
      s'.MayBeAdmin user account → s'.LiveUser user →
      (s.MayHaveAccount workspace account ∧ s.MayBeAdmin user account ∧ s.LiveUser user) ∨
        s'.Stays workspace user) : Keeps s s' := by
  refine ⟨⟨fun workspace hw => ?_, fun workspace account user haccount hadmin hlive => ?_⟩,
    fun workspace ⟨user, huser⟩ => ⟨user, hstays workspace user huser⟩⟩
  · rcases hmember workspace hw with hold | hnew
    · obtain ⟨user, huser⟩ := h.members workspace hold
      exact ⟨user, hstays workspace user huser⟩
    · exact hnew
  · rcases hadmins workspace account user haccount hadmin hlive with ⟨h₁, h₂, h₃⟩ | hnew
    · exact hstays workspace user (h.admins workspace account user h₁ h₂ h₃)
    · exact hnew

theorem hasMember_update {p : Row → Bool} {status : Status}
    (h : (s.update i p status).HasMember workspace) : s.HasMember workspace := by
  obtain ⟨r', hr', hw, hactive⟩ := h
  obtain ⟨r, hr, rfl⟩ := List.mem_map.mp hr'
  by_cases hp : p r = true
  · rw [if_pos hp] at hw hactive
    exact ⟨r, hr, hw, hactive⟩
  · rw [if_neg hp] at hw hactive
    exact ⟨r, hr, hw, hactive⟩

theorem hasMember_insert {workspace w u : ℕ} (h : (s.insert i w u).HasMember workspace) :
    s.HasMember workspace := by
  obtain ⟨r, hr, hw, hactive⟩ := h
  rcases List.mem_append.mp hr with hold | hnew
  · exact ⟨r, hold, hw, hactive⟩
  · rw [List.mem_singleton.mp hnew] at hactive
    exact absurd hactive (by simp)

theorem hasMember_rollback (h : (s.rollback i).HasMember workspace) : s.HasMember workspace := by
  obtain ⟨r', hr', hw, hactive⟩ := h
  obtain ⟨r, hr, rfl⟩ := List.mem_map.mp hr'
  exact ⟨r, hr, hw, (Versioned.committed_rollback).symm.trans hactive⟩

theorem hasMember_commit (h : (s.commit i).HasMember workspace) :
    s.HasMember workspace ∨ ∃ user, (s.commit i).Stays workspace user := by
  obtain ⟨r', hr', hw, hactive⟩ := h
  obtain ⟨r, hr, rfl⟩ := List.mem_map.mp hr'
  by_cases hold : r.status.committed = some .active
  · exact .inl ⟨r, hr, hw, hold⟩
  · exact .inr ⟨r.userId, _, hr', ⟨hw, rfl⟩, Versioned.stands_of_commit hactive hold⟩

theorem Kept.update_active {p : Row → Bool} (h : Kept s) : Keeps s (s.update i p .active) :=
  h.keeps (fun _ hw => .inl (hasMember_update hw)) (fun _ _ hstays => hstays.update (.inl rfl))
    fun _ _ _ haccount hadmin hlive => .inl ⟨haccount, hadmin, hlive⟩

theorem Kept.insert (h : Kept s) : Keeps s (s.insert i workspace user) :=
  h.keeps (fun _ hw => .inl (hasMember_insert hw)) (fun _ _ hstays => hstays.insert)
    fun _ _ _ haccount hadmin hlive => .inl ⟨haccount, hadmin, hlive⟩

theorem mayHaveAccount_finish {f : ∀ {V : Type}, Versioned V → Versioned V}
    (hf : ∀ {V : Type} (r : Versioned V) (v : V), (f r).Admits v → r.Admits v)
    (h : (s.finish f).MayHaveAccount workspace account) : s.MayHaveAccount workspace account := by
  obtain ⟨w', hw', hadmits⟩ := h
  obtain ⟨w, hw, rfl⟩ := getElem?_map_cases hw'
  exact ⟨w, hw, hf w _ hadmits⟩

theorem mayBeAdmin_finish {f : ∀ {V : Type}, Versioned V → Versioned V}
    (hf : ∀ {V : Type} (r : Versioned V) (v : V), (f r).Admits v → r.Admits v)
    (h : (s.finish f).MayBeAdmin user account) : s.MayBeAdmin user account := by
  obtain ⟨a', ha', hadmits⟩ := h
  obtain ⟨a, ha, rfl⟩ := getElem?_map_cases ha'
  exact ⟨a, ha, hf a.adminId _ hadmits⟩

theorem Kept.commit (h : Kept s) : Keeps s (s.commit i) :=
  h.keeps (fun _ hw => hasMember_commit hw) (fun _ _ hstays => hstays.commit)
    fun _ _ _ haccount hadmin hlive =>
      .inl ⟨mayHaveAccount_finish (fun _ _ => Versioned.admits_of_commit) haccount,
        mayBeAdmin_finish (fun _ _ => Versioned.admits_of_commit) hadmin, hlive⟩

theorem Kept.rollback (h : Kept s) : Keeps s (s.rollback i) :=
  h.keeps (fun _ hw => .inl (hasMember_rollback hw)) (fun _ _ hstays => hstays.rollback)
    fun _ _ _ haccount hadmin hlive =>
      .inl ⟨mayHaveAccount_finish (fun _ _ => Versioned.admits_of_rollback) haccount,
        mayBeAdmin_finish (fun _ _ => Versioned.admits_of_rollback) hadmin, hlive⟩

/-- A membership is deleted: another one of the workspace stays, and it is no admin's. -/
theorem Kept.removeMember (h : Kept s)
    (hC : s.memberships.any (Row.Removable workspace user) →
      (∃ r ∈ s.memberships, r.workspaceId = workspace ∧ r.userId ≠ user ∧
          r.status.Stands (· = some .active)) ∧
        ∀ account < s.accounts.length, s.MayHaveAccount workspace account →
          s.MayBeAdmin user account → ¬s.LiveUser user) :
    Keeps s (s.removeMember i workspace user) := by
  have hother : ∀ w u, ¬(w = workspace ∧ u = user) → s.Stays w u →
      (s.removeMember i workspace user).Stays w u := by
    intro w u hne hstays
    refine hstays.update (.inr fun r _ his => ?_)
    refine decide_eq_false fun hremovable => hne ⟨?_, ?_⟩
    · exact his.1.symm.trans hremovable.1.1
    · exact his.2.symm.trans hremovable.1.2
  by_cases hany : s.memberships.any (Row.Removable workspace user) = true
  · obtain ⟨⟨r, hr, hw, hu, hstands⟩, hadmin⟩ := hC hany
    have hstays : ∀ w, (∃ u, s.Stays w u) → ∃ u, (s.removeMember i workspace user).Stays w u := by
      rintro w ⟨u, hstays⟩
      by_cases hne : w = workspace
      · subst hne
        exact ⟨r.userId, hother w r.userId (fun h => hu h.2) ⟨r, hr, ⟨hw, rfl⟩, hstands⟩⟩
      · exact ⟨u, hother w u (fun h => hne h.1) hstays⟩
    refine ⟨⟨fun w hmember => hstays w (h.members w (hasMember_update hmember)), ?_⟩, hstays⟩
    · intro w account u haccount hadminOf hlive
      refine hother w u ?_ (h.admins w account u haccount hadminOf hlive)
      rintro ⟨rfl, rfl⟩
      obtain ⟨a, ha, hadmits⟩ := hadminOf
      have hlt : account < s.accounts.length := (List.getElem?_eq_some_iff.mp ha).1
      exact hadmin account hlt haccount ⟨a, ha, hadmits⟩ hlive
  -- no row is found, and nothing changes
  · have hnone : ∀ r ∈ s.memberships, Row.Removable workspace user r = false := by
      intro r hr
      by_contra hr'
      exact hany (List.any_eq_true.mpr ⟨r, hr, by simpa using hr'⟩)
    exact h.keeps (fun _ hmember => .inl (hasMember_update hmember))
      (fun _ _ hstays => hstays.update (.inr fun r hr _ => hnone r hr))
      fun _ _ _ haccount hadmin hlive => .inl ⟨haccount, hadmin, hlive⟩

theorem Kept.setAccount (h : Kept s)
    (hC : ∀ user < s.users.length, s.MayBeAdmin user account → s.LiveUser user →
      s.Stays workspace user) : Keeps s (s.setAccount i workspace account) := by
  refine h.keeps (fun _ hmember => .inl hmember) (fun _ _ hstays => hstays) ?_
  rintro w a user ⟨x', hx', hadmits⟩ hadmin ⟨u, hu, hlive⟩
  have hlt : user < s.users.length := (List.getElem?_eq_some_iff.mp hu).1
  rcases getElem?_modify_cases hx' with ⟨x, hx, rfl, rfl⟩ | ⟨hold, -⟩
  · rcases Versioned.admits_of_write hadmits with hold | hnew
    · exact .inl ⟨⟨x, hx, hold⟩, hadmin, u, hu, hlive⟩
    · obtain rfl := Option.some.inj hnew
      exact .inr (hC user hlt hadmin ⟨u, hu, hlive⟩)
  · exact .inl ⟨⟨x', hold, hadmits⟩, hadmin, u, hu, hlive⟩

theorem Kept.setAdmin (h : Kept s)
    (hC : ∀ workspace < s.workspaces.length, s.MayHaveAccount workspace account →
      s.LiveUser user → s.Stays workspace user) : Keeps s (s.setAdmin i user account) := by
  refine h.keeps (fun _ hmember => .inl hmember) (fun _ _ hstays => hstays) ?_
  rintro w a u ⟨x, hx, haccount⟩ ⟨y', hy', hadmits⟩ hlive
  have hlt : w < s.workspaces.length := (List.getElem?_eq_some_iff.mp hx).1
  rcases getElem?_modify_cases hy' with ⟨y, hy, rfl, rfl⟩ | ⟨hold, -⟩
  · rcases Versioned.admits_of_write hadmits with hold | rfl
    · exact .inl ⟨⟨x, hx, haccount⟩, ⟨y, hy, hold⟩, hlive⟩
    · exact .inr (hC w hlt ⟨x, hx, haccount⟩ hlive)
  · exact .inl ⟨⟨x, hx, haccount⟩, ⟨y', hold, hadmits⟩, hlive⟩

variable {past ls : List (Turn Event Outcome)} {p : Pool State Task} {r : State × Task}
variable {start : Start}

theorem Kept.advanced (h : Kept p.shared) (hC : Guarded past p (.resumed i answer))
    (hi : p.tasks[i]? = some t) (hr : Advanced p.shared i answer t r) : Keeps p.shared r.1 := by
  cases hr with
  | went => exact ⟨h, fun _ hstays => hstays⟩
  | inserted => exact h.insert
  | reactivated => exact h.update_active
  | removed workspace user hfree =>
    rw [Guarded, hi] at hC
    exact h.removeMember (hC hfree)
  | accountSet workspace account hfree =>
    rw [Guarded, hi] at hC
    exact h.setAccount (hC hfree)
  | adminSet user account hfree =>
    rw [Guarded, hi] at hC
    exact h.setAdmin (hC hfree)
  | committed => exact h.commit
  | failed => exact h.rollback

theorem Kept.step (start : Start) {l : Turn Event Outcome} (h : Kept p.shared)
    (hC : Guarded past p l) :
    Keeps p.shared ((operations start).step p l).1.shared := by
  rcases l with e | ⟨i, answer⟩
  · cases e with
    | stripeChanged account hasStripe =>
      refine h.keeps (fun _ hmember => .inl hmember) (fun _ _ hstays => hstays) ?_
      rintro w a user haccount ⟨x', hx', hadmits⟩ hlive
      rcases getElem?_modify_cases hx' with ⟨x, hx, rfl, rfl⟩ | ⟨hold, -⟩
      · exact .inl ⟨haccount, ⟨x, hx, hadmits⟩, hlive⟩
      · exact .inl ⟨haccount, ⟨x', hold, hadmits⟩, hlive⟩
    | _ => exact ⟨h, fun _ hstays => hstays⟩
  · cases hi : p.tasks[i]? with
    | none =>
      rw [Tasks.step_resumed_none hi]
      exact ⟨h, fun _ hstays => hstays⟩
    | some t =>
      rw [Tasks.step_resumed hi]
      exact h.advanced hC hi Task.advanced

theorem kept_init : Kept (operations start).init := by
  have hmembers : ∀ r ∈ (operations start).init.memberships,
      r.status.committed = some .active → r.status.Stands (· = some .active) := by
    intro r hr hactive
    obtain ⟨m, -, rfl⟩ := List.mem_map.mp hr
    exact ⟨hactive, hactive⟩
  constructor
  · rintro w ⟨r, hr, hw, hactive⟩
    exact ⟨r.userId, r, hr, ⟨hw, rfl⟩, hmembers r hr hactive⟩
  · rintro w account user ⟨x, hx, haccount⟩ ⟨a, ha, hadmin⟩ hlive
    have hcommitted : x.committed = some account := by
      obtain ⟨c, -, rfl⟩ := List.mem_map.mp (List.mem_of_getElem? hx)
      exact haccount.elim id id
    have huser : a.adminId.committed = user := by
      obtain ⟨c, -, rfl⟩ := List.mem_map.mp (List.mem_of_getElem? ha)
      exact hadmin.elim id id
    have hget : (operations start).init.getAdminUser x.committed = some user := by
      rw [State.getAdminUser, hcommitted, Option.bind_some, Option.mem_def.mp ha, Option.map_some,
        huser]
      exact Option.filter_some_pos (decide_eq_true hlive)
    have hlt := (List.getElem?_eq_some_iff.mp hx).1
    obtain ⟨r, hr, his, hactive⟩ := start.adminIsMember w hlt x hx user hget
    exact ⟨r, hr, his, hmembers r hr hactive⟩

/-- **A workspace keeps a member and its admin.** In a run in which, whenever a membership is
deleted, another member of the workspace stays and the user is no admin of it, and whenever an
account or an admin is set, the admin is a member who stays, each workspace that has a member has
one after every step, and the admin of its account, when there is one, is a member. -/
theorem members_kept {start : Start} {ls : List (Turn Event Outcome)}
    (h : (operations start).system.Along Guarded ls) :
    (operations start).system.Along (KeepsMembers start) ls := by
  refine System.along_of_along _ (fun _ p _ => Kept p.shared) kept_init
    (fun _ _ hkept hC => (hkept.step start hC).kept) (fun past l hkept hC => ?_) h
  have hstep := hkept.step start hC
  refine ⟨fun w hw => ?_, hstep.kept.adminIsMember⟩
  obtain ⟨user, hstays⟩ := hstep.stays w (hkept.members w hw)
  exact hstays.hasMember

/-- A workspace with two members, the first of whom is the admin of its account. -/
def team : Start where
  workspaces := [some 0]
  accounts := [(0, false)]
  memberships := [(0, 0, .active), (0, 1, .active)]
  users := [{}, {}, {}]
  adminIsMember := by decide

/-- A third user is invited, and the second leaves. -/
def handover : List (Turn Event Outcome) :=
  [.event (.invite 0 2), .resumed 0 .executed, .resumed 0 .executed, .resumed 0 .executed,
    .event (.leave 0 1), .resumed 1 .executed, .resumed 1 .executed, .resumed 1 .executed,
    .resumed 1 .executed, .resumed 1 .executed]

theorem handover_members_kept :
    ((operations team).system.after handover).tasks = [.ended, .ended] ∧
      (operations team).system.Along (KeepsMembers team) handover :=
  ⟨by decide, members_kept (by decide)⟩

/-- A workspace with two members and no account. -/
def pair : Start where
  workspaces := [none]
  accounts := []
  memberships := [(0, 0, .active), (0, 1, .active)]
  users := [{}, {}]
  adminIsMember := by decide

/-- Both members leave at once: each has counted the other. -/
def bothLeave : List (Turn Event Outcome) :=
  [.event (.leave 0 0), .event (.leave 0 1), .resumed 0 .executed, .resumed 0 .executed,
    .resumed 0 .executed, .resumed 1 .executed, .resumed 1 .executed, .resumed 1 .executed,
    .resumed 0 .executed, .resumed 0 .executed, .resumed 1 .executed]

/-- Two workspaces with one account; the second user is a member of the first workspace only. -/
def sharing : Start where
  workspaces := [some 0, some 0]
  accounts := [(0, false)]
  memberships := [(0, 0, .active), (1, 0, .active), (0, 1, .active)]
  users := [{}, {}]
  adminIsMember := by decide

/-- The second user becomes the admin of the account, by way of the first workspace. -/
def promotion : List (Turn Event Outcome) :=
  [.event (.changeAdmin 0 1), .resumed 0 .executed, .resumed 0 .executed, .resumed 0 .executed,
    .resumed 0 .executed]

/-- The one workspace is left without members, and the other with an admin who is none. -/
theorem not_keepsMembers :
    ¬(operations pair).system.Along (KeepsMembers pair) (bothLeave ++ [.resumed 1 .executed]) ∧
      ¬(operations sharing).system.Along (KeepsMembers sharing)
        (promotion ++ [.resumed 0 .executed]) := by
  refine ⟨fun h => ?_, fun h => ?_⟩
  · have hmember := ((System.along_snoc _).mp h).2.1 0 (by decide)
    exact absurd hmember (by decide)
  · have hadmin := ((System.along_snoc _).mp h).2.2
    exact absurd hadmin (by decide)

end WorkspaceMembers

end Rapidly.Platform
