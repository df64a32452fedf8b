import Mathlib.Algebra.Order.Ring.Int
import Rapidly.Relational.Table

/-!
# The tables of identities and credentials

The rows of `models/` that decide who a request acts as: users, workspaces and the
memberships between them, the customers and team members of a workspace, and the credential
tables. A row has the columns some modelled function reads; timestamps are microseconds since
the epoch.

`Database` bundles the tables with the constraints the schema declares (`unique=True`,
`ForeignKey`), so that a model of a query may rely on them. Deletion is soft: a deleted row
stays, with its `deletedAt` set, and so do the rows that refer to it.
-/

namespace Rapidly.Identity

open Relational

/-- An identifier; only ever compared. -/
abbrev Uuid := ℕ

/-- A `TIMESTAMP`, in microseconds since the epoch. -/
abbrev Time := ℤ

/-- A permission of the `Scope` enumeration, by its value. -/
abbrev Scope := String

/-! ### Principals -/

structure User where
  id : Uuid
  deletedAt : Option Time := none
  blockedAt : Option Time := none
deriving DecidableEq

/-- `User.can_authenticate`: neither deleted nor blocked. -/
def User.canAuthenticate (user : User) : Bool := user.deletedAt.isNone && user.blockedAt.isNone

structure Workspace where
  id : Uuid
  deletedAt : Option Time := none
  blockedAt : Option Time := none
deriving DecidableEq

/-- `Workspace.can_authenticate`: neither deleted nor blocked. -/
def Workspace.canAuthenticate (workspace : Workspace) : Bool :=
  workspace.deletedAt.isNone && workspace.blockedAt.isNone

structure WorkspaceMembership where
  userId : Uuid
  workspaceId : Uuid
  deletedAt : Option Time := none
deriving DecidableEq

/-- The composite primary key of a membership. -/
def WorkspaceMembership.key (m : WorkspaceMembership) : Uuid × Uuid := (m.userId, m.workspaceId)

structure Customer where
  id : Uuid
  workspaceId : Uuid
  externalId : Option String := none
  stripeCustomerId : Option String := none
  /-- The user the customer stands for, where there is one. -/
  legacyUserId : Option Uuid := none
  deletedAt : Option Time := none
deriving DecidableEq

/-- `Customer.can_authenticate`: not deleted. -/
def Customer.canAuthenticate (customer : Customer) : Bool := customer.deletedAt.isNone

structure Member where
  id : Uuid
  customerId : Uuid
  workspaceId : Uuid
  deletedAt : Option Time := none
deriving DecidableEq

/-! ### Credentials -/

structure UserSession where
  id : Uuid
  /-- Hash of the cookie. -/
  token : String
  userId : Uuid
  expiresAt : Time
  scopes : List Scope := []
  deletedAt : Option Time := none
deriving DecidableEq

structure WorkspaceAccessToken where
  id : Uuid
  /-- Hash of the token. -/
  token : String
  workspaceId : Uuid
  scopes : List Scope := []
  expiresAt : Option Time := none
  deletedAt : Option Time := none
deriving DecidableEq

structure CustomerSession where
  id : Uuid
  /-- Hash of the token. -/
  token : String
  customerId : Uuid
  expiresAt : Time
  deletedAt : Option Time := none
deriving DecidableEq

structure MemberSession where
  id : Uuid
  /-- Hash of the token. -/
  token : String
  memberId : Uuid
  expiresAt : Time
  deletedAt : Option Time := none
deriving DecidableEq

/-- `SubType`. -/
inductive SubType where
  | user
  | workspace
deriving DecidableEq

/-- `SubType(value)`, `none` where it raises `ValueError`. -/
def SubType.ofString : String → Option SubType
  | "user" => some .user
  | "workspace" => some .workspace
  | _ => none

/-- A stored token pair. The revocation columns are integers, zero when not revoked; seconds
since the epoch like `issuedAt`. -/
structure OAuth2Token where
  id : Uuid
  clientId : String
  /-- Hash of the access token. -/
  accessToken : String
  /-- Hash of the refresh token. -/
  refreshToken : Option String := none
  scopes : List Scope := []
  subType : SubType
  userId : Option Uuid := none
  workspaceId : Option Uuid := none
  issuedAt : ℕ
  expiresIn : ℕ
  accessTokenRevokedAt : ℕ := 0
  refreshTokenRevokedAt : ℕ := 0
deriving DecidableEq

/-! ### The database -/

/-- The tables, with the constraints of the schema. -/
structure Database where
  users : Table User.id := Table.empty
  workspaces : Table Workspace.id := Table.empty
  memberships : Table WorkspaceMembership.key := Table.empty
  customers : Table Customer.id := Table.empty
  members : Table Member.id := Table.empty
  userSessions : Table UserSession.id := Table.empty
  workspaceAccessTokens : Table WorkspaceAccessToken.id := Table.empty
  customerSessions : Table CustomerSession.id := Table.empty
  memberSessions : Table MemberSession.id := Table.empty
  oauth2Tokens : Table OAuth2Token.id := Table.empty
  userSessions_token : userSessions.UniqueOn UserSession.token := by decide
  workspaceAccessTokens_token :
    workspaceAccessTokens.UniqueOn WorkspaceAccessToken.token := by decide
  customerSessions_token : customerSessions.UniqueOn CustomerSession.token := by decide
  memberSessions_token : memberSessions.UniqueOn MemberSession.token := by decide
  customers_workspace : customers.References Customer.workspaceId workspaces := by decide
  members_customer : members.References Member.customerId customers := by decide
  members_workspace : members.References Member.workspaceId workspaces := by decide
  userSessions_user : userSessions.References UserSession.userId users := by decide
  workspaceAccessTokens_workspace :
    workspaceAccessTokens.References WorkspaceAccessToken.workspaceId workspaces := by decide
  customerSessions_customer :
    customerSessions.References CustomerSession.customerId customers := by decide
  memberSessions_member : memberSessions.References MemberSession.memberId members := by decide

namespace Database

/-- The database without rows. -/
def empty : Database := {}

variable (db : Database)

/-- The user has a membership in the workspace that is not deleted. -/
def MemberOf (userId workspaceId : Uuid) : Prop :=
  ∃ m ∈ db.memberships.rows,
    m.userId = userId ∧ m.workspaceId = workspaceId ∧ m.deletedAt = none

instance (userId workspaceId : Uuid) : Decidable (db.MemberOf userId workspaceId) :=
  inferInstanceAs (Decidable (∃ m ∈ db.memberships.rows, _))

/-- The user has a membership in some workspace that is not deleted. -/
def MemberOfAny (userId : Uuid) : Prop :=
  ∃ m ∈ db.memberships.rows, m.userId = userId ∧ m.deletedAt = none

instance (userId : Uuid) : Decidable (db.MemberOfAny userId) :=
  inferInstanceAs (Decidable (∃ m ∈ db.memberships.rows, _))

end Database

end Rapidly.Identity
