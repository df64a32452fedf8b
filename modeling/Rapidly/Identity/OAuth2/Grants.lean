import Rapidly.Identity.Schema

/-!
# Subjects of OAuth2 grants

Two grants turn a request into the subject a code or a token acts as: the authorization-code
grant (`ValidateSubAndPrompt._resolve_sub`, checked again before the authorization response)
and the dashboard's web grant (`WebGrant._verify_session_token`). A request may ask for a
workspace instead of the user, and both grants answer it with the same query: the workspace
joined with the memberships of the user.

The join condition names the user and the deletion mark of the membership and nothing else.
`joinedWorkspace_eq` says what the query therefore computes: the requested workspace, whatever
workspace the user is a member of. `workspaceSubject_iff` turns this into the exact condition
under which a grant acts for a workspace only on behalf of its members.

`uuid.UUID` is a parameter: the results hold whatever strings it accepts.
-/

namespace Rapidly.Identity.OAuth2

open Relational

/-- The errors of the two grants. -/
inductive OAuth2Error where
  | invalidRequest (description : String)
  | invalidSub
  | invalidGrant
  | invalidScope
  /-- Not an OAuth2 error: a query found several rows. -/
  | multipleResultsFound
deriving DecidableEq

/-- The subject of a code or a token. -/
inductive Sub where
  | user (user : User)
  | workspace (workspace : Workspace)
deriving DecidableEq

variable (parseUuid : String → Option Uuid) (db : Database)

/-! ### The membership query -/

/-- `select(Workspace).join(WorkspaceMembership, onclause=...).where(Workspace.id == ...)`, as
both grants write it. -/
def joinedWorkspace (workspaceId : Uuid) (user : User) :
    Except MultipleResultsFound (Option Workspace) :=
  oneOrNone <|
    ((join db.workspaces.rows db.memberships.rows fun _ m =>
      m.userId = user.id ∧ m.deletedAt = none).filter fun row => row.1.id = workspaceId).map
      Prod.fst

/-- `ValidateSubAndPrompt._find_user_workspace`. -/
def findUserWorkspace (workspaceId : Uuid) (user : User) :
    Except MultipleResultsFound (Option Workspace) :=
  joinedWorkspace db workspaceId user

/-- `WebGrant._lookup_workspace_membership`. -/
def lookupWorkspaceMembership (workspaceId : Uuid) (user : User) :
    Except MultipleResultsFound (Option Workspace) :=
  joinedWorkspace db workspaceId user

variable {db} in
/-- The query finds a row for every live membership of the user, in any workspace. -/
private theorem mem_joined {workspaceId : Uuid} {user : User} {w : Workspace} :
    (w ∈ ((join db.workspaces.rows db.memberships.rows fun _ m =>
      m.userId = user.id ∧ m.deletedAt = none).filter fun row => row.1.id = workspaceId).map
      Prod.fst) ↔ db.workspaces.get workspaceId = some w ∧ db.MemberOfAny user.id := by
  rw [Table.get_eq_some_iff]
  simp only [List.mem_map, List.mem_filter, Prod.exists, mem_join, decide_eq_true_eq,
    Database.MemberOfAny, Table.mem_def]
  constructor
  · rintro ⟨w', m, ⟨⟨hw, hm, huser, hlive⟩, hid⟩, rfl⟩
    exact ⟨⟨hw, hid⟩, m, hm, huser, hlive⟩
  · rintro ⟨⟨hw, hid⟩, m, hm, huser, hlive⟩
    exact ⟨w, m, ⟨⟨hw, hm, huser, hlive⟩, hid⟩, rfl⟩

/-- **What the membership query computes.** The requested workspace, as soon as the user has
any live membership. -/
theorem joinedWorkspace_eq (workspaceId : Uuid) (user : User) :
    joinedWorkspace db workspaceId user =
      .ok (if db.MemberOfAny user.id then db.workspaces.get workspaceId else none) := by
  split
  next hmember =>
    cases hget : db.workspaces.get workspaceId with
    | none =>
      refine oneOrNone_eq_none_iff.mpr (List.eq_nil_iff_forall_not_mem.mpr fun w hw => ?_)
      rw [(mem_joined.mp hw).1] at hget
      cases hget
    | some w =>
      refine oneOrNone_eq_some_iff.mpr ⟨mem_joined.mpr ⟨hget, hmember⟩, fun w' hw' => ?_⟩
      exact Option.some.inj ((mem_joined.mp hw').1.symm.trans hget)
  next hmember =>
    refine oneOrNone_eq_none_iff.mpr (List.eq_nil_iff_forall_not_mem.mpr fun w hw => ?_)
    exact hmember (mem_joined.mp hw).2

/-! ### The authorization-code grant -/

/-- What `_resolve_sub` reads of an authorization request and its client. -/
structure AuthorizationRequest where
  subType : Option String := none
  sub : Option String := none
  defaultSubType : SubType := .user
deriving DecidableEq

/-- The subject type asked for: an absent or empty parameter leaves the client's default. -/
def AuthorizationRequest.resolveSubType (request : AuthorizationRequest) :
    Except OAuth2Error SubType :=
  match request.subType with
  | none => .ok request.defaultSubType
  | some raw =>
    if raw = "" then .ok request.defaultSubType
    else
      match SubType.ofString raw with
      | some subType => .ok subType
      | none => .error (.invalidRequest "Invalid sub_type")

/-- `ValidateSubAndPrompt._resolve_sub`: the subject type, and the subject when there is one. -/
def resolveSub (request : AuthorizationRequest) (user : Option User) :
    Except OAuth2Error (SubType × Option Sub) := do
  let subType ← request.resolveSubType
  match subType, request.sub, user with
  | .user, some _, _ => .error (.invalidRequest "Can't specify sub for user sub_type")
  | .user, none, user => .ok (.user, user.map .user)
  | .workspace, some rawSub, some user =>
    match parseUuid rawSub with
    | none => .error .invalidSub
    | some workspaceId =>
      match findUserWorkspace db workspaceId user with
      | .ok (some workspace) => .ok (.workspace, some (.workspace workspace))
      | .ok none => .error .invalidSub
      | .error _ => .error .multipleResultsFound
  | .workspace, _, _ => .ok (.workspace, none)

/-- `ValidateSubAndPrompt._on_pre_authz_response`: an authorization code needs a subject. -/
def onPreAuthzResponse (request : AuthorizationRequest) (user : Option User) :
    Except OAuth2Error (SubType × Sub) := do
  let (subType, sub) ← resolveSub parseUuid db request user
  match sub with
  | none => .error .invalidSub
  | some sub => .ok (subType, sub)

/-- The workspace an authorization request asks to act as. -/
def AuthorizationRequest.workspace (request : AuthorizationRequest) : Option Uuid :=
  match request.resolveSubType with
  | .ok .workspace => request.sub.bind parseUuid
  | _ => none

/-! ### The web grant -/

/-- The fields `_verify_session_token` reads of a token request. -/
structure WebGrantRequest where
  sessionToken : Option String := none
  subType : Option String := none
  sub : Option String := none
  scope : String := ""
deriving DecidableEq

variable (tokenHash : String → String) (validScope : String → Bool) (now : Time)

/-- The session lookup of the web grant. -/
def webSession (rawToken : String) : Except MultipleResultsFound (Option UserSession) :=
  oneOrNone <| db.userSessions.select fun s => s.token = tokenHash rawToken ∧ s.expiresAt > now

/-- The subject type of a token request, the user when absent or empty. -/
def WebGrantRequest.resolveSubType (request : WebGrantRequest) : Except OAuth2Error SubType :=
  match request.subType with
  | none => .ok .user
  | some raw =>
    if raw = "" then .ok .user
    else
      match SubType.ofString raw with
      | some subType => .ok subType
      | none => .error (.invalidRequest "Invalid sub_type")

/-- `WebGrant._resolve_subject`. -/
def resolveSubject (subType : SubType) (rawSub : Option String) (user : User) :
    Except OAuth2Error (SubType × Sub) :=
  match subType, rawSub with
  | .user, _ => .ok (.user, .user user)
  | .workspace, none => .error (.invalidRequest "Missing 'sub' for workspace sub_type")
  | .workspace, some rawSub =>
    match parseUuid rawSub with
    | none => .error (.invalidRequest "Invalid 'sub' UUID")
    | some workspaceId =>
      match lookupWorkspaceMembership db workspaceId user with
      | .ok (some workspace) => .ok (.workspace, .workspace workspace)
      | .ok none => .error .invalidGrant
      | .error _ => .error .multipleResultsFound

/-- `WebGrant._verify_session_token`. -/
def verifySessionToken (request : WebGrantRequest) : Except OAuth2Error (SubType × Sub) := do
  match request.sessionToken with
  | none => .error (.invalidRequest "Missing 'session_token' in request.")
  | some rawToken =>
    let subType ← request.resolveSubType
    if subType = .workspace ∧ request.sub = none then
      .error (.invalidRequest "Missing 'sub' for workspace sub_type")
    else if subType = .user ∧ request.sub ≠ none then
      .error (.invalidRequest "Can't specify 'sub' for user sub_type")
    else if request.scope ≠ "" ∧ validScope request.scope = false then .error .invalidScope
    else
      match webSession db tokenHash now rawToken with
      | .error _ => .error .multipleResultsFound
      | .ok none => .error .invalidGrant
      | .ok (some session) =>
        match db.users.get session.userId with
        | none => .error .invalidGrant
        | some user => resolveSubject parseUuid db subType request.sub user

/-- The user whose session a token request carries, once its scope is accepted. -/
def WebGrantRequest.user (request : WebGrantRequest) : Option User :=
  if request.scope ≠ "" ∧ validScope request.scope = false then none
  else
    match request.sessionToken.map (webSession db tokenHash now) with
    | some (.ok (some session)) => db.users.get session.userId
    | _ => none

/-- The workspace a token request asks to act as. -/
def WebGrantRequest.workspace (request : WebGrantRequest) : Option Uuid :=
  match request.resolveSubType with
  | .ok .workspace => request.sub.bind parseUuid
  | _ => none

/-! ### Acting for a workspace -/

/-- The user is a member of the requested workspace, unless there is no such workspace or the
user is a member of none. -/
def OwnWorkspace (user : User) (workspaceId : Uuid) : Prop :=
  (db.workspaces.get workspaceId).isSome → db.MemberOfAny user.id →
    db.MemberOf user.id workspaceId

instance (user : User) (workspaceId : Uuid) : Decidable (OwnWorkspace db user workspaceId) :=
  inferInstanceAs (Decidable (_ → _))

variable {parseUuid db tokenHash validScope now}

theorem onPreAuthzResponse_workspace_iff {request : AuthorizationRequest} {user : User}
    {subType : SubType} {w : Workspace} :
    onPreAuthzResponse parseUuid db request (some user) = .ok (subType, .workspace w) ↔
      subType = .workspace ∧ db.MemberOfAny user.id ∧
        ∃ workspaceId, request.workspace parseUuid = some workspaceId ∧
          db.workspaces.get workspaceId = some w := by
  unfold onPreAuthzResponse resolveSub AuthorizationRequest.workspace findUserWorkspace
  rcases request.resolveSubType with e | (_ | _)
  · exact ⟨nofun, nofun⟩
  · cases request.sub <;> exact ⟨nofun, nofun⟩
  · cases hsub : request.sub with
    | none => exact ⟨nofun, nofun⟩
    | some rawSub =>
      cases hparse : parseUuid rawSub with
      | none => simp [hparse, bind, Except.bind]
      | some workspaceId =>
        by_cases hmember : db.MemberOfAny user.id
        · cases hget : db.workspaces.get workspaceId <;>
            simp [hparse, joinedWorkspace_eq, hmember, hget, bind, Except.bind, eq_comm]
        · simp [hparse, joinedWorkspace_eq, hmember, bind, Except.bind]

theorem resolveSubject_workspace_iff {subType subType' : SubType} {rawSub : Option String}
    {user : User} {w : Workspace} :
    resolveSubject parseUuid db subType rawSub user = .ok (subType', .workspace w) ↔
      subType = .workspace ∧ subType' = .workspace ∧ db.MemberOfAny user.id ∧
        ∃ workspaceId, rawSub.bind parseUuid = some workspaceId ∧
          db.workspaces.get workspaceId = some w := by
  unfold resolveSubject lookupWorkspaceMembership
  cases subType with
  | user => simp
  | workspace =>
    cases rawSub with
    | none => simp
    | some rawSub =>
      cases hparse : parseUuid rawSub with
      | none => simp [hparse]
      | some workspaceId =>
        by_cases hmember : db.MemberOfAny user.id
        · cases hget : db.workspaces.get workspaceId <;>
            simp [hparse, joinedWorkspace_eq, hmember, hget, eq_comm]
        · simp [hparse, joinedWorkspace_eq, hmember]

theorem verifySessionToken_workspace_iff {request : WebGrantRequest} {subType : SubType}
    {w : Workspace} :
    verifySessionToken parseUuid db tokenHash validScope now request =
        .ok (subType, .workspace w) ↔
      subType = .workspace ∧ ∃ user workspaceId,
        request.user db tokenHash validScope now = some user ∧ db.MemberOfAny user.id ∧
          request.workspace parseUuid = some workspaceId ∧
          db.workspaces.get workspaceId = some w := by
  rw [verifySessionToken, WebGrantRequest.user, WebGrantRequest.workspace]
  cases request.sessionToken with
  | none => simp
  | some rawToken =>
    rcases htype : request.resolveSubType with e | t
    · simp [bind, Except.bind]
    · simp only [bind, Except.bind, Option.map_some]
      by_cases hscope : request.scope ≠ "" ∧ validScope request.scope = false
      · cases t <;> cases request.sub <;> simp [hscope]
      · rcases hsession : webSession db tokenHash now rawToken with e | (_ | session)
        · cases t <;> cases request.sub <;> simp [hscope]
        · cases t <;> cases request.sub <;> simp [hscope]
        · cases huser : db.users.get session.userId with
          | none => cases t <;> cases request.sub <;> simp [hscope, huser]
          | some user =>
            cases t with
            | user =>
              cases request.sub <;> simp [hscope, huser, resolveSubject_workspace_iff]
            | workspace =>
              cases hsub : request.sub with
              | none => simp
              | some rawSub =>
                simp only [hscope, huser]
                simp [resolveSubject_workspace_iff]

/-! ### The main result -/

/-- **Workspace subjects.** The authorization-code grant and the web grant resolve to a
workspace only on behalf of its members exactly when the requested workspace is the user's
own: one the user has a live membership in, unless there is no such workspace or the user has
no live membership at all. -/
theorem workspaceSubject_iff (parseUuid : String → Option Uuid) (db : Database)
    (tokenHash : String → String) (validScope : String → Bool) (now : Time)
    (authorization : AuthorizationRequest) (authenticated : User) (web : WebGrantRequest) :
    ((∀ w, onPreAuthzResponse parseUuid db authorization (some authenticated) =
          .ok (.workspace, .workspace w) → db.MemberOf authenticated.id w.id) ↔
      ∀ workspaceId, authorization.workspace parseUuid = some workspaceId →
        OwnWorkspace db authenticated workspaceId) ∧
    ((∀ user w, web.user db tokenHash validScope now = some user →
        verifySessionToken parseUuid db tokenHash validScope now web =
          .ok (.workspace, .workspace w) → db.MemberOf user.id w.id) ↔
      ∀ user workspaceId, web.user db tokenHash validScope now = some user →
        web.workspace parseUuid = some workspaceId → OwnWorkspace db user workspaceId) := by
  have hid : ∀ {workspaceId w}, db.workspaces.get workspaceId = some w → w.id = workspaceId :=
    fun h => (Table.get_eq_some_iff.mp h).2
  refine ⟨⟨fun h workspaceId hrequest hexists hmember => ?_, fun h w hresolve => ?_⟩,
    ⟨fun h user workspaceId huser hrequest hexists hmember => ?_,
      fun h user w huser hresolve => ?_⟩⟩
  · obtain ⟨w, hget⟩ := Option.isSome_iff_exists.mp hexists
    rw [← hid hget]
    exact h w (onPreAuthzResponse_workspace_iff.mpr ⟨rfl, hmember, workspaceId, hrequest, hget⟩)
  · obtain ⟨-, hmember, workspaceId, hrequest, hget⟩ :=
      onPreAuthzResponse_workspace_iff.mp hresolve
    rw [hid hget]
    exact h workspaceId hrequest (by rw [hget]; rfl) hmember
  · obtain ⟨w, hget⟩ := Option.isSome_iff_exists.mp hexists
    rw [← hid hget]
    exact h user w huser (verifySessionToken_workspace_iff.mpr
      ⟨rfl, user, workspaceId, huser, hmember, hrequest, hget⟩)
  · obtain ⟨-, user', workspaceId, huser', hmember, hrequest, hget⟩ :=
      verifySessionToken_workspace_iff.mp hresolve
    obtain rfl : user = user' := Option.some.inj (huser.symm.trans huser')
    rw [hid hget]
    exact h user workspaceId huser hrequest (by rw [hget]; rfl) hmember

/-- Two tenants: user 1 is a member of workspace 10 and not of workspace 20. -/
def twoTenants : Database :=
  { Database.empty with
    users := Table.singleton { id := 1 }
    workspaces := ⟨[{ id := 10 }, { id := 20 }], by decide⟩
    memberships := Table.singleton { userId := 1, workspaceId := 10 }
    userSessions := Table.singleton { id := 5, token := "cookie", userId := 1, expiresAt := 100 }
    userSessions_token := by decide
    customers_workspace := by decide
    members_workspace := by decide
    userSessions_user := by decide
    workspaceAccessTokens_workspace := by decide }

/-- A member of one workspace is given a code that acts as another. -/
theorem memberOfOne_actsAsAnother :
    ¬∀ (parseUuid : String → Option Uuid) (db : Database) (user : User)
      (request : AuthorizationRequest) (w : Workspace),
      onPreAuthzResponse parseUuid db request (some user) = .ok (.workspace, .workspace w) →
        db.MemberOf user.id w.id := by
  intro h
  have hmember := h (fun raw => if raw = "20" then some 20 else none) twoTenants { id := 1 }
    { subType := some "workspace", sub := some "20" } { id := 20 } (by decide)
  revert hmember
  decide

end Rapidly.Identity.OAuth2
