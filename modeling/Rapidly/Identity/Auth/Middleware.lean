import Rapidly.Identity.OAuth2.Token

/-!
# The authentication middleware

`AuthPrincipalMiddleware` resolves every request to an `AuthPrincipal` before a route runs.
A bearer token is looked up in the credential store its prefix names, or in the stores of the
unprefixed kinds one after the other; without one, the session cookie is. Each store has its
own lookup, with its own joins and its own checks on deletion, blocking and expiry.

For each lookup there is one lemma that says which rows it finds (`mem_…Rows`), and for the
middleware as a whole one that says what a resolved principal comes from
(`resolveFromToken_cases`).

The header splitting of FastAPI is not part of the repository: a `Request` carries the scheme
and the parameter it found. Token hashing is a parameter.
-/

namespace Rapidly.Identity.Auth

open Relational OAuth2

/-- Who a request acts as. -/
inductive Subject where
  | anonymous
  | user (user : User)
  | workspace (workspace : Workspace)
  | customer (customer : Customer)
  | member (member : Member)
deriving DecidableEq

/-- The credential a principal was resolved from. -/
inductive Credential where
  | userSession (session : UserSession)
  | workspaceAccessToken (token : WorkspaceAccessToken)
  | oauth2Token (token : OAuth2Token)
  | customerSession (session : CustomerSession)
  | memberSession (session : MemberSession)
deriving DecidableEq

structure AuthPrincipal where
  subject : Subject
  scopes : List Scope
  session : Option Credential
deriving DecidableEq

/-- The principal of a request without a credential. -/
def anonymousPrincipal : AuthPrincipal := ⟨.anonymous, [], none⟩

/-- A request that is not resolved: an OAuth2 error response, or a server error. -/
inductive AuthError where
  | invalidToken
  | server
deriving DecidableEq

/-- What the middleware reads of a request: the scheme and the parameter of its authorization
header, both empty without one, and the session cookie. -/
structure Request where
  authorization : String × String := ("", "")
  cookie : Option String := none
deriving DecidableEq

/-- `str.startswith`. -/
def startsWith (s start : String) : Bool := start.toList.isPrefixOf s.toList

/-- `str.isascii`. -/
def isAscii (s : String) : Bool := s.toList.all fun c => c.toNat < 128

/-- `str.lower`, which differs from this on no string that it maps to an ASCII one without a
`k`. -/
def lower (s : String) : String := String.ofList (s.toList.map Char.toLower)

/-- `get_bearer_token`. -/
def getBearerToken (request : Request) : Option String :=
  let (scheme, value) := request.authorization
  if scheme = "" ∨ value = "" ∨ lower scheme ≠ "bearer" ∨ isAscii value = false then none
  else some value

/-- `CLIENT_REGISTRATION_TOKEN_PREFIX`. -/
def clientRegistrationTokenPrefix : String := "rapidly_crt_"

/-- `MEMBER_SESSION_TOKEN_PREFIX`. -/
def memberSessionTokenPrefix : String := "rapidly_mst_"

/-- `CUSTOMER_SESSION_TOKEN_PREFIX`. -/
def customerSessionTokenPrefix : String := "rapidly_cst_"

variable (mixin : TokenMixin) (tokenHash : String → String) (db : Database) (now : Time)

/-! ### The five lookups -/

/-- The statement of `MemberSessionRepository.get_by_token_hash`. -/
def memberSessionRows (hashed : String) : List MemberSession :=
  ((join (join db.memberSessions.rows db.members.rows fun s m => s.memberId = m.id)
    db.customers.rows fun row c => row.2.customerId = c.id).filter fun row =>
      row.1.1.token = hashed ∧ row.1.1.deletedAt = none ∧ row.1.2.deletedAt = none ∧
        row.1.1.expiresAt > now).map fun row => row.1.1

/-- The statement of `CustomerSessionRepository.get_by_token_hash`. -/
def customerSessionRows (hashed : String) : List CustomerSession :=
  ((join db.customerSessions.rows db.customers.rows fun s c => s.customerId = c.id).filter
    fun row => row.1.token = hashed ∧ row.1.deletedAt = none ∧ row.2.canAuthenticate ∧
      row.1.expiresAt > now).map Prod.fst

/-- The statement of `WorkspaceAccessTokenRepository.get_by_token_hash`. -/
def workspaceAccessTokenRows (hashed : String) : List WorkspaceAccessToken :=
  ((join db.workspaceAccessTokens.rows db.workspaces.rows fun t w => t.workspaceId = w.id).filter
    fun row => row.1.deletedAt = none ∧ row.1.token = hashed ∧ row.2.canAuthenticate ∧
      row.1.expiresAt.all (· > now)).map Prod.fst

/-- The statement of `UserSessionRepository.get_by_token`. -/
def userSessionRows (hashed : String) : List UserSession :=
  db.userSessions.select fun s => s.token = hashed ∧ s.expiresAt > now

/-- `get_one_or_none`; `none` where it raises. -/
def getOneOrNone {α : Type} [DecidableEq α] (rows : List α) : Option (Option α) :=
  match oneOrNone rows with
  | .ok row => some row
  | .error _ => none

/-- `_resolve_from_token`. -/
def resolveFromToken (token : String) : Except AuthError AuthPrincipal :=
  if startsWith token clientRegistrationTokenPrefix then .ok anonymousPrincipal
  else if startsWith token memberSessionTokenPrefix then
    match getOneOrNone (memberSessionRows db now (tokenHash token)) with
    | none => .error .server
    | some none => .error .invalidToken
    | some (some ms) =>
      match db.members.get ms.memberId with
      | none => .error .server
      | some member => .ok ⟨.member member, ["web:write"], some (.memberSession ms)⟩
  else if startsWith token customerSessionTokenPrefix then
    match getOneOrNone (customerSessionRows db now (tokenHash token)) with
    | none => .error .server
    | some none => .error .invalidToken
    | some (some cs) =>
      match db.customers.get cs.customerId with
      | none => .error .server
      | some customer => .ok ⟨.customer customer, ["web:write"], some (.customerSession cs)⟩
  else
    match getOneOrNone (workspaceAccessTokenRows db now (tokenHash token)) with
    | none => .error .server
    | some (some oat) =>
      match db.workspaces.get oat.workspaceId with
      | none => .error .server
      | some workspace =>
        .ok ⟨.workspace workspace, oat.scopes, some (.workspaceAccessToken oat)⟩
    | some none =>
      match getByAccessToken mixin tokenHash db token with
      | none => .error .server
      | some none => .error .invalidToken
      | some (some o2t) =>
        match o2t.sub db with
        | none => .error .server
        | some (.user user) => .ok ⟨.user user, o2t.scopes, some (.oauth2Token o2t)⟩
        | some (.workspace workspace) =>
          .ok ⟨.workspace workspace, o2t.scopes, some (.oauth2Token o2t)⟩

/-- `auth_service.authenticate`: the session of the cookie, if its user may authenticate. -/
def authenticate (request : Request) : Option (Option (UserSession × User)) :=
  match request.cookie with
  | none => some none
  | some token =>
    if token = "" ∨ isAscii token = false then some none
    else
      match getOneOrNone (userSessionRows db now (tokenHash token)) with
      | none => none
      | some none => some none
      | some (some session) =>
        match db.users.get session.userId with
        | none => none
        | some user => some (if user.canAuthenticate then some (session, user) else none)

/-- `get_auth_subject`. -/
def getAuthSubject (request : Request) : Except AuthError AuthPrincipal :=
  match getBearerToken request with
  | some token => resolveFromToken mixin tokenHash db now token
  | none =>
    match authenticate tokenHash db now request with
    | none => .error .server
    | some (some (session, user)) =>
      .ok ⟨.user user, session.scopes, some (.userSession session)⟩
    | some none => .ok anonymousPrincipal

/-! ### What the lookups find -/

variable {mixin tokenHash db now}

theorem getOneOrNone_eq_some_iff {α : Type} [DecidableEq α] {rows : List α} {a : α} :
    getOneOrNone rows = some (some a) ↔ a ∈ rows ∧ ∀ b ∈ rows, b = a := by
  rw [← oneOrNone_eq_some_iff, getOneOrNone]
  cases oneOrNone rows <;> simp

variable {hashed token : String} {ms : MemberSession} {cs : CustomerSession}

theorem mem_memberSessionRows :
    ms ∈ memberSessionRows db now hashed ↔
      ms ∈ db.memberSessions ∧ ms.token = hashed ∧ ms.deletedAt = none ∧ ms.expiresAt > now ∧
        ∃ m ∈ db.members.rows, m.id = ms.memberId ∧ m.deletedAt = none ∧
          ∃ c ∈ db.customers.rows, c.id = m.customerId := by
  simp only [memberSessionRows, List.mem_map, List.mem_filter, Prod.exists, mem_join,
    decide_eq_true_eq, Table.mem_def]
  constructor
  · rintro ⟨s, m, c, ⟨⟨⟨hs, hm, hsm⟩, hc, hmc⟩, htoken, hlive, hmlive, hexp⟩, rfl⟩
    exact ⟨hs, htoken, hlive, hexp, m, hm, hsm.symm, hmlive, c, hc, hmc.symm⟩
  · rintro ⟨hs, htoken, hlive, hexp, m, hm, hsm, hmlive, c, hc, hmc⟩
    exact ⟨ms, m, c, ⟨⟨⟨hs, hm, hsm.symm⟩, hc, hmc.symm⟩, htoken, hlive, hmlive, hexp⟩, rfl⟩

theorem mem_customerSessionRows :
    cs ∈ customerSessionRows db now hashed ↔
      cs ∈ db.customerSessions ∧ cs.token = hashed ∧ cs.deletedAt = none ∧ cs.expiresAt > now ∧
        ∃ c ∈ db.customers.rows, c.id = cs.customerId ∧ c.canAuthenticate := by
  simp only [customerSessionRows, List.mem_map, List.mem_filter, Prod.exists, mem_join,
    decide_eq_true_eq, Table.mem_def]
  constructor
  · rintro ⟨s, c, ⟨⟨hs, hc, hsc⟩, htoken, hlive, hauth, hexp⟩, rfl⟩
    exact ⟨hs, htoken, hlive, hexp, c, hc, hsc.symm, hauth⟩
  · rintro ⟨hs, htoken, hlive, hexp, c, hc, hsc, hauth⟩
    exact ⟨cs, c, ⟨⟨hs, hc, hsc.symm⟩, htoken, hlive, hauth, hexp⟩, rfl⟩

theorem mem_workspaceAccessTokenRows {t : WorkspaceAccessToken} :
    t ∈ workspaceAccessTokenRows db now hashed ↔
      t ∈ db.workspaceAccessTokens ∧ t.deletedAt = none ∧ t.token = hashed ∧
        t.expiresAt.all (· > now) ∧
        ∃ w ∈ db.workspaces.rows, w.id = t.workspaceId ∧ w.canAuthenticate := by
  simp only [workspaceAccessTokenRows, List.mem_map, List.mem_filter, Prod.exists, mem_join,
    decide_eq_true_eq, Table.mem_def]
  constructor
  · rintro ⟨t, w, ⟨⟨ht, hw, htw⟩, hlive, htoken, hauth, hexp⟩, rfl⟩
    exact ⟨ht, hlive, htoken, hexp, w, hw, htw.symm, hauth⟩
  · rintro ⟨ht, hlive, htoken, hexp, w, hw, htw, hauth⟩
    exact ⟨t, w, ⟨⟨ht, hw, htw.symm⟩, hlive, htoken, hauth, hexp⟩, rfl⟩

theorem getOneOrNone_customerSessionRows (h : cs ∈ customerSessionRows db now hashed) :
    getOneOrNone (customerSessionRows db now hashed) = some (some cs) := by
  refine getOneOrNone_eq_some_iff.mpr ⟨h, fun cs' h' => ?_⟩
  have hcs := mem_customerSessionRows.mp h
  have hcs' := mem_customerSessionRows.mp h'
  exact db.customerSessions_token.eq hcs'.1 hcs.1 (hcs'.2.1.trans hcs.2.1.symm)

theorem getOneOrNone_memberSessionRows (h : ms ∈ memberSessionRows db now hashed) :
    getOneOrNone (memberSessionRows db now hashed) = some (some ms) := by
  refine getOneOrNone_eq_some_iff.mpr ⟨h, fun ms' h' => ?_⟩
  have hms := mem_memberSessionRows.mp h
  have hms' := mem_memberSessionRows.mp h'
  exact db.memberSessions_token.eq hms'.1 hms.1 (hms'.2.1.trans hms.2.1.symm)

/-! ### What a principal comes from -/

/-- The ways a bearer token resolves to a principal. -/
inductive ResolvedFrom (mixin : TokenMixin) (tokenHash : String → String) (db : Database)
    (now : Time) (token : String) : AuthPrincipal → Prop
  | registration (h : startsWith token clientRegistrationTokenPrefix) :
    ResolvedFrom mixin tokenHash db now token anonymousPrincipal
  | memberSession (ms : MemberSession) (m : Member)
    (hother : startsWith token clientRegistrationTokenPrefix = false)
    (hstarts : startsWith token memberSessionTokenPrefix)
    (hrow : ms ∈ memberSessionRows db now (tokenHash token))
    (hget : db.members.get ms.memberId = some m) :
    ResolvedFrom mixin tokenHash db now token
      ⟨.member m, ["web:write"], some (.memberSession ms)⟩
  | customerSession (cs : CustomerSession) (c : Customer)
    (hother : startsWith token clientRegistrationTokenPrefix = false)
    (hother' : startsWith token memberSessionTokenPrefix = false)
    (hstarts : startsWith token customerSessionTokenPrefix)
    (hrow : cs ∈ customerSessionRows db now (tokenHash token))
    (hget : db.customers.get cs.customerId = some c) :
    ResolvedFrom mixin tokenHash db now token
      ⟨.customer c, ["web:write"], some (.customerSession cs)⟩
  | workspaceAccessToken (oat : WorkspaceAccessToken) (w : Workspace)
    (hrow : oat ∈ workspaceAccessTokenRows db now (tokenHash token))
    (hget : db.workspaces.get oat.workspaceId = some w) :
    ResolvedFrom mixin tokenHash db now token
      ⟨.workspace w, oat.scopes, some (.workspaceAccessToken oat)⟩
  | oauth2User (o2t : OAuth2Token) (u : User)
    (htoken : getByAccessToken mixin tokenHash db token = some (some o2t))
    (hsub : o2t.sub db = some (.user u)) :
    ResolvedFrom mixin tokenHash db now token
      ⟨.user u, o2t.scopes, some (.oauth2Token o2t)⟩
  | oauth2Workspace (o2t : OAuth2Token) (w : Workspace)
    (htoken : getByAccessToken mixin tokenHash db token = some (some o2t))
    (hsub : o2t.sub db = some (.workspace w)) :
    ResolvedFrom mixin tokenHash db now token
      ⟨.workspace w, o2t.scopes, some (.oauth2Token o2t)⟩

theorem resolveFromToken_cases {p : AuthPrincipal}
    (h : resolveFromToken mixin tokenHash db now token = .ok p) :
    ResolvedFrom mixin tokenHash db now token p := by
  rw [resolveFromToken] at h
  split at h
  next hreg =>
    obtain rfl := Except.ok.inj h
    exact .registration hreg
  next hreg =>
  have hreg' := Bool.eq_false_of_not_eq_true hreg
  split at h
  next hmem =>
    split at h
    · cases h
    · cases h
    next ms hrows =>
      split at h
      · cases h
      next m hget =>
        obtain rfl := Except.ok.inj h
        exact .memberSession ms m hreg' hmem (getOneOrNone_eq_some_iff.mp hrows).1 hget
  next hmem =>
  have hmem' := Bool.eq_false_of_not_eq_true hmem
  split at h
  next hcus =>
    split at h
    · cases h
    · cases h
    next cs hrows =>
      split at h
      · cases h
      next c hget =>
        obtain rfl := Except.ok.inj h
        exact .customerSession cs c hreg' hmem' hcus (getOneOrNone_eq_some_iff.mp hrows).1 hget
  next hcus =>
    split at h
    · cases h
    next oat hrows =>
      split at h
      · cases h
      next w hget =>
        obtain rfl := Except.ok.inj h
        exact .workspaceAccessToken oat w (getOneOrNone_eq_some_iff.mp hrows).1 hget
    next hrows =>
      split at h
      · cases h
      · cases h
      next o2t htoken =>
        split at h
        · cases h
        next u hsub =>
          obtain rfl := Except.ok.inj h
          exact .oauth2User o2t u htoken hsub
        next w hsub =>
          obtain rfl := Except.ok.inj h
          exact .oauth2Workspace o2t w htoken hsub

theorem resolveFromToken_customerSession {c : Customer}
    (hother : startsWith token clientRegistrationTokenPrefix = false)
    (hother' : startsWith token memberSessionTokenPrefix = false)
    (hstarts : startsWith token customerSessionTokenPrefix)
    (hrow : cs ∈ customerSessionRows db now (tokenHash token))
    (hget : db.customers.get cs.customerId = some c) :
    resolveFromToken mixin tokenHash db now token =
      .ok ⟨.customer c, ["web:write"], some (.customerSession cs)⟩ := by
  simp [resolveFromToken, hother, hother', hstarts, getOneOrNone_customerSessionRows hrow, hget]

theorem resolveFromToken_memberSession {m : Member}
    (hother : startsWith token clientRegistrationTokenPrefix = false)
    (hstarts : startsWith token memberSessionTokenPrefix)
    (hrow : ms ∈ memberSessionRows db now (tokenHash token))
    (hget : db.members.get ms.memberId = some m) :
    resolveFromToken mixin tokenHash db now token =
      .ok ⟨.member m, ["web:write"], some (.memberSession ms)⟩ := by
  simp [resolveFromToken, hother, hstarts, getOneOrNone_memberSessionRows hrow, hget]

theorem authenticate_cases {request : Request} {session : UserSession} {user : User}
    (h : authenticate tokenHash db now request = some (some (session, user))) :
    db.users.get session.userId = some user ∧ user.canAuthenticate := by
  rw [authenticate] at h
  split at h
  · cases h
  · split at h
    · cases h
    · split at h
      · cases h
      · cases h
      next s hrows =>
        split at h
        · cases h
        next u hget =>
          split at h
          next hauth =>
            obtain ⟨rfl, rfl⟩ := Prod.mk.inj (Option.some.inj (Option.some.inj h))
            exact ⟨hget, hauth⟩
          next hauth => cases h

end Rapidly.Identity.Auth
