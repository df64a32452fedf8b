import Rapidly.Identity.Auth.Middleware

/-!
# Live principals

A request should act as a principal only while that principal and everything it belongs to is
live: not deleted, and for users and workspaces not blocked either (`Live`).

Deletion marks a row and leaves the credentials below it alone, so each lookup has to check
the whole chain above its credential. The lookups of session cookies, workspace access tokens
and OAuth2 tokens do. The customer-session lookup stops at the customer, and the
member-session lookup at the member, whose customer it joins without looking at its deletion
mark. `livePrincipal_iff` says exactly what is left open: the owners that these two lookups do
not look at (`OwnersLive`).
-/

namespace Rapidly.Identity.Auth

open Relational OAuth2

/-- The workspace exists and is neither deleted nor blocked. -/
def LiveWorkspace (db : Database) (workspaceId : Uuid) : Prop :=
  ∃ w ∈ db.workspaces.rows, w.id = workspaceId ∧ w.deletedAt = none ∧ w.blockedAt = none

instance (db : Database) (workspaceId : Uuid) : Decidable (LiveWorkspace db workspaceId) :=
  inferInstanceAs (Decidable (∃ w ∈ db.workspaces.rows, _))

/-- The customer exists, is not deleted, and its workspace is live. -/
def LiveCustomer (db : Database) (customerId : Uuid) : Prop :=
  ∃ c ∈ db.customers.rows,
    c.id = customerId ∧ c.deletedAt = none ∧ LiveWorkspace db c.workspaceId

instance (db : Database) (customerId : Uuid) : Decidable (LiveCustomer db customerId) :=
  inferInstanceAs (Decidable (∃ c ∈ db.customers.rows, _))

/-- The principal and everything it belongs to is live. -/
def Live (db : Database) : Subject → Prop
  | .anonymous => True
  | .user u => u.deletedAt = none ∧ u.blockedAt = none
  | .workspace w => w.deletedAt = none ∧ w.blockedAt = none
  | .customer c => c.deletedAt = none ∧ LiveWorkspace db c.workspaceId
  | .member m =>
    m.deletedAt = none ∧ LiveCustomer db m.customerId ∧ LiveWorkspace db m.workspaceId

/-- The owners that the session lookups do not look at are live: the workspace of a customer
whose session the token finds, and the customer and the workspace of a member whose session
it finds. -/
def OwnersLive (tokenHash : String → String) (db : Database) (now : Time) (token : String) :
    Prop :=
  (startsWith token customerSessionTokenPrefix →
    ∀ cs ∈ customerSessionRows db now (tokenHash token), ∀ c ∈ db.customers.rows,
      c.id = cs.customerId → LiveWorkspace db c.workspaceId) ∧
  (startsWith token memberSessionTokenPrefix →
    ∀ ms ∈ memberSessionRows db now (tokenHash token), ∀ m ∈ db.members.rows,
      m.id = ms.memberId → LiveCustomer db m.customerId ∧ LiveWorkspace db m.workspaceId)

variable {mixin : TokenMixin} {tokenHash : String → String} {db : Database} {now : Time}

theorem User.canAuthenticate_iff {u : User} :
    u.canAuthenticate = true ↔ u.deletedAt = none ∧ u.blockedAt = none := by
  simp [User.canAuthenticate]

theorem Workspace.canAuthenticate_iff {w : Workspace} :
    w.canAuthenticate = true ↔ w.deletedAt = none ∧ w.blockedAt = none := by
  simp [Workspace.canAuthenticate]

theorem startsWith_eq_false {s a : String} (b : String) (hlen : a.toList.length = b.toList.length)
    (hne : a ≠ b) (ha : startsWith s a) : startsWith s b = false := by
  refine Bool.eq_false_of_not_eq_true fun hb => hne (String.toList_inj.mp ?_)
  have ha' := List.isPrefixOf_iff_prefix.mp ha
  have hb' := List.isPrefixOf_iff_prefix.mp hb
  exact (List.prefix_of_prefix_length_le ha' hb' hlen.le).eq_of_length hlen

theorem canAuthenticate_of_getByAccessToken {token : String} {t : OAuth2Token} {sub : Sub}
    (h : getByAccessToken mixin tokenHash db token = some (some t)) (hsub : t.sub db = some sub) :
    sub.canAuthenticate := by
  obtain ⟨-, -, sub', hsub', hauth⟩ := getByAccessToken_eq_some_iff.mp h
  obtain rfl : sub = sub' := Option.some.inj (hsub.symm.trans hsub')
  exact hauth

/-- A principal resolved from a bearer token is live, provided the owners that the session
lookups skip are. -/
theorem live_of_resolvedFrom {token : String} {p : AuthPrincipal}
    (h : ResolvedFrom mixin tokenHash db now token p)
    (howners : OwnersLive tokenHash db now token) : Live db p.subject := by
  cases h with
  | registration => trivial
  | memberSession ms m hother hstarts hrow hget =>
    obtain ⟨hm, hid⟩ := Table.get_eq_some_iff.mp hget
    obtain ⟨-, -, -, -, m', hm', hid', hlive, -⟩ := mem_memberSessionRows.mp hrow
    obtain rfl : m' = m := Table.eq_of_key_eq hm' hm (hid'.trans hid.symm)
    exact ⟨hlive, howners.2 hstarts ms hrow m' hm' hid'⟩
  | customerSession cs c hother hother' hstarts hrow hget =>
    obtain ⟨hc, hid⟩ := Table.get_eq_some_iff.mp hget
    obtain ⟨-, -, -, -, c', hc', hid', hauth⟩ := mem_customerSessionRows.mp hrow
    obtain rfl : c' = c := Table.eq_of_key_eq hc' hc (hid'.trans hid.symm)
    exact ⟨by simpa [Customer.canAuthenticate] using hauth, howners.1 hstarts cs hrow c' hc' hid'⟩
  | workspaceAccessToken oat w hrow hget =>
    obtain ⟨hw, hid⟩ := Table.get_eq_some_iff.mp hget
    obtain ⟨-, -, -, -, w', hw', hid', hauth⟩ := mem_workspaceAccessTokenRows.mp hrow
    obtain rfl : w' = w := Table.eq_of_key_eq hw' hw (hid'.trans hid.symm)
    exact Workspace.canAuthenticate_iff.mp hauth
  | oauth2User o2t u htoken hsub =>
    exact User.canAuthenticate_iff.mp (canAuthenticate_of_getByAccessToken htoken hsub)
  | oauth2Workspace o2t w htoken hsub =>
    exact Workspace.canAuthenticate_iff.mp (canAuthenticate_of_getByAccessToken htoken hsub)

/-- When every principal a bearer token resolves to is live, so are the owners that the
session lookups skip. -/
theorem ownersLive_of_live {token : String}
    (h : ∀ p, resolveFromToken mixin tokenHash db now token = .ok p → Live db p.subject) :
    OwnersLive tokenHash db now token := by
  refine ⟨fun hstarts cs hrow c hc hid => ?_, fun hstarts ms hrow m hm hid => ?_⟩
  · have hreg := startsWith_eq_false clientRegistrationTokenPrefix
      (by decide) (by decide) hstarts
    have hmem := startsWith_eq_false memberSessionTokenPrefix
      (by decide) (by decide) hstarts
    have hget : db.customers.get cs.customerId = some c := Table.get_eq_some_iff.mpr ⟨hc, hid⟩
    exact (h _ (resolveFromToken_customerSession hreg hmem hstarts hrow hget)).2
  · have hreg := startsWith_eq_false clientRegistrationTokenPrefix
      (by decide) (by decide) hstarts
    have hget : db.members.get ms.memberId = some m := Table.get_eq_some_iff.mpr ⟨hm, hid⟩
    exact (h _ (resolveFromToken_memberSession hreg hstarts hrow hget)).2

/-- **Only live principals.** A request is resolved to live principals only exactly when its
bearer token, if it is a customer or member session, leaves no dead owner above the customer
or the member. -/
theorem livePrincipal_iff (mixin : TokenMixin) (tokenHash : String → String) (db : Database)
    (now : Time) (request : Request) :
    (∀ p, getAuthSubject mixin tokenHash db now request = .ok p → Live db p.subject) ↔
      ∀ token, getBearerToken request = some token → OwnersLive tokenHash db now token := by
  rw [getAuthSubject]
  cases getBearerToken request with
  | some token =>
    constructor
    · rintro h token' htoken
      obtain rfl := Option.some.inj htoken
      exact ownersLive_of_live h
    · intro h p hp
      exact live_of_resolvedFrom (resolveFromToken_cases hp) (h token rfl)
  | none =>
    refine ⟨fun _ => nofun, fun _ p hp => ?_⟩
    dsimp only at hp
    split at hp
    · cases hp
    next session user hsession =>
      obtain rfl := Except.ok.inj hp
      exact User.canAuthenticate_iff.mp (authenticate_cases hsession).2
    · obtain rfl := Except.ok.inj hp
      trivial

/-- A deleted customer, with a member who still has a session. -/
def deadOwners : Database :=
  { Database.empty with
    workspaces := Table.singleton { id := 10 }
    customers := Table.singleton { id := 21, workspaceId := 10, deletedAt := some 5 }
    members := Table.singleton { id := 30, customerId := 21, workspaceId := 10 }
    memberSessions := Table.singleton
      { id := 50, token := "rapidly_mst_x", memberId := 30, expiresAt := 100 }
    memberSessions_token := by decide
    customers_workspace := by decide
    members_customer := by decide
    members_workspace := by decide
    workspaceAccessTokens_workspace := by decide
    customerSessions_customer := by decide
    memberSessions_member := by decide }

/-- A member of a deleted customer still authenticates. -/
theorem deadOwners_authenticate :
    ¬∀ (mixin : TokenMixin) (tokenHash : String → String) (db : Database) (now : Time)
      (request : Request) (p : AuthPrincipal),
      getAuthSubject mixin tokenHash db now request = .ok p → Live db p.subject := by
  intro h
  have hlive := h columnMixin id deadOwners 10
    { authorization := ("Bearer", "rapidly_mst_x") }
    ⟨.member { id := 30, customerId := 21, workspaceId := 10 }, ["web:write"],
      some (.memberSession
        { id := 50, token := "rapidly_mst_x", memberId := 30, expiresAt := 100 })⟩ (by decide)
  have hcustomer : ¬LiveCustomer deadOwners 21 := by decide
  exact hcustomer hlive.2.1

end Rapidly.Identity.Auth
