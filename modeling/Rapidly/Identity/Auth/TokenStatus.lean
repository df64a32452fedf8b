import Rapidly.Identity.Auth.Middleware

/-!
# Two answers about one token

Whether an access token is good is decided in two places: the middleware lets it authenticate
a request, and the introspection endpoint reports it active. Both look at the same two
revocation timestamps. Only introspection looks at the expiry, and only the middleware at the
subject.

`tokenStatus_iff` compares the two at every point of every history of a token: the middleware
never accepts a token that introspection calls inactive exactly when no token that its lookup
finds is expired without also being revoked or without a subject. `expired_accepted` is a
token that outlives its expiry.
-/

namespace Rapidly.Identity.Auth

open Relational OAuth2 Transition

/-- The bearer token authenticates a request as the subject of the stored token `t`. -/
def Accepts (mixin : TokenMixin) (tokenHash : String → String) (db : Database) (now : Time)
    (token : String) (t : OAuth2Token) : Prop :=
  ∃ p, resolveFromToken mixin tokenHash db now token = .ok p ∧
    p.session = some (.oauth2Token t)

/-- The middleware comes to the stored token `t` for this bearer token: no prefix names
another store, and it is no workspace access token. -/
structure LooksUp (tokenHash : String → String) (db : Database) (now : Time) (token : String)
    (t : OAuth2Token) : Prop where
  not_registration : startsWith token clientRegistrationTokenPrefix = false
  not_member : startsWith token memberSessionTokenPrefix = false
  not_customer : startsWith token customerSessionTokenPrefix = false
  not_workspace : getOneOrNone (workspaceAccessTokenRows db now (tokenHash token)) = some none
  found : findAccessToken tokenHash db token = .ok (some t)

variable {mixin : TokenMixin} {tokenHash : String → String} {db : Database} {now : Time}
  {token : String} {t : OAuth2Token}

/-- **What the middleware accepts.** A token it comes to, not revoked, with a subject that may
authenticate. -/
theorem accepts_iff :
    Accepts mixin tokenHash db now token t ↔
      LooksUp tokenHash db now token t ∧ mixin.isRevoked t = false ∧
        ∃ sub, t.sub db = some sub ∧ sub.canAuthenticate := by
  constructor
  · rintro ⟨p, hresolve, hsession⟩
    rw [resolveFromToken] at hresolve
    -- the stores that are asked before give sessions of other kinds
    split at hresolve
    · obtain rfl := Except.ok.inj hresolve
      cases hsession
    next hreg =>
    split at hresolve
    · split at hresolve
      · cases hresolve
      · cases hresolve
      · split at hresolve
        · cases hresolve
        · obtain rfl := Except.ok.inj hresolve
          cases hsession
    next hmem =>
    split at hresolve
    · split at hresolve
      · cases hresolve
      · cases hresolve
      · split at hresolve
        · cases hresolve
        · obtain rfl := Except.ok.inj hresolve
          cases hsession
    next hcus =>
    split at hresolve
    · cases hresolve
    · split at hresolve
      · cases hresolve
      · obtain rfl := Except.ok.inj hresolve
        cases hsession
    next hworkspace =>
      have hdone : ∀ o2t, getByAccessToken mixin tokenHash db token = some (some o2t) →
          p.session = some (.oauth2Token o2t) → LooksUp tokenHash db now token t ∧
            mixin.isRevoked t = false ∧ ∃ sub, t.sub db = some sub ∧ sub.canAuthenticate := by
        intro o2t htoken hp
        obtain rfl : o2t = t := by
          simpa using hp.symm.trans hsession
        obtain ⟨hfound, hrevoked, hsub⟩ := getByAccessToken_eq_some_iff.mp htoken
        exact ⟨⟨Bool.eq_false_of_not_eq_true hreg, Bool.eq_false_of_not_eq_true hmem,
          Bool.eq_false_of_not_eq_true hcus, hworkspace, hfound⟩, hrevoked, hsub⟩
      split at hresolve
      · cases hresolve
      · cases hresolve
      next o2t htoken =>
        split at hresolve
        · cases hresolve
        · exact hdone o2t htoken (Except.ok.inj hresolve ▸ rfl)
        · exact hdone o2t htoken (Except.ok.inj hresolve ▸ rfl)
  · rintro ⟨hlook, hrevoked, sub, hsub, hauth⟩
    have htoken : getByAccessToken mixin tokenHash db token = some (some t) :=
      getByAccessToken_eq_some_iff.mpr ⟨hlook.found, hrevoked, sub, hsub, hauth⟩
    cases sub with
    | user u =>
      exact ⟨⟨.user u, t.scopes, some (.oauth2Token t)⟩, by
        simp [resolveFromToken, hlook.not_registration, hlook.not_member, hlook.not_customer,
          hlook.not_workspace, htoken, hsub], rfl⟩
    | workspace w =>
      exact ⟨⟨.workspace w, t.scopes, some (.oauth2Token t)⟩, by
        simp [resolveFromToken, hlook.not_registration, hlook.not_member, hlook.not_customer,
          hlook.not_workspace, htoken, hsub], rfl⟩

/-- The database and the clock after a history. -/
abbrev tokenStateAfter (mixin : TokenMixin) (tokenHash : String → String) (start : TokenState)
    (events : List TokenEvent) : TokenState :=
  (tokenHistory mixin tokenHash start).after events

/-- A revoked token is never accepted again, whatever happens afterwards. -/
theorem revoked_never_accepted (hmixin : mixin.Lawful) {start : TokenState}
    {events : List TokenEvent} (h : RevokedIn (tokenStateAfter mixin tokenHash start events) t.id)
    (later : List TokenEvent) :
    ¬Accepts mixin tokenHash (tokenStateAfter mixin tokenHash start (events ++ later)).db
      (tokenStateAfter mixin tokenHash start (events ++ later)).now token t := by
  intro haccepts
  obtain ⟨hlook, hnot, -⟩ := accepts_iff.mp haccepts
  obtain ⟨r, hr, hid, hrevoked⟩ := revoked_after h later
  have ht : t ∈ (tokenStateAfter mixin tokenHash start (events ++ later)).db.oauth2Tokens :=
    (Table.mem_select.mp (oneOrNone_eq_some_iff.mp hlook.found).1).1
  obtain rfl : r = t := Table.eq_of_key_eq hr ht hid
  rw [(hmixin.isRevoked_iff r).mpr hrevoked] at hnot
  cases hnot

theorem introspectionActive_iff (hmixin : mixin.Lawful) :
    introspectionActive mixin t now = true ↔ ¬t.Revoked ∧ ¬t.Expired now := by
  rw [← hmixin.isRevoked_iff, ← hmixin.isExpired_iff]
  simp [introspectionActive]

/-- **Token status agreement.** At any point of a history, the middleware accepts a bearer
token only if introspection reports it active, if and only if the token it comes to, once
expired, is revoked or has no subject that may authenticate. -/
theorem tokenStatus_iff (mixin : TokenMixin) (hmixin : mixin.Lawful)
    (tokenHash : String → String) (start : TokenState) (events : List TokenEvent)
    (token : String) :
    (∀ t, Accepts mixin tokenHash (tokenStateAfter mixin tokenHash start events).db
          (tokenStateAfter mixin tokenHash start events).now token t →
        introspectionActive mixin t (tokenStateAfter mixin tokenHash start events).now = true) ↔
      ∀ t, LooksUp tokenHash (tokenStateAfter mixin tokenHash start events).db
          (tokenStateAfter mixin tokenHash start events).now token t →
        t.Expired (tokenStateAfter mixin tokenHash start events).now →
        t.Revoked ∨ ∀ sub, t.sub (tokenStateAfter mixin tokenHash start events).db = some sub →
          sub.canAuthenticate = false := by
  constructor
  · intro h t hlook hexpired
    by_contra hlive
    obtain ⟨hrevoked, hdead⟩ := not_or.mp hlive
    obtain ⟨sub, hsub⟩ := not_forall.mp hdead
    obtain ⟨hsub, hauth⟩ := Classical.not_imp.mp hsub
    have hnot : mixin.isRevoked t = false :=
      Bool.eq_false_of_not_eq_true fun hr => hrevoked ((hmixin.isRevoked_iff t).mp hr)
    have hactive := h t (accepts_iff.mpr ⟨hlook, hnot, sub, hsub, by simpa using hauth⟩)
    exact ((introspectionActive_iff hmixin).mp hactive).2 hexpired
  · intro h t haccepts
    obtain ⟨hlook, hnot, sub, hsub, hauth⟩ := accepts_iff.mp haccepts
    have hrevoked : ¬t.Revoked := fun hr => by
      rw [(hmixin.isRevoked_iff t).mpr hr] at hnot
      cases hnot
    refine (introspectionActive_iff hmixin).mpr ⟨hrevoked, fun hexpired => ?_⟩
    rcases h t hlook hexpired with hr | hdead
    · exact hrevoked hr
    · rw [hdead sub hsub] at hauth
      cases hauth

/-- One user, an hour after the start of the epoch. -/
def oneUser : TokenState where
  db :=
    { Database.empty with
      users := Table.singleton { id := 1 }
      userSessions_user := by decide }
  now := 3600000000
  epoch := by decide

/-- A token of that user, good for ten seconds. -/
def shortToken : OAuth2Token :=
  { id := 7, clientId := "client", accessToken := "rapidly_at_u_x", subType := .user
    userId := some 1, issuedAt := 0, expiresIn := 10 }

/-- The token is issued, revoked at the revocation endpoint, and an hour passes. -/
def revokedHistory : List TokenEvent :=
  [.issue shortToken, .revoke "rapidly_at_u_x" none "client", .pass 3600000000]

/-- An expired token that was revoked before is not accepted. -/
theorem tokenStatus_iff_revoked :
    ¬Accepts columnMixin id (tokenStateAfter columnMixin id oneUser revokedHistory).db
      (tokenStateAfter columnMixin id oneUser revokedHistory).now "rapidly_at_u_x"
      { shortToken with
        issuedAt := 3600, accessTokenRevokedAt := 3600, refreshTokenRevokedAt := 3600 } := by
  intro haccepts
  have hrevoked : ∀ t, LooksUp id (tokenStateAfter columnMixin id oneUser revokedHistory).db
      (tokenStateAfter columnMixin id oneUser revokedHistory).now "rapidly_at_u_x" t →
      t.Revoked := by
    intro t hlook
    have ht := (oneOrNone_eq_some_iff.mp hlook.found).1
    obtain rfl : t =
        { shortToken with
          issuedAt := 3600, accessTokenRevokedAt := 3600, refreshTokenRevokedAt := 3600 } :=
      List.mem_singleton.mp ht
    decide
  have hactive := (tokenStatus_iff columnMixin columnMixin_lawful id oneUser revokedHistory
    "rapidly_at_u_x").mpr (fun t hlook _ => .inl (hrevoked t hlook)) _ haccepts
  exact absurd hactive (by decide)

/-- The token is revoked and another one issued. -/
theorem revoked_never_accepted_shortToken :
    ¬Accepts columnMixin id
      (tokenStateAfter columnMixin id oneUser (revokedHistory ++ [.issue shortToken])).db
      (tokenStateAfter columnMixin id oneUser (revokedHistory ++ [.issue shortToken])).now
      "rapidly_at_u_x"
      { shortToken with
        issuedAt := 3600, accessTokenRevokedAt := 3600, refreshTokenRevokedAt := 3600 } :=
  revoked_never_accepted columnMixin_lawful ⟨_, List.mem_singleton_self _, rfl, by decide⟩ _

/-- An expired token authenticates a request an hour after introspection stopped reporting it
active. -/
theorem expired_accepted :
    ¬∀ (mixin : TokenMixin) (_ : mixin.Lawful) (tokenHash : String → String)
      (start : TokenState) (events : List TokenEvent) (token : String) (t : OAuth2Token),
      Accepts mixin tokenHash (tokenStateAfter mixin tokenHash start events).db
          (tokenStateAfter mixin tokenHash start events).now token t →
        introspectionActive mixin t (tokenStateAfter mixin tokenHash start events).now =
          true := by
  intro h
  have hactive := h columnMixin columnMixin_lawful id oneUser
    [.issue shortToken, .pass 3600000000] "rapidly_at_u_x"
    { shortToken with issuedAt := 3600 } ⟨_, rfl, rfl⟩
  revert hactive
  decide

end Rapidly.Identity.Auth
