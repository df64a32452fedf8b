import Rapidly.Identity.OAuth2.Grants
import Rapidly.Transition.System

/-!
# OAuth2 tokens

A stored token pair has one expiry, for its access token, and two revocation timestamps, one
for each half. `getByAccessToken` decides whether a bearer token authenticates a request,
`introspectionActive` is what the introspection endpoint reports about it.

`tokenHistory` runs the operations that change a token's status over a database: the
revocation endpoint, the refresh-token rotation, the leak report of a secret scanner, the
issue of new tokens, the passing of time, and arbitrary changes to every other table.

The columns and the two predicates `is_revoked` and `is_expired` come from Authlib's token
mixin, which is a parameter (`TokenMixin`); `TokenMixin.Lawful` is what its documentation
says of them. `revoked_after` is what the operations guarantee: a token that is revoked stays
revoked.
-/

namespace Rapidly.Identity

open Relational Transition

/-! ### Status of a token -/

/-- `expires_at`, in seconds since the epoch. -/
def OAuth2Token.expiresAt (t : OAuth2Token) : ℕ := t.issuedAt + t.expiresIn

/-- Either half of the pair has its revocation timestamp set. -/
def OAuth2Token.Revoked (t : OAuth2Token) : Prop :=
  t.accessTokenRevokedAt ≠ 0 ∨ t.refreshTokenRevokedAt ≠ 0

instance (t : OAuth2Token) : Decidable t.Revoked := inferInstanceAs (Decidable (_ ∨ _))

/-- The access token's lifetime has passed. -/
def OAuth2Token.Expired (t : OAuth2Token) (now : Time) : Prop :=
  (t.expiresAt : ℤ) * 1000000 < now

instance (t : OAuth2Token) (now : Time) : Decidable (t.Expired now) :=
  inferInstanceAs (Decidable (_ < _))

/-- `sub`: the user or workspace the token acts as; `none` where it raises. -/
def OAuth2Token.sub (t : OAuth2Token) (db : Database) : Option OAuth2.Sub :=
  match t.subType with
  | .user => (t.userId.bind db.users.get).map .user
  | .workspace => (t.workspaceId.bind db.workspaces.get).map .workspace

namespace OAuth2

/-- The predicates a stored token inherits from Authlib's mixin. -/
structure TokenMixin where
  isRevoked : OAuth2Token → Bool
  /-- At a time in microseconds. -/
  isExpired : OAuth2Token → Time → Bool

/-- What the mixin promises. -/
structure TokenMixin.Lawful (mixin : TokenMixin) : Prop where
  isRevoked_iff : ∀ t, mixin.isRevoked t = true ↔ t.Revoked
  isExpired_iff : ∀ t now, mixin.isExpired t now = true ↔ t.Expired now

/-- A mixin that computes its predicates from the columns. -/
def columnMixin : TokenMixin where
  isRevoked t := t.accessTokenRevokedAt ≠ 0 || t.refreshTokenRevokedAt ≠ 0
  isExpired t now := (t.expiresAt : ℤ) * 1000000 < now

theorem columnMixin_lawful : columnMixin.Lawful where
  isRevoked_iff t := by simp [columnMixin, OAuth2Token.Revoked]
  isExpired_iff t now := by simp [columnMixin, OAuth2Token.Expired]

/-- `can_authenticate` of a token's subject. -/
def Sub.canAuthenticate : Sub → Bool
  | .user u => u.canAuthenticate
  | .workspace w => w.canAuthenticate

variable (mixin : TokenMixin) (tokenHash : String → String)

/-- The query of `get_by_access_token`. -/
def findAccessToken (db : Database) (accessToken : String) :
    Except MultipleResultsFound (Option OAuth2Token) :=
  oneOrNone <| db.oauth2Tokens.select fun t => t.accessToken = tokenHash accessToken

/-- `OAuth2TokenService.get_by_access_token`; `none` where a query or `sub` raises. -/
def getByAccessToken (db : Database) (accessToken : String) : Option (Option OAuth2Token) :=
  match findAccessToken tokenHash db accessToken with
  | .error _ => none
  | .ok none => some none
  | .ok (some record) =>
    if mixin.isRevoked record then some none
    else
      match record.sub db with
      | none => none
      | some sub => some (if sub.canAuthenticate then some record else none)

/-- The `active` field of `get_introspection_data`. -/
def introspectionActive (t : OAuth2Token) (now : Time) : Bool :=
  !mixin.isRevoked t && !mixin.isExpired t now

variable {mixin tokenHash} in
theorem getByAccessToken_eq_some_iff {db : Database} {accessToken : String} {t : OAuth2Token} :
    getByAccessToken mixin tokenHash db accessToken = some (some t) ↔
      findAccessToken tokenHash db accessToken = .ok (some t) ∧ mixin.isRevoked t = false ∧
        ∃ sub, t.sub db = some sub ∧ sub.canAuthenticate := by
  rw [getByAccessToken]
  rcases findAccessToken tokenHash db accessToken with e | (_ | record)
  · simp
  · simp
  · constructor
    · intro h
      dsimp only at h
      split at h
      · cases h
      next hrevoked =>
        split at h
        · cases h
        next sub hsub =>
          split at h
          next hauth =>
            obtain rfl : record = t := Option.some.inj (Option.some.inj h)
            exact ⟨rfl, Bool.eq_false_of_not_eq_true hrevoked, sub, hsub, hauth⟩
          next hauth => cases h
    · rintro ⟨hfind, hrevoked, sub, hsub, hauth⟩
      obtain rfl : record = t := Option.some.inj (Except.ok.inj hfind)
      simp [hrevoked, hsub, hauth]

/-! ### The operations on tokens -/

/-- `token_type_hint`, and the type of a leaked token. -/
inductive TokenType where
  | accessToken
  | refreshToken
deriving DecidableEq

/-- The condition `query_token` puts on a stored token, for each hint. -/
def tokenMatches (hashed : String) (hint : Option TokenType) (t : OAuth2Token) : Bool :=
  match hint with
  | some .accessToken => t.accessToken = hashed
  | some .refreshToken => t.refreshToken = some hashed
  | none => t.accessToken = hashed || t.refreshToken = some hashed

/-- `_TokenLookupMixin.query_token`. -/
def queryToken (db : Database) (token : String) (hint : Option TokenType) :
    Except MultipleResultsFound (Option OAuth2Token) :=
  oneOrNone <| db.oauth2Tokens.select fun t => tokenMatches (tokenHash token) hint t

/-- The database and the clock; the clock is past the first second of the epoch, so that a
timestamp taken from it is not zero. -/
structure TokenState where
  db : Database
  now : Time
  epoch : (1000000 : ℤ) ≤ now

namespace TokenState

variable (s : TokenState)

/-- `int(time.time())`. -/
def epochNow : ℕ := (s.now / 1000000).toNat

theorem epochNow_ne_zero : s.epochNow ≠ 0 := by
  have h := s.epoch
  rw [epochNow]
  omega

/-- Rewrite one token. -/
def update (t : OAuth2Token) (f : OAuth2Token → OAuth2Token) (hf : ∀ r, (f r).id = r.id) :
    TokenState :=
  { s with db := { s.db with oauth2Tokens := s.db.oauth2Tokens.modify (·.id = t.id) f hf } }

/-- `save_token`: a fresh pair, issued now and not revoked. -/
def saveToken (new : OAuth2Token) : TokenState :=
  let record :=
    { new with
      issuedAt := s.epochNow, accessTokenRevokedAt := 0, refreshTokenRevokedAt := 0 }
  { s with db := { s.db with oauth2Tokens := s.db.oauth2Tokens.insert record } }

/-- `RevocationEndpoint.revoke_token`, of a token that belongs to the authenticated client. -/
def revokeToken (token : String) (hint : Option TokenType) (clientId : String) : TokenState :=
  match queryToken tokenHash s.db token hint with
  | .ok (some t) =>
    if t.clientId = clientId then
      s.update t
        (fun r =>
          { r with
            accessTokenRevokedAt := s.epochNow
            refreshTokenRevokedAt :=
              if hint ≠ some .accessToken then s.epochNow else r.refreshTokenRevokedAt })
        fun _ => rfl
    else s
  | _ => s

/-- `RefreshTokenGrant`: a new pair for a refresh token that is not revoked, which is then
revoked itself. -/
def refresh (refreshToken clientId : String) (new : OAuth2Token) : TokenState :=
  match queryToken tokenHash s.db refreshToken (some .refreshToken) with
  | .ok (some t) =>
    if mixin.isRevoked t = false ∧ t.clientId = clientId then
      (s.saveToken new).update t (fun r => { r with refreshTokenRevokedAt := s.epochNow })
        fun _ => rfl
    else s
  | _ => s

/-- `revoke_leaked`: both halves, unless the token is revoked already. -/
def revokeLeaked (token : String) (tokenType : TokenType) : TokenState :=
  match queryToken tokenHash s.db token (some tokenType) with
  | .ok (some t) =>
    if mixin.isRevoked t then s
    else
      s.update t
        (fun r =>
          { r with
            accessTokenRevokedAt := s.epochNow, refreshTokenRevokedAt := s.epochNow })
        fun _ => rfl
  | _ => s

end TokenState

/-- What happens to tokens, and to the world around them. -/
inductive TokenEvent where
  | revoke (token : String) (hint : Option TokenType) (clientId : String)
  | refresh (refreshToken clientId : String) (new : OAuth2Token)
  | reportLeaked (token : String) (tokenType : TokenType)
  | issue (new : OAuth2Token)
  | pass (microseconds : ℕ)
  /-- Every table but the tokens' changes. -/
  | others (db : Database)

/-- One event. -/
def tokenStep (s : TokenState) : TokenEvent → TokenState
  | .revoke token hint clientId => s.revokeToken tokenHash token hint clientId
  | .refresh refreshToken clientId new => s.refresh mixin tokenHash refreshToken clientId new
  | .reportLeaked token tokenType => s.revokeLeaked mixin tokenHash token tokenType
  | .issue new => s.saveToken new
  | .pass microseconds =>
    { s with
      now := s.now + microseconds
      epoch := s.epoch.trans (le_add_of_nonneg_right (Int.natCast_nonneg microseconds)) }
  | .others db => { s with db := { db with oauth2Tokens := s.db.oauth2Tokens } }

/-- The history of a database and a clock under the operations on tokens. -/
def tokenHistory (start : TokenState) : System TokenState TokenEvent Empty where
  init := start
  step s event := (tokenStep mixin tokenHash s event, [])

/-! ### Revocation is permanent -/

/-- The stored token of a given identifier is revoked. -/
def RevokedIn (s : TokenState) (id : Uuid) : Prop :=
  ∃ t ∈ s.db.oauth2Tokens.rows, t.id = id ∧ t.Revoked

section Revocation

variable {mixin tokenHash} {s : TokenState} {id : Uuid}

theorem RevokedIn.update (h : RevokedIn s id) {t : OAuth2Token}
    {f : OAuth2Token → OAuth2Token} {hf : ∀ r, (f r).id = r.id}
    (hrevoked : ∀ r, r.Revoked → (f r).Revoked) : RevokedIn (s.update t f hf) id := by
  obtain ⟨r, hr, rfl, hrev⟩ := h
  refine ⟨_, List.mem_map_of_mem hr, ?_, ?_⟩ <;> dsimp only <;> split
  · exact hf r
  · rfl
  · exact hrevoked r hrev
  · exact hrev

theorem RevokedIn.saveToken (h : RevokedIn s id) (new : OAuth2Token) :
    RevokedIn (s.saveToken new) id := by
  obtain ⟨r, hr, hid, hrev⟩ := h
  refine ⟨r, ?_, hid, hrev⟩
  dsimp only [TokenState.saveToken, Table.insert]
  split
  · exact hr
  · exact List.mem_cons_of_mem _ hr

theorem revoked_of_epochNow (s : TokenState) (t : OAuth2Token)
    (h : t.accessTokenRevokedAt = s.epochNow ∨ t.refreshTokenRevokedAt = s.epochNow) :
    t.Revoked := by
  rcases h with haccess | hrefresh
  · exact .inl (haccess.trans_ne s.epochNow_ne_zero)
  · exact .inr (hrefresh.trans_ne s.epochNow_ne_zero)

theorem RevokedIn.step (h : RevokedIn s id) (event : TokenEvent) :
    RevokedIn (tokenStep mixin tokenHash s event) id := by
  cases event with
  | revoke token hint clientId =>
    dsimp only [tokenStep, TokenState.revokeToken]
    split
    · split
      · exact h.update fun r _ => revoked_of_epochNow s _ (.inl rfl)
      · exact h
    · exact h
  | refresh refreshToken clientId new =>
    dsimp only [tokenStep, TokenState.refresh]
    split
    · split
      · exact (h.saveToken new).update fun r _ => revoked_of_epochNow s _ (.inr rfl)
      · exact h
    · exact h
  | reportLeaked token tokenType =>
    dsimp only [tokenStep, TokenState.revokeLeaked]
    split
    · split
      · exact h
      · exact h.update fun r _ => revoked_of_epochNow s _ (.inl rfl)
    · exact h
  | issue new => exact h.saveToken new
  | pass microseconds => exact h
  | others db => exact h

/-- **Revocation is permanent.** A token revoked at some point of a history is revoked at
every later point. -/
theorem revoked_after {start : TokenState} {events : List TokenEvent}
    (h : RevokedIn ((tokenHistory mixin tokenHash start).after events) id)
    (later : List TokenEvent) :
    RevokedIn ((tokenHistory mixin tokenHash start).after (events ++ later)) id := by
  induction later using List.reverseRecOn with
  | nil => rwa [List.append_nil]
  | append_singleton later event ih =>
    rw [← List.append_assoc, System.after_snoc]
    exact ih.step event

end Revocation

end OAuth2

end Rapidly.Identity
