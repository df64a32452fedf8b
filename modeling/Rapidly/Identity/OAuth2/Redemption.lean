import Rapidly.Identity.OAuth2.Token
import Rapidly.Transition.SingleUse

/-!
# Redeeming authorization codes and refresh tokens

A token request of either grant runs as one transaction: `query_authorization_code` or
`authenticate_refresh_token` looks the presented credential up by its hash, `save_token` inserts
the new pair, `delete_authorization_code` deletes the code or `revoke_old_credential` marks the
refresh token as revoked, and the dependency that provides the authorization server commits.
`tokenRequests` runs such requests side by side, as single-use credentials of a database
(`Transition.SingleUse`).

Nothing in the lookups locks the row, and neither the `DELETE` nor the `UPDATE` checks that it
still changes something. Two requests that look a credential up before either has committed are
both answered (`redeemed_twice`). `redeemedOnce_of_unspent` is what remains: one answer for each
credential, as long as every `DELETE` finds its code and every `UPDATE` its token unrevoked.

Authlib's two predicates on stored rows, `is_expired` of a code and `is_revoked` of a token, are
parameters; nothing is assumed of them.
-/

namespace Rapidly.Identity.OAuth2

open Relational Transition

/-- A row of `oauth2_authorization_codes`. -/
structure AuthorizationCode where
  id : Uuid
  /-- Hash of the code. -/
  code : String
  clientId : String
  scopes : List Scope := []
  subType : SubType := .user
  userId : Option Uuid := none
  workspaceId : Option Uuid := none
  /-- Seconds since the epoch. -/
  authTime : ℕ := 0
deriving DecidableEq

/-- A credential that a token request presents, by its hash. -/
inductive Credential where
  | authorizationCode (hash : String)
  | refreshToken (hash : String)
deriving DecidableEq

/-- A token request of a client that has been authenticated. -/
inductive TokenRequest where
  | authorizationCode (code clientId : String)
  | refreshToken (token clientId : String)
deriving DecidableEq

/-- The credential a request presents. -/
def TokenRequest.credential (tokenHash : String → String) : TokenRequest → Credential
  | .authorizationCode code _ => .authorizationCode (tokenHash code)
  | .refreshToken token _ => .refreshToken (tokenHash token)

/-- The tables of the two grants and the clock. Codes and tokens are drawn at random, so that no
two stored ones are the same and a code that is deleted is not drawn again. -/
structure GrantStore where
  codes : Table AuthorizationCode.id := Table.empty
  tokens : Table OAuth2Token.id := Table.empty
  /-- The hashes of the codes generated so far. -/
  generated : List String := []
  now : Time
  epoch : (1000000 : ℤ) ≤ now
  codes_code : codes.UniqueOn AuthorizationCode.code := by decide
  codes_generated : ∀ r ∈ codes.rows, r.code ∈ generated := by decide
  tokens_refreshToken : tokens.UniqueNullable OAuth2Token.refreshToken := by decide

/-- A time in seconds since the epoch, as a revocation column stores it. -/
abbrev RevokedAt := {t : ℕ // t ≠ 0}

/-- What the new pair takes from the credential's record. -/
structure Grantee where
  clientId : String
  scopes : List Scope
  subType : SubType
  userId : Option Uuid
  workspaceId : Option Uuid
deriving DecidableEq

/-- The pair that is generated for a request. -/
structure GeneratedToken where
  id : Uuid
  accessToken : String
  refreshToken : Option String := none
  expiresIn : ℕ := 0
deriving DecidableEq

/-- What a token request writes: the new pair, and the timestamp for the old one. -/
structure Exchange where
  token : OAuth2Token
  revokedAt : RevokedAt
deriving DecidableEq

/-- What else happens. -/
inductive GrantEvent where
  /-- `save_authorization_code`. -/
  | authorize (record : AuthorizationCode)
  /-- A token is revoked, by its owner or because it leaked. -/
  | revoke (id : Uuid) (refreshTokenToo : Bool)
  | pass (microseconds : ℕ)
  | request (request : TokenRequest)

variable (isExpired : AuthorizationCode → Time → Bool) (mixin : TokenMixin)
variable (tokenHash : String → String)

/-- The revocation columns of a token, rewritten by `revoke_token` and `revoke_leaked`. -/
def revokeColumns (revokedAt : RevokedAt) (refreshTokenToo : Bool) (t : OAuth2Token) :
    OAuth2Token :=
  { t with
    accessTokenRevokedAt := revokedAt
    refreshTokenRevokedAt := if refreshTokenToo then revokedAt else t.refreshTokenRevokedAt }

/-- `refresh_token.refresh_token_revoked_at = int(time.time())`. -/
def revokeRefreshToken (revokedAt : RevokedAt) (t : OAuth2Token) : OAuth2Token :=
  { t with refreshTokenRevokedAt := revokedAt }

namespace GrantStore

variable (s : GrantStore)

/-- `int(time.time())`. -/
def epochNow : RevokedAt := ⟨(s.now / 1000000).toNat, by have h := s.epoch; omega⟩

/-- `query_authorization_code`, `none` also where the query raises. -/
def queryAuthorizationCode (code clientId : String) : Option AuthorizationCode :=
  match oneOrNone (s.codes.select fun r => r.code = tokenHash code ∧ r.clientId = clientId) with
  | .ok (some record) => if isExpired record s.now then none else some record
  | _ => none

/-- `authenticate_refresh_token`, with the check of the client that Authlib makes of its answer. -/
def authenticateRefreshToken (refreshToken clientId : String) : Option OAuth2Token :=
  match oneOrNone (s.tokens.select fun r => r.refreshToken = some (tokenHash refreshToken)) with
  | .ok (some record) =>
    if mixin.isRevoked record then none
    else if record.clientId = clientId then some record
    else none
  | _ => none

/-- The lookup of either grant. -/
def lookup (request : TokenRequest) : Option (Credential × Grantee) :=
  match request with
  | .authorizationCode code clientId =>
    (s.queryAuthorizationCode isExpired tokenHash code clientId).map fun record =>
      (request.credential tokenHash,
        { clientId := record.clientId, scopes := record.scopes, subType := record.subType,
          userId := record.userId, workspaceId := record.workspaceId })
  | .refreshToken token clientId =>
    (s.authenticateRefreshToken mixin tokenHash token clientId).map fun record =>
      (request.credential tokenHash,
        { clientId := record.clientId, scopes := record.scopes, subType := record.subType,
          userId := record.userId, workspaceId := record.workspaceId })

/-- `AuthorizationServer.save_token`: the pair that is inserted. -/
def saveToken (grantee : Grantee) (token : GeneratedToken) : Exchange where
  token :=
    { id := token.id
      clientId := grantee.clientId
      accessToken := tokenHash token.accessToken
      refreshToken := token.refreshToken.map tokenHash
      scopes := grantee.scopes
      subType := grantee.subType
      userId := grantee.userId
      workspaceId := grantee.workspaceId
      issuedAt := s.epochNow
      expiresIn := token.expiresIn }
  revokedAt := s.epochNow

/-- The new pair can be inserted. -/
def Free (new : OAuth2Token) : Prop :=
  new.id ∉ s.tokens.rows.map OAuth2Token.id ∧
    new.accessToken ∉ s.tokens.rows.map OAuth2Token.accessToken ∧
    ∀ hash ∈ new.refreshToken, hash ∉ s.tokens.rows.filterMap OAuth2Token.refreshToken

instance (new : OAuth2Token) : Decidable (s.Free new) := inferInstanceAs (Decidable (_ ∧ _))

/-- `delete_authorization_code`: the code found by its hash. -/
def deleteAuthorizationCode (hash : String) : GrantStore :=
  { s with
    codes := s.codes.remove fun r => r.code = hash
    codes_code := s.codes_code.remove _
    codes_generated := fun r hr => s.codes_generated r (Table.mem_remove.mp hr).1 }

/-- `revoke_old_credential`: the token found by the hash of its refresh token. -/
def revokeOldCredential (hash : String) (revokedAt : RevokedAt) : GrantStore :=
  { s with
    tokens :=
      s.tokens.modify (·.refreshToken = some hash) (revokeRefreshToken revokedAt) fun _ => rfl
    tokens_refreshToken := s.tokens_refreshToken.modify fun _ => rfl }

/-- The credential is used up. -/
def consume (revokedAt : RevokedAt) : Credential → GrantStore
  | .authorizationCode hash => s.deleteAuthorizationCode hash
  | .refreshToken hash => s.revokeOldCredential hash revokedAt

/-- Insert a pair. -/
def insertToken (new : OAuth2Token) (h : s.Free new) : GrantStore :=
  { s with
    tokens := s.tokens.add new h.1
    tokens_refreshToken := s.tokens_refreshToken.add h.2.2 }

/-- The commit of a token request. -/
def commit (key : Credential) (exchange : Exchange) : Option GrantStore :=
  if h : s.Free exchange.token then
    some ((s.insertToken exchange.token h).consume exchange.revokedAt key)
  else none

/-- The row of a credential is there to be locked. -/
def present : Credential → Bool
  | .authorizationCode hash => s.codes.rows.any fun r => r.code = hash
  | .refreshToken hash => s.tokens.rows.any fun r => r.refreshToken = some hash

/-- `save_authorization_code`. -/
def saveAuthorizationCode (record : AuthorizationCode) : GrantStore :=
  if h : record.id ∉ s.codes.rows.map AuthorizationCode.id ∧ record.code ∉ s.generated then
    { s with
      codes := s.codes.add record h.1
      generated := record.code :: s.generated
      codes_code := s.codes_code.add fun hmem => by
        obtain ⟨r, hr, hcode⟩ := List.mem_map.mp hmem
        exact h.2 (hcode ▸ s.codes_generated r hr)
      codes_generated := fun r hr => by
        rcases Table.mem_add.mp hr with rfl | hr
        · exact List.mem_cons_self
        · exact List.mem_cons_of_mem _ (s.codes_generated r hr) }
  else s

/-- `revoke_token` and `revoke_leaked`. -/
def revoke (id : Uuid) (refreshTokenToo : Bool) : GrantStore :=
  { s with
    tokens := s.tokens.modify (·.id = id) (revokeColumns s.epochNow refreshTokenToo) fun _ => rfl
    tokens_refreshToken := s.tokens_refreshToken.modify fun _ => rfl }

/-- One event. -/
def arrive : GrantEvent → GrantStore × List TokenRequest
  | .authorize record => (s.saveAuthorizationCode record, [])
  | .revoke id refreshTokenToo => (s.revoke id refreshTokenToo, [])
  | .pass microseconds =>
    ({ s with
        now := s.now + microseconds
        epoch := s.epoch.trans (le_add_of_nonneg_right (Int.natCast_nonneg microseconds)) }, [])
  | .request request => (s, [request])

/-- The credential has been handed out: the code was generated, the token is stored. -/
def Issued : Credential → Prop
  | .authorizationCode hash => hash ∈ s.generated
  | .refreshToken hash => ∃ r ∈ s.tokens.rows, r.refreshToken = some hash

/-- The credential cannot be used again: the code is deleted, the token revoked. -/
def Spent : Credential → Prop
  | .authorizationCode hash => hash ∈ s.generated ∧ ∀ r ∈ s.codes.rows, r.code ≠ hash
  | .refreshToken hash => ∃ r ∈ s.tokens.rows, r.refreshToken = some hash ∧ r.Revoked

instance (key : Credential) : Decidable (s.Spent key) :=
  match key with
  | .authorizationCode hash =>
    inferInstanceAs (Decidable (hash ∈ s.generated ∧ ∀ r ∈ s.codes.rows, r.code ≠ hash))
  | .refreshToken hash =>
    inferInstanceAs (Decidable (∃ r ∈ s.tokens.rows, r.refreshToken = some hash ∧ r.Revoked))

end GrantStore

/-! ### What the operations do to a credential -/

namespace GrantStore

variable {isExpired mixin tokenHash} {s s' : GrantStore} {key : Credential}

theorem revoked_revokeColumns (t : OAuth2Token) (revokedAt : RevokedAt) (refreshTokenToo : Bool) :
    (revokeColumns revokedAt refreshTokenToo t).Revoked :=
  .inl revokedAt.property

theorem revoked_revokeRefreshToken (t : OAuth2Token) (revokedAt : RevokedAt) :
    (revokeRefreshToken revokedAt t).Revoked :=
  .inr revokedAt.property

/-- Rewriting tokens in a way that keeps the refresh tokens and clears no revocation. -/
theorem exists_token_modify {tokens : Table OAuth2Token.id} {hash : String}
    {q : OAuth2Token → Prop} (h : ∃ r ∈ tokens.rows, r.refreshToken = some hash ∧ q r)
    (p : OAuth2Token → Prop) [DecidablePred p] {f : OAuth2Token → OAuth2Token}
    (hid : ∀ r, (f r).id = r.id) (hrefresh : ∀ r, (f r).refreshToken = r.refreshToken)
    (hq : ∀ r, q r → q (f r)) :
    ∃ r ∈ (tokens.modify p f hid).rows, r.refreshToken = some hash ∧ q r := by
  obtain ⟨r, hr, hhash, hqr⟩ := h
  refine ⟨_, Table.mem_modify_of_mem hr hid, ?_⟩
  split
  · exact ⟨(hrefresh r).trans hhash, hq r hqr⟩
  · exact ⟨hhash, hqr⟩

theorem Issued.insertToken (h : s.Issued key) {new : OAuth2Token} (hfree : s.Free new) :
    (s.insertToken new hfree).Issued key := by
  rcases key with hash | hash
  · exact h
  · obtain ⟨r, hr, hhash⟩ := h
    exact ⟨r, List.mem_cons_of_mem _ hr, hhash⟩

theorem Spent.insertToken (h : s.Spent key) {new : OAuth2Token} (hfree : s.Free new) :
    (s.insertToken new hfree).Spent key := by
  rcases key with hash | hash
  · exact h
  · obtain ⟨r, hr, hhash⟩ := h
    exact ⟨r, List.mem_cons_of_mem _ hr, hhash⟩

theorem Issued.consume (h : s.Issued key) (revokedAt : RevokedAt) (key' : Credential) :
    (s.consume revokedAt key').Issued key := by
  rcases key' with hash' | hash'
  · rcases key with hash | hash
    · exact h
    · exact h
  · rcases key with hash | hash
    · exact h
    · obtain ⟨r, hr, hhash⟩ := h
      obtain ⟨r', hr', hhash', -⟩ := exists_token_modify (q := fun _ => True)
        ⟨r, hr, hhash, trivial⟩ (·.refreshToken = some hash')
        (f := revokeRefreshToken revokedAt) (fun _ => rfl) (fun _ => rfl) fun _ h => h
      exact ⟨r', hr', hhash'⟩

theorem Spent.consume (h : s.Spent key) (revokedAt : RevokedAt) (key' : Credential) :
    (s.consume revokedAt key').Spent key := by
  rcases key' with hash' | hash'
  · rcases key with hash | hash
    · exact ⟨h.1, fun r hr => h.2 r (Table.mem_remove.mp hr).1⟩
    · exact h
  · rcases key with hash | hash
    · exact h
    · exact exists_token_modify h _ (f := revokeRefreshToken revokedAt) (fun _ => rfl)
        (fun _ => rfl) fun r _ => revoked_revokeRefreshToken r revokedAt

/-- **Consuming spends.** The code is deleted, the token revoked. -/
theorem Issued.spent_consume (h : s.Issued key) (revokedAt : RevokedAt) :
    (s.consume revokedAt key).Spent key := by
  rcases key with hash | hash
  · exact ⟨h, fun r hr => (Table.mem_remove.mp hr).2⟩
  · obtain ⟨r, hr, hhash⟩ := h
    have hmem := Table.mem_modify_of_mem (Table.mem_def.mpr hr) (p := (·.refreshToken = some hash))
      (f := revokeRefreshToken revokedAt) fun _ => rfl
    rw [if_pos hhash] at hmem
    exact ⟨_, hmem, hhash, revoked_revokeRefreshToken r revokedAt⟩

theorem commit_eq_some {exchange : Exchange} (h : s.commit key exchange = some s') :
    ∃ hfree : s.Free exchange.token,
      s' = (s.insertToken exchange.token hfree).consume exchange.revokedAt key := by
  rw [commit] at h
  split at h
  next hfree => exact ⟨hfree, (Option.some.inj h).symm⟩
  next => cases h

theorem Issued.arrive (h : s.Issued key) (event : GrantEvent) : (s.arrive event).1.Issued key := by
  rcases event with record | ⟨id, refreshTokenToo⟩ | microseconds | request
  · rcases key with hash | hash
    · dsimp only [GrantStore.arrive, saveAuthorizationCode]
      split
      · exact List.mem_cons_of_mem _ h
      · exact h
    · dsimp only [GrantStore.arrive, saveAuthorizationCode]
      split
      · exact h
      · exact h
  · rcases key with hash | hash
    · exact h
    · obtain ⟨r, hr, hhash⟩ := h
      obtain ⟨r', hr', hhash', -⟩ := exists_token_modify (q := fun _ => True)
        ⟨r, hr, hhash, trivial⟩ (·.id = id)
        (f := revokeColumns s.epochNow refreshTokenToo) (fun _ => rfl) (fun _ => rfl)
        fun _ h => h
      exact ⟨r', hr', hhash'⟩
  · rcases key with hash | hash <;> exact h
  · exact h

theorem Spent.arrive (h : s.Spent key) (event : GrantEvent) : (s.arrive event).1.Spent key := by
  rcases event with record | ⟨id, refreshTokenToo⟩ | microseconds | request
  · rcases key with hash | hash
    · dsimp only [GrantStore.arrive, saveAuthorizationCode]
      split
      next hnew =>
        refine ⟨List.mem_cons_of_mem _ h.1, fun r hr => ?_⟩
        rcases List.mem_cons.mp hr with rfl | hr
        · rintro rfl
          exact hnew.2 h.1
        · exact h.2 r hr
      next => exact h
    · dsimp only [GrantStore.arrive, saveAuthorizationCode]
      split
      · exact h
      · exact h
  · rcases key with hash | hash
    · exact h
    · exact exists_token_modify h _ (f := revokeColumns s.epochNow refreshTokenToo)
        (fun _ => rfl) (fun _ => rfl) fun r _ => revoked_revokeColumns r _ refreshTokenToo
  · rcases key with hash | hash <;> exact h
  · exact h

theorem issued_of_queryAuthorizationCode {code clientId : String} {record : AuthorizationCode}
    (h : s.queryAuthorizationCode isExpired tokenHash code clientId = some record) :
    s.Issued (.authorizationCode (tokenHash code)) := by
  rw [queryAuthorizationCode] at h
  split at h
  next found hfind =>
    obtain ⟨hmem, -⟩ := oneOrNone_eq_some_iff.mp hfind
    obtain ⟨hr, hcode, -⟩ := Table.mem_select.mp hmem
    rw [Issued, ← hcode]
    exact s.codes_generated found hr
  next => cases h

theorem issued_of_authenticateRefreshToken {refreshToken clientId : String} {record : OAuth2Token}
    (h : s.authenticateRefreshToken mixin tokenHash refreshToken clientId = some record) :
    s.Issued (.refreshToken (tokenHash refreshToken)) := by
  rw [authenticateRefreshToken] at h
  split at h
  next found hfind =>
    obtain ⟨hmem, -⟩ := oneOrNone_eq_some_iff.mp hfind
    obtain ⟨hr, hrefresh⟩ := Table.mem_select.mp hmem
    exact ⟨found, hr, hrefresh⟩
  next => cases h

theorem issued_of_lookup {request : TokenRequest} {grantee : Grantee}
    (h : s.lookup isExpired mixin tokenHash request = some (key, grantee)) : s.Issued key := by
  rcases request with ⟨code, clientId⟩ | ⟨token, clientId⟩
  · obtain ⟨record, hrecord, heq⟩ := Option.map_eq_some_iff.mp h
    obtain rfl := (Prod.mk.inj heq).1
    exact issued_of_queryAuthorizationCode hrecord
  · obtain ⟨record, hrecord, heq⟩ := Option.map_eq_some_iff.mp h
    obtain rfl := (Prod.mk.inj heq).1
    exact issued_of_authenticateRefreshToken hrecord

theorem present_of_issued (hissued : s.Issued key) (hspent : ¬s.Spent key) :
    s.present key = true := by
  rcases key with hash | hash
  · by_contra habsent
    refine hspent ⟨hissued, fun r hr hcode => habsent ?_⟩
    exact List.any_eq_true.mpr ⟨r, hr, decide_eq_true hcode⟩
  · obtain ⟨r, hr, hhash⟩ := hissued
    exact List.any_eq_true.mpr ⟨r, hr, decide_eq_true hhash⟩

end GrantStore

/-- Token requests as transactions that redeem single-use credentials. -/
def tokenRequests (start : GrantStore) :
    SingleUse GrantStore Credential TokenRequest Grantee Exchange GeneratedToken GrantEvent where
  init := start
  arrive := GrantStore.arrive
  lookup := GrantStore.lookup isExpired mixin tokenHash
  work s _ grantee token := .finished (s.saveToken tokenHash grantee token)
  consume s _ exchange := { exchange with revokedAt := s.epochNow }
  present := GrantStore.present
  commit := GrantStore.commit

variable {isExpired mixin tokenHash}

theorem tokenRequests_lawful (start : GrantStore) :
    (tokenRequests isExpired mixin tokenHash start).Lawful GrantStore.Issued GrantStore.Spent where
  lookup_issued := GrantStore.issued_of_lookup
  present_of_issued := GrantStore.present_of_issued
  issued_arrive h event := h.arrive event
  spent_arrive h event := h.arrive event
  issued_commit h hcommit := by
    obtain ⟨hfree, rfl⟩ := GrantStore.commit_eq_some hcommit
    exact (h.insertToken hfree).consume _ _
  spent_commit h hcommit := by
    obtain ⟨hfree, rfl⟩ := GrantStore.commit_eq_some hcommit
    exact (h.insertToken hfree).consume _ _
  commit_spends h hcommit := by
    obtain ⟨hfree, rfl⟩ := GrantStore.commit_eq_some hcommit
    exact (h.insertToken hfree).spent_consume _

/-! ### One answer for each credential -/

/-- At most one request that presents a credential is answered with a new token. -/
def RedeemedOnce (log : List (Credential × Exchange)) : Prop :=
  ∀ key, (log.filter fun answer => answer.1 = key).length ≤ 1

/-- **Redeemed at most once.** In every run in which each `DELETE` still finds its code and each
`UPDATE` its token unrevoked, at most one request is answered for each credential. -/
theorem redeemedOnce_of_unspent (isExpired : AuthorizationCode → Time → Bool) (mixin : TokenMixin)
    (tokenHash : String → String) (start : GrantStore)
    {ls : List (Turn GrantEvent (Option GeneratedToken))}
    (h : (tokenRequests isExpired mixin tokenHash start).tasks.system.Along
      (SingleUse.Unspent GrantStore.Spent) ls) :
    RedeemedOnce ((tokenRequests isExpired mixin tokenHash start).tasks.system.log ls) :=
  SingleUse.length_filter_le_one ((tokenRequests_lawful start).nodup_accepted h)

/-- A code and a token pair of client `app`. -/
def oneOfEach : GrantStore where
  codes := Table.singleton { id := 1, code := "code", clientId := "app" }
  tokens := Table.singleton
    { id := 2, clientId := "app", accessToken := "access", refreshToken := some "refresh",
      subType := .user, issuedAt := 1, expiresIn := 3600 }
  generated := ["code"]
  now := 2000000
  epoch := by decide

/-- Two requests, both of which look the credential up before the first one commits. -/
def overlapping (request : TokenRequest) (first second : GeneratedToken) :
    List (Turn GrantEvent (Option GeneratedToken)) :=
  [.event (.request request), .event (.request request),
    .resumed 0 (some first), .resumed 1 (some second),
    .resumed 0 (some first), .resumed 1 (some second),
    .resumed 0 (some first), .resumed 0 (some first),
    .resumed 1 (some second), .resumed 1 (some second)]

/-- Two requests, one after the other: the second is refused. -/
theorem oneAfterTheOther_redeemedOnce :
    RedeemedOnce ((tokenRequests (fun _ _ => false) columnMixin id oneOfEach).tasks.system.log
      [.event (.request (.authorizationCode "code" "app")),
        .event (.request (.authorizationCode "code" "app")),
        .resumed 0 (some { id := 3, accessToken := "first" }),
        .resumed 0 (some { id := 3, accessToken := "first" }),
        .resumed 0 (some { id := 3, accessToken := "first" }),
        .resumed 0 (some { id := 3, accessToken := "first" }),
        .resumed 1 (some { id := 4, accessToken := "second" })]) :=
  redeemedOnce_of_unspent (fun _ _ => false) columnMixin id oneOfEach (by decide)

/-- A code and a refresh token are each redeemed by both of two overlapping requests. -/
theorem redeemed_twice :
    (¬∀ start ls, RedeemedOnce
      ((tokenRequests (fun _ _ => false) columnMixin id start).tasks.system.log ls)) ∧
    ((tokenRequests (fun _ _ => false) columnMixin id oneOfEach).tasks.system.log
      (overlapping (.refreshToken "refresh" "app") { id := 3, accessToken := "first" }
        { id := 4, accessToken := "second" })).map Prod.fst =
      [.refreshToken "refresh", .refreshToken "refresh"] := by
  refine ⟨fun h => ?_, by decide⟩
  have honce := h oneOfEach
    (overlapping (.authorizationCode "code" "app") { id := 3, accessToken := "first" }
      { id := 4, accessToken := "second" }) (.authorizationCode "code")
  revert honce
  decide

end Rapidly.Identity.OAuth2
