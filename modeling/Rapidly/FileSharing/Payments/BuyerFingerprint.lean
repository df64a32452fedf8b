import Mathlib.Data.List.DropRight
import Rapidly.FileSharing.Payments.PaymentGate
import Rapidly.FileSharing.Payments.SavedCard
import Rapidly.KeyValue.Lifetime
import Rapidly.Net.IpAddress

/-!
# The buyer's fingerprint

A payment token is bound to the address the buyer had at the checkout, and is accepted on the
signaling WebSocket for the address the buyer has there. The routes of `api.py` ask
`resolve_client_ip` of `core/rate_limit.py`, which looks behind the proxies; `handle_signaling`
takes the peer of the socket.

* `tokensCarryOver_iff`: the two agree exactly when the client that the proxies report is the peer
  itself.
* `proxiedBuyer_rejected`: behind a load balancer they do not.
-/

namespace Rapidly.FileSharing.Payments

open Identity KeyValue

/-! ### Where a request comes from -/

/-- What the application sees of a connection, over HTTP or as a WebSocket: the headers, with
their names in lower case, and the peer of the socket, as the server reports it. -/
structure Scope where
  headers : List (String × String) := []
  /-- `client.host` -/
  client : Option String := none
deriving DecidableEq

/-- `str.isspace` of one character. -/
def isSpace (c : Char) : Bool :=
  c.toNat ∈ [0x20, 0x85, 0xa0, 0x1680, 0x2028, 0x2029, 0x202f, 0x205f, 0x3000] ||
    (9 ≤ c.toNat && c.toNat ≤ 13) || (0x1c ≤ c.toNat && c.toNat ≤ 0x1f) ||
    (0x2000 ≤ c.toNat && c.toNat ≤ 0x200a)

/-- `str.strip`. -/
def strip (text : List Char) : List Char := (text.dropWhile isSpace).rdropWhile isSpace

/-- `_is_trusted_proxy`. -/
def isTrustedProxy (ip : List Char) : Bool :=
  match Net.ipAddress ip with
  | none => false
  | some ip => ip.isPrivate || ip.isLoopback || ip.isLinkLocal

namespace Scope

variable (scope : Scope)

/-- The entries of `X-Forwarded-For`. -/
def forwardedFor : List (List Char) :=
  match scope.headers.lookup "x-forwarded-for" with
  | none => []
  | some xff => ((xff.toList.splitOn ',').map strip).filter (· ≠ [])

/-- `resolve_client_ip`: the last entry that is not a trusted proxy, else the peer. -/
def resolveClientIp : String :=
  match scope.forwardedFor.reverse.find? fun raw => !isTrustedProxy raw with
  | some raw => String.ofList raw
  | none => scope.client.getD "unknown"

/-- The client of a WebSocket, as `handle_signaling` has it. -/
def webSocketIp : String := scope.client.getD "unknown"

/-- The client that the proxies report has the digest of the socket's peer: the client is the
last entry of `X-Forwarded-For` that is no trusted proxy, if there is one. -/
def ReportsPeer (hashIp : String → String) : Prop :=
  ∀ left client right, scope.forwardedFor = left ++ client :: right →
    isTrustedProxy client = false → (∀ proxy ∈ right, isTrustedProxy proxy) →
      hashIp (String.ofList client) = hashIp scope.webSocketIp

theorem hashIp_resolveClientIp_iff (hashIp : String → String) :
    hashIp scope.resolveClientIp = hashIp scope.webSocketIp ↔ scope.ReportsPeer hashIp := by
  rw [resolveClientIp]
  constructor
  · intro h left client right hentries hclient hproxies
    have hfind : scope.forwardedFor.reverse.find? (fun raw => !isTrustedProxy raw) =
        some client := by
      refine List.find?_eq_some_iff_append.mpr ⟨by simp [hclient], right.reverse,
        left.reverse, by simp [hentries], fun proxy hproxy => ?_⟩
      simp [hproxies proxy (List.mem_reverse.mp hproxy)]
    rw [hfind] at h
    exact h
  · intro h
    split
    next client hfind =>
      obtain ⟨hclient, before, after, hsplit, hbefore⟩ :=
        List.find?_eq_some_iff_append.mp hfind
      refine h after.reverse client before.reverse ?_ (by simpa using hclient) ?_
      · have hreverse := congrArg List.reverse hsplit
        simpa using hreverse
      · intro proxy hproxy
        simpa using hbefore proxy (List.mem_reverse.mp hproxy)
    · rfl

end Scope

/-! ### The token's digest -/

section Tokens

variable {sha256 : String → String} {stripe : Stripe} {now later : ℕ} {redis : Redis}
  {session : AsyncSession} {subject : Auth.Subject} {slug shortSlug : Slug}
  {fingerprint : String} {paymentMethodId : Option Uuid} {token : Token}

/-- A checkout that stores a token adds its digest, with the fingerprint, to the channel's
tokens. -/
theorem sismember_createCheckoutRoute {member : BoundToken}
    (h : .tokenStored (.channel shortSlug) token ∈ (createCheckoutRoute sha256 stripe now redis
      session subject slug fingerprint paymentMethodId token).events) :
    (createCheckoutRoute sha256 stripe now redis session subject slug fingerprint
        paymentMethodId token).redis.paymentTokens.sismember now shortSlug member = true ↔
      member = ⟨sha256 token, fingerprint⟩ ∨
        redis.paymentTokens.sismember now shortSlug member = true := by
  rw [createCheckoutRoute] at h ⊢
  by_cases hslug : validSlug slug = true
  · rw [if_pos hslug] at h ⊢
    obtain ⟨-, hevents⟩ | ⟨stored, ttl, call, hevents, hredis⟩ :=
      @createCheckout_cases sha256 stripe now redis (some session) _ token
    · rw [hevents] at h
      exact absurd h List.not_mem_nil
    · rw [hevents] at h
      obtain rfl : shortSlug = stored := by simpa using h
      -- what waits for the provider's object is no member
      have htokens : ∀ id r, (Redis.storeCheckoutPaymentToken r now shortSlug id
          token).paymentTokens = r.paymentTokens := fun _ _ => rfl
      obtain hredis | ⟨id, -, hredis⟩ := hredis
      · rw [hredis, Redis.storePaymentToken]
        exact Store.sismember_expire_iff.trans Store.sismember_sadd_iff
      · rw [hredis, htokens, Redis.storePaymentToken]
        exact Store.sismember_expire_iff.trans Store.sismember_sadd_iff
  · rw [if_neg hslug] at h
    exact absurd h List.not_mem_nil

/-- An admitted reader of a paid channel gets in exactly with a token that is stored for the
reader's fingerprint. -/
theorem validateFileGuest_ok_iff {channel : ChannelData} {readerToken : Option String}
    (hchannel : redis.fetchChannel now slug = some channel)
    (hreader : readerAdmitted sha256 now redis channel readerToken) (hpaid : channel.isPaid)
    (htoken : token ≠ "") :
    (validateFileGuest sha256 now redis slug readerToken (some token) fingerprint).result =
        .ok true ↔
      redis.paymentTokens.sismember now channel.shortSlug ⟨sha256 token, fingerprint⟩ =
        true := by
  have htruthy : truthy (some token) = some token := Option.filter_eq_some_iff.mpr
    ⟨rfl, decide_eq_true htoken⟩
  rw [validateFileGuest, hchannel]
  dsimp only
  rw [hreader, hpaid, htruthy]
  simp only [Redis.validatePaymentToken]
  by_cases hmember : redis.paymentTokens.sismember now channel.shortSlug
    ⟨sha256 token, fingerprint⟩ = true
  · simp [hmember]
  · simp [hmember]

end Tokens

/-! ### From the checkout to the room -/

/-- Every token that a checkout from the scope stores for a channel admits its bearer, on a
WebSocket with the same scope, to the room of the paid channel: at any later time, as long as
the channel is there, its tokens are kept, and the bearer is an admitted reader. -/
def TokensCarryOver (sha256 hashIp : String → String) (scope : Scope) : Prop :=
  ∀ (stripe : Stripe) (now : ℕ) (redis : Redis) (session : AsyncSession)
    (subject : Auth.Subject) (slug : Slug) (paymentMethodId : Option Uuid) (token : Token)
    (shortSlug : Slug), token ≠ "" →
    let checkout := createCheckoutRoute sha256 stripe now redis session subject slug
      (hashIp scope.resolveClientIp) paymentMethodId token
    .tokenStored (.channel shortSlug) token ∈ checkout.events →
    ∀ (later : ℕ) (redis' : Redis) (slug' : Slug) (channel : ChannelData)
      (readerToken : Option String), redis'.fetchChannel later slug' = some channel →
      channel.shortSlug = shortSlug → channel.isPaid →
      readerAdmitted sha256 later redis' channel readerToken →
      (∀ member, checkout.redis.paymentTokens.sismember now shortSlug member →
        redis'.paymentTokens.sismember later shortSlug member) →
      (validateFileGuest sha256 later redis' slug' readerToken (some token)
        (hashIp scope.webSocketIp)).result = .ok true

/-- A provider whose sessions wait for the payment. -/
def waitingStripe : Stripe where
  createPaymentIntent _ := .error .mk
  createCheckoutSession _ := .ok { id := "cs_1", paymentStatus := "unpaid" }
  retrieveCheckoutSession _ _ := .error .mk

theorem tokensCarryOver_iff_hashIp_eq (sha256 hashIp : String → String) (scope : Scope) :
    TokensCarryOver sha256 hashIp scope ↔
      hashIp scope.resolveClientIp = hashIp scope.webSocketIp := by
  constructor
  · intro h
    -- a checkout of a channel for which no other token is stored
    let checkout := createCheckoutRoute sha256 waitingStripe 0 paidChannel { db := .empty }
      .anonymous "ab" (hashIp scope.resolveClientIp) none "token"
    have hstored : .tokenStored (.channel "ab") "token" ∈ checkout.events :=
      List.mem_cons_self
    have hresult := h waitingStripe 0 paidChannel { db := .empty } .anonymous "ab" none "token"
      "ab" (by decide) hstored 0 checkout.redis "ab" _ none rfl rfl rfl rfl fun _ => id
    rw [@validateFileGuest_ok_iff _ _ _ _ _ "token" _ _ rfl rfl rfl (by decide),
      sismember_createCheckoutRoute hstored] at hresult
    obtain heq | hold := hresult
    · exact (congrArg BoundToken.buyerFingerprint heq).symm
    · exact absurd hold Bool.false_ne_true
  · intro heq stripe now redis session subject slug paymentMethodId token shortSlug htoken
      checkout hstored later redis' slug' channel readerToken hchannel hshort hpaid hreader hkept
    rw [validateFileGuest_ok_iff hchannel hreader hpaid htoken, hshort, ← heq]
    exact hkept _ ((sismember_createCheckoutRoute hstored).mpr (.inl rfl))

/-- **Buyer fingerprint agreement.** A payment token that was bound to a buyer over HTTP is
accepted from the same buyer on the WebSocket exactly when the client that the proxies report is
the peer of the socket. -/
theorem tokensCarryOver_iff (sha256 hashIp : String → String) (scope : Scope) :
    TokensCarryOver sha256 hashIp scope ↔ scope.ReportsPeer hashIp := by
  rw [tokensCarryOver_iff_hashIp_eq, Scope.hashIp_resolveClientIp_iff]

/-- A buyer behind a load balancer. -/
def proxiedBuyer : Scope where
  headers := [("host", "rapidly.tech"), ("x-forwarded-for", "8.8.8.8")]
  client := some "10.0.0.1"

/-- The buyer's token is refused. -/
theorem proxiedBuyer_rejected :
    ¬∀ (sha256 hashIp : String → String) (scope : Scope),
      TokensCarryOver sha256 hashIp scope := by
  intro h
  have heq := (tokensCarryOver_iff_hashIp_eq id id proxiedBuyer).mp (h id id proxiedBuyer)
  have hhttp : proxiedBuyer.resolveClientIp = "8.8.8.8" := by decide +kernel
  have hsocket : proxiedBuyer.webSocketIp = "10.0.0.1" := rfl
  rw [hhttp, hsocket] at heq
  exact absurd heq (by decide)

end Rapidly.FileSharing.Payments
