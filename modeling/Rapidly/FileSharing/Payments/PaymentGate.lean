import Rapidly.FileSharing.Payments.Checkout

/-!
# The payment gate

A buyer gets the content of a paid item for a payment token, and the token for a payment. The
token exists before the payment: it is generated with the checkout, its digest counts at once,
and it waits under the identifier of the provider's object. So everything hangs on the claim
of the token, which has three forms, and only one of them asks the provider and heeds a
refusal: a claim for a channel whose status call does not raise. A claim for a secret does not
ask, and a status call that raises is passed over.

* `PaidFirst` is the gate, at one request: a token is returned only when the provider reported
  the item's own object as paid, content is released only after such a report.
* `unpaidSecret_released` reads a paid secret without a payment.
* `paidFirst_iff_verified` is the exact condition: an unverified claim that finds a token is
  for an object that was reported as paid before.

The argument follows a token through the log (`Accounted`): whatever is stored was generated
for that item and waits under one of the item's own objects, a digest belongs to one item, and
every returned token is paid for.
-/

namespace Rapidly.FileSharing.Payments

open Identity KeyValue Transition

/-! ### The server as a transition system -/

/-- The memory of the server, and the time in milliseconds. -/
structure World where
  redis : Redis := {}
  now : ℕ := 0

/-- A request, with everything that others decide about it: how the provider answers, what
the database holds, which token is generated. -/
inductive Request where
  | createCheckout (stripe : Stripe) (session : Option AsyncSession)
      (request : CheckoutRequest) (token : Token)
  | claimCheckoutPaymentToken (stripe : Stripe) (slug : Slug) (checkoutSessionId : String)
  | validateFileGuest (slug : Slug) (readerToken paymentToken : Option String)
      (buyerFingerprint : String)
  | createSecretCheckout (stripe : Stripe) (kind : Kind) (secretId buyerFingerprint : String)
      (token : Token)
  | claimSecretCheckoutPaymentToken (kind : Kind) (secretId checkoutSessionId : String)
  | fetchSecretOrFile (kind : Kind) (itemId : String) (paymentToken : Option Token)
      (buyerFingerprint : String)
  | deleteChannel (channel : ChannelData)
  /-- Time passes. -/
  | elapsed (milliseconds : ℕ)
  /-- Channels, secrets and reader tokens are created, renewed or removed. -/
  | others (channels : Store Slug ChannelData) (items : Store (Kind × String) SecretData)
      (readerTokens : Store Slug String) (pendingTokens : Store Slug Unit)

/-- The token a request generates. -/
def Request.generated : Request → Option Token
  | createCheckout _ _ _ token | createSecretCheckout _ _ _ _ token => some token
  | _ => none

/-- The token a request presents. -/
def Request.presented : Request → Option Token
  | validateFileGuest _ _ paymentToken _ | fetchSecretOrFile _ _ paymentToken _ =>
    truthy paymentToken
  | _ => none

section Step

variable (sha256 : String → String)

/-- What an action leaves behind and does. -/
def World.reply {α : Type} (w : World) (r : Reply α) : World × List Event :=
  ({ w with redis := r.redis }, r.events)

/-- One request. -/
def step (w : World) : Request → World × List Event
  | .createCheckout stripe session request token =>
    w.reply (createCheckout sha256 stripe w.now w.redis session request token)
  | .claimCheckoutPaymentToken stripe slug id =>
    w.reply (claimCheckoutPaymentToken stripe w.now w.redis slug id)
  | .validateFileGuest slug readerToken paymentToken fingerprint =>
    w.reply (validateFileGuest sha256 w.now w.redis slug readerToken paymentToken fingerprint)
  | .createSecretCheckout stripe kind id fingerprint token =>
    w.reply (createSecretCheckout sha256 stripe w.now w.redis kind id fingerprint token)
  | .claimSecretCheckoutPaymentToken kind id sessionId =>
    w.reply (claimSecretCheckoutPaymentToken w.now w.redis kind id sessionId)
  | .fetchSecretOrFile kind id paymentToken fingerprint =>
    w.reply (fetchSecretOrFile sha256 w.now w.redis kind id paymentToken fingerprint)
  | .deleteChannel channel => ({ w with redis := w.redis.deleteChannel channel }, [])
  | .elapsed milliseconds => ({ w with now := w.now + milliseconds }, [])
  | .others channels items readerTokens pendingTokens =>
    ({ w with redis := { w.redis with channels, items, readerTokens, pendingTokens } }, [])

/-- The server, from an empty store. -/
def server : System World Request Event where
  init := {}
  step := step sha256

end Step

/-! ### What the log says -/

/-- The item and the object an event creates at the provider. -/
def Event.created : Event → Option (Item × String)
  | stripe item call => call.created.map (item, ·)
  | _ => none

/-- The item and the object the provider reports as paid. -/
def Event.reportedPaid : Event → Option (Item × String)
  | stripe item call => call.reportedPaid.map (item, ·)
  | _ => none

/-- The item and the token an event stores. -/
def Event.stored : Event → Option (Item × Token)
  | tokenStored item token => some (item, token)
  | _ => none

/-- The item, the object and the token of a claim. -/
def Event.returned : Event → Option (Item × String × Token)
  | tokenReturned item objectId token => some (item, objectId, token)
  | _ => none

/-- The object was created at the provider for the item. -/
def Created (log : List Event) (item : Item) (objectId : String) : Prop :=
  (item, objectId) ∈ log.filterMap Event.created

/-- The object is the item's own and the provider reported it as paid. -/
def Confirmed (log : List Event) (item : Item) (objectId : String) : Prop :=
  Created log item objectId ∧ (item, objectId) ∈ log.filterMap Event.reportedPaid

/-- The token was generated for the item. -/
def Stored (log : List Event) (item : Item) (token : Token) : Prop :=
  (item, token) ∈ log.filterMap Event.stored

instance (log : List Event) (item : Item) (objectId : String) :
    Decidable (Confirmed log item objectId) := inferInstanceAs (Decidable (_ ∈ _ ∧ _ ∈ _))

/-- What an event of a request needs: the log before the request, and the events of the
request itself. -/
def Event.PaidIn (log events : List Event) : Event → Prop
  | tokenReturned item objectId _ => Confirmed (log ++ events) item objectId
  | contentReleased item => ∃ objectId, Confirmed log item objectId
  | _ => True

/-- The gate at one request. -/
def PaidFirst (sha256 : String → String) : System.Condition World Request :=
  fun past w request => ∀ e ∈ (step sha256 w request).2,
    e.PaidIn ((server sha256).log past) (step sha256 w request).2

/-- The claim of a channel's token goes ahead without learning the payment status: the channel
has no seller account, or the call raises. -/
def unverified (stripe : Stripe) (now : ℕ) (redis : Redis) (slug : Slug) (objectId : String) :
    Bool :=
  match redis.fetchChannel now slug with
  | none => false
  | some channel =>
    match truthy channel.sellerStripeId with
    | none => true
    | some account =>
      match stripe.retrieveCheckoutSession objectId account with
      | .ok _ => false
      | .error _ => true

/-- An unverified claim that finds a token is for an object that was reported as paid. -/
def Verified (sha256 : String → String) : System.Condition World Request :=
  fun past w request =>
    match request with
    | .claimCheckoutPaymentToken stripe slug id =>
      unverified stripe w.now w.redis slug id →
        (w.redis.checkoutTokens.get w.now (slug, id)).isSome →
        Confirmed ((server sha256).log past) (.channel slug) id
    | .claimSecretCheckoutPaymentToken kind id sessionId =>
      (w.redis.peek w.now kind id).isSome →
        (w.redis.secretCheckoutTokens.get w.now (id, sessionId)).isSome →
        Confirmed ((server sha256).log past) (.secret id) sessionId
    | _ => True

instance (sha256 : String → String) (past : List Request) (w : World) (request : Request) :
    Decidable (Verified sha256 past w request) := by
  unfold Verified
  split <;> infer_instance

/-- Tokens are random: the digest of a fresh one is new, and one that is presented with the
digest of a stored one was returned to a buyer. -/
def Unguessed (sha256 : String → String) : System.Condition World Request :=
  fun past _ request =>
    (∀ token ∈ request.generated.toList,
      ∀ p ∈ ((server sha256).log past).filterMap Event.stored, sha256 p.2 ≠ sha256 token) ∧
    ∀ token ∈ request.presented.toList,
      (∃ p ∈ ((server sha256).log past).filterMap Event.stored, sha256 p.2 = sha256 token) →
      ∃ p ∈ ((server sha256).log past).filterMap Event.returned, p.2.2 = token

instance (sha256 : String → String) (past : List Request) (w : World) (request : Request) :
    Decidable (Unguessed sha256 past w request) :=
  inferInstanceAs (Decidable ((∀ token ∈ _, ∀ p ∈ _, _) ∧ ∀ token ∈ _, _ → ∃ p ∈ _, _))

/-! ### The log grows -/

section Log

variable {log log' : List Event} {item : Item} {objectId : String} {token : Token}

theorem Created.mono (h : Created log item objectId) (hsub : log ⊆ log') :
    Created log' item objectId := List.filterMap_subset _ hsub h

theorem Confirmed.mono (h : Confirmed log item objectId) (hsub : log ⊆ log') :
    Confirmed log' item objectId := ⟨h.1.mono hsub, List.filterMap_subset _ hsub h.2⟩

theorem Stored.mono (h : Stored log item token) (hsub : log ⊆ log') :
    Stored log' item token := List.filterMap_subset _ hsub h

theorem confirmed_append_iff {es : List Event} (hcreated : es.filterMap Event.created = [])
    (hpaid : es.filterMap Event.reportedPaid = []) :
    Confirmed (log ++ es) item objectId ↔ Confirmed log item objectId := by
  simp only [Confirmed, Created, List.filterMap_append, hcreated, hpaid, List.append_nil]

end Log

/-! ### One lemma per action -/

section Actions

variable {sha256 : String → String} {stripe : Stripe} {now : ℕ} {redis : Redis}

/-- A checkout that got as far as the provider: the token is stored, and waits under the object
when one was created. -/
def Opens (item : Item) (token : Token) (stored : Redis) (put : String → Redis)
    (r : Reply (Option CheckoutResponse)) : Prop :=
  ∃ call, r.events = [.tokenStored item token, .stripe item call] ∧
    (r.redis = stored ∨ ∃ id, call.created = some id ∧ r.redis = put id)

theorem chargeSavedCard_cases (channel : ChannelData) (terms : Terms) (pm : PaymentMethod)
    (stripeCustomerId fingerprint : String) (token : Token) :
    let r := chargeSavedCard stripe now redis channel terms pm stripeCustomerId fingerprint token
    ∃ call, r.events = [.stripe (.channel channel.shortSlug) call] ∧
      (r.redis = redis ∨ ∃ id, call.created = some id ∧
        r.redis = redis.storeCheckoutPaymentToken now channel.shortSlug id token) := by
  rw [chargeSavedCard]
  split
  · exact ⟨_, rfl, .inl rfl⟩
  next intent hintent =>
    refine ⟨_, rfl, .inr ⟨intent.id, ?_, rfl⟩⟩
    rw [hintent]
    rfl

theorem openCheckoutSession_cases (channel : ChannelData) (terms : Terms)
    (fingerprint : String) (token : Token) :
    let r := openCheckoutSession stripe now redis channel terms fingerprint token
    ∃ call, r.events = [.stripe (.channel channel.shortSlug) call] ∧
      (r.redis = redis ∨ ∃ id, call.created = some id ∧
        r.redis = redis.storeCheckoutPaymentToken now channel.shortSlug id token) := by
  rw [openCheckoutSession]
  split
  · exact ⟨_, rfl, .inl rfl⟩
  next session hsession =>
    refine ⟨_, rfl, .inr ⟨session.id, ?_, rfl⟩⟩
    rw [hsession]
    rfl

theorem createCheckout_cases (session : Option AsyncSession) (request : CheckoutRequest)
    (token : Token) :
    let r := createCheckout sha256 stripe now redis session request token
    (r.redis = redis ∧ r.events = []) ∨
      ∃ slug ttl,
        let stored := redis.storePaymentToken now slug (sha256 token) ttl
          request.buyerFingerprint;
        Opens (.channel slug) token stored
          (fun id => stored.storeCheckoutPaymentToken now slug id token) r := by
  rw [createCheckout]
  dsimp only
  split
  · exact .inl ⟨rfl, rfl⟩
  next channel hchannel =>
    split
    · exact .inl ⟨rfl, rfl⟩
    next terms hterms =>
      split
      · exact .inl ⟨rfl, rfl⟩
      · refine .inr ⟨channel.shortSlug, (redis.channels.ttl now channel.shortSlug).toNat, ?_⟩
        split
        next pm sid hcard =>
          obtain ⟨call, hevents, hredis⟩ := chargeSavedCard_cases channel terms pm sid
            request.buyerFingerprint token
          exact ⟨call, by rw [hevents], hredis⟩
        next hcard =>
          obtain ⟨call, hevents, hredis⟩ := openCheckoutSession_cases channel terms
            request.buyerFingerprint token
          exact ⟨call, by rw [hevents], hredis⟩

theorem createSecretCheckout_cases (kind : Kind) (secretId fingerprint : String)
    (token : Token) :
    let r := createSecretCheckout sha256 stripe now redis kind secretId fingerprint token
    (r.redis = redis ∧ r.events = []) ∨
      ∃ ttl,
        let stored := redis.storeSecretPaymentToken now secretId (sha256 token) ttl fingerprint;
        Opens (.secret secretId) token stored
          (fun id => stored.storeSecretCheckoutPaymentToken now secretId id token) r := by
  unfold createSecretCheckout
  dsimp only
  split
  · exact .inl ⟨rfl, rfl⟩
  · split
    · split
      · exact .inl ⟨rfl, rfl⟩
      · split
        · exact .inr ⟨_, _, rfl, .inl rfl⟩
        next session hsession =>
          refine .inr ⟨_, _, rfl, .inr ⟨session.id, ?_, rfl⟩⟩
          rw [hsession]
          rfl
    · exact .inl ⟨rfl, rfl⟩
    · exact .inl ⟨rfl, rfl⟩

/-- The events are status calls for the object. -/
def Asks (slug : Slug) (objectId : String) (events : List Event) : Prop :=
  ∀ e ∈ events, ∃ account answer,
    e = .stripe (.channel slug) (.retrieveCheckoutSession objectId account answer)

theorem Asks.nil {slug : Slug} {objectId : String} : Asks slug objectId [] :=
  fun _ he => absurd he List.not_mem_nil

/-- The claim of a channel's token is refused, or it takes what waits under the object: after a
status call that reported it as paid, or unverified. -/
theorem claimCheckoutPaymentToken_cases (slug : Slug) (objectId : String) :
    let r := claimCheckoutPaymentToken stripe now redis slug objectId
    (r.redis = redis ∧ Asks slug objectId r.events ∧
        unverified stripe now redis slug objectId = false) ∨
      ∃ calls, Asks slug objectId calls ∧
        r.redis = (redis.claimCheckoutPaymentToken now slug objectId).2 ∧
        r.events = calls ++ (redis.checkoutTokens.get now (slug, objectId)).toList.map
          (.tokenReturned (.channel slug) objectId ·) ∧
        (unverified stripe now redis slug objectId → calls.filterMap Event.reportedPaid = []) ∧
        (¬unverified stripe now redis slug objectId →
          (.channel slug, objectId) ∈ calls.filterMap Event.reportedPaid) := by
  have hasks : ∀ account answer, Asks slug objectId
      [.stripe (.channel slug) (.retrieveCheckoutSession objectId account answer)] :=
    fun account answer e he => ⟨account, answer, List.mem_singleton.mp he⟩
  rw [claimCheckoutPaymentToken]
  cases hchannel : redis.fetchChannel now slug with
  | none => exact .inl ⟨rfl, .nil, by simp [unverified, hchannel]⟩
  | some channel =>
    dsimp only
    cases haccount : truthy channel.sellerStripeId with
    | none =>
      have hun : unverified stripe now redis slug objectId = true := by
        simp [unverified, hchannel, haccount]
      exact .inr ⟨[], .nil, rfl, rfl, fun _ => rfl, fun hnot => absurd hun hnot⟩
    | some account =>
      dsimp only
      cases hanswer : stripe.retrieveCheckoutSession objectId account with
      | ok cs =>
        have hun : ¬unverified stripe now redis slug objectId = true := by
          simp [unverified, hchannel, haccount, hanswer]
        dsimp only
        by_cases hpaid : cs.paymentStatus = "paid"
        · rw [if_neg (not_not.mpr hpaid)]
          refine .inr ⟨_, hasks account _, rfl, rfl, fun h => absurd h hun, fun _ => ?_⟩
          simp [Event.reportedPaid, StripeCall.reportedPaid, hpaid]
        · rw [if_pos hpaid]
          exact .inl ⟨rfl, hasks account _, by simpa using hun⟩
      | error err =>
        have hun : unverified stripe now redis slug objectId = true := by
          simp [unverified, hchannel, haccount, hanswer]
        exact .inr ⟨_, hasks account _, rfl, rfl, fun _ => rfl, fun hnot => absurd hun hnot⟩

theorem claimSecretCheckoutPaymentToken_cases (kind : Kind) (secretId objectId : String) :
    let r := claimSecretCheckoutPaymentToken now redis kind secretId objectId
    (r.redis = redis ∧ r.events = []) ∨
      (redis.peek now kind secretId).isSome ∧
        r.redis = (redis.claimSecretCheckoutPaymentToken now secretId objectId).2 ∧
        r.events = (redis.secretCheckoutTokens.get now (secretId, objectId)).toList.map
          (.tokenReturned (.secret secretId) objectId ·) := by
  rw [claimSecretCheckoutPaymentToken]
  split
  · exact .inl ⟨rfl, rfl⟩
  next secret hsecret => exact .inr ⟨by rw [hsecret]; rfl, rfl, rfl⟩

/-- A paid channel admits a downloader only for a token among the channel's tokens. -/
theorem validateFileGuest_cases (slug : Slug) (readerToken paymentToken : Option String)
    (fingerprint : String) :
    let r := validateFileGuest sha256 now redis slug readerToken paymentToken fingerprint
    r.redis = redis ∧ (r.events = [] ∨ ∃ shortSlug token,
      r.events = [.contentReleased (.channel shortSlug)] ∧ truthy paymentToken = some token ∧
        redis.paymentTokens.sismember now shortSlug ⟨sha256 token, fingerprint⟩ = true) := by
  rw [validateFileGuest]
  split
  · exact ⟨rfl, .inl rfl⟩
  next channel hchannel =>
    split
    · exact ⟨rfl, .inl rfl⟩
    · split
      · split
        · exact ⟨rfl, .inl rfl⟩
        next token htoken =>
          split
          next hvalid => exact ⟨rfl, .inr ⟨_, token, rfl, htoken, hvalid⟩⟩
          · exact ⟨rfl, .inl rfl⟩
      · exact ⟨rfl, .inl rfl⟩

/-- A paid secret is read only for a token among the secret's tokens; reading touches the
secrets only. -/
theorem fetchSecretOrFile_cases (kind : Kind) (itemId : String) (paymentToken : Option Token)
    (fingerprint : String) :
    let r := fetchSecretOrFile sha256 now redis kind itemId paymentToken fingerprint
    (∃ items, r.redis = { redis with items }) ∧ (r.events = [] ∨ ∃ token,
      r.events = [.contentReleased (.secret itemId)] ∧ truthy paymentToken = some token ∧
        redis.secretPaymentTokens.sismember now itemId ⟨sha256 token, fingerprint⟩ = true) := by
  unfold fetchSecretOrFile
  split
  · exact ⟨⟨_, rfl⟩, .inl rfl⟩
  next peeked hpeeked =>
    split
    · exact ⟨⟨_, rfl⟩, .inl rfl⟩
    next hreadable =>
      refine ⟨⟨_, rfl⟩, ?_⟩
      by_cases hpaid : peeked.isPaid = true
      · have hverified : paymentVerified sha256 now redis itemId paymentToken fingerprint := by
          simpa [hpaid] using hreadable
        obtain ⟨token, htoken, hvalid⟩ := (Option.any_eq_true _ _).mp hverified
        exact .inr ⟨token, by simp [hpaid], htoken, hvalid⟩
      · exact .inl (by simp [hpaid])

end Actions

/-! ### Following the tokens -/

/-- Every token in the store is accounted for in the log. -/
structure StoresAccounted (sha256 : String → String) (redis : Redis) (log : List Event) :
    Prop where
  /-- A waiting token was generated for its item, under an object of the item. -/
  checkoutTokens : redis.checkoutTokens.Forall fun k token =>
    Stored log (.channel k.1) token ∧ Created log (.channel k.1) k.2
  secretCheckoutTokens : redis.secretCheckoutTokens.Forall fun k token =>
    Stored log (.secret k.1) token ∧ Created log (.secret k.1) k.2
  /-- A digest that counts for an item is that of a token generated for it. -/
  paymentTokens : redis.paymentTokens.Forall fun slug ms =>
    ∀ m ∈ ms, ∃ token, Stored log (.channel slug) token ∧ sha256 token = m.tokenHash
  secretPaymentTokens : redis.secretPaymentTokens.Forall fun id ms =>
    ∀ m ∈ ms, ∃ token, Stored log (.secret id) token ∧ sha256 token = m.tokenHash

namespace StoresAccounted

variable {sha256 : String → String} {now : ℕ} {redis : Redis} {log log' : List Event}

theorem init : StoresAccounted sha256 {} [] := ⟨.empty, .empty, .empty, .empty⟩

theorem mono (h : StoresAccounted sha256 redis log) (hsub : log ⊆ log') :
    StoresAccounted sha256 redis log' where
  checkoutTokens := h.checkoutTokens.mono fun _ _ hk => ⟨hk.1.mono hsub, hk.2.mono hsub⟩
  secretCheckoutTokens :=
    h.secretCheckoutTokens.mono fun _ _ hk => ⟨hk.1.mono hsub, hk.2.mono hsub⟩
  paymentTokens := h.paymentTokens.mono fun _ _ hms m hm =>
    (hms m hm).imp fun _ ht => ⟨ht.1.mono hsub, ht.2⟩
  secretPaymentTokens := h.secretPaymentTokens.mono fun _ _ hms m hm =>
    (hms m hm).imp fun _ ht => ⟨ht.1.mono hsub, ht.2⟩

theorem storePaymentToken (h : StoresAccounted sha256 redis log) {slug : Slug} {token : Token}
    (ht : Stored log (.channel slug) token) (ttl : ℕ) (fingerprint : String) :
    StoresAccounted sha256 (redis.storePaymentToken now slug (sha256 token) ttl fingerprint)
      log :=
  { h with paymentTokens := (h.paymentTokens.sadd ⟨token, ht, rfl⟩).expire }

theorem storeCheckoutPaymentToken (h : StoresAccounted sha256 redis log) {slug : Slug}
    {id : String} {token : Token} (ht : Stored log (.channel slug) token)
    (hid : Created log (.channel slug) id) :
    StoresAccounted sha256 (redis.storeCheckoutPaymentToken now slug id token) log :=
  { h with checkoutTokens := h.checkoutTokens.setex ⟨ht, hid⟩ }

theorem claimCheckoutPaymentToken (h : StoresAccounted sha256 redis log) (slug : Slug)
    (id : String) :
    StoresAccounted sha256 (redis.claimCheckoutPaymentToken now slug id).2 log :=
  { h with checkoutTokens := h.checkoutTokens.delete }

theorem deleteChannel (h : StoresAccounted sha256 redis log) (channel : ChannelData) :
    StoresAccounted sha256 (redis.deleteChannel channel) log :=
  { h with paymentTokens := h.paymentTokens.delete }

theorem storeSecretPaymentToken (h : StoresAccounted sha256 redis log) {secretId : String}
    {token : Token} (ht : Stored log (.secret secretId) token) (ttl : ℕ)
    (fingerprint : String) :
    StoresAccounted sha256
      (redis.storeSecretPaymentToken now secretId (sha256 token) ttl fingerprint) log :=
  { h with secretPaymentTokens := (h.secretPaymentTokens.sadd ⟨token, ht, rfl⟩).expire }

theorem storeSecretCheckoutPaymentToken (h : StoresAccounted sha256 redis log)
    {secretId id : String} {token : Token} (ht : Stored log (.secret secretId) token)
    (hid : Created log (.secret secretId) id) :
    StoresAccounted sha256 (redis.storeSecretCheckoutPaymentToken now secretId id token) log :=
  { h with secretCheckoutTokens := h.secretCheckoutTokens.setex ⟨ht, hid⟩ }

theorem claimSecretCheckoutPaymentToken (h : StoresAccounted sha256 redis log)
    (secretId id : String) :
    StoresAccounted sha256 (redis.claimSecretCheckoutPaymentToken now secretId id).2 log :=
  { h with secretCheckoutTokens := h.secretCheckoutTokens.delete }

end StoresAccounted

/-- Every token, stored or returned, is accounted for in the log. -/
structure Accounted (sha256 : String → String) (redis : Redis) (log : List Event) : Prop where
  stores : StoresAccounted sha256 redis log
  /-- A digest belongs to one item. -/
  unique : ∀ item item' token token', Stored log item token → Stored log item' token' →
    sha256 token = sha256 token' → item = item'
  /-- A returned token was generated for its item, and paid for. -/
  returned : ∀ p ∈ log.filterMap Event.returned,
    Stored log p.1 p.2.2 ∧ Confirmed log p.1 p.2.1

namespace Accounted

variable {sha256 : String → String} {now : ℕ} {redis redis' : Redis} {log : List Event}

theorem init : Accounted sha256 {} [] := ⟨.init, nofun, nofun⟩

theorem of_stores (h : Accounted sha256 redis log) (hstores : StoresAccounted sha256 redis' log) :
    Accounted sha256 redis' log := { h with stores := hstores }

/-- Events that generate no token, and return only tokens that were generated for their item
and paid for. -/
theorem append (h : Accounted sha256 redis log) (es : List Event)
    (hstored : es.filterMap Event.stored = [])
    (hreturned : ∀ p ∈ es.filterMap Event.returned,
      Stored log p.1 p.2.2 ∧ Confirmed (log ++ es) p.1 p.2.1) :
    Accounted sha256 redis (log ++ es) := by
  have hsub : log ⊆ log ++ es := List.subset_append_left log es
  have hiff : ∀ item token, Stored (log ++ es) item token ↔ Stored log item token := by
    intro item token
    simp only [Stored, List.filterMap_append, hstored, List.append_nil]
  refine ⟨h.stores.mono hsub, ?_, ?_⟩
  · intro item item' token token' ht ht'
    rw [hiff] at ht ht'
    exact h.unique item item' token token' ht ht'
  · intro p hp
    rw [List.filterMap_append, List.mem_append] at hp
    rcases hp with hold | hnew
    · obtain ⟨ht, hpaid⟩ := h.returned p hold
      exact ⟨ht.mono hsub, hpaid.mono hsub⟩
    · obtain ⟨ht, hpaid⟩ := hreturned p hnew
      exact ⟨ht.mono hsub, hpaid⟩

theorem tokenStored (h : Accounted sha256 redis log) (item : Item) {token : Token}
    (hfresh : ∀ p ∈ log.filterMap Event.stored, sha256 p.2 ≠ sha256 token) :
    Accounted sha256 redis (log ++ [.tokenStored item token]) := by
  have hsub : log ⊆ log ++ [.tokenStored item token] := List.subset_append_left _ _
  have hiff : ∀ i t, Stored (log ++ [.tokenStored item token]) i t ↔
      Stored log i t ∨ i = item ∧ t = token := by
    intro i t
    simp [Stored, Event.stored]
  refine ⟨h.stores.mono hsub, ?_, ?_⟩
  · intro i i' t t' ht ht' hdigest
    rw [hiff] at ht ht'
    rcases ht with ht | ⟨rfl, rfl⟩
    · rcases ht' with ht' | ⟨rfl, rfl⟩
      · exact h.unique i i' t t' ht ht' hdigest
      · exact absurd hdigest (hfresh (i, t) ht)
    · rcases ht' with ht' | ⟨rfl, rfl⟩
      · exact absurd hdigest.symm (hfresh (i', t') ht')
      · rfl
  · intro p hp
    have hold : p ∈ log.filterMap Event.returned := by simpa [Event.returned] using hp
    obtain ⟨ht, hpaid⟩ := h.returned p hold
    exact ⟨ht.mono hsub, hpaid.mono hsub⟩

theorem opens (h : Accounted sha256 redis log) {item : Item} {token : Token} {stored : Redis}
    {put : String → Redis} {r : Reply (Option CheckoutResponse)}
    (hr : Opens item token stored put r)
    (hfresh : ∀ p ∈ log.filterMap Event.stored, sha256 p.2 ≠ sha256 token)
    (hstored : ∀ log', StoresAccounted sha256 redis log' → Stored log' item token →
      StoresAccounted sha256 stored log')
    (hput : ∀ log' id, StoresAccounted sha256 stored log' → Stored log' item token →
      Created log' item id → StoresAccounted sha256 (put id) log') :
    Accounted sha256 r.redis (log ++ r.events) := by
  obtain ⟨call, hevents, hredis⟩ := hr
  have hlog : log ++ r.events = (log ++ [.tokenStored item token]) ++ [.stripe item call] := by
    rw [hevents, List.append_assoc]
    rfl
  rw [hlog]
  have hacc := (h.tokenStored item hfresh).append [.stripe item call] rfl nofun
  have ht : Stored ((log ++ [.tokenStored item token]) ++ [.stripe item call]) item token := by
    simp [Stored, Event.stored]
  have hstores := hstored _ hacc.stores ht
  rcases hredis with hredis | ⟨id, hid, hredis⟩
  · rw [hredis]
    exact hacc.of_stores hstores
  · rw [hredis]
    refine hacc.of_stores (hput _ id hstores ht ?_)
    simp [Created, Event.created, hid]

theorem takes (h : Accounted sha256 redis log) {item : Item} {objectId : String}
    (calls : List Event) {waiting : Option Token} (hredis : StoresAccounted sha256 redis' log)
    (hstored : calls.filterMap Event.stored = [])
    (hreturned : calls.filterMap Event.returned = [])
    (hwaiting : ∀ token, waiting = some token → Stored log item token)
    (hpaid : waiting.isSome → Confirmed (log ++ calls) item objectId) :
    Accounted sha256 redis'
      (log ++ (calls ++ waiting.toList.map (.tokenReturned item objectId ·))) := by
  refine (h.of_stores hredis).append _ ?_ ?_
  · cases waiting <;> simp [hstored, Event.stored]
  · cases waiting with
    | none => simp [hreturned]
    | some token =>
      intro p hp
      obtain rfl : p = (item, objectId, token) := by simpa [hreturned, Event.returned] using hp
      have hsub : log ++ calls ⊆ log ++ (calls ++ [.tokenReturned item objectId token]) := by
        rw [← List.append_assoc]
        exact List.subset_append_left _ _
      exact ⟨hwaiting token rfl, (hpaid rfl).mono hsub⟩

end Accounted

/-! ### The gate along a run -/

section Run

variable {sha256 : String → String}

theorem Asks.quiet {slug : Slug} {objectId : String} {events : List Event}
    (h : Asks slug objectId events) :
    events.filterMap Event.created = [] ∧ events.filterMap Event.stored = [] ∧
      events.filterMap Event.returned = [] := by
  refine ⟨?_, ?_, ?_⟩ <;>
  · rw [List.filterMap_eq_nil_iff]
    intro e he
    obtain ⟨account, answer, rfl⟩ := h e he
    rfl

theorem Accounted.quiet {redis redis' : Redis} {log es : List Event}
    (h : Accounted sha256 redis log) (hstores : StoresAccounted sha256 redis' log)
    (hstored : es.filterMap Event.stored = []) (hreturned : es.filterMap Event.returned = []) :
    Accounted sha256 redis' (log ++ es) := by
  refine (h.of_stores hstores).append es hstored ?_
  rw [hreturned]
  exact nofun

variable {past : List Request} {w : World} {request : Request}

theorem Accounted.step (h : Accounted sha256 w.redis ((server sha256).log past))
    (hunguessed : Unguessed sha256 past w request) (hverified : Verified sha256 past w request) :
    Accounted sha256 (step sha256 w request).1.redis
      ((server sha256).log past ++ (step sha256 w request).2) := by
  have hfresh : ∀ token, request.generated = some token →
      ∀ p ∈ ((server sha256).log past).filterMap Event.stored, sha256 p.2 ≠ sha256 token :=
    fun token htoken => hunguessed.1 token (by rw [htoken]; exact List.mem_singleton_self _)
  cases request with
  | createCheckout stripe session request token =>
    dsimp only [Payments.step, World.reply]
    rcases createCheckout_cases session request token with ⟨hredis, hevents⟩ | ⟨slug, ttl, hr⟩
    · rw [hredis, hevents]
      exact h.quiet h.stores rfl rfl
    · exact h.opens hr (hfresh token rfl) (fun _ hs ht => hs.storePaymentToken ht _ _)
        (fun _ _ hs ht hid => hs.storeCheckoutPaymentToken ht hid)
  | createSecretCheckout stripe kind id fingerprint token =>
    dsimp only [Payments.step, World.reply]
    rcases createSecretCheckout_cases kind id fingerprint token with
      ⟨hredis, hevents⟩ | ⟨ttl, hr⟩
    · rw [hredis, hevents]
      exact h.quiet h.stores rfl rfl
    · exact h.opens hr (hfresh token rfl) (fun _ hs ht => hs.storeSecretPaymentToken ht _ _)
        (fun _ _ hs ht hid => hs.storeSecretCheckoutPaymentToken ht hid)
  | claimCheckoutPaymentToken stripe slug id =>
    dsimp only [Payments.step, World.reply]
    rcases claimCheckoutPaymentToken_cases slug id with
      ⟨hredis, hasks, -⟩ | ⟨calls, hasks, hredis, hevents, hun, hpaid⟩
    · rw [hredis]
      exact h.quiet h.stores hasks.quiet.2.1 hasks.quiet.2.2
    · rw [hredis, hevents]
      have hwaiting : ∀ token, w.redis.checkoutTokens.get w.now (slug, id) = some token →
          Stored ((server sha256).log past) (.channel slug) token ∧
            Created ((server sha256).log past) (.channel slug) id :=
        fun token htoken => h.stores.checkoutTokens.of_get htoken
      refine h.takes calls (h.stores.claimCheckoutPaymentToken slug id) hasks.quiet.2.1
        hasks.quiet.2.2 (fun token htoken => (hwaiting token htoken).1) fun hsome => ?_
      obtain ⟨token, htoken⟩ := Option.isSome_iff_exists.mp hsome
      have hcreated := (hwaiting token htoken).2
      -- The call of this request reports the object as paid, unless it is unverified.
      by_cases hunverified : unverified stripe w.now w.redis slug id = true
      · have hconfirmed := hverified hunverified hsome
        exact hconfirmed.mono (List.subset_append_left _ _)
      · refine ⟨hcreated.mono (List.subset_append_left _ _), ?_⟩
        rw [List.filterMap_append]
        exact List.mem_append_right _ (hpaid hunverified)
  | claimSecretCheckoutPaymentToken kind id sessionId =>
    dsimp only [Payments.step, World.reply]
    rcases claimSecretCheckoutPaymentToken_cases kind id sessionId with
      ⟨hredis, hevents⟩ | ⟨hpeek, hredis, hevents⟩
    · rw [hredis, hevents]
      exact h.quiet h.stores rfl rfl
    · rw [hredis, hevents]
      refine h.takes [] (h.stores.claimSecretCheckoutPaymentToken id sessionId) rfl rfl
        (fun token htoken => (h.stores.secretCheckoutTokens.of_get htoken).1) fun hsome => ?_
      rw [List.append_nil]
      exact hverified hpeek hsome
  | validateFileGuest slug readerToken paymentToken fingerprint =>
    dsimp only [Payments.step, World.reply]
    obtain ⟨hredis, hevents | ⟨shortSlug, token, hevents, -⟩⟩ :=
      validateFileGuest_cases slug readerToken paymentToken fingerprint
    · rw [hredis, hevents]
      exact h.quiet h.stores rfl rfl
    · rw [hredis, hevents]
      exact h.quiet h.stores rfl rfl
  | fetchSecretOrFile kind id paymentToken fingerprint =>
    dsimp only [Payments.step, World.reply]
    obtain ⟨⟨items, hredis⟩, hevents | ⟨token, hevents, -⟩⟩ :=
      fetchSecretOrFile_cases kind id paymentToken fingerprint
    · rw [hredis, hevents]
      exact h.quiet { h.stores with } rfl rfl
    · rw [hredis, hevents]
      exact h.quiet { h.stores with } rfl rfl
  | deleteChannel channel => exact h.quiet (h.stores.deleteChannel channel) rfl rfl
  | elapsed milliseconds => exact h.quiet h.stores rfl rfl
  | others channels items readerTokens pendingTokens =>
    exact h.quiet { h.stores with } rfl rfl

theorem Accounted.paid_of_presented (h : Accounted sha256 w.redis ((server sha256).log past))
    (hunguessed : Unguessed sha256 past w request) {token : Token}
    (hpresented : request.presented = some token) {item : Item}
    (hopens : ∃ t, Stored ((server sha256).log past) item t ∧ sha256 t = sha256 token) :
    ∃ objectId, Confirmed ((server sha256).log past) item objectId := by
  obtain ⟨t, ht, hdigest⟩ := hopens
  have hmem : token ∈ request.presented.toList := by
    rw [hpresented]
    exact List.mem_singleton_self _
  obtain ⟨p, hp, rfl⟩ := hunguessed.2 token hmem ⟨(item, t), ht, hdigest⟩
  obtain ⟨hstored, hpaid⟩ := h.returned p hp
  have hitem : item = p.1 := h.unique _ _ _ _ ht hstored hdigest
  exact ⟨p.2.1, hitem ▸ hpaid⟩

theorem contentReleased_mem_step {item : Item}
    (hrelease : .contentReleased item ∈ (step sha256 w request).2) :
    ∃ token fingerprint, request.presented = some token ∧
      ((∃ slug, item = .channel slug ∧
        w.redis.paymentTokens.sismember w.now slug ⟨sha256 token, fingerprint⟩ = true) ∨
      ∃ id, item = .secret id ∧
        w.redis.secretPaymentTokens.sismember w.now id ⟨sha256 token, fingerprint⟩ = true) := by
  cases request with
  | validateFileGuest slug readerToken paymentToken fingerprint =>
    dsimp only [step, World.reply] at hrelease
    obtain ⟨-, hevents | ⟨shortSlug, token, hevents, htoken, hvalid⟩⟩ :=
      validateFileGuest_cases slug readerToken paymentToken fingerprint
    · rw [hevents] at hrelease
      cases hrelease
    · rw [hevents] at hrelease
      obtain rfl := Event.contentReleased.inj (List.mem_singleton.mp hrelease)
      exact ⟨token, fingerprint, htoken, .inl ⟨shortSlug, rfl, hvalid⟩⟩
  | fetchSecretOrFile kind id paymentToken fingerprint =>
    dsimp only [step, World.reply] at hrelease
    obtain ⟨-, hevents | ⟨token, hevents, htoken, hvalid⟩⟩ :=
      fetchSecretOrFile_cases kind id paymentToken fingerprint
    · rw [hevents] at hrelease
      cases hrelease
    · rw [hevents] at hrelease
      obtain rfl := Event.contentReleased.inj (List.mem_singleton.mp hrelease)
      exact ⟨token, fingerprint, htoken, .inr ⟨id, rfl, hvalid⟩⟩
  -- the other requests release no content
  | createCheckout stripe session request token =>
    dsimp only [step, World.reply] at hrelease
    rcases createCheckout_cases session request token with
      ⟨-, hevents⟩ | ⟨slug, ttl, call, hevents, -⟩
    · rw [hevents] at hrelease
      cases hrelease
    · simp [hevents] at hrelease
  | createSecretCheckout stripe kind id fingerprint token =>
    dsimp only [step, World.reply] at hrelease
    rcases createSecretCheckout_cases kind id fingerprint token with
      ⟨-, hevents⟩ | ⟨ttl, call, hevents, -⟩
    · rw [hevents] at hrelease
      cases hrelease
    · simp [hevents] at hrelease
  | claimCheckoutPaymentToken stripe slug id =>
    dsimp only [step, World.reply] at hrelease
    rcases claimCheckoutPaymentToken_cases slug id with
      ⟨-, hasks, -⟩ | ⟨calls, hasks, -, hevents, -⟩
    · obtain ⟨_, _, h⟩ := hasks _ hrelease
      cases h
    · rw [hevents, List.mem_append] at hrelease
      rcases hrelease with hcall | hreturn
      · obtain ⟨_, _, h⟩ := hasks _ hcall
        cases h
      · simp at hreturn
  | claimSecretCheckoutPaymentToken kind id sessionId =>
    dsimp only [step, World.reply] at hrelease
    rcases claimSecretCheckoutPaymentToken_cases kind id sessionId with
      ⟨-, hevents⟩ | ⟨-, -, hevents⟩
    · rw [hevents] at hrelease
      cases hrelease
    · simp [hevents] at hrelease
  | deleteChannel channel => cases hrelease
  | elapsed milliseconds => cases hrelease
  | others channels items readerTokens pendingTokens => cases hrelease

theorem Accounted.paidFirst (h : Accounted sha256 w.redis ((server sha256).log past))
    (hunguessed : Unguessed sha256 past w request) (hverified : Verified sha256 past w request) :
    PaidFirst sha256 past w request := by
  intro e he
  cases e with
  | tokenReturned item objectId token =>
    have hstep := h.step hunguessed hverified
    have hmem : (item, objectId, token) ∈ ((server sha256).log past ++
        (Payments.step sha256 w request).2).filterMap Event.returned :=
      List.mem_filterMap.mpr ⟨_, List.mem_append_right _ he, rfl⟩
    exact (hstep.returned _ hmem).2
  | contentReleased item =>
    obtain ⟨token, fingerprint, hpresented, ⟨slug, rfl, hvalid⟩ | ⟨id, rfl, hvalid⟩⟩ :=
      contentReleased_mem_step he
    · exact h.paid_of_presented hunguessed hpresented
        (h.stores.paymentTokens.of_sismember hvalid)
    · exact h.paid_of_presented hunguessed hpresented
        (h.stores.secretPaymentTokens.of_sismember hvalid)
  | _ => trivial

/-- An unverified claim that finds a token returns it, so the gate needs an earlier report. -/
theorem verified_of_paidFirst
    (h : PaidFirst sha256 past w request) : Verified sha256 past w request := by
  cases request with
  | claimCheckoutPaymentToken stripe slug id =>
    intro hunverified hsome
    obtain ⟨token, htoken⟩ := Option.isSome_iff_exists.mp hsome
    rcases claimCheckoutPaymentToken_cases slug id with
      ⟨-, -, hver⟩ | ⟨calls, hasks, -, hevents, hnothing, -⟩
    · rw [hunverified] at hver
      cases hver
    · have hreturned : (step sha256 w (.claimCheckoutPaymentToken stripe slug id)).2 =
          calls ++ [.tokenReturned (.channel slug) id token] := by
        dsimp only [step, World.reply]
        rw [hevents, htoken]
        rfl
      have hpaid := h (.tokenReturned (.channel slug) id token) (by rw [hreturned]; simp)
      rw [hreturned] at hpaid
      refine (confirmed_append_iff ?_ ?_).mp hpaid
      · simp [hasks.quiet.1, Event.created]
      · simp [hnothing hunverified, Event.reportedPaid]
  | claimSecretCheckoutPaymentToken kind id sessionId =>
    intro hpeek hsome
    obtain ⟨token, htoken⟩ := Option.isSome_iff_exists.mp hsome
    obtain ⟨secret, hsecret⟩ := Option.isSome_iff_exists.mp hpeek
    have hreturned : (step sha256 w (.claimSecretCheckoutPaymentToken kind id sessionId)).2 =
        [.tokenReturned (.secret id) sessionId token] := by
      simp [step, World.reply, claimSecretCheckoutPaymentToken, hsecret,
        Redis.claimSecretCheckoutPaymentToken, Store.getdel, htoken]
    have hpaid := h (.tokenReturned (.secret id) sessionId token) (by rw [hreturned]; simp)
    rw [hreturned] at hpaid
    exact (confirmed_append_iff rfl rfl).mp hpaid
  | _ => trivial

/-- **The payment gate.** As long as tokens cannot be guessed, tokens and content are handed
out only after a confirmed payment exactly when every unverified claim that finds a token is
for an object the provider reported as paid before. -/
theorem paidFirst_iff_verified (sha256 : String → String) (requests : List Request)
    (hunguessed : (server sha256).Along (Unguessed sha256) requests) :
    (server sha256).Along (PaidFirst sha256) requests ↔
      (server sha256).Along (Verified sha256) requests := by
  constructor
  · exact (server sha256).along_mono fun _ _ _ => verified_of_paidFirst
  · intro hverified
    refine (server sha256).along_of_along (fun _ w log => Accounted sha256 w.redis log)
      .init (fun past request h hboth => ?_) (fun past request h hboth => ?_)
      ((server sha256).along_and.mpr ⟨hunguessed, hverified⟩)
    · exact h.step hboth.1 hboth.2
    · exact h.paidFirst hboth.1 hboth.2

end Run

/-! ### A secret read for free -/

/-- A provider whose sessions stay unpaid. -/
def unpaidStripe : Stripe where
  createPaymentIntent _ := .error .mk
  createCheckoutSession _ := .ok { id := "cs_1", paymentStatus := "unpaid" }
  retrieveCheckoutSession _ _ := .ok { id := "cs_1", paymentStatus := "unpaid" }

/-- The same provider once the session is paid. -/
def paidStripe : Stripe where
  createPaymentIntent _ := .error .mk
  createCheckoutSession _ := .ok { id := "cs_1", paymentStatus := "unpaid" }
  retrieveCheckoutSession _ _ := .ok { id := "cs_1", paymentStatus := "paid" }

/-- A channel and a secret that cost five dollars each are on offer. -/
def offered : Request :=
  .others (Store.empty.setex 0 "ab" 3600
      { longSlug := "a/b/c", shortSlug := "ab", priceCents := some 500,
        sellerStripeId := some "acct_1" })
    (Store.empty.setex 0 (.secret, "s") 3600
      { message := "content", priceCents := some 500, sellerStripeId := some "acct_1" })
    Store.empty Store.empty

/-- A purchase of a channel keeps the gate. -/
theorem paidFirst_iff_verified_purchase :
    (server id).Along (PaidFirst id) [offered,
      .createCheckout unpaidStripe none { slug := "ab" } "token",
      .claimCheckoutPaymentToken unpaidStripe "ab" "cs_1",
      .claimCheckoutPaymentToken paidStripe "ab" "cs_1",
      .validateFileGuest "ab" none (some "token") ""] :=
  (paidFirst_iff_verified id _ (by decide)).mpr (by decide)

/-- The token of a secret is claimed without a payment, and the secret read with it. -/
theorem unpaidSecret_released :
    ¬∀ (sha256 : String → String) (requests : List Request),
      (server sha256).Along (Unguessed sha256) requests →
        (server sha256).Along (PaidFirst sha256) requests := by
  intro h
  let requests : List Request := [offered, .createSecretCheckout unpaidStripe .secret "s" "" "t",
    .claimSecretCheckoutPaymentToken .secret "s" "cs_1",
    .fetchSecretOrFile .secret "s" (some "t") ""]
  have hgate := h id requests (by decide)
  have hverified := (server id).along_mono (fun _ _ _ => verified_of_paidFirst) hgate
  revert hverified
  decide

end Rapidly.FileSharing.Payments
