import Rapidly.FileSharing.Payments.PaymentGate
import Rapidly.FileSharing.Payments.SavedCard
import Rapidly.KeyValue.Lifetime
import Rapidly.KeyValue.Replay

/-!
# Repeated checkouts

A buyer may come to the checkout of a channel more than once, and several buyers may come from one
address. `create_checkout` derives the idempotency key of its request to Stripe from the slug and
the buyer's fingerprint, so that Stripe answers a repeated request with the same Checkout Session;
afterwards it records a payment with that session, which must be the only one.

The model adds to `createCheckout` the row of `_pg_create_payment`, and the memory of Stripe
(`KeyValue.Replay`).

* `Served` is what a buyer may expect: a checkout that passes the price check succeeds, and a token
  that is claimed with the object it returned is valid for the buyer.
* `served_iff` is the exact condition on the steps of a run.
-/

namespace Rapidly.FileSharing.Payments

open Relational KeyValue Identity

namespace Checkouts

/-! ### The payment provider -/

/-- What a checkout asks the provider for. -/
inductive ProviderRequest where
  | session (params : CheckoutSessionParams)
  | intent (params : PaymentIntentParams)
deriving DecidableEq

/-- The key under which the provider recognizes a repeated request. -/
def ProviderRequest.idempotencyKey : ProviderRequest → String
  | .session params => params.idempotencyKey
  | .intent params => params.idempotencyKey

/-- The metadata of a request. -/
def ProviderRequest.metadata : ProviderRequest → List (String × String)
  | .session params => params.metadata
  | .intent params => params.metadata

/-- An object of the provider, with the request that created it. -/
inductive ProviderObject where
  | session (params : CheckoutSessionParams) (object : CheckoutSession)
  | intent (params : PaymentIntentParams) (object : PaymentIntent)
deriving DecidableEq

namespace ProviderObject

def request : ProviderObject → ProviderRequest
  | .session params _ => .session params
  | .intent params _ => .intent params

def objectId : ProviderObject → String
  | .session _ object => object.id
  | .intent _ object => object.id

/-- What the checkout answers the buyer with. -/
def response : ProviderObject → CheckoutResponse
  | .session _ object => .checkout (object.url.getD "") object.id
  | .intent _ object => .directPayment (object.clientSecret.getD "") object.id
      (object.status = "requires_action")

end ProviderObject

/-- What the provider would create next. -/
structure Drawn where
  session : Option CheckoutSession := none
  intent : Option PaymentIntent := none

/-- The object that the provider would create for a request. -/
def Drawn.object (drawn : Drawn) : ProviderRequest → Option ProviderObject
  | .session params => drawn.session.map (.session params)
  | .intent params => drawn.intent.map (.intent params)

theorem Drawn.request_of_object {drawn : Drawn} {r : ProviderRequest} :
    ∀ o ∈ drawn.object r, o.request = r := by
  intro o ho
  cases r with
  | session params =>
    obtain ⟨object, -, rfl⟩ := Option.map_eq_some_iff.mp ho
    rfl
  | intent params =>
    obtain ⟨object, -, rfl⟩ := Option.map_eq_some_iff.mp ho
    rfl

/-- The objects that the provider has created. -/
abbrev Memory := Table ProviderObject.objectId

/-- The first object that was created under a key. -/
def Memory.first (memory : Memory) (key : String) : Option ProviderObject :=
  Replay.first ProviderObject.request ProviderRequest.idempotencyKey memory key

/-- How the provider answers a request. -/
def Memory.answer (memory : Memory) (drawn : Drawn) (r : ProviderRequest) :
    Option ProviderObject :=
  Replay.answer ProviderObject.request ProviderRequest.idempotencyKey memory (drawn.object r) r

/-- The provider, as `create_checkout` uses it. -/
def Memory.provider (memory : Memory) (drawn : Drawn) : Stripe where
  createPaymentIntent params :=
    match memory.answer drawn (.intent params) with
    | some (.intent _ object) => .ok object
    | _ => .error .mk
  createCheckoutSession params :=
    match memory.answer drawn (.session params) with
    | some (.session _ object) => .ok object
    | _ => .error .mk
  retrieveCheckoutSession _ _ := .error .mk

/-- The provider remembers an object that it has answered with. -/
def Memory.observe (memory : Memory) : Event → Memory
  | .stripe _ (.createCheckoutSession params (.ok object)) =>
    memory.insert (.session params object)
  | .stripe _ (.createPaymentIntent params (.ok object)) => memory.insert (.intent params object)
  | _ => memory

/-! ### The payment row -/

/-- A row that no other row is like: its id is new. -/
def newId (payments : Table FileSharePayment.id) : Uuid :=
  (payments.rows.map FileSharePayment.id).sum + 1

/-- The unique index `ix_file_share_payments_stripe_checkout_session_id`: another row has the
session. -/
def SessionRecorded (payments : Table FileSharePayment.id) (sessionId : Option String) : Prop :=
  ∃ id ∈ sessionId, ∃ p ∈ payments.rows, p.stripeCheckoutSessionId = some id

instance (payments : Table FileSharePayment.id) (sessionId : Option String) :
    Decidable (SessionRecorded payments sessionId) :=
  inferInstanceAs (Decidable (∃ id ∈ sessionId, _))

/-- `_pg_create_payment`, `none` when a statement raises. -/
def pgCreatePayment (session : AsyncSession) (payments : Table FileSharePayment.id) (slug : Slug)
    (amountCents : ℤ) (currency : String) (platformFeeCents : ℤ)
    (stripeCheckoutSessionId stripePaymentIntentId : Option String)
    (paymentMethodId : Option Uuid) : Option (Table FileSharePayment.id) :=
  match session.getByShortSlug slug with
  | none => none
  | some none => some payments
  | some (some fsSession) =>
    if SessionRecorded payments stripeCheckoutSessionId then none
    else some <| payments.insert
      { id := newId payments, sessionId := fsSession.id, amountCents, currency, platformFeeCents,
        stripeCheckoutSessionId, stripePaymentIntentId, paymentMethodId }

/-- How a checkout fails. -/
inductive CheckoutFailure where
  | action (failure : Failure)
  /-- The payment could not be recorded. -/
  | sqlAlchemyError
deriving DecidableEq

/-- The payment of a checkout that was answered. -/
def recordPayment (session : AsyncSession) (payments : Table FileSharePayment.id)
    (channel : ChannelData) (terms : Terms) (request : CheckoutRequest) :
    CheckoutResponse → Option (Table FileSharePayment.id)
  | .checkout _ sessionId =>
    pgCreatePayment session payments channel.shortSlug terms.priceCents terms.currency
      (feeAmount terms.priceCents) (some sessionId) none none
  | .directPayment _ intentId _ =>
    pgCreatePayment session payments channel.shortSlug terms.priceCents terms.currency
      (feeAmount terms.priceCents) none (some intentId) request.paymentMethodId

/-! ### Runs -/

/-- A checkout that succeeded. -/
structure Purchase where
  channel : ChannelData
  buyerFingerprint : String
  /-- The Checkout Session or PaymentIntent that was returned. -/
  objectId : String
deriving DecidableEq

/-- The stores, with the purchases so far. -/
structure State where
  redis : Redis := {}
  stripe : Memory := Table.empty
  payments : Table FileSharePayment.id := Table.empty
  purchases : List Purchase := []

/-- A call of `create_checkout`, with the token that it generates and what the provider would
create. -/
structure Call where
  now : ℕ
  session : Option AsyncSession
  request : CheckoutRequest
  token : Token
  drawn : Drawn := {}

/-- What happens next. -/
inductive Step where
  | checkout (call : Call)
  /-- The provider's object is exchanged for the token; the provider is asked for it first. -/
  | claim (now : ℕ) (slug : Slug) (objectId : String)
      (retrieved : Except StripeError CheckoutSession)

section Semantics

variable (sha256 : String → String)

namespace Call

variable (call : Call) (s : State)

/-- The channel and the price of a call that passes the price check. -/
def terms : Option (ChannelData × Terms) :=
  (s.redis.fetchChannel call.now call.request.slug).bind fun channel =>
    (checkoutTerms call.session channel).toOption.map (Prod.mk channel)

/-- `create_checkout` up to the payment row. -/
def reply : Reply (Option CheckoutResponse) :=
  createCheckout sha256 (s.stripe.provider call.drawn) call.now s.redis call.session call.request
    call.token

/-- The payments after the call, `none` when the payment could not be recorded. -/
def recorded : Option (Table FileSharePayment.id) :=
  match call.terms s, call.session, (call.reply sha256 s).result with
  | some (channel, terms), some session, .ok (some response) =>
    recordPayment session s.payments channel terms call.request response
  | _, _, _ => some s.payments

/-- What `create_checkout` answers with. -/
def result : Except CheckoutFailure (Option CheckoutResponse) :=
  match (call.reply sha256 s).result, call.recorded sha256 s with
  | .error failure, _ => .error (.action failure)
  | .ok _, none => .error .sqlAlchemyError
  | .ok response, some _ => .ok response

/-- The purchase of a call, if it succeeds. -/
def purchase : Option Purchase :=
  match call.terms s, call.result sha256 s with
  | some (channel, _), .ok (some (.checkout _ id)) =>
    some { channel, buyerFingerprint := call.request.buyerFingerprint, objectId := id }
  | some (channel, _), .ok (some (.directPayment _ id _)) =>
    some { channel, buyerFingerprint := call.request.buyerFingerprint, objectId := id }
  | _, _ => none

end Call

/-- A provider that answers the question for a Checkout Session. -/
def retrieving (retrieved : Except StripeError CheckoutSession) : Stripe where
  createPaymentIntent _ := .error .mk
  createCheckoutSession _ := .error .mk
  retrieveCheckoutSession _ _ := retrieved

/-- One step. A call that fails leaves what it wrote to Redis, and no row. -/
def step (s : State) : Step → State
  | .checkout call =>
    { redis := (call.reply sha256 s).redis
      stripe := (call.reply sha256 s).events.foldl Memory.observe s.stripe
      payments := (call.recorded sha256 s).getD s.payments
      purchases := s.purchases ++ (call.purchase sha256 s).toList }
  | .claim now slug objectId retrieved =>
    { s with
      redis := (claimCheckoutPaymentToken (retrieving retrieved) now s.redis slug objectId).redis }

/-- The checkouts and claims, from a state. -/
def checkouts (s : State) : Transition.System State Step Unit where
  init := s
  step s l := (step sha256 s l, [])

/-! ### Repeated checkouts are served -/

/-- What a buyer may expect of a step: a checkout that passes the price check succeeds; a token that
is claimed with the object of a purchase is valid for its buyer. -/
def Served : Transition.System.Condition State Step
  | _, s, .checkout call =>
    (call.terms s).isSome → ∃ response, call.result sha256 s = .ok (some response)
  | _, s, .claim now slug objectId retrieved =>
    ∀ p ∈ s.purchases, p.channel.shortSlug = slug → p.objectId = objectId →
      ∀ token, (claimCheckoutPaymentToken (retrieving retrieved) now s.redis slug
          objectId).result = .ok (some token) →
        (step sha256 s (.claim now slug objectId retrieved)).redis.validatePaymentToken now sha256
          token p.channel p.buyerFingerprint

end Semantics

/-! ### The condition -/

/-- What a call asks the provider for. -/
def Call.providerRequest (call : Call) (channel : ChannelData) (terms : Terms) :
    ProviderRequest :=
  match savedCard call.session call.request with
  | some (pm, stripeCustomerId) =>
    .intent (paymentIntentParams channel terms pm stripeCustomerId call.request.buyerFingerprint)
  | none => .session (checkoutSessionParams channel terms call.request.buyerFingerprint)

/-- The payment has the object as its Checkout Session. -/
def RecordedAs (payments : Table FileSharePayment.id) (o : ProviderObject) : Prop :=
  ∃ p ∈ payments.rows, p.stripeCheckoutSessionId = some o.objectId

/-- The calls that succeed: the channel is there for some time; the request to the provider repeats
the first one with its key in everything, or its key is new and the provider creates an object; and
the Checkout Session that is repeated has not been recorded, or nothing is recorded. -/
structure Call.Unrepeated (call : Call) (s : State) (channel : ChannelData) (terms : Terms) :
    Prop where
  lasts : 0 < s.redis.channels.ttl call.now channel.shortSlug
  same : ∀ o ∈ s.stripe.first (call.providerRequest channel terms).idempotencyKey,
    o.request = call.providerRequest channel terms
  creates : s.stripe.first (call.providerRequest channel terms).idempotencyKey = none →
    ∃ o ∈ call.drawn.object (call.providerRequest channel terms),
      o.objectId ∉ s.stripe.rows.map ProviderObject.objectId
  unrecorded : savedCard call.session call.request = none →
    ∀ session ∈ call.session, (∃ row, session.getByShortSlug channel.shortSlug = some (some row)) →
      ∀ o ∈ s.stripe.first (call.providerRequest channel terms).idempotencyKey,
        ¬RecordedAs s.payments o

/-- The channel is there, and the provider does not say that the session is unpaid. -/
def Claimable (s : State) (now : ℕ) (slug : Slug)
    (retrieved : Except StripeError CheckoutSession) : Prop :=
  ∃ channel ∈ s.redis.fetchChannel now slug, truthy channel.sellerStripeId = none ∨
    ∀ cs, retrieved = .ok cs → cs.paymentStatus = "paid"

/-- The condition on a step: a call that passes the price check repeats no recorded one; a token is
claimed for a purchase as long as the tokens of the channel are kept. -/
def Meets : Transition.System.Condition State Step
  | _, s, .checkout call => ∀ channel terms, call.terms s = some (channel, terms) →
      call.Unrepeated s channel terms
  | _, s, .claim now slug objectId retrieved =>
    ∀ p ∈ s.purchases, p.channel.shortSlug = slug → p.objectId = objectId →
      Claimable s now slug retrieved → (s.redis.checkoutTokens.get now (slug, objectId)).isSome →
        (s.redis.paymentTokens.get now slug).isSome

/-! ### What a call does -/

section Calls

variable {sha256 : String → String} {call : Call} {s : State} {channel : ChannelData}
  {terms : Terms}

theorem Call.terms_eq_some_iff : call.terms s = some (channel, terms) ↔
    s.redis.fetchChannel call.now call.request.slug = some channel ∧
      checkoutTerms call.session channel = .ok terms := by
  rw [Call.terms, Option.bind_eq_some_iff]
  constructor
  · rintro ⟨channel', hchannel, hterms⟩
    cases hresult : checkoutTerms call.session channel' with
    | error text =>
      rw [hresult] at hterms
      exact absurd hterms (Option.some_ne_none _).symm
    | ok terms' =>
      rw [hresult] at hterms
      obtain ⟨rfl, rfl⟩ := Prod.mk.inj (Option.some.inj hterms)
      exact ⟨hchannel, hresult⟩
  · rintro ⟨hchannel, hterms⟩
    exact ⟨channel, hchannel, by rw [hterms]; rfl⟩

/-- The Redis state when the provider is called. -/
def Call.stored (sha256 : String → String) (call : Call) (s : State) (slug : Slug) : Redis :=
  s.redis.storePaymentToken call.now slug (sha256 call.token)
    (s.redis.channels.ttl call.now slug).toNat call.request.buyerFingerprint

/-- What a call does up to the payment row, by the provider's answer. -/
structure Call.Answered (sha256 : String → String) (call : Call) (s : State) (slug : Slug)
    (answer : Option ProviderObject) : Prop where
  redis : (call.reply sha256 s).redis = answer.elim (call.stored sha256 s slug) fun o =>
    (call.stored sha256 s slug).storeCheckoutPaymentToken call.now slug o.objectId call.token
  result : (call.reply sha256 s).result =
    answer.elim (.error .stripeError) fun o => .ok (some o.response)
  memory : (call.reply sha256 s).events.foldl Memory.observe s.stripe =
    answer.elim s.stripe s.stripe.insert

/-- What a call comes to that asks the provider. -/
def Call.asked (sha256 : String → String) (call : Call) (s : State) (channel : ChannelData)
    (terms : Terms) : Reply (Option CheckoutResponse) :=
  match savedCard call.session call.request with
  | some (pm, stripeCustomerId) =>
    chargeSavedCard (s.stripe.provider call.drawn) call.now
      (call.stored sha256 s channel.shortSlug) channel terms pm stripeCustomerId
      call.request.buyerFingerprint call.token
  | none =>
    openCheckoutSession (s.stripe.provider call.drawn) call.now
      (call.stored sha256 s channel.shortSlug) channel terms call.request.buyerFingerprint
      call.token

theorem Call.reply_of_terms (hterms : call.terms s = some (channel, terms))
    (httl : 0 < s.redis.channels.ttl call.now channel.shortSlug) :
    call.reply sha256 s =
      { call.asked sha256 s channel terms with
        events := .tokenStored (.channel channel.shortSlug) call.token ::
          (call.asked sha256 s channel terms).events } := by
  obtain ⟨hchannel, hok⟩ := Call.terms_eq_some_iff.mp hterms
  rw [Call.reply, createCheckout, hchannel]
  dsimp only
  rw [hok]
  dsimp only
  rw [if_neg (not_le.mpr httl)]
  rfl

theorem request_of_answer {r : ProviderRequest} {o : ProviderObject}
    (h : s.stripe.answer call.drawn r = some o) : o.request = r :=
  Replay.request_of_answer Drawn.request_of_object h

/-- A call that passes the price check asks the provider, unless the channel is about to expire. -/
theorem Call.answered (hterms : call.terms s = some (channel, terms))
    (httl : 0 < s.redis.channels.ttl call.now channel.shortSlug) :
    call.Answered sha256 s channel.shortSlug
      (s.stripe.answer call.drawn (call.providerRequest channel terms)) := by
  have hreply := @Call.reply_of_terms sha256 _ _ _ _ hterms httl
  unfold Call.asked at hreply
  unfold Call.providerRequest
  cases hcard : savedCard call.session call.request with
  | some card =>
    obtain ⟨pm, stripeCustomerId⟩ := card
    rw [hcard] at hreply
    dsimp only at hreply ⊢
    cases hanswer : s.stripe.answer call.drawn (.intent (paymentIntentParams channel terms pm
        stripeCustomerId call.request.buyerFingerprint)) with
    | none =>
      have hcall : (s.stripe.provider call.drawn).createPaymentIntent (paymentIntentParams channel
          terms pm stripeCustomerId call.request.buyerFingerprint) = .error .mk := by
        simp only [Memory.provider, hanswer]
      rw [chargeSavedCard, hcall] at hreply
      constructor <;> rw [hreply] <;> rfl
    | some o =>
      -- an answer to a request for an intent is an intent
      have ho := request_of_answer hanswer
      rcases o with ⟨params, object⟩ | ⟨params, object⟩
      · exact absurd ho (by simp [ProviderObject.request])
      · obtain rfl := ProviderRequest.intent.inj ho
        have hcall : (s.stripe.provider call.drawn).createPaymentIntent (paymentIntentParams
            channel terms pm stripeCustomerId call.request.buyerFingerprint) = .ok object := by
          simp only [Memory.provider, hanswer]
        rw [chargeSavedCard, hcall] at hreply
        constructor <;> rw [hreply] <;> rfl
  | none =>
    rw [hcard] at hreply
    cases hanswer : s.stripe.answer call.drawn (.session (checkoutSessionParams channel terms
        call.request.buyerFingerprint)) with
    | none =>
      have hcall : (s.stripe.provider call.drawn).createCheckoutSession (checkoutSessionParams
          channel terms call.request.buyerFingerprint) = .error .mk := by
        simp only [Memory.provider, hanswer]
      rw [openCheckoutSession, hcall] at hreply
      constructor <;> rw [hreply] <;> rfl
    | some o =>
      have ho := request_of_answer hanswer
      rcases o with ⟨params, object⟩ | ⟨params, object⟩
      · obtain rfl := ProviderRequest.session.inj ho
        have hcall : (s.stripe.provider call.drawn).createCheckoutSession (checkoutSessionParams
            channel terms call.request.buyerFingerprint) = .ok object := by
          simp only [Memory.provider, hanswer]
        rw [openCheckoutSession, hcall] at hreply
        constructor <;> rw [hreply] <;> rfl
      · exact absurd ho (by simp [ProviderObject.request])

theorem Call.reply_of_not (h : ∀ channel terms, call.terms s = some (channel, terms) →
      s.redis.channels.ttl call.now channel.shortSlug ≤ 0) :
    (call.reply sha256 s).redis = s.redis ∧ (call.reply sha256 s).events = [] ∧
      ∀ response, (call.reply sha256 s).result ≠ .ok (some response) := by
  rw [Call.reply, createCheckout]
  cases hchannel : s.redis.fetchChannel call.now call.request.slug with
  | none => exact ⟨rfl, rfl, fun response => by simp⟩
  | some channel =>
    dsimp only
    cases hok : checkoutTerms call.session channel with
    | error text => exact ⟨rfl, rfl, fun response => by simp⟩
    | ok terms =>
      have httl := h channel terms (Call.terms_eq_some_iff.mpr ⟨hchannel, hok⟩)
      dsimp only
      rw [if_pos httl]
      exact ⟨rfl, rfl, fun response => by simp⟩

/-! ### When a call succeeds -/

/-- What is stored in the payment row's column. -/
def ProviderObject.checkoutSessionId : ProviderObject → Option String
  | .session _ object => some object.id
  | .intent _ _ => none

section Rows

variable {session : AsyncSession} {payments payments' : Table FileSharePayment.id} {slug : Slug}
  {amountCents platformFeeCents : ℤ} {currency : String}
  {stripeCheckoutSessionId stripePaymentIntentId : Option String}
  {paymentMethodId : Option Uuid}

theorem pgCreatePayment_eq_none_iff (hslug : session.getByShortSlug slug ≠ none) :
    pgCreatePayment session payments slug amountCents currency platformFeeCents
        stripeCheckoutSessionId stripePaymentIntentId paymentMethodId = none ↔
      (∃ row, session.getByShortSlug slug = some (some row)) ∧
        SessionRecorded payments stripeCheckoutSessionId := by
  unfold pgCreatePayment
  rcases hrow : session.getByShortSlug slug with _ | _ | row
  · exact absurd hrow hslug
  · exact iff_of_false nofun fun h => by simpa using h.1
  · dsimp only
    constructor
    · intro h
      refine ⟨⟨row, rfl⟩, ?_⟩
      by_contra hnew
      rw [if_neg hnew] at h
      exact absurd h (Option.some_ne_none _)
    · rintro ⟨-, h⟩
      exact if_pos h

theorem mem_pgCreatePayment {p : FileSharePayment}
    (h : pgCreatePayment session payments slug amountCents currency platformFeeCents
      stripeCheckoutSessionId stripePaymentIntentId paymentMethodId = some payments')
    (hp : p ∈ payments'.rows) :
    p ∈ payments.rows ∨ p.stripeCheckoutSessionId = stripeCheckoutSessionId := by
  unfold pgCreatePayment at h
  rcases hrow : session.getByShortSlug slug with _ | _ | row
  · rw [hrow] at h
    exact absurd h.symm (Option.some_ne_none _)
  · rw [hrow] at h
    obtain rfl := Option.some.inj h
    exact .inl hp
  · rw [hrow] at h
    obtain ⟨-, h⟩ := Option.ite_none_left_eq_some.mp h
    obtain rfl := Option.some.inj h
    rcases Table.mem_insert hp with rfl | hold
    · exact .inr rfl
    · exact .inl hold

end Rows

theorem recordPayment_eq_none_iff {session : AsyncSession} {payments : Table FileSharePayment.id}
    (hslug : session.getByShortSlug channel.shortSlug ≠ none) (o : ProviderObject) :
    recordPayment session payments channel terms call.request o.response = none ↔
      (∃ row, session.getByShortSlug channel.shortSlug = some (some row)) ∧
        SessionRecorded payments o.checkoutSessionId := by
  cases o with
  | session params object => exact pgCreatePayment_eq_none_iff hslug
  | intent params object => exact pgCreatePayment_eq_none_iff hslug

theorem mem_recordPayment {session : AsyncSession} {payments payments' : Table FileSharePayment.id}
    {o : ProviderObject} {p : FileSharePayment}
    (h : recordPayment session payments channel terms call.request o.response = some payments')
    (hp : p ∈ payments'.rows) :
    p ∈ payments.rows ∨ p.stripeCheckoutSessionId = o.checkoutSessionId := by
  cases o with
  | session params object => exact mem_pgCreatePayment h hp
  | intent params object => exact mem_pgCreatePayment h hp

/-- Stripe has created what is recorded. -/
def Consistent (s : State) : Prop :=
  ∀ p ∈ s.payments.rows, ∀ id ∈ p.stripeCheckoutSessionId,
    id ∈ s.stripe.rows.map ProviderObject.objectId

theorem sessionRecorded_iff (hs : Consistent s) {o : ProviderObject}
    (h : s.stripe.answer call.drawn (call.providerRequest channel terms) = some o) :
    SessionRecorded s.payments o.checkoutSessionId ↔
      savedCard call.session call.request = none ∧
        ∃ o' ∈ s.stripe.first (call.providerRequest channel terms).idempotencyKey,
          RecordedAs s.payments o' := by
  have hrequest : o.request = call.providerRequest channel terms := request_of_answer h
  rw [Call.providerRequest] at hrequest
  cases hcard : savedCard call.session call.request with
  | some card =>
    rw [hcard] at hrequest
    cases o with
    | session params object => exact absurd hrequest (by simp [ProviderObject.request])
    | intent params object =>
      refine iff_of_false ?_ fun h => Option.some_ne_none _ h.1
      rintro ⟨id, hid, -⟩
      exact absurd hid (Option.not_mem_none id)
  | none =>
    rw [hcard] at hrequest
    cases o with
    | intent params object => exact absurd hrequest (by simp [ProviderObject.request])
    | session params object =>
      constructor
      · rintro ⟨id, hid, p, hp, hpid⟩
        obtain rfl := Option.some.inj hid
        obtain ⟨-, hfirst, -⟩ | ⟨-, -, hnew⟩ := Replay.answer_eq_some h
        · exact ⟨rfl, _, hfirst, p, hp, hpid⟩
        · exact absurd (hs p hp _ hpid) hnew
      · rintro ⟨-, o', ho', p, hp, hpid⟩
        obtain ⟨-, hfirst, -⟩ | ⟨hnone, -, -⟩ := Replay.answer_eq_some h
        · obtain rfl := Option.some.inj (ho'.symm.trans hfirst)
          exact ⟨_, rfl, p, hp, hpid⟩
        · exact absurd (ho'.symm.trans hnone) (Option.some_ne_none _)

theorem getByShortSlug_of_terms {session : AsyncSession}
    (h : checkoutTerms (some session) channel = .ok terms) :
    session.getByShortSlug channel.shortSlug ≠ none := by
  intro hnone
  have hraises : ∀ price, validateChannelPrice (some session) channel price =
      .error "Price verification failed — please try again later" := by
    intro price
    simp only [validateChannelPrice, hnone]
  unfold checkoutTerms at h
  split at h
  · split at h
    · exact absurd h (by simp)
    · rw [hraises] at h
      exact absurd h (by simp [Except.map])
  · exact absurd h (by simp)

theorem Call.recorded_of_answered (hterms : call.terms s = some (channel, terms))
    {o : ProviderObject} (h : call.Answered sha256 s channel.shortSlug (some o)) :
    call.recorded sha256 s = call.session.elim (some s.payments) fun session =>
      recordPayment session s.payments channel terms call.request o.response := by
  have hresult : (call.reply sha256 s).result = .ok (some o.response) := h.result
  rw [Call.recorded, hterms, hresult]
  cases call.session with
  | none => rfl
  | some session => rfl

theorem Call.reply_of_result {response : CheckoutResponse}
    (h : call.result sha256 s = .ok (some response)) :
    (call.reply sha256 s).result = .ok (some response) := by
  unfold Call.result at h
  split at h
  · exact absurd h (by simp)
  · exact absurd h (by simp)
  next hreply _ =>
    rw [hreply]
    exact congrArg Except.ok (Except.ok.inj h)

theorem Call.ttl_of_result (hterms : call.terms s = some (channel, terms))
    {response : CheckoutResponse} (h : call.result sha256 s = .ok (some response)) :
    0 < s.redis.channels.ttl call.now channel.shortSlug := by
  by_contra httl
  refine (@Call.reply_of_not sha256 call s fun channel' terms' hterms' => ?_).2.2 response
    (Call.reply_of_result h)
  obtain ⟨rfl, rfl⟩ := Prod.mk.inj (Option.some.inj (hterms.symm.trans hterms'))
  exact not_lt.mp httl

/-- A call that passes the price check succeeds exactly if it repeats no recorded one. -/
theorem Call.succeeds_iff (hs : Consistent s) (hterms : call.terms s = some (channel, terms)) :
    (∃ response, call.result sha256 s = .ok (some response)) ↔
      call.Unrepeated s channel terms := by
  have hanswer : (s.stripe.answer call.drawn (call.providerRequest channel terms)).isSome ↔ _ :=
    Replay.isSome_answer_iff
  constructor
  · rintro ⟨response, hresponse⟩
    have httl := Call.ttl_of_result hterms hresponse
    have hanswered : call.Answered sha256 s channel.shortSlug _ := Call.answered hterms httl
    have hreply := Call.reply_of_result hresponse
    cases ho : s.stripe.answer call.drawn (call.providerRequest channel terms) with
    | none =>
      rw [ho] at hanswered
      exact absurd (hreply.symm.trans hanswered.result) (by simp)
    | some o =>
      rw [ho] at hanswered hanswer
      obtain ⟨hsame, hcreates⟩ := hanswer.mp rfl
      refine ⟨httl, hsame, hcreates, fun hcard session hsession hrow o' ho' hrecorded => ?_⟩
      have hslug : session.getByShortSlug channel.shortSlug ≠ none := by
        obtain ⟨row, hrow⟩ := hrow
        rw [hrow]
        exact Option.some_ne_none _
      have hnone : call.recorded sha256 s = none := by
        rw [Call.recorded_of_answered hterms hanswered, Option.mem_def.mp hsession]
        exact (recordPayment_eq_none_iff hslug o).mpr
          ⟨hrow, (sessionRecorded_iff hs ho).mpr ⟨hcard, o', ho', hrecorded⟩⟩
      unfold Call.result at hresponse
      rw [hreply, hnone] at hresponse
      exact absurd hresponse (by simp)
  · intro h
    obtain ⟨o, ho⟩ := Option.isSome_iff_exists.mp (hanswer.mpr ⟨h.same, h.creates⟩)
    have hanswered : call.Answered sha256 s channel.shortSlug _ := Call.answered hterms h.lasts
    rw [ho] at hanswered
    have hreply : (call.reply sha256 s).result = .ok (some o.response) := hanswered.result
    have hrecorded : ∃ payments, call.recorded sha256 s = some payments := by
      rw [Call.recorded_of_answered hterms hanswered]
      cases hsession : call.session with
      | none => exact ⟨_, rfl⟩
      | some session =>
        refine Option.ne_none_iff_exists'.mp fun hnone => ?_
        have hok := (Call.terms_eq_some_iff.mp hterms).2
        rw [hsession] at hok
        obtain ⟨hrow, hrecorded⟩ :=
          (recordPayment_eq_none_iff (getByShortSlug_of_terms hok) o).mp hnone
        obtain ⟨hcard, o', ho', hrecordedAs⟩ := (sessionRecorded_iff hs ho).mp hrecorded
        exact h.unrecorded hcard session hsession hrow o' ho' hrecordedAs
    obtain ⟨payments, hpayments⟩ := hrecorded
    refine ⟨o.response, ?_⟩
    rw [Call.result, hreply, hpayments]

/-! ### What a purchase leaves behind -/

theorem Call.purchase_eq_some {p : Purchase} (h : call.purchase sha256 s = some p) :
    ∃ channel terms o, call.terms s = some (channel, terms) ∧
      0 < s.redis.channels.ttl call.now channel.shortSlug ∧
      s.stripe.answer call.drawn (call.providerRequest channel terms) = some o ∧
      p = ⟨channel, call.request.buyerFingerprint, o.objectId⟩ := by
  have hsplit : ∃ channel terms response, call.terms s = some (channel, terms) ∧
      call.result sha256 s = .ok (some response) := by
    unfold Call.purchase at h
    split at h
    next hterms hresult => exact ⟨_, _, _, hterms, hresult⟩
    next hterms hresult => exact ⟨_, _, _, hterms, hresult⟩
    next => exact absurd h.symm (Option.some_ne_none _)
  obtain ⟨channel, terms, response, hterms, hresult⟩ := hsplit
  have httl := Call.ttl_of_result hterms hresult
  have hreply := Call.reply_of_result hresult
  have hanswered : call.Answered sha256 s channel.shortSlug _ := Call.answered hterms httl
  refine ⟨channel, terms, ?_⟩
  cases ho : s.stripe.answer call.drawn (call.providerRequest channel terms) with
  | none =>
    rw [ho] at hanswered
    exact absurd (hreply.symm.trans hanswered.result) (by simp)
  | some o =>
    rw [ho] at hanswered
    have hresponse : response = o.response :=
      Option.some.inj (Except.ok.inj (hreply.symm.trans hanswered.result))
    refine ⟨o, hterms, httl, rfl, ?_⟩
    rw [Call.purchase, hterms, hresult, hresponse] at h
    cases o with
    | session params object => exact (Option.some.inj h).symm
    | intent params object => exact (Option.some.inj h).symm

/-- The request is one that a checkout of the channel makes for the buyer. -/
def ProviderRequest.IsFor : ProviderRequest → ChannelData → String → Prop
  | .session params, channel, buyerFingerprint =>
    params.metadata = channelMetadata channel ∧
      params.idempotencyKey = s!"checkout-{channel.shortSlug}-{buyerFingerprint}"
  | .intent params, channel, buyerFingerprint =>
    params.metadata = channelMetadata channel ∧
      params.idempotencyKey = s!"pi-{channel.shortSlug}-{buyerFingerprint}"

theorem Call.isFor_providerRequest :
    (call.providerRequest channel terms).IsFor channel call.request.buyerFingerprint := by
  unfold Call.providerRequest
  split
  · exact ⟨rfl, rfl⟩
  · exact ⟨rfl, rfl⟩

theorem ProviderRequest.IsFor.eq {r : ProviderRequest} {channel channel' : ChannelData}
    {buyerFingerprint buyerFingerprint' : String} (h : r.IsFor channel buyerFingerprint)
    (h' : r.IsFor channel' buyerFingerprint') :
    channel.shortSlug = channel'.shortSlug ∧ buyerFingerprint = buyerFingerprint' := by
  have hslug : ∀ {metadata}, metadata = channelMetadata channel →
      metadata = channelMetadata channel' → channel.shortSlug = channel'.shortSlug := by
    intro metadata hmetadata hmetadata'
    have heq := hmetadata.symm.trans hmetadata'
    simp only [channelMetadata, List.cons.injEq, Prod.mk.injEq] at heq
    exact heq.2.1.2
  cases r with
  | session params =>
    have heq := hslug h.1 h'.1
    refine ⟨heq, ?_⟩
    have hkey := h.2.symm.trans h'.2
    rw [heq] at hkey
    exact (String.append_right_inj _).mp hkey
  | intent params =>
    have heq := hslug h.1 h'.1
    refine ⟨heq, ?_⟩
    have hkey := h.2.symm.trans h'.2
    rw [heq] at hkey
    exact (String.append_right_inj _).mp hkey

end Calls

/-! ### The tokens of a channel -/

section Tokens

variable {V : Type} {channels : Store Slug V} {redis : Redis} {now : ℕ} {slug : Slug}

/-- The token is bound to the buyer, and kept about as long as the channel: `TTL` rounds to
seconds. -/
def Bound (redis : Redis) (slug : Slug) (member : BoundToken) : Prop :=
  ∃ channel expiry members until_, redis.channels.entry slug = some ⟨channel, some expiry⟩ ∧
    redis.paymentTokens.entry slug = some ⟨members, some until_⟩ ∧ member ∈ members ∧
      expiry < until_ + 500

theorem ttl_pos (h : 0 < channels.ttl now slug) : ∃ v expiry,
    channels.entry slug = some ⟨v, some expiry⟩ ∧ now + 500 ≤ expiry ∧
      channels.ttl now slug = ((expiry - now + 500) / 1000 : ℕ) := by
  rw [Store.ttl] at h ⊢
  split at h
  · exact absurd h (by decide)
  · exact absurd h (by decide)
  next v expiry hentry =>
    exact ⟨v, expiry, Store.entryAt_eq_some hentry, by omega, rfl⟩

theorem bound_storePaymentToken (h : 0 < redis.channels.ttl now slug) (tokenHash : String)
    (buyerFingerprint : String) :
    let stored := redis.storePaymentToken now slug tokenHash
      (redis.channels.ttl now slug).toNat buyerFingerprint
    Bound stored slug ⟨tokenHash, buyerFingerprint⟩ ∧
      ∀ member, Bound redis slug member → Bound stored slug member := by
  obtain ⟨channel, expiry, hchannel, hleft, httl⟩ := ttl_pos h
  intro stored
  obtain ⟨e, he, hnew, hold⟩ := @Store.entryAt_sadd_self _ _ _ _ redis.paymentTokens now slug
    ⟨tokenHash, buyerFingerprint⟩
  have hentry : stored.paymentTokens.entry slug =
      some ⟨e.value, some (now + 1000 * (redis.channels.ttl now slug).toNat)⟩ := by
    refine @Store.entryAt_eq_some _ _ _ now _ _ ?_
    change ((redis.paymentTokens.sadd now slug _).expire now slug _).entryAt now slug = _
    rw [Store.entryAt_expire_self, he]
    rfl
  have huntil : expiry < now + 1000 * (redis.channels.ttl now slug).toNat + 500 := by
    rw [httl, Int.toNat_natCast]
    omega
  refine ⟨⟨channel, expiry, _, _, hchannel, hentry, hnew, huntil⟩, ?_⟩
  rintro member ⟨channel', expiry', members, until_, hchannel', hmembers, hmember, hlong⟩
  obtain ⟨rfl, hexpiry⟩ := Entry.mk.inj (Option.some.inj (hchannel.symm.trans hchannel'))
  obtain rfl := Option.some.inj hexpiry
  have hlive : redis.paymentTokens.entryAt now slug = some ⟨members, some until_⟩ := by
    rw [Store.entryAt, hmembers]
    exact Option.filter_eq_some_iff.mpr ⟨rfl, decide_eq_true (by omega)⟩
  exact ⟨channel, expiry, _, _, hchannel, hentry, hold _ hlive hmember, huntil⟩

theorem bound_storePaymentToken_of_ne {slug' : Slug} (hne : slug' ≠ slug) {tokenHash : String}
    {ttl : ℕ} {buyerFingerprint : String} {member : BoundToken} :
    Bound (redis.storePaymentToken now slug tokenHash ttl buyerFingerprint) slug' member ↔
      Bound redis slug' member := by
  have hentry : (redis.storePaymentToken now slug tokenHash ttl
      buyerFingerprint).paymentTokens.entry slug' = redis.paymentTokens.entry slug' := by
    change ((redis.paymentTokens.sadd now slug _).expire now slug ttl).entry slug' = _
    unfold Store.expire Store.sadd
    split <;> split <;> simp only [Store.put_of_ne hne]
  unfold Bound
  rw [hentry]
  rfl

end Tokens

/-! ### The invariant of a run -/

section Run

variable {sha256 : String → String} {s : State} {call : Call}

/-- What is stored for the purchases so far: the provider has their objects, and a token that waits
to be claimed for one is bound to its buyer. -/
structure Kept (sha256 : String → String) (s : State) : Prop where
  consistent : Consistent s
  known : ∀ p ∈ s.purchases, ∃ o ∈ s.stripe, o.objectId = p.objectId ∧
    o.request.IsFor p.channel p.buyerFingerprint
  bound : ∀ p ∈ s.purchases, ∀ e,
    s.redis.checkoutTokens.entry (p.channel.shortSlug, p.objectId) = some e →
      Bound s.redis p.channel.shortSlug ⟨sha256 e.value, p.buyerFingerprint⟩

theorem Call.recorded_of_not (h : ∀ response, (call.reply sha256 s).result ≠ .ok (some response)) :
    call.recorded sha256 s = some s.payments := by
  unfold Call.recorded
  split
  next hresult => exact absurd hresult (h _)
  next => rfl

/-- A call that gets no object leaves the provider and the payments as they are. -/
theorem Call.step_of_not (h : ∀ response, (call.reply sha256 s).result ≠ .ok (some response))
    (hmemory : (call.reply sha256 s).events.foldl Memory.observe s.stripe = s.stripe) :
    step sha256 s (.checkout call) = { s with redis := (call.reply sha256 s).redis } := by
  have hpurchase : call.purchase sha256 s = none := by
    refine Option.eq_none_iff_forall_not_mem.mpr fun p hp => ?_
    obtain ⟨channel, terms, o, hterms, httl, ho, -⟩ := Call.purchase_eq_some hp
    have hanswered : call.Answered sha256 s channel.shortSlug _ := Call.answered hterms httl
    rw [ho] at hanswered
    exact h _ hanswered.result
  rw [step, hmemory, Call.recorded_of_not h, hpurchase, Option.toList_none, List.append_nil]
  rfl

theorem bound_stored {channel : ChannelData} {slug : Slug} {member : BoundToken}
    (httl : 0 < s.redis.channels.ttl call.now channel.shortSlug)
    (h : Bound s.redis slug member) :
    Bound (call.stored sha256 s channel.shortSlug) slug member := by
  by_cases hslug : slug = channel.shortSlug
  · subst hslug
    exact (bound_storePaymentToken httl _ _).2 member h
  · exact (bound_storePaymentToken_of_ne hslug).mpr h

section Answered

variable {channel : ChannelData} {terms : Terms} {o : ProviderObject}
  (hterms : call.terms s = some (channel, terms))
  (httl : 0 < s.redis.channels.ttl call.now channel.shortSlug)
  (ho : s.stripe.answer call.drawn (call.providerRequest channel terms) = some o)
  (hanswered : call.Answered sha256 s channel.shortSlug (some o))

include hterms

include ho in
theorem Call.mem_purchases_step {p : Purchase}
    (hp : p ∈ (step sha256 s (.checkout call)).purchases) :
    p ∈ s.purchases ∨ p = ⟨channel, call.request.buyerFingerprint, o.objectId⟩ := by
  rcases List.mem_append.mp hp with hp | hp
  · exact .inl hp
  · obtain ⟨channel', terms', o', hterms', -, ho', rfl⟩ :=
      Call.purchase_eq_some (Option.mem_toList.mp hp)
    obtain ⟨rfl, rfl⟩ := Prod.mk.inj (Option.some.inj (hterms.symm.trans hterms'))
    obtain rfl := Option.some.inj (ho.symm.trans ho')
    exact .inr rfl

include ho in
theorem Kept.known_step (h : Kept sha256 s) :
    ∀ p ∈ (step sha256 s (.checkout call)).purchases, ∃ o' ∈ s.stripe.insert o,
      o'.objectId = p.objectId ∧ o'.request.IsFor p.channel p.buyerFingerprint := by
  intro p hp
  rcases Call.mem_purchases_step hterms ho hp with hp | rfl
  · obtain ⟨o', ho', hrest⟩ := h.known p hp
    exact ⟨o', Table.subset_insert o ho', hrest⟩
  · refine ⟨o, Replay.mem_insert_answer ho, rfl, ?_⟩
    rw [request_of_answer ho]
    exact Call.isFor_providerRequest

include hanswered

theorem Call.mem_payments_step {p : FileSharePayment}
    (hp : p ∈ (step sha256 s (.checkout call)).payments.rows) :
    p ∈ s.payments.rows ∨ p.stripeCheckoutSessionId = o.checkoutSessionId := by
  change p ∈ ((call.recorded sha256 s).getD s.payments).rows at hp
  rw [Call.recorded_of_answered hterms hanswered] at hp
  cases hsession : call.session with
  | none =>
    rw [hsession] at hp
    exact .inl hp
  | some session =>
    rw [hsession, Option.elim_some] at hp
    cases hrecord : recordPayment session s.payments channel terms call.request o.response with
    | none =>
      rw [hrecord] at hp
      exact .inl hp
    | some payments =>
      rw [hrecord] at hp
      exact mem_recordPayment hrecord hp

include ho

theorem Consistent.step (h : Consistent s) : Consistent (step sha256 s (.checkout call)) := by
  intro p hp id hid
  have hmemory : (Checkouts.step sha256 s (.checkout call)).stripe = s.stripe.insert o :=
    hanswered.memory
  rw [hmemory]
  rcases Call.mem_payments_step hterms hanswered hp with hold | hnew
  · obtain ⟨o', ho', heq⟩ := List.mem_map.mp (h p hold id hid)
    exact List.mem_map.mpr ⟨o', Table.subset_insert o ho', heq⟩
  · rw [hnew] at hid
    refine List.mem_map.mpr ⟨o, Replay.mem_insert_answer ho, ?_⟩
    cases o with
    | session params object => exact Option.some.inj hid
    | intent params object => exact absurd hid (Option.not_mem_none id)

include httl

/-- The token that is stored under the object replaces one for the same buyer. -/
theorem Kept.bound_step (h : Kept sha256 s) :
    ∀ p ∈ (step sha256 s (.checkout call)).purchases, ∀ e,
      (step sha256 s (.checkout call)).redis.checkoutTokens.entry
          (p.channel.shortSlug, p.objectId) = some e →
        Bound (step sha256 s (.checkout call)).redis p.channel.shortSlug
          ⟨sha256 e.value, p.buyerFingerprint⟩ := by
  intro p hp e he
  have hredis : (step sha256 s (.checkout call)).redis =
      (call.stored sha256 s channel.shortSlug).storeCheckoutPaymentToken call.now
        channel.shortSlug o.objectId call.token := hanswered.redis
  rw [hredis] at he ⊢
  change ((call.stored sha256 s channel.shortSlug).checkoutTokens.setex call.now
    (channel.shortSlug, o.objectId) checkoutTokenTtl call.token).entry _ = _ at he
  by_cases hkey : (p.channel.shortSlug, p.objectId) = (channel.shortSlug, o.objectId)
  · obtain ⟨hslug, hid⟩ := Prod.mk.inj hkey
    rw [hkey, Store.setex, Store.put_self] at he
    obtain rfl := Option.some.inj he
    obtain ⟨o', ho', hid', hfor⟩ := h.known_step hterms ho p hp
    obtain rfl : o' = o := Table.eq_of_key_eq ho' (Replay.mem_insert_answer ho) (hid'.trans hid)
    have hisFor : o'.request.IsFor channel call.request.buyerFingerprint :=
      request_of_answer ho ▸ Call.isFor_providerRequest
    rw [(hfor.eq hisFor).2, hslug]
    exact (bound_storePaymentToken httl _ _).1
  · rw [Store.setex, Store.put_of_ne hkey] at he
    rcases Call.mem_purchases_step hterms ho hp with hp | rfl
    · exact bound_stored httl (h.bound p hp e he)
    · exact absurd rfl hkey

end Answered

theorem Kept.checkout (h : Kept sha256 s) (call : Call) :
    Kept sha256 (step sha256 s (.checkout call)) := by
  by_cases hasks : ∃ channel terms, call.terms s = some (channel, terms) ∧
      0 < s.redis.channels.ttl call.now channel.shortSlug
  · obtain ⟨channel, terms, hterms, httl⟩ := hasks
    have hanswered : call.Answered sha256 s channel.shortSlug _ := Call.answered hterms httl
    cases ho : s.stripe.answer call.drawn (call.providerRequest channel terms) with
    | none =>
      rw [ho] at hanswered
      have hnot : ∀ response, (call.reply sha256 s).result ≠ .ok (some response) :=
        fun response hresponse => absurd (hresponse.symm.trans hanswered.result) (by simp)
      have hredis : (call.reply sha256 s).redis = call.stored sha256 s channel.shortSlug :=
        hanswered.redis
      rw [Call.step_of_not hnot hanswered.memory, hredis]
      exact ⟨h.consistent, h.known, fun p hp e he => bound_stored httl (h.bound p hp e he)⟩
    | some o =>
      rw [ho] at hanswered
      have hmemory : (step sha256 s (.checkout call)).stripe = s.stripe.insert o :=
        hanswered.memory
      constructor
      · exact h.consistent.step hterms ho hanswered
      · rw [hmemory]
        exact h.known_step hterms ho
      · exact h.bound_step hterms httl ho hanswered
  · have hnot : ∀ channel terms, call.terms s = some (channel, terms) →
        s.redis.channels.ttl call.now channel.shortSlug ≤ 0 :=
      fun channel terms hterms => not_lt.mp fun httl => hasks ⟨channel, terms, hterms, httl⟩
    obtain ⟨hredis, hevents, hresult⟩ := @Call.reply_of_not sha256 call s hnot
    rw [Call.step_of_not hresult (by rw [hevents]; rfl), hredis]
    exact h

theorem entry_claim {now : ℕ} {slug : Slug} {objectId : String}
    {retrieved : Except StripeError CheckoutSession} :
    let redis := (claimCheckoutPaymentToken (retrieving retrieved) now s.redis slug objectId).redis
    redis.channels = s.redis.channels ∧ redis.paymentTokens = s.redis.paymentTokens ∧
      ∀ k e, redis.checkoutTokens.entry k = some e → s.redis.checkoutTokens.entry k = some e := by
  obtain ⟨hredis, -⟩ | ⟨-, -, hredis, -⟩ := @claimCheckoutPaymentToken_cases
    (retrieving retrieved) now s.redis slug objectId
  · dsimp only
    rw [hredis]
    exact ⟨rfl, rfl, fun _ _ => id⟩
  · dsimp only
    rw [hredis]
    refine ⟨rfl, rfl, fun k e he => ?_⟩
    change (s.redis.checkoutTokens.delete (slug, objectId)).entry k = some e at he
    by_cases hk : k = (slug, objectId)
    · rw [hk, Store.delete, Store.put_self] at he
      exact absurd he.symm (Option.some_ne_none e)
    · rwa [Store.delete, Store.put_of_ne hk] at he

theorem Kept.step (h : Kept sha256 s) (l : Step) : Kept sha256 (Checkouts.step sha256 s l) := by
  cases l with
  | checkout call => exact h.checkout call
  | claim now slug objectId retrieved =>
    obtain ⟨hchannels, htokens, hentry⟩ := @entry_claim s now slug objectId retrieved
    refine ⟨h.consistent, h.known, fun p hp e he => ?_⟩
    have hbound := h.bound p hp e (hentry _ _ he)
    unfold Bound at hbound ⊢
    rw [← hchannels, ← htokens] at hbound
    exact hbound

/-! ### When a claim is valid -/

theorem claim_eq_some_iff {now : ℕ} {slug : Slug} {objectId : String}
    {retrieved : Except StripeError CheckoutSession} {token : Token} :
    (claimCheckoutPaymentToken (retrieving retrieved) now s.redis slug objectId).result =
        .ok (some token) ↔
      Claimable s now slug retrieved ∧
        s.redis.checkoutTokens.get now (slug, objectId) = some token := by
  rw [claimCheckoutPaymentToken]
  cases hchannel : s.redis.fetchChannel now slug with
  | none =>
    refine iff_of_false (by simp) ?_
    rintro ⟨⟨channel, hsome, -⟩, -⟩
    rw [hchannel] at hsome
    exact Option.not_mem_none channel hsome
  | some channel =>
    have hclaimable : Claimable s now slug retrieved ↔ truthy channel.sellerStripeId = none ∨
        ∀ cs, retrieved = .ok cs → cs.paymentStatus = "paid" := by
      unfold Claimable
      rw [hchannel]
      simp
    have hrelease : (Except.ok (s.redis.claimCheckoutPaymentToken now slug objectId).1 :
        Except Failure (Option Token)) = .ok (some token) ↔
          s.redis.checkoutTokens.get now (slug, objectId) = some token := by
      rw [Except.ok.injEq]
      rfl
    rw [hclaimable]
    dsimp only
    cases haccount : truthy channel.sellerStripeId with
    | none => exact hrelease.trans (and_iff_right (.inl rfl)).symm
    | some account =>
      rw [or_iff_right (Option.some_ne_none account)]
      cases hretrieved : retrieved with
      | error err => exact hrelease.trans (and_iff_right (by simp)).symm
      | ok cs =>
        dsimp only [retrieving]
        by_cases hpaid : cs.paymentStatus = "paid"
        · rw [if_neg (not_not.mpr hpaid)]
          refine hrelease.trans (and_iff_right ?_).symm
          intro cs' hcs'
          rwa [← Except.ok.inj hcs']
        · rw [if_pos hpaid]
          refine iff_of_false (by simp) fun h => ?_
          exact hpaid (h.1 cs rfl)

/-- A token that waits for a purchase is valid as long as the channel's tokens are kept. -/
theorem Kept.validates_iff (h : Kept sha256 s) {p : Purchase} (hp : p ∈ s.purchases) {now : ℕ}
    {token : Token}
    (htoken : s.redis.checkoutTokens.get now (p.channel.shortSlug, p.objectId) = some token) :
    s.redis.validatePaymentToken now sha256 token p.channel p.buyerFingerprint ↔
      (s.redis.paymentTokens.get now p.channel.shortSlug).isSome := by
  obtain ⟨e, he, rfl⟩ := Store.get_eq_some.mp htoken
  obtain ⟨channel, expiry, members, until_, -, hmembers, hmember, -⟩ :=
    h.bound p hp e (Store.entryAt_eq_some he)
  rw [Redis.validatePaymentToken, Store.sismember_iff]
  constructor
  · rintro ⟨e', he', -⟩
    rw [Store.get, he']
    rfl
  · intro hsome
    obtain ⟨v, hv⟩ := Option.isSome_iff_exists.mp hsome
    obtain ⟨e', he', -⟩ := Store.get_eq_some.mp hv
    refine ⟨e', he', ?_⟩
    obtain rfl := Option.some.inj ((Store.entryAt_eq_some he').symm.trans hmembers)
    exact hmember

/-! ### Repeated checkouts -/

theorem Kept.served_iff_meets (h : Kept sha256 s) (past : List Step) (l : Step) :
    Served sha256 past s l ↔ Meets past s l := by
  cases l with
  | checkout call =>
    constructor
    · intro hserved channel terms hterms
      refine (Call.succeeds_iff h.consistent hterms).mp (hserved ?_)
      rw [hterms]
      rfl
    · intro hmeets hsome
      obtain ⟨⟨channel, terms⟩, hterms⟩ := Option.isSome_iff_exists.mp hsome
      exact (Call.succeeds_iff h.consistent hterms).mpr (hmeets channel terms hterms)
  | claim now slug objectId retrieved =>
    have htokens : (Checkouts.step sha256 s
        (.claim now slug objectId retrieved)).redis.paymentTokens = s.redis.paymentTokens :=
      (@entry_claim s now slug objectId retrieved).2.1
    have hvalid : ∀ token channel buyerFingerprint,
        (Checkouts.step sha256 s (.claim now slug objectId retrieved)).redis.validatePaymentToken
          now sha256 token channel buyerFingerprint =
        s.redis.validatePaymentToken now sha256 token channel buyerFingerprint := by
      intro token channel buyerFingerprint
      rw [Redis.validatePaymentToken, htokens]
      rfl
    constructor
    · intro hserved p hp hslug hid hclaimable hsome
      obtain ⟨token, htoken⟩ := Option.isSome_iff_exists.mp hsome
      have hvalidates := hserved p hp hslug hid token
        (claim_eq_some_iff.mpr ⟨hclaimable, htoken⟩)
      rw [hvalid] at hvalidates
      subst hslug hid
      exact (h.validates_iff hp htoken).mp hvalidates
    · intro hmeets p hp hslug hid token hresult
      obtain ⟨hclaimable, htoken⟩ := claim_eq_some_iff.mp hresult
      have hkept := hmeets p hp hslug hid hclaimable (by rw [htoken]; rfl)
      rw [hvalid]
      subst hslug hid
      exact (h.validates_iff hp htoken).mpr hkept

/-- **Repeated checkouts.** From a state in which what is recorded comes from the provider and no
purchase is pending, the buyers of a run are served exactly if every checkout that passes the price
check comes some time before the channel expires, repeats an earlier request to the provider in
everything or makes a new one that the provider accepts, and repeats no Checkout Session that is
recorded; and every claim comes before the channel's tokens expire. -/
theorem served_iff (hs : Consistent s) (hnew : s.purchases = []) (steps : List Step) :
    (checkouts sha256 s).Along (Served sha256) steps ↔ (checkouts sha256 s).Along Meets steps := by
  have hkept : ∀ past, Kept sha256 ((checkouts sha256 s).after past) := by
    intro past
    induction past using List.reverseRecOn with
    | nil =>
      refine ⟨hs, ?_, ?_⟩ <;> rw [Transition.System.after_nil] <;> change ∀ p ∈ s.purchases, _ <;>
        rw [hnew] <;> exact fun _ hp => absurd hp List.not_mem_nil
    | append_singleton past l ih =>
      rw [Transition.System.after_snoc]
      exact ih.step l
  exact (checkouts sha256 s).along_congr fun past l => (hkept past).served_iff_meets past l

end Run

/-! ### Two checkouts of one channel -/

/-- A database with the audit row of the channel `ab`. -/
def audited : AsyncSession where
  db :=
    { Database.empty with
      fileShareSessions := Table.singleton { id := 1, shortSlug := "ab" }
      paymentMethods_customer := by decide
      fileShareSessions_shortSlug := by decide }

/-- The paid channel, before anybody has come to its checkout. -/
def offered : State := { redis := paidChannel }

/-- A buyer comes to the checkout without a saved card. -/
def visit (now : ℕ) (buyerFingerprint : String) (token : Token) (sessionId : String) : Call where
  now := now
  session := some audited
  request := { slug := "ab", buyerFingerprint }
  token := token
  drawn := { session := some { id := sessionId, paymentStatus := "unpaid" } }

/-- Two buyers with different fingerprints are served; so they meet the condition. -/
theorem twoBuyers_meet : (checkouts id offered).Along Meets
    [.checkout (visit 0 "fp" "token" "cs_1"), .checkout (visit 1 "other" "token'" "cs_2")] := by
  refine (served_iff (fun _ hp => absurd hp List.not_mem_nil) rfl _).mp ⟨fun _ => ?_, fun _ => ?_,
    trivial⟩
  · exact ⟨.checkout "" "cs_1", by decide +kernel⟩
  · exact ⟨.checkout "" "cs_2", by decide +kernel⟩

/-- A buyer who comes back is not: Stripe answers with the session that is recorded already, and
the insert of the payment fails. -/
theorem sameBuyer_not_served : ¬ (checkouts id offered).Along (Served id)
    [.checkout (visit 0 "fp" "token" "cs_1"), .checkout (visit 1 "fp" "token'" "cs_2")] := by
  rintro ⟨-, hserved, -⟩
  obtain ⟨response, hresponse⟩ := hserved (by decide +kernel)
  have hfails : (visit 1 "fp" "token'" "cs_2").result id
      (step id offered (.checkout (visit 0 "fp" "token" "cs_1"))) = .error .sqlAlchemyError := by
    decide +kernel
  exact absurd (hfails.symm.trans hresponse) nofun

end Checkouts

end Rapidly.FileSharing.Payments
