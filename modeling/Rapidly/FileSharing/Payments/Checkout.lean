import Rapidly.FileSharing.Payments.Repository
import Rapidly.FileSharing.Schema
import Rapidly.Identity.Auth.Middleware

/-!
# Checkout of paid items

The payment actions of `sharing/file_sharing/actions.py`, the checkout route of `api.py` and
the admission of a downloader in `signaling.py`.

Stripe is not part of the repository. Its three calls are the fields of a `Stripe`, each of
which answers with an object or raises; every call that is made is an event, with the
parameters it was made with and its answer. So is every payment token that is stored,
returned to a buyer, or accepted for the content of a paid item.

The writes to the audit tables (`_pg_create_payment`) and rate limits are left out. An
exception other than `ValueError` ends a request with what it wrote to Redis so far.
-/

namespace Rapidly.FileSharing.Payments

open Relational Identity

/-! ### The database -/

/-- The tables a checkout reads. -/
structure Database extends Identity.Database where
  paymentMethods : Table PaymentMethod.id := Table.empty
  fileShareSessions : Table FileShareSession.id := Table.empty
  paymentMethods_customer :
    paymentMethods.References PaymentMethod.customerId customers := by decide
  fileShareSessions_shortSlug :
    fileShareSessions.UniqueOn FileShareSession.shortSlug := by decide

/-- The database without rows. -/
def Database.empty : Database := { toDatabase := Identity.Database.empty }

/-- A database session. -/
structure AsyncSession where
  db : Database
  /-- The query for the audit row of a channel raises. -/
  priceQueryRaises : Bool := false

namespace AsyncSession

variable (session : AsyncSession)

/-- `PaymentMethodRepository.get_by_id`: deleted rows are not found. -/
def getPaymentMethod (id : Uuid) : Option PaymentMethod :=
  (session.db.paymentMethods.get id).filter (·.deletedAt.isNone)

/-- `CustomerRepository.get_by_id`: deleted rows are not found. -/
def getCustomer (id : Uuid) : Option Customer :=
  (session.db.customers.get id).filter (·.deletedAt.isNone)

/-- `FileShareSessionRepository.get_by_short_slug`, `none` when the query raises. -/
def getByShortSlug (slug : Slug) : Option (Option FileShareSession) :=
  if session.priceQueryRaises then none
  else (oneOrNone (session.db.fileShareSessions.select fun r =>
    r.shortSlug = slug ∧ r.deletedAt = none)).toOption

end AsyncSession

/-! ### The payment provider -/

/-- An exception of the provider's client library. -/
inductive StripeError where
  | mk
deriving DecidableEq

structure PaymentIntent where
  id : String
  status : String
  clientSecret : Option String := none
deriving DecidableEq

structure CheckoutSession where
  id : String
  url : Option String := none
  paymentStatus : String
deriving DecidableEq

/-- The parameters of `create_payment_intent_destination`. -/
structure PaymentIntentParams where
  amount : ℤ
  currency : String
  customer : String
  paymentMethod : String
  connectedAccountId : String
  applicationFeeAmount : ℤ
  metadata : List (String × String)
  idempotencyKey : String
deriving DecidableEq

/-- The parameters of `create_checkout_session_direct`. -/
structure CheckoutSessionParams where
  connectedAccountId : String
  priceCents : ℤ
  currency : String
  applicationFeeAmount : ℤ
  productName : String
  successPath : String
  cancelPath : String
  metadata : List (String × String)
  idempotencyKey : String
deriving DecidableEq

/-- How the provider answers. -/
structure Stripe where
  createPaymentIntent : PaymentIntentParams → Except StripeError PaymentIntent
  createCheckoutSession : CheckoutSessionParams → Except StripeError CheckoutSession
  /-- The status of a session, by its identifier and the seller's account. -/
  retrieveCheckoutSession : String → String → Except StripeError CheckoutSession

/-- A call that was made, with its answer. -/
inductive StripeCall where
  | createPaymentIntent (params : PaymentIntentParams)
      (answer : Except StripeError PaymentIntent)
  | createCheckoutSession (params : CheckoutSessionParams)
      (answer : Except StripeError CheckoutSession)
  | retrieveCheckoutSession (id account : String)
      (answer : Except StripeError CheckoutSession)
deriving DecidableEq

/-- The provider's object that a call created. -/
def StripeCall.created : StripeCall → Option String
  | createPaymentIntent _ (.ok intent) => some intent.id
  | createCheckoutSession _ (.ok session) => some session.id
  | _ => none

/-- The provider's object that a call reports as paid: a PaymentIntent that succeeded, a
session whose payment status is `paid`. -/
def StripeCall.reportedPaid : StripeCall → Option String
  | createPaymentIntent _ (.ok intent) =>
    if intent.status = "succeeded" then some intent.id else none
  | createCheckoutSession _ (.ok session) =>
    if session.paymentStatus = "paid" then some session.id else none
  | retrieveCheckoutSession id _ (.ok session) =>
    if session.paymentStatus = "paid" then some id else none
  | _ => none

/-! ### Requests and what they do -/

/-- What is paid for: a channel, by its short slug, or a text or file secret. -/
inductive Item where
  | channel (shortSlug : Slug)
  | secret (id : String)
deriving DecidableEq

/-- What a request does, as seen from outside. -/
inductive Event where
  | stripe (item : Item) (call : StripeCall)
  /-- The digest of the token became a member of the item's tokens. -/
  | tokenStored (item : Item) (token : Token)
  /-- The token was returned to the caller who named the provider's object. -/
  | tokenReturned (item : Item) (objectId : String) (token : Token)
  /-- The content of the item, which is paid, was made available for a token. -/
  | contentReleased (item : Item)
deriving DecidableEq

/-- How a request fails. -/
inductive Failure where
  | httpException (detail : String)
  | valueError (text : String)
  | stripeError
deriving DecidableEq

/-- The outcome of an action. -/
structure Reply (α : Type) where
  redis : Redis
  events : List Event := []
  result : Except Failure α

/-- `ChannelCheckoutResponse`, `SecretCheckoutResponse` and `DirectPaymentResponse`. -/
inductive CheckoutResponse where
  | checkout (checkoutUrl sessionId : String)
  | directPayment (clientSecret paymentIntentId : String) (requiresAction : Bool)
deriving DecidableEq

/-- `FILE_SHARING_PLATFORM_FEE_PERCENT`, in hundredths of a percent. -/
def platformFeePercent : ℤ := 200

/-- The platform's share of a price. -/
def feeAmount (priceCents : ℤ) : ℤ := priceCents * platformFeePercent / 10000

/-! ### Checkout of a channel -/

/-- `_validate_channel_price`: the audit row's price and currency win; a failing query is a
`ValueError`. -/
def validateChannelPrice (session : Option AsyncSession) (channel : ChannelData)
    (priceCents : ℤ) : Except String (ℤ × String) :=
  match session with
  | none => .ok (priceCents, channel.currency)
  | some session =>
    match session.getByShortSlug channel.shortSlug with
    | none => .error "Price verification failed — please try again later"
    | some none => .ok (priceCents, channel.currency)
    | some (some pgSession) =>
      match pgSession.priceCents with
      | none => .ok (priceCents, channel.currency)
      | some pgPrice => .ok (pgPrice, pgSession.currency)

/-- What a checkout of a channel asks for. -/
structure Terms where
  sellerStripeId : String
  priceCents : ℤ
  currency : String
deriving DecidableEq

/-- The checks in front of a checkout. -/
def checkoutTerms (session : Option AsyncSession) (channel : ChannelData) :
    Except String Terms :=
  match channel.isPaid, truthy channel.sellerStripeId with
  | true, some account =>
    match channel.priceCents with
    | none => .error "Channel price_cents must be set for paid channels"
    | some priceCents =>
      (validateChannelPrice session channel priceCents).map fun price =>
        { sellerStripeId := account, priceCents := price.1, currency := price.2 }
  | _, _ => .error "Channel is not configured for payments"

/-- A call of `create_checkout`. -/
structure CheckoutRequest where
  slug : Slug
  buyerFingerprint : String := ""
  paymentMethodId : Option Uuid := none
  buyerCustomerId : Option Uuid := none
deriving DecidableEq

/-- The saved card that a checkout charges directly, with Stripe's identifier of its owner:
the owner is compared with the customer the caller vouches for. -/
def savedCard (session : Option AsyncSession) (request : CheckoutRequest) :
    Option (PaymentMethod × String) :=
  match session, request.paymentMethodId, request.buyerCustomerId with
  | some session, some paymentMethodId, some buyerCustomerId => do
    let pm ← session.getPaymentMethod paymentMethodId
    if pm.customerId = buyerCustomerId then
      let customer ← session.getCustomer pm.customerId
      let stripeCustomerId ← truthy customer.stripeCustomerId
      some (pm, stripeCustomerId)
    else none
  | _, _, _ => none

/-- The metadata of a channel's payment. -/
def channelMetadata (channel : ChannelData) : List (String × String) :=
  [("platform", "rapidly"), ("channel_slug", channel.shortSlug),
    ("user_id", channel.userId.getD ""), ("share_id", channel.shareId.getD "")]

/-- What Stripe is asked for when a saved card is charged. -/
def paymentIntentParams (channel : ChannelData) (terms : Terms) (pm : PaymentMethod)
    (stripeCustomerId buyerFingerprint : String) : PaymentIntentParams where
  amount := terms.priceCents
  currency := terms.currency
  customer := stripeCustomerId
  paymentMethod := pm.processorId
  connectedAccountId := terms.sellerStripeId
  applicationFeeAmount := feeAmount terms.priceCents
  metadata := channelMetadata channel
  idempotencyKey := s!"pi-{channel.shortSlug}-{buyerFingerprint}"

/-- What Stripe is asked for when the buyer is sent to Stripe Checkout. -/
def checkoutSessionParams (channel : ChannelData) (terms : Terms) (buyerFingerprint : String) :
    CheckoutSessionParams where
  connectedAccountId := terms.sellerStripeId
  priceCents := terms.priceCents
  currency := terms.currency
  applicationFeeAmount := feeAmount terms.priceCents
  productName := (truthy channel.fileName).getD "File Download"
  successPath := s!"/checkout-return/{channel.shortSlug}"
    ++ "?session_id=\x7bCHECKOUT_SESSION_ID\x7d"
  cancelPath := s!"/checkout-return/{channel.shortSlug}?cancelled=true"
  metadata := channelMetadata channel
  idempotencyKey := s!"checkout-{channel.shortSlug}-{buyerFingerprint}"

section Actions

variable (sha256 : String → String) (stripe : Stripe) (now : ℕ) (redis : Redis)

/-- Charge a saved card (path B of `create_checkout`). -/
def chargeSavedCard (channel : ChannelData) (terms : Terms) (pm : PaymentMethod)
    (stripeCustomerId buyerFingerprint : String) (token : Token) :
    Reply (Option CheckoutResponse) :=
  let params := paymentIntentParams channel terms pm stripeCustomerId buyerFingerprint
  let answer := stripe.createPaymentIntent params
  let events := [.stripe (.channel channel.shortSlug) (.createPaymentIntent params answer)]
  match answer with
  | .error _ => { redis, events, result := .error .stripeError }
  | .ok intent =>
    { redis := redis.storeCheckoutPaymentToken now channel.shortSlug intent.id token
      events
      result := .ok <| some <| .directPayment (intent.clientSecret.getD "") intent.id
        (intent.status = "requires_action") }

/-- Open a Checkout Session (path A of `create_checkout`). -/
def openCheckoutSession (channel : ChannelData) (terms : Terms) (buyerFingerprint : String)
    (token : Token) : Reply (Option CheckoutResponse) :=
  let params := checkoutSessionParams channel terms buyerFingerprint
  let answer := stripe.createCheckoutSession params
  let events := [.stripe (.channel channel.shortSlug) (.createCheckoutSession params answer)]
  match answer with
  | .error _ => { redis, events, result := .error .stripeError }
  | .ok session =>
    { redis := redis.storeCheckoutPaymentToken now channel.shortSlug session.id token
      events
      result := .ok <| some <| .checkout (session.url.getD "") session.id }

/-- `create_checkout`, with the token it generates as an argument. -/
def createCheckout (session : Option AsyncSession) (request : CheckoutRequest) (token : Token) :
    Reply (Option CheckoutResponse) :=
  match redis.fetchChannel now request.slug with
  | none => { redis, result := .ok none }
  | some channel =>
    match checkoutTerms session channel with
    | .error text => { redis, result := .error (.valueError text) }
    | .ok terms =>
      let ttl := redis.channels.ttl now channel.shortSlug
      if ttl ≤ 0 then { redis, result := .ok none }
      else
        -- The token counts from here on; it is only not yet known to anybody.
        let stored := redis.storePaymentToken now channel.shortSlug (sha256 token) ttl.toNat
          request.buyerFingerprint
        let reply := match savedCard session request with
          | some (pm, stripeCustomerId) =>
            chargeSavedCard stripe now stored channel terms pm stripeCustomerId
              request.buyerFingerprint token
          | none =>
            openCheckoutSession stripe now stored channel terms request.buyerFingerprint token
        { reply with
          events := .tokenStored (.channel channel.shortSlug) token :: reply.events }

/-- The card that the checkout route looks up: an anonymous caller cannot use saved cards. -/
def namedCard (session : AsyncSession) (subject : Auth.Subject)
    (paymentMethodId : Option Uuid) : Option PaymentMethod :=
  match subject with
  | .anonymous => none
  | _ => paymentMethodId.bind session.getPaymentMethod

/-- The checkout route. Without a card, or with an unknown one, it falls through to a Checkout
Session; otherwise the owner of the named card is passed on as the buyer. -/
def createCheckoutRoute (session : AsyncSession) (subject : Auth.Subject) (slug : Slug)
    (buyerFingerprint : String) (paymentMethodId : Option Uuid) (token : Token) :
    Reply (Option CheckoutResponse) :=
  if validSlug slug then
    let named := namedCard session subject paymentMethodId
    createCheckout sha256 stripe now redis (some session)
      { slug, buyerFingerprint, paymentMethodId := named.bind fun _ => paymentMethodId,
        buyerCustomerId := named.map PaymentMethod.customerId } token
  else { redis, result := .error (.httpException "Invalid slug format") }

/-- `claim_checkout_payment_token`: asks the provider first, unless the channel has no seller
account, and lets a failing call pass. -/
def claimCheckoutPaymentToken (slug : Slug) (checkoutSessionId : String) :
    Reply (Option Token) :=
  let release (events : List Event) : Reply (Option Token) :=
    let claimed := redis.claimCheckoutPaymentToken now slug checkoutSessionId
    { redis := claimed.2
      events := events ++
        claimed.1.toList.map (.tokenReturned (.channel slug) checkoutSessionId ·)
      result := .ok claimed.1 }
  match redis.fetchChannel now slug with
  | none => { redis, result := .ok none }
  | some channel =>
    match truthy channel.sellerStripeId with
    | none => release []
    | some account =>
      let answer := stripe.retrieveCheckoutSession checkoutSessionId account
      let events :=
        [.stripe (.channel slug) (.retrieveCheckoutSession checkoutSessionId account answer)]
      match answer with
      | .ok cs =>
        if cs.paymentStatus ≠ "paid" then { redis, events, result := .ok none }
        else release events
      -- A call that raises is only logged: the claim is allowed.
      | .error _ => release events

/-- The downloader knows the reader token, or none was or will be registered. -/
def readerAdmitted (channel : ChannelData) (readerToken : Option String) : Bool :=
  match truthy readerToken with
  | some token => redis.validateReaderToken now sha256 token channel
  | none => !(redis.hasReaderToken now channel || redis.isPendingToken now channel)

/-- `_validate_file_guest`: admits a downloader to the room of a channel, through which the
files are transferred. -/
def validateFileGuest (slug : Slug) (readerToken paymentToken : Option String)
    (buyerFingerprint : String) : Reply Bool :=
  match redis.fetchChannel now slug with
  | none => { redis, result := .ok false }
  | some channel =>
    if !readerAdmitted sha256 now redis channel readerToken then { redis, result := .ok false }
    else if channel.isPaid then
      match truthy paymentToken with
      | none => { redis, result := .ok false }
      | some token =>
        if redis.validatePaymentToken now sha256 token channel buyerFingerprint then
          { redis, events := [.contentReleased (.channel channel.shortSlug)],
            result := .ok true }
        else { redis, result := .ok false }
    else { redis, result := .ok true }

/-! ### Secrets -/

/-- `create_secret_checkout`, with the token it generates as an argument. -/
def createSecretCheckout (kind : Kind) (secretId buyerFingerprint : String) (token : Token) :
    Reply (Option CheckoutResponse) :=
  match redis.peek now kind secretId with
  | none => { redis, result := .ok none }
  | some secret =>
    match secret.isPaid, truthy secret.sellerStripeId, secret.priceCents with
    | true, some account, some priceCents =>
      let ttl := redis.items.ttl now (kind, secretId)
      if ttl ≤ 0 then { redis, result := .ok none }
      else
        let stored := redis.storeSecretPaymentToken now secretId (sha256 token) ttl.toNat
          buyerFingerprint
        let returnPath := s!"/secret-checkout-return/{secretId}"
        let params : CheckoutSessionParams :=
          { connectedAccountId := account, priceCents, currency := secret.currency,
            applicationFeeAmount := feeAmount priceCents,
            productName := (truthy secret.title).getD
              (match kind with | .secret => "Encrypted Secret" | .file => "Encrypted File"),
            successPath := returnPath ++ "?session_id=\x7bCHECKOUT_SESSION_ID\x7d",
            cancelPath := returnPath ++ "?cancelled=true",
            metadata := [("platform", "rapidly"), ("secret_id", secretId),
              ("kind", match kind with | .secret => "secret" | .file => "file"),
              ("workspace_id", secret.workspaceId.getD "")],
            idempotencyKey := s!"secret-checkout-{secretId}-{buyerFingerprint}" }
        let answer := stripe.createCheckoutSession params
        let events : List Event :=
          [.tokenStored (.secret secretId) token,
            .stripe (.secret secretId) (.createCheckoutSession params answer)]
        match answer with
        | .error _ => { redis := stored, events, result := .error .stripeError }
        | .ok session =>
          { redis := stored.storeSecretCheckoutPaymentToken now secretId session.id token
            events
            result := .ok <| some <| .checkout (session.url.getD "") session.id }
    | true, some _, none =>
      { redis, result := .error (.valueError "price_cents must be set for paid items") }
    | _, _, _ =>
      { redis, result := .error (.valueError "Item is not configured for payments") }

/-- `claim_secret_checkout_payment_token`: the provider is not asked. -/
def claimSecretCheckoutPaymentToken (kind : Kind) (secretId checkoutSessionId : String) :
    Reply (Option Token) :=
  match redis.peek now kind secretId with
  | none => { redis, result := .ok none }
  | some _ =>
    let claimed := redis.claimSecretCheckoutPaymentToken now secretId checkoutSessionId
    { redis := claimed.2
      events := claimed.1.toList.map (.tokenReturned (.secret secretId) checkoutSessionId ·)
      result := .ok claimed.1 }

/-- `SecretFetchResponse`. -/
structure SecretFetchResponse where
  message : String
  paymentRequired : Bool := false
  priceCents : Option ℤ := none
  currency : Option String := none
  title : Option String := none
deriving DecidableEq

/-- The token lets its bearer read a paid item. -/
def paymentVerified (itemId : String) (paymentToken : Option Token)
    (buyerFingerprint : String) : Bool :=
  (truthy paymentToken).any fun token =>
    redis.validateSecretPaymentToken now sha256 itemId token buyerFingerprint

/-- `fetch_secret_or_file`: a paid item without a valid token is described, not consumed. -/
def fetchSecretOrFile (kind : Kind) (itemId : String) (paymentToken : Option Token)
    (buyerFingerprint : String) : Reply (Option SecretFetchResponse) :=
  match redis.peek now kind itemId with
  | none => { redis, result := .ok none }
  | some peeked =>
    if peeked.isPaid && !paymentVerified sha256 now redis itemId paymentToken buyerFingerprint
    then
      { redis
        result := .ok <| some
          { message := "", paymentRequired := true, priceCents := peeked.priceCents,
            currency := some peeked.currency, title := peeked.title } }
    else
      let fetched := redis.fetch now kind itemId
      { redis := fetched.2
        events := if peeked.isPaid then [.contentReleased (.secret itemId)] else []
        result := .ok (fetched.1.map fun secret => { message := secret.message }) }

end Actions

end Rapidly.FileSharing.Payments
