import Rapidly.KeyValue.Store

/-!
# Channels, secrets and payment tokens in Redis

The parts of `sharing/file_sharing/queries.py` that paid items rest on. Each key pattern is a
store of its own in `Redis`, so that a key is the tuple of values the pattern interpolates;
a slug or an identifier never contains the separator (`validate_slug`, UUIDs). What is stored
encrypted at rest (`_encrypt_token`) or as JSON is stored as itself; a channel key that holds
no channel (a slug reservation) reads like a missing one.

A payment token exists in two places. Its digest, bound to the buyer's fingerprint, is a
member of the item's set of tokens; the token itself waits under the identifier of the
provider's object until a buyer claims it.
-/

namespace Rapidly.FileSharing.Payments

open KeyValue

/-- A short or long channel slug. -/
abbrev Slug := String

/-- A character of the class `[a-z0-9]`. -/
def isLowerAlphanum (c : Char) : Bool := c.isLower || c.isDigit

/-- `validate_slug`: the pattern `^[a-z0-9][a-z0-9/\-]{1,255}$`, whose `$` also matches in front
of a final newline. -/
def validSlug (slug : Slug) : Bool :=
  let chars := slug.toList
  match if chars.getLast? = some '\n' then chars.dropLast else chars with
  | [] => false
  | c :: rest =>
    isLowerAlphanum c && 1 ≤ rest.length && rest.length ≤ 255 &&
      rest.all fun c => isLowerAlphanum c || c = '/' || c = '-'

/-- A payment token in clear. -/
abbrev Token := String

/-- The truth value of a `str | None`. -/
def truthy (s : Option String) : Option String := s.filter (· ≠ "")

/-- The columns of `ChannelData` that payments read. -/
structure ChannelData where
  longSlug : Slug
  shortSlug : Slug
  priceCents : Option ℤ := none
  currency : String := "usd"
  sellerStripeId : Option String := none
  userId : Option String := none
  fileName : Option String := none
  shareId : Option String := none
deriving DecidableEq

/-- `ChannelData.is_paid`. -/
def ChannelData.isPaid (channel : ChannelData) : Bool := channel.priceCents.any (0 < ·)

/-- A stored text or file secret. -/
structure SecretData where
  message : String
  priceCents : Option ℤ := none
  currency : String := "usd"
  title : Option String := none
  workspaceId : Option String := none
  sellerStripeId : Option String := none
deriving DecidableEq

/-- `SecretData.is_paid`. -/
def SecretData.isPaid (secret : SecretData) : Bool := secret.priceCents.any (0 < ·)

/-- The two kinds of one-time items. -/
inductive Kind where
  | secret
  | file
deriving DecidableEq

/-- The digest of a payment token, bound to the buyer it was made for. -/
structure BoundToken where
  tokenHash : String
  buyerFingerprint : String
deriving DecidableEq

/-- The keys of the payment flow, one store for each pattern. -/
structure Redis where
  /-- `file-sharing:channel:{slug}` -/
  channels : Store Slug ChannelData := Store.empty
  /-- `file-sharing:channel:reader_token:{slug}` -/
  readerTokens : Store Slug String := Store.empty
  /-- `file-sharing:channel:pending_token:{slug}` -/
  pendingTokens : Store Slug Unit := Store.empty
  /-- `file-sharing:channel:payment_tokens:{slug}` -/
  paymentTokens : Store Slug (List BoundToken) := Store.empty
  /-- `file-sharing:checkout-token:{slug}:{checkout_session_id}` -/
  checkoutTokens : Store (Slug × String) Token := Store.empty
  /-- `file-sharing:secret:{item_id}` and `file-sharing:file:{item_id}` -/
  items : Store (Kind × String) SecretData := Store.empty
  /-- `file-sharing:secret:payment_tokens:{secret_id}` -/
  secretPaymentTokens : Store String (List BoundToken) := Store.empty
  /-- `file-sharing:secret:checkout-token:{secret_id}:{checkout_session_id}` -/
  secretCheckoutTokens : Store (String × String) Token := Store.empty

/-- Seconds a token waits to be claimed (`_CHECKOUT_TOKEN_TTL`,
`_SECRET_CHECKOUT_TOKEN_TTL`). -/
def checkoutTokenTtl : ℕ := 900

namespace Redis

variable (redis : Redis) (now : ℕ)

/-! ### Channels -/

/-- `fetch_channel`. -/
def fetchChannel (slug : Slug) : Option ChannelData := redis.channels.get now slug

/-- `is_pending_token`, with the channel at hand. -/
def isPendingToken (channel : ChannelData) : Bool :=
  (redis.pendingTokens.get now channel.shortSlug).isSome

/-- `has_reader_token`, with the channel at hand. -/
def hasReaderToken (channel : ChannelData) : Bool :=
  (redis.readerTokens.get now channel.shortSlug).isSome

/-- `validate_reader_token`, with the channel at hand. -/
def validateReaderToken (sha256 : String → String) (token : String) (channel : ChannelData) :
    Bool :=
  redis.readerTokens.get now channel.shortSlug = some (sha256 token)

/-- `store_payment_token`: adds the digest to the set and renews the set's time to live. -/
def storePaymentToken (slug : Slug) (tokenHash : String) (ttl : ℕ) (buyerFingerprint : String) :
    Redis :=
  let stored := redis.paymentTokens.sadd now slug ⟨tokenHash, buyerFingerprint⟩
  { redis with paymentTokens := stored.expire now slug ttl }

/-- `validate_payment_token`, with the channel at hand. -/
def validatePaymentToken (sha256 : String → String) (token : Token) (channel : ChannelData)
    (buyerFingerprint : String) : Bool :=
  redis.paymentTokens.sismember now channel.shortSlug ⟨sha256 token, buyerFingerprint⟩

/-- `store_checkout_payment_token`. -/
def storeCheckoutPaymentToken (slug : Slug) (checkoutSessionId : String)
    (paymentToken : Token) : Redis :=
  { redis with
    checkoutTokens :=
      redis.checkoutTokens.setex now (slug, checkoutSessionId) checkoutTokenTtl paymentToken }

/-- `ChannelRepository.claim_checkout_payment_token`: the token is removed as it is read. -/
def claimCheckoutPaymentToken (slug : Slug) (checkoutSessionId : String) :
    Option Token × Redis :=
  let claimed := redis.checkoutTokens.getdel now (slug, checkoutSessionId)
  (claimed.1, { redis with checkoutTokens := claimed.2 })

/-- `delete_channel`: the channel under both slugs, and what is stored for it. -/
def deleteChannel (channel : ChannelData) : Redis :=
  { redis with
    channels := (redis.channels.delete channel.shortSlug).delete channel.longSlug
    readerTokens := (redis.readerTokens.delete channel.shortSlug).delete channel.longSlug
    pendingTokens := (redis.pendingTokens.delete channel.shortSlug).delete channel.longSlug
    paymentTokens := redis.paymentTokens.delete channel.shortSlug }

/-! ### Secrets -/

/-- `_peek`. -/
def peek (kind : Kind) (itemId : String) : Option SecretData :=
  redis.items.get now (kind, itemId)

/-- `_fetch`: the item is removed as it is read. -/
def fetch (kind : Kind) (itemId : String) : Option SecretData × Redis :=
  let fetched := redis.items.getdel now (kind, itemId)
  (fetched.1, { redis with items := fetched.2 })

/-- `store_secret_payment_token`. -/
def storeSecretPaymentToken (secretId tokenHash : String) (ttl : ℕ)
    (buyerFingerprint : String) : Redis :=
  let stored := redis.secretPaymentTokens.sadd now secretId ⟨tokenHash, buyerFingerprint⟩
  { redis with secretPaymentTokens := stored.expire now secretId ttl }

/-- `validate_secret_payment_token`. -/
def validateSecretPaymentToken (sha256 : String → String) (secretId : String) (token : Token)
    (buyerFingerprint : String) : Bool :=
  redis.secretPaymentTokens.sismember now secretId ⟨sha256 token, buyerFingerprint⟩

/-- `store_secret_checkout_payment_token`. -/
def storeSecretCheckoutPaymentToken (secretId checkoutSessionId : String)
    (paymentToken : Token) : Redis :=
  { redis with
    secretCheckoutTokens :=
      redis.secretCheckoutTokens.setex now (secretId, checkoutSessionId) checkoutTokenTtl
        paymentToken }

/-- `SecretRepository.claim_secret_checkout_payment_token`: the token is removed as it is
read. -/
def claimSecretCheckoutPaymentToken (secretId checkoutSessionId : String) :
    Option Token × Redis :=
  let claimed := redis.secretCheckoutTokens.getdel now (secretId, checkoutSessionId)
  (claimed.1, { redis with secretCheckoutTokens := claimed.2 })

end Redis

end Rapidly.FileSharing.Payments
