import Rapidly.FileSharing.Payments.Repository
import Rapidly.KeyValue.Lifetime

/-!
# Everything a channel keeps in Redis

`ChannelRepository` of `sharing/file_sharing/queries.py` with all of its key patterns, and the
scripts of `redis_scripts.py`. Each definition is what one Redis command, one `MULTI`/`EXEC`
pipeline or one Lua script does: what a method does between two of them is in
`Channels/Lifecycle.lean`.

As in `Payments/Repository.lean`, each key pattern is a store of its own, and what is stored as
JSON or encrypted is stored as itself. The information in a pending-destruction marker, which
nothing reads, is left out.
-/

namespace Rapidly.FileSharing.Channels

open KeyValue Payments

/-- The columns of `ChannelData` that the channel endpoints read. -/
structure ChannelData extends Payments.ChannelData where
  /-- The keyed hash of the channel secret. -/
  secret : String
  /-- `0` is unlimited. -/
  maxDownloads : ℕ := 0
  title : Option String := none
  fileSizeBytes : Option ℤ := none
  creatorCountry : String := ""
  sessionKind : String := "file"
deriving DecidableEq

/-- The configured times to live of channels, in seconds. -/
structure Settings where
  /-- `FILE_SHARING_CHANNEL_TTL` -/
  channelTtl : ℕ := 3600
  /-- `FILE_SHARING_PAID_CHANNEL_TTL` -/
  paidChannelTtl : ℕ := 86400
  channelTtl_pos : 0 < channelTtl := by decide
deriving DecidableEq

/-- The keys of channels, one store for each pattern. -/
structure Redis where
  /-- `file-sharing:channel:{slug}` -/
  channels : Store Slug ChannelData := Store.empty
  /-- `file-sharing:channel:reader_token:{slug}` -/
  readerTokens : Store Slug String := Store.empty
  /-- `file-sharing:channel:pending_token:{slug}` -/
  pendingTokens : Store Slug Unit := Store.empty
  /-- `file-sharing:channel:pending_destruction:{slug}` -/
  pendingDestructions : Store Slug Unit := Store.empty
  /-- `file-sharing:channel:pw_attempts:{slug}` -/
  pwAttempts : Store Slug ℕ := Store.empty
  /-- `file-sharing:channel:download_count:{slug}` -/
  downloadCounts : Store Slug ℕ := Store.empty
  /-- `file-sharing:channel:{slug}:checksums` -/
  checksums : Store Slug (List (String × String)) := Store.empty
  /-- `file-sharing:channel:payment_tokens:{slug}` -/
  paymentTokens : Store Slug (List BoundToken) := Store.empty
  /-- `file-sharing:checkout-token:{slug}:{checkout_session_id}` -/
  checkoutTokens : Store (Slug × String) Token := Store.empty

/-- `CHANNEL_DESTRUCTION_DELAY`, in seconds. -/
def channelDestructionDelay : ℕ := 30

/-- The time to live of a pending-token marker, in seconds. -/
def pendingTtl : ℕ := 120

/-- `MAX_PASSWORD_ATTEMPTS`. -/
def maxPasswordAttempts : ℕ := 10

/-- `PASSWORD_ATTEMPT_TTL`, in seconds. -/
def passwordAttemptTtl : ℕ := 900

/-! ### Scripts on counters -/

/-- `ATOMIC_DOWNLOAD_INCR_LUA`: `none` when the limit is reached. -/
def atomicDownloadIncr (counts : Store Slug ℕ) (now : ℕ) (key : Slug)
    (maxDownloads counterTtl : ℕ) : Option ℕ × Store Slug ℕ :=
  if maxDownloads ≤ (counts.get now key).getD 0 then (none, counts)
  else
    let incremented := counts.incr now key
    (some incremented.1,
      if incremented.1 = 1 then incremented.2.expire now key counterTtl else incremented.2)

/-- `ATOMIC_INCR_EXPIRE_LUA`. -/
def atomicIncrExpire (counts : Store Slug ℕ) (now : ℕ) (key : Slug) (ttl : ℕ) :
    ℕ × Store Slug ℕ :=
  let incremented := counts.incr now key
  (incremented.1,
    if incremented.1 = 1 then incremented.2.expire now key ttl else incremented.2)

/-- What `ATOMIC_PENDING_DESTRUCTION_LUA` returns: `0`, `1` and `2`. -/
inductive PendingDestruction where
  | channelNotFound
  | pendingSet
  | alreadyPending
deriving DecidableEq

/-- What `ATOMIC_DESTROY_CHANNEL_LUA` returns: `0`, `-2` and `1`. -/
inductive Destruction where
  | channelNotFound
  | notPending
  | destroyed
deriving DecidableEq

namespace Redis

variable (redis : Redis) (now : ℕ) (channel : ChannelData)

/-! ### The channel itself -/

/-- The pipeline of `create_channel`: the channel under both slugs, and the markers that block
access until a reader token is registered. -/
def createChannel (ttl : ℕ) : Redis :=
  { redis with
    channels := (redis.channels.setex now channel.shortSlug ttl channel).setex now
      channel.longSlug ttl channel
    pendingTokens := (redis.pendingTokens.setex now channel.shortSlug pendingTtl ()).setex now
      channel.longSlug pendingTtl () }

/-- `fetch_channel`. -/
def fetchChannel (slug : Slug) : Option ChannelData := redis.channels.get now slug

/-- The pipeline of `renew_channel`. -/
def renewChannel (ttl : ℕ) (readerTokenExists : Bool) : Redis :=
  { redis with
    channels := (redis.channels.expire now channel.shortSlug ttl).expire now
      channel.longSlug ttl
    readerTokens :=
      if readerTokenExists then redis.readerTokens.expire now channel.shortSlug ttl
      else redis.readerTokens
    downloadCounts := redis.downloadCounts.expire now channel.shortSlug ttl
    pendingDestructions := redis.pendingDestructions.delete channel.shortSlug }

/-- The `SET` of `ATOMIC_PENDING_DESTRUCTION_LUA`. -/
def markPendingDestruction : Redis :=
  { redis with
    pendingDestructions := redis.pendingDestructions.setex now channel.shortSlug
      channelDestructionDelay () }

/-- `ATOMIC_PENDING_DESTRUCTION_LUA`. -/
def atomicPendingDestruction : PendingDestruction × Redis :=
  if (redis.channels.entryAt now channel.shortSlug).isNone then (.channelNotFound, redis)
  else if (redis.pendingDestructions.entryAt now channel.shortSlug).isSome then
    (.alreadyPending, redis)
  else (.pendingSet, redis.markPendingDestruction now channel)

/-- The `DEL` of `ATOMIC_DESTROY_CHANNEL_LUA`, with the keys that `request_channel_destruction`
passes. -/
def destroyChannel : Redis :=
  { redis with
    channels := (redis.channels.delete channel.shortSlug).delete channel.longSlug
    pendingDestructions := redis.pendingDestructions.delete channel.shortSlug
    readerTokens := (redis.readerTokens.delete channel.shortSlug).delete channel.longSlug
    pendingTokens := (redis.pendingTokens.delete channel.shortSlug).delete channel.longSlug
    pwAttempts := redis.pwAttempts.delete channel.shortSlug
    downloadCounts := redis.downloadCounts.delete channel.shortSlug }

/-- `ATOMIC_DESTROY_CHANNEL_LUA`. -/
def atomicDestroyChannel : Destruction × Redis :=
  if (redis.channels.entryAt now channel.shortSlug).isNone then (.channelNotFound, redis)
  else if (redis.pendingDestructions.entryAt now channel.shortSlug).isNone then
    (.notPending, redis)
  else (.destroyed, redis.destroyChannel channel)

/-- `delete_channel`. -/
def deleteChannel : Redis :=
  { redis with
    channels := (redis.channels.delete channel.shortSlug).delete channel.longSlug
    readerTokens := (redis.readerTokens.delete channel.shortSlug).delete channel.longSlug
    pendingTokens := (redis.pendingTokens.delete channel.shortSlug).delete channel.longSlug
    pwAttempts := redis.pwAttempts.delete channel.shortSlug
    downloadCounts := redis.downloadCounts.delete channel.shortSlug
    pendingDestructions := redis.pendingDestructions.delete channel.shortSlug
    paymentTokens := redis.paymentTokens.delete channel.shortSlug }

/-! ### Reader tokens -/

/-- `is_pending_token`, with the channel at hand. -/
def isPendingToken : Bool := (redis.pendingTokens.entryAt now channel.shortSlug).isSome

/-- `has_reader_token`, with the channel at hand. -/
def hasReaderToken : Bool := (redis.readerTokens.entryAt now channel.shortSlug).isSome

/-- `validate_reader_token`, with the channel at hand. -/
def validateReaderToken (sha256 : String → String) (token : String) : Bool :=
  redis.readerTokens.get now channel.shortSlug = some (sha256 token)

/-- The pipeline of `set_reader_token`. -/
def storeReaderToken (ttl : ℕ) (tokenHash : String) : Redis :=
  { redis with
    readerTokens := redis.readerTokens.setex now channel.shortSlug ttl tokenHash
    pendingTokens :=
      (redis.pendingTokens.delete channel.shortSlug).delete channel.longSlug }

/-! ### Downloads -/

/-- `check_download_available`, with the channel at hand. -/
def checkDownloadAvailable : Bool :=
  channel.maxDownloads = 0 ||
    (redis.downloadCounts.get now channel.shortSlug).getD 0 < channel.maxDownloads

/-- The script of `record_download_complete`, for a channel with a limit. -/
def claimSlot (counterTtl : ℕ) : Option ℕ × Redis :=
  let claimed := atomicDownloadIncr redis.downloadCounts now channel.shortSlug
    channel.maxDownloads counterTtl
  (claimed.1, { redis with downloadCounts := claimed.2 })

/-- `INCR` of the download counter, for a channel without a limit. -/
def countDownload : ℕ × Redis :=
  let counted := redis.downloadCounts.incr now channel.shortSlug
  (counted.1, { redis with downloadCounts := counted.2 })

/-- `EXPIRE` of the download counter. -/
def expireDownloadCount (counterTtl : ℕ) : Redis :=
  { redis with
    downloadCounts := redis.downloadCounts.expire now channel.shortSlug counterTtl }

/-! ### Passwords and checksums -/

/-- The script of `record_password_attempt`. -/
def countPasswordAttempt : ℕ × Redis :=
  let counted :=
    atomicIncrExpire redis.pwAttempts now channel.shortSlug passwordAttemptTtl
  (counted.1, { redis with pwAttempts := counted.2 })

/-- `SETEX` of `store_checksums`. -/
def storeChecksums (ttl : ℕ) (checksums : List (String × String)) : Redis :=
  { redis with checksums := redis.checksums.setex now channel.shortSlug ttl checksums }

/-! ### Payment tokens -/

/-- The pipeline of `store_payment_token`. -/
def storePaymentToken (ttl : ℕ) (token : BoundToken) : Redis :=
  let stored := redis.paymentTokens.sadd now channel.shortSlug token
  { redis with paymentTokens := stored.expire now channel.shortSlug ttl }

/-- `validate_payment_token`, with the channel at hand. -/
def validatePaymentToken (sha256 : String → String) (token : Token)
    (buyerFingerprint : String) : Bool :=
  redis.paymentTokens.sismember now channel.shortSlug ⟨sha256 token, buyerFingerprint⟩

/-- `store_checkout_payment_token`. -/
def storeCheckoutPaymentToken (checkoutSessionId : String) (paymentToken : Token) : Redis :=
  { redis with
    checkoutTokens := redis.checkoutTokens.setex now (channel.shortSlug, checkoutSessionId)
      checkoutTokenTtl paymentToken }

/-- `claim_checkout_payment_token`. -/
def claimCheckoutPaymentToken (slug : Slug) (checkoutSessionId : String) :
    Option Token × Redis :=
  let claimed := redis.checkoutTokens.getdel now (slug, checkoutSessionId)
  (claimed.1, { redis with checkoutTokens := claimed.2 })

end Redis

end Rapidly.FileSharing.Channels
