import Rapidly.FileSharing.Channels.Repository
import Rapidly.Transition.System

/-!
# The life of a channel

The requests about one channel, from its creation on, as a transition system whose steps are
single Redis commands, pipelines and scripts. What a request holds between two of them is a
`Call`; any number of calls are under way at a time, on any number of workers, and the labels
decide which of them goes on next and how much time passes in between.

* Every request starts with the `GET` of `fetch_channel`. `Call` names the command that comes
  next, with what the request knows by then.
* The endpoints that only read (`fetch_channel`, the admission of a guest) are followed up to
  the point where the reader is let through or turned away.
* What Stripe or the database answer is part of the label. Rate limits are left out.

Slugs are reserved before a channel is created, so the two slugs of a channel differ, and no
other channel is stored under either of them.
-/

namespace Rapidly.FileSharing.Channels

open KeyValue Payments Transition

/-- What the handlers take from their surroundings. -/
structure Environment where
  settings : Settings := {}
  /-- The hexadecimal SHA-256 of a token. -/
  sha256 : String → String
  /-- `_hash_secret`. -/
  hashSecret : String → String

/-- A channel as it was created. -/
structure Channel where
  data : ChannelData
  /-- Seconds it was given. -/
  ttl : ℕ
  createdAt : ℕ := 0
  slugs_ne : data.longSlug ≠ data.shortSlug := by decide

/-! ### Requests -/

inductive Request where
  | setReaderToken (slug : Slug) (secret tokenHash : String)
  | renewChannel (slug : Slug) (secret : String) (ttl : Option ℕ)
  | destroyChannel (slug : Slug) (secret : String)
  | recordDownloadComplete (slug : Slug) (readerToken : String)
  | recordPasswordAttempt (slug : Slug) (secret : String)
  | uploadChecksums (slug : Slug) (secret : String) (checksums : List (String × String))
  /-- With the payment token that it generates. -/
  | createCheckout (slug : Slug) (buyerFingerprint : String) (paymentToken : Token)
  | claimCheckoutPaymentToken (slug : Slug) (checkoutSessionId : String)
  | reportChannel (slug : Slug) (readerToken : String)
  | fetchChannel (slug : Slug) (readerToken : Option String)
  | validateFileGuest (slug : Slug) (readerToken : Option String)
deriving DecidableEq

/-- The slug a request is about. -/
def Request.slug : Request → Slug
  | .setReaderToken slug .. | .renewChannel slug .. | .destroyChannel slug ..
  | .recordDownloadComplete slug .. | .recordPasswordAttempt slug .. | .uploadChecksums slug ..
  | .createCheckout slug .. | .claimCheckoutPaymentToken slug .. | .reportChannel slug ..
  | .fetchChannel slug .. | .validateFileGuest slug .. => slug

/-- A request at the command it executes next. -/
inductive Call where
  /-- `GET` of the channel. -/
  | fetching (request : Request)
  | readingTtl (channel : ChannelData) (tokenHash : String)
  | storingReaderToken (channel : ChannelData) (ttl : ℕ) (tokenHash : String)
  | lookingForReaderToken (channel : ChannelData) (ttl : ℕ)
  | renewing (channel : ChannelData) (ttl : ℕ) (readerTokenExists : Bool)
  | requestingDestruction (channel : ChannelData)
  | confirmingDestruction (channel : ChannelData)
  | completionPending (channel : ChannelData) (readerToken : String)
  | completionReader (channel : ChannelData) (readerToken : String)
  | completionTtl (channel : ChannelData)
  | claimingSlot (channel : ChannelData) (counterTtl : ℕ)
  | countingDownload (channel : ChannelData) (counterTtl : ℕ)
  | expiringCount (channel : ChannelData) (counterTtl downloadCount : ℕ)
  | countingAttempt (channel : ChannelData)
  | checksumsTtl (channel : ChannelData) (checksums : List (String × String))
  | storingChecksums (channel : ChannelData) (ttl : ℕ) (checksums : List (String × String))
  | checkoutTtl (channel : ChannelData) (buyerFingerprint : String) (paymentToken : Token)
  | storingPaymentToken (channel : ChannelData) (ttl : ℕ) (buyerFingerprint : String)
      (paymentToken : Token)
  /-- The provider is asked, and its object remembered. -/
  | payingFor (channel : ChannelData) (paymentToken : Token)
  | claimingPaymentToken (slug : Slug) (checkoutSessionId : String)
  | reportPending (channel : ChannelData) (readerToken : String)
  | reportHasReader (channel : ChannelData) (readerToken : String)
  | reportReader (channel : ChannelData) (readerToken : String)
  | deleting (channel : ChannelData)
  | fetchPending (channel : ChannelData) (readerToken : Option String)
  | fetchReader (channel : ChannelData) (readerToken : Option String)
  | guestReader (channel : ChannelData) (readerToken : Option String)
  | guestPending (channel : ChannelData)
  | finished
deriving DecidableEq

/-- What requests answer, and what they achieve on the way. -/
inductive Output where
  /-- `ReaderTokenResponse` -/
  | readerToken (success : Bool)
  /-- `ChannelRenewResponse` -/
  | renew (success : Bool)
  /-- An authenticated destroy request has reached the channel. -/
  | destructionRequested
  /-- `ChannelDestroyResponse` -/
  | destroy (success immediate : Bool) (message : String)
  /-- `DownloadCompleteResponse`, with the slot that was claimed. -/
  | downloadComplete (success : Bool) (remaining : ℤ) (downloadCount : ℕ)
  /-- `PasswordAttemptResponse` -/
  | passwordAttempt (allowed : Bool)
  /-- `ChecksumUploadResponse` -/
  | checksumUpload (success : Bool)
  /-- The digest of a payment token is stored for the channel. -/
  | paymentTokenStored (token : BoundToken)
  /-- The provider's object for a checkout. -/
  | checkout (objectId : String)
  | checkoutFailed
  | paymentToken (token : Option Token)
  /-- `ReportResponse` -/
  | report (success : Bool)
  /-- A reader is let through, with the reader token or without. -/
  | admitted (readerToken : Option String)
  | refused
deriving DecidableEq

/-- How the outside world answers a call. -/
structure Settlement where
  /-- The database or the provider answers, and does not raise. -/
  fulfilled : Bool := true
  /-- The identifier of the provider's new object. -/
  objectId : String := ""
deriving DecidableEq

/-! ### The handlers, command by command -/

/-- What a call does with its next command. -/
structure Advance where
  redis : Redis
  call : Call := .finished
  outputs : List Output := []

/-- The end of a request that finds no channel, or has the wrong secret. -/
def Request.rejection : Request → Output
  | .setReaderToken .. => .readerToken false
  | .renewChannel .. => .renew false
  | .destroyChannel .. => .destroy false false "Channel not found"
  | .recordDownloadComplete .. => .downloadComplete false 0 0
  | .recordPasswordAttempt .. => .passwordAttempt false
  | .uploadChecksums .. => .checksumUpload false
  | .createCheckout .. => .checkoutFailed
  | .claimCheckoutPaymentToken .. => .paymentToken none
  | .reportChannel .. => .report false
  | .fetchChannel .. | .validateFileGuest .. => .refused

section Handlers

variable (E : Environment)

/-- The secret is the one of the channel. -/
def secretMatches (channel : ChannelData) (secret : String) : Bool :=
  channel.secret = E.hashSecret secret

/-- What a request does once it has its channel: the next command, or the answer. -/
def dispatch (channel : ChannelData) (settlement : Settlement) : Request → Call ⊕ Output
  | .setReaderToken _ secret tokenHash =>
    if secretMatches E channel secret then .inl (.readingTtl channel tokenHash)
    else .inr (.readerToken false)
  | .renewChannel _ secret ttl =>
    if secretMatches E channel secret then
      -- `ttl or settings.FILE_SHARING_CHANNEL_TTL`
      .inl (.lookingForReaderToken channel
        ((ttl.filter (0 < ·)).getD E.settings.channelTtl))
    else .inr (.renew false)
  | .destroyChannel _ secret =>
    if secretMatches E channel secret then .inl (.requestingDestruction channel)
    else .inr (.destroy false false "Invalid secret")
  | .recordDownloadComplete _ readerToken => .inl (.completionPending channel readerToken)
  | .recordPasswordAttempt _ secret =>
    if secretMatches E channel secret then .inl (.countingAttempt channel)
    else .inr (.passwordAttempt false)
  | .uploadChecksums _ secret checksums =>
    if secretMatches E channel secret then .inl (.checksumsTtl channel checksums)
    else .inr (.checksumUpload false)
  | .createCheckout _ buyerFingerprint paymentToken =>
    if channel.isPaid ∧ (truthy channel.sellerStripeId).isSome ∧ settlement.fulfilled then
      .inl (.checkoutTtl channel buyerFingerprint paymentToken)
    else .inr .checkoutFailed
  | .claimCheckoutPaymentToken slug checkoutSessionId =>
    if settlement.fulfilled then .inl (.claimingPaymentToken slug checkoutSessionId)
    else .inr (.paymentToken none)
  | .reportChannel _ readerToken => .inl (.reportPending channel readerToken)
  | .fetchChannel _ readerToken => .inl (.fetchPending channel readerToken)
  | .validateFileGuest _ readerToken =>
    -- the only guests that have a validator are those of files
    if channel.sessionKind = "file" then .inl (.guestReader channel readerToken)
    else .inr .refused

/-- The check of a reader token that was presented. -/
def checkReader (redis : Redis) (now : ℕ) (channel : ChannelData) (readerToken : String) :
    Output :=
  if redis.validateReaderToken now channel E.sha256 readerToken then .admitted (some readerToken)
  else .refused

/-- Execute the next command of a call, and go on to the one after that. -/
def advance (redis : Redis) (now : ℕ) (settlement : Settlement) : Call → Advance
  | .fetching request =>
    match redis.fetchChannel now request.slug with
    | none => { redis, outputs := [request.rejection] }
    | some channel =>
      match dispatch E channel settlement request with
      | .inl call => { redis, call }
      | .inr output => { redis, outputs := [output] }
  -- `set_reader_token`
  | .readingTtl channel tokenHash =>
    let ttl := redis.channels.ttl now channel.shortSlug
    if ttl ≤ 0 then { redis, outputs := [.readerToken false] }
    else { redis, call := .storingReaderToken channel ttl.toNat tokenHash.toLower }
  | .storingReaderToken channel ttl tokenHash =>
    { redis := redis.storeReaderToken now channel ttl tokenHash
      outputs := [.readerToken true] }
  -- `renew_channel`
  | .lookingForReaderToken channel ttl =>
    { redis, call := .renewing channel ttl (redis.hasReaderToken now channel) }
  | .renewing channel ttl readerTokenExists =>
    { redis := redis.renewChannel now channel ttl readerTokenExists
      outputs := [.renew true] }
  -- `request_channel_destruction`
  | .requestingDestruction channel =>
    let requested := redis.atomicPendingDestruction now channel
    match requested.1 with
    | .channelNotFound => { redis, outputs := [.destroy false false "Channel not found"] }
    | .pendingSet =>
      { redis := requested.2
        outputs := [.destructionRequested, .destroy true false
          (s!"Destruction pending. Channel will be destroyed in {channelDestructionDelay} " ++
            "seconds unless cancelled by the owner. Request again to confirm immediately.")] }
    | .alreadyPending =>
      { redis, call := .confirmingDestruction channel, outputs := [.destructionRequested] }
  | .confirmingDestruction channel =>
    let destroyed := redis.atomicDestroyChannel now channel
    { redis := destroyed.2
      outputs := match destroyed.1 with
        | .channelNotFound => [.destroy false false "Channel not found"]
        | .notPending =>
          [.destroy false false "Destruction confirmation expired. Please try again."]
        | .destroyed => [.destroy true true "Channel destroyed"] }
  -- `record_download_complete`
  | .completionPending channel readerToken =>
    if redis.isPendingToken now channel then { redis, outputs := [.downloadComplete false 0 0] }
    else { redis, call := .completionReader channel readerToken }
  | .completionReader channel readerToken =>
    if redis.validateReaderToken now channel E.sha256 readerToken then
      { redis, call := .completionTtl channel }
    else { redis, outputs := [.downloadComplete false 0 0] }
  | .completionTtl channel =>
    let counterTtl := (max (redis.channels.ttl now channel.shortSlug) 3600).toNat
    if channel.maxDownloads = 0 then { redis, call := .countingDownload channel counterTtl }
    else { redis, call := .claimingSlot channel counterTtl }
  | .claimingSlot channel counterTtl =>
    let claimed := redis.claimSlot now channel counterTtl
    { redis := claimed.2
      outputs := match claimed.1 with
        | none => [.downloadComplete false 0 0]
        | some slot => [.downloadComplete true (channel.maxDownloads - slot : ℕ) slot] }
  | .countingDownload channel counterTtl =>
    let counted := redis.countDownload now channel
    if counted.1 = 1 then
      { redis := counted.2, call := .expiringCount channel counterTtl counted.1 }
    else { redis := counted.2, outputs := [.downloadComplete true (-1) counted.1] }
  | .expiringCount channel counterTtl downloadCount =>
    { redis := redis.expireDownloadCount now channel counterTtl
      outputs := [.downloadComplete true (-1) downloadCount] }
  -- `record_password_attempt`
  | .countingAttempt channel =>
    let counted := redis.countPasswordAttempt now channel
    { redis := counted.2, outputs := [.passwordAttempt (counted.1 ≤ maxPasswordAttempts)] }
  -- `store_checksums`
  | .checksumsTtl channel checksums =>
    let ttl := redis.channels.ttl now channel.shortSlug
    if ttl ≤ 0 then { redis, outputs := [.checksumUpload false] }
    else { redis, call := .storingChecksums channel ttl.toNat checksums }
  | .storingChecksums channel ttl checksums =>
    { redis := redis.storeChecksums now channel ttl checksums
      outputs := [.checksumUpload true] }
  -- `create_checkout`
  | .checkoutTtl channel buyerFingerprint paymentToken =>
    let ttl := redis.channels.ttl now channel.shortSlug
    if ttl ≤ 0 then { redis, outputs := [.checkoutFailed] }
    else
      { redis, call := .storingPaymentToken channel ttl.toNat buyerFingerprint paymentToken }
  | .storingPaymentToken channel ttl buyerFingerprint paymentToken =>
    let token : BoundToken := ⟨E.sha256 paymentToken, buyerFingerprint⟩
    { redis := redis.storePaymentToken now channel ttl token
      call := .payingFor channel paymentToken
      outputs := [.paymentTokenStored token] }
  | .payingFor channel paymentToken =>
    if settlement.fulfilled then
      { redis := redis.storeCheckoutPaymentToken now channel settlement.objectId paymentToken
        outputs := [.checkout settlement.objectId] }
    else { redis, outputs := [.checkoutFailed] }
  -- `claim_checkout_payment_token`
  | .claimingPaymentToken slug checkoutSessionId =>
    let claimed := redis.claimCheckoutPaymentToken now slug checkoutSessionId
    { redis := claimed.2, outputs := [.paymentToken claimed.1] }
  -- `report_channel`
  | .reportPending channel readerToken =>
    if redis.isPendingToken now channel ∨ readerToken = "" then
      { redis, outputs := [.report false] }
    else { redis, call := .reportHasReader channel readerToken }
  | .reportHasReader channel readerToken =>
    if redis.hasReaderToken now channel then { redis, call := .reportReader channel readerToken }
    else { redis, outputs := [.report false] }
  | .reportReader channel readerToken =>
    if redis.validateReaderToken now channel E.sha256 readerToken then
      { redis, call := .deleting channel }
    else { redis, outputs := [.report false] }
  | .deleting channel => { redis := redis.deleteChannel channel, outputs := [.report true] }
  -- `fetch_channel`
  | .fetchPending channel readerToken =>
    if redis.isPendingToken now channel then { redis, outputs := [.refused] }
    else { redis, call := .fetchReader channel readerToken }
  | .fetchReader channel readerToken =>
    match truthy readerToken with
    | some token => { redis, outputs := [checkReader E redis now channel token] }
    | none =>
      { redis
        outputs := [if redis.hasReaderToken now channel then .refused else .admitted none] }
  -- `_validate_file_guest`
  | .guestReader channel readerToken =>
    match truthy readerToken with
    | some token => { redis, outputs := [checkReader E redis now channel token] }
    | none =>
      if redis.hasReaderToken now channel then { redis, outputs := [.refused] }
      else { redis, call := .guestPending channel }
  | .guestPending channel =>
    { redis
      outputs := [if redis.isPendingToken now channel then .refused else .admitted none] }
  | .finished => { redis }

end Handlers

/-! ### The transition system -/

structure State where
  /-- Milliseconds. -/
  now : ℕ
  redis : Redis
  calls : List Call := []

inductive Event where
  /-- Time passes, in milliseconds. -/
  | elapsed (duration : ℕ)
  | requested (request : Request)
  /-- A call executes its next command. -/
  | resumed (call : ℕ) (settlement : Settlement)
deriving DecidableEq

/-- An output, with the call and the time it comes from. -/
structure Observation where
  call : ℕ
  time : ℕ
  output : Output
deriving DecidableEq

section System

variable (E : Environment) (C : Channel)

def step (s : State) : Event → State × List Observation
  | .elapsed duration => ({ s with now := s.now + duration }, [])
  | .requested request => ({ s with calls := s.calls ++ [.fetching request] }, [])
  | .resumed i settlement =>
    match s.calls[i]? with
    | none => (s, [])
    | some call =>
      let next := advance E s.redis s.now settlement call
      ({ s with redis := next.redis, calls := s.calls.set i next.call },
        next.outputs.map fun output => { call := i, time := s.now, output })

/-- The life of a channel, from the pipeline of `create_channel` on. -/
def lifecycle : System State Event Observation where
  init :=
    { now := C.createdAt
      redis := Redis.createChannel {} C.createdAt C.data C.ttl }
  step := step E

end System

/-! ### Runs to look at -/

/-- Surroundings in which digests are readable. -/
def plainEnvironment : Environment where
  sha256 := id
  hashSecret := id

/-- A channel without a price or a limit. -/
def freeChannel : Channel where
  data := { longSlug := "a/b/c", shortSlug := "ab", secret := "secret" }
  ttl := 3600

/-- A request arrives as the call with the given number and executes some commands in a row. -/
def inTurn (call : ℕ) (request : Request) (commands : ℕ) : List Event :=
  .requested request :: List.replicate commands (.resumed call {})

end Rapidly.FileSharing.Channels
