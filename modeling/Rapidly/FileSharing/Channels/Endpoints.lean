import Rapidly.FileSharing.Channels.Steps

/-!
# The endpoints for readers

Five endpoints ask a reader of a channel for the reader token: `fetch_channel`, the guest
validator of the signaling WebSocket, `record_download_complete`, `fetch_checksums` and
`get_ice_config`. Here each of them is answered at one instant; that other requests may come
between their commands is the subject of `Channels/ReaderGate.lean`.

`oneGate_iff`: in every state that a channel can reach, nobody gets past one of the others with
what `fetch_channel` rejects, exactly if a token that is presented meets a token that is stored.
`get_ice_config` is the one that does not insist.
-/

namespace Rapidly.FileSharing.Channels

open KeyValue Payments Transition

variable {E : Environment} {C : Channel}

/-! ### The endpoints -/

/-- `ChannelFetchResponse`. -/
structure ChannelFetchResponse where
  available : Bool := true
  title : Option String
  priceCents : Option ℤ
  currency : Option String
  fileName : Option String
  fileSizeBytes : Option ℤ
  paymentRequired : Bool
  creatorCountry : String
deriving DecidableEq

/-- What `get_ice_config` answers. -/
inductive IceReply where
  | channelNotFound
  | invalidToken
  | config
deriving DecidableEq

namespace Endpoint

section Definitions

variable (sha256 : String → String) (redis : Redis) (now : ℕ) (slug : Slug)

/-- What `fetch_channel` requires of a reader. -/
def readerAuthorised (channel : ChannelData) (readerToken : Option String) : Bool :=
  !redis.isPendingToken now channel &&
    match truthy readerToken with
    | some token => redis.validateReaderToken now channel sha256 token
    | none => !redis.hasReaderToken now channel

/-- `fetch_channel`. -/
def fetchChannel (readerToken paymentToken : Option String) (buyerFingerprint : String) :
    Option ChannelFetchResponse :=
  match redis.fetchChannel now slug with
  | none => none
  | some channel =>
    if !readerAuthorised sha256 redis now channel readerToken then none
    else if !redis.checkDownloadAvailable now channel then none
    else
      let paymentRequired := channel.isPaid &&
        match truthy paymentToken with
        | some token => !redis.validatePaymentToken now channel sha256 token buyerFingerprint
        | none => true
      some
        { title := channel.title
          priceCents := channel.priceCents
          currency := if channel.isPaid then some channel.currency else none
          fileName := channel.fileName
          fileSizeBytes := channel.fileSizeBytes
          paymentRequired
          creatorCountry := channel.creatorCountry }

/-- `_validate_file_guest`, with the channel at hand. -/
def validateFileGuest (channel : ChannelData) (readerToken paymentToken : Option String)
    (buyerFingerprint : String) : Bool :=
  (match truthy readerToken with
    | some token => redis.validateReaderToken now channel sha256 token
    | none => !(redis.hasReaderToken now channel || redis.isPendingToken now channel)) &&
  (!channel.isPaid ||
    match truthy paymentToken with
    | some token => redis.validatePaymentToken now channel sha256 token buyerFingerprint
    | none => false)

/-- `_authenticate` of a guest: only guests of files have a validator. -/
def authenticateGuest (readerToken paymentToken : Option String) (buyerFingerprint : String) :
    Bool :=
  match redis.fetchChannel now slug with
  | none => false
  | some channel =>
    channel.sessionKind = "file" &&
      validateFileGuest sha256 redis now channel readerToken paymentToken buyerFingerprint

/-- `record_download_complete`. -/
def recordDownloadComplete (readerToken : String) : Bool × ℤ × ℕ :=
  match redis.fetchChannel now slug with
  | none => (false, 0, 0)
  | some channel =>
    if redis.isPendingToken now channel then (false, 0, 0)
    else if !redis.validateReaderToken now channel sha256 readerToken then (false, 0, 0)
    else
      let counterTtl := (max (redis.channels.ttl now channel.shortSlug) 3600).toNat
      if channel.maxDownloads = 0 then (true, -1, (redis.countDownload now channel).1)
      else
        match (redis.claimSlot now channel counterTtl).1 with
        | none => (false, 0, 0)
        | some slot => (true, (channel.maxDownloads - slot : ℕ), slot)

/-- `fetch_checksums`. -/
def fetchChecksums (readerToken : String) : Option (List (String × String)) :=
  match redis.fetchChannel now slug with
  | none => none
  | some channel =>
    if !redis.validateReaderToken now channel sha256 readerToken then none
    else redis.checksums.get now channel.shortSlug

/-- `get_ice_config_for_channel`. -/
def getIceConfig (token : String) : IceReply :=
  match redis.fetchChannel now slug with
  | none => .channelNotFound
  | some channel =>
    if !redis.validateReaderToken now channel sha256 token then
      if redis.hasReaderToken now channel then .invalidToken else .config
    else .config

/-- `fetch_channel` finds the channel, and nothing wrong with the reader. -/
def Authorised (readerToken : Option String) : Prop :=
  ∃ channel ∈ redis.fetchChannel now slug, readerAuthorised sha256 redis now channel readerToken

/-- No endpoint lets a caller through that `fetch_channel` rejects. Where a token is a required
field, the empty one is not valid. -/
def OneGate (readerToken paymentToken : Option String) (buyerFingerprint : String) : Prop :=
  (authenticateGuest sha256 redis now slug readerToken paymentToken buyerFingerprint →
    Authorised sha256 redis now slug readerToken) ∧
  ∀ token ∈ truthy readerToken,
    ((recordDownloadComplete sha256 redis now slug token).1 →
      Authorised sha256 redis now slug readerToken) ∧
    ((fetchChecksums sha256 redis now slug token).isSome →
      Authorised sha256 redis now slug readerToken) ∧
    (getIceConfig sha256 redis now slug token = .config →
      Authorised sha256 redis now slug readerToken)

instance authorisedDecidable (readerToken : Option String) :
    Decidable (Authorised sha256 redis now slug readerToken) :=
  inferInstanceAs (Decidable (∃ channel ∈ redis.fetchChannel now slug, _ = true))

instance oneGateDecidable (readerToken paymentToken : Option String) (buyerFingerprint : String) :
    Decidable (OneGate sha256 redis now slug readerToken paymentToken buyerFingerprint) :=
  inferInstanceAs (Decidable (_ ∧ ∀ token ∈ truthy readerToken, _ ∧ _ ∧ _))

end Definitions

/-! ### `fetch_channel` and its reader -/

section Fetch

variable {redis : Redis} {now : ℕ} {slug : Slug} {readerToken paymentToken : Option String}
  {buyerFingerprint : String} {settlement : Settlement}

/-- The call of the lifecycle decides alike, if nothing comes between its two commands. -/
theorem readerAuthorised_iff_admitted {channel : ChannelData} :
    readerAuthorised E.sha256 redis now channel readerToken ↔
      ∃ token, (advance E redis now settlement
        (advance E redis now settlement (.fetchPending channel readerToken)).call).outputs =
          [.admitted token] := by
  rw [readerAuthorised]
  cases hpending : redis.isPendingToken now channel with
  | true => simp [advance, hpending]
  | false =>
    cases htoken : truthy readerToken with
    | none =>
      cases hreader : redis.hasReaderToken now channel <;>
        simp [advance, hpending, htoken, hreader]
    | some token =>
      cases hvalid : redis.validateReaderToken now channel E.sha256 token <;>
        simp [advance, checkReader, hpending, htoken, hvalid]

end Fetch

/-! ### Markers and tokens -/

/-- A reader token and a marker that one is awaited are never stored together. -/
def Exclusive (C : Channel) (redis : Redis) : Prop :=
  redis.readerTokens.entry C.data.shortSlug = none ∨
    redis.pendingTokens.entry C.data.shortSlug = none

section Reachable

variable {redis redis' : Redis} {now : ℕ} {call : Call} {slug : Slug} {token : String}
  {readerToken paymentToken : Option String} {buyerFingerprint : String}

theorem exclusive_effect (h : Exclusive C redis) (heffect : Effect C redis now call redis') :
    Exclusive C redis' := by
  have hslug : C.data.shortSlug ≠ C.data.longSlug := C.slugs_ne.symm
  cases heffect with
  | storeReaderToken | destroy | delete =>
    exact .inr ((Store.put_of_ne hslug ..).trans (Store.put_self ..))
  | renew ttl readerTokenExists =>
    rcases h with hreader | hpending
    · -- a token that is not there is not extended
      have hentryAt : redis.readerTokens.entryAt now C.data.shortSlug = none := by
        rw [Store.entryAt, hreader]
        rfl
      refine .inl ?_
      dsimp only [Redis.renewChannel]
      rw [Store.expire_of_entryAt_eq_none hentryAt, ite_self]
      exact hreader
    · exact .inr hpending
  | _ => exact h

theorem exclusive_after (ls : List Event) : Exclusive C ((lifecycle E C).after ls).redis :=
  redis_always (Exclusive C) (.inl rfl) exclusive_effect ls

theorem Exclusive.isPendingToken (h : Exclusive C redis)
    (hreader : redis.hasReaderToken now C.data) : redis.isPendingToken now C.data = false := by
  rcases h with hnone | hnone
  · rw [Redis.hasReaderToken, Store.entryAt, hnone] at hreader
    exact absurd hreader Bool.noConfusion
  · rw [Redis.isPendingToken, Store.entryAt, hnone]
    rfl

theorem hasReaderToken_of_validate {sha256 : String → String}
    (h : redis.validateReaderToken now C.data sha256 token) :
    redis.hasReaderToken now C.data := by
  obtain ⟨e, he, -⟩ := Store.get_eq_some.mp (of_decide_eq_true h)
  rw [Redis.hasReaderToken, he]
  rfl

theorem authorised_of_validate (hexclusive : Exclusive C redis)
    (hchannel : redis.fetchChannel now slug = some C.data)
    (htoken : truthy readerToken = some token)
    (hvalid : redis.validateReaderToken now C.data E.sha256 token) :
    Authorised E.sha256 redis now slug readerToken := by
  refine ⟨C.data, hchannel, ?_⟩
  rw [readerAuthorised, hexclusive.isPendingToken (hasReaderToken_of_validate hvalid), htoken]
  exact hvalid

theorem authorised_of_guest (hexclusive : Exclusive C redis)
    (hchannel : redis.fetchChannel now slug = some C.data)
    (h : authenticateGuest E.sha256 redis now slug readerToken paymentToken buyerFingerprint) :
    Authorised E.sha256 redis now slug readerToken := by
  unfold authenticateGuest validateFileGuest at h
  rw [hchannel] at h
  have hreader := (Bool.and_eq_true_iff.mp (Bool.and_eq_true_iff.mp h).2).1
  cases htoken : truthy readerToken with
  | some token =>
    rw [htoken] at hreader
    exact authorised_of_validate hexclusive hchannel htoken hreader
  | none =>
    rw [htoken] at hreader
    refine ⟨C.data, hchannel, ?_⟩
    rw [readerAuthorised, htoken]
    cases hpending : redis.isPendingToken now C.data <;>
      cases hhas : redis.hasReaderToken now C.data <;> simp_all

theorem authorised_of_recordDownloadComplete (hexclusive : Exclusive C redis)
    (hchannel : redis.fetchChannel now slug = some C.data)
    (htoken : truthy readerToken = some token)
    (h : (recordDownloadComplete E.sha256 redis now slug token).1) :
    Authorised E.sha256 redis now slug readerToken := by
  rw [recordDownloadComplete, hchannel] at h
  dsimp only at h
  split at h
  · exact absurd h Bool.noConfusion
  · split at h
    · exact absurd h Bool.noConfusion
    next hvalid =>
      rw [Bool.not_eq_true', Bool.not_eq_false] at hvalid
      exact authorised_of_validate hexclusive hchannel htoken hvalid

theorem authorised_of_fetchChecksums (hexclusive : Exclusive C redis)
    (hchannel : redis.fetchChannel now slug = some C.data)
    (htoken : truthy readerToken = some token)
    (h : (fetchChecksums E.sha256 redis now slug token).isSome) :
    Authorised E.sha256 redis now slug readerToken := by
  rw [fetchChecksums, hchannel] at h
  dsimp only at h
  split at h
  · exact absurd h Bool.noConfusion
  next hvalid =>
    rw [Bool.not_eq_true', Bool.not_eq_false] at hvalid
    exact authorised_of_validate hexclusive hchannel htoken hvalid

theorem authorised_of_getIceConfig (hexclusive : Exclusive C redis)
    (hchannel : redis.fetchChannel now slug = some C.data)
    (htoken : truthy readerToken = some token)
    (hreader : redis.hasReaderToken now C.data)
    (h : getIceConfig E.sha256 redis now slug token = .config) :
    Authorised E.sha256 redis now slug readerToken := by
  rw [getIceConfig, hchannel] at h
  dsimp only at h
  rw [hreader] at h
  split at h
  · exact IceReply.noConfusion h
  next hvalid =>
    rw [Bool.not_eq_true', Bool.not_eq_false] at hvalid
    exact authorised_of_validate hexclusive hchannel htoken hvalid

/-- **One reader gate.** In every state that a channel can reach, no endpoint lets a caller
through that `fetch_channel` rejects, exactly if a token that is presented for the living channel
meets a reader token that is stored. -/
theorem oneGate_iff (ls : List Event) (slug : Slug) (readerToken paymentToken : Option String)
    (buyerFingerprint : String) :
    OneGate E.sha256 ((lifecycle E C).after ls).redis ((lifecycle E C).after ls).now slug
        readerToken paymentToken buyerFingerprint ↔
      ((truthy readerToken).isSome →
        (((lifecycle E C).after ls).redis.fetchChannel ((lifecycle E C).after ls).now slug).isSome →
          ((lifecycle E C).after ls).redis.hasReaderToken ((lifecycle E C).after ls).now
            C.data) := by
  have hexclusive : Exclusive C ((lifecycle E C).after ls).redis := exclusive_after ls
  have hstores : ((lifecycle E C).after ls).redis.Stores C := (life_after ls).stores
  generalize (lifecycle E C).after ls = s at hexclusive hstores ⊢
  obtain hnone | ⟨channel, hchannel⟩ :=
    Option.eq_none_or_eq_some (s.redis.fetchChannel s.now slug)
  · -- no channel: everybody is turned away
    refine iff_of_true ⟨fun h => ?_, fun token _ => ⟨fun h => ?_, fun h => ?_, fun h => ?_⟩⟩
      fun _ hsome => ?_
    · rw [authenticateGuest, hnone] at h
      exact absurd h Bool.noConfusion
    · rw [recordDownloadComplete, hnone] at h
      exact absurd h Bool.noConfusion
    · rw [fetchChecksums, hnone] at h
      exact absurd h Bool.noConfusion
    · rw [getIceConfig, hnone] at h
      exact IceReply.noConfusion h
    · rw [hnone] at hsome
      exact absurd hsome Bool.noConfusion
  · obtain rfl : channel = C.data := (hstores.only.of_get hchannel).1
    constructor
    · intro h hpresented _
      obtain ⟨token, htoken⟩ := Option.isSome_iff_exists.mp hpresented
      -- without a reader token, the ICE configuration goes to everybody
      by_contra hreader
      rw [Bool.not_eq_true] at hreader
      have hinvalid : s.redis.validateReaderToken s.now C.data E.sha256 token = false := by
        by_contra hvalid
        rw [Bool.not_eq_false] at hvalid
        exact absurd (hreader.symm.trans (hasReaderToken_of_validate hvalid)) Bool.noConfusion
      have hconfig : getIceConfig E.sha256 s.redis s.now slug token = .config := by
        simp [getIceConfig, hchannel, hinvalid, hreader]
      obtain ⟨channel, hsome, hauthorised⟩ := (h.2 token htoken).2.2 hconfig
      obtain rfl := Option.some.inj (hchannel.symm.trans hsome)
      rw [readerAuthorised, htoken] at hauthorised
      dsimp only at hauthorised
      rw [hinvalid, Bool.and_false] at hauthorised
      exact absurd hauthorised Bool.noConfusion
    · intro h
      -- only the ICE endpoint needs that a reader token is stored
      refine ⟨authorised_of_guest hexclusive hchannel, fun token htoken => ?_⟩
      have hreader : s.redis.hasReaderToken s.now C.data := by
        refine h ?_ ?_
        · rw [Option.mem_def.mp htoken]
          rfl
        · rw [hchannel]
          rfl
      exact ⟨authorised_of_recordDownloadComplete hexclusive hchannel htoken,
        authorised_of_fetchChecksums hexclusive hchannel htoken,
        authorised_of_getIceConfig hexclusive hchannel htoken hreader⟩

/-- Any token will do for the relay credentials of a channel that awaits its reader token. -/
theorem iceConfig_handedOut :
    ¬∀ (E : Environment) (C : Channel) (ls : List Event) (slug : Slug)
      (readerToken paymentToken : Option String) (buyerFingerprint : String),
      OneGate E.sha256 ((lifecycle E C).after ls).redis ((lifecycle E C).after ls).now slug
        readerToken paymentToken buyerFingerprint := by
  intro h
  have hgate := h plainEnvironment freeChannel [] "ab" (some "guess") none ""
  revert hgate
  decide +kernel

end Reachable

end Endpoint

end Rapidly.FileSharing.Channels
