import Rapidly.FileSharing.Channels.Lifecycle

/-!
# What the steps of a channel can do

* `advance_redis_of_reads`: only the commands that `Call.writes` lists change Redis.
* `origin_of_outputs`: which command an answer comes from.
* `Life` is what every run keeps: calls hold the data the channel was created with, and the
  keys of the two slugs are alike.
* `redis_invariant` is the rule for invariants of Redis: what a new channel, the clock and every
  command that meets a condition keep holds at the end of a run.
-/

namespace Rapidly.FileSharing.Channels

open KeyValue Payments Transition

variable {E : Environment} {C : Channel}

/-! ### The scripts of destruction -/

section Scripts

variable {redis : Redis} {now : ℕ} {channel : ChannelData}

theorem atomicDestroyChannel_fst :
    (redis.atomicDestroyChannel now channel).1 = .destroyed ↔
      (redis.channels.entryAt now channel.shortSlug).isSome ∧
        (redis.pendingDestructions.entryAt now channel.shortSlug).isSome := by
  rw [Redis.atomicDestroyChannel]
  cases redis.channels.entryAt now channel.shortSlug with
  | none => exact ⟨fun h => Destruction.noConfusion h, fun h => absurd h.1 Bool.noConfusion⟩
  | some =>
    cases redis.pendingDestructions.entryAt now channel.shortSlug with
    | none => exact ⟨fun h => Destruction.noConfusion h, fun h => absurd h.2 Bool.noConfusion⟩
    | some => exact ⟨fun _ => ⟨rfl, rfl⟩, fun _ => rfl⟩

theorem atomicDestroyChannel_snd :
    (redis.atomicDestroyChannel now channel).2 =
      if (redis.atomicDestroyChannel now channel).1 = .destroyed then redis.destroyChannel channel
      else redis := by
  rw [Redis.atomicDestroyChannel]
  cases redis.channels.entryAt now channel.shortSlug with
  | none => rfl
  | some => cases redis.pendingDestructions.entryAt now channel.shortSlug <;> rfl

end Scripts

/-! ### Writes and answers -/

/-- The next command of the call writes. -/
def Call.writes : Call → Bool
  | .storingReaderToken .. | .renewing .. | .requestingDestruction .. | .confirmingDestruction ..
  | .claimingSlot .. | .countingDownload .. | .expiringCount .. | .countingAttempt ..
  | .storingChecksums .. | .storingPaymentToken .. | .payingFor .. | .claimingPaymentToken ..
  | .deleting .. => true
  | _ => false

section Advance

variable {redis : Redis} {now : ℕ} {settlement : Settlement} {call : Call}

theorem advance_redis_of_reads (h : call.writes = false) :
    (advance E redis now settlement call).redis = redis := by
  cases call with
  | fetching request =>
    dsimp only [advance]
    split
    · rfl
    · split <;> rfl
  | fetchReader | guestReader =>
    dsimp only [advance]
    split
    · rfl
    · first | rfl | (split <;> rfl)
  | lookingForReaderToken | guestPending | finished => rfl
  | readingTtl | completionPending | completionReader | completionTtl | checksumsTtl | checkoutTtl
  | reportPending | reportHasReader | reportReader | fetchPending =>
    dsimp only [advance]
    split <;> rfl
  | _ => exact absurd h Bool.noConfusion

/-- Where an answer that matters comes from. -/
def Output.Origin (redis : Redis) (now : ℕ) (call : Call) : Output → Prop
  | .readerToken true => ∃ channel ttl tokenHash, call = .storingReaderToken channel ttl tokenHash
  | .renew true => ∃ channel ttl tokenExists, call = .renewing channel ttl tokenExists
  | .destructionRequested => ∃ channel, call = .requestingDestruction channel ∧
      (redis.atomicPendingDestruction now channel).1 ≠ .channelNotFound
  | .destroy true true _ => ∃ channel, call = .confirmingDestruction channel ∧
      (redis.atomicDestroyChannel now channel).1 = .destroyed
  | .downloadComplete true remaining slot =>
      (∃ channel counterTtl, call = .claimingSlot channel counterTtl ∧
        (redis.claimSlot now channel counterTtl).1 = some slot ∧
        remaining = (channel.maxDownloads - slot : ℕ)) ∨
      (∃ channel counterTtl, call = .countingDownload channel counterTtl) ∨
      ∃ channel counterTtl downloadCount,
        call = .expiringCount channel counterTtl downloadCount
  | .paymentTokenStored token => ∃ channel ttl buyerFingerprint paymentToken,
      call = .storingPaymentToken channel ttl buyerFingerprint paymentToken ∧
        token.buyerFingerprint = buyerFingerprint
  | .report true => ∃ channel, call = .deleting channel
  | .admitted none => (∃ channel readerToken, call = .fetchReader channel readerToken ∧
      redis.hasReaderToken now channel = false) ∨
      ∃ channel, call = .guestPending channel ∧ redis.isPendingToken now channel = false
  | _ => True

theorem origin_of_rejection (request : Request) :
    (request.rejection).Origin redis now call := by
  cases request <;> trivial

theorem origin_of_dispatch {channel : ChannelData} {request : Request} {output : Output}
    (h : dispatch E channel settlement request = .inr output) :
    output.Origin redis now call := by
  cases request <;> simp only [dispatch] at h <;>
    first
    | exact absurd h (by simp)
    | (split at h
       · exact absurd h (by simp)
       · obtain rfl := Sum.inr.inj h
         trivial)

theorem origin_of_checkReader {channel : ChannelData} {readerToken : String} :
    (checkReader E redis now channel readerToken).Origin redis now call := by
  rw [checkReader]
  split <;> trivial

theorem origin_of_outputs :
    ∀ output ∈ (advance E redis now settlement call).outputs, output.Origin redis now call := by
  cases call with
  -- the channel is gone, or the request is refused at once
  | fetching request =>
    dsimp only [advance]
    split
    · exact List.forall_mem_singleton.mpr (origin_of_rejection request)
    · split
      · exact List.forall_mem_nil _
      next hdispatch => exact List.forall_mem_singleton.mpr (origin_of_dispatch hdispatch)
  | storingReaderToken channel ttl tokenHash =>
    refine List.forall_mem_singleton.mpr ?_
    exact ⟨channel, ttl, tokenHash, rfl⟩
  | renewing channel ttl readerTokenExists =>
    refine List.forall_mem_singleton.mpr ?_
    exact ⟨channel, ttl, readerTokenExists, rfl⟩
  | requestingDestruction channel =>
    dsimp only [advance]
    split
    · exact List.forall_mem_singleton.mpr trivial
    -- both answers of the script say that the channel was found
    next hset =>
      have hfound : (redis.atomicPendingDestruction now channel).1 ≠ .channelNotFound := by
        rw [hset]
        exact PendingDestruction.noConfusion
      exact List.forall_mem_cons.mpr
        ⟨⟨channel, rfl, hfound⟩, List.forall_mem_singleton.mpr trivial⟩
    next hpending =>
      have hfound : (redis.atomicPendingDestruction now channel).1 ≠ .channelNotFound := by
        rw [hpending]
        exact PendingDestruction.noConfusion
      exact List.forall_mem_singleton.mpr ⟨channel, rfl, hfound⟩
  | confirmingDestruction channel =>
    dsimp only [advance]
    split
    · exact List.forall_mem_singleton.mpr trivial
    · exact List.forall_mem_singleton.mpr trivial
    next hdestroyed => exact List.forall_mem_singleton.mpr ⟨channel, rfl, hdestroyed⟩
  | claimingSlot channel counterTtl =>
    dsimp only [advance]
    split
    · exact List.forall_mem_singleton.mpr trivial
    next slot hslot =>
      exact List.forall_mem_singleton.mpr (.inl ⟨channel, counterTtl, rfl, hslot, rfl⟩)
  | countingDownload channel counterTtl =>
    dsimp only [advance]
    split
    · exact List.forall_mem_nil _
    · exact List.forall_mem_singleton.mpr (.inr (.inl ⟨channel, counterTtl, rfl⟩))
  | expiringCount channel counterTtl downloadCount =>
    refine List.forall_mem_singleton.mpr (.inr (.inr ?_))
    exact ⟨channel, counterTtl, downloadCount, rfl⟩
  | storingPaymentToken channel ttl buyerFingerprint paymentToken =>
    refine List.forall_mem_singleton.mpr ?_
    exact ⟨channel, ttl, buyerFingerprint, paymentToken, rfl, rfl⟩
  | deleting channel => exact List.forall_mem_singleton.mpr ⟨channel, rfl⟩
  | fetchReader channel readerToken =>
    dsimp only [advance]
    split
    · exact List.forall_mem_singleton.mpr origin_of_checkReader
    · refine List.forall_mem_singleton.mpr ?_
      split
      · trivial
      next hnone => exact .inl ⟨channel, readerToken, rfl, Bool.eq_false_of_not_eq_true hnone⟩
  | guestReader channel readerToken =>
    dsimp only [advance]
    split
    · exact List.forall_mem_singleton.mpr origin_of_checkReader
    · split
      · exact List.forall_mem_singleton.mpr trivial
      · exact List.forall_mem_nil _
  | guestPending channel =>
    refine List.forall_mem_singleton.mpr ?_
    split
    · trivial
    next hnone => exact .inr ⟨channel, rfl, Bool.eq_false_of_not_eq_true hnone⟩
  -- the other answers only repeat what the call knows
  | countingAttempt | storingChecksums | claimingPaymentToken =>
    exact List.forall_mem_singleton.mpr trivial
  | payingFor =>
    dsimp only [advance]
    split <;> exact List.forall_mem_singleton.mpr trivial
  | lookingForReaderToken | finished => exact List.forall_mem_nil _
  | readingTtl | completionPending | completionReader | checksumsTtl | checkoutTtl
  | reportPending | reportHasReader | reportReader | fetchPending | completionTtl =>
    dsimp only [advance]
    split <;>
    · first
      | exact List.forall_mem_nil _
      | exact List.forall_mem_singleton.mpr trivial

end Advance

/-! ### The calls of a channel -/

/-- The call is about the channel. -/
def Call.Genuine (C : Channel) : Call → Prop
  | .fetching _ | .claimingPaymentToken .. | .finished => True
  | .countingDownload channel _ | .expiringCount channel .. =>
    channel = C.data ∧ C.data.maxDownloads = 0
  | .claimingSlot channel _ => channel = C.data ∧ C.data.maxDownloads ≠ 0
  | .readingTtl channel _ | .storingReaderToken channel .. | .lookingForReaderToken channel _
  | .renewing channel .. | .requestingDestruction channel | .confirmingDestruction channel
  | .completionPending channel _ | .completionReader channel _ | .completionTtl channel
  | .countingAttempt channel | .checksumsTtl channel _
  | .storingChecksums channel .. | .checkoutTtl channel .. | .storingPaymentToken channel ..
  | .payingFor channel _ | .reportPending channel _ | .reportHasReader channel _
  | .reportReader channel _ | .deleting channel | .fetchPending channel _
  | .fetchReader channel _ | .guestReader channel _ | .guestPending channel => channel = C.data

/-- The channel is stored under its two slugs, alike. -/
structure Redis.Stores (C : Channel) (redis : Redis) : Prop where
  only : redis.channels.Forall fun slug channel =>
    channel = C.data ∧ (slug = C.data.shortSlug ∨ slug = C.data.longSlug)
  twins : redis.channels.entry C.data.longSlug = redis.channels.entry C.data.shortSlug

theorem Redis.Stores.entryAt_longSlug {redis : Redis} (h : redis.Stores C) (now : ℕ) :
    redis.channels.entryAt now C.data.longSlug = redis.channels.entryAt now C.data.shortSlug := by
  rw [Store.entryAt, h.twins, Store.entryAt]

/-- A renewal extends the channel under its short slug; the long one plays no role. -/
theorem Redis.entryAt_renewChannel {redis : Redis} {now ttl : ℕ} {readerTokenExists : Bool} :
    (redis.renewChannel now C.data ttl readerTokenExists).channels.entryAt now C.data.shortSlug =
      (redis.channels.expire now C.data.shortSlug ttl).entryAt now C.data.shortSlug :=
  Store.entryAt_expire_of_ne C.slugs_ne.symm ttl

theorem Redis.entryAt_renewChannel_longSlug {redis : Redis} {now ttl : ℕ}
    {readerTokenExists : Bool} :
    (redis.renewChannel now C.data ttl readerTokenExists).channels.entryAt now C.data.longSlug =
      (redis.channels.expire now C.data.longSlug ttl).entryAt now C.data.longSlug := by
  dsimp only [Redis.renewChannel]
  rw [Store.entryAt_expire_self, Store.entryAt_expire_self, Store.entryAt_expire_of_ne C.slugs_ne]

/-- What a command of a call about the channel can do to Redis. -/
inductive Effect (C : Channel) (redis : Redis) (now : ℕ) : Call → Redis → Prop where
  | idle (call : Call) : Effect C redis now call redis
  | storeReaderToken (ttl : ℕ) (tokenHash : String) :
    Effect C redis now (.storingReaderToken C.data ttl tokenHash)
      (redis.storeReaderToken now C.data ttl tokenHash)
  | renew (ttl : ℕ) (readerTokenExists : Bool) :
    Effect C redis now (.renewing C.data ttl readerTokenExists)
      (redis.renewChannel now C.data ttl readerTokenExists)
  | markPending (hnone : redis.pendingDestructions.entryAt now C.data.shortSlug = none) :
    Effect C redis now (.requestingDestruction C.data)
      (redis.markPendingDestruction now C.data)
  | destroy (hdestroyed : (redis.atomicDestroyChannel now C.data).1 = .destroyed) :
    Effect C redis now (.confirmingDestruction C.data) (redis.destroyChannel C.data)
  | claimSlot (counterTtl : ℕ) :
    Effect C redis now (.claimingSlot C.data counterTtl)
      (redis.claimSlot now C.data counterTtl).2
  | countDownload (counterTtl : ℕ) (hunlimited : C.data.maxDownloads = 0) :
    Effect C redis now (.countingDownload C.data counterTtl) (redis.countDownload now C.data).2
  | expireDownloadCount (counterTtl downloadCount : ℕ) (hunlimited : C.data.maxDownloads = 0) :
    Effect C redis now (.expiringCount C.data counterTtl downloadCount)
      (redis.expireDownloadCount now C.data counterTtl)
  | countPasswordAttempt :
    Effect C redis now (.countingAttempt C.data) (redis.countPasswordAttempt now C.data).2
  | storeChecksums (ttl : ℕ) (checksums : List (String × String)) :
    Effect C redis now (.storingChecksums C.data ttl checksums)
      (redis.storeChecksums now C.data ttl checksums)
  | storePaymentToken (ttl : ℕ) (buyerFingerprint : String) (paymentToken : Token)
      (digest : String) :
    Effect C redis now (.storingPaymentToken C.data ttl buyerFingerprint paymentToken)
      (redis.storePaymentToken now C.data ttl ⟨digest, buyerFingerprint⟩)
  | storeCheckoutPaymentToken (objectId : String) (paymentToken : Token) :
    Effect C redis now (.payingFor C.data paymentToken)
      (redis.storeCheckoutPaymentToken now C.data objectId paymentToken)
  | claimCheckoutPaymentToken (slug : Slug) (checkoutSessionId : String) :
    Effect C redis now (.claimingPaymentToken slug checkoutSessionId)
      (redis.claimCheckoutPaymentToken now slug checkoutSessionId).2
  | delete : Effect C redis now (.deleting C.data) (redis.deleteChannel C.data)

section Advance

variable {redis redis' : Redis} {now : ℕ} {settlement : Settlement} {call : Call}

theorem effect_advance (hcall : call.Genuine C) :
    Effect C redis now call (advance E redis now settlement call).redis := by
  by_cases hwrites : call.writes = false
  · rw [advance_redis_of_reads hwrites]
    exact .idle call
  · -- the commands that write, one effect each
    cases call with
    | storingReaderToken channel ttl tokenHash =>
      obtain rfl : channel = C.data := hcall
      exact .storeReaderToken ttl tokenHash
    | renewing channel ttl readerTokenExists =>
      obtain rfl : channel = C.data := hcall
      exact .renew ttl readerTokenExists
    | requestingDestruction channel =>
      obtain rfl : channel = C.data := hcall
      dsimp only [advance, Redis.atomicPendingDestruction]
      -- the script writes only if the channel is there and no marker is
      by_cases halive : (redis.channels.entryAt now C.data.shortSlug).isNone
      · rw [if_pos halive]
        exact .idle _
      · rw [if_neg halive]
        by_cases hpending : (redis.pendingDestructions.entryAt now C.data.shortSlug).isSome
        · rw [if_pos hpending]
          exact .idle _
        · rw [if_neg hpending]
          exact .markPending (Option.not_isSome_iff_eq_none.mp hpending)
    | confirmingDestruction channel =>
      obtain rfl : channel = C.data := hcall
      dsimp only [advance]
      rw [atomicDestroyChannel_snd]
      split
      next hdestroyed => exact .destroy hdestroyed
      · exact .idle _
    | claimingSlot channel counterTtl =>
      obtain ⟨rfl, -⟩ : channel = C.data ∧ _ := hcall
      exact .claimSlot counterTtl
    | countingDownload channel counterTtl =>
      obtain ⟨rfl, hunlimited⟩ : channel = C.data ∧ _ := hcall
      dsimp only [advance]
      split <;> exact .countDownload counterTtl hunlimited
    | expiringCount channel counterTtl downloadCount =>
      obtain ⟨rfl, hunlimited⟩ : channel = C.data ∧ _ := hcall
      exact .expireDownloadCount counterTtl downloadCount hunlimited
    | countingAttempt channel =>
      obtain rfl : channel = C.data := hcall
      exact .countPasswordAttempt
    | storingChecksums channel ttl checksums =>
      obtain rfl : channel = C.data := hcall
      exact .storeChecksums ttl checksums
    | storingPaymentToken channel ttl buyerFingerprint paymentToken =>
      obtain rfl : channel = C.data := hcall
      exact .storePaymentToken ttl buyerFingerprint paymentToken (E.sha256 paymentToken)
    | payingFor channel paymentToken =>
      obtain rfl : channel = C.data := hcall
      dsimp only [advance]
      split
      · exact .storeCheckoutPaymentToken settlement.objectId paymentToken
      · exact .idle _
    | claimingPaymentToken slug checkoutSessionId =>
      exact .claimCheckoutPaymentToken slug checkoutSessionId
    | deleting channel =>
      obtain rfl : channel = C.data := hcall
      exact .delete
    | _ => exact absurd rfl hwrites

theorem genuine_dispatch {request : Request}
    (h : dispatch E C.data settlement request = .inl call) : call.Genuine C := by
  cases request <;> simp only [dispatch] at h <;>
    first
    | (obtain rfl := Sum.inl.inj h
       rfl)
    | (split at h
       · obtain rfl := Sum.inl.inj h
         first | rfl | trivial
       · exact absurd h Sum.inr_ne_inl)

theorem genuine_advance (hstores : redis.Stores C) (hcall : call.Genuine C) :
    (advance E redis now settlement call).call.Genuine C := by
  cases call with
  | fetching request =>
    dsimp only [advance]
    split
    · trivial
    next channel hfetched =>
      -- what is stored under a slug is the channel
      obtain ⟨rfl, -⟩ := hstores.only.of_get hfetched
      split
      next hdispatch => exact genuine_dispatch hdispatch
      · trivial
  | completionTtl channel =>
    obtain rfl : channel = C.data := hcall
    dsimp only [advance]
    split
    next hunlimited => exact ⟨rfl, hunlimited⟩
    next hlimited => exact ⟨rfl, hlimited⟩
  | countingDownload channel =>
    dsimp only [advance]
    split
    · exact hcall
    · trivial
  | guestReader channel readerToken =>
    dsimp only [advance]
    split
    · trivial
    · split
      · trivial
      · exact hcall
  | requestingDestruction channel =>
    dsimp only [advance]
    split
    · trivial
    · trivial
    · exact hcall
  | readingTtl | completionPending | completionReader | checksumsTtl | checkoutTtl
  | reportPending | reportHasReader | reportReader | fetchPending =>
    dsimp only [advance]
    split <;> trivial
  | payingFor | fetchReader =>
    dsimp only [advance]
    split <;> trivial
  | lookingForReaderToken => exact hcall
  | _ => trivial

theorem stores_effect (hstores : redis.Stores C) (heffect : Effect C redis now call redis') :
    redis'.Stores C := by
  cases heffect with
  | renew ttl readerTokenExists =>
    exact ⟨hstores.only.expire.expire, Store.entry_expire_twins C.slugs_ne hstores.twins ttl⟩
  | destroy | delete =>
    exact ⟨hstores.only.delete.delete, (Store.put_self ..).trans
      ((Store.put_of_ne C.slugs_ne.symm ..).trans (Store.put_self ..)).symm⟩
  | _ => exact ⟨hstores.only, hstores.twins⟩

end Advance

/-! ### Steps and runs -/

section Runs

variable {s : State}

theorem step_resumed_of_none {i : ℕ} (h : s.calls[i]? = none) (settlement : Settlement) :
    step E s (.resumed i settlement) = (s, []) := by
  dsimp only [step]
  rw [h]

theorem step_resumed_of_some {i : ℕ} {call : Call} (h : s.calls[i]? = some call)
    (settlement : Settlement) :
    step E s (.resumed i settlement) =
      ({ s with
          redis := (advance E s.redis s.now settlement call).redis
          calls := s.calls.set i (advance E s.redis s.now settlement call).call },
        (advance E s.redis s.now settlement call).outputs.map
          fun output => { call := i, time := s.now, output }) := by
  dsimp only [step]
  rw [h]

theorem mem_outputs_of_mem_step {l : Event} {o : Observation} (h : o ∈ (step E s l).2) :
    ∃ i settlement call, l = .resumed i settlement ∧ s.calls[i]? = some call ∧
      o.output ∈ (advance E s.redis s.now settlement call).outputs ∧ o.call = i := by
  cases l with
  | elapsed | requested => exact absurd h List.not_mem_nil
  | resumed i settlement =>
    obtain hnone | ⟨call, hsome⟩ := Option.eq_none_or_eq_some s.calls[i]?
    · rw [step_resumed_of_none hnone] at h
      exact absurd h List.not_mem_nil
    · rw [step_resumed_of_some hsome] at h
      obtain ⟨output, houtput, rfl⟩ := List.mem_map.mp h
      exact ⟨i, settlement, call, rfl, hsome, houtput, rfl⟩

/-- What every run keeps. -/
structure Life (C : Channel) (s : State) : Prop where
  stores : s.redis.Stores C
  calls : ∀ call ∈ s.calls, call.Genuine C

theorem life_step (h : Life C s) (l : Event) : Life C (step E s l).1 := by
  cases l with
  | elapsed duration => exact ⟨h.stores, h.calls⟩
  | requested request =>
    refine ⟨h.stores, fun call hcall => ?_⟩
    rcases List.mem_append.mp hcall with hcall | hcall
    · exact h.calls call hcall
    · rw [List.mem_singleton.mp hcall]
      trivial
  | resumed i settlement =>
    obtain hnone | ⟨call, hsome⟩ := Option.eq_none_or_eq_some s.calls[i]?
    · rw [step_resumed_of_none hnone]
      exact h
    · have hgenuine : call.Genuine C := h.calls call (List.mem_of_getElem? hsome)
      rw [step_resumed_of_some hsome]
      refine ⟨stores_effect h.stores (effect_advance hgenuine), fun call' hcall' => ?_⟩
      rcases List.mem_or_eq_of_mem_set hcall' with hcall' | rfl
      · exact h.calls call' hcall'
      · exact genuine_advance h.stores hgenuine

theorem life_after (ls : List Event) : Life C ((lifecycle E C).after ls) := by
  induction ls using List.reverseRecOn with
  | nil =>
    refine ⟨⟨?_, ?_⟩, fun call hcall => absurd hcall List.not_mem_nil⟩
    · exact (Store.Forall.empty.setex ⟨rfl, .inl rfl⟩).setex ⟨rfl, .inr rfl⟩
    · exact (Store.put_self ..).trans
        ((Store.put_of_ne C.slugs_ne.symm ..).trans (Store.put_self ..)).symm
  | append_singleton ls l ih =>
    rw [System.after_snoc]
    exact life_step ih l

/-- A condition on the calls that are resumed, given what has been answered so far. -/
def WhenResumed (E : Environment) (C : Channel)
    (P : List Observation → State → Call → Prop) : System.Condition State Event :=
  fun past s l => match l with
    | .resumed i _ => ∀ call ∈ s.calls[i]?, P ((lifecycle E C).log past) s call
    | _ => True

instance whenResumedDecidable (P : List Observation → State → Call → Prop)
    [∀ log s call, Decidable (P log s call)] (past : List Event) (s : State) (l : Event) :
    Decidable (WhenResumed E C P past s l) := by
  cases l with
  | resumed i settlement =>
    exact inferInstanceAs (Decidable (∀ call ∈ s.calls[i]?, P _ s call))
  | _ => exact isTrue trivial

/-- **Invariants of Redis.** What holds of a new channel, of any later time and after every
command that meets the condition holds at the end of every run whose commands meet it. -/
theorem redis_invariant {P : List Observation → State → Call → Prop}
    (Inv : ℕ → Redis → List Observation → Prop)
    (h₀ : Inv C.createdAt (Redis.createChannel {} C.createdAt C.data C.ttl) [])
    (helapsed : ∀ {now later redis log}, Inv now redis log → now ≤ later → Inv later redis log)
    (hadvance : ∀ {s log i call settlement}, Life C s → s.calls[i]? = some call → P log s call →
      Inv s.now s.redis log →
      Inv s.now (advance E s.redis s.now settlement call).redis
        (log ++ (advance E s.redis s.now settlement call).outputs.map
          fun output => { call := i, time := s.now, output }))
    {ls : List Event} (h : (lifecycle E C).Along (WhenResumed E C P) ls) :
    Inv ((lifecycle E C).after ls).now ((lifecycle E C).after ls).redis
      ((lifecycle E C).log ls) := by
  refine (lifecycle E C).invariant_of_along (fun _ s log => Inv s.now s.redis log) h₀
    (fun past l hinv hP => ?_) h
  generalize hs : (lifecycle E C).after past = s at hinv hP ⊢
  have hlife : Life C s := hs ▸ life_after past
  cases l with
  | elapsed duration =>
    refine (List.append_nil _).symm ▸ helapsed hinv (Nat.le_add_right ..)
  | requested request => exact (List.append_nil _).symm ▸ hinv
  | resumed i settlement =>
    obtain hnone | ⟨call, hsome⟩ := Option.eq_none_or_eq_some s.calls[i]?
    · have hstep : (lifecycle E C).step s (.resumed i settlement) = (s, []) :=
        step_resumed_of_none hnone settlement
      rw [hstep, List.append_nil]
      exact hinv
    · have hstep := @step_resumed_of_some E s i call hsome settlement
      change Inv (step E s _).1.now (step E s _).1.redis (_ ++ (step E s _).2)
      rw [hstep]
      exact hadvance hlife hsome (hP call hsome) hinv

theorem redis_always (Inv : Redis → Prop)
    (h₀ : Inv (Redis.createChannel {} C.createdAt C.data C.ttl))
    (heffect : ∀ {redis redis' now call}, Inv redis → Effect C redis now call redis' → Inv redis')
    (ls : List Event) : Inv ((lifecycle E C).after ls).redis := by
  induction ls using List.reverseRecOn with
  | nil => exact h₀
  | append_singleton ls l ih =>
    rw [System.after_snoc]
    have hlife : Life C ((lifecycle E C).after ls) := life_after ls
    generalize (lifecycle E C).after ls = s at ih hlife ⊢
    change Inv (step E s l).1.redis
    cases l with
    | elapsed | requested => exact ih
    | resumed i settlement =>
      obtain hnone | ⟨call, hsome⟩ := Option.eq_none_or_eq_some s.calls[i]?
      · rw [step_resumed_of_none hnone]
        exact ih
      · rw [step_resumed_of_some hsome]
        exact heffect ih (effect_advance (hlife.calls call (List.mem_of_getElem? hsome)))

end Runs

end Rapidly.FileSharing.Channels
