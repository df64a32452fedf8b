import Rapidly.FileSharing.Channels.ReaderGate

/-!
# What a channel leaves behind

A channel is torn down by the script of a confirmed destroy request, or by `delete_channel` after
a report. Both name the keys to delete one by one, and all keys but the channel, its reader token
and its pending marker are only ever used under the short slug (`ShortOnly`).

`teardownComplete_iff`: nothing is left, and the two ways of deletion agree, exactly if the
channel has no checksums, no payment tokens and no tokens waiting to be claimed.
-/

namespace Rapidly.FileSharing.Channels

open KeyValue Payments Transition

variable {E : Environment} {C : Channel}

/-! ### Keys -/

/-- There is no key of any pattern for the slug. -/
structure Redis.NoKeys (redis : Redis) (now : ℕ) (slug : Slug) : Prop where
  channels : redis.channels.entryAt now slug = none
  readerTokens : redis.readerTokens.entryAt now slug = none
  pendingTokens : redis.pendingTokens.entryAt now slug = none
  pendingDestructions : redis.pendingDestructions.entryAt now slug = none
  pwAttempts : redis.pwAttempts.entryAt now slug = none
  downloadCounts : redis.downloadCounts.entryAt now slug = none
  checksums : redis.checksums.entryAt now slug = none
  paymentTokens : redis.paymentTokens.entryAt now slug = none
  checkoutTokens : ∀ id, redis.checkoutTokens.entryAt now (slug, id) = none

/-- The same keys are there, with the same values. -/
structure Redis.Alike (now : ℕ) (left right : Redis) : Prop where
  channels : ∀ slug, left.channels.entryAt now slug = right.channels.entryAt now slug
  readerTokens : ∀ slug, left.readerTokens.entryAt now slug = right.readerTokens.entryAt now slug
  pendingTokens : ∀ slug,
    left.pendingTokens.entryAt now slug = right.pendingTokens.entryAt now slug
  pendingDestructions : ∀ slug,
    left.pendingDestructions.entryAt now slug = right.pendingDestructions.entryAt now slug
  pwAttempts : ∀ slug, left.pwAttempts.entryAt now slug = right.pwAttempts.entryAt now slug
  downloadCounts : ∀ slug,
    left.downloadCounts.entryAt now slug = right.downloadCounts.entryAt now slug
  checksums : ∀ slug, left.checksums.entryAt now slug = right.checksums.entryAt now slug
  paymentTokens : ∀ slug,
    left.paymentTokens.entryAt now slug = right.paymentTokens.entryAt now slug
  checkoutTokens : ∀ key,
    left.checkoutTokens.entryAt now key = right.checkoutTokens.entryAt now key

/-- The channel has been torn down. -/
def Output.TearsDown : Output → Prop
  | .destroy true true _ | .report true => True
  | _ => False

theorem Output.TearsDown.cases {output : Output} (h : output.TearsDown) :
    (∃ message, output = .destroy true true message) ∨ output = .report true := by
  unfold Output.TearsDown at h
  split at h
  next message => exact .inl ⟨message, rfl⟩
  · exact .inr rfl
  · exact h.elim

/-- A channel that is torn down leaves nothing behind, and the two ways to do so agree. -/
def TeardownComplete (E : Environment) (C : Channel) : System.Condition State Event :=
  fun _ s l => ∀ o ∈ (step E s l).2, o.output.TearsDown →
    (step E s l).1.redis.NoKeys s.now C.data.shortSlug ∧
      (step E s l).1.redis.NoKeys s.now C.data.longSlug ∧
      Redis.Alike s.now (s.redis.destroyChannel C.data) (s.redis.deleteChannel C.data)

/-- No checksums, payment tokens or tokens to be claimed are stored. -/
structure Redis.Bare (C : Channel) (redis : Redis) (now : ℕ) : Prop where
  checksums : redis.checksums.entryAt now C.data.shortSlug = none
  paymentTokens : redis.paymentTokens.entryAt now C.data.shortSlug = none
  checkoutTokens : ∀ id, redis.checkoutTokens.entryAt now (C.data.shortSlug, id) = none

/-- A call that is about to tear the channel down finds it without them. -/
def Unburdened (C : Channel) (_ : List Observation) (s : State) : Call → Prop
  | .confirmingDestruction _ =>
    (s.redis.atomicDestroyChannel s.now C.data).1 = .destroyed → s.redis.Bare C s.now
  | .deleting _ => s.redis.Bare C s.now
  | _ => True

/-! ### Keys under the short slug -/

/-- What is only used under the short slug. -/
structure ShortOnly (C : Channel) (redis : Redis) : Prop where
  pendingDestructions : redis.pendingDestructions.Forall fun slug _ => slug = C.data.shortSlug
  pwAttempts : redis.pwAttempts.Forall fun slug _ => slug = C.data.shortSlug
  downloadCounts : redis.downloadCounts.Forall fun slug _ => slug = C.data.shortSlug
  checksums : redis.checksums.Forall fun slug _ => slug = C.data.shortSlug
  paymentTokens : redis.paymentTokens.Forall fun slug _ => slug = C.data.shortSlug
  checkoutTokens : redis.checkoutTokens.Forall fun key _ => key.1 = C.data.shortSlug

section Steps

variable {redis redis' : Redis} {now : ℕ} {s : State} {call : Call}

theorem shortOnly_destroyChannel (h : ShortOnly C redis) :
    ShortOnly C (redis.destroyChannel C.data) :=
  { h with
    pendingDestructions := h.pendingDestructions.delete
    pwAttempts := h.pwAttempts.delete
    downloadCounts := h.downloadCounts.delete }

theorem shortOnly_deleteChannel (h : ShortOnly C redis) :
    ShortOnly C (redis.deleteChannel C.data) :=
  { h with
    pendingDestructions := h.pendingDestructions.delete
    pwAttempts := h.pwAttempts.delete
    downloadCounts := h.downloadCounts.delete
    paymentTokens := h.paymentTokens.delete }

theorem shortOnly_effect (h : ShortOnly C redis) (heffect : Effect C redis now call redis') :
    ShortOnly C redis' := by
  cases heffect with
  | idle => exact h
  | storeReaderToken => exact { h with }
  | renew =>
    exact { h with
      downloadCounts := h.downloadCounts.expire
      pendingDestructions := h.pendingDestructions.delete }
  | markPending => exact { h with pendingDestructions := h.pendingDestructions.setex rfl }
  | claimSlot counterTtl =>
    refine { h with downloadCounts := ?_ }
    rw [Redis.claimSlot, atomicDownloadIncr]
    dsimp only
    split
    · exact h.downloadCounts
    · split
      · exact (h.downloadCounts.incr fun _ => rfl).expire
      · exact h.downloadCounts.incr fun _ => rfl
  | countDownload => exact { h with downloadCounts := h.downloadCounts.incr fun _ => rfl }
  | expireDownloadCount => exact { h with downloadCounts := h.downloadCounts.expire }
  -- a counter of attempts is counted up, and may be given its time to live
  | countPasswordAttempt =>
    refine { h with pwAttempts := ?_ }
    rw [Redis.countPasswordAttempt, atomicIncrExpire]
    split
    · exact (h.pwAttempts.incr fun _ => rfl).expire
    · exact h.pwAttempts.incr fun _ => rfl
  | storeChecksums => exact { h with checksums := h.checksums.setex rfl }
  | storePaymentToken =>
    exact { h with paymentTokens := (h.paymentTokens.sadd_key rfl _).expire }
  | storeCheckoutPaymentToken => exact { h with checkoutTokens := h.checkoutTokens.setex rfl }
  | claimCheckoutPaymentToken => exact { h with checkoutTokens := h.checkoutTokens.delete }
  | destroy => exact shortOnly_destroyChannel h
  | delete => exact shortOnly_deleteChannel h

theorem shortOnly_after (ls : List Event) : ShortOnly C ((lifecycle E C).after ls).redis :=
  redis_always (ShortOnly C)
    ⟨Store.Forall.empty, Store.Forall.empty, Store.Forall.empty, Store.Forall.empty,
      Store.Forall.empty, Store.Forall.empty⟩ shortOnly_effect ls

/-! ### The two ways to tear a channel down -/

theorem noKeys_longSlug (h : ShortOnly C redis)
    (hchannels : redis.channels.entryAt now C.data.longSlug = none)
    (hreaderTokens : redis.readerTokens.entryAt now C.data.longSlug = none)
    (hpendingTokens : redis.pendingTokens.entryAt now C.data.longSlug = none) :
    redis.NoKeys now C.data.longSlug where
  channels := hchannels
  readerTokens := hreaderTokens
  pendingTokens := hpendingTokens
  pendingDestructions := h.pendingDestructions.entryAt_eq_none C.slugs_ne
  pwAttempts := h.pwAttempts.entryAt_eq_none C.slugs_ne
  downloadCounts := h.downloadCounts.entryAt_eq_none C.slugs_ne
  checksums := h.checksums.entryAt_eq_none C.slugs_ne
  paymentTokens := h.paymentTokens.entryAt_eq_none C.slugs_ne
  checkoutTokens _ := h.checkoutTokens.entryAt_eq_none C.slugs_ne

theorem noKeys_destroyChannel (h : ShortOnly C redis) (hbare : redis.Bare C now) :
    (redis.destroyChannel C.data).NoKeys now C.data.shortSlug ∧
      (redis.destroyChannel C.data).NoKeys now C.data.longSlug := by
  refine ⟨?_, noKeys_longSlug (shortOnly_destroyChannel h) Store.entryAt_delete_self
    Store.entryAt_delete_self Store.entryAt_delete_self⟩
  exact
    { channels := Store.entryAt_delete_eq_none Store.entryAt_delete_self
      readerTokens := Store.entryAt_delete_eq_none Store.entryAt_delete_self
      pendingTokens := Store.entryAt_delete_eq_none Store.entryAt_delete_self
      pendingDestructions := Store.entryAt_delete_self
      pwAttempts := Store.entryAt_delete_self
      downloadCounts := Store.entryAt_delete_self
      checksums := hbare.checksums
      paymentTokens := hbare.paymentTokens
      checkoutTokens := hbare.checkoutTokens }

theorem noKeys_deleteChannel (h : ShortOnly C redis) (hbare : redis.Bare C now) :
    (redis.deleteChannel C.data).NoKeys now C.data.shortSlug ∧
      (redis.deleteChannel C.data).NoKeys now C.data.longSlug := by
  obtain ⟨hshort, hlong⟩ := noKeys_destroyChannel h hbare
  exact ⟨{ hshort with paymentTokens := Store.entryAt_delete_self },
    { hlong with paymentTokens := Store.entryAt_delete_eq_none hlong.paymentTokens }⟩

theorem alike_iff :
    Redis.Alike now (redis.destroyChannel C.data) (redis.deleteChannel C.data) ↔
      redis.paymentTokens.entryAt now C.data.shortSlug = none := by
  constructor
  · intro h
    exact (h.paymentTokens C.data.shortSlug).trans Store.entryAt_delete_self
  · intro hnone
    refine ⟨fun _ => rfl, fun _ => rfl, fun _ => rfl, fun _ => rfl, fun _ => rfl, fun _ => rfl,
      fun _ => rfl, fun slug => ?_, fun _ => rfl⟩
    change redis.paymentTokens.entryAt now slug = _
    by_cases hslug : slug = C.data.shortSlug
    · rw [hslug, hnone]
      exact Store.entryAt_delete_self.symm
    · exact (Store.entryAt_delete_of_ne hslug).symm

theorem bare_of_complete {redis'' : Redis}
    (hredis : redis'' = redis.destroyChannel C.data ∨ redis'' = redis.deleteChannel C.data)
    (hshort : redis''.NoKeys now C.data.shortSlug)
    (halike : Redis.Alike now (redis.destroyChannel C.data) (redis.deleteChannel C.data)) :
    redis.Bare C now := by
  refine ⟨?_, alike_iff.mp halike, ?_⟩
  · rcases hredis with rfl | rfl <;> exact hshort.checksums
  · rcases hredis with rfl | rfl <;> exact hshort.checkoutTokens

end Steps

/-! ### Runs -/

section Runs

variable {s : State}

theorem teardownComplete_step (hlife : Life C s) (hshort : ShortOnly C s.redis)
    (past : List Event) (l : Event) :
    TeardownComplete E C past s l ↔ WhenResumed E C (Unburdened C) past s l := by
  constructor
  · intro h
    cases l with
    | elapsed | requested => trivial
    | resumed i settlement =>
      intro call hcall
      have hgenuine : call.Genuine C := hlife.calls call (List.mem_of_getElem? hcall)
      rw [TeardownComplete, step_resumed_of_some hcall] at h
      -- only the second script and a report tear a channel down
      cases call with
      | confirmingDestruction channel =>
        obtain rfl : channel = C.data := hgenuine
        intro hdestroyed
        have hadvance : advance E s.redis s.now settlement (.confirmingDestruction C.data) =
            { redis := s.redis.destroyChannel C.data
              outputs := [.destroy true true "Channel destroyed"] } := by
          dsimp only [advance]
          rw [atomicDestroyChannel_snd, if_pos hdestroyed, hdestroyed]
        rw [hadvance] at h
        obtain ⟨hnone, -, halike⟩ := h _ List.mem_cons_self trivial
        exact bare_of_complete (.inl rfl) hnone halike
      | deleting channel =>
        obtain rfl : channel = C.data := hgenuine
        obtain ⟨hnone, -, halike⟩ := h { call := i, time := s.now, output := .report true }
          List.mem_cons_self trivial
        exact bare_of_complete (.inr rfl) hnone halike
      | _ => trivial
  · intro h o ho hdown
    obtain ⟨i, settlement, call, rfl, hsome, houtput, -⟩ := mem_outputs_of_mem_step ho
    have hgenuine : call.Genuine C := hlife.calls call (List.mem_of_getElem? hsome)
    have horigin := origin_of_outputs _ houtput
    -- an answer that tells of a teardown comes from one of the two commands
    have hbare : s.redis.Bare C s.now ∧ (advance E s.redis s.now settlement call).redis =
        s.redis.destroyChannel C.data ∨ s.redis.Bare C s.now ∧
          (advance E s.redis s.now settlement call).redis = s.redis.deleteChannel C.data := by
      rcases hdown.cases with ⟨message, heq⟩ | heq
      · rw [heq] at horigin
        obtain ⟨channel, rfl, hdestroyed⟩ := horigin
        obtain rfl : channel = C.data := hgenuine
        refine .inl ⟨h _ hsome hdestroyed, ?_⟩
        dsimp only [advance]
        rw [atomicDestroyChannel_snd, if_pos hdestroyed]
      · rw [heq] at horigin
        obtain ⟨channel, rfl⟩ := horigin
        obtain rfl : channel = C.data := hgenuine
        exact .inr ⟨h _ hsome, rfl⟩
    rw [step_resumed_of_some hsome]
    rcases hbare with ⟨hbare, hredis⟩ | ⟨hbare, hredis⟩
    · rw [hredis]
      obtain ⟨hs, hl⟩ := noKeys_destroyChannel hshort hbare
      exact ⟨hs, hl, alike_iff.mpr hbare.paymentTokens⟩
    · rw [hredis]
      obtain ⟨hs, hl⟩ := noKeys_deleteChannel hshort hbare
      exact ⟨hs, hl, alike_iff.mpr hbare.paymentTokens⟩

/-- **Teardown.** Along a run, a channel that is torn down leaves no key behind, and both ways of
deletion agree, exactly if every call that tears it down finds it without checksums, payment
tokens and tokens to be claimed. -/
theorem teardownComplete_iff {ls : List Event} :
    (lifecycle E C).Along (TeardownComplete E C) ls ↔
      (lifecycle E C).Along (WhenResumed E C (Unburdened C)) ls :=
  (lifecycle E C).along_congr fun past l =>
    teardownComplete_step (life_after past) (shortOnly_after past) past l

/-- The checksums of a channel that was destroyed are still there. -/
theorem checksums_leftBehind :
    ¬∀ (E : Environment) (C : Channel) (ls : List Event),
      (lifecycle E C).Along (TeardownComplete E C) ls := by
  intro h
  let run : List Event := inTurn 0 (.uploadChecksums "ab" "secret" [("a.txt", "00")]) 3 ++
    inTurn 1 (.destroyChannel "ab" "secret") 2 ++ inTurn 2 (.destroyChannel "ab" "secret") 2
  have hlast := (System.along_snoc _).mp (h plainEnvironment freeChannel (run ++ [.resumed 2 {}]))
  have hshort := (hlast.2
    { call := 2, time := 0, output := .destroy true true "Channel destroyed" }
    (by decide +kernel) trivial).1.checksums
  revert hshort
  decide +kernel

end Runs

end Rapidly.FileSharing.Channels
