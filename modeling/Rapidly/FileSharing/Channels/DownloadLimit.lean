import Rapidly.FileSharing.Channels.ReaderGate

/-!
# The download limit

The completed downloads of a channel are counted under a key of its own. The first completion
creates it, with the time to live that was read from the channel one command before; later ones
keep its expiry, and a renewal gives the channel and the counter the same.

`limit_of_unexpired`: as long as the counter is created to last as long as the channel, and
nothing is counted any more once both are gone, the completions are the slots `1, …, k` of the
channel, in order, with `m - s` remaining after slot `s`.
-/

namespace Rapidly.FileSharing.Channels

open KeyValue Payments Transition

variable {E : Environment} {C : Channel}

/-- The slot and the remaining count of a successful completion. -/
def Observation.completion (o : Observation) : Option (ℕ × ℤ) :=
  match o.output with
  | .downloadComplete true remaining slot => some (slot, remaining)
  | _ => none

/-- The successful completions. -/
def completions (log : List Observation) : List (ℕ × ℤ) := log.filterMap Observation.completion

/-- The first slots of a channel with a limit of `m` downloads. -/
def slotsUpTo (m k : ℕ) : List (ℕ × ℤ) := (List.range k).map fun i => (i + 1, (m : ℤ) - (i + 1))

theorem slotsUpTo_succ (m k : ℕ) :
    slotsUpTo m (k + 1) = slotsUpTo m k ++ [(k + 1, (m : ℤ) - (k + 1))] := by
  rw [slotsUpTo, List.range_succ, List.map_append]
  rfl

/-- The slots that were given out, and what is said to be left of them. -/
def Limit (C : Channel) (log : List Observation) (s : State) : Prop :=
  (completions log).length ≤ C.data.maxDownloads ∧
    completions log = slotsUpTo C.data.maxDownloads (completions log).length ∧
    (s.Alive C → (s.redis.checkDownloadAvailable s.now C.data ↔
      (completions log).length < C.data.maxDownloads))

instance limitDecidable (log : List Observation) (s : State) : Decidable (Limit C log s) :=
  inferInstanceAs (Decidable (_ ∧ _ ∧ (_ → (_ ↔ _))))

/-- A missing counter is created to last as long as the channel; without a channel nothing has
been counted. -/
def Unexpired (C : Channel) (log : List Observation) (s : State) : Call → Prop
  | .claimingSlot _ counterTtl =>
    s.redis.downloadCounts.entryAt s.now C.data.shortSlug = none →
      (s.Alive C → s.redis.channels.ExpiresWithin C.data.shortSlug s.now counterTtl) ∧
        (¬s.Alive C → completions log = [])
  | _ => True

instance unexpiredDecidable (log : List Observation) (s : State) :
    ∀ call, Decidable (Unexpired C log s call) := by
  rintro ⟨⟩
  case claimingSlot =>
    dsimp only [Unexpired]
    infer_instance
  all_goals exact isTrue trivial

/-! ### The counter -/

theorem completions_append (log new : List Observation) :
    completions (log ++ new) = completions log ++ completions new := List.filterMap_append

/-- Redis keeps count of the completions. -/
structure Counted (C : Channel) (now : ℕ) (redis : Redis) (log : List Observation) : Prop where
  le : (completions log).length ≤ C.data.maxDownloads
  slots : completions log = slotsUpTo C.data.maxDownloads (completions log).length
  counter : ∀ e ∈ redis.downloadCounts.entryAt now C.data.shortSlug,
    e.value = (completions log).length ∧ completions log ≠ []
  outlives : completions log ≠ [] →
    redis.downloadCounts.Outlives C.data.shortSlug redis.channels C.data.shortSlug now

section Steps

variable {s : State} {log log' : List Observation} {i : ℕ} {settlement : Settlement} {call : Call}
  {redis redis' : Redis} {now later : ℕ}

theorem Counted.of_le (h : Counted C now redis log) (hle : now ≤ later) :
    Counted C later redis log where
  le := h.le
  slots := h.slots
  counter e he := by
    rw [Store.entryAt_of_le hle] at he
    exact h.counter e (Option.filter_eq_some_iff.mp he).1
  outlives hne := (h.outlives hne).of_le hle

theorem Counted.congr (h : Counted C now redis log) (heq : completions log' = completions log) :
    Counted C now redis log' := by
  obtain ⟨hle, hslots, hcounter, houtlives⟩ := h
  constructor <;> rw [heq] <;> assumption

theorem Counted.getD (h : Counted C s.now s.redis log)
    (hkept : s.redis.downloadCounts.entryAt s.now C.data.shortSlug = none →
      ¬s.Alive C → completions log = []) :
    (s.redis.downloadCounts.get s.now C.data.shortSlug).getD 0 = (completions log).length := by
  obtain hnone | ⟨e, he⟩ :=
    Option.eq_none_or_eq_some (s.redis.downloadCounts.entryAt s.now C.data.shortSlug)
  · have hempty : completions log = [] := by
      by_cases halive : s.Alive C
      · by_contra hne
        have hsome := (h.outlives hne).isSome halive
        rw [hnone] at hsome
        exact Bool.noConfusion hsome
      · exact hkept hnone halive
    rw [Store.get, hnone, hempty]
    rfl
  · rw [Store.get, he]
    exact (h.counter e he).1

theorem Counted.available (h : Counted C s.now s.redis log) (hlimit : 0 < C.data.maxDownloads)
    (halive : s.Alive C) :
    s.redis.checkDownloadAvailable s.now C.data ↔
      (completions log).length < C.data.maxDownloads := by
  rw [Redis.checkDownloadAvailable]
  rw [h.getD fun _ hdead => absurd halive hdead, decide_eq_false hlimit.ne', Bool.false_or,
    decide_eq_true_iff]

theorem claimSlot_of_le {counterTtl : ℕ}
    (h : C.data.maxDownloads ≤ (redis.downloadCounts.get now C.data.shortSlug).getD 0) :
    redis.claimSlot now C.data counterTtl = (none, redis) := by
  rw [Redis.claimSlot, atomicDownloadIncr, if_pos h]

theorem claimSlot_of_lt {counterTtl k : ℕ}
    (hget : (redis.downloadCounts.get now C.data.shortSlug).getD 0 = k)
    (h : k < C.data.maxDownloads) :
    redis.claimSlot now C.data counterTtl =
      (some (k + 1), { redis with
        downloadCounts :=
          if k = 0 then
            (redis.downloadCounts.incr now C.data.shortSlug).2.expire now C.data.shortSlug
              counterTtl
          else (redis.downloadCounts.incr now C.data.shortSlug).2 }) := by
  rw [Redis.claimSlot, atomicDownloadIncr, hget, if_neg h.not_ge]
  dsimp only
  rw [Store.incr_fst, hget]
  simp only [Nat.add_eq_right]

theorem Counted.eq_none (h : Counted C now redis log) (hempty : completions log = []) :
    redis.downloadCounts.entryAt now C.data.shortSlug = none := by
  by_contra hne
  obtain ⟨e, he⟩ := Option.ne_none_iff_exists'.mp hne
  exact (h.counter e he).2 hempty

theorem completions_snoc {o : Observation} {slot : ℕ} {remaining : ℤ}
    (ho : o.completion = some (slot, remaining)) :
    completions (log ++ [o]) = completions log ++ [(slot, remaining)] := by
  rw [completions_append]
  congr 1
  rw [completions, List.filterMap_cons, ho]
  rfl

theorem Counted.claimSlot {counterTtl k : ℕ} (h : Counted C s.now s.redis log)
    (hunexpired : Unexpired C log s (.claimingSlot C.data counterTtl))
    (hk : (completions log).length = k) (hlt : k < C.data.maxDownloads) {o : Observation}
    (ho : o.completion = some (k + 1, (C.data.maxDownloads : ℤ) - (k + 1))) :
    Counted C s.now (s.redis.claimSlot s.now C.data counterTtl).2 (log ++ [o]) := by
  have hget : (s.redis.downloadCounts.get s.now C.data.shortSlug).getD 0 = k := by
    rw [h.getD fun hmissing => (hunexpired hmissing).2, hk]
  have hincr : (s.redis.downloadCounts.incr s.now C.data.shortSlug).1 = k + 1 := by
    rw [Store.incr_fst, hget]
  have hlength : (completions (log ++ [o])).length = k + 1 := by
    rw [completions_snoc ho, List.length_append, hk]
    rfl
  have hne : completions (log ++ [o]) ≠ [] := by
    rw [completions_snoc ho]
    exact List.append_ne_nil_of_right_ne_nil _ (List.cons_ne_nil _ _)
  rw [claimSlot_of_lt hget hlt]
  refine ⟨?_, ?_, fun e he => ⟨?_, hne⟩, fun _ => ?_⟩
  · rw [hlength]
    exact hlt
  · rw [hlength, slotsUpTo_succ, completions_snoc ho, h.slots, hk]
  · rw [hlength, ← hincr]
    by_cases hzero : k = 0
    · rw [if_pos hzero] at he
      obtain ⟨counted, hcounted, hvalue⟩ := Store.value_of_entryAt_expire he
      rw [← hvalue]
      exact Store.value_of_entryAt_incr hcounted
    · rw [if_neg hzero] at he
      exact Store.value_of_entryAt_incr he
  · by_cases hzero : k = 0
    · -- the counter is new, and is given the time that was read
      have hmissing := h.eq_none (List.eq_nil_of_length_eq_zero (hk.trans hzero))
      rw [if_pos hzero]
      by_cases halive : s.Alive C
      · have hcreated : ((s.redis.downloadCounts.incr s.now C.data.shortSlug).2.expire s.now
            C.data.shortSlug counterTtl).entryAt s.now C.data.shortSlug =
              some ⟨1, some (s.now + 1000 * counterTtl)⟩ := by
          rw [Store.entryAt_expire_self, Store.entryAt_incr_of_none hmissing]
          rfl
        exact .of_expiresWithin hcreated ((hunexpired hmissing).1 halive)
      · exact .of_none (Option.not_isSome_iff_eq_none.mp halive)
    · rw [if_neg hzero]
      refine (h.outlives fun hempty => hzero ?_).incr
      rw [← hk, hempty]
      rfl

theorem Counted.renewChannel (h : Counted C now redis log) (ttl : ℕ) (readerTokenExists : Bool) :
    Counted C now (redis.renewChannel now C.data ttl readerTokenExists) log where
  le := h.le
  slots := h.slots
  counter e he := by
    obtain ⟨old, hold, hvalue⟩ := Store.value_of_entryAt_expire he
    rw [← hvalue]
    exact h.counter old hold
  outlives hne :=
    ((h.outlives hne).expire ttl).congr rfl (Store.entryAt_expire_of_ne C.slugs_ne.symm ttl)

theorem Counted.gone (h : Counted C now redis log)
    (hchannel : redis'.channels.entryAt now C.data.shortSlug = none)
    (hcounter : redis'.downloadCounts.entryAt now C.data.shortSlug = none) :
    Counted C now redis' log where
  le := h.le
  slots := h.slots
  counter e he := absurd (hcounter ▸ he) (Option.not_mem_none e)
  outlives _ := .of_none hchannel

theorem Counted.effect (h : Counted C s.now s.redis log) (hlimit : 0 < C.data.maxDownloads)
    (hclaiming : ∀ counterTtl, call ≠ .claimingSlot C.data counterTtl)
    (heffect : Effect C s.redis s.now call redis') : Counted C s.now redis' log := by
  cases heffect with
  | claimSlot counterTtl => exact absurd rfl (hclaiming counterTtl)
  | countDownload _ hunlimited | expireDownloadCount _ _ hunlimited =>
    exact absurd hunlimited hlimit.ne'
  | renew ttl readerTokenExists => exact h.renewChannel ttl readerTokenExists
  | destroy | delete =>
    exact h.gone (Store.entryAt_delete_eq_none Store.entryAt_delete_self)
      Store.entryAt_delete_self
  | _ => exact ⟨h.le, h.slots, h.counter, h.outlives⟩

theorem completions_advance (hgenuine : call.Genuine C) (hlimit : 0 < C.data.maxDownloads)
    (hclaiming : ∀ counterTtl, call ≠ .claimingSlot C.data counterTtl) :
    completions ((advance E s.redis s.now settlement call).outputs.map
      fun output => { call := i, time := s.now, output }) = [] := by
  refine List.filterMap_eq_nil_iff.mpr fun o ho => ?_
  obtain ⟨output, houtput, rfl⟩ := List.mem_map.mp ho
  have horigin := origin_of_outputs _ houtput
  rw [Observation.completion]
  split
  next remaining slot heq =>
    obtain rfl : output = .downloadComplete true remaining slot := heq
    -- a completion that is not counted by slots is one of an unlimited channel
    rcases horigin with ⟨channel, counterTtl, rfl, -⟩ | ⟨channel, counterTtl, rfl⟩ |
      ⟨channel, counterTtl, downloadCount, rfl⟩
    · exact absurd (congrArg (Call.claimingSlot · counterTtl) hgenuine.1) (hclaiming counterTtl)
    · exact absurd hgenuine.2 hlimit.ne'
    · exact absurd hgenuine.2 hlimit.ne'
  · rfl

theorem Counted.advance (hlimit : 0 < C.data.maxDownloads) (hlife : Life C s)
    (hsome : s.calls[i]? = some call) (hunexpired : Unexpired C log s call)
    (h : Counted C s.now s.redis log) :
    Counted C s.now (advance E s.redis s.now settlement call).redis
      (log ++ (advance E s.redis s.now settlement call).outputs.map
        fun output => { call := i, time := s.now, output }) := by
  have hgenuine : call.Genuine C := hlife.calls call (List.mem_of_getElem? hsome)
  by_cases hclaiming : ∃ counterTtl, call = .claimingSlot C.data counterTtl
  · -- the counter says how many slots have been given out
    obtain ⟨counterTtl, rfl⟩ := hclaiming
    have hget := h.getD fun hmissing => (hunexpired hmissing).2
    by_cases hlt : (completions log).length < C.data.maxDownloads
    · have hclaimed := @claimSlot_of_lt C s.redis s.now counterTtl _ hget hlt
      have houtputs : (Channels.advance E s.redis s.now settlement
          (.claimingSlot C.data counterTtl)).outputs =
            [.downloadComplete true (C.data.maxDownloads - ((completions log).length + 1) : ℕ)
              ((completions log).length + 1)] := by
        dsimp only [Channels.advance]
        rw [hclaimed]
      rw [houtputs]
      refine h.claimSlot hunexpired rfl hlt ?_
      push_cast [Nat.cast_sub hlt]
      rfl
    · -- no slot is left, and nothing changes
      have hfull : s.redis.claimSlot s.now C.data counterTtl = (none, s.redis) :=
        claimSlot_of_le (hget.symm ▸ not_lt.mp hlt)
      have hadvance : Channels.advance E s.redis s.now settlement
          (.claimingSlot C.data counterTtl) =
            { redis := s.redis, outputs := [.downloadComplete false 0 0] } := by
        dsimp only [Channels.advance]
        rw [hfull]
      rw [hadvance]
      refine h.congr ?_
      rw [completions_append]
      exact List.append_nil _
  · have hother : ∀ counterTtl, call ≠ .claimingSlot C.data counterTtl :=
      fun counterTtl heq => hclaiming ⟨counterTtl, heq⟩
    refine (h.effect hlimit hother (effect_advance hgenuine)).congr ?_
    rw [completions_append, completions_advance hgenuine hlimit hother, List.append_nil]

end Steps

/-! ### Runs -/

section Runs

variable {ls : List Event}

theorem counted_of_unexpired (hlimit : 0 < C.data.maxDownloads)
    (h : (lifecycle E C).Along (WhenResumed E C (Unexpired C)) ls) :
    Counted C ((lifecycle E C).after ls).now ((lifecycle E C).after ls).redis
      ((lifecycle E C).log ls) :=
  redis_invariant (Counted C)
    ⟨Nat.zero_le _, rfl, fun e he => absurd he (Option.not_mem_none e), fun h => absurd rfl h⟩
    Counted.of_le (Counted.advance hlimit) h

/-- **The download limit.** In every run in which the counter is never lost, the completions are
the first slots of the channel, no more than its limit, and downloads are available exactly as
long as there are fewer. -/
theorem limit_of_unexpired (hlimit : 0 < C.data.maxDownloads)
    (h : (lifecycle E C).Along (WhenResumed E C (Unexpired C)) ls) :
    Limit C ((lifecycle E C).log ls) ((lifecycle E C).after ls) := by
  have hcounted := counted_of_unexpired hlimit h
  exact ⟨hcounted.le, hcounted.slots, hcounted.available hlimit⟩

/-- A channel with a price that may be downloaded once. -/
def onceChannel : Channel where
  data :=
    { longSlug := "a/b/c", shortSlug := "ab", secret := "secret", priceCents := some 500
      sellerStripeId := some "acct_1", maxDownloads := 1 }
  ttl := 86400

/-- One download, a renewal, and a second download that is refused. -/
def refusedDownloadRun : List Event :=
  inTurn 0 (.setReaderToken "ab" "secret" "token") 3 ++
    inTurn 1 (.recordDownloadComplete "ab" "token") 5 ++ [.elapsed 1000] ++
    inTurn 2 (.renewChannel "ab" "secret" none) 3 ++ [.elapsed 3000000] ++
    inTurn 3 (.recordDownloadComplete "ab" "token") 5

theorem limit_of_unexpired_refused :
    Limit onceChannel ((lifecycle plainEnvironment onceChannel).log refusedDownloadRun)
      ((lifecycle plainEnvironment onceChannel).after refusedDownloadRun) :=
  limit_of_unexpired (by decide) (by decide +kernel)

/-- Redis answers a time to live in seconds: the counter of a download that is completed 600 ms
after the channel was created expires 400 ms before the channel. A second download is completed
in between. -/
theorem expiredCount_restarts :
    ¬∀ (E : Environment) (C : Channel) (ls : List Event), 0 < C.data.maxDownloads →
      Limit C ((lifecycle E C).log ls) ((lifecycle E C).after ls) := by
  intro h
  let run : List Event := inTurn 0 (.setReaderToken "ab" "secret" "token") 3 ++ [.elapsed 600] ++
    inTurn 1 (.recordDownloadComplete "ab" "token") 5 ++ [.elapsed 86399100] ++
    inTurn 2 (.recordDownloadComplete "ab" "token") 5
  have hslots := h plainEnvironment onceChannel run (by decide)
  revert hslots
  decide +kernel

end Runs

end Rapidly.FileSharing.Channels
