import Rapidly.FileSharing.Channels.ReaderGate

/-!
# What a renewal does to the keys of a channel

A renewal gives the same number of seconds, as requested or the configured ones of a free
channel, to the channel, to its reader token and to its download counter.

* `neverShortens_iff`: that is no less than they had exactly if each of them would have expired
  within the new time to live.
* The tokens of buyers are a key that a renewal does not extend. `accessKept_of_lasting`: they
  stay valid while the channel lives if the key is given what the channel has left, and no
  renewal takes the channel beyond it.
-/

namespace Rapidly.FileSharing.Channels

open KeyValue Payments Transition

variable {E : Environment} {C : Channel}

/-! ### The keys that are extended -/

/-- Every key that a renewal extends lasts as long as it would have lasted. -/
def Lengthened (C : Channel) (s s' : State) (readerTokenExists : Bool) : Prop :=
  s'.redis.channels.Outlives C.data.shortSlug s.redis.channels C.data.shortSlug s.now ∧
    s'.redis.channels.Outlives C.data.longSlug s.redis.channels C.data.longSlug s.now ∧
    (readerTokenExists →
      s'.redis.readerTokens.Outlives C.data.shortSlug s.redis.readerTokens C.data.shortSlug
        s.now) ∧
    s'.redis.downloadCounts.Outlives C.data.shortSlug s.redis.downloadCounts C.data.shortSlug
      s.now

/-- Renewals do not shorten what they extend. -/
def NeverShortens (E : Environment) (C : Channel) : System.Condition State Event :=
  fun _ s l => ∀ o ∈ (step E s l).2, ∀ channel ttl readerTokenExists,
    s.calls[o.call]? = some (.renewing channel ttl readerTokenExists) →
      Lengthened C s (step E s l).1 readerTokenExists

/-- The keys that the call extends would have expired within their new time to live. -/
def Overdue (C : Channel) (_ : List Observation) (s : State) : Call → Prop
  | .renewing _ ttl readerTokenExists =>
    s.redis.channels.ExpiresWithin C.data.shortSlug s.now ttl ∧
      (readerTokenExists → s.redis.readerTokens.ExpiresWithin C.data.shortSlug s.now ttl) ∧
      s.redis.downloadCounts.ExpiresWithin C.data.shortSlug s.now ttl
  | _ => True

section Extended

variable {s : State} {i : ℕ} {settlement : Settlement} {call : Call}

theorem lengthened_iff (hstores : s.redis.Stores C) {ttl : ℕ} {readerTokenExists : Bool}
    {calls : List Call} :
    Lengthened C s
        { s with
          redis := s.redis.renewChannel s.now C.data ttl readerTokenExists
          calls := calls } readerTokenExists ↔
      Overdue C [] s (.renewing C.data ttl readerTokenExists) := by
  let renewed := s.redis.renewChannel s.now C.data ttl readerTokenExists
  have hshort : renewed.channels.Outlives C.data.shortSlug s.redis.channels C.data.shortSlug
      s.now ↔ s.redis.channels.ExpiresWithin C.data.shortSlug s.now ttl := by
    rw [← Store.outlives_expire_iff]
    exact Store.outlives_congr Redis.entryAt_renewChannel rfl
  have hlong : renewed.channels.Outlives C.data.longSlug s.redis.channels C.data.longSlug s.now ↔
      s.redis.channels.ExpiresWithin C.data.shortSlug s.now ttl := by
    rw [Store.outlives_congr Redis.entryAt_renewChannel_longSlug rfl, Store.outlives_expire_iff,
      Store.ExpiresWithin, hstores.entryAt_longSlug, Store.ExpiresWithin]
  have hreader : (readerTokenExists → renewed.readerTokens.Outlives C.data.shortSlug
      s.redis.readerTokens C.data.shortSlug s.now) ↔
      (readerTokenExists → s.redis.readerTokens.ExpiresWithin C.data.shortSlug s.now ttl) := by
    refine imp_congr_right fun hexists => ?_
    rw [← Store.outlives_expire_iff]
    exact Store.outlives_congr (by simp only [renewed, Redis.renewChannel, if_pos hexists]) rfl
  rw [Lengthened, Overdue]
  rw [hreader, hshort, hlong]
  dsimp only [Redis.renewChannel]
  rw [Store.outlives_expire_iff]
  exact ⟨fun h => ⟨h.1, h.2.2⟩, fun h => ⟨h.1, h.1, h.2⟩⟩

theorem neverShortens_step (hlife : Life C s) (past : List Event) (l : Event) :
    NeverShortens E C past s l ↔ WhenResumed E C (Overdue C) past s l := by
  constructor
  · intro h
    cases l with
    | elapsed | requested => trivial
    | resumed i settlement =>
      intro call hcall
      have hgenuine : call.Genuine C := hlife.calls call (List.mem_of_getElem? hcall)
      cases call with
      | renewing channel ttl readerTokenExists =>
        obtain rfl : channel = C.data := hgenuine
        have hlengthened := h { call := i, time := s.now, output := .renew true }
          (by rw [step_resumed_of_some hcall]; exact List.mem_cons_self) C.data ttl
          readerTokenExists hcall
        rw [step_resumed_of_some hcall] at hlengthened
        exact (lengthened_iff hlife.stores).mp hlengthened
      | _ => trivial
  · intro h o ho channel ttl readerTokenExists hrenewing
    obtain ⟨i, settlement, call, rfl, hsome, houtput, hoi⟩ := mem_outputs_of_mem_step ho
    obtain rfl : i = o.call := hoi.symm
    have hgenuine := hlife.calls _ (List.mem_of_getElem? hrenewing)
    obtain rfl : channel = C.data := hgenuine
    rw [step_resumed_of_some hrenewing]
    exact (lengthened_iff hlife.stores).mpr (h _ hrenewing)

/-- **Renewals and time left.** Along a run no renewal shortens what it extends exactly if every
renewal finds its channel, the reader token it extends and the download counter due to expire
within the time to live that it gives them. -/
theorem neverShortens_iff {ls : List Event} :
    (lifecycle E C).Along (NeverShortens E C) ls ↔
      (lifecycle E C).Along (WhenResumed E C (Overdue C)) ls :=
  (lifecycle E C).along_congr fun past l => neverShortens_step (life_after past) past l

/-- A channel with a price, which lasts for a day. -/
def paidChannel : Channel where
  data :=
    { longSlug := "a/b/c", shortSlug := "ab", secret := "secret", priceCents := some 500
      sellerStripeId := some "acct_1" }
  ttl := 86400

/-- A new paid channel is renewed, and has an hour left. -/
theorem paidChannel_shortened :
    ¬∀ (E : Environment) (C : Channel) (ls : List Event),
      (lifecycle E C).Along (NeverShortens E C) ls := by
  intro h
  let run : List Event := inTurn 0 (.renewChannel "ab" "secret" none) 2
  have hlast := (System.along_snoc _).mp (h plainEnvironment paidChannel (run ++ [.resumed 0 {}]))
  obtain ⟨hchannel, -⟩ := hlast.2 { call := 0, time := 0, output := .renew true }
    (by decide +kernel) paidChannel.data 3600 false (by decide +kernel)
  -- it would have been there for another day
  obtain ⟨e, he, hlonger⟩ := hchannel ⟨paidChannel.data, some 86400000⟩ (by decide +kernel)
  obtain rfl : e = ⟨paidChannel.data, some 3600000⟩ :=
    Option.some.inj (he.symm.trans (by decide +kernel))
  exact absurd (hlonger 86400000 rfl) Bool.noConfusion

end Extended

/-! ### The tokens of buyers -/

/-- The digest of a payment token has been stored for the channel. -/
def PaymentTokenStored (log : List Observation) (token : BoundToken) : Prop :=
  ∃ o ∈ log, o.output = .paymentTokenStored token

/-- While the channel lives, the tokens that were stored for it are accepted with their
fingerprints. -/
def AccessKept (E : Environment) (C : Channel) (log : List Observation) (s : State) : Prop :=
  ∀ token buyerFingerprint, PaymentTokenStored log ⟨E.sha256 token, buyerFingerprint⟩ →
    s.Alive C → s.redis.validatePaymentToken s.now C.data E.sha256 token buyerFingerprint

/-- A token is stored for what the channel has left, and no renewal takes the channel beyond the
tokens. -/
def Lasting (C : Channel) (_ : List Observation) (s : State) : Call → Prop
  | .storingPaymentToken _ ttl _ _ =>
    s.redis.channels.ExpiresWithin C.data.shortSlug s.now ttl
  | .renewing _ ttl _ =>
    s.Alive C → s.redis.paymentTokens.LastsFor C.data.shortSlug s.now ttl
  | _ => True

instance lastingDecidable (log : List Observation) (s : State) :
    ∀ call, Decidable (Lasting C log s call) := by
  rintro ⟨⟩
  case storingPaymentToken | renewing =>
    dsimp only [Lasting]
    infer_instance
  all_goals exact isTrue trivial

/-- A token is in the set of the channel, and the set outlives the channel. -/
structure Access (C : Channel) (token : BoundToken) (now : ℕ) (redis : Redis) : Prop where
  outlives : redis.paymentTokens.Outlives C.data.shortSlug redis.channels C.data.shortSlug now
  member : (redis.channels.entryAt now C.data.shortSlug).isSome →
    ∀ e ∈ redis.paymentTokens.entryAt now C.data.shortSlug, token ∈ e.value

section Access

variable {s : State} {log : List Observation} {i : ℕ} {settlement : Settlement} {call : Call}
  {redis redis' : Redis} {now later : ℕ} {token : BoundToken}

theorem Access.of_le (h : Access C token now redis) (hle : now ≤ later) :
    Access C token later redis where
  outlives := h.outlives.of_le hle
  member halive e he := by
    rw [Store.entryAt_of_le hle] at halive he
    obtain ⟨channel, hchannel⟩ := Option.isSome_iff_exists.mp halive
    refine h.member ?_ e (Option.filter_eq_some_iff.mp he).1
    rw [(Option.filter_eq_some_iff.mp hchannel).1]
    rfl

theorem Access.of_none (h : redis.channels.entryAt now C.data.shortSlug = none) :
    Access C token now redis where
  outlives := .of_none h
  member halive := by
    rw [h] at halive
    exact absurd halive Bool.noConfusion

theorem access_storePaymentToken {ttl : ℕ} {new : BoundToken}
    (hwithin : redis.channels.ExpiresWithin C.data.shortSlug now ttl)
    (h : token = new ∨ Access C token now redis) :
    Access C token now (redis.storePaymentToken now C.data ttl new) := by
  obtain ⟨e, he, hnew, hold⟩ :=
    @Store.entryAt_sadd_self _ _ _ _ redis.paymentTokens now C.data.shortSlug new
  have hstored : ((redis.paymentTokens.sadd now C.data.shortSlug new).expire now
      C.data.shortSlug ttl).entryAt now C.data.shortSlug =
        some ⟨e.value, some (now + 1000 * ttl)⟩ := by
    rw [Store.entryAt_expire_self, he]
    rfl
  refine ⟨.of_expiresWithin hstored hwithin, fun halive e' he' => ?_⟩
  obtain rfl := Option.some.inj (hstored.symm.trans he')
  rcases h with rfl | h
  · exact hnew
  · obtain ⟨old, hsome⟩ := Option.isSome_iff_exists.mp (h.outlives.isSome halive)
    exact hold old hsome (h.member halive old hsome)

theorem access_renewChannel {ttl : ℕ} {readerTokenExists : Bool}
    (hlasting : Lasting C log s (.renewing C.data ttl readerTokenExists))
    (h : Access C token s.now s.redis) :
    Access C token s.now (s.redis.renewChannel s.now C.data ttl readerTokenExists) := by
  have hentry := @Redis.entryAt_renewChannel C s.redis s.now ttl readerTokenExists
  by_cases halive : s.Alive C
  · exact ⟨(h.outlives.expire_right (hlasting halive)).congr rfl hentry,
      fun _ => h.member halive⟩
  · refine .of_none (hentry.trans ?_)
    rw [Store.entryAt_expire_self, Option.not_isSome_iff_eq_none.mp halive]
    rfl

theorem access_effect (hlasting : Lasting C log s call) (h : Access C token s.now s.redis)
    (heffect : Effect C s.redis s.now call redis') : Access C token s.now redis' := by
  cases heffect with
  | storePaymentToken => exact access_storePaymentToken hlasting (.inr h)
  | renew => exact access_renewChannel hlasting h
  | destroy | delete =>
    exact .of_none (Store.entryAt_delete_eq_none Store.entryAt_delete_self)
  | _ => exact ⟨h.outlives, h.member⟩

theorem access_advance (hlife : Life C s) (hsome : s.calls[i]? = some call)
    (hlasting : Lasting C log s call)
    (hinv : ∀ token, PaymentTokenStored log token → Access C token s.now s.redis)
    (hstored : PaymentTokenStored (log ++ (advance E s.redis s.now settlement call).outputs.map
      fun output => { call := i, time := s.now, output }) token) :
    Access C token s.now (advance E s.redis s.now settlement call).redis := by
  have hgenuine : call.Genuine C := hlife.calls call (List.mem_of_getElem? hsome)
  obtain ⟨o, ho, houtput⟩ := hstored
  rcases List.mem_append.mp ho with ho | ho
  · exact access_effect hlasting (hinv token ⟨o, ho, houtput⟩) (effect_advance hgenuine)
  · -- this very command stores the token
    obtain ⟨output, hmem, rfl⟩ := List.mem_map.mp ho
    obtain rfl : output = .paymentTokenStored token := houtput
    obtain ⟨channel, ttl, buyerFingerprint, paymentToken, rfl, -⟩ := origin_of_outputs _ hmem
    obtain rfl : channel = C.data := hgenuine
    obtain rfl := Output.paymentTokenStored.inj (List.mem_singleton.mp hmem)
    exact access_storePaymentToken hlasting (.inl rfl)

end Access

/-- **Paid access.** In every run in which payment tokens are stored for what their channel has
left, and renewals do not take the channel beyond them, every token that was stored is accepted
as long as the channel lives. -/
theorem accessKept_of_lasting {ls : List Event}
    (h : (lifecycle E C).Along (WhenResumed E C (Lasting C)) ls) :
    AccessKept E C ((lifecycle E C).log ls) ((lifecycle E C).after ls) := by
  have haccess := redis_invariant
    (fun now redis log => ∀ token, PaymentTokenStored log token → Access C token now redis)
    (fun token ⟨_, ho, _⟩ => absurd ho List.not_mem_nil)
    (fun hinv hle token hstored => (hinv token hstored).of_le hle)
    (fun hlife hsome hlasting hinv token => access_advance hlife hsome hlasting hinv) h
  intro token buyerFingerprint hstored halive
  have htoken := haccess _ hstored
  obtain ⟨e, he⟩ := Option.isSome_iff_exists.mp (htoken.outlives.isSome halive)
  rw [Redis.validatePaymentToken, Store.sismember, Store.get, he]
  exact List.contains_iff_mem.mpr (htoken.member halive e he)

/-- A purchase, and a renewal of the channel for less than the buyer has paid for. -/
def purchaseRun : List Event :=
  inTurn 0 (.createCheckout "ab" "browser" "token") 4 ++ [.elapsed 600000] ++
    inTurn 1 (.renewChannel "ab" "secret" none) 3 ++ [.elapsed 3600000]

theorem accessKept_of_lasting_purchase :
    AccessKept plainEnvironment paidChannel
      ((lifecycle plainEnvironment paidChannel).log purchaseRun)
      ((lifecycle plainEnvironment paidChannel).after purchaseRun) :=
  accessKept_of_lasting (by decide +kernel)

/-- A channel is renewed towards the end of its day, and outlives the token of its buyer. -/
theorem buyer_lockedOut :
    ¬∀ (E : Environment) (C : Channel) (ls : List Event),
      AccessKept E C ((lifecycle E C).log ls) ((lifecycle E C).after ls) := by
  intro h
  let run : List Event := inTurn 0 (.createCheckout "ab" "browser" "token") 4 ++
    [.elapsed 86000000] ++ inTurn 1 (.renewChannel "ab" "secret" none) 3 ++ [.elapsed 1000000]
  have haccepted := h plainEnvironment paidChannel run "token" "browser"
    ⟨{ call := 0, time := 0, output := .paymentTokenStored ⟨"token", "browser"⟩ },
      by decide +kernel, rfl⟩ (by decide +kernel)
  revert haccepted
  decide +kernel

end Rapidly.FileSharing.Channels
