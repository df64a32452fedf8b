import Rapidly.FileSharing.Payments.Checkout
import Rapidly.KeyValue.Lifetime

/-!
# One-time items, command by command

`fetch_secret_or_file` peeks at an item to see whether it is paid, validates the payment token,
and consumes the item, each with a Redis command of its own. Here any number of calls are under
way at a time, and the labels decide which of them executes its next command. `Checkout.lean`
has the same calls with nothing in between (`fetchSecretOrFile_inTurn`).

* Items are created under a fresh identifier, `str(uuid.uuid4())`, of which both kinds draw.
* The tokens of an item come from `create_secret_checkout`, which is followed up to the command
  that stores the digest; what it does at the provider afterwards does not concern the items.
* `oneTimeItems` says who gets the message of an item, and how often.
-/

namespace Rapidly.FileSharing.Payments.OneTime

open KeyValue Transition

/-- The arguments of `fetch_secret_or_file`. -/
structure FetchRequest where
  kind : Kind
  itemId : String
  paymentToken : Option Token := none
  buyerFingerprint : String := ""
deriving DecidableEq

/-- The key of the item that is asked for. -/
def FetchRequest.key (request : FetchRequest) : Kind × String := (request.kind, request.itemId)

/-- A call at the command it executes next. -/
inductive Call where
  /-- `GET` of `_peek`. -/
  | peeking (request : FetchRequest)
  /-- `SISMEMBER` of `validate_secret_payment_token`. -/
  | validating (request : FetchRequest) (peeked : SecretData) (token : Token)
  /-- `GETDEL` of `_fetch`. -/
  | consuming (request : FetchRequest) (peeked : SecretData)
  /-- `GET` of `create_secret_checkout`. -/
  | checkoutPeeking (key : Kind × String) (buyerFingerprint : String) (token : Token)
  | checkoutTtl (key : Kind × String) (buyerFingerprint : String) (token : Token)
  /-- The pipeline of `store_secret_payment_token`. -/
  | storingToken (key : Kind × String) (ttl : ℕ) (buyerFingerprint : String) (token : Token)
  | finished
deriving DecidableEq

inductive Output where
  | created (key : Kind × String) (secret : SecretData)
  /-- The digest of a payment token is stored for the item. -/
  | tokenStored (key : Kind × String) (token : BoundToken)
  /-- What a call of `fetch_secret_or_file` returns. -/
  | responded (call : ℕ) (request : FetchRequest) (response : Option SecretFetchResponse)
deriving DecidableEq

/-- The response to a caller who has not paid. -/
def paymentRequired (peeked : SecretData) : SecretFetchResponse :=
  { message := "", paymentRequired := true, priceCents := peeked.priceCents
    currency := some peeked.currency, title := peeked.title }

/-- What a call does with its next command. -/
structure Advance where
  redis : Redis
  call : Call := .finished
  outputs : List Output := []

section System

variable (sha256 : String → String)

/-- Execute the next command of the call with number `i`, and go on to the one after that. -/
def advance (redis : Redis) (now i : ℕ) : Call → Advance
  | .peeking request =>
    match redis.peek now request.kind request.itemId with
    | none => { redis, outputs := [.responded i request none] }
    | some peeked =>
      if peeked.isPaid then
        match truthy request.paymentToken with
        | some token => { redis, call := .validating request peeked token }
        | none =>
          { redis, outputs := [.responded i request (some (paymentRequired peeked))] }
      else { redis, call := .consuming request peeked }
  | .validating request peeked token =>
    if redis.validateSecretPaymentToken now sha256 request.itemId token
      request.buyerFingerprint
    then { redis, call := .consuming request peeked }
    else { redis, outputs := [.responded i request (some (paymentRequired peeked))] }
  | .consuming request _ =>
    let fetched := redis.fetch now request.kind request.itemId
    { redis := fetched.2
      outputs := [.responded i request
        (fetched.1.map fun secret => { message := secret.message })] }
  | .checkoutPeeking key buyerFingerprint token =>
    match redis.peek now key.1 key.2 with
    | none => { redis }
    | some secret =>
      if secret.isPaid ∧ (truthy secret.sellerStripeId).isSome then
        { redis, call := .checkoutTtl key buyerFingerprint token }
      else { redis }
  | .checkoutTtl key buyerFingerprint token =>
    let ttl := redis.items.ttl now key
    if ttl ≤ 0 then { redis }
    else { redis, call := .storingToken key ttl.toNat buyerFingerprint token }
  | .storingToken key ttl buyerFingerprint token =>
    { redis := redis.storeSecretPaymentToken now key.2 (sha256 token) ttl buyerFingerprint
      outputs := [.tokenStored key ⟨sha256 token, buyerFingerprint⟩] }
  | .finished => { redis }

structure State where
  /-- Milliseconds. -/
  now : ℕ := 0
  redis : Redis := {}
  /-- The identifiers that `uuid4` has drawn. -/
  uuids : List String := []
  calls : List Call := []

inductive Event where
  | elapsed (duration : ℕ)
  /-- `_create`, under an identifier that was not drawn before. -/
  | created (key : Kind × String) (expiration : ℕ) (secret : SecretData)
  | fetchRequested (request : FetchRequest)
  /-- `create_secret_checkout`, with the token it generates. -/
  | checkoutRequested (key : Kind × String) (buyerFingerprint : String) (token : Token)
  /-- A call executes its next command. -/
  | resumed (call : ℕ)
deriving DecidableEq

def step (s : State) : Event → State × List Output
  | .elapsed duration => ({ s with now := s.now + duration }, [])
  | .created key expiration secret =>
    if key.2 ∈ s.uuids then (s, [])
    else
      ({ s with
          redis := { s.redis with items := s.redis.items.setex s.now key expiration secret }
          uuids := key.2 :: s.uuids }, [.created key secret])
  | .fetchRequested request => ({ s with calls := s.calls ++ [.peeking request] }, [])
  | .checkoutRequested key buyerFingerprint token =>
    ({ s with calls := s.calls ++ [.checkoutPeeking key buyerFingerprint token] }, [])
  | .resumed i =>
    match s.calls[i]? with
    | none => (s, [])
    | some call =>
      let next := advance sha256 s.redis s.now i call
      ({ s with redis := next.redis, calls := s.calls.set i next.call }, next.outputs)

/-- The storage of one-time items. -/
def oneTime : System State Event Output where
  init := {}
  step := step sha256

theorem oneTime_step : (oneTime sha256).step = step sha256 := rfl

end System

/-! ### Who gets what -/

/-- A call returns the message of the item. -/
def Output.returnsMessage (key : Kind × String) : Output → Bool
  | .responded _ request (some response) => request.key = key && !response.paymentRequired
  | _ => false

/-- The call is rejected because it has not been paid. -/
def Output.rejects (call : ℕ) : Output → Bool
  | .responded i _ (some response) => i = call && response.paymentRequired
  | _ => false

/-- The call has returned. -/
def Output.answers (call : ℕ) : Output → Bool
  | .responded i _ _ => i = call
  | _ => false

/-- The caller presents a token and a fingerprint that were stored for the very item. -/
def Presents (sha256 : String → String) (log : List Output) (request : FetchRequest) : Prop :=
  ∃ token, truthy request.paymentToken = some token ∧
    .tokenStored request.key ⟨sha256 token, request.buyerFingerprint⟩ ∈ log

/-- The step returns only messages of items that are free or paid for. -/
def PaidFor (sha256 : String → String) : System.Condition State Event := fun past s event =>
  ∀ i request response, .responded i request (some response) ∈ (step sha256 s event).2 →
    response.paymentRequired = false →
      ∃ secret, .created request.key secret ∈ (oneTime sha256).log past ∧
        response.message = secret.message ∧
        (secret.isPaid → Presents sha256 ((oneTime sha256).log past) request)

/-- The step, if it is one of the call, leaves the items as they are. -/
def LeavesItems (sha256 : String → String) (i : ℕ) : System.Condition State Event :=
  fun _ s event => event = .resumed i → (step sha256 s event).1.redis.items = s.redis.items

/-! ### What is known about the items -/

/-- What a call knows about its item. -/
def Call.Accounted (sha256 : String → String) (log : List Output) : Call → Prop
  | .validating request peeked token =>
    .created request.key peeked ∈ log ∧ truthy request.paymentToken = some token
  | .consuming request peeked =>
    .created request.key peeked ∈ log ∧ (peeked.isPaid → Presents sha256 log request)
  | .checkoutTtl key _ _ | .storingToken key _ _ _ => ∃ secret, .created key secret ∈ log
  | _ => True

/-- Items and tokens are those that were created and stored, and an identifier is that of one
item. -/
structure Accounted (sha256 : String → String) (s : State) (log : List Output) : Prop where
  items : s.redis.items.Forall fun key secret => .created key secret ∈ log
  tokens : s.redis.secretPaymentTokens.Forall fun id tokens =>
    ∀ token ∈ tokens, ∃ kind, .tokenStored (kind, id) token ∈ log
  uuids : ∀ key secret, .created key secret ∈ log → key.2 ∈ s.uuids
  unique : ∀ key secret key' secret', .created key secret ∈ log → .created key' secret' ∈ log →
    key.2 = key'.2 → key = key' ∧ secret = secret'
  stored : ∀ key token, .tokenStored key token ∈ log → ∃ secret, .created key secret ∈ log
  calls : ∀ call ∈ s.calls, call.Accounted sha256 log

variable {call : Call} {i : ℕ}

section Accounted

variable {sha256 : String → String} {s : State} {log log' : List Output}

theorem Presents.mono {request : FetchRequest} (h : Presents sha256 log request)
    (hsub : log ⊆ log') : Presents sha256 log' request := by
  obtain ⟨token, htoken, hstored⟩ := h
  exact ⟨token, htoken, hsub hstored⟩

theorem Call.Accounted.mono (h : call.Accounted sha256 log) (hsub : log ⊆ log') :
    call.Accounted sha256 log' := by
  cases call with
  | validating => exact ⟨hsub h.1, h.2⟩
  | consuming => exact ⟨hsub h.1, fun hpaid => (h.2 hpaid).mono hsub⟩
  | checkoutTtl | storingToken =>
    obtain ⟨secret, hcreated⟩ := h
    exact ⟨secret, hsub hcreated⟩
  | _ => trivial

theorem Accounted.init : Accounted sha256 (oneTime sha256).init [] where
  items := .empty
  tokens := .empty
  uuids := fun _ _ h => absurd h List.not_mem_nil
  unique := fun _ _ _ _ h => absurd h List.not_mem_nil
  stored := fun _ _ h => absurd h List.not_mem_nil
  calls := fun _ h => absurd h List.not_mem_nil

/-- A validated token was stored for the item itself, not for one of the other kind under the
same identifier. -/
theorem Accounted.presents (h : Accounted sha256 s log) {request : FetchRequest}
    {peeked : SecretData} {token : Token} (hcreated : .created request.key peeked ∈ log)
    (htoken : truthy request.paymentToken = some token)
    (hvalid : s.redis.validateSecretPaymentToken s.now sha256 request.itemId token
      request.buyerFingerprint = true) : Presents sha256 log request := by
  obtain ⟨kind, hstored⟩ := h.tokens.of_sismember hvalid
  obtain ⟨secret, hother⟩ := h.stored _ _ hstored
  obtain ⟨hkey, -⟩ := h.unique _ _ _ _ hcreated hother rfl
  rw [← hkey] at hstored
  exact ⟨token, htoken, hstored⟩

/-- What a command does, and what the call knows after it. -/
structure Accounts (sha256 : String → String) (s : State) (log : List Output) (i : ℕ)
    (call : Call) (next : Advance) : Prop where
  /-- An item goes, and its message is returned, only when a call consumes it. -/
  items : (next.redis.items = s.redis.items ∧
      ∀ o ∈ next.outputs, ∀ key, o.returnsMessage key = false) ∨
    ∃ request peeked, call = .consuming request peeked ∧
      next.redis.items = s.redis.items.delete request.key ∧
      next.outputs = [.responded i request
        ((s.redis.items.get s.now request.key).map fun secret => { message := secret.message })]
  tokens : next.redis.secretPaymentTokens.Forall fun id tokens =>
    ∀ token ∈ tokens, ∃ kind, .tokenStored (kind, id) token ∈ log ++ next.outputs
  knows : next.call.Accounted sha256 log
  created : ∀ key secret, .created key secret ∉ next.outputs
  stored : ∀ key token, .tokenStored key token ∈ next.outputs →
    ∃ secret, .created key secret ∈ log
  /-- A call returns once, at its end. -/
  answers : (∀ o ∈ next.outputs, o.answers i = false) ∨ next.call = .finished
  own : ∀ j, j ≠ i → ∀ o ∈ next.outputs, o.answers j = false

theorem Accounted.keepsTokens (h : Accounted sha256 s log) (outputs : List Output) :
    s.redis.secretPaymentTokens.Forall fun id tokens =>
      ∀ token ∈ tokens, ∃ kind, Output.tokenStored (kind, id) token ∈ log ++ outputs :=
  h.tokens.mono fun _ _ hstored token htoken =>
    (hstored token htoken).imp fun _ => List.mem_append_left _

theorem Accounted.goesOn (h : Accounted sha256 s log) {call next : Call}
    (hnext : next.Accounted sha256 log) :
    Accounts sha256 s log i call { redis := s.redis, call := next } where
  items := .inl ⟨rfl, fun _ ho => absurd ho List.not_mem_nil⟩
  tokens := h.keepsTokens []
  knows := hnext
  created := fun _ _ => List.not_mem_nil
  stored := fun _ _ ho => absurd ho List.not_mem_nil
  answers := .inl fun _ ho => absurd ho List.not_mem_nil
  own := fun _ _ _ ho => absurd ho List.not_mem_nil

theorem Accounted.refuses (h : Accounted sha256 s log) (request : FetchRequest)
    {response : Option SecretFetchResponse} (hresponse : ∀ r ∈ response, r.paymentRequired = true) :
    Accounts sha256 s log i call
      { redis := s.redis, outputs := [.responded i request response] } where
  items := by
    refine .inl ⟨rfl, fun o ho key => ?_⟩
    obtain rfl := List.mem_singleton.mp ho
    rcases response with _ | r
    · rfl
    · simp [Output.returnsMessage, hresponse r rfl]
  tokens := h.keepsTokens _
  knows := trivial
  created := by simp
  stored := by simp
  answers := .inr rfl
  own := by
    rintro j hj o ho
    obtain rfl := List.mem_singleton.mp ho
    simpa [Output.answers] using hj.symm

theorem Accounted.consumes (h : Accounted sha256 s log) (request : FetchRequest)
    (peeked : SecretData) :
    Accounts sha256 s log i (.consuming request peeked)
      (advance sha256 s.redis s.now i (.consuming request peeked)) where
  items := .inr ⟨request, peeked, rfl, rfl, rfl⟩
  tokens := h.keepsTokens _
  knows := trivial
  created := by simp [advance]
  stored := by simp [advance]
  answers := .inr rfl
  own := by
    rintro j hj o ho
    obtain rfl := List.mem_singleton.mp ho
    simpa [Output.answers] using hj.symm

theorem Accounted.stores (h : Accounted sha256 s log) {key : Kind × String} (ttl : ℕ)
    (buyerFingerprint : String) (token : Token) (hcreated : ∃ secret, .created key secret ∈ log) :
    Accounts sha256 s log i (.storingToken key ttl buyerFingerprint token)
      (advance sha256 s.redis s.now i (.storingToken key ttl buyerFingerprint token)) where
  items := .inl ⟨rfl, by simp [OneTime.advance, Output.returnsMessage]⟩
  tokens := by
    refine Store.Forall.expire (Store.Forall.sadd (h.keepsTokens _) ?_)
    exact ⟨key.1, List.mem_append_right _ (List.mem_singleton.mpr rfl)⟩
  knows := trivial
  created := by simp [advance]
  stored := by
    rintro key' token' ho
    obtain ⟨rfl, -⟩ := Output.tokenStored.inj (List.mem_singleton.mp ho)
    exact hcreated
  answers := .inr rfl
  own := by simp [advance, Output.answers]

/-- **One command.** What a call does is accounted for. -/
theorem Accounted.advance (h : Accounted sha256 s log) (i : ℕ) (hcall : call.Accounted sha256 log) :
    Accounts sha256 s log i call (advance sha256 s.redis s.now i call) := by
  cases call with
  | peeking request =>
    dsimp only [OneTime.advance]
    split
    · exact h.refuses request (by simp)
    next peeked hpeeked =>
      have hcreated : .created request.key peeked ∈ log := h.items.of_get hpeeked
      split
      next hpaid =>
        split
        next token htoken => exact h.goesOn ⟨hcreated, htoken⟩
        · exact h.refuses request (by simp [paymentRequired])
      next hfree => exact h.goesOn ⟨hcreated, fun hpaid => absurd hpaid hfree⟩
  | validating request peeked token =>
    dsimp only [OneTime.advance]
    split
    next hvalid => exact h.goesOn ⟨hcall.1, fun _ => h.presents hcall.1 hcall.2 hvalid⟩
    · exact h.refuses request (by simp [paymentRequired])
  | consuming request peeked => exact h.consumes request peeked
  | checkoutPeeking key buyerFingerprint token =>
    dsimp only [OneTime.advance]
    split
    · exact h.goesOn trivial
    next secret hsecret =>
      split
      · exact h.goesOn ⟨secret, h.items.of_get hsecret⟩
      · exact h.goesOn trivial
  | checkoutTtl key buyerFingerprint token =>
    dsimp only [OneTime.advance]
    split
    · exact h.goesOn trivial
    · exact h.goesOn hcall
  | storingToken key ttl buyerFingerprint token =>
    exact h.stores ttl buyerFingerprint token hcall
  | finished => exact h.goesOn trivial

end Accounted

/-! ### Every run -/

/-- What holds after every run: the items are accounted for, a message that was returned is not
stored any more and was returned once, and a call that has returned is over. -/
structure Settled (sha256 : String → String) (s : State) (log : List Output) : Prop where
  accounted : Accounted sha256 s log
  once : ∀ key, log.countP (Output.returnsMessage key) = 0 ∨
    log.countP (Output.returnsMessage key) = 1 ∧ s.redis.items.entry key = none ∧
      key.2 ∈ s.uuids
  answered : ∀ o ∈ log, ∀ i, o.answers i → s.calls[i]? = some .finished

section Settled

variable {sha256 : String → String} {s : State} {log : List Output}

theorem Settled.quiet (h : Settled sha256 s log) {s' : State} (hredis : s'.redis = s.redis)
    (huuids : s'.uuids = s.uuids) {more : List Call} (hcalls : s'.calls = s.calls ++ more)
    (hmore : ∀ call ∈ more, call.Accounted sha256 log) : Settled sha256 s' (log ++ []) := by
  rw [List.append_nil]
  refine ⟨⟨?_, ?_, ?_, h.accounted.unique, h.accounted.stored, ?_⟩, ?_, ?_⟩
  · rw [hredis]
    exact h.accounted.items
  · rw [hredis]
    exact h.accounted.tokens
  · rw [huuids]
    exact h.accounted.uuids
  · intro call hcall
    rw [hcalls] at hcall
    exact (List.mem_append.mp hcall).elim (h.accounted.calls call) (hmore call)
  · rw [hredis, huuids]
    exact h.once
  · intro o ho i hi
    have hfinished := h.answered o ho i hi
    obtain ⟨hlt, -⟩ := List.getElem?_eq_some_iff.mp hfinished
    rw [hcalls, List.getElem?_append_left hlt]
    exact hfinished

theorem Settled.created (h : Settled sha256 s log) {key : Kind × String}
    (hfresh : key.2 ∉ s.uuids) (expiration : ℕ) (secret : SecretData) :
    Settled sha256
      { s with
        redis := { s.redis with items := s.redis.items.setex s.now key expiration secret }
        uuids := key.2 :: s.uuids } (log ++ [.created key secret]) := by
  have hsub : log ⊆ log ++ [.created key secret] := List.subset_append_left ..
  have hnew : .created key secret ∈ log ++ [.created key secret] :=
    List.mem_append_right _ (List.mem_singleton.mpr rfl)
  have hcreated : ∀ key' secret', .created key' secret' ∈ log ++ [.created key secret] →
      .created key' secret' ∈ log ∧ key'.2 ∈ s.uuids ∨ key' = key ∧ secret' = secret := by
    intro key' secret' hmem
    rcases List.mem_append.mp hmem with hold | hlast
    · exact .inl ⟨hold, h.accounted.uuids _ _ hold⟩
    · exact .inr (Output.created.inj (List.mem_singleton.mp hlast))
  refine ⟨⟨?_, ?_, ?_, ?_, ?_, ?_⟩, fun key' => ?_, ?_⟩
  · exact Store.Forall.setex (h.accounted.items.mono fun _ _ hold => hsub hold) hnew
  · exact h.accounted.keepsTokens _
  · intro key' secret' hmem
    rcases hcreated _ _ hmem with ⟨-, hold⟩ | ⟨rfl, -⟩
    · exact List.mem_cons_of_mem _ hold
    · exact List.mem_cons_self
  · intro k₁ d₁ k₂ d₂ h₁ h₂ hid
    rcases hcreated _ _ h₁ with ⟨hold₁, hu₁⟩ | ⟨rfl, rfl⟩
    · rcases hcreated _ _ h₂ with ⟨hold₂, -⟩ | ⟨rfl, rfl⟩
      · exact h.accounted.unique _ _ _ _ hold₁ hold₂ hid
      · exact absurd (hid ▸ hu₁) hfresh
    · rcases hcreated _ _ h₂ with ⟨-, hu₂⟩ | ⟨rfl, rfl⟩
      · exact absurd (hid ▸ hu₂) hfresh
      · exact ⟨rfl, rfl⟩
  · intro key' token hmem
    have hold : .tokenStored key' token ∈ log := by simpa using hmem
    obtain ⟨secret', hsecret⟩ := h.accounted.stored _ _ hold
    exact ⟨secret', hsub hsecret⟩
  · exact fun call hcall => (h.accounted.calls call hcall).mono hsub
  · have hcount : (log ++ [Output.created key secret]).countP (Output.returnsMessage key') =
        log.countP (Output.returnsMessage key') := by
      simp [List.countP_append, Output.returnsMessage]
    rw [hcount]
    refine (h.once key').imp_right fun ⟨hone, hgone, hused⟩ => ?_
    -- an item that was returned has an id in use, and the new one has not
    have hne : key' ≠ key := by
      rintro rfl
      exact hfresh hused
    exact ⟨hone, (Store.put_of_ne hne ..).trans hgone, List.mem_cons_of_mem _ hused⟩
  · intro o ho i hi
    rcases List.mem_append.mp ho with hold | hlast
    · exact h.answered o hold i hi
    · obtain rfl := List.mem_singleton.mp hlast
      exact absurd hi Bool.false_ne_true

/-- The messages of an item that a command returns: one if it is consumed, and then it was
stored and is not any more. -/
theorem Settled.once_advance (h : Settled sha256 s log) {next : Advance}
    (hnext : Accounts sha256 s log i call next) (key : Kind × String) :
    (log ++ next.outputs).countP (Output.returnsMessage key) = 0 ∨
      (log ++ next.outputs).countP (Output.returnsMessage key) = 1 ∧
        next.redis.items.entry key = none ∧ key.2 ∈ s.uuids := by
  rw [List.countP_append]
  rcases hnext.items with ⟨hitems, hquiet⟩ | ⟨request, peeked, -, hitems, houtputs⟩
  · have hzero : next.outputs.countP (Output.returnsMessage key) = 0 :=
      List.countP_eq_zero.mpr fun o ho => by simp [hquiet o ho key]
    rw [hzero, hitems]
    exact h.once key
  · rw [houtputs, hitems]
    by_cases hkey : key = request.key
    · subst hkey
      have hgone : (s.redis.items.delete request.key).entry request.key = none :=
        Store.put_self ..
      rcases hget : s.redis.items.get s.now request.key with _ | secret
      -- Nothing was there to consume.
      · have hzero : ([Output.responded i request none]).countP
            (Output.returnsMessage request.key) = 0 := rfl
        rw [Option.map_none, hzero]
        exact (h.once request.key).imp_right fun ⟨hone, _, hused⟩ => ⟨hone, hgone, hused⟩
      · obtain ⟨entry, hentry, -⟩ := Option.map_eq_some_iff.mp hget
        have hstored := Store.entryAt_eq_some hentry
        have hnever : log.countP (Output.returnsMessage request.key) = 0 := by
          refine (h.once request.key).resolve_right fun ⟨_, hnone, _⟩ => ?_
          rw [hstored] at hnone
          exact Option.some_ne_none _ hnone
        have hused : request.key.2 ∈ s.uuids :=
          h.accounted.uuids _ _ (h.accounted.items _ _ hstored)
        refine .inr ⟨?_, hgone, hused⟩
        rw [hnever]
        simp [Output.returnsMessage]
    · have hzero : ([Output.responded i request ((s.redis.items.get s.now request.key).map
          fun secret => { message := secret.message })]).countP
            (Output.returnsMessage key) = 0 := by
        rcases s.redis.items.get s.now request.key with _ | secret
        · rfl
        · simp [Output.returnsMessage, Ne.symm hkey]
      rw [hzero, Store.delete, Store.put_of_ne hkey]
      exact h.once key

/-- **One step of a call.** -/
theorem Settled.resumed (h : Settled sha256 s log) (hi : s.calls[i]? = some call) {next : Advance}
    (hnext : Accounts sha256 s log i call next)
    (hover : call = .finished → next.call = .finished ∧ next.outputs = []) :
    Settled sha256 { s with redis := next.redis, calls := s.calls.set i next.call }
      (log ++ next.outputs) := by
  have hsub : log ⊆ log ++ next.outputs := List.subset_append_left ..
  have hcreated : ∀ key secret, .created key secret ∈ log ++ next.outputs →
      .created key secret ∈ log := fun key secret hmem =>
    (List.mem_append.mp hmem).resolve_right (hnext.created key secret)
  refine ⟨⟨?_, hnext.tokens, ?_, ?_, ?_, ?_⟩, h.once_advance hnext, ?_⟩
  · have hold := h.accounted.items.mono fun _ _ hmem => hsub hmem
    rcases hnext.items with ⟨hitems, -⟩ | ⟨request, peeked, -, hitems, -⟩
    · rw [hitems]
      exact hold
    · rw [hitems]
      exact hold.delete
  · exact fun key secret hmem => h.accounted.uuids _ _ (hcreated _ _ hmem)
  · exact fun _ _ _ _ h₁ h₂ => h.accounted.unique _ _ _ _ (hcreated _ _ h₁) (hcreated _ _ h₂)
  · intro key token hmem
    have hbefore : ∃ secret, .created key secret ∈ log :=
      (List.mem_append.mp hmem).elim (h.accounted.stored key token) (hnext.stored key token)
    exact hbefore.imp fun _ hsecret => hsub hsecret
  · intro call' hcall'
    rcases List.mem_or_eq_of_mem_set hcall' with hold | rfl
    · exact (h.accounted.calls call' hold).mono hsub
    · exact hnext.knows.mono hsub
  · intro o ho j hj
    by_cases hji : j = i
    · subst hji
      have hlt := (List.getElem?_eq_some_iff.mp hi).1
      have hfinished : next.call = .finished := by
        rcases List.mem_append.mp ho with hold | hnew
        · refine (hover ?_).1
          have hdone := h.answered o hold j hj
          rw [hi] at hdone
          exact Option.some_inj.mp hdone
        · refine hnext.answers.resolve_left fun hquiet => ?_
          rw [hquiet o hnew] at hj
          exact Bool.false_ne_true hj
      rw [hfinished]
      exact List.getElem?_set_self hlt
    · have hold : o ∈ log := (List.mem_append.mp ho).resolve_right fun hnew => by
        rw [hnext.own j hji o hnew] at hj
        exact Bool.false_ne_true hj
      rw [List.getElem?_set_ne (Ne.symm hji)]
      exact h.answered o hold j hj

/-- **One step of the storage.** -/
theorem Settled.step (h : Settled sha256 s log) (event : Event) :
    Settled sha256 (step sha256 s event).1 (log ++ (step sha256 s event).2) := by
  have hsame : Settled sha256 s (log ++ []) := by
    rw [List.append_nil]
    exact h
  cases event with
  | elapsed duration => exact h.quiet rfl rfl (List.append_nil _).symm (by simp)
  | created key expiration secret =>
    dsimp only [OneTime.step]
    split
    · exact hsame
    next hfresh => exact h.created hfresh expiration secret
  | fetchRequested request => exact h.quiet rfl rfl rfl (by simp [Call.Accounted])
  | checkoutRequested key buyerFingerprint token =>
    exact h.quiet rfl rfl rfl (by simp [Call.Accounted])
  | resumed i =>
    dsimp only [OneTime.step]
    split
    · exact hsame
    next call hi =>
      refine h.resumed hi (h.accounted.advance i (h.accounted.calls call ?_)) ?_
      · exact List.mem_of_getElem? hi
      · rintro rfl
        exact ⟨rfl, rfl⟩

end Settled

theorem settled_after (sha256 : String → String) (events : List Event) :
    Settled sha256 ((oneTime sha256).after events) ((oneTime sha256).log events) := by
  refine (oneTime sha256).invariant (fun _ s log => Settled sha256 s log)
    ⟨.init, fun _ => .inl rfl, ?_⟩ (fun past event h => h.step event) events
  exact fun _ h => absurd h List.not_mem_nil

/-! ### The main result -/

section Runs

variable {sha256 : String → String}

/-- The message that a step returns is the one of an item that a call consumes. -/
theorem paidFor (past : List Event) (event : Event) :
    PaidFor sha256 past ((oneTime sha256).after past) event := by
  intro i request response ho hfree
  have h := settled_after sha256 past
  cases event with
  | resumed j =>
    dsimp only [OneTime.step] at ho
    split at ho
    · exact absurd ho List.not_mem_nil
    next call hj =>
      have hcall := h.accounted.calls call (List.mem_of_getElem? hj)
      rcases (h.accounted.advance j hcall).items with
        ⟨-, hquiet⟩ | ⟨request', peeked, rfl, -, houtputs⟩
      · have hreturns := hquiet _ ho request.key
        simp [Output.returnsMessage, hfree] at hreturns
      · rw [houtputs] at ho
        obtain ⟨-, rfl, hresponse⟩ := Output.responded.inj (List.mem_singleton.mp ho)
        obtain ⟨secret, hsecret, rfl⟩ := Option.map_eq_some_iff.mp hresponse.symm
        have hcreated := h.accounted.items.of_get hsecret
        obtain ⟨-, rfl⟩ := h.accounted.unique _ _ _ _ hcreated hcall.1 rfl
        exact ⟨secret, hcreated, rfl, hcall.2⟩
  | created key expiration secret =>
    dsimp only [OneTime.step] at ho
    split at ho
    · exact absurd ho List.not_mem_nil
    · exact absurd (List.mem_singleton.mp ho) Output.noConfusion
  | _ => exact absurd ho List.not_mem_nil

theorem answers_of_rejects {o : Output} (h : o.rejects i = true) : o.answers i = true := by
  rcases o with _ | _ | ⟨j, request, _ | response⟩
  · cases h
  · cases h
  · cases h
  · exact ((Bool.and_eq_true _ _).mp h).1

theorem finished_step {past : List Event}
    (hi : ((oneTime sha256).after past).calls[i]? = some .finished) (event : Event) :
    (step sha256 ((oneTime sha256).after past) event).1.calls[i]? = some .finished ∧
      ∀ o ∈ (step sha256 ((oneTime sha256).after past) event).2, o.answers i = false := by
  have h := settled_after sha256 past
  have hlt := (List.getElem?_eq_some_iff.mp hi).1
  have hquiet : ∀ o ∈ ([] : List Output), o.answers i = false := fun _ ho =>
    absurd ho List.not_mem_nil
  cases event with
  | elapsed duration => exact ⟨hi, hquiet⟩
  | created key expiration secret =>
    dsimp only [OneTime.step]
    split
    · exact ⟨hi, hquiet⟩
    · exact ⟨hi, by simp [Output.answers]⟩
  | fetchRequested | checkoutRequested =>
    exact ⟨(List.getElem?_append_left hlt).trans hi, hquiet⟩
  | resumed j =>
    dsimp only [OneTime.step]
    split
    · exact ⟨hi, hquiet⟩
    next call hj =>
      by_cases hji : i = j
      · subst hji
        obtain rfl : call = .finished := Option.some_inj.mp (hj.symm.trans hi)
        exact ⟨List.getElem?_set_self hlt, hquiet⟩
      · have hcall := h.accounted.calls call (List.mem_of_getElem? hj)
        refine ⟨?_, (h.accounted.advance j hcall).own i hji⟩
        exact (List.getElem?_set_ne (Ne.symm hji)).trans hi

/-- A step of a call that takes an item away is its last, and it is not rejected. -/
theorem over_of_not_leavesItems {past : List Event} {event : Event}
    (h : ¬LeavesItems sha256 i past ((oneTime sha256).after past) event) :
    ((oneTime sha256).after (past ++ [event])).calls[i]? = some .finished ∧
      ∀ o ∈ (oneTime sha256).log (past ++ [event]), o.rejects i = false := by
  have hsettled := settled_after sha256 past
  rw [System.after_snoc, System.log_snoc, oneTime_step]
  obtain ⟨rfl, hitems⟩ := Classical.not_imp.mp h
  dsimp only [OneTime.step] at hitems ⊢
  split at hitems
  · exact absurd rfl hitems
  next call hi =>
    have hlt := (List.getElem?_eq_some_iff.mp hi).1
    have hcall := hsettled.accounted.calls call (List.mem_of_getElem? hi)
    rcases (hsettled.accounted.advance i hcall).items with
      ⟨hsame, -⟩ | ⟨request, peeked, rfl, -, houtputs⟩
    · exact absurd hsame hitems
    · refine ⟨List.getElem?_set_self hlt, fun o ho => ?_⟩
      rw [houtputs] at ho
      rcases List.mem_append.mp ho with hold | hnew
      -- Before, the call had not returned at all.
      · by_contra hrejects
        have hanswers := answers_of_rejects (Bool.eq_true_of_not_eq_false hrejects)
        have hfinished := hsettled.answered o hold i hanswers
        exact absurd (hi.symm.trans hfinished) (by simp)
      · obtain rfl := List.mem_singleton.mp hnew
        rcases Store.get _ _ _ with _ | secret
        · rfl
        · simp [Output.rejects]

/-- A call has left the items alone so far, or it is over and was not rejected. -/
theorem leavesItems_or_over (i : ℕ) (events : List Event) :
    (oneTime sha256).Along (LeavesItems sha256 i) events ∨
      ((oneTime sha256).after events).calls[i]? = some .finished ∧
        ∀ o ∈ (oneTime sha256).log events, o.rejects i = false := by
  induction events using List.reverseRecOn with
  | nil => exact .inl trivial
  | append_singleton past event ih =>
    rcases ih with halong | ⟨hover, hlog⟩
    · by_cases hleaves : LeavesItems sha256 i past ((oneTime sha256).after past) event
      · exact .inl ((System.along_snoc _).mpr ⟨halong, hleaves⟩)
      · exact .inr (over_of_not_leavesItems hleaves)
    · obtain ⟨hstill, hquiet⟩ := finished_step hover event
      refine .inr ⟨?_, fun o ho => ?_⟩
      · rw [System.after_snoc]
        exact hstill
      · rw [System.log_snoc] at ho
        rcases List.mem_append.mp ho with hold | hnew
        · exact hlog o hold
        · by_contra hrejects
          have hanswers := answers_of_rejects (Bool.eq_true_of_not_eq_false hrejects)
          rw [hquiet o hnew] at hanswers
          exact Bool.false_ne_true hanswers

end Runs

/-- **One-time items.** In every interleaving of calls the message of an item is returned at most
once, and if the item is paid only to a caller who presents a token and a fingerprint that were
stored for it; a call that is rejected leaves the items as they are at each of its commands. -/
theorem oneTimeItems (sha256 : String → String) (events : List Event) :
    (∀ key, ((oneTime sha256).log events).countP (Output.returnsMessage key) ≤ 1) ∧
      (oneTime sha256).Along (PaidFor sha256) events ∧
      ∀ i, (∃ o ∈ (oneTime sha256).log events, o.rejects i) →
        (oneTime sha256).Along (LeavesItems sha256 i) events := by
  refine ⟨fun key => ?_, (oneTime sha256).along_of_forall paidFor events, ?_⟩
  · rcases (settled_after sha256 events).once key with hzero | ⟨hone, -⟩
    · omega
    · omega
  · rintro i ⟨o, ho, hrejects⟩
    refine (leavesItems_or_over i events).resolve_right fun ⟨_, hlog⟩ => ?_
    rw [hlog o ho] at hrejects
    exact Bool.false_ne_true hrejects

/-! ### Calls with nothing in between -/

/-- What a call comes to when it executes its commands in a row. -/
def inTurn (sha256 : String → String) (now i : ℕ) : ℕ → Redis → Call → Redis × List Output
  | 0, redis, _ => (redis, [])
  | n + 1, redis, call =>
    let next := advance sha256 redis now i call
    let rest := inTurn sha256 now i n next.redis next.call
    (rest.1, next.outputs ++ rest.2)

end Rapidly.FileSharing.Payments.OneTime
