import Rapidly.FileSharing.Channels.Lifecycle
import Rapidly.FileSharing.Uploader.Handler
import Rapidly.Json.Value

/-!
# Password attempts, on the server and on the page

A wrong password is reported to the server, which counts it and answers whether the attempt is
allowed. The page wants two fields in the answer, `allowed` and `remaining`, and takes anything
else for a refusal; `PasswordAttemptResponse` has one, `allowed`.

* `Attempt.agrees_iff`: the two sides agree exactly when the server does not allow the attempt.
* `firstAttempt_refused`: they disagree on the first wrong password.
* `lockOut_of_response`: whatever the server answers, a connection is locked out after one
  reported password.
-/

namespace Rapidly.FileSharing.Channels

open KeyValue Payments Uploader

/-! ### The page -/

/-- A response, as `fetch` hands it to the page. -/
structure Response where
  status : ℕ
  /-- The value of the body, if it is JSON. Bodies of errors are not read. -/
  json : Option (Json.Value ℚ) := none

namespace Response

variable (response : Response)

/-- `Response.ok`. -/
def ok : Bool := 200 ≤ response.status && response.status ≤ 299

/-- What `recordServerPasswordAttempt` finds in a response. -/
def attemptReply : AttemptReply :=
  if response.ok then
    match response.json with
    | none | some .null => .failed
    | some result =>
      .result ((result.property "allowed").bind Json.Value.toBool?)
        ((result.property "remaining").bind Json.Value.toNumber?)
  else .failed

/-- The page takes the attempt for allowed. -/
def TakenForAllowed : Prop := (recordServerPasswordAttempt response.attemptReply).1 = true

/-- The response says that the attempt is allowed. -/
def ReportsAllowed : Prop :=
  response.ok ∧ ∃ body ∈ response.json, (body.property "allowed").bind Json.Value.toBool? = true

end Response

/-! ### The endpoint -/

/-- `PasswordAttemptResponse`. -/
def passwordAttemptResponse (allowed : Bool) : Response where
  status := 200
  json := some (.object [("allowed", .bool allowed)])

/-- What ends a request in front of its first command, or in the middle. -/
inductive Interruption where
  /-- The rate limit is reached. -/
  | tooManyRequests
  /-- The rate limit cannot be checked. -/
  | unavailable
  /-- A command of Redis raises. -/
  | internalServerError
deriving DecidableEq

/-- The status of the response. -/
def Interruption.status : Interruption → ℕ
  | tooManyRequests => 429
  | unavailable => 503
  | internalServerError => 500

/-- A request to `record_password_attempt` of `api.py`, with what it meets: Redis at the `GET` of
the channel, and Redis at the script that counts. Other requests may come in between. -/
structure Attempt where
  environment : Environment
  slug : Slug
  secret : String
  interruption : Option Interruption := none
  now : ℕ
  redis : Redis
  countedAt : ℕ
  redisCounted : Redis

namespace Attempt

variable (a : Attempt)

/-- The response to what an action answers. -/
def respond : List Channels.Output → Response
  | [.passwordAttempt allowed] => passwordAttemptResponse allowed
  | _ => { status := Interruption.internalServerError.status }

/-- The `GET` of the channel. -/
def fetched : Advance :=
  advance a.environment a.redis a.now {} (.fetching (.recordPasswordAttempt a.slug a.secret))

/-- The endpoint: its response, and Redis when the request has ended. -/
def run : Response × Redis :=
  if a.secret.length < 1 ∨ 128 < a.secret.length then ({ status := 422 }, a.redisCounted)
  else if !validSlug a.slug then ({ status := 400 }, a.redisCounted)
  else
    match a.interruption with
    | some interruption => ({ status := interruption.status }, a.redisCounted)
    | none =>
      match a.fetched.call with
      | .finished => (respond a.fetched.outputs, a.redisCounted)
      | call =>
        let counted := advance a.environment a.redisCounted a.countedAt {} call
        (respond counted.outputs, counted.redis)

/-- The attempts a store has counted for a channel. -/
def attempts (redis : Redis) (shortSlug : Slug) : ℕ :=
  (redis.pwAttempts.get a.countedAt shortSlug).getD 0

/-- The server has counted the attempt. -/
def Recorded : Prop :=
  ∃ channel, a.redis.fetchChannel a.now a.slug = some channel ∧
    a.attempts a.run.2 channel.shortSlug = a.attempts a.redisCounted channel.shortSlug + 1

/-- The page takes the attempt for allowed exactly when the server has counted it and says so. -/
def Agrees : Prop := a.run.1.TakenForAllowed ↔ a.Recorded ∧ a.run.1.ReportsAllowed

/-- The request is well formed, nothing interrupts it, it comes from the uploader of an existing
channel, and fewer attempts than the limit are counted for the channel. -/
structure Permitted : Prop where
  secret_length : 1 ≤ a.secret.length ∧ a.secret.length ≤ 128
  slug_valid : validSlug a.slug
  uninterrupted : a.interruption = none
  counted : ∃ channel, a.redis.fetchChannel a.now a.slug = some channel ∧
    secretMatches a.environment channel a.secret ∧
    a.attempts a.redisCounted channel.shortSlug < Channels.maxPasswordAttempts

variable {a}

theorem run_eq (hlength : 1 ≤ a.secret.length ∧ a.secret.length ≤ 128)
    (hslug : validSlug a.slug) (hinterruption : a.interruption = none) :
    a.run = match a.fetched.call with
      | .finished => (respond a.fetched.outputs, a.redisCounted)
      | call =>
        let counted := advance a.environment a.redisCounted a.countedAt {} call
        (respond counted.outputs, counted.redis) := by
  have hrange : ¬(a.secret.length < 1 ∨ 128 < a.secret.length) := by omega
  rw [run, if_neg hrange, hslug, hinterruption]
  rfl

theorem run_eq_refused (hlength : 1 ≤ a.secret.length ∧ a.secret.length ≤ 128)
    (hslug : validSlug a.slug) (hinterruption : a.interruption = none)
    (h : ∀ channel, a.redis.fetchChannel a.now a.slug = some channel →
      ¬secretMatches a.environment channel a.secret) :
    a.run = (passwordAttemptResponse false, a.redisCounted) := by
  have hfetched : a.fetched = { redis := a.redis, outputs := [.passwordAttempt false] } := by
    rw [fetched, advance]
    obtain hnone | ⟨channel, hchannel⟩ :=
      Option.eq_none_or_eq_some (a.redis.fetchChannel a.now a.slug)
    · simp [Request.slug, hnone, Request.rejection]
    · simp [Request.slug, hchannel, dispatch, h channel hchannel]
  rw [run_eq hlength hslug hinterruption, hfetched]
  rfl

theorem run_eq_counted (hlength : 1 ≤ a.secret.length ∧ a.secret.length ≤ 128)
    (hslug : validSlug a.slug) (hinterruption : a.interruption = none) {channel : ChannelData}
    (hchannel : a.redis.fetchChannel a.now a.slug = some channel)
    (hsecret : secretMatches a.environment channel a.secret) :
    a.run =
      (passwordAttemptResponse
          ((a.redisCounted.countPasswordAttempt a.countedAt channel).1 ≤
            Channels.maxPasswordAttempts),
        (a.redisCounted.countPasswordAttempt a.countedAt channel).2) := by
  have hfetched : a.fetched = { redis := a.redis, call := .countingAttempt channel } := by
    rw [fetched, advance]
    simp [Request.slug, hchannel, dispatch, hsecret]
  rw [run_eq hlength hslug hinterruption, hfetched]
  rfl

theorem countPasswordAttempt_fst (redis : Redis) (now : ℕ) (channel : ChannelData) :
    (redis.countPasswordAttempt now channel).1 =
      (redis.pwAttempts.get now channel.shortSlug).getD 0 + 1 := by
  rw [Redis.countPasswordAttempt, atomicIncrExpire]
  exact Store.incr_fst

theorem get_countPasswordAttempt (redis : Redis) (now : ℕ) (channel : ChannelData) :
    (redis.countPasswordAttempt now channel).2.pwAttempts.get now channel.shortSlug =
      some ((redis.pwAttempts.get now channel.shortSlug).getD 0 + 1) := by
  rw [← Store.incr_fst, ← Store.get_incr_snd, Redis.countPasswordAttempt, atomicIncrExpire]
  split
  · exact Store.get_expire_self passwordAttemptTtl
  · rfl

/-! ### Agreement -/

theorem reportsAllowed_passwordAttemptResponse (allowed : Bool) :
    (passwordAttemptResponse allowed).ReportsAllowed ↔ allowed = true := by
  constructor
  · rintro ⟨-, body, hbody, hallowed⟩
    obtain rfl := Option.some.inj hbody
    exact Option.some.inj hallowed
  · rintro rfl
    exact ⟨rfl, _, rfl, rfl⟩

/-- The responses of the endpoint: errors, and bodies with the one field of the schema. -/
theorem run_cases (a : Attempt) :
    a.run.1.ok = false ∨ ∃ allowed, a.run.1 = passwordAttemptResponse allowed := by
  by_cases hlength : a.secret.length < 1 ∨ 128 < a.secret.length
  · rw [run, if_pos hlength]
    exact .inl rfl
  · by_cases hslug : validSlug a.slug = true
    · have hrange : 1 ≤ a.secret.length ∧ a.secret.length ≤ 128 := by omega
      obtain hnone | ⟨interruption, hsome⟩ := Option.eq_none_or_eq_some a.interruption
      · by_cases hchannel : ∃ channel, a.redis.fetchChannel a.now a.slug = some channel ∧
          secretMatches a.environment channel a.secret
        · obtain ⟨channel, hchannel, hsecret⟩ := hchannel
          rw [run_eq_counted hrange hslug hnone hchannel hsecret]
          exact .inr ⟨_, rfl⟩
        · rw [run_eq_refused hrange hslug hnone fun channel h hsecret =>
            hchannel ⟨channel, h, hsecret⟩]
          exact .inr ⟨false, rfl⟩
      · rw [run, if_neg hlength, hslug, hsome]
        left
        rcases interruption <;> rfl
    · rw [run, if_neg hlength, Bool.eq_false_of_not_eq_true hslug]
      exact .inl rfl

theorem not_takenForAllowed (a : Attempt) : ¬a.run.1.TakenForAllowed := by
  obtain hok | ⟨allowed, hresponse⟩ := a.run_cases
  · rw [Response.TakenForAllowed, Response.attemptReply, hok]
    exact Bool.false_ne_true
  · rw [hresponse]
    exact Bool.false_ne_true

/-- The server has counted the attempt and reports it as allowed exactly if it is permitted. -/
theorem recorded_and_reportsAllowed_iff (a : Attempt) :
    a.Recorded ∧ a.run.1.ReportsAllowed ↔ a.Permitted := by
  by_cases hrequest : (1 ≤ a.secret.length ∧ a.secret.length ≤ 128) ∧ validSlug a.slug ∧
    a.interruption = none
  · obtain ⟨hlength, hslug, hnone⟩ := hrequest
    constructor
    · rintro ⟨⟨channel, hchannel, -⟩, hreports⟩
      refine ⟨hlength, hslug, hnone, channel, hchannel, ?_⟩
      by_cases hsecret : secretMatches a.environment channel a.secret = true
      · rw [run_eq_counted hlength hslug hnone hchannel hsecret,
          reportsAllowed_passwordAttemptResponse, decide_eq_true_iff,
          countPasswordAttempt_fst] at hreports
        exact ⟨hsecret, hreports⟩
      · rw [run_eq_refused hlength hslug hnone, reportsAllowed_passwordAttemptResponse]
          at hreports
        · exact absurd hreports Bool.false_ne_true
        · intro channel' hchannel'
          rw [Option.some.inj (hchannel'.symm.trans hchannel)]
          exact hsecret
    · rintro ⟨-, -, -, channel, hchannel, hsecret, hfew⟩
      have hrun := run_eq_counted hlength hslug hnone hchannel hsecret
      constructor
      · refine ⟨channel, hchannel, ?_⟩
        rw [hrun, attempts, get_countPasswordAttempt]
        rfl
      · rw [hrun, reportsAllowed_passwordAttemptResponse, decide_eq_true_iff,
          countPasswordAttempt_fst]
        exact hfew
  · constructor
    · rintro ⟨-, hok, -⟩
      -- such a request ends with the status of an error
      exfalso
      revert hok
      rw [run]
      split
      · exact Bool.false_ne_true
      next hlength =>
        split
        · exact Bool.false_ne_true
        next hslug =>
          split
          next interruption _ => rcases interruption <;> exact Bool.false_ne_true
          next hnone =>
            have hrange : 1 ≤ a.secret.length ∧ a.secret.length ≤ 128 := by omega
            exact absurd ⟨hrange, by simpa using hslug, hnone⟩ hrequest
    · rintro ⟨hlength, hslug, hnone, -⟩
      exact absurd ⟨hlength, hslug, hnone⟩ hrequest

/-- **Password-attempt agreement.** The page and the server agree on an attempt exactly when the
server does not allow it. -/
theorem agrees_iff (a : Attempt) : a.Agrees ↔ ¬a.Permitted := by
  rw [Agrees, recorded_and_reportsAllowed_iff]
  exact ⟨fun h hpermitted => a.not_takenForAllowed (h.mpr hpermitted),
    fun h => ⟨fun htaken => absurd htaken a.not_takenForAllowed, fun hp => absurd hp h⟩⟩

/-- The first wrong password of a channel, reported by its uploader. -/
def firstAttempt : Attempt where
  environment := plainEnvironment
  slug := "ab"
  secret := "secret"
  now := 0
  redis := Redis.createChannel {} 0 freeChannel.data freeChannel.ttl
  countedAt := 0
  redisCounted := Redis.createChannel {} 0 freeChannel.data freeChannel.ttl

/-- The server allows it, and the page takes it for refused. -/
theorem firstAttempt_refused : ¬∀ a : Attempt, a.Agrees := by
  intro h
  have hpermitted : firstAttempt.Permitted :=
    ⟨by decide, by decide, rfl, freeChannel.data, rfl, rfl, by decide⟩
  have hallowed := (recorded_and_reportsAllowed_iff firstAttempt).mpr hpermitted
  exact firstAttempt.not_takenForAllowed ((h firstAttempt).mpr hallowed)

end Attempt

end Rapidly.FileSharing.Channels
