import Rapidly.FileSharing.Channels.ReaderGate

/-!
# Destruction in two phases

A first destroy request sets a marker for thirty seconds, a second one that finds the marker
destroys the channel, and a renewal deletes the marker. Finding the marker and destroying are two
scripts, and a renewal executes its pipeline whether or not the channel is still there.

`twoPhase_iff_undisturbed`: a channel is destroyed after two requests with no renewal since, and
a renewal that reports success has extended the channel, exactly if no renewal comes between the
two scripts of a request that destroys and no renewal finds its channel gone.
-/

namespace Rapidly.FileSharing.Channels

open KeyValue Payments Transition

variable {E : Environment} {C : Channel}

/-- What has been answered since the last renewal. -/
def sinceRenewal (log : List Observation) : List Observation :=
  log.foldl (fun since o => if o.output = .renew true then [] else since ++ [o]) []

/-- The requests that have arrived; call number `i` serves the `i`-th of them. -/
def requests (past : List Event) : List Request :=
  past.filterMap fun
    | .requested request => some request
    | _ => none

/-- The call serves a destroy request with the secret of the channel. -/
def Authenticated (E : Environment) (C : Channel) (past : List Event) (call : ℕ) : Prop :=
  (requests past)[call]?.any fun
    | .destroyChannel _ secret => secretMatches E C.data secret
    | _ => false

/-- Two destroy requests have reached the channel within the pending window, the second by the
call that destroys it, and no renewal has succeeded since the first. -/
def Confirmed (E : Environment) (C : Channel) (past : List Event) (log : List Observation)
    (call : ℕ) : Prop :=
  ∃ first ∈ sinceRenewal log, ∃ second ∈ sinceRenewal log,
    first.output = .destructionRequested ∧ second.output = .destructionRequested ∧
      second.call = call ∧ first.call ≠ call ∧ first.time ≤ second.time ∧
      second.time ≤ first.time + 1000 * channelDestructionDelay ∧
      Authenticated E C past first.call ∧ Authenticated E C past call

instance confirmedDecidable (past : List Event) (log : List Observation) (call : ℕ) :
    Decidable (Confirmed E C past log call) :=
  inferInstanceAs (Decidable (∃ first ∈ sinceRenewal log, ∃ second ∈ sinceRenewal log,
    _ ∧ _ ∧ _ ∧ _ ∧ _ ∧ _ ∧ _ = true ∧ _ = true))

/-- The channel is there under both slugs, for some seconds from now. -/
def Extended (C : Channel) (s : State) (ttl : ℕ) : Prop :=
  (s.redis.channels.entryAt s.now C.data.shortSlug).any
      (·.expiresAt = some (s.now + 1000 * ttl)) ∧
    (s.redis.channels.entryAt s.now C.data.longSlug).any
      (·.expiresAt = some (s.now + 1000 * ttl))

/-- The step answers as the two phases require. -/
def TwoPhase (E : Environment) (C : Channel) : System.Condition State Event := fun past s l =>
  ∀ o ∈ (step E s l).2,
    (∀ message, o.output = .destroy true true message →
      Confirmed E C past ((lifecycle E C).log past) o.call) ∧
    ∀ channel ttl readerTokenExists,
      s.calls[o.call]? = some (.renewing channel ttl readerTokenExists) →
        o.output = .renew true → Extended C (step E s l).1 ttl

/-- No renewal comes between the two scripts of a request that destroys the channel, and
renewals find their channel. -/
def Undisturbed (E : Environment) (C : Channel) : System.Condition State Event := fun past s l =>
  match l with
  | .resumed i _ =>
    match s.calls[i]? with
    | some (.confirmingDestruction _) =>
      s.Alive C → (s.redis.pendingDestructions.entryAt s.now C.data.shortSlug).isSome →
        ∃ o ∈ sinceRenewal ((lifecycle E C).log past),
          o.output = .destructionRequested ∧ o.call = i
    | some (.renewing ..) => s.Alive C
    | _ => True
  | _ => True

/-! ### The log since the last renewal -/

section Log

variable {log new : List Observation} {o : Observation}

theorem sinceRenewal_snoc : sinceRenewal (log ++ [o]) =
    if o.output = .renew true then [] else sinceRenewal log ++ [o] := by
  rw [sinceRenewal, List.foldl_append]
  rfl

theorem sinceRenewal_append (h : ∀ o ∈ new, o.output ≠ .renew true) :
    sinceRenewal (log ++ new) = sinceRenewal log ++ new := by
  induction new using List.reverseRecOn with
  | nil => rw [List.append_nil, List.append_nil]
  | append_singleton new o ih =>
    rw [← List.append_assoc, sinceRenewal_snoc, if_neg (h o (by simp)),
      ih fun o' ho' => h o' (List.mem_append_left _ ho'), List.append_assoc]

theorem mem_of_mem_sinceRenewal (h : o ∈ sinceRenewal log) : o ∈ log := by
  induction log using List.reverseRecOn with
  | nil => exact absurd h List.not_mem_nil
  | append_singleton log o' ih =>
    rw [sinceRenewal_snoc] at h
    split at h
    · exact absurd h List.not_mem_nil
    · rcases List.mem_append.mp h with h | h
      · exact List.mem_append_left _ (ih h)
      · exact List.mem_append_right _ h

end Log

/-! ### Requests and calls -/

section Requests

variable {past : List Event} {i : ℕ}

theorem requests_append (past new : List Event) :
    requests (past ++ new) = requests past ++ requests new := List.filterMap_append

theorem authenticated_append {new : List Event} (h : Authenticated E C past i) :
    Authenticated E C (past ++ new) i := by
  rw [Authenticated] at h ⊢
  obtain hnone | ⟨request, hsome⟩ := Option.eq_none_or_eq_some (requests past)[i]?
  · rw [hnone] at h
    exact absurd h Bool.noConfusion
  · have hlt : i < (requests past).length := (List.getElem?_eq_some_iff.mp hsome).1
    rw [requests_append, List.getElem?_append_left hlt]
    exact h

end Requests

/-! ### What every run keeps -/

/-- A destroy request has reached the channel, and is over or about to confirm. -/
def Call.Asked : Call → Prop
  | .confirmingDestruction _ | .finished => True
  | _ => False

/-- Where the marker and the calls that are about to confirm come from. -/
structure Pending (E : Environment) (C : Channel) (past : List Event) (s : State)
    (log : List Observation) : Prop where
  length : (requests past).length = s.calls.length
  fetching : ∀ (i : ℕ) request, s.calls[i]? = some (.fetching request) →
    (requests past)[i]? = some request
  requesting : ∀ (i : ℕ) channel, s.calls[i]? = some (.requestingDestruction channel) →
    Authenticated E C past i
  answered : ∀ o ∈ log, o.output = .destructionRequested →
    Authenticated E C past o.call ∧ ∃ call ∈ s.calls[o.call]?, call.Asked
  /-- The marker was set by a request since the last renewal. -/
  marker : ∀ e ∈ s.redis.pendingDestructions.entryAt s.now C.data.shortSlug,
    ∃ first ∈ sinceRenewal log, first.output = .destructionRequested ∧ first.time ≤ s.now ∧
      e.expiresAt = some (first.time + 1000 * channelDestructionDelay)
  /-- A call that is about to confirm has found such a marker. -/
  confirming : ∀ (i : ℕ) channel, s.calls[i]? = some (.confirmingDestruction channel) →
    ∀ second ∈ sinceRenewal log, second.output = .destructionRequested → second.call = i →
      ∃ first ∈ sinceRenewal log, first.output = .destructionRequested ∧ first.call ≠ i ∧
        first.time ≤ second.time ∧ second.time ≤ first.time + 1000 * channelDestructionDelay

section Advance

variable {past : List Event} {s : State} {log new : List Observation} {i : ℕ}
  {redis' : Redis} {settlement : Settlement} {call call' : Call}

theorem dispatch_call_cases {channel : ChannelData} {request : Request}
    (h : dispatch E channel settlement request = .inl call) :
    (∀ request', call ≠ .fetching request') ∧
      (∀ channel', call = .requestingDestruction channel' → channel' = channel ∧
        ∃ slug secret, request = .destroyChannel slug secret ∧ secretMatches E channel secret) ∧
      ∀ channel', call ≠ .confirmingDestruction channel' := by
  cases request <;> simp only [dispatch] at h <;> try split at h
  all_goals first
    | (obtain rfl := Sum.inl.inj h; simp_all)
    | exact absurd h Sum.inr_ne_inl

theorem advance_call_cases {redis : Redis} {now : ℕ} :
    (∀ request, (advance E redis now settlement call).call ≠ .fetching request) ∧
      (∀ channel, (advance E redis now settlement call).call = .requestingDestruction channel →
        ∃ slug secret, call = .fetching (.destroyChannel slug secret) ∧
          secretMatches E channel secret) ∧
      ∀ channel, (advance E redis now settlement call).call = .confirmingDestruction channel →
        call = .requestingDestruction channel := by
  cases call with
  | fetching request =>
    dsimp only [advance]
    split
    · simp
    next channel _ =>
      split
      next hdispatch =>
        obtain ⟨hfetching, hrequesting, hconfirming⟩ := dispatch_call_cases hdispatch
        refine ⟨hfetching, fun channel' heq => ?_, fun channel' heq => ?_⟩
        · obtain ⟨rfl, slug, secret, rfl, hsecret⟩ := hrequesting channel' heq
          exact ⟨slug, secret, rfl, hsecret⟩
        · exact absurd heq (hconfirming channel')
      · simp
  | _ =>
    -- every other command is followed by one of the same request
    dsimp only [advance]
    repeat' split
    all_goals simp

theorem Pending.resume (h : Pending E C past s log) (hsome : s.calls[i]? = some call)
    (hnew : ∀ o ∈ new, o.call = i)
    (hsince : sinceRenewal (log ++ new) = [] ∨
      sinceRenewal (log ++ new) = sinceRenewal log ++ new)
    (hfetching : ∀ request, call' ≠ .fetching request)
    (hrequesting : ∀ channel, call' = .requestingDestruction channel → Authenticated E C past i)
    (hanswered : ∀ o ∈ new, o.output = .destructionRequested →
      Authenticated E C past i ∧ call'.Asked)
    (hasked : call.Asked → call'.Asked)
    (hmarker : ∀ e ∈ redis'.pendingDestructions.entryAt s.now C.data.shortSlug,
      ∃ first ∈ sinceRenewal (log ++ new), first.output = .destructionRequested ∧
        first.time ≤ s.now ∧ e.expiresAt = some (first.time + 1000 * channelDestructionDelay))
    (hconfirming : ∀ channel, call' = .confirmingDestruction channel →
      ∀ second ∈ sinceRenewal (log ++ new), second.output = .destructionRequested →
        second.call = i → ∃ first ∈ sinceRenewal (log ++ new),
          first.output = .destructionRequested ∧ first.call ≠ i ∧ first.time ≤ second.time ∧
            second.time ≤ first.time + 1000 * channelDestructionDelay) :
    Pending E C (past ++ [.resumed i settlement])
      { s with redis := redis', calls := s.calls.set i call' } (log ++ new) := by
  have hlt : i < s.calls.length := (List.getElem?_eq_some_iff.mp hsome).1
  have hself : (s.calls.set i call')[i]? = some call' := List.getElem?_set_self hlt
  have hother : ∀ j, j ≠ i → (s.calls.set i call')[j]? = s.calls[j]? :=
    fun j hj => List.getElem?_set_ne hj.symm
  have hrequests : requests (past ++ [.resumed i settlement]) = requests past := by
    rw [requests_append]
    exact List.append_nil _
  constructor
  · rw [hrequests, h.length]
    exact List.length_set.symm
  · intro j request hj
    rw [hrequests]
    by_cases hji : j = i
    · rw [hji, hself] at hj
      exact absurd (Option.some.inj hj) (hfetching request)
    · exact h.fetching j request (hother j hji ▸ hj)
  · intro j channel hj
    refine authenticated_append ?_
    by_cases hji : j = i
    · rw [hji, hself] at hj
      exact hji ▸ hrequesting channel (Option.some.inj hj)
    · exact h.requesting j channel (hother j hji ▸ hj)
  · intro o ho houtput
    rcases List.mem_append.mp ho with ho | ho
    · obtain ⟨hauthenticated, old, hold, holdAsked⟩ := h.answered o ho houtput
      refine ⟨authenticated_append hauthenticated, ?_⟩
      by_cases hoi : o.call = i
      · rw [hoi, hsome] at hold
        obtain rfl := Option.some.inj hold
        exact ⟨call', hoi.symm ▸ hself, hasked holdAsked⟩
      · exact ⟨old, (hother _ hoi).trans hold, holdAsked⟩
    · obtain ⟨hauthenticated, hcallAsked⟩ := hanswered o ho houtput
      rw [hnew o ho]
      exact ⟨authenticated_append hauthenticated, call', hself, hcallAsked⟩
  · exact hmarker
  · intro j channel hj second hsecond houtput hcall
    by_cases hji : j = i
    · rw [hji, hself] at hj
      rw [hji] at hcall ⊢
      exact hconfirming channel (Option.some.inj hj) second hsecond houtput hcall
    · -- the call found its marker earlier, and the log has not been renewed since
      rw [hother j hji] at hj
      rcases hsince with hsince | hsince
      · rw [hsince] at hsecond
        exact absurd hsecond List.not_mem_nil
      · rw [hsince] at hsecond ⊢
        rcases List.mem_append.mp hsecond with hsecond | hsecond
        · obtain ⟨first, hfirst, hrest⟩ := h.confirming j channel hj second hsecond houtput hcall
          exact ⟨first, List.mem_append_left _ hfirst, hrest⟩
        · exact absurd (hcall.symm.trans (hnew second hsecond)) hji

theorem pending_of_quiet (hlife : Life C s) (h : Pending E C past s log)
    (hsome : s.calls[i]? = some call) (hasks : ∀ channel, call ≠ .requestingDestruction channel)
    (hrenews : ∀ channel ttl readerTokenExists, call ≠ .renewing channel ttl readerTokenExists) :
    Pending E C (past ++ [.resumed i settlement]) (step E s (.resumed i settlement)).1
      (log ++ (step E s (.resumed i settlement)).2) := by
  rw [step_resumed_of_some hsome]
  have hgenuine : call.Genuine C := hlife.calls call (List.mem_of_getElem? hsome)
  obtain ⟨hfetching, hrequesting, hconfirming⟩ :=
    @advance_call_cases E settlement call s.redis s.now
  have hquiet : ∀ output ∈ (advance E s.redis s.now settlement call).outputs,
      output ≠ .renew true ∧ output ≠ .destructionRequested := by
    refine fun output houtput => ⟨fun hrenew => ?_, fun hrequest => ?_⟩
    · rw [hrenew] at houtput
      obtain ⟨channel, ttl, readerTokenExists, heq⟩ := origin_of_outputs _ houtput
      exact hrenews channel ttl readerTokenExists heq
    · rw [hrequest] at houtput
      obtain ⟨channel, heq, -⟩ := origin_of_outputs _ houtput
      exact hasks channel heq
  have hsince : sinceRenewal (log ++ (advance E s.redis s.now settlement call).outputs.map
      fun output => { call := i, time := s.now, output }) = sinceRenewal log ++ _ :=
    sinceRenewal_append fun o ho => by
      obtain ⟨output, houtput, rfl⟩ := List.mem_map.mp ho
      exact (hquiet output houtput).1
  refine h.resume hsome (fun o ho => ?_) (.inr hsince) hfetching (fun channel heq => ?_)
    (fun o ho hrequest => ?_) (fun hasked => ?_) (fun e he => ?_) (fun channel heq => ?_)
  · obtain ⟨output, -, rfl⟩ := List.mem_map.mp ho
    rfl
  · obtain ⟨slug, secret, rfl, hsecret⟩ := hrequesting channel heq
    have hadvanced := @genuine_advance E C s.redis s.now settlement _ hlife.stores hgenuine
    rw [heq] at hadvanced
    obtain rfl : channel = C.data := hadvanced
    rw [Authenticated, h.fetching i _ hsome]
    exact hsecret
  · obtain ⟨output, houtput, rfl⟩ := List.mem_map.mp ho
    exact absurd hrequest (hquiet output houtput).2
  · cases call with
    | confirmingDestruction | finished => trivial
    | _ => exact hasked.elim
  · -- a marker that is there afterwards was there before
    have hold : e ∈ s.redis.pendingDestructions.entryAt s.now C.data.shortSlug := by
      have heffect := @effect_advance E C s.redis s.now settlement call hgenuine
      generalize (advance E s.redis s.now settlement call).redis = redis' at heffect he
      cases heffect with
      | renew ttl readerTokenExists => exact absurd rfl (hrenews _ ttl readerTokenExists)
      | markPending => exact absurd rfl (hasks _)
      | destroy | delete =>
        rw [Option.mem_def] at he
        exact absurd (Store.entryAt_delete_self.symm.trans he) (Option.some_ne_none e).symm
      | _ => exact he
    obtain ⟨first, hfirst, hrest⟩ := h.marker e hold
    rw [hsince]
    exact ⟨first, List.mem_append_left _ hfirst, hrest⟩
  · exact absurd (hconfirming channel heq) (hasks channel)

theorem pending_of_renewing {ttl : ℕ} {readerTokenExists : Bool} (h : Pending E C past s log)
    (hsome : s.calls[i]? = some (.renewing C.data ttl readerTokenExists)) :
    Pending E C (past ++ [.resumed i settlement]) (step E s (.resumed i settlement)).1
      (log ++ (step E s (.resumed i settlement)).2) := by
  rw [step_resumed_of_some hsome]
  have hsince :
      sinceRenewal (log ++ [{ call := i, time := s.now, output := .renew true }]) = [] := by
    rw [sinceRenewal_snoc]
    exact if_pos rfl
  refine h.resume hsome (fun o ho => ?_) (.inl hsince) (fun _ => Call.noConfusion)
    (fun _ => Call.noConfusion) (fun o ho hrequest => ?_) (fun hasked => hasked.elim)
    (fun e he => ?_) (fun _ => Call.noConfusion)
  · rw [List.mem_singleton.mp ho]
  · rw [List.mem_singleton.mp ho] at hrequest
    exact Output.noConfusion hrequest
  · rw [Option.mem_def] at he
    exact absurd (Store.entryAt_delete_self.symm.trans he) (Option.some_ne_none e).symm

theorem pending_of_requesting (h : Pending E C past s log)
    (hsome : s.calls[i]? = some (.requestingDestruction C.data)) :
    Pending E C (past ++ [.resumed i settlement]) (step E s (.resumed i settlement)).1
      (log ++ (step E s (.resumed i settlement)).2) := by
  rw [step_resumed_of_some hsome]
  have hauthenticated : Authenticated E C past i := h.requesting i C.data hsome
  -- so far this request has been answered nothing
  have hfresh : ∀ o ∈ sinceRenewal log, o.output = .destructionRequested → o.call ≠ i := by
    intro o ho houtput hoi
    obtain ⟨-, call, hcall, hasked⟩ := h.answered o (mem_of_mem_sinceRenewal ho) houtput
    rw [hoi, hsome] at hcall
    obtain rfl := Option.some.inj hcall
    exact hasked
  -- the three answers of the script
  by_cases hgone : (s.redis.channels.entryAt s.now C.data.shortSlug).isNone
  · have hscript : s.redis.atomicPendingDestruction s.now C.data = (.channelNotFound, s.redis) :=
      if_pos hgone
    have hadvance : advance E s.redis s.now settlement (.requestingDestruction C.data) =
        { redis := s.redis, outputs := [.destroy false false "Channel not found"] } := by
      dsimp only [advance]
      rw [hscript]
    rw [hadvance]
    have hsince := @sinceRenewal_append log
      [{ call := i, time := s.now, output := .destroy false false "Channel not found" }]
      (by simp)
    refine h.resume hsome (by simp) (.inr hsince) (by simp) (by simp) (by simp)
      (fun hasked => hasked.elim) (fun e he => ?_) (by simp)
    obtain ⟨first, hfirst, hrest⟩ := h.marker e he
    exact ⟨first, hsince ▸ List.mem_append_left _ hfirst, hrest⟩
  · by_cases hpending : (s.redis.pendingDestructions.entryAt s.now C.data.shortSlug).isSome
    · -- the marker is found: its request is the first of the two
      have hscript : s.redis.atomicPendingDestruction s.now C.data = (.alreadyPending, s.redis) :=
        (if_neg hgone).trans (if_pos hpending)
      have hadvance : advance E s.redis s.now settlement (.requestingDestruction C.data) =
          { redis := s.redis, call := .confirmingDestruction C.data
            outputs := [.destructionRequested] } := by
        dsimp only [advance]
        rw [hscript]
      rw [hadvance]
      have hsince := @sinceRenewal_append log
        [{ call := i, time := s.now, output := .destructionRequested }] (by simp)
      refine h.resume hsome (by simp) (.inr hsince) (by simp) (by simp)
        (fun _ _ _ => ⟨hauthenticated, trivial⟩) (fun hasked => hasked.elim) (fun e he => ?_)
        (fun channel _ second hsecond houtput hcall => ?_)
      · obtain ⟨first, hfirst, hrest⟩ := h.marker e he
        exact ⟨first, hsince ▸ List.mem_append_left _ hfirst, hrest⟩
      · obtain ⟨e, he⟩ := Option.isSome_iff_exists.mp hpending
        obtain ⟨first, hfirst, hrequest, hle, hexpiry⟩ := h.marker e he
        -- the marker has not expired, so the second request is in the window
        have hlive : s.now ≤ first.time + 1000 * channelDestructionDelay := by
          have hliveAt := Store.liveAt_of_entryAt he
          rw [Entry.liveAt, hexpiry] at hliveAt
          exact of_decide_eq_true hliveAt
        refine ⟨first, hsince ▸ List.mem_append_left _ hfirst, hrequest,
          hfresh first hfirst hrequest, ?_⟩
        rcases List.mem_append.mp (hsince ▸ hsecond) with hsecond | hsecond
        · exact absurd hcall (hfresh second hsecond houtput)
        · rw [List.mem_singleton.mp hsecond]
          exact ⟨hle, hlive⟩
    · -- the marker is set
      have hscript : s.redis.atomicPendingDestruction s.now C.data =
          (.pendingSet, s.redis.markPendingDestruction s.now C.data) :=
        (if_neg hgone).trans (if_neg hpending)
      have hadvance : ∃ message, advance E s.redis s.now settlement
          (.requestingDestruction C.data) =
            { redis := s.redis.markPendingDestruction s.now C.data
              outputs := [.destructionRequested, .destroy true false message] } := by
        dsimp only [advance]
        rw [hscript]
        exact ⟨_, rfl⟩
      obtain ⟨message, hadvance⟩ := hadvance
      rw [hadvance]
      have hsince := @sinceRenewal_append log
        [{ call := i, time := s.now, output := .destructionRequested },
          { call := i, time := s.now, output := .destroy true false message }] (by simp)
      refine h.resume hsome (by simp) (.inr hsince) (by simp) (by simp)
        (fun _ _ _ => ⟨hauthenticated, trivial⟩) (fun hasked => hasked.elim) (fun e he => ?_)
        (by simp)
      rw [Redis.markPendingDestruction, Option.mem_def, Store.entryAt_setex_self] at he
      obtain rfl := Option.some.inj he
      exact ⟨{ call := i, time := s.now, output := .destructionRequested },
        hsince ▸ List.mem_append_right _ List.mem_cons_self, rfl, le_rfl, rfl⟩

theorem Pending.idle (h : Pending E C past s log) {l : Event}
    (hl : requests (past ++ [l]) = requests past) : Pending E C (past ++ [l]) s log where
  length := hl ▸ h.length
  fetching := hl ▸ h.fetching
  requesting i channel hi := authenticated_append (h.requesting i channel hi)
  answered o ho houtput := (h.answered o ho houtput).imp_left authenticated_append
  marker := h.marker
  confirming := h.confirming

theorem Pending.of_le (h : Pending E C past s log) {later : ℕ} (hle : s.now ≤ later) :
    Pending E C past { s with now := later } log where
  length := h.length
  fetching := h.fetching
  requesting := h.requesting
  answered := h.answered
  marker e he := by
    rw [Store.entryAt_of_le hle] at he
    obtain ⟨first, hfirst, houtput, htime, hexpiry⟩ :=
      h.marker e (Option.filter_eq_some_iff.mp he).1
    exact ⟨first, hfirst, houtput, htime.trans hle, hexpiry⟩
  confirming := h.confirming

theorem Pending.requested (h : Pending E C past s log) (request : Request) :
    Pending E C (past ++ [.requested request])
      { s with calls := s.calls ++ [.fetching request] } log := by
  have hrequests : requests (past ++ [.requested request]) = requests past ++ [request] :=
    requests_append past [.requested request]
  constructor
  · rw [hrequests, List.length_append, List.length_append, h.length]
    rfl
  · intro i request' hi
    rw [hrequests]
    rcases getElem?_concat_cases hi with hi | ⟨rfl, heq⟩
    · exact getElem?_append_of_some (h.fetching i request' hi) _
    · obtain rfl := Call.fetching.inj heq
      rw [← h.length]
      exact List.getElem?_concat_length
  · intro i channel hi
    rcases getElem?_concat_cases hi with hi | ⟨-, heq⟩
    · exact authenticated_append (h.requesting i channel hi)
    · exact Call.noConfusion heq
  · intro o ho houtput
    obtain ⟨hauthenticated, call, hcall, hasked⟩ := h.answered o ho houtput
    exact ⟨authenticated_append hauthenticated, call, getElem?_append_of_some hcall _, hasked⟩
  · exact h.marker
  · intro i channel hi
    rcases getElem?_concat_cases hi with hi | ⟨-, heq⟩
    · exact h.confirming i channel hi
    · exact Call.noConfusion heq

theorem pending_step (hlife : Life C s) (h : Pending E C past s log) (l : Event) :
    Pending E C (past ++ [l]) (step E s l).1 (log ++ (step E s l).2) := by
  cases l with
  | elapsed duration =>
    rw [show (step E s (.elapsed duration)).2 = [] from rfl, List.append_nil]
    refine (h.of_le (Nat.le_add_right _ duration)).idle ?_
    exact (requests_append past _).trans (List.append_nil _)
  | requested request =>
    rw [show (step E s (.requested request)).2 = [] from rfl, List.append_nil]
    exact h.requested request
  | resumed i settlement =>
    obtain hnone | ⟨call, hsome⟩ := Option.eq_none_or_eq_some s.calls[i]?
    · rw [step_resumed_of_none hnone, List.append_nil]
      exact h.idle ((requests_append past _).trans (List.append_nil _))
    · have hgenuine : call.Genuine C := hlife.calls call (List.mem_of_getElem? hsome)
      by_cases hasks : ∃ channel, call = .requestingDestruction channel
      · obtain ⟨channel, rfl⟩ := hasks
        obtain rfl : channel = C.data := hgenuine
        exact pending_of_requesting h hsome
      · by_cases hrenews : ∃ channel ttl readerTokenExists,
          call = .renewing channel ttl readerTokenExists
        · obtain ⟨channel, ttl, readerTokenExists, rfl⟩ := hrenews
          obtain rfl : channel = C.data := hgenuine
          exact pending_of_renewing h hsome
        · exact pending_of_quiet hlife h hsome (fun channel heq => hasks ⟨channel, heq⟩)
            fun channel ttl readerTokenExists heq =>
              hrenews ⟨channel, ttl, readerTokenExists, heq⟩

theorem pending_after (ls : List Event) :
    Pending E C ls ((lifecycle E C).after ls) ((lifecycle E C).log ls) := by
  induction ls using List.reverseRecOn with
  | nil =>
    exact ⟨rfl, by simp [lifecycle], by simp [lifecycle], by simp,
      fun e he => absurd he (Option.not_mem_none e),
      fun i channel hi second hsecond => absurd hsecond List.not_mem_nil⟩
  | append_singleton ls l ih =>
    rw [System.after_snoc, System.log_snoc]
    exact pending_step (life_after ls) ih l

end Advance

/-! ### When the two phases hold -/

section Runs

variable {past ls : List Event} {s : State} {i : ℕ} {settlement : Settlement} {call : Call}

theorem extended_iff_alive (hstores : s.redis.Stores C) {ttl : ℕ} {readerTokenExists : Bool}
    {calls : List Call} :
    Extended C
        { s with
          redis := s.redis.renewChannel s.now C.data ttl readerTokenExists
          calls := calls } ttl ↔ s.Alive C := by
  rw [Extended, State.Alive]
  rw [Redis.entryAt_renewChannel, Redis.entryAt_renewChannel_longSlug, Store.entryAt_expire_self,
    Store.entryAt_expire_self, hstores.entryAt_longSlug]
  cases s.redis.channels.entryAt s.now C.data.shortSlug <;> simp

theorem twoPhase_confirming (hpending : Pending E C past s ((lifecycle E C).log past))
    (hsome : s.calls[i]? = some (.confirmingDestruction C.data)) :
    TwoPhase E C past s (.resumed i settlement) ↔
      Undisturbed E C past s (.resumed i settlement) := by
  have hscript : (s.redis.atomicDestroyChannel s.now C.data).1 = .destroyed ↔
      s.Alive C ∧ (s.redis.pendingDestructions.entryAt s.now C.data.shortSlug).isSome :=
    atomicDestroyChannel_fst
  unfold TwoPhase Undisturbed
  dsimp only
  rw [step_resumed_of_some hsome, hsome]
  constructor
  · intro h halive hmarked
    have houtputs : (advance E s.redis s.now settlement (.confirmingDestruction C.data)).outputs =
        [.destroy true true "Channel destroyed"] := by
      dsimp only [advance]
      rw [hscript.mpr ⟨halive, hmarked⟩]
    -- the answer of the script is among the observations
    have hconfirmed := (h { call := i, time := s.now, output := _ }
      (List.mem_map_of_mem (houtputs ▸ List.mem_cons_self))).1 _ rfl
    obtain ⟨first, -, second, hsecond, -, houtput, hcall, -⟩ := hconfirmed
    exact ⟨second, hsecond, houtput, hcall⟩
  · intro h o ho
    obtain ⟨output, houtput, rfl⟩ := List.mem_map.mp ho
    refine ⟨fun message hdestroy => ?_, fun channel ttl readerTokenExists hrenewing => ?_⟩
    · obtain rfl : output = .destroy true true message := hdestroy
      obtain ⟨channel, heq, hdestroyed⟩ := origin_of_outputs _ houtput
      obtain rfl := Call.confirmingDestruction.inj heq
      obtain ⟨halive, hmarked⟩ := hscript.mp hdestroyed
      obtain ⟨second, hsecond, hrequest, hcall⟩ := h halive hmarked
      -- the marker that the second request found is that of the first
      obtain ⟨first, hfirst, hrequest', hne, hle, hwindow⟩ :=
        hpending.confirming i _ hsome second hsecond hrequest hcall
      refine ⟨first, hfirst, second, hsecond, hrequest', hrequest, hcall, hne, hle, hwindow, ?_, ?_⟩
      · exact (hpending.answered first (mem_of_mem_sinceRenewal hfirst) hrequest').1
      · exact hcall ▸ (hpending.answered second (mem_of_mem_sinceRenewal hsecond) hrequest).1
    · rw [hsome] at hrenewing
      exact Call.noConfusion (Option.some.inj hrenewing)

theorem twoPhase_renewing (hlife : Life C s) {ttl : ℕ} {readerTokenExists : Bool}
    (hsome : s.calls[i]? = some (.renewing C.data ttl readerTokenExists)) :
    TwoPhase E C past s (.resumed i settlement) ↔
      Undisturbed E C past s (.resumed i settlement) := by
  unfold TwoPhase Undisturbed
  dsimp only
  rw [step_resumed_of_some hsome, hsome]
  constructor
  · intro h
    -- the answer of the renewal is among the observations
    have hextended := (h { call := i, time := s.now, output := .renew true }
      List.mem_cons_self).2 C.data ttl readerTokenExists hsome rfl
    exact (extended_iff_alive hlife.stores).mp hextended
  · intro halive o ho
    obtain rfl := List.mem_singleton.mp ho
    refine ⟨fun message hdestroy => Output.noConfusion hdestroy,
      fun channel ttl' readerTokenExists' hrenewing _ => ?_⟩
    obtain ⟨-, rfl, -⟩ := Call.renewing.inj (Option.some.inj (hsome.symm.trans hrenewing))
    exact (extended_iff_alive hlife.stores).mpr halive

theorem twoPhase_iff (hlife : Life C s) (hpending : Pending E C past s ((lifecycle E C).log past))
    (l : Event) : TwoPhase E C past s l ↔ Undisturbed E C past s l := by
  cases l with
  | elapsed | requested => exact ⟨fun _ => trivial, fun _ o ho => absurd ho List.not_mem_nil⟩
  | resumed i settlement =>
    obtain hnone | ⟨call, hsome⟩ := Option.eq_none_or_eq_some s.calls[i]?
    · unfold TwoPhase Undisturbed
      dsimp only
      rw [step_resumed_of_none hnone, hnone]
      exact ⟨fun _ => trivial, fun _ o ho => absurd ho List.not_mem_nil⟩
    · have hgenuine : call.Genuine C := hlife.calls call (List.mem_of_getElem? hsome)
      by_cases hconfirms : ∃ channel, call = .confirmingDestruction channel
      · obtain ⟨channel, rfl⟩ := hconfirms
        obtain rfl : channel = C.data := hgenuine
        exact twoPhase_confirming hpending hsome
      · by_cases hrenews : ∃ channel ttl readerTokenExists,
          call = .renewing channel ttl readerTokenExists
        · obtain ⟨channel, ttl, readerTokenExists, rfl⟩ := hrenews
          obtain rfl : channel = C.data := hgenuine
          exact twoPhase_renewing hlife hsome
        · -- nothing else destroys by request, or renews
          have hundisturbed : Undisturbed E C past s (.resumed i settlement) := by
            unfold Undisturbed
            dsimp only
            rw [hsome]
            cases call with
            | confirmingDestruction channel => exact absurd ⟨channel, rfl⟩ hconfirms
            | renewing channel ttl readerTokenExists =>
              exact absurd ⟨channel, ttl, readerTokenExists, rfl⟩ hrenews
            | _ => trivial
          refine ⟨fun _ => hundisturbed, fun _ o ho => ?_⟩
          obtain ⟨i', settlement', call', heq, hsome', houtput, hoi⟩ := mem_outputs_of_mem_step ho
          obtain ⟨rfl, -⟩ := Event.resumed.inj heq
          obtain rfl := Option.some.inj (hsome.symm.trans hsome')
          rw [hoi]
          refine ⟨fun message hdestroy => ?_, fun channel ttl readerTokenExists hrenewing => ?_⟩
          · rw [hdestroy] at houtput
            obtain ⟨channel, rfl, -⟩ := origin_of_outputs _ houtput
            exact absurd ⟨channel, rfl⟩ hconfirms
          · obtain rfl := Option.some.inj (hsome.symm.trans hrenewing)
            exact absurd ⟨channel, ttl, readerTokenExists, rfl⟩ hrenews

/-- **Destruction in two phases.** A channel is destroyed only after two authenticated requests
within the pending window and no renewal since the first, and a renewal reports success only
with the channel extended, exactly if no renewal comes between the two scripts of a request that
destroys the channel and no renewal finds its channel gone. -/
theorem twoPhase_iff_undisturbed :
    (lifecycle E C).Along (TwoPhase E C) ls ↔ (lifecycle E C).Along (Undisturbed E C) ls :=
  (lifecycle E C).along_congr fun past l => twoPhase_iff (life_after past) (pending_after past) l

/-- The second request is between its two scripts while the channel is renewed; a third request
sets the marker again, and the second destroys the channel. -/
theorem renewedChannel_destroyed :
    ¬∀ (E : Environment) (C : Channel) (ls : List Event),
      (lifecycle E C).Along (TwoPhase E C) ls := by
  intro h
  let run : List Event := inTurn 0 (.destroyChannel "ab" "secret") 2 ++
    inTurn 1 (.destroyChannel "ab" "secret") 2 ++ inTurn 2 (.renewChannel "ab" "secret" none) 3 ++
    inTurn 3 (.destroyChannel "ab" "secret") 2
  have hlast := (System.along_snoc _).mp (h plainEnvironment freeChannel (run ++ [.resumed 1 {}]))
  have hconfirmed := (hlast.2
    { call := 1, time := 0, output := .destroy true true "Channel destroyed" }
    (by decide +kernel)).1 _ rfl
  revert hconfirmed
  decide +kernel

end Runs

end Rapidly.FileSharing.Channels
