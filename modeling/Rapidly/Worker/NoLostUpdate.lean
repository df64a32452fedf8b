import Rapidly.Worker.Debounce

/-!
# Debouncing loses no update

Every enqueue is to be followed by an execution that starts after it. A message that is skipped
relies on another one for that, and the debounce hash says on which: either on the owner, which
was enqueued later, or on the execution that has marked the hash.

The mark is right if some execution has started since the last enqueue (`caughtUp`). It is wrong
if a message was enqueued while the job was running: then the mark of the execution that had
started before covers the new message. `noUpdateLost` shows that this, and an enqueue that
breaks off between writing the hash and pushing its message, is all that can go wrong.
-/

namespace Rapidly.Worker.Debounce

open KeyValue Transition Transition.System

/-! ### What has been started since the last enqueue -/

/-- Whether an execution has started since the last enqueue, after one more observation. -/
def catchUp (caught : Bool) : Observation → Bool
  | .enqueued _ => false
  | .started _ => true
  | .skipped _ => caught

/-- No message has been enqueued, or an execution has started since the last enqueue. -/
def caughtUp (log : List Observation) : Bool := log.foldl catchUp true

@[simp] theorem caughtUp_append (log : List Observation) (o : Observation) :
    caughtUp (log ++ [o]) = catchUp (caughtUp log) o := by
  rw [caughtUp, List.foldl_append]
  rfl

/-- An execution that has started since the last enqueue has started after every enqueue. -/
theorem started_of_caughtUp {log : List Observation} (h : caughtUp log) {id : MessageId}
    (hid : .enqueued id ∈ log) : ∃ i, Precedes log (.enqueued id) (.started i) := by
  induction log using List.reverseRecOn with
  | nil => exact absurd hid List.not_mem_nil
  | append_singleton log o ih =>
    rw [caughtUp_append] at h
    rcases List.mem_append.mp hid with hold | hnew
    · rcases o with _ | i | _
      · cases h
      · exact ⟨i, precedes_concat hold⟩
      · obtain ⟨i, hi⟩ := ih h hold
        exact ⟨i, (precedes_append (by simp)).mpr hi⟩
    · obtain rfl := List.mem_singleton.mp hnew
      cases h

/-! ### The property and the condition -/

/-- The message that a job still has to start. -/
def Job.pending? : Job → Option MessageId
  | .pushing id => some id
  | .checking id => some id
  | .starting id _ => some id
  | _ => none

/-- The message is queued, or on its way into the queue or from the queue to its start. -/
def Pending (p : Pool State Job) (id : MessageId) : Prop :=
  id ∈ p.shared.queue ∨ ∃ (i : ℕ) (t : Job), p.tasks[i]? = some t ∧ t.pending? = some id

variable (maxThreshold : MessageId → ℕ)

/-- A message that is skipped in this step is covered by an execution that started after it was
enqueued, or a message that was enqueued later is still pending. -/
def SkipsCovered : Condition (Pool State Job) (Turn Event Answer) := fun past p l =>
  ∀ id, .skipped id ∈ ((jobs maxThreshold).system.step p l).2 →
    (∃ i, Precedes ((jobs maxThreshold).system.log past) (.enqueued id) (.started i)) ∨
      ∃ later, id < later ∧ Pending p later

/-- What may go wrong in the step of a job: it marks the hash as executed, or it gives up a
message whose hash has been written. -/
def Job.AtRisk : Answer → Job → Prop
  | .done, .running _ .owner => True
  | .done, _ => False
  | _, .pushing _ => True
  | _, _ => False

instance (answer : Answer) (t : Job) : Decidable (t.AtRisk answer) := by
  rcases answer with _ | _ | _ | _ <;> rcases t with _ | _ | _ | ⟨_, _ | _ | _⟩ | _
  case done.running.owner => exact isTrue trivial
  case failed.pushing => exact isTrue trivial
  case unrecorded.pushing => exact isTrue trivial
  case crashed.pushing => exact isTrue trivial
  all_goals exact isFalse id

/-- The hash is marked as executed, and an enqueue is given up, only if some execution has
started since the last enqueue. -/
def MarksInTime : Condition (Pool State Job) (Turn Event Answer) := fun past p l =>
  match l with
  | .resumed i answer => ∀ t ∈ p.tasks[i]?, t.AtRisk answer →
      caughtUp ((jobs maxThreshold).system.log past)
  | _ => True

instance (past : List (Turn Event Answer)) (p : Pool State Job) :
    ∀ l, Decidable (MarksInTime maxThreshold past p l)
  | .resumed i _ => inferInstanceAs (Decidable (∀ t ∈ p.tasks[i]?, _))
  | .event _ => isTrue trivial

/-! ### The hash -/

/-- The hash is owned by the last message that was enqueued, and marked in time. -/
structure DataOk (log : List Observation) (enqueued : ℕ) (data : DebounceHash) : Prop where
  owner : ∀ id ∈ data.messageId, id + 1 = enqueued
  executed : data.executed = some true → caughtUp log

/-- The shared state: the messages are numbered, and the hash is in order. -/
structure HashOk (log : List Observation) (s : State) : Prop where
  numbered : ∀ id, .enqueued id ∈ log ↔ id < s.enqueued
  queue : ∀ id ∈ s.queue, id < s.enqueued
  hash : s.hash.Forall fun _ data => DataOk log s.enqueued data

/-- The message a job is about. -/
def Job.message? : Job → Option MessageId
  | .running id _ => some id
  | t => t.pending?

/-- A job is about a message that has been enqueued. -/
def Numbered (_ : List Observation) (s : State) (_ : ℕ) (t : Job) : Prop :=
  ∀ id ∈ t.message?, id < s.enqueued

variable {log : List Observation} {s : State} {id : MessageId} {i : ℕ} {t : Job}
variable {answer : Answer}

theorem forall_put {P : Unit → DebounceHash → Prop} {hash : Store Unit DebounceHash}
    {e : Entry DebounceHash} (h : P () e.value) : (hash.put () (some e)).Forall P := by
  intro k e' he'
  rw [Store.put_self] at he'
  obtain rfl := Option.some_inj.mp he'
  exact h

theorem HashOk.getD (h : HashOk log s) : DataOk log s.enqueued ((s.hash.get s.now ()).getD {}) := by
  rcases hget : s.hash.get s.now () with _ | data
  · exact ⟨nofun, nofun⟩
  · exact h.hash.of_get hget

theorem HashOk.setDebounceKey (h : HashOk log s) :
    HashOk (log ++ [.enqueued s.enqueued])
      { s.setDebounceKey s.enqueued with enqueued := s.enqueued + 1 } := by
  refine ⟨fun id => ?_, fun id hid => Nat.lt_succ_of_lt (h.queue id hid), ?_⟩
  · have hnew : Observation.enqueued id ∈ [Observation.enqueued s.enqueued] ↔ id = s.enqueued := by
      simp
    rw [List.mem_append, h.numbered, hnew]
    dsimp only
    omega
  · refine forall_put ⟨fun id hid => ?_, nofun⟩
    obtain rfl := Option.some_inj.mp hid
    rfl

theorem HashOk.push (h : HashOk log s) (hid : id < s.enqueued) : HashOk log (s.push id) := by
  refine ⟨h.numbered, fun id' hid' => ?_, h.hash⟩
  rcases List.mem_append.mp hid' with hold | hnew
  · exact h.queue id' hold
  · rw [List.mem_singleton.mp hnew]
    exact hid

theorem HashOk.afterProcess (h : HashOk log s) (mode : Mode) (succeeded : Bool)
    (hrisk : mode = .owner → succeeded = true → caughtUp log) :
    HashOk log (s.afterProcess mode succeeded) := by
  rcases mode with _ | _ | _
  case unobserved => exact h
  case maxThreshold =>
    exact ⟨h.numbered, h.queue, forall_put ⟨h.getD.owner, h.getD.executed⟩⟩
  case owner =>
    rcases succeeded with _ | _
    case false => exact h
    have hcaught := hrisk rfl rfl
    rw [State.afterProcess, if_pos rfl, State.markExecuted]
    split
    · exact ⟨h.numbered, h.queue, forall_put ⟨nofun, fun _ => hcaught⟩⟩
    next e he =>
      have hold := h.hash () e (Store.entryAt_eq_some he)
      exact ⟨h.numbered, h.queue, forall_put ⟨hold.owner, fun _ => hcaught⟩⟩

theorem HashOk.observe (h : HashOk log s) {o : Observation} (ho : ∀ id, o ≠ .enqueued id) :
    HashOk (log ++ [o]) s := by
  have hmem (id : MessageId) : .enqueued id ∈ log ++ [o] ↔ .enqueued id ∈ log := by
    simp [Ne.symm (ho id)]
  refine ⟨fun id => (hmem id).trans (h.numbered id), h.queue, h.hash.mono fun _ data hdata =>
    ⟨hdata.owner, fun hexecuted => ?_⟩⟩
  have hcaught := hdata.executed hexecuted
  rw [caughtUp_append]
  rcases o with id | _ | _
  · exact absurd rfl (ho id)
  · rfl
  · exact hcaught

theorem enqueued_afterProcess (mode : Mode) (succeeded : Bool) :
    (s.afterProcess mode succeeded).enqueued = s.enqueued := by
  rcases mode with _ | _ | _
  case owner =>
    rcases succeeded with _ | _
    case false => rfl
    rw [State.afterProcess, if_pos rfl, State.markExecuted]
    split <;> rfl
  all_goals rfl

/-- The steps of producers and workers enqueue nothing more, and what they are about has been
enqueued. -/
theorem HashOk.advance (h : HashOk log s) (ht : Numbered log s i t)
    (hrisk : t.AtRisk answer → caughtUp log) :
    HashOk (log ++ (advance maxThreshold s i answer t).2.2) (advance maxThreshold s i answer t).1 ∧
      (advance maxThreshold s i answer t).1.enqueued = s.enqueued ∧
      Numbered (log ++ (advance maxThreshold s i answer t).2.2)
        (advance maxThreshold s i answer t).1 i (advance maxThreshold s i answer t).2.1 := by
  have hquiet {s' : State} (h' : HashOk log s') : HashOk (log ++ []) s' := by
    rwa [List.append_nil]
  rcases t with id | id | ⟨id, mode⟩ | ⟨id, mode⟩ | _
  case pushing =>
    have hid : id < s.enqueued := ht id rfl
    rcases answer with _ | _ | _ | _
    case done => exact ⟨hquiet (h.push hid), rfl, nofun⟩
    all_goals exact ⟨hquiet h, rfl, nofun⟩
  case checking =>
    have hid : id < s.enqueued := ht id rfl
    rcases answer with _ | _ | _ | _
    case done =>
      rw [Debounce.advance]
      split
      · exact ⟨h.observe (by simp), rfl, nofun⟩
      · exact ⟨hquiet h, rfl, ht⟩
    case crashed => exact ⟨hquiet (h.push hid), rfl, nofun⟩
    all_goals exact ⟨hquiet h, rfl, ht⟩
  case starting =>
    have hid : id < s.enqueued := ht id rfl
    rcases answer with _ | _ | _ | _
    case crashed => exact ⟨hquiet (h.push hid), rfl, nofun⟩
    all_goals exact ⟨h.observe (by simp), rfl, ht⟩
  case running =>
    have hid : id < s.enqueued := ht id rfl
    rcases answer with _ | retry | _ | _
    case done =>
      have hmarked := h.afterProcess mode true fun hmode _ => hrisk (by rw [hmode]; trivial)
      exact ⟨hquiet hmarked, enqueued_afterProcess mode true, nofun⟩
    case failed =>
      have hkept := h.afterProcess mode false nofun
      have henqueued : (s.afterProcess mode false).enqueued = s.enqueued :=
        enqueued_afterProcess mode false
      rw [Debounce.advance]
      split
      · exact ⟨hquiet (hkept.push (henqueued ▸ hid)), henqueued, nofun⟩
      · exact ⟨hquiet hkept, henqueued, nofun⟩
    case unrecorded => exact ⟨hquiet h, rfl, nofun⟩
    case crashed => exact ⟨hquiet (h.push hid), rfl, nofun⟩
  case finished =>
    rcases answer with _ | _ | _ | _
    all_goals exact ⟨hquiet h, rfl, nofun⟩

theorem HashOk.arrive (h : HashOk log s) (i : ℕ) (e : Event) :
    HashOk (log ++ (arrive s i e).2.2) (arrive s i e).1 ∧
      s.enqueued ≤ (arrive s i e).1.enqueued ∧
      ∀ t ∈ (arrive s i e).2.1, ∀ id ∈ t.message?, id < (arrive s i e).1.enqueued := by
  have hquiet {s' : State} (h' : HashOk log s') : HashOk (log ++ []) s' := by
    rwa [List.append_nil]
  rcases e with _ | id | milliseconds
  case enqueue =>
    refine ⟨h.setDebounceKey, Nat.le_succ _, fun t ht id hid => ?_⟩
    obtain rfl := List.mem_singleton.mp ht
    obtain rfl := Option.some_inj.mp hid
    exact Nat.lt_succ_self _
  case deliver =>
    rw [Debounce.arrive]
    split
    next hid =>
      refine ⟨hquiet ⟨h.numbered, fun id' hid' => ?_, h.hash⟩, le_rfl, fun t ht id' hid' => ?_⟩
      · exact h.queue id' (List.mem_of_mem_erase hid')
      · obtain rfl := List.mem_singleton.mp ht
        obtain rfl := Option.some_inj.mp hid'
        exact h.queue id hid
    next => exact ⟨hquiet h, le_rfl, nofun⟩
  case elapse => exact ⟨hquiet ⟨h.numbered, h.queue, h.hash⟩, le_rfl, nofun⟩

theorem hashOutline (maxThreshold : MessageId → ℕ) :
    (jobs maxThreshold).Outline (MarksInTime maxThreshold) HashOk Numbered where
  init := by
    refine ⟨fun id => ?_, nofun, Store.Forall.empty⟩
    exact iff_of_false List.not_mem_nil (Nat.not_lt_zero id)
  event h _ := (h.shared.arrive 0 _).1
  started h _ k t hk id hid :=
    (h.shared.arrive 0 _).2.2 t (List.mem_of_getElem? hk) id hid
  undisturbed h _ i t hi id hid :=
    Nat.lt_of_lt_of_le (h.task i t hi id hid) (h.shared.arrive 0 _).2.1
  resumed h hC hi :=
    have hstep := h.shared.advance maxThreshold (h.task _ _ hi) (hC _ hi)
    ⟨hstep.1, hstep.2.2⟩
  interferes := by
    intro past p i answer t h hC hi j other hj _ id hid
    obtain ⟨-, henqueued, -⟩ := h.shared.advance maxThreshold (h.task i t hi) (hC t hi)
    exact henqueued ▸ h.task j other hj id hid

/-! ### The last message is not lost -/

theorem skipped_cases (h : .skipped id ∈ (advance maxThreshold s i answer t).2.2) :
    answer = .done ∧ t = .checking id ∧ beforeProcess maxThreshold s id = none := by
  rcases t with id' | id' | ⟨id', mode⟩ | ⟨id', mode⟩ | _ <;> rcases answer with _ | _ | _ | _
  case checking.done =>
    rw [advance] at h
    split at h
    next hskip =>
      obtain rfl := Observation.skipped.inj (List.mem_singleton.mp h)
      exact ⟨rfl, rfl, hskip⟩
    next => cases h
  all_goals simp [advance] at h

theorem caughtUp_advance (h : caughtUp log) :
    caughtUp (log ++ (advance maxThreshold s i answer t).2.2) := by
  have hquiet : caughtUp (log ++ []) := by rwa [List.append_nil]
  have hstarted : caughtUp (log ++ [.started i]) := by
    rw [caughtUp_append]
    rfl
  rcases t with id' | id' | ⟨id', mode⟩ | ⟨id', mode⟩ | _
  case checking =>
    rcases answer with _ | _ | _ | _
    case done =>
      rw [advance]
      split
      · rwa [caughtUp_append]
      · exact hquiet
    all_goals exact hquiet
  case starting =>
    rcases answer with _ | _ | _ | _
    case crashed => exact hquiet
    all_goals exact hstarted
  all_goals rcases answer with _ | _ | _ | _ <;> exact hquiet

theorem queue_afterProcess (mode : Mode) (succeeded : Bool) :
    (s.afterProcess mode succeeded).queue = s.queue := by
  rcases mode with _ | _ | _
  case owner =>
    rcases succeeded with _ | _
    case false => rfl
    rw [State.afterProcess, if_pos rfl, State.markExecuted]
    split <;> rfl
  all_goals rfl

theorem mem_queue_advance (h : id ∈ s.queue) :
    id ∈ (advance maxThreshold s i answer t).1.queue := by
  have hpush {s' : State} (h' : id ∈ s'.queue) (id' : MessageId) : id ∈ (s'.push id').queue :=
    List.mem_append_left _ h'
  have hprocess (mode : Mode) (succeeded : Bool) :
      id ∈ (s.afterProcess mode succeeded).queue := by rwa [queue_afterProcess]
  rcases t with id' | id' | ⟨id', mode⟩ | ⟨id', mode⟩ | _
  case pushing =>
    rcases answer with _ | _ | _ | _
    case done => exact hpush h id'
    all_goals exact h
  case checking =>
    rcases answer with _ | _ | _ | _
    case done =>
      rw [advance]
      split <;> exact h
    case crashed => exact hpush h id'
    all_goals exact h
  case starting =>
    rcases answer with _ | _ | _ | _
    case crashed => exact hpush h id'
    all_goals exact h
  case running =>
    rcases answer with _ | retry | _ | _
    case done => exact hprocess mode true
    case failed =>
      rw [advance]
      split
      · exact hpush (hprocess mode false) id'
      · exact hprocess mode false
    case unrecorded => exact h
    case crashed => exact hpush h id'
  case finished => rcases answer with _ | _ | _ | _ <;> exact h

/-- A pending message is handed on: it is queued or on its way, or its execution starts, unless
it is given up or skipped. -/
theorem advance_hands_on (h : t.pending? = some id) :
    id ∈ (advance maxThreshold s i answer t).1.queue ∨
      (advance maxThreshold s i answer t).2.1.pending? = some id ∨
      (advance maxThreshold s i answer t).2.2 = [.started i] ∨ t.AtRisk answer ∨
      .skipped id ∈ (advance maxThreshold s i answer t).2.2 := by
  have hpush : id ∈ (s.push id).queue := List.mem_concat_self
  rcases t with id' | id' | ⟨id', mode⟩ | ⟨id', mode⟩ | _
  case pushing =>
    obtain rfl := Option.some_inj.mp h
    rcases answer with _ | _ | _ | _
    case done => exact .inl hpush
    all_goals exact .inr (.inr (.inr (.inl trivial)))
  case checking =>
    obtain rfl := Option.some_inj.mp h
    rcases answer with _ | _ | _ | _
    case done =>
      rw [advance]
      split
      · exact .inr (.inr (.inr (.inr (List.mem_singleton_self _))))
      · exact .inr (.inl rfl)
    case crashed => exact .inl hpush
    all_goals exact .inr (.inl rfl)
  case starting =>
    obtain rfl := Option.some_inj.mp h
    rcases answer with _ | _ | _ | _
    case crashed => exact .inl hpush
    all_goals exact .inr (.inr (.inl rfl))
  case running => cases h
  case finished => cases h

/-- The owner of the hash is not skipped, unless the hash is marked as executed. -/
theorem HashOk.caughtUp_of_skipped (h : HashOk log s) (hid : id + 1 = s.enqueued)
    (hskip : beforeProcess maxThreshold s id = none) : caughtUp log := by
  rw [beforeProcess] at hskip
  split at hskip
  · cases hskip
  next data hget =>
    have hdata := h.hash.of_get hget
    split at hskip
    next hexecuted => exact hdata.executed hexecuted
    next =>
      split at hskip
      next owner enqueueTs howner _ =>
        have hlast := hdata.owner owner howner
        have howns : owner = id := Nat.add_right_cancel (hlast.trans hid.symm)
        rw [if_pos howns] at hskip
        cases hskip
      next => cases hskip

/-- The last message that was enqueued is pending, or an execution has started since. -/
def LastKept (log : List Observation) (p : Pool State Job) : Prop :=
  caughtUp log ∨ ∃ id, id + 1 = p.shared.enqueued ∧ Pending p id

theorem Pending.append {p : Pool State Job} (h : Pending p id) (shared : State)
    (started : List Job) (hqueue : id ∈ p.shared.queue → id ∈ shared.queue ∨
      ∃ t ∈ started, t.pending? = some id) :
    Pending { shared, tasks := p.tasks ++ started } id := by
  rcases h with hold | ⟨j, t, hj, ht⟩
  · rcases hqueue hold with hnew | ⟨t, hmem, ht⟩
    · exact .inl hnew
    · obtain ⟨k, hk⟩ := List.getElem?_of_mem hmem
      refine .inr ⟨p.tasks.length + k, t, ?_, ht⟩
      rw [List.getElem?_append_right (Nat.le_add_right ..), Nat.add_sub_cancel_left, hk]
  · exact .inr ⟨j, t, getElem?_append_of_some hj started, ht⟩

theorem LastKept.event {p : Pool State Job} (h : LastKept log p) (e : Event) :
    LastKept (log ++ ((jobs maxThreshold).step p (.event e)).2)
      ((jobs maxThreshold).step p (.event e)).1 := by
  rcases e with _ | id | milliseconds
  case enqueue =>
    refine .inr ⟨p.shared.enqueued, rfl, .inr ⟨p.tasks.length, .pushing p.shared.enqueued, ?_, rfl⟩⟩
    rw [Tasks.step_event]
    exact List.getElem?_concat_length
  case deliver =>
    rw [Tasks.step_event, jobs]
    dsimp only
    rw [arrive]
    split
    next hid =>
      rw [List.append_nil]
      refine h.imp_right fun ⟨last, hlast, hpending⟩ => ⟨last, hlast, ?_⟩
      refine hpending.append _ _ fun hold => ?_
      by_cases heq : last = id
      · exact .inr ⟨.checking id, List.mem_singleton_self _, congrArg some heq.symm⟩
      · exact .inl ((List.mem_erase_of_ne heq).mpr hold)
    next =>
      rw [List.append_nil]
      exact h.imp_right fun ⟨last, hlast, hpending⟩ =>
        ⟨last, hlast, hpending.append _ _ fun hold => .inl hold⟩
  case elapse =>
    rw [Tasks.step_event, jobs]
    dsimp only [arrive]
    rw [List.append_nil]
    exact h.imp_right fun ⟨last, hlast, hpending⟩ =>
      ⟨last, hlast, hpending.append _ _ fun hold => .inl hold⟩

theorem LastKept.resumed {p : Pool State Job} (h : LastKept log p)
    (hp : Tasks.Holds HashOk Numbered log p)
    (hrisk : ∀ t ∈ p.tasks[i]?, t.AtRisk answer → caughtUp log) :
    LastKept (log ++ ((jobs maxThreshold).step p (.resumed i answer)).2)
      ((jobs maxThreshold).step p (.resumed i answer)).1 := by
  rcases hi : p.tasks[i]? with _ | t
  · rw [Tasks.step_resumed_none hi, List.append_nil]
    exact h
  have hlt : i < p.tasks.length := (List.getElem?_eq_some_iff.mp hi).1
  obtain ⟨-, henqueued, -⟩ := hp.shared.advance maxThreshold (hp.task i t hi) (hrisk t hi)
  rw [Tasks.step_resumed hi]
  rcases h with hcaught | ⟨last, hlast, hqueued | ⟨j, t', hj, ht'⟩⟩
  · exact .inl (caughtUp_advance maxThreshold hcaught)
  · exact .inr ⟨last, hlast.trans henqueued.symm, .inl (mem_queue_advance maxThreshold hqueued)⟩
  · by_cases hji : j = i
    · subst hji
      obtain rfl := Option.some_inj.mp (hi.symm.trans hj)
      rcases advance_hands_on maxThreshold ht' with hqueued | hpending | hstarted | hat | hskipped
      · exact .inr ⟨last, hlast.trans henqueued.symm, .inl hqueued⟩
      · refine .inr ⟨last, hlast.trans henqueued.symm, .inr ⟨j, _, ?_, hpending⟩⟩
        exact List.getElem?_set_self hlt
      · refine .inl ?_
        have hobs : ((jobs maxThreshold).advance p.shared j answer t).2.2 = [.started j] := hstarted
        rw [hobs, caughtUp_append]
        rfl
      · exact .inl (caughtUp_advance maxThreshold (hrisk t hi hat))
      · obtain ⟨-, -, hskip⟩ := skipped_cases maxThreshold hskipped
        exact .inl (caughtUp_advance maxThreshold
          (hp.shared.caughtUp_of_skipped maxThreshold hlast hskip))
    · refine .inr ⟨last, hlast.trans henqueued.symm, .inr ⟨j, t', ?_, ht'⟩⟩
      exact (List.getElem?_set_ne (Ne.symm hji)).trans hj

/-- **The last message is never lost.** -/
theorem lastKept_of_along {ls : List (Turn Event Answer)}
    (h : (jobs maxThreshold).system.Along (MarksInTime maxThreshold) ls) :
    LastKept ((jobs maxThreshold).system.log ls) ((jobs maxThreshold).system.after ls) := by
  induction ls using List.reverseRecOn with
  | nil => exact .inl rfl
  | append_singleton ls l ih =>
    rw [along_snoc] at h
    have hp := (hashOutline maxThreshold).holds h.1
    rw [log_snoc, after_snoc]
    rcases l with e | ⟨i, answer⟩
    · exact (ih h.1).event maxThreshold e
    · exact (ih h.1).resumed maxThreshold hp h.2

theorem skipsCovered_of_lastKept {past : List (Turn Event Answer)} {p : Pool State Job}
    {l : Turn Event Answer}
    (hp : Tasks.Holds HashOk Numbered ((jobs maxThreshold).system.log past) p)
    (h : LastKept ((jobs maxThreshold).system.log past) p) :
    SkipsCovered maxThreshold past p l := by
  intro id hskipped
  rcases l with e | ⟨i, answer⟩
  · rcases e with _ | id' | _
    case enqueue => simp [Tasks.step_event, jobs, arrive] at hskipped
    case deliver =>
      rw [Tasks.system_step, Tasks.step_event, jobs] at hskipped
      dsimp only at hskipped
      rw [arrive] at hskipped
      split at hskipped <;> cases hskipped
    case elapse => cases hskipped
  rcases hi : p.tasks[i]? with _ | t
  · rw [Tasks.system_step, Tasks.step_resumed_none hi] at hskipped
    cases hskipped
  rw [Tasks.system_step, Tasks.step_resumed hi] at hskipped
  obtain ⟨-, rfl, hskip⟩ := skipped_cases maxThreshold hskipped
  have hlt : id < p.shared.enqueued := hp.task i _ hi id rfl
  have hmem := (hp.shared.numbered id).mpr hlt
  rcases h with hcaught | ⟨last, hlast, hpending⟩
  · exact .inl (started_of_caughtUp hcaught hmem)
  · rcases Nat.lt_or_ge id last with hlater | hge
    · exact .inr ⟨last, hlater, hpending⟩
    · have hown : id + 1 = p.shared.enqueued :=
        Nat.le_antisymm (Nat.succ_le_of_lt hlt) (hlast ▸ Nat.succ_le_succ hge)
      exact .inl (started_of_caughtUp (hp.shared.caughtUp_of_skipped maxThreshold hown hskip) hmem)

/-- **No update is lost.** In every run in which the hash is marked in time, each message that
is skipped is covered; and each enqueue is followed by an execution that starts after it, or its
message or a later one is still pending. -/
theorem noUpdateLost (ls : List (Turn Event Answer))
    (h : (jobs maxThreshold).system.Along (MarksInTime maxThreshold) ls) :
    (jobs maxThreshold).system.Along (SkipsCovered maxThreshold) ls ∧
      ∀ id, .enqueued id ∈ (jobs maxThreshold).system.log ls →
        (∃ i, Precedes ((jobs maxThreshold).system.log ls) (.enqueued id) (.started i)) ∨
          ∃ later, id ≤ later ∧ Pending ((jobs maxThreshold).system.after ls) later := by
  refine ⟨?_, fun id hid => ?_⟩
  · induction ls using List.reverseRecOn with
    | nil => exact along_nil _ _
    | append_singleton ls l ih =>
      rw [along_snoc] at h ⊢
      have hp := (hashOutline maxThreshold).holds h.1
      exact ⟨ih h.1, skipsCovered_of_lastKept maxThreshold hp (lastKept_of_along maxThreshold h.1)⟩
  · have hp := (hashOutline maxThreshold).holds h
    have hlt := (hp.shared.numbered id).mp hid
    rcases lastKept_of_along maxThreshold h with hcaught | ⟨last, hlast, hpending⟩
    · exact .inl (started_of_caughtUp hcaught hid)
    · have hle : id < last + 1 := by rw [hlast]; exact hlt
      exact .inr ⟨last, Nat.le_of_lt_succ hle, hpending⟩

/-- A message is enqueued, taken and executed. -/
def executedOnce : List (Turn Event Answer) :=
  [.event .enqueue, .resumed 0 .done, .event (.deliver 0), .resumed 1 .done, .resumed 1 .done,
    .resumed 1 .done]

theorem noUpdateLost_executedOnce :
    (jobs fun _ => 900).system.Along (SkipsCovered fun _ => 900) executedOnce ∧
      ∀ id, .enqueued id ∈ (jobs fun _ => 900).system.log executedOnce →
        (∃ i, Precedes ((jobs fun _ => 900).system.log executedOnce) (.enqueued id)
          (.started i)) ∨
          ∃ later, id ≤ later ∧ Pending ((jobs fun _ => 900).system.after executedOnce) later :=
  noUpdateLost (fun _ => 900) executedOnce (by decide)

/-- A message is enqueued while the job is running for an earlier one, which then marks the
hash. -/
def enqueuedWhileRunning : List (Turn Event Answer) :=
  [.event .enqueue, .resumed 0 .done, .event (.deliver 0), .resumed 1 .done, .resumed 1 .done,
    .event .enqueue, .resumed 2 .done, .resumed 1 .done, .event (.deliver 1)]

/-- The new message is skipped: nothing has started since it was enqueued, and nothing is left
in the queue. -/
theorem enqueuedWhileRunning_skipped :
    ¬(jobs fun _ => 900).system.Along (SkipsCovered fun _ => 900)
      (enqueuedWhileRunning ++ [.resumed 3 .done]) := by
  intro h
  rw [along_snoc] at h
  have hlog : (jobs fun _ => 900).system.log enqueuedWhileRunning =
      [.enqueued 0, .started 1, .enqueued 1] := by decide
  have htasks : ((jobs fun _ => 900).system.after enqueuedWhileRunning).tasks =
      [.finished, .finished, .finished, .checking 1] := by decide
  have hqueue : ((jobs fun _ => 900).system.after enqueuedWhileRunning).shared.queue = [] := by
    decide
  obtain ⟨i, hi⟩ | ⟨later, hlt, hqueued | ⟨j, t, hj, ht⟩⟩ := h.2 1 (by decide)
  · have hlast : Observation.started i ∉ [Observation.enqueued 1] := by simp
    have hstarted : Precedes [Observation.enqueued 0, .started 1] (.enqueued 1) (.started i) :=
      (precedes_append hlast).mp (by rw [hlog] at hi; exact hi)
    have hmem := hstarted.mem
    simp at hmem
  · rw [hqueue] at hqueued
    cases hqueued
  · rw [htasks] at hj
    have hmem := List.mem_of_getElem? hj
    simp only [List.mem_cons, List.not_mem_nil, or_false] at hmem
    rcases hmem with rfl | rfl | rfl | rfl
    · cases ht
    · cases ht
    · cases ht
    · obtain rfl := Option.some_inj.mp ht
      exact absurd hlt (Nat.lt_irrefl 1)

end Rapidly.Worker.Debounce
