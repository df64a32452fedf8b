import Rapidly.FileSharing.Stats.PublicStats

/-!
# Fresh public totals

A share is settled once its counter has been incremented and the cached total has been deleted.
A call of `get_public_stats` that begins after that is expected to return a total that includes
the share. A total that the call reads from the counters does; a cached one does unless some
other call has read the counters before the increment and stores what it has read after the
deletion.

`totalsFresh` is the outline argument: if every total, at the moment it is stored, includes what
is settled by then, then the cached total always includes everything that is settled.
-/

namespace Rapidly.FileSharing.Stats

open KeyValue Transition Transition.System

universe u

variable {Share : Type u}

/-- The share that an observation settles. -/
def Observation.settled? {N : Type*} : Observation Share N → Option (Counter × Share)
  | .settled c share => some (c, share)
  | _ => none

/-- The shares whose increment and whose deletion of the cached total are complete. -/
def settledShares {N : Type*} (log : List (Observation Share N)) : List (Counter × Share) :=
  log.filterMap Observation.settled?

theorem mem_settledShares {N : Type*} {log : List (Observation Share N)} {c : Counter}
    {share : Share} : (c, share) ∈ settledShares log ↔ .settled c share ∈ log := by
  rw [settledShares, List.mem_filterMap]
  refine ⟨fun ⟨o, ho, h⟩ => ?_, fun h => ⟨_, h, rfl⟩⟩
  rcases o with _ | ⟨c', share'⟩ | _ | _ | _ | _
  case settled =>
    obtain ⟨rfl, rfl⟩ := Prod.mk.inj (Option.some_inj.mp h)
    exact ho
  all_goals cases h

/-- The log of a run of the model of shares. -/
abbrev SharesLog (Share : Type u) := List (Observation Share (Multiset Share))

/-- The value includes every share of the counter that was settled before call `i` began. -/
def Includes (log : SharesLog Share) (i : ℕ) (c : Counter) (value : Multiset Share) : Prop :=
  ∀ share, Precedes log (.settled c share) (.asked i) → share ∈ value

variable {log obs : SharesLog Share} {i j : ℕ} {c : Counter} {value : Multiset Share}

theorem Includes.append (h : Includes log i c value) (hobs : .asked i ∉ obs) :
    Includes (log ++ obs) i c value := fun share hshare =>
  h share ((precedes_append hobs).mp hshare)

theorem Includes.mono {value' : Multiset Share} (h : Includes log i c value)
    (hle : value ≤ value') : Includes log i c value' := fun share hshare =>
  Multiset.mem_of_le hle (h share hshare)

/-! ### The assertions -/

/-- The shared state: what is settled is in the counters, and in the cached total. -/
structure InStep (log : SharesLog Share) (s : State Share (Multiset Share)) : Prop where
  counter : ∀ c share, .settled c share ∈ log → share ∈ s.counter c
  cache : s.cache.Forall fun _ total => ∀ c share, .settled c share ∈ log → share ∈ total

/-- What a call knows between its commands. -/
def Knows (log : SharesLog Share) (s : State Share (Multiset Share)) (i : ℕ) :
    Call Share (Multiset Share) → Prop
  | .invalidating c share _ => share ∈ s.counter c
  | .getCreatedCount channels => Includes log i .channelsTotal channels
  | .getNoServerCreatedCount channels secrets =>
    Includes log i .channelsTotal channels ∧ Includes log i .secretsCreated secrets
  | .setCachedTotal total => ∀ c, Includes log i c total
  | _ => True

/-- A total that is about to be stored includes every share that is settled by then. -/
def StoresSettled (legacy : List Share) :
    Condition (Pool (State Share (Multiset Share)) (Call Share (Multiset Share)))
      (Turn (Event Share) Outcome) := fun past p l =>
  ∀ i total, l = .resumed i .executed → p.tasks[i]? = some (.setCachedTotal total) →
    ∀ e ∈ settledShares ((shares legacy).system.log past), e.2 ∈ total

/-- The total that a call stores next. -/
def Call.storing? {N : Type*} : Call Share N → Option N
  | .setCachedTotal total => some total
  | _ => none

theorem Call.storing?_eq_some {N : Type*} {call : Call Share N} {total : N} :
    call.storing? = some total ↔ call = .setCachedTotal total := by
  rcases call with _ | _ | _ | _ | _ | _ | _ | _ | _ | _ | _ | _ | _ | _ <;>
    simp [Call.storing?]

instance [DecidableEq Share] (legacy : List Share) (past : List (Turn (Event Share) Outcome))
    (p : Pool (State Share (Multiset Share)) (Call Share (Multiset Share))) :
    ∀ l, Decidable (StoresSettled legacy past p l)
  | .event _ => isTrue fun _ _ hl => nomatch hl
  | .resumed _ .raised => isTrue fun _ _ hl => nomatch hl
  | .resumed i .executed =>
    decidable_of_iff
      (∀ total ∈ p.tasks[i]?.bind Call.storing?,
        ∀ e ∈ settledShares ((shares legacy).system.log past), e.2 ∈ total) (by
      refine ⟨fun h j total hl hj => ?_, fun h total hi => ?_⟩
      · obtain ⟨rfl, -⟩ := Turn.resumed.inj hl
        exact h total (Option.bind_eq_some_iff.mpr ⟨_, hj, rfl⟩)
      · obtain ⟨call, hcall, hstoring⟩ := Option.bind_eq_some_iff.mp hi
        exact h i total rfl (hcall.trans (congrArg some (Call.storing?_eq_some.mp hstoring))))

variable {s s' : State Share (Multiset Share)} {call : Call Share (Multiset Share)}

theorem InStep.includes (h : InStep log s) (i : ℕ) (c : Counter) :
    Includes log i c (s.counter c) := fun share hshare => h.counter c share hshare.mem

/-- Nothing disturbs what a call knows: the counters grow, and it has begun already. -/
theorem Knows.mono (h : Knows log s i call) (hcounter : ∀ c, s.counter c ≤ s'.counter c)
    (hobs : .asked i ∉ obs) : Knows (log ++ obs) s' i call := by
  rcases call with _ | _ | ⟨c, share, row⟩ | _ | _ | _ | _ | _ | _ | _ | _ | _ | _ | _
  case invalidating => exact Multiset.mem_of_le (hcounter c) h
  case getCreatedCount => exact Includes.append h hobs
  case getNoServerCreatedCount => exact ⟨h.1.append hobs, h.2.append hobs⟩
  case setCachedTotal => exact fun c => (h c).append hobs
  all_goals trivial

theorem InStep.quiet (h : InStep log s) (hcounter : ∀ c, s.counter c ≤ s'.counter c)
    (hcache : s'.cache = s.cache) (hobs : ∀ c share, .settled c share ∉ obs) :
    InStep (log ++ obs) s' := by
  have hmem {c : Counter} {share : Share} (hs : .settled c share ∈ log ++ obs) :
      .settled c share ∈ log := (List.mem_append.mp hs).resolve_right (hobs c share)
  refine ⟨fun c share hs => Multiset.mem_of_le (hcounter c) (h.counter c share (hmem hs)), ?_⟩
  rw [hcache]
  exact h.cache.mono fun _ total htotal c share hs => htotal c share (hmem hs)

theorem counter_le_advance (weigh : Share → Multiset Share) (s : State Share (Multiset Share))
    (i : ℕ) (answer : Outcome) (call : Call Share (Multiset Share)) (c : Counter) :
    s.counter c ≤ (advance weigh s i answer call).1.counter c := by
  rcases answer with _ | _
  · rw [advance, counter_execute]
    exact Multiset.le_add_right ..
  · exact le_refl _

theorem arrive_eq (s : State Share (Multiset Share)) (i : ℕ) (e : Event Share) :
    (arrive s i e).1.counter = s.counter ∧ (arrive s i e).1.cache = s.cache ∧
      (∀ c share, .settled c share ∉ (arrive s i e).2.2) ∧
      (∀ j, .asked j ∈ (arrive s i e).2.2 → j = i) ∧
      ∀ log s' j, ∀ call ∈ (arrive s i e).2.1, Knows log s' j call := by
  rcases e with ⟨share, session⟩ | _ | _ | _ | _ | _
  case createChannel => rcases session with _ | _ <;> simp [arrive, Knows]
  all_goals simp [arrive, Knows]

theorem asked_notMem_advance (weigh : Share → Multiset Share)
    (answer : Outcome) : .asked j ∉ (advance weigh s i answer call).2.2 := by
  rcases answer with _ | _
  case raised => exact List.not_mem_nil
  rw [advance]
  rcases call with _ | _ | _ | _ | _ | _ | _ | _ | _ | _ | _ | _ | _ | _
  case getCachedTotal =>
    rw [execute]
    split <;> simp
  case settingInitialized =>
    rw [execute]
    split <;> simp
  all_goals simp [execute]

/-- What a command leaves in the stores. A share is settled when the cached total is deleted, and
the total that is stored includes all that is settled by then. -/
theorem InStep.execute (hs : InStep log s) (h : Knows log s i call)
    (hstore : ∀ total, call = .setCachedTotal total → ∀ e ∈ settledShares log, e.2 ∈ total) :
    InStep (log ++ (advance (fun share => {share}) s i .executed call).2.2)
      (advance (fun share => {share}) s i .executed call).1 := by
  have hle := counter_le_advance (fun share => {share}) s i .executed call
  cases call with
  | invalidating c share row =>
    refine ⟨fun c' share' hmem => ?_, fun k e he => ?_⟩
    · rcases List.mem_append.mp hmem with hold | hnew
      · exact hs.counter c' share' hold
      · obtain ⟨rfl, rfl⟩ : c' = c ∧ share' = share := by
          simpa [advance, Stats.execute] using hnew
        exact h
    · have hnone : (s.cache.delete ()).entry k = none := Store.put_self ..
      exact absurd (he.symm.trans hnone) (Option.some_ne_none e)
  | setCachedTotal total =>
    have hmem {c : Counter} {share : Share} (hset : .settled c share ∈
        log ++ (advance (fun share => {share}) s i .executed (.setCachedTotal total)).2.2) :
        .settled c share ∈ log := by
      refine (List.mem_append.mp hset).resolve_right ?_
      simp [advance, Stats.execute]
    refine ⟨fun c share hset => hs.counter c share (hmem hset), Store.Forall.setex ?_ ?_⟩
    · exact hs.cache.mono fun _ _ htotal c share hset => htotal c share (hmem hset)
    · exact fun c share hset => hstore total rfl _ (mem_settledShares.mpr (hmem hset))
  | getCachedTotal | settingInitialized =>
    refine hs.quiet hle ?_ fun c share => ?_
    · rw [advance, Stats.execute]
      split <;> rfl
    · rw [advance, Stats.execute]
      split <;> simp
  | _ => exact hs.quiet hle rfl (by simp [advance, Stats.execute])

/-- What a command leads a call to know: a counter that it reads has all that is settled. -/
theorem Knows.advanced (hs : InStep log s) (h : Knows log s i call) :
    Knows (log ++ (advance (fun share => {share}) s i .executed call).2.2)
      (advance (fun share => {share}) s i .executed call).1 i
      (advance (fun share => {share}) s i .executed call).2.1 := by
  have hnot : .asked i ∉ (advance (fun share => {share}) s i .executed call).2.2 :=
    asked_notMem_advance _ _
  cases call with
  | incrementing c share row =>
    have hcounter : (s.incrby c {share}).counter c = s.counter c + {share} := State.incrby_self _
    have hmem : share ∈ (s.incrby c {share}).counter c := by
      rw [hcounter]
      exact Multiset.mem_add.mpr (.inr (Multiset.mem_singleton_self share))
    exact hmem
  | invalidating c share row =>
    rw [advance, Stats.execute]
    rcases row with _ | _ <;> trivial
  | channelsTotalInitialized =>
    rw [advance, Stats.execute]
    rcases s.initialized with _ | _ <;> trivial
  | getCachedTotal | settingInitialized =>
    rw [advance, Stats.execute]
    split <;> trivial
  | getChannelsTotal => exact (hs.includes i .channelsTotal).append hnot
  | getCreatedCount channels =>
    exact ⟨Includes.append h hnot, (hs.includes i .secretsCreated).append hnot⟩
  | getNoServerCreatedCount channels secrets =>
    -- the total is the sum of three counters, and each share is in the part of its counter
    have hread := hs.includes i .noServerCreated
    intro c
    rcases c with _ | _ | _
    · exact (h.1.mono ((Multiset.le_add_right ..).trans (Multiset.le_add_right ..))).append hnot
    · exact (h.2.mono ((Multiset.le_add_left ..).trans (Multiset.le_add_right ..))).append hnot
    · exact (hread.mono (Multiset.le_add_left ..)).append hnot
  | _ => trivial

/-- The outline for the runs in which what is stored includes what is settled. -/
theorem freshnessOutline (legacy : List Share) :
    (shares legacy).Outline (StoresSettled legacy) InStep Knows where
  init := ⟨fun _ _ h => absurd h List.not_mem_nil, Store.Forall.empty⟩
  event := by
    intro past p e h _
    obtain ⟨hcounter, hcache, hsettled, -⟩ := arrive_eq p.shared p.tasks.length e
    exact h.shared.quiet (fun c => (congrFun hcounter c).ge) hcache hsettled
  started := by
    intro past p e _ _ k call hk
    obtain ⟨-, -, -, -, hknows⟩ := arrive_eq p.shared p.tasks.length e
    exact hknows _ _ _ call (List.mem_of_getElem? hk)
  undisturbed := by
    intro past p e h _ i call hi
    obtain ⟨hcounter, -, -, hasked, -⟩ := arrive_eq p.shared p.tasks.length e
    have hlt : i < p.tasks.length := (List.getElem?_eq_some_iff.mp hi).1
    exact (h.task i call hi).mono (fun c => (congrFun hcounter c).ge) fun hmem =>
      absurd (hasked i hmem) (Nat.ne_of_lt hlt)
  resumed := by
    intro past p i answer call h hC hi
    have hcall := h.task i call hi
    rcases answer with _ | _
    · exact ⟨h.shared.execute hcall fun total htotal => hC i total rfl (htotal ▸ hi),
        hcall.advanced h.shared⟩
    · exact ⟨h.shared.quiet (fun c => le_refl _) rfl nofun, trivial⟩
  interferes := by
    intro past p i answer call h _ _ j other hj _
    exact (h.task j other hj).mono (counter_le_advance _ _ _ _ _) (asked_notMem_advance _ _)

/-- A call that returns a total in this step returns one that includes every share that was
settled before the call began. -/
def ReturnsFresh (legacy : List Share) :
    Condition (Pool (State Share (Multiset Share)) (Call Share (Multiset Share)))
      (Turn (Event Share) Outcome) := fun past p l =>
  ∀ i total, .returned i total ∈ ((shares legacy).system.step p l).2 →
    ∀ c, Includes ((shares legacy).system.log past) i c total

/-- The total that a call returns is the cached one, or the one it has stored. -/
theorem returned_advance {answer : Outcome} {weigh : Share → Multiset Share}
    {total : Multiset Share} (h : .returned j total ∈ (advance weigh s i answer call).2.2) :
    answer = .executed ∧ j = i ∧
      (call = .getCachedTotal ∧ s.cache.get s.now () = some total ∨
        call = .setCachedTotal total) := by
  rcases answer with _ | _
  case raised => cases h
  refine ⟨rfl, ?_⟩
  rw [advance] at h
  rcases call with _ | _ | _ | _ | _ | _ | _ | _ | _ | _ | _ | _ | _ | _
  case getCachedTotal =>
    rw [execute] at h
    split at h
    next cached hcached =>
      obtain ⟨rfl, rfl⟩ : j = i ∧ total = cached := by simpa using h
      exact ⟨rfl, .inl ⟨rfl, hcached⟩⟩
    next => cases h
  case settingInitialized =>
    rw [execute] at h
    split at h <;> simp at h
  case setCachedTotal stored =>
    obtain ⟨rfl, rfl⟩ : j = i ∧ total = stored := by simpa [execute] using h
    exact ⟨rfl, .inr rfl⟩
  all_goals simp [execute] at h

/-- A reader is overtaken: it has read all counters, a secret is created and the cached total
deleted, and then the reader stores what it has read. -/
def overtakenReader : List (Turn (Event ℕ) Outcome) :=
  .event .getPublicStats :: List.replicate 8 (.resumed 0 .executed) ++
    [.event (.incrementCreatedCount 0), .resumed 1 .executed, .resumed 1 .executed,
      .resumed 0 .executed, .event .getPublicStats]

end Rapidly.FileSharing.Stats
