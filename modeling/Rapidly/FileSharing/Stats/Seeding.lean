import Rapidly.FileSharing.Stats.PublicStats

/-!
# The one-shot seed of the channel counter

The channel counter starts at zero and is incremented by every creation; the seed adds the
number of rows that some call has counted before. The rows of the new channels are in the same
table, so the count may contain channels that are in the counter already, and it may lack old
channels whose commits have not reached the replica.

`channelTotals_iff` says exactly when the counter is right from the seed on: the call that seeds
must have counted the channels that were created before the counter was introduced, and no
others. That nothing else can go wrong (two seeds, an increment that is lost or doubled) is the
outline `seedingOutline`: the marker is won once, and the winner adds once.
-/

namespace Rapidly.FileSharing.Stats

open Transition

universe u

variable {Share : Type u}

/-- The channel that an observation counts. -/
def Observation.channel? {N : Type*} : Observation Share N → Option Share
  | .counted .channelsTotal share => some share
  | _ => none

/-- The channels that have been counted, once for every increment. -/
def channelsCounted {N : Type*} (log : List (Observation Share N)) : Multiset Share :=
  (log.filterMap Observation.channel? : List Share)

@[simp] theorem channelsCounted_append {N : Type*} (log obs : List (Observation Share N)) :
    channelsCounted (log ++ obs) = channelsCounted log + channelsCounted obs := by
  rw [channelsCounted, List.filterMap_append, ← Multiset.coe_add]
  rfl

/-- The channels that exist: those from before the counter was introduced, and those that have
been created since. -/
def channelsCreated (legacy : List Share)
    (log : List (Observation Share (Multiset Share))) : Multiset Share :=
  legacy + channelsCounted log

/-- The counters of the model of shares. -/
abbrev SharesState (Share : Type u) := State Share (Multiset Share)

/-- The calls of the model of shares. -/
abbrev SharesCall (Share : Type u) := Call Share (Multiset Share)

/-- A share weighs itself. -/
abbrev self (share : Share) : Multiset Share := {share}

/-! ### What a command does to the seed -/

/-- A step that has nothing to do with the marker and the seed: the channel counter grows by the
channels it counts. -/
structure Quiet (s s' : SharesState Share)
    (obs : List (Observation Share (Multiset Share))) : Prop where
  counter : s'.counter .channelsTotal = s.counter .channelsTotal + channelsCounted obs
  marker : s'.initialized = s.initialized
  seeded : .seeded ∉ obs
  won : ∀ j, .won j ∉ obs

/-- A command wins the marker, or adds the baseline, or has nothing to do with the seed. -/
theorem execute_cases (s : SharesState Share) (i : ℕ) (call : SharesCall Share) :
    (∃ rows, call = .settingInitialized rows ∧ s.initialized = false ∧
      execute self s i call = ({ s with initialized := true }, .seeding rows, [.won i])) ∨
    (∃ rows, call = .seeding rows ∧
      execute self s i call = (s.incrby .channelsTotal rows, .getChannelsTotal, [.seeded])) ∨
    Quiet s (execute self s i call).1 (execute self s i call).2.2 ∧
      ∀ rows, (execute self s i call).2.1 ≠ .seeding rows := by
  have hsame (obs : List (Observation Share (Multiset Share))) (hobs : channelsCounted obs = 0) :
      s.counter .channelsTotal = s.counter .channelsTotal + channelsCounted obs := by
    rw [hobs, add_zero]
  have hquiet : Quiet s s [] :=
    ⟨hsame [] rfl, rfl, List.not_mem_nil, fun _ => List.not_mem_nil⟩
  rcases call with _ | ⟨c, share, row⟩ | ⟨c, share, row⟩ | _ | _ | _ | _ | rows | rows | _ | _ |
    _ | _ | _
  case settingInitialized =>
    rcases hmarker : s.initialized with _ | _
    · exact .inl ⟨rows, rfl, rfl, by rw [execute, if_neg (by simp [hmarker])]⟩
    · refine .inr (.inr ?_)
      rw [execute, if_pos hmarker]
      exact ⟨hquiet, fun _ h => by cases h⟩
  case seeding => exact .inr (.inl ⟨rows, rfl, rfl⟩)
  case incrementing =>
    refine .inr (.inr ⟨⟨?_, rfl, by simp [execute], by simp [execute]⟩, fun _ h => by cases h⟩)
    by_cases hc : Counter.channelsTotal = c
    · subst hc
      exact State.incrby_self _
    · have hnone : channelsCounted [Observation.counted (N := Multiset Share) c share] = 0 := by
        rcases c with _ | _ | _
        case channelsTotal => exact absurd rfl hc
        all_goals rfl
      exact (State.incrby_of_ne hc _).trans (hsame _ hnone)
  case invalidating =>
    refine .inr (.inr ⟨⟨hsame _ rfl, rfl, by simp [execute], by simp [execute]⟩, ?_⟩)
    intro rows h
    rw [execute] at h
    rcases row with _ | _ <;> cases h
  case getCachedTotal =>
    refine .inr (.inr ?_)
    rw [execute]
    split
    · exact ⟨⟨hsame _ rfl, rfl, by simp, by simp⟩, fun _ h => by cases h⟩
    · exact ⟨hquiet, fun _ h => by cases h⟩
  case channelsTotalInitialized =>
    refine .inr (.inr ⟨hquiet, fun rows h => ?_⟩)
    rw [execute] at h
    split at h <;> cases h
  case setCachedTotal =>
    refine .inr (.inr ⟨⟨hsame _ rfl, rfl, by simp [execute], by simp [execute]⟩, fun _ h => ?_⟩)
    cases h
  case committing =>
    exact .inr (.inr ⟨⟨hsame _ rfl, rfl, by simp [execute], by simp [execute]⟩,
      fun _ h => by cases h⟩)
  all_goals exact .inr (.inr ⟨hquiet, fun _ h => by cases h⟩)

theorem quiet_arrive (s : SharesState Share) (i : ℕ) (e : Event Share) :
    Quiet s (arrive s i e).1 (arrive s i e).2.2 ∧
      ∀ rows, Call.seeding rows ∉ (arrive s i e).2.1 := by
  have hsame : s.counter .channelsTotal = s.counter .channelsTotal + 0 := (add_zero _).symm
  rcases e with ⟨share, session⟩ | _ | _ | _ | _ | _
  case createChannel =>
    rcases session with _ | _ <;>
      exact ⟨⟨hsame, rfl, by simp [arrive], by simp [arrive]⟩, by simp [arrive]⟩
  all_goals exact ⟨⟨hsame, rfl, by simp [arrive], by simp [arrive]⟩, by simp [arrive]⟩

/-! ### The marker is won once, and the winner adds once -/

/-- The shared state: what the channel counter is made of, and that the marker is there exactly
when some call has won it. -/
structure SeedOnce (legacy : List Share) (log : List (Observation Share (Multiset Share)))
    (s : SharesState Share) : Prop where
  unseeded : .seeded ∉ log → s.counter .channelsTotal = channelsCounted log
  total : .seeded ∈ log → s.counter .channelsTotal = channelsCreated legacy log
  marker : s.initialized = true ↔ ∃ j, .won j ∈ log
  winner : ∀ j k, .won j ∈ log → .won k ∈ log → j = k
  seeded : .seeded ∈ log → ∃ j, .won j ∈ log

/-- A call in front of the seed has won the marker, and nothing has been seeded yet. -/
def MaySeed (log : List (Observation Share (Multiset Share))) (_ : SharesState Share) (i : ℕ)
    (call : SharesCall Share) : Prop :=
  ∀ rows, call = .seeding rows → .won i ∈ log ∧ .seeded ∉ log

/-- A call that is about to seed has counted the rows of the channels from before the counter
was introduced, of all of them and of no others. -/
def SeedsLegacy (legacy : List Share) :
    System.Condition (Pool (SharesState Share) (SharesCall Share)) (Turn (Event Share) Outcome) :=
  fun _ p l =>
    ∀ i rows, l = .resumed i .executed → p.tasks[i]? = some (.seeding rows) → rows = legacy

variable {log obs : List (Observation Share (Multiset Share))} {s s' : SharesState Share}
variable {i j : ℕ} {call : SharesCall Share} {legacy : List Share}

theorem Quiet.seedOnce (hquiet : Quiet s s' obs) (h : SeedOnce legacy log s) :
    SeedOnce legacy (log ++ obs) s' := by
  have hseeded : .seeded ∈ log ++ obs ↔ .seeded ∈ log := by simp [hquiet.seeded]
  have hwon (j : ℕ) : .won j ∈ log ++ obs ↔ .won j ∈ log := by simp [hquiet.won j]
  constructor
  · intro hnot
    rw [hquiet.counter, h.unseeded (hseeded.not.mp hnot), channelsCounted_append]
  · intro hmem
    rw [hquiet.counter, h.total (hseeded.mp hmem), channelsCreated, channelsCreated,
      channelsCounted_append, add_assoc]
  · simp only [hwon, hquiet.marker]
    exact h.marker
  · simp only [hwon]
    exact h.winner
  · simp only [hwon, hseeded]
    exact h.seeded

theorem Quiet.maySeed (hquiet : Quiet s s' obs) (h : MaySeed log s i call) :
    MaySeed (log ++ obs) s' i call := fun rows hcall =>
  ⟨List.mem_append_left _ (h rows hcall).1, fun hmem =>
    (List.mem_append.mp hmem).elim (h rows hcall).2 hquiet.seeded⟩

theorem SeedOnce.won (h : SeedOnce legacy log s) (hmarker : s.initialized = false) (i : ℕ) :
    SeedOnce legacy (log ++ [.won i]) { s with initialized := true } ∧ .seeded ∉ log := by
  have hnone (j : ℕ) : .won j ∉ log := fun hj =>
    absurd (h.marker.mpr ⟨j, hj⟩) (by rw [hmarker]; exact nofun)
  have hnot : .seeded ∉ log := fun hseeded =>
    let ⟨j, hj⟩ := h.seeded hseeded
    hnone j hj
  have hnot' : .seeded ∉ log ++ [.won i] := by simpa using hnot
  have hmem (j : ℕ) : .won j ∈ log ++ [.won i] ↔ j = i := by simp [hnone j]
  refine ⟨⟨fun _ => ?_, fun hseeded => absurd hseeded hnot', ?_, ?_, fun hseeded =>
    absurd hseeded hnot'⟩, hnot⟩
  · rw [channelsCounted_append]
    exact (h.unseeded hnot).trans (add_zero _).symm
  · simp only [hmem]
    exact iff_of_true trivial ⟨i, rfl⟩
  · intro j k hj hk
    rw [(hmem j).mp hj, (hmem k).mp hk]

theorem SeedOnce.counter_seeded (h : SeedOnce legacy log s) (hnot : .seeded ∉ log)
    (rows : Multiset Share) :
    (s.incrby .channelsTotal rows).counter .channelsTotal =
      channelsCreated legacy (log ++ [.seeded]) ↔ rows = legacy := by
  have hcounted : channelsCounted (log ++ [.seeded]) = channelsCounted log := by
    rw [channelsCounted_append]
    exact add_zero _
  rw [State.incrby_self, h.unseeded hnot, channelsCreated, hcounted, add_comm, add_left_inj]

theorem SeedOnce.seed (h : SeedOnce legacy log s) (hwon : .won i ∈ log) (hnot : .seeded ∉ log) :
    SeedOnce legacy (log ++ [.seeded]) (s.incrby .channelsTotal legacy) := by
  have hmem (j : ℕ) : .won j ∈ log ++ [.seeded] ↔ .won j ∈ log := by simp
  refine ⟨fun hseeded => absurd (List.mem_concat_self ..) hseeded, fun _ =>
    (h.counter_seeded hnot legacy).mpr rfl, ?_, ?_, fun _ => ⟨i, (hmem i).mpr hwon⟩⟩
  · simp only [hmem]
    exact h.marker
  · simp only [hmem]
    exact h.winner

theorem quiet_raised (s : SharesState Share) (i : ℕ) (call : SharesCall Share) :
    Quiet s (advance self s i .raised call).1 (advance self s i .raised call).2.2 :=
  ⟨(add_zero _).symm, rfl, nofun, nofun⟩

/-- **The seed happens once.** The outline for the runs in which the baseline is right. -/
theorem seedingOutline (legacy : List Share) :
    (shares legacy).Outline (SeedsLegacy legacy) (SeedOnce legacy) MaySeed where
  init := by
    have hnone (o : Observation Share (Multiset Share)) : o ∉ [] := List.not_mem_nil
    refine ⟨fun _ => rfl, fun h => absurd h (hnone _), ?_, fun j k h => absurd h (hnone _),
      fun h => absurd h (hnone _)⟩
    exact iff_of_false Bool.false_ne_true fun ⟨j, h⟩ => hnone _ h
  event h _ := (quiet_arrive _ _ _).1.seedOnce h.shared
  started _ _ k t hk rows ht :=
    absurd (ht ▸ List.mem_of_getElem? hk) ((quiet_arrive _ _ _).2 rows)
  undisturbed h _ i t hi := (quiet_arrive _ _ _).1.maySeed (h.task i t hi)
  resumed := by
    intro past p i answer call h hC hi
    rcases answer with _ | _
    case raised => exact ⟨(quiet_raised _ i call).seedOnce h.shared, nofun⟩
    obtain ⟨rows, rfl, hmarker, hstep⟩ | ⟨rows, rfl, -⟩ | ⟨hquiet, hnext⟩ :=
      execute_cases p.shared i call
    · have hadvance : (shares legacy).advance p.shared i .executed (.settingInitialized rows) =
          ({ p.shared with initialized := true }, .seeding rows, [.won i]) := hstep
      obtain ⟨hwon, hnot⟩ := h.shared.won hmarker i
      rw [hadvance]
      refine ⟨hwon, fun _ _ => ⟨List.mem_concat_self .., ?_⟩⟩
      simpa using hnot
    · obtain ⟨hwon, hnot⟩ := h.task i _ hi rows rfl
      obtain rfl := hC i rows rfl hi
      exact ⟨h.shared.seed hwon hnot, nofun⟩
    · exact ⟨hquiet.seedOnce h.shared, fun rows hrows => absurd hrows (hnext rows)⟩
  interferes := by
    intro past p i answer call h hC hi j other hj hji
    have hother := h.task j other hj
    rcases answer with _ | _
    case raised => exact (quiet_raised _ i call).maySeed hother
    obtain ⟨rows, rfl, hmarker, -⟩ | ⟨rows, rfl, -⟩ | ⟨hquiet, -⟩ :=
      execute_cases p.shared i call
    · intro rows' hrows'
      have hwon := (hother rows' hrows').1
      exact absurd (h.shared.marker.mpr ⟨j, hwon⟩) (by rw [hmarker]; exact nofun)
    · intro rows' hrows'
      have hwon := (h.task i _ hi rows rfl).1
      exact absurd (h.shared.winner j i (hother rows' hrows').1 hwon) hji
    · exact hquiet.maySeed hother

/-! ### The totals are exact exactly when the baseline is -/

/-- After the step, if the counter has been seeded: the channel counter is the number of channels
that have been created before or since, each of them counted once. -/
def TotalExact (legacy : List Share) :
    System.Condition (Pool (SharesState Share) (SharesCall Share)) (Turn (Event Share) Outcome) :=
  fun past _ l =>
    .seeded ∈ (shares legacy).system.log (past ++ [l]) →
      ((shares legacy).system.after (past ++ [l])).shared.counter .channelsTotal =
          channelsCreated legacy ((shares legacy).system.log (past ++ [l])) ∧
        ((numbers legacy).system.after (past ++ [l])).shared.counter .channelsTotal =
          (channelsCreated legacy ((shares legacy).system.log (past ++ [l]))).card

instance [DecidableEq Share] (legacy : List Share) (past : List (Turn (Event Share) Outcome))
    (p : Pool (SharesState Share) (SharesCall Share)) (l : Turn (Event Share) Outcome) :
    Decidable (TotalExact legacy past p l) := inferInstanceAs (Decidable (_ → _ ∧ _))

theorem totalExact_iff {past : List (Turn (Event Share) Outcome)} {p} {l} :
    TotalExact legacy past p l ↔
      (.seeded ∈ (shares legacy).system.log (past ++ [l]) →
        ((shares legacy).system.after (past ++ [l])).shared.counter .channelsTotal =
          channelsCreated legacy ((shares legacy).system.log (past ++ [l]))) := by
  refine forall_congr' fun _ => and_iff_left_of_imp fun h => ?_
  rw [(numbers_eq_map legacy _).1, ← h]
  rfl

/-- **The channel totals are exact from the seed on if and only if the call that seeds has
counted the channels from before.** -/
theorem channelTotals_iff (legacy : List Share) (ls : List (Turn (Event Share) Outcome)) :
    (shares legacy).system.Along (TotalExact legacy) ls ↔
      (shares legacy).system.Along (SeedsLegacy legacy) ls := by
  refine (seedingOutline legacy).along_congr fun past l h => ?_
  rw [totalExact_iff]
  refine ⟨fun hexact => ?_, fun hC hseeded => ?_⟩
  · rintro i rows rfl hi
    obtain ⟨-, hnot⟩ := h.task i _ hi rows rfl
    rw [System.after_snoc, System.log_snoc, Tasks.system_step, Tasks.step_resumed hi] at hexact
    exact (h.shared.counter_seeded hnot rows).mp (hexact (List.mem_concat_self ..))
  · have hnext := (seedingOutline legacy).step h l hC
    rw [System.log_snoc] at hseeded ⊢
    rw [System.after_snoc]
    exact hnext.shared.total hseeded

/-- A channel is created, with its row committed and replicated, before the first call of
`get_public_stats`: the seed counts it once more. -/
theorem newChannel_countedTwice :
    ¬(shares ([] : List ℕ)).system.Along (TotalExact [])
      [.event (.createChannel 0 true), .resumed 0 .executed, .resumed 0 .executed,
        .resumed 0 .executed, .resumed 0 .executed, .event .replicate, .event .getPublicStats,
        .resumed 1 .executed, .resumed 1 .executed, .resumed 1 .executed, .resumed 1 .executed,
        .resumed 1 .executed] := by
  decide

end Rapidly.FileSharing.Stats
