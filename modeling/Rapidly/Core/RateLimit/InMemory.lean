import Mathlib.Algebra.Order.Field.Rat
import Mathlib.Tactic.Linarith
import Rapidly.Chronology.Windows
import Rapidly.Transition.System

/-!
# The rate limit in memory

`inmemory_rate_check` of `core/rate_limit.py`: a counter for each key, with the time at which it
was started. A key that has no counter, or whose counter is as old as the window of the call, gets
a new one and is let through. All keys share one table, and now and then a call deletes the
counters from it that are older than its own window, and older than ten minutes.

The windows of a key do not overlap, but an interval of the length of a window can reach into two
of them (`Chronology.countP_times_le`). And a counter is lost before its time when the call that
cleans up has a shorter window than the key: the results are about runs without such a call.

* `Follows`: what the counter of a key says about the windows of the key so far.
* `countP_grantTimes_le`: how often a key is let through in an interval of the length of its
  window.
-/

namespace Rapidly.Core.RateLimit

open Chronology Transition

/-- A call of `inmemory_rate_check`, with the time it reads. -/
structure Call where
  key : String
  limit : ℤ
  /-- In seconds. -/
  window : ℤ
  now : ℚ
deriving DecidableEq

/-- A counter, and when it was started. -/
structure Entry where
  count : ℤ
  start : ℚ
deriving DecidableEq

/-- `_inmemory_rate_limits` and `_inmemory_last_cleanup`. -/
structure Limiter where
  rateLimits : String → Option Entry := fun _ => none
  lastCleanup : ℚ := 0

/-- `_INMEMORY_CLEANUP_INTERVAL` -/
def cleanupInterval : ℚ := 60

namespace Limiter

variable (s : Limiter) (c : Call)

/-- The clean-up in front of a check. -/
def cleanup : Limiter :=
  if c.now - s.lastCleanup > cleanupInterval then
    { rateLimits := fun k =>
        (s.rateLimits k).filter fun entry => ¬c.now - entry.start > max (c.window : ℚ) 600
      lastCleanup := c.now }
  else s

/-- The counter of the call's key gets a value. -/
def setEntry (entry : Entry) : Limiter :=
  { s with rateLimits := Function.update s.rateLimits c.key (some entry) }

/-- `inmemory_rate_check`, after the clean-up. -/
def count : Limiter × Bool :=
  match s.rateLimits c.key with
  | none => (s.setEntry c ⟨1, c.now⟩, true)
  | some entry =>
    if c.now - entry.start ≥ c.window then (s.setEntry c ⟨1, c.now⟩, true)
    else (s.setEntry c ⟨entry.count + 1, entry.start⟩, entry.count + 1 ≤ c.limit)

/-- `inmemory_rate_check` -/
def inmemoryRateCheck : Limiter × Bool := (s.cleanup c).count c

variable {s c} {entry : Entry}

theorem count_of_none (h : s.rateLimits c.key = none) :
    s.count c = (s.setEntry c ⟨1, c.now⟩, true) := by
  rw [count, h]

theorem count_of_old (h : s.rateLimits c.key = some entry) (hold : c.now - entry.start ≥ c.window) :
    s.count c = (s.setEntry c ⟨1, c.now⟩, true) := by
  rw [count, h]
  exact if_pos hold

theorem count_of_some (h : s.rateLimits c.key = some entry)
    (hnew : ¬c.now - entry.start ≥ c.window) :
    s.count c = (s.setEntry c ⟨entry.count + 1, entry.start⟩,
      decide (entry.count + 1 ≤ c.limit)) := by
  rw [count, h]
  exact if_neg hnew

end Limiter

/-- The limiter of a process; what is observed is each call with its answer. -/
def limiter : System Limiter Call (Call × Bool) where
  init := {}
  step s c := ((s.inmemoryRateCheck c).1, [(c, (s.inmemoryRateCheck c).2)])

/-- When a key was let through. -/
def grantTimes (key : String) (calls : List Call) : List ℚ :=
  ((limiter.log calls).filter fun o => o.1.key = key ∧ o.2).map fun o => o.1.now

/-- Times are read in order. -/
def InOrder (calls : List Call) : Prop := calls.Pairwise fun c d => c.now ≤ d.now

/-- All calls for the key have one limit and one window. -/
def Uniform (key : String) (limit window : ℤ) (calls : List Call) : Prop :=
  ∀ c ∈ calls, c.key = key → c.limit = limit ∧ c.window = window

/-- The clean-up of a call does not delete the counter of the key before its window has ended. -/
def Keeps (key : String) (window : ℤ) (s : Limiter) (c : Call) : Prop :=
  ∀ e ∈ s.rateLimits key, (s.cleanup c).rateLimits key = none → e.start + window ≤ c.now

instance (calls : List Call) : Decidable (InOrder calls) :=
  inferInstanceAs (Decidable (List.Pairwise _ _))

instance (key : String) (limit window : ℤ) (calls : List Call) :
    Decidable (Uniform key limit window calls) := inferInstanceAs (Decidable (∀ c ∈ calls, _))

instance (key : String) (window : ℤ) (s : Limiter) (c : Call) : Decidable (Keeps key window s c) :=
  inferInstanceAs (Decidable (∀ e ∈ s.rateLimits key, _))

/-- The counter stays when the key's window is not longer than the call's, or than ten minutes. -/
theorem keeps_of_le {key : String} {window : ℤ} {c : Call} (s : Limiter)
    (h : (window : ℚ) ≤ max (c.window : ℚ) 600) : Keeps key window s c := by
  intro e he hdeleted
  rw [Limiter.cleanup] at hdeleted
  split at hdeleted
  case isFalse => exact absurd (hdeleted.symm.trans he) (Option.some_ne_none e).symm
  case isTrue =>
    have hold := Option.filter_eq_none_iff.mp hdeleted e he
    simp only [decide_not, Bool.not_eq_true', decide_eq_false_iff_not, not_not] at hold
    linarith

theorem along_keeps (key : String) {window : ℤ} (h : (window : ℚ) ≤ 600) (calls : List Call) :
    limiter.Along (fun _ => Keeps key window) calls :=
  limiter.along_of_forall (fun _ _ => keeps_of_le _ (h.trans (le_max_right _ _))) calls

/-! ### The windows of a key -/

/-- How many calls a window lets through after the first one. -/
def others (limit : ℤ) : ℕ := (limit - 1).toNat

/-- The windows of a key so far: they are apart and within the limit, none opens after a time, and
the counter is that of the last one; without a counter all of them are over. -/
structure Follows (limit window : ℤ) (entry : Option Entry) (now : ℚ)
    (windows : List (Window ℚ)) : Prop where
  apart : Apart (window : ℚ) windows
  within : ∀ W ∈ windows, W.Within (window : ℚ) (others limit)
  start_le : ∀ W ∈ windows, W.start ≤ now
  ended : entry = none → ∀ W ∈ windows, W.start + window ≤ now
  current : ∀ e ∈ entry, ∃ front W, windows = front ++ [W] ∧ W.start = e.start ∧
    1 ≤ e.count ∧ (W.later.length : ℤ) = max 0 (min e.count limit - 1)

section Step

variable {limit window : ℤ} {entry : Option Entry} {now now' : ℚ} {windows : List (Window ℚ)}

theorem follows_nil : Follows limit window none now [] where
  apart := .nil
  within _ h := absurd h List.not_mem_nil
  start_le _ h := absurd h List.not_mem_nil
  ended _ _ h := absurd h List.not_mem_nil
  current _ h := absurd h (Option.not_mem_none _)

namespace Follows

theorem mono (h : Follows limit window entry now windows) (hnow : now ≤ now') :
    Follows limit window entry now' windows where
  apart := h.apart
  within := h.within
  start_le W hW := (h.start_le W hW).trans hnow
  ended hentry W hW := (h.ended hentry W hW).trans hnow
  current := h.current

theorem ended_of_last (h : Follows limit window (some e) now windows)
    (hlast : e.start + window ≤ now) : ∀ W ∈ windows, W.start + window ≤ now := by
  obtain ⟨front, last, rfl, hstart, -⟩ := h.current e rfl
  intro W hW
  rcases List.mem_append.mp hW with hfront | hsame
  · have hbefore := (List.pairwise_append.mp h.apart).2.2 W hfront last List.mem_cons_self
    exact hbefore.trans (h.start_le last List.mem_concat_self)
  · obtain rfl := List.mem_singleton.mp hsame
    rwa [hstart]

theorem deleted (h : Follows limit window (some e) now windows) (hlast : e.start + window ≤ now) :
    Follows limit window none now windows where
  apart := h.apart
  within := h.within
  start_le := h.start_le
  ended _ := h.ended_of_last hlast
  current _ he := absurd he (Option.not_mem_none _)

theorem opened (h : Follows limit window entry now windows)
    (hended : ∀ W ∈ windows, W.start + window ≤ now) :
    Follows limit window (some ⟨1, now⟩) now (windows ++ [⟨now, []⟩]) where
  apart := by
    refine List.pairwise_append.mpr ⟨h.apart, List.pairwise_singleton _ _, fun W hW W' hW' => ?_⟩
    rw [List.mem_singleton.mp hW']
    exact hended W hW
  within W hW := by
    rcases List.mem_append.mp hW with hold | hnew
    · exact h.within W hold
    · rw [List.mem_singleton.mp hnew]
      exact ⟨fun _ hx => absurd hx List.not_mem_nil, Nat.zero_le _⟩
  start_le W hW := by
    rcases List.mem_append.mp hW with hold | hnew
    · exact h.start_le W hold
    · rw [List.mem_singleton.mp hnew]
  ended hnone := absurd hnone (Option.some_ne_none _)
  current e he := by
    obtain rfl := Option.some.inj he
    refine ⟨windows, _, rfl, rfl, le_refl _, ?_⟩
    simp only [List.length_nil]
    omega

theorem counted (h : Follows limit window (some e) now windows) (hwindow : now < e.start + window) :
    ∃ windows', Follows limit window (some ⟨e.count + 1, e.start⟩) now windows' ∧
      windows'.flatMap Window.times =
        windows.flatMap Window.times ++ if e.count + 1 ≤ limit then [now] else [] := by
  obtain ⟨front, W, rfl, hstart, hcount, hlength⟩ := h.current e rfl
  have hW : W ∈ front ++ [W] := List.mem_concat_self
  by_cases hlimit : e.count + 1 ≤ limit
  · -- the last window takes the call in
    refine ⟨front ++ [⟨W.start, W.later ++ [now]⟩], ⟨?_, ?_, ?_, ?_, ?_⟩, ?_⟩
    · -- the windows open when they did
      obtain ⟨hfront, -, hbefore⟩ := List.pairwise_append.mp h.apart
      refine List.pairwise_append.mpr ⟨hfront, List.pairwise_singleton _ _, fun V hV V' hV' => ?_⟩
      rw [List.mem_singleton.mp hV']
      exact hbefore V hV W List.mem_cons_self
    · intro V hV
      rcases List.mem_append.mp hV with hold | hnew
      · exact h.within V (List.mem_append_left _ hold)
      rw [List.mem_singleton.mp hnew]
      refine ⟨fun x hx => ?_, ?_⟩
      · rcases List.mem_append.mp hx with hearlier | hlast
        · exact (h.within W hW).ends x hearlier
        · rw [List.mem_singleton.mp hlast, inInterval_iff]
          exact ⟨h.start_le W hW, hstart ▸ hwindow⟩
      · rw [List.length_append, List.length_singleton, others]
        omega
    · intro V hV
      rcases List.mem_append.mp hV with hold | hnew
      · exact h.start_le V (List.mem_append_left _ hold)
      · rw [List.mem_singleton.mp hnew]
        exact h.start_le W hW
    · exact fun hnone => absurd hnone (Option.some_ne_none _)
    · intro e' he'
      obtain rfl := Option.some.inj he'
      refine ⟨front, _, rfl, hstart, by dsimp only; omega, ?_⟩
      rw [List.length_append, List.length_singleton, Nat.cast_add, Nat.cast_one, hlength]
      dsimp only
      omega
    · rw [if_pos hlimit, List.flatMap_append, List.flatMap_append, List.append_assoc,
        List.flatMap_singleton, List.flatMap_singleton]
      rfl
  · -- a refused call is counted, but the window has as many as before
    refine ⟨front ++ [W], ⟨h.apart, h.within, h.start_le, ?_, ?_⟩, ?_⟩
    · exact fun hnone => absurd hnone (Option.some_ne_none _)
    · intro e' he'
      obtain rfl := Option.some.inj he'
      refine ⟨front, W, rfl, hstart, by dsimp only; omega, ?_⟩
      rw [hlength]
      dsimp only
      omega
    · rw [if_neg hlimit, List.append_nil]

end Follows

/-! ### Steps and runs -/

variable {s : Limiter} {c : Call} {key : String} {calls : List Call}

theorem rateLimits_cleanup (s : Limiter) (c : Call) (key : String) :
    (s.cleanup c).rateLimits key = s.rateLimits key ∨ (s.cleanup c).rateLimits key = none := by
  rw [Limiter.cleanup]
  split
  case isFalse => exact .inl rfl
  case isTrue =>
    dsimp only
    cases s.rateLimits key with
    | none => exact .inl rfl
    | some e =>
      rw [Option.filter_some]
      split
      · exact .inl rfl
      · exact .inr rfl

theorem follows_cleanup (h : Follows limit window (s.rateLimits key) now windows)
    (hnow : now ≤ c.now) (hkeep : Keeps key window s c) :
    Follows limit window ((s.cleanup c).rateLimits key) c.now windows := by
  have hlater := h.mono hnow
  rcases rateLimits_cleanup s c key with hsame | hdeleted
  · rwa [hsame]
  -- what is deleted has ended, which is the condition on the run
  rw [hdeleted]
  cases hentry : s.rateLimits key with
  | none => rwa [hentry] at hlater
  | some e =>
    rw [hentry] at hlater
    exact hlater.deleted (hkeep e hentry hdeleted)

theorem follows_count (h : Follows limit window (s.rateLimits c.key) c.now windows)
    (hlimit : c.limit = limit) (hwindow : c.window = window) :
    ∃ windows', Follows limit window ((s.count c).1.rateLimits c.key) c.now windows' ∧
      windows'.flatMap Window.times =
        windows.flatMap Window.times ++ if (s.count c).2 then [c.now] else [] := by
  have hset (entry : Entry) : (s.setEntry c entry).rateLimits c.key = some entry :=
    Function.update_self ..
  have hopened (hended : ∀ W ∈ windows, W.start + window ≤ c.now) :
      ∃ windows', Follows limit window (some ⟨1, c.now⟩) c.now windows' ∧
        windows'.flatMap Window.times = windows.flatMap Window.times ++ [c.now] :=
    ⟨_, h.opened hended, List.flatMap_append⟩
  cases hentry : s.rateLimits c.key with
  | none =>
    rw [Limiter.count_of_none hentry]
    rw [hset]
    exact hopened (h.ended hentry)
  | some e =>
    rw [hentry] at h
    by_cases hold : c.now - e.start ≥ c.window
    · rw [Limiter.count_of_old hentry hold]
      rw [hset]
      refine hopened (h.ended_of_last ?_)
      rw [hwindow] at hold
      linarith
    · rw [Limiter.count_of_some hentry hold]
      subst hlimit hwindow
      rw [hset]
      simpa using h.counted (by linarith)

/-- **One call.** -/
theorem follows_inmemoryRateCheck (h : Follows limit window (s.rateLimits key) now windows)
    (hnow : now ≤ c.now) (hkeep : Keeps key window s c)
    (hsame : c.key = key → c.limit = limit ∧ c.window = window) :
    ∃ windows', Follows limit window ((s.inmemoryRateCheck c).1.rateLimits key) c.now windows' ∧
      windows'.flatMap Window.times = windows.flatMap Window.times ++
        if c.key = key ∧ (s.inmemoryRateCheck c).2 then [c.now] else [] := by
  have hclean := follows_cleanup h hnow hkeep
  rw [Limiter.inmemoryRateCheck]
  by_cases hkey : c.key = key
  · subst hkey
    obtain ⟨hlimit, hwindow⟩ := hsame rfl
    simpa using follows_count hclean hlimit hwindow
  · -- the entry of another key is set
    have hother : ((s.cleanup c).count c).1.rateLimits key = (s.cleanup c).rateLimits key := by
      have hset (entry : Entry) : ((s.cleanup c).setEntry c entry).rateLimits key =
          (s.cleanup c).rateLimits key := Function.update_of_ne (Ne.symm hkey) ..
      rw [Limiter.count]
      split
      · exact hset _
      · split
        · exact hset _
        · exact hset _
    rw [hother, if_neg fun hboth => hkey hboth.1, List.append_nil]
    exact ⟨windows, hclean, rfl⟩

theorem grantTimes_concat (key : String) (calls : List Call) (c : Call) :
    grantTimes key (calls ++ [c]) = grantTimes key calls ++
      if c.key = key ∧ ((limiter.after calls).inmemoryRateCheck c).2 then [c.now] else [] := by
  have hstep : (limiter.step (limiter.after calls) c).2 =
      [(c, ((limiter.after calls).inmemoryRateCheck c).2)] := rfl
  rw [grantTimes, System.log_snoc, List.filter_append, List.map_append, ← grantTimes, hstep,
    List.filter_singleton]
  by_cases hgrant : c.key = key ∧ ((limiter.after calls).inmemoryRateCheck c).2
  · dsimp only
    rw [if_pos hgrant, decide_eq_true hgrant]
    rfl
  · dsimp only
    rw [if_neg hgrant, decide_eq_false hgrant]
    rfl

theorem exists_now_ge (calls : List Call) : ∃ now, ∀ c ∈ calls, c.now ≤ now := by
  induction calls with
  | nil => exact ⟨0, fun _ hc => absurd hc List.not_mem_nil⟩
  | cons c calls ih =>
    obtain ⟨now, hnow⟩ := ih
    refine ⟨max c.now now, fun d hd => ?_⟩
    rcases List.mem_cons.mp hd with rfl | hrest
    · exact le_max_left _ _
    · exact (hnow d hrest).trans (le_max_right _ _)

theorem exists_follows (horder : InOrder calls) (huniform : Uniform key limit window calls)
    (hkeeps : limiter.Along (fun _ => Keeps key window) calls) :
    ∃ windows, grantTimes key calls = windows.flatMap Window.times ∧
      ∀ now, (∀ c ∈ calls, c.now ≤ now) →
        Follows limit window ((limiter.after calls).rateLimits key) now windows := by
  induction calls using List.reverseRecOn with
  | nil => exact ⟨[], rfl, fun _ _ => follows_nil⟩
  | append_singleton calls c ih =>
    obtain ⟨hfront, -, hlast⟩ := List.pairwise_append.mp horder
    rw [System.along_snoc] at hkeeps
    obtain ⟨windows, hgrants, hfollows⟩ := ih hfront
      (fun d hd => huniform d (List.mem_append_left _ hd)) hkeeps.1
    have hbefore := hfollows c.now fun d hd => hlast d hd c List.mem_cons_self
    obtain ⟨windows', hafter, htimes⟩ := follows_inmemoryRateCheck hbefore le_rfl hkeeps.2
      (huniform c List.mem_concat_self)
    refine ⟨windows', ?_, fun now hnow => ?_⟩
    · rw [grantTimes_concat, hgrants, htimes]
    · rw [System.after_snoc]
      exact hafter.mono (hnow c List.mem_concat_self)

end Step

/-- **The rate limit.** A key with one limit and one window is let through less than twice as
often as its limit says within any interval as long as its window, in a run in which no clean-up
deletes its counter before its time. -/
theorem countP_grantTimes_le {key : String} {limit window : ℤ} {calls : List Call}
    (horder : InOrder calls) (huniform : Uniform key limit window calls)
    (hkeeps : limiter.Along (fun _ => Keeps key window) calls) (t : ℚ) :
    ((grantTimes key calls).countP (inInterval (window : ℚ) t) : ℤ) ≤ 2 * max limit 1 - 1 := by
  obtain ⟨windows, hgrants, hfollows⟩ := exists_follows horder huniform hkeeps
  obtain ⟨now, hnow⟩ := exists_now_ge calls
  have hall := hfollows now hnow
  have hcount := countP_times_le hall.apart hall.within t
  rw [hgrants]
  rw [others] at hcount
  omega

/-- Four calls within a minute and a second, which may be two in a minute. -/
def twoAMinute : List Call :=
  [0, 59, 60, 61].map fun now => { key := "login", limit := 2, window := 60, now }

theorem countP_grantTimes_twoAMinute_le :
    ((grantTimes "login" twoAMinute).countP (inInterval ((60 : ℤ) : ℚ) 59) : ℤ) ≤
      2 * max 2 1 - 1 :=
  countP_grantTimes_le (by decide +kernel) (by decide +kernel)
    (along_keeps "login" (by decide +kernel) twoAMinute) 59

/-- The last three of them are within a minute: the limit of a window is not one of the interval. -/
theorem twoAMinute_exceeds :
    ¬∀ (key : String) (limit window : ℤ) (calls : List Call), InOrder calls →
      Uniform key limit window calls → ∀ t : ℚ,
        ((grantTimes key calls).countP (inInterval (window : ℚ) t) : ℤ) ≤ limit := by
  intro h
  have hlimit := h "login" 2 60 twoAMinute (by decide +kernel) (by decide +kernel) 59
  have hcount : (grantTimes "login" twoAMinute).countP (inInterval ((60 : ℤ) : ℚ) 59) = 3 := by
    decide +kernel
  rw [hcount] at hlimit
  exact absurd hlimit (by decide)

end Rapidly.Core.RateLimit
