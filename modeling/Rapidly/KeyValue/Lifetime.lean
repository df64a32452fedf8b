import Rapidly.KeyValue.Store

/-!
# How long keys live

What a command does to the key it names, and to every other key, read through `entryAt`: the
entry of a key at the time of the command, expired entries left out.

`Outlives s k s' k' now` says that the key `k` of `s` is there for at least as long as the key
`k'` of `s'`, whatever happens to the clock. It is kept by the clock, and by commands that set
the expiry of both keys or extend that of `k`; that is how a key that guards another one is
shown never to be missing.
-/

namespace KeyValue

universe u v w

namespace Entry

variable {V : Type v} {e : Entry V} {now later : ℕ}

theorem liveAt_of_le (h : e.liveAt later) (hle : now ≤ later) : e.liveAt now := by
  rcases e with ⟨value, _ | expiry⟩
  · rfl
  · have hexpiry : later ≤ expiry := of_decide_eq_true h
    exact decide_eq_true (hle.trans hexpiry)

/-- An entry that was just given some time to live is alive. -/
theorem liveAt_add (value : V) (seconds : ℕ) :
    (⟨value, some (now + 1000 * seconds)⟩ : Entry V).liveAt now :=
  decide_eq_true (Nat.le_add_right ..)

end Entry

namespace Store

variable {K : Type u} {V : Type v} {K' : Type u} {V' : Type w}

/-! ### What the commands do to entries -/

section Entries

variable {s : Store K V} {now later : ℕ} {k k' : K}

theorem get_eq_some {v : V} :
    s.get now k = some v ↔ ∃ e, s.entryAt now k = some e ∧ e.value = v := Option.map_eq_some_iff

theorem liveAt_of_entryAt {e : Entry V} (h : s.entryAt now k = some e) : e.liveAt now :=
  (Option.filter_eq_some_iff.mp h).2

theorem entryAt_of_le (h : now ≤ later) :
    s.entryAt later k = (s.entryAt now k).filter (·.liveAt later) := by
  unfold entryAt
  rw [Option.filter_filter]
  congr 1
  funext e
  by_cases hlater : e.liveAt later
  · rw [hlater, Entry.liveAt_of_le hlater h]
    rfl
  · rw [Bool.eq_false_of_not_eq_true hlater, Bool.and_false]

/-- Nothing is found under a key that the store does not use. -/
theorem Forall.entryAt_eq_none {P : K → Prop} (h : Forall (fun k _ => P k) s) (hk : ¬P k) :
    s.entryAt now k = none := by
  by_contra hne
  obtain ⟨e, he⟩ := Option.ne_none_iff_exists'.mp hne
  exact hk (h k e (entryAt_eq_some he))

variable [DecidableEq K]

theorem entryAt_put_self (e : Option (Entry V)) :
    (s.put k e).entryAt now k = e.filter (·.liveAt now) := by
  rw [entryAt, put_self]

theorem entryAt_put_of_ne (h : k' ≠ k) (e : Option (Entry V)) :
    (s.put k e).entryAt now k' = s.entryAt now k' := by
  rw [entryAt, put_of_ne h, entryAt]

@[simp] theorem entryAt_delete_self : (s.delete k).entryAt now k = none :=
  entryAt_put_self none

theorem entryAt_delete_of_ne (h : k' ≠ k) : (s.delete k).entryAt now k' = s.entryAt now k' :=
  entryAt_put_of_ne h none

theorem entryAt_delete_eq_none (h : s.entryAt now k' = none) :
    (s.delete k).entryAt now k' = none := by
  by_cases hk : k' = k
  · rw [hk, entryAt_delete_self]
  · rw [entryAt_delete_of_ne hk, h]

@[simp] theorem entryAt_setex_self (seconds : ℕ) (v : V) :
    (s.setex now k seconds v).entryAt now k = some ⟨v, some (now + 1000 * seconds)⟩ := by
  rw [setex, entryAt_put_self, Option.filter_some, if_pos (Entry.liveAt_add v seconds)]

theorem entryAt_setex_of_ne (h : k' ≠ k) (seconds : ℕ) (v : V) :
    (s.setex now k seconds v).entryAt now k' = s.entryAt now k' :=
  entryAt_put_of_ne h _

@[simp] theorem entryAt_expire_self (seconds : ℕ) :
    (s.expire now k seconds).entryAt now k =
      (s.entryAt now k).map fun e => { e with expiresAt := some (now + 1000 * seconds) } := by
  unfold expire
  obtain h | ⟨e, h⟩ := Option.eq_none_or_eq_some (s.entryAt now k)
  · rw [h]
    exact h
  · rw [h]
    rw [entryAt_put_self, Option.filter_some, if_pos (Entry.liveAt_add e.value seconds)]
    rfl

theorem expire_of_entryAt_eq_none (h : s.entryAt now k = none) (seconds : ℕ) :
    s.expire now k seconds = s := by
  rw [expire, h]

theorem value_of_entryAt_expire {seconds : ℕ} {e : Entry V}
    (h : (s.expire now k seconds).entryAt now k = some e) :
    ∃ old, s.entryAt now k = some old ∧ old.value = e.value := by
  rw [entryAt_expire_self] at h
  obtain ⟨old, hold, rfl⟩ := Option.map_eq_some_iff.mp h
  exact ⟨old, hold, rfl⟩

theorem get_expire_self (seconds : ℕ) : (s.expire now k seconds).get now k = s.get now k := by
  rw [get, get, entryAt_expire_self, Option.map_map]
  rfl

theorem entryAt_expire_of_ne (h : k' ≠ k) (seconds : ℕ) :
    (s.expire now k seconds).entryAt now k' = s.entryAt now k' := by
  unfold expire
  split
  · rfl
  · exact entryAt_put_of_ne h _

/-- Two keys that are alike stay so when both are given the same time to live. -/
theorem entry_expire_twins (hne : k' ≠ k) (h : s.entry k' = s.entry k) (seconds : ℕ) :
    ((s.expire now k seconds).expire now k' seconds).entry k' =
      ((s.expire now k seconds).expire now k' seconds).entry k := by
  have halike : s.entryAt now k' = s.entryAt now k := by rw [entryAt, h, entryAt]
  obtain hnone | ⟨e, he⟩ := Option.eq_none_or_eq_some (s.entryAt now k)
  · rw [expire_of_entryAt_eq_none hnone, expire, halike, hnone]
    exact h
  · have hexpire : s.expire now k seconds =
        s.put k (some { e with expiresAt := some (now + 1000 * seconds) }) := by rw [expire, he]
    rw [hexpire, expire, entryAt_put_of_ne hne, halike, he]
    rw [put_self, put_of_ne hne.symm, put_self]

end Entries

/-! ### Counters -/

section Counters

variable [DecidableEq K]

/-- `INCR`: a missing counter starts at `1` and does not expire; another keeps its expiry. -/
def incr (s : Store K ℕ) (now : ℕ) (k : K) : ℕ × Store K ℕ :=
  match s.entryAt now k with
  | none => (1, s.put k (some ⟨1, none⟩))
  | some e => (e.value + 1, s.put k (some { e with value := e.value + 1 }))

variable {s : Store K ℕ} {now : ℕ} {k k' : K}

theorem incr_fst : (s.incr now k).1 = (s.get now k).getD 0 + 1 := by
  unfold incr get
  split
  next h => rw [h]; rfl
  next e h => rw [h]; rfl

theorem entryAt_incr_of_none (h : s.entryAt now k = none) :
    (s.incr now k).2.entryAt now k = some ⟨1, none⟩ := by
  unfold incr
  rw [h]
  exact entryAt_put_self _

theorem entryAt_incr_of_some {e : Entry ℕ} (h : s.entryAt now k = some e) :
    (s.incr now k).2.entryAt now k = some { e with value := e.value + 1 } := by
  unfold incr
  rw [h]
  rw [entryAt_put_self, Option.filter_some]
  exact if_pos (liveAt_of_entryAt h)

theorem value_of_entryAt_incr {e : Entry ℕ} (h : (s.incr now k).2.entryAt now k = some e) :
    e.value = (s.incr now k).1 := by
  obtain hnone | ⟨old, hold⟩ := Option.eq_none_or_eq_some (s.entryAt now k)
  · rw [entryAt_incr_of_none hnone] at h
    rw [← Option.some.inj h, incr, hnone]
  · rw [entryAt_incr_of_some hold] at h
    rw [← Option.some.inj h, incr, hold]

theorem get_incr_snd : (s.incr now k).2.get now k = some (s.incr now k).1 := by
  obtain hnone | ⟨e, he⟩ := Option.eq_none_or_eq_some (s.entryAt now k)
  · rw [Store.get, entryAt_incr_of_none hnone, incr, hnone]
    rfl
  · rw [Store.get, entryAt_incr_of_some he, incr, he]
    rfl

theorem Forall.incr {P : K → ℕ → Prop} (h : Forall P s) (hk : ∀ n, P k n) :
    Forall P (s.incr now k).2 := by
  unfold Store.incr
  split
  · exact h.put_some (hk 1)
  next e _ => exact h.put_some (hk (e.value + 1))

end Counters

/-! ### Sets -/

section Sets

variable {M : Type v} [DecidableEq K] [DecidableEq M] {s : Store K (List M)} {now : ℕ} {k k' : K}

/-- A set contains what was added to it, and what it contained before. -/
theorem entryAt_sadd_self (m : M) : ∃ e, (s.sadd now k m).entryAt now k = some e ∧ m ∈ e.value ∧
    ∀ old ∈ s.entryAt now k, old.value ⊆ e.value := by
  unfold sadd
  obtain h | ⟨old, h⟩ := Option.eq_none_or_eq_some (s.entryAt now k)
  · rw [h]
    exact ⟨⟨[m], none⟩, entryAt_put_self _, List.mem_singleton_self m,
      fun old hold => absurd hold (Option.not_mem_none old)⟩
  · rw [h]
    refine ⟨{ old with value := old.value.insert m }, ?_, List.mem_insert_self, ?_⟩
    · dsimp only
      rw [entryAt_put_self, Option.filter_some]
      exact if_pos (liveAt_of_entryAt h)
    · intro old' hold'
      obtain rfl := Option.some.inj hold'
      exact fun m' hm' => List.mem_insert_of_mem hm'

omit [DecidableEq K] in
theorem sismember_iff {m : M} :
    s.sismember now k m = true ↔ ∃ e, s.entryAt now k = some e ∧ m ∈ e.value := by
  rw [sismember, Store.get]
  obtain h | ⟨e, h⟩ := Option.eq_none_or_eq_some (s.entryAt now k)
  · simp [h]
  · simp [h]

theorem sismember_sadd_iff {m m' : M} :
    (s.sadd now k m).sismember now k m' = true ↔ m' = m ∨ s.sismember now k m' = true := by
  rw [sismember_iff, sismember_iff, sadd]
  obtain h | ⟨e, h⟩ := Option.eq_none_or_eq_some (s.entryAt now k)
  · rw [h]
    simp [entryAt_put_self, Entry.liveAt]
  · rw [h]
    have hlive : Entry.liveAt { e with value := e.value.insert m } now =
      e.liveAt now := rfl
    rw [entryAt_put_self, Option.filter_some, hlive, if_pos (liveAt_of_entryAt h)]
    simp

theorem sismember_expire_iff {seconds : ℕ} {m : M} :
    (s.expire now k seconds).sismember now k m = true ↔ s.sismember now k m = true := by
  rw [sismember_iff, sismember_iff, entryAt_expire_self]
  obtain h | ⟨e, h⟩ := Option.eq_none_or_eq_some (s.entryAt now k)
  · simp [h]
  · simp [h]

theorem Forall.sadd_key {P : K → Prop} (h : Forall (fun k _ => P k) s) (hk : P k) (m : M) :
    Forall (fun k _ => P k) (s.sadd now k m) := by
  unfold Store.sadd
  split
  · exact h.put_some hk
  · exact h.put_some hk

end Sets

/-! ### One key outlives another -/

section Outlives

variable {s t : Store K V} {s' t' : Store K' V'} {k : K} {k' : K'} {now later : ℕ}

/-- The key `k` of `s` is there as long as the key `k'` of `s'` is, now and later. -/
def Outlives (s : Store K V) (k : K) (s' : Store K' V') (k' : K') (now : ℕ) : Prop :=
  ∀ e' ∈ s'.entryAt now k', ∃ e ∈ s.entryAt now k, ∀ time, e'.liveAt time → e.liveAt time

theorem Outlives.of_none (h : s'.entryAt now k' = none) : Outlives s k s' k' now := by
  intro e' he'
  rw [h] at he'
  exact absurd he' (Option.not_mem_none e')

theorem outlives_congr (hk : t.entryAt now k = s.entryAt now k)
    (hk' : t'.entryAt now k' = s'.entryAt now k') :
    Outlives t k t' k' now ↔ Outlives s k s' k' now := by
  unfold Outlives
  rw [hk, hk']

theorem Outlives.congr (h : Outlives s k s' k' now) (hk : t.entryAt now k = s.entryAt now k)
    (hk' : t'.entryAt now k' = s'.entryAt now k') : Outlives t k t' k' now :=
  (outlives_congr hk hk').mpr h

theorem Outlives.isSome (h : Outlives s k s' k' now) (hk' : (s'.entryAt now k').isSome) :
    (s.entryAt now k).isSome := by
  obtain ⟨e', he'⟩ := Option.isSome_iff_exists.mp hk'
  obtain ⟨e, he, -⟩ := h e' he'
  rw [he]
  rfl

theorem Outlives.of_le (h : Outlives s k s' k' now) (hle : now ≤ later) :
    Outlives s k s' k' later := by
  intro e' he'
  rw [entryAt_of_le hle] at he'
  obtain ⟨he', hlive⟩ := Option.filter_eq_some_iff.mp he'
  obtain ⟨e, he, hlonger⟩ := h e' he'
  refine ⟨e, ?_, hlonger⟩
  rw [entryAt_of_le hle, he]
  exact Option.filter_eq_some_iff.mpr ⟨rfl, hlonger later hlive⟩

/-- The key `k'` expires within some seconds, if it is there. -/
def ExpiresWithin (s' : Store K' V') (k' : K') (now seconds : ℕ) : Prop :=
  ∀ e' ∈ s'.entryAt now k', ∃ expiry ∈ e'.expiresAt, expiry ≤ now + 1000 * seconds

instance expiresWithinDecidable (seconds : ℕ) : Decidable (ExpiresWithin s' k' now seconds) :=
  inferInstanceAs (Decidable (∀ e' ∈ s'.entryAt now k', _))

theorem ExpiresWithin.of_le {seconds : ℕ} (h : ExpiresWithin s' k' now seconds)
    (hle : now ≤ later) : ExpiresWithin s' k' later seconds := by
  intro e' he'
  rw [entryAt_of_le hle] at he'
  obtain ⟨expiry, hexpiry, hwithin⟩ := h e' (Option.filter_eq_some_iff.mp he').1
  exact ⟨expiry, hexpiry, by omega⟩

/-- The key `k` is given at least the time that `k'` has left. -/
theorem Outlives.of_expiresWithin {seconds : ℕ} {v : V}
    (hk : s.entryAt now k = some ⟨v, some (now + 1000 * seconds)⟩)
    (hk' : ExpiresWithin s' k' now seconds) : Outlives s k s' k' now := by
  intro e' he'
  obtain ⟨expiry, hexpiry, hle⟩ := hk' e' he'
  refine ⟨_, hk, fun time hlive => ?_⟩
  rw [Entry.liveAt, Option.mem_def.mp hexpiry] at hlive
  have htime : time ≤ expiry := of_decide_eq_true hlive
  exact decide_eq_true (htime.trans hle)

/-- The key `k` lasts for some seconds, if it is there. -/
def LastsFor (s : Store K V) (k : K) (now seconds : ℕ) : Prop :=
  ∀ e ∈ s.entryAt now k, ∀ expiry ∈ e.expiresAt, now + 1000 * seconds ≤ expiry

instance lastsForDecidable (seconds : ℕ) : Decidable (LastsFor s k now seconds) :=
  inferInstanceAs (Decidable (∀ e ∈ s.entryAt now k, _))

theorem Outlives.incr [DecidableEq K] {s : Store K ℕ} (h : Outlives s k s' k' now) :
    Outlives (s.incr now k).2 k s' k' now := by
  intro e' he'
  obtain ⟨e, he, hlonger⟩ := h e' he'
  exact ⟨_, entryAt_incr_of_some he, hlonger⟩

variable [DecidableEq K']

theorem expiresWithin_setex (seconds : ℕ) (v : V') :
    ExpiresWithin (s'.setex now k' seconds v) k' now seconds := by
  intro e' he'
  rw [entryAt_setex_self] at he'
  obtain rfl := Option.some.inj he'
  exact ⟨_, rfl, le_rfl⟩

/-- A key that was given some time to live expires within it. -/
theorem expiresWithin_expire (seconds : ℕ) :
    ExpiresWithin (s'.expire now k' seconds) k' now seconds := by
  intro e' he'
  rw [entryAt_expire_self] at he'
  obtain ⟨e, -, rfl⟩ := Option.map_eq_some_iff.mp he'
  exact ⟨_, rfl, le_rfl⟩

/-- The key `k'` is given some time to live, and `k` lasts as long. -/
theorem Outlives.expire_right (h : Outlives s k s' k' now) {seconds : ℕ}
    (hk : LastsFor s k now seconds) : Outlives s k (s'.expire now k' seconds) k' now := by
  intro e' he'
  rw [entryAt_expire_self] at he'
  obtain ⟨old, hold, rfl⟩ := Option.map_eq_some_iff.mp he'
  obtain ⟨e, he, -⟩ := h old hold
  refine ⟨e, he, fun time hlive => ?_⟩
  have htime : time ≤ now + 1000 * seconds := of_decide_eq_true hlive
  rcases e with ⟨value, _ | expiry⟩
  · rfl
  · exact decide_eq_true (htime.trans (hk _ he expiry rfl))

variable [DecidableEq K]

theorem Outlives.expire (h : Outlives s k s' k' now) (seconds : ℕ) :
    Outlives (s.expire now k seconds) k (s'.expire now k' seconds) k' now := by
  obtain hnone | ⟨e', he'⟩ := Option.eq_none_or_eq_some (s'.entryAt now k')
  · refine .of_none ?_
    rw [entryAt_expire_self, hnone]
    rfl
  · obtain ⟨e, he, -⟩ := h e' he'
    have hentry : (s.expire now k seconds).entryAt now k =
        some ⟨e.value, some (now + 1000 * seconds)⟩ := by
      rw [entryAt_expire_self, Option.mem_def.mp he]
      rfl
    exact .of_expiresWithin hentry (expiresWithin_expire seconds)

/-- A new time to live leaves a key at least as long as before exactly if it would have expired
within it. -/
theorem outlives_expire_iff (seconds : ℕ) :
    Outlives (s.expire now k seconds) k s k now ↔ ExpiresWithin s k now seconds := by
  constructor
  · intro h e he
    obtain ⟨new, hnew, hlonger⟩ := h e he
    rw [entryAt_expire_self, Option.mem_def.mp he] at hnew
    obtain rfl := Option.some.inj hnew
    rcases e with ⟨value, _ | expiry⟩
    · -- it would have lasted for ever
      have hlast := hlonger (now + 1000 * seconds + 1) rfl
      exact absurd (of_decide_eq_true hlast) (Nat.not_succ_le_self _)
    · exact ⟨expiry, rfl, of_decide_eq_true (hlonger expiry (decide_eq_true le_rfl))⟩
  · intro h
    obtain hnone | ⟨e, he⟩ := Option.eq_none_or_eq_some (s.entryAt now k)
    · exact .of_none hnone
    · have hentry : (s.expire now k seconds).entryAt now k =
          some ⟨e.value, some (now + 1000 * seconds)⟩ := by
        rw [entryAt_expire_self, he]
        rfl
      exact .of_expiresWithin hentry h

end Outlives

end Store

end KeyValue
