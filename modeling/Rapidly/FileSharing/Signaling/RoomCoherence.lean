import Rapidly.FileSharing.Signaling.Steps

/-!
# The host of a room

The host key of a room is meant to name the one peer that the room lists as its host. The script
of `register_peer` keeps it so: it admits a host only without a host key, and gives the key no
more time than the list. `remove_peer` takes several commands, though: it deletes the row first
and the key last, and by then the key may name another peer.

`coherent_iff_inSync`: the rooms are coherent throughout a run exactly if no row is deleted that
the host key names, and no host is admitted to a room that lists one.
-/

namespace Rapidly.FileSharing.Signaling

open KeyValue Payments Transition

/-- The host key names a peer that the room lists as host, and the room lists no other. -/
def Redis.Coherent (redis : Redis) (now : ℕ) (slug : Slug) : Prop :=
  (∀ host ∈ redis.hosts.get now slug, (host, Role.host) ∈ redis.peers.fields now slug) ∧
    ∀ p ∈ redis.peers.fields now slug, ∀ q ∈ redis.peers.fields now slug,
      p.2 = .host → q.2 = .host → p.1 = q.1

/-- The step leaves every room coherent. -/
def Coherent : System.Condition State Event := fun _ s l =>
  ∀ slug, (step s l).1.redis.Coherent (step s l).1.now slug

/-- No host comes into a room that lists one, and no row is deleted that the host key names. -/
def InSync : System.Condition State Event := fun _ s l =>
  match l with
  | .resumed i false =>
    match s.calls[i]? with
    | some (.registering slug .host) =>
      Admits s slug .host → ∀ p ∈ s.redis.peers.fields s.now slug, p.2 ≠ .host
    | some (.removing slug peer) => s.redis.hosts.get s.now slug ≠ some peer
    | _ => True
  | _ => True

/-! ### What keeps a room coherent -/

/-- A coherent room whose host key does not outlive the list, nor the time of a new list. -/
structure Redis.Kept (redis : Redis) (now : ℕ) (slug : Slug) : Prop where
  host : ∀ e ∈ redis.hosts.entryAt now slug,
    (e.value, Role.host) ∈ redis.peers.fields now slug
  single : ∀ p ∈ redis.peers.fields now slug, ∀ q ∈ redis.peers.fields now slug,
    p.2 = .host → q.2 = .host → p.1 = q.1
  outlives : redis.peers.Outlives slug redis.hosts slug now
  expires : redis.hosts.ExpiresWithin slug now roomTtl

section Kept

variable {s : State} {redis redis' : Redis} {now later : ℕ} {slug : Slug} {i : ℕ} {role : Role}

theorem Redis.Kept.coherent (h : redis.Kept now slug) : redis.Coherent now slug := by
  refine ⟨fun host hhost => ?_, h.single⟩
  obtain ⟨e, he, rfl⟩ := Store.get_eq_some.mp hhost
  exact h.host e he

theorem Redis.Kept.congr (h : redis.Kept now slug)
    (hpeers : redis'.peers.entryAt now slug = redis.peers.entryAt now slug)
    (hhosts : redis'.hosts.entryAt now slug = redis.hosts.entryAt now slug) :
    redis'.Kept now slug where
  host := by
    rw [hhosts, Store.fields_congr hpeers]
    exact h.host
  single := by
    rw [Store.fields_congr hpeers]
    exact h.single
  outlives := h.outlives.congr hpeers hhosts
  expires := by
    rw [Store.ExpiresWithin, hhosts]
    exact h.expires

theorem Redis.Kept.of_le (h : redis.Kept now slug) (hle : now ≤ later) :
    redis.Kept later slug where
  host e he := by
    rw [Option.mem_def, Store.entryAt_of_le hle] at he
    obtain ⟨he, hlive⟩ := Option.filter_eq_some_iff.mp he
    obtain ⟨listed, hlisted, hlonger⟩ := h.outlives e he
    have hlater : redis.peers.entryAt later slug = some listed := by
      rw [Store.entryAt_of_le hle, hlisted]
      exact Option.filter_eq_some_iff.mpr ⟨rfl, hlonger later hlive⟩
    rw [Store.fields_of_entryAt hlater, ← Store.fields_of_entryAt hlisted]
    exact h.host e he
  single p hp q hq :=
    h.single p (Store.mem_fields_of_le hle hp) q (Store.mem_fields_of_le hle hq)
  outlives := h.outlives.of_le hle
  expires := h.expires.of_le hle

theorem Redis.Kept.of_none
    (hsingle : ∀ p ∈ redis.peers.fields now slug, ∀ q ∈ redis.peers.fields now slug,
      p.2 = .host → q.2 = .host → p.1 = q.1)
    (hnone : redis.hosts.entryAt now slug = none) : redis.Kept now slug where
  host e he := absurd (hnone ▸ he) (Option.not_mem_none e)
  single := hsingle
  outlives := .of_none hnone
  expires e he := absurd (hnone ▸ he) (Option.not_mem_none e)

theorem mem_fields_admitPeer (hfresh : ∀ p ∈ s.redis.peers.fields s.now slug, p.1 ≠ i)
    {p : PeerId × Role} :
    p ∈ (s.redis.admitPeer s.now slug i role).peers.fields s.now slug ↔
      p ∈ s.redis.peers.fields s.now slug ∨ p = (i, role) := by
  rw [fields_admitPeer, List.mem_append, List.mem_filter, List.mem_singleton]
  refine or_congr_left (and_iff_left_of_imp fun hp => ?_)
  exact decide_eq_true (hfresh p hp)

theorem kept_admitHost (hfresh : ∀ p ∈ s.redis.peers.fields s.now slug, p.1 ≠ i)
    (hnone : ∀ p ∈ s.redis.peers.fields s.now slug, p.2 ≠ .host) :
    (s.redis.admitPeer s.now slug i .host).Kept s.now slug := by
  have hhosts : (s.redis.admitPeer s.now slug i .host).hosts.entryAt s.now slug =
      some ⟨i, some (s.now + 1000 * roomTtl)⟩ := Store.entryAt_setex_self roomTtl i
  refine ⟨fun e he => ?_, fun p hp q hq hp' hq' => ?_, ?_, Store.expiresWithin_setex roomTtl i⟩
  · obtain rfl := Option.some.inj (hhosts.symm.trans he)
    exact (mem_fields_admitPeer hfresh).mpr (.inr rfl)
  · rcases (mem_fields_admitPeer hfresh).mp hp with hp | rfl
    · exact absurd hp' (hnone p hp)
    · rcases (mem_fields_admitPeer hfresh).mp hq with hq | rfl
      · exact absurd hq' (hnone q hq)
      · rfl
  · exact .of_expiresWithin (Store.entryAt_hset_expire roomTtl)
      (Store.expiresWithin_setex roomTtl i)

theorem kept_admitGuest (hfresh : ∀ p ∈ s.redis.peers.fields s.now slug, p.1 ≠ i)
    (h : s.redis.Kept s.now slug) :
    (s.redis.admitPeer s.now slug i .guest).Kept s.now slug := by
  have hold : ∀ p ∈ (s.redis.admitPeer s.now slug i .guest).peers.fields s.now slug,
      p.2 = .host → p ∈ s.redis.peers.fields s.now slug := by
    intro p hp hhost
    rcases (mem_fields_admitPeer hfresh).mp hp with hp | rfl
    · exact hp
    · exact Role.noConfusion hhost
  refine ⟨fun e he => ?_, fun p hp q hq hp' hq' => ?_, ?_, h.expires⟩
  · exact (mem_fields_admitPeer hfresh).mpr (.inl (h.host e he))
  · exact h.single p (hold p hp hp') q (hold q hq hq') hp' hq'
  · exact .of_expiresWithin (Store.entryAt_hset_expire roomTtl) h.expires

theorem kept_deletePeer {peer : PeerId} (h : s.redis.Kept s.now slug)
    (hne : s.redis.hosts.get s.now slug ≠ some peer) :
    (s.redis.deletePeer s.now slug peer).Kept s.now slug := by
  have hfields : (s.redis.deletePeer s.now slug peer).peers.fields s.now slug =
      (s.redis.peers.fields s.now slug).filter (·.1 ≠ peer) := Store.fields_hdel
  have hleft : ∀ e ∈ s.redis.hosts.entryAt s.now slug,
      (e.value, Role.host) ∈ (s.redis.peers.fields s.now slug).filter (·.1 ≠ peer) := by
    intro e he
    refine List.mem_filter.mpr ⟨h.host e he, decide_eq_true fun heq => hne ?_⟩
    exact Store.get_eq_some.mpr ⟨e, he, heq⟩
  refine ⟨fun e he => hfields ▸ hleft e he, fun p hp q hq => ?_, fun e he => ?_, h.expires⟩
  · rw [hfields] at hp hq
    exact h.single p (List.mem_filter.mp hp).1 q (List.mem_filter.mp hq).1
  · -- the host is still listed, so the list is still there
    obtain ⟨listed, hlisted, hlonger⟩ := h.outlives e he
    have hmem := hleft e he
    rw [Store.fields_of_entryAt hlisted] at hmem
    refine ⟨{ listed with value := listed.value.filter (·.1 ≠ peer) }, ?_, hlonger⟩
    refine Store.entryAt_hdel_self.trans ?_
    rw [Option.mem_def.mp hlisted, Option.bind_some, if_neg]
    rw [List.isEmpty_iff]
    exact List.ne_nil_of_mem hmem

end Kept

/-! ### Steps -/

section Steps

variable {s : State} {i : ℕ} {failed : Bool} {slug : Slug} {call : Call} {redis' : Redis}

theorem advance_redis_of_failed : (advance s i true call).redis = s.redis := by
  cases call <;> rfl

theorem kept_effect (hrows : Rows s) (h : ∀ slug, s.redis.Kept s.now slug)
    (hsome : s.calls[i]? = some call) (hsync : InSync [] s (.resumed i false))
    (heffect : Effect s i call redis') : redis'.Kept s.now slug := by
  unfold InSync at hsync
  dsimp only at hsync
  rw [hsome] at hsync
  cases heffect with
  | idle => exact h slug
  | admitPeer slug' role hadmits =>
    by_cases hslug : slug = slug'
    · subst hslug
      cases role with
      | host => exact kept_admitHost (hrows.ne_of_registering hsome) (hsync hadmits)
      | guest => exact kept_admitGuest (hrows.ne_of_registering hsome) (h slug)
    · -- a room with another slug
      refine (h slug).congr (entryAt_peers_admitPeer_of_ne hslug) ?_
      rw [Redis.admitPeer]
      split
      · exact Store.entryAt_setex_of_ne hslug roomTtl i
      · rfl
  | deletePeer slug' peer =>
    by_cases hslug : slug = slug'
    · subst hslug
      exact kept_deletePeer (h slug) hsync
    · exact (h slug).congr (Store.entryAt_hdel_of_ne hslug) rfl
  | deleteHost slug' peer =>
    by_cases hslug : slug = slug'
    · subst hslug
      -- without a host key, there is nothing to agree with
      exact .of_none (h slug).single Store.entryAt_delete_self
    · exact (h slug).congr rfl (Store.entryAt_delete_of_ne hslug)
  | deleteRoom slug' =>
    by_cases hslug : slug = slug'
    · subst hslug
      have hgone : (s.redis.deleteRoom slug).peers.fields s.now slug = [] :=
        Store.fields_delete_self
      refine .of_none (fun p hp => ?_) Store.entryAt_delete_self
      rw [hgone] at hp
      exact absurd hp List.not_mem_nil
    · exact (h slug).congr (Store.entryAt_delete_of_ne hslug) (Store.entryAt_delete_of_ne hslug)

theorem kept_step (hrows : Rows s) (h : ∀ slug, s.redis.Kept s.now slug) {l : Event}
    {past : List Event} (hsync : InSync past s l) (slug : Slug) :
    (step s l).1.redis.Kept (step s l).1.now slug := by
  cases l with
  | elapsed duration => exact (h slug).of_le (Nat.le_add_right ..)
  | joined | closed => exact h slug
  | left peer =>
    obtain hstep | ⟨slug', -, -, hstep⟩ := step_left s peer
    · rw [hstep]
      exact h slug
    · rw [hstep]
      exact h slug
  | resumed i failed =>
    obtain hnone | ⟨call, hsome⟩ := Option.eq_none_or_eq_some s.calls[i]?
    · rw [step_resumed_of_none hnone]
      exact h slug
    · rw [step_resumed_of_some hsome]
      cases failed with
      | true =>
        rw [advance_redis_of_failed]
        exact h slug
      | false =>
        have hkept : (advance s i false call).redis.Kept s.now slug :=
          kept_effect hrows h hsome hsync effect_advance
        exact hkept

theorem inSync_of_coherent (hrows : Rows s) {l : Event} {past : List Event}
    (h : Coherent past s l) : InSync past s l := by
  unfold InSync
  split
  next i =>
    split
    next slug hsome =>
      intro hadmits p hp hhost
      have hfresh : ∀ p ∈ s.redis.peers.fields s.now slug, p.1 ≠ i :=
        hrows.ne_of_registering hsome
      have hcoherent := h slug
      rw [step_resumed_of_some hsome, advance_registering_of_admits hadmits] at hcoherent
      have hsame := hcoherent.2 p ((mem_fields_admitPeer hfresh).mpr (.inl hp)) (i, .host)
        ((mem_fields_admitPeer hfresh).mpr (.inr rfl)) hhost rfl
      exact hfresh p hp hsame
    next slug peer hsome =>
      intro hhost
      have hcoherent := h slug
      rw [step_resumed_of_some hsome] at hcoherent
      have hlisted : (peer, Role.host) ∈
          (s.redis.peers.fields s.now slug).filter (·.1 ≠ peer) := by
        rw [← Store.fields_hdel]
        exact hcoherent.1 peer hhost
      exact of_decide_eq_true (List.mem_filter.mp hlisted).2 rfl
    · trivial
  · trivial

end Steps

/-! ### Runs -/

section Runs

variable {ls : List Event}

/-- **Coherent rooms.** For any number of workers and peers, and any order of their commands, the
rooms are coherent after every step exactly if no row is deleted that the host key names, and no
host is admitted to a room that lists one. -/
theorem coherent_iff_inSync : signaling.Along Coherent ls ↔ signaling.Along InSync ls := by
  refine signaling.along_congr_of_invariant
    (fun _ s _ => Rows s ∧ ∀ slug, s.redis.Kept s.now slug) ?_ (fun past l h hsync => ?_)
    (fun past l h => ?_)
  · exact ⟨fun slug p hp => absurd hp List.not_mem_nil,
      fun slug => .of_none (fun p hp => absurd hp List.not_mem_nil) rfl⟩
  · exact ⟨rows_step h.1 l, kept_step h.1 h.2 hsync⟩
  · exact ⟨inSync_of_coherent h.1, fun hsync slug => (kept_step h.1 h.2 hsync slug).coherent⟩

/-- A host leaves, and its worker has read the host key when the room is closed. The key that it
deletes is the one of the host that has come into the room since, and another host is admitted
beside that one. -/
theorem host_admittedTwice : ¬∀ ls, signaling.Along Coherent ls := by
  intro h
  let run : List Event :=
    [.joined "abc" .host, .resumed 0 false, .resumed 0 false,
      .joined "abc" .guest, .resumed 1 false, .resumed 1 false,
      -- `HDEL` and `GET` of the removal of the host
      .left 0, .resumed 2 false, .resumed 2 false,
      -- `HKEYS`, `PUBLISH` and `DEL` of `close_room`
      .closed "abc", .resumed 3 false, .resumed 3 false, .resumed 3 false,
      .joined "abc" .host, .resumed 4 false, .resumed 4 false,
      -- `DEL` of the removal
      .resumed 2 false,
      .joined "abc" .host]
  obtain ⟨-, hlast⟩ := (System.along_snoc _).mp (h (run ++ [.resumed 5 false]))
  have hsame :=
    (hlast "abc").2 (4, .host) (by decide +kernel) (5, .host) (by decide +kernel) rfl rfl
  exact absurd hsame (by decide)

end Runs

end Rapidly.FileSharing.Signaling
