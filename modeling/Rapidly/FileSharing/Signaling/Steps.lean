import Rapidly.FileSharing.Signaling.RedisTransport

/-!
# What the steps of signaling can do

`Effect` lists what a command can do to the rooms, and `advance_registering` says when a peer is
admitted. `rows_after`: in every run, a peer that is listed in a room was admitted to this room by
the call of its number, so a peer that is still to be registered is listed nowhere.
-/

namespace Rapidly.FileSharing.Signaling

open KeyValue Payments Transition

section Advance

variable {s : State} {i : PeerId} {failed : Bool} {slug slug' : Slug} {role role' : Role}
  {peer : PeerId} {call : Call} {redis' : Redis}

/-- The script finds no other host, and room for the peer. -/
def Admits (s : State) (slug : Slug) (role : Role) : Prop :=
  (role = .host → s.redis.hosts.entryAt s.now slug = none) ∧
    s.redis.peers.hlen s.now slug < maxPeersPerRoom

theorem atomicRegisterPeer_of_admits (h : Admits s slug role) :
    s.redis.atomicRegisterPeer s.now slug i role = (.ok, s.redis.admitPeer s.now slug i role) := by
  rw [Redis.atomicRegisterPeer, if_neg, if_neg (Nat.not_le.mpr h.2)]
  rintro ⟨hrole, hsome⟩
  rw [h.1 hrole] at hsome
  exact Bool.false_ne_true hsome

theorem atomicRegisterPeer_of_not_admits (h : ¬Admits s slug role) :
    ∃ result ≠ .ok, s.redis.atomicRegisterPeer s.now slug i role = (result, s.redis) := by
  rw [Redis.atomicRegisterPeer]
  split
  · exact ⟨.hostTaken, RegisterResult.noConfusion, rfl⟩
  next htaken =>
    split
    · exact ⟨.roomFull, RegisterResult.noConfusion, rfl⟩
    next hfull =>
      refine absurd ⟨fun hrole => ?_, Nat.lt_of_not_le hfull⟩ h
      by_contra hsome
      exact htaken ⟨hrole, Option.isSome_iff_ne_none.mpr hsome⟩

theorem advance_registering_of_admits (h : Admits s slug role) :
    advance s i false (.registering slug role) =
      { redis := s.redis.admitPeer s.now slug i role, localWs := s.localWs.insert i
        subscribed := s.subscribed, call := .subscribing slug } := by
  dsimp only [advance]
  rw [if_neg Bool.false_ne_true, atomicRegisterPeer_of_admits h]

theorem advance_registering :
    (failed = false ∧ Admits s slug role ∧
      advance s i failed (.registering slug role) =
        { redis := s.redis.admitPeer s.now slug i role, localWs := s.localWs.insert i
          subscribed := s.subscribed, call := .subscribing slug }) ∨
      ∃ result, advance s i failed (.registering slug role) =
        s.goOn .finished [.registerResult result] := by
  cases failed with
  | true => exact .inr ⟨_, rfl⟩
  | false =>
    by_cases hadmits : Admits s slug role
    · exact .inl ⟨rfl, hadmits, advance_registering_of_admits hadmits⟩
    · obtain ⟨result, hne, hresult⟩ := @atomicRegisterPeer_of_not_admits s i slug role hadmits
      right
      dsimp only [advance]
      rw [if_neg Bool.false_ne_true, hresult]
      cases result with
      | ok => exact absurd rfl hne
      | _ => exact ⟨_, rfl⟩

/-- What a command can do to the rooms. -/
inductive Effect (s : State) (i : PeerId) : Call → Redis → Prop where
  | idle (call : Call) : Effect s i call s.redis
  | admitPeer (slug : Slug) (role : Role) (hadmits : Admits s slug role) :
    Effect s i (.registering slug role) (s.redis.admitPeer s.now slug i role)
  | deletePeer (slug : Slug) (peer : PeerId) :
    Effect s i (.removing slug peer) (s.redis.deletePeer s.now slug peer)
  | deleteHost (slug : Slug) (peer : PeerId) :
    Effect s i (.deletingHost slug peer) (s.redis.deleteHost slug)
  | deleteRoom (slug : Slug) : Effect s i (.deletingRoom slug) (s.redis.deleteRoom slug)

theorem effect_advance : Effect s i call (advance s i failed call).redis := by
  cases call with
  | registering slug role =>
    obtain ⟨-, hadmits, hadvance⟩ | ⟨result, hadvance⟩ :=
      @advance_registering s i failed slug role
    · rw [hadvance]
      exact .admitPeer slug role hadmits
    · rw [hadvance]
      exact .idle _
  | removing slug peer =>
    dsimp only [advance]
    split
    · exact .idle _
    · exact .deletePeer slug peer
  | deletingHost slug peer =>
    dsimp only [advance]
    split
    · exact .idle _
    · exact .deleteHost slug peer
  | deletingRoom slug =>
    dsimp only [advance]
    split
    · exact .idle _
    · exact .deleteRoom slug
  -- commands that only read
  | readingHost | readingPeers =>
    dsimp only [advance]
    repeat' split
    all_goals exact .idle _
  | _ => exact .idle _

theorem fields_admitPeer : (s.redis.admitPeer s.now slug i role).peers.fields s.now slug =
    (s.redis.peers.fields s.now slug).filter (·.1 ≠ i) ++ [(i, role)] :=
  Store.fields_of_entryAt (Store.entryAt_hset_expire roomTtl)

theorem entryAt_peers_admitPeer_of_ne (h : slug' ≠ slug) :
    (s.redis.admitPeer s.now slug i role).peers.entryAt s.now slug' =
      s.redis.peers.entryAt s.now slug' :=
  (Store.entryAt_expire_of_ne h roomTtl).trans (Store.entryAt_hset_of_ne h)

theorem mem_fields_effect (heffect : Effect s i call redis') {p : PeerId × Role}
    (h : p ∈ redis'.peers.fields s.now slug) :
    p ∈ s.redis.peers.fields s.now slug ∨
      ∃ role, call = .registering slug role ∧ p = (i, role) := by
  cases heffect with
  | idle | deleteHost => exact .inl h
  | admitPeer slug' role =>
    by_cases hslug : slug = slug'
    · subst hslug
      rw [fields_admitPeer] at h
      rcases List.mem_append.mp h with h | h
      · -- the new row replaces an older one of the peer
        exact .inl (List.mem_filter.mp h).1
      · exact .inr ⟨role, rfl, List.mem_singleton.mp h⟩
    · rw [Store.fields_congr (entryAt_peers_admitPeer_of_ne hslug)] at h
      exact .inl h
  | deletePeer slug' peer =>
    by_cases hslug : slug = slug'
    · subst hslug
      rw [Redis.deletePeer, Store.fields_hdel] at h
      exact .inl (List.mem_filter.mp h).1
    · rw [Redis.deletePeer, Store.fields_congr (Store.entryAt_hdel_of_ne hslug)] at h
      exact .inl h
  | deleteRoom slug' =>
    by_cases hslug : slug = slug'
    · subst hslug
      have hgone : (s.redis.deleteRoom slug).peers.fields s.now slug = [] :=
        Store.fields_delete_self
      rw [hgone] at h
      exact absurd h List.not_mem_nil
    · rw [Redis.deleteRoom, Store.fields_delete_of_ne hslug] at h
      exact .inl h

end Advance

/-! ### Steps -/

section Steps

variable {s : State} {i j : ℕ} {failed : Bool} {slug : Slug} {call : Call}

theorem step_resumed_of_none (h : s.calls[i]? = none) : step s (.resumed i failed) = (s, []) := by
  dsimp only [step]
  rw [h]

theorem step_resumed_of_some (h : s.calls[i]? = some call) :
    step s (.resumed i failed) =
      ({ s with
          redis := (advance s i failed call).redis
          localWs := (advance s i failed call).localWs
          subscribed := (advance s i failed call).subscribed
          calls := s.calls.set i (advance s i failed call).call },
        (advance s i failed call).outputs) := by
  dsimp only [step]
  rw [h]

theorem step_left (s : State) (peer : PeerId) :
    step s (.left peer) = (s, []) ∨
      ∃ slug, s.calls[peer]? = some (.registered slug) ∧ peer ∈ s.localWs ∧
        step s (.left peer) =
          ({ s with
              localWs := s.localWs.filter (· ≠ peer)
              calls := s.calls ++ [.removing slug peer] }, []) := by
  dsimp only [step]
  split
  next slug hsome =>
    split
    next hlocal => exact .inr ⟨slug, hsome, hlocal, rfl⟩
    · exact .inl rfl
  · exact .inl rfl

theorem getElem?_set_cases {next call' : Call} (hsome : s.calls[i]? = some call)
    (h : (s.calls.set i next)[j]? = some call') :
    j = i ∧ call' = next ∨ j ≠ i ∧ s.calls[j]? = some call' := by
  by_cases hji : j = i
  · rw [hji, List.getElem?_set_self (List.getElem?_eq_some_iff.mp hsome).1] at h
    exact .inl ⟨hji, (Option.some.inj h).symm⟩
  · rw [List.getElem?_set_ne (Ne.symm hji)] at h
    exact .inr ⟨hji, h⟩

end Steps

/-! ### Rows and calls -/

/-- The call has been admitted to the room. -/
def Call.Admitted (slug : Slug) (call : Call) : Prop :=
  call = .subscribing slug ∨ call = .registered slug

/-- Who is listed in a room was admitted to it. -/
def Rows (s : State) : Prop :=
  ∀ slug, ∀ p ∈ s.redis.peers.fields s.now slug, ∃ call ∈ s.calls[p.1]?, call.Admitted slug

section Rows

variable {s : State} {i : PeerId} {failed : Bool} {slug : Slug} {role : Role} {call : Call}

theorem admitted_advance (h : call.Admitted slug) :
    (advance s i failed call).call.Admitted slug := by
  rcases h with rfl | rfl
  · exact .inr rfl
  · exact .inr rfl

theorem Rows.ne_of_registering (h : Rows s) {slug' : Slug}
    (hsome : s.calls[i]? = some (.registering slug' role)) :
    ∀ p ∈ s.redis.peers.fields s.now slug, p.1 ≠ i := by
  rintro p hp rfl
  obtain ⟨call, hcall, hadmitted⟩ := h slug p hp
  obtain rfl := Option.some.inj (hsome.symm.trans hcall)
  rcases hadmitted with h | h <;> exact Call.noConfusion h

theorem rows_step (h : Rows s) (l : Event) : Rows (step s l).1 := by
  intro slug p hp
  cases l with
  | elapsed duration => exact h slug p (Store.mem_fields_of_le (Nat.le_add_right ..) hp)
  | joined | closed =>
    obtain ⟨call, hcall, hadmitted⟩ := h slug p hp
    exact ⟨call, getElem?_append_of_some hcall _, hadmitted⟩
  | left peer =>
    obtain hstep | ⟨slug', -, -, hstep⟩ := step_left s peer
    · rw [hstep] at hp ⊢
      exact h slug p hp
    · rw [hstep] at hp ⊢
      obtain ⟨call, hcall, hadmitted⟩ := h slug p hp
      exact ⟨call, getElem?_append_of_some hcall _, hadmitted⟩
  | resumed i failed =>
    obtain hnone | ⟨call, hsome⟩ := Option.eq_none_or_eq_some s.calls[i]?
    · rw [step_resumed_of_none hnone] at hp ⊢
      exact h slug p hp
    · rw [step_resumed_of_some hsome] at hp ⊢
      have hself : (s.calls.set i (advance s i failed call).call)[i]? =
          some (advance s i failed call).call :=
        List.getElem?_set_self (List.getElem?_eq_some_iff.mp hsome).1
      rcases mem_fields_effect effect_advance hp with hold | ⟨role, rfl, rfl⟩
      · -- an earlier row, perhaps that of the call itself
        obtain ⟨call', hcall', hadmitted⟩ := h slug p hold
        by_cases hpi : p.1 = i
        · rw [hpi, hsome] at hcall'
          obtain rfl := Option.some.inj hcall'
          refine ⟨(advance s i failed call).call, ?_, admitted_advance hadmitted⟩
          rw [hpi]
          exact hself
        · exact ⟨call', (List.getElem?_set_ne (Ne.symm hpi)).trans hcall', hadmitted⟩
      · obtain ⟨-, -, hadvance⟩ | ⟨result, hadvance⟩ := @advance_registering s i failed slug role
        · rw [hadvance] at hself ⊢
          exact ⟨_, hself, .inl rfl⟩
        · -- nothing was written
          rw [hadvance] at hp
          exact absurd rfl (h.ne_of_registering hsome _ hp)

end Rows

end Rapidly.FileSharing.Signaling
