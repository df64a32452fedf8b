import Rapidly.FileSharing.Signaling.Steps

/-!
# Closing a room

`SignalingManager` keeps the rooms of one worker in memory, and its `close_room` takes a room out
and closes the peers in it at once. `RedisRoomTransport` reads who is there, publishes to each of
them and deletes the room.

`State.manager` is the `SignalingManager` that the keys and sockets of all workers amount to: a
peer is in a room if it is listed there, has been registered and has its socket. The deletion does
to it what `close_room` of `SignalingManager` does (`manager_deleteRoom`). The peers that this
takes out have been sent a close if nobody comes into the room behind the back of the calls that
are closing it, and each message to a peer of the room reaches its worker
(`refinesCloseRoom_of_noneMissed`).
-/

namespace Rapidly.FileSharing.Signaling

open KeyValue Payments Transition

/-- `SignalingManager`, as far as `close_room` reads it: the peers of each room. -/
@[ext]
structure SignalingManager where
  rooms : Slug → Option (List PeerId)

/-- `SignalingManager.close_room`: what is left, the result, and the peers that are closed. -/
def SignalingManager.closeRoom (manager : SignalingManager) (slug : Slug) :
    SignalingManager × Bool × List PeerId :=
  match manager.rooms slug with
  | none => (manager, false, [])
  | some peers => (⟨Function.update manager.rooms slug none⟩, true, peers)

/-- The peers of a room: listed, registered and connected. -/
def State.peersOf (s : State) (slug : Slug) : List PeerId :=
  (s.redis.peers.hkeys s.now slug).filter fun peer =>
    s.calls[peer]? = some (.registered slug) ∧ peer ∈ s.localWs

/-- The rooms that have peers. -/
def State.manager (s : State) : SignalingManager where
  rooms slug := if (s.peersOf slug).isEmpty then none else some (s.peersOf slug)

/-- When a room is deleted, the peers that `SignalingManager` would close have been sent a close,
and the rooms are as it would leave them. -/
def RefinesCloseRoom : System.Condition State Event := fun past s l =>
  match l with
  | .resumed i false =>
    match s.calls[i]? with
    | some (.deletingRoom slug) =>
      (step s l).1.manager = (s.manager.closeRoom slug).1 ∧
        ∀ peer ∈ (s.manager.closeRoom slug).2.2, .closeSent peer ∈ signaling.log past
    | _ => True
  | _ => True

/-- The peers that a call which closes the room still has to publish to. -/
def Call.toClose (slug : Slug) : Call → Option (List PeerId)
  | .publishing slug' peer rest => if slug' = slug then some (peer :: rest) else none
  | .deletingRoom slug' => if slug' = slug then some [] else none
  | _ => none

/-- A peer whose registration completes is still to be published to by every call that is closing
its room, and a message to a peer of the room is published while the worker of the peer is
subscribed. -/
def NoneMissed : System.Condition State Event := fun _ s l =>
  match l with
  | .resumed i failed =>
    match s.calls[i]? with
    | some (.subscribing slug) =>
      i ∈ s.redis.peers.hkeys s.now slug →
        ∀ call ∈ s.calls, ∀ remaining ∈ call.toClose slug, i ∈ remaining
    | some (.publishing slug peer _) =>
      s.calls[peer]? = some (.registered slug) → peer ∈ s.localWs →
        failed = false ∧ peer ∈ s.subscribed
    | _ => True
  | _ => True

instance : ∀ past s l, Decidable (NoneMissed past s l) := fun _ s l => by
  cases l with
  | resumed i failed =>
    dsimp only [NoneMissed]
    split <;> infer_instance
  | _ =>
    dsimp only [NoneMissed]
    infer_instance

/-! ### The peers of a room -/

section PeersOf

variable {s : State} {i : ℕ} {failed : Bool} {slug slug' : Slug} {peer : PeerId} {call : Call}

theorem mem_peersOf : peer ∈ s.peersOf slug ↔ peer ∈ s.redis.peers.hkeys s.now slug ∧
    s.calls[peer]? = some (.registered slug) ∧ peer ∈ s.localWs := by
  rw [State.peersOf, List.mem_filter, decide_eq_true_iff]

theorem closed_eq_peersOf : (s.manager.closeRoom slug).2.2 = s.peersOf slug := by
  rw [SignalingManager.closeRoom, State.manager]
  dsimp only
  by_cases hempty : (s.peersOf slug).isEmpty
  · rw [if_pos hempty, List.isEmpty_iff.mp hempty]
  · rw [if_neg hempty]

theorem closeRoom_rooms : (s.manager.closeRoom slug).1.rooms =
    Function.update s.manager.rooms slug none := by
  rw [SignalingManager.closeRoom]
  split
  next hnone => rw [← hnone, Function.update_eq_self]
  · rfl

theorem registered_set_iff {next : Call} (hsome : s.calls[i]? = some call)
    (hcall : call ≠ .registered slug) (hnext : next ≠ .registered slug) :
    (s.calls.set i next)[peer]? = some (.registered slug) ↔
      s.calls[peer]? = some (.registered slug) := by
  by_cases hpeer : peer = i
  · rw [hpeer, List.getElem?_set_self (List.getElem?_eq_some_iff.mp hsome).1, hsome]
    exact iff_of_false (fun h => hnext (Option.some.inj h)) fun h => hcall (Option.some.inj h)
  · rw [List.getElem?_set_ne (Ne.symm hpeer)]

theorem peersOf_deleteRoom (hsome : s.calls[i]? = some (.deletingRoom slug)) :
    (step s (.resumed i false)).1.peersOf slug' = if slug' = slug then [] else s.peersOf slug' := by
  have hkeys : (s.redis.deleteRoom slug).peers.hkeys s.now slug' =
      if slug' = slug then [] else s.redis.peers.hkeys s.now slug' := by
    unfold Store.hkeys Redis.deleteRoom
    split
    next hslug => rw [hslug, Store.fields_delete_self, List.map_nil]
    next hslug => rw [Store.fields_delete_of_ne hslug]
  rw [step_resumed_of_some hsome]
  rw [State.peersOf]
  change ((s.redis.deleteRoom slug).peers.hkeys s.now slug').filter _ = _
  rw [hkeys]
  split
  · rfl
  · refine List.filter_congr fun peer _ => decide_eq_decide.mpr (and_congr_left fun _ => ?_)
    exact registered_set_iff hsome Call.noConfusion Call.noConfusion

/-- **The deletion of a room** is `close_room` of `SignalingManager`. -/
theorem manager_deleteRoom (hsome : s.calls[i]? = some (.deletingRoom slug)) :
    (step s (.resumed i false)).1.manager = (s.manager.closeRoom slug).1 := by
  ext1
  rw [closeRoom_rooms]
  funext slug'
  unfold State.manager
  dsimp only
  rw [peersOf_deleteRoom hsome]
  by_cases hslug : slug' = slug
  · rw [if_pos hslug, hslug, Function.update_self]
    rfl
  · rw [if_neg hslug, Function.update_of_ne hslug]

theorem mem_localWs_advance (h : peer ∈ (advance s i failed call).localWs) :
    peer ∈ s.localWs ∨ peer = i := by
  cases call with
  | registering slug role =>
    obtain ⟨-, -, hadvance⟩ | ⟨result, hadvance⟩ := @advance_registering s i failed slug role
    · rw [hadvance] at h
      exact (List.mem_insert_iff.mp h).symm
    · rw [hadvance] at h
      exact .inl h
  | removing | readingHost | readingPeers =>
    dsimp only [advance] at h
    left
    repeat' split at h
    all_goals exact h
  | _ => exact .inl h

theorem registered_of_advance (h : (advance s i failed call).call = .registered slug) :
    call = .subscribing slug ∨ call = .registered slug := by
  cases call with
  | subscribing slug' =>
    obtain rfl := Call.registered.inj h
    exact .inl rfl
  | registered slug' =>
    obtain rfl := Call.registered.inj h
    exact .inr rfl
  | registering slug' role =>
    obtain ⟨-, -, hadvance⟩ | ⟨result, hadvance⟩ := @advance_registering s i failed slug' role
    · rw [hadvance] at h
      exact Call.noConfusion h
    · rw [hadvance] at h
      exact Call.noConfusion h
  | publishing slug' peer rest => cases rest <;> exact Call.noConfusion h
  | removing | readingHost | readingPeers =>
    dsimp only [advance] at h
    repeat' split at h
    all_goals exact Call.noConfusion h
  | _ => exact Call.noConfusion h

/-- Who is in a room after a command was there before, or its registration has just completed. -/
theorem mem_peersOf_resumed (hsome : s.calls[i]? = some call)
    (h : peer ∈ (step s (.resumed i failed)).1.peersOf slug) :
    peer ∈ s.peersOf slug ∨
      peer = i ∧ call = .subscribing slug ∧ i ∈ s.redis.peers.hkeys s.now slug := by
  rw [step_resumed_of_some hsome, mem_peersOf] at h
  obtain ⟨hlisted, hregistered, hlocal⟩ := h
  rcases getElem?_set_cases hsome hregistered with ⟨rfl, hcall⟩ | ⟨hne, hregistered⟩
  · rcases registered_of_advance hcall.symm with rfl | rfl
    · exact .inr ⟨rfl, rfl, hlisted⟩
    · exact .inl (mem_peersOf.mpr ⟨hlisted, hsome, hlocal⟩)
  · left
    obtain ⟨p, hp, rfl⟩ := List.mem_map.mp hlisted
    refine mem_peersOf.mpr ⟨List.mem_map.mpr ⟨p, ?_, rfl⟩, hregistered, ?_⟩
    · rcases mem_fields_effect effect_advance hp with hold | ⟨role, -, rfl⟩
      · exact hold
      · exact absurd rfl hne
    · exact (mem_localWs_advance hlocal).resolve_right hne

theorem mem_peersOf_step {l : Event} (hl : ∀ i failed, l ≠ .resumed i failed)
    (h : peer ∈ (step s l).1.peersOf slug) : peer ∈ s.peersOf slug := by
  have hold : ∀ {new : Call}, new ≠ .registered slug →
      (s.calls ++ [new])[peer]? = some (.registered slug) →
        s.calls[peer]? = some (.registered slug) :=
    fun hnew hsome => (getElem?_concat_cases hsome).resolve_right fun h => hnew h.2.symm
  cases l with
  | elapsed duration =>
    obtain ⟨hlisted, hrest⟩ := mem_peersOf.mp h
    obtain ⟨p, hp, rfl⟩ := List.mem_map.mp hlisted
    have hp := Store.mem_fields_of_le (Nat.le_add_right s.now duration) hp
    exact mem_peersOf.mpr ⟨List.mem_map.mpr ⟨p, hp, rfl⟩, hrest⟩
  | joined | closed =>
    obtain ⟨hlisted, hregistered, hlocal⟩ := mem_peersOf.mp h
    exact mem_peersOf.mpr ⟨hlisted, hold Call.noConfusion hregistered, hlocal⟩
  | left gone =>
    obtain hstep | ⟨slug', -, -, hstep⟩ := step_left s gone
    · rwa [hstep] at h
    · rw [hstep] at h
      obtain ⟨hlisted, hregistered, hlocal⟩ := mem_peersOf.mp h
      have hlocal := (List.mem_filter.mp hlocal).1
      exact mem_peersOf.mpr ⟨hlisted, hold Call.noConfusion hregistered, hlocal⟩
  | resumed i failed => exact absurd rfl (hl i failed)

end PeersOf

/-! ### Closing under way -/

/-- Who is in a room that is being closed is still to be published to, or has been sent a close. -/
def Closing (s : State) (log : List Output) : Prop :=
  ∀ slug, ∀ call ∈ s.calls, ∀ remaining ∈ call.toClose slug, ∀ peer ∈ s.peersOf slug,
    peer ∈ remaining ∨ .closeSent peer ∈ log

section Closing

variable {s : State} {i : ℕ} {failed : Bool} {slug : Slug} {call : Call} {log : List Output}
  {past : List Event} {remaining : List PeerId} {peer : PeerId}

/-- A call that closes the room has just read its peers, or has published to one of them. -/
theorem toClose_advance (h : remaining ∈ (advance s i failed call).call.toClose slug) :
    (call = .readingPeers slug ∧ remaining = s.redis.peers.hkeys s.now slug) ∨
      ∃ next, call = .publishing slug next remaining := by
  cases call with
  | publishing slug' next rest =>
    cases rest with
    | nil =>
      obtain ⟨rfl, hremaining⟩ := Option.ite_none_right_eq_some.mp h
      obtain rfl := Option.some.inj hremaining
      exact .inr ⟨next, rfl⟩
    | cons peer rest =>
      obtain ⟨rfl, hremaining⟩ := Option.ite_none_right_eq_some.mp h
      obtain rfl := Option.some.inj hremaining
      exact .inr ⟨next, rfl⟩
  | readingPeers slug' =>
    dsimp only [advance] at h
    split at h
    · exact absurd h (Option.not_mem_none _)
    · split at h
      · exact absurd h (Option.not_mem_none _)
      next peer rest hkeys =>
        obtain ⟨rfl, hremaining⟩ := Option.ite_none_right_eq_some.mp h
        refine .inl ⟨rfl, ?_⟩
        rw [hkeys]
        exact (Option.some.inj hremaining).symm
  | registering slug' role =>
    obtain ⟨-, -, hadvance⟩ | ⟨result, hadvance⟩ := @advance_registering s i failed slug' role
    · rw [hadvance] at h
      exact absurd h (Option.not_mem_none _)
    · rw [hadvance] at h
      exact absurd h (Option.not_mem_none _)
  | removing | readingHost =>
    dsimp only [advance] at h
    split at h
    all_goals exact absurd h (Option.not_mem_none _)
  | _ => exact absurd h (Option.not_mem_none _)

theorem closeSent_advance {rest : List PeerId} (hfailed : failed = false)
    (hsubscribed : peer ∈ s.subscribed) (hlocal : peer ∈ s.localWs) :
    .closeSent peer ∈ (advance s i failed (.publishing slug peer rest)).outputs := by
  dsimp only [advance, State.goOn]
  rw [if_pos ⟨Bool.eq_false_iff.mp hfailed, hsubscribed, hlocal⟩]
  exact List.mem_singleton_self _

theorem mem_calls_step {l : Event} (hl : ∀ i failed, l ≠ .resumed i failed)
    (hcall : call ∈ (step s l).1.calls) (h : remaining ∈ call.toClose slug) :
    call ∈ s.calls ∧ (step s l).2 = [] := by
  -- a call that is new has read no peers yet
  have hold : ∀ {new : Call}, new.toClose slug = none → call ∈ s.calls ++ [new] →
      call ∈ s.calls := by
    intro new hnew hmem
    rcases List.mem_append.mp hmem with hmem | hmem
    · exact hmem
    · rw [List.mem_singleton.mp hmem, hnew] at h
      exact absurd h (Option.not_mem_none _)
  cases l with
  | elapsed duration => exact ⟨hcall, rfl⟩
  | joined | closed => exact ⟨hold rfl hcall, rfl⟩
  | left gone =>
    obtain hstep | ⟨slug', -, -, hstep⟩ := step_left s gone
    · rw [hstep] at hcall ⊢
      exact ⟨hcall, rfl⟩
    · rw [hstep] at hcall ⊢
      exact ⟨hold rfl hcall, rfl⟩
  | resumed i failed => exact absurd rfl (hl i failed)

theorem closing_step (h : Closing s log) {l : Event} (hnone : NoneMissed past s l) :
    Closing (step s l).1 (log ++ (step s l).2) := by
  intro slug call' hcall' remaining hremaining peer hpeer
  by_cases hl : ∃ i failed, l = .resumed i failed
  · obtain ⟨i, failed, rfl⟩ := hl
    obtain hcall | ⟨call, hsome⟩ := Option.eq_none_or_eq_some s.calls[i]?
    · rw [step_resumed_of_none hcall] at hcall' hpeer ⊢
      rw [List.append_nil]
      exact h slug call' hcall' remaining hremaining peer hpeer
    · have hwho := mem_peersOf_resumed hsome hpeer
      unfold NoneMissed at hnone
      dsimp only at hnone
      rw [hsome] at hnone
      rw [step_resumed_of_some hsome] at hcall' ⊢
      rcases List.mem_or_eq_of_mem_set hcall' with hold | rfl
      · -- another call, which was closing the room before
        rcases hwho with hwho | ⟨rfl, rfl, hlisted⟩
        · rcases h slug call' hold remaining hremaining peer hwho with hmem | hsent
          · exact .inl hmem
          · exact .inr (List.mem_append_left _ hsent)
        · exact .inl (hnone hlisted call' hold remaining hremaining)
      · -- the call that goes on
        rcases toClose_advance hremaining with ⟨rfl, rfl⟩ | ⟨next, rfl⟩
        · rcases hwho with hwho | ⟨-, hsub, -⟩
          · exact .inl (mem_peersOf.mp hwho).1
          · exact Call.noConfusion hsub
        · rcases hwho with hwho | ⟨-, hsub, -⟩
          · have hself : next :: remaining ∈ (Call.publishing slug next remaining).toClose slug :=
              if_pos rfl
            rcases h slug _ (List.mem_of_getElem? hsome) _ hself peer hwho with hmem | hsent
            · -- the peer is the one that is published to, or its turn is still to come
              rcases List.mem_cons.mp hmem with rfl | hmem
              · obtain ⟨-, hregistered, hlocal⟩ := mem_peersOf.mp hwho
                obtain ⟨hfailed, hsubscribed⟩ := hnone hregistered hlocal
                have hsent : Output.closeSent peer ∈
                    (advance s i failed (.publishing slug peer remaining)).outputs :=
                  closeSent_advance hfailed hsubscribed hlocal
                exact .inr (List.mem_append_right _ hsent)
              · exact .inl hmem
            · exact .inr (List.mem_append_left _ hsent)
          · exact Call.noConfusion hsub
  · have hnot : ∀ i failed, l ≠ .resumed i failed := fun i failed heq => hl ⟨i, failed, heq⟩
    obtain ⟨hcall, hnothing⟩ := mem_calls_step hnot hcall' hremaining
    rw [hnothing, List.append_nil]
    exact h slug call' hcall remaining hremaining peer (mem_peersOf_step hnot hpeer)

theorem refinesCloseRoom_of_closing (h : Closing s (signaling.log past)) {l : Event} :
    RefinesCloseRoom past s l := by
  unfold RefinesCloseRoom
  split
  · split
    next slug hsome =>
      refine ⟨manager_deleteRoom hsome, fun peer hpeer => ?_⟩
      -- nobody is left to publish to, so everybody has been sent a close
      rw [closed_eq_peersOf] at hpeer
      have hself : [] ∈ (Call.deletingRoom slug).toClose slug := if_pos rfl
      exact (h slug _ (List.mem_of_getElem? hsome) [] hself peer hpeer).resolve_left
        List.not_mem_nil
    · trivial
  · trivial

end Closing

/-! ### Runs -/

end Rapidly.FileSharing.Signaling
