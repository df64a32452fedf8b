import Mathlib.Algebra.Order.Ring.Rat
import Mathlib.Tactic.Linarith
import Rapidly.FileSharing.Signaling.Manager

/-!
# What the rooms in memory look like

The invariant of `SignalingManager`: a room has at most one host, which is the one it names, and
rooms and peers are within their limits. A room whose last peer has left is kept, so that its
counters are not lost, until a cleanup finds it idle for too long.

* `registerPeer_cases` is all that `register_peer` can do.
* `valid_after`: the invariant holds after any calls.
* `roomsCoherent` reads off what a worker may rely on.
-/

namespace Rapidly.FileSharing.Signaling.InMemory

open KeyValue Payments Transition

/-! ### One room -/

/-- The room has the peers it should have. -/
structure Room.Valid (room : Room) : Prop where
  nodup : (room.peers.map Prod.fst).Nodup
  named : ∀ e ∈ room.peers, e.2.peerId = e.1
  host : ∀ id ∈ room.hostId, ∃ peer, (id, peer) ∈ room.peers ∧ peer.role = .host
  sole : ∀ e ∈ room.peers, e.2.role = .host → room.hostId = some e.1
  size : room.peers.length ≤ maxPeersPerRoom

namespace Room

variable {room : Room} {peer : Peer} {peerId : PeerId} {now : ℚ}

theorem valid_new (now : ℚ) : Valid { lastEmptiedAt := now } where
  nodup := List.nodup_nil
  named := fun _ he => absurd he List.not_mem_nil
  host := fun _ hid => absurd hid (Option.not_mem_none _)
  sole := fun _ he => absurd he List.not_mem_nil
  size := Nat.zero_le _

theorem Valid.withPeer (h : room.Valid) (hnew : find room.peers peer.peerId = none)
    (hhost : peer.role = .host → room.hostId = none)
    (hsize : room.peers.length < maxPeersPerRoom) : (room.withPeer peer).Valid where
  nodup := nodup_put h.nodup
  named := by
    intro e he
    rcases mem_put he with rfl | ⟨hold, -⟩
    · rfl
    · exact h.named e hold
  host := by
    intro id hid
    have hpeers : (room.withPeer peer).peers = room.peers ++ [(peer.peerId, peer)] := by
      rw [Room.withPeer]
      dsimp only
      rw [put, hnew]
      exact if_neg Bool.false_ne_true
    rw [hpeers]
    by_cases hrole : peer.role = .host
    · rw [Room.withPeer, if_pos hrole, Option.mem_some] at hid
      exact ⟨peer, List.mem_append_right _ (hid ▸ List.mem_singleton_self _), hrole⟩
    · rw [Room.withPeer, if_neg hrole] at hid
      obtain ⟨peer', hmem, hrole'⟩ := h.host id hid
      exact ⟨peer', List.mem_append_left _ hmem, hrole'⟩
  sole := by
    intro e he hrole
    rcases mem_put he with rfl | ⟨hold, -⟩
    · rw [Room.withPeer, if_pos hrole]
    · have hsome := h.sole e hold hrole
      rw [Room.withPeer, if_neg fun hpeer => ?_]
      · exact hsome
      · rw [hhost hpeer] at hsome
        cases hsome
  size := by
    have hle := length_put_le room.peers peer.peerId peer
    rw [Room.withPeer]
    dsimp only
    omega

theorem Valid.dismiss (h : room.Valid) : (room.dismiss now peerId).Valid where
  nodup := nodup_filter h.nodup
  named := fun e he => h.named e (mem_remove.mp he).1
  host := by
    intro id hid
    rw [Room.dismiss] at hid ⊢
    split at hid
    · exact absurd hid (Option.not_mem_none _)
    next hother =>
      obtain ⟨peer, hmem, hrole⟩ := h.host id hid
      refine ⟨peer, mem_remove.mpr ⟨hmem, fun heq => hother ?_⟩, hrole⟩
      rw [← heq]
      exact hid
  sole := by
    intro e he hrole
    obtain ⟨hold, hne⟩ := mem_remove.mp he
    have hsome := h.sole e hold hrole
    rw [Room.dismiss]
    rw [if_neg fun heq => hne (Option.some_inj.mp (hsome.symm.trans heq)), hsome]
  size := (length_remove_le _ _).trans h.size

theorem Valid.peers_ne_nil (h : room.Valid) (hhost : room.hostId.isSome) : room.peers ≠ [] := by
  obtain ⟨id, hid⟩ := Option.isSome_iff_exists.mp hhost
  obtain ⟨peer, hmem, -⟩ := h.host id hid
  exact List.ne_nil_of_mem hmem

end Room

/-! ### All rooms -/

/-- The rooms are within their limits, and an empty one was not idle for long when the last cleanup
was made. -/
structure SignalingManager.Valid (m : SignalingManager) (now : ℚ) : Prop where
  nodup : (m.rooms.map Prod.fst).Nodup
  rooms : ∀ e ∈ m.rooms, e.2.Valid
  size : m.rooms.length ≤ maxRooms
  clock : m.lastCleanupTime ≤ now
  lately : ∀ e ∈ m.rooms, e.2.peers = [] →
    m.lastCleanupTime ≤ e.2.lastEmptiedAt + staleRoomSeconds

namespace SignalingManager

variable {m : SignalingManager} {now : ℚ} {slug : Slug} {peer : Peer} {room : Room}

theorem keptRooms_sublist : (m.keptRooms now).Sublist m.rooms := by
  rw [keptRooms]
  split
  · exact List.filter_sublist
  · exact List.Sublist.refl _

theorem Valid.cleanUp (h : m.Valid now) : (m.cleanUp now).Valid now where
  nodup := h.nodup.sublist (keptRooms_sublist.map _)
  rooms := fun e he => h.rooms e (keptRooms_sublist.subset he)
  size := keptRooms_sublist.length_le.trans h.size
  clock := by
    rw [SignalingManager.cleanUp]
    split
    · exact le_rfl
    · exact h.clock
  lately := by
    intro e he hempty
    rw [SignalingManager.cleanUp, keptRooms] at he
    rw [SignalingManager.cleanUp]
    split at he
    next hdue =>
      have hkept : ¬e.2.Stale now := by simpa using (List.mem_filter.mp he).2
      rw [if_pos hdue]
      by_contra hlate
      have hold : now - e.2.lastEmptiedAt > staleRoomSeconds := by linarith
      exact hkept ⟨hempty, hold⟩
    next hdue =>
      rw [if_neg hdue]
      exact h.lately e he hempty

theorem Valid.setRoom (h : m.Valid now) (hroom : room.Valid)
    (hlately : room.peers = [] → m.lastCleanupTime ≤ room.lastEmptiedAt + staleRoomSeconds)
    (hsize : (find m.rooms slug).isSome ∨ m.rooms.length < maxRooms) :
    (m.setRoom slug room).Valid now where
  nodup := nodup_put h.nodup
  rooms := by
    intro e he
    rcases mem_put he with rfl | ⟨hold, -⟩
    · exact hroom
    · exact h.rooms e hold
  size := by
    rw [SignalingManager.setRoom]
    dsimp only
    rcases hsize with hthere | hfew
    · rw [length_put_of_isSome hthere]
      exact h.size
    · have hle := length_put_le m.rooms slug room
      omega
  clock := h.clock
  lately := by
    intro e he hempty
    rcases mem_put he with rfl | ⟨hold, -⟩
    · exact hlately hempty
    · exact h.lately e hold hempty

theorem Valid.removeRoom (h : m.Valid now) : (m.removeRoom slug).Valid now where
  nodup := nodup_filter h.nodup
  rooms := fun e he => h.rooms e (mem_remove.mp he).1
  size := (length_remove_le _ _).trans h.size
  clock := h.clock
  lately := fun e he => h.lately e (mem_remove.mp he).1

theorem Valid.getRoom (h : m.Valid now) (hroom : m.getRoom slug = some room) : room.Valid :=
  h.rooms _ ((find_eq_some_iff h.nodup).mp hroom)

theorem Valid.later (h : m.Valid now) {now' : ℚ} (hle : now ≤ now') : m.Valid now' :=
  { h with clock := h.clock.trans hle }

/-- The room a peer is admitted to: the one of its slug, or a new one if there may be one more. -/
def Offers (m : SignalingManager) (now : ℚ) (slug : Slug) (room : Room) : Prop :=
  find m.rooms slug = some room ∨
    find m.rooms slug = none ∧ m.rooms.length < maxRooms ∧ room = { lastEmptiedAt := now }

theorem registerIn_cases (hroom : room.Valid) (m : SignalingManager) (slug : Slug) (peer : Peer) :
    (m.registerIn slug peer room).1 ≠ .ok ∧ (m.registerIn slug peer room).2 = m ∨
      (peer.role = .host → room.hostId = none) ∧ room.peers.length < maxPeersPerRoom ∧
        m.registerIn slug peer room = (.ok, m.setRoom slug (room.withPeer peer)) := by
  rw [registerIn]
  by_cases htaken : peer.role = .host ∧ room.hostId.isSome
  · rw [if_pos htaken, dropIfEmpty, if_neg (hroom.peers_ne_nil htaken.2)]
    exact .inl ⟨RegisterResult.noConfusion, rfl⟩
  rw [if_neg htaken]
  by_cases hfull : room.peers.length ≥ maxPeersPerRoom
  · have hne : room.peers ≠ [] := by
      intro hnil
      rw [hnil] at hfull
      exact absurd hfull (by decide)
    rw [if_pos hfull, dropIfEmpty, if_neg hne]
    exact .inl ⟨RegisterResult.noConfusion, rfl⟩
  · rw [if_neg hfull]
    refine .inr ⟨fun hrole => ?_, Nat.lt_of_not_le hfull, rfl⟩
    by_contra hsome
    exact htaken ⟨hrole, Option.isSome_iff_ne_none.mpr hsome⟩

/-- **What `register_peer` does.** It admits the peer, or it does nothing but the cleanup. -/
theorem registerPeer_cases (h : m.Valid now) (slug : Slug) (peer : Peer) :
    (m.registerPeer now slug peer).1 ≠ .ok ∧
        (m.registerPeer now slug peer).2 = m.cleanUp now ∨
      ∃ room, (m.cleanUp now).Offers now slug room ∧
        (peer.role = .host → room.hostId = none) ∧ room.peers.length < maxPeersPerRoom ∧
        m.registerPeer now slug peer =
          (.ok, (m.cleanUp now).setRoom slug (room.withPeer peer)) := by
  have hclean := h.cleanUp
  rw [registerPeer, getOrCreateRoom]
  generalize m.cleanUp now = m at hclean ⊢
  rw [findOrCreateRoom]
  rcases hfind : find m.rooms slug with _ | room
  · dsimp only
    by_cases hfull : m.rooms.length ≥ maxRooms
    · rw [if_pos hfull]
      exact .inl ⟨RegisterResult.noConfusion, rfl⟩
    -- a new room has no host and no peer
    have hempty : ¬([] : List (PeerId × Peer)).length ≥ maxPeersPerRoom := by decide
    have hhost : ¬(peer.role = .host ∧ (none : Option PeerId).isSome) := by simp
    rw [if_neg hfull, Option.elim_some, registerIn, if_neg hhost, if_neg hempty, setRoom, setRoom,
      put_put]
    exact .inr ⟨_, .inr ⟨hfind, Nat.lt_of_not_le hfull, rfl⟩, fun _ => rfl,
      Nat.lt_of_not_le hempty, rfl⟩
  · have hroom := hclean.rooms _ ((find_eq_some_iff hclean.nodup).mp hfind)
    obtain hidle | ⟨hhost, hsize, hok⟩ := registerIn_cases hroom m slug peer
    · exact .inl hidle
    · exact .inr ⟨room, .inl hfind, hhost, hsize, hok⟩

theorem Valid.registerPeer (h : m.Valid now)
    (hnew : m.peerExists slug peer.peerId = false) :
    (m.registerPeer now slug peer).2.Valid now := by
  obtain ⟨-, hidle⟩ | ⟨room, hoffers, hhost, hsize, hok⟩ := registerPeer_cases h slug peer
  · rw [hidle]
    exact h.cleanUp
  have hroom : room.Valid ∧ find room.peers peer.peerId = none := by
    rcases hoffers with hold | ⟨-, -, rfl⟩
    · have hmem := (find_eq_some_iff h.cleanUp.nodup).mp hold
      have hbefore : m.getRoom slug = some room :=
        (find_eq_some_iff h.nodup).mpr (keptRooms_sublist.subset hmem)
      refine ⟨h.getRoom hbefore, ?_⟩
      rw [peerExists, hbefore] at hnew
      exact Option.not_isSome_iff_eq_none.mp (Bool.not_eq_true _ ▸ hnew)
    · exact ⟨Room.valid_new now, rfl⟩
  have hpeers : (room.withPeer peer).peers ≠ [] := by
    rw [Room.withPeer]
    rw [put, hroom.2]
    exact List.append_ne_nil_of_right_ne_nil _ (List.cons_ne_nil _ _)
  rw [hok]
  refine h.cleanUp.setRoom (hroom.1.withPeer hroom.2 hhost hsize)
    (fun hnil => absurd hnil hpeers) ?_
  rcases hoffers with hold | ⟨-, hfew, -⟩
  · exact .inl (Option.isSome_iff_exists.mpr ⟨room, hold⟩)
  · exact .inr hfew

theorem Valid.removePeer (h : m.Valid now) (peerId : PeerId) :
    (m.removePeer now slug peerId).Valid now := by
  rw [SignalingManager.removePeer]
  split
  · exact h
  next room hroom =>
    refine h.setRoom (h.getRoom hroom).dismiss (fun hempty => ?_)
      (.inl (Option.isSome_iff_exists.mpr ⟨room, hroom⟩))
    rw [Room.dismiss] at hempty ⊢
    rw [if_pos hempty]
    have hclock := h.clock
    have hpos : 0 ≤ staleRoomSeconds := by decide +kernel
    linarith

/-- After a registration no cleanup is overdue, so no empty room has been idle for long. -/
theorem idle_registerPeer (h : m.Valid now) (hnew : m.peerExists slug peer.peerId = false) :
    ∀ e ∈ (m.registerPeer now slug peer).2.rooms, e.2.peers = [] →
      now ≤ e.2.lastEmptiedAt + staleRoomSeconds + cleanupInterval := by
  intro e he hempty
  have hlately := (h.registerPeer hnew).lately e he hempty
  have hclean : now ≤ (m.cleanUp now).lastCleanupTime + cleanupInterval := by
    rw [SignalingManager.cleanUp]
    split
    · have hpos : 0 ≤ cleanupInterval := by decide +kernel
      linarith
    next hdue =>
      rw [CleanupDue, gt_iff_lt, not_lt] at hdue
      linarith
  have htime : (m.registerPeer now slug peer).2.lastCleanupTime =
      (m.cleanUp now).lastCleanupTime := by
    obtain ⟨-, hidle⟩ | ⟨room, -, -, -, hok⟩ := registerPeer_cases h slug peer
    · rw [hidle]
    · rw [hok]
      rfl
  linarith

end SignalingManager

/-! ### Runs -/

/-- A peer that registers is not in the room already. -/
def Fresh : System.Condition State Call
  | _, s, .registerPeer slug peer => s.manager.peerExists slug peer.peerId = false
  | _, _, _ => True

instance (past : List Call) (s : State) (l : Call) : Decidable (Fresh past s l) := by
  cases l
  case registerPeer => exact inferInstanceAs (Decidable (_ = _))
  all_goals exact isTrue trivial

variable {start : ℚ≥0}

theorem valid_step {s : State} (h : s.manager.Valid s.now) {past : List Call} {l : Call}
    (hfresh : Fresh past s l) :
    ((calls start).step s l).1.manager.Valid ((calls start).step s l).1.now := by
  cases l with
  | elapsed duration =>
    have hpos : (0 : ℚ) ≤ duration := duration.2
    exact h.later (le_add_of_nonneg_right hpos)
  | registerPeer slug peer => exact h.registerPeer hfresh
  | removePeer slug peerId => exact h.removePeer peerId
  | closeRoom slug => exact h.removeRoom

theorem valid_after {ls : List Call} (h : (calls start).Along Fresh ls) :
    ((calls start).after ls).manager.Valid ((calls start).after ls).now :=
  (calls start).invariant_of_along (fun _ s _ => s.manager.Valid s.now)
    { nodup := List.nodup_nil
      rooms := fun _ he => absurd he List.not_mem_nil
      size := Nat.zero_le _
      clock := start.2
      lately := fun _ he => absurd he List.not_mem_nil }
    (fun _ _ hvalid hfresh => valid_step hvalid hfresh) h

/-- The host of a room is a peer registered as one, the only one; rooms and peers are within their
limits. -/
structure Coherent (m : SignalingManager) : Prop where
  host : ∀ slug, ∀ room ∈ m.getRoom slug, ∀ id ∈ room.hostId,
    ∃ peer ∈ find room.peers id, peer.peerId = id ∧ peer.role = .host
  oneHost : ∀ slug, ∀ room ∈ m.getRoom slug, ∀ e ∈ room.peers, ∀ e' ∈ room.peers,
    e.2.role = .host → e'.2.role = .host → e = e'
  peers : ∀ slug, ∀ room ∈ m.getRoom slug, room.peers.length ≤ maxPeersPerRoom
  rooms : m.rooms.length ≤ maxRooms

theorem SignalingManager.Valid.coherent {m : SignalingManager} {now : ℚ} (h : m.Valid now) :
    Coherent m where
  host := by
    intro slug room hroom id hid
    have hvalid := h.getRoom hroom
    obtain ⟨peer, hmem, hrole⟩ := hvalid.host id hid
    exact ⟨peer, (find_eq_some_iff hvalid.nodup).mpr hmem, hvalid.named _ hmem, hrole⟩
  oneHost := by
    rintro slug room hroom ⟨id, peer⟩ hmem ⟨id', peer'⟩ hmem' hrole hrole'
    have hvalid := h.getRoom hroom
    obtain rfl : id = id' := Option.some_inj.mp
      ((hvalid.sole _ hmem hrole).symm.trans (hvalid.sole _ hmem' hrole'))
    have hsame := ((find_eq_some_iff hvalid.nodup).mpr hmem).symm.trans
      ((find_eq_some_iff hvalid.nodup).mpr hmem')
    rw [Option.some_inj.mp hsame]
  peers := fun _ _ hroom => (h.getRoom hroom).size
  rooms := h.size

/-- A registration that is refused leaves the rooms that it found, but for those that the cleanup
drops; and after any registration no empty room has been idle for more than sixteen minutes. -/
def RegistersCleanly : System.Condition State Call := fun _ s l =>
  ∀ slug peer, l = .registerPeer slug peer →
    let registered := s.manager.registerPeer s.now slug peer
    (registered.1 ≠ .ok → registered.2.rooms = s.manager.keptRooms s.now) ∧
      ∀ e ∈ registered.2.rooms, e.2.peers = [] →
        s.now ≤ e.2.lastEmptiedAt + staleRoomSeconds + cleanupInterval

/-- Two hosts ask for one room. -/
def twoHosts : List Call :=
  [.registerPeer "a" { peerId := [1], role := .host },
    .registerPeer "a" { peerId := [2], role := .host }]

end Rapidly.FileSharing.Signaling.InMemory
