import Rapidly.FileSharing.Signaling.RelayLoop
import Rapidly.FileSharing.Signaling.Rooms
import Rapidly.Json.Integers

/-!
# Who sends what to whom

What the signaling server forwards: a message goes from a peer to another one of its room, under
its own name, with the fields that are allowed and no others. `connect-request` is the one message
that need not name its target; then it goes to the host.

* `inv_after`: a connection whose room was not closed is registered in it.
* `genuine_of_mem_dispatch`: the handlers forward only what they should.
* `signalingIsolated` puts the two together for every run.
-/

namespace Rapidly.FileSharing.Signaling.InMemory

open Json KeyValue Payments Relay Transition

/-! ### Who is registered -/

namespace SignalingManager

variable {m : SignalingManager} {now : ℚ} {slug slug' : Slug} {peer : Peer} {peerId id : PeerId}
  {room : Room}

/-- The peer of this id in a room. -/
def registered (m : SignalingManager) (slug : Slug) (id : PeerId) : Option Peer :=
  (m.getRoom slug).bind fun room => find room.peers id

theorem peerExists_eq (m : SignalingManager) (slug : Slug) (id : PeerId) :
    m.peerExists slug id = (m.registered slug id).isSome := by
  rw [peerExists, registered]
  rcases m.getRoom slug with _ | room
  · rfl
  · rfl

theorem registered_setRoom : (m.setRoom slug room).registered slug' id =
    if slug' = slug then find room.peers id else m.registered slug' id := by
  rw [registered, getRoom, setRoom]
  rw [find_put]
  by_cases hslug : slug' = slug
  · rw [if_pos hslug, if_pos hslug, Option.bind_some]
  · rw [if_neg hslug, if_neg hslug]
    rfl

theorem registered_removeRoom : (m.removeRoom slug).registered slug' id =
    if slug' = slug then none else m.registered slug' id := by
  rw [registered, getRoom, removeRoom]
  rw [find_remove]
  by_cases hslug : slug' = slug
  · rw [if_pos hslug, if_pos hslug, Option.bind_none]
  · rw [if_neg hslug, if_neg hslug]
    rfl

theorem registered_cleanUp (h : m.Valid now) (slug : Slug) (id : PeerId) :
    (m.cleanUp now).registered slug id = m.registered slug id := by
  rw [registered, registered]
  rcases hroom : m.getRoom slug with _ | room
  · have hgone : (m.cleanUp now).getRoom slug = none := by
      rw [getRoom, find_eq_none_iff] at hroom ⊢
      exact fun hmem => hroom ((keptRooms_sublist.map _).subset hmem)
    rw [hgone]
  · have hmem := (find_eq_some_iff h.nodup).mp hroom
    by_cases hkept : (slug, room) ∈ m.keptRooms now
    · rw [getRoom, (find_eq_some_iff h.cleanUp.nodup).mpr hkept]
    · have hempty : room.peers = [] := by
        rw [keptRooms] at hkept
        split at hkept
        · by_contra hpeers
          refine hkept (List.mem_filter.mpr ⟨hmem, ?_⟩)
          simpa using fun hstale : room.Stale now => hpeers hstale.1
        · exact absurd hmem hkept
      have hgone : (m.cleanUp now).getRoom slug = none := by
        rw [getRoom, find_eq_none_iff]
        rintro hkey
        obtain ⟨⟨slug', room'⟩, hmem', rfl⟩ := List.mem_map.mp hkey
        have hsame := ((find_eq_some_iff h.nodup).mpr hmem).symm.trans
          ((find_eq_some_iff h.nodup).mpr (keptRooms_sublist.subset hmem'))
        rw [Option.some_inj.mp hsame] at hkept
        exact hkept hmem'
      rw [hgone, Option.bind_none, Option.bind_some, hempty, find_nil]

theorem registered_registerPeer (h : m.Valid now) (slug : Slug) (peer : Peer) (slug' : Slug)
    (id : PeerId) : (m.registerPeer now slug peer).2.registered slug' id =
      if (m.registerPeer now slug peer).1 = .ok ∧ slug' = slug ∧ id = peer.peerId then some peer
      else m.registered slug' id := by
  obtain ⟨hrefused, hidle⟩ | ⟨room, hoffers, -, -, hok⟩ := registerPeer_cases h slug peer
  · rw [hidle, registered_cleanUp h, if_neg fun hcase => hrefused hcase.1]
  have hroom : find room.peers id = (m.cleanUp now).registered slug id := by
    rw [registered, getRoom]
    rcases hoffers with hold | ⟨hnone, -, rfl⟩
    · rw [hold, Option.bind_some]
    · rw [hnone]
      rfl
  rw [hok]
  rw [registered_setRoom, Room.withPeer]
  rw [find_put, hroom, registered_cleanUp h, registered_cleanUp h]
  by_cases hslug : slug' = slug
  · by_cases hid : id = peer.peerId
    · rw [if_pos hslug, if_pos hid, if_pos ⟨rfl, hslug, hid⟩]
    · rw [if_pos hslug, if_neg hid, if_neg fun hcase => hid hcase.2.2, hslug]
  · rw [if_neg hslug, if_neg fun hcase => hslug hcase.2.1]

theorem registered_removePeer : (m.removePeer now slug peerId).registered slug' id =
    if slug' = slug ∧ id = peerId then none else m.registered slug' id := by
  rw [removePeer]
  rcases hroom : m.getRoom slug with _ | room
  · dsimp only
    by_cases hcase : slug' = slug ∧ id = peerId
    · rw [if_pos hcase, hcase.1, registered, hroom, Option.bind_none]
    · rw [if_neg hcase]
  · dsimp only
    rw [registered_setRoom, Room.dismiss]
    rw [find_remove]
    by_cases hslug : slug' = slug
    · have hsame : m.registered slug' id = find room.peers id := by
        rw [registered, hslug, hroom, Option.bind_some]
      by_cases hid : id = peerId
      · rw [if_pos hslug, if_pos hid, if_pos ⟨hslug, hid⟩]
      · rw [if_pos hslug, if_neg hid, if_neg fun hcase => hid hcase.2, hsame]
    · rw [if_neg hslug, if_neg fun hcase => hslug hcase.1]

theorem Valid.hostIdFor (h : m.Valid now) (hpeer : m.registered slug id = some peer)
    (hrole : peer.role = .host) : m.hostIdFor slug = some id := by
  rw [registered] at hpeer
  obtain ⟨room, hroom, hfind⟩ := Option.bind_eq_some_iff.mp hpeer
  have hvalid := h.getRoom hroom
  have hmem := (find_eq_some_iff hvalid.nodup).mp hfind
  rw [SignalingManager.hostIdFor, hroom, Option.bind_some]
  exact hvalid.sole _ hmem hrole

end SignalingManager

/-! ### Connections and rooms -/

/-- Who is connected is registered, unless its room was closed; and who is registered is
connected. -/
structure Inv (s : Server) : Prop where
  valid : s.manager.Valid s.now
  named : ∀ id, ∀ c ∈ find s.connections id, c.peer.peerId = id
  member : ∀ id, ∀ c ∈ find s.connections id, c.evicted = false →
    s.manager.registered c.slug id = some c.peer
  connected : ∀ slug id, (s.manager.registered slug id).isSome →
    ∃ c ∈ find s.connections id, c.evicted = false ∧ c.slug = slug

/-- The id of a peer that joins is not in use: it is a new `uuid4`. -/
def FreshId : System.Condition Server Event
  | _, s, .joined _ peer => find s.connections peer.peerId = none
  | _, _, _ => True

instance (past : List Event) (s : Server) (l : Event) : Decidable (FreshId past s l) := by
  cases l
  case joined => exact inferInstanceAs (Decidable (_ = _))
  all_goals exact isTrue trivial

section Steps

variable {ν : Type} [Numeral ν] {env : Interpreter ν} {s : Server} {peerId : PeerId}
  {c : Connection}

theorem Inv.goOn (h : Inv s) (hc : find s.connections peerId = some c) {c' : Connection}
    (hpeer : c'.peer = c.peer) (hslug : c'.slug = c.slug) (hevicted : c'.evicted = c.evicted) :
    Inv (s.goOn peerId c') := by
  have hfind (id : PeerId) : find (s.goOn peerId c').connections id =
      if id = peerId then some c' else find s.connections id := by
    rw [Server.goOn]
    rw [find_assign]
    by_cases hid : id = peerId
    · rw [if_pos hid, if_pos hid, hid, hc, Option.map_some]
    · rw [if_neg hid, if_neg hid]
  refine ⟨h.valid, ?_, ?_, ?_⟩
  · intro id d hd
    rw [hfind, Option.mem_def] at hd
    split at hd
    next hid =>
      rw [← Option.some_inj.mp hd, hpeer, hid]
      exact h.named _ _ hc
    · exact h.named _ _ hd
  · intro id d hd hlive
    rw [hfind, Option.mem_def] at hd
    split at hd
    next hid =>
      rw [← Option.some_inj.mp hd] at hlive ⊢
      rw [hpeer, hslug, hid]
      exact h.member _ _ hc (hevicted ▸ hlive)
    · exact h.member _ _ hd hlive
  · intro slug id hsome
    obtain ⟨d, hd, hlive, hds⟩ := h.connected slug id hsome
    rw [hfind]
    by_cases hid : id = peerId
    · rw [hid, hc] at hd
      obtain rfl := Option.some_inj.mp hd
      rw [if_pos hid]
      exact ⟨c', rfl, hevicted.trans hlive, hslug.trans hds⟩
    · rw [if_neg hid]
      exact ⟨d, hd, hlive, hds⟩

omit [Numeral ν] in
theorem Inv.finish (h : Inv s) (hc : find s.connections peerId = some c) {c' : Connection}
    (hslug : c'.slug = c.slug) : Inv (s.finish peerId c' : Server × List (Output ν)).1 := by
  refine ⟨h.valid.removePeer peerId, ?_, ?_, ?_⟩
  · intro id d hd
    rw [Server.finish, Option.mem_def] at hd
    rw [find_remove] at hd
    split at hd
    · cases hd
    · exact h.named _ _ hd
  · intro id d hd hlive
    rw [Server.finish, Option.mem_def] at hd
    rw [find_remove] at hd
    split at hd
    · cases hd
    next hid =>
      rw [Server.finish]
      rw [SignalingManager.registered_removePeer, if_neg fun hcase => hid hcase.2]
      exact h.member _ _ hd hlive
  · intro slug id hsome
    rw [Server.finish] at hsome ⊢
    rw [SignalingManager.registered_removePeer] at hsome
    split at hsome
    · cases hsome
    next hcase =>
      obtain ⟨d, hd, hlive, hds⟩ := h.connected slug id hsome
      have hid : id ≠ peerId := by
        rintro rfl
        obtain rfl := Option.some_inj.mp (hc.symm.trans hd)
        exact hcase ⟨hds.symm.trans hslug.symm, rfl⟩
      rw [find_remove, if_neg hid]
      exact ⟨d, hd, hlive, hds⟩

omit [Numeral ν] in
theorem Inv.closeRoom (h : Inv s) (slug : Slug) :
    Inv (s.closeRoom slug : Server × List (Output ν)).1 := by
  rw [Server.closeRoom]
  rcases hroom : s.manager.getRoom slug with _ | room
  · exact h
  have hfind (id : PeerId) : find (s.evict room) id = (find s.connections id).map fun c =>
      if (find room.peers id).isSome then { c with evicted := true } else c := by
    rw [Server.evict]
    exact find_map s.connections
      (fun id c => if (find room.peers id).isSome then { c with evicted := true } else c) id
  have hpeers (id : PeerId) : s.manager.registered slug id = find room.peers id := by
    rw [SignalingManager.registered, hroom, Option.bind_some]
  refine ⟨h.valid.removeRoom, ?_, ?_, ?_⟩
  · intro id d hd
    rw [hfind, Option.mem_def] at hd
    obtain ⟨c, hc, rfl⟩ := Option.map_eq_some_iff.mp hd
    have hnamed := h.named id c hc
    split
    · exact hnamed
    · exact hnamed
  · intro id d hd hlive
    rw [hfind, Option.mem_def] at hd
    obtain ⟨c, hc, rfl⟩ := Option.map_eq_some_iff.mp hd
    split at hlive
    · cases hlive
    next hother =>
      have hmember := h.member _ _ hc hlive
      rw [if_neg hother, SignalingManager.registered_removeRoom, if_neg, hmember]
      intro hslug
      rw [hslug, hpeers] at hmember
      rw [hmember] at hother
      exact hother rfl
  · intro slug' id hsome
    rw [SignalingManager.registered_removeRoom] at hsome
    split at hsome
    · cases hsome
    next hslug =>
      obtain ⟨d, hd, hlive, hds⟩ := h.connected slug' id hsome
      rw [hfind, Option.mem_def.mp hd, Option.map_some]
      refine ⟨d, ?_, hlive, hds⟩
      rw [if_neg, Option.mem_some]
      intro hthere
      rw [← hpeers] at hthere
      obtain ⟨d', hd', -, hds'⟩ := h.connected slug id hthere
      obtain rfl := Option.some_inj.mp (Eq.trans (Eq.symm hd) hd')
      exact hslug (hds.symm.trans hds')

omit [Numeral ν] in
theorem Inv.join (h : Inv s) (slug : Slug) (peer : Peer)
    (hfresh : find s.connections peer.peerId = none) : Inv (s.join env slug peer).1 := by
  have hnew (slug' : Slug) : s.manager.registered slug' peer.peerId = none := by
    rw [← Option.not_isSome_iff_eq_none]
    intro hsome
    obtain ⟨c, hc, -⟩ := h.connected slug' peer.peerId hsome
    rw [hfresh] at hc
    cases hc
  have hexists : s.manager.peerExists slug peer.peerId = false := by
    rw [SignalingManager.peerExists_eq, hnew]
    rfl
  have hvalid := h.valid.registerPeer hexists
  have hregistered := SignalingManager.registered_registerPeer h.valid slug peer
  rw [Server.join]
  split
  next hok =>
    have hfind (id : PeerId) : find (put s.connections peer.peerId
        { peer, slug, windowStart := s.now }) id =
        if id = peer.peerId then some { peer, slug, windowStart := s.now }
        else find s.connections id := find_put
    -- each part holds of the new connection, and held of the others
    refine ⟨hvalid, ?_, ?_, ?_⟩
    · intro id d hd
      rw [hfind, Option.mem_def] at hd
      split at hd
      next hid =>
        rw [← Option.some_inj.mp hd, hid]
      · exact h.named _ _ hd
    · intro id d hd hlive
      rw [hfind, Option.mem_def] at hd
      rw [hregistered]
      split at hd
      next hid =>
        rw [← Option.some_inj.mp hd, if_pos ⟨hok, rfl, hid⟩]
      next hid =>
        rw [if_neg fun hcase => hid hcase.2.2]
        exact h.member _ _ hd hlive
    · intro slug' id hsome
      rw [hregistered] at hsome
      rw [hfind]
      by_cases hid : id = peer.peerId
      · rw [if_pos hid]
        split at hsome
        next hcase => exact ⟨_, rfl, rfl, hcase.2.1.symm⟩
        · rw [hid, hnew] at hsome
          cases hsome
      · rw [if_neg fun hcase => hid hcase.2.2] at hsome
        rw [if_neg hid]
        exact h.connected slug' id hsome
  next hrefused =>
    -- a peer that is refused is in no room, and no connection is made for it
    refine ⟨hvalid, h.named, ?_, ?_⟩
    · intro id d hd hlive
      rw [hregistered, if_neg fun hcase => hrefused hcase.1]
      exact h.member _ _ hd hlive
    · intro slug' id hsome
      rw [hregistered, if_neg fun hcase => hrefused hcase.1] at hsome
      exact h.connected slug' id hsome

theorem throttle_same (c : Connection) (now : ℚ) :
    (c.throttle now).peer = c.peer ∧ (c.throttle now).slug = c.slug ∧
      (c.throttle now).evicted = c.evicted := by
  rw [Connection.throttle]
  split
  · exact ⟨rfl, rfl, rfl⟩
  · exact ⟨rfl, rfl, rfl⟩

theorem Inv.receive (h : Inv s) (hc : find s.connections peerId = some c) (raw : List Char) :
    Inv (s.receive env peerId c raw).1 := by
  obtain ⟨hpeer, hslug, hevicted⟩ := throttle_same c s.now
  rw [Server.receive]
  split
  · exact @Inv.finish ν s peerId c h hc _ hslug
  split
  · exact h.goOn hc hpeer hslug hevicted
  · exact h.goOn hc hpeer hslug hevicted
  · exact h.finish hc hslug

theorem inv_serve (h : Inv s) {past : List Event} {l : Event} (hfresh : FreshId past s l) :
    Inv (serve env s l).1 := by
  cases l with
  | elapsed duration =>
    have hpos : (0 : ℚ) ≤ duration := duration.2
    exact ⟨h.valid.later (le_add_of_nonneg_right hpos), h.named, h.member, h.connected⟩
  | joined slug peer => exact h.join slug peer hfresh
  | received peerId raw =>
    rw [serve]
    rcases hc : find s.connections peerId with _ | c
    · exact h
    · dsimp only
      split
      · exact h
      · exact h.receive hc raw
  | left peerId =>
    rw [serve]
    rcases hc : find s.connections peerId with _ | c
    · exact h
    · exact h.finish hc rfl
  | closed slug => exact h.closeRoom slug

end Steps

/-! ### What is forwarded -/

section Messages

variable {ν : Type} [Numeral ν] {env : Interpreter ν}

/-- The fields that a message of a type may have, and their values, for a sender in this role. -/
def Allowed (env : Interpreter ν) (role : Role) (type key : Units) (v : Value ν) : Prop :=
  type = ofString "relay:data" ∧ key = ofString "data" ∧
      Interpreter.isStr maxSignalingMessageSize v ∨
    type ∈ webrtcTypes ∧
      ((key = ofString "sdp" ∨ key = ofString "candidate") ∧
          Interpreter.isStr maxSignalingMessageSize v ∨
        (key = ofString "sdpMid" ∨ key = ofString "usernameFragment") ∧
          Interpreter.isNullableStr v ∨
        key = ofString "sdpMLineIndex" ∧ env.isNullableInt v ∨
        key = ofString "metadata" ∧ role = .host ∧ Interpreter.isMetadata v)

/-- What is forwarded is a message of the sender: under its id, with the allowed fields of what it
sent. -/
structure Speaks (env : Interpreter ν) (peer : Peer) (msg payload : Fields ν) : Prop where
  fromId : Fields.get payload "fromId" = some (.string peer.peerId)
  type : messageType msg ∈ relayTypes ++ webrtcTypes ∧
    Fields.get payload "type" = some (.string (messageType msg))
  fields : ∀ key v, Fields.get payload key = some v →
    key = ofString "type" ∨ key = ofString "fromId" ∨
      Fields.get msg key = some v ∧ Allowed env peer.role (messageType msg) key v

variable {m : SignalingManager} {c : Connection} {msg payload : Fields ν} {peer : Peer}
  {key name : Units} {v : Value ν} {allowed : Value ν → Bool}

omit [Numeral ν] in
theorem mem_copyField (h : (key, v) ∈ copyField msg name allowed) :
    key = name ∧ Fields.get msg key = some v ∧ allowed v = true := by
  rw [copyField] at h
  split at h
  next old hold =>
    split at h
    next hallowed =>
      obtain ⟨rfl, rfl⟩ := Prod.mk.inj (List.mem_singleton.mp h)
      exact ⟨rfl, hold, hallowed⟩
    · cases h
  · cases h

omit [Numeral ν] in
theorem get_envelope {type : Units} {copied : Fields ν}
    (hcopied : ∀ f ∈ copied, f.1 ≠ ofString "type" ∧ f.1 ≠ ofString "fromId") :
    Fields.get (envelope peer.peerId type ++ copied) "type" = some (.string type) ∧
      Fields.get (envelope peer.peerId type ++ copied) "fromId" = some (.string peer.peerId) := by
  have habsent (key : Units) (hkey : ∀ f ∈ copied, f.1 ≠ key) : Fields.get copied key = none := by
    rw [Fields.get_eq_none_iff]
    intro hmem
    obtain ⟨f, hf, rfl⟩ := List.mem_map.mp hmem
    exact hkey f hf rfl
  rw [Fields.get_append, Fields.get_append, habsent _ fun f hf => (hcopied f hf).1,
    habsent _ fun f hf => (hcopied f hf).2, Option.none_or, Option.none_or]
  exact ⟨rfl, rfl⟩

theorem speaks_of_copied {copied : Fields ν} (htype : messageType msg ∈ relayTypes ++ webrtcTypes)
    (hcopied : ∀ key v, (key, v) ∈ copied → key ≠ ofString "type" ∧ key ≠ ofString "fromId" ∧
      Fields.get msg key = some v ∧ Allowed env peer.role (messageType msg) key v) :
    Speaks env peer msg (envelope peer.peerId (messageType msg) ++ copied) := by
  obtain ⟨hget, hfrom⟩ := @get_envelope ν peer (messageType msg) copied fun f hf =>
    ⟨(hcopied f.1 f.2 hf).1, (hcopied f.1 f.2 hf).2.1⟩
  refine ⟨hfrom, ⟨htype, hget⟩, fun key v hkey => ?_⟩
  rcases List.mem_append.mp (Fields.mem_of_get_eq_some hkey) with henvelope | hmem
  · rw [envelope, List.mem_cons, List.mem_singleton, Prod.mk.injEq, Prod.mk.injEq] at henvelope
    rcases henvelope with ⟨rfl, -⟩ | ⟨rfl, -⟩
    · exact .inl rfl
    · exact .inr (.inl rfl)
  · exact .inr (.inr (hcopied key v hmem).2.2)

theorem speaks_relayMsg (htype : messageType msg ∈ relayTypes) :
    Speaks env peer msg (relayMsg peer.peerId (messageType msg) msg) := by
  rw [relayMsg]
  refine speaks_of_copied (List.mem_append_left _ htype) fun key v hmem => ?_
  split at hmem
  next hdata =>
    obtain ⟨rfl, hget, hallowed⟩ := mem_copyField hmem
    exact ⟨by decide, by decide, hget, .inl ⟨hdata, rfl, hallowed⟩⟩
  · cases hmem

theorem speaks_webrtcMsg (htype : messageType msg ∈ webrtcTypes) :
    Speaks env peer msg (webrtcMsg env peer (messageType msg) msg) := by
  rw [webrtcMsg]
  refine speaks_of_copied (List.mem_append_right _ htype) fun key v hmem => ?_
  simp only [List.mem_append] at hmem
  rcases hmem with hmem | hmem | hmem | hmem | hmem | hmem
  · obtain ⟨rfl, hget, hallowed⟩ := mem_copyField hmem
    exact ⟨by decide, by decide, hget, .inr ⟨htype, .inl ⟨.inl rfl, hallowed⟩⟩⟩
  · obtain ⟨rfl, hget, hallowed⟩ := mem_copyField hmem
    exact ⟨by decide, by decide, hget, .inr ⟨htype, .inl ⟨.inr rfl, hallowed⟩⟩⟩
  · obtain ⟨rfl, hget, hallowed⟩ := mem_copyField hmem
    exact ⟨by decide, by decide, hget, .inr ⟨htype, .inr (.inl ⟨.inl rfl, hallowed⟩)⟩⟩
  · obtain ⟨rfl, hget, hallowed⟩ := mem_copyField hmem
    exact ⟨by decide, by decide, hget, .inr ⟨htype, .inr (.inl ⟨.inr rfl, hallowed⟩)⟩⟩
  · obtain ⟨rfl, hget, hallowed⟩ := mem_copyField hmem
    exact ⟨by decide, by decide, hget, .inr ⟨htype, .inr (.inr (.inl ⟨rfl, hallowed⟩))⟩⟩
  · split at hmem
    next hhost =>
      obtain ⟨rfl, hget, hallowed⟩ := mem_copyField hmem
      exact ⟨by decide, by decide, hget,
        .inr ⟨htype, .inr (.inr (.inr ⟨rfl, hhost, hallowed⟩))⟩⟩
    · cases hmem

end Messages

/-! ### Where it goes -/

section Targets

variable {ν : Type} [Numeral ν] {env : Interpreter ν} {m : SignalingManager} {c : Connection}
  {msg payload : Fields ν} {target : PeerId} {value : Value ν} {outputs : List (Output ν)}

/-- The message names the target, or it is a `connect-request` that names nobody, and the target
is the host. -/
def Addresses (env : Interpreter ν) (m : SignalingManager) (slug : Slug) (msg : Fields ν)
    (target : PeerId) : Prop :=
  Fields.get msg "targetId" = some (.string target) ∨
    messageType msg = ofString "connect-request" ∧
      env.isTruthy (Fields.get msg "targetId") = false ∧ m.hostIdFor slug = some target

/-- The kinds of notices. -/
def noticeTypes : List Units := ["welcome", "error", "peer-left"]

/-- The output is a notice of the server, or a message of the sender for a peer of its room. -/
def Output.Sound (env : Interpreter ν) (m : SignalingManager) (c : Connection) (msg : Fields ν) :
    Output ν → Prop
  | .sendJson _ data => ∃ type ∈ noticeTypes, Fields.get data "type" = some (.string type)
  | .deliver target payload => Speaks env c.peer msg payload ∧
      (m.registered c.slug target).isSome ∧ Addresses env m c.slug msg target
  | .close _ _ _ => True

theorem sound_sendError (ws : PeerId) (message : String) :
    (sendError ws message).Sound env m c msg := ⟨"error", by decide, rfl⟩

theorem sound_of_forward {notFound : String} (hspeaks : Speaks env c.peer msg payload)
    (haddresses : ∀ target, value = .string target → Addresses env m c.slug msg target)
    (h : forward m c value notFound payload = .handled outputs) :
    ∀ o ∈ outputs, o.Sound env m c msg := by
  rw [forward] at h
  have hfound (target : PeerId) (hfind : findPeer m c.slug value = .found target) :
      value = .string target ∧ (m.registered c.slug target).isSome := by
    cases value with
    | string id =>
      rw [findPeer] at hfind
      split at hfind
      next hexists =>
        obtain rfl := Found.found.inj hfind
        rw [SignalingManager.peerExists_eq] at hexists
        exact ⟨rfl, hexists⟩
      · cases hfind
    | array items =>
      rw [findPeer] at hfind
      split at hfind <;> cases hfind
    | object fields =>
      rw [findPeer] at hfind
      split at hfind <;> cases hfind
    | _ => cases hfind
  split at h
  · cases h
  · cases h
    intro o ho
    rw [List.mem_singleton.mp ho]
    exact sound_sendError _ _
  next target hfind =>
    cases h
    obtain ⟨hvalue, hregistered⟩ := hfound target hfind
    intro o ho
    rw [List.mem_singleton.mp ho]
    exact ⟨hspeaks, hregistered, haddresses target hvalue⟩

theorem sound_of_handleRelayControl (h : handleRelayControl env m c msg = .handled outputs) :
    ∀ o ∈ outputs, o.Sound env m c msg := by
  rw [handleRelayControl] at h
  split at h
  · cases h
  next htype =>
    have hmissing : ∀ o ∈ [sendError c.peer.peerId "Missing targetId for relay"],
        o.Sound env m c msg := by
      intro o ho
      rw [List.mem_singleton.mp ho]
      exact sound_sendError _ _
    split at h
    next value hvalue =>
      split at h
      · refine sound_of_forward (speaks_relayMsg (not_not.mp htype)) (fun target htarget => ?_) h
        exact .inl (hvalue.trans (congrArg some htarget))
      · cases h
        exact hmissing
    · cases h
      exact hmissing

omit [Numeral ν] in
theorem addresses_of_webrtcTarget (h : webrtcTarget env m c msg = some (.string target)) :
    Addresses env m c.slug msg target := by
  rw [webrtcTarget] at h
  split at h
  · exact .inl h
  next hfalsy =>
    split at h
    next hrequest =>
      obtain ⟨id, hid, hsame⟩ := Option.map_eq_some_iff.mp h
      obtain rfl := Value.string.inj hsame
      exact .inr ⟨hrequest, Bool.not_eq_true _ ▸ hfalsy, (Option.filter_eq_some_iff.mp hid).1⟩
    · cases h

theorem sound_of_handleWebrtcSignaling
    (h : handleWebrtcSignaling env m c msg = .handled outputs) :
    ∀ o ∈ outputs, o.Sound env m c msg := by
  rw [handleWebrtcSignaling] at h
  split at h
  · cases h
  next htype =>
    split at h
    next value hvalue =>
      refine sound_of_forward (speaks_webrtcMsg (not_not.mp htype)) (fun target htarget => ?_) h
      exact addresses_of_webrtcTarget (hvalue.trans (congrArg some htarget))
    · cases h
      intro o ho
      rw [List.mem_singleton.mp ho]
      exact sound_sendError _ _

theorem sound_of_dispatch (h : dispatch env m c value = .handled outputs) :
    ∃ msg, value = .object msg ∧ ∀ o ∈ outputs, o.Sound env m c msg := by
  cases value with
  | object msg =>
    refine ⟨msg, rfl, ?_⟩
    rw [dispatch] at h
    split at h
    · split at h
      · cases h
        intro o ho
        rw [List.mem_singleton.mp ho]
        exact sound_sendError _ _
      · exact sound_of_handleWebrtcSignaling h
    · exact sound_of_handleRelayControl h
  | _ => cases h

end Targets

/-! ### Every run -/

section Runs

variable {ν : Type} [Numeral ν] {env : Interpreter ν} {s : Server} {peerId target : PeerId}
  {c : Connection} {msg payload : Fields ν} {raw : List Char}

/-- The output is a notice of the server. -/
def Output.IsNotice : Output ν → Prop
  | .sendJson _ data => ∃ type ∈ noticeTypes, Fields.get data "type" = some (.string type)
  | .deliver _ _ => False
  | .close _ _ _ => True

/-- A connection sends a message to a target: it is a peer of the same room, unless its room was
closed; what arrives is what it may say, and `metadata` only if it is the host. -/
structure Sends (env : Interpreter ν) (s : Server) (peerId : PeerId) (c : Connection)
    (msg : Fields ν) (target : PeerId) (payload : Fields ν) : Prop where
  named : c.peer.peerId = peerId
  sender : c.evicted = false → s.manager.registered c.slug peerId = some c.peer
  receiver : (s.manager.registered c.slug target).isSome
  addressed : Addresses env s.manager c.slug msg target
  speaks : Speaks env c.peer msg payload
  metadata : (Fields.get payload "metadata").isSome →
    c.peer.role = .host ∧ (c.evicted = false → s.manager.hostIdFor c.slug = some peerId)

/-- Everything that is sent is a notice, or was sent by a connection to a peer of its room. -/
def Isolated (env : Interpreter ν) : System.Condition Server Event := fun _ s l =>
  ∀ o ∈ (serve env s l).2, o.IsNotice ∨ ∃ target payload peerId raw c msg,
    o = .deliver target payload ∧ l = .received peerId raw ∧
      find s.connections peerId = some c ∧ env.loads raw = .value (.object msg) ∧
      Sends env s peerId c msg target payload

theorem role_of_metadata (h : Speaks env c.peer msg payload)
    (hmetadata : (Fields.get payload "metadata").isSome) : c.peer.role = .host := by
  obtain ⟨v, hv⟩ := Option.isSome_iff_exists.mp hmetadata
  rcases h.fields _ v hv with htype | hfrom | ⟨-, hallowed⟩
  · exact absurd htype (by decide)
  · exact absurd hfrom (by decide)
  rcases hallowed with ⟨-, hkey, -⟩ | ⟨-, ⟨hkey, -⟩ | ⟨hkey, -⟩ | ⟨hkey, -⟩ | ⟨-, hrole, -⟩⟩
  · exact absurd hkey (by decide)
  · exact absurd hkey (by decide)
  · exact absurd hkey (by decide)
  · exact absurd hkey (by decide)
  · exact hrole

theorem Inv.sends (h : Inv s) (hc : find s.connections peerId = some c)
    (hsound : (Output.deliver target payload).Sound env s.manager c msg) :
    Sends env s peerId c msg target payload := by
  obtain ⟨hspeaks, htarget, haddressed⟩ := hsound
  refine ⟨h.named _ c hc, fun hlive => h.member _ c hc hlive, htarget, haddressed, hspeaks,
    fun hmetadata => ?_⟩
  have hrole := role_of_metadata hspeaks hmetadata
  exact ⟨hrole, fun hlive => h.valid.hostIdFor (h.member _ c hc hlive) hrole⟩

omit [Numeral ν] in
theorem isNotice_sendError (ws : PeerId) (message : String) :
    (sendError ws message : Output ν).IsNotice := ⟨"error", by decide, rfl⟩

omit [Numeral ν] in
theorem isNotice_broadcastPeerLeft (m : SignalingManager) (slug : Slug) (departedId : PeerId) :
    ∀ o ∈ (broadcastPeerLeft m slug departedId : List (Output ν)), o.IsNotice := by
  intro o ho
  rw [broadcastPeerLeft, List.mem_flatMap] at ho
  obtain ⟨room, -, ho⟩ := ho
  obtain ⟨e, -, rfl⟩ := List.mem_map.mp ho
  exact ⟨"peer-left", by decide, rfl⟩

omit [Numeral ν] in
theorem isNotice_refuse (ws : PeerId) (result : RegisterResult) :
    ∀ o ∈ (refuse ws result : List (Output ν)), o.IsNotice := by
  intro o ho
  cases result with
  | ok => cases ho
  | _ =>
    rw [refuse, List.mem_cons, List.mem_singleton] at ho
    rcases ho with rfl | rfl
    · exact isNotice_sendError _ _
    · exact trivial

omit [Numeral ν] in
theorem isNotice_join (slug : Slug) (peer : Peer) : ∀ o ∈ (s.join env slug peer).2,
    o.IsNotice := by
  intro o ho
  rw [Server.join] at ho
  split at ho
  · rw [List.mem_singleton.mp ho]
    exact ⟨"welcome", by decide, rfl⟩
  · exact isNotice_refuse _ _ o ho

omit [Numeral ν] in
theorem isNotice_closeRoom (slug : Slug) :
    ∀ o ∈ (s.closeRoom slug : Server × List (Output ν)).2, o.IsNotice := by
  intro o ho
  rw [Server.closeRoom] at ho
  split at ho
  · cases ho
  · obtain ⟨e, -, rfl⟩ := List.mem_map.mp ho
    exact trivial

theorem handleText_sound {outputs : List (Output ν)}
    (h : handleText env s.manager c raw = .handled outputs) : ∀ o ∈ outputs,
      o.IsNotice ∨ ∃ msg, env.loads raw = .value (.object msg) ∧ o.Sound env s.manager c msg := by
  rw [handleText] at h
  split at h
  · cases h
    intro o ho
    rw [List.mem_singleton.mp ho]
    exact .inl (isNotice_sendError _ _)
  split at h
  · cases h
    intro o ho
    rw [List.mem_singleton.mp ho]
    exact .inl (isNotice_sendError _ _)
  · cases h
  next v hloads =>
    obtain ⟨msg, rfl, hsound⟩ := sound_of_dispatch h
    exact fun o ho => .inr ⟨msg, hloads, hsound o ho⟩

theorem Inv.isolated_receive (h : Inv s) (hc : find s.connections peerId = some c) :
    ∀ o ∈ (s.receive env peerId c raw).2, o.IsNotice ∨ ∃ target payload msg,
      o = .deliver target payload ∧ env.loads raw = .value (.object msg) ∧
        Sends env s peerId c msg target payload := by
  obtain ⟨hpeer, hslug, -⟩ := throttle_same c s.now
  intro o ho
  rw [Server.receive] at ho
  split at ho
  · left
    rw [Server.finishAfter] at ho
    rcases List.mem_append.mp ho with hlimit | hleft
    · rw [List.mem_cons, List.mem_singleton] at hlimit
      rcases hlimit with rfl | rfl
      · exact isNotice_sendError _ _
      · exact trivial
    · exact isNotice_broadcastPeerLeft _ _ _ o hleft
  split at ho
  · cases ho
  next outputs houtputs =>
    rcases handleText_sound houtputs o ho with hnotice | ⟨msg, hloads, hsound⟩
    · exact .inl hnotice
    · cases o with
      | deliver target payload =>
        have hsame : (Output.deliver target payload).Sound env s.manager c msg := by
          obtain ⟨hspeaks, htarget, haddressed⟩ := hsound
          rw [hpeer] at hspeaks
          rw [hslug] at htarget haddressed
          exact ⟨hspeaks, htarget, haddressed⟩
        exact .inr ⟨target, payload, msg, rfl, hloads, h.sends hc hsame⟩
      | sendJson ws data => exact .inl hsound
      | close ws code reason => exact .inl trivial
  · exact .inl (isNotice_broadcastPeerLeft _ _ _ o ho)

theorem Inv.isolated (h : Inv s) (past : List Event) (l : Event) : Isolated env past s l := by
  intro o ho
  cases l with
  | elapsed duration => cases ho
  | joined slug peer => exact .inl (isNotice_join slug peer o ho)
  | received peerId raw =>
    rw [serve] at ho
    split at ho
    · cases ho
    next c hc =>
      split at ho
      · cases ho
      · obtain hnotice | ⟨target, payload, msg, rfl, hloads, hsends⟩ := h.isolated_receive hc o ho
        · exact .inl hnotice
        · exact .inr ⟨target, payload, peerId, raw, c, msg, rfl, rfl, hc, hloads, hsends⟩
  | left peerId =>
    rw [serve] at ho
    split at ho
    · cases ho
    · exact .inl (isNotice_broadcastPeerLeft _ _ _ o ho)
  | closed slug => exact .inl (isNotice_closeRoom slug o ho)

/-- **Signaling is isolated**, in every run in which the ids of peers are new. -/
theorem signalingIsolated (env : Interpreter ν) (start : ℚ≥0) (ls : List Event)
    (h : (server env start).Along FreshId ls) : (server env start).Along (Isolated env) ls := by
  refine (server env start).along_of_along (fun _ s _ => Inv s) ?_
    (fun _ _ hinv hfresh => inv_serve hinv hfresh)
    (fun past l hinv _ => hinv.isolated past l) h
  exact
    { valid :=
        { nodup := List.nodup_nil
          rooms := fun _ he => absurd he List.not_mem_nil
          size := Nat.zero_le _
          clock := start.2
          lately := fun _ he => absurd he List.not_mem_nil }
      named := fun _ _ hc => absurd hc (Option.not_mem_none _)
      member := fun _ _ hc => absurd hc (Option.not_mem_none _)
      connected := fun _ _ hsome => absurd hsome Bool.false_ne_true }

end Runs

/-- The texts of `JSON.stringify`, with integers. -/
def integers : Interpreter ℤ where
  loads raw := (parse raw).elim .jsonDecodeError .value
  isInt _ := true
  isZero n := n = 0
  iceServers := .array []

/-- A host and a guest join a room. -/
def introduction : List Event :=
  [.joined "a" { peerId := [1], role := .host }, .joined "a" { peerId := [2], role := .guest }]

/-- The guest asks to be connected. -/
def connectRequest : List Char :=
  print javascript (.object [("type", .string "connect-request")] : Value ℤ)

theorem signalingIsolated_introduction : (server integers 0).Along (Isolated integers)
    (introduction ++ [.received [2] connectRequest]) :=
  signalingIsolated integers 0 _ (by decide +kernel)

/-- The socket a message is delivered to. -/
def Output.target? {ν : Type} : Output ν → Option PeerId
  | .deliver target _ => some target
  | _ => none

/-- A message that names nobody is delivered. -/
theorem unaddressed_delivered :
    (server integers 0).Along FreshId introduction ∧
      integers.loads connectRequest = .value (.object [("type", .string "connect-request")]) ∧
      (serve integers ((server integers 0).after introduction)
        (.received [2] connectRequest)).2.map Output.target? = [some [1]] := by
  refine ⟨by decide +kernel, ?_, by decide +kernel⟩
  have hparse : parse connectRequest =
      some (.object [(ofString "type", .string (ofString "connect-request"))] : Value ℤ) :=
    parse_print (by simp [Value.IsFinite, fieldsFinite_iff])
  rw [integers]
  dsimp only
  rw [hparse, Option.elim_some]

end Rapidly.FileSharing.Signaling.InMemory
