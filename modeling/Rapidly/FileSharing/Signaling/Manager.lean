import Mathlib.Data.NNRat.Defs
import Rapidly.FileSharing.Signaling.RedisTransport
import Rapidly.Json.Value
import Rapidly.KeyValue.Association

/-!
# Signaling rooms in memory

`SignalingManager` of `signaling.py`, the transport for a single worker, as a transition system
whose steps are its calls. None of them gives up the event loop while it reads or writes rooms, so
a call is one step.

Times are those of `time.monotonic`, in seconds. The relay counters of a room are those of
`Rapidly.FileSharing.Relay`.
-/

namespace Rapidly.FileSharing.Signaling.InMemory

open KeyValue Payments Transition

/-- A `peer_id`. -/
abbrev PeerId := Json.Units

/-- `MAX_ROOMS` -/
def maxRooms : ℕ := 10000

/-- `STALE_ROOM_SECONDS` -/
def staleRoomSeconds : ℚ := 15 * 60

/-- `_CLEANUP_INTERVAL` -/
def cleanupInterval : ℚ := 60

structure Peer where
  peerId : PeerId
  role : Role
deriving DecidableEq

structure Room where
  peers : List (PeerId × Peer) := []
  hostId : Option PeerId := none
  lastEmptiedAt : ℚ
deriving DecidableEq

namespace Room

variable (room : Room) (now : ℚ)

/-- A room that `_cleanup_stale_rooms` drops. -/
def Stale : Prop := room.peers = [] ∧ now - room.lastEmptiedAt > staleRoomSeconds

instance : Decidable (room.Stale now) := inferInstanceAs (Decidable (_ ∧ _))

/-- The room with a peer that is admitted. -/
def withPeer (peer : Peer) : Room :=
  { room with
    hostId := if peer.role = .host then some peer.peerId else room.hostId
    peers := put room.peers peer.peerId peer }

/-- The room without a peer. -/
def dismiss (peerId : PeerId) : Room where
  peers := remove room.peers peerId
  hostId := if room.hostId = some peerId then none else room.hostId
  lastEmptiedAt := if remove room.peers peerId = [] then now else room.lastEmptiedAt

end Room

structure SignalingManager where
  rooms : List (Slug × Room) := []
  lastCleanupTime : ℚ := 0
deriving DecidableEq

namespace SignalingManager

variable (m : SignalingManager) (now : ℚ) (slug : Slug)

/-- `_cleanup_stale_rooms` is due. -/
def CleanupDue : Prop := now - m.lastCleanupTime > cleanupInterval

instance : Decidable (m.CleanupDue now) := inferInstanceAs (Decidable (_ < _))

/-- The rooms that a cleanup at this time leaves, if one is due. -/
def keptRooms : List (Slug × Room) :=
  if m.CleanupDue now then m.rooms.filter fun e => ¬e.2.Stale now else m.rooms

/-- The beginning of `get_or_create_room`. -/
def cleanUp : SignalingManager where
  rooms := m.keptRooms now
  lastCleanupTime := if m.CleanupDue now then now else m.lastCleanupTime

/-- The room of a slug is written. -/
def setRoom (room : Room) : SignalingManager := { m with rooms := put m.rooms slug room }

/-- The end of `get_or_create_room`. -/
def findOrCreateRoom : Option Room × SignalingManager :=
  match find m.rooms slug with
  | some room => (some room, m)
  | none =>
    if m.rooms.length ≥ maxRooms then (none, m)
    else
      let room : Room := { lastEmptiedAt := now }
      (some room, m.setRoom slug room)

/-- `get_or_create_room` -/
def getOrCreateRoom : Option Room × SignalingManager := (m.cleanUp now).findOrCreateRoom now slug

/-- `get_room` -/
def getRoom : Option Room := find m.rooms slug

/-- `remove_room` -/
def removeRoom : SignalingManager := { m with rooms := remove m.rooms slug }

/-- A refusal after the room was got: a room that was made for the peer is removed again. -/
def dropIfEmpty (room : Room) : SignalingManager :=
  if room.peers = [] then m.removeRoom slug else m

/-- The second half of `register_peer`: the checks of the room. -/
def registerIn (peer : Peer) (room : Room) : RegisterResult × SignalingManager :=
  if peer.role = .host ∧ room.hostId.isSome then (.hostTaken, m.dropIfEmpty slug room)
  else if room.peers.length ≥ maxPeersPerRoom then (.roomFull, m.dropIfEmpty slug room)
  else (.ok, m.setRoom slug (room.withPeer peer))

/-- `register_peer` -/
def registerPeer (peer : Peer) : RegisterResult × SignalingManager :=
  let created := m.getOrCreateRoom now slug
  created.1.elim (.roomLimitReached, created.2) (created.2.registerIn slug peer)

/-- `remove_peer` -/
def removePeer (peerId : PeerId) : SignalingManager :=
  match m.getRoom slug with
  | none => m
  | some room => m.setRoom slug (room.dismiss now peerId)

/-- `close_room`, with what it returns. -/
def closeRoom : Bool × SignalingManager := ((m.getRoom slug).isSome, m.removeRoom slug)

/-- `peer_exists` -/
def peerExists (peerId : PeerId) : Bool :=
  (m.getRoom slug).any fun room => (find room.peers peerId).isSome

/-- `host_id_for` -/
def hostIdFor : Option PeerId := (m.getRoom slug).bind Room.hostId

end SignalingManager

/-! ### Calls in any order -/

structure State where
  now : ℚ
  manager : SignalingManager := {}
deriving DecidableEq

inductive Call where
  | elapsed (duration : ℚ≥0)
  | registerPeer (slug : Slug) (peer : Peer)
  | removePeer (slug : Slug) (peerId : PeerId)
  | closeRoom (slug : Slug)
deriving DecidableEq

inductive Answer where
  | registered (result : RegisterResult)
  | closed (found : Bool)
deriving DecidableEq

/-- A call is answered. -/
def answer (s : State) : Call → State × List Answer
  | .elapsed duration => ({ s with now := s.now + duration }, [])
  | .registerPeer slug peer =>
    let registered := s.manager.registerPeer s.now slug peer
    ({ s with manager := registered.2 }, [.registered registered.1])
  | .removePeer slug peerId => ({ s with manager := s.manager.removePeer s.now slug peerId }, [])
  | .closeRoom slug =>
    let closed := s.manager.closeRoom slug
    ({ s with manager := closed.2 }, [.closed closed.1])

/-- The calls of a worker that is started at a given time. -/
def calls (start : ℚ≥0) : System State Call Answer where
  init := { now := start }
  step := answer

end Rapidly.FileSharing.Signaling.InMemory
