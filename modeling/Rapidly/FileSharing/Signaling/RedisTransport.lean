import Rapidly.FileSharing.Payments.Repository
import Rapidly.KeyValue.Hash
import Rapidly.Transition.System

/-!
# Signaling rooms in Redis

`RedisRoomTransport` of `signaling_redis_transport.py`, with the script of `redis_scripts.py`, on
any number of workers, as a transition system whose steps are single Redis commands and scripts.
A room is a hash of its peers and a key that names its host.

* `register_peer` executes the script and subscribes the worker to the channel of the peer;
  `remove_peer` deletes the field of the peer, reads the host, deletes the host if it is that
  peer, and unsubscribes; `close_room` reads the peers, publishes to each of them and deletes the
  room. `Call` names the command that comes next.
* The peer identifiers are fresh: a peer is the number of the call that registers it, which is
  also what its worker's socket and subscription are filed under. What a message makes a worker
  do is left out but for closing the socket.
* A command that raises `RedisError` has not been executed. Which one does is part of the label.
-/

namespace Rapidly.FileSharing.Signaling

open KeyValue Payments Transition

/-- A peer, by the number of the call that registers it. -/
abbrev PeerId := ℕ

/-- The role of a peer in its room. -/
inductive Role where
  | host
  | guest
deriving DecidableEq

/-- The keys of rooms. -/
structure Redis where
  /-- `file-sharing:p2p:room:{slug}:peers` -/
  peers : Store Slug (List (PeerId × Role)) := Store.empty
  /-- `file-sharing:p2p:room:{slug}:host` -/
  hosts : Store Slug PeerId := Store.empty

inductive RegisterResult where
  | ok
  | hostTaken
  | roomFull
  | roomLimitReached
deriving DecidableEq

/-- `_MAX_PEERS_PER_ROOM` -/
def maxPeersPerRoom : ℕ := 50

/-- `_ROOM_TTL_SECONDS` -/
def roomTtl : ℕ := 6 * 60 * 60

namespace Redis

variable (redis : Redis) (now : ℕ) (slug : Slug)

/-- What `ATOMIC_REGISTER_PEER_LUA` writes for a peer that it admits. -/
def admitPeer (peer : PeerId) (role : Role) : Redis where
  peers := (redis.peers.hset now slug peer role).expire now slug roomTtl
  hosts := if role = .host then redis.hosts.setex now slug roomTtl peer else redis.hosts

/-- `ATOMIC_REGISTER_PEER_LUA`. -/
def atomicRegisterPeer (peer : PeerId) (role : Role) : RegisterResult × Redis :=
  if role = .host ∧ (redis.hosts.entryAt now slug).isSome then (.hostTaken, redis)
  else if maxPeersPerRoom ≤ redis.peers.hlen now slug then (.roomFull, redis)
  else (.ok, redis.admitPeer now slug peer role)

/-- `HDEL` of `remove_peer`. -/
def deletePeer (peer : PeerId) : Redis := { redis with peers := redis.peers.hdel now slug peer }

/-- `DEL` of `remove_peer`. -/
def deleteHost : Redis := { redis with hosts := redis.hosts.delete slug }

/-- `DEL` of `close_room`. -/
def deleteRoom : Redis where
  peers := redis.peers.delete slug
  hosts := redis.hosts.delete slug

end Redis

/-- A call at the command it executes next. -/
inductive Call where
  /-- The script of `register_peer`. -/
  | registering (slug : Slug) (role : Role)
  /-- `SUBSCRIBE` of a peer that was admitted. -/
  | subscribing (slug : Slug)
  /-- `register_peer` has returned `OK`. -/
  | registered (slug : Slug)
  /-- `HDEL` of `remove_peer`. -/
  | removing (slug : Slug) (peer : PeerId)
  | readingHost (slug : Slug) (peer : PeerId)
  | deletingHost (slug : Slug) (peer : PeerId)
  | unsubscribing (peer : PeerId)
  /-- `HKEYS` of `close_room`. -/
  | readingPeers (slug : Slug)
  /-- `PUBLISH` to the first of these peers. -/
  | publishing (slug : Slug) (peer : PeerId) (rest : List PeerId)
  | deletingRoom (slug : Slug)
  | finished
deriving DecidableEq

inductive Output where
  /-- `register_peer` returns. -/
  | registerResult (result : RegisterResult)
  /-- A close envelope has reached the worker of a peer. -/
  | closeSent (peer : PeerId)
  /-- `close_room` returns. -/
  | roomClosed (slug : Slug) (closed : Bool)
deriving DecidableEq

structure State where
  /-- Milliseconds. -/
  now : ℕ := 0
  redis : Redis := {}
  /-- The sockets that some worker owns, `_local_ws`. -/
  localWs : List PeerId := []
  /-- The peers whose channel a worker is subscribed to. -/
  subscribed : List PeerId := []
  calls : List Call := []

inductive Event where
  | elapsed (duration : ℕ)
  /-- A new peer asks to be registered. -/
  | joined (slug : Slug) (role : Role)
  /-- The socket of a registered peer is gone. -/
  | left (peer : PeerId)
  /-- `close_room` is called. -/
  | closed (slug : Slug)
  /-- A call executes its next command, or fails to. -/
  | resumed (call : ℕ) (failed : Bool)
deriving DecidableEq

/-- What a call does with its next command. -/
structure Advance where
  redis : Redis
  localWs : List PeerId
  subscribed : List PeerId
  call : Call := .finished
  outputs : List Output := []

section System

variable (s : State)

/-- The command after a message to some peers has been sent. -/
def publishNext (slug : Slug) : List PeerId → Call
  | [] => .deletingRoom slug
  | peer :: rest => .publishing slug peer rest

/-- The state left alone, and the call that goes on. -/
def State.goOn (call : Call) (outputs : List Output) : Advance :=
  { redis := s.redis, localWs := s.localWs, subscribed := s.subscribed, call, outputs }

/-- Execute the next command of a call, and go on to the one after that. -/
def advance (i : ℕ) (failed : Bool) : Call → Advance
  -- `register_peer`
  | .registering slug role =>
    if failed then s.goOn .finished [.registerResult .roomLimitReached]
    else
      let registered := s.redis.atomicRegisterPeer s.now slug i role
      match registered.1 with
      | .ok =>
        { redis := registered.2, localWs := s.localWs.insert i, subscribed := s.subscribed
          call := .subscribing slug }
      | result => s.goOn .finished [.registerResult result]
  | .subscribing slug =>
    { redis := s.redis, localWs := s.localWs
      subscribed := if failed then s.subscribed else s.subscribed.insert i
      call := .registered slug, outputs := [.registerResult .ok] }
  | .registered slug => s.goOn (.registered slug) []
  -- `remove_peer`
  | .removing slug peer =>
    if failed then s.goOn (.unsubscribing peer) []
    else
      { redis := s.redis.deletePeer s.now slug peer, localWs := s.localWs
        subscribed := s.subscribed, call := .readingHost slug peer }
  | .readingHost slug peer =>
    if ¬failed ∧ s.redis.hosts.get s.now slug = some peer then
      s.goOn (.deletingHost slug peer) []
    else s.goOn (.unsubscribing peer) []
  | .deletingHost slug peer =>
    { redis := if failed then s.redis else s.redis.deleteHost slug, localWs := s.localWs
      subscribed := s.subscribed, call := .unsubscribing peer }
  | .unsubscribing peer =>
    { redis := s.redis, localWs := s.localWs
      subscribed := if failed then s.subscribed else s.subscribed.filter (· ≠ peer) }
  -- `close_room`
  | .readingPeers slug =>
    if failed then s.goOn .finished [.roomClosed slug false]
    else
      match s.redis.peers.hkeys s.now slug with
      | [] => s.goOn .finished [.roomClosed slug false]
      | peer :: rest => s.goOn (.publishing slug peer rest) []
  | .publishing slug peer rest =>
    s.goOn (publishNext slug rest)
      (if ¬failed ∧ peer ∈ s.subscribed ∧ peer ∈ s.localWs then [.closeSent peer] else [])
  | .deletingRoom slug =>
    { redis := if failed then s.redis else s.redis.deleteRoom slug, localWs := s.localWs
      subscribed := s.subscribed, outputs := [.roomClosed slug true] }
  | .finished => s.goOn .finished []

def step : Event → State × List Output
  | .elapsed duration => ({ s with now := s.now + duration }, [])
  | .joined slug role => ({ s with calls := s.calls ++ [.registering slug role] }, [])
  | .left peer =>
    match s.calls[peer]? with
    | some (.registered slug) =>
      if peer ∈ s.localWs then
        ({ s with
            localWs := s.localWs.filter (· ≠ peer)
            calls := s.calls ++ [.removing slug peer] }, [])
      else (s, [])
    | _ => (s, [])
  | .closed slug => ({ s with calls := s.calls ++ [.readingPeers slug] }, [])
  | .resumed i failed =>
    match s.calls[i]? with
    | none => (s, [])
    | some call =>
      let next := advance s i failed call
      ({ s with
          redis := next.redis
          localWs := next.localWs
          subscribed := next.subscribed
          calls := s.calls.set i next.call }, next.outputs)

end System

/-- Signaling on any number of workers. -/
def signaling : System State Event Output where
  init := {}
  step := step

end Rapidly.FileSharing.Signaling
