import Mathlib.Order.Lattice
import Rapidly.KeyValue.Association
import Rapidly.Transition.System

/-!
# The participants of a call

`createMesh` of `utils/p2p/mesh.ts`, which keeps a connection to each participant of a call. The
state has all connections that were ever made, in the order in which the factory made them: a
connection that the coordinator has let go can still report that it has closed. What a connection
does on `close` (whether its `onClose` fires before `close` returns) is up to the connection, and
part of the event.

The participants of the last roster are kept along with the state, although the coordinator forgets
them.
-/

namespace Rapidly.P2p.Mesh

open KeyValue

/-- A local track, and the stream it belongs to. -/
structure Published (τ σ : Type) where
  track : τ
  stream : σ
deriving DecidableEq

/-- `PeerLike`, with what the coordinator has done to it. -/
structure Connection (Id τ σ : Type) where
  peer : Id
  /-- What `addTrack` was called with. -/
  tracks : List (Published τ σ)
  /-- `createOffer` was called. -/
  offered : Bool := false
  /-- It was told to close, or has reported that it is closed. -/
  closed : Bool := false
deriving DecidableEq

/-- What the caller is told. -/
inductive Callback (Id τ σ : Type) where
  | peerAdded (peerId : Id) (conn : ℕ)
  | peerRemoved (peerId : Id)
  | remoteTrack (peerId : Id) (track : τ) (streams : List σ)
deriving DecidableEq

structure State (Id τ σ : Type) where
  /-- The list of the last `setParticipants`. -/
  roster : List Id := []
  connections : List (Connection Id τ σ) := []
  /-- The number of the connection of each peer, in the order of a `Map`. -/
  peers : List (Id × ℕ) := []
  publishedTracks : List (Published τ σ) := []
deriving DecidableEq

/-- What happens to a mesh; `fires` says of which connections `close` calls `onClose`. -/
inductive Event (Id τ σ : Type) where
  | setParticipants (ids : List Id) (fires : ℕ → Bool)
  | publishTrack (published : Published τ σ)
  | close (fires : ℕ → Bool)
  /-- A connection reports that it is closed. -/
  | onClose (conn : ℕ)
  /-- A track arrives on a connection. -/
  | onTrack (conn : ℕ) (track : τ) (streams : List σ)

variable {Id τ σ : Type}

def Connection.markClosed (c : Connection Id τ σ) : Connection Id τ σ := { c with closed := true }

def Connection.addTrack (p : Published τ σ) (c : Connection Id τ σ) : Connection Id τ σ :=
  { c with tracks := c.tracks ++ [p] }

/-- A `for` loop whose body changes the state and calls back. -/
def forEach {α : Type} (body : State Id τ σ → α → State Id τ σ × List (Callback Id τ σ)) :
    State Id τ σ → List α → State Id τ σ × List (Callback Id τ σ)
  | s, [] => (s, [])
  | s, x :: xs =>
    ((forEach body (body s x).1 xs).1, (body s x).2 ++ (forEach body (body s x).1 xs).2)

section Coordinator

variable [LinearOrder Id] (selfPeerId : Id) (s : State Id τ σ)

/-- `shouldInitiateOffer` -/
def shouldInitiateOffer (self remote : Id) : Bool := self < remote

/-- `addPeer` -/
def addPeer (remoteId : Id) : State Id τ σ × List (Callback Id τ σ) :=
  let conn : Connection Id τ σ :=
    { peer := remoteId
      tracks := s.publishedTracks
      offered := shouldInitiateOffer selfPeerId remoteId }
  ({ s with
      connections := s.connections ++ [conn]
      peers := put s.peers remoteId s.connections.length },
    [.peerAdded remoteId s.connections.length])

/-- The connection is told to close, or reports that it is closed. -/
def State.markClosed (conn : ℕ) : State Id τ σ :=
  { s with connections := s.connections.modify conn Connection.markClosed }

/-- The `onClose` that `addPeer` has given to a connection. -/
def onClose (conn : ℕ) : State Id τ σ × List (Callback Id τ σ) :=
  match s.connections[conn]? with
  | none => (s, [])
  | some c => ({ s.markClosed conn with peers := remove s.peers c.peer }, [.peerRemoved c.peer])

/-- `removePeer`; an exception of `close` is caught, so that it makes no difference. -/
def removePeer (fires : ℕ → Bool) (remoteId : Id) : State Id τ σ × List (Callback Id τ σ) :=
  match find s.peers remoteId with
  | none => (s, [])
  | some conn =>
    let (s, calls) := if fires conn then onClose s conn else (s.markClosed conn, [])
    if (find s.peers remoteId).isSome then
      ({ s with peers := remove s.peers remoteId }, calls ++ [.peerRemoved remoteId])
    else (s, calls)

/-- The members of a roster apart from oneself, each one once. -/
def targetSet (ids : List Id) : List Id := (ids.filter (· ≠ selfPeerId)).eraseDups

/-- The first loop of `setParticipants`. -/
def removeMissing (fires : ℕ → Bool) (ids : List Id) : State Id τ σ × List (Callback Id τ σ) :=
  forEach (fun s existing =>
    if existing ∈ targetSet selfPeerId ids then (s, []) else removePeer s fires existing) s
    (s.peers.map Prod.fst)

/-- The second loop of `setParticipants`. -/
def addAppeared (ids : List Id) : State Id τ σ × List (Callback Id τ σ) :=
  forEach (fun s id => if (find s.peers id).isSome then (s, []) else addPeer selfPeerId s id) s
    (targetSet selfPeerId ids)

/-- `setParticipants` -/
def setParticipants (ids : List Id) (fires : ℕ → Bool) :
    State Id τ σ × List (Callback Id τ σ) :=
  let removed := removeMissing selfPeerId s fires ids
  let added := addAppeared selfPeerId removed.1 ids
  ({ added.1 with roster := ids }, removed.2 ++ added.2)

/-- `publishTrack` -/
def publishTrack (published : Published τ σ) : State Id τ σ :=
  { s with
    publishedTracks := s.publishedTracks ++ [published]
    connections := (s.peers.map Prod.snd).foldl
      (fun connections conn => connections.modify conn (Connection.addTrack published))
      s.connections }

/-- `close` -/
def close (fires : ℕ → Bool) : State Id τ σ × List (Callback Id τ σ) :=
  let closed := forEach (fun s id => removePeer s fires id) s (s.peers.map Prod.fst)
  ({ closed.1 with publishedTracks := [] }, closed.2)

def step : Event Id τ σ → State Id τ σ × List (Callback Id τ σ)
  | .setParticipants ids fires => setParticipants selfPeerId s ids fires
  | .publishTrack published => (publishTrack s published, [])
  | .close fires => close s fires
  | .onClose conn => onClose s conn
  | .onTrack conn track streams =>
    match s.connections[conn]? with
    | none => (s, [])
    | some c => (s, [.remoteTrack c.peer track streams])

end Coordinator

/-- A mesh, from its creation on. -/
def mesh [LinearOrder Id] (selfPeerId : Id) :
    Transition.System (State Id τ σ) (Event Id τ σ) (Callback Id τ σ) where
  init := {}
  step := step selfPeerId

end Rapidly.P2p.Mesh
