import Rapidly.FileSharing.Relay.BinaryRelay
import Rapidly.FileSharing.Signaling.Manager
import Rapidly.Json.Styles

/-!
# The relay loop

`handle_signaling` of `signaling.py` over the rooms in memory, from the registration of an
authenticated peer on: a connection reads texts, and forwards what it allows of them to another
peer of its room. Reading rooms never gives up the event loop, so a text is handled in one step.

* `json.loads` is a parameter, and so are the numbers; an `Interpreter` says which of them are
  integers.
* `close_room` takes a room away at once and then closes the sockets of its peers one by one; until
  the end of its connection a peer may still be heard. Such a connection is marked as `evicted`.
* Binary frames are those of `Rapidly.FileSharing.Relay`, and carry no message of the server.
-/

namespace Rapidly.FileSharing.Signaling.InMemory

open Json KeyValue Payments Relay Transition

/-- What the handlers use of Python, and the configuration. -/
structure Interpreter (ν : Type) where
  /-- `json.loads`. -/
  loads : List Char → Loads ν
  /-- The number is an `int`. -/
  isInt : ν → Bool
  isZero : ν → Bool
  iceServers : Value ν

/-- `WS_MSG_RATE_LIMIT` -/
def wsMsgRateLimit : ℕ := 60

/-- `WS_MSG_RATE_WINDOW` -/
def wsMsgRateWindow : ℚ := 10

/-- The length of a string in Python, where a surrogate pair is one character. -/
def len : Units → ℕ
  | [] => 0
  | [_] => 1
  | u :: v :: rest => if isLeading u ∧ isTrailing v then len rest + 1 else len (v :: rest) + 1

variable {ν : Type} [Numeral ν] (env : Interpreter ν)

namespace Interpreter

/-- The truth of what `.get` returns. -/
def isTruthy : Option (Value ν) → Bool
  | none | some .null => false
  | some (.bool b) => b
  | some (.number n) => ¬env.isZero n
  | some (.string s) => s ≠ []
  | some (.array items) => ¬items.isEmpty
  | some (.object fields) => ¬fields.isEmpty

/-- `isinstance(val, str) and len(val) <= limit`. -/
def isStr (limit : ℕ) : Value ν → Bool
  | .string s => len s ≤ limit
  | _ => false

/-- `val is None or (isinstance(val, str) and len(val) <= 255)`. -/
def isNullableStr : Value ν → Bool
  | .null => true
  | v => isStr 255 v

/-- `val is None or isinstance(val, int)`. A `bool` is an `int`. -/
def isNullableInt : Value ν → Bool
  | .null | .bool _ => true
  | .number n => env.isInt n
  | _ => false

/-- The value of a flat dictionary. -/
def isScalar : Value ν → Bool
  | .array _ | .object _ => false
  | _ => true

/-- The check of `metadata`: a flat dictionary of at most 4096 characters. -/
def isMetadata : Value ν → Bool
  | .object fields =>
    (fields.all fun f => isScalar f.2) &&
      (print python (.object (Fields.dictionary fields))).length ≤ 4096
  | _ => false

end Interpreter

open Interpreter

/-! ### Connections -/

/-- A connection in its relay loop. -/
structure Connection where
  peer : Peer
  slug : Slug
  msgCount : ℕ := 0
  windowStart : ℚ
  /-- Its room was closed. -/
  evicted : Bool := false
deriving DecidableEq

inductive Output (ν : Type) where
  /-- A notice of the server to a socket. -/
  | sendJson (ws : PeerId) (data : Fields ν)
  /-- A message of another peer, by `send_to_peer`. -/
  | deliver (target : PeerId) (payload : Fields ν)
  | close (ws : PeerId) (code : ℕ) (reason : String)

/-- `_send_error` -/
def sendError (ws : PeerId) (message : String) : Output ν :=
  .sendJson ws [("type", .string "error"), ("message", .string message)]

/-- What a handler does with a message. -/
inductive Handled (ν : Type) where
  /-- It returns `False`. -/
  | ignored
  | handled (outputs : List (Output ν))
  /-- An exception ends the connection. -/
  | raises

/-- What the transport knows about a target. -/
inductive Found where
  | found (target : PeerId)
  | missing
  | raises

/-- `peer_exists`, for a target that may be anything. -/
def findPeer (m : SignalingManager) (slug : Slug) : Value ν → Found
  | .string target => if m.peerExists slug target then .found target else .missing
  -- not hashable; but a room that does not exist is not asked
  | .array _ | .object _ => if (m.getRoom slug).isSome then .raises else .missing
  | _ => .missing

/-- A field is copied, if the message has it and its value is allowed. -/
def copyField (msg : Fields ν) (name : Units) (allowed : Value ν → Bool) : Fields ν :=
  match Fields.get msg name with
  | some v => if allowed v then [(name, v)] else []
  | none => []

/-- The fields every forwarded message has. -/
def envelope (peerId : PeerId) (type : Units) : Fields ν :=
  [("type", .string type), ("fromId", .string peerId)]

/-- Forward to a target, or say why not. -/
def forward (m : SignalingManager) (c : Connection) (target : Value ν) (notFound : String)
    (payload : Fields ν) : Handled ν :=
  match findPeer m c.slug target with
  | .raises => .raises
  | .missing => .handled [sendError c.peer.peerId notFound]
  | .found target => .handled [.deliver target payload]

/-- The types of `_handle_relay_control`. -/
def relayTypes : List Units := ["relay:start", "relay:ack", "relay:done", "relay:data"]

/-- The types of `_handle_webrtc_signaling`. -/
def webrtcTypes : List Units := ["offer", "answer", "ice-candidate", "connect-request"]

/-- What `_handle_relay_control` forwards. -/
def relayMsg (peerId : PeerId) (type : Units) (msg : Fields ν) : Fields ν :=
  envelope peerId type ++
    if type = ofString "relay:data" then copyField msg "data" (isStr maxSignalingMessageSize)
    else []

/-- What `_handle_webrtc_signaling` forwards. -/
def webrtcMsg (peer : Peer) (type : Units) (msg : Fields ν) : Fields ν :=
  envelope peer.peerId type ++
    (copyField msg "sdp" (isStr maxSignalingMessageSize) ++
      (copyField msg "candidate" (isStr maxSignalingMessageSize) ++
        (copyField msg "sdpMid" isNullableStr ++
          (copyField msg "usernameFragment" isNullableStr ++
            (copyField msg "sdpMLineIndex" env.isNullableInt ++
              if peer.role = .host then copyField msg "metadata" isMetadata else [])))))

/-- The type of a message, if it is a string. -/
def messageType (msg : Fields ν) : Units :=
  ((Fields.get msg "type").bind Value.toUnits?).getD []

/-- `_handle_relay_control` -/
def handleRelayControl (m : SignalingManager) (c : Connection) (msg : Fields ν) : Handled ν :=
  if messageType msg ∉ relayTypes then .ignored
  else
    match Fields.get msg "targetId" with
    | some target =>
      if env.isTruthy (some target) then
        forward m c target "Relay target not found" (relayMsg c.peer.peerId (messageType msg) msg)
      else .handled [sendError c.peer.peerId "Missing targetId for relay"]
    | none => .handled [sendError c.peer.peerId "Missing targetId for relay"]

/-- The target of a WebRTC message: the one that it names, or the host for a `connect-request`. -/
def webrtcTarget (m : SignalingManager) (c : Connection) (msg : Fields ν) : Option (Value ν) :=
  if env.isTruthy (Fields.get msg "targetId") then Fields.get msg "targetId"
  else if messageType msg = ofString "connect-request" then
    ((m.hostIdFor c.slug).filter (· ≠ [])).map .string
  else none

/-- `_handle_webrtc_signaling` -/
def handleWebrtcSignaling (m : SignalingManager) (c : Connection) (msg : Fields ν) : Handled ν :=
  if messageType msg ∉ webrtcTypes then .ignored
  else
    match webrtcTarget env m c msg with
    | some target =>
      forward m c target "Target peer not found" (webrtcMsg env c.peer (messageType msg) msg)
    | none => .handled [sendError c.peer.peerId "Missing targetId"]

/-- The dispatch at the end of the loop. -/
def dispatch (m : SignalingManager) (c : Connection) : Value ν → Handled ν
  | .object msg =>
    match handleRelayControl env m c msg with
    | .ignored =>
      match handleWebrtcSignaling env m c msg with
      | .ignored => .handled [sendError c.peer.peerId "Unknown message type"]
      | done => done
    | done => done
  -- `.get` of something that is no dictionary
  | _ => .raises

/-- The text of a connection after the throttle. -/
def handleText (m : SignalingManager) (c : Connection) (raw : List Char) : Handled ν :=
  if raw.length > maxSignalingMessageSize then
    .handled [sendError c.peer.peerId "Message too large"]
  else
    match env.loads raw with
    | .jsonDecodeError => .handled [sendError c.peer.peerId "Invalid JSON"]
    | .raises => .raises
    | .value v => dispatch env m c v

/-- The message rate of a connection: a new window, or one more message in this one. -/
def Connection.throttle (c : Connection) (now : ℚ) : Connection :=
  if now - c.windowStart ≥ wsMsgRateWindow then { c with msgCount := 1, windowStart := now }
  else { c with msgCount := c.msgCount + 1 }

/-! ### The server -/

structure Server where
  now : ℚ
  manager : SignalingManager := {}
  connections : List (PeerId × Connection) := []

inductive Event where
  | elapsed (duration : ℚ≥0)
  /-- A peer has authenticated, and is registered. -/
  | joined (slug : Slug) (peer : Peer)
  /-- A connection receives a text. -/
  | received (peerId : PeerId) (raw : List Char)
  /-- A connection ends: it is closed by the other side, or has lived for too long. -/
  | left (peerId : PeerId)
  /-- `close_room` -/
  | closed (slug : Slug)

/-- A refusal of `handle_signaling`. -/
def refuse (ws : PeerId) : RegisterResult → List (Output ν)
  | .roomLimitReached => [sendError ws "Server room limit reached", .close ws 4029 "Too many rooms"]
  | .hostTaken => [sendError ws "Room already has a host", .close ws 4009 "Host already connected"]
  | .roomFull => [sendError ws "Room is full", .close ws 4029 "Room peer limit reached"]
  | .ok => []

/-- `broadcast_peer_left` -/
def broadcastPeerLeft (m : SignalingManager) (slug : Slug) (departedId : PeerId) :
    List (Output ν) :=
  (m.getRoom slug).toList.flatMap fun room => room.peers.map fun e =>
    .sendJson e.1 [("type", .string "peer-left"), ("peerId", .string departedId)]

namespace Server

variable (s : Server)

/-- A peer is registered. -/
def join (slug : Slug) (peer : Peer) : Server × List (Output ν) :=
  let registered := s.manager.registerPeer s.now slug peer
  if registered.1 = .ok then
    ({ s with
        manager := registered.2
        connections := put s.connections peer.peerId { peer, slug, windowStart := s.now } },
      [.sendJson peer.peerId
        [("type", .string "welcome"), ("peerId", .string peer.peerId),
          ("iceServers", env.iceServers)]])
  else ({ s with manager := registered.2 }, refuse peer.peerId registered.1)

/-- The end of `handle_signaling`. -/
def finish (peerId : PeerId) (c : Connection) : Server × List (Output ν) :=
  let m := s.manager.removePeer s.now c.slug peerId
  ({ s with manager := m, connections := remove s.connections peerId },
    broadcastPeerLeft m c.slug peerId)

/-- The end of a connection, after some outputs. -/
def finishAfter (outputs : List (Output ν)) (peerId : PeerId) (c : Connection) :
    Server × List (Output ν) :=
  let finished := s.finish peerId c
  (finished.1, outputs ++ finished.2)

/-- A connection goes on. -/
def goOn (peerId : PeerId) (c : Connection) : Server :=
  { s with connections := assign s.connections peerId c }

/-- A connection receives a text that is not empty. -/
def receive (peerId : PeerId) (c : Connection) (raw : List Char) : Server × List (Output ν) :=
  let c := c.throttle s.now
  if c.msgCount > wsMsgRateLimit then
    s.finishAfter
      [sendError peerId "Message rate limit exceeded", .close peerId 4029 "Rate limit exceeded"]
      peerId c
  else
    match handleText env s.manager c raw with
    | .ignored => (s.goOn peerId c, [])
    | .handled outputs => (s.goOn peerId c, outputs)
    | .raises => s.finish peerId c

/-- The connections of a room that is closed. -/
def evict (room : Room) : List (PeerId × Connection) :=
  s.connections.map fun e =>
    (e.1, if (find room.peers e.1).isSome then { e.2 with evicted := true } else e.2)

/-- `close_room` -/
def closeRoom (slug : Slug) : Server × List (Output ν) :=
  match s.manager.getRoom slug with
  | none => (s, [])
  | some room =>
    ({ s with manager := s.manager.removeRoom slug, connections := s.evict room },
      room.peers.map fun e => .close e.1 4010 "Channel reported")

end Server

/-- A step of the server. -/
def serve (s : Server) : Event → Server × List (Output ν)
  | .elapsed duration => ({ s with now := s.now + duration }, [])
  | .joined slug peer => s.join env slug peer
  | .received peerId raw =>
    match find s.connections peerId with
    | none => (s, [])
    | some c => if raw = [] then (s, []) else s.receive env peerId c raw
  | .left peerId =>
    match find s.connections peerId with
    | none => (s, [])
    | some c => s.finish peerId c
  | .closed slug => s.closeRoom slug

/-- The signaling server, from a given time on. -/
def server (start : ℚ≥0) : System Server Event (Output ν) where
  init := { now := start }
  step := serve env

end Rapidly.FileSharing.Signaling.InMemory
