import Mathlib.Data.NNRat.Defs
import Rapidly.Binary.LittleEndian
import Rapidly.FileSharing.Messages
import Rapidly.FileSharing.Payments.Repository
import Rapidly.Json.Value
import Rapidly.Transition.System

/-!
# The relay on the server: binary frames

`_handle_binary_relay` of `signaling.py`. A frame names its target in a JSON header, of which the
server forwards nothing; the rest goes to the target, if the room's budget allows it.

The handler is suspended once, while the transport is asked whether the target exists, and any
number of handlers may be suspended at a time. From there on it checks the budget, counts the
payload and hands it to the transport without a break.

* A `Room` is what a worker keeps for a room: the in-memory transport, which is for a single
  worker, makes one when the first peer is registered; with the Redis transport every worker that
  has a peer of the room keeps one of its own.
* `Loads` is what `json.loads` can do with bytes: it decodes them, raises what the handler catches,
  or raises something else. The decoder itself is a parameter.
* A target that is no string names no peer. A list or a dictionary cannot even be looked up.
-/

namespace Rapidly.FileSharing.Relay

open Payments Transition

/-- `MAX_SIGNALING_MESSAGE_SIZE`. -/
def maxSignalingMessageSize : ℕ := 64 * 1024

/-- `MAX_RELAY_SESSION_BYTES`. -/
def maxRelaySessionBytes : ℕ := 10 * 1024 * 1024 * 1024

/-- `RELAY_RATE_LIMIT_BYTES_PER_SEC`. -/
def relayRateLimitBytesPerSec : ℕ := 50 * 1024 * 1024

/-- A `peer_id`. -/
abbrev PeerId := Json.Units

/-! ### Frames -/

/-- What `json.loads` does with bytes. -/
inductive Loads (ν : Type) where
  | value (v : Json.Value ν)
  /-- A `JSONDecodeError` or a `TypeError`. -/
  | jsonDecodeError
  | raises

/-- What a binary message asks for. -/
inductive Frame where
  /-- Nothing. -/
  | ignored
  /-- An exception ends the connection. -/
  | raises
  | chunk (target : PeerId) (payload : Bytes)
deriving DecidableEq

/-- The target of a header that is a `relay:chunk`. -/
def chunkFor {ν : Type} (target : Option (Json.Value ν)) (payload : Bytes) : Frame :=
  match target with
  | some (.string (unit :: units)) => .chunk (unit :: units) payload
  -- truthy and not hashable
  | some (.array (_ :: _)) | some (.object (_ :: _)) => .raises
  | _ => .ignored

/-- The first half of `_handle_binary_relay`: four bytes of length, a JSON header of that length,
the payload. -/
def parseFrame {ν : Type} (loads : Bytes → Loads ν) (binaryData : Bytes) : Frame :=
  if binaryData.length < 4 then .ignored
  else
    let headerLen := Binary.ofBytes (binaryData.take 4).reverse
    if headerLen > maxSignalingMessageSize ∨ headerLen > binaryData.length - 4 then .ignored
    else
      match loads ((binaryData.drop 4).take headerLen) with
      | .jsonDecodeError => .ignored
      | .raises => .raises
      | .value (.object relayHeader) =>
        if (Json.Fields.get relayHeader "type").bind Json.Value.toUnits? ≠
            some (Json.ofString "relay:chunk") then .ignored
        else chunkFor (Json.Fields.get relayHeader "targetId") (binaryData.drop (4 + headerLen))
      -- `.get` of something that is no dictionary
      | .value _ => .raises

/-! ### Budgets -/

/-- The counters of a `Room`. Times are those of `time.monotonic`, in seconds. -/
structure Room where
  relayBytes : ℕ := 0
  relayWindowStart : ℚ := 0
  relayWindowBytes : ℕ := 0
deriving DecidableEq

namespace Room

variable (room : Room) (now : ℚ) (payloadLen : ℕ)

/-- A new window, when the last one is over. -/
def rollOver : Room :=
  if 1 ≤ now - room.relayWindowStart then
    { room with relayWindowStart := now, relayWindowBytes := 0 }
  else room

/-- The room's total has no space left for the payload. -/
def overSession : Prop := room.relayBytes + payloadLen > maxRelaySessionBytes

/-- The window has no space left for the payload. -/
def overRate : Prop :=
  (room.rollOver now).relayWindowBytes + payloadLen > relayRateLimitBytesPerSec

instance : Decidable (room.overSession payloadLen) := inferInstanceAs (Decidable (_ < _))

instance : Decidable (room.overRate now payloadLen) := inferInstanceAs (Decidable (_ < _))

/-- The payload is counted. -/
def count : Room :=
  { room with
    relayBytes := room.relayBytes + payloadLen
    relayWindowBytes := room.relayWindowBytes + payloadLen }

end Room

/-! ### The transition system -/

/-- Which `Room`: the worker that keeps it, the slug it is for, and how many the worker has had for
the slug before. -/
structure RoomRef where
  worker : ℕ
  slug : Slug
  generation : ℕ := 0
deriving DecidableEq

/-- A handler that waits for `peer_exists`. -/
structure Handler where
  room : RoomRef
  target : PeerId
  payload : Bytes
deriving DecidableEq

structure State where
  now : ℚ
  /-- The registered peers of each room. -/
  peers : Slug → List PeerId := fun _ => []
  rooms : RoomRef → Room := fun _ => {}
  handlers : List Handler := []

inductive Event where
  /-- Time passes, in seconds. -/
  | elapsed (duration : ℚ≥0)
  /-- Peers come and go. -/
  | membership (slug : Slug) (peers : List PeerId)
  /-- A connection of the room receives a binary message. -/
  | received (room : RoomRef) (binaryData : Bytes)
  /-- A suspended handler learns whether its target exists. -/
  | resumed (handler : ℕ)

/-- What a handler does. -/
inductive Action where
  /-- `send_to_peer`. -/
  | sendToPeer (slug : Slug) (target : PeerId) (payload : Bytes)
  /-- The sender is told, and its connection closed. -/
  | close (error : String)
  /-- The connection of the sender ends with an exception. -/
  | raises
deriving DecidableEq

/-- An action of a handler, with its room and its time. -/
structure Observation where
  room : RoomRef
  time : ℚ
  action : Action
deriving DecidableEq

namespace State

variable (s : State) (handler : Handler)

/-- The state with another `Room`. -/
def setRoom (ref : RoomRef) (room : Room) : State :=
  { s with rooms := Function.update s.rooms ref room }

/-- What a handler does, as an observation. -/
def observe (action : Action) : Observation := { room := handler.room, time := s.now, action }

/-- The second half of `_handle_binary_relay`, from the answer of `peer_exists` on. -/
def relay : State × List Observation :=
  let room := s.rooms handler.room
  let payloadLen := handler.payload.length
  if handler.target ∉ s.peers handler.room.slug then (s, [])
  else if room.overSession payloadLen then
    (s, [s.observe handler (.close "Relay session size limit exceeded")])
  else if room.overRate s.now payloadLen then
    (s.setRoom handler.room (room.rollOver s.now),
      [s.observe handler (.close "Relay rate limit exceeded")])
  else
    (s.setRoom handler.room ((room.rollOver s.now).count payloadLen),
      [s.observe handler
        (.sendToPeer handler.room.slug handler.target handler.payload)])

end State

section System

variable {ν : Type} (loads : Bytes → Loads ν)

def step (s : State) : Event → State × List Observation
  | .elapsed duration => ({ s with now := s.now + duration }, [])
  | .membership slug peers => ({ s with peers := Function.update s.peers slug peers }, [])
  | .received room binaryData =>
    match parseFrame loads binaryData with
    | .ignored => (s, [])
    | .raises => (s, [{ room, time := s.now, action := .raises }])
    | .chunk target payload =>
      ({ s with handlers := s.handlers ++ [{ room, target, payload }] }, [])
  | .resumed i =>
    match s.handlers[i]? with
    | none => (s, [])
    | some handler => { s with handlers := s.handlers.eraseIdx i : State }.relay handler

/-- The relay, from a given time on. -/
def relay (start : ℚ≥0) : System State Event Observation where
  init := { now := start }
  step := step loads

end System

/-! ### What a frame says -/

theorem parseFrame_beBytes {ν : Type} {loads : Bytes → Loads ν} {header payload : Bytes}
    {fields : Json.Fields ν} {unit : UInt16} {units : List UInt16}
    (hlength : header.length ≤ maxSignalingMessageSize)
    (hloads : loads header = .value (.object fields))
    (htype : Json.Fields.get fields "type" = some (.string "relay:chunk"))
    (htarget : Json.Fields.get fields "targetId" = some (.string (unit :: units))) :
    parseFrame loads (Binary.beBytes 4 header.length ++ header ++ payload) =
      .chunk (unit :: units) payload := by
  have hlength32 : header.length < 2 ^ 32 := lt_of_le_of_lt hlength (by decide)
  have hlong : ¬(Binary.lengthPrefixed header payload).length < 4 := by
    rw [Binary.length_lengthPrefixed]
    omega
  have hfits : ¬(header.length > maxSignalingMessageSize ∨
      header.length > (Binary.lengthPrefixed header payload).length - 4) := by
    rw [Binary.length_lengthPrefixed]
    omega
  have hnumber : Binary.ofBytes ((Binary.lengthPrefixed header payload).take 4).reverse =
      header.length := Binary.headerLength_lengthPrefixed header payload hlength32
  rw [← Binary.lengthPrefixed, parseFrame, if_neg hlong]
  rw [hnumber, if_neg hfits, Binary.take_drop_lengthPrefixed, hloads,
    Binary.drop_lengthPrefixed]
  dsimp only
  rw [htype, htarget]
  exact if_neg (not_not.mpr rfl)

end Rapidly.FileSharing.Relay
