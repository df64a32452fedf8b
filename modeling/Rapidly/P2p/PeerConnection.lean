import Rapidly.Binary.Intervals
import Rapidly.Json.Integers
import Rapidly.KeyValue.Association
import Rapidly.P2p.Frame
import Rapidly.Transition.System

/-!
# Sending and receiving over a data channel

`PeerDataConnection` from `send` to the channel, and from the channel to `onData`. What is larger
than a message of the channel may be is cut into fragments, each a frame of its own with a header
that says which of how many it is; the receiver keeps the fragments of several sets at once and
joins a set when it has all of them.

* A `Coercions` is what JavaScript does with operands of other types than the sender uses: the
  header of a received fragment may have anything for its index, its count and its bytes. Only for
  numbers and bytes something is asked of it.
* An object is only the same as itself, so an `Operand` has an identity. `Operand.key` is what a
  `Map` compares, and what `===` does.
* The `Map`s of the receiver are association lists.
-/

namespace Rapidly.P2p

open Binary Json KeyValue

/-- `SCTP_MAX_SIZE`. -/
def sctpMaxSize : ℕ := 262144

/-- `FRAG_PAYLOAD_MAX`. -/
def fragPayloadMax : ℕ := sctpMaxSize - 4 - 128

/-- `MAX_FRAG_SETS`. -/
def maxFragSets : ℕ := 16

/-- What a data channel carries. -/
inductive Packet where
  | text (raw : List Char)
  | binary (frame : List UInt8)
deriving DecidableEq

variable {ν : Type} [Numeral ν]

/-! ### Sending -/

/-- A packet as bytes. -/
def Packet.bytes : Packet → List UInt8
  | .text raw => Utf8.encode raw
  | .binary frame => frame

/-- The type of a packet in the header of its fragments. -/
def Packet.type : Packet → Units
  | .text _ => "s"
  | .binary _ => "b"

/-- The payload of a message before it is cut. -/
def Message.rawPayload (m : Message ν) : Packet :=
  match m.binaryField with
  | some bytes => .binary (lengthPrefixed m.headerJson bytes)
  | none => .text m.text

/-- `b.toString(36).padStart(2, '0')`. -/
def radix36 (b : UInt8) : List Char :=
  let digits := "0123456789abcdefghijklmnopqrstuvwxyz".toList
  [digits.getD (b.toNat / 36) '0', digits.getD (b.toNat % 36) '0']

/-- The id of a set of fragments, from random bytes. -/
def fragmentId (idBytes : List UInt8) : List Char := (idBytes.flatMap radix36).take 8

/-- How many fragments it takes. -/
def totalFrags (bytes : List UInt8) : ℕ := (bytes.length + fragPayloadMax - 1) / fragPayloadMax

/-- The header of a fragment. -/
def fragHeader (ν : Type) [Numeral ν] (id : Units) (i n : ℕ) (type : Units) : Fields ν :=
  [("_frag", .number (Numeral.ofNat 1)), ("id", .string id), ("i", .number (Numeral.ofNat i)),
    ("n", .number (Numeral.ofNat n)), ("t", .string type), ("_hasBinary", .string "bytes")]

/-- A fragment. -/
def fragment (ν : Type) [Numeral ν] (id : Units) (p : Packet) (i : ℕ) : List UInt8 :=
  let slice := cut fragPayloadMax 0 p.bytes.length i
  lengthPrefixed
    (Utf8.encode (print javascript (.object (fragHeader ν id i (totalFrags p.bytes) p.type))))
    (p.bytes.extract slice.1 slice.2)

/-- `_sendPayload`, with the random bytes that it draws. -/
def sendPayload (ν : Type) [Numeral ν] (idBytes : List UInt8) (p : Packet) : List Packet :=
  if p.bytes.length ≤ sctpMaxSize then [p]
  else
    (List.range (totalFrags p.bytes)).map fun i =>
      .binary (fragment ν (ofText (fragmentId idBytes)) p i)

/-- `send`. -/
def Message.send (m : Message ν) (idBytes : List UInt8) : List Packet :=
  sendPayload ν idBytes m.rawPayload

/-! ### Operands -/

/-- A field of a header, absent or there, with the identity of the object that it may be. -/
structure Operand (ν : Type) where
  value : Option (Value ν)
  identity : ℕ

/-- What makes two values the same. -/
inductive Key (ν : Type) where
  | undefined
  | null
  | bool (b : Bool)
  | number (n : ν)
  | string (s : Units)
  | object (identity : ℕ)
deriving DecidableEq

/-- The key of an operand. -/
def Operand.key (x : Operand ν) : Key ν :=
  match x.value with
  | none => .undefined
  | some .null => .null
  | some (.bool b) => .bool b
  | some (.number n) => .number n
  | some (.string s) => .string s
  | some (.array _) | some (.object _) => .object x.identity

/-- The `bytes` of a fragment: bytes, or a JSON value or nothing. -/
inductive Part (ν : Type) where
  | bytes (content : List UInt8)
  | other (value : Option (Value ν))

/-- The part, if it is bytes. -/
def Part.toBytes? : Part ν → Option (List UInt8)
  | .bytes content => some content
  | .other _ => none

/-- `!part`. -/
def Part.isFalsy [DecidableEq ν] : Part ν → Bool
  | .bytes _ => false
  | .other none | .other (some .null) | .other (some (.bool false)) => true
  | .other (some (.number n)) => n = Numeral.ofNat 0
  | .other (some (.string s)) => s = []
  | .other _ => false

/-- Comparisons of JSON values, and what is copied from the parts of a set into one buffer, if
that does not throw. -/
structure Coercions (ν : Type) [Numeral ν] where
  lt : Option (Value ν) → Option (Value ν) → Bool
  le : Option (Value ν) → Option (Value ν) → Bool
  concat : List (Part ν) → Option (List UInt8)
  lt_ofNat : ∀ j < 2 ^ 53, ∀ k < 2 ^ 53,
    lt (some (.number (Numeral.ofNat j))) (some (.number (Numeral.ofNat k))) = decide (j < k)
  le_ofNat : ∀ j < 2 ^ 53, ∀ k < 2 ^ 53,
    le (some (.number (Numeral.ofNat j))) (some (.number (Numeral.ofNat k))) = decide (j ≤ k)
  concat_bytes : ∀ payloads : List (List UInt8),
    concat (payloads.map Part.bytes) = some payloads.flatten

/-! ### Receiving -/

/-- A set of fragments. -/
structure Entry (ν : Type) where
  total : Operand ν
  type : Option (Value ν)
  parts : List (Key ν × Part ν) := []

/-- The receiving side of a connection: the table of the sets that are open, and how many frames
were decoded. -/
structure Receiver (ν : Type) where
  fragBuf : List (Key ν × Entry ν) := []
  decoded : ℕ := 0

/-- A callback. -/
inductive Output (ν : Type) where
  | data (data : Data ν)
  | error (message : String)

/-- The number as an operand of a comparison. -/
def natValue (ν : Type) [Numeral ν] (k : ℕ) : Option (Value ν) := some (.number (Numeral.ofNat k))

section Receive

variable [DecidableEq ν] (C : Coercions ν)

/-- The text `Received malformed binary frame`, for every exception of a handler. -/
def malformed : Output ν := .error "Received malformed binary frame"

/-- The table with room for one more set. The oldest one goes, unless its id is undefined. -/
def makeRoom (fragBuf : List (Key ν × Entry ν)) : List (Key ν × Entry ν) :=
  if fragBuf.length ≥ maxFragSets then
    match fragBuf with
    | [] => []
    | oldest :: rest => if oldest.1 = .undefined then fragBuf else rest
  else fragBuf

/-- The table in which the set of a fragment is open. -/
def openSet (fragBuf : List (Key ν × Entry ν)) (id : Key ν) (n : Operand ν)
    (t : Option (Value ν)) : List (Key ν × Entry ν) :=
  match fragBuf.lookup id with
  | some _ => fragBuf
  | none => makeRoom fragBuf ++ [(id, { total := n, type := t })]

/-- The part of an index, if it is not missing. -/
def Entry.part (entry : Entry ν) (j : ℕ) : Option (Part ν) :=
  (entry.parts.lookup (.number (Numeral.ofNat j))).filter fun part => ¬part.isFalsy

/-- The indices below the count. A count that is accepted is at most 10 000. -/
def Entry.indices (entry : Entry ν) : List ℕ :=
  (List.range 10000).takeWhile fun j => C.lt (natValue ν j) entry.total.value

/-- What a set stands for: the bytes of its parts in the order of their indices, if none is
missing. -/
def Entry.assembled (entry : Entry ν) : Option (List UInt8) :=
  ((entry.indices C).mapM entry.part).bind C.concat

/-- A set that was joined is decoded: as a text, or as a frame. -/
def deliver (type : Option (Value ν)) (assembled : List UInt8) : List (Output ν) :=
  if type.bind Value.toUnits? = some (ofString "s") then
    match parse (Utf8.decode assembled) with
    | some value => [.data { value }]
    | none => []
  else
    match unframe assembled with
    | .ok data => [.data data]
    | .error _ => []

/-- The end of `_handleFragment`: a set whose parts are all there is joined. -/
def Entry.reassemble (entry : Entry ν) : List (Output ν) :=
  match entry.assembled C with
  | some assembled => deliver entry.type assembled
  | none => [malformed]

/-- The `bytes` of a decoded frame. -/
def Data.part (parsed : Data ν) : Part ν :=
  match parsed.binary with
  | some (.bytes, bytes) => .bytes bytes
  | _ => .other (parsed.value.property "bytes")

/-- A field of a decoded frame. -/
def Receiver.operand (s : Receiver ν) (parsed : Data ν) (name : Units) : Operand ν :=
  { value := parsed.value.property name, identity := s.decoded }

/-- The second half of `_handleFragment`: the part is filed under its index. -/
def fileFragment (s : Receiver ν) (id : Key ν) (i n : Operand ν) (part : Part ν)
    (entry : Entry ν) : Receiver ν × List (Output ν) :=
  if entry.total.key ≠ n.key ∨ (entry.parts.lookup i.key).isSome then (s, [])
  else
    let entry := { entry with parts := entry.parts ++ [(i.key, part)] }
    if C.lt (natValue ν entry.parts.length) entry.total.value then
      ({ s with fragBuf := assign s.fragBuf id entry }, [])
    else ({ s with fragBuf := remove s.fragBuf id }, entry.reassemble C)

/-- The middle of `_handleFragment`: the part goes into the set of its id, which is opened if need
be. -/
def acceptFragment (s : Receiver ν) (id : Key ν) (i n : Operand ν) (t : Option (Value ν))
    (part : Part ν) : Receiver ν × List (Output ν) :=
  let s := { s with fragBuf := openSet s.fragBuf id n t }
  match s.fragBuf.lookup id with
  | some entry => fileFragment C s id i n part entry
  | none => (s, [])

/-- `_handleFragment`. -/
def handleFragment (parsed : Data ν) (s : Receiver ν) : Receiver ν × List (Output ν) :=
  let i := s.operand parsed "i"
  let n := s.operand parsed "n"
  if C.lt n.value (natValue ν 1) ∨ C.lt (natValue ν 10000) n.value ∨
    C.lt i.value (natValue ν 0) ∨ C.le n.value i.value then (s, [])
  else
    acceptFragment C s (s.operand parsed "id").key i n (parsed.value.property "t") parsed.part

/-- The decoded frame is a fragment: `parsed._frag === 1`. -/
def Data.IsFragment (parsed : Data ν) : Prop :=
  (parsed.value.property "_frag").bind Value.toNumber? = some (Numeral.ofNat 1)

instance (parsed : Data ν) : Decidable parsed.IsFragment := inferInstanceAs (Decidable (_ = _))

/-- `dc.onmessage`. -/
def onMessage (s : Receiver ν) (packet : Packet) : Receiver ν × List (Output ν) :=
  match packet with
  | .text raw =>
    match parse raw with
    | some value => (s, [.data { value }])
    | none => (s, [])
  | .binary raw =>
    let s := { s with decoded := s.decoded + 1 }
    match unframe raw with
    | .error _ => (s, [malformed])
    | .ok parsed =>
      if parsed.IsFragment then handleFragment C parsed s else (s, [.data parsed])

/-- What happens to a receiver. -/
inductive Event (ν : Type) where
  | received (packet : Packet)
  /-- The timer of a set fires. -/
  | timedOut (id : Key ν)

/-- A step of the receiver. -/
def receive (s : Receiver ν) : Event ν → Receiver ν × List (Output ν)
  | .received packet => onMessage C s packet
  | .timedOut id => ({ s with fragBuf := remove s.fragBuf id }, [])

/-- The receiver of a new connection. -/
def receiver : Transition.System (Receiver ν) (Event ν) (Output ν) where
  init := {}
  step := receive C

end Receive

/-- Comparisons of integers; all others are false, and no part but bytes can be copied. -/
def integerCoercions : Coercions ℤ where
  lt x y := (x.bind Value.toNumber?).any fun a => (y.bind Value.toNumber?).any fun b => a < b
  le x y := (x.bind Value.toNumber?).any fun a => (y.bind Value.toNumber?).any fun b => a ≤ b
  concat parts := (parts.mapM Part.toBytes?).map List.flatten
  lt_ofNat j _ k _ := by
    have hlt : ((j : ℤ) < k) ↔ j < k := Int.ofNat_lt
    exact decide_eq_decide.mpr hlt
  le_ofNat j _ k _ := by
    have hle : ((j : ℤ) ≤ k) ↔ j ≤ k := Int.ofNat_le
    exact decide_eq_decide.mpr hle
  concat_bytes payloads := by
    have hbytes : (payloads.map Part.bytes).mapM (Part.toBytes? : Part ℤ → _) = some payloads := by
      induction payloads with
      | nil => rfl
      | cons payload payloads ih =>
        rw [List.map_cons, List.mapM_cons, ih]
        rfl
    rw [hbytes, Option.map_some]

end Rapidly.P2p
