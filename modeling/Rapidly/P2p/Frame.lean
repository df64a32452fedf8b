import Rapidly.Binary.LittleEndian
import Rapidly.Json.Styles
import Rapidly.Json.Utf8

/-!
# Frames

The messages of `utils/p2p` and their wire format, as `PeerDataConnection` and `WebSocketRelay`
share it. A message without a binary field travels as its JSON. A message with one travels as a
frame: four bytes with the length of a header, the header (the JSON of the other fields, with the
name of the binary field under `_hasBinary`), and the bytes.

* A `Message` is what `send` is called with, `Data` is what `onData` is called with, and
  `Data.Is` compares them field by field.
* `unframe_lengthPrefixed` is what a decoder makes of a frame.
-/

namespace Rapidly.P2p

open Binary Json

/-- `MAX_HEADER_SIZE`. -/
def maxHeaderSize : ℕ := 64 * 1024

/-- `MAX_FRAME_SIZE`. -/
def maxFrameSize : ℕ := 64 * 1024 * 1024

/-- The two names under which a message may have its binary field. -/
inductive BinaryField where
  | bytes
  | payload
deriving DecidableEq

/-- The field as a property. -/
def BinaryField.name : BinaryField → Units
  | .bytes => "bytes"
  | .payload => "payload"

variable {ν : Type} [Numeral ν]

/-- An object with JSON fields and at most one binary field. `fields` has what `JSON.stringify`
makes of each field: of a binary one, nothing for an `ArrayBuffer` and the elements for a view. -/
structure Message (ν : Type) [Numeral ν] where
  fields : Fields ν
  binary : Option (BinaryField × List UInt8) := none
  nodup : (Fields.keys fields).Nodup
  isFinite : (Value.object fields).IsFinite
  hasBinary : ∀ b ∈ binary, b.1.name ∈ Fields.keys fields

/-- What is received: a JSON value, to which the bytes of a frame are added as a property. -/
structure Data (ν : Type) where
  value : Value ν
  binary : Option (BinaryField × List UInt8) := none

/-- The data is the message: the same bytes under the same name, and the same other fields. -/
def Data.Is (d : Data ν) (m : Message ν) : Prop :=
  d.binary = m.binary ∧
    ∃ fields, d.value = .object fields ∧
      ∀ key, (∀ b ∈ m.binary, key ≠ b.1.name) → Fields.get fields key = Fields.get m.fields key

/-! ### Encoding -/

namespace Message

variable (m : Message ν)

/-- `data.bytes ?? data.payload`, if it is binary. -/
def binaryField : Option (List UInt8) :=
  match m.binary with
  | none => none
  | some (.bytes, bytes) => some bytes
  | some (.payload, bytes) =>
    -- a field `bytes` that is not binary comes first, unless it is null
    match Fields.get m.fields "bytes" with
    | none | some .null => some bytes
    | some _ => none

/-- The field that the header leaves out. -/
def framedField : BinaryField :=
  if BinaryField.bytes.name ∈ Fields.keys m.fields then .bytes else .payload

/-- The header of a frame. -/
def header : Fields ν :=
  Fields.set (Fields.erase m.fields m.framedField.name) "_hasBinary" (.string m.framedField.name)

/-- `JSON.stringify(header)`, encoded. -/
def headerJson : List UInt8 := Utf8.encode (print javascript (.object m.header))

/-- `JSON.stringify(data)`. -/
def text : List Char := print javascript (.object m.fields)

end Message

/-! ### Decoding -/

/-- An exception of a decoder. -/
inductive FrameError where
  | error (message : String)
  | syntaxError
  | typeError
deriving DecidableEq

/-- The end of `_unframe`: the bytes become a property of the header. Only objects and arrays can
have one. -/
def attach (header : Value ν) (binary : List UInt8) : Except FrameError (Data ν) :=
  match header with
  | .object fields =>
    let fieldName :=
      if (Fields.get fields "_hasBinary").bind Value.toUnits? = some (ofString "payload") then
        BinaryField.payload
      else .bytes
    .ok
      { value := .object (Fields.erase (Fields.erase fields "_hasBinary") fieldName.name)
        binary := some (fieldName, binary) }
  | .array items => .ok { value := .array items, binary := some (.bytes, binary) }
  | _ => .error .typeError

/-- `PeerDataConnection._unframe`. -/
def unframe (frame : List UInt8) : Except FrameError (Data ν) :=
  if frame.length < 4 then .error (.error s!"Frame too small: {frame.length} bytes")
  else if frame.length > maxFrameSize then
    .error (.error s!"Frame too large: {frame.length} bytes (max {maxFrameSize})")
  else
    let headerLen := headerLength frame
    if headerLen > maxHeaderSize then
      .error (.error s!"Header too large: {headerLen} bytes (max {maxHeaderSize})")
    else if headerLen > frame.length - 4 then
      .error (.error
        s!"Invalid frame: header length {headerLen} exceeds frame size {frame.length}")
    else
      match parse (Utf8.decode ((frame.drop 4).take headerLen)) with
      | none => .error .syntaxError
      | some header => attach header (frame.drop (4 + headerLen))

theorem parse_decode_encode {fields : Fields ν} (h : (Value.object fields).IsFinite) :
    parse (Utf8.decode (Utf8.encode (print javascript (.object fields)))) =
      some (.object fields) := by
  rw [Utf8.decode_encode, parse_print h]
  intro c hc
  have hbrace : c = '\x7b' := (Option.some_inj.mp hc).symm
  rw [hbrace]
  decide

/-- **What a frame says.** -/
theorem unframe_lengthPrefixed {fields : Fields ν} (h : (Value.object fields).IsFinite)
    {payload : List UInt8}
    (hheader : (Utf8.encode (print javascript (.object fields))).length ≤ maxHeaderSize)
    (hframe : 4 + (Utf8.encode (print javascript (.object fields))).length + payload.length ≤
      maxFrameSize) :
    unframe (lengthPrefixed (Utf8.encode (print javascript (.object fields))) payload) =
      attach (.object fields) payload := by
  have hlength : (Utf8.encode (print javascript (.object fields))).length < 2 ^ 32 :=
    lt_of_le_of_lt hheader (by decide)
  rw [unframe, length_lengthPrefixed, if_neg (by omega), if_neg (by omega)]
  rw [headerLength_lengthPrefixed _ _ hlength, if_neg (by omega), if_neg (by omega),
    take_drop_lengthPrefixed, parse_decode_encode h, drop_lengthPrefixed]

theorem unframe_of_maxHeaderSize_lt {header payload : List UInt8}
    (h : maxHeaderSize < header.length) (h32 : header.length < 2 ^ 32) :
    ∃ e, (unframe (lengthPrefixed header payload) : Except FrameError (Data ν)) = .error e := by
  rw [unframe]
  split
  · exact ⟨_, rfl⟩
  split
  · exact ⟨_, rfl⟩
  rw [headerLength_lengthPrefixed _ _ h32, if_pos h]
  exact ⟨_, rfl⟩

theorem length_of_unframe_eq_ok {frame : List UInt8} {d : Data ν} (h : unframe frame = .ok d) :
    ∃ f b, d.binary = some (f, b) ∧ b.length + 4 ≤ frame.length := by
  rw [unframe] at h
  split at h
  · cases h
  split at h
  · cases h
  dsimp only at h
  split at h
  · cases h
  split at h
  · cases h
  split at h
  · cases h
  next header hparse =>
    have hlength : (frame.drop (4 + headerLength frame)).length + 4 ≤ frame.length := by
      rw [List.length_drop]
      omega
    cases header with
    | object fields =>
      cases h
      exact ⟨_, _, rfl, hlength⟩
    | array items =>
      cases h
      exact ⟨_, _, rfl, hlength⟩
    | _ => cases h

/-! ### The header of a message -/

namespace Message

variable (m : Message ν) (content : List UInt8)

/-- What a decoder makes of the frame of a message. -/
def framed : Data ν where
  value := .object (Fields.erase (Fields.erase m.header "_hasBinary") m.framedField.name)
  binary := some (m.framedField, content)

theorem attach_header : attach (.object m.header) content = .ok (m.framed content) := by
  have hmark : Fields.get m.header "_hasBinary" = some (.string m.framedField.name) := by
    rw [header, Fields.get_set, if_pos rfl]
  have hfield : (if m.framedField.name = ofString "payload" then BinaryField.payload else .bytes) =
      m.framedField := by
    cases m.framedField <;> decide
  rw [attach, hmark, Option.bind_some, Value.toUnits?, framed]
  simp only [Option.some_inj, hfield]

/-- The decoder sees the fields of the message, but for the name of the binary one and the mark. -/
theorem property_framed (key : Units) : (m.framed content).value.property key =
    if key = m.framedField.name ∨ key = ofString "_hasBinary" then none
    else Fields.get m.fields key := by
  rw [framed, Value.property, Fields.get_erase, Fields.get_erase, header, Fields.get_set,
    Fields.get_erase]
  by_cases hname : key = m.framedField.name
  · rw [if_pos hname, if_pos (.inl hname)]
  by_cases hmark : key = ofString "_hasBinary"
  · rw [if_neg hname, if_pos hmark, if_pos (.inr hmark)]
  · rw [if_neg hname, if_neg hmark, if_neg hmark, if_neg hname, if_neg]
    rintro (h | h)
    · exact hname h
    · exact hmark h

theorem name_ne_hasBinary (f : BinaryField) : f.name ≠ ofString "_hasBinary" := by
  cases f <;> decide

/-- The decoded frame is the message, if the binary field was found under its name and no field
has the name of the mark. -/
theorem framed_is_iff : (m.framed content).Is m ↔
    m.binary = some (m.framedField, content) ∧ (Fields.get m.fields "_hasBinary").isNone := by
  have hproperty (key : Units) :
      Fields.get (Fields.erase (Fields.erase m.header "_hasBinary") m.framedField.name) key =
      if key = m.framedField.name ∨ key = ofString "_hasBinary" then none
      else Fields.get m.fields key := m.property_framed content key
  constructor
  · rintro ⟨hbinary, fields, hvalue, hfields⟩
    have hbinary : m.binary = some (m.framedField, content) := hbinary.symm
    refine ⟨hbinary, ?_⟩
    have hmark := hfields "_hasBinary" fun b hb => by
      rw [hbinary] at hb
      rw [← Option.some_inj.mp hb]
      exact (name_ne_hasBinary m.framedField).symm
    rw [← Value.object.inj hvalue, hproperty, if_pos (.inr rfl)] at hmark
    rw [← hmark]
    rfl
  · rintro ⟨hbinary, hmark⟩
    refine ⟨hbinary.symm, _, rfl, fun key hkey => ?_⟩
    have hname := hkey _ hbinary
    rw [hproperty]
    split
    next hor =>
      rcases hor with hor | rfl
      · exact absurd hor hname
      · exact (Option.isNone_iff_eq_none.mp hmark).symm
    · rfl

theorem isFinite_header : (Value.object m.header).IsFinite := by
  have hfields := m.isFinite
  rw [Value.IsFinite, fieldsFinite_iff] at hfields ⊢
  have herased : ∀ f ∈ Fields.erase m.fields m.framedField.name, f.2.IsFinite := fun f hf =>
    hfields f (List.mem_filter.mp hf).1
  intro f hf
  rw [header, Fields.set] at hf
  split at hf
  · obtain ⟨g, hg, rfl⟩ := List.mem_map.mp hf
    split
    · exact trivial
    · exact herased g hg
  · rcases List.mem_append.mp hf with hold | hnew
    · exact herased f hold
    · rw [List.mem_singleton.mp hnew]
      exact trivial

theorem unframe_lengthPrefixed_headerJson (hheader : m.headerJson.length ≤ maxHeaderSize)
    (hframe : (lengthPrefixed m.headerJson content).length ≤ maxFrameSize) :
    unframe (lengthPrefixed m.headerJson content) = .ok (m.framed content) := by
  rw [length_lengthPrefixed] at hframe
  rw [← m.attach_header content]
  exact unframe_lengthPrefixed m.isFinite_header hheader hframe

end Message

end Rapidly.P2p
