import Rapidly.Binary.LittleEndian
import Rapidly.Json.Utf8

/-!
# Protocol buffers

The wire format. A message is a sequence of fields, each a key, which holds the number of the field
and its wire type, and a value: an integer in groups of seven bits (`varint`), eight bytes, or bytes
behind their length. A message within a message is one of the latter.

What is read from the bytes does not depend on what stands behind them (`readVarint_append`,
`readField_append`), and so fields are read back one after the other (`readFields_encodeFields`).
-/

namespace Protobuf

open Binary

/-! ### Integers -/

/-- The groups of seven bits, least significant first; all but the last have the high bit. -/
def varint (n : ℕ) : List UInt8 :=
  if n < 0x80 then [.ofNat n] else .ofNat (n % 0x80 + 0x80) :: varint (n / 0x80)
termination_by n
decreasing_by omega

/-- An integer, and the bytes behind it. -/
def readVarint : List UInt8 → Option (ℕ × List UInt8)
  | [] => none
  | b :: bytes =>
    if b.toNat < 0x80 then some (b.toNat, bytes)
    else (readVarint bytes).map fun read => (b.toNat % 0x80 + 0x80 * read.1, read.2)

theorem varint_of_lt {n : ℕ} (h : n < 0x80) : varint n = [.ofNat n] := by
  rw [varint, if_pos h]

theorem varint_of_le {n : ℕ} (h : 0x80 ≤ n) :
    varint n = .ofNat (n % 0x80 + 0x80) :: varint (n / 0x80) := by
  rw [varint, if_neg (Nat.not_lt.mpr h)]

/-- **Integers come back**, whatever stands behind them. -/
theorem readVarint_append (n : ℕ) (rest : List UInt8) :
    readVarint (varint n ++ rest) = some (n, rest) := by
  induction n using Nat.strong_induction_on with
  | _ n ih =>
    by_cases h : n < 0x80
    · have hbyte : (UInt8.ofNat n).toNat = n :=
        UInt8.toNat_ofNat_of_lt' (Nat.lt_trans h (by decide))
      rw [varint_of_lt h, List.singleton_append, readVarint, hbyte, if_pos h]
    · have hgroup : n % 0x80 + 0x80 < 0x100 := by omega
      have hbyte : (UInt8.ofNat (n % 0x80 + 0x80)).toNat = n % 0x80 + 0x80 :=
        UInt8.toNat_ofNat_of_lt' hgroup
      have hvalue : (n % 0x80 + 0x80) % 0x80 + 0x80 * (n / 0x80) = n := by omega
      rw [varint_of_le (Nat.not_lt.mp h), List.cons_append, readVarint, hbyte, if_neg (by omega),
        ih (n / 0x80) (by omega), Option.map_some, hvalue]

/-- The integer as a signed number of 64 bits. -/
def toInt64 (n : ℕ) : ℤ :=
  if n % 2 ^ 64 < 2 ^ 63 then (n % 2 ^ 64 : ℕ) else (n % 2 ^ 64 : ℕ) - 2 ^ 64

theorem toInt64_of_lt {n : ℕ} (h : n < 2 ^ 63) : toInt64 n = n := by
  have hmod : n % 2 ^ 64 = n := Nat.mod_eq_of_lt (by omega)
  rw [toInt64, hmod, if_pos h]

/-! ### Fields -/

/-- The value of a field. -/
inductive WireValue where
  | varint (n : ℕ)
  | fixed64 (bits : UInt64)
  | bytes (payload : List UInt8)
deriving DecidableEq

structure Field where
  number : ℕ
  value : WireValue
deriving DecidableEq

/-- The wire type. -/
def WireValue.wireType : WireValue → ℕ
  | .varint _ => 0
  | .fixed64 _ => 1
  | .bytes _ => 2

def WireValue.encode : WireValue → List UInt8
  | .varint n => Protobuf.varint n
  | .fixed64 bits => leBytes 8 bits.toNat
  | .bytes payload => Protobuf.varint payload.length ++ payload

def Field.encode (f : Field) : List UInt8 :=
  varint (8 * f.number + f.value.wireType) ++ f.value.encode

/-- The first bytes, if there are as many, and the ones behind them. -/
def readBytes (n : ℕ) (bytes : List UInt8) : Option (List UInt8 × List UInt8) :=
  if n ≤ bytes.length then some (bytes.take n, bytes.drop n) else none

/-- A value of a wire type, and the bytes behind it. -/
def readValue (wireType : ℕ) (bytes : List UInt8) : Option (WireValue × List UInt8) :=
  match wireType with
  | 0 => (readVarint bytes).map fun read => (.varint read.1, read.2)
  | 1 => (readBytes 8 bytes).map fun read => (.fixed64 (.ofNat (ofBytes read.1)), read.2)
  | 2 => do
    let (length, bytes) ← readVarint bytes
    (readBytes length bytes).map fun read => (.bytes read.1, read.2)
  | _ => none

def readField (bytes : List UInt8) : Option (Field × List UInt8) := do
  let (key, bytes) ← readVarint bytes
  (readValue (key % 8) bytes).map fun read => (⟨key / 8, read.1⟩, read.2)

/-- The fields of a message that has at most as many fields as given. -/
def readUpTo : ℕ → List UInt8 → Option (List Field)
  | _, [] => some []
  | 0, _ => none
  | fuel + 1, bytes => do
    let (f, bytes) ← readField bytes
    (readUpTo fuel bytes).map (f :: ·)

/-- The fields of a message. -/
def readFields (bytes : List UInt8) : Option (List Field) := readUpTo bytes.length bytes

section Fields

variable {f : Field} {fields : List Field}

theorem readBytes_append (payload rest : List UInt8) :
    readBytes payload.length (payload ++ rest) = some (payload, rest) := by
  have hle : payload.length ≤ (payload ++ rest).length := by
    rw [List.length_append]
    exact Nat.le_add_right _ _
  rw [readBytes, if_pos hle, List.take_left, List.drop_left]

theorem readValue_append (value : WireValue) (rest : List UInt8) :
    readValue value.wireType (value.encode ++ rest) = some (value, rest) := by
  cases value with
  | varint n =>
    rw [WireValue.wireType, WireValue.encode, readValue, readVarint_append]
    rfl
  | fixed64 bits =>
    have hlt : bits.toNat < 256 ^ 8 := bits.toNat_lt
    have hbits : UInt64.ofNat (ofBytes (leBytes 8 bits.toNat)) = bits := by
      rw [ofBytes_leBytes, Nat.mod_eq_of_lt hlt, UInt64.ofNat_toNat]
    have hread := readBytes_append (leBytes 8 bits.toNat) rest
    rw [length_leBytes] at hread
    rw [WireValue.wireType, WireValue.encode, readValue, hread, Option.map_some, hbits]
  | bytes payload =>
    rw [WireValue.wireType, WireValue.encode, readValue, List.append_assoc, readVarint_append]
    dsimp only [Option.bind_eq_bind, Option.bind_some]
    rw [readBytes_append, Option.map_some]

theorem WireValue.wireType_lt (value : WireValue) : value.wireType < 8 := by
  cases value with
  | varint n => exact Nat.zero_lt_succ 7
  | fixed64 bits => exact Nat.one_lt_succ_succ 6
  | bytes payload => exact (by decide : 2 < 8)

theorem readField_append (f : Field) (rest : List UInt8) :
    readField (f.encode ++ rest) = some (f, rest) := by
  have htype := f.value.wireType_lt
  have hmod : (8 * f.number + f.value.wireType) % 8 = f.value.wireType := by omega
  have hdiv : (8 * f.number + f.value.wireType) / 8 = f.number := by omega
  rw [readField, Field.encode, List.append_assoc, readVarint_append]
  dsimp only [Option.bind_eq_bind, Option.bind_some]
  rw [hmod, hdiv, readValue_append, Option.map_some]

theorem length_varint_pos (n : ℕ) : 0 < (varint n).length := by
  rw [varint]
  split
  · exact Nat.one_pos
  · exact Nat.succ_pos _

theorem length_encode_pos (f : Field) : 0 < f.encode.length := by
  rw [Field.encode, List.length_append]
  exact Nat.add_pos_left (length_varint_pos _) _

/-- The bytes of a message. -/
def encodeFields (fields : List Field) : List UInt8 := fields.flatMap Field.encode

theorem encodeFields_append (fields fields' : List Field) :
    encodeFields (fields ++ fields') = encodeFields fields ++ encodeFields fields' :=
  List.flatMap_append

theorem encodeFields_singleton (f : Field) : encodeFields [f] = f.encode :=
  List.flatMap_singleton Field.encode f

theorem readUpTo_encodeFields {fuel : ℕ} (h : fields.length ≤ fuel) :
    readUpTo fuel (encodeFields fields) = some fields := by
  induction fields generalizing fuel with
  | nil =>
    cases fuel with
    | zero => rfl
    | succ fuel => rfl
  | cons f fields ih =>
    cases fuel with
    | zero => exact absurd h (Nat.not_succ_le_zero _)
    | succ fuel =>
      have hread := readField_append f (encodeFields fields)
      rw [encodeFields, List.flatMap_cons, ← encodeFields]
      cases hbytes : f.encode ++ encodeFields fields with
      | nil =>
        have hpos := length_encode_pos f
        rw [(List.append_eq_nil_iff.mp hbytes).1] at hpos
        exact absurd hpos (Nat.lt_irrefl 0)
      | cons b bytes =>
        rw [readUpTo, ← hbytes, hread]
        · dsimp only [Option.bind_eq_bind, Option.bind_some]
          rw [ih (Nat.le_of_succ_le_succ h), Option.map_some]
        · exact List.cons_ne_nil b bytes

theorem length_le_length_encodeFields (fields : List Field) :
    fields.length ≤ (encodeFields fields).length := by
  induction fields with
  | nil => exact Nat.le_refl 0
  | cons f fields ih =>
    have hf := length_encode_pos f
    rw [encodeFields, List.flatMap_cons, ← encodeFields, List.length_append, List.length_cons]
    omega

/-- **Fields come back.** -/
theorem readFields_encodeFields (fields : List Field) :
    readFields (encodeFields fields) = some fields :=
  readUpTo_encodeFields (length_le_length_encodeFields fields)

end Fields

/-! ### Messages -/

namespace Field

/-- The payload of a field with this number. -/
def payload? (number : ℕ) (f : Field) : Option (List UInt8) :=
  match f.value with
  | .bytes payload => if f.number = number then some payload else none
  | _ => none

def varint? (number : ℕ) (f : Field) : Option ℕ :=
  match f.value with
  | .varint n => if f.number = number then some n else none
  | _ => none

def fixed64? (number : ℕ) (f : Field) : Option UInt64 :=
  match f.value with
  | .fixed64 bits => if f.number = number then some bits else none
  | _ => none

end Field

/-- A repeated field. -/
def repeated (number : ℕ) (fields : List Field) : List (List UInt8) :=
  fields.filterMap (Field.payload? number)

/-- Of a field that is not repeated the last value counts; there is a default for a missing one. -/
def bytesField (number : ℕ) (fields : List Field) : List UInt8 :=
  (fields.filterMap (Field.payload? number)).getLastD []

def int64Field (number : ℕ) (fields : List Field) : ℤ :=
  toInt64 ((fields.filterMap (Field.varint? number)).getLastD 0)

def doubleField (number : ℕ) (fields : List Field) : UInt64 :=
  (fields.filterMap (Field.fixed64? number)).getLastD 0

theorem repeated_append (number : ℕ) (fields fields' : List Field) :
    repeated number (fields ++ fields') = repeated number fields ++ repeated number fields' :=
  List.filterMap_append

theorem repeated_map {α : Type} (number number' : ℕ) (f : α → List UInt8) (l : List α) :
    repeated number (l.map fun a => ⟨number', .bytes (f a)⟩) =
      if number' = number then l.map f else [] := by
  rw [repeated, List.filterMap_map]
  have hfield (a : α) : (Field.payload? number ∘ fun a => ⟨number', .bytes (f a)⟩) a =
      if number' = number then some (f a) else none := rfl
  by_cases h : number' = number
  · have hsome : (Field.payload? number ∘ fun a => ⟨number', .bytes (f a)⟩) = some ∘ f :=
      funext fun a => (hfield a).trans (if_pos h)
    rw [if_pos h, hsome, List.filterMap_eq_map]
  · rw [if_neg h, List.filterMap_eq_nil_iff]
    intro a _
    rw [hfield, if_neg h]

/-- A text, if the bytes are one in UTF-8. -/
def text? (bytes : List UInt8) : Option (List Char) :=
  let text := Utf8.Decoder.decode {} bytes
  if Utf8.encode text = bytes then some text else none

theorem text?_encode (text : List Char) : text? (Utf8.encode text) = some text := by
  rw [text?, Utf8.decode_text]
  exact if_pos rfl

end Protobuf
