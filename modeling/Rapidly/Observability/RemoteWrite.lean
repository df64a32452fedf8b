import Rapidly.Binary.Protobuf
import Rapidly.Fallible.Traversal

/-!
# Remote write

The encoder of `observability/remote_write.py`, which writes the messages `WriteRequest`,
`TimeSeries`, `Label` and `Sample` of Prometheus by hand. A number in floating point is its 64 bits.

* `decodeWriteRequest_build`: what a receiver decodes are the labels and samples that were encoded,
  in the same order.
-/

namespace Rapidly.Observability

open Binary Fallible Protobuf

/-! ### Encoding -/

/-- `ValueError` -/
inductive ValueError where
  | negativeVarint (n : ℤ)
deriving DecidableEq

/-- The loop of `_varint`, and the byte behind it. -/
def varintParts (n : ℕ) : List UInt8 :=
  if n > 0x7f then .ofNat ((n &&& 0x7f) ||| 0x80) :: varintParts (n >>> 7)
  else [.ofNat (n &&& 0x7f)]
termination_by n
decreasing_by
  rw [Nat.shiftRight_eq_div_pow]
  omega

/-- `_varint` -/
def varint (n : ℤ) : Except ValueError (List UInt8) :=
  if n < 0 then .error (.negativeVarint n) else .ok (varintParts n.toNat)

/-- `_field_bytes` -/
def fieldBytes (tag : ℕ) (payload : List UInt8) : List UInt8 :=
  .ofNat (tag <<< 3 ||| 2) :: varintParts payload.length ++ payload

/-- `_field_string` -/
def fieldString (tag : ℕ) (text : String) : List UInt8 := fieldBytes tag (Utf8.encode text.toList)

/-- `_field_double` -/
def fieldDouble (tag : ℕ) (value : UInt64) : List UInt8 :=
  .ofNat (tag <<< 3 ||| 1) :: leBytes 8 value.toNat

/-- `_field_int64` -/
def fieldInt64 (tag : ℕ) (value : ℤ) : Except ValueError (List UInt8) :=
  (varint value).map (.ofNat (tag <<< 3 ||| 0) :: ·)

/-- `math.isfinite`: the bits of the exponent are not all set. -/
def isFinite (value : UInt64) : Bool := value.toNat / 2 ^ 52 % 2 ^ 11 ≠ 2047

/-- `_build_label_pair` -/
def buildLabelPair (name value : String) : List UInt8 := fieldString 1 name ++ fieldString 2 value

/-- `_build_sample` -/
def buildSample (value : UInt64) (tsMs : ℤ) : Except ValueError (List UInt8) :=
  let safeValue := if isFinite value then value else 0
  (fieldInt64 2 tsMs).map (fieldDouble 1 safeValue ++ ·)

/-- The arguments of `_build_timeseries`. -/
structure Series where
  labelPairs : List (String × String)
  value : UInt64
  tsMs : ℤ
deriving DecidableEq

/-- `_build_timeseries` -/
def Series.build (s : Series) : Except ValueError (List UInt8) :=
  let body := s.labelPairs.flatMap fun (k, v) => fieldBytes 1 (buildLabelPair k v)
  (buildSample s.value s.tsMs).map fun sample => body ++ fieldBytes 2 sample

/-- `_build_write_request` -/
def buildWriteRequest (series : List (List UInt8)) : List UInt8 := series.flatMap (fieldBytes 1)

/-! ### Decoding -/

structure Sample where
  value : UInt64
  timestamp : ℤ
deriving DecidableEq

structure TimeSeries where
  labels : List (String × String)
  samples : List Sample
deriving DecidableEq

/-- `message Label { string name = 1; string value = 2; }` -/
def decodeLabel (bytes : List UInt8) : Option (String × String) := do
  let fields ← readFields bytes
  let name ← text? (bytesField 1 fields)
  let value ← text? (bytesField 2 fields)
  return (String.ofList name, String.ofList value)

/-- `message Sample { double value = 1; int64 timestamp = 2; }` -/
def decodeSample (bytes : List UInt8) : Option Sample :=
  (readFields bytes).map fun fields => ⟨doubleField 1 fields, int64Field 2 fields⟩

/-- `message TimeSeries { repeated Label labels = 1; repeated Sample samples = 2; }` -/
def decodeTimeSeries (bytes : List UInt8) : Option TimeSeries := do
  let fields ← readFields bytes
  let labels ← (repeated 1 fields).mapM decodeLabel
  let samples ← (repeated 2 fields).mapM decodeSample
  return ⟨labels, samples⟩

/-- `message WriteRequest { repeated TimeSeries timeseries = 1; }` -/
def decodeWriteRequest (bytes : List UInt8) : Option (List TimeSeries) := do
  let fields ← readFields bytes
  (repeated 1 fields).mapM decodeTimeSeries

/-! ### Round trip -/

section RoundTrip

variable {tag : ℕ} {tsMs : ℤ} {s : Series}

/-- A sample that Prometheus has a number and a time for. -/
structure Series.Valid (s : Series) : Prop where
  finite : isFinite s.value
  nonneg : 0 ≤ s.tsMs
  lt : s.tsMs < 2 ^ 63

instance (s : Series) : Decidable s.Valid :=
  decidable_of_iff (isFinite s.value ∧ 0 ≤ s.tsMs ∧ s.tsMs < 2 ^ 63)
    ⟨fun ⟨hfinite, hnonneg, hlt⟩ => ⟨hfinite, hnonneg, hlt⟩,
      fun ⟨hfinite, hnonneg, hlt⟩ => ⟨hfinite, hnonneg, hlt⟩⟩

/-- What a receiver should see. -/
def Series.received (s : Series) : TimeSeries := ⟨s.labelPairs, [⟨s.value, s.tsMs⟩]⟩

theorem varintParts_eq (n : ℕ) : varintParts n = Protobuf.varint n := by
  induction n using Nat.strong_induction_on with
  | _ n ih =>
    have hlow : n &&& 0x7f = n % 0x80 := Nat.and_two_pow_sub_one_eq_mod n 7
    rw [varintParts, hlow]
    split
    next h =>
      have hgroup : n % 0x80 ||| 0x80 = n % 0x80 + 0x80 := by
        have hor := Nat.two_pow_add_eq_or_of_lt (Nat.mod_lt n (by decide : 0 < 2 ^ 7)) 1
        rw [Nat.or_comm, Nat.add_comm]
        exact hor.symm
      have hshift : n >>> 7 = n / 0x80 := Nat.shiftRight_eq_div_pow n 7
      rw [hgroup, hshift, varint_of_le h, ih (n / 0x80) (by omega)]
    next h =>
      have hlt : n < 0x80 := by omega
      rw [varint_of_lt hlt, Nat.mod_eq_of_lt hlt]

theorem header_eq : ∀ tag < 16, ∀ wire < 3,
    [UInt8.ofNat (tag <<< 3 ||| wire)] = varintParts (8 * tag + wire) := by
  intro tag htag wire hwire
  have hor : tag <<< 3 ||| wire = 8 * tag + wire := by
    have hlt : wire < 2 ^ 3 := by omega
    rw [Nat.shiftLeft_eq, Nat.mul_comm]
    exact (Nat.two_pow_add_eq_or_of_lt hlt tag).symm
  rw [hor, varintParts_eq, varint_of_lt (by omega)]

theorem fieldBytes_eq (htag : tag < 16) (payload : List UInt8) :
    fieldBytes tag payload = Field.encode ⟨tag, .bytes payload⟩ := by
  have hheader := header_eq tag htag 2 (by decide)
  rw [fieldBytes, Field.encode, WireValue.encode, WireValue.wireType, ← varintParts_eq, ← hheader,
    varintParts_eq]
  rfl

theorem fieldDouble_eq (htag : tag < 16) (value : UInt64) :
    fieldDouble tag value = Field.encode ⟨tag, .fixed64 value⟩ := by
  have hheader := header_eq tag htag 1 (by decide)
  rw [fieldDouble, Field.encode, WireValue.encode, WireValue.wireType, ← varintParts_eq, ← hheader]
  rfl

theorem fieldInt64_eq (htag : tag < 16) (h : 0 ≤ tsMs) :
    fieldInt64 tag tsMs = .ok (Field.encode ⟨tag, .varint tsMs.toNat⟩) := by
  have hheader := header_eq tag htag 0 (by decide)
  rw [fieldInt64, varint, if_neg (Int.not_lt.mpr h), Field.encode, WireValue.encode,
    WireValue.wireType, ← varintParts_eq (_ + _), ← hheader, varintParts_eq]
  rfl

/-! ### The messages -/

theorem buildLabelPair_eq (name value : String) : buildLabelPair name value =
    encodeFields [⟨1, .bytes (Utf8.encode name.toList)⟩,
      ⟨2, .bytes (Utf8.encode value.toList)⟩] := by
  rw [buildLabelPair, fieldString, fieldString, fieldBytes_eq (by decide),
    fieldBytes_eq (by decide), encodeFields, List.flatMap_cons, List.flatMap_singleton]

theorem decodeLabel_buildLabelPair (label : String × String) :
    decodeLabel (buildLabelPair label.1 label.2) = some label := by
  obtain ⟨name, value⟩ := label
  have hname : bytesField 1 [⟨1, .bytes (Utf8.encode name.toList)⟩,
      ⟨2, .bytes (Utf8.encode value.toList)⟩] = Utf8.encode name.toList := rfl
  have hvalue : bytesField 2 [⟨1, .bytes (Utf8.encode name.toList)⟩,
      ⟨2, .bytes (Utf8.encode value.toList)⟩] = Utf8.encode value.toList := rfl
  rw [decodeLabel, buildLabelPair_eq, readFields_encodeFields]
  dsimp only [Option.bind_eq_bind, Option.bind_some]
  rw [hname, hvalue, text?_encode, text?_encode]
  dsimp only [Option.bind_some]
  rw [String.ofList_toList, String.ofList_toList]
  rfl

/-- The fields of a sample. -/
def Series.sampleFields (s : Series) : List Field :=
  [⟨1, .fixed64 s.value⟩, ⟨2, .varint s.tsMs.toNat⟩]

theorem buildSample_eq (h : s.Valid) :
    buildSample s.value s.tsMs = .ok (encodeFields s.sampleFields) := by
  rw [buildSample, if_pos h.finite, fieldInt64_eq (by decide) h.nonneg, fieldDouble_eq (by decide),
    Series.sampleFields, encodeFields, List.flatMap_cons, List.flatMap_singleton]
  rfl

theorem decodeSample_sampleFields (h : s.Valid) :
    decodeSample (encodeFields s.sampleFields) = some ⟨s.value, s.tsMs⟩ := by
  have htime : int64Field 2 s.sampleFields = s.tsMs := by
    have hlt : s.tsMs.toNat < 2 ^ 63 := by
      have hts := h.lt
      omega
    have hfield : int64Field 2 s.sampleFields = toInt64 s.tsMs.toNat := rfl
    rw [hfield, toInt64_of_lt hlt, Int.toNat_of_nonneg h.nonneg]
  rw [decodeSample, readFields_encodeFields, Option.map_some, htime]
  rfl

/-- The fields of a time series. -/
def Series.fields (s : Series) : List Field :=
  s.labelPairs.map (fun label => ⟨1, .bytes (buildLabelPair label.1 label.2)⟩) ++
    [⟨2, .bytes (encodeFields s.sampleFields)⟩]

theorem build_eq (h : s.Valid) : s.build = .ok (encodeFields s.fields) := by
  have hlabels : (s.labelPairs.flatMap fun (k, v) => fieldBytes 1 (buildLabelPair k v)) =
      encodeFields (s.labelPairs.map fun label =>
        ⟨1, .bytes (buildLabelPair label.1 label.2)⟩) := by
    have hfield : (fun label : String × String => fieldBytes 1 (buildLabelPair label.1 label.2)) =
        fun label => Field.encode ⟨1, .bytes (buildLabelPair label.1 label.2)⟩ :=
      funext fun label => fieldBytes_eq (by decide) _
    rw [encodeFields, List.flatMap_map, ← hfield]
  rw [Series.build, buildSample_eq h, hlabels, Series.fields, encodeFields_append,
    encodeFields_singleton, ← fieldBytes_eq (by decide)]
  rfl

theorem repeated_fields (s : Series) (number : ℕ) : repeated number s.fields =
    (if 1 = number then s.labelPairs.map (fun label => buildLabelPair label.1 label.2) else []) ++
      if 2 = number then [encodeFields s.sampleFields] else [] := by
  have hsample := repeated_map number 2 id [encodeFields s.sampleFields]
  rw [Series.fields, repeated_append, repeated_map number 1]
  exact congrArg _ hsample

theorem decodeTimeSeries_fields (h : s.Valid) :
    decodeTimeSeries (encodeFields s.fields) = some s.received := by
  have hlabels : repeated 1 s.fields = s.labelPairs.map fun label =>
      buildLabelPair label.1 label.2 := (repeated_fields s 1).trans (List.append_nil _)
  have hmap : (s.labelPairs.map fun label => buildLabelPair label.1 label.2).mapM decodeLabel =
      some s.labelPairs := by
    rw [List.mapM_map]
    refine (mapM_eq_pure_map fun label _ => decodeLabel_buildLabelPair label).trans ?_
    exact congrArg some (List.map_id _)
  rw [decodeTimeSeries, readFields_encodeFields]
  dsimp only [Option.bind_eq_bind, Option.bind_some]
  rw [hlabels, hmap, repeated_fields s 2]
  rw [if_neg (by decide), if_pos rfl, List.nil_append, List.mapM_cons,
    decodeSample_sampleFields h]
  rfl

theorem decodeWriteRequest_buildWriteRequest {series : List Series}
    (h : ∀ s ∈ series, s.Valid) : decodeWriteRequest (buildWriteRequest
      (series.map fun s => encodeFields s.fields)) = some (series.map Series.received) := by
  have hrequest : buildWriteRequest (series.map fun s => encodeFields s.fields) =
      encodeFields (series.map fun s => ⟨1, .bytes (encodeFields s.fields)⟩) := by
    have hfield : (fun s : Series => fieldBytes 1 (encodeFields s.fields)) =
        fun s => Field.encode ⟨1, .bytes (encodeFields s.fields)⟩ :=
      funext fun s => fieldBytes_eq (by decide) _
    rw [buildWriteRequest, encodeFields, List.flatMap_map, List.flatMap_map, hfield]
  rw [hrequest, decodeWriteRequest, readFields_encodeFields]
  dsimp only [Option.bind_eq_bind, Option.bind_some]
  rw [repeated_map, if_pos rfl, List.mapM_map]
  exact mapM_eq_pure_map fun s hs => decodeTimeSeries_fields (h s hs)

/-- **A write request comes back.** It can be encoded, and decoded into the labels and samples it
was made of; and every integer comes back from its varint, whatever stands behind it. -/
theorem decodeWriteRequest_build (series : List Series) (h : ∀ s ∈ series, s.Valid) :
    (∃ built, series.mapM Series.build = .ok built ∧
      decodeWriteRequest (buildWriteRequest built) = some (series.map Series.received)) ∧
    ∀ n : ℕ, ∃ bytes, varint n = .ok bytes ∧
      ∀ rest, readVarint (bytes ++ rest) = some (n, rest) := by
  refine ⟨⟨_, mapM_eq_pure_map fun s hs => build_eq (h s hs),
    decodeWriteRequest_buildWriteRequest h⟩, fun n => ⟨Protobuf.varint n, ?_, fun rest => ?_⟩⟩
  · rw [varint, if_neg (Int.not_lt.mpr (Int.natCast_nonneg n)), Int.toNat_natCast, varintParts_eq]
  · exact readVarint_append n rest

theorem decodeWriteRequest_up :
    (∃ built, [Series.mk [("__name__", "up"), ("env", "")] 0x3ff0000000000000
        1767225600000].mapM Series.build = .ok built ∧
      decodeWriteRequest (buildWriteRequest built) =
        some [⟨[("__name__", "up"), ("env", "")], [⟨0x3ff0000000000000, 1767225600000⟩]⟩]) ∧
    ∀ n : ℕ, ∃ bytes, varint n = .ok bytes ∧
      ∀ rest, readVarint (bytes ++ rest) = some (n, rest) :=
  decodeWriteRequest_build [⟨[("__name__", "up"), ("env", "")], 0x3ff0000000000000,
    1767225600000⟩] (by decide)

end RoundTrip

end Rapidly.Observability
