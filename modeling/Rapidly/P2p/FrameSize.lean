import Mathlib.Data.Bool.AllAny
import Rapidly.P2p.Fragments

/-!
# The size of a frame

A channel drops a message that is larger than `SCTP_MAX_SIZE`, so no call of `send` may give it
one. A fragment has its header beside its payload, and the header is text: the allowance of 132
bytes that `FRAG_PAYLOAD_MAX` leaves for it has to do for every id, index and count.

* `text_fragHeader` is the header, character by character.
* `length_fragHeader` is its size: 66 bytes and the digits of the index and of the count.
* `length_bytes_le_of_mem_send`: whatever is sent fits.
-/

namespace Rapidly.P2p

open Binary Json

variable {ν : Type} [Numeral ν]

/-! ### The header of a fragment -/

theorem isPlain_of_mem_radix36 (b : UInt8) : ∀ c ∈ radix36 b, IsPlain c := by
  have hdigits : ∀ k < 37, IsPlain ("0123456789abcdefghijklmnopqrstuvwxyz".toList.getD k '0') := by
    decide
  have hlt := b.toNat_lt
  intro c hc
  rw [radix36, List.mem_cons, List.mem_singleton] at hc
  obtain rfl | rfl := hc
  · exact hdigits _ (by omega)
  · exact hdigits _ (by omega)

theorem isPlain_of_mem_fragmentId {idBytes : List UInt8} :
    ∀ c ∈ fragmentId idBytes, IsPlain c := by
  intro c hc
  obtain ⟨b, -, hb⟩ := List.mem_flatMap.mp (List.mem_of_mem_take hc)
  exact isPlain_of_mem_radix36 b c hb

section Header

variable {id : List Char} {i n : ℕ} {type : List Char}

theorem text_fragHeader (hid : ∀ c ∈ id, IsPlain c) (hi : i < 2 ^ 53) (hn : n < 2 ^ 53)
    (htype : ∀ c ∈ type, IsPlain c) :
    print javascript (.object (fragHeader ν (ofText id) i n (ofText type))) =
      "\x7b\"_frag\":1,\"id\":\"".toList ++ id ++ "\",\"i\":".toList ++ Nat.toDigits 10 i ++
        ",\"n\":".toList ++ Nat.toDigits 10 n ++ ",\"t\":\"".toList ++ type ++
        "\",\"_hasBinary\":\"bytes\"\x7d".toList := by
  have hstring (text : List Char) (h : ∀ c ∈ text, IsPlain c) :
      printString javascript (ofText text) = '"' :: (text ++ ['"']) :=
    congrArg (fun quoted => '"' :: (quoted ++ ['"'])) (quoteJavascript_ofText h)
  have hspace : javascript.space = [] := rfl
  have hfrag : printString javascript "_frag" = "\"_frag\"".toList := by decide
  have hkeyId : printString javascript "id" = "\"id\"".toList := by decide
  have hkeyI : printString javascript "i" = "\"i\"".toList := by decide
  have hkeyN : printString javascript "n" = "\"n\"".toList := by decide
  have hkeyT : printString javascript "t" = "\"t\"".toList := by decide
  have hkeyMark : printString javascript "_hasBinary" = "\"_hasBinary\"".toList := by decide
  have hmark : printString javascript "bytes" = "\"bytes\"".toList := by decide
  simp only [fragHeader, print, printFields, joinTexts, hspace, hfrag, hkeyId, hkeyI, hkeyN, hkeyT,
    hkeyMark, hmark, Numeral.toText_ofNat i hi, Numeral.toText_ofNat n hn,
    Numeral.toText_ofNat 1 (by decide), hstring id hid, hstring type htype, List.append_assoc,
    List.cons_append, List.nil_append]
  rfl

/-- **The size of the header**: it grows with the digits of the index and of the count only. -/
theorem length_fragHeader (hid : ∀ c ∈ id, IsPlain c) (hi : i < 2 ^ 53) (hn : n < 2 ^ 53)
    (htype : ∀ c ∈ type, IsPlain c) :
    (Utf8.encode (print javascript
      (.object (fragHeader ν (ofText id) i n (ofText type))))).length =
      57 + id.length + type.length + (Nat.toDigits 10 i).length + (Nat.toDigits 10 n).length := by
  have hdigits (k : ℕ) : ∀ c ∈ Nat.toDigits 10 k, c.toNat < 0x80 := fun c hc =>
    (isPlain_of_mem_toDigits hc).2.1
  have hlead : ∀ c ∈ "\x7b\"_frag\":1,\"id\":\"".toList, c.toNat < 0x80 :=
    List.all_iff_forall_prop.mp (by decide)
  have hindex : ∀ c ∈ "\",\"i\":".toList, c.toNat < 0x80 :=
    List.all_iff_forall_prop.mp (by decide)
  have hcount : ∀ c ∈ ",\"n\":".toList, c.toNat < 0x80 :=
    List.all_iff_forall_prop.mp (by decide)
  have hkind : ∀ c ∈ ",\"t\":\"".toList, c.toNat < 0x80 :=
    List.all_iff_forall_prop.mp (by decide)
  have hmark : ∀ c ∈ "\",\"_hasBinary\":\"bytes\"\x7d".toList, c.toNat < 0x80 :=
    List.all_iff_forall_prop.mp (by decide)
  rw [text_fragHeader hid hi hn htype, Utf8.length_encode_of_lt]
  · have hlengths : "\x7b\"_frag\":1,\"id\":\"".toList.length = 17 ∧
        "\",\"i\":".toList.length = 6 ∧ ",\"n\":".toList.length = 5 ∧
        ",\"t\":\"".toList.length = 6 ∧
        "\",\"_hasBinary\":\"bytes\"\x7d".toList.length = 23 := by decide
    simp only [List.length_append]
    omega
  · simp only [List.forall_mem_append]
    exact ⟨⟨⟨⟨⟨⟨⟨⟨hlead, fun c hc => (hid c hc).2.1⟩, hindex⟩, hdigits i⟩, hcount⟩, hdigits n⟩,
      hkind⟩, fun c hc => (htype c hc).2.1⟩, hmark⟩

theorem length_toDigits_le {k : ℕ} (hk : k < 2 ^ 53) : (Nat.toDigits 10 k).length ≤ 16 := by
  rw [Nat.length_toDigits_le_iff (by decide) (by decide)]
  omega

end Header

/-! ### Frames -/

theorem totalFrags_le_length (bytes : List UInt8) : totalFrags bytes ≤ bytes.length := by
  have hmax : fragPayloadMax = 262012 := by decide
  rw [totalFrags, hmax]
  omega

theorem length_fragment_le (idBytes : List UInt8) {p : Packet} (hp : p.bytes.length < 2 ^ 53)
    {i : ℕ} (hi : i < totalFrags p.bytes) :
    (fragment ν (ofText (fragmentId idBytes)) p i).length ≤ sctpMaxSize := by
  have hcount := totalFrags_le_length p.bytes
  have hid : (fragmentId idBytes).length ≤ 8 := List.length_take_le 8 _
  obtain ⟨type, htype, hplain, hlength⟩ : ∃ type : List Char, p.type = ofText type ∧
      (∀ c ∈ type, IsPlain c) ∧ type.length = 1 := by
    cases p with
    | text raw => exact ⟨['s'], rfl, List.forall_mem_singleton.mpr (by decide), rfl⟩
    | binary frame => exact ⟨['b'], rfl, List.forall_mem_singleton.mpr (by decide), rfl⟩
  have hheader := @length_fragHeader ν _ (fragmentId idBytes) i (totalFrags p.bytes) type
    isPlain_of_mem_fragmentId (by omega) (by omega) hplain
  have hslice := length_sliceOf_le p.bytes i
  have hi' := @length_toDigits_le i (by omega)
  have hn' := @length_toDigits_le (totalFrags p.bytes) (by omega)
  have hlimits : sctpMaxSize = 262144 ∧ fragPayloadMax = 262012 := by decide
  rw [sliceOf] at hslice
  rw [fragment, length_lengthPrefixed, htype, hheader]
  omega

variable (ν) in
theorem length_bytes_le_of_mem_sendPayload (idBytes : List UInt8) {p q : Packet}
    (hp : p.bytes.length < 2 ^ 53) (hq : q ∈ sendPayload ν idBytes p) :
    q.bytes.length ≤ sctpMaxSize := by
  rw [sendPayload] at hq
  split at hq
  next hfits =>
    rw [List.mem_singleton.mp hq]
    exact hfits
  next =>
    obtain ⟨i, hi, rfl⟩ := List.mem_map.mp hq
    exact length_fragment_le idBytes hp (List.mem_range.mp hi)

/-- **No oversized send**: every frame that a connection gives to its channel, for any message and
any fragment id, fits. The payload has less than `2 ^ 53` bytes, as every buffer has. -/
theorem length_bytes_le_of_mem_send (m : Message ν) (idBytes : List UInt8)
    (hm : m.rawPayload.bytes.length < 2 ^ 53) :
    ∀ q ∈ m.send idBytes, q.bytes.length ≤ sctpMaxSize := fun _ hq =>
  length_bytes_le_of_mem_sendPayload ν idBytes hm hq

/-- A chunk of 256 KiB, which its header makes too large for one frame. -/
def wholeChunk : Message ℤ where
  fields := [("type", .string "Chunk"), ("bytes", .object [])]
  binary := some (.bytes, List.replicate sctpMaxSize 0)
  nodup := by decide
  isFinite := by simp [Value.IsFinite, fieldsFinite_iff]
  hasBinary := by simp [Fields.keys, BinaryField.name]

theorem length_rawPayload_wholeChunk :
    wholeChunk.rawPayload.bytes.length = 4 + 37 + sctpMaxSize := by
  have hheader : wholeChunk.headerJson.length = 37 := by decide +kernel
  have hpayload : wholeChunk.rawPayload =
      .binary (lengthPrefixed wholeChunk.headerJson (List.replicate sctpMaxSize 0)) := rfl
  rw [hpayload, Packet.bytes, length_lengthPrefixed, hheader, List.length_replicate]

theorem length_bytes_le_of_mem_send_wholeChunk :
    ¬∃ q ∈ wholeChunk.send [1, 2, 3, 4, 5, 6], sctpMaxSize < q.bytes.length := by
  rintro ⟨q, hq, hlarge⟩
  refine absurd (length_bytes_le_of_mem_send wholeChunk [1, 2, 3, 4, 5, 6] ?_ q hq) (by omega)
  rw [length_rawPayload_wholeChunk]
  decide

end Rapidly.P2p
