import Mathlib.Algebra.Order.Ring.Rat
import Mathlib.Data.List.GetD

/-!
# Messages of the peer-to-peer file transfer

The wire vocabulary of `utils/file-sharing/messages.ts`. A `Message` is what `decodeMessage`
has already accepted: the schema checks (string lengths, safe file names, non-negative
numbers) belong to decoding, and a frame that fails them never becomes a `Message`.

* Numbers of the wire are rationals: the schemas ask for `z.number()`, finite but not
  necessarily an integer.
* The device description of a `RequestInfo` is only displayed, and is left out.

`WebCrypto` collects the browser primitives the transfer is built on. They are not part of
the repository, so they are parameters; the functions of `encryption.ts` that call them are
defined here on top.
-/

namespace Rapidly.FileSharing

/-- An `ArrayBuffer`. -/
abbrev Bytes := List UInt8

/-- The UTF-8 bytes of a string (`TextEncoder`). -/
def encode (s : String) : Bytes := s.toUTF8.data.toList

theorem encode_injective : Function.Injective encode := by
  intro a b h
  have hdata : a.toUTF8.data = b.toUTF8.data := Array.toList_inj.mp h
  have hbytes : a.toUTF8 = b.toUTF8 := ByteArray.ext hdata
  exact String.toByteArray_inj.mp hbytes

/-- One entry of the file list of an `Info` message. -/
structure FileInfo where
  fileName : String
  size : ℚ
  type : String
  sha256 : Option String := none
  commitment : Option String := none
deriving DecidableEq

/-- The payload of an `Info` message, also what `EncryptedInfo` carries encrypted. -/
structure InfoPayload where
  files : List FileInfo
  remainingDownloads : Option ℚ := none
  encrypted : Option Bool := none
deriving DecidableEq

/-- A decoded message, in either direction. -/
inductive Message where
  | requestInfo
  | info (payload : InfoPayload)
  | encryptedInfo (payload : Bytes)
  | start (fileName : String) (offset : ℚ)
  | chunk (fileName : String) (fileIndex : Option ℚ) (offset : ℚ) (bytes : Bytes)
      (final : Bool)
  | chunkAck (fileName : String) (offset bytesReceived : ℚ)
  | pause
  | done
  | error (error : String)
  | passwordRequired (errorMessage : Option String)
  | usePassword (password : String)
  | report
  | ping
  | pong
deriving DecidableEq

/-! ### Chunks -/

/-- Plaintext bytes per chunk (`MAX_CHUNK_SIZE`). -/
def maxChunkSize : ℕ := 256 * 1024 - 512

/-- The chunk starting at `offset` reaches the end of the file. -/
def isFinalChunk (offset fileSize : ℕ) : Bool := offset + maxChunkSize ≥ fileSize

/-- `Blob.slice(start, stop)`. -/
def slice (content : Bytes) (start stop : ℕ) : Bytes := (content.drop start).take (stop - start)

/-! ### Comparing secrets -/

/-- `secureCompare`: every byte of the longer input is compared, and never fewer than 64, so
that the running time says nothing about where two inputs differ. -/
def secureCompare (a b : String) : Bool :=
  let bufA := encode a
  let bufB := encode b
  let iterLength := max (max bufA.length bufB.length) 64
  let result := (List.range iterLength).foldl
    (fun result i => result ||| ((bufA.getD i 0) ^^^ (bufB.getD i 0)).toNat)
    (bufA.length ^^^ bufB.length)
  result == 0

/-- A fold of bitwise or is zero exactly when its start and all its terms are. -/
private theorem foldl_or_eq_zero (f : ℕ → ℕ) (l : List ℕ) (r : ℕ) :
    l.foldl (fun r i => r ||| f i) r = 0 ↔ r = 0 ∧ ∀ i ∈ l, f i = 0 := by
  induction l generalizing r with
  | nil => simp
  | cons i l ih => rw [List.foldl_cons, ih, Nat.or_eq_zero_iff]; simp [and_assoc]

private theorem byte_xor_toNat_eq_zero (x y : UInt8) : (x ^^^ y).toNat = 0 ↔ x = y := by
  rw [← UInt8.toNat_zero, UInt8.toNat_inj, UInt8.xor_eq_zero_iff]

private theorem nat_xor_eq_zero (m n : ℕ) : m ^^^ n = 0 ↔ m = n := by
  refine ⟨fun h => Nat.eq_of_testBit_eq fun i => ?_, fun h => by simp [h]⟩
  have hbit := congrArg (fun k => k.testBit i) h
  simpa using hbit

@[simp] theorem secureCompare_iff (a b : String) : secureCompare a b = true ↔ a = b := by
  simp only [secureCompare, beq_iff_eq]
  rw [foldl_or_eq_zero fun i => (((encode a).getD i 0) ^^^ ((encode b).getD i 0)).toNat,
    nat_xor_eq_zero]
  simp only [byte_xor_toNat_eq_zero, List.mem_range]
  constructor
  · rintro ⟨hlen, hbytes⟩
    refine encode_injective (List.ext_getElem hlen fun i hi hi' => ?_)
    have hbyte := hbytes i (lt_of_lt_of_le hi (by omega))
    rwa [List.getD_eq_getElem _ _ hi, List.getD_eq_getElem _ _ hi'] at hbyte
  · rintro rfl
    exact ⟨rfl, fun _ _ => rfl⟩

/-! ### Encryption -/

/-- The Web Crypto operations the transfer uses, and the JSON text of a file list. -/
structure WebCrypto where
  /-- HKDF-SHA256 from key material, salt and info. -/
  deriveKey : Bytes → Bytes → Bytes → Bytes
  /-- AES-GCM encryption under a key and an initialisation vector. -/
  encrypt : Bytes → Bytes → Bytes → Bytes
  /-- AES-GCM decryption; `none` when the authentication tag is wrong. -/
  decrypt : Bytes → Bytes → Bytes → Option Bytes
  /-- HMAC-SHA256 of a message, as hexadecimal digits. -/
  sign : Bytes → Bytes → String
  /-- SHA-256 of a file's bytes, as hexadecimal digits. -/
  sha256 : Bytes → String
  /-- `JSON.stringify` of the `Info` payload. -/
  stringify : InfoPayload → Bytes
  /-- `JSON.parse` followed by the `Info` schema; `none` when either rejects. -/
  parse : Bytes → Option InfoPayload

namespace WebCrypto

variable (W : WebCrypto)

/-- Length of the initialisation vector in front of every ciphertext (`IV_LENGTH`). -/
def ivLength : ℕ := 12

/-- Length of the authentication tag at the end of every ciphertext (`GCM_TAG_LENGTH`). -/
def gcmTagLength : ℕ := 16

/-- `deriveFileKey`: throws on an empty salt. -/
def deriveFileKey (masterKey : Bytes) (fileName : String) (fileIndex : ℚ) (salt : Bytes) :
    Option Bytes :=
  if salt = [] then none
  else some (W.deriveKey masterKey salt (encode s!"file-sharing:{fileIndex}:{fileName}"))

/-- `encryptChunk`, with the random initialisation vector as an argument. -/
def encryptChunk (key iv plaintext : Bytes) : Bytes := iv ++ W.encrypt key iv plaintext

/-- `decryptChunk`: throws on an input too short to hold a vector and a tag, and on a wrong
tag. -/
def decryptChunk (key encrypted : Bytes) : Option Bytes :=
  if encrypted.length < ivLength + gcmTagLength then none
  else W.decrypt key (encrypted.take ivLength) (encrypted.drop ivLength)

/-- `deriveMetadataKey`: throws on an empty salt. -/
def deriveMetadataKey (masterKey salt : Bytes) : Option Bytes :=
  if salt = [] then none
  else some (W.deriveKey masterKey salt (encode "file-sharing-metadata"))

/-- `encryptMetadata`: throws on an empty salt and on a payload over 16 MB. -/
def encryptMetadata (masterKey : Bytes) (data : InfoPayload) (salt iv : Bytes) :
    Option Bytes := do
  let metadataKey ← W.deriveMetadataKey masterKey salt
  let plaintext := W.stringify data
  if plaintext.length > 16 * 1024 * 1024 then none
  else some (W.encryptChunk metadataKey iv plaintext)

/-- `decryptMetadata` and the schema check its only caller makes. -/
def decryptMetadata (masterKey encrypted salt : Bytes) : Option InfoPayload := do
  let metadataKey ← W.deriveMetadataKey masterKey salt
  let decrypted ← W.decryptChunk metadataKey encrypted
  W.parse decrypted

/-- The lowercase hexadecimal digits of a byte string (`toHex`). -/
def toHex (bytes : Bytes) : String :=
  String.ofList (bytes.flatMap fun b =>
    [Nat.digitChar (b.toNat / 16), Nat.digitChar (b.toNat % 16)])

/-- `computeKeyCommitment`: binds the key to a file's name, size and index. -/
def computeKeyCommitment (masterKey : Bytes) (fileName : String) (fileSize : ℚ)
    (fileIndex : ℕ) (salt : Bytes) : String :=
  let commitmentKey := W.deriveKey masterKey salt
    (encode s!"file-sharing-commitment:{fileIndex}:{fileName}")
  W.sign commitmentKey (encode s!"{fileName}:{fileSize}:{fileIndex}:{toHex salt}")

/-- `verifyKeyCommitment`, for a commitment that is present. -/
def verifyKeyCommitment (masterKey : Bytes) (fileName : String) (fileSize : ℚ) (fileIndex : ℕ)
    (salt : Bytes) (commitment : String) : Bool :=
  secureCompare (W.computeKeyCommitment masterKey fileName fileSize fileIndex salt) commitment

end WebCrypto

/-- Browser primitives that leave the data as it is, for runs of the model. -/
def plainCrypto : WebCrypto where
  deriveKey _ _ info := info
  encrypt _ _ plaintext := plaintext
  decrypt _ _ ciphertext := some ciphertext
  sign _ message := String.ofList (message.map fun b => Char.ofNat b.toNat)
  sha256 content := String.ofList (content.map fun b => Char.ofNat b.toNat)
  stringify _ := []
  parse _ := none

end Rapidly.FileSharing
