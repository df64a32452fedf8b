import Mathlib.Data.List.Nodup

/-!
# The type of a file's content

`validate_magic_bytes` of `catalog/file/magic.py`: the first bytes of a file have to be those of
the type that was declared for it.

* `validateMagicBytes` accepts the content, or reports the type that is detected instead.
* `detected_ne_declared` says that the type reported is another one than the declared one, except
  for the containers, where the first bytes do not decide.
-/

namespace Rapidly.Catalog.Magic

/-- The content of a file. -/
abbrev Data := List UInt8

/-- A byte string, of characters below 256. -/
def bytes (s : String) : Data := s.toList.map fun c => .ofNat c.toNat

structure MagicSignature where
  mimeType : String
  signatures : List Data
  offset : ℕ := 0
deriving DecidableEq

/-- `MAGIC_SIGNATURES`. -/
def magicSignatures : List MagicSignature :=
  [{ mimeType := "image/jpeg", signatures := [bytes "\xff\xd8\xff"] },
    { mimeType := "image/png", signatures := [bytes "\x89PNG\r\n\x1a\n"] },
    { mimeType := "image/gif", signatures := [bytes "GIF87a", bytes "GIF89a"] },
    { mimeType := "image/webp", signatures := [bytes "RIFF"] },
    { mimeType := "image/bmp", signatures := [bytes "BM"] },
    { mimeType := "image/tiff", signatures := [bytes "II*\x00", bytes "MM\x00*"] },
    { mimeType := "image/x-icon", signatures := [bytes "\x00\x00\x01\x00"] },
    { mimeType := "application/pdf", signatures := [bytes "%PDF"] },
    { mimeType := "application/rtf", signatures := [bytes "\x7b\\rtf"] },
    { mimeType := "application/zip"
      signatures := [bytes "PK\x03\x04", bytes "PK\x05\x06", bytes "PK\x07\x08"] },
    { mimeType := "application/x-zip-compressed"
      signatures := [bytes "PK\x03\x04", bytes "PK\x05\x06", bytes "PK\x07\x08"] },
    { mimeType := "application/x-rar-compressed"
      signatures := [bytes "Rar!\x1a\x07\x00", bytes "Rar!\x1a\x07\x01\x00"] },
    { mimeType := "application/x-7z-compressed", signatures := [bytes "7z\xbc\xaf'\x1c"] },
    { mimeType := "application/gzip", signatures := [bytes "\x1f\x8b"] },
    { mimeType := "application/x-bzip2", signatures := [bytes "BZh"] },
    { mimeType := "application/x-tar", signatures := [bytes "ustar"], offset := 257 },
    { mimeType := "audio/mpeg"
      signatures := [bytes "\xff\xfb", bytes "\xff\xfa", bytes "\xff\xf3", bytes "\xff\xf2",
        bytes "ID3"] },
    { mimeType := "audio/wav", signatures := [bytes "RIFF"] },
    { mimeType := "audio/ogg", signatures := [bytes "OggS"] },
    { mimeType := "audio/flac", signatures := [bytes "fLaC"] },
    { mimeType := "audio/aac", signatures := [bytes "\xff\xf1", bytes "\xff\xf9"] },
    { mimeType := "audio/x-m4a", signatures := [bytes "\x00\x00\x00"] },
    { mimeType := "video/mp4", signatures := [bytes "\x00\x00\x00"] },
    { mimeType := "video/webm", signatures := [bytes "\x1aE\xdf\xa3"] },
    { mimeType := "video/ogg", signatures := [bytes "OggS"] },
    { mimeType := "video/quicktime", signatures := [bytes "\x00\x00\x00"] },
    { mimeType := "video/x-msvideo", signatures := [bytes "RIFF"] },
    { mimeType := "video/x-matroska", signatures := [bytes "\x1aE\xdf\xa3"] },
    { mimeType := "application/vnd.openxmlformats-officedocument.wordprocessingml.document"
      signatures := [bytes "PK\x03\x04"] },
    { mimeType := "application/vnd.openxmlformats-officedocument.spreadsheetml.sheet"
      signatures := [bytes "PK\x03\x04"] },
    { mimeType := "application/vnd.openxmlformats-officedocument.presentationml.presentation"
      signatures := [bytes "PK\x03\x04"] },
    { mimeType := "application/msword", signatures := [bytes "\xd0\xcf\x11\xe0\xa1\xb1\x1a\xe1"] },
    { mimeType := "application/vnd.oasis.opendocument.text", signatures := [bytes "PK\x03\x04"] },
    { mimeType := "application/vnd.oasis.opendocument.spreadsheet"
      signatures := [bytes "PK\x03\x04"] },
    { mimeType := "application/vnd.oasis.opendocument.presentation"
      signatures := [bytes "PK\x03\x04"] },
    { mimeType := "application/epub+zip", signatures := [bytes "PK\x03\x04"] },
    { mimeType := "font/ttf", signatures := [bytes "\x00\x01\x00\x00"] },
    { mimeType := "font/otf", signatures := [bytes "OTTO"] },
    { mimeType := "font/woff", signatures := [bytes "wOFF"] },
    { mimeType := "font/woff2", signatures := [bytes "wOF2"] }]

/-- `SKIP_VALIDATION_MIMES`. -/
def skipValidationMimes : List String :=
  ["text/plain", "text/csv", "text/markdown", "text/x-python", "text/x-java", "text/x-c",
    "text/x-c++", "text/x-ruby", "application/json", "application/xml", "image/svg+xml",
    "application/octet-stream"]

/-- `data[start:stop]`. -/
def slice (data : Data) (start stop : ℕ) : Data := (data.take stop).drop start

/-- `_check_signature`. -/
def checkSignature (data : Data) (signature : MagicSignature) : Bool :=
  signature.signatures.any fun sig =>
    signature.offset + sig.length ≤ data.length ∧
      slice data signature.offset (signature.offset + sig.length) = sig

/-- `_detect_mime_type`. -/
def detectMimeType (data : Data) : Option String :=
  (magicSignatures.find? (checkSignature data)).map MagicSignature.mimeType

/-- `_is_webp`, `_is_wav` and `_is_avi`: a container with the given kind. -/
def isRiff (kind : String) (data : Data) : Bool :=
  12 ≤ data.length ∧ slice data 0 4 = bytes "RIFF" ∧ slice data 8 12 = bytes kind

/-- `_is_mp4_compatible`. -/
def isMp4Compatible (data : Data) : Bool := 12 ≤ data.length ∧ slice data 4 8 = bytes "ftyp"

/-- The check of the types whose first bytes do not decide. -/
def containerCheck (declaredMimeType : String) : Option (Data → Bool) :=
  if declaredMimeType = "image/webp" then some (isRiff "WEBP")
  else if declaredMimeType = "audio/wav" then some (isRiff "WAVE")
  else if declaredMimeType = "video/x-msvideo" then some (isRiff "AVI ")
  else if declaredMimeType ∈ ["video/mp4", "video/quicktime", "audio/x-m4a"] then
    some isMp4Compatible
  else none

/-- `validate_magic_bytes`, strict: the type that is detected where the content is not accepted. -/
def validateMagicBytes (data : Data) (declaredMimeType : String) : Except (Option String) Unit :=
  if declaredMimeType ∈ skipValidationMimes then .ok ()
  else
    match containerCheck declaredMimeType with
    | some check => if check data then .ok () else .error (detectMimeType data)
    | none =>
      match magicSignatures.find? (·.mimeType = declaredMimeType) with
      | none => .ok ()
      | some signature =>
        if checkSignature data signature then .ok () else .error (detectMimeType data)

theorem mimeType_injective {sig sig' : MagicSignature} (h : sig ∈ magicSignatures)
    (h' : sig' ∈ magicSignatures) (heq : sig.mimeType = sig'.mimeType) : sig = sig' := by
  have hnodup : (magicSignatures.map MagicSignature.mimeType).Nodup := by decide
  exact List.inj_on_of_nodup_map hnodup h h' heq

/-- **A mismatch names another type** than the declared one, if the first bytes decide about it. -/
theorem detected_ne_declared {data : Data} {declared detected : String}
    (hcontainer : containerCheck declared = none)
    (h : validateMagicBytes data declared = .error (some detected)) : detected ≠ declared := by
  unfold validateMagicBytes at h
  rw [hcontainer] at h
  split at h
  · cases h
  · dsimp only at h
    split at h
    · cases h
    next signature hfind =>
      split at h
      · cases h
      next hcheck =>
        rintro rfl
        have hdetected : detectMimeType data = some detected := Except.error.inj h
        obtain ⟨found, hfound, hmime⟩ := Option.map_eq_some_iff.mp hdetected
        have hdeclared : signature.mimeType = detected := by
          simpa using List.find?_some hfind
        obtain rfl := mimeType_injective (List.mem_of_find?_eq_some hfound)
          (List.mem_of_find?_eq_some hfind) (hmime.trans hdeclared.symm)
        exact hcheck (List.find?_some hfound)

/-- A declared container that is another one is reported as itself. -/
example : validateMagicBytes (bytes "RIFF....WAVE") "image/webp" = .error (some "image/webp") := by
  decide

end Rapidly.Catalog.Magic
