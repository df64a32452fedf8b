import Rapidly.FileSharing.ZipStream.Layout
import Rapidly.Zip.Format

/-!
# The central directory of a ZIP stream

The headers of the central directory, as their writes leave them: the first 46 bytes of a header
that is not for ZIP64 (`head_plain`) and of one that is (`head_zip64`), and what follows these.
A reader gets out of a header what was written if the file fits (`readHeader_placed`), and only
then (`fits_of_readHeader`): the length of a ZIP64 extra field is written over the internal
attributes, so nothing announces that field, and a name that does not fit its length field is cut
off.
-/

namespace Rapidly.FileSharing.ZipStream

open Binary Transition

/-- What a reader is to find out about a file. -/
def FileLike.entry (f : FileLike) (offset : ℕ) : Zip.Entry where
  name := f.entryName
  crc32 := f.check.toNat
  compressedSize := f.content.length
  uncompressedSize := f.content.length
  localHeaderOffset := offset

/-- The name fits its length field, and neither the file nor what is in front of it reaches
4 GiB. -/
def FileLike.Fits (f : FileLike) (offset : ℕ) : Prop :=
  (encode f.entryName).length < 65536 ∧ f.isZip64 = false ∧ offset < zip64Threshold

/-! ### Local headers -/

/-- The fields that a local header and one of the central directory have in common. -/
structure HeaderFields where
  version : ℕ
  time : ℕ
  date : ℕ
  crc : ℕ := 0
  compressed : ℕ := 0
  uncompressed : ℕ := 0
  nameLength : ℕ
  extraLength : ℕ := 0

/-- How they are laid out. The bytes of the version have been swapped. -/
def HeaderFields.layout (h : HeaderFields) : List (ℕ × ℕ) :=
  [(1, 0), (1, h.version), (2, 0x0808), (2, 0), (2, h.time), (2, h.date), (4, h.crc),
    (4, h.compressed), (4, h.uncompressed), (2, h.nameLength), (2, h.extraLength)]

/-- The bytes that they have in common. -/
def HeaderFields.bytes (h : HeaderFields) : List UInt8 := recordBytes h.layout

theorem HeaderFields.length_bytes (h : HeaderFields) : h.bytes.length = 26 := by
  rfl

theorem HeaderFields.write_crc (h : HeaderFields) (crc : ℕ) :
    writeAll h.bytes 0 [setUint32 10 crc] = { h with crc }.bytes := by
  simp [writeAt, HeaderFields.bytes, HeaderFields.layout, recordBytes, leBytes, setUint32]

theorem HeaderFields.write_sizes (h : HeaderFields) (crc compressed uncompressed : ℕ) :
    writeAll h.bytes 0 [setUint32 10 crc, setUint32 14 compressed, setUint32 18 uncompressed] =
      { h with crc, compressed, uncompressed }.bytes := by
  simp [writeAt, HeaderFields.bytes, HeaderFields.layout, recordBytes, leBytes, setUint32]

theorem ZipObject.header_writeHeader (z : ZipObject) (offset : ℕ) :
    (z.writeHeader offset).header = z.newHeader := by
  simp only [writeHeader]

namespace FileLike

variable (f : FileLike)

theorem header_reading (offset : ℕ) (data : List UInt8) (reader : Source) :
    (f.reading offset data reader).header = (ZipObject.ofFileLike f).newHeader := by
  simp only [reading]

/-- The fields that are known before the content is. -/
def newFields : HeaderFields :=
  { version := if f.declaresZip64 then 0x2d else 0x14
    time := f.lastModified.timeWord
    date := f.lastModified.dateWord
    compressed := if f.declaresZip64 then 0xffffffff else 0
    uncompressed := if f.declaresZip64 then 0xffffffff else 0
    nameLength := (encode f.entryName).length
    extraLength := if f.declaresZip64 then 20 else 0 }

/-- The fields in the end. -/
def fields : HeaderFields :=
  if f.directory then f.newFields
  else if f.isZip64 then { f.newFields with crc := f.check.toNat }
  else
    { f.newFields with
      crc := f.check.toNat
      compressed := f.content.length
      uncompressed := f.content.length }

theorem newHeader_eq : (ZipObject.ofFileLike f).newHeader = f.newFields.bytes := by
  have hdeclared : (ZipObject.ofFileLike f).needsZip64 = f.declaresZip64 := rfl
  rw [ZipObject.newHeader, newFields, hdeclared]
  cases f.declaresZip64 <;>
    simp [ZipObject.ofFileLike, writeAt, zeros, List.replicate, HeaderFields.bytes,
      HeaderFields.layout, recordBytes, leBytes, beBytes, setUint16, setUint32, setUint32BE]

theorem needsZip64_filled (offset : ℕ) :
    ((f.filled offset).needsZip64 || (f.filled offset).hasGrown) = f.isZip64 := by
  have hneeds : (f.filled offset).needsZip64 = f.declaresZip64 := by
    rw [filled]
    split <;> rfl
  have hlength : (f.filled offset).uncompressedLength = f.content.length := by
    rw [filled, content]
    split <;> rfl
  rw [ZipObject.hasGrown, isZip64, hneeds, compressedLength_filled, hlength, Bool.or_self]
  cases f.declaresZip64 <;> rfl

theorem header_placed (hwritten : f.isWritten) (offset : ℕ) :
    (f.placed offset).header = f.fields.bytes := by
  have hneeds := f.needsZip64_filled offset
  rw [placed, ZipObject.writeFooter, if_pos hwritten]
  rw [hneeds]
  rw [filled, fields]
  split
  -- the check of a directory is never made up, and its header is left as it was
  next hdirectory =>
    have hwrites : ∀ writes, ((ZipObject.ofFileLike f).writeHeader offset).withCrc writes = [] :=
      fun _ => rfl
    rw [hwrites, ZipObject.header_writeHeader, writeAll_nil]
    exact f.newHeader_eq
  next hfile =>
    -- the check of the content is written, and the sizes unless they are all ones
    have hwrites : ∀ writes, (f.reading offset f.content {}).withCrc writes =
        writes f.check := by
      intro writes
      rw [FileLike.check, ← Crc32.get_update]
      rfl
    rw [hwrites, f.header_reading, f.newHeader_eq]
    split
    · exact f.newFields.write_crc _
    · exact f.newFields.write_sizes ..

end FileLike

/-! ### Headers of the central directory -/

namespace ZipObject

variable (z : ZipObject)

/-- The writes that go to the first 46 bytes of a header. -/
def headWrites : List Write :=
  [setUint32BE 0 0x504b0102, setUint16BE 4 (if z.fileZ64 then 0x2d00 else 0x1400), ⟨6, z.header⟩] ++
  (if z.fileZ64 then [setUint16 6 0x2d, setUint16 36 z.extraLen] else []) ++
  [setUint16 32 z.comment.length] ++
  (if z.directory then [setUint8 38 0x10] else []) ++
  (if z.fileZ64 then
    [setUint32 42 0xffffffff, setUint32 20 0xffffffff, setUint32 24 0xffffffff]
  else [setUint32 42 z.offset])

/-- The writes that go behind them. -/
def tailWrites : List Write :=
  let extraOff := 46 + z.nameBuf.length + z.comment.length
  [⟨46, z.nameBuf⟩, ⟨46 + z.nameBuf.length, z.comment⟩] ++
  if z.fileZ64 then
    [setUint16 extraOff 0x0001, setUint16 (extraOff + 2) 24] ++
      writeUint64LE (extraOff + 4) z.uncompressedLength ++
      writeUint64LE (extraOff + 12) z.compressedLength ++ writeUint64LE (extraOff + 20) z.offset
  else []

theorem entryWrites_eq : z.entryWrites = z.headWrites ++ z.tailWrites := by
  rw [entryWrites, headWrites, tailWrites]
  simp only [List.append_assoc]

/-- The first 46 bytes of a header. -/
def head : List UInt8 := writeAll (zeros 46) 0 z.headWrites

/-- A header of the central directory. -/
def directoryEntry : List UInt8 := writeAll (zeros z.entryLength) 0 z.entryWrites

variable {z}

theorem within_headWrites (h : z.header.length = 26) : ∀ w ∈ z.headWrites, w.Within 46 := by
  rw [headWrites]
  cases z.fileZ64 <;> cases z.directory <;> simp [h]

theorem within_tailWrites : ∀ w ∈ z.tailWrites, w.Within z.entryLength := by
  unfold tailWrites entryLength extraLen writeUint64LE
  cases z.fileZ64
  · simp
  · simp
    omega

theorem within_entryWrites (h : z.header.length = 26) :
    ∀ w ∈ z.entryWrites, w.Within z.entryLength := by
  have hle : 46 ≤ z.entryLength := by
    rw [entryLength]
    omega
  rw [entryWrites_eq]
  intro w hw
  rcases List.mem_append.mp hw with hw | hw
  · exact Nat.le_trans (within_headWrites h w hw) hle
  · exact within_tailWrites w hw

theorem length_head (h : z.header.length = 26) : z.head.length = 46 :=
  length_writeAll (length_zeros 46 ▸ within_headWrites h)

theorem length_directoryEntry (h : z.header.length = 26) :
    z.directoryEntry.length = z.entryLength :=
  (length_writeAll (by rw [length_zeros]; exact within_entryWrites h)).trans (length_zeros _)

theorem directoryEntry_eq_head (h : z.header.length = 26) :
    z.directoryEntry = writeAll (z.head ++ zeros (z.entryLength - 46)) 0 z.tailWrites := by
  have hzeros : zeros z.entryLength = zeros 46 ++ zeros (z.entryLength - 46) := by
    rw [← zeros_add]
    congr 1
    rw [entryLength]
    omega
  have hhead : writeAll (zeros z.entryLength) 0 z.headWrites =
      z.head ++ zeros (z.entryLength - 46) := by
    rw [hzeros]
    exact @writeAll_append (zeros 46) [] _ z.headWrites (within_headWrites h)
  rw [directoryEntry, entryWrites_eq, writeAll_concat, hhead]

/-- The extra field of a header. -/
def directoryExtra (z : ZipObject) : List UInt8 :=
  if z.fileZ64 then
    recordBytes [(2, 1), (2, 24), (8, z.uncompressedLength), (8, z.compressedLength), (8, z.offset)]
  else []

theorem directoryEntry_eq (h : z.header.length = 26) :
    z.directoryEntry = z.head ++ (z.nameBuf ++ (z.comment ++ z.directoryExtra)) := by
  have hhead := length_head h
  have hdata : writtenData z.tailWrites = z.nameBuf ++ (z.comment ++ z.directoryExtra) := by
    rw [tailWrites, directoryExtra]
    cases z.fileZ64 with
    | false => simp [writtenData]
    | true =>
      simp [writtenData, writeUint64LE, setUint16, setUint32, recordBytes, leBytes,
        Nat.div_div_eq_div_mul]
  have hsequential : Binary.Sequential z.head.length z.tailWrites := by
    rw [hhead, tailWrites]
    cases z.fileZ64 with
    | false => simp [Binary.Sequential]
    | true => simp [Binary.Sequential, writeUint64LE, setUint16, setUint32]
  have hlength : z.entryLength - 46 = (writtenData z.tailWrites).length := by
    rw [hdata, entryLength, extraLen, directoryExtra, List.length_append, List.length_append]
    cases z.fileZ64 with
    | false =>
      simp
      omega
    | true =>
      simp
      omega
  rw [directoryEntry_eq_head h, hlength, writeAll_sequential hsequential, hdata]

theorem exists_directoryEntry (h : z.header.length = 26) :
    ∃ tail, z.directoryEntry = z.head ++ tail := ⟨_, directoryEntry_eq h⟩

/-- A header without an extra field and a comment is its first 46 bytes and the name. -/
theorem directoryEntry_plain (h : z.header.length = 26) (hplain : z.fileZ64 = false)
    (hcomment : z.comment = []) : z.directoryEntry = z.head ++ z.nameBuf := by
  rw [directoryEntry_eq h, directoryExtra, hplain, hcomment, if_neg Bool.false_ne_true,
    List.append_nil, List.append_nil]

end ZipObject

section Head

variable {z : ZipObject} {h : HeaderFields}

theorem head_plain (hheader : z.header = h.bytes) (hplain : z.fileZ64 = false) :
    z.head = recordBytes
      ((4, 0x02014b50) :: (2, 20) :: h.layout ++ [(2, z.comment.length), (4, 0),
        (4, if z.directory then 0x10 else 0), (4, z.offset)]) := by
  rw [ZipObject.head, ZipObject.headWrites, hheader, hplain]
  cases z.directory <;>
    simp [writeAt, zeros, List.replicate, HeaderFields.bytes, HeaderFields.layout, recordBytes,
      leBytes, beBytes, setUint8, setUint16, setUint32, setUint16BE, setUint32BE]

/-- The first 46 bytes of a header for ZIP64. The length of its extra field stands in front of
the external attributes. -/
theorem head_zip64 (hheader : z.header = h.bytes) (hzip64 : z.fileZ64 = true) :
    z.head = recordBytes [(4, 0x02014b50), (2, 45), (2, 45), (2, 0x0808), (2, 0), (2, h.time),
      (2, h.date), (4, h.crc), (4, 0xffffffff), (4, 0xffffffff), (2, h.nameLength),
      (2, h.extraLength), (2, z.comment.length), (2, 0), (2, z.extraLen),
      (4, if z.directory then 0x10 else 0), (4, 0xffffffff)] := by
  rw [ZipObject.head, ZipObject.headWrites, hheader, hzip64]
  cases z.directory <;>
    simp [writeAt, zeros, List.replicate, HeaderFields.bytes, HeaderFields.layout, recordBytes,
      leBytes, beBytes, setUint8, setUint16, setUint32, setUint16BE, setUint32BE]

theorem mod_of_lt_threshold {n : ℕ} (h : n < zip64Threshold) : n % 256 ^ 4 = n :=
  Nat.mod_eq_of_lt (h.trans (by decide))

theorem isPlain_head (hheader : z.header = h.bytes) (hplain : z.fileZ64 = false)
    (hcomment : z.comment = []) (hname : h.nameLength < 65536) (hextra : h.extraLength = 0)
    (hcompressed : h.compressed < zip64Threshold) (huncompressed : h.uncompressed < zip64Threshold)
    (hoffset : z.offset < zip64Threshold) : Zip.IsPlain z.head h.nameLength := by
  have hlength : z.head.length = 46 := ZipObject.length_head (by rw [hheader, h.length_bytes])
  have hones : ∀ {n : ℕ}, n < zip64Threshold → n % 256 ^ 4 ≠ 0xffffffff := by
    intro n hn
    rw [mod_of_lt_threshold hn]
    exact (hn.trans (by decide)).ne
  have hhead := head_plain hheader hplain
  refine ⟨hlength, ?_, ?_, ?_, ?_, ?_, ?_, ?_, ?_⟩ <;> rw [hhead, HeaderFields.layout]
  · simp
  · simp
    decide
  · simp [Nat.mod_eq_of_lt hname]
  · simp [hextra]
  · simp [hcomment]
  · simpa using hones huncompressed
  · simpa using hones hcompressed
  · simpa using hones hoffset

theorem field_name_head (hheader : z.header = h.bytes) :
    field z.head 28 2 = h.nameLength % 65536 := by
  cases hfile : z.fileZ64 with
  | false =>
    rw [head_plain hheader hfile, HeaderFields.layout]
    simp
  | true =>
    rw [head_zip64 hheader hfile]
    simp

end Head

/-! ### One file -/

section OneFile

variable {f : FileLike} {offset : ℕ} {rest : List UInt8}

theorem nameBuf_placed : (f.placed offset).nameBuf = Zip.encodeName f.entryName := by
  rw [FileLike.placed, FileLike.filled]
  split
  · split <;> rfl
  · rfl

theorem comment_placed_eq : (f.placed offset).comment = encode f.comment := by
  rw [FileLike.placed, FileLike.filled]
  split
  · split <;> rfl
  · rfl

theorem comment_placed (hcomment : f.comment = "") : (f.placed offset).comment = [] := by
  rw [comment_placed_eq, hcomment]
  rfl

theorem offset_placed (hwritten : f.isWritten) : (f.placed offset).offset = offset := by
  rw [FileLike.placed, FileLike.filled, if_pos hwritten]
  split <;> rfl

theorem fileZ64_placed (hwritten : f.isWritten) :
    (f.placed offset).fileZ64 = (f.isZip64 || decide (zip64Threshold ≤ offset)) := by
  have hneeds : (f.placed offset).needsZip64 = f.isZip64 := by
    rw [← f.needsZip64_filled offset, FileLike.placed, if_pos hwritten]
    rfl
  rw [ZipObject.fileZ64, hneeds, offset_placed hwritten]

/-- Nothing but the check and the sizes of a header is not known from the start. -/
theorem nameLength_fields : f.fields.nameLength = (Zip.encodeName f.entryName).length := by
  rw [FileLike.fields]
  split
  · rfl
  · split <;> rfl

theorem extraLength_fields : f.fields.extraLength = if f.declaresZip64 then 20 else 0 := by
  rw [FileLike.fields]
  split
  · rfl
  · split <;> rfl

theorem fields_plain (hplain : f.isZip64 = false) :
    f.fields.crc = f.check.toNat ∧ f.fields.compressed = f.content.length ∧
      f.fields.uncompressed = f.content.length := by
  have hdeclared : f.declaresZip64 = false := (Bool.or_eq_false_iff.mp hplain).1
  rw [FileLike.fields, hplain]
  cases hdirectory : f.directory with
  | false => exact ⟨rfl, rfl, rfl⟩
  | true =>
    have hcontent : f.content = [] := by rw [FileLike.content, if_pos hdirectory]
    rw [FileLike.check, FileLike.newFields, hdeclared, hcontent]
    exact ⟨rfl, rfl, rfl⟩

theorem length_headerData : (ZipObject.ofFileLike f).headerData.length =
    30 + (encode f.entryName).length + if f.declaresZip64 then 20 else 0 := by
  have hneeds : (ZipObject.ofFileLike f).needsZip64 = f.declaresZip64 := rfl
  have hname : (ZipObject.ofFileLike f).nameBuf = encode f.entryName := rfl
  have hheader := f.newFields.length_bytes
  rw [ZipObject.headerData, f.newHeader_eq, hneeds, hname, length_writeAll, length_zeros]
  rw [length_zeros]
  unfold writeUint64LE
  cases f.declaresZip64 with
  | false =>
    simp [hheader]
    omega
  | true =>
    simp [hheader]
    omega

/-- A file that is not for ZIP64 takes up 46 bytes beside its name and its content. -/
theorem length_localPart_plain (hwritten : f.isWritten) (hplain : f.isZip64 = false) :
    f.localPart.length = 46 + (encode f.entryName).length + f.content.length := by
  have hdeclared : f.declaresZip64 = false := (Bool.or_eq_false_iff.mp hplain).1
  have hfooter : (f.filled 0).writeFooter.needsZip64 = false :=
    (f.needsZip64_filled 0).trans hplain
  rw [length_localPart hwritten, length_headerData, length_footerData, hdeclared, hfooter,
    if_neg Bool.false_ne_true, if_neg Bool.false_ne_true]
  omega

theorem readHeader_placed (hwritten : f.isWritten) (hcomment : f.comment = "")
    (hfits : f.Fits offset) :
    Zip.readHeader ((f.placed offset).directoryEntry ++ rest) = some (f.entry offset, rest) := by
  obtain ⟨hname, hplain, hoffset⟩ := hfits
  have hheader := f.header_placed hwritten offset
  have hlength : (f.placed offset).header.length = 26 := by
    rw [hheader, HeaderFields.length_bytes]
  have hfile : (f.placed offset).fileZ64 = false := by
    rw [fileZ64_placed hwritten, hplain, Bool.false_or]
    exact decide_eq_false (Nat.not_le_of_lt hoffset)
  have hsize : f.content.length < zip64Threshold := by
    have hgrown := (Bool.or_eq_false_iff.mp hplain).2
    exact Nat.lt_of_not_le (of_decide_eq_false hgrown)
  have hdeclared : f.declaresZip64 = false := (Bool.or_eq_false_iff.mp hplain).1
  obtain ⟨hcrc, hcompressed, huncompressed⟩ := fields_plain hplain
  have hplaced : (f.placed offset).offset = offset := offset_placed hwritten
  have hhead := head_plain hheader hfile
  have hisPlain : Zip.IsPlain (f.placed offset).head (Zip.encodeName f.entryName).length := by
    rw [← nameLength_fields]
    refine isPlain_head hheader hfile (comment_placed hcomment) ?_ ?_ ?_ ?_ ?_
    · rwa [nameLength_fields]
    · rw [extraLength_fields, hdeclared, if_neg Bool.false_ne_true]
    · rwa [hcompressed]
    · rwa [huncompressed]
    · rwa [hplaced]
  have hcheck : f.check.toNat % 256 ^ 4 = f.check.toNat := Nat.mod_eq_of_lt f.check.isLt
  have hfields : field (f.placed offset).head 16 4 = f.check.toNat ∧
      field (f.placed offset).head 20 4 = f.content.length ∧
      field (f.placed offset).head 24 4 = f.content.length ∧
      field (f.placed offset).head 42 4 = offset := by
    rw [hhead, HeaderFields.layout]
    refine ⟨?_, ?_, ?_, ?_⟩
    · simpa [hcrc] using hcheck
    · simpa [hcompressed] using mod_of_lt_threshold hsize
    · simpa [huncompressed] using mod_of_lt_threshold hsize
    · simpa [hplaced] using mod_of_lt_threshold hoffset
  obtain ⟨hcrc, hcompressed, huncompressed, hoffset⟩ := hfields
  rw [ZipObject.directoryEntry_plain hlength hfile (comment_placed hcomment), List.append_assoc,
    nameBuf_placed, Zip.readHeader_eq_some hisPlain, hcrc, hcompressed, huncompressed, hoffset]
  rfl

theorem fits_of_readHeader (hwritten : f.isWritten) {entry : Zip.Entry} {left : List UInt8}
    (h : Zip.readHeader ((f.placed offset).directoryEntry ++ rest) = some (entry, left))
    (hentry : entry.name = f.entryName) : f.Fits offset := by
  have hheader := f.header_placed hwritten offset
  have hlength : (f.placed offset).header.length = 26 := by
    rw [hheader, HeaderFields.length_bytes]
  have hhead : (f.placed offset).head.length = 46 := ZipObject.length_head hlength
  obtain ⟨tail, htail⟩ := ZipObject.exists_directoryEntry hlength
  rw [htail, List.append_assoc] at h
  -- a longer name would be read as a shorter one
  have hname : (encode f.entryName).length < 65536 := by
    have hread := Zip.length_name_of_readHeader h hhead
    rw [hentry, field_name_head hheader] at hread
    exact hread ▸ Nat.mod_lt _ (by decide)
  have hfile : (f.placed offset).fileZ64 = false := by
    -- the sizes and the offset are all ones, but the extra field is the one of the local header
    by_contra hzip64
    rw [Bool.not_eq_false] at hzip64
    have hextra := Zip.le_of_readHeader h hhead
    rw [head_zip64 hheader hzip64, extraLength_fields] at hextra
    have hle : 28 ≤ (if f.declaresZip64 then 20 else 0) % 65536 := by simpa using hextra
    revert hle
    cases f.declaresZip64 <;> decide
  rw [fileZ64_placed hwritten, Bool.or_eq_false_iff] at hfile
  exact ⟨hname, hfile.1, Nat.lt_of_not_le (of_decide_eq_false hfile.2)⟩

end OneFile

end Rapidly.FileSharing.ZipStream
