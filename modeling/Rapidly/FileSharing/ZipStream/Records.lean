import Rapidly.FileSharing.ZipStream.CentralDirectory

/-!
# What the records of a ZIP stream say

The records of a file as they are read from their bytes: `IsLocalHeader` for what stands in front
of its content, `Describes` for the data descriptor behind it, and `Records` for where a header of
the central directory says that the local header is. The source writes each of them into a buffer
of zeros.
-/

namespace Rapidly.FileSharing.ZipStream

open Binary Transition

/-- The bytes are a local header of the file. -/
structure IsLocalHeader (f : FileLike) (header : List UInt8) : Prop where
  signature : field header 0 4 = 0x04034b50
  nameLength : field header 26 2 = (encode f.entryName).length % 65536
  name : (header.drop 30).take (encode f.entryName).length = encode f.entryName
  length : header.length =
    30 + (encode f.entryName).length + if f.declaresZip64 then 20 else 0

/-- The bytes are a data descriptor of a content, with sizes of eight bytes or of four. -/
structure Describes (isZip64 : Bool) (content descriptor : List UInt8) : Prop where
  length : descriptor.length = if isZip64 then 24 else 16
  signature : field descriptor 0 4 = 0x08074b50
  check : field descriptor 4 4 = (crc (0xedb88320 : BitVec 32) content).toNat
  compressed : field descriptor 8 (if isZip64 then 8 else 4) = content.length
  uncompressed :
    field descriptor (if isZip64 then 16 else 12) (if isZip64 then 8 else 4) = content.length

/-- The header of the central directory has the name of the file, and the offset, in its own field
or, where that is all ones, in the extra field behind the name and the comment. -/
structure Records (z : ZipObject) (offset : ℕ) (header : List UInt8) : Prop where
  signature : field header 0 4 = 0x02014b50
  name : (header.drop 46).take z.nameBuf.length = z.nameBuf
  offset : field header 42 4 = offset ∨
    field header 42 4 = 0xffffffff ∧
      field header (46 + z.nameBuf.length + z.comment.length + 20) 8 = offset

/-! ### Local headers -/

section LocalHeader

variable (f : FileLike)

/-- The extra field of a local header. -/
def FileLike.localExtra : List UInt8 :=
  if f.declaresZip64 then recordBytes [(2, 1), (2, 16), (8, 0), (8, 0)] else []

theorem headerData_eq : (ZipObject.ofFileLike f).headerData =
    recordBytes ((4, 0x04034b50) :: f.newFields.layout) ++
      (encode f.entryName ++ f.localExtra) := by
  have hneeds : (ZipObject.ofFileLike f).needsZip64 = f.declaresZip64 := rfl
  have hname : (ZipObject.ofFileLike f).nameBuf = encode f.entryName := rfl
  have hfields : recordBytes ((4, 0x04034b50) :: f.newFields.layout) =
      leBytes 4 0x04034b50 ++ f.newFields.bytes := rfl
  have hlength := f.newFields.length_bytes
  rw [ZipObject.headerData, f.newHeader_eq, hneeds, hname, FileLike.localExtra, hfields]
  cases f.declaresZip64 with
  | false =>
    rw [writeAll_zeros]
    · simp [writtenData, setUint32BE, beBytes, leBytes]
    · simp [Binary.Sequential, setUint32BE, hlength]
    · simp [writtenData, setUint32BE, hlength]
      omega
  | true =>
    rw [writeAll_zeros]
    · simp [writtenData, setUint32BE, setUint16, setUint32, writeUint64LE, beBytes, leBytes,
        recordBytes]
    · simp [Binary.Sequential, setUint32BE, setUint16, setUint32, writeUint64LE, hlength]
    · simp [writtenData, setUint32BE, setUint16, setUint32, writeUint64LE, hlength]
      omega

/-- **The local header** of a file is one. -/
theorem isLocalHeader_headerData : IsLocalHeader f (ZipObject.ofFileLike f).headerData := by
  have hname : f.newFields.nameLength = (encode f.entryName).length := rfl
  have hrecord : (recordBytes ((4, 0x04034b50) :: f.newFields.layout)).length = 30 := by
    rfl
  refine ⟨?_, ?_, ?_, length_headerData⟩ <;> rw [headerData_eq]
  · rw [field_append_left (by omega)]
    simp
  · rw [field_append_left (by omega), HeaderFields.layout, hname]
    simp
  · rw [List.drop_left' hrecord, List.take_left]

end LocalHeader

/-! ### Data descriptors -/

section Descriptor

variable (f : FileLike)

/-- A data descriptor, as its writes leave it. The check of a directory is never made up, but that
of no content is 0. -/
theorem footerData_eq : (f.filled 0).footerData =
    if f.isZip64 then
      recordBytes [(4, 0x08074b50), (4, f.check.toNat), (8, f.content.length),
        (8, f.content.length)]
    else
      recordBytes [(4, 0x08074b50), (4, f.check.toNat), (4, f.content.length),
        (4, f.content.length)] := by
  have hneeds := f.needsZip64_filled 0
  cases hdirectory : f.directory with
  | true =>
    have hcontent : f.content = [] := by rw [FileLike.content, if_pos hdirectory]
    have hcheck : f.check.toNat = 0 := by
      rw [FileLike.check, hcontent]
      rfl
    rw [ZipObject.footerData, hneeds, hcheck, hcontent, FileLike.filled, if_pos hdirectory]
    split
    · simp [ZipObject.writeHeader, ZipObject.ofFileLike, ZipObject.withCrc, writeUint64LE, writeAt,
        zeros, List.replicate, recordBytes, leBytes, beBytes, setUint32, setUint32BE]
    · simp [ZipObject.writeHeader, ZipObject.ofFileLike, ZipObject.withCrc, writeAt, zeros,
        List.replicate, recordBytes, leBytes, beBytes, setUint32BE]
  | false =>
    have hfile : ¬f.directory = true := Bool.eq_false_iff.mp hdirectory
    have hcheck (writes : BitVec 32 → List Write) :
        (f.reading 0 f.content {}).withCrc writes = writes f.check := by
      rw [FileLike.check, ← Crc32.get_update]
      rfl
    rw [ZipObject.footerData, hneeds, FileLike.filled, if_neg hfile, hcheck, hcheck]
    split
    · simp [FileLike.reading, writeUint64LE, writeAt, zeros, List.replicate, recordBytes, leBytes,
        beBytes, setUint32, setUint32BE, Nat.div_div_eq_div_mul]
    · simp [FileLike.reading, writeAt, zeros, List.replicate, recordBytes, leBytes, beBytes,
        setUint32, setUint32BE]

/-- **The data descriptor** says what the check of the content is and how long it is, as long as
64 bits do. -/
theorem describes_footerData (hlength : f.content.length < 2 ^ 64) :
    Describes f.isZip64 f.content (f.filled 0).footerData := by
  have hcheck : f.check.toNat % 256 ^ 4 = f.check.toNat := Nat.mod_eq_of_lt f.check.isLt
  have hwide : f.content.length % 256 ^ 8 = f.content.length := Nat.mod_eq_of_lt hlength
  rw [footerData_eq]
  cases hzip64 : f.isZip64 with
  | true =>
    rw [if_pos rfl]
    refine ⟨rfl, by simp, ?_, ?_, ?_⟩
    · rw [field_recordBytes_cons (le_refl 4), field_recordBytes]
      exact hcheck
    · simpa using hwide
    · simpa using hwide
  | false =>
    -- otherwise the file would be one for ZIP64
    have hsize : f.content.length < zip64Threshold :=
      Nat.lt_of_not_le (of_decide_eq_false (Bool.or_eq_false_iff.mp hzip64).2)
    rw [if_neg Bool.false_ne_true]
    refine ⟨rfl, by simp, ?_, ?_, ?_⟩
    · rw [field_recordBytes_cons (le_refl 4), field_recordBytes]
      exact hcheck
    · simpa using mod_of_lt_threshold hsize
    · simpa using mod_of_lt_threshold hsize

end Descriptor

/-! ### The central directory -/

/-- **A header of the central directory** has the offset that is recorded for its file, as long as
64 bits hold it. -/
theorem records_directoryEntry {f : FileLike} {offset : ℕ} (hwritten : f.isWritten)
    (hoffset : offset < 2 ^ 64) :
    Records (f.placed offset) offset (f.placed offset).directoryEntry := by
  have hheader := f.header_placed hwritten offset
  have hlength : (f.placed offset).header.length = 26 := by
    rw [hheader, HeaderFields.length_bytes]
  have hhead := ZipObject.length_head hlength
  have hplaced : (f.placed offset).offset = offset := offset_placed hwritten
  rw [ZipObject.directoryEntry_eq hlength]
  refine ⟨?_, ?_, ?_⟩
  · rw [field_append_left (by omega)]
    cases hfile : (f.placed offset).fileZ64 with
    | false =>
      rw [head_plain hheader hfile]
      simp
    | true =>
      rw [head_zip64 hheader hfile]
      simp
  · rw [List.drop_left' hhead, List.take_left]
  · rw [field_append_left (by omega)]
    cases hfile : (f.placed offset).fileZ64 with
    | false =>
      have hnear := (Bool.or_eq_false_iff.mp ((fileZ64_placed hwritten).symm.trans hfile)).2
      have hsmall : offset < zip64Threshold := Nat.lt_of_not_le (of_decide_eq_false hnear)
      left
      rw [head_plain hheader hfile, HeaderFields.layout]
      simpa [hplaced] using mod_of_lt_threshold hsmall
    | true =>
      right
      constructor
      · rw [head_zip64 hheader hfile]
        simp
      · -- behind the head, the name, the comment and the first 20 bytes of the extra field
        have hextra : (f.placed offset).directoryExtra = recordBytes [(2, 1), (2, 24),
            (8, (f.placed offset).uncompressedLength), (8, (f.placed offset).compressedLength),
            (8, offset)] := by
          rw [ZipObject.directoryExtra, if_pos hfile, hplaced]
        rw [Nat.add_assoc, Nat.add_assoc, field_append_right hhead, field_append_right rfl,
          field_append_right rfl, hextra]
        have hwide : offset % 256 ^ 8 = offset := Nat.mod_eq_of_lt hoffset
        simpa using hwide

end Rapidly.FileSharing.ZipStream
