import Rapidly.Binary.Buffer
import Rapidly.Binary.Crc
import Mathlib.Data.Int.Notation

/-!
# The records of a ZIP stream

What `utils/file-sharing/zip-stream.ts` writes by hand at byte offsets: the local header and the
data descriptor of a file (`writeHeader`, `writeFooter`), and the central directory with the
records after it (`closeZip`). A buffer of `getDataHelper` is a list of zeros, on which the
assignments of the source are carried out in their order.

* Numbers are not rounded: sizes and offsets are natural numbers, and only what is written is cut
  to the width of its field.
* A date has been taken apart in the local time zone, and is the present time where a file has
  none. `level` is 0 for every file, so the branch for other levels is left out.
-/

namespace Rapidly.FileSharing.ZipStream

open Binary

/-- `ZIP64_THRESHOLD` -/
def zip64Threshold : ℕ := 0xfffffffe

/-- `ZIP64_COUNT_THRESHOLD` -/
def zip64CountThreshold : ℕ := 0xfffe

/-! ### Checks -/

/-- One round of the loop that fills `CRC32_TABLE`. -/
def crc32Round (t : BitVec 32) : BitVec 32 :=
  if t &&& 1 ≠ 0 then (t >>> 1) ^^^ 0xedb88320 else t >>> 1

/-- `CRC32_TABLE` -/
def crc32Table (i : BitVec 32) : BitVec 32 :=
  (List.range 8).foldl (fun t _ => crc32Round t) i

structure Crc32 where
  crc : BitVec 32 := -1
deriving DecidableEq

namespace Crc32

/-- The rounds of the loop of `append`. -/
def update (c : Crc32) (data : List UInt8) : Crc32 where
  crc := data.foldl
    (fun crc b => (crc >>> 8) ^^^ crc32Table ((crc ^^^ b.toBitVec.setWidth 32) &&& 0xff)) c.crc

/-- `data.length | 0` -/
def loopBound (length : ℕ) : ℤ := (BitVec.ofNat 32 length).toInt

def append (c : Crc32) (data : List UInt8) : Crc32 :=
  c.update (data.take (loopBound data.length).toNat)

def get (c : Crc32) : BitVec 32 := ~~~c.crc

end Crc32

/-! ### Files -/

/-- A `Date`, in the local time zone. -/
structure LocalDate where
  fullYear : ℤ := 1980
  /-- From 0. -/
  month : ℕ := 0
  date : ℕ := 1
  hours : ℕ := 0
  minutes : ℕ := 0
  seconds : ℕ := 0
deriving DecidableEq

/-- The time of a file. -/
def LocalDate.timeWord (d : LocalDate) : ℕ :=
  (((d.hours <<< 6) ||| d.minutes) <<< 5) ||| (d.seconds / 2)

/-- The date of a file, in 32-bit arithmetic. -/
def LocalDate.dateWord (d : LocalDate) : ℕ :=
  ((((BitVec.ofInt 32 (d.fullYear - 1980) <<< 4) ||| BitVec.ofNat 32 (d.month + 1)) <<< 5) |||
    BitVec.ofNat 32 d.date).toNat

/-- A `ReadableStream`: the chunks that it still yields, and whether an error comes after them. -/
structure Source where
  chunks : List (List UInt8) := []
  fails : Bool := false
deriving DecidableEq

structure FileLike where
  name : String
  size : Option ℕ := none
  lastModified : LocalDate := {}
  directory : Bool := false
  comment : String := ""
  stream : Option Source := none
deriving DecidableEq

/-- `TextEncoder.encode` -/
def encode (text : String) : List UInt8 := text.toUTF8.data.toList

/-- White space and line terminators. -/
def isTrimmed (c : Char) : Bool :=
  c.toNat ∈ [0x9, 0xa, 0xb, 0xc, 0xd, 0x20, 0xa0, 0x1680, 0x2028, 0x2029, 0x202f, 0x205f, 0x3000,
    0xfeff] ∨ (0x2000 ≤ c.toNat ∧ c.toNat ≤ 0x200a)

/-- `String.prototype.trim` -/
def trim (text : String) : String :=
  String.ofList ((text.toList.dropWhile isTrimmed).reverse.dropWhile isTrimmed).reverse

/-- The name under which a file is enqueued. -/
def FileLike.entryName (f : FileLike) : String :=
  let name := trim f.name
  if f.directory ∧ name.toList.getLast? ≠ some '/' then name ++ "/" else name

structure ZipObject where
  /-- The key in `files`. -/
  name : String
  directory : Bool
  nameBuf : List UInt8
  comment : List UInt8
  compressedLength : ℕ := 0
  uncompressedLength : ℕ := 0
  header : List UInt8 := zeros 26
  offset : ℕ := 0
  needsZip64 : Bool
  crc : Option Crc32 := none
  reader : Option Source := none
  fileLike : FileLike
deriving DecidableEq

def needsZip64File (size : ℕ) : Bool := zip64Threshold ≤ size

/-- The declared size needs ZIP64. -/
def FileLike.declaresZip64 (f : FileLike) : Bool := f.size.any needsZip64File

/-- The object of a file that is enqueued. -/
def ZipObject.ofFileLike (f : FileLike) : ZipObject where
  name := f.entryName
  directory := f.directory
  nameBuf := encode f.entryName
  comment := encode f.comment
  needsZip64 := f.declaresZip64
  fileLike := f

/-- `writeUint64LE` -/
def writeUint64LE (offset value : ℕ) : List Write :=
  [setUint32 offset value, setUint32 (offset + 4) (value / 0x100000000)]

namespace ZipObject

variable (z : ZipObject)

/-- Writes that need the check of a file. -/
def withCrc (writes : BitVec 32 → List Write) : List Write :=
  match z.crc with
  | none => []
  | some crc => writes crc.get

/-! ### Local headers -/

/-- `header` of `writeHeader`. -/
def newHeader : List UInt8 :=
  let versionNeeded := if z.needsZip64 then 0x2d else 0x14
  writeAll (zeros 26) 0 <|
    [setUint32BE 0 ((versionNeeded <<< 16) ||| 0x0808),
      setUint16 6 z.fileLike.lastModified.timeWord, setUint16 8 z.fileLike.lastModified.dateWord,
      setUint16 22 z.nameBuf.length] ++
    if z.needsZip64 then
      [setUint32 14 0xffffffff, setUint32 18 0xffffffff, setUint16 24 20]
    else []

/-- `data` of `writeHeader`. -/
def headerData : List UInt8 :=
  let zip64ExtraLen := if z.needsZip64 then 20 else 0
  let extraOffset := 30 + z.nameBuf.length
  writeAll (zeros (30 + z.nameBuf.length + zip64ExtraLen)) 0 <|
    [setUint32BE 0 0x504b0304, ⟨4, z.newHeader⟩, ⟨30, z.nameBuf⟩] ++
    if z.needsZip64 then
      [setUint16 extraOffset 0x0001, setUint16 (extraOffset + 2) 16] ++
        writeUint64LE (extraOffset + 4) 0 ++ writeUint64LE (extraOffset + 12) 0
    else []

/-- The object after `writeHeader`. -/
def writeHeader (offset : ℕ) : ZipObject := { z with offset, header := z.newHeader }

/-! ### Data descriptors -/

/-- The file has grown beyond what 32 bits hold. -/
def hasGrown : Bool :=
  !z.needsZip64 && (needsZip64File z.compressedLength || needsZip64File z.uncompressedLength)

/-- The object after `writeFooter`. -/
def writeFooter : ZipObject :=
  let needsZip64 := z.needsZip64 || z.hasGrown
  { z with
    needsZip64
    header := writeAll z.header 0 <| z.withCrc fun crc =>
      if needsZip64 then [setUint32 10 crc.toNat]
      else
        [setUint32 10 crc.toNat, setUint32 14 z.compressedLength,
          setUint32 18 z.uncompressedLength] }

/-- `footer` of `writeFooter`. -/
def footerData : List UInt8 :=
  if z.needsZip64 || z.hasGrown then
    writeAll (zeros 24) 0 <|
      [setUint32BE 0 0x504b0708] ++ z.withCrc (fun crc => [setUint32 4 crc.toNat]) ++
        writeUint64LE 8 z.compressedLength ++ writeUint64LE 16 z.uncompressedLength
  else
    writeAll (zeros 16) 0 <|
      [setUint32BE 0 0x504b0708] ++
        z.withCrc fun crc =>
          [setUint32 4 crc.toNat, setUint32 8 z.compressedLength,
            setUint32 12 z.uncompressedLength]

/-! ### The central directory -/

/-- `fileZ64` of `closeZip`. -/
def fileZ64 : Bool := z.needsZip64 || zip64Threshold ≤ z.offset

def extraLen : ℕ := if z.fileZ64 then 28 else 0

/-- The length of a header of the central directory. -/
def entryLength : ℕ := 46 + z.nameBuf.length + z.comment.length + z.extraLen

/-- What one round of the loop writes, at offsets from `cdIndex`. -/
def entryWrites : List Write :=
  let extraOff := 46 + z.nameBuf.length + z.comment.length
  [setUint32BE 0 0x504b0102, setUint16BE 4 (if z.fileZ64 then 0x2d00 else 0x1400), ⟨6, z.header⟩] ++
  (if z.fileZ64 then [setUint16 6 0x2d, setUint16 36 z.extraLen] else []) ++
  [setUint16 32 z.comment.length] ++
  (if z.directory then [setUint8 38 0x10] else []) ++
  (if z.fileZ64 then
    [setUint32 42 0xffffffff, setUint32 20 0xffffffff, setUint32 24 0xffffffff]
  else [setUint32 42 z.offset]) ++
  [⟨46, z.nameBuf⟩, ⟨46 + z.nameBuf.length, z.comment⟩] ++
  if z.fileZ64 then
    [setUint16 extraOff 0x0001, setUint16 (extraOff + 2) 24] ++
      writeUint64LE (extraOff + 4) z.uncompressedLength ++
      writeUint64LE (extraOff + 12) z.compressedLength ++ writeUint64LE (extraOff + 20) z.offset
  else []

end ZipObject

section CloseZip

variable (files : List ZipObject)

def cdLength : ℕ := (files.map ZipObject.entryLength).sum

/-- The buffer of the central directory after some rounds of the loop, and `cdIndex`. -/
def fillDirectory : List ZipObject → List UInt8 × ℕ → List UInt8 × ℕ
  | [], filled => filled
  | file :: files, (cd, cdIndex) =>
    fillDirectory files (writeAll cd cdIndex file.entryWrites, cdIndex + file.entryLength)

/-- `cd` -/
def centralDirectory : List UInt8 := (fillDirectory files (zeros (cdLength files), 0)).1

/-- `eocd64` -/
def eocd64 (cdStart : ℕ) : List UInt8 :=
  writeAll (zeros 56) 0 <|
    [setUint32BE 0 0x504b0606] ++ writeUint64LE 4 44 ++
      [setUint16 12 45, setUint16 14 45, setUint32 16 0, setUint32 20 0] ++
      writeUint64LE 24 files.length ++ writeUint64LE 32 files.length ++
      writeUint64LE 40 (cdLength files) ++ writeUint64LE 48 cdStart

/-- `locator` -/
def locator (cdStart : ℕ) : List UInt8 :=
  writeAll (zeros 20) 0 <|
    [setUint32BE 0 0x504b0607, setUint32 4 0] ++ writeUint64LE 8 (cdStart + cdLength files) ++
      [setUint32 16 1]

/-- `eocd` -/
def eocd (archiveNeedsZip64 : Bool) (cdStart : ℕ) : List UInt8 :=
  writeAll (zeros 22) 0 <|
    [setUint32BE 0 0x504b0506] ++
    if archiveNeedsZip64 then
      [setUint16 8 0xffff, setUint16 10 0xffff, setUint32 12 0xffffffff,
        setUint32 16 0xffffffff]
    else
      [setUint16 8 files.length, setUint16 10 files.length, setUint32 12 (cdLength files),
        setUint32 16 cdStart]

/-- The chunks of `closeZip`. -/
def closeZip (archiveNeedsZip64 : Bool) (offset : ℕ) : List (List UInt8) :=
  let archiveNeedsZip64 := archiveNeedsZip64 || zip64CountThreshold ≤ files.length
  [centralDirectory files] ++
    (if archiveNeedsZip64 then [eocd64 files offset, locator files offset] else []) ++
    [eocd files archiveNeedsZip64 offset]

end CloseZip

end Rapidly.FileSharing.ZipStream
