import Rapidly.Binary.Crc
import Rapidly.Binary.LittleEndian

/-!
# Reading ZIP archives

A reader that trusts nothing but the records at the end of an archive: the end of central
directory record, the ZIP64 record and its locator where a field of the former is all ones, and
the central directory that they point to. The directory must lie directly in front of these
records, and its headers must fill it exactly.

A header gives the name, the check and the sizes of a file, and where its local header is. A size
or an offset that is all ones stands for the next value in the ZIP64 extra field, and without one
the header is refused (`le_of_readHeader`). `readHeader_eq_some` reads a header that needs no such
field, whatever comes after it.

The content of a file is what follows its local header, and has to have the size and the check of
its entry (`extract_eq`).
-/

namespace Zip

open Binary

/-- What a central directory says of a file. -/
structure Entry where
  name : String
  crc32 : ℕ
  compressedSize : ℕ
  uncompressedSize : ℕ
  localHeaderOffset : ℕ
deriving DecidableEq

/-- The bytes of a name. -/
def encodeName (name : String) : List UInt8 := name.toByteArray.data.toList

/-- The name with these bytes, if they are UTF-8. -/
def decodeName (bytes : List UInt8) : Option String := String.fromUTF8? ⟨bytes.toArray⟩

/-! ### The central directory -/

/-- The data of the first extra field with a tag. -/
def findExtra (tag : ℕ) : ℕ → List UInt8 → Option (List UInt8)
  | 0, _ => none
  | fuel + 1, extra =>
    if extra.length < 4 + field extra 2 2 then none
    else if field extra 0 2 = tag then some ((extra.drop 4).take (field extra 2 2))
    else findExtra tag fuel (extra.drop (4 + field extra 2 2))

/-- A value, and the data that is left for the next one. -/
def widen (extended : List UInt8) (value : ℕ) : Option (ℕ × List UInt8) :=
  if value ≠ 0xffffffff then some (value, extended)
  else if extended.length < 8 then none
  else some (field extended 0 8, extended.drop 8)

/-- The uncompressed size, the compressed size and the offset of a file. -/
def readSizes (header extra : List UInt8) : Option (ℕ × ℕ × ℕ) := do
  let extended := (findExtra 1 extra.length extra).getD []
  let (uncompressedSize, extended) ← widen extended (field header 24 4)
  let (compressedSize, extended) ← widen extended (field header 20 4)
  let (localHeaderOffset, _) ← widen extended (field header 42 4)
  return (uncompressedSize, compressedSize, localHeaderOffset)

/-- A header of the central directory, and what comes after it. The names have to be UTF-8, and
flagged as such. -/
def readHeader (bytes : List UInt8) : Option (Entry × List UInt8) := do
  let nameLength := field bytes 28 2
  let extraLength := field bytes 30 2
  let commentLength := field bytes 32 2
  guard (field bytes 0 4 = 0x02014b50)
  guard (46 + nameLength + extraLength + commentLength ≤ bytes.length)
  guard ((field bytes 8 2).testBit 11)
  let (uncompressedSize, compressedSize, localHeaderOffset) ←
    readSizes bytes ((bytes.drop (46 + nameLength)).take extraLength)
  let name ← decodeName ((bytes.drop 46).take nameLength)
  return ({ name, crc32 := field bytes 16 4, compressedSize, uncompressedSize, localHeaderOffset },
    bytes.drop (46 + nameLength + extraLength + commentLength))

/-- So many headers, and nothing else. -/
def readEntries : ℕ → List UInt8 → Option (List Entry)
  | 0, bytes => if bytes.isEmpty then some [] else none
  | n + 1, bytes => do
    let (entry, rest) ← readHeader bytes
    let entries ← readEntries n rest
    return entry :: entries

/-! ### The end of the archive -/

/-- Where the central directory is, and where it ends. -/
structure Directory where
  count : ℕ
  size : ℕ
  offset : ℕ
  finish : ℕ

/-- The offset of the end of central directory record, looked for from the end. -/
def findEnd (archive : List UInt8) : ℕ → ℕ → Option ℕ
  | 0, _ => none
  | fuel + 1, commentLength =>
    let i := archive.length - (22 + commentLength)
    if archive.length < 22 + commentLength then none
    else if field archive i 4 = 0x06054b50 ∧ field archive (i + 20) 2 = commentLength then some i
    else findEnd archive fuel (commentLength + 1)

/-- The ZIP64 end of central directory record, in front of its locator. -/
def readDirectory64 (archive : List UInt8) (locator : ℕ) : Option Directory := do
  let record := field archive (locator + 8) 8
  guard (field archive locator 4 = 0x07064b50)
  guard (record + 56 = locator)
  guard (field archive record 4 = 0x06064b50)
  return { count := field archive (record + 32) 8, size := field archive (record + 40) 8
           offset := field archive (record + 48) 8, finish := record }

/-- The end of central directory record, or the ZIP64 one if a field is all ones. -/
def readDirectory (archive : List UInt8) (i : ℕ) : Option Directory :=
  let count := field archive (i + 10) 2
  let size := field archive (i + 12) 4
  let offset := field archive (i + 16) 4
  if count = 0xffff ∨ size = 0xffffffff ∨ offset = 0xffffffff then
    if i < 20 then none else readDirectory64 archive (i - 20)
  else some { count, size, offset, finish := i }

/-- The entries of an archive. -/
def readArchive (archive : List UInt8) : Option (List Entry) := do
  let i ← findEnd archive 65536 0
  let directory ← readDirectory archive i
  guard (directory.offset + directory.size = directory.finish)
  readEntries directory.count ((archive.drop directory.offset).take directory.size)

/-! ### The contents of the files -/

/-- The content of a stored file, behind a local header with the name of the entry. -/
def extract (archive : List UInt8) (entry : Entry) : Option (List UInt8) := do
  let header := archive.drop entry.localHeaderOffset
  let nameLength := field header 26 2
  let content := (header.drop (30 + nameLength + field header 28 2)).take entry.compressedSize
  guard (field header 0 4 = 0x04034b50)
  guard ((header.drop 30).take nameLength = encodeName entry.name)
  guard (content.length = entry.uncompressedSize)
  guard ((crc (0xedb88320 : BitVec 32) content).toNat = entry.crc32)
  return content

/-- The names and the contents of the files in an archive. -/
def unzip (archive : List UInt8) : Option (List (String × List UInt8)) := do
  let entries ← readArchive archive
  entries.mapM fun entry => (extract archive entry).map (Prod.mk entry.name)

theorem guard_bind {α : Type} {p : Prop} [Decidable p] (h : p) (f : Unit → Option α) :
    (guard p : Option Unit).bind f = f () := by
  rw [(Option.guard_eq_some' ()).mpr h, Option.bind_some]

theorem guard_bind_of_not {α : Type} {p : Prop} [Decidable p] (h : ¬p) (f : Unit → Option α) :
    (guard p : Option Unit).bind f = none := by
  rw [guard, if_neg h]
  rfl

/-! ### Names -/

theorem decodeName_encodeName (name : String) : decodeName (encodeName name) = some name := by
  rw [decodeName, encodeName, String.fromUTF8?]
  exact dif_pos name.isValidUTF8

theorem encodeName_of_decodeName {bytes : List UInt8} {name : String}
    (h : decodeName bytes = some name) : encodeName name = bytes := by
  rw [decodeName, String.fromUTF8?] at h
  split at h
  · obtain rfl := Option.some.inj h
    rfl
  · exact absurd h (Option.some_ne_none _).symm

/-! ### Extra fields -/

section Extra

variable {header extra extended data rest : List UInt8} {tag fuel value wide : ℕ}

theorem length_le_of_findExtra (h : findExtra tag fuel extra = some data) :
    data.length + 4 ≤ extra.length := by
  induction fuel generalizing extra with
  | zero => exact absurd h (Option.some_ne_none _).symm
  | succ fuel ih =>
    rw [findExtra] at h
    split at h
    · exact absurd h (Option.some_ne_none _).symm
    · split at h
      · obtain rfl := Option.some.inj h
        rw [List.length_take, List.length_drop]
        omega
      · have hlength := ih h
        rw [List.length_drop] at hlength
        omega

theorem widen_of_ne (h : value ≠ 0xffffffff) : widen extended value = some (value, extended) :=
  if_pos h

theorem length_of_widen (h : widen extended 0xffffffff = some (wide, rest)) :
    rest.length + 8 = extended.length := by
  rw [widen, if_neg (fun hne => hne rfl)] at h
  split at h
  · exact absurd h (Option.some_ne_none _).symm
  · obtain ⟨-, rfl⟩ := Prod.mk.inj (Option.some.inj h)
    rw [List.length_drop]
    omega

theorem readSizes_of_ne (huncompressed : field header 24 4 ≠ 0xffffffff)
    (hcompressed : field header 20 4 ≠ 0xffffffff) (hoffset : field header 42 4 ≠ 0xffffffff) :
    readSizes header extra = some (field header 24 4, field header 20 4, field header 42 4) := by
  simp only [readSizes, Option.bind_eq_bind, widen_of_ne huncompressed, widen_of_ne hcompressed,
    widen_of_ne hoffset, Option.bind_some, Option.pure_def]

/-- Three values that are all ones take an extra field of at least 28 bytes. -/
theorem le_of_readSizes (huncompressed : field header 24 4 = 0xffffffff)
    (hcompressed : field header 20 4 = 0xffffffff) (hoffset : field header 42 4 = 0xffffffff)
    {sizes : ℕ × ℕ × ℕ} (h : readSizes header extra = some sizes) : 28 ≤ extra.length := by
  rw [readSizes, huncompressed, hcompressed, hoffset] at h
  simp only [Option.bind_eq_bind, Option.bind_eq_some_iff] at h
  obtain ⟨⟨v₁, data₁⟩, h₁, ⟨v₂, data₂⟩, h₂, ⟨v₃, data₃⟩, h₃, -⟩ := h
  have hlength₁ := length_of_widen h₁
  have hlength₂ : data₂.length + 8 = data₁.length := length_of_widen h₂
  have hlength₃ : data₃.length + 8 = data₂.length := length_of_widen h₃
  cases hfound : findExtra 1 extra.length extra with
  | none =>
    rw [hfound, Option.getD_none, List.length_nil] at hlength₁
    omega
  | some data =>
    have hlength := length_le_of_findExtra hfound
    rw [hfound, Option.getD_some] at hlength₁
    omega

end Extra

/-! ### Headers -/

section Header

variable {header tail rest : List UInt8} {entry : Entry} {name : String}

/-- The fields of a header are its own, whatever comes after it. -/
theorem field_header (hlength : header.length = 46) {i w : ℕ} (h : i + w ≤ 46) :
    field (header ++ tail) i w = field header i w := field_append_left (hlength ▸ h)

/-- A header that is read has room for its fields, sizes and a name. -/
theorem readHeader_cases (h : readHeader (header ++ tail) = some (entry, rest))
    (hlength : header.length = 46) :
    field header 28 2 + field header 30 2 ≤ tail.length ∧
      (∃ extra sizes, extra.length = field header 30 2 ∧
        readSizes (header ++ tail) extra = some sizes) ∧
      decodeName (tail.take (field header 28 2)) = some entry.name := by
  rw [readHeader] at h
  simp only [Option.bind_eq_bind, Option.bind_eq_some_iff, Option.guard_eq_some'] at h
  obtain ⟨-, -, -, hfits, -, -, sizes, hsizes, name, hname, hentry⟩ := h
  rw [field_header hlength (by omega), field_header hlength (by omega),
    field_header hlength (by omega), List.length_append, hlength] at hfits
  have hroom : field header 28 2 + field header 30 2 ≤ tail.length := by omega
  refine ⟨hroom, ⟨_, sizes, ?_, hsizes⟩, ?_⟩
  · rw [field_header hlength (by omega), field_header hlength (by omega), List.length_take,
      List.length_drop, List.length_append, hlength]
    omega
  · rw [field_header hlength (by omega), List.drop_left' hlength] at hname
    obtain ⟨rfl, -⟩ := Prod.mk.inj (Option.some.inj hentry)
    exact hname

theorem length_name_of_readHeader (h : readHeader (header ++ tail) = some (entry, rest))
    (hlength : header.length = 46) : (encodeName entry.name).length = field header 28 2 := by
  obtain ⟨hroom, -, hname⟩ := readHeader_cases h hlength
  rw [encodeName_of_decodeName hname, List.length_take]
  omega

/-- A header whose sizes and offset are all ones has a ZIP64 extra field. -/
theorem le_of_readHeader (h : readHeader (header ++ tail) = some (entry, rest))
    (hlength : header.length = 46) (huncompressed : field header 24 4 = 0xffffffff)
    (hcompressed : field header 20 4 = 0xffffffff) (hoffset : field header 42 4 = 0xffffffff) :
    28 ≤ field header 30 2 := by
  obtain ⟨-, ⟨extra, sizes, hextra, hsizes⟩, -⟩ := readHeader_cases h hlength
  rw [← hextra]
  refine le_of_readSizes ?_ ?_ ?_ hsizes
  · rw [field_header hlength (by omega), huncompressed]
  · rw [field_header hlength (by omega), hcompressed]
  · rw [field_header hlength (by omega), hoffset]

/-- A header with nothing but a name. -/
structure IsPlain (header : List UInt8) (nameLength : ℕ) : Prop where
  length : header.length = 46
  signature : field header 0 4 = 0x02014b50
  utf8 : (field header 8 2).testBit 11
  name : field header 28 2 = nameLength
  extra : field header 30 2 = 0
  comment : field header 32 2 = 0
  uncompressed : field header 24 4 ≠ 0xffffffff
  compressed : field header 20 4 ≠ 0xffffffff
  offset : field header 42 4 ≠ 0xffffffff

/-- **Plain headers** are read as they are written. -/
theorem readHeader_eq_some (h : IsPlain header (encodeName name).length) :
    readHeader (header ++ (encodeName name ++ rest)) = some (
      { name, crc32 := field header 16 4, compressedSize := field header 20 4
        uncompressedSize := field header 24 4, localHeaderOffset := field header 42 4 }, rest) := by
  have hfield : ∀ {i w}, i + w ≤ 46 →
      field (header ++ (encodeName name ++ rest)) i w = field header i w := field_header h.length
  have hsizes : ∀ extra, readSizes (header ++ (encodeName name ++ rest)) extra =
      some (field header 24 4, field header 20 4, field header 42 4) := by
    intro extra
    rw [readSizes_of_ne, hfield (by omega), hfield (by omega), hfield (by omega)]
    · rw [hfield (by omega)]
      exact h.uncompressed
    · rw [hfield (by omega)]
      exact h.compressed
    · rw [hfield (by omega)]
      exact h.offset
  have hname : ((header ++ (encodeName name ++ rest)).drop 46).take (encodeName name).length =
      encodeName name := by rw [List.drop_left' h.length, List.take_left]
  have hrest : (header ++ (encodeName name ++ rest)).drop (46 + (encodeName name).length) =
      rest := by
    rw [← List.drop_drop, List.drop_left' h.length, List.drop_left]
  rw [readHeader]
  simp only [Option.bind_eq_bind, hfield, Nat.reduceAdd, Nat.reduceLeDiff, h.signature, h.utf8,
    h.name, h.extra, h.comment, hsizes, hname, hrest, decodeName_encodeName, Nat.add_zero,
    Option.bind_some, Option.pure_def, List.length_append, h.length]
  rw [guard_bind trivial, guard_bind (by omega), guard_bind trivial]

end Header

theorem readEntries_succ {n : ℕ} {bytes : List UInt8} {entries : List Entry} :
    readEntries (n + 1) bytes = some entries ↔ ∃ entry rest left,
      readHeader bytes = some (entry, rest) ∧ readEntries n rest = some left ∧
        entries = entry :: left := by
  rw [readEntries]
  simp only [Option.bind_eq_bind, Option.bind_eq_some_iff, Option.pure_def, Prod.exists,
    Option.some.injEq]
  constructor
  · rintro ⟨entry, rest, hentry, left, hleft, rfl⟩
    exact ⟨entry, rest, left, hentry, hleft, rfl⟩
  · rintro ⟨entry, rest, left, hentry, hleft, rfl⟩
    exact ⟨entry, rest, hentry, left, hleft, rfl⟩

/-! ### Archives -/

section Archive

variable {front directory record locator last : List UInt8} {count : ℕ}

theorem findEnd_eq (hlength : last.length = 22) (hsignature : field last 0 4 = 0x06054b50)
    (hcomment : field last 20 2 = 0) (fuel : ℕ) :
    findEnd (front ++ last) (fuel + 1) 0 = some front.length := by
  have hlast : (front ++ last).length - (22 + 0) = front.length := by
    rw [List.length_append, hlength]
    omega
  rw [findEnd, if_neg, if_pos, hlast]
  · rw [hlast]
    refine ⟨?_, (field_append_right rfl 20).trans hcomment⟩
    exact (field_append_right rfl 0).trans hsignature
  · rw [List.length_append, hlength]
    omega

/-- **Archives without ZIP64 records.** The directory is read. -/
theorem readArchive_eq (hlength : last.length = 22) (hsignature : field last 0 4 = 0x06054b50)
    (hcomment : field last 20 2 = 0) (hcount : field last 10 2 = count)
    (hsize : field last 12 4 = directory.length) (hoffset : field last 16 4 = front.length)
    (hsmall : count ≠ 0xffff ∧ directory.length ≠ 0xffffffff ∧ front.length ≠ 0xffffffff) :
    readArchive (front ++ (directory ++ last)) = readEntries count directory := by
  have hend : findEnd (front ++ (directory ++ last)) 65536 0 =
      some (front ++ directory).length := by
    rw [← List.append_assoc]
    exact findEnd_eq hlength hsignature hcomment 65535
  have hfield : ∀ j w, field (front ++ (directory ++ last)) ((front ++ directory).length + j) w =
      field last j w := by
    intro j w
    rw [← List.append_assoc]
    exact field_append_right rfl j
  have hdirectory : readDirectory (front ++ (directory ++ last)) (front ++ directory).length =
      some ⟨count, directory.length, front.length, (front ++ directory).length⟩ := by
    rw [readDirectory]
    simp only [hfield, hcount, hsize, hoffset]
    rw [if_neg]
    rintro (h | h | h)
    · exact hsmall.1 h
    · exact hsmall.2.1 h
    · exact hsmall.2.2 h
  rw [readArchive, hend]
  simp only [Option.bind_eq_bind, Option.bind_some, hdirectory]
  rw [guard_bind List.length_append.symm, List.drop_left, List.take_left]

/-- The ZIP64 records between a directory and the last record. -/
structure IsExtended (front directory record locator last : List UInt8) (count : ℕ) : Prop where
  length_record : record.length = 56
  length_locator : locator.length = 20
  length_last : last.length = 22
  signature : field last 0 4 = 0x06054b50
  comment : field last 20 2 = 0
  ones : field last 10 2 = 0xffff
  signature_locator : field locator 0 4 = 0x07064b50
  signature_record : field record 0 4 = 0x06064b50
  position : field locator 8 8 = (front.length + directory.length) % 256 ^ 8
  entries : field record 32 8 = count % 256 ^ 8
  size : field record 40 8 = directory.length % 256 ^ 8
  offset : field record 48 8 = front.length % 256 ^ 8

/-- The locator is followed, if it names the place of the record. -/
theorem readDirectory64_eq (h : IsExtended front directory record locator last count)
    (hcount : count ≤ directory.length) :
    readDirectory64 (front ++ (directory ++ (record ++ (locator ++ last))))
        (front.length + directory.length + 56) =
      if front.length + directory.length < 256 ^ 8 then
        some ⟨count, directory.length, front.length, front.length + directory.length⟩
      else none := by
  let archive := front ++ (directory ++ (record ++ (locator ++ last)))
  have hrecord : ∀ {j w}, j + w ≤ 56 →
      field archive (front.length + directory.length + j) w = field record j w := by
    intro j w hj
    rw [Nat.add_assoc, field_append_right rfl, field_append_right rfl,
      field_append_left (by rw [h.length_record]; exact hj)]
  have hlocator : ∀ {j w}, j + w ≤ 20 →
      field archive (front.length + directory.length + 56 + j) w = field locator j w := by
    intro j w hj
    rw [Nat.add_assoc, Nat.add_assoc, field_append_right rfl, field_append_right rfl,
      field_append_right h.length_record,
      field_append_left (by rw [h.length_locator]; exact hj)]
  have hsignature : field archive (front.length + directory.length + 56) 4 = 0x07064b50 :=
    (hlocator (by omega)).trans h.signature_locator
  unfold readDirectory64
  rw [hlocator (by omega), h.position, Option.bind_eq_bind, guard_bind hsignature]
  by_cases hsmall : front.length + directory.length < 256 ^ 8
  · have hsignature' : field archive (front.length + directory.length) 4 = 0x06064b50 :=
      (hrecord (Nat.zero_add 4 ▸ by omega)).trans h.signature_record
    rw [if_pos hsmall, Nat.mod_eq_of_lt hsmall, guard_bind rfl, guard_bind hsignature',
      hrecord (by omega), hrecord (by omega), hrecord (by omega), h.entries, h.size, h.offset,
      Nat.mod_eq_of_lt (by omega), Nat.mod_eq_of_lt (by omega), Nat.mod_eq_of_lt (by omega)]
    rfl
  · -- the offset does not fit, so the locator names another place
    rw [if_neg hsmall, guard_bind_of_not (by omega)]

/-- **Archives with ZIP64 records.** The directory is read, as long as 64 bits say where it is. -/
theorem readArchive_extended (h : IsExtended front directory record locator last count)
    (hcount : count ≤ directory.length) :
    readArchive (front ++ (directory ++ (record ++ (locator ++ last)))) =
      if front.length + directory.length < 256 ^ 8 then readEntries count directory else none := by
  let archive := front ++ (directory ++ (record ++ (locator ++ last)))
  let before := front ++ (directory ++ (record ++ locator))
  have hsplit : archive = before ++ last := by
    simp only [archive, before, List.append_assoc]
  have hbefore : before.length = front.length + directory.length + 56 + 20 := by
    simp only [before, List.length_append, h.length_record, h.length_locator]
    omega
  have hend : findEnd archive 65536 0 = some before.length := by
    rw [hsplit]
    exact findEnd_eq h.length_last h.signature h.comment 65535
  have hones : field archive (before.length + 10) 2 = 0xffff := by
    rw [hsplit, field_append_right rfl, h.ones]
  have hdirectory : readDirectory archive before.length =
      if front.length + directory.length < 256 ^ 8 then
        some ⟨count, directory.length, front.length, front.length + directory.length⟩
      else none := by
    unfold readDirectory
    rw [if_pos (.inl hones), if_neg (by omega), hbefore, Nat.add_sub_cancel]
    exact readDirectory64_eq h hcount
  rw [readArchive, hend, Option.bind_eq_bind, Option.bind_some, hdirectory]
  split
  · rw [Option.bind_eq_bind, Option.bind_some, Option.bind_eq_bind, guard_bind rfl,
      List.drop_left, List.take_left]
  · rfl

end Archive

/-! ### Contents -/

/-- A local header without an extra field, and a content as its entry has it. -/
structure IsStored (entry : Entry) (header content : List UInt8) : Prop where
  signature : field header 0 4 = 0x04034b50
  nameLength : field header 26 2 = (encodeName entry.name).length
  extraLength : field header 28 2 = 0
  name : (header.drop 30).take (encodeName entry.name).length = encodeName entry.name
  length : header.length = 30 + (encodeName entry.name).length
  compressed : content.length = entry.compressedSize
  uncompressed : content.length = entry.uncompressedSize
  check : (crc (0xedb88320 : BitVec 32) content).toNat = entry.crc32

section Extract

variable {entry : Entry} {front header content tail : List UInt8}

theorem extract_eq (h : IsStored entry header content)
    (hfront : front.length = entry.localHeaderOffset) :
    extract (front ++ (header ++ (content ++ tail))) entry = some content := by
  have hlength := h.length
  have hsignature : field (header ++ (content ++ tail)) 0 4 = 0x04034b50 :=
    (field_append_left (by omega)).trans h.signature
  have hnameLength : field (header ++ (content ++ tail)) 26 2 = (encodeName entry.name).length :=
    (field_append_left (by omega)).trans h.nameLength
  have hextraLength : field (header ++ (content ++ tail)) 28 2 = 0 :=
    (field_append_left (by omega)).trans h.extraLength
  have hname : ((header ++ (content ++ tail)).drop 30).take (encodeName entry.name).length =
      encodeName entry.name := by
    rw [List.drop_append_of_le_length (by omega), List.take_append_of_le_length, h.name]
    rw [List.length_drop]
    omega
  rw [extract, ← hfront, List.drop_left, hsignature, hnameLength, hextraLength, hname,
    Nat.add_zero, ← hlength, List.drop_left, ← h.compressed, List.take_left]
  simp only [Option.bind_eq_bind]
  rw [guard_bind trivial, guard_bind trivial, guard_bind h.uncompressed, guard_bind h.check]
  rfl

end Extract

end Zip
