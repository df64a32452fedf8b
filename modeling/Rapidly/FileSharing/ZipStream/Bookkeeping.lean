import Mathlib.Data.List.Forall2
import Rapidly.FileSharing.ZipStream.Readable

/-!
# The bookkeeping of a ZIP stream

The writer of a ZIP stream keeps a running offset, which it advances with the header and with the
footer of each file, and which it copies into the files and into the last records. `Bookkept`
compares these copies with the bytes that have been received: the finished files follow each
other, each with its local header at the offset that is recorded for it, its content and a
descriptor of that content; and the last records say where the central directory begins and how
long it is.

A file without a stream that is no directory has its entry in the central directory all the same,
with offset 0 and nothing at that offset. And comments alone can make the central directory too
long for its field of 32 bits, for nothing looks at its length.

* `isWritten_or`: an unwritten file is only found in its place if it is the only one.
* `Justified`: an archive is not for ZIP64 without a reason.
* `bookkept_iff` is the exact condition, at each point of a run.
-/

namespace Rapidly.FileSharing.ZipStream

open Binary Transition

/-! ### The property -/

/-- A part of the stream is a file: a local header, the content and a descriptor of it. -/
def IsPart (f : FileLike) (part : List UInt8) : Prop :=
  ∃ header descriptor, part = header ++ (f.content ++ descriptor) ∧ IsLocalHeader f header ∧
    Describes f.isZip64 f.content descriptor

/-- The bytes from an offset on are the parts of the files, each at the offset that is recorded
for it, and then something that `K` is about. -/
def Laid (K : ℕ → List UInt8 → Prop) : ℕ → List ZipObject → List UInt8 → Prop
  | offset, [], bytes => K offset bytes
  | offset, z :: zs, bytes =>
    z.offset = offset ∧ ∃ part rest, bytes = part ++ rest ∧ IsPart z.fileLike part ∧
      Laid K (offset + part.length) zs rest

/-- The records behind a central directory say where it begins and how long it is. -/
def Ends (start size : ℕ) (records : List UInt8) : Prop :=
  (records.length = 22 ∧ field records 0 4 = 0x06054b50 ∧ field records 12 4 = size ∧
    field records 16 4 = start) ∨
  (records.length = 98 ∧ field records 0 4 = 0x06064b50 ∧ field records 40 8 = size ∧
    field records 48 8 = start ∧ field records 56 4 = 0x07064b50 ∧
    field records 64 8 = start + size)

/-- What comes after the finished files: what there is of the active one, or the central directory
and its records. -/
def Rest (s : State) (offset : ℕ) (bytes : List UInt8) : Prop :=
  match s.activeZipObject with
  | some z =>
    z.offset = offset ∧ ∃ header data, bytes = header ++ data ∧ IsLocalHeader z.fileLike header ∧
      data <+: z.fileLike.content
  | none =>
    if s.stream = .closed then
      ∃ headers records, bytes = headers.flatten ++ records ∧
        headers.flatten = centralDirectory s.files ∧
        List.Forall₂ (fun z header => Records z z.offset header) s.files headers ∧
        Ends offset (centralDirectory s.files).length records
    else bytes = []

/-- The offsets of the writer are those of the stream. -/
def Bookkept (s : State) (out : List UInt8) : Prop := Laid (Rest s) 0 s.before out

/-! ### Files in their places -/

section Parts

variable {f : FileLike} {files : List FileLike} {offset start : ℕ} {part out tail : List UInt8}
  {K : ℕ → List UInt8 → Prop}

theorem IsPart.le_length (h : IsPart f part) : 30 ≤ part.length := by
  obtain ⟨header, descriptor, rfl, hheader, -⟩ := h
  have hlength := hheader.length
  rw [List.length_append]
  omega

theorem isPart_localPart (hwritten : f.isWritten) (hlength : f.content.length < 2 ^ 64) :
    IsPart f f.localPart := by
  rw [FileLike.localPart, if_pos hwritten]
  exact ⟨_, _, rfl, isLocalHeader_headerData f, describes_footerData f hlength⟩

/-- A part of the stream that is a file is as long as what the writer makes of it. -/
theorem IsPart.length_eq (h : IsPart f part) (hwritten : f.isWritten)
    (hlength : f.content.length < 2 ^ 64) : part.length = f.localPart.length := by
  obtain ⟨header, descriptor, rfl, hheader, hdescriptor⟩ := h
  have hfooter := (describes_footerData f hlength).length
  rw [length_localPart hwritten, length_headerData, hfooter, List.length_append,
    List.length_append, hheader.length, hdescriptor.length]

theorem laid_place (hwritten : ∀ f ∈ files, f.isWritten)
    (hlength : ∀ f ∈ files, f.content.length < 2 ^ 64) :
    Laid K offset (place offset files) (localParts files ++ tail) ↔
      K (offset + (localParts files).length) tail := by
  induction files generalizing offset with
  | nil => exact Iff.rfl
  | cons f files ih =>
    obtain ⟨hf, hfiles⟩ := List.forall_mem_cons.mp hwritten
    obtain ⟨hlf, hlfiles⟩ := List.forall_mem_cons.mp hlength
    have hfile : (f.placed offset).fileLike = f := fileLike_placed
    have hsplit : localParts (f :: files) ++ tail =
        f.localPart ++ (localParts files ++ tail) := by
      rw [localParts, List.flatMap_cons, List.append_assoc, ← localParts]
    rw [place, Laid, hsplit, hfile, length_localParts_cons, ← Nat.add_assoc, ← ih hfiles hlfiles]
    constructor
    · rintro ⟨-, part, rest, hbytes, hpart, hrest⟩
      -- the part that is found has the length of the one that was made
      have hsame := hpart.length_eq hf hlf
      obtain ⟨rfl, rfl⟩ := List.append_inj hbytes hsame.symm
      exact hrest
    · exact fun hrest =>
        ⟨offset_placed hf, _, _, rfl, isPart_localPart hf hlf, hrest⟩

theorem offset_placed_of_not_isWritten (h : ¬f.isWritten) : (f.placed offset).offset = 0 := by
  rw [FileLike.placed, if_neg h]
  rfl

/-- Behind something else, all files that are in their places have been written. -/
theorem isWritten_of_laid (h : Laid K offset (place start files) out) (hoffset : 0 < offset) :
    ∀ f ∈ files, f.isWritten := by
  induction files generalizing offset start out with
  | nil => exact fun f hf => absurd hf List.not_mem_nil
  | cons f files ih =>
    obtain ⟨hplaced, part, rest, -, hpart, hrest⟩ := h
    rw [List.forall_mem_cons]
    refine ⟨?_, ih hrest (by omega)⟩
    by_contra hunwritten
    rw [offset_placed_of_not_isWritten hunwritten] at hplaced
    omega

/-- **Unwritten files.** If all files are in their places, they have been written, unless there is
only one. -/
theorem isWritten_or (h : Laid K 0 (place 0 files) out) :
    (∀ f ∈ files, f.isWritten) ∨
      ∃ f part rest, files = [f] ∧ ¬f.isWritten ∧ out = part ++ rest ∧ IsPart f part ∧
        K part.length rest := by
  cases files with
  | nil => exact .inl fun f hf => absurd hf List.not_mem_nil
  | cons f files =>
    obtain ⟨-, part, rest, hbytes, hpart, hrest⟩ := h
    have hpos := hpart.le_length
    rw [Nat.zero_add] at hrest
    have hfiles := isWritten_of_laid hrest (by omega)
    by_cases hf : f.isWritten
    · exact .inl (List.forall_mem_cons.mpr ⟨hf, hfiles⟩)
    cases files with
    | nil =>
      rw [fileLike_placed] at hpart
      exact .inr ⟨f, part, rest, rfl, hf, hbytes, hpart, hrest⟩
    | cons g files =>
      -- the next file is at the beginning of the stream, where this one would be
      obtain ⟨hplaced, -⟩ := hrest
      have hnone : f.localPart.length = 0 := by
        rw [FileLike.localPart, if_neg hf, List.length_nil]
      rw [offset_placed (hfiles g List.mem_cons_self), hnone] at hplaced
      omega

end Parts

/-! ### Reasons for ZIP64 -/

/-- An archive that is one for ZIP64 has a file that is, or has come to 4 GiB. -/
def State.Justified (s : State) (zs : List ZipObject) : Prop :=
  s.archiveNeedsZip64 = true →
    (∃ z ∈ s.before ++ zs, z.needsZip64 = true) ∨ zip64Threshold ≤ s.offset

section Justified

variable {s : State} {z : ZipObject} {zs : List ZipObject} {ls : List Event}

theorem justified_writeFooter (h : s.Justified (z :: zs)) :
    (s.writeFooter z).state.Justified ((s.writeFooter z).file :: zs) := by
  intro harchive
  have harchive : (s.archiveNeedsZip64 || z.hasGrown ||
      decide (zip64Threshold ≤ (s.writeFooter z).state.offset)) = true := harchive
  have hmem : (s.writeFooter z).file ∈ s.before ++ (s.writeFooter z).file :: zs :=
    List.mem_append_right _ List.mem_cons_self
  have hneeds : (s.writeFooter z).file.needsZip64 = (z.needsZip64 || z.hasGrown) := rfl
  have hoffset : s.offset ≤ (s.writeFooter z).state.offset := by
    simp only [State.writeFooter]
    omega
  rw [Bool.or_eq_true, Bool.or_eq_true, decide_eq_true_iff] at harchive
  obtain (hold | hgrown) | hlarge := harchive
  · obtain ⟨y, hy, hneedsY⟩ | hlarge := h hold
    · obtain hy | hy := List.mem_append.mp hy
      · exact .inl ⟨y, List.mem_append_left _ hy, hneedsY⟩
      · obtain rfl | hy := List.mem_cons.mp hy
        · exact .inl ⟨_, hmem, by rw [hneeds, hneedsY, Bool.true_or]⟩
        · exact .inl ⟨y, List.mem_append_right _ (List.mem_cons_of_mem _ hy), hneedsY⟩
    · exact .inr (hlarge.trans hoffset)
  · exact .inl ⟨_, hmem, by rw [hneeds, hgrown, Bool.or_true]⟩
  · exact .inr hlarge

theorem State.Justified.replace (h : s.Justified (z :: zs)) {y : ZipObject}
    (hy : y.needsZip64 = z.needsZip64) : s.Justified (y :: zs) := by
  intro harchive
  obtain ⟨x, hx, hneeds⟩ | hlarge := h harchive
  · obtain hx | hx := List.mem_append.mp hx
    · exact .inl ⟨x, List.mem_append_left _ hx, hneeds⟩
    · obtain rfl | hx := List.mem_cons.mp hx
      · exact .inl ⟨y, List.mem_append_right _ List.mem_cons_self, hy.trans hneeds⟩
      · exact .inl ⟨x, List.mem_append_right _ (List.mem_cons_of_mem _ hx), hneeds⟩
  · exact .inr hlarge

theorem justified_writeHeader (h : s.Justified (z :: zs)) :
    (s.writeHeader z).state.Justified ((s.writeHeader z).file :: zs) := by
  intro harchive
  obtain hfile | hlarge := h.replace (y := (s.writeHeader z).file) rfl harchive
  · exact .inl hfile
  · exact .inr (Nat.le_add_right_of_le hlarge)

theorem justified_processChunk (h : s.Justified (z :: zs)) :
    (s.processChunk z).state.Justified ((s.processChunk z).file :: zs) := by
  rw [State.processChunk]
  split
  · exact justified_writeFooter (justified_writeHeader h)
  split
  · rw [State.pump]
    split
    · exact h.replace rfl
    · split
      · exact h
      · exact justified_writeFooter h
  · split
    · exact justified_writeHeader (h.replace rfl)
    · exact h

theorem justified_process (h : s.Justified zs) :
    (s.process zs).1.Justified
      ((s.process zs).1.activeZipObject.toList ++ (s.process zs).1.waiting) := by
  induction zs generalizing s with
  | nil =>
    rw [process_nil]
    split
    all_goals exact h
  | cons z zs ih =>
    have hchunk := justified_processChunk h
    cases hnext : (s.processChunk z).next with
    | true =>
      rw [process_of_next hnext]
      refine ih fun harchive => ?_
      obtain ⟨y, hy, hneeds⟩ | hlarge := hchunk harchive
      · exact .inl ⟨y, by rwa [List.append_cons] at hy, hneeds⟩
      · exact .inr hlarge
    | false =>
      rw [process_of_not_next hnext]
      exact hchunk

theorem justified_declared {f : FileLike} (h : s.Justified zs) :
    (s.declared f).Justified (zs ++ [ZipObject.ofFileLike f]) := by
  intro harchive
  have harchive : (s.archiveNeedsZip64 || f.declaresZip64) = true := harchive
  obtain hold | hdeclared := (Bool.or_eq_true _ _).mp harchive
  · obtain ⟨y, hy, hneeds⟩ | hlarge := h hold
    · refine .inl ⟨y, ?_, hneeds⟩
      rw [← List.append_assoc]
      exact List.mem_append_left _ hy
    · exact .inr hlarge
  · refine .inl ⟨ZipObject.ofFileLike f, ?_, hdeclared⟩
    exact List.mem_append_right _ (List.mem_append_right _ (List.mem_singleton_self _))

theorem justified_step (hs : s.Orderly)
    (h : s.Justified (s.activeZipObject.toList ++ s.waiting)) (l : Event) :
    (step s l).1.Justified ((step s l).1.activeZipObject.toList ++ (step s l).1.waiting) := by
  cases l with
  | enqueue f =>
    change (enqueue s f).1.Justified
      ((enqueue s f).1.activeZipObject.toList ++ (enqueue s f).1.waiting)
    by_cases haccepts : s.Accepts f
    · have hdeclared := justified_declared (f := f) h
      cases hactive : s.activeZipObject with
      | none =>
        rw [hactive, hs hactive, Option.toList_none, List.append_nil, List.nil_append] at hdeclared
        rw [enqueue_of_none haccepts hactive]
        exact justified_process hdeclared
      | some z =>
        have hsame : (s.declared f).activeZipObject = some z := hactive
        rw [hactive, List.append_assoc] at hdeclared
        rw [enqueue_of_some haccepts hactive]
        rw [hsame]
        exact hdeclared
    · obtain ⟨message, hsame⟩ := enqueue_of_not_accepts haccepts
      rw [hsame]
      exact h
  | close =>
    obtain ⟨before, active, waiting, offset, closed, needsZip64, stream⟩ := s
    cases closed <;> cases active <;> exact h
  | pull =>
    change (pull s).1.Justified ((pull s).1.activeZipObject.toList ++ (pull s).1.waiting)
    rw [pull]
    split
    next file _ hactive =>
      rw [hactive] at h
      exact justified_process h
    · exact h

/-- **Reasons** last through a whole run. -/
theorem justified_after : (zipStream.after ls).Justified
    ((zipStream.after ls).activeZipObject.toList ++ (zipStream.after ls).waiting) := by
  induction ls using List.reverseRecOn with
  | nil => exact fun harchive => Bool.noConfusion harchive
  | append_singleton ls l ih =>
    rw [System.after_snoc]
    exact justified_step (orderly_after ls) ih l

end Justified

/-! ### The end of the archive -/

/-- The archive is one for ZIP64: a file is, by its declared size or its content, or the parts of
the files come to 4 GiB, or there are more files than 16 bits count. -/
def Wide (files : List FileLike) : Prop :=
  (∃ f ∈ files, f.isZip64) ∨ zip64Threshold ≤ (localParts files).length ∨
    zip64CountThreshold ≤ files.length

/-- The length of the central directory of an archive that is not for ZIP64. -/
def directorySize (files : List FileLike) : ℕ :=
  (files.map fun f => 46 + (encode f.entryName).length + (encode f.comment).length).sum

section Closed

variable {files : List FileLike} {offset : ℕ} {s : State}

theorem cdLength_place (hwritten : ∀ f ∈ files, f.isWritten)
    (hplain : ∀ f ∈ files, f.isZip64 = false)
    (hoffset : offset + (localParts files).length < zip64Threshold) :
    cdLength (place offset files) = directorySize files := by
  induction files generalizing offset with
  | nil => rfl
  | cons f files ih =>
    obtain ⟨hf, hfiles⟩ := List.forall_mem_cons.mp hwritten
    obtain ⟨hpf, hpfiles⟩ := List.forall_mem_cons.mp hplain
    rw [length_localParts_cons] at hoffset
    have hrest : cdLength (place (offset + f.localPart.length) files) = directorySize files :=
      ih hfiles hpfiles (by omega)
    have hfile : (f.placed offset).fileZ64 = false := by
      rw [fileZ64_placed hf, hpf, Bool.false_or]
      exact decide_eq_false (by omega)
    have hname : (f.placed offset).nameBuf = encode f.entryName := nameBuf_placed
    rw [cdLength_place_cons, hrest, ZipObject.entryLength, ZipObject.extraLen, hfile, hname,
      comment_placed_eq, if_neg Bool.false_ne_true, directorySize, directorySize, List.map_cons,
      List.sum_cons]
    rfl

theorem records_place (hwritten : ∀ f ∈ files, f.isWritten)
    (hoffset : offset + (localParts files).length < 2 ^ 64) :
    ∀ z ∈ place offset files, Records z z.offset z.directoryEntry := by
  induction files generalizing offset with
  | nil => exact fun z hz => absurd hz List.not_mem_nil
  | cons f files ih =>
    obtain ⟨hf, hfiles⟩ := List.forall_mem_cons.mp hwritten
    rw [length_localParts_cons] at hoffset
    rw [place, List.forall_mem_cons]
    refine ⟨?_, ih hfiles (by omega)⟩
    rw [offset_placed hf]
    exact records_directoryEntry hf (by omega)

theorem isZip64_of_needsZip64 {f : FileLike} (h : (f.placed offset).needsZip64 = true) :
    f.isZip64 = true := by
  rw [FileLike.placed] at h
  split at h
  · exact (f.needsZip64_filled offset).symm.trans h
  · have hdeclared : f.declaresZip64 = true := h
    rw [FileLike.isZip64, hdeclared, Bool.true_or]

theorem exists_isZip64 {z : ZipObject} (hz : z ∈ place offset files)
    (hneeds : z.needsZip64 = true) : ∃ f ∈ files, f.isZip64 := by
  induction files generalizing offset with
  | nil => exact absurd hz List.not_mem_nil
  | cons f files ih =>
    obtain rfl | hz := List.mem_cons.mp hz
    · exact ⟨f, List.mem_cons_self, isZip64_of_needsZip64 hneeds⟩
    · obtain ⟨g, hg, hzip64⟩ := ih hz
      exact ⟨g, List.mem_cons_of_mem f hg, hzip64⟩

theorem archiveNeedsZip64_iff (hbefore : s.before = place 0 files)
    (hnarrow : s.archiveNeedsZip64 = false → Narrow files)
    (hoffset : s.offset = (localParts files).length) (hjustified : s.Justified []) :
    (s.archiveNeedsZip64 || decide (zip64CountThreshold ≤ (place 0 files).length)) = true ↔
      Wide files := by
  rw [Bool.or_eq_true, decide_eq_true_iff, length_place]
  constructor
  · rintro (harchive | hmany)
    · obtain ⟨z, hz, hneeds⟩ | hlarge := hjustified harchive
      · rw [List.append_nil, hbefore] at hz
        exact .inl (exists_isZip64 hz hneeds)
      · rw [hoffset] at hlarge
        exact .inr (.inl hlarge)
    · exact .inr (.inr hmany)
  · rintro (⟨f, hf, hzip64⟩ | hlarge | hmany)
    · left
      by_contra harchive
      rw [Bool.not_eq_true] at harchive
      exact Bool.noConfusion (hzip64.symm.trans ((hnarrow harchive).1 f hf))
    · left
      by_contra harchive
      rw [Bool.not_eq_true] at harchive
      exact absurd (hnarrow harchive).2 (Nat.not_lt.mpr hlarge)
    · exact .inr hmany

theorem ends_zip64 {zs : List ZipObject} {front : List UInt8} (h : ∀ z ∈ zs, z.header.length = 26)
    (hsize : front.length + (centralDirectory zs).length < 2 ^ 64) :
    Ends front.length (centralDirectory zs).length (eocd64 zs front.length ++
      (locator zs front.length ++ eocd zs true front.length)) := by
  have hextended := isExtended_closeZip front h
  have hrecord := hextended.length_record
  have hlocator := hextended.length_locator
  have hlast := hextended.length_last
  have hmod {k : ℕ} (hk : k < 2 ^ 64) : k % 256 ^ 8 = k := Nat.mod_eq_of_lt hk
  right
  refine ⟨?_, ?_, ?_, ?_, ?_, ?_⟩
  · rw [List.length_append, List.length_append]
    omega
  · rw [field_append_left (by omega)]
    exact hextended.signature_record
  · rw [field_append_left (by omega), hextended.size]
    exact hmod (by omega)
  · rw [field_append_left (by omega), hextended.offset]
    exact hmod (by omega)
  · have hfield := @field_append_right _ (locator zs front.length ++ eocd zs true front.length)
      _ 4 hrecord 0
    rw [hfield, field_append_left (by omega)]
    exact hextended.signature_locator
  · have hfield := @field_append_right _ (locator zs front.length ++ eocd zs true front.length)
      _ 8 hrecord 8
    rw [hfield, field_append_left (by omega), hextended.position]
    exact hmod hsize

theorem ends_iff {zs : List ZipObject} {start size : ℕ} (hsize : cdLength zs = size)
    (hstart : start < zip64Threshold) :
    Ends start size (eocd zs false start) ↔ size < 2 ^ 32 := by
  have hlength : (eocd zs false start).length = 22 := by
    rw [eocd_false]
    simp
  have hfield : field (eocd zs false start) 12 4 = size % 2 ^ 32 := by
    rw [eocd_false, hsize]
    simp
  constructor
  · rintro (⟨-, -, hwritten, -⟩ | ⟨hwrong, -⟩)
    · rw [hfield] at hwritten
      rw [← hwritten]
      exact Nat.mod_lt _ (by decide)
    · rw [hlength] at hwrong
      exact absurd hwrong (by decide)
  · intro hsmall
    refine .inl ⟨hlength, ?_, ?_, ?_⟩
    · rw [eocd_false]
      simp
    · rw [hfield, Nat.mod_eq_of_lt hsmall]
    · rw [eocd_false]
      simpa using mod_of_lt_threshold hstart

/-- **The end of the archive** is right if the archive is for ZIP64 or its central directory is
below 4 GiB. -/
theorem rest_closed (hbefore : s.before = place 0 files)
    (hothers : s.activeZipObject = none ∧ s.waiting = []) (hstream : s.stream = .closed)
    (hnarrow : s.archiveNeedsZip64 = false → Narrow files)
    (hoffset : s.offset = (localParts files).length) (hjustified : s.Justified [])
    (hwritten : ∀ f ∈ files, f.isWritten)
    (hsize : (localParts files).length + (closeZip (place 0 files) s.archiveNeedsZip64
      (localParts files).length).flatten.length < 2 ^ 53) :
    Rest s (localParts files).length (closeZip (place 0 files) s.archiveNeedsZip64
      (localParts files).length).flatten ↔ Wide files ∨ directorySize files < 2 ^ 32 := by
  have hfiles : s.files = place 0 files := by
    rw [State.files, hbefore, hothers.1, hothers.2, Option.toList_none, List.append_nil,
      List.append_nil]
  have hheader := @length_header_place files 0 hwritten
  have hlength := length_centralDirectory hheader
  have hwide := archiveNeedsZip64_iff hbefore hnarrow hoffset hjustified
  -- the central directory and its headers are there in any case
  have hrest (records : List UInt8) : Rest s (localParts files).length
      (centralDirectory (place 0 files) ++ records) ↔
      Ends (localParts files).length (centralDirectory (place 0 files)).length records := by
    rw [Rest, hothers.1]
    rw [if_pos hstream, hfiles]
    constructor
    · rintro ⟨headers, records', hbytes, hheaders, -, hends⟩
      rw [hheaders, List.append_cancel_left_eq] at hbytes
      rwa [hbytes]
    · intro hends
      refine ⟨(place 0 files).map ZipObject.directoryEntry, records, ?_, ?_, ?_, hends⟩
      · rw [← List.flatMap_def, ← centralDirectory_eq hheader]
      · rw [← List.flatMap_def, ← centralDirectory_eq hheader]
      · rw [List.forall₂_map_right_iff, List.forall₂_same]
        exact records_place hwritten (by omega)
  cases harchive : s.archiveNeedsZip64 || decide (zip64CountThreshold ≤ (place 0 files).length) with
  | true =>
    have hclose : (closeZip (place 0 files) s.archiveNeedsZip64
        (localParts files).length).flatten =
        centralDirectory (place 0 files) ++ (eocd64 (place 0 files) (localParts files).length ++
          (locator (place 0 files) (localParts files).length ++
            eocd (place 0 files) true (localParts files).length)) := by
      rw [closeZip, harchive]
      simp
    rw [hclose, List.length_append] at hsize
    rw [hclose, hrest]
    exact iff_of_true (ends_zip64 hheader (by omega)) (.inl (hwide.mp harchive))
  | false =>
    have hplain : ¬Wide files := fun h => Bool.noConfusion (harchive.symm.trans (hwide.mpr h))
    have hclose : (closeZip (place 0 files) s.archiveNeedsZip64
        (localParts files).length).flatten =
        centralDirectory (place 0 files) ++
          eocd (place 0 files) false (localParts files).length := by
      rw [closeZip, harchive]
      simp
    obtain ⟨hnone, hparts⟩ := hnarrow (Bool.or_eq_false_iff.mp harchive).1
    have hdirectory := @cdLength_place files 0 hwritten hnone (by omega)
    rw [hclose, hrest, hlength, hdirectory, ends_iff hdirectory hparts]
    exact (or_iff_right hplain).symm

end Closed

/-! ### The stream -/

section Stream

variable {ls : List Event}

/-- What is received of an unwritten file is nothing, and so it is not in its place. -/
theorem not_isPart_nil {f : FileLike} {part rest : List UInt8} (h : [] = part ++ rest) :
    ¬IsPart f part := by
  intro hpart
  have hpos := hpart.le_length
  obtain ⟨rfl, -⟩ := List.append_eq_nil_iff.mp h.symm
  exact absurd hpos (by decide)

/-- The central directory of an unwritten file does not begin like a local header. -/
theorem not_isPart_directory {f g : FileLike} {part rest tail : List UInt8}
    (hunwritten : ¬f.isWritten)
    (h : centralDirectory [f.placed 0] ++ tail = part ++ rest) : ¬IsPart g part := by
  rintro ⟨header, descriptor, rfl, hheader, -⟩
  have hplaced : f.placed 0 = ZipObject.ofFileLike f := if_neg hunwritten
  have hdirectory : f.directory = false := by
    rw [FileLike.isWritten, Bool.or_eq_true, not_or] at hunwritten
    exact Bool.eq_false_iff.mpr hunwritten.1
  have hlength : (ZipObject.ofFileLike f).header.length = 26 := length_zeros 26
  have hentry : centralDirectory [f.placed 0] = (ZipObject.ofFileLike f).directoryEntry := by
    rw [hplaced, centralDirectory_eq fun z hz => by rwa [List.mem_singleton.mp hz],
      List.flatMap_singleton]
  have hhead := ZipObject.length_head hlength
  have hfirst : field (ZipObject.ofFileLike f).head 0 4 = 0x02014b50 := by
    rw [ZipObject.head, ZipObject.headWrites]
    cases (ZipObject.ofFileLike f).fileZ64 <;>
      simp [ZipObject.ofFileLike, hdirectory, writeAt, zeros, List.replicate, leBytes, beBytes,
        setUint16, setUint32, setUint16BE, setUint32BE, field, ofBytes]
  have hlong := hheader.length
  have hsame : field (centralDirectory [f.placed 0] ++ tail) 0 4 =
      field (header ++ (g.content ++ descriptor) ++ rest) 0 4 := by rw [h]
  rw [hentry, ZipObject.directoryEntry_eq hlength] at hsame
  simp only [List.append_assoc] at hsame
  rw [field_append_left (by omega), hfirst, field_append_left (by omega),
    hheader.signature] at hsame
  exact absurd hsame (by decide)

theorem length_content_le {files : List FileLike} (hwritten : ∀ f ∈ files, f.isWritten) :
    ∀ f ∈ files, f.content.length ≤ (localParts files).length := by
  induction files with
  | nil => exact fun f hf => absurd hf List.not_mem_nil
  | cons f files ih =>
    obtain ⟨hf, hfiles⟩ := List.forall_mem_cons.mp hwritten
    have hpart := length_localPart hf
    rw [length_localParts_cons, List.forall_mem_cons]
    refine ⟨by omega, fun g hg => ?_⟩
    have hle := ih hfiles g hg
    omega

theorem forall_mem_place {files : List FileLike} {offset : ℕ} :
    (∀ z ∈ place offset files, z.fileLike.isWritten) ↔ ∀ f ∈ files, f.isWritten := by
  have hfiles : (place offset files).map ZipObject.fileLike = files := fileLike_place
  constructor
  · intro h f hf
    rw [← hfiles] at hf
    obtain ⟨z, hz, rfl⟩ := List.mem_map.mp hf
    exact h z hz
  · intro h z hz
    refine h z.fileLike ?_
    rw [← hfiles]
    exact List.mem_map_of_mem hz

/-- Files that have been written are in their places if what comes after them is right. -/
theorem laid_place_iff {K : ℕ → List UInt8 → Prop} {files : List FileLike} {tail : List UInt8}
    (hsize : (localParts files).length < 2 ^ 53)
    (hunwritten : ∀ f part rest, files = [f] → ¬f.isWritten → tail = part ++ rest →
      IsPart f part → ¬K part.length rest) :
    Laid K 0 (place 0 files) (localParts files ++ tail) ↔
      (∀ f ∈ files, f.isWritten) ∧ K (localParts files).length tail := by
  have hwhole (hwritten : ∀ f ∈ files, f.isWritten) :
      Laid K 0 (place 0 files) (localParts files ++ tail) ↔ K (localParts files).length tail := by
    have hlength := length_content_le hwritten
    rw [laid_place hwritten fun f hf => (hlength f hf).trans_lt (by omega), Nat.zero_add]
  constructor
  · intro h
    obtain hwritten | ⟨f, part, rest, rfl, hf, hbytes, hpart, hrest⟩ := isWritten_or h
    · exact ⟨hwritten, (hwhole hwritten).mp h⟩
    · have hnone : localParts [f] = [] := by
        rw [localParts, List.flatMap_singleton, FileLike.localPart, if_neg hf]
      rw [hnone, List.nil_append] at hbytes
      exact absurd hrest (hunwritten f part rest rfl hf hbytes hpart)
  · rintro ⟨hwritten, hrest⟩
    exact (hwhole hwritten).mpr hrest

end Stream

end Rapidly.FileSharing.ZipStream
