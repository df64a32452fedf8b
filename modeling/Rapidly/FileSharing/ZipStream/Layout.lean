import Rapidly.FileSharing.ZipStream.Stream

/-!
# The layout of a ZIP stream

A file that has been written is a local header, its content and a data descriptor
(`FileLike.localPart`), whatever the chunks of the content were and whenever it was enqueued. In
every run the stream consists of the parts of the files that are finished, followed by what there
is of the active one, or by the central directory (`phase_after`). The objects of the files that
are finished say where their parts begin (`place`).
-/

namespace Rapidly.FileSharing.ZipStream

open Binary Transition

/-! ### Checks -/

namespace Crc32

theorem crc32Round_eq (t : BitVec 32) : crc32Round t = shiftBit 0xedb88320 t := by
  have hlow : t &&& 1#32 ≠ 0 ↔ t.getLsbD 0 = true := by
    rw [BitVec.and_one_eq_setWidth_ofBool_getLsbD]
    cases t.getLsbD 0 <;> decide
  rw [crc32Round, shiftBit]
  exact if_congr hlow rfl rfl

theorem crc32Table_eq (i : BitVec 32) : crc32Table i = shiftBits 0xedb88320 8 i := by
  simp only [crc32Table, crc32Round_eq]
  rfl

theorem update_update (c : Crc32) (a b : List UInt8) :
    (c.update a).update b = c.update (a ++ b) := by
  unfold update
  rw [List.foldl_append]

theorem loopBound_of_lt {length : ℕ} (h : length < 2 ^ 31) : loopBound length = length := by
  have hmod : (BitVec.ofNat 32 length).toNat = length := by
    rw [BitVec.toNat_ofNat, Nat.mod_eq_of_lt (by omega)]
  rw [loopBound, BitVec.toInt_eq_toNat_of_lt (by omega), hmod]

theorem append_eq_update {data : List UInt8} (h : data.length < 2 ^ 31) (c : Crc32) :
    c.append data = c.update data := by
  rw [append, loopBound_of_lt h, Int.toNat_natCast, List.take_length]

/-- **The check** of a file is the CRC-32 of its content. -/
theorem get_update (data : List UInt8) :
    (({} : Crc32).update data).get = Binary.crc 0xedb88320 data := by
  have hround : (fun (crc : BitVec 32) (b : UInt8) => (crc >>> 8) ^^^
      crc32Table ((crc ^^^ b.toBitVec.setWidth 32) &&& 0xff)) = shiftByte 0xedb88320 := by
    funext c b
    rw [shiftByte_eq_table, crc32Table_eq]
    rfl
  rw [get, update, hround]
  rfl

end Crc32

/-! ### Files -/

namespace FileLike

variable (f : FileLike)

/-- The file is a directory or has a stream. -/
def isWritten : Bool := f.directory || f.stream.isSome

/-- What the stream contains of a file. -/
def content : List UInt8 :=
  if f.directory then [] else (f.stream.getD {}).chunks.flatten

/-- The chunks are below 2 GiB each. -/
def HasSmallChunks : Prop := ∀ chunk ∈ (f.stream.getD {}).chunks, chunk.length < 2 ^ 31

instance : Decidable f.HasSmallChunks :=
  inferInstanceAs (Decidable (∀ chunk ∈ (f.stream.getD {}).chunks, chunk.length < 2 ^ 31))

/-- The CRC-32 of the content. -/
def check : BitVec 32 := crc 0xedb88320 f.content

/-- The file is one for ZIP64, by the size that is declared or that it has. -/
def isZip64 : Bool := f.declaresZip64 || needsZip64File f.content.length

/-- The object of a file whose content is being written. -/
def reading (offset : ℕ) (data : List UInt8) (reader : Source) : ZipObject :=
  { ZipObject.ofFileLike f with
    compressedLength := data.length
    uncompressedLength := data.length
    header := (ZipObject.ofFileLike f).newHeader
    offset
    crc := some (({} : Crc32).update data)
    reader := some reader }

/-- The object of a file whose content has been written. -/
def filled (offset : ℕ) : ZipObject :=
  if f.directory then (ZipObject.ofFileLike f).writeHeader offset
  else f.reading offset f.content {}

/-- The object of a file that has its turn behind it. -/
def placed (offset : ℕ) : ZipObject :=
  if f.isWritten then (f.filled offset).writeFooter else ZipObject.ofFileLike f

/-- The part of the stream that is one file. -/
def localPart : List UInt8 :=
  if f.isWritten then
    (ZipObject.ofFileLike f).headerData ++ (f.content ++ (f.filled 0).footerData)
  else []

end FileLike

/-- The parts of some files. -/
def localParts (files : List FileLike) : List UInt8 := files.flatMap FileLike.localPart

/-- The objects of files whose parts follow each other. -/
def place : ℕ → List FileLike → List ZipObject
  | _, [] => []
  | offset, f :: files => f.placed offset :: place (offset + f.localPart.length) files

section Place

variable {f : FileLike} {fs gs : List FileLike} {offset : ℕ}

theorem localParts_append : localParts (fs ++ gs) = localParts fs ++ localParts gs :=
  List.flatMap_append

theorem localParts_concat : localParts (fs ++ [f]) = localParts fs ++ f.localPart := by
  rw [localParts_append, localParts, localParts, List.flatMap_singleton]

theorem place_concat : place offset (fs ++ [f]) =
    place offset fs ++ [f.placed (offset + (localParts fs).length)] := by
  induction fs generalizing offset with
  | nil => rfl
  | cons g fs ih =>
    have hlength : (localParts (g :: fs)).length = g.localPart.length + (localParts fs).length := by
      rw [localParts, List.flatMap_cons, List.length_append, localParts]
    rw [List.cons_append, place, ih, place, hlength, Nat.add_assoc, List.cons_append]

theorem fileLike_placed : (f.placed offset).fileLike = f := by
  rw [FileLike.placed, FileLike.filled]
  split
  · split <;> rfl
  · rfl

theorem fileLike_place : (place offset fs).map ZipObject.fileLike = fs := by
  induction fs generalizing offset with
  | nil => rfl
  | cons f fs ih => rw [place, List.map_cons, fileLike_placed, ih]

end Place

/-! ### Processing -/

section Process

variable {s : State} {z : ZipObject} {rest zs : List ZipObject} {f : FileLike}

theorem process_nil : s.process [] =
    if s.closed then State.finish { s with activeZipObject := none, waiting := [] }
    else ({ s with activeZipObject := none, waiting := [] }, []) := rfl

theorem process_of_next (h : (s.processChunk z).next) :
    s.process (z :: rest) =
      (((s.processChunk z).finished.process rest).1,
        (s.processChunk z).outputs ++ ((s.processChunk z).finished.process rest).2) := by
  rw [State.process]
  exact if_pos h

theorem process_of_not_next {z : ZipObject} {rest : List ZipObject}
    (h : (s.processChunk z).next = false) :
    s.process (z :: rest) =
      ({ (s.processChunk z).state with
          activeZipObject := some (s.processChunk z).file, waiting := rest },
        (s.processChunk z).outputs) := by
  rw [State.process]
  exact if_neg (Bool.eq_false_iff.mp h)

theorem processChunk_file : (s.processChunk z).file.fileLike = z.fileLike ∧
    (s.processChunk z).file.name = z.name := by
  unfold State.processChunk State.pump
  repeat' split
  all_goals exact ⟨rfl, rfl⟩

theorem processChunk_before : (s.processChunk z).state.before = s.before := by
  unfold State.processChunk State.pump
  repeat' split
  all_goals rfl

theorem map_files_process {α : Type} {π : ZipObject → α}
    (hπ : ∀ (s : State) (z : ZipObject), π (s.processChunk z).file = π z) :
    (s.process zs).1.files.map π = s.before.map π ++ zs.map π := by
  induction zs generalizing s with
  | nil =>
    have hfiles : (s.process []).1.files = s.before := by
      have hidle (s' : State) (hbefore : s'.before = s.before)
          (hactive : s'.activeZipObject = none) (hwaiting : s'.waiting = []) :
          s'.files = s.before := by
        rw [State.files, hbefore, hactive, hwaiting, Option.toList_none, List.append_nil,
          List.append_nil]
      rw [process_nil]
      split
      · exact hidle _ rfl rfl rfl
      · exact hidle _ rfl rfl rfl
    rw [hfiles, List.map_nil, List.append_nil]
  | cons z zs ih =>
    cases hnext : (s.processChunk z).next with
    | true =>
      have hfinished : (s.processChunk z).finished.before =
          s.before ++ [(s.processChunk z).file] :=
        congrArg (fun before => before ++ [(s.processChunk z).file]) processChunk_before
      rw [process_of_next hnext, ih, hfinished, List.map_append, List.map_singleton, hπ,
        List.append_assoc, List.map_cons]
      rfl
    | false =>
      have hfiles : (s.process (z :: zs)).1.files = s.before ++ (s.processChunk z).file :: zs := by
        have hbefore : (s.processChunk z).state.before = s.before := processChunk_before
        rw [process_of_not_next hnext, State.files, Option.toList_some, List.append_assoc,
          List.singleton_append]
        exact congrArg (fun before => before ++ (s.processChunk z).file :: zs) hbefore
      rw [hfiles, List.map_append, List.map_cons, hπ, List.map_cons]

/-- As long as files are waiting, one is active. -/
def State.Orderly (s : State) : Prop := s.activeZipObject = none → s.waiting = []

theorem orderly_process : (s.process zs).1.Orderly := by
  induction zs generalizing s with
  | nil =>
    rw [process_nil]
    split
    all_goals exact fun _ => rfl
  | cons z zs ih =>
    cases hnext : (s.processChunk z).next with
    | true =>
      rw [process_of_next hnext]
      exact ih
    | false =>
      rw [process_of_not_next hnext]
      exact fun hnone => absurd hnone (Option.some_ne_none _)

/-! ### Enqueueing -/

/-- The file is not refused. -/
def State.Accepts (s : State) (f : FileLike) : Prop :=
  s.closed = false ∧ f.entryName ∉ s.files.map ZipObject.name

theorem enqueue_of_not_accepts (h : ¬s.Accepts f) :
    ∃ message, enqueue s f = (s, [.threw message]) := by
  rw [enqueue]
  split
  · exact ⟨_, rfl⟩
  next hopen =>
    have hname : f.entryName ∈ s.files.map ZipObject.name :=
      not_not.mp fun hnew => h ⟨(Bool.not_eq_true _).mp hopen, hnew⟩
    rw [if_pos hname]
    exact ⟨_, rfl⟩

/-- The state after a declared size has been looked at. -/
def State.declared (s : State) (f : FileLike) : State :=
  { s with archiveNeedsZip64 := s.archiveNeedsZip64 || f.declaresZip64 }

theorem enqueue_of_none (h : s.Accepts f) (hactive : s.activeZipObject = none) :
    enqueue s f = (s.declared f).process [ZipObject.ofFileLike f] := by
  obtain ⟨before, active, waiting, offset, closed, needsZip64, stream⟩ := s
  obtain rfl : active = none := hactive
  rw [enqueue, if_neg (Bool.eq_false_iff.mp h.1), if_neg h.2]
  rfl

theorem enqueue_of_some (h : s.Accepts f) (hactive : s.activeZipObject = some z) :
    enqueue s f =
      ({ s.declared f with waiting := s.waiting ++ [ZipObject.ofFileLike f] }, []) := by
  obtain ⟨before, active, waiting, offset, closed, needsZip64, stream⟩ := s
  obtain rfl : active = some z := hactive
  rw [enqueue, if_neg (Bool.eq_false_iff.mp h.1), if_neg h.2]
  rfl

/-- **Enqueueing** a file puts it behind the others. -/
theorem map_files_enqueue {α : Type} {π : ZipObject → α}
    (hπ : ∀ (s : State) (z : ZipObject), π (s.processChunk z).file = π z) (hs : s.Orderly)
    (h : s.Accepts f) :
    (enqueue s f).1.files.map π = s.files.map π ++ [π (ZipObject.ofFileLike f)] := by
  cases hactive : s.activeZipObject with
  | none =>
    have hfiles : s.files = s.before := by
      rw [State.files, hactive, hs hactive, Option.toList_none, List.append_nil, List.append_nil]
    rw [enqueue_of_none h hactive, map_files_process hπ, hfiles]
    rfl
  | some z =>
    have hfiles : (enqueue s f).1.files = s.files ++ [ZipObject.ofFileLike f] := by
      rw [enqueue_of_some h hactive]
      unfold State.files State.declared
      rw [← List.append_assoc]
    rw [hfiles, List.map_append, List.map_singleton]

theorem close_files : (close s).1.before = s.before ∧
    (close s).1.activeZipObject = s.activeZipObject ∧ (close s).1.waiting = s.waiting := by
  obtain ⟨before, active, waiting, offset, closed, needsZip64, stream⟩ := s
  cases closed <;> cases active <;> exact ⟨rfl, rfl, rfl⟩

theorem orderly_step (hs : s.Orderly) (l : Event) : (step s l).1.Orderly := by
  cases l with
  | enqueue f =>
    change (enqueue s f).1.Orderly
    by_cases h : s.Accepts f
    · cases hactive : s.activeZipObject with
      | none =>
        rw [enqueue_of_none h hactive]
        exact orderly_process
      | some z =>
        rw [enqueue_of_some h hactive]
        exact fun hnone => absurd (hactive.symm.trans hnone) (Option.some_ne_none _)
    · obtain ⟨message, hsame⟩ := enqueue_of_not_accepts h
      rw [hsame]
      exact hs
  | close =>
    change (close s).1.Orderly
    obtain ⟨-, hactive, hwaiting⟩ := @close_files s
    rwa [State.Orderly, hactive, hwaiting]
  | pull =>
    change (pull s).1.Orderly
    rw [pull]
    split
    · exact orderly_process
    · exact hs

theorem orderly_after (ls : List Event) : (zipStream.after ls).Orderly := by
  induction ls using List.reverseRecOn with
  | nil => exact fun _ => rfl
  | append_singleton ls l ih =>
    rw [System.after_snoc]
    exact orderly_step ih l

end Process

/-! ### Runs -/

/-- No file is one for ZIP64, and the archive has not come to where it would begin. -/
def Narrow (files : List FileLike) : Prop :=
  (∀ f ∈ files, f.isZip64 = false) ∧ (localParts files).length < zip64Threshold

/-- Some files are finished, and no other is active. -/
structure Settled (files : List FileLike) (s : State) (out : List UInt8) : Prop where
  before : s.before = place 0 files
  out : out = localParts files
  offset : s.offset = (localParts files).length
  narrow : s.archiveNeedsZip64 = false → Narrow files
  readable : s.stream = .readable

/-- A file is being read. -/
structure Reading (done : List FileLike) (f : FileLike) (data : List UInt8) (reader : Source)
    (left : List FileLike) (s : State) (out : List UInt8) : Prop where
  before : s.before = place 0 done
  active : s.activeZipObject = some (f.reading (localParts done).length data reader)
  waiting : s.waiting = left.map ZipObject.ofFileLike
  out : out = localParts done ++ ((ZipObject.ofFileLike f).headerData ++ data)
  offset : s.offset =
    (localParts done).length + (ZipObject.ofFileLike f).headerData.length
  file : f.directory = false
  content : data ++ reader.chunks.flatten = f.content
  stream : f.stream.isSome
  fails : reader.fails = (f.stream.getD {}).fails
  narrow : s.archiveNeedsZip64 = false → Narrow done
  undeclared : s.archiveNeedsZip64 = false → ∀ g ∈ f :: left, g.declaresZip64 = false
  small : ∀ chunk ∈ reader.chunks, chunk.length < 2 ^ 31
  smallLeft : ∀ g ∈ left, g.HasSmallChunks

/-- How far a stream has come with the files that were enqueued. -/
inductive Phase (files : List FileLike) (s : State) (out : List UInt8) : Prop where
  | idle (h : Settled files s out) (hactive : s.activeZipObject = none) (hwaiting : s.waiting = [])
    (hclosed : s.closed = false)
  | reading (done : List FileLike) (f : FileLike) (data : List UInt8) (reader : Source)
    (left : List FileLike) (hfiles : files = done ++ f :: left)
    (h : Reading done f data reader left s out)
    (hstream : s.stream = .readable ∨ s.stream = .errored ∧ reader = ⟨[], true⟩)
  | closed (hbefore : s.before = place 0 files)
    (hothers : s.activeZipObject = none ∧ s.waiting = [])
    (hnarrow : s.archiveNeedsZip64 = false → Narrow files)
    (hoffset : s.offset = (localParts files).length)
    (hout : out = localParts files ++
      (closeZip (place 0 files) s.archiveNeedsZip64 (localParts files).length).flatten)
    (hclosed : s.closed = true) (hstream : s.stream = .closed)

section Runs

variable {s : State} {out : List UInt8} {files done left : List FileLike} {f : FileLike}
  {data : List UInt8} {reader : Source}

theorem received_append (a b : List Output) : received (a ++ b) = received a ++ received b :=
  List.flatMap_append

theorem received_chunk (c : List UInt8) : received [.chunk c] = c := List.append_nil c

theorem received_chunks (chunks : List (List UInt8)) :
    received (chunks.map .chunk) = chunks.flatten := by
  induction chunks with
  | nil => rfl
  | cons c chunks ih =>
    rw [List.map_cons, ← List.singleton_append, received_append, received_chunk, ih,
      List.flatten_cons]

/-! ### One file -/

theorem footerData_filled (offset : ℕ) :
    (f.filled offset).footerData = (f.filled 0).footerData := by
  unfold FileLike.filled
  split <;> rfl

theorem length_footerData (z : ZipObject) :
    z.footerData.length = if z.writeFooter.needsZip64 then 24 else 16 := by
  unfold ZipObject.footerData ZipObject.writeFooter ZipObject.withCrc
  split <;> cases z.crc <;> rfl

theorem compressedLength_filled (offset : ℕ) :
    (f.filled offset).compressedLength = f.content.length := by
  rw [FileLike.filled, FileLike.content]
  split <;> rfl

theorem length_localPart (hwritten : f.isWritten) :
    f.localPart.length = (ZipObject.ofFileLike f).headerData.length +
      (f.content.length + (f.filled 0).footerData.length) := by
  rw [FileLike.localPart, if_pos hwritten, List.length_append, List.length_append]

theorem isZip64_eq_false (hdeclared : f.declaresZip64 = false) (offset : ℕ)
    (hgrown : (f.filled offset).hasGrown = false) : f.isZip64 = false := by
  rw [FileLike.isZip64, hdeclared, Bool.false_or]
  have hnarrow : (f.filled offset).needsZip64 = false := by
    rw [FileLike.filled]
    split <;> exact hdeclared
  rw [ZipObject.hasGrown, hnarrow, Bool.not_false, Bool.true_and, Bool.or_eq_false_iff,
    compressedLength_filled] at hgrown
  exact hgrown.1

theorem settled_writeFooter (hwritten : f.isWritten) (hbefore : s.before = place 0 done)
    (hout : out = localParts done ++ ((ZipObject.ofFileLike f).headerData ++ f.content))
    (hoffset : s.offset = (localParts done).length + (ZipObject.ofFileLike f).headerData.length)
    (hnarrow : s.archiveNeedsZip64 = false → Narrow done)
    (hdeclared : s.archiveNeedsZip64 = false → f.declaresZip64 = false)
    (hreadable : s.stream = .readable) :
    Settled (done ++ [f]) (s.writeFooter (f.filled (localParts done).length)).finished
      (out ++ received (s.writeFooter (f.filled (localParts done).length)).outputs) := by
  have hend : s.offset + (f.filled (localParts done).length).compressedLength +
      (if (f.filled (localParts done).length).writeFooter.needsZip64 then 24 else 16) =
      (localParts (done ++ [f])).length := by
    rw [← length_footerData, footerData_filled, compressedLength_filled, hoffset,
      localParts_concat, List.length_append, length_localPart hwritten]
    omega
  refine ⟨?_, ?_, hend, fun h => ?_, hreadable⟩
  · have hplaced : f.placed (localParts done).length =
        (f.filled (localParts done).length).writeFooter := if_pos hwritten
    rw [place_concat, Nat.zero_add, hplaced, ← hbefore]
    rfl
  · have hfooter : received (s.writeFooter (f.filled (localParts done).length)).outputs =
        (f.filled 0).footerData := (received_chunk _).trans (footerData_filled _)
    rw [hfooter, hout, localParts_concat, FileLike.localPart, if_pos hwritten]
    simp only [List.append_assoc]
  · -- none of the three reasons for ZIP64
    have h : (s.archiveNeedsZip64 || (f.filled (localParts done).length).hasGrown ||
        decide (zip64Threshold ≤ s.offset + (f.filled (localParts done).length).compressedLength +
          if (f.filled (localParts done).length).writeFooter.needsZip64 then 24 else 16)) = false :=
      h
    rw [hend, Bool.or_eq_false_iff, Bool.or_eq_false_iff, decide_eq_false_iff_not] at h
    obtain ⟨⟨harchive, hgrown⟩, hlt⟩ := h
    refine ⟨fun g hg => ?_, Nat.lt_of_not_le hlt⟩
    rcases List.mem_append.mp hg with hg | hg
    · exact (hnarrow harchive).1 g hg
    · rw [List.mem_singleton.mp hg]
      exact isZip64_eq_false (hdeclared harchive) _ hgrown

theorem Settled.files_eq (h : Settled files s out) (hactive : s.activeZipObject = none)
    (hwaiting : s.waiting = []) : s.files = place 0 files := by
  rw [State.files]
  rw [h.before, hactive, hwaiting, Option.toList_none, List.append_nil, List.append_nil]

/-! ### Steps -/

theorem closed_finish (h : Settled files s out) (hclosed : s.closed = true)
    (hactive : s.activeZipObject = none) (hwaiting : s.waiting = []) :
    Phase files s.finish.1 (out ++ received s.finish.2) := by
  have hfiles : s.files = place 0 files := h.files_eq hactive hwaiting
  refine .closed h.before ⟨hactive, hwaiting⟩ h.narrow h.offset ?_ hclosed rfl
  rw [State.finish, received_chunks, hfiles, h.offset, h.out]

theorem settled_directory (h : Settled done s out) (hdirectory : f.directory = true)
    (hdeclared : s.archiveNeedsZip64 = false → f.declaresZip64 = false) :
    (s.processChunk (ZipObject.ofFileLike f)).next ∧
      Settled (done ++ [f]) (s.processChunk (ZipObject.ofFileLike f)).finished
        (out ++ received (s.processChunk (ZipObject.ofFileLike f)).outputs) := by
  let header := s.writeHeader (ZipObject.ofFileLike f)
  let footer := header.state.writeFooter header.file
  have hchunk : s.processChunk (ZipObject.ofFileLike f) =
      { footer with outputs := header.outputs ++ footer.outputs } := if_pos hdirectory
  have hfile : header.file = f.filled (localParts done).length := by
    rw [← h.offset]
    exact (if_pos hdirectory).symm
  have hwritten : f.isWritten = true := by
    rw [FileLike.isWritten, hdirectory, Bool.true_or]
  have hcontent : f.content = [] := if_pos hdirectory
  -- the header and the footer follow each other, with nothing in between
  have hsettled : Settled (done ++ [f]) footer.finished
      (out ++ (ZipObject.ofFileLike f).headerData ++ received footer.outputs) := by
    have hfooter : footer = header.state.writeFooter (f.filled (localParts done).length) :=
      congrArg header.state.writeFooter hfile
    rw [hfooter]
    refine settled_writeFooter hwritten h.before ?_ ?_ h.narrow hdeclared h.readable
    · rw [h.out, hcontent, List.append_nil]
    · rw [← h.offset]
      rfl
  rw [hchunk]
  refine ⟨rfl, ?_⟩
  rw [received_append, ← List.append_assoc]
  exact (received_chunk (ZipObject.ofFileLike f).headerData).symm ▸ hsettled

theorem processChunk_stream {stream : Source} (hdirectory : f.directory = false)
    (hstream : f.stream = some stream) :
    s.processChunk (ZipObject.ofFileLike f) =
      { state := { s with offset := s.offset + (ZipObject.ofFileLike f).headerData.length }
        file := f.reading s.offset [] stream
        outputs := [.chunk (ZipObject.ofFileLike f).headerData], next := false } := by
  have hfile : ¬(ZipObject.ofFileLike f).directory = true := Bool.eq_false_iff.mp hdirectory
  have hobject : (ZipObject.ofFileLike f).fileLike.stream = some stream := hstream
  rw [State.processChunk, if_neg hfile, hobject]
  rfl

theorem settled_unwritten (h : Settled done s out) (hdirectory : f.directory = false)
    (hstream : f.stream = none)
    (hdeclared : s.archiveNeedsZip64 = false → f.declaresZip64 = false) :
    (s.processChunk (ZipObject.ofFileLike f)).next ∧
      Settled (done ++ [f]) (s.processChunk (ZipObject.ofFileLike f)).finished
        (out ++ received (s.processChunk (ZipObject.ofFileLike f)).outputs) := by
  have hchunk : s.processChunk (ZipObject.ofFileLike f) =
      { state := s, file := ZipObject.ofFileLike f, next := true } := by
    have hfile : ¬(ZipObject.ofFileLike f).directory = true := Bool.eq_false_iff.mp hdirectory
    have hobject : (ZipObject.ofFileLike f).fileLike.stream = none := hstream
    rw [State.processChunk, if_neg hfile, hobject]
    rfl
  have hunwritten : ¬f.isWritten = true := by
    rw [FileLike.isWritten, hdirectory, hstream]
    exact Bool.false_ne_true
  -- it has no part in the stream
  have hparts : localParts (done ++ [f]) = localParts done := by
    rw [localParts_concat, FileLike.localPart, if_neg hunwritten, List.append_nil]
  rw [hchunk]
  refine ⟨rfl, ?_, ?_, h.offset.trans (congrArg _ hparts.symm),
    fun harchive => ⟨fun g hg => ?_, ?_⟩, h.readable⟩
  · have hplaced : f.placed (localParts done).length = ZipObject.ofFileLike f := if_neg hunwritten
    rw [place_concat, Nat.zero_add, hplaced, ← h.before]
    rfl
  · rw [hparts]
    exact (List.append_nil out).trans h.out
  · rcases List.mem_append.mp hg with hg | hg
    · exact (h.narrow harchive).1 g hg
    · have hcontent : f.content = [] := by
        rw [FileLike.content, hstream, if_neg (Bool.eq_false_iff.mp hdirectory)]
        rfl
      rw [List.mem_singleton.mp hg, FileLike.isZip64, hdeclared harchive, hcontent]
      rfl
  · rw [hparts]
    exact (h.narrow harchive).2

theorem writeFooter_archiveNeedsZip64 {z : ZipObject}
    (h : (s.writeFooter z).state.archiveNeedsZip64 = false) : s.archiveNeedsZip64 = false :=
  (Bool.or_eq_false_iff.mp (Bool.or_eq_false_iff.mp h).1).1

theorem processChunk_archiveNeedsZip64 {z : ZipObject}
    (h : (s.processChunk z).state.archiveNeedsZip64 = false) : s.archiveNeedsZip64 = false := by
  rw [State.processChunk] at h
  split at h
  · exact @writeFooter_archiveNeedsZip64 (s.writeHeader z).state _ h
  · split at h
    next reader hreader =>
      rw [State.pump] at h
      split at h
      · exact h
      · split at h
        · exact h
        · exact writeFooter_archiveNeedsZip64 h
    · split at h <;> exact h

/-- **Processing.** From a point where no file is active, the files are finished until one is
reached that has to be read, or the archive is closed, or there is nothing left to do. -/
theorem phase_process (h : Settled done s out)
    (hdeclared : s.archiveNeedsZip64 = false → ∀ g ∈ left, g.declaresZip64 = false)
    (hsmall : ∀ g ∈ left, g.HasSmallChunks) :
    Phase (done ++ left) (s.process (left.map ZipObject.ofFileLike)).1
      (out ++ received (s.process (left.map ZipObject.ofFileLike)).2) := by
  induction left generalizing done s out with
  | nil =>
    rw [List.map_nil, List.append_nil, process_nil]
    split
    next hclosed =>
      exact closed_finish ⟨h.before, h.out, h.offset, h.narrow, h.readable⟩ hclosed rfl rfl
    next hopen =>
      refine .idle ⟨h.before, ?_, h.offset, h.narrow, h.readable⟩ rfl rfl
        (Bool.eq_false_iff.mpr hopen)
      exact (List.append_nil out).trans h.out
  | cons f left ih =>
    have hfirst : s.archiveNeedsZip64 = false → f.declaresZip64 = false :=
      fun harchive => hdeclared harchive f List.mem_cons_self
    -- a file that is finished at once leaves the others to the induction
    have hnext : (s.processChunk (ZipObject.ofFileLike f)).next ∧
        Settled (done ++ [f]) (s.processChunk (ZipObject.ofFileLike f)).finished
          (out ++ received (s.processChunk (ZipObject.ofFileLike f)).outputs) →
        Phase (done ++ f :: left) (s.process ((f :: left).map ZipObject.ofFileLike)).1
          (out ++ received (s.process ((f :: left).map ZipObject.ofFileLike)).2) := by
      rintro ⟨hnext, hsettled⟩
      rw [List.map_cons, process_of_next hnext, received_append, ← List.append_assoc,
        ← List.singleton_append, ← List.append_assoc]
      refine ih hsettled (fun harchive g hg => ?_) fun g hg => hsmall g (List.mem_cons_of_mem f hg)
      exact hdeclared (processChunk_archiveNeedsZip64 harchive) g (List.mem_cons_of_mem f hg)
    by_cases hdirectory : f.directory = true
    · exact hnext (settled_directory h hdirectory hfirst)
    · rw [Bool.not_eq_true] at hdirectory
      obtain hstream | ⟨stream, hstream⟩ := Option.eq_none_or_eq_some f.stream
      · exact hnext (settled_unwritten h hdirectory hstream hfirst)
      · have hchunk := @processChunk_stream s f stream hdirectory hstream
        rw [List.map_cons, process_of_not_next (congrArg Progress.next hchunk), hchunk,
          received_chunk]
        -- a file with a stream stays active
        refine .reading done f [] stream left rfl ⟨h.before, ?_, rfl, ?_, ?_, hdirectory, ?_, ?_,
          ?_, h.narrow, hdeclared, ?_, fun g hg => hsmall g (List.mem_cons_of_mem f hg)⟩
          (.inl h.readable)
        · rw [← h.offset]
        · rw [h.out, List.append_nil]
        · rw [← h.offset]
        · rw [FileLike.content, hstream, if_neg (Bool.eq_false_iff.mp hdirectory)]
          rfl
        · rw [hstream]
          rfl
        · rw [hstream]
          rfl
        · have hfirst : f.HasSmallChunks := hsmall f List.mem_cons_self
          rw [FileLike.HasSmallChunks, hstream] at hfirst
          exact hfirst

theorem phase_read (h : Reading done f data reader left s out) (hreadable : s.stream = .readable) :
    Phase (done ++ f :: left) (pull s).1 (out ++ received (pull s).2) := by
  have hpull : pull s = s.process (f.reading (localParts done).length data reader ::
      left.map ZipObject.ofFileLike) := by
    rw [pull, hreadable, h.active, h.waiting]
  have hchunk : s.processChunk (f.reading (localParts done).length data reader) =
      s.pump (f.reading (localParts done).length data reader) reader :=
    if_neg (Bool.eq_false_iff.mp h.file)
  rw [hpull]
  obtain ⟨chunks, fails⟩ := reader
  cases chunks with
  | cons chunk chunks =>
    rw [process_of_not_next (congrArg Progress.next hchunk), hchunk]
    have hread : received [.chunk chunk] = chunk := received_chunk chunk
    -- one more chunk has been read
    refine .reading done f (data ++ chunk) ⟨chunks, fails⟩ left rfl
      ⟨h.before, ?_, rfl, ?_, h.offset, h.file, ?_, h.stream, h.fails, h.narrow, h.undeclared,
        fun c hc => h.small c (List.mem_cons_of_mem chunk hc), h.smallLeft⟩ (.inl hreadable)
    · have happend : (({} : Crc32).update data).append chunk =
          ({} : Crc32).update (data ++ chunk) := by
        rw [Crc32.append_eq_update (h.small chunk List.mem_cons_self), Crc32.update_update]
      unfold State.pump ZipObject.append FileLike.reading
      simp only [Option.map_some, happend, List.length_append]
    · rw [h.out]
      refine (congrArg _ hread).trans ?_
      simp only [List.append_assoc]
    · rw [← h.content, List.flatten_cons, List.append_assoc]
  | nil =>
    cases fails with
    | true =>
      rw [process_of_not_next (congrArg Progress.next hchunk), hchunk]
      -- nothing is written, and the file stays active
      refine .reading done f data ⟨[], true⟩ left rfl
        ⟨h.before, rfl, rfl, ?_, h.offset, h.file, h.content, h.stream, h.fails, h.narrow,
          h.undeclared, h.small, h.smallLeft⟩ (.inr ⟨rfl, rfl⟩)
      exact (List.append_nil out).trans h.out
    | false =>
      -- the end of the stream: all of the content has been read
      have hcontent : data = f.content := (List.append_nil data).symm.trans h.content
      have hfilled : f.reading (localParts done).length data {} =
          f.filled (localParts done).length := by
        rw [hcontent]
        exact (if_neg (Bool.eq_false_iff.mp h.file)).symm
      have hwritten : f.isWritten = true := by
        rw [FileLike.isWritten, h.stream, Bool.or_true]
      have hfooter : s.processChunk (f.reading (localParts done).length data {}) =
          s.writeFooter (f.filled (localParts done).length) :=
        hchunk.trans (congrArg s.writeFooter hfilled)
      rw [process_of_next (congrArg Progress.next hfooter), received_append, ← List.append_assoc,
        hfooter, ← List.singleton_append, ← List.append_assoc]
      refine phase_process ?_ (fun harchive g hg => ?_) h.smallLeft
      · refine settled_writeFooter hwritten h.before ?_ h.offset h.narrow
          (fun harchive => h.undeclared harchive f List.mem_cons_self) hreadable
        rw [h.out, hcontent]
      · exact h.undeclared (writeFooter_archiveNeedsZip64 harchive) g (List.mem_cons_of_mem f hg)

theorem phase_enqueue (h : Phase files s out) (haccepts : s.Accepts f)
    (hsmall : f.HasSmallChunks) :
    Phase (files ++ [f]) (enqueue s f).1 (out ++ received (enqueue s f).2) := by
  -- the declared size can only make the archive one for ZIP64
  have hnarrow : ∀ {p : Prop}, (s.archiveNeedsZip64 = false → p) →
      (s.declared f).archiveNeedsZip64 = false → p :=
    fun hp harchive => hp (Bool.or_eq_false_iff.mp harchive).1
  cases h with
  | idle hsettled hactive hwaiting hclosed =>
    rw [enqueue_of_none haccepts hactive]
    have hdeclared : Settled files (s.declared f) out :=
      ⟨hsettled.before, hsettled.out, hsettled.offset, hnarrow hsettled.narrow, hsettled.readable⟩
    refine @phase_process _ _ _ [f] hdeclared (fun harchive g hg => ?_) fun g hg => ?_
    · rw [List.mem_singleton.mp hg]
      exact (Bool.or_eq_false_iff.mp harchive).2
    · rwa [List.mem_singleton.mp hg]
  | reading done g data reader left hfiles hreading hstream =>
    rw [enqueue_of_some haccepts hreading.active, hfiles, List.append_assoc, List.cons_append]
    refine .reading done g data reader (left ++ [f]) rfl
      ⟨hreading.before, hreading.active, ?_, ?_, hreading.offset, hreading.file, hreading.content,
        hreading.stream, hreading.fails, hnarrow hreading.narrow, fun harchive k hk => ?_,
        hreading.small, fun k hk => ?_⟩ hstream
    · rw [hreading.waiting, List.map_append]
      rfl
    · exact (List.append_nil out).trans hreading.out
    · rw [← List.cons_append] at hk
      obtain ⟨harchive, hdeclared⟩ := Bool.or_eq_false_iff.mp harchive
      rcases List.mem_append.mp hk with hk | hk
      · exact hreading.undeclared harchive k hk
      · rwa [List.mem_singleton.mp hk]
    · rcases List.mem_append.mp hk with hk | hk
      · exact hreading.smallLeft k hk
      · rwa [List.mem_singleton.mp hk]
  | closed _ _ _ _ _ hclosed _ => exact absurd (hclosed.symm.trans haccepts.1) Bool.noConfusion

theorem phase_close (h : Phase files s out) :
    Phase files (close s).1 (out ++ received (close s).2) := by
  have hthrew : ∀ message, received [.threw message] = [] := fun _ => rfl
  rw [close]
  split
  · rw [hthrew, List.append_nil]
    exact h
  next hopen =>
    cases h with
    | idle hsettled hactive hwaiting hclosed =>
      rw [hactive]
      exact closed_finish ⟨hsettled.before, hsettled.out, hsettled.offset, hsettled.narrow,
        hsettled.readable⟩ rfl rfl hwaiting
    | reading done g data reader left hfiles hreading hstream =>
      rw [hreading.active]
      refine .reading done g data reader left hfiles
        ⟨hreading.before, rfl, hreading.waiting, ?_, hreading.offset, hreading.file,
          hreading.content, hreading.stream, hreading.fails, hreading.narrow, hreading.undeclared,
          hreading.small, hreading.smallLeft⟩ hstream
      exact (List.append_nil out).trans hreading.out
    | closed _ _ _ _ _ hclosed _ => exact absurd hclosed hopen

theorem pull_eq_self (h : s.stream ≠ .readable ∨ s.activeZipObject = none) : pull s = (s, []) := by
  rw [pull]
  split
  next hreadable hsome =>
    rcases h with h | h
    · exact absurd hreadable h
    · exact absurd (hsome.symm.trans h) (Option.some_ne_none _)
  · rfl

theorem phase_pull (h : Phase files s out) :
    Phase files (pull s).1 (out ++ received (pull s).2) := by
  have hstill : s.stream ≠ .readable ∨ s.activeZipObject = none →
      Phase files (pull s).1 (out ++ received (pull s).2) := by
    intro hnothing
    rw [pull_eq_self hnothing]
    exact (List.append_nil out).symm ▸ h
  cases h with
  | idle _ hactive _ _ => exact hstill (.inr hactive)
  | reading done f data reader left hfiles hreading hstream =>
    obtain hreadable | ⟨herrored, -⟩ := hstream
    · exact hfiles ▸ phase_read hreading hreadable
    · exact hstill (.inl fun h => StreamState.noConfusion (herrored.symm.trans h))
  | closed _ _ _ _ _ _ hstream =>
    exact hstill (.inl fun h => StreamState.noConfusion (hstream.symm.trans h))

end Runs

/-- The files that have been enqueued. -/
def enqueued (ls : List Event) : List FileLike :=
  (zipStream.after ls).files.map ZipObject.fileLike

section Enqueued

variable {ls : List Event} {f : FileLike} {m : ℕ}

theorem enqueued_enqueue (h : (zipStream.after ls).Accepts f) :
    enqueued (ls ++ [.enqueue f]) = enqueued ls ++ [f] := by
  rw [enqueued, System.after_snoc]
  exact map_files_enqueue (fun _ _ => processChunk_file.1) (orderly_after ls) h

theorem enqueued_refused (h : ¬(zipStream.after ls).Accepts f) :
    enqueued (ls ++ [.enqueue f]) = enqueued ls := by
  obtain ⟨message, hsame⟩ := enqueue_of_not_accepts h
  rw [enqueued, System.after_snoc]
  exact congrArg (fun r => (r.1.files).map ZipObject.fileLike) hsame

theorem enqueued_close : enqueued (ls ++ [.close]) = enqueued ls := by
  rw [enqueued, System.after_snoc]
  change (close (zipStream.after ls)).1.files.map ZipObject.fileLike = _
  obtain ⟨hbefore, hactive, hwaiting⟩ := @close_files (zipStream.after ls)
  rw [State.files, hbefore, hactive, hwaiting]
  rfl

theorem enqueued_pull : enqueued (ls ++ [.pull]) = enqueued ls := by
  rw [enqueued, System.after_snoc]
  change (pull (zipStream.after ls)).1.files.map ZipObject.fileLike = _
  rw [pull]
  split
  next file _ hactive =>
    rw [map_files_process fun _ _ => processChunk_file.1, enqueued, State.files, hactive,
      ← List.map_append, List.append_assoc]
    rfl
  · rfl

theorem enqueued_pulls : enqueued (ls ++ List.replicate m .pull) = enqueued ls := by
  induction m with
  | zero => rw [List.replicate_zero, List.append_nil]
  | succ m ih => rw [List.replicate_succ', ← List.append_assoc, enqueued_pull, ih]

/-- **The stream.** In every run, what has been received is the parts of the files that are
finished, and then what there is of the active one, or the central directory. -/
theorem phase_enqueued (hsmall : ∀ f ∈ enqueued ls, f.HasSmallChunks) :
    Phase (enqueued ls) (zipStream.after ls) (received (zipStream.log ls)) := by
  induction ls using List.reverseRecOn with
  | nil =>
    have hsettled : Settled [] ({} : State) [] :=
      ⟨rfl, rfl, rfl, fun _ => ⟨fun _ hf => absurd hf List.not_mem_nil, by decide⟩, rfl⟩
    exact .idle hsettled rfl rfl rfl
  | append_singleton ls l ih =>
    rw [System.after_snoc, System.log_snoc, received_append]
    cases l with
    | enqueue f =>
      by_cases h : (zipStream.after ls).Accepts f
      · rw [enqueued_enqueue h] at hsmall ⊢
        have hold := ih fun g hg => hsmall g (List.mem_append_left _ hg)
        exact phase_enqueue hold h (hsmall f (List.mem_append_right _ (List.mem_singleton_self f)))
      · rw [enqueued_refused h] at hsmall ⊢
        obtain ⟨message, hsame⟩ := enqueue_of_not_accepts h
        have hstep : zipStream.step (zipStream.after ls) (.enqueue f) =
            (zipStream.after ls, [.threw message]) := hsame
        have hthrew : received [.threw message] = [] := rfl
        rw [hstep, hthrew, List.append_nil]
        exact ih hsmall
    | close =>
      rw [enqueued_close] at hsmall ⊢
      exact phase_close (ih hsmall)
    | pull =>
      rw [enqueued_pull] at hsmall ⊢
      exact phase_pull (ih hsmall)

end Enqueued

/-! ### Closing -/

/-- How many chunks and ends are still to be read of a file. -/
def ZipObject.pending (z : ZipObject) : ℕ :=
  (z.reader.getD (z.fileLike.stream.getD {})).chunks.length + 1

/-- How many are still to be read of all files. -/
def State.pending (s : State) : ℕ :=
  ((s.activeZipObject.toList ++ s.waiting).map ZipObject.pending).sum

section Closing

variable {s : State} {z : ZipObject} {zs : List ZipObject} {ls : List Event} {m : ℕ}

theorem processChunk_closed : (s.processChunk z).state.closed = s.closed := by
  unfold State.processChunk State.pump
  repeat' split
  all_goals rfl

theorem process_closed : (s.process zs).1.closed = s.closed := by
  induction zs generalizing s with
  | nil =>
    rw [process_nil]
    split <;> rfl
  | cons z zs ih =>
    cases hnext : (s.processChunk z).next with
    | true =>
      rw [process_of_next hnext, ih]
      exact processChunk_closed
    | false =>
      rw [process_of_not_next hnext]
      exact processChunk_closed

theorem pull_closed : (pull s).1.closed = s.closed := by
  rw [pull]
  split
  · exact process_closed
  · rfl

theorem processChunk_pump {reader : Source} (hfile : z.directory = false)
    (hreader : z.reader = some reader) : s.processChunk z = s.pump z reader := by
  rw [State.processChunk, if_neg (Bool.eq_false_iff.mp hfile), hreader]

theorem pending_processChunk (h : (s.processChunk z).next = false) :
    (s.processChunk z).file.pending ≤ z.pending := by
  cases hfile : z.directory with
  | true =>
    have hnext : (s.processChunk z).next = true := by
      rw [State.processChunk, if_pos hfile]
      rfl
    exact absurd (hnext.symm.trans h) Bool.noConfusion
  | false =>
    cases hreader : z.reader with
    | some reader =>
      rw [processChunk_pump hfile hreader] at h ⊢
      rw [State.pump] at h ⊢
      split
      next chunk chunks hchunks =>
        unfold ZipObject.pending
        rw [hreader, Option.getD_some, Option.getD_some, hchunks, List.length_cons]
        exact Nat.le_succ _
      next hchunks =>
        split
        · exact le_rfl
        next hdone =>
          rw [hchunks] at h
          rw [if_neg hdone] at h
          exact Bool.noConfusion h
    | none =>
      cases hstream : z.fileLike.stream with
      | some stream =>
        have hchunk : s.processChunk z =
            s.writeHeader { z with crc := some {}, reader := some stream } := by
          rw [State.processChunk, if_neg (Bool.eq_false_iff.mp hfile), hreader, hstream]
        rw [hchunk]
        unfold ZipObject.pending
        rw [hreader, hstream]
        exact le_rfl
      | none =>
        have hchunk : s.processChunk z = { state := s, file := z, next := true } := by
          rw [State.processChunk, if_neg (Bool.eq_false_iff.mp hfile), hreader, hstream]
        rw [hchunk] at h
        exact Bool.noConfusion h

theorem pending_process : (s.process zs).1.pending ≤ (zs.map ZipObject.pending).sum := by
  induction zs generalizing s with
  | nil =>
    rw [process_nil]
    split <;> rfl
  | cons z zs ih =>
    rw [List.map_cons, List.sum_cons]
    cases hnext : (s.processChunk z).next with
    | true =>
      rw [process_of_next hnext]
      have hrest := @ih (s.processChunk z).finished
      exact hrest.trans (Nat.le_add_left ..)
    | false =>
      rw [process_of_not_next hnext]
      have hfile := pending_processChunk hnext
      exact Nat.add_le_add_right hfile _

theorem pending_pull {reader : Source} (hstream : s.stream = .readable)
    (hactive : s.activeZipObject = some z) (hfile : z.directory = false)
    (hreader : z.reader = some reader) (hfails : reader.fails = false) :
    (pull s).1.pending < s.pending := by
  have hpending : s.pending = z.pending + (s.waiting.map ZipObject.pending).sum := by
    rw [State.pending]
    rw [hactive, Option.toList_some, List.singleton_append, List.map_cons, List.sum_cons]
  have hpull : pull s = s.process (z :: s.waiting) := by
    rw [pull, hstream, hactive]
  have hpump := @processChunk_pump s z reader hfile hreader
  rw [hpull, hpending]
  obtain ⟨chunks, fails⟩ := reader
  obtain rfl : fails = false := hfails
  cases chunks with
  | cons chunk chunks =>
    rw [process_of_not_next (congrArg Progress.next hpump), hpump]
    have hless : ZipObject.pending { z.append chunk with reader := some ⟨chunks, false⟩ } <
        z.pending := by
      unfold ZipObject.pending
      rw [hreader, Option.getD_some, Option.getD_some, List.length_cons]
      exact Nat.lt_succ_self _
    exact Nat.add_lt_add_right hless _
  | nil =>
    rw [process_of_next (congrArg Progress.next hpump)]
    have hrest := @pending_process (s.processChunk z).finished s.waiting
    have hpos : 0 < z.pending := Nat.succ_pos _
    dsimp only
    omega

theorem after_pulls (h : (zipStream.after ls).stream = .closed) :
    zipStream.after (ls ++ List.replicate m .pull) = zipStream.after ls := by
  induction m with
  | zero => rw [List.replicate_zero, List.append_nil]
  | succ m ih =>
    rw [List.replicate_succ', ← List.append_assoc, System.after_snoc, ih]
    have hstill : pull (zipStream.after ls) = (zipStream.after ls, []) :=
      pull_eq_self (.inl fun hr => StreamState.noConfusion (h.symm.trans hr))
    change (pull (zipStream.after ls)).1 = zipStream.after ls
    rw [hstill]

/-- **Closing.** Once the archive is closed by the zip writer, and if no file fails, the stream
ends after finitely many pulls. -/
theorem exists_closed (hclosed : (zipStream.after ls).closed)
    (hfails : ∀ f ∈ enqueued ls, (f.stream.getD {}).fails = false)
    (hsmall : ∀ f ∈ enqueued ls, f.HasSmallChunks) :
    ∃ n, ∀ m ≥ n, (zipStream.after (ls ++ List.replicate m .pull)).stream = .closed := by
  obtain ⟨k, hk⟩ : ∃ k, (zipStream.after ls).pending = k := ⟨_, rfl⟩
  induction k using Nat.strong_induction_on generalizing ls with
  | _ k ih =>
    cases phase_enqueued hsmall with
    | idle _ _ _ hopen => exact absurd (hopen.symm.trans hclosed) Bool.noConfusion
    | closed _ _ _ _ _ _ hstream =>
      refine ⟨0, fun m _ => ?_⟩
      rw [after_pulls hstream]
      exact hstream
    | reading done f data reader left hfiles hreading hstream =>
      have hgood : reader.fails = false := by
        rw [hreading.fails]
        exact hfails f (hfiles ▸ List.mem_append_right _ List.mem_cons_self)
      have hreadable : (zipStream.after ls).stream = .readable := by
        obtain hreadable | ⟨-, rfl⟩ := hstream
        · exact hreadable
        · exact Bool.noConfusion hgood
      have hless : (zipStream.after (ls ++ [.pull])).pending < k := by
        rw [← hk, System.after_snoc]
        exact pending_pull hreadable hreading.active hreading.file rfl hgood
      have hclosed' : (zipStream.after (ls ++ [.pull])).closed := by
        rw [System.after_snoc]
        exact pull_closed.trans hclosed
      have henqueued : enqueued (ls ++ [.pull]) = enqueued ls := enqueued_pull
      obtain ⟨n, hn⟩ := ih _ hless hclosed' (by rwa [henqueued]) (by rwa [henqueued]) rfl
      refine ⟨n + 1, fun m hm => ?_⟩
      obtain ⟨m, rfl⟩ : ∃ m', m = m' + 1 := ⟨m - 1, by omega⟩
      rw [List.replicate_succ, ← List.singleton_append, ← List.append_assoc]
      exact hn m (by omega)

end Closing

end Rapidly.FileSharing.ZipStream
