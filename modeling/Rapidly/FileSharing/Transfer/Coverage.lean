import Mathlib.Data.Nat.Cast.Order.Field
import Rapidly.Binary.Intervals
import Rapidly.FileSharing.Downloader.Accounting
import Rapidly.FileSharing.Uploader.Prefetch
import Rapidly.FileSharing.Uploader.SendOrder

/-!
# The chunks of a transfer cover the file

A send loop that nothing interrupts cuts the rest of its file, from the offset it was asked
for, into chunks. The source computes the end of a chunk in one place, prefetches the slice
after it in another and decides in a third whether it is the last; the receiver bounds what it
has got by a count of chunks that it derives from the size of the file.

* `Piece` is a chunk with what it carries, and `Covers` is what can be asked of the pieces sent:
  they are consecutive parts of the file, the last one is flagged final and no other, and the
  checks of the receiver let all of them pass (`Accepts`).
* `Coherent` is the invariant of the loop: which of its buffers may be filled at which of its
  suspension points, and with what. `Wakes` has all that can happen to them.
* `sendLoop_covers` puts the two together. A chunk takes at most seven wakes, so a loop that is
  woken often enough comes to its end.
-/

namespace Rapidly.FileSharing

/-- What AES-GCM promises: decryption undoes encryption, and a ciphertext is longer than its
plaintext by the tag. -/
structure WebCrypto.Authenticates (W : WebCrypto) : Prop where
  decrypt_encrypt : ∀ key iv plaintext,
    W.decrypt key iv (W.encrypt key iv plaintext) = some plaintext
  length_encrypt : ∀ key iv plaintext,
    (W.encrypt key iv plaintext).length = plaintext.length + WebCrypto.gcmTagLength

theorem WebCrypto.Authenticates.decryptChunk_encryptChunk {W : WebCrypto} (h : W.Authenticates)
    {iv : Bytes} (hiv : iv.length = WebCrypto.ivLength) (key plaintext : Bytes) :
    W.decryptChunk key (W.encryptChunk key iv plaintext) = some plaintext := by
  have hlength := h.length_encrypt key iv plaintext
  rw [decryptChunk, encryptChunk, if_neg, ← hiv, List.take_left, List.drop_left]
  · exact h.decrypt_encrypt key iv plaintext
  · rw [List.length_append, hlength, hiv]
    omega

namespace Transfer

open Binary Transition Uploader
open Downloader (Chunk Delivery Download Link encryptionOverheadPerChunk le_maxReceived
  maxChunkSize_pos maxIncomingChunkSize plaintextOf secretLink taggingCrypto)

variable {W : WebCrypto} {share : Share} {link : Link}

/-! ### Chunks and what they carry -/

/-- The chunk that an output puts on the channel. -/
def chunkOf : Output → Option Chunk
  | .sent (.chunk fileName fileIndex offset bytes final) =>
    some { fileName, fileIndex, offset, bytes, final }
  | _ => none

/-- The chunks of a log. -/
def chunksSent (os : List Output) : List Chunk := os.filterMap chunkOf

/-- The link has the key and the salt that the share encrypts with, if it does. -/
structure CanRead (W : WebCrypto) (share : Share) (link : Link) : Prop where
  authenticates : share.encryptionKey.isSome → W.Authenticates
  sameKey : ∀ key ∈ share.encryptionKey,
    link.encryptionKey = key ∧ link.hkdfSalt = share.hkdfSalt

/-- A chunk, where in its file it starts, and its plaintext. -/
structure Piece where
  chunk : Chunk
  start : ℕ
  plaintext : Bytes

/-- The part of the file that a piece is. -/
def Piece.interval (p : Piece) : ℕ × ℕ := (p.start, p.start + p.plaintext.length)

/-- The piece is the part of the file at its offset, and a downloader can read it. -/
structure Piece.PartOf (W : WebCrypto) (link : Link) (isEncrypted : Bool) (fileName : String)
    (content : Bytes) (p : Piece) : Prop where
  fileName : p.chunk.fileName = fileName
  offset : p.chunk.offset = p.start
  plaintext : plaintextOf W link isEncrypted p.chunk = some p.plaintext
  slice : p.plaintext = slice content p.start (p.start + p.plaintext.length)
  small : p.plaintext.length ≤ maxChunkSize
  overhead : p.chunk.bytes.length ≤ p.plaintext.length + encryptionOverheadPerChunk

/-- The download once a piece is decrypted and written. -/
def Piece.deliver (p : Piece) (d : Download) : Download :=
  Delivery.written
    { download := d.count p.chunk, chunk := p.chunk, plaintext := p.plaintext }

/-- The checks of the downloader let every chunk pass. -/
def Accepts : Download → List Piece → Prop
  | _, [] => True
  | d, p :: ps => d.chunkFailure p.chunk = none ∧ Accepts (p.deliver d) ps

/-- The download waits for a file of a size at an offset, and has counted no more for what is
before than that and the overhead of its chunks. -/
structure Expects (d : Download) (fileName : String) (offset size : ℕ) : Prop where
  nextOffset : d.nextOffset fileName = offset
  received : (d.totalBytesReceived fileName).getD 0 ≤
    offset + (offset / maxChunkSize : ℕ) * (encryptionOverheadPerChunk : ℚ)
  size : ∀ f ∈ d.fileInfo fileName, f.size = size

/-- A download that starts or resumes in a new session has counted what is before its offset. -/
theorem Expects.of_received_eq {d : Download} {fileName : String} {offset size : ℕ}
    (hnext : d.nextOffset fileName = offset)
    (hreceived : (d.totalBytesReceived fileName).getD 0 = offset)
    (hsize : ∀ f ∈ d.fileInfo fileName, f.size = size) : Expects d fileName offset size := by
  refine ⟨hnext, ?_, hsize⟩
  rw [hreceived]
  exact le_add_of_nonneg_right (by positivity)

/-- The pieces are a file from an offset on, as far as they go. -/
structure Covers (W : WebCrypto) (link : Link) (isEncrypted : Bool) (fileName : String)
    (content : Bytes) (offset : ℕ) (d : Download) (pieces : List Piece) : Prop where
  partOf : ∀ p ∈ pieces, p.PartOf W link isEncrypted fileName content
  consecutive : Consecutive offset (pieces.map Piece.interval)
  unfinished : ∀ p ∈ pieces.dropLast, p.chunk.final = false
  accepts : Accepts d pieces

/-- The pieces come to the end of the file: the last one is flagged final, and together they
are all that is left of it. -/
structure Complete (content : Bytes) (offset : ℕ) (pieces : List Piece) : Prop where
  endOf : endOf offset (pieces.map Piece.interval) = content.length
  final : ∃ p, pieces.getLast? = some p ∧ p.chunk.final = true
  content : pieces.flatMap Piece.plaintext = content.drop offset

/-! ### The receiver's checks -/

/-- The size of a file leaves room for as many chunks as it has whole ones and one more. -/
theorem le_maxReceived_of_le_div {size k : ℕ} (hk : k ≤ size / maxChunkSize + 1) :
    (size : ℚ) + k * (encryptionOverheadPerChunk : ℚ) ≤ Download.maxReceived size := by
  have hdiv := @Nat.cast_div_le ℚ _ _ _ size maxChunkSize
  have hcast : (k : ℚ) ≤ ((size / maxChunkSize : ℕ) : ℚ) + 1 := by exact_mod_cast hk
  exact le_maxReceived (by linarith)

/-- **The checks.** The receiver lets pieces pass that follow each other within the file, as
long as they are not more than the file's size allows for. -/
theorem accepts_of_consecutive {isEncrypted : Bool} {fileName : String} {content : Bytes}
    {size k start : ℕ} {pieces : List Piece} {d : Download}
    (hpieces : ∀ p ∈ pieces, p.PartOf W link isEncrypted fileName content)
    (hconsecutive : Consecutive start (pieces.map Piece.interval))
    (hend : endOf start (pieces.map Piece.interval) ≤ size)
    (hcount : k + pieces.length ≤ size / maxChunkSize + 1)
    (hnext : d.nextOffset fileName = start)
    (hreceived : (d.totalBytesReceived fileName).getD 0 ≤
      start + k * (encryptionOverheadPerChunk : ℚ))
    (hsize : ∀ f ∈ d.fileInfo fileName, f.size = size) : Accepts d pieces := by
  induction pieces generalizing start k d with
  | nil => exact trivial
  | cons p pieces ih =>
    obtain ⟨hname, hoffset, -, -, hsmall, hoverhead⟩ := hpieces p List.mem_cons_self
    obtain ⟨hstart, -, hrest⟩ := hconsecutive
    have hstart : p.start = start := hstart
    rw [List.length_cons] at hcount
    -- what was received, with this chunk
    have hbytes : (p.chunk.bytes.length : ℚ) ≤
        p.plaintext.length + (encryptionOverheadPerChunk : ℚ) := by exact_mod_cast hoverhead
    have htotal : d.received p.chunk ≤
        (p.interval.2 : ℕ) + ((k + 1 : ℕ) : ℚ) * encryptionOverheadPerChunk := by
      rw [Download.received, hname, Piece.interval, hstart]
      push_cast
      linarith
    refine ⟨?_, ih (fun q hq => hpieces q (List.mem_cons_of_mem p hq)) hrest hend
      (k := k + 1) (by omega) ?_ ?_ hsize⟩
    · rw [Download.chunkFailure, if_neg, if_neg, if_neg]
      · rw [hname, Option.any_eq_true]
        rintro ⟨f, hf, hmore⟩
        have hinterval : (p.interval.2 : ℚ) ≤ size := by
          exact_mod_cast hrest.le_endOf.trans hend
        have hroom := @le_maxReceived_of_le_div size (k + 1) (by omega)
        rw [decide_eq_true_iff, hsize f hf] at hmore
        linarith
      · rw [hname, hnext, hoffset, hstart]
        exact not_not.mpr rfl
      · have hmax : maxIncomingChunkSize =
            maxChunkSize + encryptionOverheadPerChunk + 1024 := rfl
        omega
    · rw [Piece.deliver, Downloader.nextOffset_written, if_pos hname.symm, hoffset, Piece.interval]
      push_cast
      rfl
    · have hcounted : (p.deliver d).totalBytesReceived fileName = some (d.received p.chunk) := by
        rw [← hname]
        exact Function.update_self ..
      rw [hcounted]
      exact htotal

/-! ### A transfer -/

/-- A connection from the moment it takes a `Start` up. -/
def sending (W : WebCrypto) (share : Share) (s : Connection) (fileName : String) (offset : ℕ) :
    System Connection Event Output where
  init := (step W share s (.received (.start fileName offset))).1
  step := step W share

/-- The event is a `Start` that is taken up. -/
def TakesUpStart (share : Share) (s : Connection) : Event → Prop
  | .received (.start fileName offset) =>
    StartAdmissible share s fileName offset ∧ (s.status = .ready ∨ s.status = .paused)
  | _ => False

instance (s : Connection) : ∀ event, Decidable (TakesUpStart share s event) := by
  rintro ⟨⟩
  case received message =>
    revert message
    rintro ⟨⟩
    case start =>
      dsimp only [TakesUpStart]
      infer_instance
    all_goals exact isFalse id
  all_goals exact isFalse id

/-- Nothing interrupts a send loop in this step: the connection is open after it and not
paused, and no other `Start` is taken up. -/
def Uninterrupted (W : WebCrypto) (share : Share) : System.Condition Connection Event :=
  fun _ s event =>
    (step W share s event).1.isOpen ∧ (step W share s event).1.sendingPaused = false ∧
      ¬TakesUpStart share s event

instance (past : List Event) (s : Connection) (event : Event) :
    Decidable (Uninterrupted W share past s event) := inferInstanceAs (Decidable (_ ∧ _ ∧ _))

/-- A chunk that is encrypted in this step gets a vector of the right length. -/
def DrawsVectors : System.Condition Connection Event :=
  fun _ s event =>
    match event with
    | .resumed i settlement =>
      (s.tasks[i]?.any fun
        | .sendLoop _ point => point.isEncrypting
        | _ => false) → settlement.iv.length = WebCrypto.ivLength
    | _ => True

instance (past : List Event) (s : Connection) :
    ∀ event, Decidable (DrawsVectors past s event) := by
  rintro ⟨⟩
  case resumed =>
    rw [DrawsVectors]
    infer_instance
  all_goals exact isTrue trivial

/-- The step wakes a send loop that still owes a chunk. -/
def WakesLoop : System.Condition Connection Event :=
  fun _ s event => (event.wakes s).any fun task => task.pendingChunk.isSome

instance (past : List Event) (s : Connection) (event : Event) :
    Decidable (WakesLoop past s event) := inferInstanceAs (Decidable (_ = true))

/-! ### Computations that owe a chunk -/

/-- The suspended computations that owe a chunk. -/
def owing (s : Connection) : List Task := s.tasks.filter fun task => task.pendingChunk.isSome

theorem owing_eq_nil_iff {s : Connection} : owing s = [] ↔ s.pending = [] := by
  rw [owing, Connection.pending, List.filter_eq_nil_iff, List.filterMap_eq_nil_iff]
  refine forall₂_congr fun task _ => ?_
  rw [Bool.not_eq_true, Option.isSome_eq_false_iff, Option.isNone_iff_eq_none]

theorem owing_idle {s : Connection} {r : Connection × List Output} (h : Idle s r) :
    owing r.1 = owing s := by
  obtain ⟨added, hadded, hloops⟩ := h.tasks
  have hnone : added.filter (fun task => task.pendingChunk.isSome) = [] := by
    rw [List.filter_eq_nil_iff]
    intro task htask
    have hloop := hloops task htask
    cases task with
    | sendLoop loop point => cases hloop
    | _ => exact Bool.false_ne_true
  rw [owing, hadded, List.filter_append, hnone, List.append_nil]
  rfl

theorem owing_spawn (s : Connection) (task : Task) :
    owing (s.spawn task) = owing s ++ if task.pendingChunk.isSome then [task] else [] := by
  rw [owing, Connection.spawn_tasks, List.filter_append, List.filter_cons, List.filter_nil]
  rfl

theorem owing_eraseIdx {s : Connection} {i : ℕ} {task : Task} (h : s.tasks[i]? = some task) :
    (owing s).Perm ((if task.pendingChunk.isSome then [task] else []) ++
      owing { s with tasks := s.tasks.eraseIdx i }) := by
  obtain ⟨hi, rfl⟩ := List.getElem?_eq_some_iff.mp h
  have hperm := (List.getElem_cons_eraseIdx_perm hi).symm.filter
    fun task => task.pendingChunk.isSome
  rw [List.filter_cons] at hperm
  split at hperm
  next howes => rwa [if_pos howes]
  next howes => rwa [if_neg howes]

/-! ### What was sent so far -/

section Run

variable {fileName : String} {file : UploadedFile} {offset : ℕ}

/-- The loop that a `Start` schedules. -/
def startLoop (W : WebCrypto) (share : Share) (fileName : String) (file : UploadedFile)
    (offset : ℕ) : SendLoop where
  fileName := fileName
  fileIndex := share.files.findIdx fun f => getFileName f = fileName
  file := file
  offset := offset
  fileKeyPromise := share.encryptionKey.map fun key =>
    W.deriveFileKey key fileName (share.files.findIdx fun f => getFileName f = fileName : ℕ)
      (share.hkdfSalt.getD [])

/-- The loop is the one that a `Start` schedules, further on. -/
structure Continues (W : WebCrypto) (share : Share) (fileName : String) (file : UploadedFile)
    (loop : SendLoop) : Prop where
  fileName : loop.fileName = fileName
  file : loop.file = file
  fileKeyPromise : loop.fileKeyPromise = share.encryptionKey.map fun key =>
    W.deriveFileKey key loop.fileName loop.fileIndex (share.hkdfSalt.getD [])

theorem continues_startLoop (W : WebCrypto) (share : Share) (fileName : String)
    (file : UploadedFile) (offset : ℕ) :
    Continues W share fileName file (startLoop W share fileName file offset) :=
  ⟨rfl, rfl, rfl⟩

theorem Continues.of_sameChunk {loop loop' : SendLoop} (h : Continues W share fileName file loop)
    (hsame : loop.SameChunk loop') : Continues W share fileName file loop' := by
  obtain ⟨buffer, promise, rfl⟩ := hsame
  exact ⟨h.fileName, h.file, h.fileKeyPromise⟩

theorem Continues.of_suspends {iv : Bytes} {loop loop' : SendLoop} {point point' : SendPoint}
    (h : Continues W share fileName file loop) (hnext : Suspends W iv loop point loop' point') :
    Continues W share fileName file loop' := by
  cases hnext with
  | reading => exact h
  | awaitingKey hread => exact h.of_sameChunk hread.sameChunk.1
  | encrypting => exact h
  | prefetching hchunk => exact h.of_sameChunk hchunk.sameChunk.1
  | buffering hsend => exact h.of_sameChunk hsend.sameChunk.1
  | scheduled => exact ⟨h.fileName, h.file, h.fileKeyPromise⟩

/-- How many chunks it takes. -/
def chunkCount (file : UploadedFile) (offset : ℕ) : ℕ := cutCount maxChunkSize offset file.size

/-- The chunks of a log are the first ones of the file from an offset on. -/
structure Sends (W : WebCrypto) (share : Share) (link : Link) (fileName : String)
    (file : UploadedFile) (offset : ℕ) (pieces : List Piece) (os : List Output) : Prop where
  chunks : pieces.map Piece.chunk = chunksSent os
  partOf : ∀ p ∈ pieces,
    p.PartOf W link share.encryptionKey.isSome fileName file.content
  intervals : pieces.map Piece.interval = cuts maxChunkSize offset file.size pieces.length
  finals : pieces.map (fun p => p.chunk.final) =
    (List.range pieces.length).map fun i => decide (chunkCount file offset ≤ i + 1)

/-- What the connection still owes after `k` chunks and a number of wakes. -/
inductive Progress (W : WebCrypto) (share : Share) (fileName : String) (file : UploadedFile)
    (offset k wakes : ℕ) (s : Connection) : Prop
  | complete (howing : owing s = []) (hk : k = chunkCount file offset)
  | owes (loop : SendLoop) (point : SendPoint) (howing : owing s = [.sendLoop loop point])
      (hcontinues : Continues W share fileName file loop) (hcoherent : loop.Coherent W point)
      (hdue : (Task.sendLoop loop point).pendingChunk =
        some (fileName, offset + k * maxChunkSize))
      (hk : k < chunkCount file offset) (hwakes : wakes + point.wakesLeft ≤ 7 * k + 6)

variable {os : List Output} {pieces : List Piece} {loop : SendLoop} {k wakes : ℕ} {s : Connection}

theorem chunksSent_quiet (h : ∀ o ∈ os, o.isTransfer = false) : chunksSent os = [] := by
  rw [chunksSent, List.filterMap_eq_nil_iff]
  intro o ho
  have hquiet := h o ho
  cases o with
  | sent message => cases message <;> first | rfl | cases hquiet
  | _ => rfl

theorem chunksSent_append (os os' : List Output) :
    chunksSent (os ++ os') = chunksSent os ++ chunksSent os' := List.filterMap_append

theorem Sends.of_quiet {os os' : List Output}
    (h : Sends W share link fileName file offset pieces os)
    (hquiet : ∀ o ∈ os', o.isTransfer = false) :
    Sends W share link fileName file offset pieces (os ++ os') := by
  refine { h with chunks := ?_ }
  rw [chunksSent_append, chunksSent_quiet hquiet, List.append_nil]
  exact h.chunks

theorem length_plaintext (hle : loop.offset ≤ loop.file.size) :
    loop.plaintext.length = loop.stop - loop.offset ∧ loop.offset ≤ loop.stop := by
  have hstop : loop.stop = min loop.file.size (loop.offset + maxChunkSize) := rfl
  have hsize : loop.file.size = loop.file.content.length := rfl
  refine ⟨?_, by omega⟩
  rw [SendLoop.plaintext, slice, List.length_take, List.length_drop]
  omega

theorem final_eq_decide (hfile : loop.file = file)
    (hoffset : loop.offset = offset + k * maxChunkSize) :
    loop.final = decide (chunkCount file offset ≤ k + 1) := by
  refine decide_eq_decide.mpr ?_
  rw [ge_iff_le, hoffset, Nat.add_assoc, ← Nat.succ_mul, hfile]
  exact le_iff_cutCount_le maxChunkSize_pos

theorem plaintextOf_request (hlink : CanRead W share link)
    (hcontinues : Continues W share fileName file loop) {chunkBytes : Bytes}
    (hencodes : loop.Encodes W chunkBytes) :
    plaintextOf W link share.encryptionKey.isSome
        { fileName := loop.fileName, fileIndex := some loop.fileIndex, offset := loop.offset
          bytes := chunkBytes, final := loop.final } = some loop.plaintext ∧
      chunkBytes.length ≤ loop.plaintext.length + encryptionOverheadPerChunk := by
  have hpromise := hcontinues.fileKeyPromise
  rw [SendLoop.Encodes, hpromise] at hencodes
  cases hkey : share.encryptionKey with
  | none =>
    rw [hkey] at hencodes
    obtain rfl : chunkBytes = _ := hencodes
    exact ⟨rfl, Nat.le_add_right _ _⟩
  | some key =>
    have hauth := hlink.authenticates (by rw [hkey]; rfl)
    rw [hkey] at hencodes
    obtain ⟨fileKey, iv, hderive, hiv, rfl⟩ := hencodes
    obtain ⟨hlinkKey, hsalt⟩ := hlink.sameKey key hkey
    constructor
    · have hfileKey : W.deriveFileKey key loop.fileName loop.fileIndex (share.hkdfSalt.getD []) =
          some fileKey := hderive
      rw [plaintextOf, hlinkKey, hsalt]
      simp only [Option.isSome_some, if_true, Option.getD_some, hfileKey]
      exact hauth.decryptChunk_encryptChunk hiv fileKey _
    · rw [WebCrypto.encryptChunk, List.length_append, hauth.length_encrypt, hiv,
        encryptionOverheadPerChunk]
      omega

/-! ### One step of a transfer -/

/-- The piece that a loop sends. -/
def pieceOf (loop : SendLoop) (chunkBytes : Bytes) : Piece where
  chunk :=
    { fileName := loop.fileName, fileIndex := some loop.fileIndex, offset := loop.offset
      bytes := chunkBytes, final := loop.final }
  start := loop.offset
  plaintext := loop.plaintext

theorem Sends.transmit (hlink : CanRead W share link) (hle : offset ≤ file.size)
    (h : Sends W share link fileName file offset pieces os)
    (hcontinues : Continues W share fileName file loop) {chunkBytes : Bytes}
    (hencodes : loop.Encodes W chunkBytes)
    (hoffset : loop.offset = offset + pieces.length * maxChunkSize)
    (hk : pieces.length < chunkCount file offset) (s : Connection) :
    Sends W share link fileName file offset (pieces ++ [pieceOf loop chunkBytes])
      (os ++ (transmit loop chunkBytes s).2) := by
  obtain rfl := hcontinues.file
  have hinside : loop.offset ≤ loop.file.size := by
    rw [hoffset]
    exact cut_fst_le maxChunkSize_pos hle hk
  obtain ⟨hlength, hstop⟩ := length_plaintext hinside
  have hend : loop.offset + loop.plaintext.length = loop.stop := by omega
  obtain ⟨hplaintext, hoverhead⟩ := plaintextOf_request hlink hcontinues hencodes
  refine ⟨?_, fun p hp => ?_, ?_, ?_⟩
  · rw [List.map_append, h.chunks, chunksSent_append]
    rfl
  · rcases List.mem_append.mp hp with hp | hp
    · exact h.partOf p hp
    · rw [List.mem_singleton.mp hp]
      refine ⟨hcontinues.fileName, rfl, hplaintext, ?_, ?_, hoverhead⟩
      · rw [pieceOf, hend]
        rfl
      · have hmin : loop.stop = min loop.file.size (loop.offset + maxChunkSize) := rfl
        have hsmall : loop.plaintext.length ≤ maxChunkSize := by omega
        exact hsmall
  · rw [List.map_append, h.intervals, List.length_append, List.length_singleton, cuts_succ]
    have hinterval : (pieceOf loop chunkBytes).interval =
        cut maxChunkSize offset loop.file.size pieces.length := by
      rw [Piece.interval, pieceOf, hend, cut, hoffset]
      have hnext : loop.stop =
          min loop.file.size (offset + (pieces.length + 1) * maxChunkSize) := by
        rw [SendLoop.stop, hoffset, Nat.add_assoc, ← Nat.succ_mul]
      rw [hnext]
    rw [List.map_singleton, hinterval]
  · rw [List.map_append, h.finals, List.length_append, List.length_singleton, List.range_succ,
      List.map_append, List.map_singleton, List.map_singleton]
    rw [pieceOf, final_eq_decide rfl hoffset]

theorem Progress.of_owes (h : Progress W share fileName file offset k wakes s) {i : ℕ} {task : Task}
    (htask : s.tasks[i]? = some task) :
    (task.pendingChunk = none ∧
      owing { s with tasks := s.tasks.eraseIdx i : Connection } = owing s) ∨
    ∃ loop point, task = .sendLoop loop point ∧
      owing { s with tasks := s.tasks.eraseIdx i : Connection } = [] ∧
      Continues W share fileName file loop ∧ loop.Coherent W point ∧
      (Task.sendLoop loop point).pendingChunk = some (fileName, offset + k * maxChunkSize) ∧
      k < chunkCount file offset ∧ wakes + point.wakesLeft ≤ 7 * k + 6 := by
  have hperm := owing_eraseIdx htask
  by_cases howes : task.pendingChunk.isSome
  · rw [if_pos howes] at hperm
    cases h with
    | complete howing hk =>
      rw [howing] at hperm
      exact absurd hperm.nil_eq (List.cons_ne_nil _ _).symm
    | owes loop point howing hcontinues hcoherent hdue hk hwakes =>
      rw [howing] at hperm
      have hsingle := List.perm_singleton.mp hperm.symm
      obtain ⟨rfl, hrest⟩ := List.cons.inj hsingle
      exact .inr ⟨loop, point, rfl, hrest, hcontinues, hcoherent, hdue, hk, hwakes⟩
  · rw [if_neg howes, List.nil_append] at hperm
    refine .inl ⟨by simpa using howes, ?_⟩
    cases h with
    | complete howing => rw [howing] at hperm ⊢; exact hperm.nil_eq.symm
    | owes loop point howing => rw [howing] at hperm ⊢; exact List.perm_singleton.mp hperm.symm

theorem Progress.congr {s s' : Connection} (h : Progress W share fileName file offset k wakes s)
    (howing : owing s' = owing s) : Progress W share fileName file offset k wakes s' := by
  cases h with
  | complete hnil hk => exact .complete (howing.trans hnil) hk
  | owes loop point hone hcontinues hcoherent hdue hk hwakes =>
    exact .owes loop point (howing.trans hone) hcontinues hcoherent hdue hk hwakes

theorem idle_of_pendingChunk_eq_none (W : WebCrypto) (share : Share) {task : Task}
    (h : task.pendingChunk = none) (settlement : Settlement) (s : Connection) :
    Idle s (resumeTask W share task settlement s) := by
  cases task with
  | sendLoop loop point =>
    -- it can only be a loop whose final chunk is out
    have hsent : point = .sent ∧ loop.final := by
      cases point with
      | sent =>
        refine ⟨rfl, ?_⟩
        by_contra hfinal
        simp [Task.pendingChunk, hfinal] at h
      | _ => cases h
    obtain ⟨rfl, hfinal⟩ := hsent
    cases resumeSendLoop_cases W share loop .sent settlement s with
    | stops hidle => exact hidle
    | suspends loop' point' hnext =>
      have hpending := hnext.pendingChunk_eq
      rw [h] at hpending
      cases hnext with
      | awaitingKey hread => exact absurd rfl hread.sameChunk.2
      | prefetching hchunk => exact absurd rfl hchunk.sameChunk.2
      | buffering hsend => exact absurd rfl hsend.sameChunk.2
      | scheduled hnot => exact absurd hfinal (by rw [hnot]; exact Bool.false_ne_true)
    | sends loop' chunkBytes hsend =>
      rcases hsend with hsend | ⟨hpoint, -⟩
      · exact absurd rfl hsend.sameChunk.2
      · exact SendPoint.noConfusion hpoint
  | _ => exact idle_resumeTask rfl settlement s

theorem wake_progress (hlink : CanRead W share link) (hle : offset ≤ file.size)
    (h : Sends W share link fileName file offset pieces os)
    {point : SendPoint} (hcontinues : Continues W share fileName file loop)
    (hcoherent : loop.Coherent W point)
    (hdue : (Task.sendLoop loop point).pendingChunk =
      some (fileName, offset + pieces.length * maxChunkSize))
    (hk : pieces.length < chunkCount file offset)
    (hwakes : wakes + point.wakesLeft ≤ 7 * pieces.length + 6)
    (hs : owing s = []) {iv : Bytes} (hiv : point.isEncrypting → iv.length = WebCrypto.ivLength)
    {r : Connection × List Output} (hr : Wakes W iv loop point s r)
    (hopen : r.1.isOpen) (hpaused : r.1.sendingPaused = false) :
    ∃ pieces', Sends W share link fileName file offset pieces' (os ++ r.2) ∧
      Progress W share fileName file offset pieces'.length (wakes + 1) r.1 := by
  cases hr with
  | stops hidle hwhy =>
    -- a loop that is neither paused nor cut off stops only behind its final chunk
    rcases hwhy with ⟨rfl, hfinal⟩ | hclosed | hpaused'
    · simp [Task.pendingChunk, hfinal] at hdue
    · exact absurd hopen (by rw [hclosed]; exact Bool.false_ne_true)
    · exact absurd hpaused' (by rw [hpaused]; exact Bool.false_ne_true)
  | suspends loop' point' hnext hr =>
    have hpending := hnext.pendingChunk_eq
    rw [hdue] at hpending
    have hlt := hnext.wakesLeft_lt
    refine ⟨pieces, ?_, ?_⟩
    · rw [hr]
      exact h.of_quiet fun _ ho => absurd ho List.not_mem_nil
    · rw [hr]
      refine .owes loop' point' ?_ ?_ (hnext.coherent hcoherent hiv) hpending hk (by omega)
      · rw [owing_spawn, hs, hpending]
        rfl
      · exact hcontinues.of_suspends hnext
  | sends loop' chunkBytes hsend hr =>
    have hchunk : loop.SameChunk loop' ∧ point ≠ .sent ∧ loop'.Encodes W chunkBytes ∧
        loop'.Prefetched := by
      rcases hsend with hsend | ⟨rfl, rfl⟩
      · obtain ⟨hsame, hpoint⟩ := hsend.sameChunk
        obtain ⟨hencodes, hprefetched⟩ := hsend.encodes hcoherent hiv
        exact ⟨hsame, hpoint, hencodes, hprefetched⟩
      · exact ⟨⟨_, _, rfl⟩, fun h => SendPoint.noConfusion h, hcoherent.1, hcoherent.2⟩
    obtain ⟨hsame, hpoint, hencodes, hprefetched⟩ := hchunk
    have hcontinues' := hcontinues.of_sameChunk hsame
    have hoffset : loop'.offset = offset + pieces.length * maxChunkSize := by
      rw [pendingChunk_of_ne_sent loop hpoint] at hdue
      obtain ⟨buffer, promise, rfl⟩ := hsame
      exact (Prod.mk.inj (Option.some.inj hdue)).2
    refine ⟨pieces ++ [pieceOf loop' chunkBytes], ?_, ?_⟩
    · rw [hr]
      exact h.transmit hlink hle hcontinues' hencodes hoffset hk s
    · rw [hr, List.length_append, List.length_singleton]
      have howing : owing (transmit loop' chunkBytes s).1 =
          if (Task.sendLoop loop' .sent).pendingChunk.isSome then [.sendLoop loop' .sent]
          else [] := by
        rw [transmit, owing_spawn, hs, List.nil_append]
      have hpos := point.wakesLeft_pos
      have hlast := final_eq_decide hcontinues'.file hoffset
      by_cases hfinal : loop'.final = true
      · refine .complete ?_ ?_
        · rw [howing]
          simp [Task.pendingChunk, hfinal]
        · rw [hlast, decide_eq_true_iff] at hfinal
          omega
      · have hnot : loop'.final = false := Bool.eq_false_of_not_eq_true hfinal
        have hnext : (Task.sendLoop loop' .sent).pendingChunk =
            some (fileName, offset + (pieces.length + 1) * maxChunkSize) := by
          rw [Nat.succ_mul, ← Nat.add_assoc, ← hoffset, ← loop'.stop_of_not_final hnot,
            ← hcontinues'.fileName]
          simp [Task.pendingChunk, hnot]
        refine .owes loop' .sent ?_ hcontinues' hprefetched hnext ?_ ?_
        · rw [howing, hnext]
          rfl
        · rw [hlast, decide_eq_true_iff] at hfinal
          omega
        · dsimp only [SendPoint.wakesLeft]
          omega

/-- The invariant of a transfer: some pieces were sent, and the loop is about to send the next. -/
def Transfers (W : WebCrypto) (share : Share) (link : Link) (fileName : String)
    (file : UploadedFile) (offset wakes : ℕ) (s : Connection) (os : List Output) : Prop :=
  ∃ pieces, Sends W share link fileName file offset pieces os ∧
    Progress W share fileName file offset pieces.length wakes s

/-- **One step of a transfer.** -/
theorem Transfers.step (hlink : CanRead W share link) (hle : offset ≤ file.size) {past : List Event}
    {event : Event} (h : Transfers W share link fileName file offset wakes s os)
    (hstep : Uninterrupted W share past s event) (hvectors : DrawsVectors past s event) :
    Transfers W share link fileName file offset
      (wakes + if WakesLoop past s event then 1 else 0) (step W share s event).1
      (os ++ (step W share s event).2) := by
  obtain ⟨pieces, hsends, hprogress⟩ := h
  obtain ⟨hopen, hpaused, hstart⟩ := hstep
  obtain ⟨hwakes, hidle⟩ | ⟨name, start, loop, rfl, hadm, htakes⟩ |
    ⟨i, settlement, task, rfl, htask, hresume⟩ := step_cases W share s event
  · have hnone : ¬WakesLoop past s event := by simp [WakesLoop, hwakes]
    rw [if_neg hnone]
    exact ⟨pieces, hsends.of_quiet hidle.quiet, hprogress.congr (owing_idle hidle)⟩
  · exact absurd ⟨hadm, htakes.status⟩ hstart
  · have hwoken : WakesLoop past s (.resumed i settlement) ↔ task.pendingChunk.isSome := by
      rw [WakesLoop, Event.wakes, htask]
      rfl
    rw [hresume] at hopen hpaused ⊢
    obtain ⟨hnone, hsame⟩ |
      ⟨loop, point, rfl, hrest, hcontinues, hcoherent, hdue, hk, hleft⟩ := hprogress.of_owes htask
    · have hidle := idle_of_pendingChunk_eq_none W share hnone settlement
        { s with tasks := s.tasks.eraseIdx i }
      rw [if_neg (by rw [hwoken, hnone]; exact Bool.false_ne_true)]
      exact ⟨pieces, hsends.of_quiet hidle.quiet,
        hprogress.congr ((owing_idle hidle).trans hsame)⟩
    · rw [if_pos (by rw [hwoken, hdue]; rfl)]
      refine wake_progress hlink hle hsends hcontinues hcoherent hdue hk hleft hrest ?_
        (resumeSendLoop_cases W share loop point settlement _) hopen hpaused
      intro hencrypting
      refine hvectors ?_
      rw [htask]
      exact hencrypting

theorem tasks_sending_init (hadm : StartAdmissible share s fileName offset)
    (hstatus : s.status = .ready ∨ s.status = .paused)
    (hfile : validateOffset share.files fileName offset = some file) :
    (sending W share s fileName offset).init.tasks =
      s.tasks ++ [.sendLoop (startLoop W share fileName file offset) .scheduled] := by
  obtain ⟨hclosed, hlimit, hactive, -⟩ := hadm
  have hready : ¬(s.status ≠ .ready ∧ s.status ≠ .paused) := fun h => hstatus.elim h.1 h.2
  have hoffset : ((offset : ℚ).num).toNat = offset := by simp
  have hstart : onStart W share fileName offset s =
      (({ s with
          activeFileName := some fileName, sendingPaused := false
          status := .uploading } : Connection).spawn
            (.sendLoop (startLoop W share fileName file offset) .scheduled),
        [.uploading fileName offset]) := by
    rw [onStart, if_neg hlimit, if_neg (by rw [hactive]; exact Bool.false_ne_true)]
    simp only [hfile, if_neg hready, hoffset]
    rfl
  dsimp only [sending, Uploader.step]
  rw [if_neg (by rw [hclosed]; exact Bool.false_ne_true), onData, hstart]
  rfl

/-! ### A whole transfer -/

theorem Progress.length_le
    (h : Progress W share fileName file offset k wakes s) : k ≤ chunkCount file offset := by
  cases h with
  | complete _ hk => exact hk.le
  | owes _ _ _ _ _ _ hk _ => exact hk.le

theorem Sends.covers (h : Sends W share link fileName file offset pieces os)
    (hle : offset ≤ file.size) (hk : pieces.length ≤ chunkCount file offset) {d : Download}
    (hd : Expects d fileName offset file.size) :
    Covers W link share.encryptionKey.isSome fileName file.content offset d pieces := by
  have hconsecutive : Consecutive offset (pieces.map Piece.interval) := by
    rw [h.intervals]
    exact consecutive_cuts maxChunkSize_pos hle hk
  refine ⟨h.partOf, hconsecutive, fun p hp => ?_, ?_⟩
  · obtain ⟨i, hi, rfl⟩ := List.getElem_of_mem hp
    rw [List.length_dropLast] at hi
    have hlt : i < pieces.length := by omega
    have hfinal : pieces[i].chunk.final = decide (chunkCount file offset ≤ i + 1) := by
      have hfinals := List.getElem_of_eq h.finals (i := i) (by simpa using hlt)
      rwa [List.getElem_map, List.getElem_map, List.getElem_range] at hfinals
    rw [List.getElem_dropLast, hfinal, decide_eq_false_iff_not]
    omega
  · have hend : endOf offset (pieces.map Piece.interval) ≤ file.size := by
      rw [h.intervals]
      rcases hk.lt_or_eq with hlt | heq
      · rw [endOf_cuts maxChunkSize_pos hlt]
        exact cut_fst_le maxChunkSize_pos hle hlt
      · rw [heq]
        exact (endOf_cuts_cutCount maxChunkSize_pos).le
    have hcount : offset / maxChunkSize + pieces.length ≤ file.size / maxChunkSize + 1 :=
      (Nat.add_le_add_left hk _).trans (div_add_cutCount_le maxChunkSize hle)
    exact accepts_of_consecutive h.partOf hconsecutive hend hcount hd.nextOffset hd.received
      hd.size

theorem Sends.complete
    (h : Sends W share link fileName file offset pieces os) (hle : offset ≤ file.size)
    (hk : pieces.length = chunkCount file offset) : Complete file.content offset pieces := by
  have hend : endOf offset (pieces.map Piece.interval) = file.content.length := by
    rw [h.intervals, hk]
    exact endOf_cuts_cutCount maxChunkSize_pos
  refine ⟨hend, ?_, ?_⟩
  · have hpos : pieces.length - 1 < pieces.length := by
      have hcount : 0 < chunkCount file offset := Nat.succ_pos _
      omega
    refine ⟨pieces[pieces.length - 1], ?_, ?_⟩
    · rw [List.getLast?_eq_getElem?, List.getElem?_eq_getElem hpos]
    · have hfinals := List.getElem_of_eq h.finals (i := pieces.length - 1) (by simpa using hpos)
      rw [List.getElem_map, List.getElem_map, List.getElem_range] at hfinals
      rw [hfinals, decide_eq_true_iff]
      omega
  · have hslices : pieces.flatMap Piece.plaintext =
        (pieces.map Piece.interval).flatMap fun c => file.content.extract c.1 c.2 := by
      rw [List.flatMap_map]
      refine List.flatMap_congr fun p hp => ?_
      exact (h.partOf p hp).slice.trans List.extract_eq_take_drop.symm
    have hconsecutive : Consecutive offset (pieces.map Piece.interval) := by
      rw [h.intervals]
      exact consecutive_cuts maxChunkSize_pos hle hk.le
    rw [hslices, flatMap_extract file.content hconsecutive, hend, List.extract_eq_take_drop]
    exact List.take_of_length_le (List.length_drop ..).le

end Run

theorem authenticates_taggingCrypto : taggingCrypto.Authenticates := by
  refine ⟨fun _ _ plaintext => ?_, fun _ _ plaintext => ?_⟩
  · have hlength : (plaintext ++ List.replicate WebCrypto.gcmTagLength (0 : UInt8)).length -
        WebCrypto.gcmTagLength = plaintext.length := by
      rw [List.length_append, List.length_replicate, Nat.add_sub_cancel]
    refine congrArg some ?_
    dsimp only [taggingCrypto]
    rw [hlength, List.take_left]
  · dsimp only [taggingCrypto]
    rw [List.length_append, List.length_replicate]

/-- An encrypted share of a small file. -/
def secretShare : Share :=
  { files := [{ name := "a", content := [1, 2, 3] }], password := ""
    encryptionKey := some [7], hkdfSalt := some [8] }

/-- A download that resumes the file after its first byte. -/
def resumedDownload : Download :=
  Download.create 0 [{ fileName := "a", size := 3, type := "" }]
    (some [("a", { bytesReceived := 1, completed := false, hasherState := some [1] })])

/-- A connection that waits for a `Start`. -/
def readyConnection : Connection :=
  { status := .ready, handshakeReceived := true, isOpen := true }

/-- The wakes of a loop that encrypts its only chunk. -/
def wholeRun : List Event :=
  [.resumed 0 {}, .resumed 0 {}, .resumed 0 {},
    .resumed 0 { iv := [0, 0, 0, 0, 0, 0, 0, 0, 0, 0, 0, 0] }, .resumed 0 {}]

end Transfer

end Rapidly.FileSharing
