import Mathlib.Algebra.Order.Field.Basic
import Rapidly.FileSharing.Downloader.Fidelity

/-!
# What the downloader counts

The downloader counts the bytes of a chunk when it takes the chunk up, and refuses a chunk that
would bring the count over the size of its file and the overhead of its chunks. What an honest
uploader sends should never be refused for that.

An encrypted chunk waits between being counted and being accepted, for its key and for its
decryption. A pause in between makes it dropped, with its bytes counted; the uploader sends it
again after the resume, and it is counted again.

* `Page.Accounts` is what the count should be: the bytes accepted, the overhead of the chunks
  they came in, and the chunk that is being decrypted.
* `twicePaused_refused` is a transfer that fails because a chunk was counted three times.
* `countsOnce_iff` is the exact condition on a run.
-/

namespace Rapidly.FileSharing.Downloader

open Transition

variable {W : WebCrypto} {link : Link} {content : String → Bytes} {encrypted : Bool}

/-! ### The uploader's side -/

/-- What a downloader reads in a chunk. -/
def plaintextOf (W : WebCrypto) (link : Link) (encrypted : Bool) (chunk : Chunk) :
    Option Bytes :=
  if encrypted then do
    let fileKey ← W.deriveFileKey link.encryptionKey chunk.fileName (chunk.fileIndex.getD 0)
      (link.hkdfSalt.getD [])
    W.decryptChunk fileKey chunk.bytes
  else some chunk.bytes

/-- How many bytes the encryption adds to a chunk. -/
def overhead (encrypted : Bool) : ℕ := if encrypted then encryptionOverheadPerChunk else 0

/-- The part of a file that the chunk at an offset carries. -/
def sliceAt (content : Bytes) (start : ℕ) : Bytes :=
  slice content start (min content.length (start + maxChunkSize))

/-- The chunk is the one of its file at its offset, as the uploader cuts the file. -/
def HonestChunk (W : WebCrypto) (link : Link) (content : String → Bytes) (encrypted : Bool)
    (chunk : Chunk) : Prop :=
  chunk.offset = chunk.start ∧ chunk.start ≤ (content chunk.fileName).length ∧
    chunk.final = isFinalChunk chunk.start (content chunk.fileName).length ∧
    plaintextOf W link encrypted chunk = some (sliceAt (content chunk.fileName) chunk.start) ∧
    chunk.bytes.length =
      (sliceAt (content chunk.fileName) chunk.start).length + overhead encrypted

instance (chunk : Chunk) : Decidable (HonestChunk W link content encrypted chunk) :=
  inferInstanceAs (Decidable (_ ∧ _ ∧ _ ∧ _ ∧ _))

/-- The uploader is honest: its list has the sizes of the files, and the chunks that are taken
up are those of the files, over the connection that the download was started on, and all of them
encrypted or none. The browser can decrypt them. -/
def Honest (W : WebCrypto) (link : Link) (content : String → Bytes) (encrypted : Bool) :
    System.Condition Page Event :=
  fun _ s event =>
    match event with
    | .started => ∀ files ∈ s.filesInfo, ∀ f ∈ files, f.size = (content f.fileName).length
    | .chunkResumed chain settlement =>
      ∀ x ∈ s.nextChunk chain,
        chain = x.1.connection ∧ s.isEncrypted = encrypted ∧ settlement.fulfilled ∧
          HonestChunk W link content encrypted x.2.chunk
    | _ => True

instance (past : List Event) (s : Page) :
    ∀ event, Decidable (Honest W link content encrypted past s event) := by
  rintro ⟨⟩
  case started | chunkResumed =>
    dsimp only [Honest]
    infer_instance
  all_goals exact isTrue trivial

/-! ### What is counted -/

/-- The first chunk of a chain, if it is waiting. -/
def Page.waiting (s : Page) (chain : ℕ) : Option QueuedChunk :=
  (s.chains[chain]?.bind List.head?).filter fun queued => queued.waiting.isSome

theorem Page.waiting_eq (s : Page) (chain : ℕ) : s.waiting chain =
    (s.chains[chain]?.getD []).head?.filter fun queued => queued.waiting.isSome := by
  rw [Page.waiting]
  cases s.chains[chain]? <;> rfl

/-- The chunk of a chain that was counted and is being decrypted. -/
def Page.decrypting (s : Page) (chain : ℕ) : Option Chunk :=
  (s.waiting chain).map QueuedChunk.chunk

/-- The file is being received in this session. -/
def Download.Receives (d : Download) (fileName : String) : Prop :=
  fileName ∈ d.filesInfo.map FileInfo.fileName ∧ d.wasCompleted fileName = false ∧
    fileName ∉ d.completedFiles ∧ (d.streams fileName).isClosed = false

instance (d : Download) (fileName : String) : Decidable (d.Receives fileName) :=
  inferInstanceAs (Decidable (_ ∧ _ ∧ _ ∧ _))

/-- The bytes of a file in a chunk that is being decrypted. -/
def inFlight (fileName : String) : Option Chunk → ℕ
  | some chunk => if chunk.fileName = fileName then chunk.bytes.length else 0
  | none => 0

/-- What is counted for a file: every byte up to the next offset once, the overhead of the
chunks accepted in this session (all of them whole ones), and the chunk that is being
decrypted. -/
def Download.Balanced (encrypted : Bool) (decrypting : Option Chunk) (d : Download)
    (fileName : String) : Prop :=
  (d.totalBytesReceived fileName).getD 0 =
    d.nextOffset fileName +
      (d.nextOffset fileName - d.resumeOffset fileName) / maxChunkSize * overhead encrypted +
      inFlight fileName decrypting

instance (decrypting : Option Chunk) (d : Download) (fileName : String) :
    Decidable (d.Balanced encrypted decrypting fileName) := inferInstanceAs (Decidable (_ = _))

/-- The count is right for every file that is being received. -/
def Page.Accounts (encrypted : Bool) (s : Page) : Prop :=
  s.receiving → ∀ d ∈ s.download, ∀ f ∈ d.filesInfo, d.Receives f.fileName →
    d.Balanced encrypted (s.decrypting d.connection) f.fileName

instance (s : Page) : Decidable (s.Accounts encrypted) :=
  inferInstanceAs (Decidable (_ → ∀ d ∈ _, ∀ f ∈ _, _ → _))

/-- The text of the check on the size of a file. -/
def moreThanExpected : String :=
  "Received more data than expected. The transfer may be corrupted."

/-- The next chunk of a chain is of a file that is being received, and is refused for its
size. -/
def Page.RefusesSize (s : Page) (chain : ℕ) : Prop :=
  ∃ x ∈ s.nextChunk chain, x.2.waiting = none ∧ x.1.Receives x.2.chunk.fileName ∧
    beginChunk s x.1 x.2.chunk = .refused moreThanExpected

instance (s : Page) (chain : ℕ) : Decidable (s.RefusesSize chain) :=
  inferInstanceAs (Decidable (∃ x ∈ s.nextChunk chain, _))

/-- No chunk is refused for its size in this step, and the count is right after it. -/
def CountsOnce (W : WebCrypto) (link : Link) (encrypted : Bool) :
    System.Condition Page Event :=
  fun _ s event =>
    (match event with
      | .chunkResumed chain _ => ¬s.RefusesSize chain
      | _ => True) ∧
    (step W link s event).1.Accounts encrypted

instance (past : List Event) (s : Page) :
    ∀ event, Decidable (CountsOnce W link encrypted past s event) := by
  rintro ⟨⟩
  all_goals
    dsimp only [CountsOnce]
    infer_instance

/-- A chunk of a file that is being received does not find the page paused when it is woken on
the way through its decryption. -/
def DecryptsUnpaused : System.Condition Page Event :=
  fun _ s event =>
    match event with
    | .chunkResumed chain _ =>
      ∀ x ∈ s.nextChunk chain, x.2.waiting.isSome → s.receiving →
        x.1.Receives x.2.chunk.fileName → s.isPaused = false
    | _ => True

instance (past : List Event) (s : Page) :
    ∀ event, Decidable (DecryptsUnpaused past s event) := by
  rintro ⟨⟩
  case chunkResumed =>
    dsimp only [DecryptsUnpaused]
    infer_instance
  all_goals exact isTrue trivial

/-! ### The size check -/

theorem maxChunkSize_pos : 0 < maxChunkSize := by decide

/-- The size of a file leaves room for its bytes and the overhead of its chunks. -/
theorem le_maxReceived {size chunks : ℚ} (h : chunks ≤ size / maxChunkSize + 1) :
    size + chunks * (encryptionOverheadPerChunk : ℚ) ≤ Download.maxReceived size := by
  have hceil : chunks ≤ (⌈size / (maxChunkSize : ℚ)⌉ : ℤ) + 1 := by
    have hle := Int.le_ceil (size / (maxChunkSize : ℚ))
    linarith
  have hmul := mul_le_mul_of_nonneg_right hceil
    (Nat.cast_nonneg (α := ℚ) encryptionOverheadPerChunk)
  rw [Download.maxReceived]
  push_cast
  linarith

/-! ### Steps that leave the count alone -/

/-- The two downloads count the same for the same files, or for fewer. -/
structure Download.SameCount (d d' : Download) : Prop extends d.SameOffsets d' where
  totalBytesReceived : d'.totalBytesReceived = d.totalBytesReceived
  completedFiles : d'.completedFiles = d.completedFiles
  isOpen : ∀ fileName, (d'.streams fileName).isClosed = false →
    (d.streams fileName).isClosed = false

theorem Download.SameCount.receives {d d' : Download} (h : d.SameCount d') {fileName : String}
    (hreceives : d'.Receives fileName) : d.Receives fileName := by
  obtain ⟨hlisted, hnot, hincomplete, hopen⟩ := hreceives
  rw [h.filesInfo] at hlisted
  rw [h.wasCompleted] at hnot
  rw [h.completedFiles] at hincomplete
  exact ⟨hlisted, hnot, hincomplete, h.isOpen fileName hopen⟩

theorem Download.SameCount.balanced {d d' : Download} (h : d.SameCount d') {fileName : String}
    {decrypting : Option Chunk} (hbalanced : d.Balanced encrypted decrypting fileName) :
    d'.Balanced encrypted decrypting fileName := by
  rw [Download.Balanced, h.totalBytesReceived, h.nextOffset, h.resumeOffset]
  exact hbalanced

theorem Download.sameCount_refl (d : Download) : d.SameCount d :=
  ⟨⟨rfl, rfl, rfl, rfl⟩, rfl, rfl, fun _ => id⟩

/-- The page counts the same after as before, and the same chunks are waiting. -/
structure Page.SameCount (s s' : Page) : Prop where
  download : ∀ d' ∈ s'.download, ∃ d ∈ s.download, d.SameCount d'
  waiting : ∀ chain, s'.waiting chain = s.waiting chain
  receiving : s'.receiving → s.receiving

theorem Download.Kept.sameCount {d d' : Download} (h : d.Kept d') : d.SameCount d' :=
  { h with }

theorem Page.Kept.sameCount {s s' : Page} (h : s.Kept s') : s.SameCount s' := by
  refine ⟨fun d' hd' => ?_, fun chain => ?_, h.receiving⟩
  · obtain ⟨d, hd, hkept⟩ := h.download d' hd'
    exact ⟨d, hd, hkept.sameCount⟩
  · obtain ⟨fresh, hfresh, heq⟩ := h.chains chain
    rw [Page.waiting_eq, Page.waiting_eq, heq]
    cases s.chains[chain]?.getD [] with
    | cons first rest => rfl
    | nil =>
      rw [List.nil_append]
      cases fresh with
      | nil => rfl
      | cons first rest =>
        refine Option.filter_some_neg ?_
        rw [hfresh first List.mem_cons_self]
        rfl

/-! ### The invariant -/

/-- The key that a waiting chunk has is that of its file. -/
def QueuedChunk.HasKey (W : WebCrypto) (link : Link) (queued : QueuedChunk) : Prop :=
  ∀ activePc fileKey, queued.waiting = some (activePc, .decrypting fileKey) →
    W.deriveFileKey link.encryptionKey queued.chunk.fileName (queued.chunk.fileIndex.getD 0)
      (link.hkdfSalt.getD []) = some fileKey

/-- What is counted is right, and the chunk that waits on the connection of the download is an
encrypted one of a file that is not complete. -/
structure Page.Tally (W : WebCrypto) (link : Link) (content : String → Bytes)
    (encrypted : Bool) (s : Page) : Prop where
  sizes : ∀ d ∈ s.download, ∀ f ∈ d.filesInfo, f.size = (content f.fileName).length
  accounts : s.Accounts encrypted
  waiting : ∀ d ∈ s.download, ∀ queued ∈ s.waiting d.connection,
    encrypted = true ∧ queued.chunk.fileName ∉ d.completedFiles ∧ queued.HasKey W link

section Steps

variable {s : Page} {d : Download} {queued : QueuedChunk} {chain : ℕ} {settlement : Settlement}

theorem sliceAt_prefix (bytes : Bytes) (start : ℕ) : sliceAt bytes start <+: bytes.drop start :=
  List.take_prefix _ _

theorem length_sliceAt {bytes : Bytes} {start : ℕ} (h : start ≤ bytes.length) :
    (sliceAt bytes start).length = min (bytes.length - start) maxChunkSize := by
  rw [sliceAt, slice, List.length_take, List.length_drop]
  omega

theorem Page.waiting_of_nextChunk (h : s.nextChunk chain = some (d, queued))
    (hwaiting : queued.waiting.isSome) : s.waiting chain = some queued := by
  obtain ⟨-, rest, hqueue⟩ := Page.nextChunk_eq_some h
  rw [Page.waiting, hqueue]
  exact Option.filter_some_pos hwaiting

theorem Page.waiting_eq_none_of_nextChunk (h : s.nextChunk chain = some (d, queued))
    (hwaiting : queued.waiting = none) : s.waiting chain = none := by
  obtain ⟨-, rest, hqueue⟩ := Page.nextChunk_eq_some h
  rw [Page.waiting, hqueue]
  refine Option.filter_some_neg ?_
  rw [hwaiting]
  rfl

theorem plaintext_eq (h : s.Tally W link content encrypted)
    (hnext : s.nextChunk chain = some (d, queued)) (hchain : chain = d.connection)
    (hencrypted : s.isEncrypted = encrypted)
    (hhonest : HonestChunk W link content encrypted queued.chunk) {plaintext : Bytes}
    (houtcome : chunkOutcome W link s d queued settlement = .delivered plaintext) :
    plaintext = sliceAt (content queued.chunk.fileName) queued.chunk.start := by
  obtain ⟨-, -, -, hplaintext, -⟩ := hhonest
  rw [plaintextOf] at hplaintext
  rw [chunkOutcome] at houtcome
  split at houtcome
  next hwaiting =>
    rw [beginChunk, hencrypted] at houtcome
    split at houtcome
    · cases houtcome
    split at houtcome
    · cases houtcome
    split at houtcome
    · cases houtcome
    split at houtcome
    · cases houtcome
    next hplain =>
      rw [if_neg hplain] at hplaintext
      cases houtcome
      exact Option.some.inj hplaintext
  next activePc point hwaiting =>
    have hd := (Page.nextChunk_eq_some hnext).1
    obtain ⟨rfl, -, hkey⟩ := h.waiting d hd queued
      (hchain ▸ Page.waiting_of_nextChunk hnext (by rw [hwaiting]; rfl))
    rw [if_pos rfl] at hplaintext
    cases point with
    | derivingKey =>
      dsimp only [continueChunk] at houtcome
      split at houtcome
      · cases houtcome
      · split at houtcome
        · cases houtcome
        · split at houtcome <;> cases houtcome
    | decrypting fileKey =>
      rw [hkey activePc fileKey hwaiting] at hplaintext
      dsimp only [continueChunk] at houtcome
      split at houtcome
      · cases houtcome
      next plaintext' hdecrypt =>
        split at houtcome
        · cases houtcome
        split at houtcome
        · cases houtcome
        cases houtcome
        exact Option.some.inj (hdecrypt.symm.trans hplaintext)

/-- A chunk that waits is dropped if the page is paused or gone, and goes on if it is not. -/
theorem waiting_outcome (h : s.Tally W link content encrypted)
    (hnext : s.nextChunk chain = some (d, queued)) (hchain : chain = d.connection)
    (hfulfilled : settlement.fulfilled)
    (hhonest : HonestChunk W link content encrypted queued.chunk)
    (hwaiting : queued.waiting.isSome) :
    ((s.receiving = false ∨ s.isPaused) ∧
      chunkOutcome W link s d queued settlement = .dropped) ∨
    ¬(s.receiving = false ∨ s.isPaused) ∧
      ((∃ fileKey, chunkOutcome W link s d queued settlement = .suspended (.decrypting fileKey) ∧
        W.deriveFileKey link.encryptionKey queued.chunk.fileName (queued.chunk.fileIndex.getD 0)
          (link.hkdfSalt.getD []) = some fileKey) ∨
      ∃ plaintext, chunkOutcome W link s d queued settlement = .delivered plaintext) := by
  obtain ⟨-, -, -, hplaintext, -⟩ := hhonest
  obtain ⟨⟨activePc, point⟩, hpoint⟩ := Option.isSome_iff_exists.mp hwaiting
  obtain ⟨rfl, -, hkey⟩ := h.waiting d (Page.nextChunk_eq_some hnext).1 queued
    (hchain ▸ Page.waiting_of_nextChunk hnext hwaiting)
  rw [plaintextOf, if_pos rfl] at hplaintext
  obtain ⟨fileKey, hderive, hdecrypt⟩ := Option.bind_eq_some_iff.mp hplaintext
  have hfails : settlement.fulfilled ≠ false := by simp [hfulfilled]
  rw [chunkOutcome, hpoint]
  cases point with
  | derivingKey =>
    dsimp only [continueChunk]
    rw [hderive]
    dsimp only
    rw [if_neg hfails]
    split
    next hgone => exact .inl ⟨hgone, rfl⟩
    next hhere => exact .inr ⟨hhere, .inl ⟨fileKey, rfl, rfl⟩⟩
  | decrypting fileKey' =>
    have hsame : fileKey' = fileKey :=
      Option.some.inj ((hkey activePc fileKey' hpoint).symm.trans hderive)
    dsimp only [continueChunk]
    rw [hsame, hdecrypt]
    dsimp only
    rw [if_neg hfails]
    split
    next hgone => exact .inl ⟨hgone, rfl⟩
    next hhere => exact .inr ⟨hhere, .inr ⟨_, rfl⟩⟩

variable {past : List Event} {s' : Page} {chunk : Chunk} {fileName : String}

theorem genuineChunks_of_honest (h : s.Tally W link content encrypted)
    (hconsistent : s.Consistent content) {event : Event}
    (hhonest : Honest W link content encrypted past s event) :
    GenuineChunks W link content past s event := by
  cases event with
  | chunkResumed chain settlement =>
    intro δ hδ
    obtain hnone | ⟨⟨d, queued⟩, hnext⟩ := Option.eq_none_or_eq_some (s.nextChunk chain)
    · simp [Page.delivery, hnone] at hδ
    obtain ⟨hchain, hencrypted, -, hchunk⟩ : chain = d.connection ∧
        s.isEncrypted = encrypted ∧ settlement.fulfilled ∧
        HonestChunk W link content encrypted queued.chunk := hhonest _ hnext
    cases houtcome : chunkOutcome W link s d queued settlement with
    | delivered plaintext =>
      have hplaintext := plaintext_eq h hnext hchain hencrypted hchunk houtcome
      simp only [Page.delivery, hnext, houtcome, Option.mem_def, Option.some.injEq] at hδ
      subst hδ
      obtain ⟨hoffset, hinside, hfinal, -, -⟩ := hchunk
      refine ⟨⟨hoffset, ?_, fun hlast => ?_⟩, ?_⟩
      · rw [hplaintext]
        exact sliceAt_prefix _ _
      · have hend : isFinalChunk queued.chunk.start (content queued.chunk.fileName).length = true :=
          hfinal.symm.trans hlast
        rw [isFinalChunk, decide_eq_true_iff] at hend
        have hlength := length_sliceAt hinside
        rw [hplaintext, hlength]
        dsimp only
        omega
      · rw [hchain]
        exact ((Page.Consistent.counted (hconsistent.download d
          (Page.nextChunk_eq_some hnext).1) queued).1.connection).symm
    | _ => simp [Page.delivery, hnext, houtcome] at hδ
  | _ => exact trivial

/-! ### What a stretch does to the count -/

theorem Page.Tally.of_sameCount (h : s.Tally W link content encrypted)
    (hcount : s.SameCount s') : s'.Tally W link content encrypted := by
  refine ⟨fun d' hd' f hf => ?_, fun hreceiving d' hd' f hf hreceives => ?_,
    fun d' hd' queued hqueued => ?_⟩
  · obtain ⟨d, hd, hsame⟩ := hcount.download d' hd'
    rw [hsame.filesInfo] at hf
    exact h.sizes d hd f hf
  · obtain ⟨d, hd, hsame⟩ := hcount.download d' hd'
    rw [hsame.filesInfo] at hf
    have hbalanced := h.accounts (hcount.receiving hreceiving) d hd f hf (hsame.receives hreceives)
    rw [Page.decrypting, hcount.waiting, hsame.connection]
    exact hsame.balanced hbalanced
  · obtain ⟨d, hd, hsame⟩ := hcount.download d' hd'
    rw [hcount.waiting, hsame.connection] at hqueued
    rw [hsame.completedFiles]
    exact h.waiting d hd queued hqueued

theorem waiting_takeChunk (h : s.Consistent content) (chain other : ℕ) :
    (s.takeChunk chain).waiting other = if chain = other then none else s.waiting other := by
  rw [Page.waiting, Page.waiting, Page.takeChunk, List.getElem?_modify]
  split
  next hsame =>
    subst hsame
    cases hqueue : s.chains[chain]? with
    | none => rfl
    | some queue =>
      have htail := (h.chains chain queue hqueue).1
      rw [Option.map_eq_map, Option.map_some, Option.bind_some]
      cases hhead : queue.tail.head? with
      | none => rfl
      | some first =>
        refine Option.filter_some_neg ?_
        rw [htail first (List.mem_of_mem_head? hhead)]
        rfl
  · rw [id_map']

theorem sameCount_takeChunk (h : s.Consistent content) (hnone : s.waiting chain = none) :
    s.SameCount (s.takeChunk chain) := by
  refine ⟨fun d hd => ⟨d, hd, d.sameCount_refl⟩, fun other => ?_, id⟩
  rw [waiting_takeChunk h]
  split
  next hsame => rw [← hsame, hnone]
  · rfl

theorem waiting_eq_none (h : s.Consistent content) (hnext : s.nextChunk chain = none) :
    s.waiting chain = none := by
  by_contra hsome
  obtain ⟨queued, hqueued⟩ := Option.ne_none_iff_exists'.mp hsome
  obtain ⟨hhead, hwaiting⟩ := Option.filter_eq_some_iff.mp hqueued
  obtain ⟨queue, hqueue, hfirst⟩ := Option.bind_eq_some_iff.mp hhead
  obtain ⟨d, hd, -⟩ := (h.chains chain queue hqueue).2 queued hfirst hwaiting
  have hd : s.download = some d := hd
  simp [Page.nextChunk, hd, hqueue, hfirst] at hnext

theorem balanced_count (h : d.Balanced encrypted none fileName) :
    (d.count chunk).Balanced encrypted (some chunk) fileName := by
  rw [Download.Balanced] at h ⊢
  have hnext : (d.count chunk).nextOffset fileName = d.nextOffset fileName := rfl
  have hresume : (d.count chunk).resumeOffset fileName = d.resumeOffset fileName := rfl
  rw [hnext, hresume, inFlight]
  by_cases hsame : chunk.fileName = fileName
  · have hcounted : (d.count chunk).totalBytesReceived fileName = some (d.received chunk) := by
      rw [← hsame]
      exact Function.update_self ..
    rw [if_pos hsame, hcounted, Option.getD_some, Download.received, hsame, h, inFlight]
    ring
  · have hother : (d.count chunk).totalBytesReceived fileName = d.totalBytesReceived fileName :=
      Function.update_of_ne (Ne.symm hsame) ..
    rw [if_neg hsame, hother, h, inFlight]

theorem balanced_written {δ : Delivery} (h : δ.download.Balanced encrypted (some δ.chunk) fileName)
    (hoffset : δ.chunk.offset = δ.download.nextOffset δ.chunk.fileName)
    (hwhole : δ.plaintext.length = maxChunkSize)
    (hbytes : δ.chunk.bytes.length = δ.plaintext.length + overhead encrypted) :
    δ.written.Balanced encrypted none fileName := by
  rw [Download.Balanced] at h ⊢
  have htotal : δ.written.totalBytesReceived = δ.download.totalBytesReceived := rfl
  have hresume : δ.written.resumeOffset fileName = δ.download.resumeOffset fileName := rfl
  rw [htotal, hresume, h, nextOffset_written, inFlight, inFlight]
  by_cases hsame : fileName = δ.chunk.fileName
  · have hpos : (maxChunkSize : ℚ) ≠ 0 := Nat.cast_ne_zero.mpr maxChunkSize_pos.ne'
    rw [if_pos hsame.symm, if_pos hsame, hoffset, ← hsame, hbytes, hwhole]
    push_cast
    field_simp
    ring
  · rw [if_neg (Ne.symm hsame), if_neg hsame]

theorem QueuedChunk.sameOffsets_counted (queued : QueuedChunk) (d : Download) :
    d.SameOffsets (queued.counted d) := by
  rw [QueuedChunk.counted]
  split <;> exact ⟨rfl, rfl, rfl, rfl⟩

/-- The two downloads count the same for all files but one. -/
structure Download.AgreesOff (fileName : String) (d d' : Download) : Prop where
  connection : d'.connection = d.connection
  filesInfo : d'.filesInfo = d.filesInfo
  resumeData : d'.resumeData = d.resumeData
  nextOffset : ∀ other, other ≠ fileName → d'.nextOffset other = d.nextOffset other
  totalBytesReceived : d'.totalBytesReceived = d.totalBytesReceived
  completedFiles : d.completedFiles ⊆ d'.completedFiles
  isOpen : ∀ other, (d'.streams other).isClosed = false → (d.streams other).isClosed = false

theorem Download.AgreesOff.receives {fileName other : String} {d d' : Download}
    (h : d.AgreesOff fileName d') (hreceives : d'.Receives other) : d.Receives other := by
  obtain ⟨hlisted, hnot, hincomplete, hopen⟩ := hreceives
  rw [h.filesInfo] at hlisted
  rw [Download.wasCompleted, Download.savedProgress, h.resumeData] at hnot
  exact ⟨hlisted, hnot, fun hmem => hincomplete (h.completedFiles hmem), h.isOpen other hopen⟩

theorem isOpen_startNextFileOrFinish (d : Download)
    (h : (d.startNextFileOrFinish.streams fileName).isClosed = false) :
    (d.streams fileName).isClosed = false := by
  by_cases hskip : fileName ∈ d.skippedFiles.map FileInfo.fileName
  · simp only [Download.startNextFileOrFinish, if_pos hskip] at h
    exact absurd h.symm Bool.false_ne_true
  · simpa only [Download.startNextFileOrFinish, if_neg hskip] using h

theorem Download.AgreesOff.closeStream {d d' : Download}
    (h : d.AgreesOff fileName d') : d.AgreesOff fileName (d'.closeStream fileName) where
  connection := h.connection
  filesInfo := h.filesInfo
  resumeData := h.resumeData
  nextOffset := h.nextOffset
  totalBytesReceived := h.totalBytesReceived
  completedFiles := h.completedFiles
  isOpen other hopen :=
    h.isOpen other ((Download.Kept.closeStream d' fileName).isOpen other hopen)

theorem Download.AgreesOff.finalize {d d' : Download}
    (h : d.AgreesOff fileName d') : d.AgreesOff fileName (d'.finalize fileName) :=
  ⟨h.connection, h.filesInfo, h.resumeData, h.nextOffset, h.totalBytesReceived,
    h.completedFiles, h.isOpen⟩

theorem Download.AgreesOff.complete {d d' : Download} (h : d.AgreesOff fileName d') :
    d.AgreesOff fileName (d'.complete fileName).startNextFileOrFinish where
  connection := h.connection
  filesInfo := h.filesInfo
  resumeData := h.resumeData
  nextOffset := h.nextOffset
  totalBytesReceived := h.totalBytesReceived
  completedFiles name hmem :=
    List.mem_append_left _ (List.mem_append_left _ (h.completedFiles hmem))
  isOpen other hopen := by
    have hcomplete := isOpen_startNextFileOrFinish _ hopen
    have hmarked := (Download.Kept.closeStream
      { d' with completedFiles := d'.completedFiles ++ [fileName] } fileName).isOpen other hcomplete
    exact h.isOpen other hmarked

theorem not_receives_closeStream (d : Download) (fileName : String) :
    ¬(d.closeStream fileName).Receives fileName := by
  rintro ⟨-, -, -, hopen⟩
  simp [Download.closeStream] at hopen

theorem not_receives_complete (d : Download) (fileName : String) :
    ¬(d.complete fileName).startNextFileOrFinish.Receives fileName := by
  rintro ⟨-, -, hincomplete, -⟩
  exact hincomplete (List.mem_append_left _ (List.mem_append_right _
    (List.mem_singleton.mpr rfl)))

theorem Download.AgreesOff.balanced {other : String} {d d' : Download}
    (h : d.AgreesOff chunk.fileName d') (hother : other ≠ chunk.fileName)
    (hbalanced : d.Balanced encrypted (some chunk) other) : d'.Balanced encrypted none other := by
  rw [Download.Balanced] at hbalanced ⊢
  rw [h.totalBytesReceived, h.nextOffset other hother, Download.resumeOffset,
    Download.savedProgress, h.resumeData, hbalanced, inFlight, if_neg (Ne.symm hother)]
  rfl

/-- A chunk is off its chain for good, and the download moved on with it or without it. -/
theorem Page.Tally.settle (h : s.Tally W link content encrypted)
    (hd : s.download = some d) {counted : Download}
    (hsame : d.SameOffsets counted)
    (hcounted : s.receiving → ∀ f ∈ d.filesInfo, counted.Receives f.fileName →
      counted.Balanced encrypted (some chunk) f.fileName) (d' : Download)
    (hagrees : counted.AgreesOff chunk.fileName d')
    (hfile : s.receiving → d'.Receives chunk.fileName →
      d'.Balanced encrypted none chunk.fileName)
    (hd' : s'.download = some d') (hwaiting : s'.waiting d.connection = none)
    (hreceiving : s'.receiving → s.receiving) : s'.Tally W link content encrypted := by
  have hconnection : d'.connection = d.connection := hagrees.connection.trans hsame.connection
  have hfiles : d'.filesInfo = d.filesInfo := hagrees.filesInfo.trans hsame.filesInfo
  refine ⟨fun d'' hd'' f hf => ?_, fun hrec d'' hd'' f hf hreceives => ?_,
    fun d'' hd'' queued hqueued => ?_⟩
  · obtain rfl := Option.some_inj.mp (hd'.symm.trans hd'')
    rw [hfiles] at hf
    exact h.sizes d hd f hf
  · obtain rfl := Option.some_inj.mp (hd'.symm.trans hd'')
    rw [hfiles] at hf
    rw [Page.decrypting, hconnection, hwaiting]
    by_cases hname : f.fileName = chunk.fileName
    · rw [hname] at hreceives ⊢
      exact hfile (hreceiving hrec) hreceives
    · exact hagrees.balanced hname
        (hcounted (hreceiving hrec) f hf (hagrees.receives hreceives))
  · obtain rfl := Option.some_inj.mp (hd'.symm.trans hd'')
    rw [hconnection, hwaiting] at hqueued
    exact absurd hqueued (Option.not_mem_none queued)

theorem Page.Tally.suspend (h : s.Tally W link content encrypted)
    (hnext : s.nextChunk chain = some (d, queued)) (hchain : chain = d.connection)
    {point : DecryptPoint}
    (hcounted : s.receiving → ∀ f ∈ d.filesInfo, (queued.counted d).Receives f.fileName →
      (queued.counted d).Balanced encrypted (some queued.chunk) f.fileName)
    (hencrypted : encrypted = true) (hincomplete : queued.chunk.fileName ∉ d.completedFiles)
    {activePc : Option ℕ}
    (hkey : QueuedChunk.HasKey W link
      { chunk := queued.chunk, waiting := some (activePc, point) })
    (hd' : s'.download = some (queued.counted d))
    (hwaiting : s'.waiting chain =
      some { chunk := queued.chunk, waiting := some (activePc, point) })
    (hreceiving : s'.receiving → s.receiving) : s'.Tally W link content encrypted := by
  have hd := (Page.nextChunk_eq_some hnext).1
  have hsame := queued.sameOffsets_counted d
  have hcompleted : (queued.counted d).completedFiles = d.completedFiles := by
    rw [QueuedChunk.counted]
    split <;> rfl
  refine ⟨fun d' hd'' f hf => ?_, fun hrec d' hd'' f hf hreceives => ?_,
    fun d' hd'' queued' hqueued' => ?_⟩
  · obtain rfl := Option.some_inj.mp (hd'.symm.trans hd'')
    rw [hsame.filesInfo] at hf
    exact h.sizes d hd f hf
  · obtain rfl := Option.some_inj.mp (hd'.symm.trans hd'')
    rw [hsame.filesInfo] at hf
    rw [Page.decrypting, hsame.connection, ← hchain, hwaiting]
    exact hcounted (hreceiving hrec) f hf hreceives
  · obtain rfl := Option.some_inj.mp (hd'.symm.trans hd'')
    rw [hsame.connection, ← hchain, hwaiting] at hqueued'
    obtain rfl := Option.some_inj.mp hqueued'
    rw [hcompleted]
    exact ⟨hencrypted, hincomplete, hkey⟩

theorem Page.Tally.deliverChunk (h : s.Tally W link content encrypted)
    (hconsistent : s.Consistent content) (hd : s.download = some d) {δ : Delivery}
    (hsame : d.SameOffsets δ.download)
    (hcounted : s.receiving → ∀ f ∈ d.filesInfo, δ.download.Receives f.fileName →
      δ.download.Balanced encrypted (some δ.chunk) f.fileName)
    (hlisted : δ.chunk.fileName ∈ d.filesInfo.map FileInfo.fileName)
    (hoffset : δ.chunk.offset = δ.download.nextOffset δ.chunk.fileName)
    (hhonest : HonestChunk W link content encrypted δ.chunk)
    (hplaintext : δ.plaintext = sliceAt (content δ.chunk.fileName) δ.chunk.start)
    (activePc : Option ℕ) (settlement : Settlement) :
    (Downloader.deliverChunk W link activePc δ settlement
      (s.takeChunk d.connection)).1.Tally W link content encrypted := by
  have hnone : (s.takeChunk d.connection).waiting d.connection = none := by
    rw [waiting_takeChunk hconsistent, if_pos rfl]
  obtain ⟨f, hf, hname⟩ := List.mem_map.mp hlisted
  have hadvanced (other : String) (hother : other ≠ δ.chunk.fileName) :
      (δ.download.advance δ.chunk δ.plaintext).nextOffset other = δ.download.nextOffset other := by
    rw [nextOffset_advance, if_neg hother]
  have hwritten : δ.download.AgreesOff δ.chunk.fileName δ.written := by
    refine ⟨rfl, rfl, rfl, hadvanced, rfl, List.Subset.refl _, fun other hopen => ?_⟩
    rwa [isClosed_written] at hopen
  rw [Downloader.deliverChunk]
  split
  next hclosed =>
    -- on a closed stream the file is not received any more
    refine h.settle hd hsame hcounted (δ.download.advance δ.chunk δ.plaintext)
      ⟨rfl, rfl, rfl, hadvanced, rfl, List.Subset.refl _, fun _ => id⟩ (fun _ hreceives => ?_) rfl
      hnone id
    have hopen : (δ.download.streams δ.chunk.fileName).isClosed = false := hreceives.2.2.2
    rw [Delivery.isOpen, hopen] at hclosed
    exact absurd hclosed Bool.noConfusion
  next =>
    dsimp only
    split
    next hfinal =>
      -- the file ends, completed or not
      rw [finishFile]
      dsimp only
      split
      · have hclosed : Page.Tally W link content encrypted
            { s.takeChunk d.connection with
              download := some ((δ.written.finalize δ.chunk.fileName).closeStream
                δ.chunk.fileName)
              progress := if settlement.saves ∧ link.hkdfSalt.isSome then
                some δ.written.snapshot else (s.takeChunk d.connection).progress } :=
          h.settle hd hsame hcounted _ hwritten.finalize.closeStream
            (fun _ hreceives => absurd hreceives (not_receives_closeStream _ _)) rfl hnone id
        exact hclosed.of_sameCount (Page.Kept.fail _ _ _).sameCount
      · exact h.settle hd hsame hcounted _ hwritten.finalize.complete
          (fun _ hreceives => absurd hreceives (not_receives_complete _ _)) rfl hnone id
    next hfinal =>
      refine h.settle hd hsame hcounted δ.written hwritten (fun hreceiving hreceives => ?_) rfl
        hnone id
      obtain ⟨-, hinside, hlast, -, hbytes⟩ := hhonest
      have hmore : δ.chunk.start + maxChunkSize < (content δ.chunk.fileName).length := by
        have hnot : δ.chunk.final = false := Bool.eq_false_of_not_eq_true hfinal
        rw [hlast, isFinalChunk, decide_eq_false_iff_not] at hnot
        omega
      have hwhole : δ.plaintext.length = maxChunkSize := by
        rw [hplaintext, length_sliceAt hinside]
        omega
      refine balanced_written ?_ hoffset hwhole (hplaintext ▸ hbytes)
      have hbalanced := hcounted hreceiving f hf (hname ▸ hwritten.receives hreceives)
      rwa [hname] at hbalanced

theorem Page.Tally.counted (h : s.Tally W link content encrypted)
    (hnext : s.nextChunk chain = some (d, queued)) (hchain : chain = d.connection) :
    s.receiving → ∀ f ∈ d.filesInfo, (queued.counted d).Receives f.fileName →
      (queued.counted d).Balanced encrypted (some queued.chunk) f.fileName := by
  intro hreceiving f hf hreceives
  have hd := (Page.nextChunk_eq_some hnext).1
  obtain hwaiting | ⟨point, hwaiting⟩ := Option.eq_none_or_eq_some queued.waiting
  · have hcounted : queued.counted d = d.count queued.chunk := by
      rw [QueuedChunk.counted, hwaiting]
    rw [hcounted] at hreceives ⊢
    have hbalanced := h.accounts hreceiving d hd f hf hreceives
    rw [Page.decrypting, ← hchain, Page.waiting_eq_none_of_nextChunk hnext hwaiting] at hbalanced
    exact balanced_count hbalanced
  · have hcounted : queued.counted d = d := by
      rw [QueuedChunk.counted, hwaiting]
    rw [hcounted] at hreceives ⊢
    have hbalanced := h.accounts hreceiving d hd f hf hreceives
    rwa [Page.decrypting, ← hchain,
      Page.waiting_of_nextChunk hnext (by rw [hwaiting]; rfl)] at hbalanced

theorem waiting_putBack (hnext : s.nextChunk chain = some (d, queued)) {first : QueuedChunk}
    (hfirst : first.waiting.isSome)
    (hchains : s'.chains = (s.takeChunk chain).chains.modify chain fun rest => first :: rest) :
    s'.waiting chain = some first := by
  obtain ⟨-, rest, hqueue⟩ := Page.nextChunk_eq_some hnext
  rw [Page.waiting, hchains, Page.takeChunk]
  simp only [List.getElem?_modify_eq, hqueue, Option.map_eq_map, Option.map_some,
    Option.bind_some, List.head?_cons]
  exact Option.filter_some_pos hfirst

theorem begin_suspended {point : DecryptPoint} (h : beginChunk s d chunk = .suspended point) :
    s.isEncrypted = true ∧ point = .derivingKey := by
  rw [beginChunk] at h
  split at h
  · cases h
  split at h
  · cases h
  split at h
  · cases h
  split at h
  next hencrypted =>
    cases h
    exact ⟨hencrypted, rfl⟩
  · cases h

/-- **A stretch of a chain.** The count stays right unless a chunk is dropped that was
counted. -/
theorem Page.Tally.resumeChain (h : s.Tally W link content encrypted)
    (hconsistent : s.Consistent content)
    (hhonest : Honest W link content encrypted past s (.chunkResumed chain settlement))
    (hunpaused : DecryptsUnpaused past s (.chunkResumed chain settlement)) :
    (Downloader.resumeChain W link chain settlement s).1.Tally W link content encrypted := by
  obtain hnone | ⟨⟨d, queued⟩, hnext⟩ := Option.eq_none_or_eq_some (s.nextChunk chain)
  · rw [resumeChain_of_nextChunk_eq_none W link hnone]
    exact h.of_sameCount (sameCount_takeChunk hconsistent (waiting_eq_none hconsistent hnone))
  obtain ⟨hchain, hencrypted, hfulfilled, hchunk⟩ : chain = d.connection ∧
      s.isEncrypted = encrypted ∧ settlement.fulfilled ∧
      HonestChunk W link content encrypted queued.chunk := hhonest _ hnext
  have hd := (Page.nextChunk_eq_some hnext).1
  have hsame := queued.sameOffsets_counted d
  have hcounted := h.counted hnext hchain
  rw [resumeChain_eq_settleChunk W link hnext]
  -- a chunk that is handed to the output
  have hdelivers {plaintext : Bytes}
      (houtcome : chunkOutcome W link s d queued settlement = .delivered plaintext) :
      (settleChunk W link chain queued (.delivered plaintext) settlement d
        (s.takeChunk chain)).1.Tally W link content encrypted := by
    have hawaits := hconsistent.awaits hnext houtcome ChunkOutcome.noConfusion rfl hchain.symm
    have hplaintext := plaintext_eq h hnext hchain hencrypted hchunk houtcome
    subst hchain
    refine h.deliverChunk hconsistent hd hsame hcounted hawaits.1 ?_ hchunk hplaintext _ settlement
    rw [hsame.nextOffset]
    exact hawaits.2.2
  obtain hwaiting | ⟨⟨activePc, point⟩, hwaiting⟩ := Option.eq_none_or_eq_some queued.waiting
  · have htaken := sameCount_takeChunk hconsistent
      (Page.waiting_eq_none_of_nextChunk hnext hwaiting)
    cases houtcome : chunkOutcome W link s d queued settlement with
    | dropped => exact h.of_sameCount htaken
    | refused text => exact (h.of_sameCount htaken).of_sameCount (Page.Kept.fail _ _ _).sameCount
    | suspended point =>
      have hbegin : beginChunk s d queued.chunk = .suspended point := by
        rw [chunkOutcome, hwaiting] at houtcome
        exact houtcome
      obtain ⟨hisEncrypted, rfl⟩ := begin_suspended hbegin
      have hincomplete : queued.chunk.fileName ∉ d.completedFiles := by
        obtain hdropped | hrefused | ⟨-, hincomplete, -⟩ := beginChunk_cases s d queued.chunk
        · rw [hdropped] at hbegin
          cases hbegin
        · rw [hbegin] at hrefused
          cases hrefused
        · exact hincomplete
      refine h.suspend hnext hchain hcounted (hencrypted.symm.trans hisEncrypted) hincomplete
        (fun activePc fileKey hkey => ?_) rfl (waiting_putBack hnext rfl rfl) id
      cases hkey
    | delivered plaintext => exact hdelivers houtcome
  · have hsome : queued.waiting.isSome := by rw [hwaiting]; rfl
    obtain ⟨hencrypted', hincomplete, -⟩ := h.waiting d hd queued
      (hchain ▸ Page.waiting_of_nextChunk hnext hsome)
    obtain ⟨hgone, houtcome⟩ | ⟨-, ⟨fileKey, houtcome, hderive⟩ | ⟨plaintext, houtcome⟩⟩ :=
      waiting_outcome h hnext hchain hfulfilled hchunk hsome
    · rw [houtcome]
      have hcounted' : queued.counted d = d := by
        rw [QueuedChunk.counted, hwaiting]
      rw [hcounted'] at hcounted
      refine h.settle hd ⟨rfl, rfl, rfl, rfl⟩ hcounted d
        ⟨rfl, rfl, rfl, fun _ _ => rfl, rfl, List.Subset.refl _, fun _ => id⟩
        (fun hreceiving hreceives => ?_) hd ?_ id
      · -- the page is not paused, and not gone either
        have hnot := hunpaused _ hnext hsome hreceiving hreceives
        rcases hgone with hgone | hgone
        · exact absurd hreceiving (by rw [hgone]; exact Bool.false_ne_true)
        · exact absurd hgone (by rw [hnot]; exact Bool.false_ne_true)
      · have hnone := waiting_takeChunk hconsistent chain d.connection
        rwa [if_pos hchain] at hnone
    · rw [houtcome]
      refine h.suspend hnext hchain hcounted hencrypted' hincomplete
        (fun activePc fileKey' hkey => ?_) rfl (waiting_putBack hnext rfl rfl) id
      cases hkey
      exact hderive
    · rw [houtcome]
      exact hdelivers houtcome

theorem balanced_create (encrypted : Bool) (connection : ℕ) (files : List FileInfo)
    (resumeData : Option (List (String × FileProgress)))
    (hlisted : fileName ∈ files.map FileInfo.fileName)
    (hnot : (Download.create connection files resumeData).wasCompleted fileName = false) :
    (Download.create connection files resumeData).Balanced encrypted none fileName := by
  have hnext : (Download.create connection files resumeData).nextOffset fileName =
      (Download.create connection files resumeData).resumeOffset fileName := by
    rw [Download.Consistent.nextOffset_create, if_pos ⟨hlisted, hnot⟩]
  have htotal : ((Download.create connection files resumeData).totalBytesReceived
      fileName).getD 0 = (Download.create connection files resumeData).nextOffset fileName := rfl
  rw [Download.Balanced, htotal, hnext, sub_self, zero_div, zero_mul, inFlight, Nat.cast_zero,
    add_zero, add_zero]

theorem Page.Tally.startDownload (h : s.Tally W link content encrypted)
    (hconsistent : s.Consistent content)
    (hsizes : ∀ files ∈ s.filesInfo, ∀ f ∈ files, f.size = (content f.fileName).length) :
    (Downloader.startDownload s).1.Tally W link content encrypted := by
  rw [Downloader.startDownload]
  split
  next d hnew =>
    have hnone := hconsistent.download_eq_none hnew
    obtain ⟨-, peer, files, -, hfiles, rfl⟩ := Page.newDownload_eq_some hnew
    have hwaiting (chain : ℕ) : s.waiting chain = none :=
      waiting_eq_none hconsistent (by simp [Page.nextChunk, hnone])
    have hdecrypting (chain : ℕ) : s.decrypting chain = none := by
      rw [Page.decrypting, hwaiting, Option.map_none]
    refine ⟨fun d hd f hf => ?_, fun _ d hd f hf hreceives => ?_, fun d hd queued hqueued => ?_⟩
    · obtain rfl := Option.some_inj.mp hd
      exact hsizes files hfiles f hf
    · obtain rfl := Option.some_inj.mp hd
      have hcreated := balanced_create encrypted peer.connection files _ hreceives.1
        hreceives.2.1
      rw [← hdecrypting peer.connection] at hcreated
      exact hcreated
    · have hold : queued ∈ s.waiting d.connection := hqueued
      rw [hwaiting] at hold
      exact absurd hold (Option.not_mem_none queued)
  next => exact h

/-- The page with what it counts. -/
structure Page.Counted (W : WebCrypto) (link : Link) (content : String → Bytes)
    (encrypted : Bool) (s : Page) : Prop where
  consistent : s.Consistent content
  tally : s.Tally W link content encrypted

/-- **One step keeps the count right**, unless a counted chunk is dropped. -/
theorem Page.Counted.step (h : s.Counted W link content encrypted) {event : Event}
    (hhonest : Honest W link content encrypted past s event)
    (hunpaused : DecryptsUnpaused past s event) :
    (step W link s event).1.Counted W link content encrypted := by
  refine ⟨h.consistent.step (genuineChunks_of_honest h.tally h.consistent hhonest), ?_⟩
  cases hmoves : event.moves with
  | false => exact h.tally.of_sameCount (step_kept s hmoves).sameCount
  | true =>
    cases event with
    | mounted expired =>
      exact ⟨fun _ hnone => absurd hnone (Option.not_mem_none _),
        fun _ _ hnone => absurd hnone (Option.not_mem_none _),
        fun _ hnone => absurd hnone (Option.not_mem_none _)⟩
    | started => exact h.tally.startDownload h.consistent hhonest
    | chunkResumed chain settlement =>
      exact h.tally.resumeChain h.consistent hhonest hunpaused
    | _ => cases hmoves

/-! ### The size check and the count -/

theorem Page.Counted.not_refusesSize (h : s.Counted W link content encrypted)
    (hhonest : Honest W link content encrypted past s (.chunkResumed chain settlement)) :
    ¬s.RefusesSize chain := by
  rintro ⟨⟨d, queued⟩, hnext, hwaiting, hreceives, hrefused⟩
  obtain ⟨hchain, -, -, hoffset, hinside, -, -, hbytes⟩ : chain = d.connection ∧
      s.isEncrypted = encrypted ∧ settlement.fulfilled ∧
      HonestChunk W link content encrypted queued.chunk := hhonest _ hnext
  have hd := (Page.nextChunk_eq_some hnext).1
  obtain ⟨f, hf, hname⟩ := List.mem_map.mp hreceives.1
  have hname : f.fileName = queued.chunk.fileName := hname
  -- the refusal came from the size check, so the chunk starts where its file stands
  rw [beginChunk] at hrefused
  split at hrefused
  · cases hrefused
  next hhere =>
    split at hrefused
    · cases hrefused
    split at hrefused
    next text hfailure =>
      obtain rfl : text = moreThanExpected := ChunkOutcome.refused.inj hrefused
      rw [Download.chunkFailure] at hfailure
      split_ifs at hfailure with hlarge hplace hmore
      · exact absurd (Option.some.inj hfailure) (by decide)
      · exact absurd (Option.some.inj hfailure) (by decide)
      have hreceiving : s.receiving := by
        by_contra hnot
        exact hhere (.inl (Bool.eq_false_of_not_eq_true hnot))
      have hbalanced := h.tally.accounts hreceiving d hd f hf (hname ▸ hreceives)
      rw [Page.decrypting, ← hchain, Page.waiting_eq_none_of_nextChunk hnext hwaiting,
        Option.map_none, Download.Balanced, inFlight, hname] at hbalanced
      obtain ⟨g, hg, hover⟩ := (Option.any_eq_true _ _).mp hmore
      rw [decide_eq_true_iff] at hover
      have hsize : g.size = (content queued.chunk.fileName).length := by
        have hfound := List.find?_some hg
        rw [decide_eq_true_iff] at hfound
        rw [h.tally.sizes d hd g (List.mem_of_find?_eq_some hg), hfound]
      have hstart : d.nextOffset queued.chunk.fileName = queued.chunk.start :=
        (not_not.mp hplace).symm.trans hoffset
      obtain ⟨r, hr, -⟩ := Download.Consistent.within_resumeOffset
        ((h.consistent.download d hd).saved queued.chunk.fileName)
      have hlength := length_sliceAt hinside
      have hfits : queued.chunk.start + queued.chunk.bytes.length ≤
          (content queued.chunk.fileName).length + overhead encrypted := by omega
      have hfits : (queued.chunk.start : ℚ) + queued.chunk.bytes.length ≤
          (content queued.chunk.fileName).length + overhead encrypted := by exact_mod_cast hfits
      have hinside : (queued.chunk.start : ℚ) ≤ (content queued.chunk.fileName).length := by
        exact_mod_cast hinside
      have hover' : (overhead encrypted : ℚ) ≤ encryptionOverheadPerChunk := by
        have hle : overhead encrypted ≤ encryptionOverheadPerChunk := by
          cases encrypted
          · exact Nat.zero_le _
          · exact le_rfl
        exact_mod_cast hle
      -- the chunks before this one were whole ones within the file
      have hchunks : ((queued.chunk.start : ℚ) - r) / maxChunkSize ≤
          (content queued.chunk.fileName).length / maxChunkSize := by
        refine div_le_div_of_nonneg_right ?_ (Nat.cast_nonneg maxChunkSize)
        linarith
      have hchunks0 : (0 : ℚ) ≤ (content queued.chunk.fileName).length / maxChunkSize :=
        div_nonneg (Nat.cast_nonneg _) (Nat.cast_nonneg _)
      have hpaid : ((queued.chunk.start : ℚ) - r) / maxChunkSize * overhead encrypted ≤
          (content queued.chunk.fileName).length / maxChunkSize *
            encryptionOverheadPerChunk :=
        (mul_le_mul_of_nonneg_right hchunks (Nat.cast_nonneg _)).trans
          (mul_le_mul_of_nonneg_left hover' hchunks0)
      have hroom := @le_maxReceived (content queued.chunk.fileName).length
        ((content queued.chunk.fileName).length / maxChunkSize + 1) le_rfl
      rw [hsize, Download.received, hbalanced, hstart, hr, Nat.cast_zero, add_zero] at hover
      linarith
    · split at hrefused <;> cases hrefused

theorem Page.Counted.unpaused (h : s.Counted W link content encrypted)
    (hhonest : Honest W link content encrypted past s (.chunkResumed chain settlement))
    (haccounts : (Downloader.step W link s (.chunkResumed chain settlement)).1.Accounts encrypted) :
    DecryptsUnpaused past s (.chunkResumed chain settlement) := by
  rintro ⟨d, queued⟩ hnext hwaiting hreceiving hreceives
  obtain ⟨hchain, -, hfulfilled, hchunk⟩ : chain = d.connection ∧
      s.isEncrypted = encrypted ∧ settlement.fulfilled ∧
      HonestChunk W link content encrypted queued.chunk := hhonest _ hnext
  have hd := (Page.nextChunk_eq_some hnext).1
  obtain ⟨rfl, -, -⟩ := h.tally.waiting d hd queued
    (hchain ▸ Page.waiting_of_nextChunk hnext hwaiting)
  by_contra hpaused
  have hpaused : s.isPaused = true := Bool.eq_true_of_not_eq_false hpaused
  have hdropped : chunkOutcome W link s d queued settlement = .dropped := by
    obtain ⟨-, houtcome⟩ | ⟨hhere, -⟩ :=
      waiting_outcome h.tally hnext hchain hfulfilled hchunk hwaiting
    · exact houtcome
    · exact absurd (.inr hpaused) hhere
  obtain ⟨f, hf, hname⟩ := List.mem_map.mp hreceives.1
  have hname : f.fileName = queued.chunk.fileName := hname
  have hbefore := h.tally.accounts hreceiving d hd f hf (hname ▸ hreceives)
  have hstep : (Downloader.step W link s (.chunkResumed chain settlement)).1 =
      s.takeChunk chain := by
    dsimp only [Downloader.step]
    rw [resumeChain_eq_settleChunk W link hnext, hdropped]
    rfl
  rw [hstep] at haccounts
  have hafter := haccounts hreceiving d hd f hf (hname ▸ hreceives)
  have hnone := waiting_takeChunk h.consistent chain d.connection
  rw [if_pos hchain] at hnone
  rw [Page.decrypting, hnone, Option.map_none, Download.Balanced, inFlight] at hafter
  rw [Page.decrypting, ← hchain, Page.waiting_of_nextChunk hnext hwaiting, Option.map_some,
    Download.Balanced, hafter, inFlight, if_pos hname.symm] at hbefore
  have hpos : 0 < queued.chunk.bytes.length := by
    rw [hchunk.2.2.2.2]
    exact Nat.add_pos_right _ (by decide)
  have hpos : (0 : ℚ) < queued.chunk.bytes.length := by exact_mod_cast hpos
  rw [Nat.cast_zero] at hbefore
  linarith

end Steps

/-- **The count is right as long as nothing that was counted is dropped.** Along a run with an
honest uploader, no chunk of a file that is being received is refused for its size and the count
is right after every step, if and only if no such chunk is woken on the way through its
decryption while the page is paused. -/
theorem countsOnce_iff (W : WebCrypto) (link : Link) (content : String → Bytes)
    (encrypted : Bool) (events : List Event)
    (hhonest : (downloader W link).Along (Honest W link content encrypted) events) :
    (downloader W link).Along (CountsOnce W link encrypted) events ↔
      (downloader W link).Along DecryptsUnpaused events := by
  have hcongr := @System.along_congr_of_invariant _ _ _ (downloader W link)
    (fun past s event => Honest W link content encrypted past s event ∧
      DecryptsUnpaused past s event)
    (fun _ s _ => s.Counted W link content encrypted)
    (fun past s event => Honest W link content encrypted past s event ∧
      CountsOnce W link encrypted past s event)
    ?_ ?_ ?_ events
  · rw [System.along_and, System.along_and] at hcongr
    constructor
    · intro hcounts
      exact (hcongr.mp ⟨hhonest, hcounts⟩).2
    · intro hunpaused
      exact (hcongr.mpr ⟨hhonest, hunpaused⟩).2
  · -- the page with no download
    refine ⟨⟨fun _ hnone => absurd hnone (Option.not_mem_none _),
      fun _ hnone => absurd hnone (Option.not_mem_none _),
      fun _ hnone => absurd hnone (Option.not_mem_none _),
      fun hsome => absurd hsome Bool.false_ne_true, fun _ => rfl,
      fun _ _ hqueue => absurd hqueue (by simp [downloader])⟩, ?_⟩
    exact ⟨fun _ hnone => absurd hnone (Option.not_mem_none _),
      fun _ _ hnone => absurd hnone (Option.not_mem_none _),
      fun _ hnone => absurd hnone (Option.not_mem_none _)⟩
  · rintro past event hcounted ⟨hhonest, hunpaused⟩
    exact hcounted.step hhonest hunpaused
  · intro past event hcounted
    refine and_congr_right fun hhonest => ?_
    constructor
    · rintro ⟨-, haccounts⟩
      cases event with
      | chunkResumed chain settlement => exact hcounted.unpaused hhonest haccounts
      | _ => trivial
    · intro hunpaused
      refine ⟨?_, (hcounted.step hhonest hunpaused).tally.accounts⟩
      cases event with
      | chunkResumed chain settlement => exact hcounted.not_refusesSize hhonest
      | _ => trivial

/-! ### Two transfers -/

/-- A cipher with a tag and nothing else, for runs of the model. -/
def taggingCrypto : WebCrypto :=
  { plainCrypto with
    encrypt := fun _ _ plaintext => plaintext ++ List.replicate WebCrypto.gcmTagLength 0
    decrypt := fun _ _ ciphertext =>
      some (ciphertext.take (ciphertext.length - WebCrypto.gcmTagLength)) }

/-- A link to encrypted files. -/
def secretLink : Link where
  slug := ""
  encryptionKey := [7]
  hkdfSalt := some [8]

/-- All files are of 500 bytes. -/
def fiveHundredBytes : String → Bytes := fun _ => List.replicate 500 1

/-- A chunk that holds all of a file. -/
def wholeChunk : Message :=
  .chunk "a" (some 0) 0
    (taggingCrypto.encryptChunk [] (List.replicate WebCrypto.ivLength 0) (fiveHundredBytes "a"))
    true

/-- The page is told of the file and starts the download. -/
def beginSecretRun : List Event :=
  [.offered, .opened,
    .received (.info
      { files := [{ fileName := "a", size := 500, type := "" }], encrypted := some true }),
    .started]

/-- The file comes in one piece. -/
def undisturbedRun : List Event :=
  beginSecretRun ++
    [.received wholeChunk, .chunkResumed 0 {}, .chunkResumed 0 {}, .chunkResumed 0 {}]

theorem countsOnce_undisturbedRun :
    (downloader taggingCrypto secretLink).Along (CountsOnce taggingCrypto secretLink true)
      undisturbedRun :=
  (countsOnce_iff taggingCrypto secretLink fiveHundredBytes true undisturbedRun
    (by decide +kernel)).mpr (by decide +kernel)

/-- The chunk arrives and the download is paused and resumed while the chunk is decrypted. -/
def pausedChunk : List Event :=
  [.received wholeChunk, .chunkResumed 0 {}, .paused, .chunkResumed 0 {}, .unpaused]

/-- The chunk is sent again after each of two pauses. -/
def twicePausedRun : List Event :=
  beginSecretRun ++ pausedChunk ++ pausedChunk ++ [.received wholeChunk, .chunkResumed 0 {}]

/-- A transfer that is paused twice at the wrong moment fails, with an honest uploader. -/
theorem twicePaused_refused :
    (downloader taggingCrypto secretLink).Along
        (Honest taggingCrypto secretLink fiveHundredBytes true) twicePausedRun ∧
      .errorMessage moreThanExpected ∈
        (downloader taggingCrypto secretLink).log twicePausedRun ∧
      ¬(downloader taggingCrypto secretLink).Along
        (CountsOnce taggingCrypto secretLink true) twicePausedRun := by
  decide +kernel

end Rapidly.FileSharing.Downloader
