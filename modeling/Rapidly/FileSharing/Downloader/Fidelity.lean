import Rapidly.FileSharing.Downloader.Completion

/-!
# What a resumed download puts into the file

A download that is interrupted is resumed at the saved offset, with the saved state of the
hasher. The bytes before that offset are kept nowhere: the output stream of the new session
starts empty (`resume-store.ts` says so). What the hasher verifies is the whole file, and what
is enqueued is the rest of it. A file that an earlier session completed is not requested at
all, and its stream ends empty.

The invariant (`Page.Consistent`) relates the three for an uploader that sends what the files
contain (`GenuineChunks`): the bytes before the resume offset and the bytes enqueued are
together the bytes before the next offset.

* `resumedRun_truncated` is a run that reports a file verified whose head is missing.
* `faithful_iff_startsFresh` is the exact condition.
-/

namespace Rapidly.FileSharing.Downloader

open Transition

variable {W : WebCrypto} {link : Link} {content : String → Bytes}

/-! ### The uploader's side -/

/-- The position of a chunk in its file. -/
def Chunk.start (chunk : Chunk) : ℕ := chunk.offset.num.toNat

/-- The chunk has what its file contains from its offset on, and is flagged final only where
the file ends. -/
def Delivery.Genuine (content : String → Bytes) (δ : Delivery) : Prop :=
  δ.chunk.offset = δ.chunk.start ∧
    δ.plaintext <+: (content δ.chunk.fileName).drop δ.chunk.start ∧
    (δ.chunk.final → δ.chunk.start + δ.plaintext.length = (content δ.chunk.fileName).length)

instance (δ : Delivery) : Decidable (δ.Genuine content) := inferInstanceAs (Decidable (_ ∧ _))

/-- What a step hands to the output came from the files, over the connection that the download
was started on. -/
def GenuineChunks (W : WebCrypto) (link : Link) (content : String → Bytes) :
    System.Condition Page Event :=
  fun _ s event =>
    match event with
    | .chunkResumed chain settlement =>
      ∀ δ ∈ s.delivery W link chain settlement,
        δ.Genuine content ∧ chain = δ.download.connection
    | _ => True

instance (past : List Event) (s : Page) :
    ∀ event, Decidable (GenuineChunks W link content past s event) := by
  rintro ⟨⟩
  case chunkResumed =>
    dsimp only [GenuineChunks]
    infer_instance
  all_goals exact isTrue trivial

/-! ### What fidelity says -/

/-- The stream of a verified file has the whole file, and in an archive so has the stream of a
file that an earlier session completed. -/
def Output.Faithful (content : String → Bytes) (d : Download) : Output → Prop
  | .fileCompleted fileName _ true => (d.streams fileName).content = content fileName
  | .skipped fileName =>
    1 < d.filesInfo.length → (d.streams fileName).content = content fileName
  | _ => True

instance (d : Download) (o : Output) : Decidable (o.Faithful content d) := by
  unfold Output.Faithful
  split <;> infer_instance

/-- What a step reports about files is true of the output streams. -/
def Faithful (W : WebCrypto) (link : Link) (content : String → Bytes) :
    System.Condition Page Event :=
  fun _ s event =>
    ∀ o ∈ (step W link s event).2, ∀ d ∈ (step W link s event).1.download, o.Faithful content d

instance (past : List Event) (s : Page) (event : Event) :
    Decidable (Faithful W link content past s event) :=
  inferInstanceAs (Decidable (∀ o ∈ _, ∀ d ∈ _, _))

/-- The chunk completes its file. -/
def Delivery.Completes (W : WebCrypto) (δ : Delivery) : Prop :=
  δ.chunk.final ∧ δ.isOpen ∧ δ.written.hashMatches W δ.chunk.fileName ≠ some false

instance (δ : Delivery) : Decidable (δ.Completes W) := inferInstanceAs (Decidable (_ ∧ _))

/-- The chunk completes its file, and there is a hash to verify it against. -/
def Delivery.Verifies (W : WebCrypto) (δ : Delivery) : Prop :=
  δ.Completes W ∧ (δ.written.hashMatches W δ.chunk.fileName).isSome

instance (δ : Delivery) : Decidable (δ.Verifies W) := inferInstanceAs (Decidable (_ ∧ _))

/-- What an archive skips next is empty. -/
def Download.SkipsEmpty (content : String → Bytes) (d : Download) : Prop :=
  1 < d.filesInfo.length → ∀ f ∈ d.skippedFiles, content f.fileName = []

instance (d : Download) : Decidable (d.SkipsEmpty content) :=
  inferInstanceAs (Decidable (_ → ∀ f ∈ _, _))

/-- A file that is verified was requested from its beginning in this session, and a file that
an archive skips is empty. -/
def StartsFresh (W : WebCrypto) (link : Link) (content : String → Bytes) :
    System.Condition Page Event :=
  fun _ s event =>
    match event with
    | .started => ∀ d ∈ s.newDownload, d.SkipsEmpty content
    | .chunkResumed chain settlement =>
      ∀ δ ∈ s.delivery W link chain settlement,
        (δ.Verifies W → δ.download.resumeOffset δ.chunk.fileName = 0) ∧
          (δ.Completes W → δ.download.SkipsEmpty content)
    | _ => True

instance (past : List Event) (s : Page) :
    ∀ event, Decidable (StartsFresh W link content past s event) := by
  rintro ⟨⟩
  case started | chunkResumed =>
    dsimp only [StartsFresh]
    infer_instance
  all_goals exact isTrue trivial

/-! ### The invariant of a download -/

/-- An offset within a file. -/
def Within (content : String → Bytes) (fileName : String) (offset : ℚ) : Prop :=
  ∃ n : ℕ, offset = n ∧ n ≤ (content fileName).length

/-- The offsets of a record are within the files. -/
def TransferProgress.Within (content : String → Bytes) (prior : TransferProgress) : Prop :=
  ∀ fileName, ∀ rp ∈ prior.fileProgress.lookup fileName,
    Downloader.Within content fileName rp.bytesReceived

/-- The file up to the resume offset, followed by what was enqueued, is the file up to the next
offset. -/
def Download.Written (content : String → Bytes) (d : Download) (fileName : String) : Prop :=
  ∃ r n : ℕ, d.resumeOffset fileName = r ∧ d.nextOffset fileName = n ∧
    (content fileName).take r ++ (d.streams fileName).content = (content fileName).take n

structure Download.Consistent (content : String → Bytes) (d : Download) : Prop where
  saved : ∀ fileName, ∀ rp ∈ d.savedProgress fileName, Within content fileName rp.bytesReceived
  offset : ∀ fileName, Within content fileName (d.nextOffset fileName)
  written : ∀ fileName ∈ d.filesInfo.map FileInfo.fileName, d.wasCompleted fileName = false →
    (d.streams fileName).isClosed = false → d.Written content fileName
  skipped : ∀ fileName, d.wasCompleted fileName → (d.streams fileName).content = []
  requested : ∀ fileName ∈ d.requestedFiles, fileName ∈ d.filesInfo.map FileInfo.fileName ∧
    (fileName ∉ d.completedFiles → d.wasCompleted fileName = false)
  remaining : d.remainingFiles ⊆ d.filesInfo

theorem within_zero (fileName : String) : Within content fileName 0 :=
  ⟨0, Nat.cast_zero.symm, Nat.zero_le _⟩

/-- The two downloads are about the same files, over the same connection, and expect the same
chunks next. -/
structure Download.SameOffsets (d d' : Download) : Prop where
  connection : d'.connection = d.connection
  filesInfo : d'.filesInfo = d.filesInfo
  resumeData : d'.resumeData = d.resumeData
  expectedOffset : d'.expectedOffset = d.expectedOffset

/-- The chunk is one of a file that is being received, and starts where the file stands. -/
def Download.Awaits (d : Download) (chunk : Chunk) : Prop :=
  chunk.fileName ∈ d.filesInfo.map FileInfo.fileName ∧ d.wasCompleted chunk.fileName = false ∧
    chunk.offset = d.nextOffset chunk.fileName

namespace Download.SameOffsets

variable {d d' : Download} (h : d.SameOffsets d')

include h

theorem savedProgress : d'.savedProgress = d.savedProgress := by
  funext fileName
  rw [Download.savedProgress, Download.savedProgress, h.resumeData]

theorem wasCompleted : d'.wasCompleted = d.wasCompleted := by
  funext fileName
  rw [Download.wasCompleted, Download.wasCompleted, h.savedProgress]

theorem resumeOffset : d'.resumeOffset = d.resumeOffset := by
  funext fileName
  rw [Download.resumeOffset, Download.resumeOffset, h.savedProgress]

theorem nextOffset : d'.nextOffset = d.nextOffset := by
  funext fileName
  rw [Download.nextOffset, Download.nextOffset, h.expectedOffset]

theorem awaits {chunk : Chunk} (hawaits : d.Awaits chunk) : d'.Awaits chunk := by
  rw [Download.Awaits, h.filesInfo, h.wasCompleted, h.nextOffset]
  exact hawaits

end Download.SameOffsets

namespace Download.Consistent

variable {d : Download}

theorem within_resumeOffset {fileName : String}
    (h : ∀ rp ∈ d.savedProgress fileName, Within content fileName rp.bytesReceived) :
    Within content fileName (d.resumeOffset fileName) := by
  rw [Download.resumeOffset]
  obtain hsaved | ⟨rp, hsaved⟩ := Option.eq_none_or_eq_some (d.savedProgress fileName)
  · rw [hsaved]
    exact within_zero fileName
  · rw [hsaved]
    exact h rp hsaved

theorem of_sameOffsets (h : d.Consistent content) {d' : Download} (hsame : d.SameOffsets d')
    (hrequested : ∀ fileName ∈ d'.requestedFiles, fileName ∈ d.requestedFiles ∨
      fileName ∈ d.filesInfo.map FileInfo.fileName ∧
        (fileName ∉ d'.completedFiles → d.wasCompleted fileName = false))
    (hcompleted : d.completedFiles ⊆ d'.completedFiles)
    (hremaining : d'.remainingFiles ⊆ d.remainingFiles)
    (hcontent : ∀ fileName, (d'.streams fileName).content = (d.streams fileName).content)
    (hopen : ∀ fileName, (d'.streams fileName).isClosed = false →
      (d.streams fileName).isClosed = false) :
    d'.Consistent content := by
  constructor
  · rw [hsame.savedProgress]
    exact h.saved
  · rw [hsame.nextOffset]
    exact h.offset
  · intro fileName hname hnot hclosed
    rw [hsame.filesInfo] at hname
    rw [hsame.wasCompleted] at hnot
    obtain ⟨r, n, hr, hn, heq⟩ := h.written fileName hname hnot (hopen fileName hclosed)
    exact ⟨r, n, by rw [hsame.resumeOffset, hr], by rw [hsame.nextOffset, hn],
      by rw [hcontent, heq]⟩
  · intro fileName hname
    rw [hcontent]
    exact h.skipped fileName (hsame.wasCompleted ▸ hname)
  · intro fileName hname
    rw [hsame.filesInfo, hsame.wasCompleted]
    rcases hrequested fileName hname with hold | hnew
    · obtain ⟨hlisted, hnot⟩ := h.requested fileName hold
      exact ⟨hlisted, fun hincomplete => hnot fun hmem => hincomplete (hcompleted hmem)⟩
    · exact hnew
  · rw [hsame.filesInfo]
    exact List.Subset.trans hremaining h.remaining

end Download.Consistent

theorem Download.content_closeStream (d : Download) (fileName fileName' : String) :
    ((d.closeStream fileName).streams fileName').content = (d.streams fileName').content := by
  by_cases hsame : fileName' = fileName
  · subst hsame
    simp [Download.closeStream]
  · simp [Download.closeStream, hsame]

/-- The two downloads have received the same, and the second has no more open streams. -/
structure Download.Kept (d d' : Download) : Prop extends d.SameOffsets d' where
  totalBytesReceived : d'.totalBytesReceived = d.totalBytesReceived
  requestedFiles : d'.requestedFiles = d.requestedFiles
  completedFiles : d'.completedFiles = d.completedFiles
  remainingFiles : d'.remainingFiles = d.remainingFiles
  content : ∀ fileName, (d'.streams fileName).content = (d.streams fileName).content
  isOpen : ∀ fileName, (d'.streams fileName).isClosed = false →
    (d.streams fileName).isClosed = false

namespace Download.Kept

variable {d d' d'' : Download}

theorem refl (d : Download) : d.Kept d :=
  ⟨⟨rfl, rfl, rfl, rfl⟩, rfl, rfl, rfl, rfl, fun _ => rfl, fun _ => id⟩

theorem trans (h : d.Kept d') (h' : d'.Kept d'') : d.Kept d'' where
  connection := h'.connection.trans h.connection
  filesInfo := h'.filesInfo.trans h.filesInfo
  resumeData := h'.resumeData.trans h.resumeData
  expectedOffset := h'.expectedOffset.trans h.expectedOffset
  totalBytesReceived := h'.totalBytesReceived.trans h.totalBytesReceived
  requestedFiles := h'.requestedFiles.trans h.requestedFiles
  completedFiles := h'.completedFiles.trans h.completedFiles
  remainingFiles := h'.remainingFiles.trans h.remainingFiles
  content fileName := (h'.content fileName).trans (h.content fileName)
  isOpen fileName hopen := h.isOpen fileName (h'.isOpen fileName hopen)

theorem closeStreams (d : Download) : d.Kept d.closeStreams :=
  { refl d with isOpen := fun _ hopen => absurd hopen.symm Bool.false_ne_true }

theorem closeStream (d : Download) (fileName : String) : d.Kept (d.closeStream fileName) := by
  refine { refl d with
    content := content_closeStream d fileName, isOpen := fun fileName' hopen => ?_ }
  by_cases hsame : fileName' = fileName
  · subst hsame
    simp [Download.closeStream] at hopen
  · simpa [Download.closeStream, hsame] using hopen

theorem setStage (d : Download) (stage : Stage) : d.Kept { d with stage } := { refl d with }

theorem consistent (h : d.Kept d') (hd : d.Consistent content) : d'.Consistent content :=
  hd.of_sameOffsets h.toSameOffsets (fun _ hname => .inl (h.requestedFiles ▸ hname))
    (h.completedFiles ▸ List.Subset.refl _) (h.remainingFiles ▸ List.Subset.refl _) h.content
    h.isOpen

end Download.Kept

namespace Download.Consistent

variable {d : Download}

theorem finalize (h : d.Consistent content) (fileName : String) :
    (d.finalize fileName).Consistent content :=
  h.of_sameOffsets ⟨rfl, rfl, rfl, rfl⟩ (fun _ => .inl) (List.Subset.refl _) (List.Subset.refl _)
    (fun _ => rfl) fun _ => id

theorem closeStream (h : d.Consistent content) (fileName : String) :
    (d.closeStream fileName).Consistent content :=
  (Download.Kept.closeStream d fileName).consistent h

theorem complete (h : d.Consistent content) (fileName : String) :
    (d.complete fileName).Consistent content := by
  have hmarked :
      { d with completedFiles := d.completedFiles ++ [fileName] }.Consistent content :=
    h.of_sameOffsets ⟨rfl, rfl, rfl, rfl⟩ (fun _ => .inl) (List.subset_append_left _ _)
      (List.Subset.refl _) (fun _ => rfl) fun _ => id
  exact hmarked.closeStream fileName

theorem content_startNextFileOrFinish (d : Download) (fileName : String) :
    (d.startNextFileOrFinish.streams fileName).content = (d.streams fileName).content := by
  unfold Download.startNextFileOrFinish
  dsimp only
  split <;> rfl

theorem startNextFileOrFinish (h : d.Consistent content) :
    d.startNextFileOrFinish.Consistent content := by
  have hsplit : d.skippedFiles ++ d.unskippedFiles = d.remainingFiles :=
    List.takeWhile_append_dropWhile
  have hskipped : ∀ f ∈ d.skippedFiles, f ∈ d.filesInfo := fun f hf =>
    h.remaining (hsplit ▸ List.mem_append_left _ hf)
  have hunskipped : ∀ f ∈ d.unskippedFiles, f ∈ d.filesInfo := fun f hf =>
    h.remaining (hsplit ▸ List.mem_append_right _ hf)
  refine h.of_sameOffsets ⟨rfl, rfl, rfl, rfl⟩ (fun fileName hname => ?_)
    (List.subset_append_left _ _) (fun f hf => ?_) (content_startNextFileOrFinish d)
    fun fileName hopen => ?_
  · rcases List.mem_append.mp hname with hold | hnew
    · exact .inl hold
    refine .inr ?_
    rcases List.mem_append.mp hnew with hskip | hactive
    · obtain ⟨f, hf, rfl⟩ := List.mem_map.mp hskip
      refine ⟨List.mem_map_of_mem (hskipped f hf), fun hnot => absurd ?_ hnot⟩
      exact List.mem_append_right _ (List.mem_map_of_mem hf)
    · obtain ⟨f, hf, rfl⟩ := Option.map_eq_some_iff.mp (Option.mem_toList.mp hactive)
      exact ⟨List.mem_map_of_mem (hunskipped f (List.mem_of_head? hf)),
        fun _ => Download.wasCompleted_head_unskippedFiles hf⟩
  · rw [← hsplit]
    exact List.mem_append_right _ (List.mem_of_mem_tail hf)
  · by_cases hskip : fileName ∈ d.skippedFiles.map FileInfo.fileName
    · simp only [Download.startNextFileOrFinish, if_pos hskip] at hopen
      exact absurd hopen.symm Bool.false_ne_true
    · simpa only [Download.startNextFileOrFinish, if_neg hskip] using hopen

theorem nextOffset_create (connection : ℕ) (files : List FileInfo)
    (resumeData : Option (List (String × FileProgress))) (fileName : String) :
    (Download.create connection files resumeData).nextOffset fileName =
      if fileName ∈ files.map FileInfo.fileName ∧
          (Download.create connection files resumeData).wasCompleted fileName = false then
        (Download.create connection files resumeData).resumeOffset fileName
      else 0 := by
  unfold Download.nextOffset Download.wasCompleted Download.resumeOffset Download.savedProgress
    Download.create
  dsimp only
  by_cases hlisted : fileName ∈ files.map FileInfo.fileName
  · rw [if_pos hlisted]
    cases resumeData.bind fun progress => progress.lookup fileName with
    | none => simp [hlisted]
    | some rp => cases hcompleted : rp.completed <;> simp [Option.filter, hlisted, hcompleted]
  · rw [if_neg hlisted, if_neg fun h => hlisted h.1]
    rfl

theorem create {connection : ℕ} {files : List FileInfo} {prior : Option TransferProgress}
    (h : ∀ record ∈ prior, record.Within content) :
    (Download.create connection files (prior.map TransferProgress.fileProgress)).Consistent
      content := by
  have hsaved : ∀ fileName, ∀ rp ∈ (Download.create connection files
      (prior.map TransferProgress.fileProgress)).savedProgress fileName,
      Within content fileName rp.bytesReceived := by
    intro fileName rp hrp
    obtain ⟨progress, hprogress, hlookup⟩ := Option.bind_eq_some_iff.mp hrp
    obtain ⟨record, hrecord, rfl⟩ := Option.map_eq_some_iff.mp hprogress
    exact h record hrecord fileName rp hlookup
  have hresume := fun fileName => within_resumeOffset (hsaved fileName)
  refine ⟨hsaved, fun fileName => ?_, fun fileName hname hnot _ => ?_, fun _ _ => rfl,
    fun _ hname => absurd hname List.not_mem_nil, List.Subset.refl _⟩
  · rw [nextOffset_create]
    split
    · exact hresume fileName
    · exact within_zero fileName
  · obtain ⟨r, hr, -⟩ := hresume fileName
    refine ⟨r, r, hr, ?_, List.append_nil _⟩
    rw [nextOffset_create, if_pos ⟨hname, hnot⟩, hr]

theorem snapshot (h : d.Consistent content) : d.snapshot.Within content := by
  intro fileName rp hrp
  rw [Download.lookup_snapshot hrp]
  exact h.offset fileName

end Download.Consistent

/-! ### What a chunk does to the invariant -/

section Delivery

variable {δ : Delivery}

theorem Delivery.Genuine.start_eq (h : δ.Genuine content) {n : ℕ} (hn : δ.chunk.offset = n) :
    δ.chunk.start = n :=
  Nat.cast_injective (h.1.symm.trans hn)

theorem Delivery.Genuine.within (h : δ.Genuine content)
    (hstart : Within content δ.chunk.fileName δ.chunk.offset) :
    Within content δ.chunk.fileName (δ.chunk.offset + δ.plaintext.length) := by
  obtain ⟨n, hn, hle⟩ := hstart
  have hstart := h.start_eq hn
  have hlength := h.2.1.length_le
  rw [List.length_drop, hstart] at hlength
  refine ⟨n + δ.plaintext.length, ?_, by omega⟩
  rw [hn, Nat.cast_add]

theorem nextOffset_advance (d : Download) (chunk : Chunk) (plaintext : Bytes)
    (fileName : String) :
    (d.advance chunk plaintext).nextOffset fileName =
      if fileName = chunk.fileName then chunk.offset + plaintext.length
      else d.nextOffset fileName := by
  unfold Download.nextOffset Download.advance
  dsimp only
  by_cases hsame : fileName = chunk.fileName
  · rw [if_pos hsame, hsame, Function.update_self]
    rfl
  · rw [if_neg hsame, Function.update_of_ne hsame]

theorem Download.Consistent.advance (h : δ.download.Consistent content)
    (hgenuine : δ.Genuine content)
    (hnext : δ.chunk.offset = δ.download.nextOffset δ.chunk.fileName)
    (hclosed : δ.isOpen = false) :
    (δ.download.advance δ.chunk δ.plaintext).Consistent content := by
  refine ⟨h.saved, fun fileName => ?_, fun fileName hname hnot hopen => ?_, h.skipped,
    h.requested, h.remaining⟩
  · rw [nextOffset_advance]
    split
    next hsame =>
      rw [hsame]
      refine hgenuine.within ?_
      rw [hnext]
      exact h.offset δ.chunk.fileName
    next => exact h.offset fileName
  · have hother : fileName ≠ δ.chunk.fileName := by
      rintro rfl
      have hopen : (δ.download.streams δ.chunk.fileName).isClosed = false := hopen
      simp [Delivery.isOpen, hopen] at hclosed
    obtain ⟨r, n, hr, hn, heq⟩ := h.written fileName hname hnot hopen
    refine ⟨r, n, hr, ?_, heq⟩
    rw [nextOffset_advance, if_neg hother, hn]

theorem content_written (δ : Delivery) (fileName : String) :
    (δ.written.streams fileName).content =
      if fileName = δ.chunk.fileName then
        (δ.download.streams fileName).content ++ δ.plaintext
      else (δ.download.streams fileName).content := by
  rw [Delivery.written, Download.write, Download.enqueue, Download.advance]
  by_cases hsame : fileName = δ.chunk.fileName
  · rw [if_pos hsame, hsame]
    simp
  · rw [if_neg hsame]
    simp [hsame]

theorem isClosed_written (δ : Delivery) (fileName : String) :
    (δ.written.streams fileName).isClosed = (δ.download.streams fileName).isClosed := by
  rw [Delivery.written, Download.write, Download.enqueue, Download.advance]
  by_cases hsame : fileName = δ.chunk.fileName
  · rw [hsame]
    simp
  · simp [hsame]

theorem nextOffset_written (δ : Delivery) (fileName : String) :
    δ.written.nextOffset fileName =
      if fileName = δ.chunk.fileName then δ.chunk.offset + δ.plaintext.length
      else δ.download.nextOffset fileName :=
  nextOffset_advance δ.download δ.chunk δ.plaintext fileName

theorem Download.Written.append (h : δ.download.Written content δ.chunk.fileName)
    (hgenuine : δ.Genuine content)
    (hnext : δ.chunk.offset = δ.download.nextOffset δ.chunk.fileName) :
    δ.written.Written content δ.chunk.fileName := by
  obtain ⟨r, n, hr, hn, heq⟩ := h
  have hstart := hgenuine.start_eq (hnext.trans hn)
  have hplaintext := List.prefix_iff_eq_take.mp hgenuine.2.1
  refine ⟨r, n + δ.plaintext.length, hr, ?_, ?_⟩
  · rw [nextOffset_written, if_pos rfl, hnext, hn, Nat.cast_add]
  · rw [content_written, if_pos rfl, ← List.append_assoc, heq, List.take_add, ← hstart,
      ← hplaintext]

theorem Download.Consistent.deliver (h : δ.download.Consistent content)
    (hgenuine : δ.Genuine content) (hawaits : δ.download.Awaits δ.chunk) :
    δ.written.Consistent content := by
  obtain ⟨hlisted, hnot, hnext⟩ := hawaits
  refine ⟨h.saved, fun fileName => ?_, fun fileName hname hnot hopen => ?_,
    fun fileName hwas => ?_, h.requested, h.remaining⟩
  · rw [nextOffset_written]
    split
    next hsame =>
      rw [hsame]
      refine hgenuine.within ?_
      rw [hnext]
      exact h.offset δ.chunk.fileName
    next => exact h.offset fileName
  · rw [isClosed_written] at hopen
    have hwritten := h.written fileName hname hnot hopen
    by_cases hsame : fileName = δ.chunk.fileName
    · subst hsame
      exact hwritten.append hgenuine hnext
    · obtain ⟨r, n, hr, hn, heq⟩ := hwritten
      exact ⟨r, n, hr, by rw [nextOffset_written, if_neg hsame, hn],
        by rw [content_written, if_neg hsame, heq]⟩
  · have hother : fileName ≠ δ.chunk.fileName := by
      rintro rfl
      exact absurd (hnot.symm.trans hwas) Bool.false_ne_true
    rw [content_written, if_neg hother]
    exact h.skipped fileName hwas

/-- At the end of a file its stream holds the file if and only if nothing came before it. -/
theorem Download.Consistent.content_eq_iff (h : δ.download.Consistent content)
    (hgenuine : δ.Genuine content) (hawaits : δ.download.Awaits δ.chunk) (hopen : δ.isOpen)
    (hfinal : δ.chunk.final) :
    (δ.written.streams δ.chunk.fileName).content = content δ.chunk.fileName ↔
      δ.download.resumeOffset δ.chunk.fileName = 0 := by
  obtain ⟨hlisted, hnot, hnext⟩ := hawaits
  have hstream : (δ.download.streams δ.chunk.fileName).isClosed = false := by
    simpa [Delivery.isOpen] using hopen
  obtain ⟨r, n, hr, hn, heq⟩ :=
    (h.written δ.chunk.fileName hlisted hnot hstream).append hgenuine hnext
  have hr : δ.download.resumeOffset δ.chunk.fileName = r := hr
  have hend : n = (content δ.chunk.fileName).length := by
    rw [nextOffset_written, if_pos rfl, hgenuine.1, ← Nat.cast_add, hgenuine.2.2 hfinal] at hn
    exact Nat.cast_injective hn.symm
  rw [hend, List.take_length] at heq
  obtain ⟨m, hm, hle⟩ := Download.Consistent.within_resumeOffset (h.saved δ.chunk.fileName)
  have hmr : m = r := Nat.cast_injective (hm.symm.trans hr)
  constructor
  · intro hcontent
    have hlength := congrArg List.length heq
    rw [hcontent, List.length_append, List.length_take] at hlength
    have hzero : r = 0 := by omega
    rw [hr, hzero, Nat.cast_zero]
  · intro hzero
    have hr0 : r = 0 := Nat.cast_eq_zero.mp (hr.symm.trans hzero)
    rwa [hr0, List.take_zero, List.nil_append] at heq

end Delivery

/-! ### The invariant of the page -/

/-- Only the first chunk of a chain can be waiting, and one that waits on the connection of the
download starts where its file stands. -/
def Orderly (download : Option Download) (chain : ℕ) (queue : List QueuedChunk) : Prop :=
  (∀ queued ∈ queue.tail, queued.waiting = none) ∧
    ∀ queued ∈ queue.head?, queued.waiting.isSome →
      ∃ d ∈ download, d.connection = chain → d.Awaits queued.chunk

namespace Orderly

variable {download download' : Option Download} {chain : ℕ} {queue : List QueuedChunk}

theorem mono (h : Orderly download chain queue)
    (hd : ∀ d ∈ download, ∃ d' ∈ download', d.SameOffsets d') :
    Orderly download' chain queue := by
  refine ⟨h.1, fun queued hqueued hwaiting => ?_⟩
  obtain ⟨d, hdown, hawaits⟩ := h.2 queued hqueued hwaiting
  obtain ⟨d', hdown', hsame⟩ := hd d hdown
  refine ⟨d', hdown', fun hconnection => hsame.awaits (hawaits ?_)⟩
  rw [← hsame.connection, hconnection]

theorem of_none (h : Orderly none chain queue) : Orderly download' chain queue := by
  refine ⟨h.1, fun queued hqueued hwaiting => ?_⟩
  obtain ⟨d, hdown, -⟩ := h.2 queued hqueued hwaiting
  exact absurd hdown (Option.not_mem_none d)

theorem of_waiting (h : ∀ queued ∈ queue, queued.waiting = none) :
    Orderly download chain queue := by
  refine ⟨fun queued hqueued => h queued (List.mem_of_mem_tail hqueued),
    fun queued hqueued hwaiting => ?_⟩
  rw [h queued (List.mem_of_mem_head? hqueued)] at hwaiting
  exact absurd hwaiting Bool.false_ne_true

theorem append (h : Orderly download chain queue) {fresh : List QueuedChunk}
    (hfresh : ∀ queued ∈ fresh, queued.waiting = none) :
    Orderly download chain (queue ++ fresh) := by
  cases queue with
  | nil => exact of_waiting hfresh
  | cons first rest =>
    refine ⟨fun queued hqueued => ?_, h.2⟩
    rcases List.mem_append.mp hqueued with hold | hnew
    · exact h.1 queued hold
    · exact hfresh queued hnew

theorem of_connection (h : Orderly download chain queue) {d : Download}
    (hd : d.connection ≠ chain) : Orderly (some d) chain queue :=
  ⟨h.1, fun _ _ _ => ⟨d, rfl, fun hsame => absurd hsame hd⟩⟩

end Orderly

theorem orderly_modify {download download' : Option Download} {chains : List (List QueuedChunk)}
    {chain : ℕ} {f : List QueuedChunk → List QueuedChunk}
    (h : ∀ other queue, chains[other]? = some queue → Orderly download other queue)
    (hchain : ∀ queue, Orderly download chain queue → Orderly download' chain (f queue))
    (hother : ∀ other, chain ≠ other → ∀ queue, Orderly download other queue →
      Orderly download' other queue) {other : ℕ} {queue : List QueuedChunk}
    (hqueue : (chains.modify chain f)[other]? = some queue) : Orderly download' other queue := by
  rw [List.getElem?_modify] at hqueue
  obtain ⟨queue₀, hqueue₀, hmodified⟩ := Option.map_eq_some_iff.mp hqueue
  have hold := h other queue₀ hqueue₀
  by_cases hsame : chain = other
  · subst hsame
    rw [if_pos rfl] at hmodified
    exact hmodified ▸ hchain queue₀ hold
  · rw [if_neg hsame] at hmodified
    exact hmodified ▸ hother other hsame queue₀ hold

structure Page.Consistent (content : String → Bytes) (s : Page) : Prop where
  progress : ∀ prior ∈ s.progress, prior.Within content
  resumeProgress : ∀ prior ∈ s.resumeProgress, prior.Within content
  download : ∀ d ∈ s.download, d.Consistent content
  /-- A second download is only started after a stop, or after the page was left. -/
  started : s.download.isSome → s.downloadStarted ∨ s.stopped ∨ s.cancelled
  gone : s.stopped ∨ s.cancelled → s.peer = none
  chains : ∀ chain queue, s.chains[chain]? = some queue → Orderly s.download chain queue

/-! ### Steps that receive nothing -/

/-- The page has received the same after as before, and the same chunks are waiting. -/
structure Page.Kept (s s' : Page) : Prop where
  progress : ∀ prior ∈ s'.progress, prior ∈ s.progress
  resumeProgress : ∀ prior ∈ s'.resumeProgress, prior ∈ s.resumeProgress ∨ prior ∈ s.progress
  download : ∀ d' ∈ s'.download, ∃ d ∈ s.download, d.Kept d'
  stays : s'.download = none → s.download = none
  started : s.downloadStarted ∨ s.stopped ∨ s.cancelled →
    s'.downloadStarted ∨ s'.stopped ∨ s'.cancelled
  gone : (s.stopped ∨ s.cancelled → s.peer = none) → s'.stopped ∨ s'.cancelled → s'.peer = none
  receiving : s'.receiving → s.receiving
  chains : ∀ chain : ℕ, ∃ fresh : List QueuedChunk, (∀ queued ∈ fresh, queued.waiting = none) ∧
    s'.chains[chain]?.getD [] = s.chains[chain]?.getD [] ++ fresh

namespace Page.Kept

variable {s s' s'' : Page}

theorem refl (s : Page) : s.Kept s where
  progress _ := id
  resumeProgress _ := .inl
  download d hd := ⟨d, hd, .refl d⟩
  stays := id
  started := id
  gone := id
  receiving := id
  chains _ := ⟨[], fun _ hqueued => absurd hqueued List.not_mem_nil, (List.append_nil _).symm⟩

theorem trans (h : s.Kept s') (h' : s'.Kept s'') : s.Kept s'' where
  progress prior hprior := h.progress prior (h'.progress prior hprior)
  resumeProgress prior hprior :=
    (h'.resumeProgress prior hprior).elim (h.resumeProgress prior) fun hold =>
      .inr (h.progress prior hold)
  download d'' hd'' := by
    obtain ⟨d', hd', hkept'⟩ := h'.download d'' hd''
    obtain ⟨d, hd, hkept⟩ := h.download d' hd'
    exact ⟨d, hd, hkept.trans hkept'⟩
  stays hnone := h.stays (h'.stays hnone)
  started hstarted := h'.started (h.started hstarted)
  gone hgone := h'.gone (h.gone hgone)
  receiving hreceiving := h.receiving (h'.receiving hreceiving)
  chains chain := by
    obtain ⟨fresh, hfresh, heq⟩ := h.chains chain
    obtain ⟨fresh', hfresh', heq'⟩ := h'.chains chain
    refine ⟨fresh ++ fresh', fun queued hqueued => ?_, by rw [heq', heq, List.append_assoc]⟩
    exact (List.mem_append.mp hqueued).elim (hfresh queued) (hfresh' queued)

theorem setDownload {d d' : Download} (hd : s.download = some d) (hkept : d.Kept d') :
    s.Kept { s with download := some d' } := by
  refine { refl s with download := fun d'' hd'' => ⟨d, hd, ?_⟩, stays := fun hnone => ?_ }
  · obtain rfl := Option.some_inj.mp hd''
    exact hkept
  · cases hnone

theorem closeActiveStreams (s : Page) : s.Kept s.closeActiveStreams := by
  rw [Page.closeActiveStreams]
  split
  · refine { refl s with
      download := fun d' hd' => ?_, stays := fun hnone => Option.map_eq_none_iff.mp hnone }
    obtain ⟨d, hd, rfl⟩ := Option.map_eq_some_iff.mp hd'
    exact ⟨d, hd, .closeStreams d⟩
  · exact refl s

theorem closeConnection (s : Page) : s.Kept s.closeConnection := by
  rw [Page.closeConnection]
  split
  · exact (closeActiveStreams s).trans { refl _ with gone := fun _ _ => rfl }
  · exact refl s

theorem fail (s : Page) (connection : Option ℕ) (text : String) :
    s.Kept (s.fail connection text).1 := by
  rw [Page.fail]
  split
  · exact closeConnection s
  · exact refl s

theorem acceptInfo (s : Page) (payload : InfoPayload) (isEncrypted : Bool) :
    s.Kept (Downloader.acceptInfo link payload isEncrypted s) := by
  rw [Downloader.acceptInfo]
  split <;> exact { refl s with }

theorem onInfo (s : Page) (connection : ℕ) (payload : InfoPayload) (isEncrypted : Bool) :
    s.Kept (Downloader.onInfo link connection payload isEncrypted s).1 := by
  rw [Downloader.onInfo]
  split
  · exact fail s _ _
  · split
    · exact { refl s with }
    · exact acceptInfo s payload isEncrypted

theorem resumeProgressLoaded (s : Page) (files : List FileInfo) (settlement : Settlement) :
    s.Kept (Downloader.resumeProgressLoaded files settlement s) := by
  have hdeleted : s.Kept { s with progress := none } :=
    { refl s with progress := fun _ hnone => absurd hnone (Option.not_mem_none _) }
  rw [Downloader.resumeProgressLoaded]
  split
  next => exact refl s
  next prior hprior =>
    split_ifs
    · exact refl s
    · exact hdeleted
    · refine { refl s with resumeProgress := fun prior' hprior' => .inr ?_ }
      obtain rfl := Option.some_inj.mp hprior'
      exact hprior
    · exact refl s
    · exact hdeleted

theorem resumeTask (s : Page) (task : Task) (settlement : Settlement) :
    s.Kept (Downloader.resumeTask W link task settlement s).1 := by
  cases task with
  | verifying connection payload isEncrypted =>
    dsimp only [Downloader.resumeTask]
    split
    · exact fail s _ _
    · exact acceptInfo s payload isEncrypted
  | decryptingMetadata connection payload =>
    dsimp only [Downloader.resumeTask]
    rw [resumeMetadata]
    split
    · exact onInfo s _ _ _
    · exact fail s _ _
  | loadingProgress files => exact resumeProgressLoaded s files settlement

theorem queueChunk (s : Page) (connection : ℕ) (chunk : Chunk) :
    s.Kept (Downloader.queueChunk connection chunk s) := by
  refine { refl s with chains := fun chain => ?_ }
  rw [Downloader.queueChunk, List.getElem?_modify]
  by_cases hsame : connection = chain ∧ chain < s.chains.length
  · obtain ⟨rfl, hlt⟩ := hsame
    refine ⟨[{ chunk }], fun queued hqueued => by rw [List.mem_singleton.mp hqueued], ?_⟩
    rw [List.getElem?_eq_getElem hlt]
    simp
  · refine ⟨[], fun _ hqueued => absurd hqueued List.not_mem_nil, ?_⟩
    rcases not_and_or.mp hsame with hne | hlen
    · simp [hne]
    · rw [List.getElem?_eq_none (not_lt.mp hlen)]
      rfl

theorem onData (s : Page) (connection : ℕ) (message : Message) :
    s.Kept (Downloader.onData link connection message s).1 := by
  cases message with
  | info payload => exact onInfo s connection payload false
  | chunk fileName fileIndex offset bytes final => exact queueChunk s connection _
  | error text => exact fail s _ _
  | encryptedInfo => exact { refl s with }
  | _ => exact refl s

theorem addChain (s : Page) (peer : Option Peer) (hhere : ¬(s.stopped ∨ s.cancelled)) :
    s.Kept { s with peer, chains := s.chains ++ [[]] } := by
  refine { refl s with gone := fun _ hgone => absurd hgone hhere, chains := fun chain => ?_ }
  refine ⟨[], fun _ hqueued => absurd hqueued List.not_mem_nil, ?_⟩
  rw [List.append_nil, List.getElem?_append]
  split
  · rfl
  next hlen =>
    rw [List.getElem?_eq_none (not_lt.mp hlen)]
    cases chain - s.chains.length <;> rfl

theorem downloadFulfilled (s : Page) {d : Download} (hd : s.download = some d) :
    s.Kept (Downloader.downloadFulfilled link d s).1 := by
  rw [Downloader.downloadFulfilled]
  split
  · split
    · exact { setDownload hd (.setStage d .derivingToken) with
        progress := fun _ hnone => absurd hnone (Option.not_mem_none _) }
    · exact { setDownload hd (.setStage d .reported) with }
  · exact refl s

theorem downloadRejected (s : Page) {d : Download} (hd : s.download = some d) :
    s.Kept (Downloader.downloadRejected d s).1 := by
  rw [Downloader.downloadRejected]
  split
  · refine setDownload hd ?_
    split
    · exact (Download.Kept.setStage d .failed).trans (.closeStream _ _)
    · exact .setStage d .failed
  · exact refl s

theorem postCompletion (s : Page) {d : Download} (hd : s.download = some d) (fulfilled : Bool) :
    s.Kept (Downloader.postCompletion link d fulfilled s).1 := by
  rw [Downloader.postCompletion]
  split_ifs
  · exact setDownload hd (.setStage d .posting)
  · exact setDownload hd (.setStage d .reported)
  · exact refl s

theorem finishReport (s : Page) {d : Download} (hd : s.download = some d) :
    s.Kept (Downloader.finishReport d s).1 := by
  rw [Downloader.finishReport]
  split
  · exact setDownload hd (.setStage d .reported)
  · exact refl s

theorem withDownload (s : Page) {f : Download → Page → Page × List Output}
    (hf : ∀ d, s.download = some d → s.Kept (f d s).1) :
    s.Kept (Downloader.withDownload s f).1 := by
  rw [Downloader.withDownload]
  split
  next d hd => exact hf d hd
  next => exact refl s

end Page.Kept

/-- The event opens the page, starts a download or takes a chunk up. -/
def Event.moves : Event → Bool
  | .mounted _ | .started | .chunkResumed _ _ => true
  | _ => false

theorem step_kept (s : Page) {event : Event} (h : event.moves = false) :
    s.Kept (step W link s event).1 := by
  have hrefl := Page.Kept.refl s
  cases event with
  | mounted | started | chunkResumed => cases h
  | offered =>
    dsimp only [step]
    split
    · exact hrefl
    next hhere =>
      obtain ⟨hchains, hstopped, hcancelled⟩ := s.closeConnection_frame
      rw [← hstopped, ← hcancelled, or_comm] at hhere
      have hadded := Page.Kept.addChain s.closeConnection
        (some { connection := s.chains.length }) hhere
      rw [hchains] at hadded
      exact (Page.Kept.closeConnection s).trans hadded
  | opened =>
    dsimp only [step]
    split
    · split
      · exact hrefl
      next hhere => exact { hrefl with gone := fun _ hgone => absurd hgone.symm hhere }
    · exact hrefl
  | received message =>
    dsimp only [step]
    split
    · split
      · exact hrefl
      · exact .onData s _ message
    · exact hrefl
  | relayed connection message =>
    dsimp only [step]
    split
    · exact hrefl
    · cases message with
      | chunk fileName fileIndex offset bytes final => exact .queueChunk s connection _
      | _ => exact hrefl
  | resumed i settlement =>
    dsimp only [step]
    split
    next task htask =>
      have herased : s.Kept { s with tasks := s.tasks.eraseIdx i } := { hrefl with }
      exact herased.trans (.resumeTask _ task settlement)
    · exact hrefl
  | connectionError text =>
    dsimp only [step]
    split
    · split
      · exact hrefl
      · exact .fail s _ text
    · exact hrefl
  | connectionClosed => exact .closeConnection s
  | peerLeft =>
    dsimp only [step]
    split
    · exact hrefl
    · exact .closeConnection s
  | paused =>
    dsimp only [step, pauseDownload]
    split
    · exact { hrefl with }
    · exact hrefl
  | unpaused =>
    dsimp only [step, resumeDownload]
    split
    · exact { hrefl with }
    · exact hrefl
  | stopped =>
    exact (Page.Kept.closeActiveStreams s).trans { Page.Kept.refl _ with
      started := fun _ => .inr (.inl rfl), gone := fun _ _ => rfl
      receiving := fun hreceiving => absurd hreceiving Bool.false_ne_true }
  | cleanedUp =>
    exact (Page.Kept.closeConnection s).trans { Page.Kept.refl _ with
      started := fun _ => .inr (.inr rfl), gone := fun _ _ => rfl
      receiving := fun hreceiving => absurd hreceiving Bool.false_ne_true }
  | downloadSettled fulfilled =>
    refine .withDownload s fun d hd => ?_
    cases fulfilled with
    | true => exact .downloadFulfilled s hd
    | false => exact .downloadRejected s hd
  | tokenDerived fulfilled => exact .withDownload s fun d hd => .postCompletion s hd fulfilled
  | completionPosted => exact .withDownload s fun d hd => .finishReport s hd

theorem Page.Consistent.of_kept {s s' : Page} (h : s.Consistent content) (hkept : s.Kept s') :
    s'.Consistent content where
  progress prior hprior := h.progress prior (hkept.progress prior hprior)
  resumeProgress prior hprior :=
    (hkept.resumeProgress prior hprior).elim (h.resumeProgress prior) (h.progress prior)
  download d' hd' := by
    obtain ⟨d, hd, hsame⟩ := hkept.download d' hd'
    exact hsame.consistent (h.download d hd)
  started hsome := by
    obtain ⟨d', hd'⟩ := Option.isSome_iff_exists.mp hsome
    obtain ⟨d, hd, -⟩ := hkept.download d' hd'
    exact hkept.started (h.started (Option.isSome_iff_exists.mpr ⟨d, hd⟩))
  gone := hkept.gone h.gone
  chains chain queue hqueue := by
    have hmono (d : Download) (hd : d ∈ s.download) :
        ∃ d' ∈ s'.download, d.SameOffsets d' := by
      obtain hnone | ⟨d', hd'⟩ := Option.eq_none_or_eq_some s'.download
      · rw [hkept.stays hnone] at hd
        cases hd
      · obtain ⟨d₀, hd₀, hsame⟩ := hkept.download d' hd'
        obtain rfl := Option.mem_unique hd hd₀
        exact ⟨d', hd', hsame.toSameOffsets⟩
    obtain ⟨fresh, hfresh, heq⟩ := hkept.chains chain
    rw [hqueue, Option.getD_some] at heq
    rw [heq]
    cases hold : s.chains[chain]? with
    | none => exact .of_waiting hfresh
    | some old => exact ((h.chains chain old hold).mono hmono).append hfresh

/-- What `processChunk` takes up is of a file that is being received, and starts where the file
stands. -/
theorem beginChunk_cases (s : Page) (d : Download) (chunk : Chunk) :
    beginChunk s d chunk = .dropped ∨ (beginChunk s d chunk).isRefused ∨
      chunk.fileName ∈ d.requestedFiles ∧ chunk.fileName ∉ d.completedFiles ∧
        chunk.offset = d.nextOffset chunk.fileName := by
  rw [beginChunk]
  split
  · exact .inl rfl
  split
  · exact .inl rfl
  next hrequested =>
    rw [not_or, not_not] at hrequested
    split
    · exact .inr (.inl rfl)
    next hfailure =>
      refine .inr (.inr ⟨hrequested.1, hrequested.2, ?_⟩)
      rw [Download.chunkFailure] at hfailure
      split_ifs at hfailure with hsize hoffset
      exact not_not.mp hoffset

variable {settlement : Settlement} {past : List Event}

namespace Page.Consistent

variable {s : Page}

theorem setDownload (h : s.Consistent content) {d d' : Download} (hd : s.download = some d)
    (hsame : d.SameOffsets d') (hd' : d'.Consistent content) :
    { s with download := some d' }.Consistent content where
  progress := h.progress
  resumeProgress := h.resumeProgress
  download d'' hd'' := by
    obtain rfl := Option.some_inj.mp hd''
    exact hd'
  started _ := h.started (by rw [hd]; rfl)
  gone := h.gone
  chains chain queue hqueue := by
    refine (h.chains chain queue hqueue).mono fun d₀ hd₀ => ?_
    obtain rfl := Option.some_inj.mp (hd.symm.trans hd₀)
    exact ⟨d', rfl, hsame⟩

theorem takeChunk (h : s.Consistent content) (chain : ℕ) :
    (s.takeChunk chain).Consistent content :=
  { h with
    chains := fun _ _ hqueue => orderly_modify h.chains
      (fun _ hold => .of_waiting hold.1) (fun _ _ _ => id) hqueue }

/-- The chunk that was taken off is counted as received, wherever its file stands then. -/
theorem deliver (h : s.Consistent content) {d d' : Download} (hd : s.download = some d)
    (hconnection : d'.connection = d.connection) (hd' : d'.Consistent content) :
    { s.takeChunk d.connection with download := some d' }.Consistent content where
  progress := h.progress
  resumeProgress := h.resumeProgress
  download d'' hd'' := by
    obtain rfl := Option.some_inj.mp hd''
    exact hd'
  started _ := h.started (by rw [hd]; rfl)
  gone := h.gone
  chains other queue hqueue := by
    refine orderly_modify h.chains (fun queue hqueue => .of_waiting hqueue.1)
      (fun other hother queue hqueue => hqueue.of_connection ?_) hqueue
    rw [hconnection]
    exact hother

theorem awaits (h : s.Consistent content) {chain : ℕ} {d : Download} {queued : QueuedChunk}
    {outcome : ChunkOutcome}
    (hnext : s.nextChunk chain = some (d, queued))
    (houtcome : chunkOutcome W link s d queued settlement = outcome)
    (hdropped : outcome ≠ .dropped) (hrefused : outcome.isRefused = false)
    (hchain : d.connection = chain) : d.Awaits queued.chunk := by
  obtain ⟨hd, rest, hqueue⟩ := Page.nextChunk_eq_some hnext
  have hconsistent := h.download d hd
  obtain hbegin | ⟨point, hwaiting⟩ := Option.eq_none_or_eq_some queued.waiting
  · rw [chunkOutcome, hbegin] at houtcome
    subst houtcome
    obtain hnothing | htext | ⟨hrequested, hincomplete, hoffset⟩ :=
      beginChunk_cases s d queued.chunk
    · exact absurd hnothing hdropped
    · exact absurd (hrefused.symm.trans htext) Bool.false_ne_true
    · obtain ⟨hlisted, hnot⟩ := hconsistent.requested _ hrequested
      exact ⟨hlisted, hnot hincomplete, hoffset⟩
  · obtain ⟨d', hd', hawaits⟩ :=
      (h.chains chain _ hqueue).2 queued rfl (by rw [hwaiting]; rfl)
    obtain rfl := Option.some_inj.mp (hd.symm.trans hd')
    exact hawaits hchain

theorem finishFile (h : s.Consistent content) {d : Download} (hd : s.download = some d)
    {activePc : Option ℕ} {chunk : Chunk} :
    (Downloader.finishFile W activePc chunk d s).1.Consistent content := by
  have hfinalize := (h.download d hd).finalize chunk.fileName
  rw [Downloader.finishFile]
  split
  · have hclosed := hfinalize.closeStream chunk.fileName
    have hpage : Page.Consistent content { s with
        download := some ((d.finalize chunk.fileName).closeStream chunk.fileName) } :=
      h.setDownload hd ⟨rfl, rfl, rfl, rfl⟩ hclosed
    exact hpage.of_kept (.fail _ _ _)
  · exact h.setDownload hd ⟨rfl, rfl, rfl, rfl⟩ (hfinalize.complete _).startNextFileOrFinish

theorem counted {d : Download} (h : d.Consistent content) (queued : QueuedChunk) :
    d.SameOffsets (queued.counted d) ∧ (queued.counted d).Consistent content := by
  rw [QueuedChunk.counted]
  split
  · exact ⟨⟨rfl, rfl, rfl, rfl⟩, h.of_sameOffsets ⟨rfl, rfl, rfl, rfl⟩ (fun _ => .inl)
      (List.Subset.refl _) (List.Subset.refl _) (fun _ => rfl) fun _ => id⟩
  · exact ⟨⟨rfl, rfl, rfl, rfl⟩, h⟩

theorem deliverChunk (h : s.Consistent content) {d : Download} (hd : s.download = some d)
    {δ : Delivery} (hsame : d.SameOffsets δ.download) (hδ : δ.download.Consistent content)
    (hgenuine : δ.Genuine content) (hawaits : δ.download.Awaits δ.chunk) {activePc : Option ℕ} :
    (Downloader.deliverChunk W link activePc δ settlement
      (s.takeChunk d.connection)).1.Consistent content := by
  rw [Downloader.deliverChunk]
  split
  next hclosed =>
    exact h.deliver hd hsame.connection (hδ.advance hgenuine hawaits.2.2 hclosed)
  next =>
    have hwritten := hδ.deliver hgenuine hawaits
    have hpage : Page.Consistent content { s.takeChunk d.connection with
        download := some δ.written
        progress := if settlement.saves ∧ link.hkdfSalt.isSome then some δ.written.snapshot
          else s.progress } := by
      have hdelivered : Page.Consistent content { s.takeChunk d.connection with
          download := some δ.written } := h.deliver hd hsame.connection hwritten
      refine ⟨fun prior hprior => ?_, hdelivered.resumeProgress, hdelivered.download,
        hdelivered.started, hdelivered.gone, hdelivered.chains⟩
      split at hprior
      · obtain rfl := Option.some_inj.mp hprior
        exact hwritten.snapshot
      · exact h.progress prior hprior
    dsimp only
    split
    · exact hpage.finishFile rfl
    · exact hpage

theorem resumeChain (h : s.Consistent content) {chain : ℕ}
    (hgenuine : GenuineChunks W link content past s (.chunkResumed chain settlement)) :
    (Downloader.resumeChain W link chain settlement s).1.Consistent content := by
  obtain ⟨-, hnothing⟩ | ⟨d, queued, hnext, hcases⟩ :=
    resumeChain_cases W link chain settlement s
  · rw [hnothing]
    exact h.takeChunk chain
  have hd := (Page.nextChunk_eq_some hnext).1
  obtain ⟨hsame, hcounted⟩ := counted (h.download d hd) queued
  rcases hcases with ⟨text, -, hrefused⟩ | ⟨point, houtcome, hwaits⟩ |
    ⟨δ, hδ, hδd, hδc, houtcome, hdelivered⟩
  · rw [hrefused]
    exact (h.takeChunk chain).of_kept (.fail _ _ _)
  · rw [hwaits]
    have hpage := h.setDownload hd hsame hcounted
    refine ⟨hpage.progress, hpage.resumeProgress, hpage.download, hpage.started, hpage.gone,
      fun other queue hqueue => ?_⟩
    refine orderly_modify hpage.chains (fun queue hold => ?_) (fun _ _ _ => id) hqueue
    refine ⟨hold.1, fun first hfirst _ => ?_⟩
    obtain rfl := Option.some_inj.mp hfirst
    refine ⟨queued.counted d, rfl, fun hchain => ?_⟩
    have hawaits : d.Awaits queued.chunk :=
      h.awaits hnext houtcome ChunkOutcome.noConfusion rfl (hsame.connection ▸ hchain)
    exact hsame.awaits hawaits
  · obtain ⟨hsound, hchain⟩ := hgenuine δ hδ
    rw [hδd, hsame.connection] at hchain
    have hawaits : d.Awaits queued.chunk :=
      h.awaits hnext houtcome ChunkOutcome.noConfusion rfl hchain.symm
    subst hchain
    rw [hdelivered]
    refine h.deliverChunk hd (hδd ▸ hsame) (hδd ▸ hcounted) hsound ?_
    rw [hδd, hδc]
    exact hsame.awaits hawaits

theorem download_eq_none (h : s.Consistent content) {d : Download}
    (hnew : s.newDownload = some d) : s.download = none := by
  obtain ⟨hnot, peer, files, hpeer, -, -⟩ := Page.newDownload_eq_some hnew
  by_contra hsome
  rcases h.started (Option.isSome_iff_ne_none.mpr hsome) with hstarted | hgone
  · exact absurd (hnot.symm.trans hstarted) Bool.false_ne_true
  · rw [h.gone hgone] at hpeer
    exact absurd hpeer (by simp)

theorem startDownload (h : s.Consistent content) :
    (Downloader.startDownload s).1.Consistent content := by
  rw [Downloader.startDownload]
  split
  next d hnew =>
    have hnone := h.download_eq_none hnew
    obtain ⟨-, peer, files, -, -, rfl⟩ := Page.newDownload_eq_some hnew
    refine ⟨h.progress, fun _ hnone => absurd hnone (Option.not_mem_none _), fun d hd => ?_,
      fun _ => .inl rfl, h.gone, fun chain queue hqueue => ?_⟩
    · obtain rfl := Option.some_inj.mp hd
      exact (Download.Consistent.create h.resumeProgress).startNextFileOrFinish
    · have hold := h.chains chain queue hqueue
      rw [hnone] at hold
      exact hold.of_none
  next => exact h

/-- A page that is loaded has a download only as saved progress, if that has not expired. -/
theorem mounted (h : s.Consistent content) (expired : Bool) :
    (Downloader.step W link s (.mounted expired)).1.Consistent content := by
  refine ⟨fun prior hprior => ?_, fun _ hnone => absurd hnone (Option.not_mem_none _),
    fun _ hnone => absurd hnone (Option.not_mem_none _),
    fun hsome => absurd hsome Bool.false_ne_true, fun _ => rfl,
    fun _ _ hqueue => absurd hqueue (by simp [Downloader.step])⟩
  cases expired with
  | true => exact absurd hprior (Option.not_mem_none _)
  | false => exact h.progress prior hprior

theorem step (h : s.Consistent content) {event : Event}
    (hgenuine : GenuineChunks W link content past s event) :
    (Downloader.step W link s event).1.Consistent content := by
  cases hmoves : event.moves with
  | false => exact h.of_kept (step_kept s hmoves)
  | true =>
    cases event with
    | mounted expired => exact h.mounted expired
    | started => exact h.startDownload
    | chunkResumed chain settlement => exact h.resumeChain hgenuine
    | _ => cases hmoves

end Page.Consistent

/-! ### What a step reports -/

section Report

variable {s : Page} {d : Download} {δ : Delivery}

theorem faithful_of_isChatter {o : Output} (h : o.isChatter) (d : Download) :
    o.Faithful content d := by
  cases o with
  | sent | errorMessage | passwordRequired => trivial
  | _ => exact absurd h Bool.false_ne_true

theorem faithful_startOutputs (h : d.Consistent content) (connection : ℕ) :
    (∀ o ∈ d.startOutputs (s.sendOn connection), o.Faithful content d.startNextFileOrFinish) ↔
      d.SkipsEmpty content := by
  have hempty : ∀ f ∈ d.skippedFiles,
      (d.startNextFileOrFinish.streams f.fileName).content = [] := by
    intro f hf
    rw [Download.Consistent.content_startNextFileOrFinish]
    exact h.skipped _ (Download.wasCompleted_of_mem_skippedFiles (List.mem_map_of_mem hf))
  constructor
  · intro hfaithful harchive f hf
    have hskipped : Output.skipped f.fileName ∈ d.startOutputs (s.sendOn connection) :=
      List.mem_append_left _ (List.mem_map_of_mem hf)
    rw [← hfaithful _ hskipped harchive, hempty f hf]
  · intro hskips o ho
    rcases List.mem_append.mp ho with ho | ho
    · obtain ⟨f, hf, rfl⟩ := List.mem_map.mp ho
      intro harchive
      rw [hempty f hf, hskips harchive f hf]
    · split at ho
      · exact faithful_of_isChatter (chatter_sendOn Message.noConfusion o ho) _
      · exact absurd ho List.not_mem_nil

theorem chatter_ack (activePc : Option ℕ) (δ : Delivery) :
    Chatter (match activePc with
      | some connection => s.sendOn connection
        (.chunkAck δ.chunk.fileName δ.chunk.offset δ.plaintext.length)
      | none => []) := by
  split
  · exact chatter_sendOn Message.noConfusion
  · exact chatter_nil

theorem chatter_deliverChunk (h : ¬δ.Completes W) (activePc : Option ℕ)
    (settlement : Settlement) :
    Chatter (deliverChunk W link activePc δ settlement s).2 := by
  rw [deliverChunk]
  split
  · exact chatter_nil
  next hopen =>
    have hopen : δ.isOpen := Bool.eq_true_of_not_eq_false hopen
    dsimp only
    split
    next hfinal =>
      have hwrong : δ.written.hashMatches W δ.chunk.fileName = some false := by
        by_contra hmatches
        exact h ⟨hfinal, hopen, hmatches⟩
      intro o ho
      rcases List.mem_append.mp ho with hack | hfinish
      · exact chatter_ack activePc δ o hack
      · rw [finishFile] at hfinish
        rw [if_pos hwrong] at hfinish
        exact chatter_fail o hfinish
    next => exact chatter_ack activePc δ

/-- The download once the chunk has completed its file. -/
def Delivery.completed (δ : Delivery) : Download :=
  (δ.written.finalize δ.chunk.fileName).complete δ.chunk.fileName

theorem content_completed (δ : Delivery) (fileName : String) :
    (δ.completed.streams fileName).content = (δ.written.streams fileName).content :=
  Download.content_closeStream _ _ _

theorem skipsEmpty_completed (δ : Delivery) :
    δ.completed.SkipsEmpty content ↔ δ.download.SkipsEmpty content := Iff.rfl

theorem deliverChunk_of_completes (h : δ.Completes W) (activePc : Option ℕ)
    (settlement : Settlement) :
    (deliverChunk W link activePc δ settlement s).1.download =
        some δ.completed.startNextFileOrFinish ∧
      ∃ (ack : List Output) (s' : Page), Chatter ack ∧
        (deliverChunk W link activePc δ settlement s).2 =
          ack ++ .fileCompleted δ.chunk.fileName (δ.written.nextOffset δ.chunk.fileName)
            (δ.written.hashMatches W δ.chunk.fileName).isSome ::
              δ.completed.startOutputs (s'.sendOn δ.download.connection) := by
  obtain ⟨hfinal, hopen, hmatches⟩ := h
  unfold deliverChunk finishFile
  rw [if_neg (by rw [hopen]; exact Bool.true_eq_false.mp)]
  rw [if_pos hfinal, if_neg hmatches]
  exact ⟨rfl, _, _, chatter_ack activePc δ, rfl⟩

/-- A completed file is reported faithfully if and only if it was received from its beginning,
and what is skipped after it is empty. -/
theorem faithful_deliverChunk (h : δ.download.Consistent content) (hgenuine : δ.Genuine content)
    (hawaits : δ.download.Awaits δ.chunk) (activePc : Option ℕ) (settlement : Settlement) :
    (∀ o ∈ (deliverChunk W link activePc δ settlement s).2,
      ∀ d ∈ (deliverChunk W link activePc δ settlement s).1.download, o.Faithful content d) ↔
      (δ.Verifies W → δ.download.resumeOffset δ.chunk.fileName = 0) ∧
        (δ.Completes W → δ.download.SkipsEmpty content) := by
  by_cases hcompletes : δ.Completes W
  · obtain ⟨hdownload, ack, s', hack, houts⟩ :=
      @deliverChunk_of_completes W link s δ hcompletes activePc settlement
    have hcompleted : δ.completed.Consistent content :=
      ((h.deliver hgenuine hawaits).finalize _).complete _
    have hstream : (δ.completed.startNextFileOrFinish.streams δ.chunk.fileName).content =
        content δ.chunk.fileName ↔ δ.download.resumeOffset δ.chunk.fileName = 0 := by
      rw [Download.Consistent.content_startNextFileOrFinish, content_completed]
      exact h.content_eq_iff hgenuine hawaits hcompletes.2.1 hcompletes.1
    have hskips := faithful_startOutputs (s := s') hcompleted δ.download.connection
    rw [skipsEmpty_completed] at hskips
    rw [hdownload, houts]
    constructor
    · intro hall
      have hall := fun o ho => hall o ho _ rfl
      refine ⟨fun hverifies => hstream.mp ?_, fun _ => hskips.mp fun o ho => ?_⟩
      · have hfile := hall _ (List.mem_append_right _ (List.mem_cons_self ..))
        rw [hverifies.2] at hfile
        exact hfile
      · exact hall o (List.mem_append_right _ (List.mem_cons_of_mem _ ho))
    · rintro ⟨hverified, hempty⟩ o ho d hd
      obtain rfl := Option.some_inj.mp hd
      rcases List.mem_append.mp ho with ho | ho
      · exact faithful_of_isChatter (hack o ho) _
      rcases List.mem_cons.mp ho with rfl | ho
      · by_cases hhash : (δ.written.hashMatches W δ.chunk.fileName).isSome
        · rw [hhash]
          exact hstream.mpr (hverified ⟨hcompletes, hhash⟩)
        · rw [Bool.eq_false_of_not_eq_true hhash]
          trivial
      · exact hskips.mpr (hempty hcompletes) o ho
  · have hchatter := @chatter_deliverChunk W link s δ hcompletes activePc settlement
    refine ⟨fun _ => ⟨fun hverifies => absurd hverifies.1 hcompletes,
      fun hc => absurd hc hcompletes⟩, fun _ o ho d _ => ?_⟩
    exact faithful_of_isChatter (hchatter o ho) d

theorem faithful_withDownload {f : Download → Page → Page × List Output}
    (hf : ∀ d, ∀ o ∈ (f d s).2, ∀ d', o.Faithful content d') :
    ∀ o ∈ (withDownload s f).2, ∀ d', o.Faithful content d' := by
  rw [withDownload]
  split
  · exact hf _
  · exact fun o ho => absurd ho List.not_mem_nil

theorem faithful_downloadFulfilled :
    ∀ o ∈ (downloadFulfilled link d s).2, ∀ d', o.Faithful content d' := by
  have hdone : ∀ o ∈ s.send .done, ∀ d', o.Faithful content d' := by
    unfold Page.send Page.sendOn
    split
    · split
      · intro o ho d'
        rw [List.mem_singleton.mp ho]
        trivial
      · exact fun o ho => absurd ho List.not_mem_nil
    · exact fun o ho => absurd ho List.not_mem_nil
  rw [downloadFulfilled]
  split
  · split
    all_goals
      intro o ho d'
      rcases List.mem_append.mp ho with ho | ho
      · exact hdone o ho d'
      · rw [List.mem_singleton.mp ho]
        trivial
  · exact fun o ho => absurd ho List.not_mem_nil

theorem faithful_downloadRejected :
    ∀ o ∈ (downloadRejected d s).2, ∀ d', o.Faithful content d' := by
  rw [downloadRejected]
  intro o ho d'
  split_ifs at ho
  · exact absurd ho List.not_mem_nil
  · rw [List.mem_singleton.mp ho]
    trivial
  · exact absurd ho List.not_mem_nil

theorem faithful_postCompletion {fulfilled : Bool} :
    ∀ o ∈ (postCompletion link d fulfilled s).2, ∀ d', o.Faithful content d' := by
  rw [postCompletion]
  intro o ho d'
  split_ifs at ho
  · rw [List.mem_singleton.mp ho]
    trivial
  · rw [List.mem_singleton.mp ho]
    trivial
  · exact absurd ho List.not_mem_nil

theorem faithful_finishReport :
    ∀ o ∈ (finishReport d s).2, ∀ d', o.Faithful content d' := by
  rw [finishReport]
  intro o ho d'
  split_ifs at ho
  · rw [List.mem_singleton.mp ho]
    trivial
  · exact absurd ho List.not_mem_nil

theorem faithful_startDownload (h : s.Consistent content) :
    (∀ o ∈ (startDownload s).2, ∀ d ∈ (startDownload s).1.download, o.Faithful content d) ↔
      ∀ d ∈ s.newDownload, d.SkipsEmpty content := by
  unfold startDownload
  obtain hnew | ⟨d, hnew⟩ := Option.eq_none_or_eq_some s.newDownload
  · rw [hnew]
    exact ⟨fun _ _ hnone => absurd hnone (Option.not_mem_none _),
      fun _ o ho => absurd ho List.not_mem_nil⟩
  · have hd : d.Consistent content := by
      obtain ⟨-, peer, files, -, -, rfl⟩ := Page.newDownload_eq_some hnew
      exact Download.Consistent.create h.resumeProgress
    have hskips := faithful_startOutputs (s := s) hd d.connection
    rw [hnew]
    constructor
    · rintro hall d' hd'
      obtain rfl := Option.some_inj.mp hd'
      exact hskips.mp fun o ho => hall o ho _ rfl
    · rintro hempty o ho d' hd'
      obtain rfl := Option.some_inj.mp hd'
      exact hskips.mpr (hempty d rfl) o ho

theorem faithful_resumeChain (h : s.Consistent content) {chain : ℕ}
    (hgenuine : GenuineChunks W link content past s (.chunkResumed chain settlement)) :
    (∀ o ∈ (resumeChain W link chain settlement s).2,
      ∀ d ∈ (resumeChain W link chain settlement s).1.download, o.Faithful content d) ↔
      StartsFresh W link content past s (.chunkResumed chain settlement) := by
  have hnothing : s.delivery W link chain settlement = none →
      Chatter (resumeChain W link chain settlement s).2 →
      ((∀ o ∈ (resumeChain W link chain settlement s).2,
        ∀ d ∈ (resumeChain W link chain settlement s).1.download, o.Faithful content d) ↔
        StartsFresh W link content past s (.chunkResumed chain settlement)) := by
    intro hnone hchatter
    refine ⟨fun _ δ hδ => ?_, fun _ o ho d _ => faithful_of_isChatter (hchatter o ho) d⟩
    rw [hnone] at hδ
    exact absurd hδ (Option.not_mem_none _)
  obtain ⟨hnone, htaken⟩ | ⟨d, queued, hnext, hcases⟩ :=
    resumeChain_cases W link chain settlement s
  · refine hnothing hnone ?_
    rw [htaken]
    exact chatter_nil
  rcases hcases with ⟨text, houtcome, hrefused⟩ | ⟨point, houtcome, hwaits⟩ |
    ⟨δ, hδ, hδd, hδc, houtcome, hdelivered⟩
  · refine hnothing (by simp only [Page.delivery, hnext, houtcome]) ?_
    rw [hrefused]
    exact chatter_fail
  · refine hnothing (by simp only [Page.delivery, hnext, houtcome]) ?_
    rw [hwaits]
    exact chatter_nil
  · obtain ⟨hsame, hcounted⟩ :=
      Page.Consistent.counted (h.download d (Page.nextChunk_eq_some hnext).1) queued
    obtain ⟨hsound, hchain⟩ := hgenuine δ hδ
    rw [hδd, hsame.connection] at hchain
    have hawaits : d.Awaits queued.chunk :=
      h.awaits hnext houtcome ChunkOutcome.noConfusion rfl hchain.symm
    have hdeliver := @faithful_deliverChunk W link content (s.takeChunk chain) δ
      (hδd ▸ hcounted) hsound (hδd ▸ hδc ▸ hsame.awaits hawaits) (queued.activePc s) settlement
    rw [hdelivered, hdeliver]
    constructor
    · intro hfresh δ' hδ'
      obtain rfl := Option.some_inj.mp (hδ.symm.trans hδ')
      exact hfresh
    · intro hfresh
      exact hfresh δ hδ

end Report

/-- **Fidelity is freshness.** If the uploader sends what the files contain, over the connection
that the download was started on, then what a run reports about files is true of the output
streams if and only if every file that is verified was requested from its beginning in its
session, and every file that an archive skips is empty. -/
theorem faithful_iff_startsFresh (W : WebCrypto) (link : Link) (content : String → Bytes)
    (ls : List Event) (h : (downloader W link).Along (GenuineChunks W link content) ls) :
    (downloader W link).Along (Faithful W link content) ls ↔
      (downloader W link).Along (StartsFresh W link content) ls := by
  refine (downloader W link).along_congr_of_along (fun _ s _ => s.Consistent content) ?_ ?_ ?_ h
  · exact ⟨fun _ hnone => absurd hnone (Option.not_mem_none _),
      fun _ hnone => absurd hnone (Option.not_mem_none _),
      fun _ hnone => absurd hnone (Option.not_mem_none _),
      fun hsome => absurd hsome Bool.false_ne_true, fun _ => rfl,
      fun _ _ hqueue => absurd hqueue (by simp [downloader])⟩
  · intro past event hconsistent hgenuine
    exact hconsistent.step hgenuine
  · intro past event hconsistent hgenuine
    cases event with
    | started => exact faithful_startDownload hconsistent
    | chunkResumed chain settlement => exact faithful_resumeChain hconsistent hgenuine
    | downloadSettled fulfilled =>
      refine ⟨fun _ => trivial, fun _ o ho d _ => ?_⟩
      cases fulfilled with
      | true => exact faithful_withDownload (fun _ => faithful_downloadFulfilled) o ho d
      | false => exact faithful_withDownload (fun _ => faithful_downloadRejected) o ho d
    | tokenDerived fulfilled =>
      refine ⟨fun _ => trivial, fun _ o ho d _ => ?_⟩
      exact faithful_withDownload (fun _ => faithful_postCompletion) o ho d
    | completionPosted =>
      refine ⟨fun _ => trivial, fun _ o ho d _ => ?_⟩
      exact faithful_withDownload (fun _ => faithful_finishReport) o ho d
    | _ => exact ⟨fun _ => trivial, fun _ o ho d _ =>
        faithful_of_isChatter (chatter_step rfl o ho) d⟩

/-! ### Two runs -/

/-- `sharedFile` has two bytes. -/
def sharedContent : String → Bytes := fun _ => [104, 105]

/-- The file is received in one session. -/
def freshRun : List Event :=
  openingRun ++
    [.received (.chunk "a.txt" none 0 [104] false), .chunkResumed 0 {},
      .received (.chunk "a.txt" none 1 [105] true), .chunkResumed 0 {}]

theorem faithful_freshRun :
    (downloader plainCrypto sharedLink).Along (Faithful plainCrypto sharedLink sharedContent)
        freshRun ∧
      .fileCompleted "a.txt" 2 true ∈ (downloader plainCrypto sharedLink).log freshRun :=
  ⟨(faithful_iff_startsFresh plainCrypto sharedLink sharedContent freshRun
    (by decide +kernel)).mpr (by decide +kernel), by decide +kernel⟩

/-- A download that is resumed after the first byte reports its file verified; what it puts
into the file is the second byte. -/
theorem resumedRun_truncated :
    (downloader plainCrypto sharedLink).Along (GenuineChunks plainCrypto sharedLink sharedContent)
        resumedRun ∧
      ¬(downloader plainCrypto sharedLink).Along (Faithful plainCrypto sharedLink sharedContent)
        resumedRun := by
  decide +kernel

end Rapidly.FileSharing.Downloader
