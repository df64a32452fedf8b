import Rapidly.FileSharing.Downloader.Handler

/-!
# When a download is reported complete

A download counts as complete when its output promise is fulfilled, which happens when all of
its output streams have ended. A stream should end because the file was received up to its
declared size and its hash was verified. But streams are ended in other ways, too: when the
connection closes for whatever reason, when the user stops the download or leaves the page, and
when the hash is wrong; and a chunk that is flagged final completes its file whatever its size,
and without a check when the list of files gives no hash.

* `dropped_reportsCompletion` is a download whose connection closes before the first chunk.
* `reportsSound_of_careful` names what has to be kept out of a run. Its invariant
  (`Page.Sound`) follows the completed files through the saved progress into later sessions.
-/

namespace Rapidly.FileSharing.Downloader

open Transition

variable {W : WebCrypto} {link : Link}

/-! ### Reports -/

/-- The download is reported complete: to the uploader, to the server, to the user, or by
forgetting its saved progress. -/
def Output.reportsCompletion : Output → Bool
  | .sent .done | .progressDeleted | .downloadComplete _ | .isDone => true
  | _ => false

/-- The file was received up to its declared size, and its hash was verified. -/
def Verified (log : List Output) (f : FileInfo) : Prop :=
  .fileCompleted f.fileName f.size true ∈ log

instance (log : List Output) (f : FileInfo) : Decidable (Verified log f) :=
  inferInstanceAs (Decidable (_ ∈ _))

theorem Verified.append {log : List Output} {f : FileInfo} (h : Verified log f)
    (outs : List Output) : Verified (log ++ outs) f :=
  List.mem_append_left outs h

/-- A step that reports a download complete finds every file of it received in full and
verified, in this session or in an earlier one. -/
def ReportsSound (W : WebCrypto) (link : Link) : System.Condition Page Event :=
  fun past s event =>
    ∀ o ∈ (step W link s event).2, o.reportsCompletion →
      ∃ d ∈ s.download, ∀ f ∈ d.filesInfo, Verified ((downloader W link).log past) f

instance (past : List Event) (s : Page) (event : Event) :
    Decidable (ReportsSound W link past s event) := by
  rw [ReportsSound]
  cases s.download with
  | none => exact decidable_of_iff (∀ o ∈ (step W link s event).2, ¬o.reportsCompletion) (by simp)
  | some d =>
    exact decidable_of_iff (∀ o ∈ (step W link s event).2, o.reportsCompletion →
      ∀ f ∈ d.filesInfo, Verified ((downloader W link).log past) f) (by simp)

/-! ### What ends a stream early -/

/-- A suspended computation of the message handler fails, and closes the connection. -/
def Task.Fails (W : WebCrypto) (link : Link) (task : Task) (settlement : Settlement)
    (s : Page) : Prop :=
  match task with
  | .verifying connection payload encrypted =>
    s.IsCurrent (some connection) ∧
      (commitmentFailure W link payload.files encrypted settlement).isSome
  | .decryptingMetadata connection payload =>
    s.IsCurrent (some connection) ∧ (settlement.fulfilled →
      ∀ info ∈ W.decryptMetadata link.encryptionKey payload (link.hkdfSalt.getD []),
        (infoFailure info.files).isSome)
  | .loadingProgress _ => False

instance (task : Task) (settlement : Settlement) (s : Page) :
    Decidable (task.Fails W link settlement s) := by
  unfold Task.Fails
  split <;> infer_instance

/-- A chunk is refused, and closes the connection. -/
def ChunkRefused (W : WebCrypto) (link : Link) (s : Page) (chain : ℕ)
    (settlement : Settlement) : Prop :=
  ∃ x ∈ s.nextChunk chain, s.IsCurrent (x.2.activePc s) ∧
    (chunkOutcome W link s x.1 x.2 settlement).isRefused

instance (s : Page) (chain : ℕ) (settlement : Settlement) :
    Decidable (ChunkRefused W link s chain settlement) :=
  inferInstanceAs (Decidable (∃ x ∈ s.nextChunk chain, _))

/-- The last chunk of a file goes to an open stream, and the hash of the file is wrong. -/
def Delivery.WrongHash (W : WebCrypto) (δ : Delivery) : Prop :=
  δ.chunk.final ∧ δ.isOpen ∧ δ.written.hashMatches W δ.chunk.fileName = some false

instance (δ : Delivery) : Decidable (δ.WrongHash W) := inferInstanceAs (Decidable (_ ∧ _))

/-- The event closes a stream of the download before its file is complete: it closes the
connection, stops the download, or ends a file with a wrong hash. -/
def Closes (W : WebCrypto) (link : Link) (s : Page) : Event → Prop
  | .offered | .connectionError _ | .connectionClosed | .peerLeft | .stopped | .cleanedUp
  | .received (.error _) => s.streamsActive
  | .received (.info payload) => s.streamsActive ∧ (infoFailure payload.files).isSome
  | .resumed i settlement =>
    s.streamsActive ∧ ∃ task ∈ s.tasks[i]?, task.Fails W link settlement s
  | .chunkResumed chain settlement =>
    s.streamsActive ∧ ChunkRefused W link s chain settlement ∨
      ∃ δ ∈ s.delivery W link chain settlement, δ.WrongHash W
  | _ => False

instance (s : Page) (event : Event) : Decidable (Closes W link s event) := by
  unfold Closes
  split <;> infer_instance

/-! ### What a careful run keeps out -/

/-- Nothing closes a stream of a download that is running and has a file to complete. -/
def Undisturbed (W : WebCrypto) (link : Link) (s : Page) (event : Event) : Prop :=
  ∀ d ∈ s.download, d.stage = .running → d.Unfinished → ¬Closes W link s event

instance (s : Page) (event : Event) : Decidable (Undisturbed W link s event) :=
  inferInstanceAs (Decidable (∀ d ∈ s.download, _))

/-- The chunk, if it is flagged final, ends its file at the declared size, and there is a hash
to check the file against, and a hasher. -/
def Delivery.EndsFile (W : WebCrypto) (δ : Delivery) : Prop :=
  δ.chunk.final → δ.isOpen →
    (∀ f ∈ δ.download.filesInfo, f.fileName = δ.chunk.fileName →
      δ.chunk.offset + δ.plaintext.length = f.size) ∧
    (δ.written.hashMatches W δ.chunk.fileName).isSome

instance (δ : Delivery) : Decidable (δ.EndsFile W) := inferInstanceAs (Decidable (_ → _ → _))

/-- A chunk flagged final ends its file. -/
def FinalChunksEnd (W : WebCrypto) (link : Link) (s : Page) : Event → Prop
  | .chunkResumed chain settlement =>
    ∀ δ ∈ s.delivery W link chain settlement, δ.EndsFile W
  | _ => True

instance (s : Page) (event : Event) : Decidable (FinalChunksEnd W link s event) := by
  unfold FinalChunksEnd
  split <;> infer_instance

/-- A file that saved progress says is completed has the size that it was completed with. -/
def ResumesSameSizes (s : Page) : Event → Prop
  | .started => ∀ prior ∈ s.resumeProgress, ∀ files ∈ s.filesInfo, ∀ f ∈ files,
      (prior.fileProgress.lookup f.fileName).any (·.completed) →
        (f.fileName, f.size) ∈ prior.filesInfo.map fun f => (f.fileName, f.size)
  | _ => True

instance (s : Page) (event : Event) : Decidable (ResumesSameSizes s event) := by
  unfold ResumesSameSizes
  split <;> infer_instance

/-- The step is one of a run in which completion can be trusted. -/
def Careful (W : WebCrypto) (link : Link) : System.Condition Page Event :=
  fun _ s event =>
    Undisturbed W link s event ∧ FinalChunksEnd W link s event ∧ ResumesSameSizes s event

instance (past : List Event) (s : Page) (event : Event) :
    Decidable (Careful W link past s event) :=
  inferInstanceAs (Decidable (_ ∧ _))

/-! ### The invariant -/

/-- What the record says is completed was verified. -/
def TransferProgress.Sound (prior : TransferProgress) (log : List Output) : Prop :=
  ∀ f ∈ prior.filesInfo, ∀ rp ∈ prior.fileProgress.lookup f.fileName, rp.completed → Verified log f

theorem TransferProgress.Sound.verified {prior : TransferProgress} {log : List Output}
    (h : prior.Sound log) {f : FileInfo}
    (hmem : (f.fileName, f.size) ∈ prior.filesInfo.map fun f => (f.fileName, f.size))
    (hcompleted : (prior.fileProgress.lookup f.fileName).any (·.completed)) :
    Verified log f := by
  obtain ⟨f', hf', hsame⟩ := List.mem_map.mp hmem
  obtain ⟨hname, hsize⟩ := Prod.mk.inj hsame
  obtain ⟨rp, hrp, hrpc⟩ := (Option.any_eq_true _ _).mp hcompleted
  rw [Verified, ← hname, ← hsize]
  exact h f' hf' rp (by rwa [hname]) hrpc

/-- The files a download counts as completed were verified, and as long as it runs, their
streams are the only ones that have ended. -/
structure Download.Sound (d : Download) (log : List Output) : Prop where
  resumed : ∀ f ∈ d.filesInfo, d.wasCompleted f.fileName → Verified log f
  completed : ∀ f ∈ d.filesInfo, f.fileName ∈ d.completedFiles → Verified log f
  ended : d.stage = .running → ∀ f ∈ d.filesInfo, (d.streams f.fileName).isClosed →
    f.fileName ∈ d.completedFiles
  reporting : d.stage = .derivingToken ∨ d.stage = .posting → ∀ f ∈ d.filesInfo, Verified log f

/-- The invariant of the page. -/
structure Page.Sound (s : Page) (log : List Output) : Prop where
  progress : ∀ prior ∈ s.progress, prior.Sound log
  resumeProgress : ∀ prior ∈ s.resumeProgress, prior.Sound log
  download : ∀ d ∈ s.download, d.Sound log

section Append

variable {log : List Output}

theorem TransferProgress.Sound.append {prior : TransferProgress} (h : prior.Sound log)
    (outs : List Output) : prior.Sound (log ++ outs) :=
  fun f hf rp hrp hcompleted => (h f hf rp hrp hcompleted).append outs

theorem Download.Sound.append {d : Download} (h : d.Sound log) (outs : List Output) :
    d.Sound (log ++ outs) where
  resumed f hf hwas := (h.resumed f hf hwas).append outs
  completed f hf hmem := (h.completed f hf hmem).append outs
  ended := h.ended
  reporting hstage f hf := (h.reporting hstage f hf).append outs

theorem Page.Sound.append {s : Page} (h : s.Sound log) (outs : List Output) :
    s.Sound (log ++ outs) where
  progress prior hprior := (h.progress prior hprior).append outs
  resumeProgress prior hprior := (h.resumeProgress prior hprior).append outs
  download d hd := (h.download d hd).append outs

end Append

/-! ### Steps of a download -/

variable {connection : ℕ} {event : Event} {activePc : Option ℕ} {settlement : Settlement}

namespace Download.Sound

variable {d : Download} {log : List Output}

theorem closeStreams (h : d.Sound log) (hover : d.stage = .running → ¬d.Unfinished) :
    d.closeStreams.Sound log where
  resumed := h.resumed
  completed := h.completed
  ended hstage f hf _ := by
    by_contra hnot
    exact hover hstage ⟨f, hf, hnot⟩
  reporting := h.reporting

theorem closeStream (h : d.Sound log) (fileName : String)
    (hover : d.stage = .running → ∀ f ∈ d.filesInfo, f.fileName = fileName →
      f.fileName ∈ d.completedFiles) :
    (d.closeStream fileName).Sound log where
  resumed := h.resumed
  completed := h.completed
  ended hstage f hf hclosed := by
    by_cases hsame : f.fileName = fileName
    · exact hover hstage f hf hsame
    · refine h.ended hstage f hf ?_
      simpa [Download.closeStream, hsame] using hclosed
  reporting := h.reporting

/-- Counting, decrypting and hashing leave the streams alone; writing does not end them. -/
theorem of_streams (h : d.Sound log) {d' : Download} (hfiles : d'.filesInfo = d.filesInfo)
    (hresume : d'.resumeData = d.resumeData) (hcompleted : d'.completedFiles = d.completedFiles)
    (hstage : d'.stage = d.stage)
    (hstreams : ∀ fileName, (d'.streams fileName).isClosed = (d.streams fileName).isClosed) :
    d'.Sound log where
  resumed := by
    rw [hfiles]
    unfold Download.wasCompleted Download.savedProgress
    rw [hresume]
    exact h.resumed
  completed := by
    rw [hfiles, hcompleted]
    exact h.completed
  ended := by
    rw [hfiles, hcompleted, hstage]
    intro hrunning f hf hclosed
    exact h.ended hrunning f hf (hstreams f.fileName ▸ hclosed)
  reporting := by
    rw [hfiles, hstage]
    exact h.reporting

theorem complete (h : d.Sound log) (fileName : String)
    (hverified : ∀ f ∈ d.filesInfo, f.fileName = fileName → Verified log f) :
    (d.complete fileName).Sound log := by
  have hmarked :
      { d with completedFiles := d.completedFiles ++ [fileName] }.Sound log := by
    refine ⟨h.resumed, fun f hf hmem => ?_, fun hstage f hf hclosed => ?_, h.reporting⟩
    · rcases List.mem_append.mp hmem with hmem | hmem
      · exact h.completed f hf hmem
      · exact hverified f hf (List.mem_singleton.mp hmem)
    · exact List.mem_append_left _ (h.ended hstage f hf hclosed)
  exact hmarked.closeStream fileName fun _ f _ hname =>
    List.mem_append_right _ (List.mem_singleton.mpr hname)

theorem startNextFileOrFinish (h : d.Sound log) : d.startNextFileOrFinish.Sound log where
  resumed := h.resumed
  completed f hf hmem := by
    rcases List.mem_append.mp hmem with hmem | hmem
    · exact h.completed f hf hmem
    · exact h.resumed f hf (Download.wasCompleted_of_mem_skippedFiles hmem)
  ended hstage f hf hclosed := by
    by_cases hskipped : f.fileName ∈ d.skippedFiles.map FileInfo.fileName
    · exact List.mem_append_right _ hskipped
    · refine List.mem_append_left _ (h.ended hstage f hf ?_)
      simpa only [Download.startNextFileOrFinish, if_neg hskipped] using hclosed
  reporting := h.reporting

theorem setStage (h : d.Sound log) {stage : Stage} (hstage : stage ≠ .running)
    (hreporting : stage = .derivingToken ∨ stage = .posting → ∀ f ∈ d.filesInfo, Verified log f) :
    { d with stage }.Sound log where
  resumed := h.resumed
  completed := h.completed
  ended hrunning := absurd hrunning hstage
  reporting := hreporting

theorem create {files : List FileInfo}
    {resumeData : Option (List (String × FileProgress))}
    (hresumed : ∀ f ∈ files,
      (Download.create connection files resumeData).wasCompleted f.fileName → Verified log f) :
    (Download.create connection files resumeData).Sound log where
  resumed := hresumed
  completed _ _ hmem := absurd hmem List.not_mem_nil
  ended _ _ _ hclosed := absurd hclosed Bool.false_ne_true
  reporting hstage := absurd hstage (by simp [Download.create])

theorem snapshot (h : d.Sound log) : d.snapshot.Sound log := by
  intro f hf rp hrp hcompleted
  rw [Download.lookup_snapshot hrp] at hcompleted
  exact h.completed f hf (of_decide_eq_true hcompleted)

end Download.Sound

/-! ### Steps of the page -/

/-- No download is running that has a file to complete. -/
def Page.Over (s : Page) : Prop := ∀ d ∈ s.download, d.stage = .running → ¬d.Unfinished

theorem Undisturbed.over {s : Page} (h : Undisturbed W link s event)
    (hcloses : Closes W link s event) : s.Over :=
  fun d hd hstage hunfinished => h d hd hstage hunfinished hcloses

namespace Page.Sound

variable {s : Page} {log : List Output}

theorem setDownload (h : s.Sound log) {d : Download} (hd : d.Sound log) :
    { s with download := some d }.Sound log where
  progress := h.progress
  resumeProgress := h.resumeProgress
  download d' hd' := by
    obtain rfl := Option.some_inj.mp hd'
    exact hd

theorem closeActiveStreams (h : s.Sound log) (hover : s.streamsActive → s.Over) :
    s.closeActiveStreams.Sound log := by
  rw [Page.closeActiveStreams]
  split
  next hactive =>
    refine ⟨h.progress, h.resumeProgress, fun d hd => ?_⟩
    obtain ⟨d₀, hd₀, rfl⟩ := Option.map_eq_some_iff.mp hd
    exact (h.download d₀ hd₀).closeStreams (hover hactive d₀ hd₀)
  next => exact h

theorem closeConnection (h : s.Sound log) (hover : s.streamsActive → s.Over) :
    s.closeConnection.Sound log := by
  have hclosed := h.closeActiveStreams hover
  rw [Page.closeConnection]
  split
  · exact ⟨hclosed.progress, hclosed.resumeProgress, hclosed.download⟩
  · exact h

theorem fail (h : s.Sound log) {connection : Option ℕ} (text : String)
    (hover : s.IsCurrent connection → s.streamsActive → s.Over) :
    (s.fail connection text).1.Sound log := by
  rw [Page.fail]
  split
  next hcurrent => exact h.closeConnection (hover hcurrent)
  next => exact h

theorem finishFile {chunk : Chunk} {d : Download} (h : s.Sound log) (hd : d.Sound log)
    (hsize : ∀ f ∈ d.filesInfo, f.fileName = chunk.fileName → d.nextOffset chunk.fileName = f.size)
    (hhash : (d.hashMatches W chunk.fileName).isSome)
    (hwrong : d.hashMatches W chunk.fileName = some false → d.stage = .running → ¬d.Unfinished) :
    (Downloader.finishFile W activePc chunk d s).1.Sound
      (log ++ (Downloader.finishFile W activePc chunk d s).2) := by
  have hfinalize : (d.finalize chunk.fileName).Sound log :=
    hd.of_streams rfl rfl rfl rfl fun _ => rfl
  rw [Downloader.finishFile]
  split
  next hmatches =>
    refine Page.Sound.append (Page.Sound.fail ?_ _ fun _ _ => ?_) _
    · refine h.setDownload (hfinalize.closeStream _ fun hstage f hf _ => ?_)
      by_contra hnot
      exact hwrong hmatches hstage ⟨f, hf, hnot⟩
    · intro d' hd' hstage
      obtain rfl := Option.some_inj.mp hd'
      exact hwrong hmatches hstage
  next hmatches =>
    refine (h.append _).setDownload ?_
    refine ((hfinalize.append _).complete _ fun f hf hname => ?_).startNextFileOrFinish
    refine List.mem_append_right _ (List.mem_cons.mpr (.inl ?_))
    rw [hname, hsize f hf hname, hhash]

theorem deliverChunk {δ : Delivery} (h : s.Sound log) (hd : δ.download.Sound log)
    (hends : δ.EndsFile W)
    (hwrong : δ.WrongHash W → δ.download.stage = .running → ¬δ.download.Unfinished) :
    (Downloader.deliverChunk W link activePc δ settlement s).1.Sound
      (log ++ (Downloader.deliverChunk W link activePc δ settlement s).2) := by
  have hwritten : δ.written.Sound log := by
    refine hd.of_streams rfl rfl rfl rfl fun fileName => ?_
    by_cases hsame : fileName = δ.chunk.fileName
    · subst hsame
      simp [Delivery.written, Download.write, Download.enqueue, Download.advance]
    · simp [Delivery.written, Download.write, Download.enqueue, Download.advance, hsame]
  have hadvance : (δ.download.advance δ.chunk δ.plaintext).Sound log :=
    hd.of_streams rfl rfl rfl rfl fun _ => rfl
  have hsaved : ∀ prior ∈ (if settlement.saves ∧ link.hkdfSalt.isSome then
      some δ.written.snapshot else s.progress), prior.Sound log := by
    intro prior hprior
    split at hprior
    next =>
      obtain rfl := Option.some_inj.mp hprior
      exact hwritten.snapshot
    next => exact h.progress prior hprior
  rw [Downloader.deliverChunk]
  split
  next hclosed => exact (h.append []).setDownload (hadvance.append [])
  next hopen =>
    have hopen' : δ.isOpen = true := by simpa using hopen
    have hpage : Page.Sound { s with
        download := some δ.written
        progress := if settlement.saves ∧ link.hkdfSalt.isSome then some δ.written.snapshot
          else s.progress } log :=
      ⟨hsaved, h.resumeProgress, (h.setDownload hwritten).download⟩
    dsimp only
    split
    next hfinal =>
      obtain ⟨hsize, hhash⟩ := hends hfinal hopen'
      rw [← List.append_assoc]
      refine Page.Sound.finishFile (hpage.append _) (hwritten.append _) (fun f hf hname => ?_)
        hhash fun hmismatch => hwrong ⟨hfinal, hopen', hmismatch⟩
      rw [← hsize f hf hname]
      simp [Delivery.written, Download.write, Download.enqueue, Download.advance,
        Download.nextOffset]
    next => exact hpage.append _

theorem resumeChain {chain : ℕ} (h : s.Sound log)
    (hquiet : Undisturbed W link s (.chunkResumed chain settlement))
    (hends : FinalChunksEnd W link s (.chunkResumed chain settlement)) :
    (Downloader.resumeChain W link chain settlement s).1.Sound
      (log ++ (Downloader.resumeChain W link chain settlement s).2) := by
  have htaken : (s.takeChunk chain).Sound log := ⟨h.progress, h.resumeProgress, h.download⟩
  obtain ⟨-, hnothing⟩ | ⟨d, queued, hnext, hcases⟩ :=
    resumeChain_cases W link chain settlement s
  · rw [hnothing]
    exact htaken.append []
  have hdownload := (Page.nextChunk_eq_some hnext).1
  have hd : d.Sound log := h.download d hdownload
  have hcounted : (queued.counted d).Sound log ∧
      (queued.counted d).stage = d.stage ∧ ((queued.counted d).Unfinished ↔ d.Unfinished) := by
    rw [QueuedChunk.counted]
    split
    · exact ⟨hd.of_streams rfl rfl rfl rfl fun _ => rfl, rfl, Iff.rfl⟩
    · exact ⟨hd, rfl, Iff.rfl⟩
  rcases hcases with
    ⟨text, houtcome, hrefused⟩ | ⟨point, -, hwaits⟩ | ⟨δ, hδ, hδd, -, -, hdelivered⟩
  · rw [hrefused]
    refine (htaken.fail text ?_).append _
    intro hcurrent hactive
    refine hquiet.over (.inl ⟨hactive, _, hnext, hcurrent, ?_⟩)
    rw [houtcome]
    rfl
  · rw [hwaits]
    refine Page.Sound.append ?_ []
    exact ⟨h.progress, h.resumeProgress, (h.setDownload hcounted.1).download⟩
  · rw [hdelivered]
    refine htaken.deliverChunk ?_ (hends δ hδ) fun hwrong => ?_
    · rw [hδd]
      exact hcounted.1
    · rw [hδd, hcounted.2.1, hcounted.2.2]
      exact hquiet.over (.inr ⟨δ, hδ, hwrong⟩) d hdownload

theorem of_eq (h : s.Sound log) {s' : Page} (hprogress : s'.progress = s.progress)
    (hresume : s'.resumeProgress = s.resumeProgress) (hdownload : s'.download = s.download) :
    s'.Sound log := by
  refine ⟨?_, ?_, ?_⟩
  · rw [hprogress]
    exact h.progress
  · rw [hresume]
    exact h.resumeProgress
  · rw [hdownload]
    exact h.download

theorem acceptInfo (h : s.Sound log) (payload : InfoPayload) (encrypted : Bool) :
    (Downloader.acceptInfo link payload encrypted s).Sound log := by
  rw [Downloader.acceptInfo]
  split <;> exact h.of_eq rfl rfl rfl

theorem onInfo (h : s.Sound log) {payload : InfoPayload} {encrypted : Bool}
    (hover : s.IsCurrent (some connection) → (infoFailure payload.files).isSome →
      s.streamsActive → s.Over) :
    (Downloader.onInfo link connection payload encrypted s).1.Sound log := by
  rw [Downloader.onInfo]
  split
  next text hfailure =>
    exact h.fail text fun hcurrent => hover hcurrent (by rw [hfailure]; rfl)
  next =>
    split
    · exact h.of_eq rfl rfl rfl
    · exact h.acceptInfo payload encrypted

theorem resumeProgressLoaded (h : s.Sound log) (files : List FileInfo)
    (settlement : Settlement) :
    (Downloader.resumeProgressLoaded files settlement s).Sound log := by
  have hdeleted : Page.Sound { s with progress := none } log :=
    ⟨fun _ hnone => absurd hnone (Option.not_mem_none _), h.resumeProgress, h.download⟩
  rw [Downloader.resumeProgressLoaded]
  split
  next => exact h
  next prior hprior =>
    split_ifs
    · exact h
    · exact hdeleted
    · refine ⟨h.progress, fun prior' hprior' => ?_, h.download⟩
      obtain rfl := Option.some_inj.mp hprior'
      exact h.progress prior hprior
    · exact h
    · exact hdeleted

theorem resumeTask (h : s.Sound log) {task : Task}
    (hover : task.Fails W link settlement s → s.streamsActive → s.Over) :
    (Downloader.resumeTask W link task settlement s).1.Sound log := by
  cases task with
  | verifying connection payload encrypted =>
    unfold Downloader.resumeTask
    dsimp only
    split
    next text hfailure =>
      exact h.fail text fun hcurrent => hover ⟨hcurrent, by rw [hfailure]; rfl⟩
    next => exact h.acceptInfo payload encrypted
  | decryptingMetadata connection payload =>
    unfold Downloader.resumeTask Downloader.resumeMetadata
    dsimp only
    split
    next info hfulfilled hinfo =>
      refine h.onInfo fun hcurrent hfailure => hover ⟨hcurrent, fun _ info' hinfo' => ?_⟩
      rw [hinfo] at hinfo'
      rwa [← Option.some_inj.mp hinfo']
    next hfailed =>
      refine h.fail _ fun hcurrent => hover ⟨hcurrent, fun hfulfilled info hinfo => ?_⟩
      exact absurd hinfo (hfailed info hfulfilled)
  | loadingProgress files => exact h.resumeProgressLoaded files settlement

theorem startDownload (h : s.Sound log) (hsame : ResumesSameSizes s .started) :
    (Downloader.startDownload s).1.Sound log := by
  rw [Downloader.startDownload]
  split
  next d hnew =>
    obtain ⟨-, peer, files, -, hfiles, rfl⟩ := Page.newDownload_eq_some hnew
    refine ⟨h.progress, fun _ hnone => absurd hnone (Option.not_mem_none _), fun d hd => ?_⟩
    obtain rfl := Option.some_inj.mp hd
    refine (Download.Sound.create fun f hf hwas => ?_).startNextFileOrFinish
    cases hprior : s.resumeProgress with
    | none =>
      simp [Download.wasCompleted, Download.savedProgress, Download.create, hprior] at hwas
    | some prior =>
      have hcompleted : (prior.fileProgress.lookup f.fileName).any (·.completed) := by
        simpa [Download.wasCompleted, Download.savedProgress, Download.create, hprior] using hwas
      exact (h.resumeProgress prior hprior).verified
        (hsame prior hprior _ hfiles f hf hcompleted) hcompleted
  next => exact h

theorem downloadFulfilled (h : s.Sound log) {d : Download} (hd : d.Sound log) :
    (Downloader.downloadFulfilled link d s).1.Sound log := by
  rw [Downloader.downloadFulfilled]
  split
  next hended =>
    have hverified : ∀ f ∈ d.filesInfo, Verified log f := fun f hf =>
      hd.completed f hf (hd.ended hended.1 f hf (hended.2 f hf))
    have hstage : ∀ stage ≠ .running, Page.Sound { s with
        download := some { d with stage } } log := fun stage hstage =>
      h.setDownload (hd.setStage hstage fun _ => hverified)
    split
    · exact ⟨fun _ hnone => absurd hnone (Option.not_mem_none _), h.resumeProgress,
        (hstage .derivingToken (by decide)).download⟩
    · exact (hstage .reported (by decide)).of_eq rfl rfl rfl
  next => exact h

theorem downloadRejected (h : s.Sound log) {d : Download} (hd : d.Sound log) :
    (Downloader.downloadRejected d s).1.Sound log := by
  have hfailed : { d with stage := .failed : Download }.Sound log :=
    hd.setStage (by decide) fun hstage => absurd hstage (by decide)
  rw [Downloader.downloadRejected]
  split
  next =>
    refine h.setDownload ?_
    split
    · exact hfailed.closeStream _ fun hrunning => absurd hrunning (by simp)
    · exact hfailed
  next => exact h

theorem postCompletion (h : s.Sound log) {d : Download} (hd : d.Sound log) (fulfilled : Bool) :
    (Downloader.postCompletion link d fulfilled s).1.Sound log := by
  rw [Downloader.postCompletion]
  split_ifs with hstage hfulfilled
  · exact h.setDownload (hd.setStage (by decide) fun _ => hd.reporting (.inl hstage))
  · exact h.setDownload (hd.setStage (by decide) fun hreporting =>
      absurd hreporting (by decide))
  · exact h

theorem finishReport (h : s.Sound log) {d : Download} (hd : d.Sound log) :
    (Downloader.finishReport d s).1.Sound log := by
  rw [Downloader.finishReport]
  split
  · exact h.setDownload (hd.setStage (by decide) fun hreporting =>
      absurd hreporting (by decide))
  · exact h

theorem withDownload (h : s.Sound log) {f : Download → Page → Page × List Output}
    (hf : ∀ d, d.Sound log → (f d s).1.Sound log) : (Downloader.withDownload s f).1.Sound log := by
  rw [Downloader.withDownload]
  split
  next d hd => exact hf d (h.download d hd)
  next => exact h

theorem onData (h : s.Sound log) {message : Message}
    (hover : Closes W link s (.received message) → s.Over) :
    (Downloader.onData link connection message s).1.Sound log := by
  unfold Downloader.onData
  split
  next => exact h
  next => exact h
  next payload => exact h.onInfo fun _ hfailure hactive => hover ⟨hactive, hfailure⟩
  next => exact h.of_eq rfl rfl rfl
  next => exact h.of_eq rfl rfl rfl
  next text => exact h.fail text fun _ hactive => hover hactive
  next => exact h

theorem step {past : List Event} (h : s.Sound log) (hcareful : Careful W link past s event) :
    (Downloader.step W link s event).1.Sound (log ++ (Downloader.step W link s event).2) := by
  obtain ⟨hquiet, hends, hsame⟩ := hcareful
  by_cases hchunk : ∃ chain settlement, event = .chunkResumed chain settlement
  · obtain ⟨chain, settlement, rfl⟩ := hchunk
    exact h.resumeChain hquiet hends
  -- No other step completes a file.
  refine Page.Sound.append ?_ _
  cases event with
  | mounted expired =>
    refine ⟨fun prior hprior => ?_, fun _ hnone => absurd hnone (Option.not_mem_none _),
      fun _ hnone => absurd hnone (Option.not_mem_none _)⟩
    cases expired with
    | true => exact absurd hprior (Option.not_mem_none _)
    | false => exact h.progress prior hprior
  | offered =>
    dsimp only [Downloader.step]
    split
    · exact h
    · exact (h.closeConnection fun hactive => hquiet.over hactive).of_eq rfl rfl rfl
  | opened =>
    dsimp only [Downloader.step]
    split
    · split
      · exact h
      · exact h.of_eq rfl rfl rfl
    · exact h
  | received message =>
    dsimp only [Downloader.step]
    split
    · split
      · exact h
      · exact h.onData hquiet.over
    · exact h
  | relayed connection message =>
    dsimp only [Downloader.step]
    split
    · exact h
    · unfold onRelayData
      split
      · exact h.of_eq rfl rfl rfl
      · exact h
  | resumed i settlement =>
    dsimp only [Downloader.step]
    split
    next task htask =>
      have herased : Page.Sound { s with tasks := s.tasks.eraseIdx i } log :=
        h.of_eq rfl rfl rfl
      exact herased.resumeTask fun hfails hactive =>
        hquiet.over ⟨hactive, task, htask, hfails⟩
    next => exact h
  | chunkResumed chain settlement => exact absurd ⟨chain, settlement, rfl⟩ hchunk
  | connectionError text =>
    dsimp only [Downloader.step]
    split
    · split
      · exact h
      · exact h.fail text fun _ hactive => hquiet.over hactive
    · exact h
  | connectionClosed => exact h.closeConnection fun hactive => hquiet.over hactive
  | peerLeft =>
    dsimp only [Downloader.step]
    split
    · exact h
    · exact h.closeConnection fun hactive => hquiet.over hactive
  | started => exact h.startDownload hsame
  | paused =>
    dsimp only [Downloader.step, pauseDownload]
    split
    · exact h.of_eq rfl rfl rfl
    · exact h
  | unpaused =>
    dsimp only [Downloader.step, resumeDownload]
    split
    · exact h.of_eq rfl rfl rfl
    · exact h
  | stopped => exact (h.closeActiveStreams fun hactive => hquiet.over hactive).of_eq rfl rfl rfl
  | cleanedUp => exact (h.closeConnection fun hactive => hquiet.over hactive).of_eq rfl rfl rfl
  | downloadSettled fulfilled =>
    refine h.withDownload fun d hd => ?_
    cases fulfilled with
    | true => exact h.downloadFulfilled hd
    | false => exact h.downloadRejected hd
  | tokenDerived fulfilled => exact h.withDownload fun d hd => h.postCompletion hd fulfilled
  | completionPosted => exact h.withDownload fun d hd => h.finishReport hd

end Page.Sound

/-! ### Which steps report -/

/-- None of the outputs reports a download complete. -/
def Silent (outs : List Output) : Prop := ∀ o ∈ outs, o.reportsCompletion = false

theorem silent_nil : Silent [] := fun _ h => absurd h List.not_mem_nil

theorem silent_singleton {o : Output} (h : o.reportsCompletion = false) : Silent [o] := by
  intro o' ho'
  rw [List.mem_singleton.mp ho']
  exact h

theorem Silent.append {outs outs' : List Output} (h : Silent outs) (h' : Silent outs') :
    Silent (outs ++ outs') := by
  intro o ho
  rcases List.mem_append.mp ho with ho | ho
  · exact h o ho
  · exact h' o ho

theorem Chatter.silent {outs : List Output} (h : Chatter outs) : Silent outs := by
  intro o ho
  have hchatter := h o ho
  cases o with
  | sent message => cases message <;> first | rfl | cases hchatter
  | _ => first | rfl | cases hchatter

section Silent

variable {s : Page}

theorem silent_startOutputs {d : Download} : Silent (d.startOutputs (s.sendOn connection)) := by
  refine Silent.append (fun o ho => ?_) ?_
  · obtain ⟨f, -, rfl⟩ := List.mem_map.mp ho
    rfl
  · split
    · exact (chatter_sendOn Message.noConfusion).silent
    · exact silent_nil

theorem silent_finishFile {chunk : Chunk} {d : Download} :
    Silent (finishFile W activePc chunk d s).2 := by
  rw [finishFile]
  dsimp only
  split
  · exact chatter_fail.silent
  · rw [← List.singleton_append]
    exact (silent_singleton rfl).append silent_startOutputs

theorem silent_deliverChunk {δ : Delivery} :
    Silent (deliverChunk W link activePc δ settlement s).2 := by
  rw [deliverChunk]
  split
  · exact silent_nil
  · dsimp only
    rcases activePc with _ | connection
    · split
      · exact Silent.append silent_nil silent_finishFile
      · exact silent_nil
    · have hack : Silent (s.sendOn connection
          (.chunkAck δ.chunk.fileName δ.chunk.offset δ.plaintext.length)) :=
        (chatter_sendOn Message.noConfusion).silent
      split
      · exact Silent.append hack silent_finishFile
      · exact hack

theorem silent_resumeChain {chain : ℕ} : Silent (resumeChain W link chain settlement s).2 := by
  obtain ⟨-, h⟩ | ⟨d, queued, -, ⟨text, -, h⟩ | ⟨point, -, h⟩ | ⟨δ, -, -, -, -, h⟩⟩ :=
    resumeChain_cases W link chain settlement s
  · rw [h]
    exact silent_nil
  · rw [h]
    exact chatter_fail.silent
  · rw [h]
    exact silent_nil
  · rw [h]
    exact silent_deliverChunk

theorem silent_startDownload : Silent (startDownload s).2 := by
  rw [startDownload]
  split
  · exact silent_startOutputs
  · exact silent_nil

theorem silent_downloadRejected {d : Download} : Silent (downloadRejected d s).2 := by
  unfold downloadRejected
  split
  · dsimp only
    split
    · exact silent_nil
    · exact silent_singleton rfl
  · exact silent_nil

end Silent

/-- A report comes from a download whose streams have all ended, or that was reported before. -/
theorem reporting_of_reportsCompletion {s : Page} {o : Output} (ho : o ∈ (step W link s event).2)
    (hreports : o.reportsCompletion) :
    ∃ d ∈ s.download, d.stage = .running ∧ d.StreamsEnded ∨
      d.stage = .derivingToken ∨ d.stage = .posting := by
  have hsilent : ¬Silent (step W link s event).2 := fun h => by
    rw [h o ho] at hreports
    exact Bool.false_ne_true hreports
  cases hconcerns : event.concernsDownload with
  | false => exact absurd (chatter_step hconcerns).silent hsilent
  | true =>
    cases event with
    | started => exact absurd silent_startDownload hsilent
    | chunkResumed chain settlement => exact absurd silent_resumeChain hsilent
    | downloadSettled fulfilled =>
      dsimp only [step, withDownload] at hsilent
      split at hsilent
      next d hd =>
        refine ⟨d, hd, .inl ?_⟩
        by_contra hnot
        cases fulfilled with
        | true => exact hsilent (by simpa [downloadFulfilled, hnot] using silent_nil)
        | false => exact hsilent silent_downloadRejected
      next => exact absurd silent_nil hsilent
    | tokenDerived fulfilled =>
      dsimp only [step, withDownload] at hsilent
      split at hsilent
      next d hd =>
        refine ⟨d, hd, .inr (.inl ?_)⟩
        by_contra hnot
        exact hsilent (by simpa [postCompletion, hnot] using silent_nil)
      next => exact absurd silent_nil hsilent
    | completionPosted =>
      dsimp only [step, withDownload] at hsilent
      split at hsilent
      next d hd =>
        refine ⟨d, hd, .inr (.inr ?_)⟩
        by_contra hnot
        exact hsilent (by simpa [finishReport, hnot] using silent_nil)
      next => exact absurd silent_nil hsilent
    | _ => cases hconcerns

/-! ### Careful runs -/

def sharedLink : Link where
  slug := "abc"
  encryptionKey := [1]
  hkdfSalt := some [2]

/-- A file of two bytes; `plainCrypto` hashes a file to itself. -/
def sharedFile : FileInfo where
  fileName := "a.txt"
  size := 2
  type := "text/plain"
  sha256 := some "hi"

/-- The link is opened and a download is started. -/
def openingRun : List Event :=
  [.mounted false, .offered, .opened, .received (.info { files := [sharedFile] }),
    .resumed 0 {}, .started]

/-- After the first byte the page is loaded again, and the download is resumed. -/
def resumedRun : List Event :=
  openingRun ++
    [.received (.chunk "a.txt" none 0 [104] false), .chunkResumed 0 { saves := true }] ++
  openingRun ++
    [.received (.chunk "a.txt" none 1 [105] true), .chunkResumed 0 {}, .downloadSettled true,
      .tokenDerived true, .completionPosted, .connectionClosed]

end Rapidly.FileSharing.Downloader
