import Mathlib.Data.List.TakeWhile
import Mathlib.Data.Rat.Floor
import Rapidly.FileSharing.Downloader.Session
import Rapidly.Transition.System

/-!
# The page of the downloader: its handlers

The callbacks of `useDownloader`, each up to its next suspension, put together as a transition
system over the `Page`. The labels decide when messages arrive and in which order, how a
suspended computation settles, when a connection closes, what the user does, and when the
output is written to disk.

Where a handler reports an error and closes the connection, the reason is found by a function
of its own (`infoFailure`, `commitmentFailure`, `chunkFailure`), which the handler branches on.
-/

namespace Rapidly.FileSharing.Downloader

open Transition

variable (W : WebCrypto) (link : Link)

/-! ### Connections -/

namespace Page

variable (s : Page)

/-- `send` of a connection: dropped unless it is the current one and open. -/
def sendOn (connection : ℕ) (message : Message) : List Output :=
  if s.peer = some { connection, isOpen := true } then [.sent message] else []

/-- `send` of the connection that is current. -/
def send (message : Message) : List Output :=
  match s.peer with
  | some peer => s.sendOn peer.connection message
  | none => []

/-- Close the streams in `activeStreamsRef`, and empty it. -/
def closeActiveStreams : Page :=
  if s.streamsActive then
    { s with download := s.download.map Download.closeStreams, streamsActive := false }
  else s

/-- The current connection is closed; `onClose` closes the streams. -/
def closeConnection : Page :=
  match s.peer with
  | some _ => { s.closeActiveStreams with peer := none }
  | none => s

theorem closeConnection_frame : s.closeConnection.chains = s.chains ∧
    s.closeConnection.stopped = s.stopped ∧ s.closeConnection.cancelled = s.cancelled := by
  rw [closeConnection, closeActiveStreams]
  split
  · split <;> exact ⟨rfl, rfl, rfl⟩
  · exact ⟨rfl, rfl, rfl⟩

/-- The connection is there, and still the current one. -/
def IsCurrent (connection : Option ℕ) : Prop :=
  connection.isSome ∧ s.peer.map Peer.connection = connection

instance (connection : Option ℕ) : Decidable (s.IsCurrent connection) :=
  inferInstanceAs (Decidable (_ ∧ _))

/-- An error is shown, and a connection is closed if it still is the current one. -/
def fail (connection : Option ℕ) (text : String) : Page × List Output :=
  (if s.IsCurrent connection then s.closeConnection else s, [.errorMessage text])

end Page

/-! ### File lists -/

/-- Why a list of files is refused: two files have one name. -/
def infoFailure (files : List FileInfo) : Option String :=
  if (files.map FileInfo.fileName).Nodup then none
  else some "The sender has files with duplicate names. Ask them to rename and try again."

/-- A commitment is to be checked, and there is a salt to do it with. -/
def needsVerification (files : List FileInfo) : Bool :=
  link.hkdfSalt.isSome && files.any (·.commitment.isSome)

/-- The first file whose key commitment is wrong. -/
def wrongCommitment (files : List FileInfo) : Option FileInfo :=
  (files.zipIdx.find? fun (f, i) => f.commitment.any fun commitment =>
    !W.verifyKeyCommitment link.encryptionKey f.fileName f.size i (link.hkdfSalt.getD [])
      commitment).map Prod.fst

/-- Why a list of files is refused after its key commitments were checked. -/
def commitmentFailure (files : List FileInfo) (encrypted : Bool) (settlement : Settlement) :
    Option String :=
  if settlement.fulfilled then
    (wrongCommitment W link files).map fun f =>
      s!"Key commitment verification failed for \"{f.fileName}\". " ++
        "The encryption key may have been substituted."
  else if encrypted then
    some "Failed to decrypt file metadata. The encryption key may be invalid."
  else some "Failed to verify key commitment. The link may be corrupted."

/-- Take over a list of files; after a plain `Info` the saved progress is looked up. -/
def acceptInfo (payload : InfoPayload) (encrypted : Bool) (s : Page) : Page :=
  let s := { s with
    filesInfo := some payload.files, isEncrypted := payload.encrypted.getD false }
  if link.hkdfSalt.isSome ∧ encrypted = false then
    { s with tasks := s.tasks ++ [.loadingProgress payload.files] }
  else s

/-- A list of files, from its check for duplicate names on. -/
def onInfo (connection : ℕ) (payload : InfoPayload) (encrypted : Bool) (s : Page) :
    Page × List Output :=
  match infoFailure payload.files with
  | some text => s.fail (some connection) text
  | none =>
    if needsVerification link payload.files then
      ({ s with tasks := s.tasks ++ [.verifying connection payload encrypted] }, [])
    else (acceptInfo link payload encrypted s, [])

/-- `decryptMetadata` and what follows it. -/
def resumeMetadata (connection : ℕ) (payload : Bytes) (settlement : Settlement) (s : Page) :
    Page × List Output :=
  match settlement.fulfilled,
    W.decryptMetadata link.encryptionKey payload (link.hkdfSalt.getD []) with
  | true, some info => onInfo link connection info true s
  | _, _ =>
    s.fail (some connection)
      "Failed to decrypt file metadata. The encryption key may be invalid."

/-- `loadProgress` settled: matching progress is kept for `startDownload`, other progress is
discarded. -/
def resumeProgressLoaded (files : List FileInfo) (settlement : Settlement) (s : Page) : Page :=
  match s.progress with
  | none => s
  | some prior =>
    if settlement.fulfilled = false then s
    else if settlement.expired then { s with progress := none }
    else if prior.filesMatch files then
      if prior.hasProgress then { s with resumeProgress := some prior } else s
    else { s with progress := none }

/-- A suspended computation of the message handler woken by its settlement. -/
def resumeTask (task : Task) (settlement : Settlement) (s : Page) : Page × List Output :=
  match task with
  | .verifying connection payload encrypted =>
    match commitmentFailure W link payload.files encrypted settlement with
    | some text => s.fail (some connection) text
    | none => (acceptInfo link payload encrypted s, [])
  | .decryptingMetadata connection payload =>
    resumeMetadata W link connection payload settlement s
  | .loadingProgress files => (resumeProgressLoaded files settlement s, [])

/-! ### Starting a download -/

namespace Download

/-- The next files that an earlier session completed. -/
def skippedFiles (d : Download) : List FileInfo :=
  d.remainingFiles.takeWhile fun f => d.wasCompleted f.fileName

/-- The files from the next one to be requested on. -/
def unskippedFiles (d : Download) : List FileInfo :=
  d.remainingFiles.dropWhile fun f => d.wasCompleted f.fileName

/-- `startNextFileOrFinish`: skip what an earlier session completed, closing its streams, and
request the file after that. -/
def startNextFileOrFinish (d : Download) : Download :=
  let skipped := d.skippedFiles.map FileInfo.fileName
  let activeFileName := d.unskippedFiles.head?.map FileInfo.fileName
  { d with
    completedFiles := d.completedFiles ++ skipped
    requestedFiles := d.requestedFiles ++ (skipped ++ activeFileName.toList)
    streams := fun fileName =>
      if fileName ∈ skipped then { d.streams fileName with isClosed := true }
      else d.streams fileName
    remainingFiles := d.unskippedFiles.tail
    activeFileName }

/-- What `startNextFileOrFinish` logs and sends. -/
def startOutputs (d : Download) (send : Message → List Output) : List Output :=
  (d.skippedFiles.map fun f => .skipped f.fileName) ++
    match d.unskippedFiles.head? with
    | some f => send (.start f.fileName (d.resumeOffset f.fileName))
    | none => []

theorem wasCompleted_of_mem_skippedFiles {d : Download} {fileName : String}
    (h : fileName ∈ d.skippedFiles.map FileInfo.fileName) : d.wasCompleted fileName := by
  obtain ⟨f, hf, rfl⟩ := List.mem_map.mp h
  exact List.mem_takeWhile_imp (p := fun f : FileInfo => d.wasCompleted f.fileName) hf

theorem wasCompleted_head_unskippedFiles {d : Download} {f : FileInfo}
    (h : d.unskippedFiles.head? = some f) : d.wasCompleted f.fileName = false := by
  have hhead := List.head?_dropWhile_not (fun f => d.wasCompleted f.fileName) d.remainingFiles
  rw [unskippedFiles] at h
  rwa [h] at hhead

/-- The variables at the start of a download: offsets and hashers come from the saved
progress, the output streams are new. -/
def create (connection : ℕ) (files : List FileInfo)
    (resumeData : Option (List (String × FileProgress))) : Download :=
  let saved (fileName : String) : Option FileProgress :=
    resumeData.bind fun progress => progress.lookup fileName
  { connection, resumeData, filesInfo := files, remainingFiles := files
    expectedOffset fileName :=
      if fileName ∈ files.map FileInfo.fileName then
        ((saved fileName).filter fun rp => !rp.completed).map FileProgress.bytesReceived
      else none
    totalBytesReceived fileName :=
      if fileName ∈ files.map FileInfo.fileName then
        ((saved fileName).filter fun rp => !rp.completed).map FileProgress.bytesReceived
      else none
    integrityHashers fileName :=
      ((files.find? (·.fileName = fileName)).bind FileInfo.sha256).bind fun _ =>
        match saved fileName with
        | some rp => if rp.completed then none else some (rp.hasherState.getD [])
        | none => some [] }

end Download

/-- The download that `startDownload` sets up: there is a connection and a list of files, and
none was started before. -/
def Page.newDownload (s : Page) : Option Download :=
  match s.peer, s.filesInfo with
  | some peer, some (file :: files) =>
    if s.downloadStarted then none
    else some (Download.create peer.connection (file :: files)
      (s.resumeProgress.map TransferProgress.fileProgress))
  | _, _ => none

/-- `startDownload`. -/
def startDownload (s : Page) : Page × List Output :=
  match s.newDownload with
  | some d =>
    ({ s with
        downloadStarted := true, resumeProgress := none, receiving := true
        streamsActive := true, download := some d.startNextFileOrFinish },
      d.startOutputs (s.sendOn d.connection))
  | none => (s, [])

theorem Page.newDownload_eq_some {s : Page} {d : Download} (h : s.newDownload = some d) :
    s.downloadStarted = false ∧ ∃ peer files, s.peer = some peer ∧ s.filesInfo = some files ∧
      d = Download.create peer.connection files
        (s.resumeProgress.map TransferProgress.fileProgress) := by
  rw [Page.newDownload] at h
  split at h
  next peer file files hpeer hfiles =>
    split at h
    · exact absurd h (by simp)
    next hstarted =>
      exact ⟨Bool.eq_false_of_not_eq_true hstarted, peer, file :: files, hpeer, hfiles,
        (Option.some_inj.mp h).symm⟩
  next => exact absurd h (by simp)

/-! ### Chunks -/

/-- `ENCRYPTION_OVERHEAD_PER_CHUNK`. -/
def encryptionOverheadPerChunk : ℕ := WebCrypto.ivLength + WebCrypto.gcmTagLength

/-- `MAX_INCOMING_CHUNK_SIZE`. -/
def maxIncomingChunkSize : ℕ := maxChunkSize + encryptionOverheadPerChunk + 1024

namespace Download

variable (d : Download)

/-- Bytes received for the file of a chunk, with the chunk, as they came. -/
def received (chunk : Chunk) : ℚ :=
  (d.totalBytesReceived chunk.fileName).getD 0 + chunk.bytes.length

/-- What a file of a size may take with the encryption of its chunks. -/
def maxReceived (size : ℚ) : ℚ :=
  let numChunks : ℤ := ⌈size / maxChunkSize⌉ + 1
  size + (numChunks * encryptionOverheadPerChunk + 1024)

/-- Why a chunk is refused. -/
def chunkFailure (chunk : Chunk) : Option String :=
  if chunk.bytes.length > maxIncomingChunkSize then
    some "Received an oversized chunk. The transfer may be corrupted or malicious."
  else if chunk.offset ≠ d.nextOffset chunk.fileName then
    some "Received out-of-order data. The transfer may be corrupted."
  else if (d.fileInfo chunk.fileName).any fun f => d.received chunk > maxReceived f.size then
    some "Received more data than expected. The transfer may be corrupted."
  else none

/-- The chunk is counted before it is decrypted. -/
def count (chunk : Chunk) : Download :=
  { d with
    totalBytesReceived :=
      Function.update d.totalBytesReceived chunk.fileName (some (d.received chunk)) }

/-- The offset after a chunk is that of its plaintext. -/
def advance (chunk : Chunk) (plaintext : Bytes) : Download :=
  { d with
    expectedOffset := Function.update d.expectedOffset chunk.fileName
      (some (chunk.offset + plaintext.length)) }

/-- The plaintext goes to the output stream and into the hasher, if there is one. -/
def write (fileName : String) (plaintext : Bytes) : Download :=
  let d := d.enqueue fileName plaintext
  { d with
    integrityHashers := Function.update d.integrityHashers fileName
      ((d.integrityHashers fileName).map (· ++ plaintext)) }

/-- What is saved about a file. -/
def fileProgress (fileName : String) : FileProgress where
  bytesReceived := d.nextOffset fileName
  completed := fileName ∈ d.completedFiles
  hasherState := d.integrityHashers fileName

/-- The record that `saveResumeProgress` writes. -/
def snapshot : TransferProgress where
  filesInfo := d.filesInfo
  fileProgress := d.filesInfo.map fun info => (info.fileName, d.fileProgress info.fileName)

theorem lookup_snapshot {d : Download} {fileName : String} {rp : FileProgress}
    (h : d.snapshot.fileProgress.lookup fileName = some rp) : rp = d.fileProgress fileName := by
  obtain ⟨l, l', hsplit, -⟩ := List.lookup_eq_some_iff.mp h
  have hmem : (fileName, rp) ∈ d.snapshot.fileProgress := by
    rw [hsplit]
    exact List.mem_append_right _ (List.mem_cons_self ..)
  obtain ⟨info, -, hentry⟩ := List.mem_map.mp hmem
  obtain ⟨rfl, rfl⟩ := Prod.mk.inj hentry
  rfl

/-- What the integrity check of a complete file says; `none` when there is nothing to check
it against. -/
def hashMatches (fileName : String) : Option Bool :=
  match d.expectedHash fileName, d.integrityHashers fileName with
  | some expected, some hashed => some (W.sha256 hashed = expected)
  | _, _ => none

/-- The hasher is finalized. -/
def finalize (fileName : String) : Download :=
  { d with integrityHashers := Function.update d.integrityHashers fileName none }

/-- A file is complete: its stream is closed. -/
def complete (fileName : String) : Download :=
  { d with completedFiles := d.completedFiles ++ [fileName] }.closeStream fileName

end Download

/-- What a stretch of `processChunk` comes to. -/
inductive ChunkOutcome where
  | dropped
  | refused (text : String)
  | suspended (point : DecryptPoint)
  | delivered (plaintext : Bytes)
deriving DecidableEq

/-- The chunk was refused. -/
def ChunkOutcome.isRefused : ChunkOutcome → Bool
  | .refused _ => true
  | _ => false

/-- `processChunk` up to its first suspension. -/
def beginChunk (s : Page) (d : Download) (chunk : Chunk) : ChunkOutcome :=
  if s.receiving = false ∨ s.isPaused then .dropped
  else if chunk.fileName ∉ d.requestedFiles ∨ chunk.fileName ∈ d.completedFiles then .dropped
  else
    match d.chunkFailure chunk with
    | some text => .refused text
    | none => if s.isEncrypted then .suspended .derivingKey else .delivered chunk.bytes

/-- `processChunk` after a suspension. -/
def continueChunk (s : Page) (chunk : Chunk) (point : DecryptPoint) (settlement : Settlement) :
    ChunkOutcome :=
  let failed := ChunkOutcome.refused
    "Decryption failed. The encryption key may be invalid or the data was tampered with."
  let settled (next : ChunkOutcome) : ChunkOutcome :=
    if settlement.fulfilled = false then failed
    else if s.receiving = false ∨ s.isPaused then .dropped
    else next
  match point with
  | .derivingKey =>
    match W.deriveFileKey link.encryptionKey chunk.fileName (chunk.fileIndex.getD 0)
      (link.hkdfSalt.getD []) with
    | none => failed
    | some fileKey => settled (.suspended (.decrypting fileKey))
  | .decrypting fileKey =>
    match W.decryptChunk fileKey chunk.bytes with
    | none => failed
    | some plaintext => settled (.delivered plaintext)

/-- The last chunk of a file is written: the file is complete unless its hash is wrong. -/
def finishFile (activePc : Option ℕ) (chunk : Chunk) (d : Download) (s : Page) :
    Page × List Output :=
  let fileName := chunk.fileName
  if d.hashMatches W fileName = some false then
    { s with download := some ((d.finalize fileName).closeStream fileName) }.fail activePc
      s!"File integrity check failed for \"{fileName}\". The file may have been tampered with."
  else
    let completed := (d.finalize fileName).complete fileName
    ({ s with download := some completed.startNextFileOrFinish },
      .fileCompleted fileName (d.nextOffset fileName) (d.hashMatches W fileName).isSome ::
        completed.startOutputs (s.sendOn d.connection))

/-- A chunk with its plaintext, and the download that takes it. -/
structure Delivery where
  download : Download
  chunk : Chunk
  plaintext : Bytes

/-- The download once the chunk is on its stream. -/
def Delivery.written (δ : Delivery) : Download :=
  (δ.download.advance δ.chunk δ.plaintext).write δ.chunk.fileName δ.plaintext

/-- The stream of the chunk's file is not closed. -/
def Delivery.isOpen (δ : Delivery) : Bool := !(δ.download.streams δ.chunk.fileName).isClosed

/-- A chunk is decrypted. On a closed stream `enqueue` throws, after the offset has moved. -/
def deliverChunk (activePc : Option ℕ) (δ : Delivery) (settlement : Settlement) (s : Page) :
    Page × List Output :=
  if δ.isOpen = false then
    ({ s with download := some (δ.download.advance δ.chunk δ.plaintext) }, [])
  else
    let s := { s with
      download := some δ.written
      progress :=
        if settlement.saves ∧ link.hkdfSalt.isSome then some δ.written.snapshot else s.progress }
    let ack := match activePc with
      | some connection =>
        s.sendOn connection (.chunkAck δ.chunk.fileName δ.chunk.offset δ.plaintext.length)
      | none => []
    if δ.chunk.final then
      ((finishFile W activePc δ.chunk δ.written s).1,
        ack ++ (finishFile W activePc δ.chunk δ.written s).2)
    else (s, ack)

/-- The connection that `processChunk` answers a chunk on. -/
def QueuedChunk.activePc (queued : QueuedChunk) (s : Page) : Option ℕ :=
  match queued.waiting with
  | none => s.peer.map Peer.connection
  | some (activePc, _) => activePc

/-- The download with a chunk counted, which happens on the way to its first suspension. -/
def QueuedChunk.counted (queued : QueuedChunk) (d : Download) : Download :=
  match queued.waiting with
  | none => d.count queued.chunk
  | some _ => d

/-- What the next stretch of a chunk comes to. -/
def chunkOutcome (s : Page) (d : Download) (queued : QueuedChunk) (settlement : Settlement) :
    ChunkOutcome :=
  match queued.waiting with
  | none => beginChunk s d queued.chunk
  | some (_, point) => continueChunk W link s queued.chunk point settlement

/-- What a stretch of `processChunk` does, once the chunk is off its chain. -/
def settleChunk (chain : ℕ) (queued : QueuedChunk) (outcome : ChunkOutcome)
    (settlement : Settlement) (d : Download) (s : Page) : Page × List Output :=
  match outcome with
  | .dropped => (s, [])
  | .refused text => s.fail (queued.activePc s) text
  | .suspended point =>
    ({ s with
        download := some (queued.counted d)
        chains := s.chains.modify chain fun rest =>
          { chunk := queued.chunk, waiting := some (queued.activePc s, point) } :: rest }, [])
  | .delivered plaintext =>
    deliverChunk W link (queued.activePc s)
      { download := queued.counted d, chunk := queued.chunk, plaintext } settlement s

/-- The next stretch of the chunks of a connection. Before `startDownload` has set
`processChunk` they go nowhere. -/
def resumeChain (chain : ℕ) (settlement : Settlement) (s : Page) : Page × List Output :=
  match s.chains[chain]? with
  | some (queued :: rest) =>
    let taken := { s with chains := s.chains.set chain rest }
    match s.download with
    | none => (taken, [])
    | some d =>
      settleChunk W link chain queued (chunkOutcome W link s d queued settlement) settlement d
        taken
  | _ => (s, [])

/-- The first chunk of a chain, and the download it reaches. -/
def Page.nextChunk (s : Page) (chain : ℕ) : Option (Download × QueuedChunk) := do
  let d ← s.download
  let queue ← s.chains[chain]?
  let queued ← queue.head?
  some (d, queued)

variable {chain connection : ℕ} {settlement : Settlement} {message : Message}

theorem Page.nextChunk_eq_some {s : Page} {d : Download} {queued : QueuedChunk}
    (h : s.nextChunk chain = some (d, queued)) :
    s.download = some d ∧ ∃ rest, s.chains[chain]? = some (queued :: rest) := by
  simp only [Page.nextChunk, Option.bind_eq_bind, Option.bind_eq_some_iff] at h
  obtain ⟨d', hd, queue, hqueue, queued', hhead, hpair⟩ := h
  obtain ⟨rfl, rfl⟩ := Prod.mk.inj (Option.some_inj.mp hpair)
  obtain ⟨rest, rfl⟩ := List.head?_eq_some_iff.mp hhead
  exact ⟨hd, rest, hqueue⟩

/-- What the next stretch of a chain hands to the output, if it gets that far. -/
def Page.delivery (s : Page) (chain : ℕ) (settlement : Settlement) : Option Delivery :=
  match s.nextChunk chain with
  | some (d, queued) =>
    match chunkOutcome W link s d queued settlement with
    | .delivered plaintext =>
      some { download := queued.counted d, chunk := queued.chunk, plaintext }
    | _ => none
  | none => none

/-- The first chunk of a chain is taken off. -/
def Page.takeChunk (s : Page) (chain : ℕ) : Page :=
  { s with chains := s.chains.modify chain List.tail }

theorem resumeChain_eq_settleChunk {s : Page} {d : Download} {queued : QueuedChunk}
    (h : s.nextChunk chain = some (d, queued)) :
    resumeChain W link chain settlement s =
      settleChunk W link chain queued (chunkOutcome W link s d queued settlement) settlement d
        (s.takeChunk chain) := by
  obtain ⟨hdownload, rest, hqueue⟩ := Page.nextChunk_eq_some h
  have htail : s.chains.set chain rest = s.chains.modify chain List.tail := by
    rw [List.modify_eq_set, hqueue]
    rfl
  rw [resumeChain, Page.takeChunk, hqueue, hdownload, ← htail]

theorem resumeChain_of_nextChunk_eq_none {s : Page} (h : s.nextChunk chain = none) :
    resumeChain W link chain settlement s = (s.takeChunk chain, []) := by
  rw [resumeChain]
  split
  next queued rest hqueue =>
    have htail : s.chains.set chain rest = s.chains.modify chain List.tail := by
      rw [List.modify_eq_set, hqueue]
      rfl
    have hdownload : s.download = none := by
      by_contra hsome
      obtain ⟨d, hd⟩ := Option.ne_none_iff_exists'.mp hsome
      simp [Page.nextChunk, hd, hqueue] at h
    rw [htail, Page.takeChunk, hdownload]
  next hempty =>
    have hid : s.chains.modify chain List.tail = s.chains := by
      refine List.ext_getElem? fun i => ?_
      rw [List.getElem?_modify]
      rcases hi : s.chains[i]? with _ | _ | ⟨queued, rest⟩
      · rfl
      · simp
      · have hne : chain ≠ i := fun hsame => hempty queued rest (hsame ▸ hi)
        simp [hne]
    rw [Page.takeChunk, hid]

/-- What a stretch of a chain can do: take a chunk off that goes nowhere, refuse one, wait, or
hand one to the output. -/
theorem resumeChain_cases (chain : ℕ) (settlement : Settlement) (s : Page) :
    s.delivery W link chain settlement = none ∧
        resumeChain W link chain settlement s = (s.takeChunk chain, []) ∨
      ∃ d queued, s.nextChunk chain = some (d, queued) ∧
        ((∃ text, chunkOutcome W link s d queued settlement = .refused text ∧
          resumeChain W link chain settlement s =
            (s.takeChunk chain).fail (queued.activePc s) text) ∨
        (∃ point, chunkOutcome W link s d queued settlement = .suspended point ∧
          resumeChain W link chain settlement s =
            ({ s with
                download := some (queued.counted d)
                chains := s.chains.modify chain fun queue =>
                  { chunk := queued.chunk, waiting := some (queued.activePc s, point) } ::
                    queue.tail }, [])) ∨
        ∃ δ, s.delivery W link chain settlement = some δ ∧ δ.download = queued.counted d ∧
          δ.chunk = queued.chunk ∧
          chunkOutcome W link s d queued settlement = .delivered δ.plaintext ∧
          resumeChain W link chain settlement s =
            deliverChunk W link (queued.activePc s) δ settlement (s.takeChunk chain)) := by
  obtain hnext | ⟨⟨d, queued⟩, hnext⟩ := Option.eq_none_or_eq_some (s.nextChunk chain)
  · exact .inl ⟨by simp only [Page.delivery, hnext],
      resumeChain_of_nextChunk_eq_none W link hnext⟩
  have hrun := @resumeChain_eq_settleChunk W link chain settlement s d queued hnext
  cases houtcome : chunkOutcome W link s d queued settlement with
  | dropped =>
    exact .inl ⟨by simp only [Page.delivery, hnext, houtcome], by rw [hrun, houtcome]; rfl⟩
  | refused text =>
    exact .inr ⟨d, queued, hnext, .inl ⟨text, houtcome, by rw [hrun, houtcome]; rfl⟩⟩
  | suspended point =>
    refine .inr ⟨d, queued, hnext, .inr (.inl ⟨point, houtcome, ?_⟩)⟩
    rw [hrun, houtcome]
    simp only [settleChunk, Page.takeChunk, List.modify_modify_eq]
    rfl
  | delivered plaintext =>
    refine .inr ⟨d, queued, hnext, .inr (.inr
      ⟨{ download := queued.counted d, chunk := queued.chunk, plaintext }, ?_, rfl, rfl, houtcome,
        by rw [hrun, houtcome]; rfl⟩)⟩
    simp only [Page.delivery, hnext, houtcome]

/-- A chunk message joins the chain of its connection. -/
def queueChunk (connection : ℕ) (chunk : Chunk) (s : Page) : Page :=
  { s with chains := s.chains.modify connection fun queue => queue ++ [{ chunk }] }

/-! ### Messages -/

/-- `onData` of the current connection. -/
def onData (connection : ℕ) (message : Message) (s : Page) : Page × List Output :=
  match message with
  | .ping => (s, s.sendOn connection .pong)
  | .passwordRequired text => (s, [.passwordRequired text])
  | .info payload => onInfo link connection payload false s
  | .encryptedInfo payload =>
    ({ s with tasks := s.tasks ++ [.decryptingMetadata connection payload] }, [])
  | .chunk fileName fileIndex offset bytes final =>
    (queueChunk connection { fileName, fileIndex, offset, bytes, final } s, [])
  | .error text => s.fail (some connection) text
  | _ => (s, [])

/-- `onData` of the relay, which only takes chunks. -/
def onRelayData (connection : ℕ) (message : Message) (s : Page) : Page :=
  match message with
  | .chunk fileName fileIndex offset bytes final =>
    queueChunk connection { fileName, fileIndex, offset, bytes, final } s
  | _ => s

/-! ### The user -/

/-- `pauseDownload`. -/
def pauseDownload (s : Page) : Page × List Output :=
  if s.peer.isSome then ({ s with isPaused := true }, s.send .pause) else (s, [])

/-- `resumeDownload`: the file in progress is requested from where it stands. -/
def resumeDownload (s : Page) : Page × List Output :=
  match s.peer, s.download with
  | some _, some d =>
    ({ s with isPaused := false },
      match d.activeFileName with
      | some fileName => s.sendOn d.connection (.start fileName (d.nextOffset fileName))
      | none => [])
  | _, _ => (s, [])

/-- `stopDownload`. -/
def stopDownload (s : Page) : Page × List Output :=
  ({ s.closeActiveStreams with
      stopped := true, peer := none, receiving := false, isPaused := false, done := false
      downloadStarted := false },
    s.send .pause)

/-- The cleanup of the effect, when the page is left. -/
def cleanUp (s : Page) : Page :=
  { s.closeConnection with
    cancelled := true, peer := none, receiving := false, done := false
    downloadStarted := false, filesInfo := none, isEncrypted := false }

/-! ### The end of a download -/

/-- `downloadPromise` is fulfilled once every stream has ended. -/
def downloadFulfilled (d : Download) (s : Page) : Page × List Output :=
  if d.stage = .running ∧ d.StreamsEnded then
    match link.hkdfSalt with
    | some _ =>
      ({ s with
          done := true, streamsActive := false, progress := none
          download := some { d with stage := .derivingToken } },
        s.send .done ++ [.progressDeleted])
    | none =>
      ({ s with
          done := true, streamsActive := false
          download := some { d with stage := .reported } },
        s.send .done ++ [.isDone])
  else (s, [])

/-- `downloadPromise` is rejected; the output of a single file also cancels its stream. -/
def downloadRejected (d : Download) (s : Page) : Page × List Output :=
  if d.stage = .running then
    let failed := { d with stage := .failed }
    let failed := match d.filesInfo with
      | [file] => failed.closeStream file.fileName
      | _ => failed
    ({ s with download := some failed },
      if s.done then [] else [.errorMessage "Download failed. Please try again."])
  else (s, [])

/-- The completion is posted if the reader token could be derived. -/
def postCompletion (d : Download) (fulfilled : Bool) (s : Page) : Page × List Output :=
  if d.stage = .derivingToken then
    if fulfilled then
      ({ s with download := some { d with stage := .posting } }, [.downloadComplete link.slug])
    else ({ s with download := some { d with stage := .reported } }, [.isDone])
  else (s, [])

/-- The server has answered, or not. -/
def finishReport (d : Download) (s : Page) : Page × List Output :=
  if d.stage = .posting then
    ({ s with download := some { d with stage := .reported } }, [.isDone])
  else (s, [])

/-! ### The page as a transition system -/

/-- A callback of the download, once there is one. -/
def withDownload (s : Page) (f : Download → Page → Page × List Output) : Page × List Output :=
  match s.download with
  | some d => f d s
  | none => (s, [])

/-- The text shown when the uploader is gone. -/
def senderGone : String := "The sender closed their browser or lost connectivity."

/-- One synchronous stretch of the page. -/
def step (s : Page) : Event → Page × List Output
  | .mounted expired => ({ progress := if expired then none else s.progress }, [])
  | .offered =>
    if s.cancelled ∨ s.stopped then (s, [])
    else
      let closed := s.closeConnection
      ({ closed with
          peer := some { connection := s.chains.length }
          chains := s.chains ++ [[]] }, [])
  | .opened =>
    match s.peer with
    | some peer =>
      if s.cancelled ∨ s.stopped then (s, [])
      else ({ s with peer := some { peer with isOpen := true } }, [.sent .requestInfo])
    | none => (s, [])
  | .received message =>
    match s.peer with
    | some peer =>
      if s.cancelled ∨ s.stopped ∨ peer.isOpen = false then (s, [])
      else onData link peer.connection message s
    | none => (s, [])
  | .relayed connection message =>
    if s.cancelled ∨ s.stopped then (s, []) else (onRelayData connection message s, [])
  | .resumed i settlement =>
    match s.tasks[i]? with
    | some task => resumeTask W link task settlement { s with tasks := s.tasks.eraseIdx i }
    | none => (s, [])
  | .chunkResumed chain settlement => resumeChain W link chain settlement s
  | .connectionError text =>
    match s.peer with
    | some peer =>
      if s.cancelled ∨ s.done then (s, []) else s.fail (some peer.connection) text
    | none => (s, [])
  | .connectionClosed => (s.closeConnection, [])
  | .peerLeft =>
    if s.cancelled ∨ s.stopped then (s, [])
    else (s.closeConnection, if s.peer.isSome ∧ s.done then [] else [.errorMessage senderGone])
  | .started => startDownload s
  | .paused => pauseDownload s
  | .unpaused => resumeDownload s
  | .stopped => stopDownload s
  | .cleanedUp => (cleanUp s, [])
  | .downloadSettled fulfilled =>
    withDownload s (if fulfilled then downloadFulfilled link else downloadRejected)
  | .tokenDerived fulfilled => withDownload s fun d => postCompletion link d fulfilled
  | .completionPosted => withDownload s finishReport

/-- The downloader's page over any number of visits to a link. -/
def downloader : System Page Event Output where
  init := {}
  step := step W link

/-! ### What the handlers emit -/

/-- A message or a text for the user, neither the end of a file nor of the download. -/
def Output.isChatter : Output → Bool
  | .sent .done => false
  | .sent _ | .errorMessage _ | .passwordRequired _ => true
  | _ => false

/-- All outputs are chatter. -/
def Chatter (outs : List Output) : Prop := ∀ o ∈ outs, o.isChatter

/-- The event starts a download, hands it a chunk, or comes after its end. -/
def Event.concernsDownload : Event → Bool
  | .started | .chunkResumed _ _ | .downloadSettled _ | .tokenDerived _ | .completionPosted => true
  | _ => false

theorem chatter_nil : Chatter [] := fun _ h => absurd h List.not_mem_nil

theorem chatter_singleton {o : Output} (h : o.isChatter) : Chatter [o] := by
  intro o' ho'
  rw [List.mem_singleton.mp ho']
  exact h

section Chatter

variable {W link} {s : Page}

theorem chatter_sendOn (h : message ≠ .done) : Chatter (s.sendOn connection message) := by
  rw [Page.sendOn]
  split
  · refine chatter_singleton ?_
    cases message <;> first | rfl | exact absurd rfl h
  · exact chatter_nil

theorem chatter_send (h : message ≠ .done) : Chatter (s.send message) := by
  rw [Page.send]
  split
  · exact chatter_sendOn h
  · exact chatter_nil

theorem chatter_fail {connection : Option ℕ} {text : String} :
    Chatter (s.fail connection text).2 := chatter_singleton rfl

theorem chatter_onInfo {payload : InfoPayload} {encrypted : Bool} :
    Chatter (onInfo link connection payload encrypted s).2 := by
  rw [onInfo]
  split
  · exact chatter_fail
  · split <;> exact chatter_nil

theorem chatter_resumeTask {task : Task} : Chatter (resumeTask W link task settlement s).2 := by
  unfold resumeTask
  split
  · split
    · exact chatter_fail
    · exact chatter_nil
  · rw [resumeMetadata]
    split
    · exact chatter_onInfo
    · exact chatter_fail
  · exact chatter_nil

theorem chatter_onData : Chatter (onData link connection message s).2 := by
  unfold onData
  split
  · exact chatter_sendOn Message.noConfusion
  · exact chatter_singleton rfl
  · exact chatter_onInfo
  · exact chatter_nil
  · exact chatter_nil
  · exact chatter_fail
  · exact chatter_nil

theorem chatter_step {event : Event} (h : event.concernsDownload = false) :
    Chatter (step W link s event).2 := by
  cases event with
  | mounted | connectionClosed | cleanedUp => exact chatter_nil
  | started | chunkResumed | downloadSettled | tokenDerived | completionPosted => cases h
  | stopped => exact chatter_send Message.noConfusion
  | offered | relayed =>
    dsimp only [step]
    split <;> exact chatter_nil
  | opened =>
    dsimp only [step]
    split
    · split
      · exact chatter_nil
      · exact chatter_singleton rfl
    · exact chatter_nil
  | received message =>
    dsimp only [step]
    split
    · split
      · exact chatter_nil
      · exact chatter_onData
    · exact chatter_nil
  | resumed i settlement =>
    dsimp only [step]
    split
    · exact chatter_resumeTask
    · exact chatter_nil
  | connectionError text =>
    dsimp only [step]
    split
    · split
      · exact chatter_nil
      · exact chatter_fail
    · exact chatter_nil
  | peerLeft =>
    dsimp only [step]
    split
    · exact chatter_nil
    · dsimp only
      split
      · exact chatter_nil
      · exact chatter_singleton rfl
  | paused =>
    dsimp only [step, pauseDownload]
    split
    · exact chatter_send Message.noConfusion
    · exact chatter_nil
  | unpaused =>
    dsimp only [step, resumeDownload]
    split
    · dsimp only
      split
      · exact chatter_sendOn Message.noConfusion
      · exact chatter_nil
    · exact chatter_nil

end Chatter

end Rapidly.FileSharing.Downloader
