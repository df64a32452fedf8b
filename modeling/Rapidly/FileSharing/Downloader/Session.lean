import Rapidly.FileSharing.Messages

/-!
# The page of the downloader: its state

`useDownloader` keeps its state in React refs, which every callback shares, and in the
variables that one call of `startDownload` captures. `Page` is the former, `Download` the
latter. JavaScript runs one synchronous stretch at a time; what an `async` function holds while
it waits is a `Task`, or, for the chunks that a connection has delivered, a `QueuedChunk` on the
chain of that connection, which is worked off one chunk after the other.

* `TransferProgress` is what `resume-store.ts` keeps in IndexedDB. It is the only part of the
  state that outlives the page, and there is one record for a link.
* `OutputStream` is the `ReadableStream` behind one file of the download: what was enqueued on
  it, and whether it was closed.
* A `StreamingSHA256` is represented by the bytes it was fed; saving it and restoring it keeps
  them.

The flags that only the display reads are left out.
-/

namespace Rapidly.FileSharing.Downloader

/-- The link that was opened. Without a key the page does not connect. -/
structure Link where
  slug : String
  encryptionKey : Bytes
  hkdfSalt : Option Bytes := none
deriving DecidableEq

/-! ### Saved progress -/

structure FileProgress where
  bytesReceived : ℚ
  completed : Bool
  /-- The bytes hashed so far. -/
  hasherState : Option Bytes
deriving DecidableEq

structure TransferProgress where
  filesInfo : List FileInfo
  fileProgress : List (String × FileProgress)
deriving DecidableEq

/-- The saved progress is about the same files: `filesMatch`. -/
def TransferProgress.filesMatch (prior : TransferProgress) (files : List FileInfo) : Bool :=
  prior.filesInfo.map (fun f => (f.fileName, f.size)) = files.map fun f => (f.fileName, f.size)

/-- Some file was started: `hasProgress`. -/
def TransferProgress.hasProgress (prior : TransferProgress) : Bool :=
  prior.fileProgress.any fun entry => entry.2.bytesReceived > 0 || entry.2.completed

/-! ### A download -/

/-- The payload of a `Chunk` message. -/
structure Chunk where
  fileName : String
  fileIndex : Option ℚ := none
  offset : ℚ
  bytes : Bytes
  final : Bool
deriving DecidableEq

structure OutputStream where
  /-- Everything that was enqueued. -/
  content : Bytes := []
  isClosed : Bool := false
deriving DecidableEq

/-- What became of `downloadPromise`. -/
inductive Stage where
  | running
  | failed
  /-- Fulfilled; waiting for the reader token. -/
  | derivingToken
  /-- Fulfilled; waiting for the server. -/
  | posting
  | reported
deriving DecidableEq

/-- The variables of a call of `startDownload`. Its records are functions of the file name, as the
objects of the code are for names that no object inherits. -/
structure Download where
  /-- The connection that was current when the download was started. -/
  connection : ℕ
  filesInfo : List FileInfo
  resumeData : Option (List (String × FileProgress)) := none
  streams : String → OutputStream := fun _ => {}
  /-- The files from `nextFileIndex` on. -/
  remainingFiles : List FileInfo
  requestedFiles : List String := []
  completedFiles : List String := []
  activeFileName : Option String := none
  expectedOffset : String → Option ℚ
  totalBytesReceived : String → Option ℚ
  integrityHashers : String → Option Bytes
  stage : Stage := .running

namespace Download

variable (d : Download)

/-- What an earlier session saved about a file. -/
def savedProgress (fileName : String) : Option FileProgress :=
  d.resumeData.bind fun progress => progress.lookup fileName

/-- An earlier session completed the file. -/
def wasCompleted (fileName : String) : Bool := (d.savedProgress fileName).any (·.completed)

/-- The offset the file is requested from. -/
def resumeOffset (fileName : String) : ℚ :=
  ((d.savedProgress fileName).map (·.bytesReceived)).getD 0

/-- `fileInfoMap.get`. -/
def fileInfo (fileName : String) : Option FileInfo := d.filesInfo.find? (·.fileName = fileName)

/-- `expectedHashes`. -/
def expectedHash (fileName : String) : Option String :=
  (d.fileInfo fileName).bind FileInfo.sha256

/-- The offset the next chunk of a file has to have. -/
def nextOffset (fileName : String) : ℚ := (d.expectedOffset fileName).getD 0

/-- `enqueue` on the stream of a file that is not closed. -/
def enqueue (fileName : String) (chunk : Bytes) : Download :=
  let stream := d.streams fileName
  { d with
    streams := Function.update d.streams fileName
      { stream with content := stream.content ++ chunk } }

/-- `close` on the stream of a file. -/
def closeStream (fileName : String) : Download :=
  { d with
    streams := Function.update d.streams fileName
      { d.streams fileName with isClosed := true } }

/-- Close every stream; errors of streams that are closed already are swallowed. -/
def closeStreams : Download :=
  { d with streams := fun fileName => { d.streams fileName with isClosed := true } }

/-- Every output stream has ended. -/
def StreamsEnded : Prop := ∀ f ∈ d.filesInfo, (d.streams f.fileName).isClosed

instance : Decidable d.StreamsEnded := inferInstanceAs (Decidable (∀ f ∈ _, _))

/-- A file is not complete. -/
def Unfinished : Prop := ∃ f ∈ d.filesInfo, f.fileName ∉ d.completedFiles

instance : Decidable d.Unfinished := inferInstanceAs (Decidable (∃ f ∈ _, _))

end Download

/-! ### The page -/

/-- Where the decryption of a chunk waits. -/
inductive DecryptPoint where
  | derivingKey
  | decrypting (fileKey : Bytes)
deriving DecidableEq

/-- A chunk on the `chunkChain` of a connection. Once it is inside `processChunk`, `waiting` has
the connection that was current when it got there, and where it waits. -/
structure QueuedChunk where
  chunk : Chunk
  waiting : Option (Option ℕ × DecryptPoint) := none
deriving DecidableEq

/-- A suspended computation of the message handler of a connection. -/
inductive Task where
  /-- The key commitments of an `Info`, or of an `EncryptedInfo`, are checked. -/
  | verifying (connection : ℕ) (payload : InfoPayload) (encrypted : Bool)
  | decryptingMetadata (connection : ℕ) (payload : Bytes)
  /-- The saved progress is read. -/
  | loadingProgress (files : List FileInfo)
deriving DecidableEq

/-- `PeerDataConnection`, numbered by the offers. -/
structure Peer where
  connection : ℕ
  isOpen : Bool := false
deriving DecidableEq

/-- How a suspended computation is woken. -/
structure Settlement where
  /-- The awaited promise was fulfilled, not rejected. -/
  fulfilled : Bool := true
  /-- The saved progress is more than a day old. -/
  expired : Bool := false
  /-- The progress is saved now: the last time is long enough ago, and IndexedDB works. -/
  saves : Bool := false
deriving DecidableEq

/-- The refs of the page, its suspended computations, and the saved progress. -/
structure Page where
  filesInfo : Option (List FileInfo) := none
  isEncrypted : Bool := false
  /-- The record whose `fileProgress` waits for `startDownload`. -/
  resumeProgress : Option TransferProgress := none
  downloadStarted : Bool := false
  isPaused : Bool := false
  /-- `stoppedRef`. -/
  stopped : Bool := false
  /-- The effect was cleaned up. -/
  cancelled : Bool := false
  /-- `doneRef`. -/
  done : Bool := false
  /-- `peerConnRef`. -/
  peer : Option Peer := none
  download : Option Download := none
  /-- `processChunk` is set. -/
  receiving : Bool := false
  /-- `activeStreamsRef` holds the streams of the download. -/
  streamsActive : Bool := false
  /-- The chunk chains, one for each offer. -/
  chains : List (List QueuedChunk) := []
  tasks : List Task := []
  /-- What IndexedDB holds for the link. -/
  progress : Option TransferProgress := none

/-- What the page does that others can see. -/
inductive Output where
  /-- A message handed to an open data channel. -/
  | sent (message : Message)
  | errorMessage (text : String)
  | passwordRequired (errorMessage : Option String)
  /-- A file that an earlier session completed is not requested. -/
  | skipped (fileName : String)
  /-- The last chunk of a file was accepted: how many bytes it had, and whether its SHA-256
  was verified. -/
  | fileCompleted (fileName : String) (received : ℚ) (verified : Bool)
  /-- The saved progress is deleted because the download is over. -/
  | progressDeleted
  /-- `POST /channels/{slug}/download-complete`. -/
  | downloadComplete (slug : String)
  /-- `setDone(true)`. -/
  | isDone
deriving DecidableEq

/-- What can happen to the page. -/
inductive Event where
  /-- The link is opened, again perhaps; the saved progress may have expired. -/
  | mounted (expired : Bool)
  /-- The uploader's offer. -/
  | offered
  /-- The data channel opens. -/
  | opened
  | received (message : Message)
  /-- A message over the relay of a connection. -/
  | relayed (connection : ℕ) (message : Message)
  /-- A suspended computation is woken. -/
  | resumed (task : ℕ) (settlement : Settlement)
  /-- The first chunk of a chain goes on. -/
  | chunkResumed (chain : ℕ) (settlement : Settlement)
  /-- The data channel reports an error. -/
  | connectionError (text : String)
  /-- The data channel closed, or was idle for too long. -/
  | connectionClosed
  | peerLeft
  | started
  | paused
  /-- The user resumes the download. -/
  | unpaused
  | stopped
  /-- The page is left. -/
  | cleanedUp
  /-- `downloadPromise` settles. -/
  | downloadSettled (fulfilled : Bool)
  /-- The reader token is there, or could not be derived. -/
  | tokenDerived (fulfilled : Bool)
  /-- The server answered, or could not be reached. -/
  | completionPosted
deriving DecidableEq

end Rapidly.FileSharing.Downloader
