import Rapidly.FileSharing.Filename
import Rapidly.FileSharing.Messages

/-!
# One connection of the uploader: its state

`useUploaderConnections` keeps, for every peer, a handful of variables captured by the
callbacks of that peer's `PeerDataConnection`, and a few refs shared by all connections of
the share. `Connection` is their product, together with the suspended computations of the
connection: JavaScript runs one synchronous stretch at a time, and between two stretches
every `async` function that has not finished is a `Task` holding its local variables and the
place it is suspended at.

* `Share` is what the sharer configured; it does not change during a connection.
* `Task` lists the suspension points of the send loop, of `sendInfoMessage`, of a wrong
  password's report to the server, and of the background hashing.
* `Settlement` is how a suspended computation is woken: whether the awaited promise was
  fulfilled, and what the environment supplied (an initialisation vector, the server's
  reply, whether the channel's buffer is over its threshold).

The list of connections shown to the sharer is a projection for the page and is left out,
except for the record that names the file being uploaded, which is written exactly where a
`Start` is accepted.
-/

namespace Rapidly.FileSharing.Uploader

/-! ### The share -/

/-- A file the sharer picked, with its bytes. -/
structure UploadedFile where
  entryFullPath : Option String := none
  name : String
  type : String := ""
  lastModified : ℕ := 0
  content : Bytes
deriving DecidableEq

/-- `File.size`. -/
def UploadedFile.size (file : UploadedFile) : ℕ := file.content.length

/-- `getFileName`: the path inside a dropped folder, or the plain name, sanitized. -/
def getFileName (file : UploadedFile) : String :=
  let path := file.entryFullPath.getD file.name
  match path.toList with
  | '/' :: raw => sanitizeFileName (String.ofList raw)
  | _ => sanitizeFileName path

/-- The arguments of `useUploaderConnections`. -/
structure Share where
  files : List UploadedFile
  password : String
  /-- Zero means unlimited. -/
  maxDownloads : ℕ := 0
  encryptionKey : Option Bytes := none
  channelSlug : String := ""
  channelSecret : String := ""
  hkdfSalt : Option Bytes := none
deriving DecidableEq

/-- `MAX_PASSWORD_ATTEMPTS`. -/
def maxPasswordAttempts : ℕ := 5

/-! ### Connection variables -/

/-- `UploaderConnectionStatus`. -/
inductive Status where
  | pending
  | ready
  | paused
  | uploading
  | done
  | authenticating
  | invalidPassword
  | lockedOut
  | closed
deriving DecidableEq

/-- The variables one accepted `Start` captures for its send loop. -/
structure SendLoop where
  fileName : String
  fileIndex : ℕ
  file : UploadedFile
  offset : ℕ
  prefetchedBuffer : Option Bytes := none
  /-- The offset a prefetch in progress reads from. -/
  prefetchPromise : Option ℕ := none
  /-- The promised file key, `some none` when its derivation throws; `none` without
  encryption. -/
  fileKeyPromise : Option (Option Bytes) := none
deriving DecidableEq

/-- Where a send loop is suspended. -/
inductive SendPoint where
  /-- Scheduled, about to look at the pause flag. -/
  | scheduled
  /-- Reading the slice of the current chunk. -/
  | reading
  /-- Waiting for the file key. -/
  | awaitingKey (plaintext : Bytes)
  /-- Encrypting the chunk. -/
  | encrypting (fileKey plaintext : Bytes)
  /-- Waiting for the next slice, the last check of the pause flag already passed. -/
  | prefetching (chunkBytes : Bytes)
  /-- Inside `send`, waiting for the channel's buffer to drain. -/
  | buffering (chunkBytes : Bytes)
  /-- The chunk is on the channel. -/
  | sent
deriving DecidableEq

/-- A suspended computation of the connection. -/
inductive Task where
  /-- `sendInfoMessage` waiting for the key commitment of file `i`. -/
  | commitment (payload : InfoPayload) (i : ℕ)
  /-- `sendInfoMessage` yielding to the event loop after file `i`. -/
  | yielded (payload : InfoPayload) (i : ℕ)
  /-- `sendInfoMessage` encrypting the payload. -/
  | encryptingMetadata (payload : InfoPayload)
  /-- A wrong password being reported to the server. -/
  | passwordAttempt (currentAttempts : ℕ)
  /-- A send loop. -/
  | sendLoop (loop : SendLoop) (point : SendPoint)
  /-- Background hashing of a file, and the files after it. -/
  | hashing (idx : ℕ) (file : UploadedFile) (rest : List (ℕ × UploadedFile))
deriving DecidableEq

/-- What the server answers to a reported password attempt: nothing usable, or a JSON object
whose two fields may have the wrong type. -/
inductive AttemptReply where
  | failed
  | result (allowed : Option Bool) (remaining : Option ℚ)
deriving DecidableEq

/-- How a suspended computation is woken. -/
structure Settlement where
  /-- The awaited promise was fulfilled, not rejected. -/
  fulfilled : Bool := true
  /-- Random bytes drawn meanwhile. -/
  iv : Bytes := []
  /-- The server's answer, for a password report. -/
  reply : AttemptReply := .failed
  /-- The channel's buffer is over its threshold when a chunk is sent. -/
  backpressure : Bool := false
deriving DecidableEq

/-- The variables and suspended computations of one connection, with the shared refs. -/
structure Connection where
  status : Status := .pending
  sendingPaused : Bool := false
  handshakeReceived : Bool := false
  activeFileName : Option String := none
  hashingStarted : Bool := false
  /-- The data channel is open. -/
  isOpen : Bool := false
  /-- The connection was torn down: `onClose` has run and nothing is delivered any more. -/
  isClosed : Bool := false
  /-- Shared by all connections. -/
  sharedPasswordAttempts : ℕ := 0
  /-- Shared by all connections. -/
  completedCount : ℕ := 0
  /-- Shared by all connections. -/
  sha256Cache : List (String × String) := []
  tasks : List Task := []
deriving DecidableEq

/-- What a connection does that others can see. -/
inductive Output where
  /-- A message handed to the open data channel. -/
  | sent (message : Message)
  /-- The connection record now names the file being uploaded and its starting offset. -/
  | uploading (fileName : String) (offset : ℕ)
  /-- A wrong password is reported to the server. -/
  | passwordAttempt (slug secret : String)
  /-- Checksums are posted to the server, as assigned in file order. -/
  | checksums (slug secret : String) (checksums : List (String × String))
deriving DecidableEq

/-- What can happen to a connection. -/
inductive Event where
  /-- The data channel opens. -/
  | opened
  /-- The downloader's next message, decoded. -/
  | received (message : Message)
  /-- A frame that does not decode. -/
  | malformed
  /-- A suspended computation is woken. -/
  | resumed (task : ℕ) (settlement : Settlement)
  /-- The channel closed on its own: the peer left or the transport failed. -/
  | closedByPeer
  | handshakeTimeout
  | idleTimeout
  | keepalive
  /-- Other connections of the share moved the shared refs. -/
  | othersMoved (sharedPasswordAttempts completedCount : ℕ)
      (sha256Cache : List (String × String))
deriving DecidableEq

namespace Connection

variable (s : Connection)

/-- `peerConn.send` of a message nobody waits for: dropped when the channel is not open. -/
def send (message : Message) : List Output := if s.isOpen then [.sent message] else []

/-- Suspend a computation. -/
def spawn (task : Task) : Connection := { s with tasks := s.tasks ++ [task] }

/-- `peerConn.close()`, with the `onClose` handler it runs the first time. -/
def close : Connection :=
  if s.isClosed then { s with isOpen := false }
  else { s with isOpen := false, isClosed := true, sendingPaused := true, status := .closed }

@[simp] theorem spawn_tasks (task : Task) : (s.spawn task).tasks = s.tasks ++ [task] := rfl

@[simp] theorem close_tasks : s.close.tasks = s.tasks := by
  unfold close; split <;> rfl

theorem close_status (h : s.isClosed = false) :
    s.close.status = s.status ∨ s.close.status = .closed := by
  simp [close, h]

theorem mem_send {message : Message} {o : Output} (h : o ∈ s.send message) :
    o = .sent message := by
  rw [send] at h
  split at h
  · exact List.mem_singleton.mp h
  · exact absurd h List.not_mem_nil

theorem mem_send_error (text : String) :
    ∀ o ∈ s.send (.error text), ∃ text, o = .sent (.error text) :=
  fun _ h => ⟨text, s.mem_send h⟩

end Connection

end Rapidly.FileSharing.Uploader
