import Rapidly.FileSharing.Uploader.Connection
import Rapidly.Transition.System

/-!
# One connection of the uploader: its handlers

The `onData` handler of `useUploaderConnections`, one definition per message type, and the
continuations of the computations the handlers suspend. Each function runs one synchronous
stretch of the source: it answers with the connection after the stretch and with what the
stretch sent.

`uploader W share` puts the stretches together as a transition system. Its labels decide
everything the page does not: which message arrives when, which suspended computation is
woken next and how, when the channel opens, closes or times out, and what the other
connections of the share do to the shared refs. A list of labels is therefore one
interleaving, and every interleaving is a list of labels.
-/

namespace Rapidly.FileSharing.Uploader

open Connection Transition

variable (W : WebCrypto) (share : Share)

/-- The error of the `catch` around the message handler, which says nothing about its cause. -/
def handlerError : Message := .error "An error occurred on the sender side. Please try again."

/-! ### Sending the file list -/

/-- The key a file's hash is cached under. -/
def cacheKey (file : UploadedFile) (idx : ℕ) : String :=
  s!"{getFileName file}:{file.size}:{file.lastModified}:{idx}"

/-- `Map.get` on the hash cache. -/
def cachedHash (cache : List (String × String)) (key : String) : Option String :=
  cache.lookup key

/-- `buildFileInfo`: the hashes are those already cached. -/
def buildFileInfo (s : Connection) : List FileInfo :=
  share.files.mapIdx fun idx f =>
    { fileName := getFileName f, size := f.size, type := f.type,
      sha256 := cachedHash s.sha256Cache (cacheKey f idx) }

/-- The payload `sendInfoMessage` starts from. -/
def infoPayload (s : Connection) : InfoPayload :=
  { files := buildFileInfo share s
    remainingDownloads :=
      if share.maxDownloads > 0 then some ((share.maxDownloads : ℚ) - s.completedCount)
      else none
    encrypted := some share.encryptionKey.isSome }

/-- `sendInfoMessage` at file `i` of its commitment loop. -/
def commitFrom (payload : InfoPayload) (i : ℕ) (s : Connection) : Connection × List Output :=
  if i < payload.files.length then (s.spawn (.commitment payload i), [])
  else (s.spawn (.encryptingMetadata payload), [])

/-- `sendInfoMessage`, up to its first suspension. Without a key the list goes out at once. -/
def sendInfoMessage (s : Connection) : Connection × List Output :=
  let payload := infoPayload share s
  match share.encryptionKey with
  | none => (s, s.send (.info payload))
  | some _ =>
    match share.hkdfSalt with
    | some _ => commitFrom payload 0 s
    | none => (s.spawn (.encryptingMetadata payload), [])

/-- A key commitment settled: a failure leaves the entry without one. -/
def resumeCommitment (payload : InfoPayload) (i : ℕ) (settlement : Settlement)
    (s : Connection) : Connection × List Output :=
  let committed :=
    match share.encryptionKey, share.hkdfSalt, settlement.fulfilled with
    | some key, some salt, true =>
      { payload with
        files := payload.files.modify i fun f =>
          { f with commitment := some (W.computeKeyCommitment key f.fileName f.size i salt) } }
    | _, _, _ => payload
  if i % 50 = 49 then (s.spawn (.yielded committed i), [])
  else commitFrom committed (i + 1) s

/-- The payload is encrypted, or the handler's `catch` reports that it could not be. -/
def resumeEncryptingMetadata (payload : InfoPayload) (settlement : Settlement)
    (s : Connection) : Connection × List Output :=
  match share.encryptionKey, settlement.fulfilled with
  | some key, true =>
    match W.encryptMetadata key payload (share.hkdfSalt.getD []) settlement.iv with
    | some encryptedPayload => (s, s.send (.encryptedInfo encryptedPayload))
    | none => (s, s.send handlerError)
  | _, _ => (s, s.send handlerError)

/-! ### Background hashing -/

/-- The checksum post that ends the background hashing. -/
def postChecksums (s : Connection) : List Output :=
  if share.channelSlug ≠ "" ∧ share.channelSecret ≠ "" ∧ s.sha256Cache ≠ [] then
    [.checksums share.channelSlug share.channelSecret <|
      (share.files.mapIdx fun idx f =>
        (cachedHash s.sha256Cache (cacheKey f idx)).map fun hash =>
          (getFileName f, hash)).reduceOption]
  else []

/-- The hashing loop from the first of the given files, up to its next suspension. -/
def hashFiles (s : Connection) : List (ℕ × UploadedFile) → Connection × List Output
  | [] => (s, postChecksums share s)
  | (idx, f) :: rest =>
    if s.isOpen = false then (s, postChecksums share s)
    else if (cachedHash s.sha256Cache (cacheKey f idx)).isSome then hashFiles s rest
    else (s.spawn (.hashing idx f rest), [])

/-- `startBackgroundHashing`: once per connection. -/
def startBackgroundHashing (s : Connection) : Connection × List Output :=
  if s.hashingStarted then (s, [])
  else hashFiles share { s with hashingStarted := true }
    (share.files.mapIdx fun idx f => (idx, f))

/-- A file's hash settled; a failure leaves it uncached. -/
def resumeHashing (idx : ℕ) (f : UploadedFile) (rest : List (ℕ × UploadedFile))
    (settlement : Settlement) (s : Connection) : Connection × List Output :=
  if settlement.fulfilled then
    hashFiles share
      { s with sha256Cache := (cacheKey f idx, W.sha256 f.content) :: s.sha256Cache } rest
  else hashFiles share s rest

/-! ### The send loop -/

namespace SendLoop

variable (loop : SendLoop)

/-- End of the current chunk. -/
def stop : ℕ := min loop.file.size (loop.offset + maxChunkSize)

/-- The current chunk is the file's last. -/
def final : Bool := isFinalChunk loop.offset loop.file.size

/-- The plaintext of the current chunk. -/
def plaintext : Bytes := slice loop.file.content loop.offset loop.stop

/-- `startPrefetch`. -/
def startPrefetch (start : ℕ) : SendLoop :=
  { loop with prefetchPromise := if start ≥ loop.file.size then none else some start }

/-- The slice a prefetch reads. -/
def prefetched (start : ℕ) : Bytes :=
  slice loop.file.content start (min loop.file.size (start + maxChunkSize))

/-- The message of the current chunk. -/
def request (chunkBytes : Bytes) : Message :=
  .chunk loop.fileName (some loop.fileIndex) loop.offset chunkBytes loop.final

end SendLoop

/-- The `catch` of the send loop: an error to the peer, and the connection is closed. -/
def failSend (s : Connection) : Connection × List Output :=
  (s.close, s.send (.error "Failed to send file data. Please try again."))

/-- The chunk goes on the channel; the loop continues when `send` returns. -/
def transmit (loop : SendLoop) (chunkBytes : Bytes) (s : Connection) :
    Connection × List Output :=
  (s.spawn (.sendLoop loop .sent), [.sent (loop.request chunkBytes)])

/-- `await peerConn.send(request)`, up to its first suspension: throws when the channel is
not open, and waits when its buffer is over the threshold. -/
def sendChunk (loop : SendLoop) (chunkBytes : Bytes) (settlement : Settlement)
    (s : Connection) : Connection × List Output :=
  if s.isOpen = false then failSend s
  else if settlement.backpressure then
    (s.spawn (.sendLoop loop (.buffering chunkBytes)), [])
  else transmit loop chunkBytes s

/-- The last look at the pause flag, and the wait for the prefetched slice. -/
def afterEncrypt (loop : SendLoop) (chunkBytes : Bytes) (settlement : Settlement)
    (s : Connection) : Connection × List Output :=
  if s.isOpen = false ∨ s.sendingPaused then (s, [])
  else
    match loop.prefetchPromise with
    | some _ => (s.spawn (.sendLoop loop (.prefetching chunkBytes)), [])
    | none => sendChunk loop chunkBytes settlement s

/-- With the plaintext at hand: start the next prefetch and go on to encryption. -/
def afterRead (loop : SendLoop) (plaintext : Bytes) (settlement : Settlement)
    (s : Connection) : Connection × List Output :=
  let loop := if loop.final then loop else loop.startPrefetch loop.stop
  match loop.fileKeyPromise with
  | some _ => (s.spawn (.sendLoop loop (.awaitingKey plaintext)), [])
  | none => afterEncrypt loop plaintext settlement s

/-- A chunk is out: the loop moves on, or the transfer of the file is over. -/
def afterSend (loop : SendLoop) (s : Connection) : Connection × List Output :=
  if loop.final then
    startBackgroundHashing share { s with activeFileName := none, status := .ready }
  else (s.spawn (.sendLoop { loop with offset := loop.stop } .scheduled), [])

/-- A send loop woken at one of its suspension points. -/
def resumeSendLoop (loop : SendLoop) (point : SendPoint) (settlement : Settlement)
    (s : Connection) : Connection × List Output :=
  match point with
  | .scheduled =>
    if s.sendingPaused then (s, [])
    else
      match loop.prefetchedBuffer with
      | some plaintext =>
        afterRead { loop with prefetchedBuffer := none } plaintext settlement s
      | none => (s.spawn (.sendLoop loop .reading), [])
  | .reading =>
    if settlement.fulfilled then afterRead loop loop.plaintext settlement s else failSend s
  | .awaitingKey plaintext =>
    match loop.fileKeyPromise, settlement.fulfilled with
    | some (some fileKey), true =>
      if s.isOpen = false ∨ s.sendingPaused then (s, [])
      else (s.spawn (.sendLoop loop (.encrypting fileKey plaintext)), [])
    | _, _ => failSend s
  | .encrypting fileKey plaintext =>
    if settlement.fulfilled then
      afterEncrypt loop (W.encryptChunk fileKey settlement.iv plaintext) settlement s
    else failSend s
  | .prefetching chunkBytes =>
    if settlement.fulfilled then
      sendChunk
        { loop with
          prefetchedBuffer := loop.prefetchPromise.map loop.prefetched
          prefetchPromise := none }
        chunkBytes settlement s
    else failSend s
  | .buffering chunkBytes =>
    if settlement.fulfilled ∧ s.isOpen then transmit loop chunkBytes s else failSend s
  | .sent => if settlement.fulfilled then afterSend share loop s else failSend s

/-! ### Messages -/

/-- `RequestInfo`: with a password set the peer is asked for it, else the list is sent. -/
def onRequestInfo (s : Connection) : Connection × List Output :=
  if share.password ≠ "" then
    ({ s with handshakeReceived := true, status := .authenticating },
      s.send (.passwordRequired none))
  else
    sendInfoMessage share { s with handshakeReceived := true, status := .ready }

/-- Lock the connection out and close it. -/
def lockOut (s : Connection) : Connection × List Output :=
  ({ s with status := .lockedOut : Connection }.close,
    s.send (.error "Too many failed password attempts. Please request a new share link."))

/-- The answer to a wrong password. -/
def rejectPassword (currentAttempts : ℕ) (s : Connection) : Connection × List Output :=
  let remainingAttempts : ℤ := maxPasswordAttempts - currentAttempts
  let plural := if remainingAttempts ≠ 1 then "s" else ""
  ({ s with status := .invalidPassword },
    s.send (.passwordRequired
      (some s!"Invalid password. {remainingAttempts} attempt{plural} remaining.")))

/-- `recordServerPasswordAttempt`: anything but a well-formed answer counts as a refusal. -/
def recordServerPasswordAttempt : AttemptReply → Bool × ℚ
  | .failed => (false, 0)
  | .result (some allowed) (some remaining) => (allowed, remaining)
  | .result _ _ => (false, 0)

/-- `UsePassword`. -/
def onUsePassword (submittedPassword : String) (s : Connection) : Connection × List Output :=
  if s.sharedPasswordAttempts ≥ maxPasswordAttempts then lockOut s
  else if secureCompare submittedPassword share.password then
    sendInfoMessage share { s with status := .ready }
  else
    let currentAttempts := s.sharedPasswordAttempts + 1
    let s := { s with sharedPasswordAttempts := currentAttempts }
    if share.channelSlug ≠ "" ∧ share.channelSecret ≠ "" then
      (s.spawn (.passwordAttempt currentAttempts),
        [.passwordAttempt share.channelSlug share.channelSecret])
    else rejectPassword currentAttempts s

/-- The server's verdict on a wrong password. -/
def resumePasswordAttempt (currentAttempts : ℕ) (settlement : Settlement) (s : Connection) :
    Connection × List Output :=
  if (recordServerPasswordAttempt settlement.reply).1 = false then lockOut s
  else rejectPassword currentAttempts s

/-- `validateOffset`: the first file of that name that is at least that long; throws unless
the offset is a natural number. -/
def validateOffset (files : List UploadedFile) (fileName : String) (offset : ℚ) :
    Option UploadedFile :=
  if offset.den ≠ 1 ∨ offset < 0 then none
  else files.find? fun file => getFileName file = fileName ∧ offset ≤ file.size

/-- `Start`. The active file is recorded before the offset is validated, and the pause flag
is cleared before the status is checked. -/
def onStart (fileName : String) (offset : ℚ) (s : Connection) : Connection × List Output :=
  if share.maxDownloads > 0 ∧ s.completedCount ≥ share.maxDownloads then
    (s.close, s.send (.error "Download limit reached."))
  else if s.activeFileName.any fun active => active ≠ "" ∧ active ≠ fileName then
    (s, s.send (.error "Only one file transfer at a time."))
  else
    let s := { s with activeFileName := some fileName }
    match validateOffset share.files fileName offset with
    | none => (s, s.send handlerError)
    | some file =>
      let fileIndex := share.files.findIdx fun f => getFileName f = fileName
      let loop : SendLoop :=
        { fileName, fileIndex, file, offset := offset.num.toNat
          fileKeyPromise := share.encryptionKey.map fun key =>
            W.deriveFileKey key fileName fileIndex (share.hkdfSalt.getD []) }
      let s := { s with sendingPaused := false }
      if s.status ≠ .ready ∧ s.status ≠ .paused then
        (s, s.send (.error "Uploader not ready. Try reloading."))
      else
        ({ s with status := .uploading : Connection }.spawn (.sendLoop loop .scheduled),
          [.uploading fileName loop.offset])

/-- `Pause`. -/
def onPause (s : Connection) : Connection × List Output :=
  ({ s with status := .paused, sendingPaused := true }, [])

/-- `Done`. -/
def onDone (s : Connection) : Connection × List Output :=
  if s.status ≠ .ready ∧ s.status ≠ .uploading then (s, [])
  else ({ s with status := .done : Connection }.close, [])

/-- `onData` on a decoded message. Acknowledgements only move the progress display, and the
remaining types are logged as unhandled. -/
def onData (message : Message) (s : Connection) : Connection × List Output :=
  match message with
  | .ping => (s, s.send .pong)
  | .pong => (s, [])
  | .requestInfo => onRequestInfo share s
  | .usePassword password => onUsePassword share password s
  | .start fileName offset => onStart W share fileName offset s
  | .pause => onPause s
  | .chunkAck _ _ _ => (s, [])
  | .done => onDone s
  | .info _ | .encryptedInfo _ | .chunk _ _ _ _ _ | .error _ | .passwordRequired _
  | .report => (s, [])

/-! ### When a `Start` is taken up -/

/-- The checks `Start` makes before it looks at the connection status. -/
def StartAdmissible (s : Connection) (fileName : String) (offset : ℚ) : Prop :=
  s.isClosed = false ∧
    ¬(share.maxDownloads > 0 ∧ s.completedCount ≥ share.maxDownloads) ∧
    (s.activeFileName.any fun active => active ≠ "" ∧ active ≠ fileName) = false ∧
    (validateOffset share.files fileName offset).isSome

instance (s : Connection) (fileName : String) (offset : ℚ) :
    Decidable (StartAdmissible share s fileName offset) :=
  inferInstanceAs (Decidable (_ ∧ _))

/-- What an admissible `Start` leads to in status `ready` or `paused`: a send loop scheduled
at the requested offset, the pause flag cleared. -/
structure TakesUp (s : Connection) (fileName : String) (offset : ℚ)
    (r : Connection × List Output) (loop : SendLoop) : Prop where
  status : s.status = .ready ∨ s.status = .paused
  fileName_eq : loop.fileName = fileName
  offset_eq : loop.offset = offset.num.toNat
  connection : r.1 =
    { s with
      activeFileName := some fileName, sendingPaused := false, status := .uploading
      tasks := s.tasks ++ [.sendLoop loop .scheduled] }
  outputs : r.2 = [.uploading fileName loop.offset]

/-- What every other `Start` leads to: an error, and no new computation. -/
structure Refuses (s : Connection) (r : Connection × List Output) : Prop where
  tasks : r.1.tasks = s.tasks
  status : r.1.status = s.status ∨ r.1.status = .closed
  outputs : ∀ o ∈ r.2, ∃ text, o = .sent (.error text)

/-- A `Start` is taken up exactly when it is admissible and the status allows it. -/
theorem onStart_cases (s : Connection) (fileName : String) (offset : ℚ)
    (hclosed : s.isClosed = false) :
    (StartAdmissible share s fileName offset ∧
      ∃ loop, TakesUp s fileName offset (onStart W share fileName offset s) loop) ∨
    (¬(StartAdmissible share s fileName offset ∧ (s.status = .ready ∨ s.status = .paused)) ∧
      Refuses s (onStart W share fileName offset s)) := by
  rw [onStart]
  split
  next hlimit =>
    exact .inr ⟨fun h => h.1.2.1 hlimit, close_tasks s, close_status s hclosed,
      mem_send_error s _⟩
  next hlimit =>
    split
    next hactive =>
      refine .inr ⟨fun h => ?_, rfl, .inl rfl, mem_send_error s _⟩
      exact absurd hactive (by rw [h.1.2.2.1]; exact Bool.false_ne_true)
    next hactive =>
      dsimp only
      split
      next hoffset =>
        refine .inr ⟨fun h => ?_, rfl, .inl rfl, mem_send_error _ _⟩
        exact absurd h.1.2.2.2 (by simp [hoffset])
      next file hfile =>
        split
        next hstatus =>
          refine .inr ⟨fun h => ?_, rfl, .inl rfl, mem_send_error _ _⟩
          exact h.2.elim hstatus.1 hstatus.2
        next hstatus =>
          have hstatus' : s.status = .ready ∨ s.status = .paused := by
            by_contra hnot
            exact hstatus (not_or.mp hnot)
          exact .inl ⟨⟨hclosed, hlimit, Bool.eq_false_of_not_eq_true hactive,
            by simp [hfile]⟩, _,
            hstatus', rfl, rfl, rfl, rfl⟩

/-! ### The connection as a transition system -/

/-- A suspended computation woken by its settlement. -/
def resumeTask (task : Task) (settlement : Settlement) (s : Connection) :
    Connection × List Output :=
  match task with
  | .commitment payload i => resumeCommitment W share payload i settlement s
  | .yielded payload i => commitFrom payload (i + 1) s
  | .encryptingMetadata payload => resumeEncryptingMetadata W share payload settlement s
  | .passwordAttempt currentAttempts => resumePasswordAttempt currentAttempts settlement s
  | .sendLoop loop point => resumeSendLoop W share loop point settlement s
  | .hashing idx f rest => resumeHashing W share idx f rest settlement s

/-- One synchronous stretch of the connection. -/
def step (s : Connection) : Event → Connection × List Output
  | .opened => (if s.isClosed then s else { s with isOpen := true }, [])
  | .received message => if s.isClosed then (s, []) else onData W share message s
  | .malformed => if s.isClosed then (s, []) else (s, s.send handlerError)
  | .resumed i settlement =>
    match s.tasks[i]? with
    | none => (s, [])
    | some task => resumeTask W share task settlement { s with tasks := s.tasks.eraseIdx i }
  | .closedByPeer => (s.close, [])
  | .handshakeTimeout =>
    (if s.handshakeReceived = false ∧ s.isOpen then s.close else s, [])
  | .idleTimeout => (s.close, [])
  | .keepalive => (s, s.send .ping)
  | .othersMoved sharedPasswordAttempts completedCount sha256Cache =>
    ({ s with sharedPasswordAttempts, completedCount, sha256Cache }, [])

/-- The uploader's side of one connection. -/
def uploader : System Connection Event Output where
  init := {}
  step := step W share

end Rapidly.FileSharing.Uploader
