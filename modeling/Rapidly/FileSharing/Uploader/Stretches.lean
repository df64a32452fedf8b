import Rapidly.FileSharing.Uploader.Handler

/-!
# What a stretch does to the transfer

Most stretches of a connection have nothing to do with the transfer of a file: they suspend no
send loop and send no chunk (`Idle`). The others are a `Start` that is taken up and the wake of
a send loop, and `step_cases` says that there are no more.

A woken loop goes through phases: it reads its slice (`ReadsSlice`), has the bytes of its chunk
ready (`HasChunk`), has waited for the prefetch (`MaySend`). Between two of them it may suspend
(`Suspends`), and `resumeSendLoop_cases` says what it may come to: it stops for good, suspends,
or puts its chunk on the channel.
-/

namespace Rapidly.FileSharing.Uploader

open Connection

variable {W : WebCrypto} {share : Share}

/-! ### Stretches that leave the transfer alone -/

/-- The output tells which chunk is due or sends one. -/
def Output.isTransfer : Output → Bool
  | .uploading _ _ | .sent (.chunk _ _ _ _ _) => true
  | _ => false

/-- The suspended computation is a send loop. -/
def Task.isSendLoop : Task → Bool
  | .sendLoop _ _ => true
  | _ => false

/-- The stretch suspends no send loop, and neither starts a transfer nor sends a chunk. -/
structure Idle (s : Connection) (r : Connection × List Output) : Prop where
  tasks : ∃ added, r.1.tasks = s.tasks ++ added ∧ ∀ task ∈ added, task.isSendLoop = false
  quiet : ∀ o ∈ r.2, o.isTransfer = false

theorem Idle.of_tasks_eq {s : Connection} {r : Connection × List Output}
    (htasks : r.1.tasks = s.tasks) (hquiet : ∀ o ∈ r.2, o.isTransfer = false) : Idle s r :=
  ⟨⟨[], by rw [htasks, List.append_nil], fun _ h => absurd h List.not_mem_nil⟩, hquiet⟩

theorem idle_spawn (s : Connection) {task : Task} (h : task.isSendLoop = false) :
    Idle s (s.spawn task, []) := by
  refine ⟨⟨[task], rfl, fun task' htask => ?_⟩, fun _ ho => absurd ho List.not_mem_nil⟩
  rw [List.mem_singleton.mp htask]
  exact h

theorem quiet_send {s : Connection} {message : Message}
    (h : (Output.sent message).isTransfer = false) :
    ∀ o ∈ s.send message, o.isTransfer = false := by
  intro o ho
  rw [s.mem_send ho]
  exact h

theorem idle_send (s : Connection) {message : Message}
    (h : (Output.sent message).isTransfer = false) : Idle s (s, s.send message) :=
  .of_tasks_eq rfl (quiet_send h)

theorem idle_nil (s : Connection) : Idle s (s, []) :=
  .of_tasks_eq rfl fun _ h => absurd h List.not_mem_nil

theorem idle_close (s : Connection) : Idle s (s.close, []) :=
  .of_tasks_eq (close_tasks s) fun _ h => absurd h List.not_mem_nil

theorem Idle.congr {s s' : Connection} {r : Connection × List Output} (h : Idle s' r)
    (htasks : s'.tasks = s.tasks) : Idle s r := by
  obtain ⟨added, hadded, hloops⟩ := h.tasks
  exact ⟨⟨added, by rw [hadded, htasks], hloops⟩, h.quiet⟩

theorem idle_commitFrom (s : Connection) (payload : InfoPayload) (i : ℕ) :
    Idle s (commitFrom payload i s) := by
  rw [commitFrom]
  split <;> exact idle_spawn s rfl

theorem idle_sendInfoMessage (s : Connection) : Idle s (sendInfoMessage share s) := by
  rw [sendInfoMessage]
  split
  · exact idle_send s rfl
  · split
    · exact idle_commitFrom s _ 0
    · exact idle_spawn s rfl

theorem idle_resumeCommitment (s : Connection) (payload : InfoPayload) (i : ℕ)
    (settlement : Settlement) : Idle s (resumeCommitment W share payload i settlement s) := by
  rw [resumeCommitment]
  split
  · exact idle_spawn s rfl
  · exact idle_commitFrom s _ _

theorem idle_resumeEncryptingMetadata (s : Connection) (payload : InfoPayload)
    (settlement : Settlement) :
    Idle s (resumeEncryptingMetadata W share payload settlement s) := by
  rw [resumeEncryptingMetadata]
  split
  · split <;> exact idle_send s rfl
  · exact idle_send s rfl

theorem quiet_postChecksums (s : Connection) :
    ∀ o ∈ postChecksums share s, o.isTransfer = false := by
  rw [postChecksums]
  split <;> simp [Output.isTransfer]

theorem idle_hashFiles (s : Connection) (files : List (ℕ × UploadedFile)) :
    Idle s (hashFiles share s files) := by
  induction files with
  | nil => exact .of_tasks_eq rfl (quiet_postChecksums s)
  | cons file rest ih =>
    rw [hashFiles]
    split
    · exact .of_tasks_eq rfl (quiet_postChecksums s)
    · split
      · exact ih
      · exact idle_spawn s rfl

theorem idle_startBackgroundHashing (s : Connection) :
    Idle s (startBackgroundHashing share s) := by
  rw [startBackgroundHashing]
  split
  · exact idle_nil s
  · exact (idle_hashFiles { s with hashingStarted := true } _).congr rfl

theorem idle_resumeHashing (s : Connection) (idx : ℕ) (f : UploadedFile)
    (rest : List (ℕ × UploadedFile)) (settlement : Settlement) :
    Idle s (resumeHashing W share idx f rest settlement s) := by
  rw [resumeHashing]
  split
  · exact (idle_hashFiles
      { s with sha256Cache := (cacheKey f idx, W.sha256 f.content) :: s.sha256Cache }
      rest).congr rfl
  · exact idle_hashFiles s rest

theorem idle_lockOut (s : Connection) : Idle s (lockOut s) :=
  .of_tasks_eq (close_tasks { s with status := .lockedOut }) (quiet_send rfl)

theorem idle_rejectPassword (s : Connection) (n : ℕ) : Idle s (rejectPassword n s) :=
  .of_tasks_eq rfl (quiet_send rfl)

theorem idle_resumePasswordAttempt (s : Connection) (n : ℕ) (settlement : Settlement) :
    Idle s (resumePasswordAttempt n settlement s) := by
  rw [resumePasswordAttempt]
  split
  · exact idle_lockOut s
  · exact idle_rejectPassword s n

theorem idle_onRequestInfo (s : Connection) : Idle s (onRequestInfo share s) := by
  rw [onRequestInfo]
  split
  · exact .of_tasks_eq rfl (quiet_send rfl)
  · exact (idle_sendInfoMessage { s with handshakeReceived := true, status := .ready }).congr rfl

theorem idle_onUsePassword (s : Connection) (password : String) :
    Idle s (onUsePassword share password s) := by
  rw [onUsePassword]
  split
  · exact idle_lockOut s
  · split
    · exact (idle_sendInfoMessage { s with status := .ready }).congr rfl
    · dsimp only
      split
      · refine ⟨⟨[.passwordAttempt (s.sharedPasswordAttempts + 1)], rfl, ?_⟩, ?_⟩
        · simp [Task.isSendLoop]
        · simp [Output.isTransfer]
      · exact (idle_rejectPassword
          { s with sharedPasswordAttempts := s.sharedPasswordAttempts + 1 } _).congr rfl

theorem idle_onDone (s : Connection) : Idle s (onDone s) := by
  rw [onDone]
  split
  · exact idle_nil s
  · exact .of_tasks_eq (close_tasks { s with status := .done })
      fun _ h => absurd h List.not_mem_nil

theorem idle_resumeTask {task : Task} (h : task.isSendLoop = false) (settlement : Settlement)
    (s : Connection) : Idle s (resumeTask W share task settlement s) := by
  cases task with
  | commitment payload i => exact idle_resumeCommitment s payload i settlement
  | yielded payload i => exact idle_commitFrom s payload (i + 1)
  | encryptingMetadata payload => exact idle_resumeEncryptingMetadata s payload settlement
  | passwordAttempt n => exact idle_resumePasswordAttempt s n settlement
  | sendLoop loop point => cases h
  | hashing idx f rest => exact idle_resumeHashing s idx f rest settlement

/-- The suspended computation that an event wakes. -/
def Event.wakes (s : Connection) : Event → Option Task
  | .resumed i _ => s.tasks[i]?
  | _ => none

/-- **What a step can do to the transfer.** A step is idle, or takes a `Start` up, or wakes a
suspended computation. -/
theorem step_cases (W : WebCrypto) (share : Share) (s : Connection) (event : Event) :
    (event.wakes s = none ∧ Idle s (step W share s event)) ∨
    (∃ fileName offset loop, event = .received (.start fileName offset) ∧
      StartAdmissible share s fileName offset ∧
      TakesUp s fileName offset (step W share s event) loop) ∨
    ∃ i settlement task, event = .resumed i settlement ∧ s.tasks[i]? = some task ∧
      step W share s event =
        resumeTask W share task settlement { s with tasks := s.tasks.eraseIdx i } := by
  cases event with
  | opened =>
    refine .inl ⟨rfl, .of_tasks_eq ?_ fun _ h => absurd h List.not_mem_nil⟩
    dsimp only [step]
    split <;> rfl
  | received message =>
    dsimp only [step]
    split
    · exact .inl ⟨rfl, idle_nil s⟩
    next hclosed =>
      cases message with
      | requestInfo => exact .inl ⟨rfl, idle_onRequestInfo s⟩
      | usePassword password => exact .inl ⟨rfl, idle_onUsePassword s password⟩
      | start fileName offset =>
        -- the only message that begins a loop, unless it is refused
        obtain ⟨hadm, loop, htakes⟩ | ⟨-, hrefuses⟩ :=
          onStart_cases W share s fileName offset (Bool.eq_false_of_not_eq_true hclosed)
        · exact .inr (.inl ⟨fileName, offset, loop, rfl, hadm, htakes⟩)
        · refine .inl ⟨rfl, .of_tasks_eq hrefuses.tasks fun o ho => ?_⟩
          obtain ⟨text, rfl⟩ := hrefuses.outputs o ho
          rfl
      | pause => exact .inl ⟨rfl, .of_tasks_eq rfl fun _ h => absurd h List.not_mem_nil⟩
      | done => exact .inl ⟨rfl, idle_onDone s⟩
      | ping => exact .inl ⟨rfl, idle_send s rfl⟩
      | _ => exact .inl ⟨rfl, idle_nil s⟩
  | malformed =>
    dsimp only [step]
    split
    · exact .inl ⟨rfl, idle_nil s⟩
    · exact .inl ⟨rfl, idle_send s rfl⟩
  | resumed i settlement =>
    dsimp only [step]
    split
    next htask => exact .inl ⟨htask, idle_nil s⟩
    next task htask => exact .inr (.inr ⟨i, settlement, task, rfl, htask, rfl⟩)
  | closedByPeer => exact .inl ⟨rfl, idle_close s⟩
  | handshakeTimeout =>
    dsimp only [step]
    split
    · exact .inl ⟨rfl, idle_close s⟩
    · exact .inl ⟨rfl, idle_nil s⟩
  | idleTimeout => exact .inl ⟨rfl, idle_close s⟩
  | keepalive => exact .inl ⟨rfl, idle_send s rfl⟩
  | othersMoved attempts completed cache =>
    exact .inl ⟨rfl, .of_tasks_eq rfl fun _ h => absurd h List.not_mem_nil⟩

/-! ### One wake of a send loop -/

/-- The next prefetch is started, unless the current chunk is the last. -/
def SendLoop.prefetchNext (loop : SendLoop) : SendLoop :=
  if loop.final then loop else loop.startPrefetch loop.stop

/-- The loop has the plaintext of its chunk: the prefetched slice, or the one it just read. -/
inductive ReadsSlice : SendLoop → SendPoint → SendLoop → Bytes → Prop
  | prefetched {loop : SendLoop} {plaintext : Bytes}
      (hbuffer : loop.prefetchedBuffer = some plaintext) :
      ReadsSlice loop .scheduled { loop with prefetchedBuffer := none }.prefetchNext plaintext
  | read {loop : SendLoop} : ReadsSlice loop .reading loop.prefetchNext loop.plaintext

/-- The loop has the bytes of its chunk: the plaintext, or its encryption. -/
inductive HasChunk (W : WebCrypto) (iv : Bytes) :
    SendLoop → SendPoint → SendLoop → Bytes → Prop
  | plain {loop loop' : SendLoop} {point : SendPoint} {plaintext : Bytes}
      (hread : ReadsSlice loop point loop' plaintext) (hkey : loop'.fileKeyPromise = none) :
      HasChunk W iv loop point loop' plaintext
  | encrypted {loop : SendLoop} {fileKey plaintext : Bytes} :
      HasChunk W iv loop (.encrypting fileKey plaintext) loop
        (W.encryptChunk fileKey iv plaintext)

/-- The loop has nothing more to wait for but the channel. -/
inductive MaySend (W : WebCrypto) (iv : Bytes) :
    SendLoop → SendPoint → SendLoop → Bytes → Prop
  | unprefetched {loop loop' : SendLoop} {point : SendPoint} {chunkBytes : Bytes}
      (hchunk : HasChunk W iv loop point loop' chunkBytes)
      (hpromise : loop'.prefetchPromise = none) :
      MaySend W iv loop point loop' chunkBytes
  | prefetched {loop : SendLoop} {chunkBytes : Bytes} :
      MaySend W iv loop (.prefetching chunkBytes)
        { loop with
          prefetchedBuffer := loop.prefetchPromise.map loop.prefetched
          prefetchPromise := none }
        chunkBytes

/-- How a woken loop may suspend again. -/
inductive Suspends (W : WebCrypto) (iv : Bytes) :
    SendLoop → SendPoint → SendLoop → SendPoint → Prop
  | reading {loop : SendLoop} (hbuffer : loop.prefetchedBuffer = none) :
      Suspends W iv loop .scheduled loop .reading
  | awaitingKey {loop loop' : SendLoop} {point : SendPoint} {plaintext : Bytes}
      (hread : ReadsSlice loop point loop' plaintext) (hkey : loop'.fileKeyPromise.isSome) :
      Suspends W iv loop point loop' (.awaitingKey plaintext)
  | encrypting {loop : SendLoop} {fileKey plaintext : Bytes}
      (hkey : loop.fileKeyPromise = some (some fileKey)) :
      Suspends W iv loop (.awaitingKey plaintext) loop (.encrypting fileKey plaintext)
  | prefetching {loop loop' : SendLoop} {point : SendPoint} {chunkBytes : Bytes}
      (hchunk : HasChunk W iv loop point loop' chunkBytes)
      (hpromise : loop'.prefetchPromise.isSome) :
      Suspends W iv loop point loop' (.prefetching chunkBytes)
  | buffering {loop loop' : SendLoop} {point : SendPoint} {chunkBytes : Bytes}
      (hsend : MaySend W iv loop point loop' chunkBytes) :
      Suspends W iv loop point loop' (.buffering chunkBytes)
  | scheduled {loop : SendLoop} (hfinal : loop.final = false) :
      Suspends W iv loop .sent { loop with offset := loop.stop } .scheduled

/-- What a wake of a loop comes to. -/
inductive Wakes (W : WebCrypto) (iv : Bytes) (loop : SendLoop) (point : SendPoint)
    (s : Connection) (r : Connection × List Output) : Prop
  /-- It stops: its work is done, or the connection is paused or closed. -/
  | stops (hidle : Idle s r)
      (hwhy : (point = .sent ∧ loop.final) ∨ r.1.isOpen = false ∨ r.1.sendingPaused)
  | suspends (loop' : SendLoop) (point' : SendPoint)
      (hnext : Suspends W iv loop point loop' point')
      (hr : r = (s.spawn (.sendLoop loop' point'), []))
  | sends (loop' : SendLoop) (chunkBytes : Bytes)
      (hsend : MaySend W iv loop point loop' chunkBytes ∨
        (point = .buffering chunkBytes ∧ loop' = loop))
      (hr : r = transmit loop' chunkBytes s)

section SendLoop

variable {loop loop' : SendLoop} {point : SendPoint} {s : Connection} {settlement : Settlement}

theorem close_isOpen (s : Connection) : s.close.isOpen = false := by
  rw [Connection.close]
  split <;> rfl

theorem wakes_failSend : Wakes W settlement.iv loop point s (failSend s) :=
  .stops (.of_tasks_eq (close_tasks s) (quiet_send rfl)) (.inr (.inl (close_isOpen s)))

theorem wakes_halt (h : s.isOpen = false ∨ s.sendingPaused) :
    Wakes W settlement.iv loop point s (s, []) :=
  .stops (idle_nil s) (.inr h)

theorem wakes_sendChunk {chunkBytes : Bytes}
    (h : MaySend W settlement.iv loop point loop' chunkBytes) :
    Wakes W settlement.iv loop point s (sendChunk loop' chunkBytes settlement s) := by
  rw [sendChunk]
  split
  · exact wakes_failSend
  · split
    · exact .suspends loop' (.buffering chunkBytes) (.buffering h) rfl
    · exact .sends loop' chunkBytes (.inl h) rfl

theorem wakes_afterEncrypt {chunkBytes : Bytes}
    (h : HasChunk W settlement.iv loop point loop' chunkBytes) :
    Wakes W settlement.iv loop point s (afterEncrypt loop' chunkBytes settlement s) := by
  rw [afterEncrypt]
  split
  next hhalt => exact wakes_halt hhalt
  · split
    next hpromise =>
      have hsome : loop'.prefetchPromise.isSome := by rw [hpromise]; rfl
      exact .suspends loop' (.prefetching chunkBytes) (.prefetching h hsome) rfl
    next hpromise => exact wakes_sendChunk (.unprefetched h hpromise)

theorem wakes_afterRead {read : SendLoop} {plaintext : Bytes}
    (h : ReadsSlice loop point read.prefetchNext plaintext) :
    Wakes W settlement.iv loop point s (afterRead read plaintext settlement s) := by
  rw [afterRead, ← SendLoop.prefetchNext]
  split
  next hkey =>
    have hsome : read.prefetchNext.fileKeyPromise.isSome := by rw [hkey]; rfl
    exact .suspends read.prefetchNext (.awaitingKey plaintext) (.awaitingKey h hsome) rfl
  next hkey => exact wakes_afterEncrypt (.plain h hkey)

theorem wakes_afterSend : Wakes W settlement.iv loop .sent s (afterSend share loop s) := by
  rw [afterSend]
  split
  next hfinal =>
    exact .stops ((idle_startBackgroundHashing
      { s with activeFileName := none, status := .ready }).congr rfl) (.inl ⟨rfl, hfinal⟩)
  next hfinal =>
    exact .suspends { loop with offset := loop.stop } .scheduled
      (.scheduled (Bool.eq_false_of_not_eq_true hfinal)) rfl

/-- **One wake.** A send loop woken at any of its suspension points. -/
theorem resumeSendLoop_cases (W : WebCrypto) (share : Share) (loop : SendLoop)
    (point : SendPoint) (settlement : Settlement) (s : Connection) :
    Wakes W settlement.iv loop point s (resumeSendLoop W share loop point settlement s) := by
  cases point with
  | scheduled =>
    dsimp only [resumeSendLoop]
    split
    next hpaused => exact wakes_halt (.inr hpaused)
    · split
      next plaintext hbuffer => exact wakes_afterRead (.prefetched hbuffer)
      next hbuffer => exact .suspends loop .reading (.reading hbuffer) rfl
  | reading =>
    dsimp only [resumeSendLoop]
    split
    · exact wakes_afterRead .read
    · exact wakes_failSend
  | awaitingKey plaintext =>
    dsimp only [resumeSendLoop]
    split
    next fileKey hkey _ =>
      split
      next hhalt => exact wakes_halt hhalt
      · exact .suspends loop (.encrypting fileKey plaintext) (.encrypting hkey) rfl
    · exact wakes_failSend
  | encrypting fileKey plaintext =>
    dsimp only [resumeSendLoop]
    split
    · exact wakes_afterEncrypt .encrypted
    · exact wakes_failSend
  | prefetching chunkBytes =>
    dsimp only [resumeSendLoop]
    split
    · exact wakes_sendChunk .prefetched
    · exact wakes_failSend
  | buffering chunkBytes =>
    dsimp only [resumeSendLoop]
    split
    · exact .sends loop chunkBytes (.inr ⟨rfl, rfl⟩) rfl
    · exact wakes_failSend
  | sent =>
    dsimp only [resumeSendLoop]
    split
    · exact wakes_afterSend
    · exact wakes_failSend

end SendLoop

/-! ### What a wake leaves as it is -/

/-- The two loops are the same but for what they have prefetched. -/
def SendLoop.SameChunk (loop loop' : SendLoop) : Prop :=
  ∃ prefetchedBuffer prefetchPromise, loop' = { loop with prefetchedBuffer, prefetchPromise }

theorem SendLoop.sameChunk_prefetchNext (loop : SendLoop) (buffer : Option Bytes) :
    loop.SameChunk { loop with prefetchedBuffer := buffer }.prefetchNext := by
  rw [prefetchNext]
  split <;> exact ⟨_, _, rfl⟩

theorem ReadsSlice.sameChunk {loop loop' : SendLoop} {point : SendPoint} {plaintext : Bytes}
    (h : ReadsSlice loop point loop' plaintext) : loop.SameChunk loop' ∧ point ≠ .sent := by
  cases h with
  | prefetched => exact ⟨loop.sameChunk_prefetchNext none, fun h => SendPoint.noConfusion h⟩
  | read =>
    exact ⟨loop.sameChunk_prefetchNext loop.prefetchedBuffer, fun h => SendPoint.noConfusion h⟩

theorem HasChunk.sameChunk {iv : Bytes} {loop loop' : SendLoop} {point : SendPoint}
    {chunkBytes : Bytes} (h : HasChunk W iv loop point loop' chunkBytes) :
    loop.SameChunk loop' ∧ point ≠ .sent := by
  cases h with
  | plain hread => exact hread.sameChunk
  | encrypted => exact ⟨⟨_, _, rfl⟩, fun h => SendPoint.noConfusion h⟩

theorem MaySend.sameChunk {iv : Bytes} {loop loop' : SendLoop} {point : SendPoint}
    {chunkBytes : Bytes} (h : MaySend W iv loop point loop' chunkBytes) :
    loop.SameChunk loop' ∧ point ≠ .sent := by
  cases h with
  | unprefetched hchunk => exact hchunk.sameChunk
  | prefetched => exact ⟨⟨_, _, rfl⟩, fun h => SendPoint.noConfusion h⟩

end Rapidly.FileSharing.Uploader
