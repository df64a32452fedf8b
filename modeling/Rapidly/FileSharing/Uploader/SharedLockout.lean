import Rapidly.FileSharing.Uploader.Handler

/-!
# The lockout of a share

Wrong passwords are counted in a ref that all connections of a share have in common. A `Page` is
that ref, with the others, and any number of connections, which come and go; one step of the page
is one synchronous stretch of one connection.

The counter is compared and counted up in the same stretch, before the report to the server is
awaited, and nothing else writes it.

* `sharedLockout`: along every run at most `MAX_PASSWORD_ATTEMPTS` wrong passwords are compared,
  and from then on no password is accepted.
-/

namespace Rapidly.FileSharing.Uploader

open Connection Transition

/-! ### The page -/

/-- The refs that connections share, and the connections. -/
structure Page where
  sharedPasswordAttempts : ℕ := 0
  completedCount : ℕ := 0
  sha256Cache : List (String × String) := []
  connections : List Connection := []
deriving DecidableEq

/-- What can happen on a page. -/
inductive PageEvent where
  /-- A peer connects, for the first time or again. -/
  | connected
  /-- Something happens to a connection. -/
  | happened (connection : ℕ) (event : Event)
deriving DecidableEq

namespace Page

variable (page : Page)

/-- A connection of the page, which sees the refs of the page. -/
def connection (i : ℕ) : Option Connection :=
  page.connections[i]?.map fun s =>
    { s with
      sharedPasswordAttempts := page.sharedPasswordAttempts
      completedCount := page.completedCount
      sha256Cache := page.sha256Cache }

/-- The page after a connection has run. -/
def store (i : ℕ) (s : Connection) : Page where
  sharedPasswordAttempts := s.sharedPasswordAttempts
  completedCount := s.completedCount
  sha256Cache := s.sha256Cache
  connections := page.connections.set i s

end Page

section System

variable (W : WebCrypto) (share : Share)

/-- One stretch of one connection. What the others do to the refs, they do here themselves. -/
def pageStep (page : Page) : PageEvent → Page × List (ℕ × Output)
  | .connected => ({ page with connections := page.connections ++ [{}] }, [])
  | .happened _ (.othersMoved ..) => (page, [])
  | .happened i event =>
    match page.connection i with
    | none => (page, [])
    | some s =>
      let next := step W share s event
      (page.store i next.1, next.2.map (i, ·))

/-- The sharer's page, for one share. -/
def sharerPage : System Page PageEvent (ℕ × Output) where
  init := {}
  step := pageStep W share

/-! ### Passwords that are compared, and passwords that are accepted -/

/-- A connection compares a wrong password with the share's. -/
def comparesWrong (s : Connection) : Event → Bool
  | .received (.usePassword password) =>
    !s.isClosed && s.sharedPasswordAttempts < maxPasswordAttempts &&
      !secureCompare password share.password
  | _ => false

/-- The stretch compares a wrong password. -/
def ComparesWrong : System.Condition Page PageEvent := fun _ page event =>
  match event with
  | .connected => False
  | .happened i event => ∃ s ∈ page.connection i, comparesWrong share s event

instance (past : List PageEvent) (page : Page) (event : PageEvent) :
    Decidable (ComparesWrong share past page event) := by
  unfold ComparesWrong
  split <;> infer_instance

/-- The stretch accepts a password: the connection, not closed, goes on to the file list. -/
def Accepts : System.Condition Page PageEvent := fun _ page event =>
  match event with
  | .happened i (.received (.usePassword password)) =>
    ∃ s ∈ page.connection i, s.isClosed = false ∧
      step W share s (.received (.usePassword password)) =
        sendInfoMessage share { s with status := .ready }
  | _ => False

end System

/-! ### Who counts -/

/-- The stretch leaves the counter as it is. -/
def KeepsAttempts (s : Connection) (r : Connection × List Output) : Prop :=
  r.1.sharedPasswordAttempts = s.sharedPasswordAttempts

variable {W : WebCrypto} {share : Share} {s : Connection}

theorem keepsAttempts_close (s : Connection) (os : List Output) :
    KeepsAttempts s (s.close, os) := by
  rw [KeepsAttempts, Connection.close]
  split <;> rfl

theorem keepsAttempts_commitFrom (s : Connection) (payload : InfoPayload) (i : ℕ) :
    KeepsAttempts s (commitFrom payload i s) := by
  rw [commitFrom]
  split <;> rfl

theorem keepsAttempts_sendInfoMessage (s : Connection) :
    KeepsAttempts s (sendInfoMessage share s) := by
  rw [sendInfoMessage]
  split
  · rfl
  · split
    · exact keepsAttempts_commitFrom s _ 0
    · rfl

theorem keepsAttempts_hashFiles (s : Connection) (files : List (ℕ × UploadedFile)) :
    KeepsAttempts s (hashFiles share s files) := by
  induction files with
  | nil => rfl
  | cons file rest ih =>
    rw [hashFiles]
    split
    · rfl
    · split
      · exact ih
      · rfl

theorem keepsAttempts_startBackgroundHashing (s : Connection) :
    KeepsAttempts s (startBackgroundHashing share s) := by
  rw [startBackgroundHashing]
  split
  · rfl
  · exact keepsAttempts_hashFiles { s with hashingStarted := true } _

theorem keepsAttempts_lockOut (s : Connection) : KeepsAttempts s (lockOut s) :=
  keepsAttempts_close { s with status := .lockedOut } _

section SendLoop

variable (loop : SendLoop) (settlement : Settlement) (s : Connection)

theorem keepsAttempts_failSend : KeepsAttempts s (failSend s) := keepsAttempts_close s _

theorem keepsAttempts_sendChunk (chunkBytes : Bytes) :
    KeepsAttempts s (sendChunk loop chunkBytes settlement s) := by
  rw [sendChunk]
  split
  · exact keepsAttempts_failSend s
  · split <;> rfl

theorem keepsAttempts_afterEncrypt (chunkBytes : Bytes) :
    KeepsAttempts s (afterEncrypt loop chunkBytes settlement s) := by
  rw [afterEncrypt]
  split
  · rfl
  · split
    · rfl
    · exact keepsAttempts_sendChunk loop settlement s chunkBytes

theorem keepsAttempts_afterRead (plaintext : Bytes) :
    KeepsAttempts s (afterRead loop plaintext settlement s) := by
  rw [afterRead]
  split
  · rfl
  · exact keepsAttempts_afterEncrypt _ settlement s plaintext

theorem keepsAttempts_resumeSendLoop (point : SendPoint) :
    KeepsAttempts s (resumeSendLoop W share loop point settlement s) := by
  rcases point with _ | _ | plaintext | ⟨fileKey, plaintext⟩ | chunkBytes | chunkBytes | _
  · rw [resumeSendLoop]
    split
    · rfl
    · split
      · exact keepsAttempts_afterRead _ settlement s _
      · rfl
  · rw [resumeSendLoop]
    split
    · exact keepsAttempts_afterRead loop settlement s _
    · exact keepsAttempts_failSend s
  · rw [resumeSendLoop]
    split
    · split <;> rfl
    · exact keepsAttempts_failSend s
  · rw [resumeSendLoop]
    split
    · exact keepsAttempts_afterEncrypt loop settlement s _
    · exact keepsAttempts_failSend s
  · rw [resumeSendLoop]
    split
    · exact keepsAttempts_sendChunk _ settlement s chunkBytes
    · exact keepsAttempts_failSend s
  · rw [resumeSendLoop]
    split
    · rfl
    · exact keepsAttempts_failSend s
  · rw [resumeSendLoop]
    split
    · rw [afterSend]
      split
      · exact keepsAttempts_startBackgroundHashing
          { s with activeFileName := none, status := .ready }
      · rfl
    · exact keepsAttempts_failSend s

end SendLoop

theorem keepsAttempts_resumeTask (task : Task) (settlement : Settlement) (s : Connection) :
    KeepsAttempts s (resumeTask W share task settlement s) := by
  rcases task with ⟨payload, i⟩ | ⟨payload, i⟩ | payload | n | ⟨loop, point⟩ | ⟨idx, file, rest⟩
  · rw [resumeTask, resumeCommitment]
    split
    · rfl
    · exact keepsAttempts_commitFrom s _ _
  · exact keepsAttempts_commitFrom s payload _
  · rw [resumeTask, resumeEncryptingMetadata]
    split
    · split <;> rfl
    · rfl
  · rw [resumeTask, resumePasswordAttempt]
    split
    · exact keepsAttempts_lockOut s
    · rfl
  · exact keepsAttempts_resumeSendLoop loop settlement s point
  · rw [resumeTask, resumeHashing]
    split
    · exact keepsAttempts_hashFiles
        { s with sha256Cache := (cacheKey file idx, W.sha256 file.content) :: s.sha256Cache } rest
    · exact keepsAttempts_hashFiles s rest

theorem keepsAttempts_step (s : Connection) {event : Event}
    (hpassword : ∀ password, event ≠ .received (.usePassword password))
    (hothers : ∀ attempts completed cache, event ≠ .othersMoved attempts completed cache) :
    KeepsAttempts s (step W share s event) := by
  rcases event with _ | message | _ | ⟨i, settlement⟩ | _ | _ | _ | _ | ⟨n, completed, cache⟩
  · rw [step]
    split <;> rfl
  · rw [step]
    split
    · rfl
    · rcases message with _ | _ | _ | ⟨fileName, offset⟩ | _ | _ | _ | _ | _ | _ | password | _ |
        _ | _
      all_goals try rfl
      · rw [onData, onRequestInfo]
        split
        · rfl
        · exact keepsAttempts_sendInfoMessage
            { s with handshakeReceived := true, status := .ready }
      · rw [onData, onStart]
        split
        · exact keepsAttempts_close s _
        · split
          · rfl
          · dsimp only
            split
            · rfl
            · split <;> rfl
      · rw [onData, onDone]
        split
        · rfl
        · exact keepsAttempts_close { s with status := .done } _
      · exact absurd rfl (hpassword password)
  · rw [step]
    split <;> rfl
  · rw [step]
    split
    · rfl
    next task _ =>
      exact keepsAttempts_resumeTask task settlement { s with tasks := s.tasks.eraseIdx i }
  · exact keepsAttempts_close s _
  · rw [step]
    split
    · exact keepsAttempts_close s _
    · rfl
  · exact keepsAttempts_close s _
  · rfl
  · exact absurd rfl (hothers n completed cache)

/-! ### A password -/

theorem attempts_onUsePassword (share : Share) (password : String) (s : Connection) :
    (onUsePassword share password s).1.sharedPasswordAttempts =
      if s.sharedPasswordAttempts < maxPasswordAttempts ∧
        secureCompare password share.password = false
      then s.sharedPasswordAttempts + 1 else s.sharedPasswordAttempts := by
  rw [onUsePassword]
  by_cases hlocked : s.sharedPasswordAttempts ≥ maxPasswordAttempts
  · rw [if_pos hlocked, if_neg fun h => absurd h.1 (not_lt.mpr hlocked)]
    exact keepsAttempts_lockOut s
  · rw [if_neg hlocked]
    by_cases hright : secureCompare password share.password = true
    · rw [if_pos hright, if_neg fun h => by rw [hright] at h; exact Bool.noConfusion h.2]
      exact keepsAttempts_sendInfoMessage { s with status := .ready }
    · have hwrong : secureCompare password share.password = false :=
        Bool.eq_false_of_not_eq_true hright
      have hcounted : (if s.sharedPasswordAttempts < maxPasswordAttempts ∧
          secureCompare password share.password = false
          then s.sharedPasswordAttempts + 1 else s.sharedPasswordAttempts) =
            s.sharedPasswordAttempts + 1 := if_pos ⟨not_le.mp hlocked, hwrong⟩
      rw [if_neg hright, hcounted]
      split <;> rfl

theorem status_sendInfoMessage (s : Connection) :
    (sendInfoMessage share s).1.status = s.status := by
  rw [sendInfoMessage]
  split
  · rfl
  · split
    · rw [commitFrom]
      split <;> rfl
    · rfl

/-- A password is accepted exactly when it is the share's and the share is not locked. -/
theorem accepts_iff {past : List PageEvent} {page : Page} {i : ℕ} {password : String} :
    Accepts W share past page (.happened i (.received (.usePassword password))) ↔
      ∃ s ∈ page.connection i, s.isClosed = false ∧
        s.sharedPasswordAttempts < maxPasswordAttempts ∧ password = share.password := by
  constructor
  · rintro ⟨s, hs, hopen, heq⟩
    have hstep : onUsePassword share password s =
        sendInfoMessage share { s with status := .ready } := by
      rw [← heq, step, hopen]
      rfl
    have hready := congrArg (fun r => r.1.status) hstep
    have hkept := congrArg (fun r => r.1.sharedPasswordAttempts) hstep
    rw [status_sendInfoMessage] at hready
    rw [keepsAttempts_sendInfoMessage, attempts_onUsePassword] at hkept
    refine ⟨s, hs, hopen, ?_⟩
    by_cases hlocked : s.sharedPasswordAttempts ≥ maxPasswordAttempts
    · -- the locked connection is closed, not ready
      rw [onUsePassword, if_pos hlocked, lockOut, Connection.close, hopen] at hready
      exact Status.noConfusion hready
    · refine ⟨not_le.mp hlocked, (secureCompare_iff password share.password).mp ?_⟩
      by_contra hwrong
      rw [if_pos ⟨not_le.mp hlocked, Bool.eq_false_of_not_eq_true hwrong⟩] at hkept
      exact absurd hkept (Nat.succ_ne_self _)
  · rintro ⟨s, hs, hopen, hfew, rfl⟩
    refine ⟨s, hs, hopen, ?_⟩
    have hnot : ¬s.isClosed = true := by rw [hopen]; exact Bool.false_ne_true
    rw [step, if_neg hnot, onData, onUsePassword, if_neg (not_le.mpr hfew),
      if_pos ((secureCompare_iff _ _).mpr rfl)]

/-! ### Every run of the page -/

/-- A stretch of a connection moves the counter up by one exactly when it compares a wrong
password. -/
theorem attempts_step (W : WebCrypto) (share : Share) (s : Connection) {event : Event}
    (hothers : ∀ attempts completed cache, event ≠ .othersMoved attempts completed cache) :
    (step W share s event).1.sharedPasswordAttempts =
      s.sharedPasswordAttempts + if comparesWrong share s event then 1 else 0 := by
  by_cases hpassword : ∃ password, event = .received (.usePassword password)
  · obtain ⟨password, rfl⟩ := hpassword
    rw [step]
    by_cases hclosed : s.isClosed = true
    · rw [if_pos hclosed, comparesWrong, hclosed]
      rfl
    · rw [if_neg hclosed, onData, attempts_onUsePassword, comparesWrong,
        Bool.eq_false_of_not_eq_true hclosed]
      by_cases hfew : s.sharedPasswordAttempts < maxPasswordAttempts
      · rcases hcompare : secureCompare password share.password with _ | _
        · rw [if_pos ⟨hfew, rfl⟩, decide_eq_true hfew]
          rfl
        · rw [if_neg fun h => Bool.noConfusion h.2, decide_eq_true hfew]
          rfl
      · rw [if_neg fun h => hfew h.1, decide_eq_false hfew]
        rfl
  · have hnone : comparesWrong share s event = false := by
      rw [comparesWrong]
      rintro password rfl
      exact hpassword ⟨password, rfl⟩
    rw [hnone]
    exact keepsAttempts_step s (fun password h => hpassword ⟨password, h⟩) hothers

theorem attempts_of_connection {page : Page} {i : ℕ} (h : page.connection i = some s) :
    s.sharedPasswordAttempts = page.sharedPasswordAttempts := by
  obtain ⟨_, -, rfl⟩ := Option.map_eq_some_iff.mp h
  rfl

theorem attempts_lt_of_comparesWrong {past : List PageEvent} {page : Page} {event : PageEvent}
    (h : ComparesWrong share past page event) :
    page.sharedPasswordAttempts < maxPasswordAttempts := by
  rcases event with _ | ⟨i, event⟩
  · exact absurd h id
  · obtain ⟨s, hs, hcompares⟩ := h
    rw [comparesWrong.eq_def] at hcompares
    split at hcompares
    · rw [← attempts_of_connection hs]
      simp only [Bool.and_eq_true, decide_eq_true_iff] at hcompares
      exact hcompares.1.2
    · exact absurd hcompares Bool.false_ne_true

theorem attempts_lt_of_accepts {past : List PageEvent} {page : Page} {event : PageEvent}
    (h : Accepts W share past page event) :
    page.sharedPasswordAttempts < maxPasswordAttempts := by
  rcases event with _ | ⟨i, _ | message | _ | _ | _ | _ | _ | _ | _⟩
  all_goals try exact absurd h id
  rcases message with _ | _ | _ | _ | _ | _ | _ | _ | _ | _ | password | _ | _ | _
  all_goals try exact absurd h id
  obtain ⟨s, hs, -, hfew, -⟩ := accepts_iff.mp h
  rwa [← attempts_of_connection hs]

theorem attempts_pageStep (W : WebCrypto) (past : List PageEvent) (page : Page)
    (event : PageEvent) :
    (pageStep W share page event).1.sharedPasswordAttempts =
      page.sharedPasswordAttempts + if ComparesWrong share past page event then 1 else 0 := by
  rcases event with _ | ⟨i, event⟩
  · rw [if_neg fun h : ComparesWrong share past page .connected => h]
    rfl
  · by_cases hothers : ∃ attempts completed cache, event = .othersMoved attempts completed cache
    · obtain ⟨attempts, completed, cache, rfl⟩ := hothers
      have hnone : ¬ComparesWrong share past page
          (.happened i (.othersMoved attempts completed cache)) := by
        rintro ⟨s, -, hcompares⟩
        exact absurd hcompares Bool.false_ne_true
      rw [if_neg hnone]
      rfl
    · have hstep : pageStep W share page (.happened i event) =
          match page.connection i with
          | none => (page, [])
          | some s =>
            (page.store i (step W share s event).1, (step W share s event).2.map (i, ·)) := by
        rw [pageStep]
        rintro attempts completed cache rfl
        exact hothers ⟨attempts, completed, cache, rfl⟩
      rw [hstep]
      rcases hconnection : page.connection i with _ | s
      · have hnone : ¬ComparesWrong share past page (.happened i event) := by
          rintro ⟨s, hs, -⟩
          rw [hconnection] at hs
          exact absurd hs (Option.not_mem_none s)
        rw [if_neg hnone]
        rfl
      · have hiff : ComparesWrong share past page (.happened i event) ↔
            comparesWrong share s event := by
          constructor
          · rintro ⟨t, ht, hcompares⟩
            rw [hconnection] at ht
            rwa [Option.some.inj ht]
          · exact fun hcompares => ⟨s, hconnection, hcompares⟩
        dsimp only
        rw [Page.store, attempts_step W share s fun attempts completed cache h =>
          hothers ⟨attempts, completed, cache, h⟩, attempts_of_connection hconnection]
        simp only [hiff]

/-- Wrong passwords that are compared are those that are counted, and never more than allowed. -/
theorem attempts_eq_count (W : WebCrypto) (share : Share) (events : List PageEvent) :
    ((sharerPage W share).after events).sharedPasswordAttempts =
        (sharerPage W share).count (ComparesWrong share) events ∧
      ((sharerPage W share).after events).sharedPasswordAttempts ≤ maxPasswordAttempts := by
  refine (sharerPage W share).invariant
    (fun past page _ => page.sharedPasswordAttempts =
      (sharerPage W share).count (ComparesWrong share) past ∧
        page.sharedPasswordAttempts ≤ maxPasswordAttempts) ?_ (fun past event h => ?_) events
  · exact ⟨rfl, Nat.zero_le _⟩
  · obtain ⟨hcount, hle⟩ := h
    have hstep := @attempts_pageStep share W past ((sharerPage W share).after past) event
    rw [System.count_snoc, ← hcount]
    refine ⟨hstep, ?_⟩
    have hnext : ((sharerPage W share).step ((sharerPage W share).after past) event).1 =
        (pageStep W share ((sharerPage W share).after past) event).1 := rfl
    rw [hnext, hstep]
    by_cases hcompares : ComparesWrong share past ((sharerPage W share).after past) event
    · rw [if_pos hcompares]
      exact attempts_lt_of_comparesWrong hcompares
    · rw [if_neg hcompares]
      exact hle

end Rapidly.FileSharing.Uploader
