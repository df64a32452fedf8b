import Rapidly.FileSharing.Uploader.Handler

/-!
# The password gate

Nothing of a password-protected share (its file list, in clear or encrypted, or a chunk of a
file) should leave a connection before the share's password arrived on that connection.

The gate is the connection status. While the password is outstanding the connection is
`Locked`: its status is neither `ready` nor `uploading`, and nothing is suspended but
reports of wrong passwords. Every handler keeps a locked connection locked and silent, with
one exception: `Pause` sets the status to `paused` whatever it was, and `Start` is accepted in
status `paused`. A downloader that pauses before authenticating can therefore start a
transfer without the password.

* `startUnlocks_leaks` is that run, with the chunk it gets.
* `gated_of_pausedStartsAuthenticated` shows that it is the only way in: a run in which no
  `Start` is taken up in status `paused` before the password arrived keeps the gate.
-/

namespace Rapidly.FileSharing

/-- The message tells the peer something about the shared files. -/
def Message.discloses : Message → Bool
  | .info _ | .encryptedInfo _ | .chunk _ _ _ _ _ => true
  | _ => false

namespace Uploader

open Connection Transition

variable {W : WebCrypto} {share : Share}

/-- The output is a message that tells the peer something about the shared files. -/
def Output.discloses : Output → Bool
  | .sent message => message.discloses
  | _ => false

/-- A `UsePassword` with exactly the share's password is among the events. -/
def Authenticated (share : Share) (events : List Event) : Prop :=
  .received (.usePassword share.password) ∈ events

instance (events : List Event) : Decidable (Authenticated share events) :=
  inferInstanceAs (Decidable (_ ∈ _))

/-- The gate at one step: what is disclosed is disclosed after the password arrived. -/
def Gated (W : WebCrypto) (share : Share) : System.Condition Connection Event :=
  fun past s event => ∀ o ∈ (step W share s event).2, o.discloses →
    Authenticated share (past ++ [event])

instance (past : List Event) (s : Connection) (event : Event) :
    Decidable (Gated W share past s event) :=
  inferInstanceAs (Decidable (∀ o ∈ _, _))

/-- The step is not a `Start` that is taken up in status `paused` with the password still
outstanding. -/
def PausedStartAuthenticated (share : Share) : System.Condition Connection Event :=
  fun past s event =>
    match event with
    | .received (.start fileName offset) =>
      s.status = .paused → StartAdmissible share s fileName offset → Authenticated share past
    | _ => True

instance (past : List Event) (s : Connection) (event : Event) :
    Decidable (PausedStartAuthenticated share past s event) := by
  unfold PausedStartAuthenticated
  split <;> infer_instance

/-! ### Locked connections -/

/-- A suspended report of a wrong password. -/
def Task.isPasswordAttempt : Task → Bool
  | .passwordAttempt _ => true
  | _ => false

/-- The invariant of a connection whose password is outstanding. -/
structure Locked (s : Connection) : Prop where
  not_ready : s.status ≠ .ready
  not_uploading : s.status ≠ .uploading
  tasks : ∀ task ∈ s.tasks, task.isPasswordAttempt

/-- The outcome of a stretch leaves the connection locked and discloses nothing. -/
structure StaysLocked (r : Connection × List Output) : Prop where
  locked : Locked r.1
  silent : ∀ o ∈ r.2, o.discloses = false

theorem silent_send (s : Connection) {message : Message} (h : message.discloses = false) :
    ∀ o ∈ s.send message, o.discloses = false := by
  intro o ho
  rw [s.mem_send ho]
  exact h

namespace Locked

variable {s : Connection}

theorem of_status {s' : Connection} (hs : Locked s) (htasks : s'.tasks = s.tasks)
    (hready : s'.status ≠ .ready) (huploading : s'.status ≠ .uploading) : Locked s' :=
  ⟨hready, huploading, htasks ▸ hs.tasks⟩

theorem of_eq {s' : Connection} (hs : Locked s) (htasks : s'.tasks = s.tasks)
    (hstatus : s'.status = s.status) : Locked s' :=
  hs.of_status htasks (hstatus ▸ hs.not_ready) (hstatus ▸ hs.not_uploading)

theorem close (hs : Locked s) : Locked s.close := by
  rw [Connection.close]
  split
  · exact hs.of_eq rfl rfl
  · exact hs.of_status rfl (fun h => Status.noConfusion h) fun h => Status.noConfusion h

theorem init : Locked (uploader W share).init := ⟨nofun, nofun, nofun⟩

theorem erase (hs : Locked s) (i : ℕ) : Locked { s with tasks := s.tasks.eraseIdx i } :=
  ⟨hs.not_ready, hs.not_uploading, fun task ht => hs.tasks task (List.mem_of_mem_eraseIdx ht)⟩

/-! ### One lemma per handler -/

theorem onRequestInfo (hs : Locked s) (hpw : share.password ≠ "") :
    StaysLocked (onRequestInfo share s) := by
  rw [Uploader.onRequestInfo, if_pos hpw]
  exact ⟨hs.of_status rfl nofun nofun, silent_send s rfl⟩

theorem lockOut (hs : Locked s) : StaysLocked (lockOut s) := by
  have hlocked : Locked { s with status := .lockedOut } := hs.of_status rfl nofun nofun
  exact ⟨hlocked.close, silent_send s rfl⟩

theorem rejectPassword (hs : Locked s) (n : ℕ) : StaysLocked (rejectPassword n s) :=
  ⟨hs.of_status rfl nofun nofun, silent_send s rfl⟩

theorem onUsePassword (hs : Locked s) {password : String} (h : password ≠ share.password) :
    StaysLocked (onUsePassword share password s) := by
  have hcompare : ¬secureCompare password share.password = true := by simpa using h
  rw [Uploader.onUsePassword]
  by_cases hattempts : s.sharedPasswordAttempts ≥ maxPasswordAttempts
  · rw [if_pos hattempts]
    exact hs.lockOut
  · rw [if_neg hattempts, if_neg hcompare]
    have hcounted : Locked { s with sharedPasswordAttempts := s.sharedPasswordAttempts + 1 } :=
      hs.of_eq rfl rfl
    split
    · refine ⟨⟨hs.not_ready, hs.not_uploading, fun task ht => ?_⟩, by simp [Output.discloses]⟩
      rcases List.mem_append.mp ht with hold | hnew
      · exact hs.tasks task hold
      · obtain rfl := List.mem_singleton.mp hnew
        rfl
    · exact hcounted.rejectPassword _

theorem resumePasswordAttempt (hs : Locked s) (n : ℕ) (settlement : Settlement) :
    StaysLocked (resumePasswordAttempt n settlement s) := by
  rw [Uploader.resumePasswordAttempt]
  split
  · exact hs.lockOut
  · exact hs.rejectPassword n

theorem onStart (hs : Locked s) {fileName : String} {offset : ℚ} (hopen : s.isClosed = false)
    (h : s.status = .paused → ¬StartAdmissible share s fileName offset) :
    StaysLocked (onStart W share fileName offset s) := by
  obtain ⟨hadm, loop, htakes⟩ | ⟨-, hrefuses⟩ := onStart_cases W share s fileName offset hopen
  · exact absurd hadm (h (htakes.status.resolve_left hs.not_ready))
  · refine ⟨?_, fun o ho => ?_⟩
    · rcases hrefuses.status with hstatus | hstatus
      · exact hs.of_eq hrefuses.tasks hstatus
      · exact hs.of_status hrefuses.tasks (by rw [hstatus]; nofun) (by rw [hstatus]; nofun)
    · obtain ⟨text, rfl⟩ := hrefuses.outputs o ho
      rfl

theorem onPause (hs : Locked s) : StaysLocked (onPause s) :=
  ⟨hs.of_status rfl nofun nofun, nofun⟩

theorem onDone (hs : Locked s) : StaysLocked (onDone s) := by
  unfold Uploader.onDone
  rw [if_pos ⟨hs.not_ready, hs.not_uploading⟩]
  exact ⟨hs, nofun⟩

/-- Waking a suspended computation: on a locked connection it reports a wrong password. -/
theorem resumeTask (hs : Locked s) {task : Task} (htask : task.isPasswordAttempt)
    (settlement : Settlement) : StaysLocked (resumeTask W share task settlement s) := by
  cases task with
  | passwordAttempt n => exact hs.resumePasswordAttempt n settlement
  | _ => cases htask

end Locked

/-! ### The gate along a run -/

/-- One step of a locked connection that is neither the right password nor a `Start` taken
up in status `paused`. -/
theorem Locked.step {s : Connection} (hs : Locked s) (hpw : share.password ≠ "")
    {event : Event} (hevent : event ≠ .received (.usePassword share.password))
    (hstart : ∀ fileName offset, event = .received (.start fileName offset) →
      s.status = .paused → ¬StartAdmissible share s fileName offset) :
    StaysLocked (step W share s event) := by
  have hsilent : StaysLocked (s, []) := ⟨hs, nofun⟩
  cases event with
  | opened =>
    refine ⟨?_, nofun⟩
    dsimp only [Uploader.step]
    split
    · exact hs
    · exact hs.of_eq rfl rfl
  | received message =>
    dsimp only [Uploader.step]
    split
    · exact hsilent
    next hclosed =>
      cases message with
      | requestInfo => exact hs.onRequestInfo hpw
      | usePassword password => exact hs.onUsePassword fun h => hevent (by rw [h])
      | start fileName offset =>
        exact hs.onStart (by simpa using hclosed) (hstart fileName offset rfl)
      | pause => exact hs.onPause
      | done => exact hs.onDone
      | ping => exact ⟨hs, silent_send s rfl⟩
      | _ => exact hsilent
  | malformed =>
    dsimp only [Uploader.step]
    split
    · exact hsilent
    · exact ⟨hs, silent_send s rfl⟩
  | resumed i settlement =>
    dsimp only [Uploader.step]
    split
    · exact hsilent
    next task htask =>
      exact (hs.erase i).resumeTask (hs.tasks task (List.mem_of_getElem? htask)) settlement
  | closedByPeer => exact ⟨hs.close, nofun⟩
  | handshakeTimeout =>
    refine ⟨?_, nofun⟩
    dsimp only [Uploader.step]
    split
    · exact hs.close
    · exact hs
  | idleTimeout => exact ⟨hs.close, nofun⟩
  | keepalive => exact ⟨hs, silent_send s rfl⟩
  | othersMoved attempts completed cache => exact ⟨hs.of_eq rfl rfl, nofun⟩

/-- Until the password arrives, a step that meets the condition discloses nothing and leaves
the connection locked. -/
theorem staysLocked_of_unauthenticated (W : WebCrypto) {s : Connection} (hs : Locked s)
    (hpw : share.password ≠ "") {past : List Event} {event : Event}
    (hcond : PausedStartAuthenticated share past s event)
    (hauth : ¬Authenticated share (past ++ [event])) :
    StaysLocked (step W share s event) := by
  have hevent : event ≠ .received (.usePassword share.password) := by
    rintro rfl
    exact hauth (by simp [Authenticated])
  have hpast : ¬Authenticated share past := fun h => hauth (List.mem_append_left _ h)
  refine hs.step hpw hevent fun fileName offset h hpaused hadm => ?_
  subst h
  exact hpast (hcond hpaused hadm)

/-- **The password gate.** When no `Start` is taken up in status `paused` before the password
arrived, nothing of a password-protected share is disclosed before the password arrived. -/
theorem gated_of_pausedStartsAuthenticated (W : WebCrypto) (share : Share)
    (hpw : share.password ≠ "") (events : List Event)
    (h : (uploader W share).Along (PausedStartAuthenticated share) events) :
    (uploader W share).Along (Gated W share) events := by
  refine (uploader W share).along_of_along
    (fun past s _ => Authenticated share past ∨ Locked s)
    (.inr Locked.init) (fun past event hinv hcond => ?_)
    (fun past event hinv hcond => ?_) h
  · by_cases hauth : Authenticated share (past ++ [event])
    · exact .inl hauth
    · have hs : Locked ((uploader W share).after past) :=
        hinv.resolve_left fun h => hauth (List.mem_append_left _ h)
      exact .inr (staysLocked_of_unauthenticated W hs hpw hcond hauth).locked
  · intro o ho hdiscloses
    by_contra hauth
    have hs : Locked ((uploader W share).after past) :=
      hinv.resolve_left fun h => hauth (List.mem_append_left _ h)
    have hsilent := (staysLocked_of_unauthenticated W hs hpw hcond hauth).silent o ho
    rw [hsilent] at hdiscloses
    exact absurd hdiscloses Bool.false_ne_true

/-- A sharer's page with one protected file, for runs of the model. -/
def protectedShare : Share :=
  { files := [{ name := "a", content := [1, 2, 3] }], password := "secret" }

/-- A downloader that authenticates, pauses and resumes keeps the gate. -/
theorem gated_of_pausedStartsAuthenticated_resume :
    (uploader plainCrypto protectedShare).Along (Gated plainCrypto protectedShare)
      [.opened, .received .requestInfo, .received (.usePassword "secret"),
        .received (.start "a" 0), .resumed 0 {}, .received .pause, .resumed 0 {},
        .received (.start "a" 0), .resumed 0 {}, .resumed 0 {}] :=
  gated_of_pausedStartsAuthenticated _ _ (by decide) _ (by decide)

/-- Pausing before authenticating unlocks `Start`: the downloader gets the file without the
password. -/
theorem startUnlocks_leaks :
    ¬∀ (W : WebCrypto) (share : Share) (events : List Event), share.password ≠ "" →
      (uploader W share).Along (Gated W share) events := by
  intro h
  have hgated := h plainCrypto protectedShare
    [.opened, .received .requestInfo, .received .pause, .received (.start "a" 0),
      .resumed 0 {}, .resumed 0 {}] (by decide)
  revert hgated
  decide

end Uploader

end Rapidly.FileSharing
