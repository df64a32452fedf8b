import Rapidly.FileSharing.Uploader.Handler

/-!
# A `Start` that is not served

A `Start` is turned away when another file is being sent, when there is no such file or offset,
or when the connection has not got that far; and it comes to nothing when no key can be derived
for its file. None of this should be seen by the next `Start`. But the handler records the active
file before it looks at the offset, and clears the pause flag before it looks at the status, and
takes neither back.

* `leavesAsItWas_iff` is the exact condition: what the handler has set by then was set already.
* `unknownFile_blocks` is a mistyped name after which no file can be requested any more.
-/

namespace Rapidly.FileSharing.Uploader

open Connection Transition

section RejectedStart

variable (W : WebCrypto) (share : Share) (s : Connection) (fileName : String) (offset : ℚ)

/-- Another file is being sent. -/
def OtherActive : Prop := s.activeFileName.any fun active => active ≠ "" ∧ active ≠ fileName

instance : Decidable (OtherActive s fileName) := inferInstanceAs (Decidable (_ = true))

/-- No key can be derived for the file, so that its send loop throws. -/
def KeyFails : Prop :=
  ∃ key ∈ share.encryptionKey, W.deriveFileKey key fileName
    (share.files.findIdx fun f => getFileName f = fileName) (share.hkdfSalt.getD []) = none

instance : Decidable (KeyFails W share fileName) :=
  inferInstanceAs (Decidable (∃ key ∈ share.encryptionKey, _))

/-- The connection is there, the share has downloads left, and the `Start` is not served. -/
def Rejected : Prop :=
  s.isClosed = false ∧ ¬(share.maxDownloads > 0 ∧ s.completedCount ≥ share.maxDownloads) ∧
    (OtherActive s fileName ∨ validateOffset share.files fileName offset = none ∨
      (s.status ≠ .ready ∧ s.status ≠ .paused) ∨ KeyFails W share fileName)

instance : Decidable (Rejected W share s fileName offset) := inferInstanceAs (Decidable (_ ∧ _))

/-- The variables that a `Start` touches are what they were, and the next one is answered as it
would have been. -/
structure LeavesAsItWas (s' : Connection) : Prop where
  activeFileName : s'.activeFileName = s.activeFileName
  sendingPaused : s'.sendingPaused = s.sendingPaused
  status : s'.status = s.status
  next : ∀ fileName offset,
    onStart W share fileName offset s' = onStart W share fileName offset s

/-- The connection is turned away before anything is set, or what is set by then was so before. -/
def SetBefore : Prop :=
  OtherActive s fileName ∨ s.activeFileName = some fileName ∧
    (validateOffset share.files fileName offset = none ∨
      (s.status ≠ .ready ∧ s.status ≠ .paused) ∧ s.sendingPaused = false)

instance : Decidable (SetBefore share s fileName offset) := inferInstanceAs (Decidable (_ ∨ _))

variable {W share s fileName offset}

theorem leavesAsItWas_refl : LeavesAsItWas W share s s := ⟨rfl, rfl, rfl, fun _ _ => rfl⟩

/-- **A `Start` that is not served leaves the connection as it was** exactly if it is turned away
because of another file, or what the handler has set by then was set already. -/
theorem leavesAsItWas_iff (h : Rejected W share s fileName offset) :
    LeavesAsItWas W share s (step W share s (.received (.start fileName offset))).1 ↔
      SetBefore share s fileName offset := by
  obtain ⟨hopen, hlimit, hreason⟩ := h
  have hstep : step W share s (.received (.start fileName offset)) =
      onStart W share fileName offset s := if_neg (by rw [hopen]; exact Bool.false_ne_true)
  rw [hstep, onStart, if_neg hlimit]
  by_cases hother : OtherActive s fileName
  · rw [OtherActive] at hother
    rw [if_pos hother]
    exact iff_of_true leavesAsItWas_refl (.inl hother)
  have hnone := hother
  rw [OtherActive] at hnone
  rw [if_neg hnone]
  dsimp only
  cases hfile : validateOffset share.files fileName offset with
  | none =>
    dsimp only
    constructor
    · intro hleft
      exact .inr ⟨hleft.activeFileName.symm, .inl hfile⟩
    · intro hbefore
      obtain ⟨hactive, -⟩ := hbefore.resolve_left hother
      have hsame : { s with activeFileName := some fileName } = s := by rw [← hactive]
      rw [hsame]
      exact leavesAsItWas_refl
  | some file =>
    dsimp only
    have hsome : validateOffset share.files fileName offset ≠ none := by simp [hfile]
    by_cases hstatus : s.status ≠ .ready ∧ s.status ≠ .paused
    · rw [if_pos hstatus]
      constructor
      · intro hleft
        have hpaused : s.sendingPaused = false := hleft.sendingPaused.symm
        exact .inr ⟨hleft.activeFileName.symm, .inr ⟨hstatus, hpaused⟩⟩
      · intro hbefore
        obtain ⟨hactive, hrest⟩ := hbefore.resolve_left hother
        have hpaused := (hrest.resolve_left hsome).2
        have hsame : { s with activeFileName := some fileName, sendingPaused := false } = s := by
          rw [← hactive, ← hpaused]
        rw [hsame]
        exact leavesAsItWas_refl
    · -- the key fails, but the file is being sent by then
      rw [if_neg hstatus]
      refine iff_of_false (fun hleft => ?_) fun hbefore => ?_
      · have huploading : Status.uploading = s.status := hleft.status
        exact hstatus (by rw [← huploading]; decide)
      · obtain ⟨-, hrest⟩ := hbefore.resolve_left hother
        exact hstatus (hrest.resolve_left hsome).1

end RejectedStart

/-- A share of one file. -/
def oneFile : Share := { files := [{ name := "a", content := [1, 2, 3] }], password := "" }

/-- A connection over which the file list was asked for. -/
def askedForFiles : Connection :=
  (uploader plainCrypto oneFile).after [.opened, .received .requestInfo]

/-- The file is being sent. -/
def sendingFile : Connection :=
  (step plainCrypto oneFile askedForFiles (.received (.start "a" 0))).1

/-- The file that is being sent is asked for again, from behind its end. -/
theorem sameFile_leavesAsItWas :
    LeavesAsItWas plainCrypto oneFile sendingFile
      (step plainCrypto oneFile sendingFile (.received (.start "a" 7))).1 :=
  (leavesAsItWas_iff (by decide)).mpr (by decide)

/-- After a `Start` for a file that is not in the share, no `Start` is taken up any more. -/
theorem unknownFile_blocks :
    ¬∀ (W : WebCrypto) (share : Share) (s : Connection) (fileName : String) (offset : ℚ),
      Rejected W share s fileName offset →
        LeavesAsItWas W share s (step W share s (.received (.start fileName offset))).1 := by
  intro h
  have hleft := (h plainCrypto oneFile askedForFiles "b" 0 (by decide)).activeFileName
  revert hleft
  decide

end Rapidly.FileSharing.Uploader
