import Rapidly.Catalog.Files.Magic
import Rapidly.Relational.ReadCommitted
import Rapidly.Transition.Tasks

/-!
# Scanning files

`scan_file` and `scan_all_pending_files` of `integrations/clamav/workers.py` beside
`complete_upload` and `delete` of `catalog/file/actions.py`, any number of each, one statement or
request a step: the object storage is no part of the transactions. A scan job takes the lock of
the file when it marks it as scanning and holds it until it ends.

* `operations` is the system, for any files in any scan state, and any content of the storage.
* `complete_iff` says in which runs every file is scanned, only a scan that passes makes a file
  clean, and no file is served or selected that has been found infected or of the wrong type.
-/

namespace Rapidly.Catalog

open Relational Transition

open Magic (Data validateMagicBytes)

namespace Scanning

/-- `FileScanStatus`. -/
inductive ScanStatus where
  | pending
  | scanning
  | clean
  | infected
  | mimeMismatch
  | error
  | skipped
deriving DecidableEq

/-- A final verdict. -/
def ScanStatus.isFinal : ScanStatus → Bool
  | .clean | .infected | .mimeMismatch | .skipped => true
  | .pending | .scanning | .error => false

/-- The columns of a file that change. -/
structure File where
  isUploaded : Bool := false
  isEnabled : Bool := true
  scanStatus : Option ScanStatus := none
  scanResult : Option String := none
  /-- `deleted_at` is not null. -/
  isDeleted : Bool := false
deriving DecidableEq

/-- The columns that do not. -/
structure Declared where
  size : ℕ
  mimeType : String
deriving DecidableEq

structure Settings where
  clamavEnabled : Bool
  clamavMaxScanSizeBytes : ℕ
  /-- `CLAMAV_QUARANTINE_BUCKET` is set. -/
  quarantine : Bool

/-- The rows of the files, and the objects at their paths. -/
structure State where
  files : List (Versioned File)
  stored : ℕ → Option Data

/-- What a file is disabled for. -/
inductive Threat where
  | infected
  | mimeMismatch
deriving DecidableEq

def Threat.status : Threat → ScanStatus
  | .infected => .infected
  | .mimeMismatch => .mimeMismatch

/-- What an operation has changed and not flushed. Only the columns that are other than they were
loaded are written: the status of the upload that is completed was `loaded`, and `result` is the new
`scan_result`, where it is a new one. -/
inductive Update where
  | completed (loaded : Option ScanStatus)
  | scanning
  | concluded (status : ScanStatus) (result : Option (Option String)) (disables : Bool)
  | deleted
deriving DecidableEq

def Update.apply : Update → File → File
  | .completed loaded, file =>
    { file with
      isUploaded := true
      scanStatus := if loaded = some .pending then file.scanStatus else some .pending }
  | .scanning, file => { file with scanStatus := some .scanning }
  | .concluded status result disables, file =>
    { file with
      scanStatus := some status
      scanResult := result.getD file.scanResult
      isEnabled := file.isEnabled && !disables }
  | .deleted, file => { file with isDeleted := true }

/-- The file has been found infected or of the wrong type. -/
def Update.disables : Update → Bool
  | .concluded _ _ disables => disables
  | _ => false

def Update.isClean : Update → Bool
  | .concluded .clean _ _ => true
  | _ => false

/-- `complete_upload` dispatches a scan. -/
def Update.dispatches : Update → Bool
  | .completed _ => true
  | _ => false

/-- What `scan_bytes` returns or raises. -/
inductive ScanAnswer where
  | clean
  | infected (threatName : Option String)
  | connectionError (message : String)
  | scanError (message : String)
  | unexpected (typeName : String)
deriving DecidableEq

/-- What `quarantine_file` returns or raises; the object is gone if it has been quarantined. -/
inductive Quarantine where
  | done
  | refused
  | raised (typeName : String)
deriving DecidableEq

/-- An operation. -/
inductive Task where
  /-- `complete_upload` completes the upload at the storage, at the path of the request. -/
  | completing (file path : ℕ) (data : Data)
  /-- `delete` loads the file. -/
  | deleting (file : ℕ)
  /-- `scan_file` loads the file, marks it, reads its content, has it scanned, and puts it into
  quarantine. -/
  | loading (file : ℕ)
  | marking (file : ℕ) (loaded : File)
  | reading (file : ℕ) (loaded : File)
  | scanning (file : ℕ) (loaded : File) (data : Data)
  | quarantining (file : ℕ) (loaded : File) (threat : Threat) (result : Option String)
  /-- `scan_all_pending_files` selects the files. -/
  | catching
  /-- The session is about to flush, and then to commit. -/
  | flushing (file : ℕ) (update : Update)
  | committing (file : ℕ) (update : Update)
  | ended
  | failed
deriving DecidableEq

/-- How the next step of an operation turns out. -/
inductive Answer where
  | executed
  | scanned (answer : ScanAnswer)
  | quarantined (answer : Quarantine)
  /-- The storage raises an exception that the job catches. -/
  | caught (typeName : String)
  /-- The operation dies. -/
  | raised
deriving DecidableEq

inductive Event where
  /-- `generate_presigned_upload`. -/
  | create
  | complete (file path : ℕ) (data : Data)
  | delete (file : ℕ)
  | scan (file : ℕ)
  | scanAllPending
  /-- The object is fetched, by its public URL or by one of `generate_download_url`. -/
  | download (file : ℕ)
  /-- `get_selectable_share_media_file`. -/
  | select (file : ℕ)
deriving DecidableEq

inductive Obs where
  /-- `dispatch_task` of a scan. -/
  | dispatched (file : ℕ)
  /-- A job has read the content of a file, and what the scanner has said of it. -/
  | read (job file : ℕ) (data : Data)
  | scanned (job file : ℕ) (data : Data) (answer : ScanAnswer)
  /-- It is committed that the file is infected or of the wrong type. -/
  | found (file : ℕ)
  | served (file : ℕ)
  | selected (file : ℕ)
deriving DecidableEq

/-- The committed row of a file. -/
def State.row (s : State) (file : ℕ) : Option File :=
  (s.files[file]?).map Versioned.committed

/-- `get_by_id`. -/
def State.getById (s : State) (file : ℕ) : Option File :=
  (s.row file).filter fun f => f.isDeleted = false

/-- `get_pending_scan`. -/
def State.getPendingScan (s : State) : List ℕ :=
  (s.files.zipIdx.filter fun (r, _) =>
    r.committed.isDeleted = false ∧ r.committed.isUploaded = true ∧
      (r.committed.scanStatus = none ∨ r.committed.scanStatus = some .pending)).map Prod.snd

def State.write (s : State) (i file : ℕ) (update : Update) : State :=
  { s with files := s.files.modify file fun r => r.write i (update.apply r.latest) }

def State.commit (s : State) (i : ℕ) : State := { s with files := s.files.map (·.commit i) }

def State.rollback (s : State) (i : ℕ) : State := { s with files := s.files.map (·.rollback i) }

def State.put (s : State) (file : ℕ) (data : Option Data) : State :=
  { s with stored := fun k => if k = file then data else s.stored k }

/-- The columns that are set in the end. -/
def conclude (file : ℕ) (loaded : File) (status : ScanStatus) (result : Option String)
    (disables : Bool) : Task :=
  .flushing file
    (.concluded status (if result = loaded.scanResult then none else some result) disables)

/-- `_handle_infected_file`, and what `_handle_clean_file` does about a mismatch. -/
def disable (settings : Settings) (file : ℕ) (loaded : File) (threat : Threat)
    (result : Option String) : Task :=
  if settings.quarantine then .quarantining file loaded threat result
  else conclude file loaded threat.status result true

/-- What follows from the answer of the scanner. -/
def handleAnswer (settings : Settings) (mimeType : String) (file : ℕ) (loaded : File)
    (data : Data) : ScanAnswer → Task
  | .infected threatName => disable settings file loaded .infected threatName
  | .clean =>
    match validateMagicBytes data mimeType with
    | .ok _ => conclude file loaded .clean none false
    | .error detected =>
      disable settings file loaded .mimeMismatch
        (some ("MIME mismatch: declared " ++ mimeType ++ ", detected " ++
          detected.getD "unknown"))
  | .connectionError message =>
    conclude file loaded .error (some ("Connection error: " ++ message)) false
  | .scanError message => conclude file loaded .error (some ("Scan error: " ++ message)) false
  | .unexpected typeName =>
    conclude file loaded .error (some ("Unexpected error: " ++ typeName)) false

section

variable (settings : Settings) (declared : ℕ → Declared)

/-- What `scan_file` does with the file that it has loaded. -/
def begin (file : ℕ) (loaded : File) : Task :=
  if loaded.scanStatus = some .pending ∨ loaded.scanStatus = some .error then
    if settings.clamavEnabled then .marking file loaded
    else .flushing file (.concluded .skipped none false)
  -- already scanned
  else .ended

/-- One step of an operation. The `UPDATE` waits while another transaction holds the row. -/
def Task.advance (s : State) (i : ℕ) : Answer → Task → State × Task × List Obs
  | .executed, .completing file path data =>
    match s.getById file with
    | none => (s, .failed, [])
    | some loaded => (s.put path (some data), .flushing file (.completed loaded.scanStatus), [])
  | .executed, .deleting file =>
    match s.getById file with
    | none => (s, .failed, [])
    | some _ => (s.put file none, .flushing file .deleted, [])
  | .executed, .loading file =>
    match s.getById file with
    | none => (s, .ended, [])
    | some loaded => (s, begin settings file loaded, [])
  | .executed, .marking file loaded =>
    if ∃ r ∈ s.files[file]?, r.LockedFor i then (s, .marking file loaded, [])
    else (s.write i file .scanning, .reading file loaded, [])
  | .executed, .reading file loaded =>
    if settings.clamavMaxScanSizeBytes < (declared file).size then
      (s, conclude file loaded .skipped (some "File exceeds maximum scan size") false, [])
    else
      match s.stored file with
      | none => (s, conclude file loaded .error (some "Unexpected error: S3FileError") false, [])
      | some data => (s, .scanning file loaded data, [.read i file data])
  | .caught typeName, .reading file loaded =>
    (s, conclude file loaded .error (some ("Unexpected error: " ++ typeName)) false, [])
  | .scanned answer, .scanning file loaded data =>
    (s, handleAnswer settings (declared file).mimeType file loaded data answer,
      [.scanned i file data answer])
  | .quarantined .done, .quarantining file loaded threat result =>
    (s.put file none, conclude file loaded threat.status result true, [])
  | .quarantined .refused, .quarantining file loaded threat result =>
    (s, conclude file loaded threat.status result true, [])
  | .quarantined (.raised typeName), .quarantining file loaded _ _ =>
    -- the flag is cleared before the exception is caught
    (s, conclude file loaded .error (some ("Unexpected error: " ++ typeName)) true, [])
  | .executed, .catching =>
    if settings.clamavEnabled then (s, .ended, s.getPendingScan.map .dispatched)
    else (s, .ended, [])
  | .executed, .flushing file update =>
    if ∃ r ∈ s.files[file]?, r.LockedFor i then (s, .flushing file update, [])
    else if file < s.files.length then (s.write i file update, .committing file update, [])
    else (s.rollback i, .failed, [])
  | .executed, .committing file update =>
    (s.commit i, .ended,
      (if update.dispatches then [.dispatched file] else []) ++
        if update.disables then [.found file] else [])
  | .raised, .ended => (s, .ended, [])
  | .raised, _ => (s.rollback i, .failed, [])
  | _, t => (s, t, [])

/-- The operations, for any files in the beginning and any content of the storage. -/
def operations (files : List File) (stored : ℕ → Option Data) :
    Tasks State Task Event Answer Obs where
  init := { files := files.map fun file => { committed := file }, stored }
  arrive s _
    | .create => ({ s with files := s.files ++ [{ committed := {} }] }, [], [])
    | .complete file path data => (s, [.completing file path data], [])
    | .delete file => (s, [.deleting file], [])
    | .scan file => (s, [.loading file], [])
    | .scanAllPending => (s, [.catching], [])
    | .download file => (s, [], if (s.stored file).isSome then [.served file] else [])
    | .select file =>
      (s, [], if ∃ f ∈ s.row file, f.isUploaded = true ∧ f.isEnabled = true ∧ f.isDeleted = false
        then [.selected file] else [])
  advance s i := Task.advance settings declared s i

/-! ### Completeness and stickiness -/

variable (files : List File) (stored : ℕ → Option Data)

/-- An uploaded file without a final verdict. -/
def File.AwaitsScan (file : File) : Prop :=
  file.isUploaded = true ∧ file.isDeleted = false ∧ ∀ status ∈ file.scanStatus, ¬status.isFinal

/-- The file has been found infected or of the wrong type, before the run or in it. -/
def Found (log : List Obs) (file : ℕ) : Prop :=
  .found file ∈ log ∨
    ∃ f ∈ files[file]?, f.isEnabled = false ∧
      (f.scanStatus = some .infected ∨ f.scanStatus = some .mimeMismatch)

/-- A job has read the file and its content has passed both checks. -/
def Passed (log : List Obs) (job file : ℕ) : Prop :=
  ∃ data, .read job file data ∈ log ∧ .scanned job file data .clean ∈ log ∧
    validateMagicBytes data (declared file).mimeType = .ok ()

/-- Scanning is complete and sticky at a step. -/
structure Complete (past : List (Turn Event Answer)) (p : Pool State Task)
    (l : Turn Event Answer) : Prop where
  /-- The catch-up job dispatches a scan for every file without a final verdict. -/
  dispatched : p.resumed l = some (.executed, .catching) → ∀ k v, p.shared.row k = some v →
    v.AwaitsScan → .dispatched k ∈ ((operations settings declared files stored).step p l).2
  /-- A scan of such a file does not end where it begins. -/
  performed : ∀ k v, p.resumed l = some (.executed, .loading k) → p.shared.row k = some v →
    v.AwaitsScan →
    ((operations settings declared files stored).step p l).1.resumed l ≠ some (.executed, .ended)
  /-- A file gets clean by a job for which it has passed both checks. -/
  passed : ∀ k v v', p.shared.row k = some v → v.scanStatus ≠ some .clean →
    ((operations settings declared files stored).step p l).1.shared.row k = some v' →
    v'.scanStatus = some .clean →
    ∃ i, l = .resumed i .executed ∧
      Passed declared ((operations settings declared files stored).system.log past) i k
  /-- A file that has been found is neither served nor selected. -/
  withheld : ∀ k, Found files ((operations settings declared files stored).system.log past) k →
    .served k ∉ ((operations settings declared files stored).step p l).2 ∧
      .selected k ∉ ((operations settings declared files stored).step p l).2

/-- Each job finds the files in a state that it covers, and what has been found is gone from the
storage. -/
structure Covered (past : List (Turn Event Answer)) (p : Pool State Task)
    (l : Turn Event Answer) : Prop where
  catching : p.resumed l = some (.executed, .catching) → ∀ k v, p.shared.row k = some v →
    v.AwaitsScan →
    settings.clamavEnabled = true ∧ (v.scanStatus = none ∨ v.scanStatus = some .pending)
  loading : ∀ k v, p.resumed l = some (.executed, .loading k) → p.shared.row k = some v →
    v.AwaitsScan → v.scanStatus = some .pending ∨ v.scanStatus = some .error
  download : ∀ k, l = .event (.download k) →
    Found files ((operations settings declared files stored).system.log past) k →
    p.shared.stored k = none

/-! ### The steps -/

variable {settings declared files stored}
variable {s : State} {i : ℕ} {answer : Answer} {t : Task} {log obs : List Obs}

/-- A task that makes no assertion. -/
def Task.Plain : Task → Prop
  | .scanning .. | .committing .. => False
  | .flushing _ update => update.isClean = false
  | _ => True

variable {file k : ℕ} {loaded f v : File} {u : Update}

theorem plain_conclude {status : ScanStatus} {result : Option String} {disables : Bool}
    (h : status ≠ .clean) : (conclude file loaded status result disables).Plain := by
  cases status <;> simp [conclude, Task.Plain, Update.isClean] at h ⊢

theorem plain_disable {threat : Threat} {result : Option String} :
    (disable settings file loaded threat result).Plain := by
  unfold disable
  split
  · trivial
  · exact plain_conclude (by cases threat <;> simp [Threat.status])

theorem handleAnswer_cases (settings : Settings) (mimeType : String) (file : ℕ) (loaded : File)
    (data : Data) (a : ScanAnswer) :
    (handleAnswer settings mimeType file loaded data a).Plain ∨
      a = .clean ∧ validateMagicBytes data mimeType = .ok () ∧
        handleAnswer settings mimeType file loaded data a =
          conclude file loaded .clean none false := by
  unfold handleAnswer
  split
  · exact .inl plain_disable
  · split
    next hvalid => exact .inr ⟨rfl, hvalid, rfl⟩
    · exact .inl plain_disable
  all_goals exact .inl (plain_conclude (by simp))

theorem begin_eq_ended :
    begin settings file loaded = .ended ↔
      ¬(loaded.scanStatus = some .pending ∨ loaded.scanStatus = some .error) := by
  unfold begin
  constructor
  · intro h hstatus
    rw [if_pos hstatus] at h
    split at h <;> exact absurd h (by simp)
  · exact fun h => if_neg h

theorem plain_begin : (begin settings file loaded).Plain := by
  unfold begin
  split
  · split
    · trivial
    · rfl
  · trivial

/-- What one step of an operation can do. -/
inductive Advanced (declared : ℕ → Declared) (s : State) (i : ℕ) :
    Answer → Task → State × Task × List Obs → Prop
  | went (answer : Answer) (t : Task) (stored : ℕ → Option Data) {t' : Task} {obs : List Obs}
    (hplain : t'.Plain) (hobs : ∀ k, .found k ∉ obs) :
    Advanced declared s i answer t ({ s with stored }, t', obs)
  | stayed (answer : Answer) (t : Task) : Advanced declared s i answer t (s, t, [])
  | read (file : ℕ) (loaded : File) (data : Data) :
    Advanced declared s i .executed (.reading file loaded)
      (s, .scanning file loaded data, [.read i file data])
  | passed (file : ℕ) (loaded : File) (data : Data)
    (hvalid : validateMagicBytes data (declared file).mimeType = .ok ()) :
    Advanced declared s i (.scanned .clean) (.scanning file loaded data)
      (s, conclude file loaded .clean none false, [.scanned i file data .clean])
  | marked (file : ℕ) (loaded : File) (hfree : ¬∃ r ∈ s.files[file]?, r.LockedFor i) :
    Advanced declared s i .executed (.marking file loaded)
      (s.write i file .scanning, .reading file loaded, [])
  | flushed (file : ℕ) (update : Update) (hfree : ¬∃ r ∈ s.files[file]?, r.LockedFor i)
    (hlt : file < s.files.length) :
    Advanced declared s i .executed (.flushing file update)
      (s.write i file update, .committing file update, [])
  | committed (file : ℕ) (update : Update) {obs : List Obs}
    (hobs : ∀ k, .found k ∈ obs → k = file ∧ update.disables = true) :
    Advanced declared s i .executed (.committing file update) (s.commit i, .ended, obs)
  | failed (answer : Answer) (t : Task) : Advanced declared s i answer t (s.rollback i, .failed, [])

theorem Task.advanced :
    Advanced declared s i answer t (t.advance settings declared s i answer) := by
  fun_cases Task.advance settings declared s i answer t
  case case6 => exact .went _ _ s.stored plain_begin (by simp)
  case case8 hfree => exact .marked _ _ hfree
  case case9 => exact .went _ _ s.stored (plain_conclude (by simp)) (by simp)
  case case10 => exact .went _ _ s.stored (plain_conclude (by simp)) (by simp)
  case case11 => exact .read ..
  case case12 => exact .went _ _ s.stored (plain_conclude (by simp)) (by simp)
  case case13 a file loaded data =>
    rcases handleAnswer_cases settings (declared file).mimeType file loaded data a with
      hplain | ⟨rfl, hvalid, heq⟩
    · exact .went _ _ s.stored hplain (by simp)
    · rw [heq]
      exact .passed file loaded data hvalid
  case case14 threat _ =>
    exact .went _ _ _ (plain_conclude (by cases threat <;> simp [Threat.status])) (by simp)
  case case15 threat _ =>
    exact .went _ _ s.stored (plain_conclude (by cases threat <;> simp [Threat.status])) (by simp)
  case case16 => exact .went _ _ s.stored (plain_conclude (by simp)) (by simp)
  case case20 hfree hlt => exact .flushed _ _ hfree hlt
  case case21 => exact .failed ..
  case case22 update =>
    refine .committed _ update fun k hk => ?_
    rcases List.mem_append.mp hk with hd | hf
    · split at hd <;> simp at hd
    · split at hf
      next hdisables => exact ⟨by simpa using hf, hdisables⟩
      · simp at hf
  case case24 => exact .failed ..
  case case7 => exact .stayed ..
  case case19 => exact .stayed ..
  case case23 => exact .stayed ..
  case case25 => exact .stayed ..
  -- the other steps change the storage at most
  all_goals exact .went _ _ _ (by trivial) (by simp)

/-! ### The invariants -/

/-- What has been found is disabled, also when the transactions commit, and a status clean that has
not been committed is that of a job for which the file has passed. -/
structure Safe (declared : ℕ → Declared) (files : List File) (log : List Obs) (s : State) :
    Prop where
  found : ∀ k, Found files log k →
    ∃ r, s.files[k]? = some r ∧ r.Stands fun f => f.isEnabled = false
  clean : ∀ (k : ℕ) (r : Versioned File), s.files[k]? = some r → ∀ w ∈ r.pending,
    w.2.scanStatus = some .clean → r.committed.scanStatus = some .clean ∨ Passed declared log w.1 k

/-- The assertion about a task. -/
def Asserts (declared : ℕ → Declared) (log : List Obs) (s : State) (i : ℕ) : Task → Prop
  | .scanning file _ data => .read i file data ∈ log
  | .flushing file update => update.isClean = true → Passed declared log i file
  | .committing file update => update.disables = true →
    ∃ r v, s.files[file]? = some r ∧ r.pending = some (i, v) ∧ v.isEnabled = false
  | _ => True

theorem Task.Plain.asserts (h : t.Plain) : Asserts declared log s i t := by
  cases t with
  | scanning => exact h.elim
  | committing => exact h.elim
  | flushing file update =>
    intro hclean
    rw [Task.Plain, hclean] at h
    exact absurd h (by simp)
  | _ => trivial

theorem Found.of_append (h : Found files (log ++ obs) k) (hobs : .found k ∉ obs) :
    Found files log k :=
  h.imp_left fun hmem => (List.mem_append.mp hmem).resolve_right hobs

theorem Passed.append (h : Passed declared log i k) : Passed declared (log ++ obs) i k :=
  let ⟨data, hread, hscanned, hvalid⟩ := h
  ⟨data, List.mem_append_left _ hread, List.mem_append_left _ hscanned, hvalid⟩

theorem Update.isEnabled_apply (h : f.isEnabled = false) : (u.apply f).isEnabled = false := by
  cases u <;> simp [Update.apply, h]

theorem Update.isEnabled_apply_of_disables (h : u.disables = true) :
    (u.apply f).isEnabled = false := by
  cases u <;> simp_all [Update.apply, Update.disables]

/-- A file that is clean after an update was clean before, or has been found clean. -/
theorem Update.clean_of_apply (h : (u.apply f).scanStatus = some .clean) :
    u.isClean = true ∨ f.scanStatus = some .clean := by
  cases u with
  | completed loaded =>
    by_cases hloaded : loaded = some .pending
    · simp only [Update.apply, if_pos hloaded] at h
      exact .inr h
    · simp [Update.apply, hloaded] at h
  | scanning => simp [Update.apply] at h
  | concluded status =>
    obtain rfl : status = .clean := by simpa [Update.apply] using h
    exact .inl rfl
  | deleted => exact .inr h

theorem Safe.append (h : Safe declared files log s) (hobs : ∀ k, .found k ∉ obs) :
    Safe declared files (log ++ obs) s where
  found k hk := h.found k (hk.of_append (hobs k))
  clean k r hr w hw hclean := (h.clean k r hr w hw hclean).imp_right Passed.append

theorem Safe.with_stored (h : Safe declared files log s) (stored : ℕ → Option Data) :
    Safe declared files log { s with stored } := ⟨h.found, h.clean⟩

theorem Safe.write (h : Safe declared files log s) (hfree : ¬∃ r ∈ s.files[k]?, r.LockedFor i)
    (hu : u.isClean = true → Passed declared log i k) :
    Safe declared files log (s.write i k u) where
  found j hj := by
    obtain ⟨r, hr, hstands⟩ := h.found j hj
    by_cases hjk : j = k
    · subst hjk
      exact ⟨_, getElem?_modify_self hr, hstands.write (Update.isEnabled_apply hstands.2)⟩
    · exact ⟨r, (getElem?_modify_of_ne hjk).trans hr, hstands⟩
  clean j r' hr' w hw hclean := by
    rcases getElem?_modify_cases hr' with ⟨r, hr, rfl, rfl⟩ | ⟨hold, -⟩
    · obtain rfl := Option.some.inj hw
      rcases Update.clean_of_apply hclean with hc | hlatest
      · exact .inr (hu hc)
      -- the version that was the latest one is committed, or the transaction's own
      · rcases r.pending_cases i with ⟨v, hv⟩ | hnot
        · rw [Versioned.latest_eq_of_pending hv] at hlatest
          exact h.clean j r hr (i, v) hv hlatest
        · have hpending := Versioned.pending_eq_none (fun hl => hfree ⟨r, hr, hl⟩) hnot
          rw [Versioned.latest_of_pending hpending] at hlatest
          exact .inl hlatest
    · exact h.clean j r' hold w hw hclean

/-- The end of a transaction, which adds nothing to what has been found but what it disables. -/
theorem Safe.commit (h : Safe declared files log s)
    (hu : Asserts declared log s i (.committing k u))
    (hobs : ∀ j, .found j ∈ obs → j = k ∧ u.disables = true) :
    Safe declared files (log ++ obs) (s.commit i) where
  found j hj := by
    by_cases hnew : .found j ∈ obs
    · obtain ⟨rfl, hdisables⟩ := hobs j hnew
      obtain ⟨r, v, hr, hv, hdisabled⟩ := hu hdisables
      refine ⟨_, getElem?_map_of_eq hr _, ?_⟩
      rw [Versioned.commit_eq hv]
      exact ⟨hdisabled, hdisabled⟩
    · obtain ⟨r, hr, hstands⟩ := h.found j (hj.of_append hnew)
      exact ⟨_, getElem?_map_of_eq hr _, hstands.commit⟩
  clean j r' hr' w hw hclean := by
    obtain ⟨r, hr, rfl⟩ := getElem?_map_cases hr'
    rcases r.pending_cases i with ⟨v, hv⟩ | hnot
    · rw [Versioned.commit_eq hv] at hw
      exact absurd hw (by simp)
    · rw [Versioned.commit_of_pending hnot] at hw ⊢
      exact (h.clean j r hr w hw hclean).imp_right Passed.append

theorem Safe.rollback (h : Safe declared files log s) : Safe declared files log (s.rollback i) where
  found j hj := by
    obtain ⟨r, hr, hstands⟩ := h.found j hj
    exact ⟨_, getElem?_map_of_eq hr _, hstands.rollback⟩
  clean j r' hr' w hw hclean := by
    obtain ⟨r, hr, rfl⟩ := getElem?_map_cases hr'
    rw [Versioned.committed_rollback]
    exact h.clean j r hr w (Versioned.pending_of_rollback hw) hclean

variable {r : State × Task × List Obs}

theorem Safe.advanced (h : Safe declared files log s) (ht : Asserts declared log s i t)
    (hr : Advanced declared s i answer t r) : Safe declared files (log ++ r.2.2) r.1 := by
  have hempty : ∀ k, Obs.found k ∉ ([] : List Obs) := by simp
  cases hr with
  | went _ _ stored _ hobs => exact (h.append hobs).with_stored stored
  | stayed => exact h.append hempty
  | read => exact h.append (by simp)
  | passed => exact h.append (by simp)
  | marked file loaded hfree => exact (h.write hfree (by simp [Update.isClean])).append hempty
  | flushed file update hfree => exact (h.write hfree ht).append hempty
  | committed file update hobs => exact h.commit ht hobs
  | failed => exact h.rollback.append hempty

theorem Asserts.advanced (ht : Asserts declared log s i t)
    (hr : Advanced declared s i answer t r) : Asserts declared (log ++ r.2.2) r.1 i r.2.1 := by
  cases hr with
  | went _ _ _ hplain _ => exact hplain.asserts
  | stayed => rwa [List.append_nil]
  | read file loaded data => exact List.mem_append_right _ (List.mem_singleton_self _)
  | passed file loaded data hvalid =>
    exact fun _ => ⟨data, List.mem_append_left _ ht, by simp, hvalid⟩
  | marked => trivial
  | flushed file update _ hlt =>
    intro hdisables
    exact ⟨_, _, getElem?_modify_self (List.getElem?_eq_getElem hlt), rfl,
      Update.isEnabled_apply_of_disables hdisables⟩
  | committed => trivial
  | failed => trivial

theorem Advanced.pending {j k : ℕ} {x : Versioned File} (hji : j ≠ i)
    (hr : Advanced declared s i answer t r) (hx : s.files[k]? = some x)
    (hv : x.pending = some (j, v)) : ∃ x', r.1.files[k]? = some x' ∧ x'.pending = some (j, v) := by
  have hwrite : ∀ (file : ℕ) (u : Update), (¬∃ x ∈ s.files[file]?, x.LockedFor i) →
      (s.write i file u).files[k]? = some x := by
    intro file u hfree
    have hne : k ≠ file := by
      rintro rfl
      exact hfree ⟨x, hx, (j, v), hv, hji⟩
    exact (getElem?_modify_of_ne hne).trans hx
  have hnot : ∀ v', x.pending ≠ some (i, v') := by
    intro v' hv'
    exact hji (congrArg Prod.fst (Option.some.inj (hv.symm.trans hv')))
  cases hr with
  | marked file loaded hfree => exact ⟨x, hwrite file _ hfree, hv⟩
  | flushed file update hfree => exact ⟨x, hwrite file _ hfree, hv⟩
  | committed =>
    refine ⟨_, getElem?_map_of_eq hx _, ?_⟩
    rwa [Versioned.commit_of_pending hnot]
  | failed =>
    refine ⟨_, getElem?_map_of_eq hx _, ?_⟩
    rwa [Versioned.rollback_of_pending hnot]
  | _ => exact ⟨x, hx, hv⟩

theorem Asserts.undisturbed {j : ℕ} {other : Task} {s' : State} (h : Asserts declared log s j other)
    (hpending : ∀ (k : ℕ) (x : Versioned File) (v : File), s.files[k]? = some x →
      x.pending = some (j, v) → ∃ x', s'.files[k]? = some x' ∧ x'.pending = some (j, v)) :
    Asserts declared (log ++ obs) s' j other := by
  cases other with
  | scanning => exact List.mem_append_left _ h
  | flushing => exact fun hclean => (h hclean).append
  | committing file update =>
    intro hdisables
    obtain ⟨x, v, hx, hv, hdisabled⟩ := h hdisables
    obtain ⟨x', hx', hv'⟩ := hpending file x v hx hv
    exact ⟨x', v, hx', hv', hdisabled⟩
  | _ => trivial

theorem arrive_files (settings : Settings) (declared : ℕ → Declared) (files : List File)
    (stored : ℕ → Option Data) (s : State) (n : ℕ) (e : Event) :
    (∃ new : List (Versioned File), (∀ x ∈ new, x.pending = none) ∧
      ((operations settings declared files stored).arrive s n e).1 =
        { s with files := s.files ++ new }) ∧
      (∀ k, .found k ∉ ((operations settings declared files stored).arrive s n e).2.2) ∧
      ∀ t ∈ ((operations settings declared files stored).arrive s n e).2.1, t.Plain := by
  have hsame : ∃ new : List (Versioned File), (∀ x ∈ new, x.pending = none) ∧
      s = { s with files := s.files ++ new } := ⟨[], by simp, by simp⟩
  cases e with
  | create => exact ⟨⟨_, by simp, rfl⟩, by simp [operations], by simp [operations]⟩
  | download => exact ⟨hsame, by simp only [operations]; split <;> simp, by simp [operations]⟩
  | select => exact ⟨hsame, by simp only [operations]; split <;> simp, by simp [operations]⟩
  | _ => exact ⟨hsame, by simp [operations], by simp [operations, Task.Plain]⟩

theorem Safe.with_files {new : List (Versioned File)} (h : Safe declared files log s)
    (hnew : ∀ x ∈ new, x.pending = none) :
    Safe declared files log { s with files := s.files ++ new } where
  found k hk := by
    obtain ⟨r, hr, hstands⟩ := h.found k hk
    exact ⟨r, getElem?_append_of_some hr new, hstands⟩
  clean k r hr w hw hclean := by
    by_cases hlt : k < s.files.length
    · exact h.clean k r ((List.getElem?_append_left hlt).symm.trans hr) w hw hclean
    · rw [List.getElem?_append_right (Nat.not_lt.mp hlt)] at hr
      rw [hnew r (List.mem_of_getElem? hr)] at hw
      exact absurd hw (by simp)

theorem safe_init : Safe declared files [] (operations settings declared files stored).init where
  found k hk := by
    obtain ⟨f, hf, hdisabled, -⟩ := hk.resolve_left (by simp)
    have hr : (operations settings declared files stored).init.files[k]? =
        some { committed := f } := by
      simp [operations, Option.mem_def.mp hf]
    exact ⟨_, hr, hdisabled, hdisabled⟩
  clean k r hr w hw := by
    obtain ⟨f, -, rfl⟩ : ∃ f ∈ files, { committed := f } = r := by
      simpa [operations] using List.mem_of_getElem? hr
    exact absurd hw (by simp)

theorem outline (C : System.Condition (Pool State Task) (Turn Event Answer)) :
    (operations settings declared files stored).Outline C (Safe declared files)
      (Asserts declared) where
  init := safe_init
  event {past p e} h _ := by
    obtain ⟨⟨new, hnew, heq⟩, hobs, -⟩ :=
      arrive_files settings declared files stored p.shared p.tasks.length e
    rw [heq]
    exact (h.shared.append hobs).with_files hnew
  started {past p e} h _ k t ht := by
    obtain ⟨-, -, hplain⟩ :=
      arrive_files settings declared files stored p.shared p.tasks.length e
    exact (hplain t (List.mem_of_getElem? ht)).asserts
  undisturbed {past p e} h _ i t ht := by
    obtain ⟨⟨new, hnew, heq⟩, -⟩ :=
      arrive_files settings declared files stored p.shared p.tasks.length e
    refine (h.task i t ht).undisturbed fun k x v hx hv => ⟨x, ?_, hv⟩
    rw [heq]
    exact getElem?_append_of_some hx new
  resumed h _ ht :=
    ⟨h.shared.advanced (h.task _ _ ht) Task.advanced, (h.task _ _ ht).advanced Task.advanced⟩
  interferes h _ _ j other hj hji :=
    (h.task j other hj).undisturbed fun _ _ _ hx hv => Task.advanced.pending hji hx hv

/-! ### What is committed, and what is observed -/

theorem row_eq_some :
    s.row k = some v ↔ ∃ r, s.files[k]? = some r ∧ r.committed = v := Option.map_eq_some_iff

theorem Advanced.row {v v' : File} (hr : Advanced declared s i answer t r) (hv : s.row k = some v)
    (hv' : r.1.row k = some v') :
    v' = v ∨ answer = .executed ∧ ∃ x, s.files[k]? = some x ∧ x.committed = v ∧
      x.pending = some (i, v') := by
  have hsame : ∀ {s' : State}, s'.files = s.files → s'.row k = some v' → v' = v := by
    intro s' hs' hrow
    rw [State.row, hs'] at hrow
    exact Option.some.inj (hrow.symm.trans hv)
  obtain ⟨x, hx, hcommitted⟩ := row_eq_some.mp hv
  obtain ⟨x', hx', hcommitted'⟩ := row_eq_some.mp hv'
  have hwrite : ∀ (file : ℕ) (u : Update), (s.write i file u).files[k]? = some x' → v' = v := by
    intro file u hw
    rcases getElem?_modify_cases hw with ⟨y, hy, rfl, rfl⟩ | ⟨hold, -⟩
    · obtain rfl := Option.some.inj (hx.symm.trans hy)
      exact hcommitted'.symm.trans hcommitted
    · obtain rfl := Option.some.inj (hx.symm.trans hold)
      exact hcommitted'.symm.trans hcommitted
  cases hr with
  | marked file => exact .inl (hwrite file _ hx')
  | flushed file => exact .inl (hwrite file _ hx')
  | committed =>
    obtain ⟨y, hy, rfl⟩ := getElem?_map_cases hx'
    obtain rfl := Option.some.inj (hx.symm.trans hy)
    rcases x.pending_cases i with ⟨w, hw⟩ | hnot
    · rw [Versioned.commit_eq hw] at hcommitted'
      obtain rfl : w = v' := hcommitted'
      exact .inr ⟨rfl, x, hx, hcommitted, hw⟩
    · rw [Versioned.commit_of_pending hnot] at hcommitted'
      exact .inl (hcommitted'.symm.trans hcommitted)
  | failed =>
    obtain ⟨y, hy, rfl⟩ := getElem?_map_cases hx'
    obtain rfl := Option.some.inj (hx.symm.trans hy)
    rw [Versioned.committed_rollback] at hcommitted'
    exact .inl (hcommitted'.symm.trans hcommitted)
  | _ => exact .inl (hsame rfl hv')

theorem passed_of_clean {p : Pool State Task} {l : Turn Event Answer}
    (h : Safe declared files log p.shared) {v v' : File} (hv : p.shared.row k = some v)
    (hnot : v.scanStatus ≠ some .clean)
    (hv' : ((operations settings declared files stored).step p l).1.shared.row k = some v')
    (hclean : v'.scanStatus = some .clean) :
    ∃ i, l = .resumed i .executed ∧ Passed declared log i k := by
  rcases l with e | ⟨i, answer⟩
  · obtain ⟨⟨new, -, heq⟩, -⟩ :=
      arrive_files settings declared files stored p.shared p.tasks.length e
    rw [Tasks.step_event, heq] at hv'
    obtain ⟨x, hx, rfl⟩ := row_eq_some.mp hv
    obtain ⟨x', hx', rfl⟩ := row_eq_some.mp hv'
    have hsame : x' = x := Option.some.inj (hx'.symm.trans (getElem?_append_of_some hx new))
    exact absurd (hsame ▸ hclean) hnot
  · cases hi : p.tasks[i]? with
    | none =>
      rw [Tasks.step_resumed_none hi] at hv'
      exact absurd (Option.some.inj (hv.symm.trans hv') ▸ hclean) hnot
    | some t =>
      rw [Tasks.step_resumed hi] at hv'
      rcases Task.advanced.row hv hv' with rfl | ⟨rfl, x, hx, rfl, hpending⟩
      · exact absurd hclean hnot
      · exact ⟨i, rfl, (h.clean k x hx _ hpending hclean).resolve_left hnot⟩

theorem mem_getPendingScan : k ∈ s.getPendingScan ↔
    ∃ v, s.row k = some v ∧ v.isDeleted = false ∧ v.isUploaded = true ∧
      (v.scanStatus = none ∨ v.scanStatus = some .pending) := by
  constructor
  · intro h
    obtain ⟨⟨r, k'⟩, hmem, rfl⟩ := List.mem_map.mp h
    obtain ⟨hmem, hr⟩ := List.mem_filter.mp hmem
    exact ⟨_, row_eq_some.mpr ⟨r, List.mem_zipIdx_iff_getElem?.mp hmem, rfl⟩, by simpa using hr⟩
  · rintro ⟨v, hv, hfound⟩
    obtain ⟨r, hr, rfl⟩ := row_eq_some.mp hv
    exact List.mem_map.mpr ⟨(r, k), List.mem_filter.mpr
      ⟨List.mem_zipIdx_iff_getElem?.mpr hr, by simpa using hfound⟩, rfl⟩

theorem not_mem_advance_obs :
    .served k ∉ (t.advance settings declared s i answer).2.2 ∧
      .selected k ∉ (t.advance settings declared s i answer).2.2 := by
  fun_cases Task.advance settings declared s i answer t
  case case22 update => cases update.dispatches <;> cases update.disables <;> simp
  all_goals simp

/-! ### The equivalence -/

variable {p : Pool State Task} {l : Turn Event Answer} {past ls : List (Turn Event Answer)}

theorem dispatched_iff (h : p.resumed l = some (.executed, .catching))
    (hv : p.shared.row k = some v) (hawaits : v.AwaitsScan) :
    .dispatched k ∈ ((operations settings declared files stored).step p l).2 ↔
      settings.clamavEnabled = true ∧ (v.scanStatus = none ∨ v.scanStatus = some .pending) := by
  obtain ⟨i, rfl, hi⟩ := Pool.resumed_eq_some h
  rw [Tasks.step_resumed hi]
  by_cases henabled : settings.clamavEnabled = true
  · have hmem : k ∈ p.shared.getPendingScan ↔
        v.scanStatus = none ∨ v.scanStatus = some .pending := by
      rw [mem_getPendingScan]
      constructor
      · rintro ⟨v', hv', -, -, hstatus⟩
        rwa [Option.some.inj (hv.symm.trans hv')]
      · exact fun hstatus => ⟨v, hv, hawaits.2.1, hawaits.1, hstatus⟩
    simpa [operations, Task.advance, henabled] using hmem
  · simp [operations, Task.advance, henabled]

/-- What the guard of the job lets through of the files without a final verdict. -/
theorem performed_iff (h : p.resumed l = some (.executed, .loading k))
    (hv : p.shared.row k = some v) (hawaits : v.AwaitsScan) :
    ((operations settings declared files stored).step p l).1.resumed l ≠ some (.executed, .ended) ↔
      v.scanStatus = some .pending ∨ v.scanStatus = some .error := by
  obtain ⟨i, rfl, hi⟩ := Pool.resumed_eq_some h
  have hlt : i < p.tasks.length := (List.getElem?_eq_some_iff.mp hi).1
  have hloaded : p.shared.getById k = some v := by
    rw [State.getById, hv]
    simp [hawaits.2.1]
  have hnext : ((operations settings declared files stored).step p (.resumed i .executed)).1.resumed
      (.resumed i .executed : Turn Event Answer) = some (.executed, begin settings k v) := by
    rw [Tasks.step_resumed hi, Pool.resumed_eq]
    rw [List.getElem?_set_self hlt]
    simp only [operations, Task.advance, hloaded]
  rw [hnext, ne_eq, Option.some.injEq, Prod.mk.injEq, begin_eq_ended, not_and, not_not]
  exact ⟨fun hstatus => hstatus rfl, fun hstatus _ => hstatus⟩

/-- A file that has been found is delivered only where its object is still in the storage. -/
theorem withheld_iff (h : Safe declared files log p.shared) (hk : Found files log k) :
    (.served k ∉ ((operations settings declared files stored).step p l).2 ∧
      .selected k ∉ ((operations settings declared files stored).step p l).2) ↔
    (l = .event (.download k) → p.shared.stored k = none) := by
  rcases l with e | ⟨i, answer⟩
  · cases e with
    | download j =>
      by_cases hj : j = k
      · subst hj
        cases hstored : p.shared.stored j <;> simp [Tasks.step_event, operations, hstored]
      · simp only [Tasks.step_event, operations]
        split <;> simp [hj, Ne.symm hj]
    | select j =>
      obtain ⟨r, hr, hstands⟩ := h.found k hk
      have hrow : p.shared.row k = some r.committed := row_eq_some.mpr ⟨r, hr, rfl⟩
      simp only [Tasks.step_event, operations]
      split
      next hfound =>
        obtain ⟨f, hf, -, henabled, -⟩ := hfound
        have hj : k ≠ j := by
          rintro rfl
          rw [Option.some.inj (hf.symm.trans hrow), hstands.1] at henabled
          exact absurd henabled (by simp)
        simp [hj]
      · simp
    | _ => simp [Tasks.step_event, operations]
  · cases hi : p.tasks[i]? with
    | none => simp [Tasks.step_resumed_none hi]
    | some t =>
      rw [Tasks.step_resumed hi]
      exact iff_of_true not_mem_advance_obs (by simp)

theorem complete_step_iff
    (h : Safe declared files ((operations settings declared files stored).system.log past)
      p.shared) :
    Complete settings declared files stored past p l ↔
      Covered settings declared files stored past p l := by
  constructor
  · intro hcomplete
    refine ⟨fun hl k v hv hawaits => ?_, fun k v hl hv hawaits => ?_, fun k hl hk => ?_⟩
    · exact (dispatched_iff hl hv hawaits).mp (hcomplete.dispatched hl k v hv hawaits)
    · exact (performed_iff hl hv hawaits).mp (hcomplete.performed k v hl hv hawaits)
    · exact (withheld_iff h hk).mp (hcomplete.withheld k hk) hl
  · intro hcovered
    refine ⟨fun hl k v hv hawaits => ?_, fun k v hl hv hawaits => ?_,
      fun k v v' hv hnot hv' hc => ?_, fun k hk => ?_⟩
    · exact (dispatched_iff hl hv hawaits).mpr (hcovered.catching hl k v hv hawaits)
    · exact (performed_iff hl hv hawaits).mpr (hcovered.loading k v hl hv hawaits)
    · exact passed_of_clean h hv hnot hv' hc
    · exact (withheld_iff h hk).mpr fun hl => hcovered.download k hl hk

end

/-- The scanner cannot be reached in the scan of a file, and the catch-up job runs later. -/
def unreachable : List (Turn Event Answer) :=
  [.event .create, .event (.complete 0 0 []), .resumed 0 .executed, .resumed 0 .executed,
    .resumed 0 .executed, .event (.scan 0), .resumed 1 .executed, .resumed 1 .executed,
    .resumed 1 .executed, .resumed 1 (.scanned (.connectionError "refused")),
    .resumed 1 .executed, .resumed 1 .executed, .event .scanAllPending]

/-- An uploaded file with no status is dispatched by the catch-up job. -/
def dispatchedLater : List (Turn Event Answer) :=
  [.event .scanAllPending, .resumed 0 .executed, .event (.scan 0)]

/-- A file is scanned, and is infected. -/
def infected : List (Turn Event Answer) :=
  [.event (.scan 0), .resumed 0 .executed, .resumed 0 .executed, .resumed 0 .executed,
    .resumed 0 (.scanned (.infected none)), .resumed 0 .executed, .resumed 0 .executed]

def withoutQuarantine : Settings :=
  { clamavEnabled := true, clamavMaxScanSizeBytes := 1000, quarantine := false }

def plainText (_ : ℕ) : Declared := { size := 0, mimeType := "text/plain" }

end Scanning

end Rapidly.Catalog
