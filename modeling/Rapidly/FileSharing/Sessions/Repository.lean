import Mathlib.Algebra.Order.Ring.Int
import Rapidly.Relational.Table
import Rapidly.Transition.System

/-!
# File-sharing sessions in the database

Every channel has a row in the table of sessions, which the operations on channels, the
moderators and a cron job write to. This module has the columns that decide about the status of
a session, and every operation that writes one of them, from `actions.py`, `pg_repository.py`,
`workers.py` and the admin's `api.py`.

An operation is a transaction of its own. One that raises is rolled back, and leaves the
database as it is.
-/

namespace Rapidly.FileSharing.Sessions

open Relational Transition

abbrev Uuid := ℕ

/-- A `TIMESTAMP`, in seconds since the epoch. -/
abbrev Time := ℤ

inductive FileShareSessionStatus where
  | created
  | active
  | completed
  | expired
  | destroyed
  | reported
deriving DecidableEq

inductive FileShareReportStatus where
  | pending
  | reviewed
  | dismissed
  | actioned
deriving DecidableEq

structure FileShareSession where
  id : Uuid
  shortSlug : String
  longSlug : String
  status : FileShareSessionStatus := .created
  maxDownloads : ℕ := 0
  downloadCount : ℕ := 0
  createdAt : Time
  expiresAt : Option Time := none
  activatedAt : Option Time := none
  completedAt : Option Time := none
deriving DecidableEq

structure FileShareReport where
  id : Uuid
  sessionId : Uuid
  status : FileShareReportStatus := .pending
  reviewedAt : Option Time := none
deriving DecidableEq

structure Database where
  sessions : Table FileShareSession.id := .empty
  reports : Table FileShareReport.id := .empty

namespace Database

variable (db : Database)

/-- `get_by_slug`: by the short or the long slug, in a single query. -/
def getBySlug (slug : String) : Except MultipleResultsFound (Option FileShareSession) :=
  oneOrNone (db.sessions.select fun r => r.shortSlug = slug ∨ r.longSlug = slug)

/-- `update` of a session that has been read. -/
def update (id : Uuid) (f : FileShareSession → FileShareSession) (hf : ∀ r, (f r).id = r.id) :
    Database :=
  { db with sessions := db.sessions.modify (·.id = id) f hf }

/-- `update` of a report that has been read. -/
def updateReport (id : Uuid) (status : FileShareReportStatus) (now : Time) : Database :=
  { db with
    reports := db.reports.modify (·.id = id)
      (fun r => { r with status, reviewedAt := some now }) fun _ => rfl }

/-- Set the status, together with `completed_at`. -/
def finish (id : Uuid) (status : FileShareSessionStatus) (now : Time) : Database :=
  db.update id (fun r => { r with status, completedAt := some now }) fun _ => rfl

/-- Do something with the session of a slug, if there is one. -/
def onSlug (slug : String) (f : FileShareSession → Database) : Database :=
  match db.getBySlug slug with
  | .ok (some fsSession) => f fsSession
  | .ok none => db
  | .error _ => db

/-! ### The operations on channels -/

/-- `_pg_create_session`. The slugs are unique columns. -/
def createSession (row : FileShareSession) : Database :=
  if ∃ r ∈ db.sessions.rows, r.shortSlug = row.shortSlug ∨ r.longSlug = row.longSlug then db
  else { db with sessions := db.sessions.insert { row with status := .created } }

/-- What a download makes of its session: the count goes up, the first download activates it,
and the one that reaches the limit completes it. -/
def afterDownload (now : Time) (r : FileShareSession) : FileShareSession :=
  let counted := { r with downloadCount := r.downloadCount + 1 }
  let activated :=
    if counted.status = .created then
      { counted with status := .active, activatedAt := some now }
    else counted
  if activated.maxDownloads > 0 ∧ activated.downloadCount ≥ activated.maxDownloads then
    { activated with status := .completed, completedAt := some now }
  else activated

theorem id_afterDownload (now : Time) (r : FileShareSession) : (afterDownload now r).id = r.id := by
  rw [afterDownload]
  split <;> split <;> rfl

/-- `_pg_record_download`. -/
def recordDownload (slug : String) (now : Time) : Database :=
  db.onSlug slug fun fsSession => db.update fsSession.id (afterDownload now) (id_afterDownload now)

/-- `_pg_update_session_status`. -/
def updateSessionStatus (slug : String) (status : FileShareSessionStatus) (now : Time) :
    Database :=
  db.onSlug slug fun fsSession =>
    if status = .destroyed ∨ status = .completed then db.finish fsSession.id status now
    else db.update fsSession.id (fun r => { r with status }) fun _ => rfl

/-- `_pg_create_report`. -/
def createReport (slug : String) (reportId : Uuid) : Database :=
  db.onSlug slug fun fsSession =>
    let reported :=
      { db with reports := db.reports.insert { id := reportId, sessionId := fsSession.id } }
    reported.update fsSession.id (fun r => { r with status := .reported }) fun _ => rfl

/-- `_pg_update_session_expires_at`. -/
def updateSessionExpiresAt (slug : String) (expiresAt : Option Time) : Database :=
  db.onSlug slug fun fsSession =>
    db.update fsSession.id (fun r => { r with expiresAt }) fun _ => rfl

/-- A session without an expiry that is still `created` after this time is stale. -/
def staleAge : Time := 24 * 3600

/-- The rows that `expire_active_sessions` updates. -/
def Expires (now : Time) (r : FileShareSession) : Prop :=
  (r.status = .created ∨ r.status = .active) ∧
    ((∃ expiresAt ∈ r.expiresAt, expiresAt < now) ∨
      r.expiresAt = none ∧ r.status = .created ∧ r.createdAt < now - staleAge)

instance (now : Time) (r : FileShareSession) : Decidable (Expires now r) :=
  inferInstanceAs (Decidable (_ ∧ (_ ∨ _)))

/-- `expire_active_sessions`. -/
def expireActiveSessions (now : Time) : Database :=
  { db with
    sessions := db.sessions.modify (Expires now)
      (fun r => { r with status := .expired, completedAt := some now }) fun _ => rfl }

/-! ### Moderation -/

/-- `update_session_report`; `readable` says that the session belongs to the caller. -/
def updateSessionReport (reportId : Uuid) (status : FileShareReportStatus)
    (readable : FileShareSession → Bool) (now : Time) : Database :=
  match db.reports.get reportId with
  | none => db
  | some report =>
    match (db.sessions.get report.sessionId).filter readable with
    | none => db
    | some fsSession =>
      let updated := db.updateReport reportId status now
      if status = .actioned ∧ fsSession.status ≠ .destroyed then
        updated.finish fsSession.id .destroyed now
      else updated

/-- `force_expire` of the admin. -/
def forceExpire (id : Uuid) (now : Time) : Database :=
  match db.sessions.get id with
  | none => db
  | some fsSession =>
    if fsSession.status = .created ∨ fsSession.status = .active then db.finish id .expired now
    else db

/-- `force_destroy` of the admin. -/
def forceDestroy (id : Uuid) (now : Time) : Database :=
  match db.sessions.get id with
  | none => db
  | some fsSession => if fsSession.status = .destroyed then db else db.finish id .destroyed now

/-- `review_report` and `dismiss_report` of the admin. -/
def reviewReport (reportId : Uuid) (status : FileShareReportStatus) (now : Time) : Database :=
  match db.reports.get reportId with
  | none => db
  | some _ => db.updateReport reportId status now

/-- `action_report` of the admin: both identifiers come from the path. -/
def actionReport (id reportId : Uuid) (now : Time) : Database :=
  match db.reports.get reportId with
  | none => db
  | some _ =>
    let updated := db.updateReport reportId .actioned now
    match updated.sessions.get id with
    | none => updated
    | some fsSession =>
      if fsSession.status ≠ .destroyed then updated.finish id .destroyed now else updated

end Database

/-- An operation, with what it is called with. -/
inductive Operation where
  /-- `create_channel`. -/
  | createSession (row : FileShareSession)
  /-- `record_download_complete`, once a slot has been claimed. -/
  | recordDownload (slug : String) (now : Time)
  /-- `destroy_channel`, when the destruction is immediate. -/
  | destroyChannel (slug : String) (now : Time)
  /-- `report_channel`, with a valid reader token. -/
  | reportChannel (slug : String) (reportId : Uuid)
  /-- `renew_channel`, when Redis has renewed the channel. -/
  | renewChannel (slug : String) (expiresAt : Option Time)
  /-- The cron task `file_sharing.check_expired_sessions`. -/
  | checkExpiredSessions (now : Time)
  | updateSessionReport (reportId : Uuid) (status : FileShareReportStatus)
    (readable : FileShareSession → Bool) (now : Time)
  | forceExpire (id : Uuid) (now : Time)
  | forceDestroy (id : Uuid) (now : Time)
  | reviewReport (reportId : Uuid) (now : Time)
  | dismissReport (reportId : Uuid) (now : Time)
  | actionReport (id reportId : Uuid) (now : Time)

/-- What an operation makes of the database. -/
def Database.apply (db : Database) : Operation → Database
  | .createSession row => db.createSession row
  | .recordDownload slug now => db.recordDownload slug now
  | .destroyChannel slug now => db.updateSessionStatus slug .destroyed now
  | .reportChannel slug reportId => db.createReport slug reportId
  | .renewChannel slug expiresAt => db.updateSessionExpiresAt slug expiresAt
  | .checkExpiredSessions now => db.expireActiveSessions now
  | .updateSessionReport reportId status readable now =>
    db.updateSessionReport reportId status readable now
  | .forceExpire id now => db.forceExpire id now
  | .forceDestroy id now => db.forceDestroy id now
  | .reviewReport reportId now => db.reviewReport reportId .reviewed now
  | .dismissReport reportId now => db.reviewReport reportId .dismissed now
  | .actionReport id reportId now => db.actionReport id reportId now

/-- The sessions under any sequence of operations. -/
def operations : System Database Operation Empty where
  init := {}
  step db op := (db.apply op, [])

end Rapidly.FileSharing.Sessions
