import Rapidly.FileSharing.Sessions.Repository

/-!
# What becomes of a session that is over

Four statuses are terminal. Some operations check for that and some do not, so that a terminal
status can be replaced by another one: a report marks whatever session it is about, and a
destruction, by the owner or by a moderator who acts on a report, applies to every session that
is not destroyed already.

`terminalStatuses` says what remains: a session that is over never becomes `created` or `active`
again, expiry and renewal leave its status alone, and reports and destructions lead to nothing
but `reported` and `destroyed`. What a download does to the status of a session that is over is
left open.
-/

namespace Rapidly.FileSharing.Sessions

open Relational Transition

/-- The statuses of a session that is over. -/
def FileShareSessionStatus.IsTerminal (status : FileShareSessionStatus) : Prop :=
  status ≠ .created ∧ status ≠ .active

instance (status : FileShareSessionStatus) : Decidable status.IsTerminal :=
  inferInstanceAs (Decidable (_ ∧ _))

/-- The status an operation may give to a session that is over. -/
def Operation.MayLeadTo : Operation → FileShareSessionStatus → Prop
  | .reportChannel _ _, status => status = .reported
  | .destroyChannel _ _, status => status = .destroyed
  | .forceDestroy _ _, status => status = .destroyed
  | .actionReport _ _ _, status => status = .destroyed
  | .updateSessionReport _ reportStatus _ _, status =>
    reportStatus = .actioned ∧ status = .destroyed
  | .recordDownload _ _, _ => True
  | _, _ => False

/-- A session keeps a terminal status, or is given another one that the predicate allows. -/
def KeepsTerminal (allowed : FileShareSessionStatus → Prop) (r r' : FileShareSession) : Prop :=
  r.status.IsTerminal → r'.status.IsTerminal ∧ (r'.status = r.status ∨ allowed r'.status)

/-- All sessions of a database do. -/
def Evolves (allowed : FileShareSessionStatus → Prop) (db db' : Database) : Prop :=
  ∀ id r, db.sessions.get id = some r →
    ∃ r', db'.sessions.get id = some r' ∧ KeepsTerminal allowed r r'

variable {allowed : FileShareSessionStatus → Prop} {db db' db'' : Database}
variable {r : FileShareSession} {id : Uuid}

theorem isTerminal_destroyed : FileShareSessionStatus.destroyed.IsTerminal := by decide

theorem KeepsTerminal.refl (r : FileShareSession) : KeepsTerminal allowed r r := fun h =>
  ⟨h, .inl rfl⟩

theorem evolves_of_eq (h : db'.sessions = db.sessions) : Evolves allowed db db' := fun id r hr =>
  ⟨r, by rw [h, hr], .refl r⟩

theorem Evolves.refl (db : Database) : Evolves allowed db db := evolves_of_eq rfl

theorem evolves_modify {p : FileShareSession → Prop} [DecidablePred p]
    {f : FileShareSession → FileShareSession} {hf : ∀ r, (f r).id = r.id}
    (hkeeps : ∀ r, db.sessions.get r.id = some r → p r → KeepsTerminal allowed r (f r)) :
    Evolves allowed db { db with sessions := db.sessions.modify p f hf } := by
  intro id r hr
  have hid : r.id = id := (Table.get_eq_some_iff.mp hr).2
  refine ⟨if p r then f r else r, ?_, ?_⟩
  · dsimp only
    rw [Table.get_modify, hr]
    rfl
  · split
    next hp => exact hkeeps r (hid ▸ hr) hp
    next => exact .refl r

theorem evolves_update {f : FileShareSession → FileShareSession} {hf : ∀ r, (f r).id = r.id}
    (hkeeps : ∀ r, db.sessions.get id = some r → KeepsTerminal allowed r (f r)) :
    Evolves allowed db (db.update id f hf) :=
  evolves_modify fun r hr hid => hkeeps r (hid ▸ hr)

theorem Evolves.of_eq (h : Evolves allowed db' db'') (heq : db'.sessions = db.sessions) :
    Evolves allowed db db'' := by
  intro id r hr
  exact h id r (by rw [heq, hr])

theorem evolves_onSlug {slug : String} {f : FileShareSession → Database}
    (h : ∀ fsSession, Evolves allowed db (f fsSession)) :
    Evolves allowed db (db.onSlug slug f) := by
  rw [Database.onSlug]
  split
  next fsSession _ => exact h fsSession
  next => exact .refl db
  next => exact .refl db

theorem evolves_destroy (hallowed : allowed .destroyed) (now : Time) :
    Evolves allowed db (db.finish id .destroyed now) :=
  evolves_update fun _ _ _ => ⟨isTerminal_destroyed, .inr hallowed⟩

/-! ### The operations -/

theorem evolves_recordDownload (slug : String) (now : Time) :
    Evolves (fun _ => True) db (db.recordDownload slug now) := by
  refine evolves_onSlug fun fsSession => evolves_update fun r _ hterminal => ⟨?_, .inr trivial⟩
  -- a terminal status stays, unless the limit is reached
  have hstatus : (Database.afterDownload now r).status = r.status ∨
      (Database.afterDownload now r).status = .completed := by
    rw [Database.afterDownload]
    rw [if_neg hterminal.1]
    split
    · exact .inr rfl
    · exact .inl rfl
  rcases hstatus with h | h
  · rw [h]
    exact hterminal
  · rw [h]
    decide

theorem evolves_createReport (slug : String) (reportId : Uuid) :
    Evolves (· = .reported) db (db.createReport slug reportId) := by
  refine evolves_onSlug fun fsSession => ?_
  refine Evolves.of_eq (evolves_update fun _ _ _ => ⟨?_, .inr rfl⟩) rfl
  exact ⟨nofun, nofun⟩

theorem evolves_destroyChannel (slug : String) (now : Time) :
    Evolves (· = .destroyed) db (db.updateSessionStatus slug .destroyed now) := by
  refine evolves_onSlug fun fsSession => ?_
  rw [if_pos (.inl rfl)]
  exact evolves_destroy (by rfl) now

theorem evolves_renewChannel (slug : String) (expiresAt : Option Time) :
    Evolves allowed db (db.updateSessionExpiresAt slug expiresAt) :=
  evolves_onSlug fun _ => evolves_update fun _ _ hterminal => ⟨hterminal, .inl rfl⟩

theorem evolves_expireActiveSessions (now : Time) :
    Evolves allowed db (db.expireActiveSessions now) := by
  refine evolves_modify fun r _ hexpires hterminal => ?_
  rcases hexpires.1 with hcreated | hactive
  · exact absurd hcreated hterminal.1
  · exact absurd hactive hterminal.2

theorem evolves_forceExpire (id : Uuid) (now : Time) :
    Evolves allowed db (db.forceExpire id now) := by
  rw [Database.forceExpire]
  split
  · exact .refl db
  next fsSession hget =>
    split
    next hopen =>
      refine evolves_update fun r hr hterminal => ?_
      obtain rfl := Option.some_inj.mp (hget.symm.trans hr)
      exact absurd hopen (not_or.mpr hterminal)
    next => exact .refl db

theorem evolves_forceDestroy (id : Uuid) (now : Time) :
    Evolves (· = .destroyed) db (db.forceDestroy id now) := by
  rw [Database.forceDestroy]
  split
  · exact .refl db
  · split
    · exact .refl db
    · exact evolves_destroy (by rfl) now

theorem evolves_reviewReport (reportId : Uuid) (status : FileShareReportStatus) (now : Time) :
    Evolves allowed db (db.reviewReport reportId status now) := by
  rw [Database.reviewReport]
  split
  · exact .refl db
  · exact evolves_of_eq rfl

theorem evolves_actionReport (id reportId : Uuid) (now : Time) :
    Evolves (· = .destroyed) db (db.actionReport id reportId now) := by
  rw [Database.actionReport]
  split
  · exact .refl db
  · dsimp only
    split
    · exact evolves_of_eq rfl
    · split
      · exact Evolves.of_eq (evolves_destroy (by rfl) now) rfl
      · exact evolves_of_eq rfl

theorem evolves_updateSessionReport (reportId : Uuid) (status : FileShareReportStatus)
    (readable : FileShareSession → Bool) (now : Time) :
    Evolves (fun s => status = .actioned ∧ s = .destroyed) db
      (db.updateSessionReport reportId status readable now) := by
  rw [Database.updateSessionReport]
  split
  · exact .refl db
  · split
    · exact .refl db
    · dsimp only
      split
      next h => exact Evolves.of_eq (evolves_destroy ⟨h.1, rfl⟩ now) rfl
      next => exact evolves_of_eq rfl

theorem evolves_createSession (row : FileShareSession) :
    Evolves allowed db (db.createSession row) := by
  rw [Database.createSession]
  split
  · exact .refl db
  · exact fun id r hr => ⟨r, Table.get_insert_of_some hr _, .refl r⟩

theorem evolves_apply (db : Database) (op : Operation) : Evolves op.MayLeadTo db (db.apply op) := by
  rcases op with row | ⟨slug, now⟩ | ⟨slug, now⟩ | ⟨slug, reportId⟩ | ⟨slug, expiresAt⟩ | now |
    ⟨reportId, status, readable, now⟩ | ⟨id, now⟩ | ⟨id, now⟩ | ⟨reportId, now⟩ |
    ⟨reportId, now⟩ | ⟨id, reportId, now⟩
  · exact evolves_createSession row
  · exact evolves_recordDownload slug now
  · exact evolves_destroyChannel slug now
  · exact evolves_createReport slug reportId
  · exact evolves_renewChannel slug expiresAt
  · exact evolves_expireActiveSessions now
  · exact evolves_updateSessionReport reportId status readable now
  · exact evolves_forceExpire id now
  · exact evolves_forceDestroy id now
  · exact evolves_reviewReport reportId .reviewed now
  · exact evolves_reviewReport reportId .dismissed now
  · exact evolves_actionReport id reportId now

/-! ### Sequences of operations -/

/-- The operation leaves every session that is over in a terminal status, the one it has or one
the operation may lead to. -/
def Lasting : System.Condition Database Operation := fun _ db op =>
  ∀ id r, db.sessions.get id = some r → r.status.IsTerminal →
    ∃ r', (db.apply op).sessions.get id = some r' ∧ r'.status.IsTerminal ∧
      (r'.status = r.status ∨ op.MayLeadTo r'.status)

/-- The operation leaves the status of every session that is over. -/
def Final : System.Condition Database Operation := fun _ db op =>
  ∀ id r, db.sessions.get id = some r → r.status.IsTerminal →
    ∃ r', (db.apply op).sessions.get id = some r' ∧ r'.status = r.status

/-- **Terminal statuses.** In every sequence of operations a session that is over stays over,
and only reports, destructions and downloads may change its status, the first two to nothing but
`reported` and `destroyed`. -/
theorem terminalStatuses (ops : List Operation) : operations.Along Lasting ops := by
  refine operations.along_of_forall (fun past op id r hr hterminal => ?_) ops
  obtain ⟨r', hr', hkeeps⟩ := evolves_apply _ op id r hr
  exact ⟨r', hr', hkeeps hterminal⟩

theorem isTerminal_after (ops later : List Operation) {id : Uuid} {r : FileShareSession}
    (hr : (operations.after ops).sessions.get id = some r) (hterminal : r.status.IsTerminal) :
    ∃ r', (operations.after (ops ++ later)).sessions.get id = some r' ∧
      r'.status.IsTerminal := by
  induction later using List.reverseRecOn with
  | nil =>
    rw [List.append_nil]
    exact ⟨r, hr, hterminal⟩
  | append_singleton later op ih =>
    obtain ⟨r', hr', hterminal'⟩ := ih
    obtain ⟨r'', hr'', hkeeps⟩ := evolves_apply _ op id r' hr'
    rw [← List.append_assoc, System.after_snoc]
    exact ⟨r'', hr'', (hkeeps hterminal').1⟩

/-- A session that has been reported. -/
def reportedSession : List Operation :=
  [.createSession { id := 0, shortSlug := "ab", longSlug := "a/b", createdAt := 0 },
    .reportChannel "ab" 0]

/-- A moderator acts on the report: the session is destroyed. -/
theorem actionedReport_destroys :
    ¬operations.Along Final
      (reportedSession ++ [.updateSessionReport 0 .actioned (fun _ => true) 1]) := by
  intro h
  rw [System.along_snoc] at h
  have hreported : (operations.after reportedSession).sessions.get 0 =
      some { id := 0, shortSlug := "ab", longSlug := "a/b", createdAt := 0,
             status := .reported } := by decide
  have hdestroyed : ((operations.after reportedSession).apply
      (.updateSessionReport 0 .actioned (fun _ => true) 1)).sessions.get 0 =
      some { id := 0, shortSlug := "ab", longSlug := "a/b", createdAt := 0,
             status := .destroyed, completedAt := some 1 } := by decide
  obtain ⟨r', hr', hstatus⟩ := h.2 0 _ hreported (by decide)
  obtain rfl := Option.some_inj.mp (hdestroyed.symm.trans hr')
  cases hstatus

end Rapidly.FileSharing.Sessions
