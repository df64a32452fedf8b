import Rapidly.Identity.Schema
import Rapidly.Transition.SingleUse

/-!
# Redeeming login codes

`authenticate` looks a login code up by its hash and email, resolves or creates the user, and
marks the code's row for deletion; the `DELETE` is executed when the session is flushed, and the
request's transaction commits at its end. `authentications` runs such calls side by side with the
issue of new codes, the clean-up job and the passing of time, as single-use credentials of a
database (`Transition.SingleUse`).

The lookup takes no lock, and the `DELETE` does not check that it deletes something: two calls
that look a code up before either has committed both return a user (`authenticated_twice`).
`authenticatedOnce_of_unspent` is what remains. That an accepted code had not expired when it was
looked up holds in any case (`carries_unexpired`).

The account of the app review signs in with a fixed code and without a row, in development and
testing only: such a call starts no redemption. How the database and Python convert an email to
lower case is a parameter.
-/

namespace Rapidly.Identity.LoginCodes

open Relational Transition

/-- A row of `login_codes`. -/
structure LoginCode where
  id : Uuid
  codeHash : String
  expiresAt : Time
  email : String
  userId : Option Uuid := none
deriving DecidableEq

structure User extends Identity.User where
  email : String
  emailVerified : Bool := false
deriving DecidableEq

inductive Environment where
  | development
  | testing
  | test
  | sandbox
  | production
deriving DecidableEq

/-- The settings that `request` and `authenticate` read. -/
structure Settings where
  env : Environment
  loginCodeTtlSeconds : ℕ := 600
  appReviewEmail : Option String := none
  appReviewOtpCode : Option String := none
deriving DecidableEq

/-- The tables that signing in reads and writes, and the clock. -/
structure LoginStore (lower : String → String) where
  loginCodes : Table LoginCode.id := Table.empty
  users : Table fun user : User => user.id := Table.empty
  /-- The identifiers drawn for login codes so far. -/
  drawn : List Uuid := []
  now : Time := 0
  loginCodes_codeHash : loginCodes.UniqueOn LoginCode.codeHash := by decide
  loginCodes_drawn : ∀ r ∈ loginCodes.rows, r.id ∈ drawn := by decide
  users_email : users.UniqueOn fun user => lower user.email

/-- A call of `authenticate`. -/
structure Presented where
  code : String
  email : String
deriving DecidableEq

/-- A login code and when it was found. -/
structure FoundCode where
  loginCode : LoginCode
  foundAt : Time
deriving DecidableEq

/-- Where `_resolve_user` stands. -/
inductive Resolving where
  /-- The code has been loaded, with the user it is for. -/
  | loaded (found : FoundCode) (user : Option User)
  /-- There is no user with the email. -/
  | creating (found : FoundCode)
deriving DecidableEq

/-- The code that is being redeemed. -/
def Resolving.found : Resolving → FoundCode
  | .loaded found _ => found
  | .creating found => found

/-- What `_resolve_user` writes to the users. -/
inductive UserWrite where
  | unchanged
  | verified
  | inserted
deriving DecidableEq

/-- What a call returns, with what it writes. -/
structure SignIn where
  found : FoundCode
  user : User
  isSignup : Bool
  write : UserWrite
deriving DecidableEq

/-- What else happens. -/
inductive LoginEvent (lower : String → String) where
  /-- `request`: a code is issued for an email. -/
  | request (id : Uuid) (codeHash email : String)
  /-- `authenticate` is called; the identifier is that of a user the app review may create. -/
  | authenticate (presented : Presented) (newUser : Uuid)
  /-- The job `login_code.delete_expired`. -/
  | deleteExpired
  | pass (microseconds : ℕ)
  /-- The users change otherwise. -/
  | users (users : Table fun user : User => user.id)
      (unique : users.UniqueOn fun user => lower user.email)

variable {lower : String → String}
variable (settings : Settings) (tokenHash : String → String)

/-- `user.email_verified = True`. -/
def setVerified (user : User) : User := { user with emailVerified := true }

/-- The end of `_resolve_user`, for a user that was there. -/
def verifyEmail (found : FoundCode) (user : User) : SignIn :=
  if user.emailVerified then { found, user, isSignup := false, write := .unchanged }
  else { found, user := setVerified user, isSignup := true, write := .verified }

/-- `_try_app_review_bypass` accepts the call. -/
def Settings.Bypasses (lower : String → String) (presented : Presented) : Prop :=
  (settings.env = .development ∨ settings.env = .testing) ∧
    ∃ email ∈ settings.appReviewEmail, ∃ otp ∈ settings.appReviewOtpCode,
      email ≠ "" ∧ otp ≠ "" ∧ lower presented.email = lower email ∧ presented.code = otp

instance (lower : String → String) (presented : Presented) :
    Decidable (settings.Bypasses lower presented) :=
  inferInstanceAs (Decidable (_ ∧ _))

namespace LoginStore

variable (s : LoginStore lower)

/-- `UserRepository.get_by_email`. -/
def getByEmail (email : String) : Except MultipleResultsFound (Option User) :=
  oneOrNone <| s.users.select fun user =>
    lower user.email = lower email ∧ user.deletedAt = none ∧ user.blockedAt = none

/-- The user can be inserted: the identifier and the email are not taken. -/
def Free (user : User) : Prop :=
  user.id ∉ s.users.rows.map (fun user => user.id) ∧
    lower user.email ∉ s.users.rows.map fun user => lower user.email

instance (user : User) : Decidable (s.Free user) := inferInstanceAs (Decidable (_ ∧ _))

/-- Insert a user; `none` where a unique constraint is violated. -/
def insertUser (user : User) : Option (LoginStore lower) :=
  if h : s.Free user then
    some
      { s with
        users := s.users.add user h.1
        users_email := s.users_email.add h.2 }
  else none

/-- Mark a user's email as verified. -/
def verifyUser (id : Uuid) : LoginStore lower :=
  { s with
    users := s.users.modify (fun user => user.id = id) setVerified fun _ => rfl
    users_email := s.users_email.modify fun _ => rfl }

/-- `user_service.get_by_email_or_create`, as a transaction of its own. -/
def getByEmailOrCreate (id : Uuid) (email : String) : LoginStore lower :=
  match s.getByEmail email with
  | .ok none => (s.insertUser { id, email }).getD s
  | _ => s

/-- The row of a new login code. -/
def newLoginCode (id : Uuid) (codeHash email : String) (user : Option User) : LoginCode where
  id
  codeHash
  email
  userId := user.map fun user => user.id
  expiresAt := s.now + settings.loginCodeTtlSeconds * 1000000

/-- Insert a login code, unless its identifier was drawn before or its hash is taken. -/
def insertLoginCode (record : LoginCode) : LoginStore lower :=
  if h : record.id ∉ s.drawn ∧ record.codeHash ∉ s.loginCodes.rows.map LoginCode.codeHash then
    { s with
      loginCodes := s.loginCodes.add record fun hmem => by
        obtain ⟨r, hr, hid⟩ := List.mem_map.mp hmem
        exact h.1 (hid ▸ s.loginCodes_drawn r hr)
      drawn := record.id :: s.drawn
      loginCodes_codeHash := s.loginCodes_codeHash.add h.2
      loginCodes_drawn := fun r hr => by
        rcases List.mem_cons.mp hr with rfl | hr
        · exact List.mem_cons_self
        · exact List.mem_cons_of_mem _ (s.loginCodes_drawn r hr) }
  else s

/-- `request`. -/
def request (id : Uuid) (codeHash email : String) : LoginStore lower :=
  match s.getByEmail email with
  | .error _ => s
  | .ok user => s.insertLoginCode (s.newLoginCode settings id codeHash email user)

/-- Delete the login codes with a property. -/
def deleteLoginCodes (p : LoginCode → Prop) [DecidablePred p] : LoginStore lower :=
  { s with
    loginCodes := s.loginCodes.remove p
    loginCodes_codeHash := s.loginCodes_codeHash.remove p
    loginCodes_drawn := fun r hr => s.loginCodes_drawn r (Table.mem_remove.mp hr).1 }

/-- One event. -/
def arrive : LoginEvent lower → LoginStore lower × List Presented
  | .request id codeHash email => (s.request settings id codeHash email, [])
  | .authenticate presented newUser =>
    if settings.Bypasses lower presented then (s.getByEmailOrCreate newUser presented.email, [])
    else (s, [presented])
  | .deleteExpired => (s.deleteLoginCodes fun r => r.expiresAt < s.now, [])
  | .pass microseconds => ({ s with now := s.now + microseconds }, [])
  | .users users unique => ({ s with users, users_email := unique }, [])

/-- `get_valid_by_hash_and_email`. -/
def getValidByHashAndEmail (codeHash email : String) :
    Except MultipleResultsFound (Option LoginCode) :=
  oneOrNone <| s.loginCodes.select fun r =>
    r.codeHash = codeHash ∧ r.email = email ∧ s.now < r.expiresAt

/-- `_lookup_valid_code`, with the user that is loaded along; `none` where `authenticate` raises. -/
def lookupValidCode (presented : Presented) : Option (Uuid × Resolving) :=
  match s.getValidByHashAndEmail (tokenHash presented.code) presented.email with
  | .ok (some record) =>
    some (record.id,
      .loaded { loginCode := record, foundAt := s.now } (record.userId.bind s.users.get))
  | _ => none

/-- One statement of `_resolve_user`. -/
def resolveUser (newUser : Uuid) : Resolving → Progress Resolving SignIn
  | .loaded found (some user) => .finished (verifyEmail found user)
  | .loaded found none =>
    match s.getByEmail found.loginCode.email with
    | .error _ => .raised
    | .ok (some user) => .finished (verifyEmail found user)
    | .ok none => .continued (.creating found)
  | .creating found =>
    if s.Free { id := newUser, email := found.loginCode.email } then
      .finished
        { found
          user := { id := newUser, email := found.loginCode.email, emailVerified := true }
          isSignup := true
          write := .inserted }
    else .raised

/-- What a call has written to the users. -/
def writeUser (signIn : SignIn) : Option (LoginStore lower) :=
  match signIn.write with
  | .unchanged => some s
  | .verified => some (s.verifyUser signIn.user.id)
  | .inserted => s.insertUser signIn.user

/-- The commit of a call: `repo.delete` has removed the row. -/
def commit (id : Uuid) (signIn : SignIn) : Option (LoginStore lower) :=
  (s.writeUser signIn).map fun s' => s'.deleteLoginCodes fun r => r.id = id

/-- The row of a login code is there to be locked. -/
def present (id : Uuid) : Bool := s.loginCodes.rows.any fun r => r.id = id

/-- The login code was issued. -/
def Issued (id : Uuid) : Prop := id ∈ s.drawn

/-- The login code was issued and its row is gone. -/
def Spent (id : Uuid) : Prop := id ∈ s.drawn ∧ ∀ r ∈ s.loginCodes.rows, r.id ≠ id

instance (id : Uuid) : Decidable (s.Spent id) := inferInstanceAs (Decidable (_ ∧ _))

end LoginStore

/-! ### What the operations do to a login code -/

namespace LoginStore

variable {settings tokenHash} {s s' : LoginStore lower} {id : Uuid}

/-- Two states with the same login codes and the same identifiers drawn for them. -/
def SameCodes (s s' : LoginStore lower) : Prop :=
  s'.loginCodes = s.loginCodes ∧ s'.drawn = s.drawn

theorem SameCodes.issued (h : SameCodes s s') : s'.Issued id ↔ s.Issued id := by
  rw [Issued, h.2, Issued]

theorem SameCodes.spent (h : SameCodes s s') : s'.Spent id ↔ s.Spent id := by
  rw [Spent, h.1, h.2, Spent]

theorem sameCodes_insertUser {user : User} (h : s.insertUser user = some s') :
    SameCodes s s' := by
  rw [insertUser] at h
  split at h
  · obtain rfl := Option.some.inj h
    exact ⟨rfl, rfl⟩
  · cases h

theorem sameCodes_getByEmailOrCreate (s : LoginStore lower) (newUser : Uuid) (email : String) :
    SameCodes s (s.getByEmailOrCreate newUser email) := by
  rw [getByEmailOrCreate]
  split
  · rcases hinsert : s.insertUser { id := newUser, email } with _ | s'
    · exact ⟨rfl, rfl⟩
    · exact sameCodes_insertUser hinsert
  · exact ⟨rfl, rfl⟩

theorem sameCodes_writeUser {signIn : SignIn} (h : s.writeUser signIn = some s') :
    SameCodes s s' := by
  rw [writeUser] at h
  split at h
  · obtain rfl := Option.some.inj h
    exact ⟨rfl, rfl⟩
  · obtain rfl := Option.some.inj h
    exact ⟨rfl, rfl⟩
  · exact sameCodes_insertUser h

theorem Issued.insertLoginCode (h : s.Issued id) (record : LoginCode) :
    (s.insertLoginCode record).Issued id := by
  rw [LoginStore.insertLoginCode]
  split
  · exact List.mem_cons_of_mem _ h
  · exact h

theorem Spent.insertLoginCode (h : s.Spent id) (record : LoginCode) :
    (s.insertLoginCode record).Spent id := by
  rw [LoginStore.insertLoginCode]
  split
  next hnew =>
    refine ⟨List.mem_cons_of_mem _ h.1, fun r hr => ?_⟩
    rcases List.mem_cons.mp hr with rfl | hr
    · rintro rfl
      exact hnew.1 h.1
    · exact h.2 r hr
  next => exact h

theorem Spent.deleteLoginCodes (h : s.Spent id) (p : LoginCode → Prop) [DecidablePred p] :
    (s.deleteLoginCodes p).Spent id :=
  ⟨h.1, fun r hr => h.2 r (Table.mem_remove.mp hr).1⟩

theorem Issued.arrive (h : s.Issued id) (event : LoginEvent lower) :
    (s.arrive settings event).1.Issued id := by
  rcases event with ⟨id', codeHash, email⟩ | ⟨presented, newUser⟩ | _ | microseconds | _
  · dsimp only [LoginStore.arrive, LoginStore.request]
    split
    · exact h
    · exact h.insertLoginCode _
  · rw [LoginStore.arrive]
    split
    · exact (sameCodes_getByEmailOrCreate s newUser presented.email).issued.mpr h
    · exact h
  · exact h
  · exact h
  · exact h

theorem Spent.arrive (h : s.Spent id) (event : LoginEvent lower) :
    (s.arrive settings event).1.Spent id := by
  rcases event with ⟨id', codeHash, email⟩ | ⟨presented, newUser⟩ | _ | microseconds | _
  · dsimp only [LoginStore.arrive, LoginStore.request]
    split
    · exact h
    · exact h.insertLoginCode _
  · rw [LoginStore.arrive]
    split
    · exact (sameCodes_getByEmailOrCreate s newUser presented.email).spent.mpr h
    · exact h
  · exact h.deleteLoginCodes _
  · exact h
  · exact h

theorem commit_eq_some {signIn : SignIn} (h : s.commit id signIn = some s') :
    ∃ t, SameCodes s t ∧ s' = t.deleteLoginCodes fun r => r.id = id := by
  obtain ⟨t, hwrite, heq⟩ := Option.map_eq_some_iff.mp h
  exact ⟨t, sameCodes_writeUser hwrite, heq.symm⟩

theorem lookupValidCode_eq_some {presented : Presented} {w : Resolving}
    (h : s.lookupValidCode tokenHash presented = some (id, w)) :
    ∃ record ∈ s.loginCodes, ∃ user, record.id = id ∧ s.now < record.expiresAt ∧
      w = .loaded { loginCode := record, foundAt := s.now } user := by
  rw [lookupValidCode] at h
  split at h
  next record hfind =>
    obtain ⟨hmem, -⟩ := oneOrNone_eq_some_iff.mp hfind
    obtain ⟨hr, -, -, hlive⟩ := Table.mem_select.mp hmem
    obtain ⟨rfl, rfl⟩ := Prod.mk.inj (Option.some.inj h)
    exact ⟨record, hr, _, rfl, hlive, rfl⟩
  next => cases h

theorem resolveUser_cases (s : LoginStore lower) (newUser : Uuid) (w : Resolving) :
    s.resolveUser newUser w = .raised ∨
      s.resolveUser newUser w = .continued (.creating w.found) ∨
      ∃ signIn, s.resolveUser newUser w = .finished signIn ∧ signIn.found = w.found := by
  have hverify (found : FoundCode) (user : User) : (verifyEmail found user).found = found := by
    rw [verifyEmail]
    split <;> rfl
  rcases w with ⟨found, _ | user⟩ | found
  · rw [resolveUser]
    split
    · exact .inl rfl
    next user _ => exact .inr (.inr ⟨_, rfl, hverify found user⟩)
    · exact .inr (.inl rfl)
  · exact .inr (.inr ⟨_, rfl, hverify found user⟩)
  · rw [resolveUser]
    split
    · exact .inr (.inr ⟨_, rfl, rfl⟩)
    · exact .inl rfl

theorem present_of_issued (hissued : s.Issued id) (hspent : ¬s.Spent id) :
    s.present id = true := by
  by_contra habsent
  refine hspent ⟨hissued, fun r hr hid => habsent ?_⟩
  exact List.any_eq_true.mpr ⟨r, hr, decide_eq_true hid⟩

end LoginStore

/-- Calls of `authenticate` as transactions that redeem single-use login codes. -/
def authentications (start : LoginStore lower) :
    SingleUse (LoginStore lower) Uuid Presented Resolving SignIn Uuid (LoginEvent lower) where
  init := start
  arrive := LoginStore.arrive settings
  lookup s presented := s.lookupValidCode tokenHash presented
  work s _ w newUser := s.resolveUser newUser w
  consume _ _ signIn := signIn
  present := LoginStore.present
  commit := LoginStore.commit

variable {settings tokenHash}

theorem authentications_lawful (start : LoginStore lower) :
    (authentications settings tokenHash start).Lawful LoginStore.Issued LoginStore.Spent where
  lookup_issued h := by
    obtain ⟨record, hr, -, rfl, -⟩ := LoginStore.lookupValidCode_eq_some h
    exact LoginStore.loginCodes_drawn _ record hr
  present_of_issued := LoginStore.present_of_issued
  issued_arrive h event := h.arrive event
  spent_arrive h event := h.arrive event
  issued_commit h hcommit := by
    obtain ⟨t, hsame, rfl⟩ := LoginStore.commit_eq_some hcommit
    exact hsame.issued.mpr h
  spent_commit h hcommit := by
    obtain ⟨t, hsame, rfl⟩ := LoginStore.commit_eq_some hcommit
    exact (hsame.spent.mpr h).deleteLoginCodes _
  commit_spends h hcommit := by
    obtain ⟨t, hsame, rfl⟩ := LoginStore.commit_eq_some hcommit
    exact ⟨hsame.issued.mpr h, fun r hr => by simpa using (Table.mem_remove.mp hr).2⟩

/-! ### One sign-in for each login code -/

/-- The code was found before it expired. -/
def FoundCode.UnexpiredAs (found : FoundCode) (id : Uuid) : Prop :=
  found.loginCode.id = id ∧ found.foundAt < found.loginCode.expiresAt

instance (found : FoundCode) (id : Uuid) : Decidable (found.UnexpiredAs id) :=
  inferInstanceAs (Decidable (_ ∧ _))

theorem carries_unexpired (start : LoginStore lower) :
    (authentications settings tokenHash start).Carries (fun id w => w.found.UnexpiredAs id)
      (fun id signIn => signIn.found.UnexpiredAs id) where
  lookup h := by
    obtain ⟨record, -, user, hid, hlive, rfl⟩ := LoginStore.lookupValidCode_eq_some h
    exact ⟨hid, hlive⟩
  continued {s id w newUser w'} hw h := by
    obtain hraised | hcontinued | ⟨signIn, hfinished, -⟩ := s.resolveUser_cases newUser w
    · exact absurd (hraised.symm.trans h) nofun
    · obtain rfl := Progress.continued.inj (hcontinued.symm.trans h)
      exact hw
    · exact absurd (hfinished.symm.trans h) nofun
  finished {s id w newUser signIn} hw h := by
    obtain hraised | hcontinued | ⟨signIn', hfinished, hfound⟩ := s.resolveUser_cases newUser w
    · exact absurd (hraised.symm.trans h) nofun
    · exact absurd (hcontinued.symm.trans h) nofun
    · obtain rfl := Progress.finished.inj (hfinished.symm.trans h)
      rwa [hfound]
  consume h := h

/-- At most one call returns a user for a login code, and none for a code that had expired when
it was looked up. -/
def AuthenticatedOnce (log : List (Uuid × SignIn)) : Prop :=
  (∀ id, (log.filter fun answer => answer.1 = id).length ≤ 1) ∧
    ∀ answer ∈ log, answer.2.found.UnexpiredAs answer.1

/-- **Login codes are single use.** In every run in which each `DELETE` of a call still finds its
row, at most one call returns a user for each login code, and none for an expired one. -/
theorem authenticatedOnce_of_unspent (settings : Settings) (tokenHash : String → String)
    (start : LoginStore lower) {ls : List (Turn (LoginEvent lower) (Option Uuid))}
    (h : (authentications settings tokenHash start).tasks.system.Along
      (SingleUse.Unspent LoginStore.Spent) ls) :
    AuthenticatedOnce ((authentications settings tokenHash start).tasks.system.log ls) :=
  ⟨SingleUse.length_filter_le_one ((authentications_lawful start).nodup_accepted h),
    (carries_unexpired start).forall_accepted ls⟩

/-- A login code that was issued for the email of a user. -/
def oneCode : LoginStore id where
  loginCodes := Table.singleton
    { id := 1, codeHash := "AB12CD", expiresAt := 600000000, email := "a@example.com",
      userId := some 2 }
  users := Table.singleton { id := 2, email := "a@example.com", emailVerified := true }
  drawn := [1]
  users_email := by decide

/-- A call with the code. -/
def call : Turn (LoginEvent id) (Option Uuid) :=
  .event (.authenticate { code := "AB12CD", email := "a@example.com" } 3)

/-- A second call after the first one has committed is refused. -/
theorem oneAfterTheOther_authenticatedOnce :
    AuthenticatedOnce
      ((authentications { env := .production } id oneCode).tasks.system.log
        [call, call, .resumed 0 (some 3), .resumed 0 (some 3), .resumed 0 (some 3),
          .resumed 0 (some 3), .resumed 1 (some 4)]) :=
  authenticatedOnce_of_unspent { env := .production } id oneCode (by decide)

/-- Two calls that overlap both return the user. -/
theorem authenticated_twice :
    ¬∀ (start : LoginStore id) ls, AuthenticatedOnce
      ((authentications { env := .production } id start).tasks.system.log ls) := by
  intro h
  have honce := (h oneCode
    [call, call, .resumed 0 (some 3), .resumed 1 (some 4), .resumed 0 (some 3),
      .resumed 1 (some 4), .resumed 0 (some 3), .resumed 0 (some 3), .resumed 1 (some 4),
      .resumed 1 (some 4)]).1 1
  revert honce
  decide

end Rapidly.Identity.LoginCodes
