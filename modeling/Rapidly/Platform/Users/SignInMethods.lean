import Rapidly.Relational.ReadCommitted
import Rapidly.Transition.Tasks

/-!
# The sign-in methods of a user

`disconnect_platform` of `platform/user/oauth_service.py`, and `link_user` and
`get_updated_or_create` of the platforms, for the external accounts of one user, side by side, one
SQL statement a step. A user signs in with a verified email or with an external account.

* `operations` is the system, for any accounts that the user has in the beginning.
* `method_kept` says in which runs a user who has a sign-in method keeps one.
-/

namespace Rapidly.Platform

open Relational Transition

namespace SignIn

/-- `OAuthPlatform`. -/
inductive OAuthPlatform where
  | microsoft
  | google
  | apple
deriving DecidableEq

/-- An external account of the user. -/
structure OAuthAccount where
  platform : OAuthPlatform
  accountId : String
deriving DecidableEq

/-- A row of the accounts, from its `INSERT` on. -/
abbrev Row := Versioned (Option OAuthAccount)

/-- The column `email_verified` of the user, and its accounts. -/
structure State where
  emailVerified : Bool
  accounts : List Row

/-- An operation. -/
inductive Task where
  /-- `disconnect_platform`: the user is loaded, the accounts of the platform are selected, the
  others are counted, and the accounts are deleted. -/
  | loading (platform : OAuthPlatform)
  | selecting (platform : OAuthPlatform) (emailVerified : Bool)
  | counting (targets : List ℕ) (emailVerified : Bool)
  | deleting (targets : List ℕ)
  /-- `link_user` looks for the account. -/
  | linking (account : OAuthAccount)
  /-- `get_updated_or_create` looks for the account. If nobody has it, the user is found by the
  email, which the platform has verified or not, or is not found. -/
  | signingIn (account : OAuthAccount) (emailVerified : Option Bool)
  | inserting (account : OAuthAccount)
  /-- The tokens of an account are written. -/
  | updating (row : ℕ)
  | committing
  | ended
  /-- `disconnect_platform` has raised `OAuthAccountNotFound` or
  `CannotDisconnectLastAuthMethod`. -/
  | refused
  | failed
deriving DecidableEq

inductive Event where
  | disconnect (platform : OAuthPlatform)
  | link (account : OAuthAccount)
  | signIn (account : OAuthAccount) (emailVerified : Option Bool)
  /-- The email is verified. -/
  | verifyEmail
deriving DecidableEq

/-- The accounts that a query of a transaction that has written nothing finds. -/
def State.select (s : State) (p : OAuthAccount → Bool) : List ℕ :=
  (s.accounts.zipIdx.filter fun (r, _) => r.committed.any p).map Prod.snd

/-- `get_all_by_user_and_platform`. -/
def State.getAllByPlatform (s : State) (platform : OAuthPlatform) : List ℕ :=
  s.select fun a => a.platform = platform

/-- `count_by_user_excluding`. -/
def State.countExcluding (s : State) (targets : List ℕ) : ℕ :=
  ((s.select fun _ => true).filter (· ∉ targets)).length

/-- The row is there, and will be there when every transaction commits. -/
abbrev Stays (r : Row) : Prop := r.Stands (Option.isSome ·)

/-- The end of a transaction that commits. -/
def State.commit (s : State) (i : ℕ) : State :=
  { s with accounts := s.accounts.map (·.commit i) }

/-- The end of a transaction that is rolled back. -/
def State.rollback (s : State) (i : ℕ) : State :=
  { s with accounts := s.accounts.map (·.rollback i) }

def State.write (s : State) (i row : ℕ) (v : Option OAuthAccount) : State :=
  { s with accounts := s.accounts.modify row (·.write i v) }

/-- The row of a new account. -/
def insertedRow (i : ℕ) (account : OAuthAccount) : Row where
  committed := none
  pending := some (i, some account)

/-- One step of an operation. A statement waits while another transaction holds the row. -/
def Task.advance (s : State) (i : ℕ) : Outcome → Task → State × Task × List Unit
  | .executed, .loading platform => (s, .selecting platform s.emailVerified, [])
  | .executed, .selecting platform emailVerified =>
    match s.getAllByPlatform platform with
    | [] => (s, .refused, [])
    | row :: rows => (s, .counting (row :: rows) emailVerified, [])
  | .executed, .counting targets emailVerified =>
    if s.countExcluding targets = 0 ∧ ¬emailVerified then (s, .refused, [])
    else (s, .deleting targets, [])
  | .executed, .deleting [] => (s, .committing, [])
  | .executed, .deleting (row :: rows) =>
    if ∃ r ∈ s.accounts[row]?, r.LockedFor i then (s, .deleting (row :: rows), [])
    -- a row that is gone is not deleted again
    else if ∃ r ∈ s.accounts[row]?, r.latest.isSome then (s.write i row none, .deleting rows, [])
    else (s, .deleting rows, [])
  | .executed, .linking account =>
    match s.select (· = account) with
    | [] => (s, .inserting account, [])
    | row :: _ => (s, .updating row, [])
  | .executed, .signingIn account emailVerified =>
    match s.select (· = account) with
    | [] =>
      match emailVerified with
      | some true => (s, .inserting account, [])
      | some false => (s, .failed, [])
      | none => (s, .ended, [])
    | _ :: _ =>
      -- `get_oauth_account`, which may be another account of the platform
      match s.getAllByPlatform account.platform with
      | [] => (s, .failed, [])
      | row :: _ => (s, .updating row, [])
  | .executed, .inserting account =>
    if ∃ r ∈ s.accounts, r.LockedFor i ∧ (r.latest = some account ∨ r.committed = some account) then
      (s, .inserting account, [])
    -- the unique constraint
    else if ∃ r ∈ s.accounts, r.latest = some account then (s.rollback i, .failed, [])
    else ({ s with accounts := s.accounts ++ [insertedRow i account] }, .committing, [])
  | .executed, .updating row =>
    match s.accounts[row]? with
    | none => (s.rollback i, .failed, [])
    | some r =>
      if r.LockedFor i then (s, .updating row, [])
      else if r.latest.isSome then (s.write i row r.latest, .committing, [])
      -- the row is gone
      else (s.rollback i, .failed, [])
  | .executed, .committing => (s.commit i, .ended, [])
  | .raised, .ended => (s, .ended, [])
  | .raised, .refused => (s, .refused, [])
  | .raised, _ => (s.rollback i, .failed, [])
  | _, t => (s, t, [])

/-- The operations on the accounts of one user. -/
def operations (emailVerified : Bool) (accounts : List OAuthAccount) :
    Tasks State Task Event Outcome Unit where
  init := { emailVerified, accounts := accounts.map fun a => { committed := some a } }
  arrive s _
    | .disconnect platform => (s, [.loading platform], [])
    | .link account => (s, [.linking account], [])
    | .signIn account emailVerified => (s, [.signingIn account emailVerified], [])
    | .verifyEmail => ({ s with emailVerified := true }, [], [])
  advance s i := Task.advance s i

/-- The user has a verified email, or an account. -/
def State.HasMethod (s : State) : Prop :=
  s.emailVerified = true ∨ ∃ r ∈ s.accounts, r.committed.isSome

instance (s : State) : Decidable s.HasMethod :=
  inferInstanceAs (Decidable (_ ∨ ∃ r ∈ s.accounts, _))

/-- `disconnect_platform` before it deletes anything. -/
def Task.Guarding : Task → Prop
  | .loading _ | .selecting _ _ | .counting _ _ | .refused => True
  | _ => False

instance (t : Task) : Decidable t.Guarding := by
  cases t <;> unfold Task.Guarding <;> infer_instance

/-- A user who has a sign-in method has one after the step, and a disconnection that is refused, now
or later, leaves the accounts as they are. -/
def MethodKept (emailVerified : Bool) (accounts : List OAuthAccount) :
    System.Condition (Pool State Task) (Turn Event Outcome)
  | _, p, l =>
    (p.shared.HasMethod → ((operations emailVerified accounts).step p l).1.shared.HasMethod) ∧
      ∀ w ∈ p.resumed l, w.1 = .executed → w.2.Guarding →
        ((operations emailVerified accounts).step p l).1.shared.accounts = p.shared.accounts

instance (emailVerified : Bool) (accounts : List OAuthAccount) (past : List (Turn Event Outcome))
    (p : Pool State Task) (l : Turn Event Outcome) :
    Decidable (MethodKept emailVerified accounts past p l) :=
  inferInstanceAs (Decidable (_ ∧ ∀ w ∈ p.resumed l, _))

/-- When an account is deleted, the email is verified, or another account stays. -/
def AnotherStays : System.Condition (Pool State Task) (Turn Event Outcome)
  | _, p, .resumed i .executed =>
    match p.tasks[i]? with
    | some (.deleting (row :: _)) =>
      (∀ r ∈ p.shared.accounts[row]?, ¬r.LockedFor i ∧ r.latest.isSome) →
        p.shared.emailVerified = true ∨
          ∃ j < p.shared.accounts.length, j ≠ row ∧ ∃ r ∈ p.shared.accounts[j]?, Stays r
    | _ => True
  | _, _, _ => True

instance (past : List (Turn Event Outcome)) (p : Pool State Task) (l : Turn Event Outcome) :
    Decidable (AnotherStays past p l) := by
  unfold AnotherStays
  split
  · split <;> infer_instance
  · infer_instance

variable {s : State} {i : ℕ} {answer : Outcome} {t : Task}

/-- What one step of an operation can do. -/
inductive Advanced (s : State) (i : ℕ) : Outcome → Task → State × Task → Prop
  | went (answer : Outcome) (t t' : Task) : Advanced s i answer t (s, t')
  | deleted (row : ℕ) (rows : List ℕ) (hfree : ¬∃ r ∈ s.accounts[row]?, r.LockedFor i)
    (hlive : ∃ r ∈ s.accounts[row]?, r.latest.isSome) :
    Advanced s i .executed (.deleting (row :: rows)) (s.write i row none, .deleting rows)
  | inserted (account : OAuthAccount) :
    Advanced s i .executed (.inserting account)
      ({ s with accounts := s.accounts ++ [insertedRow i account] }, .committing)
  | updated (row : ℕ) (r : Row) (hr : s.accounts[row]? = some r) (hlive : r.latest.isSome) :
    Advanced s i .executed (.updating row) (s.write i row r.latest, .committing)
  | committed : Advanced s i .executed .committing (s.commit i, .ended)
  | failed (answer : Outcome) (t : Task) (h : answer = .executed → ¬t.Guarding) :
    Advanced s i answer t (s.rollback i, .failed)

theorem Task.advanced : Advanced s i answer t
    ((t.advance s i answer).1, (t.advance s i answer).2.1) := by
  fun_cases Task.advance s i answer t
  case case8 hfree hlive => exact .deleted _ _ hfree hlive
  case case18 => exact .failed _ _ fun _ h => h
  case case19 => exact .inserted _
  case case20 => exact .failed _ _ fun _ h => h
  case case22 r hr _ hlive => exact .updated _ r hr hlive
  case case23 => exact .failed _ _ fun _ h => h
  case case24 => exact .committed
  case case27 => exact .failed _ _ fun h => absurd h (by simp)
  all_goals exact .went ..

/-- The user has a sign-in method, however the transactions end. -/
def State.Kept (s : State) : Prop := s.emailVerified = true ∨ ∃ r ∈ s.accounts, Stays r

theorem State.Kept.hasMethod (h : s.Kept) : s.HasMethod :=
  h.imp_right fun ⟨r, hr, hstays⟩ => ⟨r, hr, hstays.1⟩

theorem State.Kept.map {f : Row → Row} (h : s.Kept) (hf : ∀ r, Stays r → Stays (f r)) :
    State.Kept { s with accounts := s.accounts.map f } :=
  h.imp_right fun ⟨r, hr, hstays⟩ => ⟨f r, List.mem_map_of_mem hr, hf r hstays⟩

theorem State.Kept.commit (h : s.Kept) : (s.commit i).Kept := h.map fun _ h => h.commit

theorem State.Kept.rollback (h : s.Kept) : (s.rollback i).Kept := h.map fun _ h => h.rollback

theorem State.Kept.write {row : ℕ} {v : Option OAuthAccount} (h : s.Kept) (hv : v.isSome) :
    (s.write i row v).Kept := by
  refine h.imp_right fun ⟨r, hr, hstays⟩ => ?_
  obtain ⟨j, hj⟩ := List.mem_iff_getElem?.mp hr
  by_cases hrow : j = row
  · subst hrow
    exact ⟨r.write i v, List.mem_of_getElem? (getElem?_modify_self hj), hstays.write hv⟩
  · exact ⟨r, List.mem_of_getElem? ((getElem?_modify_of_ne hrow).trans hj), hstays⟩

theorem State.Kept.of_other {row : ℕ} {v : Option OAuthAccount}
    (h : s.emailVerified = true ∨
      ∃ j < s.accounts.length, j ≠ row ∧ ∃ r ∈ s.accounts[j]?, Stays r) :
    (s.write i row v).Kept := by
  refine h.imp_right fun ⟨j, _, hj, r, hr, hstays⟩ => ⟨r, ?_, hstays⟩
  exact List.mem_of_getElem? ((getElem?_modify_of_ne hj).trans hr)

theorem State.kept_of_commit (hbefore : ¬s.HasMethod) (hafter : (s.commit i).HasMethod) :
    (s.commit i).Kept := by
  refine hafter.imp_right fun ⟨r', hr', hsome⟩ => ⟨r', hr', ?_⟩
  obtain ⟨r, hr, rfl⟩ := List.mem_map.mp hr'
  exact Versioned.stands_of_commit hsome fun h => hbefore (.inr ⟨r, hr, h⟩)

theorem State.hasMethod_write {row : ℕ} {v : Option OAuthAccount}
    (h : (s.write i row v).HasMethod) : s.HasMethod := by
  refine h.imp_right fun ⟨r', hr', hsome⟩ => ?_
  obtain ⟨j, hj⟩ := List.mem_iff_getElem?.mp hr'
  rcases getElem?_modify_cases hj with ⟨r, hr, -, rfl⟩ | ⟨hold, -⟩
  · exact ⟨r, List.mem_of_getElem? hr, hsome⟩
  · exact ⟨r', List.mem_of_getElem? hold, hsome⟩

theorem State.hasMethod_rollback (h : (s.rollback i).HasMethod) : s.HasMethod := by
  refine h.imp_right fun ⟨r', hr', hsome⟩ => ?_
  obtain ⟨r, hr, rfl⟩ := List.mem_map.mp hr'
  rw [Versioned.committed_rollback] at hsome
  exact ⟨r, hr, hsome⟩

variable {past ls : List (Turn Event Outcome)} {p : Pool State Task} {r : State × Task}

/-- What is kept, whichever transactions commit, is kept in a step that meets the condition. -/
theorem State.Kept.advanced (h : p.shared.Kept) (hC : AnotherStays past p (.resumed i answer))
    (hi : p.tasks[i]? = some t) (hr : Advanced p.shared i answer t r) : r.1.Kept := by
  cases hr with
  | went => exact h
  | deleted row rows hfree hlive =>
    rw [AnotherStays, hi] at hC
    refine .of_other (hC fun r hr => ⟨fun hlocked => hfree ⟨r, hr, hlocked⟩, ?_⟩)
    obtain ⟨r', hr', hlive⟩ := hlive
    rwa [Option.some.inj (hr.symm.trans hr')]
  | inserted account =>
    exact h.imp_right fun ⟨r, hr, hstays⟩ => ⟨r, List.mem_append_left _ hr, hstays⟩
  | updated row r _ hlive => exact h.write hlive
  | committed => exact h.commit
  | failed => exact h.rollback

theorem Advanced.kept (h : Advanced s i answer t r) (hbefore : ¬s.HasMethod)
    (hafter : r.1.HasMethod) : r.1.Kept := by
  cases h with
  | went => exact absurd hafter hbefore
  | deleted => exact absurd (State.hasMethod_write hafter) hbefore
  | inserted account =>
    refine absurd (hafter.imp_right fun ⟨r, hr, hsome⟩ => ⟨r, ?_, hsome⟩) hbefore
    rcases List.mem_append.mp hr with hold | hnew
    · exact hold
    · rw [List.mem_singleton.mp hnew] at hsome
      exact absurd hsome (by simp [insertedRow])
  | updated => exact absurd (State.hasMethod_write hafter) hbefore
  | committed => exact State.kept_of_commit hbefore hafter
  | failed => exact absurd (State.hasMethod_rollback hafter) hbefore

/-- A disconnection that has not passed its guard leaves the accounts as they are. -/
theorem Advanced.accounts_of_guarding (h : Advanced s i .executed t r) (ht : t.Guarding) :
    r.1.accounts = s.accounts := by
  cases h with
  | went => rfl
  | failed _ _ hnot => exact absurd ht (hnot rfl)
  | _ => exact ht.elim

/-- What holds in every state of the runs. -/
def Sound (s : State) : Prop := s.HasMethod → s.Kept

theorem Sound.advanced (h : Sound p.shared) (hC : AnotherStays past p (.resumed i answer))
    (hi : p.tasks[i]? = some t) (hr : Advanced p.shared i answer t r) : Sound r.1 := by
  intro hafter
  by_cases hbefore : p.shared.HasMethod
  · exact (h hbefore).advanced hC hi hr
  · exact hr.kept hbefore hafter

variable {emailVerified : Bool} {accounts : List OAuthAccount}

theorem Sound.event (h : Sound p.shared) (e : Event) :
    Sound ((operations emailVerified accounts).step p (.event e)).1.shared := by
  cases e with
  | verifyEmail => exact fun _ => .inl rfl
  | _ => exact h

theorem invariant :
    (operations emailVerified accounts).Invariant AnotherStays (Sound ·.shared) where
  init hmethod := by
    refine hmethod.imp_right fun ⟨r, hr, hsome⟩ => ⟨r, hr, hsome, ?_⟩
    obtain ⟨a, -, rfl⟩ := List.mem_map.mp hr
    exact hsome
  event hp _ := hp.event _
  resumed hp hC hi := hp.advanced hC hi Task.advanced

/-- **A user keeps a way to sign in.** In a run in which, whenever an account is deleted, the email
is verified or another account is committed and not about to be deleted, a user who has a sign-in
method has one after every step, and a disconnection that is refused removes nothing. -/
theorem method_kept {emailVerified : Bool} {accounts : List OAuthAccount}
    {ls : List (Turn Event Outcome)}
    (h : (operations emailVerified accounts).system.Along AnotherStays ls) :
    (operations emailVerified accounts).system.Along (MethodKept emailVerified accounts) ls := by
  refine invariant.along (fun past p l hsound hC => ⟨fun hmethod => ?_, ?_⟩) h
  · rcases l with e | ⟨i, answer⟩
    · cases e with
      | verifyEmail => exact .inl rfl
      | _ => exact hmethod
    · cases hi : p.tasks[i]? with
      | none =>
        rw [Tasks.step_resumed_none hi]
        exact hmethod
      | some t =>
        rw [Tasks.step_resumed hi]
        exact ((hsound hmethod).advanced hC hi Task.advanced).hasMethod
  · rintro ⟨answer, t⟩ hw rfl hguarding
    obtain ⟨i, rfl, hi⟩ := Pool.resumed_eq_some hw
    rw [Tasks.step_resumed hi]
    exact Task.advanced.accounts_of_guarding hguarding

/-- A user with two platforms disconnects both, one after the other; the second is refused. -/
def oneByOne : List (Turn Event Outcome) :=
  [.event (.disconnect .google), .resumed 0 .executed, .resumed 0 .executed, .resumed 0 .executed,
    .resumed 0 .executed, .resumed 0 .executed, .resumed 0 .executed,
    .event (.disconnect .microsoft), .resumed 1 .executed, .resumed 1 .executed,
    .resumed 1 .executed]

theorem oneByOne_kept :
    ((operations false [⟨.google, "g"⟩, ⟨.microsoft, "m"⟩]).system.after oneByOne).tasks =
        [.ended, .refused] ∧
      (operations false [⟨.google, "g"⟩, ⟨.microsoft, "m"⟩]).system.Along
        (MethodKept false [⟨.google, "g"⟩, ⟨.microsoft, "m"⟩]) oneByOne :=
  ⟨by decide, method_kept (by decide)⟩

/-- Both are disconnected side by side: each has counted the account of the other. -/
def sideBySide : List (Turn Event Outcome) :=
  [.event (.disconnect .google), .event (.disconnect .microsoft), .resumed 0 .executed,
    .resumed 0 .executed, .resumed 0 .executed, .resumed 1 .executed, .resumed 1 .executed,
    .resumed 1 .executed, .resumed 0 .executed, .resumed 0 .executed, .resumed 0 .executed,
    .resumed 1 .executed, .resumed 1 .executed, .resumed 1 .executed]

/-- The user is left without a verified email and without an account. -/
theorem not_method_kept :
    ¬((operations false [⟨.google, "g"⟩, ⟨.microsoft, "m"⟩]).system.after
        sideBySide).shared.HasMethod ∧
      ¬(operations false [⟨.google, "g"⟩, ⟨.microsoft, "m"⟩]).system.Along
        (MethodKept false [⟨.google, "g"⟩, ⟨.microsoft, "m"⟩]) sideBySide := by
  decide

end SignIn

end Rapidly.Platform
