import Rapidly.Identity.Schema
import Rapidly.Platform.Anonymization
import Rapidly.Relational.ReadCommitted
import Rapidly.Transition.System

/-!
# Deleting a user who may return

`get_by_email_or_create`, `request_deletion` and `soft_delete_user` of `platform/user/actions.py`,
one request after the other. The address of a deleted user is replaced with its digest, and the
row stays under the unique index on the lower-cased address.

* `requests` is the system, for any sequence of sign-ups and deletion requests.
* `canReturn_iff` says in which runs every user without workspaces can be deleted and sign up
  again.
-/

namespace Rapidly.Platform

open Relational Transition

open Identity (Uuid Time WorkspaceMembership)

namespace UserDeletion

/-- `OAuthPlatform` and the identifier of an account there. -/
structure OAuthAccount where
  userId : ℕ
  platform : String
  accountId : String
deriving DecidableEq

structure NotificationRecipient where
  userId : ℕ
  deletedAt : Option Time := none
deriving DecidableEq

/-- A user; its number is its place in the table. -/
structure User where
  email : String
  avatarUrl : Option String := none
  /-- The column `meta`. -/
  metadata : List (String × String) := []
  blockedAt : Option Time := none
  deletedAt : Option Time := none
deriving DecidableEq

/-- `User.can_authenticate`. -/
def User.canAuthenticate (user : User) : Bool := user.deletedAt.isNone && user.blockedAt.isNone

structure Workspace where
  id : Uuid
  slug : String
  name : String
  blockedAt : Option Time := none
  deletedAt : Option Time := none
deriving DecidableEq

structure Store where
  users : List User := []
  oauthAccounts : List OAuthAccount := []
  recipients : List NotificationRecipient := []
  workspaces : List Workspace := []
  memberships : List WorkspaceMembership := []
deriving DecidableEq

/-- What is not under `src/`: `lower` of the database and of Python, the digest, and the validation
of an address that signs up. -/
structure Env where
  lower : String → String
  pyLower : String → String
  sha256 : String → String
  valid : String → Bool

/-- What the validation guarantees: an address contains an `@`, Python and the database lower its
letters in the same way, and its domain is not the reserved one that deleted users have. -/
structure Env.Lawful (env : Env) : Prop where
  at_mem : ∀ email, env.valid email = true → '@' ∈ email.toList
  pyLower_eq : ∀ email, env.valid email = true → env.pyLower email = env.lower email
  reserved : ∀ email digest, env.valid email = true →
    env.lower email ≠ env.lower (digest ++ "@" ++ anonEmailDomain)

/-- `UserDeletionResponse`. -/
structure DeletionResponse where
  deleted : Bool
  blockedReasons : List String := []
  blockingWorkspaces : List (Uuid × String × String) := []
deriving DecidableEq

inductive Reply where
  | user (id : ℕ) (created : Bool)
  | deletion (response : DeletionResponse)
  | unauthorized
  | invalidAddress
  | multipleResultsFound
  | integrityError
  | assertionError
  | done
deriving DecidableEq

inductive Operation where
  | signUp (email : String)
  | requestDeletion (user : ℕ) (now : Time)
  | setBlocked (user : ℕ) (blockedAt : Option Time)
  /-- Workspaces and their members change. -/
  | directory (workspaces : List Workspace) (memberships : List WorkspaceMembership)
deriving DecidableEq

namespace Store

variable (env : Env) (s : Store)

/-- `get_by_email`, for users who are neither deleted nor blocked. -/
def getByEmail (email : String) : Except MultipleResultsFound (Option ℕ) :=
  oneOrNone ((s.users.zipIdx.filter fun (u, _) =>
    env.lower u.email = env.pyLower email ∧ u.deletedAt = none ∧ u.blockedAt = none).map Prod.snd)

/-- Another row than that of the user has the address, up to the case of letters. -/
def Taken (user : ℕ) (email : String) : Prop :=
  ∃ j < s.users.length, j ≠ user ∧ ∃ u ∈ s.users[j]?, env.lower u.email = env.lower email

instance (user : ℕ) (email : String) : Decidable (s.Taken env user email) :=
  inferInstanceAs (Decidable (∃ j < s.users.length, _ ∧ ∃ u ∈ s.users[j]?, _))

/-- `get_by_email_or_create`. -/
def signUp (email : String) : Store × Reply :=
  if env.valid email = false then (s, .invalidAddress)
  else
    match s.getByEmail env email with
    | .error _ => (s, .multipleResultsFound)
    | .ok (some id) => (s, .user id false)
    | .ok none =>
      -- the unique index
      if s.Taken env s.users.length email then (s, .integrityError)
      else ({ s with users := s.users ++ [{ email }] }, .user s.users.length true)

/-- `get_all_by_user`. -/
def getAllByUser (user : ℕ) : List Workspace :=
  s.workspaces.filter fun w =>
    w.deletedAt = none ∧ w.blockedAt = none ∧
      ∃ m ∈ s.memberships, m.userId = user ∧ m.workspaceId = w.id ∧ m.deletedAt = none

/-- `check_can_delete`. -/
def checkCanDelete (user : ℕ) : DeletionResponse :=
  let blockers := s.getAllByUser user
  { deleted := false
    blockedReasons := if blockers = [] then [] else ["has_active_workspaces"]
    blockingWorkspaces := blockers.map fun w => (w.id, w.slug, w.name) }

/-- `_purge_linked_records`. -/
def purgeLinkedRecords (user : ℕ) (now : Time) : Store :=
  { s with
    oauthAccounts := s.oauthAccounts.filter (·.userId ≠ user)
    recipients := s.recipients.map fun r =>
      if r.userId = user ∧ r.deletedAt = none then { r with deletedAt := some now } else r }

end Store

/-- The columns that `soft_delete_user` writes. -/
def User.anonymize (email : String) (now : Time) (u : User) : User :=
  { u with
    email
    avatarUrl := if truthy u.avatarUrl then none else u.avatarUrl
    metadata := []
    deletedAt := some now }

namespace Store

variable (env : Env) (s : Store)

/-- `soft_delete_user`. -/
def softDeleteUser (user : ℕ) (u : User) (now : Time) : Store × Reply :=
  match anonymizeEmailForDeletion env.sha256 u.email with
  | none => (s, .assertionError)
  | some email =>
    -- the unique index
    if s.Taken env user email then (s, .integrityError)
    else
      let s := s.purgeLinkedRecords user now
      ({ s with users := s.users.modify user (.anonymize email now) },
        .deletion { deleted := true })

/-- `request_deletion`, of the user who has signed in. -/
def requestDeletion (user : ℕ) (now : Time) : Store × Reply :=
  match s.users[user]?.filter User.canAuthenticate with
  | none => (s, .unauthorized)
  | some u =>
    if (s.checkCanDelete user).blockedReasons = [] then s.softDeleteUser env user u now
    else (s, .deletion (s.checkCanDelete user))

def perform : Operation → Store × Reply
  | .signUp email => s.signUp env email
  | .requestDeletion user now => s.requestDeletion env user now
  | .setBlocked user blockedAt =>
    ({ s with users := s.users.modify user fun u => { u with blockedAt } },
      .done)
  | .directory workspaces memberships => ({ s with workspaces, memberships }, .done)

end Store

/-- All sequences of requests, from an empty database on. What is observed are the replies. -/
def requests (env : Env) : System Store Operation Reply where
  init := {}
  step s op := ((s.perform env op).1, [(s.perform env op).2])

/-- A deletion request of a user without active workspaces succeeds, and afterwards nobody has the
address; and who signs up with an address that nobody has becomes a new user. -/
def CanReturn (env : Env) : System.Condition Store Operation
  | _, s, .requestDeletion user now =>
    ∀ u ∈ s.users[user]?, u.canAuthenticate = true → s.getAllByUser user = [] →
      (s.requestDeletion env user now).2 = .deletion { deleted := true } ∧
        ∀ row ∈ (s.requestDeletion env user now).1.users, env.lower row.email ≠ env.lower u.email
  | _, s, .signUp email =>
    env.valid email = true → (∀ row ∈ s.users, env.lower row.email ≠ env.lower email) →
      s.signUp env email =
        ({ s with users := s.users ++ [{ email }] }, .user s.users.length true)
  | _, _, _ => True

/-- No other row has the address that a user without active workspaces gets when it is deleted. -/
def Unused (env : Env) : System.Condition Store Operation
  | _, s, .requestDeletion user _ =>
    ∀ u ∈ s.users[user]?, u.canAuthenticate = true → s.getAllByUser user = [] →
      ∀ email ∈ anonymizeEmailForDeletion env.sha256 u.email, ¬s.Taken env user email
  | _, _, _ => True

instance (env : Env) (past : List Operation) (s : Store) (op : Operation) :
    Decidable (CanReturn env past s op) := by
  cases op <;> unfold CanReturn <;> infer_instance

instance (env : Env) (past : List Operation) (s : Store) (op : Operation) :
    Decidable (Unused env past s op) := by
  cases op <;> unfold Unused <;> infer_instance

variable {env : Env} {s : Store} {email : String} {user : ℕ} {u : User} {now : Time}
variable {past : List Operation} {op : Operation}

/-- What holds in every state: no two rows have the same address, up to the case of letters, and
who is not deleted has the address that has been validated. -/
structure Sound (env : Env) (s : Store) : Prop where
  unique : ∀ (i j : ℕ) (u v : User), s.users[i]? = some u → s.users[j]? = some v →
    env.lower u.email = env.lower v.email → i = j
  valid : ∀ u ∈ s.users, u.deletedAt = none → env.valid u.email = true

theorem Store.not_taken_iff : ¬s.Taken env user email ↔
    ∀ (j : ℕ) (u : User), s.users[j]? = some u → j ≠ user →
      env.lower u.email ≠ env.lower email := by
  constructor
  · intro h j u hu hj hlower
    exact h ⟨j, (List.getElem?_eq_some_iff.mp hu).1, hj, u, hu, hlower⟩
  · rintro h ⟨j, -, hj, u, hu, hlower⟩
    exact h j u hu hj hlower

/-- A row that is written keeps the index unique, if no other one has its address. -/
theorem Sound.modify (h : Sound env s) {f : User → User}
    (hvalid : ∀ u, s.users[user]? = some u → (f u).deletedAt = none → env.valid (f u).email = true)
    (hfree : ∀ u, s.users[user]? = some u → ¬s.Taken env user (f u).email) {s' : Store}
    (hs' : s'.users = s.users.modify user f) : Sound env s' := by
  have hcases : ∀ {i : ℕ} {v : User}, s'.users[i]? = some v →
      (∃ u, s.users[user]? = some u ∧ i = user ∧ v = f u) ∨ s.users[i]? = some v ∧ i ≠ user := by
    intro i v hv
    rw [hs'] at hv
    exact getElem?_modify_cases hv
  constructor
  · intro i j v w hv hw hlower
    rcases hcases hv with ⟨u, hu, rfl, rfl⟩ | ⟨hold, hi⟩
    · rcases hcases hw with ⟨-, -, rfl, -⟩ | ⟨hold, hj⟩
      · rfl
      · exact absurd hlower.symm (Store.not_taken_iff.mp (hfree u hu) j w hold hj)
    · rcases hcases hw with ⟨u, hu, rfl, rfl⟩ | ⟨hold', -⟩
      · exact absurd hlower (Store.not_taken_iff.mp (hfree u hu) i v hold hi)
      · exact h.unique i j v w hold hold' hlower
  · intro v hv hlive
    obtain ⟨i, hi⟩ := List.mem_iff_getElem?.mp hv
    rcases hcases hi with ⟨u, hu, -, rfl⟩ | ⟨hold, -⟩
    · exact hvalid u hu hlive
    · exact h.valid v (List.mem_of_getElem? hold) hlive

theorem signUp_eq (henv : env.Lawful) (hvalid : env.valid email = true)
    (hfree : ∀ row ∈ s.users, env.lower row.email ≠ env.lower email) :
    s.signUp env email =
      ({ s with users := s.users ++ [{ email }] }, .user s.users.length true) := by
  have hnone : s.getByEmail env email = .ok none := by
    rw [Store.getByEmail, oneOrNone_eq_none_iff, List.map_eq_nil_iff, List.filter_eq_nil_iff]
    rintro ⟨row, j⟩ hrow
    have hne := hfree row (List.fst_mem_of_mem_zipIdx hrow)
    simp [henv.pyLower_eq email hvalid, hne]
  have hnot : ¬s.Taken env s.users.length email := by
    rw [Store.not_taken_iff]
    intro j u hu _
    exact hfree u (List.mem_of_getElem? hu)
  rw [Store.signUp, if_neg (by simp [hvalid]), hnone]
  exact if_neg hnot

theorem requestDeletion_eq (now : Time) (henv : env.Lawful) (hvalid : env.valid u.email = true)
    (hu : s.users[user]? = some u) (hauth : u.canAuthenticate = true)
    (hnone : s.getAllByUser user = []) :
    ∃ email, anonymizeEmailForDeletion env.sha256 u.email = some email ∧
      env.lower u.email ≠ env.lower email ∧
      s.requestDeletion env user now =
        if s.Taken env user email then (s, .integrityError)
        else
          ({ s.purgeLinkedRecords user now with
              users := s.users.modify user (.anonymize email now) },
            .deletion { deleted := true }) := by
  have hanon := anonymizeEmailForDeletion_eq_some env.sha256 (henv.at_mem _ hvalid)
  have hfilter : s.users[user]?.filter User.canAuthenticate = some u := by
    rw [hu]
    exact if_pos hauth
  refine ⟨_, hanon, henv.reserved u.email _ hvalid, ?_⟩
  rw [Store.requestDeletion, hfilter]
  dsimp only
  rw [if_pos (by simp [Store.checkCanDelete, hnone]), Store.softDeleteUser, hanon]
  rfl

theorem Sound.ne_of_anonymized (h : Sound env s) (hu : s.users[user]? = some u)
    (hne : env.lower u.email ≠ env.lower email) :
    ∀ row ∈ s.users.modify user (.anonymize email now),
      env.lower row.email ≠ env.lower u.email := by
  intro row hrow
  obtain ⟨j, hj⟩ := List.mem_iff_getElem?.mp hrow
  rcases getElem?_modify_cases hj with ⟨u', -, -, rfl⟩ | ⟨hold, hj⟩
  · exact hne.symm
  · intro hlower
    exact hj (h.unique j user row u hold hu hlower)

theorem Sound.canReturn_step_iff (h : Sound env s) (henv : env.Lawful) :
    CanReturn env past s op ↔ Unused env past s op := by
  cases op with
  | signUp email => exact iff_of_true (signUp_eq henv) trivial
  | requestDeletion user now =>
    rw [CanReturn, Unused]
    refine forall_congr' fun u => forall_congr' fun hu => forall_congr' fun hauth =>
      forall_congr' fun hnone => ?_
    have hlive : u.deletedAt = none := by
      have hboth := (Bool.and_eq_true_iff.mp hauth).1
      simpa using hboth
    have hvalid : env.valid u.email = true := h.valid u (List.mem_of_getElem? hu) hlive
    obtain ⟨email, hemail, hne, heq⟩ := requestDeletion_eq now henv hvalid hu hauth hnone
    rw [hemail, heq]
    constructor
    · rintro ⟨hdeleted, -⟩ email' hemail'
      obtain rfl := Option.some.inj hemail'
      intro htaken
      rw [if_pos htaken] at hdeleted
      exact absurd hdeleted (by simp)
    · intro hfree
      rw [if_neg (hfree email rfl)]
      exact ⟨rfl, h.ne_of_anonymized hu hne⟩
  | setBlocked user blockedAt => exact Iff.rfl
  | directory workspaces memberships => exact Iff.rfl

theorem sound_empty : Sound env {} := ⟨by simp, by simp⟩

theorem Sound.append (h : Sound env s) (hvalid : env.valid u.email = true)
    (hfree : ¬s.Taken env s.users.length u.email) :
    Sound env { s with users := s.users ++ [u] } := by
  rw [Store.not_taken_iff] at hfree
  have hfree' : ∀ {i : ℕ} {v : User}, s.users[i]? = some v →
      env.lower v.email ≠ env.lower u.email :=
    fun hv => hfree _ _ hv (List.getElem?_eq_some_iff.mp hv).1.ne
  constructor
  · intro i j v w hv hw hlower
    rcases getElem?_concat_cases hv with hi | ⟨rfl, rfl⟩
    · rcases getElem?_concat_cases hw with hj | ⟨rfl, rfl⟩
      · exact h.unique i j v w hi hj hlower
      · exact absurd hlower (hfree' hi)
    · rcases getElem?_concat_cases hw with hj | ⟨rfl, rfl⟩
      · exact absurd hlower.symm (hfree' hj)
      · rfl
  · intro v hv hlive
    rcases List.mem_append.mp hv with hold | hnew
    · exact h.valid v hold hlive
    · rw [List.mem_singleton.mp hnew]
      exact hvalid

theorem Sound.signUp (h : Sound env s) (email : String) : Sound env (s.signUp env email).1 := by
  rw [Store.signUp]
  split
  · exact h
  next hvalid =>
    split
    · exact h
    · exact h
    · split
      · exact h
      next hfree => exact h.append (by simpa using hvalid) hfree

theorem Sound.requestDeletion (h : Sound env s) (user : ℕ) (now : Time) :
    Sound env (s.requestDeletion env user now).1 := by
  rw [Store.requestDeletion]
  split
  · exact h
  · split
    · rw [Store.softDeleteUser]
      split
      · exact h
      next email _ =>
        split
        · exact h
        next hfree =>
          refine h.modify (f := .anonymize email now) (fun u _ hlive => ?_) (fun _ _ => hfree) rfl
          exact absurd hlive (by simp [User.anonymize])
    · exact h

theorem Sound.perform (h : Sound env s) (op : Operation) : Sound env (s.perform env op).1 := by
  cases op with
  | signUp email => exact h.signUp email
  | requestDeletion user now => exact h.requestDeletion user now
  | setBlocked user blockedAt =>
    refine h.modify (f := fun u => { u with blockedAt }) (fun u hu hlive => ?_) (fun u hu => ?_) rfl
    · exact h.valid u (List.mem_of_getElem? hu) hlive
    · rw [Store.not_taken_iff]
      intro j v hv hj hlower
      exact hj (h.unique j user v u hv hu hlower)
  | directory workspaces memberships => exact ⟨h.unique, h.valid⟩

/-- **A user can be deleted and return**, however often, in exactly the runs in which, whenever a
user without active workspaces is to be deleted, no other row has the anonymised address. -/
theorem canReturn_iff {env : Env} (henv : env.Lawful) (ops : List Operation) :
    (requests env).Along (CanReturn env) ops ↔ (requests env).Along (Unused env) ops :=
  System.along_congr_of_invariant _ (fun _ s _ => Sound env s) sound_empty
    (fun _ op h _ => h.perform op) fun _ _ h => h.canReturn_step_iff henv

/-! ### An address that is deleted twice -/

/-- The letters of an address in lower case. -/
def lower (email : String) : String := String.ofList (email.toList.map Char.toLower)

/-- The digests of two spellings of an address. -/
def digest (email : String) : String :=
  if email = "ada@example.com" then
    "b5fc85e55755f9e0d030a10ab4429b6b2944855f9a0d60077fe832becbc41d72"
  else if email = "Ada@example.com" then
    "700e5f51e83413b5b14402d3c94b8c03f50da52ee114d65ad0a99cad143cd3b9"
  else email

/-- Addresses are valid outside the reserved domain. -/
def ascii : Env where
  lower := lower
  pyLower := lower
  sha256 := digest
  valid email := decide ('@' ∈ email.toList ∧ ¬anonEmailDomain.toList <:+ (lower email).toList)

theorem ascii_lawful : ascii.Lawful where
  at_mem _ h := (of_decide_eq_true h).1
  pyLower_eq _ _ := rfl
  reserved email digest h hlower := by
    refine (of_decide_eq_true h).2 ?_
    have hdomain : anonEmailDomain.toList.map Char.toLower = anonEmailDomain.toList := by decide
    have hsplit : (lower (digest ++ "@" ++ anonEmailDomain)).toList =
        (digest ++ "@").toList.map Char.toLower ++ anonEmailDomain.toList := by
      rw [lower, String.toList_ofList, String.toList_append, List.map_append, hdomain]
    have hemail : (lower email).toList = (lower (digest ++ "@" ++ anonEmailDomain)).toList :=
      congrArg String.toList hlower
    rw [hemail, hsplit]
    exact List.suffix_append _ _

/-- A user is deleted, returns with another spelling of the address, and is deleted again. -/
theorem respelled_canReturn :
    (requests ascii).Along (CanReturn ascii)
      [.signUp "ada@example.com", .requestDeletion 0 5, .signUp "Ada@example.com",
        .requestDeletion 1 6, .signUp "ada@example.com"] :=
  (canReturn_iff ascii_lawful _).mpr (by decide +kernel)

/-- A user is deleted, returns with the same address, and cannot be deleted again. -/
theorem not_canReturn :
    (requests ascii).log
        [.signUp "ada@example.com", .requestDeletion 0 5, .signUp "ada@example.com",
          .requestDeletion 1 6] =
      [.user 0 true, .deletion { deleted := true }, .user 1 true, .integrityError] ∧
    ¬(requests ascii).Along (CanReturn ascii)
      [.signUp "ada@example.com", .requestDeletion 0 5, .signUp "ada@example.com",
        .requestDeletion 1 6] := by
  decide +kernel

end UserDeletion

end Rapidly.Platform
