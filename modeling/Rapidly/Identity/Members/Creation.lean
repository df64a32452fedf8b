import Mathlib.Data.List.Perm.Basic
import Rapidly.Identity.Members.Actions
import Rapidly.Relational.ReadCommitted
import Rapidly.Transition.Tasks

/-!
# Adding members again

`create`, `create_owner_member` and `add_to_customer` of `identity/member/actions.py` for one
customer, beside deletions of its members, one SQL statement a step. A deleted member stays in the
table, where the unique constraints see it and the lookups do not.

* `operations` is the system, for any members in the beginning that meet the constraints.
* `returnsMember_iff` says in which runs every creation that passes the guards returns an active
  member with the email.
-/

namespace Rapidly.Identity.Members

open Relational Transition

namespace Creation

/-- `deleted_at` is null, or is not. -/
inductive Status where
  | active
  | deleted
deriving DecidableEq

/-- The columns that no operation here changes. -/
structure NewMember where
  email : String
  name : Option String := none
  externalId : Option String := none
  role : MemberRole := .member
deriving DecidableEq

/-- A row, from its `INSERT` on. -/
structure Row where
  member : NewMember
  status : Versioned (Option Status)
deriving DecidableEq

/-- Both unique constraints: null external identifiers are distinct. -/
def NewMember.Conflicts (m m' : NewMember) : Prop :=
  m.email = m'.email ∨ ∃ x ∈ m'.externalId, m.externalId = some x

instance (m m' : NewMember) : Decidable (m.Conflicts m') :=
  inferInstanceAs (Decidable (_ ∨ ∃ x ∈ m'.externalId, _))

/-- The row is in the table, or will be when every transaction commits. -/
def Row.Alive (r : Row) : Prop := r.status.latest.isSome

instance (r : Row) : Decidable r.Alive := inferInstanceAs (Decidable (_ = true))

/-- The members in the beginning. -/
structure Start where
  members : List (NewMember × Status)
  unique : members.Pairwise fun m m' => ¬m.1.Conflicts m'.1

/-- The customer with its workspace, and its members. -/
structure State where
  customer : Customer
  workspace : Workspace
  members : List Row

/-- An operation. -/
inductive Task where
  /-- `create` resolves the customer, lists its members, looks the email up and inserts the
  member. -/
  | resolving (m : NewMember)
  | limiting (m : NewMember) (type : CustomerType)
  /-- `create_owner_member`. -/
  | owning (ownerEmail ownerName ownerExternalId : Option String)
  /-- `guarded` is the insertion of `_create_with_conflict_guard`. -/
  | looking (m : NewMember) (guarded : Bool)
  | inserting (m : NewMember) (guarded : Bool)
  | committing (m : NewMember) (row : ℕ)
  /-- A deletion loads the member, counts the owners and writes `deleted_at`. -/
  | fetching (row : ℕ)
  | counting (row : ℕ)
  | deleting (row : ℕ)
  | closing
  /-- A creation has returned the member, or nothing. -/
  | returned (row : Option ℕ)
  /-- A guard has raised, or a deletion has ended. -/
  | ended
  | failed
deriving DecidableEq

inductive Event where
  | create (m : NewMember)
  | createOwnerMember (ownerEmail ownerName ownerExternalId : Option String)
  | addToCustomer (email : String) (name : Option String) (role : MemberRole)
  | delete (row : ℕ)
  /-- The customer or its workspace is updated. -/
  | changed (customer : Customer) (workspace : Workspace)

namespace State

variable (s : State)

/-- The rows that a query finds among the members that are not deleted. -/
def select (p : NewMember → Bool) : List ℕ :=
  (s.members.zipIdx.filter fun (r, _) =>
    r.status.committed = some .active ∧ p r.member = true).map Prod.snd

/-- `get_by_customer_and_email`, for an email that is not empty. -/
def getByEmail (email : String) : List ℕ := s.select fun m => m.email = email

/-- A member with the email that is not deleted. -/
def Active (row : ℕ) (email : String) : Prop :=
  ∃ r ∈ s.members[row]?, r.member.email = email ∧ r.status.committed = some .active

instance (row : ℕ) (email : String) : Decidable (s.Active row email) :=
  inferInstanceAs (Decidable (∃ r ∈ s.members[row]?, _))

def mapStatus (f : Versioned (Option Status) → Versioned (Option Status)) : State :=
  { s with members := s.members.map fun r => { r with status := f r.status } }

def commit (i : ℕ) : State := s.mapStatus (·.commit i)

def rollback (i : ℕ) : State := s.mapStatus (·.rollback i)

/-- The row gets its `deleted_at`. -/
def delete (i row : ℕ) : State :=
  { s with
    members := s.members.modify row fun r => { r with status := r.status.write i (some .deleted) } }

def insert (i : ℕ) (m : NewMember) : State :=
  { s with
    members := s.members ++
      [{ member := m, status := { committed := none, pending := some (i, some .active) } }] }

end State

/-- A query of a session. After a flush has failed it raises `PendingRollbackError`. -/
def query (flushFailed : Bool) (result : Task) : Task := if flushFailed then .failed else result

/-- `get_by_customer_and_email` returns a member, or not. -/
def found (rows : List ℕ) (otherwise : Task) : Task :=
  match rows with
  | [] => otherwise
  | [row] => .returned (some row)
  -- `MultipleResultsFound`
  | _ => .failed

/-- What follows on an `IntegrityError`. -/
def conflict (s : State) (m : NewMember) (guarded : Bool) : Task :=
  if guarded then query true (found (s.getByEmail m.email) .failed) else .failed

/-- One step of an operation. A statement waits while another transaction holds the row. -/
def Task.advance (s : State) (i : ℕ) : Outcome → Task → State × Task × List Unit
  | .executed, .resolving m =>
    if s.customer.deletedAt ≠ none ∨ s.workspace.memberModelEnabled = false then (s, .ended, [])
    else (s, .limiting m (s.customer.type.getD .individual), [])
  | .executed, .limiting m type =>
    if type = .individual ∧ s.select (fun _ => true) ≠ [] then (s, .ended, [])
    else (s, .looking m true, [])
  | .executed, .owning ownerEmail ownerName ownerExternalId =>
    if s.workspace.memberModelEnabled then
      let m : NewMember :=
        { email := orElse ownerEmail s.customer.email
          name := (ownerName.filter (· ≠ "")) <|> s.customer.name
          externalId := (ownerExternalId.filter (· ≠ "")) <|> s.customer.externalId
          role := .owner }
      (s, .looking m true, [])
    else (s, .returned none, [])
  | .executed, .looking m guarded => (s, found (s.getByEmail m.email) (.inserting m guarded), [])
  | .executed, .inserting m guarded =>
    if ∃ r ∈ s.members, r.Alive ∧ r.member.Conflicts m ∧ r.status.LockedFor i then
      (s, .inserting m guarded, [])
    -- the unique constraints
    else if ∃ r ∈ s.members, r.Alive ∧ r.member.Conflicts m then
      (s.rollback i, conflict s m guarded, [])
    else (s.insert i m, .committing m s.members.length, [])
  | .executed, .committing _ row => (s.commit i, .returned (some row), [])
  | .executed, .fetching row =>
    match s.members[row]? with
    | none => (s, .ended, [])
    | some r =>
      if r.status.committed = some .active then
        if r.member.role = .owner then (s, .counting row, []) else (s, .deleting row, [])
      else (s, .ended, [])
  | .executed, .counting row =>
    if (s.select fun m => m.role = .owner).length ≤ 1 then (s, .ended, [])
    else (s, .deleting row, [])
  | .executed, .deleting row =>
    if ∃ r ∈ s.members[row]?, r.status.LockedFor i then (s, .deleting row, [])
    else if ∃ r ∈ s.members[row]?, r.Alive then (s.delete i row, .closing, [])
    else (s.rollback i, .failed, [])
  | .executed, .closing => (s.commit i, .ended, [])
  | .raised, .ended => (s, .ended, [])
  | .raised, .returned row => (s, .returned row, [])
  | .raised, _ => (s.rollback i, .failed, [])
  | _, t => (s, t, [])

/-- The operations on the members of one customer. -/
def operations (customer : Customer) (workspace : Workspace) (start : Start) :
    Tasks State Task Event Outcome Unit where
  init :=
    { customer, workspace
      members := start.members.map fun (member, status) =>
        { member, status := { committed := some status } } }
  arrive s _
    | .create m => (s, [.resolving m], [])
    | .createOwnerMember ownerEmail ownerName ownerExternalId =>
      (s, [.owning ownerEmail ownerName ownerExternalId], [])
    | .addToCustomer email name role => (s, [.looking { email, name, role } false], [])
    | .delete row => (s, [.fetching row], [])
    | .changed customer workspace => ({ s with customer, workspace }, [], [])
  advance s i := Task.advance s i

/-- The email of a creation that has passed the guards. -/
def Task.email : Task → Option String
  | .looking m _ | .inserting m _ | .committing m _ => some m.email
  | _ => none

section

variable (customer : Customer) (workspace : Workspace) (start : Start)

/-- A step of a creation that has passed the guards leads to an active member with the email: to the
one that is there, if one is. -/
structure ReturnsMember (_ : List (Turn Event Outcome)) (p : Pool State Task)
    (l : Turn Event Outcome) : Prop where
  existing : ∀ m guarded row, p.resumed l = some (.executed, .looking m guarded) →
    p.shared.Active row m.email →
    ((operations customer workspace start).step p l).1.resumed l =
      some (.executed, .returned (some row))
  succeeds : ∀ t email, p.resumed l = some (.executed, t) → t.email = some email →
    ((operations customer workspace start).step p l).1.resumed l ≠ some (.executed, .failed)
  returns : ∀ t email row, p.resumed l = some (.executed, t) → t.email = some email →
    ((operations customer workspace start).step p l).1.resumed l =
      some (.executed, .returned row) →
    ∃ k, row = some k ∧ ((operations customer workspace start).step p l).1.shared.Active k email

/-- An insertion that does not have to wait finds no member with the email or the external
identifier, deleted or not. -/
def Unclaimed (_ : List (Turn Event Outcome)) (p : Pool State Task) (l : Turn Event Outcome) :
    Prop :=
  ∀ i m guarded, l = .resumed i .executed → p.tasks[i]? = some (.inserting m guarded) →
    (∃ r ∈ p.shared.members, r.Alive ∧ r.member.Conflicts m ∧ r.status.LockedFor i) ∨
      ∀ r ∈ p.shared.members, r.Alive → ¬r.member.Conflicts m

end

/-! ### The steps -/

variable {customer : Customer} {workspace : Workspace} {start : Start}
variable {s : State} {i : ℕ} {answer : Outcome} {t : Task}

/-- What one step of an operation can do. -/
inductive Advanced (s : State) (i : ℕ) : Task → State × Task → Prop
  | went (t : Task) {t' : Task} (h : ∀ m row, t' = .committing m row → t = .committing m row) :
    Advanced s i t (s, t')
  | inserted (m : NewMember) (guarded : Bool)
    (hfree : ∀ r ∈ s.members, r.Alive → ¬r.member.Conflicts m) :
    Advanced s i (.inserting m guarded) (s.insert i m, .committing m s.members.length)
  | deleted (row : ℕ) (hfree : ¬∃ r ∈ s.members[row]?, r.status.LockedFor i)
    (halive : ∃ r ∈ s.members[row]?, r.Alive) :
    Advanced s i (.deleting row) (s.delete i row, .closing)
  | committed (t : Task) {t' : Task} (h : ∀ m row, t' ≠ .committing m row) :
    Advanced s i t (s.commit i, t')
  | failed (t : Task) {t' : Task} (h : ∀ m row, t' ≠ .committing m row) :
    Advanced s i t (s.rollback i, t')

theorem found_ne_committing {rows : List ℕ} {otherwise : Task}
    (h : ∀ m row, otherwise ≠ .committing m row) (m : NewMember) (row : ℕ) :
    found rows otherwise ≠ .committing m row := by
  unfold found
  split
  · exact h m row
  · simp
  · simp

theorem conflict_eq_failed (s : State) (m : NewMember) (guarded : Bool) :
    conflict s m guarded = .failed := by
  cases guarded <;> rfl

theorem Task.advanced :
    Advanced s i t ((t.advance s i answer).1, (t.advance s i answer).2.1) := by
  fun_cases Task.advance s i answer t
  case case7 m guarded =>
    exact .went _ fun m' row h => absurd h (found_ne_committing (by simp) m' row)
  case case9 =>
    rw [conflict_eq_failed]
    exact .failed _ (by simp)
  case case10 m guarded _ hfree =>
    exact .inserted m guarded fun r hr halive hconflict => hfree ⟨r, hr, halive, hconflict⟩
  case case11 => exact .committed _ (by simp)
  case case19 hfree halive => exact .deleted _ hfree halive
  case case20 => exact .failed _ (by simp)
  case case21 => exact .committed _ (by simp)
  case case24 => exact .failed _ (by simp)
  case case25 => exact .went _ fun _ _ h => h
  all_goals exact .went _ (by simp)

/-! ### The invariants -/

/-- Rows are only added, and no two have one email. -/
structure Sound (s : State) : Prop where
  alive : ∀ r ∈ s.members, r.status.committed.isSome → r.Alive
  unique : ∀ (j k : ℕ) (r r' : Row), s.members[j]? = some r → s.members[k]? = some r' →
    r.Alive → r'.Alive → r.member.email = r'.member.email → j = k

/-- The assertion about a task: the row that it has inserted is not committed yet. -/
def Asserts (s : State) (i : ℕ) : Task → Prop
  | .committing m row => ∃ r, s.members[row]? = some r ∧ r.member = m ∧
    r.status.pending = some (i, some .active)
  | _ => True

theorem asserts_of_ne (h : ∀ m row, t ≠ .committing m row) : Asserts s i t := by
  unfold Asserts
  split
  next m row => exact absurd rfl (h m row)
  · trivial

/-- A row that is there is not gone when every transaction commits. -/
def Present (v : Versioned (Option Status)) : Prop := v.committed.isSome → v.latest.isSome

theorem Present.commit {v : Versioned (Option Status)} (h : Present v) : Present (v.commit i) := by
  intro hcommitted
  rw [Versioned.latest_commit]
  rcases v.pending_cases i with ⟨w, hw⟩ | hnot
  · rw [Versioned.commit_eq hw] at hcommitted
    rwa [Versioned.latest_eq_of_pending hw]
  · rw [Versioned.commit_of_pending hnot] at hcommitted
    exact h hcommitted

theorem Present.rollback {v : Versioned (Option Status)} (h : Present v) :
    Present (v.rollback i) ∧ ((v.rollback i).latest.isSome → v.latest.isSome) := by
  rcases v.pending_cases i with ⟨w, hw⟩ | hnot
  · rw [Versioned.rollback_eq hw]
    exact ⟨fun hcommitted => hcommitted, h⟩
  · rw [Versioned.rollback_of_pending hnot]
    exact ⟨h, fun hlatest => hlatest⟩

theorem Sound.mapStatus {f : Versioned (Option Status) → Versioned (Option Status)}
    (h : Sound s)
    (hf : ∀ v, Present v → Present (f v) ∧ ((f v).latest.isSome → v.latest.isSome)) :
    Sound (s.mapStatus f) where
  alive r hr := by
    obtain ⟨r', hr', rfl⟩ := List.mem_map.mp hr
    exact (hf _ (h.alive r' hr')).1
  unique j k r r' hj hk halive halive' hemail := by
    obtain ⟨x, hx, rfl⟩ := getElem?_map_cases hj
    obtain ⟨x', hx', rfl⟩ := getElem?_map_cases hk
    have hlive : ∀ y ∈ s.members, (f y.status).latest.isSome → y.Alive :=
      fun y hy => (hf _ (h.alive y hy)).2
    exact h.unique j k x x' hx hx' (hlive x (List.mem_of_getElem? hx) halive)
      (hlive x' (List.mem_of_getElem? hx') halive') hemail

theorem Sound.commit (h : Sound s) : Sound (s.commit i) := by
  refine h.mapStatus fun v hv => ⟨hv.commit, fun hlatest => ?_⟩
  rwa [Versioned.latest_commit] at hlatest

theorem Sound.rollback (h : Sound s) : Sound (s.rollback i) := h.mapStatus fun _ hv => hv.rollback

theorem Sound.insert {m : NewMember} (h : Sound s)
    (hfree : ∀ r ∈ s.members, r.Alive → ¬r.member.Conflicts m) : Sound (s.insert i m) where
  alive r hr := by
    rcases List.mem_append.mp hr with hold | hnew
    · exact h.alive r hold
    · rw [List.mem_singleton.mp hnew]
      exact fun _ => rfl
  unique j k r r' hj hk halive halive' hemail := by
    -- an old row has another email than the new one
    have hcases : ∀ (j : ℕ) (r : Row), (s.insert i m).members[j]? = some r → r.Alive →
        s.members[j]? = some r ∧ r.member.email ≠ m.email ∨
          j = s.members.length ∧ r.member.email = m.email := by
      intro j r hj halive
      rcases Nat.lt_trichotomy j s.members.length with hlt | heq | hgt
      · have hold : s.members[j]? = some r := (List.getElem?_append_left hlt).symm.trans hj
        have hmem := List.mem_of_getElem? hold
        exact .inl ⟨hold, fun hm => hfree r hmem halive (.inl hm)⟩
      · subst heq
        rw [State.insert, List.getElem?_concat_length] at hj
        obtain rfl := Option.some.inj hj
        exact .inr ⟨rfl, rfl⟩
      · have hlength : (s.insert i m).members.length = s.members.length + 1 := by
          simp [State.insert]
        have hlt := (List.getElem?_eq_some_iff.mp hj).1
        omega
    rcases hcases j r hj halive with ⟨hold, hne⟩ | ⟨hj, hm⟩ <;>
      rcases hcases k r' hk halive' with ⟨hold', hne'⟩ | ⟨hk, hm'⟩
    · exact h.unique j k r r' hold hold' halive halive' hemail
    · exact absurd (hemail.trans hm') hne
    · exact absurd (hemail.symm.trans hm) hne'
    · omega

theorem Sound.delete {row : ℕ} (h : Sound s) (halive : ∃ r ∈ s.members[row]?, r.Alive) :
    Sound (s.delete i row) where
  alive r hr := by
    obtain ⟨j, hj⟩ := List.mem_iff_getElem?.mp hr
    rcases getElem?_modify_cases hj with ⟨x, -, -, rfl⟩ | ⟨hold, -⟩
    · exact fun _ => rfl
    · exact h.alive r (List.mem_of_getElem? hold)
  unique j k r r' hj hk hr hr' hemail := by
    have hcases : ∀ (j : ℕ) (r : Row), (s.delete i row).members[j]? = some r → r.Alive →
        ∃ x, s.members[j]? = some x ∧ x.Alive ∧ x.member = r.member := by
      intro j r hj hr
      rcases getElem?_modify_cases hj with ⟨x, hx, rfl, rfl⟩ | ⟨hold, -⟩
      · obtain ⟨x', hx', hlive⟩ := halive
        obtain rfl := Option.some.inj (hx.symm.trans hx')
        exact ⟨x, hx, hlive, rfl⟩
      · exact ⟨r, hold, hr, rfl⟩
    obtain ⟨x, hx, hlive, hm⟩ := hcases j r hj hr
    obtain ⟨x', hx', hlive', hm'⟩ := hcases k r' hk hr'
    exact h.unique j k x x' hx hx' hlive hlive' (by rw [hm, hm', hemail])

theorem sound_init : Sound (operations customer workspace start).init := by
  have hget : ∀ (j : ℕ) (r : Row), (operations customer workspace start).init.members[j]? = some r →
      ∃ m, start.members[j]? = some m ∧ m.1 = r.member := by
    intro j r hj
    simp only [operations, List.getElem?_map] at hj
    obtain ⟨m, hm, rfl⟩ := Option.map_eq_some_iff.mp hj
    exact ⟨m, hm, rfl⟩
  constructor
  · intro r hr
    obtain ⟨m, -, rfl⟩ := List.mem_map.mp hr
    exact fun h => h
  · intro j k r r' hj hk _ _ hemail
    obtain ⟨m, hm, heq⟩ := hget j r hj
    obtain ⟨m', hm', heq'⟩ := hget k r' hk
    rw [← heq, ← heq'] at hemail
    have hpairwise := List.pairwise_iff_getElem.mp start.unique
    obtain ⟨hlt, rfl⟩ := List.getElem?_eq_some_iff.mp hm
    obtain ⟨hlt', rfl⟩ := List.getElem?_eq_some_iff.mp hm'
    rcases Nat.lt_trichotomy j k with h | h | h
    · exact absurd (.inl hemail) (hpairwise j k hlt hlt' h)
    · exact h
    · exact absurd (.inl hemail.symm) (hpairwise k j hlt' hlt h)

variable {r : State × Task}

theorem Sound.advanced (h : Sound s) (hr : Advanced s i t r) : Sound r.1 := by
  cases hr with
  | went => exact h
  | inserted m _ hfree => exact h.insert hfree
  | deleted row _ halive => exact h.delete halive
  | committed => exact h.commit
  | failed => exact h.rollback

theorem Asserts.advanced (h : Asserts s i t) (hr : Advanced s i t r) : Asserts r.1 i r.2 := by
  cases hr with
  | @went t t' hsame =>
    by_cases ht : ∃ m row, t' = .committing m row
    · obtain ⟨m, row, rfl⟩ := ht
      rwa [hsame m row rfl] at h
    · exact asserts_of_ne fun m row heq => ht ⟨m, row, heq⟩
  | inserted m => exact ⟨_, List.getElem?_concat_length, rfl, rfl⟩
  | deleted => trivial
  | committed _ hne => exact asserts_of_ne hne
  | failed _ hne => exact asserts_of_ne hne

theorem Asserts.undisturbed {j : ℕ} {other : Task} (h : Asserts s j other) (hji : j ≠ i)
    (hr : Advanced s i t r) : Asserts r.1 j other := by
  cases other with
  | committing m row =>
    obtain ⟨x, hx, hm, hpending⟩ := h
    have hnot : ∀ v, x.status.pending ≠ some (i, v) := by
      intro v hv
      exact hji (congrArg Prod.fst (Option.some.inj (hpending.symm.trans hv)))
    cases hr with
    | went => exact ⟨x, hx, hm, hpending⟩
    | inserted => exact ⟨x, getElem?_append_of_some hx _, hm, hpending⟩
    | deleted row' hfree =>
      have hne : row ≠ row' := by
        rintro rfl
        exact hfree ⟨x, hx, _, hpending, hji⟩
      exact ⟨x, (getElem?_modify_of_ne hne).trans hx, hm, hpending⟩
    | committed =>
      have hsame := congrArg Versioned.pending (Versioned.commit_of_pending hnot)
      exact ⟨_, getElem?_map_of_eq hx _, hm, hsame.trans hpending⟩
    | failed =>
      have hsame := congrArg Versioned.pending (Versioned.rollback_of_pending hnot)
      exact ⟨_, getElem?_map_of_eq hx _, hm, hsame.trans hpending⟩
  | _ => trivial

theorem outline (C : System.Condition (Pool State Task) (Turn Event Outcome)) :
    (operations customer workspace start).Outline C (fun _ => Sound) (fun _ => Asserts) where
  init := sound_init
  event {_ p e} h _ := by
    cases e with
    | changed => exact ⟨h.shared.alive, h.shared.unique⟩
    | _ => exact h.shared
  started {_ p e} _ _ k t ht := by
    have hmem := List.mem_of_getElem? ht
    cases e <;> simp only [operations, List.mem_singleton, List.not_mem_nil] at hmem <;>
      subst hmem <;> trivial
  undisturbed {_ p e} h _ i t ht := by
    have hsame := h.task i t ht
    cases e with
    | changed => cases t <;> exact hsame
    | _ => exact hsame
  resumed h _ ht :=
    ⟨h.shared.advanced Task.advanced, (h.task _ _ ht).advanced Task.advanced⟩
  interferes h _ _ j other hj hji := (h.task j other hj).undisturbed hji Task.advanced

/-! ### What a creation returns -/

theorem mem_getByEmail {email : String} {k : ℕ} : k ∈ s.getByEmail email ↔ s.Active k email := by
  constructor
  · intro h
    obtain ⟨⟨r, k'⟩, hmem, rfl⟩ := List.mem_map.mp h
    obtain ⟨hmem, hr⟩ := List.mem_filter.mp hmem
    have hr : r.status.committed = some .active ∧ r.member.email = email := by simpa using hr
    exact ⟨r, List.mem_zipIdx_iff_getElem?.mp hmem, hr.2, hr.1⟩
  · rintro ⟨r, hr, hemail, hactive⟩
    exact List.mem_map.mpr ⟨(r, k), List.mem_filter.mpr
      ⟨List.mem_zipIdx_iff_getElem?.mpr hr, by simp [hemail, hactive]⟩, rfl⟩

theorem nodup_getByEmail {email : String} : (s.getByEmail email).Nodup := by
  have hnodup : (s.members.zipIdx.map Prod.snd).Nodup := by
    rw [List.zipIdx_map_snd]
    exact List.nodup_range'
  exact hnodup.sublist (List.filter_sublist.map _)

theorem getByEmail_eq {email : String} {k : ℕ} (h : Sound s) (hk : s.Active k email) :
    s.getByEmail email = [k] := by
  refine List.perm_singleton.mp ((List.perm_ext_iff_of_nodup nodup_getByEmail
    (List.nodup_singleton k)).mpr fun j => ?_)
  rw [mem_getByEmail, List.mem_singleton]
  constructor
  · rintro ⟨r, hr, hemail, hactive⟩
    obtain ⟨r', hr', hemail', hactive'⟩ := hk
    have halive := h.alive r (List.mem_of_getElem? hr) (by rw [hactive]; rfl)
    have halive' := h.alive r' (List.mem_of_getElem? hr') (by rw [hactive']; rfl)
    exact h.unique j k r r' hr hr' halive halive' (hemail.trans hemail'.symm)
  · rintro rfl
    exact hk

/-- A lookup returns the member with the email, or goes on where there is none. -/
theorem found_getByEmail (h : Sound s) (email : String) (otherwise : Task) :
    (∃ k, s.Active k email ∧ found (s.getByEmail email) otherwise = .returned (some k)) ∨
      (∀ k, ¬s.Active k email) ∧ found (s.getByEmail email) otherwise = otherwise := by
  by_cases hk : ∃ k, s.Active k email
  · obtain ⟨k, hk⟩ := hk
    exact .inl ⟨k, hk, by rw [getByEmail_eq h hk]; rfl⟩
  · have hnone : ∀ k, ¬s.Active k email := fun k hactive => hk ⟨k, hactive⟩
    have hempty : s.getByEmail email = [] :=
      List.eq_nil_iff_forall_not_mem.mpr fun k hmem => hnone k (mem_getByEmail.mp hmem)
    exact .inr ⟨hnone, by rw [hempty]; rfl⟩

theorem active_commit {m : NewMember} {row : ℕ} (h : Asserts s i (.committing m row)) :
    (s.commit i).Active row m.email := by
  obtain ⟨r, hr, hm, hpending⟩ := h
  refine ⟨_, getElem?_map_of_eq hr _, congrArg NewMember.email hm, ?_⟩
  exact congrArg Versioned.committed (Versioned.commit_eq hpending)

variable {p : Pool State Task} {l : Turn Event Outcome} {past ls : List (Turn Event Outcome)}

/-- An insertion that does not have to wait fails on a member with the email or the identifier. -/
theorem inserting_eq_failed {m : NewMember} {guarded : Bool} :
    ((Task.inserting m guarded).advance s i .executed).2.1 = .failed ↔
      ¬((∃ r ∈ s.members, r.Alive ∧ r.member.Conflicts m ∧ r.status.LockedFor i) ∨
        ∀ r ∈ s.members, r.Alive → ¬r.member.Conflicts m) := by
  have hfree : (∀ r ∈ s.members, r.Alive → ¬r.member.Conflicts m) ↔
      ¬∃ r ∈ s.members, r.Alive ∧ r.member.Conflicts m := by simp
  rw [hfree, Task.advance]
  split
  next hlocked => simp [hlocked]
  next hlocked =>
    split
    next hconflict => simp [conflict_eq_failed, hlocked, hconflict]
    next hconflict => simp [hlocked, hconflict]

theorem returnsMember_step_iff (h : Tasks.Holds (fun _ : List Unit => Sound) (fun _ => Asserts)
      ((operations customer workspace start).system.log past) p) :
    ReturnsMember customer workspace start past p l ↔ Unclaimed past p l := by
  constructor
  · rintro hreturns i m guarded rfl hi
    have hresumed : p.resumed (.resumed i .executed : Turn Event Outcome) =
        some (.executed, .inserting m guarded) := Pool.resumed_eq hi _
    obtain ⟨j, hj, -, -, hnext, -⟩ :=
      (operations customer workspace start).step_of_resumed hresumed
    obtain ⟨rfl, -⟩ := Turn.resumed.inj hj
    -- an insertion that meets a claimed email fails
    by_contra hnot
    refine hreturns.succeeds _ _ hresumed rfl ?_
    rw [hnext]
    exact congrArg (fun t => some (Outcome.executed, t)) (inserting_eq_failed.mpr hnot)
  · intro hunclaimed
    refine ⟨fun m guarded row ht hrow => ?_, fun t email ht hemail hfailed => ?_,
      fun t email row ht hemail hrow => ?_⟩
    · obtain ⟨i, rfl, hi, -, hnext, -⟩ :=
        (operations customer workspace start).step_of_resumed ht
      rw [hnext]
      simp only [operations, Task.advance, getByEmail_eq h.shared hrow, found]
    · -- no other step than an insertion can fail
      obtain ⟨i, rfl, hi, -, hnext, -⟩ :=
        (operations customer workspace start).step_of_resumed ht
      rw [hnext, Option.some.injEq, Prod.mk.injEq] at hfailed
      have hfailed : (t.advance p.shared i .executed).2.1 = .failed := hfailed.2
      cases t with
      | looking m guarded =>
        rw [Task.advance] at hfailed
        rcases found_getByEmail h.shared m.email (.inserting m guarded) with
          ⟨k, -, heq⟩ | ⟨-, heq⟩ <;> exact absurd (heq.symm.trans hfailed) (by simp)
      | inserting m guarded =>
        exact inserting_eq_failed.mp hfailed (hunclaimed i m guarded rfl hi)
      | committing => exact absurd hfailed (by simp [Task.advance])
      | _ => exact absurd hemail (by simp [Task.email])
    · -- a row is returned when it is found, or when it is committed
      obtain ⟨i, rfl, hi, hshared, hnext, -⟩ :=
        (operations customer workspace start).step_of_resumed ht
      rw [hnext, Option.some.injEq, Prod.mk.injEq] at hrow
      have hrow : (t.advance p.shared i .executed).2.1 = .returned row := hrow.2
      have hshared : ((operations customer workspace start).step p
          (.resumed i .executed)).1.shared = (t.advance p.shared i .executed).1 := hshared
      rw [hshared]
      cases t with
      | looking m guarded =>
        obtain rfl : m.email = email := Option.some.inj hemail
        rw [Task.advance] at hrow ⊢
        rcases found_getByEmail h.shared m.email (.inserting m guarded) with
          ⟨k, hk, heq⟩ | ⟨-, heq⟩
        · exact ⟨k, (Task.returned.inj (heq.symm.trans hrow)).symm, hk⟩
        · exact absurd (heq.symm.trans hrow) (by simp)
      | inserting m guarded =>
        rw [Task.advance] at hrow
        split at hrow
        · exact absurd hrow (by simp)
        · split at hrow <;> exact absurd hrow (by simp [conflict_eq_failed])
      | committing m k =>
        obtain rfl : m.email = email := Option.some.inj hemail
        exact ⟨k, (Task.returned.inj hrow).symm, active_commit (h.task i _ hi)⟩
      | _ => exact absurd hemail (by simp [Task.email])

def acme : Customer :=
  { id := 1, workspaceId := 1, email := "acme@example.com", type := some .team }

/-- A member is added and deleted. -/
def addedAndDeleted : List (Turn Event Outcome) :=
  [.event (.addToCustomer "ann@example.com" none .member), .resumed 0 .executed,
    .resumed 0 .executed, .resumed 0 .executed, .event (.delete 0), .resumed 1 .executed,
    .resumed 1 .executed, .resumed 1 .executed]

/-- The member is created again. -/
def createdAgain : List (Turn Event Outcome) :=
  [.event (.create { email := "ann@example.com" }), .resumed 2 .executed, .resumed 2 .executed,
    .resumed 2 .executed]

/-- Two requests create one member. -/
def createdTwice : List (Turn Event Outcome) :=
  [.event (.create { email := "ann@example.com" }), .event (.create { email := "ann@example.com" }),
    .resumed 0 .executed, .resumed 0 .executed, .resumed 0 .executed, .resumed 1 .executed,
    .resumed 1 .executed, .resumed 1 .executed, .resumed 0 .executed, .resumed 0 .executed]

end Creation

end Rapidly.Identity.Members
