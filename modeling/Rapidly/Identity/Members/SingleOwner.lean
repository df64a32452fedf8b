import Rapidly.Fallible.Except
import Rapidly.Identity.Members.Actions
import Rapidly.Transition.System

/-!
# One owner per customer

`update` and `delete` keep a customer that has one owner at one owner: they look at the owners
before they write. `create`, `create_owner_member` and `add_to_customer` insert a row of any
role, and `transfer_ownership` writes its two roles without looking. So a second owner can be
created, and a transfer can leave a customer without an owner or with two
(`two_owners_of_two_creations`).

`Guarded` is the condition under which none of this happens: a row with the owner role is
inserted only for a customer that has no owner, and a transfer goes from the owner to another
member of the same customer that is not deleted, or names somebody else the owner of a customer
that has none. Along every run whose operations meet it, a customer that has been given an owner
has exactly one (`singleOwner_of_guarded`). The proof counts owners: an insertion adds the new
row to the count, and `length_owners_update` says how rewriting one row changes it.
-/

namespace Rapidly.Identity.Members

open Fallible Relational Transition System

/-- An owner of its customer: not deleted, with the owner role. -/
def IsOwner (m : Member) : Prop := m.deletedAt = none ∧ m.role = .owner

instance (m : Member) : Decidable (IsOwner m) := inferInstanceAs (Decidable (_ ∧ _))

/-- The owners of a customer. -/
def State.owners (db : State) (customerId : Uuid) : List Member :=
  db.members.select fun m => m.customerId = customerId ∧ IsOwner m

/-! ### Runs of operations -/

/-- An operation has answered with an owner of the customer. -/
inductive Observation where
  | ownerGiven (customerId : Uuid)
deriving DecidableEq

/-- What an answer shows. -/
def observe : Option Member → List Observation
  | some m => if IsOwner m then [.ownerGiven m.customerId] else []
  | none => []

/-- The operations, one after the other. -/
def system (db : State) : System State Operation Observation where
  init := db
  step db op :=
    match perform db op with
    | .ok (db', answer) => (db', observe answer)
    | .error _ => (db, [])

/-- After the operation every customer that has been given an owner has exactly one. -/
def SingleOwner (db₀ : State) : Condition State Operation := fun past db op =>
  ∀ customerId, .ownerGiven customerId ∈ (system db₀).log (past ++ [op]) →
    (((system db₀).step db op).1.owners customerId).length = 1

/-- If what a creation has found is a row with the owner role that the constraints let in, the
customer has no owner. -/
def EntryFits (db : State) : Except MemberError (Option Entry) → Prop
  | .ok (some (.new m)) => db.Accepts m → m.role = .owner → db.owners m.customerId = []
  | _ => True

instance (db : State) (entry : Except MemberError (Option Entry)) :
    Decidable (EntryFits db entry) :=
  match entry with
  | .ok (some (.new m)) =>
    inferInstanceAs (Decidable (db.Accepts m → m.role = .owner → db.owners m.customerId = []))
  | .ok (some (.existing _)) => isTrue trivial
  | .ok none => isTrue trivial
  | .error _ => isTrue trivial

/-- A transfer within a customer from its owner to somebody else, or to a member of a customer
without another owner. -/
def TransferFits (db : State) (currentOwner newOwner : Member) : Prop :=
  if currentOwner.id = newOwner.id then ¬IsOwner currentOwner
  else if IsOwner currentOwner then
    newOwner.customerId = currentOwner.customerId ∧ newOwner.deletedAt = none
  else newOwner.deletedAt = none →
    newOwner.role = .owner ∨ db.owners newOwner.customerId = []

instance (db : State) (currentOwner newOwner : Member) :
    Decidable (TransferFits db currentOwner newOwner) :=
  inferInstanceAs (Decidable (if currentOwner.id = newOwner.id then ¬IsOwner currentOwner
    else if IsOwner currentOwner then
      newOwner.customerId = currentOwner.customerId ∧ newOwner.deletedAt = none
    else newOwner.deletedAt = none →
      newOwner.role = .owner ∨ db.owners newOwner.customerId = []))

/-- The rows an operation transfers an ownership between. -/
def transferred (db : State) : Operation → Option (Member × Member)
  | .transferOwnership currentOwner newOwner =>
    (db.members.get currentOwner).bind fun c => (db.members.get newOwner).map (Prod.mk c)
  | _ => none

/-- No operation inserts a second owner, or transfers an ownership that is not there, or to
where it does not belong. -/
def Guarded : Condition State Operation := fun _ db op =>
  EntryFits db (entry db op) ∧ ∀ rows ∈ transferred db op, TransferFits db rows.1 rows.2

instance (past : List Operation) (db : State) (op : Operation) :
    Decidable (Guarded past db op) :=
  inferInstanceAs (Decidable (_ ∧ ∀ rows ∈ transferred db op, TransferFits db rows.1 rows.2))

/-! ### Counting owners -/

section Count

variable {db db' : State} {m : Member} {customerId : Uuid}

theorem mem_owners :
    m ∈ db.owners customerId ↔ m ∈ db.members ∧ m.customerId = customerId ∧ IsOwner m :=
  Table.mem_select

theorem length_owners : (db.owners customerId).length =
    db.members.rows.countP fun m => m.customerId = customerId ∧ IsOwner m :=
  List.countP_eq_length_filter.symm

theorem length_owners_pos (hm : m ∈ db.members) (howner : IsOwner m) :
    0 < (db.owners m.customerId).length :=
  List.length_pos_of_mem (mem_owners.mpr ⟨hm, rfl, howner⟩)

theorem ownerCount_listByCustomer :
    ownerCount (db.listByCustomer customerId) = (db.owners customerId).length := by
  rw [ownerCount, State.listByCustomer, Table.select, List.countP_filter, length_owners]
  refine List.countP_congr fun m _ => ?_
  rw [Bool.and_eq_true, decide_eq_true_iff, decide_eq_true_iff, decide_eq_true_iff, IsOwner]
  tauto

theorem length_owners_insert (h : db.insert m = .ok db') :
    (db'.owners customerId).length =
      (db.owners customerId).length + if m.customerId = customerId ∧ IsOwner m then 1 else 0 := by
  rw [State.insert] at h
  split at h
  · obtain rfl := Except.ok.inj h
    rw [length_owners, length_owners]
    change List.countP _ (m :: db.members.rows) = _
    simp only [List.countP_cons, decide_eq_true_eq]
  · simp at h

theorem length_owners_update (hm : m ∈ db.members) (changes : Changes) (customerId : Uuid) :
    ((db.update m.id changes).owners customerId).length +
        (if m.customerId = customerId ∧ IsOwner m then 1 else 0) =
      (db.owners customerId).length +
        if m.customerId = customerId ∧ IsOwner (m.apply changes) then 1 else 0 := by
  rw [length_owners, length_owners]
  exact Table.countP_modify (f := (·.apply changes)) hm (fun _ => rfl)
    fun m => m.customerId = customerId ∧ IsOwner m

theorem mem_insert (h : db.insert m = .ok db') : m ∈ db'.members := by
  rw [State.insert] at h
  split at h
  · obtain rfl := Except.ok.inj h
    exact List.mem_cons_self
  · simp at h

theorem mem_update (hm : m ∈ db.members) (id : Uuid) (changes : Changes) :
    (if m.id = id then m.apply changes else m) ∈ (db.update id changes).members :=
  Table.mem_modify_of_mem hm (Member.apply_id · changes)

theorem mem_update_self (hm : m ∈ db.members) (changes : Changes) :
    m.apply changes ∈ (db.update m.id changes).members := by
  have hmem := mem_update hm m.id changes
  rwa [if_pos rfl] at hmem

theorem mem_update_of_ne {id : Uuid} (hm : m ∈ db.members) (hne : m.id ≠ id)
    (changes : Changes) : m ∈ (db.update id changes).members := by
  have hmem := mem_update hm id changes
  rwa [if_neg hne] at hmem

theorem owner_unique {m' : Member} (hone : (db.owners m.customerId).length ≤ 1)
    (hm : m ∈ db.members) (howner : IsOwner m) (hm' : m' ∈ db.members) (howner' : IsOwner m')
    (hcustomer : m'.customerId = m.customerId) : m' = m := by
  have hpos := length_owners_pos hm howner
  obtain ⟨o, ho⟩ : ∃ o, db.owners m.customerId = [o] := List.length_eq_one_iff.mp (by omega)
  have hmem : m ∈ db.owners m.customerId := mem_owners.mpr ⟨hm, rfl, howner⟩
  have hmem' : m' ∈ db.owners m.customerId := mem_owners.mpr ⟨hm', hcustomer, howner'⟩
  rw [ho, List.mem_singleton] at hmem hmem'
  rw [hmem, hmem']

end Count

/-! ### What an operation can do -/

section Cases

variable {db db' : State} {op : Operation} {answer : Option Member} {m : Member}

theorem mem_of_getByCustomerIdAndEmail {customerId : Uuid} {email : String}
    (h : db.getByCustomerIdAndEmail customerId email = .ok (some m)) : m ∈ db.members := by
  rw [State.getByCustomerIdAndEmail] at h
  rcases hone : oneOrNone (db.members.select fun m =>
    m.customerId = customerId ∧ m.email = email ∧ m.deletedAt = none) with _ | found
  · rw [hone] at h
    simp [Except.mapError] at h
  · rw [hone] at h
    obtain rfl : found = some m := by simpa [Except.mapError] using h
    exact (Table.mem_select.mp (oneOrNone_eq_some_iff.mp hone).1).1

theorem mem_of_entry (h : entry db op = .ok (some (.existing m))) : m ∈ db.members := by
  rcases op with ⟨subject, id, customerId, email, name, externalId, role⟩ |
    ⟨id, customerId, ownerEmail, ownerName, ownerExternalId⟩ |
    ⟨id, customerId, email, name, role⟩ | _ | _ | _ | _
  case create =>
    obtain ⟨found, h, hfound⟩ := map_eq_ok.mp h
    obtain rfl := Option.some.inj hfound
    obtain ⟨⟨customer, workspace⟩, -, h⟩ := bind_eq_ok.mp h
    obtain ⟨-, -, h⟩ := bind_eq_ok.mp h
    obtain ⟨-, -, h⟩ := bind_eq_ok.mp h
    obtain ⟨existing, hget, h⟩ := bind_eq_ok.mp h
    rcases existing with _ | existing
    · simp at h
    · obtain rfl : existing = m := by simpa using h
      exact mem_of_getByCustomerIdAndEmail hget
  case createOwnerMember =>
    rw [entry] at h
    split at h
    · simp at h
    split at h
    · simp at h
    rw [createOwnerMemberEntry] at h
    split at h
    · obtain ⟨existing, hget, h⟩ := bind_eq_ok.mp h
      rcases existing with _ | existing
      · simp at h
      · obtain rfl : existing = m := by simpa using h
        exact mem_of_getByCustomerIdAndEmail hget
    · simp at h
  case addToCustomer =>
    rw [entry] at h
    split at h
    · simp at h
    obtain ⟨found, h, hfound⟩ := map_eq_ok.mp h
    obtain rfl := Option.some.inj hfound
    obtain ⟨existing, hget, h⟩ := bind_eq_ok.mp h
    rcases existing with _ | existing
    · simp at h
    · obtain rfl : existing = m := by simpa using h
      exact mem_of_getByCustomerIdAndEmail hget
  all_goals simp [entry] at h

/-- The second stage of a creation inserts the row, or finds a member after all. -/
theorem complete_eq_ok {m' : Member} (h : complete db op m = .ok (db', m')) :
    db.insert m = .ok db' ∧ m' = m ∨ db' = db ∧ m' ∈ db.members := by
  have hguarded {customer : Customer} {email : String}
      (h : createWithConflictGuard db m customer email = .ok (db', m')) :
      db.insert m = .ok db' ∧ m' = m ∨ db' = db ∧ m' ∈ db.members := by
    rw [createWithConflictGuard] at h
    rcases hinsert : db.insert m with e | db''
    · rw [hinsert] at h
      obtain ⟨existing, hget, h⟩ := bind_eq_ok.mp h
      rcases existing with _ | existing
      · simp at h
      · obtain ⟨rfl, rfl⟩ : db = db' ∧ existing = m' := by simpa using h
        exact .inr ⟨rfl, mem_of_getByCustomerIdAndEmail hget⟩
    · rw [hinsert] at h
      obtain ⟨rfl, rfl⟩ : db'' = db' ∧ m = m' := by simpa using h
      exact .inl ⟨rfl, rfl⟩
  rcases op
  case addToCustomer =>
    obtain ⟨db'', hinsert, h⟩ := map_eq_ok.mp h
    obtain ⟨rfl, rfl⟩ := Prod.mk.inj h
    exact .inl ⟨hinsert, rfl⟩
  all_goals
    simp only [complete] at h
    split at h
    · simp at h
    · exact hguarded h

theorem performCreation_eq_ok (h : performCreation db op = .ok (db', answer)) :
    (db'.members = db.members ∧ ∀ m ∈ answer, m ∈ db.members) ∨
    ∃ m, entry db op = .ok (some (.new m)) ∧ db.insert m = .ok db' ∧ answer = some m := by
  obtain ⟨found, hentry, h⟩ := bind_eq_ok.mp h
  rcases found with _ | m | m
  · obtain ⟨rfl, rfl⟩ : db = db' ∧ none = answer := by simpa using h
    exact .inl ⟨rfl, nofun⟩
  · obtain ⟨rfl, rfl⟩ : db = db' ∧ some m = answer := by simpa using h
    refine .inl ⟨rfl, fun m' hm' => ?_⟩
    obtain rfl := Option.some.inj hm'
    exact mem_of_entry hentry
  · obtain ⟨⟨db'', m'⟩, hcomplete, h⟩ := map_eq_ok.mp h
    obtain ⟨rfl, rfl⟩ := Prod.mk.inj h
    obtain ⟨hinsert, rfl⟩ | ⟨rfl, hmem⟩ := complete_eq_ok hcomplete
    · exact .inr ⟨m', hentry, hinsert, rfl⟩
    · refine .inl ⟨rfl, fun m'' hm'' => ?_⟩
      obtain rfl := Option.some.inj hm''
      exact hmem

theorem mem_of_get {subject : Subject} {id : Uuid} (h : db.get subject id = some m) :
    m ∈ db.members ∧ m.deletedAt = none := by
  obtain ⟨hget, hread⟩ := Option.filter_eq_some_iff.mp h
  have hread := of_decide_eq_true hread
  exact ⟨(Table.get_eq_some_iff.mp hget).1, hread.1⟩

theorem update_eq_ok {name : Option String} {role : Option MemberRole} {m' : Member}
    (h : update db m name role = .ok (db', m')) :
    (∀ target ∈ role, m.role ≠ target →
      guardRoleTransition m target (db.listByCustomer m.customerId) = .ok ()) ∧
    db' = db.update m.id { name, role } ∧ m' = m.apply { name, role } := by
  rcases role with _ | target
  · obtain ⟨rfl, rfl⟩ := Prod.mk.inj (Except.ok.inj h)
    exact ⟨nofun, rfl, rfl⟩
  · rw [update] at h
    split at h
    · obtain ⟨_, hguard, h⟩ := bind_eq_ok.mp h
      obtain ⟨rfl, rfl⟩ := Prod.mk.inj (Except.ok.inj h)
      refine ⟨fun target' htarget _ => ?_, rfl, rfl⟩
      obtain rfl := Option.some.inj htarget
      exact hguard
    · rename_i hsame
      obtain ⟨rfl, rfl⟩ := Prod.mk.inj (Except.ok.inj h)
      refine ⟨fun target' htarget hne => ?_, rfl, rfl⟩
      obtain rfl := Option.some.inj htarget
      exact absurd hne hsame

theorem delete_eq_ok {now : Time} {m' : Member} (h : delete db now m = .ok (db', m')) :
    ¬(m.role = .owner ∧ ownerCount (db.listByCustomer m.customerId) ≤ 1) ∧
    db' = db.update m.id { deletedAt := some now } ∧
    m' = m.apply { deletedAt := some now } := by
  rw [delete] at h
  split at h
  · simp at h
  · rename_i hguard
    obtain ⟨rfl, rfl⟩ := Prod.mk.inj (Except.ok.inj h)
    exact ⟨hguard, rfl, rfl⟩

/-- **What an operation can do.** -/
theorem perform_cases (h : perform db op = .ok (db', answer)) :
    (db'.members = db.members ∧ ∀ m ∈ answer, m ∈ db.members) ∨
    (∃ m, entry db op = .ok (some (.new m)) ∧ db.insert m = .ok db' ∧ answer = some m) ∨
    (∃ m ∈ db.members, m.deletedAt = none ∧ ∃ name role,
      (∀ target ∈ role, m.role ≠ target →
        guardRoleTransition m target (db.listByCustomer m.customerId) = .ok ()) ∧
      db' = db.update m.id { name, role } ∧ answer = some (m.apply { name, role })) ∨
    (∃ m ∈ db.members, m.deletedAt = none ∧
      ¬(m.role = .owner ∧ ownerCount (db.listByCustomer m.customerId) ≤ 1) ∧
      ∃ now, db' = db.update m.id { deletedAt := some now } ∧
        answer = some (m.apply { deletedAt := some now })) ∨
    ∃ c ∈ db.members, ∃ n ∈ db.members, transferred db op = some (c, n) ∧
      db' = (transferOwnership db c n).1 ∧ answer = some (transferOwnership db c n).2 := by
  rcases op with _ | _ | _ | ⟨subject, memberId, name, role⟩ | ⟨subject, memberId, now⟩ |
    ⟨currentOwner, newOwner⟩ | ⟨workspaces, memberships, customers⟩
  case update =>
    rw [perform] at h
    rcases hget : db.get subject memberId with _ | m <;> rw [hget] at h
    · simp at h
    · obtain ⟨⟨db'', m'⟩, hupdate, hanswer⟩ := map_eq_ok.mp h
      obtain ⟨rfl, rfl⟩ := Prod.mk.inj hanswer
      obtain ⟨hguard, hdb, rfl⟩ := update_eq_ok hupdate
      obtain ⟨hmem, hlive⟩ := mem_of_get hget
      exact .inr (.inr (.inl ⟨m, hmem, hlive, name, role, hguard, hdb, rfl⟩))
  case delete =>
    rw [perform] at h
    rcases hget : db.get subject memberId with _ | m <;> rw [hget] at h
    · simp at h
    · obtain ⟨⟨db'', m'⟩, hdelete, hanswer⟩ := map_eq_ok.mp h
      obtain ⟨rfl, rfl⟩ := Prod.mk.inj hanswer
      obtain ⟨hguard, hdb, rfl⟩ := delete_eq_ok hdelete
      obtain ⟨hmem, hlive⟩ := mem_of_get hget
      exact .inr (.inr (.inr (.inl ⟨m, hmem, hlive, hguard, now, hdb, rfl⟩)))
  case transferOwnership =>
    rw [perform] at h
    rcases hc : db.members.get currentOwner with _ | c
    · rw [hc] at h
      simp at h
    rcases hn : db.members.get newOwner with _ | n
    · rw [hc, hn] at h
      simp at h
    rw [hc, hn] at h
    obtain ⟨rfl, rfl⟩ := Prod.mk.inj (Except.ok.inj h)
    have hmem := (Table.get_eq_some_iff.mp hc).1
    have hmem' := (Table.get_eq_some_iff.mp hn).1
    have htransferred :
        transferred db (.transferOwnership currentOwner newOwner) = some (c, n) := by
      rw [transferred, hc, hn]
      rfl
    exact .inr (.inr (.inr (.inr ⟨c, hmem, n, hmem', htransferred, rfl, rfl⟩)))
  case directory =>
    obtain ⟨rfl, rfl⟩ := Prod.mk.inj (Except.ok.inj h)
    exact .inl ⟨rfl, nofun⟩
  -- the three creations
  all_goals
    obtain hsame | hnew := performCreation_eq_ok h
    · exact .inl hsame
    · exact .inr (.inl hnew)

end Cases

/-! ### Steps -/

section Steps

variable {db db' : State} {op : Operation} {answer : Option Member}

/-- No customer has two owners, and those that were given an owner have one. -/
structure Inv (log : List Observation) (db : State) : Prop where
  atMostOne : ∀ customerId, (db.owners customerId).length ≤ 1
  given : ∀ customerId, .ownerGiven customerId ∈ log → (db.owners customerId).length = 1

theorem mem_observe {customerId : Uuid} (h : .ownerGiven customerId ∈ observe answer) :
    ∃ m, answer = some m ∧ IsOwner m ∧ m.customerId = customerId := by
  rcases answer with _ | m
  · simp [observe] at h
  · rw [observe] at h
    split at h
    · rename_i howner
      obtain rfl : customerId = m.customerId := by simpa using h
      exact ⟨m, rfl, howner, rfl⟩
    · simp at h

/-- The members before and after an operation that meets the condition. -/
structure Kept (db db' : State) (answer : Option Member) : Prop where
  atMostOne : ∀ customerId, (db'.owners customerId).length ≤ 1
  kept : ∀ customerId,
    (db.owners customerId).length = 1 → (db'.owners customerId).length = 1
  answered : ∀ m, answer = some m → IsOwner m → (db'.owners m.customerId).length = 1

/-- It is enough that a customer keeps the number of its owners, or gets its first. -/
theorem kept_of_count (hone : ∀ customerId, (db.owners customerId).length ≤ 1)
    (hcount : ∀ customerId, (db'.owners customerId).length = (db.owners customerId).length ∨
      (db.owners customerId).length = 0 ∧ (db'.owners customerId).length = 1)
    (hanswer : ∀ m, answer = some m → IsOwner m → m ∈ db'.members) : Kept db db' answer := by
  have hone' (customerId : Uuid) : (db'.owners customerId).length ≤ 1 := by
    have hle := hone customerId
    rcases hcount customerId with h | h <;> omega
  refine ⟨hone', fun customerId hold => ?_, fun m hm howner => ?_⟩
  · rcases hcount customerId with h | h <;> omega
  · have hpos := length_owners_pos (hanswer m hm howner) howner
    have hle := hone' m.customerId
    omega

theorem kept_of_members_eq (hone : ∀ customerId, (db.owners customerId).length ≤ 1)
    (h : db'.members = db.members) (hanswer : ∀ m ∈ answer, m ∈ db.members) :
    Kept db db' answer := by
  refine kept_of_count hone (fun customerId => .inl ?_) fun m hm _ => ?_
  · rw [length_owners, length_owners, h]
  · rw [h]
    exact hanswer m hm

theorem kept_of_insert {m : Member} (hone : ∀ customerId, (db.owners customerId).length ≤ 1)
    (h : db.insert m = .ok db') (hfits : m.role = .owner → db.owners m.customerId = []) :
    Kept db db' (some m) := by
  refine kept_of_count hone (fun customerId => ?_) fun m' hm' _ => ?_
  · rw [length_owners_insert h]
    split
    · rename_i hnew
      obtain ⟨rfl, howner⟩ := hnew
      rw [hfits howner.2]
      exact .inr ⟨rfl, rfl⟩
    · exact .inl rfl
  · obtain rfl := Option.some.inj hm'
    exact mem_insert h

/-- A member that stays an owner, or becomes the owner of a customer that has none. -/
theorem kept_of_update {m : Member} (hone : ∀ customerId, (db.owners customerId).length ≤ 1)
    (hm : m ∈ db.members) {changes : Changes} (hlose : IsOwner m → IsOwner (m.apply changes))
    (hgain : ¬IsOwner m → IsOwner (m.apply changes) → (db.owners m.customerId).length = 0) :
    Kept db (db.update m.id changes) (some (m.apply changes)) := by
  refine kept_of_count hone (fun customerId => ?_) fun m' hm' _ => ?_
  · have hlength := length_owners_update hm changes customerId
    by_cases hcustomer : m.customerId = customerId
    · subst hcustomer
      by_cases howner : IsOwner m
      · simp only [howner, hlose howner, and_self, if_true] at hlength
        omega
      · by_cases howner' : IsOwner (m.apply changes)
        · have hnone := hgain howner howner'
          simp only [howner, howner', and_false, and_self, if_true, if_false] at hlength
          omega
        · simp only [howner, howner', and_false, if_false] at hlength
          omega
    · simp only [hcustomer, false_and, if_false] at hlength
      omega
  · obtain rfl := Option.some.inj hm'
    exact mem_update_self hm changes

/-- `_guard_role_transition` lets an owner lose the role only if there is another one, and
somebody gain it only if there is none. -/
theorem kept_of_role {m : Member} (hone : ∀ customerId, (db.owners customerId).length ≤ 1)
    (hm : m ∈ db.members) (hlive : m.deletedAt = none) {name : Option String}
    {role : Option MemberRole} (hguard : ∀ target ∈ role, m.role ≠ target →
      guardRoleTransition m target (db.listByCustomer m.customerId) = .ok ()) :
    Kept db (db.update m.id { name, role }) (some (m.apply { name, role })) := by
  have hguarded (target : MemberRole) (htarget : target ∈ role) (hne : m.role ≠ target) :
      ¬((m.role = .owner ∧ target ≠ .owner) ∧ (db.owners m.customerId).length ≤ 1 ∨
        (target = .owner ∧ m.role ≠ .owner) ∧ 1 ≤ (db.owners m.customerId).length) := by
    have hok := hguard target htarget hne
    rw [guardRoleTransition, ownerCount_listByCustomer] at hok
    split at hok
    · simp at hok
    · rename_i h
      exact h
  refine kept_of_update hone hm (fun howner => ?_) fun howner howner' => ?_
  · rcases role with _ | target
    · exact howner
    · by_contra hlost
      have hne : target ≠ .owner := fun h => hlost ⟨howner.1, h⟩
      refine hguarded target rfl (howner.2 ▸ hne.symm) (.inl ⟨⟨howner.2, hne⟩, hone _⟩)
  · rcases role with _ | target
    · exact absurd howner' howner
    · have htarget : target = .owner := howner'.2
      have hne : m.role ≠ .owner := fun h => howner ⟨hlive, h⟩
      by_contra hsome
      refine hguarded target rfl (htarget ▸ hne) (.inr ⟨⟨htarget, hne⟩, ?_⟩)
      omega

theorem kept_of_delete {m : Member} (hone : ∀ customerId, (db.owners customerId).length ≤ 1)
    (hm : m ∈ db.members) {now : Time}
    (hguard : ¬(m.role = .owner ∧ ownerCount (db.listByCustomer m.customerId) ≤ 1)) :
    Kept db (db.update m.id { deletedAt := some now })
      (some (m.apply { deletedAt := some now })) := by
  rw [ownerCount_listByCustomer] at hguard
  refine kept_of_update hone hm (fun howner => ?_) fun _ howner' => ?_
  · exact absurd ⟨howner.2, hone _⟩ hguard
  · exact absurd howner'.1 nofun

theorem not_isOwner_demoted (m : Member) :
    ¬IsOwner (m.apply { role := some .billingManager }) := fun h => nomatch h.2

theorem isOwner_promoted {m : Member} :
    IsOwner (m.apply { role := some .owner }) ↔ m.deletedAt = none :=
  ⟨fun h => h.1, fun h => ⟨h, rfl⟩⟩

theorem length_owners_demoted {c n x : Member}
    (hx : x ∈ (db.update n.id { role := some .owner }).members) (hid : x.id = c.id)
    (customerId : Uuid) :
    ((transferOwnership db c n).1.owners customerId).length +
        (if x.customerId = customerId ∧ IsOwner x then 1 else 0) =
      ((db.update n.id { role := some .owner }).owners customerId).length := by
  have hdemoted := length_owners_update hx { role := some .billingManager } customerId
  simp only [not_isOwner_demoted, and_false, if_false, hid] at hdemoted
  exact hdemoted

theorem length_owners_transfer_self {c : Member} (hc : c ∈ db.members) (customerId : Uuid) :
    ((transferOwnership db c c).1.owners customerId).length +
        (if c.customerId = customerId ∧ IsOwner c then 1 else 0) =
      (db.owners customerId).length := by
  have hpromoted := length_owners_update hc { role := some .owner } customerId
  have hdemoted := length_owners_demoted (c := c) (mem_update_self hc _) rfl customerId
  have hcustomer : (c.apply { role := some .owner }).customerId = c.customerId := rfl
  rw [hcustomer] at hdemoted
  omega

theorem length_owners_transfer {c n : Member} (hc : c ∈ db.members) (hn : n ∈ db.members)
    (hne : c.id ≠ n.id) (customerId : Uuid) :
    ((transferOwnership db c n).1.owners customerId).length +
        (if c.customerId = customerId ∧ IsOwner c then 1 else 0) +
        (if n.customerId = customerId ∧ IsOwner n then 1 else 0) =
      (db.owners customerId).length +
        if n.customerId = customerId ∧ n.deletedAt = none then 1 else 0 := by
  have hpromoted := length_owners_update hn { role := some .owner } customerId
  have hdemoted := length_owners_demoted (mem_update_of_ne hc hne _) rfl customerId
  simp only [isOwner_promoted] at hpromoted
  omega

theorem kept_of_transfer {c n : Member} (hone : ∀ customerId, (db.owners customerId).length ≤ 1)
    (hc : c ∈ db.members) (hn : n ∈ db.members) (hfits : TransferFits db c n) :
    Kept db (transferOwnership db c n).1 (some (transferOwnership db c n).2) := by
  by_cases hsame : c.id = n.id
  · obtain rfl := Table.eq_of_key_eq hc hn hsame
    rw [TransferFits, if_pos rfl] at hfits
    refine kept_of_count hone (fun customerId => .inl ?_) fun m hm howner => ?_
    · have hlength := length_owners_transfer_self hc customerId
      rwa [if_neg fun h => hfits h.2] at hlength
    · obtain rfl := Option.some.inj hm
      rw [transferOwnership, if_pos rfl] at howner
      exact absurd howner (not_isOwner_demoted c)
  · rw [TransferFits, if_neg hsame] at hfits
    refine kept_of_count hone (fun customerId => ?_) fun m hm howner => ?_
    · have hlength := length_owners_transfer hc hn hsame customerId
      by_cases howner : IsOwner c
      · rw [if_pos howner] at hfits
        have hother : ¬IsOwner n := fun h =>
          hsame (owner_unique (hone _) hc howner hn h hfits.1 ▸ rfl)
        simp only [howner, hother, hfits.1, hfits.2, and_true, and_false, if_false] at hlength
        omega
      · rw [if_neg howner] at hfits
        simp only [howner, and_false, if_false] at hlength
        by_cases hnew : n.customerId = customerId ∧ n.deletedAt = none
        · obtain ⟨rfl, hlive⟩ := hnew
          obtain hrole | hnone := hfits hlive
          · have hold : IsOwner n := ⟨hlive, hrole⟩
            simp only [hold, hlive, and_self, if_true] at hlength
            omega
          · have hold : ¬IsOwner n := fun h =>
              List.not_mem_nil (hnone ▸ mem_owners.mpr ⟨hn, rfl, h⟩)
            have hzero : (db.owners n.customerId).length = 0 := List.length_eq_zero_iff.mpr hnone
            simp only [hold, hlive, and_self, and_false, if_true, if_false] at hlength
            omega
        · have hold : ¬(n.customerId = customerId ∧ IsOwner n) := fun h => hnew ⟨h.1, h.2.1⟩
          rw [if_neg hold, if_neg hnew] at hlength
          omega
    · obtain rfl := Option.some.inj hm
      have hanswer : (transferOwnership db c n).2 = n.apply { role := some .owner } :=
        if_neg (Ne.symm hsame)
      rw [hanswer]
      have hmem := mem_update_self hn { role := some .owner }
      exact mem_update_of_ne hmem (Ne.symm hsame) _

theorem accepts_of_insert {m : Member} (h : db.insert m = .ok db') : db.Accepts m := by
  rw [State.insert] at h
  split at h
  · assumption
  · simp at h

/-- **Steps.** Every operation that meets the condition keeps the owners. -/
theorem kept_of_perform {past : List Operation}
    (hone : ∀ customerId, (db.owners customerId).length ≤ 1) (hguarded : Guarded past db op)
    (h : perform db op = .ok (db', answer)) : Kept db db' answer := by
  obtain ⟨hentryFits, htransferFits⟩ := hguarded
  obtain ⟨hmembers, hanswer⟩ | ⟨m, hentry, hinsert, rfl⟩ |
    ⟨m, hm, hlive, name, role, hguard, rfl, rfl⟩ | ⟨m, hm, -, hguard, now, rfl, rfl⟩ |
    ⟨c, hc, n, hn, htransferred, rfl, rfl⟩ := perform_cases h
  · exact kept_of_members_eq hone hmembers hanswer
  · rw [hentry] at hentryFits
    exact kept_of_insert hone hinsert (hentryFits (accepts_of_insert hinsert))
  · exact kept_of_role hone hm hlive hguard
  · exact kept_of_delete hone hm hguard
  · exact kept_of_transfer hone hc hn (htransferFits (c, n) htransferred)

theorem Inv.step {log : List Observation} {past : List Operation} {db₀ : State}
    (hinv : Inv log db) (hguarded : Guarded past db op) :
    Inv (log ++ ((system db₀).step db op).2) ((system db₀).step db op).1 := by
  rcases hperform : perform db op with e | ⟨db', answer⟩
  · have hstep : (system db₀).step db op = (db, []) := by
      rw [system]
      dsimp only
      rw [hperform]
    rwa [hstep, List.append_nil]
  · have hstep : (system db₀).step db op = (db', observe answer) := by
      rw [system]
      dsimp only
      rw [hperform]
    have hkept := kept_of_perform hinv.atMostOne hguarded hperform
    rw [hstep]
    refine ⟨hkept.atMostOne, fun customerId hgiven => ?_⟩
    rcases List.mem_append.mp hgiven with hold | hnew
    · exact hkept.kept customerId (hinv.given customerId hold)
    · obtain ⟨m, hm, howner, rfl⟩ := mem_observe hnew
      exact hkept.answered m hm howner

end Steps

/-! ### Runs -/

section Runs

variable {db : State} {ops : List Operation}

/-- **One owner.** From a state without members, in a run whose operations all meet the
condition, every customer that has been given an owner has exactly one after every operation. -/
theorem singleOwner_of_guarded (hempty : db.members.rows = [])
    (h : (system db).Along Guarded ops) : (system db).Along (SingleOwner db) ops := by
  refine (system db).along_of_along (fun _ s log => Inv log s) ?_ ?_ ?_ h
  · have hnone (customerId : Uuid) : (db.owners customerId).length = 0 := by
      rw [length_owners, hempty]
      rfl
    exact ⟨fun customerId => (hnone customerId).le.trans (Nat.zero_le 1), nofun⟩
  · exact fun past op hinv hguarded => hinv.step hguarded
  · intro past op hinv hguarded customerId hgiven
    rw [log_snoc] at hgiven
    exact (hinv.step hguarded).given customerId hgiven

end Runs

/-- A workspace with the feature on, and a team customer of it. -/
def teamState : State where
  workspaces := Table.singleton { id := 1, memberModelEnabled := true }
  customers := Table.singleton
    { id := 2, workspaceId := 1, type := some .team, email := "team@example.com" }

/-- The customer gets an owner, then a member, and the ownership is transferred. -/
def handover : List Operation :=
  [.createOwnerMember 10 2 none none none,
    .create (.workspace 1) 11 2 "b@example.com" none none .member,
    .transferOwnership 10 11,
    .update (.workspace 1) 10 none (some .owner),
    .delete (.workspace 1) 11 0,
    .delete (.workspace 1) 10 0]

theorem handover_singleOwner : (system teamState).Along (SingleOwner teamState) handover :=
  singleOwner_of_guarded (by decide) (by decide +kernel)

/-- Two members are created with the owner role. -/
def twoOwners : List Operation :=
  [.create (.workspace 1) 10 2 "a@example.com" none none .owner,
    .create (.workspace 1) 11 2 "b@example.com" none none .owner]

/-- Nothing keeps `create` from inserting a second owner. -/
theorem two_owners_of_two_creations :
    ¬(system teamState).Along (SingleOwner teamState) twoOwners := by
  intro h
  have hlast := (h.2.1) 2 (by decide +kernel)
  revert hlast
  decide +kernel

end Rapidly.Identity.Members
