import Mathlib.Data.Nat.Notation
import Mathlib.Data.Option.Basic

/-!
# Rows under read committed isolation

A `Versioned` row is what transactions that run side by side see of one row: the version that is
committed, and the version that one transaction, which holds the row's lock, has written and not
committed. Transactions are numbered.

A transaction reads its own version if it has written one, else the committed one. A write has to
wait while another transaction holds the lock; then it takes the lock and changes what is newest.
`latest` is the version that the row has when every transaction commits: a commit keeps it, and
only a rollback takes it back.

A table is the list of its rows from their insertion on, where `none` stands for a row that is not
there: `getOneOrNone` is a query for one row.
-/

namespace Relational

universe u

/-- A row with the version of the transaction that has written it. -/
structure Versioned (V : Type u) where
  committed : V
  pending : Option (ℕ × V) := none
deriving DecidableEq

namespace Versioned

variable {V : Type u}

/-- Another transaction holds the lock. -/
def LockedFor (r : Versioned V) (i : ℕ) : Prop := ∃ w ∈ r.pending, w.1 ≠ i

instance (r : Versioned V) (i : ℕ) : Decidable (r.LockedFor i) :=
  inferInstanceAs (Decidable (∃ w ∈ r.pending, w.1 ≠ i))

/-- What a transaction reads. -/
def seenBy (r : Versioned V) (i : ℕ) : V :=
  match r.pending with
  | some (j, v) => if j = i then v else r.committed
  | none => r.committed

/-- The version that the row has when every transaction commits. -/
def latest (r : Versioned V) : V := (r.pending.map Prod.snd).getD r.committed

/-- A write of a transaction that does not have to wait. -/
def write (r : Versioned V) (i : ℕ) (v : V) : Versioned V := { r with pending := some (i, v) }

/-- The end of a transaction that commits. -/
def commit (r : Versioned V) (i : ℕ) : Versioned V :=
  match r.pending with
  | some (j, v) => if j = i then { committed := v } else r
  | none => r

/-- The end of a transaction that is rolled back. -/
def rollback (r : Versioned V) (i : ℕ) : Versioned V :=
  match r.pending with
  | some (j, _) => if j = i then { committed := r.committed } else r
  | none => r

variable {r : Versioned V} {i j : ℕ} {v : V}

@[simp] theorem latest_write : (r.write i v).latest = v := rfl

@[simp] theorem committed_write : (r.write i v).committed = r.committed := rfl

@[simp] theorem pending_write : (r.write i v).pending = some (i, v) := rfl

@[simp] theorem seenBy_write_self : (r.write i v).seenBy i = v := if_pos rfl

theorem seenBy_write_of_ne (h : j ≠ i) : (r.write i v).seenBy j = r.committed := if_neg h.symm

theorem latest_of_pending (h : r.pending = none) : r.latest = r.committed := by
  rw [latest, h]
  rfl

theorem latest_eq_of_pending (h : r.pending = some (i, v)) : r.latest = v := by
  rw [latest, h]
  rfl

theorem seenBy_of_pending (h : ∀ v, r.pending ≠ some (i, v)) : r.seenBy i = r.committed := by
  unfold seenBy
  split
  next j v hpending =>
    refine if_neg fun hj => h v ?_
    rw [hpending, hj]
  next => rfl

/-- A transaction that has not written and does not have to wait finds no uncommitted version. -/
theorem pending_eq_none (hlocked : ¬r.LockedFor i) (h : ∀ v, r.pending ≠ some (i, v)) :
    r.pending = none := by
  refine Option.eq_none_iff_forall_not_mem.mpr fun w hw => hlocked ⟨w, hw, fun hi => h w.2 ?_⟩
  rw [← hi]
  exact hw

/-- A transaction that ends without having written changes nothing. -/
theorem commit_of_pending (h : ∀ v, r.pending ≠ some (i, v)) : r.commit i = r := by
  unfold commit
  split
  next j v hpending =>
    refine if_neg fun hj => h v ?_
    rw [hpending, hj]
  next => rfl

theorem rollback_of_pending (h : ∀ v, r.pending ≠ some (i, v)) : r.rollback i = r := by
  unfold rollback
  split
  next j v hpending =>
    refine if_neg fun hj => h v ?_
    rw [hpending, hj]
  next => rfl

theorem commit_eq (h : r.pending = some (i, v)) : r.commit i = { committed := v } := by
  rw [commit, h]
  exact if_pos rfl

theorem rollback_eq (h : r.pending = some (i, v)) :
    r.rollback i = { committed := r.committed } := by
  rw [rollback, h]
  exact if_pos rfl

theorem pending_cases (r : Versioned V) (i : ℕ) :
    (∃ v, r.pending = some (i, v)) ∨ ∀ v, r.pending ≠ some (i, v) := by
  by_cases h : ∃ v, r.pending = some (i, v)
  · exact .inl h
  · exact .inr fun v hv => h ⟨v, hv⟩

/-- A version that is left after a transaction has ended was there before. -/
theorem pending_of_commit {w : ℕ × V} (h : (r.commit i).pending = some w) :
    r.pending = some w := by
  rcases r.pending_cases i with ⟨v, hv⟩ | hnot
  · rw [commit_eq hv] at h
    exact absurd h.symm (Option.some_ne_none w)
  · rwa [commit_of_pending hnot] at h

theorem pending_of_rollback {w : ℕ × V} (h : (r.rollback i).pending = some w) :
    r.pending = some w := by
  rcases r.pending_cases i with ⟨v, hv⟩ | hnot
  · rw [rollback_eq hv] at h
    exact absurd h.symm (Option.some_ne_none w)
  · rwa [rollback_of_pending hnot] at h

/-- A version that is left after a transaction has been rolled back is not its own. -/
theorem ne_of_pending_rollback {w : ℕ × V} (h : (r.rollback i).pending = some w) : w.1 ≠ i := by
  rintro rfl
  have hold := pending_of_rollback h
  rw [rollback_eq hold] at h
  exact absurd h.symm (Option.some_ne_none w)

theorem ne_of_pending_commit {w : ℕ × V} (h : (r.commit i).pending = some w) : w.1 ≠ i := by
  rintro rfl
  have hold := pending_of_commit h
  rw [commit_eq hold] at h
  exact absurd h.symm (Option.some_ne_none w)

/-- A commit makes the latest version the committed one, where no other transaction has written. -/
theorem committed_commit (h : ¬r.LockedFor i) : (r.commit i).committed = r.latest := by
  rcases r.pending_cases i with ⟨v, hv⟩ | hnot
  · rw [commit_eq hv, latest_eq_of_pending hv]
  · rw [commit_of_pending hnot, latest_of_pending (pending_eq_none h hnot)]

@[simp] theorem committed_rollback : (r.rollback i).committed = r.committed := by
  rcases r.pending_cases i with ⟨v, hv⟩ | hnot
  · rw [rollback_eq hv]
  · rw [rollback_of_pending hnot]

@[simp] theorem latest_commit : (r.commit i).latest = r.latest := by
  rcases r.pending_cases i with ⟨v, hv⟩ | h
  · rw [commit_eq hv, latest_eq_of_pending hv]
    rfl
  · rw [commit_of_pending h]

/-! ### Properties that outlast the transactions -/

/-- The committed version has a property, and so has the one that is left when every transaction
commits. -/
def Stands (P : V → Prop) (r : Versioned V) : Prop := P r.committed ∧ P r.latest

instance (P : V → Prop) [DecidablePred P] (r : Versioned V) : Decidable (r.Stands P) :=
  inferInstanceAs (Decidable (_ ∧ _))

variable {P : V → Prop}

theorem Stands.write (h : r.Stands P) (hv : P v) : (r.write i v).Stands P := ⟨h.1, hv⟩

theorem Stands.commit (h : r.Stands P) : (r.commit i).Stands P := by
  rcases r.pending_cases i with ⟨v, hv⟩ | hnot
  · have hlatest : P v := latest_eq_of_pending hv ▸ h.2
    rw [commit_eq hv]
    exact ⟨hlatest, hlatest⟩
  · rwa [commit_of_pending hnot]

theorem Stands.rollback (h : r.Stands P) : (r.rollback i).Stands P := by
  rcases r.pending_cases i with ⟨v, hv⟩ | hnot
  · rw [rollback_eq hv]
    exact ⟨h.1, h.1⟩
  · rwa [rollback_of_pending hnot]

theorem stands_of_commit (h : P (r.commit i).committed) (hnot : ¬P r.committed) :
    (r.commit i).Stands P := by
  rcases r.pending_cases i with ⟨v, hv⟩ | hpending
  · rw [commit_eq hv] at h ⊢
    exact ⟨h, h⟩
  · rw [commit_of_pending hpending] at h
    exact absurd h hnot

/-- The version is committed, or will be when every transaction commits. -/
def Admits (r : Versioned V) (v : V) : Prop := r.committed = v ∨ r.latest = v

instance [DecidableEq V] (r : Versioned V) (v : V) : Decidable (r.Admits v) :=
  inferInstanceAs (Decidable (_ ∨ _))

variable {w : V}

theorem admits_of_write (h : (r.write i v).Admits w) : r.Admits w ∨ v = w := h.imp_left .inl

theorem admits_of_commit (h : (r.commit i).Admits w) : r.Admits w := by
  rcases r.pending_cases i with ⟨v, hv⟩ | hnot
  · rw [commit_eq hv] at h
    have hlatest : v = w := h.elim id id
    exact .inr ((latest_eq_of_pending hv).trans hlatest)
  · rwa [commit_of_pending hnot] at h

theorem admits_of_rollback (h : (r.rollback i).Admits w) : r.Admits w := by
  rcases r.pending_cases i with ⟨v, hv⟩ | hnot
  · rw [rollback_eq hv] at h
    exact .inl (h.elim id id)
  · rwa [rollback_of_pending hnot] at h

/-! ### The end of a transaction -/

/-- What the two ends of a transaction have in common. -/
structure Ends (i : ℕ) (f : ∀ {V : Type}, Versioned V → Versioned V) : Prop where
  eq_self : ∀ {V : Type} {r : Versioned V}, (∀ v, r.pending ≠ some (i, v)) → f r = r
  pending : ∀ {V : Type} {r : Versioned V} {w : ℕ × V}, (f r).pending = some w →
    r.pending = some w ∧ w.1 ≠ i
  stands : ∀ {V : Type} {r : Versioned V} {P : V → Prop}, r.Stands P → (f r).Stands P

theorem ends_commit (i : ℕ) : Ends i (Versioned.commit · i) where
  eq_self := commit_of_pending
  pending h := ⟨pending_of_commit h, ne_of_pending_commit h⟩
  stands := Stands.commit

theorem ends_rollback (i : ℕ) : Ends i (Versioned.rollback · i) where
  eq_self := rollback_of_pending
  pending h := ⟨pending_of_rollback h, ne_of_pending_rollback h⟩
  stands := Stands.rollback

end Versioned

/-! ### Tables -/

variable {V : Type u}

/-- The committed row with the property and its number, `none` if there are several. -/
def getOneOrNone (rows : List (Versioned (Option V))) (P : V → Bool) : Option (Option (ℕ × V)) :=
  match rows.zipIdx.filterMap fun r => (r.1.committed.filter P).map (Prod.mk r.2) with
  | [] => some none
  | [found] => some (some found)
  | _ => none

theorem getOneOrNone_eq_some {rows : List (Versioned (Option V))} {P : V → Bool} {k : ℕ} {v : V}
    (h : getOneOrNone rows P = some (some (k, v))) :
    ∃ r, rows[k]? = some r ∧ r.committed = some v ∧ P v = true := by
  unfold getOneOrNone at h
  split at h
  · exact absurd h nofun
  next found hfound =>
    obtain rfl := Option.some.inj (Option.some.inj h)
    have hmem : (k, v) ∈ rows.zipIdx.filterMap fun r =>
        (r.1.committed.filter P).map (Prod.mk r.2) := by
      rw [hfound]
      exact List.mem_singleton_self _
    obtain ⟨⟨r, k'⟩, hr, hmap⟩ := List.mem_filterMap.mp hmem
    obtain ⟨v', hv', heq⟩ := Option.map_eq_some_iff.mp hmap
    obtain ⟨rfl, rfl⟩ := Prod.mk.inj heq
    obtain ⟨hcommitted, hP⟩ := Option.filter_eq_some_iff.mp hv'
    exact ⟨r, List.mem_zipIdx_iff_getElem?.mp hr, hcommitted, hP⟩
  · exact absurd h nofun

/-- What is in a table after a transaction has ended in all of its rows. -/
theorem getElem?_map_cases {R : Type u} {rows : List R} {g : R → R} {k : ℕ} {r' : R}
    (h : (rows.map g)[k]? = some r') : ∃ r, rows[k]? = some r ∧ r' = g r := by
  rw [List.getElem?_map] at h
  obtain ⟨r, hr, heq⟩ := Option.map_eq_some_iff.mp h
  exact ⟨r, hr, heq.symm⟩

theorem getElem?_map_of_eq {R : Type u} {rows : List R} {k : ℕ} {r : R} (h : rows[k]? = some r)
    (g : R → R) : (rows.map g)[k]? = some (g r) := by
  rw [List.getElem?_map, h]
  rfl

/-- What is in a table after one of its rows has been changed. -/
theorem getElem?_modify_cases {R : Type u} {rows : List R} {f : R → R} {j k : ℕ} {r' : R}
    (h : (rows.modify k f)[j]? = some r') :
    (∃ r, rows[k]? = some r ∧ j = k ∧ r' = f r) ∨ rows[j]? = some r' ∧ j ≠ k := by
  rw [List.getElem?_modify] at h
  obtain ⟨r, hr, heq⟩ := Option.map_eq_some_iff.mp h
  by_cases hj : k = j
  · subst hj
    rw [if_pos rfl] at heq
    exact .inl ⟨r, hr, rfl, heq.symm⟩
  · rw [if_neg hj] at heq
    exact .inr ⟨heq ▸ hr, Ne.symm hj⟩

theorem getElem?_modify_self {R : Type u} {rows : List R} {f : R → R} {k : ℕ} {r : R}
    (h : rows[k]? = some r) : (rows.modify k f)[k]? = some (f r) := by
  rw [List.getElem?_modify, h]
  exact congrArg some (if_pos rfl)

theorem getElem?_modify_of_ne {R : Type u} {rows : List R} {f : R → R} {j k : ℕ} (h : j ≠ k) :
    (rows.modify k f)[j]? = rows[j]? := by
  have hid : ∀ r, (if k = j then f r else r) = r := fun r => if_neg h.symm
  rw [List.getElem?_modify]
  simp only [hid]
  exact Option.map_id'

end Relational
