import Mathlib.Data.List.Nodup
import Rapidly.Transition.Tasks

/-!
# Credentials consumed by transactions

A credential is meant to be used once: a request looks it up, does its own work, and then
consumes it, all in one transaction of a database under read-committed isolation. The lookup sees
what has been committed and takes no lock. The statement that consumes the credential locks its
row until the transaction ends, and waits while another transaction has the lock; where the row is
gone it locks nothing and does not raise. What a transaction writes is seen by others once it has
committed, and where anything raises it is rolled back.

`SingleUse` is what such a system consists of, and `SingleUse.tasks` runs its requests side by
side, one statement a step. Two laws of `Lawful` say that a commit spends the credential for good.
They do not make it single use: two requests that look it up before either has committed are both
accepted. `nodup_accepted` is what they give: the accepted credentials are distinct along every run
in which each statement that consumes a credential still finds it unspent. The lock carries the
proof, since it is what keeps a credential unspent from that statement to the commit. What a
lookup has established about a credential is carried to its acceptance by `Carries`.
-/

namespace Transition

universe u

/-- How the work of a transaction goes on after a statement. -/
inductive Progress (ω π : Type*) where
  | raised
  | continued (w : ω)
  | finished (p : π)

/-- A database with single-use credentials `κ`, the requests that present them, and what else
happens to it. A transaction is in a state `ω` while it works, and writes a `π` when it commits. -/
structure SingleUse (σ κ Request ω π Input Event : Type*) where
  init : σ
  /-- What is committed elsewhere, and the requests that come in. -/
  arrive : σ → Event → σ × List Request
  lookup : σ → Request → Option (κ × ω)
  /-- One statement between the lookup and the consumption. -/
  work : σ → κ → ω → Input → Progress ω π
  /-- What the statement that consumes the credential adds to the writes. -/
  consume : σ → κ → π → π
  /-- The credential's row is there to be locked. -/
  present : σ → κ → Bool
  /-- `none` where the writes violate a constraint. -/
  commit : σ → κ → π → Option σ

/-- Where a request stands. -/
inductive Redemption (κ Request ω π : Type*) where
  | looking (request : Request)
  | working (key : κ) (w : ω)
  | consuming (key : κ) (p : π)
  | committing (key : κ) (p : π)
  | accepted (key : κ) (p : π)
  | rejected
deriving DecidableEq

/-- What has been committed, and which transaction has locked which row. -/
structure Locked (σ κ : Type*) where
  store : σ
  locks : List (κ × ℕ) := []
deriving DecidableEq

namespace Locked

variable {σ κ : Type*} (s : Locked σ κ)

/-- Another transaction has locked the row. -/
def Waits (i : ℕ) (key : κ) : Prop := ∃ lock ∈ s.locks, lock.1 = key ∧ lock.2 ≠ i

instance [DecidableEq κ] (i : ℕ) (key : κ) : Decidable (s.Waits i key) :=
  inferInstanceAs (Decidable (∃ lock ∈ s.locks, _))

/-- Lock a row. -/
def lock (key : κ) (i : ℕ) : Locked σ κ := { s with locks := (key, i) :: s.locks }

/-- The locks of a transaction end with it. -/
def release (i : ℕ) : Locked σ κ := { s with locks := s.locks.filter fun lock => lock.2 ≠ i }

/-- No row has two locks. -/
def Exclusive : Prop := ∀ key i j, (key, i) ∈ s.locks → (key, j) ∈ s.locks → i = j

variable {s}

@[simp] theorem mem_locks_release {i j : ℕ} {key : κ} :
    (key, j) ∈ (s.release i).locks ↔ (key, j) ∈ s.locks ∧ j ≠ i := by
  simp [release]

theorem Exclusive.release (h : s.Exclusive) (i : ℕ) : (s.release i).Exclusive := by
  intro key j k hj hk
  rw [mem_locks_release] at hj hk
  exact h key j k hj.1 hk.1

/-- A row that no other transaction has locked can be locked. -/
theorem Exclusive.lock (h : s.Exclusive) {i : ℕ} {key : κ} (hwaits : ¬s.Waits i key) :
    (s.lock key i).Exclusive := by
  have hown {j : ℕ} (hj : (key, j) ∈ s.locks) : j = i := by
    by_contra hne
    exact hwaits ⟨(key, j), hj, rfl, hne⟩
  intro key' j k hj hk
  rcases List.mem_cons.mp hj with hnew | hold <;> rcases List.mem_cons.mp hk with hnew' | hold'
  · exact (Prod.mk.inj hnew).2.trans (Prod.mk.inj hnew').2.symm
  · obtain ⟨rfl, rfl⟩ := Prod.mk.inj hnew
    exact (hown hold').symm
  · obtain ⟨rfl, rfl⟩ := Prod.mk.inj hnew'
    exact hown hold
  · exact h key' j k hold hold'

end Locked

namespace SingleUse

variable {σ κ Request ω π Input Event : Type*}
variable (M : SingleUse σ κ Request ω π Input Event)

/-- What a statement of a request can come to. -/
inductive Advances (s : Locked σ κ) (i : ℕ) : Option Input → Redemption κ Request ω π →
    Locked σ κ × Redemption κ Request ω π × List (κ × π) → Prop
  | idle {answer t} : Advances s i answer t (s, t, [])
  | rejected {answer t s'} (h : s' = s ∨ s' = s.release i) :
    Advances s i answer t (s', .rejected, [])
  | found {input request key w} (h : M.lookup s.store request = some (key, w)) :
    Advances s i (some input) (.looking request) (s, .working key w, [])
  | continued {input key w w'} (h : M.work s.store key w input = .continued w') :
    Advances s i (some input) (.working key w) (s, .working key w', [])
  | finished {input key w p} (h : M.work s.store key w input = .finished p) :
    Advances s i (some input) (.working key w) (s, .consuming key p, [])
  | consumed {input key p} (h : ¬s.Waits i key) :
    Advances s i (some input) (.consuming key p)
      (if M.present s.store key then s.lock key i else s,
        .committing key (M.consume s.store key p), [])
  | accepted {input key p store} (h : M.commit s.store key p = some store) :
    Advances s i (some input) (.committing key p)
      ({ s with store }.release i, .accepted key p, [(key, p)])

section Statements

variable [DecidableEq κ]

/-- The next statement of a request; without an input it raises. -/
def advance (s : Locked σ κ) (i : ℕ) : Option Input → Redemption κ Request ω π →
    Locked σ κ × Redemption κ Request ω π × List (κ × π)
  | _, .accepted key p => (s, .accepted key p, [])
  | _, .rejected => (s, .rejected, [])
  | none, _ => (s.release i, .rejected, [])
  | some _, .looking request =>
    match M.lookup s.store request with
    | none => (s, .rejected, [])
    | some (key, w) => (s, .working key w, [])
  | some input, .working key w =>
    match M.work s.store key w input with
    | .raised => (s.release i, .rejected, [])
    | .continued w' => (s, .working key w', [])
    | .finished p => (s, .consuming key p, [])
  | some _, .consuming key p =>
    if s.Waits i key then (s, .consuming key p, [])
    else
      (if M.present s.store key then s.lock key i else s,
        .committing key (M.consume s.store key p), [])
  | some _, .committing key p =>
    match M.commit s.store key p with
    | none => (s.release i, .rejected, [])
    | some store => ({ s with store }.release i, .accepted key p, [(key, p)])

/-- All requests side by side. What is observed is a credential that is accepted. -/
def tasks : Tasks (Locked σ κ) (Redemption κ Request ω π) Event (Option Input) (κ × π) where
  init := { store := M.init }
  arrive s _ event :=
    ({ s with store := (M.arrive s.store event).1 },
      (M.arrive s.store event).2.map .looking, [])
  advance := M.advance

theorem advances (s : Locked σ κ) (i : ℕ) (answer : Option Input)
    (t : Redemption κ Request ω π) : M.Advances s i answer t (M.advance s i answer t) := by
  rcases answer with _ | input
  · rcases t with request | ⟨key, w⟩ | ⟨key, p⟩ | ⟨key, p⟩ | ⟨key, p⟩ | _
    · exact .rejected (.inr rfl)
    · exact .rejected (.inr rfl)
    · exact .rejected (.inr rfl)
    · exact .rejected (.inr rfl)
    · exact .idle
    · exact .idle
  · rcases t with request | ⟨key, w⟩ | ⟨key, p⟩ | ⟨key, p⟩ | ⟨key, p⟩ | _
    · rw [advance]
      rcases hlookup : M.lookup s.store request with _ | ⟨key, w⟩
      · exact .rejected (.inl rfl)
      · exact .found hlookup
    · rw [advance]
      rcases hwork : M.work s.store key w input with _ | w' | p
      · exact .rejected (.inr rfl)
      · exact .continued hwork
      · exact .finished hwork
    · rw [advance]
      split
      · exact .idle
      next hwaits => exact .consumed hwaits
    · rw [advance]
      rcases hcommit : M.commit s.store key p with _ | store
      · exact .rejected (.inr rfl)
      · exact .accepted hcommit
    · exact .idle
    · exact .idle

end Statements

/-- What makes a credential spent, in terms of the credentials that have been issued. -/
structure Lawful (Issued Spent : σ → κ → Prop) : Prop where
  lookup_issued : ∀ {s request key w}, M.lookup s request = some (key, w) → Issued s key
  present_of_issued : ∀ {s key}, Issued s key → ¬Spent s key → M.present s key = true
  issued_arrive : ∀ {s key}, Issued s key → ∀ event, Issued (M.arrive s event).1 key
  spent_arrive : ∀ {s key}, Spent s key → ∀ event, Spent (M.arrive s event).1 key
  issued_commit : ∀ {s s' key key' p}, Issued s key → M.commit s key' p = some s' →
    Issued s' key
  spent_commit : ∀ {s s' key key' p}, Spent s key → M.commit s key' p = some s' → Spent s' key
  commit_spends : ∀ {s s' key p}, Issued s key → M.commit s key p = some s' → Spent s' key

/-- A statement that consumes a credential, unless it has to wait, finds it unspent. -/
def Unspent (Spent : σ → κ → Prop) :
    System.Condition (Pool (Locked σ κ) (Redemption κ Request ω π)) (Turn Event (Option Input))
  | _, p, .resumed i (some _) =>
    match p.tasks[i]? with
    | some (.consuming key _) => ¬p.shared.Waits i key → ¬Spent p.shared.store key
    | _ => True
  | _, _, _ => True

instance [DecidableEq κ] (Spent : σ → κ → Prop) [∀ s key, Decidable (Spent s key)]
    (past : List (Turn Event (Option Input))) (p : Pool (Locked σ κ) (Redemption κ Request ω π))
    (l : Turn Event (Option Input)) : Decidable (Unspent Spent past p l) :=
  match l with
  | .event _ => isTrue trivial
  | .resumed _ none => isTrue trivial
  | .resumed i (some input) =>
    match h : p.tasks[i]? with
    | none => isTrue (by rw [Unspent, h]; trivial)
    | some (.looking _) => isTrue (by rw [Unspent, h]; trivial)
    | some (.working _ _) => isTrue (by rw [Unspent, h]; trivial)
    | some (.committing _ _) => isTrue (by rw [Unspent, h]; trivial)
    | some (.accepted _ _) => isTrue (by rw [Unspent, h]; trivial)
    | some .rejected => isTrue (by rw [Unspent, h]; trivial)
    | some (.consuming key _) =>
      decidable_of_iff (¬p.shared.Waits i key → ¬Spent p.shared.store key)
        (by rw [Unspent, h])

/-! ### What is carried from the lookup to the commit -/

section Carried

variable {M}

/-- A property `P` of what a transaction has found, and a property `Q` of what it writes, that its
statements establish and keep. -/
structure Carries (M : SingleUse σ κ Request ω π Input Event) (P : κ → ω → Prop)
    (Q : κ → π → Prop) : Prop where
  lookup : ∀ {s request key w}, M.lookup s request = some (key, w) → P key w
  continued : ∀ {s key w input w'}, P key w → M.work s key w input = .continued w' → P key w'
  finished : ∀ {s key w input p}, P key w → M.work s key w input = .finished p → Q key p
  consume : ∀ {s key p}, Q key p → Q key (M.consume s key p)

/-- What is asserted about a request. -/
def Carried (P : κ → ω → Prop) (Q : κ → π → Prop) : Redemption κ Request ω π → Prop
  | .working key w => P key w
  | .consuming key p => Q key p
  | .committing key p => Q key p
  | _ => True

variable {P : κ → ω → Prop} {Q : κ → π → Prop}

/-- A statement of a request keeps what it carries, and what is accepted has been carried. -/
theorem Advances.carried (hM : M.Carries P Q) {s : Locked σ κ} {i : ℕ} {answer : Option Input}
    {t : Redemption κ Request ω π} {r : Locked σ κ × Redemption κ Request ω π × List (κ × π)}
    (h : M.Advances s i answer t r) (ht : Carried P Q t) :
    Carried P Q r.2.1 ∧ ∀ accepted ∈ r.2.2, Q accepted.1 accepted.2 := by
  rcases h with _ | _ | hlookup | hwork | hwork | _ | _
  · exact ⟨ht, fun _ hmem => absurd hmem List.not_mem_nil⟩
  · exact ⟨trivial, fun _ hmem => absurd hmem List.not_mem_nil⟩
  · exact ⟨hM.lookup hlookup, fun _ hmem => absurd hmem List.not_mem_nil⟩
  · exact ⟨hM.continued ht hwork, fun _ hmem => absurd hmem List.not_mem_nil⟩
  · exact ⟨hM.finished ht hwork, fun _ hmem => absurd hmem List.not_mem_nil⟩
  · exact ⟨hM.consume ht, fun _ hmem => absurd hmem List.not_mem_nil⟩
  · refine ⟨trivial, fun accepted hmem => ?_⟩
    rw [List.mem_singleton.mp hmem]
    exact ht

variable [DecidableEq κ]

theorem Carries.outline (hM : M.Carries P Q) :
    M.tasks.Outline (fun _ _ _ => True) (fun log _ => ∀ accepted ∈ log, Q accepted.1 accepted.2)
      (fun _ _ _ t => Carried P Q t) where
  init := fun _ hmem => absurd hmem List.not_mem_nil
  event h _ := by
    rw [tasks, List.append_nil]
    exact h.shared
  started h _ k t ht := by
    obtain ⟨request, -, rfl⟩ := List.mem_map.mp (List.mem_of_getElem? ht)
    trivial
  undisturbed h _ i t hi := h.task i t hi
  resumed h _ hi := by
    obtain ⟨hcarried, haccepted⟩ := (M.advances _ _ _ _).carried hM (h.task _ _ hi)
    refine ⟨fun accepted hmem => ?_, hcarried⟩
    rcases List.mem_append.mp hmem with hold | hnew
    · exact h.shared accepted hold
    · exact haccepted accepted hnew
  interferes h _ _ j other hj _ := h.task j other hj

/-- Along every run, what is accepted has the property that the transactions carry. -/
theorem Carries.forall_accepted (hM : M.Carries P Q) (ls : List (Turn Event (Option Input))) :
    ∀ accepted ∈ M.tasks.system.log ls, Q accepted.1 accepted.2 :=
  (hM.outline.holds (System.along_of_forall _ (fun _ _ => trivial) ls)).shared

end Carried

/-! ### Proof outline -/

section Outline

variable {M} {Issued Spent : σ → κ → Prop} {s s' : Locked σ κ} {i j : ℕ}
variable {log : List (κ × π)} {key : κ} {p : π}

/-- What is asserted about the shared state: every credential that was accepted is spent, and
none was accepted twice. -/
structure Sound (Spent : σ → κ → Prop) (log : List (κ × π)) (s : Locked σ κ) : Prop where
  spent : ∀ key ∈ log.map Prod.fst, Spent s.store key
  nodup : (log.map Prod.fst).Nodup
  exclusive : s.Exclusive

/-- What is asserted about a request: the credential it has found was issued; and once it has
consumed the credential it holds the lock, and nobody has been accepted with it. -/
def Assertion (Issued : σ → κ → Prop) (log : List (κ × π)) (s : Locked σ κ) (i : ℕ) :
    Redemption κ Request ω π → Prop
  | .working key _ => Issued s.store key
  | .consuming key _ => Issued s.store key
  | .committing key _ =>
    Issued s.store key ∧ (key, i) ∈ s.locks ∧ key ∉ log.map Prod.fst
  | _ => True

/-- An assertion about a request stays true while no credential of its own is accepted, its locks
are kept, and what was issued stays issued. -/
theorem Assertion.mono {log' : List (κ × π)} {t : Redemption κ Request ω π}
    (h : Assertion Issued log s i t) (hissued : ∀ key, Issued s.store key → Issued s'.store key)
    (hlocks : ∀ key, (key, i) ∈ s.locks → (key, i) ∈ s'.locks)
    (hlog : ∀ key, (key, i) ∈ s.locks → key ∈ log'.map Prod.fst → key ∈ log.map Prod.fst) :
    Assertion Issued log' s' i t := by
  rcases t with _ | ⟨key, w⟩ | ⟨key, p⟩ | ⟨key, p⟩ | _ | _
  · trivial
  · exact hissued key h
  · exact hissued key h
  · obtain ⟨hi, hlock, hnew⟩ := h
    exact ⟨hissued key hi, hlocks key hlock, fun hmem => hnew (hlog key hlock hmem)⟩
  · trivial
  · trivial

/-- Locks of other requests survive what a statement of one request does. -/
theorem Advances.locks_other {answer : Option Input} {t : Redemption κ Request ω π}
    {r : Locked σ κ × Redemption κ Request ω π × List (κ × π)} (h : M.Advances s i answer t r)
    (hji : j ≠ i) (hlock : (key, j) ∈ s.locks) : (key, j) ∈ r.1.locks := by
  rcases h with _ | (rfl | rfl) | _ | _ | _ | _ | _
  · exact hlock
  · exact hlock
  · exact Locked.mem_locks_release.mpr ⟨hlock, hji⟩
  · exact hlock
  · exact hlock
  · exact hlock
  · dsimp only
    split
    · exact List.mem_cons_of_mem _ hlock
    · exact hlock
  · exact Locked.mem_locks_release.mpr ⟨hlock, hji⟩

/-- A statement of a request keeps what is asserted about the others. -/
theorem Advances.interferes (hM : M.Lawful Issued Spent) {answer : Option Input}
    {t other : Redemption κ Request ω π}
    {r : Locked σ κ × Redemption κ Request ω π × List (κ × π)} (h : M.Advances s i answer t r)
    (hshared : Sound Spent log s) (ht : Assertion Issued log s i t)
    (hother : Assertion Issued log s j other) (hji : j ≠ i) :
    Assertion Issued (log ++ r.2.2) r.1 j other := by
  have hlocks (key : κ) (hlock : (key, j) ∈ s.locks) : (key, j) ∈ r.1.locks :=
    h.locks_other hji hlock
  rcases h with _ | (rfl | rfl) | _ | _ | _ | _ | hcommit
  · rwa [List.append_nil]
  · rwa [List.append_nil]
  · rw [List.append_nil]
    exact hother.mono (fun _ => id) hlocks fun _ _ => id
  · rwa [List.append_nil]
  · rwa [List.append_nil]
  · rwa [List.append_nil]
  · rw [List.append_nil]
    refine hother.mono (fun key hkey => ?_) hlocks fun _ _ => id
    split <;> exact hkey
  · rename_i input key p store
    refine hother.mono (fun key' hkey' => hM.issued_commit hkey' hcommit) hlocks ?_
    -- Nobody else has locked the row that this request has.
    intro key' hlock hmem
    rw [List.map_append, List.mem_append] at hmem
    rcases hmem with hmem | hmem
    · exact hmem
    · obtain rfl : key' = key := List.mem_singleton.mp hmem
      exact absurd (hshared.exclusive _ _ _ hlock ht.2.1) hji

/-- A statement of a request keeps what is asserted about the shared state, and establishes what is
asserted about the request. -/
theorem Advances.establishes (hM : M.Lawful Issued Spent) {answer : Option Input}
    {t : Redemption κ Request ω π}
    {r : Locked σ κ × Redemption κ Request ω π × List (κ × π)} (h : M.Advances s i answer t r)
    (hunspent : ∀ input key p, answer = some input → t = .consuming key p →
      ¬s.Waits i key → ¬Spent s.store key)
    (hshared : Sound Spent log s) (ht : Assertion Issued log s i t) :
    Sound Spent (log ++ r.2.2) r.1 ∧ Assertion Issued (log ++ r.2.2) r.1 i r.2.1 := by
  rcases h with _ | (rfl | rfl) | hlookup | _ | _ | hwaits | hcommit
  · rw [List.append_nil]
    exact ⟨hshared, ht⟩
  · rw [List.append_nil]
    exact ⟨hshared, trivial⟩
  · rw [List.append_nil]
    exact ⟨⟨hshared.spent, hshared.nodup, hshared.exclusive.release i⟩, trivial⟩
  · rw [List.append_nil]
    exact ⟨hshared, hM.lookup_issued hlookup⟩
  · rw [List.append_nil]
    exact ⟨hshared, ht⟩
  · rw [List.append_nil]
    exact ⟨hshared, ht⟩
  · rename_i input key p
    have hnew : ¬Spent s.store key := hunspent input key p rfl rfl hwaits
    have hpresent : M.present s.store key = true := hM.present_of_issued ht hnew
    rw [List.append_nil]
    rw [if_pos hpresent]
    refine ⟨⟨hshared.spent, hshared.nodup, hshared.exclusive.lock hwaits⟩, ht,
      List.mem_cons_self, fun hmem => hnew (hshared.spent key hmem)⟩
  · rename_i input key p store
    obtain ⟨hissued, -, hnew⟩ := ht
    refine ⟨⟨fun key' hkey' => ?_, ?_, hshared.exclusive.release i⟩, trivial⟩
    · rw [List.map_append, List.mem_append] at hkey'
      rcases hkey' with hold | hkey'
      · exact hM.spent_commit (hshared.spent key' hold) hcommit
      · obtain rfl : key' = key := List.mem_singleton.mp hkey'
        exact hM.commit_spends hissued hcommit
    · rw [List.map_append]
      exact List.nodup_append.mpr ⟨hshared.nodup, List.nodup_singleton key,
        fun key' hold key'' hmem heq => hnew (by
          rwa [heq, List.mem_singleton.mp hmem] at hold)⟩

/-- What the condition says of a request that consumes its credential. -/
theorem Unspent.of_consuming {past : List (Turn Event (Option Input))}
    {q : Pool (Locked σ κ) (Redemption κ Request ω π)} {input : Input}
    (h : Unspent Spent past q (.resumed i (some input)))
    (hi : q.tasks[i]? = some (.consuming key p)) (hwaits : ¬q.shared.Waits i key) :
    ¬Spent q.shared.store key := by
  rw [Unspent, hi] at h
  exact h hwaits

variable [DecidableEq κ]

/-- The proof outline of the runs whose statements find the credentials they consume unspent. -/
theorem Lawful.outline (hM : M.Lawful Issued Spent) :
    M.tasks.Outline (Unspent Spent) (Sound Spent) (Assertion Issued) where
  init := ⟨fun _ hkey => absurd hkey List.not_mem_nil, List.nodup_nil,
    fun _ _ _ hlock => absurd hlock List.not_mem_nil⟩
  event h _ := by
    rw [tasks, List.append_nil]
    exact ⟨fun key hkey => hM.spent_arrive (h.shared.spent key hkey) _, h.shared.nodup,
      h.shared.exclusive⟩
  started h _ k t ht := by
    obtain ⟨request, -, rfl⟩ := List.mem_map.mp (List.mem_of_getElem? ht)
    trivial
  undisturbed h _ i t hi := by
    rw [tasks, List.append_nil]
    exact (h.task i t hi).mono (fun key hkey => hM.issued_arrive hkey _) (fun _ => id)
      fun _ _ => id
  resumed h hC hi := by
    refine (M.advances _ _ _ _).establishes hM ?_ h.shared (h.task _ _ hi)
    rintro input key p rfl rfl hwaits
    exact hC.of_consuming hi hwaits
  interferes h _ hi j other hj hji :=
    (M.advances _ _ _ _).interferes hM h.shared (h.task _ _ hi) (h.task j other hj) hji

/-- **Single use.** No credential is accepted twice along a run in which every statement that
consumes a credential finds it unspent. -/
theorem Lawful.nodup_accepted (hM : M.Lawful Issued Spent)
    {ls : List (Turn Event (Option Input))} (h : M.tasks.system.Along (Unspent Spent) ls) :
    ((M.tasks.system.log ls).map Prod.fst).Nodup :=
  (hM.outline.holds h).shared.nodup

theorem length_filter_le_one (h : (log.map Prod.fst).Nodup) (key : κ) :
    (log.filter fun accepted => accepted.1 = key).length ≤ 1 := by
  have hcount := List.nodup_iff_count_le_one.mp h key
  rwa [List.count, List.countP_map, List.countP_eq_length_filter] at hcount

end Outline

end SingleUse

end Transition
