import Mathlib.Data.List.Nodup
import Rapidly.Relational.ReadCommitted
import Rapidly.Transition.Tasks

/-!
# The Stripe customer of a customer

`ensure_stripe_customer` of `billing/payment_method/actions.py`, for any number of requests that
call it for the same customer, side by side: one SQL statement or call of Stripe a step. A request
loads the customer, calls the function, goes on with what it returns, and commits or is rolled back
in the end.

The function counts on an exception of the `UPDATE` if a concurrent request has stored an id first.
No constraint rejects the second one: the `UPDATE` waits for the row and replaces the id.

* `ensureCalls` is the system; what is observed is the id with which a call returns.
* `oneStripeCustomer_iff` says in which runs all calls return the id that stays.
-/

namespace Rapidly.Billing

open Relational Transition

namespace StripeCustomer

/-- The column `stripe_customer_id` of the customer, and what Stripe has created, with the request
that it was created for. -/
structure State where
  customer : Versioned (Option String)
  created : List (ℕ × String) := []

/-- A request that calls `ensure_stripe_customer`. -/
inductive Request where
  /-- It is about to load the customer. -/
  | loading
  /-- It calls the function, which looks at the loaded id and may call Stripe. -/
  | loaded (stripeCustomerId : Option String)
  /-- It is about to store the id, in a savepoint. -/
  | updating (id : String)
  /-- The savepoint is rolled back; the customer is loaded again. -/
  | refreshing
  /-- The function has returned; the request ends with a commit or a rollback. -/
  | returned (id : String)
  | failed
  | ended
deriving DecidableEq

/-- How the next step of a request turns out. -/
inductive Answer where
  | executed
  /-- Stripe creates a customer. -/
  | created (id : String)
  | raised
deriving DecidableEq

/-- One step of a request. Stripe gives an id out once; a statement waits while another transaction
holds the row. -/
def Request.advance (s : State) (i : ℕ) : Answer → Request → State × Request × List String
  | .executed, .loading => (s, .loaded (s.customer.seenBy i), [])
  | .raised, .loading => (s, .failed, [])
  | _, .loaded (some id) => (s, .returned id, [id])
  | .created id, .loaded none =>
    if id ∈ s.created.map Prod.snd ∨ s.customer.committed = some id then (s, .loaded none, [])
    else ({ s with created := (i, id) :: s.created }, .updating id, [])
  | .raised, .loaded none => (s, .failed, [])
  | .executed, .updating id =>
    if s.customer.LockedFor i then (s, .updating id, [])
    else ({ s with customer := s.customer.write i (some id) }, .returned id, [id])
  | .raised, .updating _ => (s, .refreshing, [])
  | .executed, .refreshing =>
    match s.customer.seenBy i with
    | some id => (s, .returned id, [id])
    | none => (s, .failed, [])
  | .raised, .refreshing => (s, .failed, [])
  | .executed, .returned _ => ({ s with customer := s.customer.commit i }, .ended, [])
  | .raised, .returned _ => ({ s with customer := s.customer.rollback i }, .ended, [])
  | _, t => (s, t, [])

/-- The requests, for a customer with some id or none. -/
def ensureCalls (stored : Option String) : Tasks State Request Unit Answer String where
  init := { customer := { committed := stored } }
  arrive s _ _ := (s, [.loading], [])
  advance s i := Request.advance s i

/-- All calls have returned the id that the customer has. -/
def OneId (returned : List String) (s : State) : Prop :=
  ∀ id ∈ returned, s.customer.latest = some id

instance (returned : List String) (s : State) : Decidable (OneId returned s) :=
  inferInstanceAs (Decidable (∀ id ∈ returned, _))

variable {stored : Option String}

/-- After the step, all calls have returned the id that the customer has. -/
def OneStripeCustomer (stored : Option String) :
    System.Condition (Pool State Request) (Turn Unit Answer) := fun past p l =>
  OneId ((ensureCalls stored).system.log past ++ ((ensureCalls stored).step p l).2)
    ((ensureCalls stored).step p l).1.shared

instance (past : List (Turn Unit Answer)) (p : Pool State Request) (l : Turn Unit Answer) :
    Decidable (OneStripeCustomer stored past p l) :=
  inferInstanceAs (Decidable (OneId _ _))

/-- A request that comes to store its id finds that none is stored; a request that has stored its
id is not rolled back. -/
def Uncontested : System.Condition (Pool State Request) (Turn Unit Answer)
  | _, p, .resumed i .executed =>
    match p.tasks[i]? with
    | some (.updating _) => ¬p.shared.customer.LockedFor i → p.shared.customer.committed = none
    | _ => True
  | _, p, .resumed i .raised =>
    match p.tasks[i]? with
    | some (.returned _) => ∀ v, p.shared.customer.pending ≠ some (i, v)
    | _ => True
  | _, _, _ => True

/-! ### What a step does -/

/-- **What a step of a request can do**: nothing that others see, return the stored id, create a
customer, store its id and return it, and end. -/
theorem advance_cases (s : State) (i : ℕ) (answer : Answer) (t : Request) :
    (∃ t', t.advance s i answer = (s, t', []) ∧ (t' = t ∨ t' = .failed ∨
        t = .loading ∧ t' = .loaded (s.customer.seenBy i) ∨
        (∃ id, t = .updating id) ∧ t' = .refreshing)) ∨
      (∃ id, t.advance s i answer = (s, .returned id, [id]) ∧
        (t = .loaded (some id) ∨ t = .refreshing ∧ s.customer.seenBy i = some id)) ∨
      (∃ id, answer = .created id ∧ t = .loaded none ∧ id ∉ s.created.map Prod.snd ∧
        s.customer.committed ≠ some id ∧
        t.advance s i answer = ({ s with created := (i, id) :: s.created }, .updating id, [])) ∨
      (∃ id, answer = .executed ∧ t = .updating id ∧ ¬s.customer.LockedFor i ∧
        t.advance s i answer =
          ({ s with customer := s.customer.write i (some id) }, .returned id, [id])) ∨
      (∃ id, answer = .executed ∧ t = .returned id ∧
        t.advance s i answer = ({ s with customer := s.customer.commit i }, .ended, [])) ∨
      ∃ id, answer = .raised ∧ t = .returned id ∧
        t.advance s i answer = ({ s with customer := s.customer.rollback i }, .ended, []) := by
  rcases t with _ | (_ | id) | id | _ | id | _ | _
  · rcases answer with _ | id | _
    · exact .inl ⟨_, rfl, .inr (.inr (.inl ⟨rfl, rfl⟩))⟩
    · exact .inl ⟨_, rfl, .inl rfl⟩
    · exact .inl ⟨_, rfl, .inr (.inl rfl)⟩
  · rcases answer with _ | id | _
    · exact .inl ⟨_, rfl, .inl rfl⟩
    · by_cases hissued : id ∈ s.created.map Prod.snd ∨ s.customer.committed = some id
      · exact .inl ⟨_, if_pos hissued, .inl rfl⟩
      · obtain ⟨hnew, hstored⟩ := not_or.mp hissued
        exact .inr (.inr (.inl ⟨id, rfl, rfl, hnew, hstored, if_neg hissued⟩))
    · exact .inl ⟨_, rfl, .inr (.inl rfl)⟩
  · exact .inr (.inl ⟨id, by cases answer <;> rfl, .inl rfl⟩)
  · rcases answer with _ | id' | _
    · by_cases hlocked : s.customer.LockedFor i
      · exact .inl ⟨_, if_pos hlocked, .inl rfl⟩
      · exact .inr (.inr (.inr (.inl ⟨id, rfl, rfl, hlocked, if_neg hlocked⟩)))
    · exact .inl ⟨_, rfl, .inl rfl⟩
    · exact .inl ⟨_, rfl, .inr (.inr (.inr ⟨⟨id, rfl⟩, rfl⟩))⟩
  · rcases answer with _ | id | _
    · cases hseen : s.customer.seenBy i with
      | none =>
        refine .inl ⟨.failed, ?_, .inr (.inl rfl)⟩
        simp only [Request.advance, hseen]
      | some id =>
        refine .inr (.inl ⟨id, ?_, .inr ⟨rfl, rfl⟩⟩)
        simp only [Request.advance, hseen]
    · exact .inl ⟨_, rfl, .inl rfl⟩
    · exact .inl ⟨_, rfl, .inr (.inl rfl)⟩
  · rcases answer with _ | id' | _
    · exact .inr (.inr (.inr (.inr (.inl ⟨id, rfl, rfl, rfl⟩))))
    · exact .inl ⟨_, rfl, .inl rfl⟩
    · exact .inr (.inr (.inr (.inr (.inr ⟨id, rfl, rfl, rfl⟩))))
  · exact .inl ⟨_, by cases answer <;> rfl, .inl rfl⟩
  · exact .inl ⟨_, by cases answer <;> rfl, .inl rfl⟩

/-! ### The proof outline -/

/-- The calls agree, an id that is written and not committed has been returned while none was
stored, and Stripe has given every id out once. -/
structure Sound (returned : List String) (s : State) : Prop where
  oneId : OneId returned s
  pending : ∀ i v, s.customer.pending = some (i, v) →
    s.customer.committed = none ∧ ∃ id ∈ returned, v = some id ∧ (i, id) ∈ s.created
  nodup : (s.created.map Prod.snd).Nodup

/-- The request has not written, and an id that was stored since it loaded the customer has been
returned. -/
structure Unwritten (returned : List String) (s : State) (i : ℕ) : Prop where
  pending : ∀ v, s.customer.pending ≠ some (i, v)
  committed : ∀ id, s.customer.committed = some id → id ∈ returned

/-- The assertion about a request. -/
def Assertion (returned : List String) (s : State) (i : ℕ) : Request → Prop
  | .loading => ∀ v, s.customer.pending ≠ some (i, v)
  | .loaded (some id) => s.customer.committed = some id
  | .loaded none => Unwritten returned s i
  | .updating id => Unwritten returned s i ∧ (i, id) ∈ s.created ∧ id ∉ returned
  | .refreshing => ∀ v, s.customer.pending ≠ some (i, v)
  | .returned _ => True
  | .failed => True
  | .ended => True

variable {returned returned' : List String} {s s' : State} {i j : ℕ} {t : Request}

/-- What others can rely on in a step of the request `j`. -/
structure Rely (j : ℕ) (returned : List String) (s : State) (returned' : List String)
    (s' : State) : Prop where
  returned_subset : returned ⊆ returned'
  new : ∀ id ∈ returned', id ∈ returned ∨ (j, id) ∈ s.created ∨ s.customer.committed = some id
  created : s.created ⊆ s'.created
  committed : s'.customer.committed = s.customer.committed ∨ s.customer.committed = none ∧
    ∀ id, s'.customer.committed = some id → id ∈ returned'
  pending : ∀ i v, i ≠ j → s'.customer.pending = some (i, v) → s.customer.pending = some (i, v)

theorem Assertion.rely (h : Assertion returned s i t) (hs : Sound returned s)
    (hrely : Rely j returned s returned' s') (hne : i ≠ j) : Assertion returned' s' i t := by
  have hpending : (∀ v, s.customer.pending ≠ some (i, v)) →
      ∀ v, s'.customer.pending ≠ some (i, v) :=
    fun hnone v hv => hnone v (hrely.pending i v hne hv)
  have hunwritten : Unwritten returned s i → Unwritten returned' s' i := by
    intro hold
    refine ⟨hpending hold.pending, fun id hid => ?_⟩
    rcases hrely.committed with hsame | ⟨-, hnew⟩
    · exact hrely.returned_subset (hold.committed id (hsame ▸ hid))
    · exact hnew id hid
  rcases t with _ | (_ | id) | id | _ | id | _ | _
  · exact hpending h
  · exact hunwritten h
  · have hid : s.customer.committed = some id := h
    rcases hrely.committed with hsame | ⟨hnone, -⟩
    · exact hsame.trans hid
    · exact absurd (hnone.symm.trans hid) nofun
  · obtain ⟨hold, hcreated, hnot⟩ := h
    refine ⟨hunwritten hold, hrely.created hcreated, fun hmem => ?_⟩
    rcases hrely.new id hmem with hmem | hother | hstored
    · exact hnot hmem
    · have heq := List.inj_on_of_nodup_map hs.nodup hcreated hother rfl
      exact hne (congrArg Prod.fst heq)
    · exact hnot (hold.committed id hstored)
  · exact hpending h
  · trivial
  · trivial
  · trivial

theorem Sound.latest (hs : Sound returned s) {id : String}
    (h : s.customer.committed = some id) : s.customer.latest = some id := by
  have hpending : s.customer.pending = none := by
    refine Option.eq_none_iff_forall_not_mem.mpr fun w hw => ?_
    have hnone := (hs.pending w.1 w.2 hw).1
    exact absurd (hnone.symm.trans h) nofun
  rw [Versioned.latest_of_pending hpending, h]

theorem Sound.notMem_returned (hs : Sound returned s) {id : String}
    (hnew : id ∉ s.created.map Prod.snd) (hstored : s.customer.committed ≠ some id) :
    id ∉ returned := by
  intro hmem
  have hlatest := hs.oneId id hmem
  cases hpending : s.customer.pending with
  | none =>
    rw [Versioned.latest_of_pending hpending] at hlatest
    exact hstored hlatest
  | some w =>
    obtain ⟨-, id', -, hid', hcreated⟩ := hs.pending w.1 w.2 hpending
    rw [Versioned.latest_eq_of_pending hpending, hid'] at hlatest
    rw [Option.some.inj hlatest] at hcreated
    exact hnew (List.mem_map_of_mem hcreated)

theorem Sound.write (hs : Sound returned s) (hlocked : ¬s.customer.LockedFor i)
    (hunwritten : Unwritten returned s i) (hnone : s.customer.committed = none) {id : String}
    (hcreated : (i, id) ∈ s.created) :
    Sound (returned ++ [id]) { s with customer := s.customer.write i (some id) } ∧
      Rely i returned s (returned ++ [id])
        { s with customer := s.customer.write i (some id) } := by
  refine ⟨⟨fun id' hid' => ?_, fun j v hv => ?_, hs.nodup⟩,
    ⟨List.subset_append_left _ _, fun id' hid' => ?_, fun _ h => h, .inl rfl, fun j v hne hv => ?_⟩⟩
  · rcases List.mem_append.mp hid' with hold | hnew
    · have hlatest := hs.oneId id' hold
      have hpending := Versioned.pending_eq_none hlocked hunwritten.pending
      rw [Versioned.latest_of_pending hpending, hnone] at hlatest
      exact absurd hlatest nofun
    · rw [List.mem_singleton.mp hnew]
      exact Versioned.latest_write
  · obtain ⟨rfl, rfl⟩ := Prod.mk.inj (Option.some.inj hv)
    exact ⟨hnone, id, List.mem_append_right _ (List.mem_singleton_self id), rfl, hcreated⟩
  · rcases List.mem_append.mp hid' with hold | hnew
    · exact .inl hold
    · rw [List.mem_singleton.mp hnew]
      exact .inr (.inl hcreated)
  · exact absurd (congrArg Prod.fst (Option.some.inj hv)).symm hne

theorem Sound.commit (hs : Sound returned s) (i : ℕ) :
    Sound returned { s with customer := s.customer.commit i } ∧
      Rely i returned s returned { s with customer := s.customer.commit i } := by
  rcases s.customer.pending_cases i with ⟨v, hv⟩ | hnot
  · obtain ⟨hnone, id, hid, rfl, -⟩ := hs.pending i v hv
    have hcommit := Versioned.commit_eq hv
    refine ⟨⟨fun id' hid' => ?_, ?_, hs.nodup⟩, ⟨fun _ h => h, fun _ h => .inl h, fun _ h => h,
      .inr ⟨hnone, ?_⟩, ?_⟩⟩
    · exact Versioned.latest_commit.trans (hs.oneId id' hid')
    · intro j v hj
      rw [hcommit] at hj
      exact absurd hj nofun
    · intro id' hid'
      rw [hcommit] at hid'
      rwa [← Option.some.inj hid']
    · intro j v _ hj
      rw [hcommit] at hj
      exact absurd hj nofun
  · rw [Versioned.commit_of_pending hnot]
    exact ⟨hs, fun _ h => h, fun _ h => .inl h, fun _ h => h, .inl rfl, fun _ _ _ h => h⟩

theorem Rely.refl (j : ℕ) (returned : List String) (s : State) : Rely j returned s returned s :=
  ⟨fun _ h => h, fun _ h => .inl h, fun _ h => h, .inl rfl, fun _ _ _ h => h⟩

theorem Sound.returns (hs : Sound returned s) (i : ℕ) {id : String}
    (hcommitted : s.customer.committed = some id) :
    Sound (returned ++ [id]) s ∧ Rely i returned s (returned ++ [id]) s := by
  refine ⟨⟨fun id' hid' => ?_, fun j v hv => ?_, hs.nodup⟩, List.subset_append_left _ _,
    fun id' hid' => ?_, fun _ h => h, .inl rfl, fun _ _ _ h => h⟩
  · rcases List.mem_append.mp hid' with hold | hnew
    · exact hs.oneId id' hold
    · rw [List.mem_singleton.mp hnew]
      exact hs.latest hcommitted
  · exact absurd ((hs.pending j v hv).1.symm.trans hcommitted) nofun
  · rcases List.mem_append.mp hid' with hold | hnew
    · exact .inl hold
    · rw [List.mem_singleton.mp hnew]
      exact .inr (.inr hcommitted)

theorem Sound.creates (hs : Sound returned s) (i : ℕ) {id : String}
    (hnew : id ∉ s.created.map Prod.snd) :
    Sound returned { s with created := (i, id) :: s.created } ∧
      Rely i returned s returned { s with created := (i, id) :: s.created } := by
  refine ⟨⟨hs.oneId, fun j v hv => ?_, List.nodup_cons.mpr ⟨hnew, hs.nodup⟩⟩,
    fun _ h => h, fun _ h => .inl h, fun _ h => List.mem_cons_of_mem _ h, .inl rfl,
    fun _ _ _ h => h⟩
  obtain ⟨hnone, id', hid', hv', hcreated⟩ := hs.pending j v hv
  exact ⟨hnone, id', hid', hv', List.mem_cons_of_mem _ hcreated⟩

theorem Sound.advance {past : List (Turn Unit Answer)} {p : Pool State Request} {answer : Answer}
    (hs : Sound returned p.shared) (hi : p.tasks[i]? = some t)
    (ht : Assertion returned p.shared i t) (hC : Uncontested past p (.resumed i answer)) :
    let r := t.advance p.shared i answer
    Sound (returned ++ r.2.2) r.1 ∧ Assertion (returned ++ r.2.2) r.1 i r.2.1 ∧
      Rely i returned p.shared (returned ++ r.2.2) r.1 := by
  rcases advance_cases p.shared i answer t with ⟨t', heq, hnext⟩ | ⟨id, heq, hreturns⟩ |
    ⟨id, rfl, rfl, hnew, hstored, heq⟩ | ⟨id, rfl, rfl, hlocked, heq⟩ | ⟨id, rfl, rfl, heq⟩ |
    ⟨id, rfl, rfl, heq⟩
  · -- nothing that others see
    dsimp only
    rw [heq, List.append_nil]
    refine ⟨hs, ?_, .refl i returned p.shared⟩
    rcases hnext with rfl | rfl | ⟨rfl, rfl⟩ | ⟨⟨id, rfl⟩, rfl⟩
    · exact ht
    · trivial
    · have hseen := Versioned.seenBy_of_pending ht
      cases hcommitted : p.shared.customer.committed with
      | none =>
        rw [hseen, hcommitted]
        exact ⟨ht, fun id hid => absurd (hcommitted.symm.trans hid) nofun⟩
      | some id =>
        rw [hseen, hcommitted]
        exact hcommitted
    · exact ht.1.pending
  · -- the id that is stored is returned
    have hcommitted : p.shared.customer.committed = some id := by
      rcases hreturns with rfl | ⟨rfl, hseen⟩
      · exact ht
      · rwa [← Versioned.seenBy_of_pending ht]
    obtain ⟨hsound, hrely⟩ := hs.returns i hcommitted
    rw [heq]
    exact ⟨hsound, trivial, hrely⟩
  · -- a customer is created
    have hunwritten : Unwritten returned p.shared i := ht
    obtain ⟨hsound, hrely⟩ := hs.creates i hnew
    dsimp only
    rw [heq, List.append_nil]
    exact ⟨hsound, ⟨⟨hunwritten.pending, hunwritten.committed⟩, List.mem_cons_self,
      hs.notMem_returned hnew hstored⟩, hrely⟩
  · -- its id is stored and returned, which is where the condition is used
    obtain ⟨hunwritten, hcreated, hnot⟩ := ht
    have hnone : p.shared.customer.committed = none := by
      rw [Uncontested, hi] at hC
      exact hC hlocked
    obtain ⟨hsound, hrely⟩ := hs.write hlocked hunwritten hnone hcreated
    rw [heq]
    exact ⟨hsound, trivial, hrely⟩
  · dsimp only
    rw [heq, List.append_nil]
    exact ⟨(hs.commit i).1, trivial, (hs.commit i).2⟩
  · -- a request that is rolled back has not written
    have hnot : ∀ v, p.shared.customer.pending ≠ some (i, v) := by
      rw [Uncontested, hi] at hC
      exact hC
    dsimp only
    rw [heq, List.append_nil, Versioned.rollback_of_pending hnot]
    exact ⟨hs, trivial, .refl i returned p.shared⟩

/-- The customer is written by requests that have been started. -/
def WrittenByRequests (p : Pool State Request) : Prop :=
  ∀ j v, p.shared.customer.pending = some (j, v) → j < p.tasks.length

theorem writtenByRequests_after (ls : List (Turn Unit Answer)) :
    WrittenByRequests ((ensureCalls stored).system.after ls) := by
  induction ls using List.reverseRecOn with
  | nil => exact fun _ _ h => absurd h nofun
  | append_singleton ls l ih =>
    rw [System.after_snoc, Tasks.system_step]
    generalize (ensureCalls stored).system.after ls = p at ih
    rcases l with e | ⟨i, answer⟩
    · intro j v hj
      rw [Tasks.step_event] at hj ⊢
      have hlt := ih j v hj
      rw [List.length_append]
      omega
    · cases hi : p.tasks[i]? with
      | none =>
        rw [Tasks.step_resumed_none hi]
        exact ih
      | some t =>
        have hlt : i < p.tasks.length := (List.getElem?_eq_some_iff.mp hi).1
        intro j v hj
        rw [Tasks.step_resumed hi] at hj ⊢
        rw [List.length_set]
        change (t.advance p.shared i answer).1.customer.pending = _ at hj
        have hkept : p.shared.customer.pending = some (j, v) ∨ j = i := by
          rcases advance_cases p.shared i answer t with ⟨t', heq, -⟩ | ⟨id, heq, -⟩ |
            ⟨id, -, -, -, -, heq⟩ | ⟨id, -, -, -, heq⟩ | ⟨id, -, -, heq⟩ | ⟨id, -, -, heq⟩
          · rw [heq] at hj
            exact .inl hj
          · rw [heq] at hj
            exact .inl hj
          · rw [heq] at hj
            exact .inl hj
          · rw [heq] at hj
            exact .inr (congrArg Prod.fst (Option.some.inj hj)).symm
          · rw [heq] at hj
            exact .inl (Versioned.pending_of_commit hj)
          · rw [heq] at hj
            exact .inl (Versioned.pending_of_rollback hj)
        rcases hkept with hold | rfl
        · exact ih j v hold
        · exact hlt

variable (stored) in
theorem outline : (ensureCalls stored).Outline
    (fun past p l => Uncontested past p l ∧ WrittenByRequests p) Sound Assertion where
  init := ⟨fun _ h => absurd h List.not_mem_nil, fun _ _ h => absurd h nofun, List.nodup_nil⟩
  event {_ _ _} h _ := by
    rw [ensureCalls, List.append_nil]
    exact h.shared
  started {_ p _} _ hC k t ht := by
    obtain rfl : t = .loading := List.mem_singleton.mp (List.mem_of_getElem? ht)
    intro v hv
    have hlt := hC.2 _ v hv
    omega
  undisturbed {_ _ _} h _ i t hi := by
    rw [ensureCalls, List.append_nil]
    exact h.task i t hi
  resumed {_ _ _ _ _} h hC hi := by
    obtain ⟨hsound, hassertion, -⟩ := h.shared.advance hi (h.task _ _ hi) hC.1
    exact ⟨hsound, hassertion⟩
  interferes {_ _ _ _ _} h hC hi j other hj hne := by
    obtain ⟨-, -, hrely⟩ := h.shared.advance hi (h.task _ _ hi) hC.1
    exact (h.task j other hj).rely h.shared hrely hne

theorem oneStripeCustomer_iff_uncontested {past : List (Turn Unit Answer)}
    {p : Pool State Request}
    (h : Tasks.Holds Sound Assertion ((ensureCalls stored).system.log past) p)
    (l : Turn Unit Answer) : OneStripeCustomer stored past p l ↔ Uncontested past p l := by
  constructor
  · intro hone
    rcases l with e | ⟨i, _ | id | _⟩
    · trivial
    · rw [Uncontested]
      split
      next id hi =>
        intro hlocked
        obtain ⟨hunwritten, -, hnot⟩ := h.task i _ hi
        -- an id that is stored has been returned, and is replaced by the new one
        by_contra hstored
        obtain ⟨old, hold⟩ := Option.ne_none_iff_exists'.mp hstored
        have hmem := hunwritten.committed old hold
        have hstep : (Request.updating id).advance p.shared i .executed =
            ({ p.shared with customer := p.shared.customer.write i (some id) }, .returned id,
              [id]) := if_neg hlocked
        rw [OneStripeCustomer, Tasks.step_resumed hi] at hone
        change OneId (_ ++ ((Request.updating id).advance p.shared i .executed).2.2)
          ((Request.updating id).advance p.shared i .executed).1 at hone
        rw [hstep] at hone
        have hlatest := hone old (List.mem_append_left _ hmem)
        rw [Versioned.latest_write] at hlatest
        exact hnot (Option.some.inj hlatest ▸ hmem)
      next => trivial
    · trivial
    · rw [Uncontested]
      split
      next id hi =>
        intro v hv
        obtain ⟨hnone, id', hid', rfl, -⟩ := h.shared.pending i v hv
        have hstep : (Request.returned id).advance p.shared i .raised =
            ({ p.shared with customer := p.shared.customer.rollback i }, .ended, []) := rfl
        rw [OneStripeCustomer, Tasks.step_resumed hi] at hone
        change OneId (_ ++ ((Request.returned id).advance p.shared i .raised).2.2)
          ((Request.returned id).advance p.shared i .raised).1 at hone
        rw [hstep, Versioned.rollback_eq hv, List.append_nil] at hone
        exact absurd ((hone id' hid').symm.trans hnone) nofun
      next => trivial
  · intro hC
    rcases l with e | ⟨i, answer⟩
    · rw [OneStripeCustomer, Tasks.step_event, ensureCalls, List.append_nil]
      exact h.shared.oneId
    · cases hi : p.tasks[i]? with
      | none =>
        rw [OneStripeCustomer, Tasks.step_resumed_none hi, List.append_nil]
        exact h.shared.oneId
      | some t =>
        rw [OneStripeCustomer, Tasks.step_resumed hi]
        exact (h.shared.advance hi (h.task i t hi) hC).1.oneId

/-- **One provider customer.** In a run all calls return the same id, which the customer has from
then on, exactly if every request that comes to store its id finds that none is stored, and no
request that has stored its id is rolled back. -/
theorem oneStripeCustomer_iff (stored : Option String) (ls : List (Turn Unit Answer)) :
    (ensureCalls stored).system.Along (OneStripeCustomer stored) ls ↔
      (ensureCalls stored).system.Along Uncontested ls := by
  have hwritten : (ensureCalls stored).system.Along
      (fun past p l => Uncontested past p l ∧ WrittenByRequests p) ls ↔
        (ensureCalls stored).system.Along Uncontested ls :=
    System.along_congr _ fun past _ => and_iff_left (writtenByRequests_after past)
  rw [← hwritten]
  refine (outline stored).along_congr fun past l h => ?_
  exact (oneStripeCustomer_iff_uncontested h l).trans
    (and_iff_left (writtenByRequests_after past)).symm

/-- Two requests load the customer before either of them has stored an id; each stores its own. -/
theorem not_oneStripeCustomer : ¬ (ensureCalls none).system.Along (OneStripeCustomer none)
    [.event (), .event (), .resumed 0 .executed, .resumed 1 .executed,
      .resumed 0 (.created "cus_0"), .resumed 1 (.created "cus_1"), .resumed 0 .executed,
      .resumed 0 .executed, .resumed 1 .executed] := by
  decide

end StripeCustomer

end Rapidly.Billing
