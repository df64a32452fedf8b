import Mathlib.Algebra.Order.Ring.Int
import Mathlib.Logic.Function.Basic

/-!
# Expiring key-value stores

A `Store K V` is a key-value database whose entries may carry an expiry, in milliseconds. An
expired entry is not removed when its time comes; every command ignores it instead.

* `get`, `setex`, `delete`, `getdel`, `ttl` and `expire` are the commands on plain values;
  `getdel` returns the value and removes the key in one step.
* `sadd` and `sismember` are the commands on stores whose values are sets.
* `map` applies a function to all values, and commutes with the commands.
* `Forall P` says that every entry, expired or not, meets `P`. Each command has a rule that
  carries `Forall P` over, and `Forall.of_get`, `Forall.of_sismember` use it, so an invariant
  of a store is proved without looking at the clock.
-/

namespace KeyValue

universe u v

/-- A value and the time until which it is there, `none` when it does not expire. -/
structure Entry (V : Type v) where
  value : V
  expiresAt : Option ℕ := none
deriving DecidableEq

/-- The entry has not expired. -/
def Entry.liveAt {V : Type v} (e : Entry V) (now : ℕ) : Bool := e.expiresAt.all (now ≤ ·)

/-- A key-value database. -/
structure Store (K : Type u) (V : Type v) where
  /-- The entries, expired ones included. -/
  entry : K → Option (Entry V)

namespace Store

variable {K : Type u} {V : Type v} {M : Type v}

/-- The database without entries. -/
def empty : Store K V := ⟨fun _ => none⟩

/-- The entry of a key, unless it has expired. -/
def entryAt (s : Store K V) (now : ℕ) (k : K) : Option (Entry V) :=
  (s.entry k).filter (·.liveAt now)

/-- `GET`. -/
def get (s : Store K V) (now : ℕ) (k : K) : Option V := (s.entryAt now k).map Entry.value

/-- `TTL`, in seconds, rounded to the nearest: `-2` for a missing key, `-1` for one that does
not expire. -/
def ttl (s : Store K V) (now : ℕ) (k : K) : ℤ :=
  match s.entryAt now k with
  | none => -2
  | some ⟨_, none⟩ => -1
  | some ⟨_, some expiry⟩ => ((expiry - now + 500) / 1000 : ℕ)

section Write

variable [DecidableEq K]

/-- Replace the entry of one key. -/
def put (s : Store K V) (k : K) (e : Option (Entry V)) : Store K V :=
  ⟨Function.update s.entry k e⟩

@[simp] theorem put_self (s : Store K V) (k : K) (e : Option (Entry V)) :
    (s.put k e).entry k = e := Function.update_self ..

theorem put_of_ne {k k' : K} (h : k' ≠ k) (s : Store K V) (e : Option (Entry V)) :
    (s.put k e).entry k' = s.entry k' := Function.update_of_ne h ..

/-- `SETEX`, with the time to live in seconds. -/
def setex (s : Store K V) (now : ℕ) (k : K) (seconds : ℕ) (v : V) : Store K V :=
  s.put k (some ⟨v, some (now + 1000 * seconds)⟩)

/-- `DEL` of one key. -/
def delete (s : Store K V) (k : K) : Store K V := s.put k none

/-- `GETDEL`. -/
def getdel (s : Store K V) (now : ℕ) (k : K) : Option V × Store K V :=
  (s.get now k, s.delete k)

/-- `EXPIRE`, with the time to live in seconds. -/
def expire (s : Store K V) (now : ℕ) (k : K) (seconds : ℕ) : Store K V :=
  match s.entryAt now k with
  | none => s
  | some e => s.put k (some { e with expiresAt := some (now + 1000 * seconds) })

/-- `SADD` of one member. -/
def sadd [DecidableEq M] (s : Store K (List M)) (now : ℕ) (k : K) (m : M) :
    Store K (List M) :=
  match s.entryAt now k with
  | none => s.put k (some ⟨[m], none⟩)
  | some e => s.put k (some { e with value := e.value.insert m })

end Write

/-- `SISMEMBER`. -/
def sismember [DecidableEq M] (s : Store K (List M)) (now : ℕ) (k : K) (m : M) : Bool :=
  ((s.get now k).getD []).contains m

/-! ### Changing the values -/

section Map

universe w

variable {V' : Type w} (f : V → V') (s : Store K V) (now : ℕ) (k : K)

/-- Apply a function to every stored value. -/
def map : Store K V' := ⟨fun k => (s.entry k).map fun e => ⟨f e.value, e.expiresAt⟩⟩

@[simp] theorem get_map : (s.map f).get now k = (s.get now k).map f := by
  rw [get, get, entryAt, entryAt, map]
  dsimp only
  rcases s.entry k with _ | e
  · rfl
  · have hlive : (⟨f e.value, e.expiresAt⟩ : Entry V').liveAt now = e.liveAt now := rfl
    rw [Option.map_some, Option.filter_some, Option.filter_some, hlive]
    split <;> rfl

variable [DecidableEq K]

theorem put_map (e : Option (Entry V)) :
    (s.map f).put k (e.map fun e => ⟨f e.value, e.expiresAt⟩) = (s.put k e).map f := by
  rw [put, put, map, map]
  congr 1
  funext k'
  dsimp only
  rw [Function.update_apply, Function.update_apply]
  split <;> rfl

@[simp] theorem setex_map (seconds : ℕ) (v : V) :
    (s.map f).setex now k seconds (f v) = (s.setex now k seconds v).map f :=
  s.put_map f k (some ⟨v, _⟩)

@[simp] theorem delete_map : (s.map f).delete k = (s.delete k).map f := s.put_map f k none

end Map

/-! ### Invariants of stores -/

/-- Every entry meets the property, expired or not. -/
def Forall (P : K → V → Prop) (s : Store K V) : Prop := ∀ k e, s.entry k = some e → P k e.value

theorem entryAt_eq_some {s : Store K V} {now : ℕ} {k : K} {e : Entry V}
    (h : s.entryAt now k = some e) : s.entry k = some e :=
  (Option.filter_eq_some_iff.mp h).1

namespace Forall

variable {P Q : K → V → Prop} {s : Store K V} {now : ℕ} {k : K}

theorem empty : Forall P (Store.empty : Store K V) := nofun

theorem mono (h : Forall P s) (hPQ : ∀ k v, P k v → Q k v) : Forall Q s :=
  fun k e he => hPQ k _ (h k e he)

theorem of_get (h : Forall P s) {v : V} (hget : s.get now k = some v) : P k v := by
  obtain ⟨e, he, rfl⟩ := Option.map_eq_some_iff.mp hget
  exact h k e (entryAt_eq_some he)

variable [DecidableEq K]

/-- Every write to one key keeps the property when the new value meets it. -/
theorem put (h : Forall P s) {new : Option (Entry V)} (hnew : ∀ e, new = some e → P k e.value) :
    Forall P (s.put k new) := by
  intro k' e' hk'
  by_cases hk : k' = k
  · subst hk
    rw [put_self] at hk'
    exact hnew e' hk'
  · rw [put_of_ne hk] at hk'
    exact h k' e' hk'

theorem put_some (h : Forall P s) {e : Entry V} (he : P k e.value) :
    Forall P (s.put k (some e)) :=
  h.put fun _ he' => Option.some.inj he' ▸ he

theorem setex (h : Forall P s) {seconds : ℕ} {v : V} (hv : P k v) :
    Forall P (s.setex now k seconds v) := h.put_some hv

theorem delete (h : Forall P s) : Forall P (s.delete k) := h.put nofun

theorem expire (h : Forall P s) {seconds : ℕ} : Forall P (s.expire now k seconds) := by
  rw [Store.expire]
  split
  · exact h
  next e he => exact h.put_some (h k e (entryAt_eq_some he))

end Forall

section Sets

variable {P : K → M → Prop} {s : Store K (List M)} {now : ℕ} {k : K} {m : M}

/-- What is a member of a stored set meets the property of its members. -/
theorem Forall.of_sismember [DecidableEq M] (h : Forall (fun k ms => ∀ m ∈ ms, P k m) s)
    (hm : s.sismember now k m = true) : P k m := by
  rw [sismember] at hm
  cases hget : s.get now k with
  | none => simp [hget] at hm
  | some ms =>
    rw [hget, Option.getD_some, List.contains_iff_mem] at hm
    exact h.of_get hget m hm

theorem Forall.sadd [DecidableEq K] [DecidableEq M]
    (h : Forall (fun k ms => ∀ m ∈ ms, P k m) s) (hm : P k m) :
    Forall (fun k ms => ∀ m ∈ ms, P k m) (s.sadd now k m) := by
  rw [Store.sadd]
  split
  · exact h.put_some fun m' hm' => by rwa [List.mem_singleton.mp hm']
  next e he =>
    refine h.put_some fun m' hm' => ?_
    rcases List.mem_insert_iff.mp hm' with rfl | hold
    · exact hm
    · exact h k e (entryAt_eq_some he) m' hold

end Sets

end Store

end KeyValue
