import Rapidly.Relational.Table

/-!
# Idempotency keys

A service creates objects on request. It remembers each object with the request that it answered;
a request that repeats the key of an earlier one is answered with the same object, or refused if it
differs in anything else. Objects have identifiers of their own.

The memory is a table with the identifiers as keys. What the service would create for a new key is
an argument of `answer`: the environment draws it. An identifier is given out once.
-/

namespace KeyValue

open Relational

namespace Replay

universe u v w x

variable {Object : Type u} {Request : Type v} {Key : Type w} {Id : Type x} [DecidableEq Request]
  [DecidableEq Key] [DecidableEq Id] {id : Object → Id}

/-- The first object that was created under a key. -/
def first (request : Object → Request) (key : Request → Key) (memory : Table id) (k : Key) :
    Option Object :=
  memory.rows.find? fun o => key (request o) = k

/-- How the service answers a request. -/
def answer (request : Object → Request) (key : Request → Key) (memory : Table id)
    (drawn : Option Object) (r : Request) : Option Object :=
  match first request key memory (key r) with
  | some o => if request o = r then some o else none
  | none => drawn.filter fun o => id o ∉ memory.rows.map id

section Answer

variable {request : Object → Request} {key : Request → Key} {memory : Table id}
  {drawn : Option Object} {r : Request} {o : Object}

omit [DecidableEq Request] [DecidableEq Id] in
theorem mem_of_first {k : Key} (h : first request key memory k = some o) : o ∈ memory :=
  List.mem_of_find?_eq_some h

/-- A request is answered if it repeats the first one with its key, or its key is new and an
object can be created. -/
theorem isSome_answer_iff : (answer request key memory drawn r).isSome ↔
    (∀ o ∈ first request key memory (key r), request o = r) ∧
      (first request key memory (key r) = none → ∃ o ∈ drawn, id o ∉ memory.rows.map id) := by
  rw [answer]
  cases hfirst : first request key memory (key r) with
  | none =>
    rw [Option.isSome_filter, Option.any_eq_true]
    simp
  | some o =>
    by_cases hrequest : request o = r
    · simp [hrequest]
    · simp [hrequest]

/-- An answer is an object that is remembered, or a new one. -/
theorem answer_eq_some (h : answer request key memory drawn r = some o) :
    (o ∈ memory ∧ first request key memory (key r) = some o ∧ request o = r) ∨
      (first request key memory (key r) = none ∧ drawn = some o ∧
        id o ∉ memory.rows.map id) := by
  rw [answer] at h
  cases hfirst : first request key memory (key r) with
  | none =>
    rw [hfirst] at h
    obtain ⟨hdrawn, hnew⟩ := Option.filter_eq_some_iff.mp h
    exact .inr ⟨rfl, hdrawn, of_decide_eq_true hnew⟩
  | some o' =>
    rw [hfirst] at h
    obtain ⟨hrequest, ho⟩ := Option.ite_none_right_eq_some.mp h
    obtain rfl := Option.some.inj ho
    exact .inl ⟨mem_of_first hfirst, rfl, hrequest⟩

theorem request_of_answer (hdrawn : ∀ o ∈ drawn, request o = r)
    (h : answer request key memory drawn r = some o) : request o = r := by
  obtain ⟨-, -, hrequest⟩ | ⟨-, ho, -⟩ := answer_eq_some h
  · exact hrequest
  · exact hdrawn o ho

theorem mem_insert_answer (h : answer request key memory drawn r = some o) :
    o ∈ memory.insert o := by
  obtain ⟨hmem, -⟩ | ⟨-, -, hnew⟩ := answer_eq_some h
  · exact Table.subset_insert o hmem
  · rw [Table.insert, dif_neg hnew]
    exact List.mem_cons_self

end Answer

end Replay

end KeyValue
