import Mathlib.Data.List.Induction
import Mathlib.Data.List.Nodup
import Mathlib.Logic.Function.Basic

/-!
# Objects as tables

A JavaScript object that is made by `{}` and used as a table from names to values. Every such
object inherits the properties of `Object.prototype`, and these are found where a name has no entry
yet. The name `__proto__` never gets an entry: an assignment makes an object value the prototype of
the table, whose properties are inherited from then on, and passes over any other value.

For names that are not inherited such a table is like any other one (`get_eq_own`), and has the same
values under other names (`Renamed`).
-/

namespace KeyValue

universe u

/-- The properties of `Object.prototype`. -/
def builtinNames : List String :=
  ["constructor", "__defineGetter__", "__defineSetter__", "hasOwnProperty", "__lookupGetter__",
    "__lookupSetter__", "isPrototypeOf", "propertyIsEnumerable", "toString", "valueOf", "__proto__",
    "toLocaleString"]

/-- What a table does with a kind of values under `__proto__`. -/
class Inheritable (V : Type u) where
  /-- A value is an object, and not a primitive value. -/
  isObject : Bool
  /-- Whether a property of this name is inherited from a value, and counts as true. -/
  inherits : V → String → Option Bool

/-- What is found under a name. -/
inductive Reading (V : Type u) where
  | undefined
  | value (v : V)
  /-- Something that was never put there. -/
  | inherited (truthy : Bool)
deriving DecidableEq

structure PlainObject (V : Type u) where
  own : String → Option V := fun _ => none
  /-- The value that was made the prototype. -/
  prototype : Option V := none

namespace PlainObject

variable {V : Type u} [Inheritable V]

/-- `object[name]` -/
def get (object : PlainObject V) (name : String) : Reading V :=
  match object.own name with
  | some v => .value v
  | none =>
    if name = "__proto__" then
      match object.prototype with
      | some v => .value v
      | none => .inherited true
    else
      match object.prototype.bind fun v => Inheritable.inherits v name with
      | some truthy => .inherited truthy
      | none => if name ∈ builtinNames then .inherited true else .undefined

/-- `object[name] = v` -/
def set (object : PlainObject V) (name : String) (v : V) : PlainObject V :=
  if name = "__proto__" then
    if Inheritable.isObject V then { object with prototype := some v } else object
  else { object with own := Function.update object.own name (some v) }

omit [Inheritable V] in
/-- `delete object[name]` -/
def delete (object : PlainObject V) (name : String) : PlainObject V :=
  { object with own := Function.update object.own name none }

/-- A new object with these entries. -/
def ofEntries (entries : List (String × V)) : PlainObject V :=
  entries.foldl (fun object e => object.set e.1 e.2) {}

section Lemmas

variable {object : PlainObject V} {name name' : String} {v : V} {entries : List (String × V)}

theorem get_eq_own (h : object.prototype = none) (hname : name ∉ builtinNames) :
    object.get name = (object.own name).elim .undefined .value := by
  have hproto : name ≠ "__proto__" := by
    rintro rfl
    exact hname (by decide)
  rw [get, h, if_neg hproto, if_neg hname]
  cases object.own name with
  | none => rfl
  | some v => rfl

theorem get_empty (hname : name ∈ builtinNames) :
    ({} : PlainObject V).get name = .inherited true := by
  rw [get]
  by_cases hproto : name = "__proto__"
  · subst hproto
    rfl
  · simp only [if_neg hproto, Option.bind_none, if_pos hname]

theorem own_set (h : name ≠ "__proto__") :
    (object.set name v).own = Function.update object.own name (some v) := by
  rw [set, if_neg h]

theorem prototype_set (h : name ≠ "__proto__") :
    (object.set name v).prototype = object.prototype := by
  rw [set, if_neg h]

omit [Inheritable V] in
theorem own_delete : (object.delete name).own = Function.update object.own name none := rfl

theorem get_set (h : object.prototype = none) (hname : name ∉ builtinNames)
    (hname' : name' ∉ builtinNames) (v : V) :
    (object.set name v).get name' = if name' = name then .value v else object.get name' := by
  have hproto : name ≠ "__proto__" := by
    rintro rfl
    exact hname (by decide)
  rw [get_eq_own ((prototype_set hproto).trans h) hname', get_eq_own h hname', own_set hproto]
  by_cases hsame : name' = name
  · rw [if_pos hsame, hsame, Function.update_self]
    rfl
  · rw [if_neg hsame, Function.update_of_ne hsame]

theorem ofEntries_concat (entries : List (String × V)) (e : String × V) :
    ofEntries (entries ++ [e]) = (ofEntries entries).set e.1 e.2 := by
  rw [ofEntries, List.foldl_append]
  rfl

theorem own_ofEntries (hproto : "__proto__" ∉ entries.map Prod.fst)
    (hnodup : (entries.map Prod.fst).Nodup) :
    (ofEntries entries).prototype = none ∧ (∀ e ∈ entries, (ofEntries entries).own e.1 = some e.2) ∧
      ∀ name, name ∉ entries.map Prod.fst → (ofEntries entries).own name = none := by
  induction entries using List.reverseRecOn with
  | nil => exact ⟨rfl, fun _ h => absurd h List.not_mem_nil, fun _ _ => rfl⟩
  | append_singleton entries e ih =>
    rw [List.map_append, List.map_singleton, ← List.concat_eq_append, List.nodup_concat] at hnodup
    rw [List.map_append, List.map_singleton, List.mem_append, not_or, List.mem_singleton] at hproto
    obtain ⟨hclean, hfound, habsent⟩ := ih hproto.1 hnodup.2
    have he : e.1 ≠ "__proto__" := fun hsame => hproto.2 hsame.symm
    rw [ofEntries_concat, prototype_set he, own_set he]
    refine ⟨hclean, fun e' he' => ?_, fun name hname => ?_⟩
    · rcases List.mem_append.mp he' with hold | hlast
      · have hne : e'.1 ≠ e.1 := fun hsame => hnodup.1 (hsame ▸ List.mem_map_of_mem hold)
        rw [Function.update_of_ne hne, hfound e' hold]
      · obtain rfl := List.mem_singleton.mp hlast
        exact Function.update_self ..
    · rw [List.map_append, List.mem_append, not_or, List.map_singleton, List.mem_singleton] at hname
      rw [Function.update_of_ne hname.2, habsent name hname.1]

end Lemmas

/-! ### Other names -/

/-- The second object has the entries of the first one under other names, and both inherit nothing
but what every object does. -/
structure Renamed (ρ : String → String) (object object' : PlainObject V) : Prop where
  own : ∀ name, object'.own (ρ name) = object.own name
  prototype : object.prototype = none
  prototype' : object'.prototype = none

namespace Renamed

variable {ρ : String → String} {object object' : PlainObject V} {name : String} {v : V}

omit [Inheritable V] in
theorem empty : Renamed ρ ({} : PlainObject V) {} := ⟨fun _ => rfl, rfl, rfl⟩

theorem get (h : Renamed ρ object object') (hname : name ∉ builtinNames)
    (hname' : ρ name ∉ builtinNames) : object'.get (ρ name) = object.get name := by
  rw [get_eq_own h.prototype' hname', get_eq_own h.prototype hname, h.own]

theorem set (h : Renamed ρ object object') (hρ : Function.Injective ρ)
    (hname : name ∉ builtinNames) (hname' : ρ name ∉ builtinNames) (v : V) :
    Renamed ρ (object.set name v) (object'.set (ρ name) v) := by
  have hproto {n : String} (hn : n ∉ builtinNames) : n ≠ "__proto__" := by
    rintro rfl
    exact hn (by decide)
  constructor
  · intro other
    rw [own_set (hproto hname), own_set (hproto hname')]
    by_cases hother : other = name
    · rw [hother, Function.update_self, Function.update_self]
    · rw [Function.update_of_ne hother, Function.update_of_ne fun hsame => hother (hρ hsame), h.own]
  · rw [prototype_set (hproto hname), h.prototype]
  · rw [prototype_set (hproto hname'), h.prototype']

omit [Inheritable V] in
theorem delete (h : Renamed ρ object object') (hρ : Function.Injective ρ) (name : String) :
    Renamed ρ (object.delete name) (object'.delete (ρ name)) where
  own := by
    intro other
    rw [own_delete, own_delete]
    by_cases hother : other = name
    · rw [hother, Function.update_self, Function.update_self]
    · rw [Function.update_of_ne hother, Function.update_of_ne fun hsame => hother (hρ hsame), h.own]
  prototype := h.prototype
  prototype' := h.prototype'

theorem ofEntries (hρ : Function.Injective ρ) {entries : List (String × V)}
    (hnames : ∀ e ∈ entries, e.1 ∉ builtinNames ∧ ρ e.1 ∉ builtinNames) :
    Renamed ρ (PlainObject.ofEntries entries)
      (PlainObject.ofEntries (entries.map fun e => (ρ e.1, e.2))) := by
  induction entries using List.reverseRecOn with
  | nil => exact .empty
  | append_singleton entries e ih =>
    obtain ⟨he, he'⟩ := hnames e List.mem_concat_self
    rw [List.map_append, List.map_singleton, ofEntries_concat, ofEntries_concat]
    exact (ih fun e' he' => hnames e' (List.mem_append_left _ he')).set hρ he he' e.2

end Renamed

end PlainObject

end KeyValue
