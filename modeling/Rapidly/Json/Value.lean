import Mathlib.Algebra.Group.Nat.Even
import Mathlib.Data.List.Induction

/-!
# JSON values

A string of a JSON value is what JavaScript makes of it: a sequence of UTF-16 code units, which
may hold a surrogate without its partner. The text a value is written in is a sequence of
characters, so a string literal of this development stands for its code units.

The numbers are a parameter. An object is the list of its fields as a text would have them; of
several fields with one name the last counts, and the order says nothing.

* `Fields.get`, `Fields.erase` and `Fields.set` read, delete and assign a property.
* `Fields.Same` compares two objects by their properties.
-/

namespace Json

/-- UTF-16 code units. -/
abbrev Units := List UInt16

instance (x : Units) (l : List Units) : Decidable (x ∈ l) :=
  List.instDecidableMemOfLawfulBEq x l

/-- The code units of a character. -/
def units (c : Char) : Units :=
  if c.toNat < 0x10000 then [.ofNat c.toNat]
  else
    [.ofNat (0xd800 + (c.toNat - 0x10000) / 0x400), .ofNat (0xdc00 + (c.toNat - 0x10000) % 0x400)]

/-- The code units of a text. -/
def ofText (text : List Char) : Units := text.flatMap units

theorem length_ofText_le (text : List Char) : (ofText text).length ≤ 2 * text.length := by
  induction text with
  | nil => exact Nat.le_refl 0
  | cons c text ih =>
    have hc : (units c).length ≤ 2 := by
      rw [units]
      split
      · exact Nat.le_succ 1
      · exact Nat.le_refl 2
    rw [ofText, List.flatMap_cons, ← ofText, List.length_append, List.length_cons]
    omega

/-- The code units of a string literal. -/
def ofString (s : String) : Units := ofText s.toList

instance : Coe String Units := ⟨ofString⟩

/-- A JSON value. -/
inductive Value (ν : Type) where
  | null
  | bool (b : Bool)
  | number (n : ν)
  | string (s : Units)
  | array (items : List (Value ν))
  | object (fields : List (Units × Value ν))

variable {ν : Type}

/-- The fields of an object. -/
abbrev Fields (ν : Type) := List (Units × Value ν)

namespace Fields

variable {fields : Fields ν} {key key' : Units} {value : Value ν}

/-- The property of an object: the last field of that name counts. -/
def get (fields : Fields ν) (key : Units) : Option (Value ν) := fields.reverse.lookup key

/-- The object without the property. -/
def erase (fields : Fields ν) (key : Units) : Fields ν := fields.filter fun f => f.1 ≠ key

/-- The names of the fields. -/
def keys (fields : Fields ν) : List Units := fields.map Prod.fst

/-- The fields of one name get a value. -/
def replace (fields : Fields ν) (key : Units) (value : Value ν) : Fields ν :=
  fields.map fun f => if f.1 = key then (key, value) else f

/-- The object with the property assigned: in its old place, or after the others. -/
def set (fields : Fields ν) (key : Units) (value : Value ν) : Fields ν :=
  if key ∈ keys fields then replace fields key value else fields ++ [(key, value)]

@[simp] theorem get_nil : get ([] : Fields ν) key = none := rfl

theorem get_append_singleton :
    get (fields ++ [(key', value)]) key = if key = key' then some value else get fields key := by
  rw [get, get, List.reverse_append, List.reverse_singleton, List.singleton_append,
    List.lookup_cons]
  by_cases h : key = key'
  · rw [if_pos h, beq_iff_eq.mpr h]
  · rw [if_neg h, beq_eq_false_iff_ne.mpr h]

theorem get_eq_none_iff : get fields key = none ↔ key ∉ keys fields := by
  rw [get, List.lookup_eq_none_iff, keys]
  simp only [List.mem_reverse, List.mem_map, not_exists, not_and, bne_iff_ne, ne_eq]
  exact ⟨fun h f hf hname => h f hf hname.symm, fun h f hf hname => h f hf hname.symm⟩

theorem get_replace : get (replace fields key' value) key =
    if key = key' then (get fields key).map fun _ => value else get fields key := by
  induction fields using List.reverseRecOn with
  | nil => simp [replace]
  | append_singleton fields f ih =>
    obtain ⟨name, old⟩ := f
    rw [replace] at ih
    rw [replace, List.map_append, List.map_singleton]
    by_cases hname : name = key'
    · rw [if_pos hname, get_append_singleton, get_append_singleton, ih, hname]
      by_cases hkey : key = key'
      · rw [if_pos hkey, if_pos hkey, if_pos hkey, Option.map_some]
      · simp only [if_neg hkey]
    · rw [if_neg hname, get_append_singleton, get_append_singleton, ih]
      by_cases hkey : key = name
      · rw [if_pos hkey, if_pos hkey, if_neg fun h => hname (hkey.symm.trans h)]
      · simp only [if_neg hkey]

theorem get_set : get (set fields key' value) key =
    if key = key' then some value else get fields key := by
  rw [set]
  split
  next hmem =>
    rw [get_replace]
    by_cases hkey : key = key'
    · obtain ⟨old, hold⟩ : ∃ old, get fields key = some old := by
        rw [← Option.ne_none_iff_exists', ne_eq, get_eq_none_iff, not_not, hkey]
        exact hmem
      rw [if_pos hkey, if_pos hkey, hold, Option.map_some]
    · rw [if_neg hkey, if_neg hkey]
  next => exact get_append_singleton

theorem get_erase : get (erase fields key') key = if key = key' then none else get fields key := by
  induction fields using List.reverseRecOn with
  | nil => simp [erase]
  | append_singleton fields f ih =>
    obtain ⟨name, value⟩ := f
    rw [erase, List.filter_append, get_append_singleton]
    by_cases hname : name = key'
    · have hnone : [(name, value)].filter (fun f => f.1 ≠ key') = [] := by simp [hname]
      rw [hnone, List.append_nil, ← erase, ih]
      by_cases hkey : key = key'
      · rw [if_pos hkey, if_pos hkey]
      · rw [if_neg hkey, if_neg hkey, if_neg fun h => hkey (h.trans hname)]
    · have hself : [(name, value)].filter (fun f => f.1 ≠ key') = [(name, value)] := by
        simp [hname]
      rw [hself, get_append_singleton, ← erase, ih]
      by_cases hkey : key = key'
      · rw [if_pos hkey, if_pos hkey, if_neg fun h => hname (h.symm.trans hkey)]
      · rw [if_neg hkey, if_neg hkey]

theorem get_append (fields more : Fields ν) (key : Units) :
    get (fields ++ more) key = (get more key).or (get fields key) := by
  rw [get, get, get, List.reverse_append, List.lookup_append]

theorem mem_of_get_eq_some (h : get fields key = some value) : (key, value) ∈ fields := by
  induction fields using List.reverseRecOn with
  | nil => cases h
  | append_singleton fields f ih =>
    obtain ⟨name, old⟩ := f
    rw [get_append_singleton] at h
    split at h
    next hname =>
      obtain rfl := Option.some_inj.mp h
      rw [hname]
      exact List.mem_concat_self
    · exact List.mem_append_left _ (ih h)

/-- The dictionary of the fields: each name once, where it first stood, with its last value. -/
def dictionary (fields : Fields ν) : Fields ν := fields.foldl (fun d f => set d f.1 f.2) []

/-- Two objects have the same properties. -/
def Same (left right : Fields ν) : Prop := ∀ key, get left key = get right key

end Fields

namespace Value

/-- Induction on a value: an array by its items, an object by the values of its fields. -/
theorem induction {motive : Value ν → Prop} (null : motive null) (bool : ∀ b, motive (bool b))
    (number : ∀ n, motive (number n)) (string : ∀ s, motive (string s))
    (array : ∀ items, (∀ v ∈ items, motive v) → motive (array items))
    (object : ∀ fields : Fields ν, (∀ f ∈ fields, motive f.2) → motive (object fields)) :
    ∀ v, motive v
  | .null => null
  | .bool b => bool b
  | .number n => number n
  | .string s => string s
  | .array items => array items fun v _ =>
      induction null bool number string array object v
  | .object fields => object fields fun f _ =>
      induction null bool number string array object f.2
termination_by v => sizeOf v
decreasing_by
  · rename_i hv
    have hlt := List.sizeOf_lt_of_mem hv
    simp only [Value.array.sizeOf_spec]
    omega
  · rename_i hf
    have hlt := List.sizeOf_lt_of_mem hf
    have hle : sizeOf f.2 < sizeOf f := by
      obtain ⟨name, value⟩ := f
      simp only [Prod.mk.sizeOf_spec]
      omega
    simp only [Value.object.sizeOf_spec]
    omega

/-- A property of a value; only objects have properties here. -/
def property (value : Value ν) (key : Units) : Option (Value ν) :=
  match value with
  | object fields => Fields.get fields key
  | _ => none

/-- The value, if its type is `boolean`. -/
def toBool? : Value ν → Option Bool
  | bool b => some b
  | _ => none

/-- The value, if its type is `number`. -/
def toNumber? : Value ν → Option ν
  | number n => some n
  | _ => none

/-- The value, if its type is `string`. -/
def toUnits? : Value ν → Option Units
  | string s => some s
  | _ => none

end Value

end Json
