import Mathlib.Data.List.Basic

/-!
# Routing

A router has a table of routes, each with a method and a pattern for the path, and gives a request
to the first route that fits. A pattern is a fixed path, or has one parameter, whose convertor says
what it may be: a segment of the path, or the rest of a path with its slashes.

A table in which the patterns overlap is read for all paths of one shape at once, with a front and
a back that are known: `PathPattern.Separate` finds the patterns that fit none of these paths, and
`dispatch_eq_some` skips them.
-/

namespace Net

/-- What a parameter may stand for. -/
inductive Convertor where
  /-- One segment. -/
  | str
  /-- A path that is not empty. -/
  | path
deriving DecidableEq

def Convertor.Accepts : Convertor → List Char → Prop
  | .str, value => value ≠ [] ∧ '/' ∉ value
  | .path, value => value ≠ []

instance (c : Convertor) (value : List Char) : Decidable (c.Accepts value) :=
  match c with
  | .str => inferInstanceAs (Decidable (_ ∧ _))
  | .path => inferInstanceAs (Decidable (_ ≠ _))

inductive PathPattern where
  | fixed (path : List Char)
  | param (before : List Char) (convertor : Convertor) (after : List Char)
deriving DecidableEq

namespace PathPattern

/-- A path fits, with this value for the parameter. -/
def capture (p : PathPattern) (path : List Char) : Option (Option (List Char)) :=
  match p with
  | .fixed known => if path = known then some none else none
  | .param before convertor after =>
    let value := (path.drop before.length).take (path.length - before.length - after.length)
    if path = before ++ value ++ after ∧ convertor.Accepts value then some (some value) else none

/-- One of the two texts begins with the other one. -/
def Comparable (a b : List Char) : Prop := a <+: b ∨ b <+: a

instance (a b : List Char) : Decidable (Comparable a b) := inferInstanceAs (Decidable (_ ∨ _))

/-- The pattern fits no path with this front and this back. -/
def Separate (p : PathPattern) (front back : List Char) : Prop :=
  match p with
  | .fixed known => ¬front <+: known
  | .param before _ after => ¬Comparable before front ∨ ¬Comparable after.reverse back.reverse

instance (p : PathPattern) (front back : List Char) : Decidable (p.Separate front back) :=
  match p with
  | .fixed _ => inferInstanceAs (Decidable (¬_))
  | .param _ _ _ => inferInstanceAs (Decidable (_ ∨ _))

variable {p : PathPattern} {before after front middle back value : List Char} {c : Convertor}

/-- The value of a parameter is what stands between the two fixed parts. -/
theorem capture_param (h : c.Accepts value) :
    (param before c after).capture (before ++ value ++ after) = some (some value) := by
  have hvalue : ((before ++ value ++ after).drop before.length).take
      ((before ++ value ++ after).length - before.length - after.length) = value := by
    have hlength : (before ++ value ++ after).length - before.length - after.length =
        value.length := by
      rw [List.length_append, List.length_append]
      omega
    rw [hlength, List.append_assoc, List.drop_left, List.take_left]
  rw [capture, hvalue]
  exact if_pos ⟨rfl, h⟩

theorem comparable_of_append_eq {a b x y : List Char} (h : a ++ x = b ++ y) : Comparable a b :=
  List.prefix_or_prefix_of_prefix (List.prefix_append a x) (h ▸ List.prefix_append b y)

theorem capture_of_separate (h : p.Separate front back) :
    p.capture (front ++ middle ++ back) = none := by
  cases p with
  | fixed known =>
    refine if_neg fun hsame => h ?_
    rw [← hsame, List.append_assoc]
    exact List.prefix_append front _
  | param before c after =>
    refine if_neg fun hfits => ?_
    obtain ⟨hsame, -⟩ := hfits
    obtain hfront | hback := h
    · rw [List.append_assoc, List.append_assoc] at hsame
      exact hfront (comparable_of_append_eq hsame.symm)
    · have hreverse := congrArg List.reverse hsame
      simp only [List.reverse_append] at hreverse
      exact hback (comparable_of_append_eq hreverse.symm)

end PathPattern

/-! ### Tables -/

structure Route (μ ε : Type) where
  method : μ
  pattern : PathPattern
  endpoint : ε
deriving DecidableEq

section Dispatch

variable {μ ε : Type} [DecidableEq μ]

/-- The endpoint of the first route that fits, and the value of its parameter. -/
def dispatch (routes : List (Route μ ε)) (method : μ) (path : List Char) :
    Option (ε × Option (List Char)) :=
  routes.findSome? fun r =>
    if r.method = method then (r.pattern.capture path).map fun value => (r.endpoint, value)
    else none

variable {routes : List (Route μ ε)} {method : μ} {r : Route μ ε}
  {front middle back : List Char} {value : Option (List Char)}

/-- The first route that can fit a path of this shape gets the request if it does fit. -/
theorem dispatch_eq_some
    (hfirst : routes.find? (fun r => r.method = method ∧ ¬r.pattern.Separate front back) = some r)
    (hr : r.pattern.capture (front ++ middle ++ back) = some value) :
    dispatch routes method (front ++ middle ++ back) = some (r.endpoint, value) := by
  induction routes with
  | nil => exact absurd hfirst.symm (Option.some_ne_none r)
  | cons q routes ih =>
    rw [dispatch, List.findSome?_cons]
    rw [List.find?_cons] at hfirst
    split at hfirst
    next hq =>
      obtain rfl := Option.some.inj hfirst
      obtain ⟨hmethod, -⟩ := of_decide_eq_true hq
      rw [if_pos hmethod, hr]
      rfl
    next hq =>
      -- the route is for another method, or fits no path of this shape
      have hnone : (if q.method = method then (q.pattern.capture (front ++ middle ++ back)).map
          fun value => (q.endpoint, value) else none) = none := by
        split
        next hmethod =>
          have hseparate := not_not.mp fun h => of_decide_eq_false hq ⟨hmethod, h⟩
          rw [PathPattern.capture_of_separate hseparate, Option.map_none]
        · rfl
      rw [hnone]
      exact ih hfirst

end Dispatch

end Net
