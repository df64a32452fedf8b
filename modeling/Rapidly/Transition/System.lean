import Mathlib.Data.List.Induction

/-!
# Labelled transition systems with observations

A `System` is a deterministic machine over a state type: a label is one thing that can
happen next, and a step answers with the new state and the list of observations it emits.
Everything the environment decides (which party moves, how a pending computation settles,
what a remote service answers) is part of the label, so that quantifying over label lists
is quantifying over every interleaving and every behaviour of the environment.

Two predicates on a finite run are enough for safety statements:

* `Along M C ls` says that the step condition `C` holds at every step of the run `ls`. The
  condition sees the labels handled so far, the state before the step, and the label. It is
  structurally recursive, hence decidable whenever `C` is.
* `log M ls` is everything the run emits.

`along_of_along` is the invariant rule: an invariant relating the labels handled so far, the
state and the log, established initially and preserved by every step that meets `C`, turns a
run that meets `C` throughout into a run that meets any consequence of the invariant
throughout. Composition along `++` is given by `runFrom_append` and `alongFrom_append`.
-/

namespace Transition

universe u v w

/-- A deterministic labelled transition system that emits observations. -/
structure System (State : Type u) (Label : Type v) (Obs : Type w) where
  /-- The state every run starts from. -/
  init : State
  /-- One step: the next state and what is observed on the way. -/
  step : State → Label → State × List Obs

namespace System

variable {State : Type u} {Label : Type v} {Obs : Type w} (M : System State Label Obs)

/-- Run the labels from a given state, collecting the observations in order. -/
def runFrom : State → List Label → State × List Obs
  | s, [] => (s, [])
  | s, l :: ls =>
    ((runFrom (M.step s l).1 ls).1, (M.step s l).2 ++ (runFrom (M.step s l).1 ls).2)

/-- The state a run ends in. -/
def after (ls : List Label) : State := (M.runFrom M.init ls).1

/-- Everything a run emits. -/
def log (ls : List Label) : List Obs := (M.runFrom M.init ls).2

@[simp] theorem runFrom_nil (s : State) : M.runFrom s [] = (s, []) := rfl

@[simp] theorem after_nil : M.after [] = M.init := rfl

@[simp] theorem log_nil : M.log [] = [] := rfl

theorem runFrom_append (s : State) (ls ms : List Label) :
    M.runFrom s (ls ++ ms) =
      ((M.runFrom (M.runFrom s ls).1 ms).1,
        (M.runFrom s ls).2 ++ (M.runFrom (M.runFrom s ls).1 ms).2) := by
  induction ls generalizing s with
  | nil => simp
  | cons l ls ih => simp [runFrom, ih, List.append_assoc]

theorem runFrom_singleton (s : State) (l : Label) : M.runFrom s [l] = M.step s l := by
  simp [runFrom]

@[simp] theorem after_snoc (ls : List Label) (l : Label) :
    M.after (ls ++ [l]) = (M.step (M.after ls) l).1 := by
  simp [after, runFrom_append, runFrom]

@[simp] theorem log_snoc (ls : List Label) (l : Label) :
    M.log (ls ++ [l]) = M.log ls ++ (M.step (M.after ls) l).2 := by
  simp [log, after, runFrom_append, runFrom]

/-! ### The order of observations -/

section Precedes

variable {log obs : List Obs} {a b : Obs}

/-- In the log `a` is observed before `b`. -/
def Precedes (log : List Obs) (a b : Obs) : Prop := [a, b].Sublist log

instance [DecidableEq Obs] (log : List Obs) (a b : Obs) : Decidable (Precedes log a b) :=
  inferInstanceAs (Decidable ([a, b].Sublist log))

theorem Precedes.mem (h : Precedes log a b) : a ∈ log :=
  List.Sublist.subset h (List.mem_cons_self ..)

theorem precedes_concat (h : a ∈ log) : Precedes (log ++ [b]) a b :=
  List.Sublist.append (List.singleton_sublist.mpr h) (List.Sublist.refl [b])

theorem Precedes.append (h : Precedes log a b) : Precedes (log ++ obs) a b :=
  List.Sublist.trans h (List.sublist_append_left ..)

/-- What has been observed comes before what is observed later on. -/
theorem precedes_of_mem_append (ha : a ∈ log) (hb : b ∈ obs) : Precedes (log ++ obs) a b :=
  List.Sublist.append (List.singleton_sublist.mpr ha) (List.singleton_sublist.mpr hb)

/-- What is observed later on does not come before anything that has been observed. -/
theorem precedes_append (h : b ∉ obs) : Precedes (log ++ obs) a b ↔ Precedes log a b := by
  refine ⟨fun hab => ?_, Precedes.append⟩
  obtain ⟨l, l', hl, hsub, hsub'⟩ := List.sublist_append_iff.mp hab
  rcases List.eq_nil_or_concat l' with rfl | ⟨l', c, rfl⟩
  · rw [List.append_nil] at hl
    rwa [Precedes, hl]
  · rw [List.concat_eq_append] at hl hsub'
    rw [← List.append_assoc] at hl
    have hsplit : [a] ++ [b] = (l ++ l') ++ [c] := hl
    obtain ⟨-, hc⟩ := List.append_inj' hsplit rfl
    obtain rfl := List.singleton_inj.mp hc
    exact absurd (hsub'.subset List.mem_concat_self) h

end Precedes

/-! ### Conditions along a run -/

/-- A condition on one step: the labels handled so far, the state before the step, and the
label about to be handled. -/
abbrev Condition (State : Type u) (Label : Type v) := List Label → State → Label → Prop

/-- The condition holds at every step of the run, started with a given past and state. -/
def AlongFrom (C : Condition State Label) : List Label → State → List Label → Prop
  | _, _, [] => True
  | past, s, l :: ls => C past s l ∧ AlongFrom C (past ++ [l]) (M.step s l).1 ls

/-- The condition holds at every step of a run of the system. -/
def Along (C : Condition State Label) (ls : List Label) : Prop := M.AlongFrom C [] M.init ls

instance decidableAlongFrom (C : Condition State Label)
    [∀ past s l, Decidable (C past s l)] :
    ∀ past s ls, Decidable (M.AlongFrom C past s ls)
  | _, _, [] => isTrue trivial
  | past, s, l :: ls =>
    have : Decidable (M.AlongFrom C (past ++ [l]) (M.step s l).1 ls) :=
      decidableAlongFrom C _ _ ls
    inferInstanceAs (Decidable (_ ∧ _))

instance decidableAlong (C : Condition State Label) [∀ past s l, Decidable (C past s l)]
    (ls : List Label) : Decidable (M.Along C ls) :=
  M.decidableAlongFrom C [] M.init ls

theorem alongFrom_append {C : Condition State Label} {past : List Label} {s : State}
    {ls ms : List Label} :
    M.AlongFrom C past s (ls ++ ms) ↔
      M.AlongFrom C past s ls ∧ M.AlongFrom C (past ++ ls) (M.runFrom s ls).1 ms := by
  induction ls generalizing past s with
  | nil => simp [AlongFrom]
  | cons l ls ih => simp [AlongFrom, runFrom, ih, and_assoc]

@[simp] theorem along_nil (C : Condition State Label) : M.Along C [] := trivial

/-- The last step of a run that meets the condition throughout. -/
@[simp] theorem along_snoc {C : Condition State Label} {ls : List Label} {l : Label} :
    M.Along C (ls ++ [l]) ↔ M.Along C ls ∧ C ls (M.after ls) l := by
  simp [Along, alongFrom_append, AlongFrom, after]

theorem along_mono {C D : Condition State Label} (h : ∀ past s l, C past s l → D past s l)
    {ls : List Label} (hC : M.Along C ls) : M.Along D ls := by
  induction ls using List.reverseRecOn with
  | nil => exact M.along_nil D
  | append_singleton ls l ih =>
    rw [along_snoc] at hC ⊢
    exact ⟨ih hC.1, h _ _ _ hC.2⟩

theorem along_and {C D : Condition State Label} {ls : List Label} :
    M.Along (fun past s l => C past s l ∧ D past s l) ls ↔ M.Along C ls ∧ M.Along D ls := by
  induction ls using List.reverseRecOn with
  | nil => simp
  | append_singleton ls l ih =>
    rw [along_snoc, along_snoc, along_snoc, ih]
    exact and_and_and_comm

/-- Two conditions that agree in every state that is reached hold along the same runs. -/
theorem along_congr {C D : Condition State Label}
    (h : ∀ past l, C past (M.after past) l ↔ D past (M.after past) l) {ls : List Label} :
    M.Along C ls ↔ M.Along D ls := by
  induction ls using List.reverseRecOn with
  | nil => exact Iff.rfl
  | append_singleton ls l ih =>
    rw [along_snoc, along_snoc, ih]
    exact and_congr_right fun _ => h ls l

/-! ### Counting along a run -/

section Count

variable (C : Condition State Label) [∀ past s l, Decidable (C past s l)]

/-- How many steps of the run meet the condition, started with a given past and state. -/
def countFrom : List Label → State → List Label → ℕ
  | _, _, [] => 0
  | past, s, l :: ls => (if C past s l then 1 else 0) + countFrom (past ++ [l]) (M.step s l).1 ls

/-- How many steps of a run of the system meet the condition. -/
def count (ls : List Label) : ℕ := M.countFrom C [] M.init ls

theorem countFrom_append (past : List Label) (s : State) (ls ms : List Label) :
    M.countFrom C past s (ls ++ ms) =
      M.countFrom C past s ls + M.countFrom C (past ++ ls) (M.runFrom s ls).1 ms := by
  induction ls generalizing past s with
  | nil => simp [countFrom]
  | cons l ls ih => simp [countFrom, runFrom, ih, Nat.add_assoc]

@[simp] theorem count_snoc (ls : List Label) (l : Label) :
    M.count C (ls ++ [l]) = M.count C ls + if C ls (M.after ls) l then 1 else 0 := by
  rw [count, countFrom_append]
  rfl

end Count

/-! ### The invariant rule -/

section Invariant

variable {C : Condition State Label} (Inv : List Label → State → List Obs → Prop)

/-- **Invariants of guarded runs.** An invariant of the past, the state and the log that
holds initially and is preserved by every step meeting `C` holds at the end of every run
whose steps all meet `C`. -/
theorem invariant_of_along (h₀ : Inv [] M.init [])
    (hstep : ∀ past l, Inv past (M.after past) (M.log past) → C past (M.after past) l →
      Inv (past ++ [l]) (M.step (M.after past) l).1
        (M.log past ++ (M.step (M.after past) l).2))
    {ls : List Label} (h : M.Along C ls) : Inv ls (M.after ls) (M.log ls) := by
  induction ls using List.reverseRecOn with
  | nil => exact h₀
  | append_singleton ls l ih =>
    rw [along_snoc] at h
    rw [after_snoc, log_snoc]
    exact hstep _ _ (ih h.1) h.2

/-- An invariant that every step preserves holds at the end of every run. -/
theorem invariant (h₀ : Inv [] M.init [])
    (hstep : ∀ past l, Inv past (M.after past) (M.log past) →
      Inv (past ++ [l]) (M.step (M.after past) l).1
        (M.log past ++ (M.step (M.after past) l).2))
    (ls : List Label) : Inv ls (M.after ls) (M.log ls) := by
  induction ls using List.reverseRecOn with
  | nil => exact h₀
  | append_singleton ls l ih =>
    rw [after_snoc, log_snoc]
    exact hstep ls l ih

/-- A condition that holds at every step from a state that is reached holds along every run. -/
theorem along_of_forall {D : Condition State Label} (h : ∀ past l, D past (M.after past) l)
    (ls : List Label) : M.Along D ls := by
  induction ls using List.reverseRecOn with
  | nil => exact M.along_nil D
  | append_singleton ls l ih =>
    rw [along_snoc]
    exact ⟨ih, h ls l⟩

/-- The invariant rule, read at every step: what the invariant and the condition imply
about a step holds at every step of the run. -/
theorem along_of_along {D : Condition State Label} (h₀ : Inv [] M.init [])
    (hstep : ∀ past l, Inv past (M.after past) (M.log past) → C past (M.after past) l →
      Inv (past ++ [l]) (M.step (M.after past) l).1
        (M.log past ++ (M.step (M.after past) l).2))
    (hD : ∀ past l, Inv past (M.after past) (M.log past) → C past (M.after past) l →
      D past (M.after past) l)
    {ls : List Label} (h : M.Along C ls) : M.Along D ls := by
  induction ls using List.reverseRecOn with
  | nil => exact M.along_nil D
  | append_singleton ls l ih =>
    rw [along_snoc] at h ⊢
    exact ⟨ih h.1, hD _ _ (M.invariant_of_along Inv h₀ hstep h.1) h.2⟩

/-- Two conditions that an invariant makes equivalent hold along the same runs. -/
theorem along_congr_of_along {D E : Condition State Label} (h₀ : Inv [] M.init [])
    (hstep : ∀ past l, Inv past (M.after past) (M.log past) → C past (M.after past) l →
      Inv (past ++ [l]) (M.step (M.after past) l).1
        (M.log past ++ (M.step (M.after past) l).2))
    (hiff : ∀ past l, Inv past (M.after past) (M.log past) → C past (M.after past) l →
      (D past (M.after past) l ↔ E past (M.after past) l))
    {ls : List Label} (h : M.Along C ls) : M.Along D ls ↔ M.Along E ls := by
  induction ls using List.reverseRecOn with
  | nil => exact Iff.rfl
  | append_singleton ls l ih =>
    rw [along_snoc] at h
    rw [along_snoc, along_snoc]
    have hinv := M.invariant_of_along Inv h₀ hstep h.1
    exact and_congr (ih h.1) (hiff ls l hinv h.2)

/-- Two conditions hold along the same runs if either of them keeps an invariant that makes them
equivalent. -/
theorem along_congr_of_invariant {D : Condition State Label} (h₀ : Inv [] M.init [])
    (hstep : ∀ past l, Inv past (M.after past) (M.log past) → C past (M.after past) l →
      Inv (past ++ [l]) (M.step (M.after past) l).1
        (M.log past ++ (M.step (M.after past) l).2))
    (hiff : ∀ past l, Inv past (M.after past) (M.log past) →
      (D past (M.after past) l ↔ C past (M.after past) l))
    {ls : List Label} : M.Along D ls ↔ M.Along C ls := by
  induction ls using List.reverseRecOn with
  | nil => exact Iff.rfl
  | append_singleton ls l ih =>
    rw [along_snoc, along_snoc, ih]
    exact and_congr_right fun hC => hiff ls l (M.invariant_of_along Inv h₀ hstep hC)

end Invariant

end System

/-! ### Parties in the order in which they come -/

section Parties

variable {α : Type u} {parties : List α} {new party : α} {i : ℕ}

theorem getElem?_concat_cases (h : (parties ++ [new])[i]? = some party) :
    parties[i]? = some party ∨ i = parties.length ∧ party = new := by
  rcases Nat.lt_or_ge i parties.length with hlt | hge
  · rw [List.getElem?_append_left hlt] at h
    exact .inl h
  · rw [List.getElem?_append_right hge, List.getElem?_singleton] at h
    split at h
    · exact .inr ⟨by omega, (Option.some.inj h).symm⟩
    · exact absurd h (Option.some_ne_none _).symm

theorem getElem?_append_of_some (h : parties[i]? = some party) (more : List α) :
    (parties ++ more)[i]? = some party :=
  (List.getElem?_append_left (List.getElem?_eq_some_iff.mp h).1).trans h

end Parties

end Transition
