import Rapidly.Transition.System

/-!
# Interleaved tasks

`Tasks` describes computations that run side by side over a shared state and are suspended
between their steps: an event of the environment changes the shared state and may start tasks,
and one step of a task changes the shared state and the task. How a step of a task turns out (a
reply, a failure) is part of the label. `Tasks.system` is the transition system of all their
interleavings. The tasks are numbered in the order in which they are started, and a finished
task keeps its number.

The invariants of such a system are proved as Owicki and Gries do it. A proof outline consists
of an assertion about the shared state and one about each task; `Outline` says that every step
of a task establishes the assertions about itself, and that no event and no step of *another*
task disturbs them. `Outline.holds` is the rule: along every run whose steps meet the condition
all assertions hold. All of them may speak of what has been observed so far. Where one property
of the whole pool says it all, `Invariant` and its rules do: events and steps of tasks keep it.

`IsImage` relates two such families of tasks by functions that commute with the steps;
`IsImage.run` carries this over to runs.
-/

namespace Transition

universe u v w x y

/-- Computations that share a state and are suspended between their steps. -/
structure Tasks (σ : Type u) (τ : Type v) (Event : Type w) (Answer : Type x)
    (Obs : Type y) where
  /-- The shared state every run starts from. -/
  init : σ
  /-- An event, given the number of tasks so far: the new shared state, the tasks it starts, and
  what is observed. -/
  arrive : σ → ℕ → Event → σ × List τ × List Obs
  /-- The next step of the task with the given number. -/
  advance : σ → ℕ → Answer → τ → σ × τ × List Obs

/-- A shared state and the tasks started so far. -/
structure Pool (σ : Type u) (τ : Type v) where
  shared : σ
  tasks : List τ := []
deriving DecidableEq

/-- The image of a pool. -/
def Pool.map {σ : Type u} {τ : Type v} {σ' : Type w} {τ' : Type x} (f : σ → σ') (g : τ → τ')
    (p : Pool σ τ) : Pool σ' τ' where
  shared := f p.shared
  tasks := p.tasks.map g

/-- What can happen next: an event, or a step of one task. -/
inductive Turn (Event : Type w) (Answer : Type x) where
  | event (e : Event)
  | resumed (i : ℕ) (answer : Answer)
deriving DecidableEq

/-- The task that a turn resumes, with the answer it gets. -/
def Pool.resumed {σ : Type u} {τ : Type v} {Event : Type w} {Answer : Type x} (p : Pool σ τ) :
    Turn Event Answer → Option (Answer × τ)
  | .event _ => none
  | .resumed i answer => (p.tasks[i]?).map (Prod.mk answer)

theorem Pool.resumed_eq {σ : Type u} {τ : Type v} {Event : Type w} {Answer : Type x}
    {p : Pool σ τ} {i : ℕ} {t : τ} (h : p.tasks[i]? = some t) (answer : Answer) :
    p.resumed (.resumed i answer : Turn Event Answer) = some (answer, t) := by
  rw [resumed, h]
  rfl

theorem Pool.resumed_eq_some {σ : Type u} {τ : Type v} {Event : Type w} {Answer : Type x}
    {p : Pool σ τ} {l : Turn Event Answer} {answer : Answer} {t : τ}
    (h : p.resumed l = some (answer, t)) :
    ∃ i, l = .resumed i answer ∧ p.tasks[i]? = some t := by
  rcases l with e | ⟨i, answer'⟩
  · exact absurd h (by simp [resumed])
  · obtain ⟨t', ht, heq⟩ := Option.map_eq_some_iff.mp h
    obtain ⟨rfl, rfl⟩ := Prod.mk.inj heq
    exact ⟨i, rfl, ht⟩

/-- How the next step of a task turns out, where all that can go wrong is an exception that ends
the task. -/
inductive Outcome where
  | executed
  | raised
deriving DecidableEq

namespace Tasks

variable {σ : Type u} {τ : Type v} {Event : Type w} {Answer : Type x} {Obs : Type y}
variable (M : Tasks σ τ Event Answer Obs)

/-- One step of the pool. A task that has not been started does nothing. -/
def step (p : Pool σ τ) : Turn Event Answer → Pool σ τ × List Obs
  | .event e =>
    let (shared, started, obs) := M.arrive p.shared p.tasks.length e
    ({ shared, tasks := p.tasks ++ started }, obs)
  | .resumed i answer =>
    match p.tasks[i]? with
    | none => (p, [])
    | some t =>
      let (shared, t', obs) := M.advance p.shared i answer t
      ({ shared, tasks := p.tasks.set i t' }, obs)

/-- The transition system of all interleavings. -/
def system : System (Pool σ τ) (Turn Event Answer) Obs where
  init := { shared := M.init }
  step := M.step

@[simp] theorem system_step (p : Pool σ τ) (l : Turn Event Answer) :
    M.system.step p l = M.step p l := rfl

variable {M} {p : Pool σ τ} {i : ℕ} {answer : Answer} {t : τ}

theorem step_event (e : Event) :
    M.step p (.event e) =
      ({ shared := (M.arrive p.shared p.tasks.length e).1,
         tasks := p.tasks ++ (M.arrive p.shared p.tasks.length e).2.1 },
        (M.arrive p.shared p.tasks.length e).2.2) := rfl

theorem step_resumed (h : p.tasks[i]? = some t) :
    M.step p (.resumed i answer) =
      ({ shared := (M.advance p.shared i answer t).1,
         tasks := p.tasks.set i (M.advance p.shared i answer t).2.1 },
        (M.advance p.shared i answer t).2.2) := by
  rw [step, h]

theorem step_resumed_none (h : p.tasks[i]? = none) : M.step p (.resumed i answer) = (p, []) := by
  rw [step, h]

theorem step_of_resumed {l : Turn Event Answer} (h : p.resumed l = some (answer, t)) :
    ∃ i, l = .resumed i answer ∧ p.tasks[i]? = some t ∧
      (M.step p l).1.shared = (M.advance p.shared i answer t).1 ∧
      (M.step p l).1.resumed l = some (answer, (M.advance p.shared i answer t).2.1) ∧
      (M.step p l).2 = (M.advance p.shared i answer t).2.2 := by
  obtain ⟨i, rfl, hi⟩ := Pool.resumed_eq_some h
  have hlt : i < p.tasks.length := (List.getElem?_eq_some_iff.mp hi).1
  refine ⟨i, rfl, hi, ?_⟩
  rw [step_resumed hi]
  exact ⟨rfl, Pool.resumed_eq (List.getElem?_set_self hlt) _, rfl⟩

/-! ### Images -/

section Image

universe u' v' y'

variable {σ' : Type u'} {τ' : Type v'} {Obs' : Type y'}

/-- The tasks of `M'` are the image of those of `M`: functions on the states, the tasks and the
observations commute with what an event and a step of a task do. -/
structure IsImage (M : Tasks σ τ Event Answer Obs) (M' : Tasks σ' τ' Event Answer Obs')
    (f : σ → σ') (g : τ → τ') (h : Obs → Obs') : Prop where
  init : M'.init = f M.init
  arrive : ∀ s i e, M'.arrive (f s) i e =
    (f (M.arrive s i e).1, (M.arrive s i e).2.1.map g, (M.arrive s i e).2.2.map h)
  advance : ∀ s i answer t, M'.advance (f s) i answer (g t) =
    (f (M.advance s i answer t).1, g (M.advance s i answer t).2.1,
      (M.advance s i answer t).2.2.map h)

variable {M' : Tasks σ' τ' Event Answer Obs'} {f : σ → σ'} {g : τ → τ'} {h : Obs → Obs'}

theorem IsImage.step (hM : IsImage M M' f g h) (p : Pool σ τ) (l : Turn Event Answer) :
    M'.step (p.map f g) l = ((M.step p l).1.map f g, (M.step p l).2.map h) := by
  rcases l with e | ⟨i, answer⟩
  · have hlength : (p.map f g).tasks.length = p.tasks.length := List.length_map ..
    rw [step_event, step_event, hlength]
    dsimp only [Pool.map]
    rw [hM.arrive, List.map_append]
  · have hget : (p.map f g).tasks[i]? = p.tasks[i]?.map g := List.getElem?_map ..
    rcases hi : p.tasks[i]? with _ | t
    · rw [hi, Option.map_none] at hget
      rw [step_resumed_none hget, step_resumed_none hi, List.map_nil]
    · rw [hi, Option.map_some] at hget
      rw [step_resumed hget, step_resumed hi]
      dsimp only [Pool.map]
      rw [hM.advance, List.map_set]

theorem IsImage.run (hM : IsImage M M' f g h) (ls : List (Turn Event Answer)) :
    M'.system.after ls = (M.system.after ls).map f g ∧
      M'.system.log ls = (M.system.log ls).map h := by
  induction ls using List.reverseRecOn with
  | nil =>
    refine ⟨?_, rfl⟩
    have hinit : M'.system.init = { shared := f M.init } := by rw [← hM.init]; rfl
    exact hinit
  | append_singleton ls l ih =>
    rw [System.after_snoc, System.after_snoc, System.log_snoc, System.log_snoc, ih.1, ih.2,
      system_step, system_step, hM.step, List.map_append]
    exact ⟨rfl, rfl⟩

end Image

/-! ### Invariants of the pool -/

/-- A property of the pool that is kept in the runs whose steps meet the condition. -/
structure Invariant (M : Tasks σ τ Event Answer Obs)
    (C : System.Condition (Pool σ τ) (Turn Event Answer)) (P : Pool σ τ → Prop) : Prop where
  init : P M.system.init
  event : ∀ {past p e}, P p → C past p (.event e) → P (M.step p (.event e)).1
  resumed : ∀ {past p i answer t}, P p → C past p (.resumed i answer) → p.tasks[i]? = some t →
    P { shared := (M.advance p.shared i answer t).1
        tasks := p.tasks.set i (M.advance p.shared i answer t).2.1 }

namespace Invariant

variable {C D : System.Condition (Pool σ τ) (Turn Event Answer)} {P : Pool σ τ → Prop}
variable {past ls : List (Turn Event Answer)} {l : Turn Event Answer}

theorem step (h : M.Invariant C P) (hp : P p) (hC : C past p l) : P (M.step p l).1 := by
  rcases l with e | ⟨i, answer⟩
  · exact h.event hp hC
  · rcases hi : p.tasks[i]? with _ | t
    · rwa [step_resumed_none hi]
    · rw [step_resumed hi]
      exact h.resumed hp hC hi

/-- The property holds at the end of every run whose steps meet the condition. -/
theorem after (h : M.Invariant C P) (hC : M.system.Along C ls) : P (M.system.after ls) :=
  M.system.invariant_of_along (fun _ p _ => P p) h.init (fun _ _ hp hl => h.step hp hl) hC

/-- What the property and the condition imply about a step holds at every step. -/
theorem along (h : M.Invariant C P) (hD : ∀ past p l, P p → C past p l → D past p l)
    (hC : M.system.Along C ls) : M.system.Along D ls :=
  M.system.along_of_along (fun _ p _ => P p) h.init (fun _ _ hp hl => h.step hp hl)
    (fun past l hp hl => hD past _ l hp hl) hC

end Invariant

/-! ### Proof outlines -/

/-- The assertions of an outline hold, after what has been observed. -/
structure Holds (I : List Obs → σ → Prop) (T : List Obs → σ → ℕ → τ → Prop) (log : List Obs)
    (p : Pool σ τ) : Prop where
  shared : I log p.shared
  task : ∀ i t, p.tasks[i]? = some t → T log p.shared i t

/-- A proof outline for the runs whose steps meet the condition: an assertion `I` about the
shared state and an assertion `T` about each task. -/
structure Outline (M : Tasks σ τ Event Answer Obs)
    (C : System.Condition (Pool σ τ) (Turn Event Answer)) (I : List Obs → σ → Prop)
    (T : List Obs → σ → ℕ → τ → Prop) : Prop where
  init : I [] M.init
  /-- Events keep the assertion about the shared state. -/
  event : ∀ {past p e}, Holds I T (M.system.log past) p → C past p (.event e) →
    I (M.system.log past ++ (M.arrive p.shared p.tasks.length e).2.2)
      (M.arrive p.shared p.tasks.length e).1
  /-- A task that is started meets its assertion. -/
  started : ∀ {past p e}, Holds I T (M.system.log past) p → C past p (.event e) →
    ∀ k t, (M.arrive p.shared p.tasks.length e).2.1[k]? = some t →
      T (M.system.log past ++ (M.arrive p.shared p.tasks.length e).2.2)
        (M.arrive p.shared p.tasks.length e).1 (p.tasks.length + k) t
  /-- Events do not disturb the tasks. -/
  undisturbed : ∀ {past p e}, Holds I T (M.system.log past) p → C past p (.event e) →
    ∀ i t, p.tasks[i]? = some t →
      T (M.system.log past ++ (M.arrive p.shared p.tasks.length e).2.2)
        (M.arrive p.shared p.tasks.length e).1 i t
  /-- A step of a task establishes its own assertion and keeps the one about the shared state. -/
  resumed : ∀ {past p i answer t}, Holds I T (M.system.log past) p →
    C past p (.resumed i answer) → p.tasks[i]? = some t →
      I (M.system.log past ++ (M.advance p.shared i answer t).2.2)
        (M.advance p.shared i answer t).1 ∧
      T (M.system.log past ++ (M.advance p.shared i answer t).2.2)
        (M.advance p.shared i answer t).1 i (M.advance p.shared i answer t).2.1
  /-- A step of a task does not disturb the others. -/
  interferes : ∀ {past p i answer t}, Holds I T (M.system.log past) p →
    C past p (.resumed i answer) → p.tasks[i]? = some t →
      ∀ j other, p.tasks[j]? = some other → j ≠ i →
        T (M.system.log past ++ (M.advance p.shared i answer t).2.2)
          (M.advance p.shared i answer t).1 j other

namespace Outline

variable {C D : System.Condition (Pool σ τ) (Turn Event Answer)} {I : List Obs → σ → Prop}
variable {T : List Obs → σ → ℕ → τ → Prop} {past ls : List (Turn Event Answer)}

theorem holds_init (h : M.Outline C I T) : Holds I T [] M.system.init where
  shared := h.init
  task _ _ hi := by cases hi

theorem step (h : M.Outline C I T) (hp : Holds I T (M.system.log past) p) (l : Turn Event Answer)
    (hC : C past p l) : Holds I T (M.system.log past ++ (M.step p l).2) (M.step p l).1 := by
  rcases l with e | ⟨i, answer⟩
  · refine ⟨h.event hp hC, fun i t hi => ?_⟩
    rcases Nat.lt_or_ge i p.tasks.length with hlt | hge
    · have hold : (p.tasks ++ (M.arrive p.shared p.tasks.length e).2.1)[i]? = p.tasks[i]? :=
        List.getElem?_append_left hlt
      exact h.undisturbed hp hC i t (hold.symm.trans hi)
    · have hnew : (p.tasks ++ (M.arrive p.shared p.tasks.length e).2.1)[i]? =
          (M.arrive p.shared p.tasks.length e).2.1[i - p.tasks.length]? :=
        List.getElem?_append_right hge
      have hstarted := h.started hp hC _ t (hnew.symm.trans hi)
      rwa [Nat.add_sub_cancel' hge] at hstarted
  · rcases hi : p.tasks[i]? with _ | t
    · rwa [step_resumed_none hi, List.append_nil]
    · rw [step_resumed hi]
      refine ⟨(h.resumed hp hC hi).1, fun j other hj => ?_⟩
      by_cases hji : j = i
      · subst hji
        have hlt : j < p.tasks.length := (List.getElem?_eq_some_iff.mp hi).1
        rw [List.getElem?_set_self hlt] at hj
        obtain rfl := Option.some_inj.mp hj
        exact (h.resumed hp hC hi).2
      · rw [List.getElem?_set_ne (Ne.symm hji)] at hj
        exact h.interferes hp hC hi j other hj hji

/-- **The rule of proof outlines.** All assertions hold at the end of every run whose steps meet
the condition. -/
theorem holds (h : M.Outline C I T) (hC : M.system.Along C ls) :
    Holds I T (M.system.log ls) (M.system.after ls) := by
  induction ls using List.reverseRecOn with
  | nil => exact h.holds_init
  | append_singleton ls l ih =>
    rw [System.along_snoc] at hC
    rw [System.after_snoc, System.log_snoc]
    exact h.step (ih hC.1) l hC.2

/-- What the assertions and the condition imply about a step holds at every step. -/
theorem along_of_along (h : M.Outline C I T)
    (hD : ∀ past l, Holds I T (M.system.log past) (M.system.after past) →
      C past (M.system.after past) l → D past (M.system.after past) l)
    (hC : M.system.Along C ls) : M.system.Along D ls := by
  induction ls using List.reverseRecOn with
  | nil => exact System.along_nil _ D
  | append_singleton ls l ih =>
    rw [System.along_snoc] at hC ⊢
    exact ⟨ih hC.1, hD ls l (h.holds hC.1) hC.2⟩

/-- A property that the assertions make equivalent to the condition holds along the same runs. -/
theorem along_congr (h : M.Outline C I T)
    (hiff : ∀ past l, Holds I T (M.system.log past) (M.system.after past) →
      (D past (M.system.after past) l ↔ C past (M.system.after past) l)) :
    M.system.Along D ls ↔ M.system.Along C ls := by
  induction ls using List.reverseRecOn with
  | nil => exact Iff.rfl
  | append_singleton ls l ih =>
    rw [System.along_snoc, System.along_snoc, ih]
    exact and_congr_right fun hC => hiff ls l (h.holds hC)

end Outline

end Tasks

end Transition
