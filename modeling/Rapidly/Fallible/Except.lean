import Mathlib.Init

/-!
# Computations that may fail

How a computation in `Except` came to its value: a `do` block that returns has passed every
step on the way, and each lemma of the first part takes one step off.

The second part compares two runs. They are `Alike` if they fail with the same error or return
related values; a relation that each step keeps holds between two whole computations.
-/

namespace Fallible

universe u v

variable {ε : Type u} {α β α' β' γ : Type v} {x : Except ε α} {b : β} {e : ε}

/-- A sequence returns when its first part does and the rest does from there. -/
theorem bind_eq_ok {f : α → Except ε β} : x >>= f = .ok b ↔ ∃ a, x = .ok a ∧ f a = .ok b := by
  rcases x with e | a
  · exact ⟨nofun, fun ⟨_, h, _⟩ => nomatch h⟩
  · exact ⟨fun h => ⟨a, rfl, h⟩, fun ⟨_, h, hf⟩ => Except.ok.inj h ▸ hf⟩

/-- A sequence fails when its first part does, or when the rest does from there. -/
theorem bind_eq_error {f : α → Except ε β} :
    x >>= f = .error e ↔ x = .error e ∨ ∃ a, x = .ok a ∧ f a = .error e := by
  rcases x with e' | a
  · exact ⟨fun h => .inl (congrArg Except.error (Except.error.inj h)), fun h =>
      h.elim (fun h => by rw [Except.error.inj h]; rfl) fun ⟨_, h, _⟩ => nomatch h⟩
  · exact ⟨fun h => .inr ⟨a, rfl, h⟩, fun h =>
      h.elim nofun fun ⟨_, h, hf⟩ => Except.ok.inj h ▸ hf⟩

theorem ok_bind (a : α) (f : α → Except ε β) : Except.ok a >>= f = f a := rfl

theorem map_eq_ok {f : α → β} : f <$> x = .ok b ↔ ∃ a, x = .ok a ∧ f a = b := by
  rcases x with e | a
  · exact ⟨nofun, fun ⟨_, h, _⟩ => nomatch h⟩
  · exact ⟨fun h => ⟨a, rfl, Except.ok.inj h⟩, fun ⟨_, h, hf⟩ => by
      rw [Except.ok.inj h, ← hf]; rfl⟩

theorem dite_eq_ok {c : Prop} [Decidable c] {f : c → β} :
    (if h : c then .ok (f h) else .error e : Except ε β) = .ok b ↔ ∃ h, f h = b := by
  split
  next h => exact ⟨fun hb => ⟨h, Except.ok.inj hb⟩, fun ⟨_, hb⟩ => congrArg _ hb⟩
  next h => exact ⟨nofun, fun ⟨hc, _⟩ => absurd hc h⟩

/-! ### Two runs -/

/-- Two computations fail with the same error, or return related values. -/
def Alike (R : α → β → Prop) : Except ε α → Except ε β → Prop
  | .ok a, .ok b => R a b
  | .error e, .error e' => e = e'
  | _, _ => False

section Alike

variable {R : α → β → Prop} {S : α' → β' → Prop} {y : Except ε β}

theorem Alike.bind {f : α → Except ε α'} {g : β → Except ε β'} (h : Alike R x y)
    (hfg : ∀ a b, R a b → Alike S (f a) (g b)) : Alike S (x >>= f) (y >>= g) := by
  match x, y, h with
  | .ok a, .ok b, h => exact hfg a b h
  | .error e, .error _, h => exact h

/-- A loop that keeps a relation in each round keeps it altogether. -/
theorem Alike.foldlM {ι : Type*} {f : α → ι → Except ε α} {g : β → ι → Except ε β} {l : List ι}
    {a : α} (hab : R a b)
    (hfg : ∀ i ∈ l, ∀ a b, R a b → Alike R (f a i) (g b i)) :
    Alike R (l.foldlM f a) (l.foldlM g b) := by
  induction l generalizing a b with
  | nil => exact hab
  | cons i l ih =>
    rw [List.foldlM_cons, List.foldlM_cons]
    have hfirst := hfg i List.mem_cons_self a b hab
    refine hfirst.bind fun a' b' hab' => ih hab' fun j hj => ?_
    exact hfg j (List.mem_cons_of_mem i hj)

end Alike

end Fallible
