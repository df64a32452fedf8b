import Mathlib.Init

/-!
# Traversals

A list is computed element by element, and the whole fails where an element does: what the results
of `List.mapM` are, when there are some, and where an element of them comes from.
-/

namespace Fallible

universe u v w

section Monad

variable {m : Type u → Type v} [Monad m] [LawfulMonad m] {α : Type w} {β : Type u} {f : α → m β}
  {g : α → β} {l : List α}

theorem mapM_eq_pure_map (h : ∀ a ∈ l, f a = pure (g a)) : l.mapM f = pure (l.map g) := by
  induction l with
  | nil => rfl
  | cons a l ih =>
    obtain ⟨ha, hl⟩ := List.forall_mem_cons.mp h
    rw [List.mapM_cons, ha, pure_bind, ih hl, pure_bind, List.map_cons]

end Monad

section Option

variable {α : Type w} {β : Type u} {f : α → Option β} {l : List α} {l' : List β}

theorem mapM_cons_eq_some_iff {a : α} : (a :: l).mapM f = some l' ↔
    ∃ b bs, f a = some b ∧ l.mapM f = some bs ∧ l' = b :: bs := by
  rw [List.mapM_cons]
  constructor
  · intro h
    obtain ⟨b, hb, h⟩ := Option.bind_eq_some_iff.mp h
    obtain ⟨bs, hbs, h⟩ := Option.bind_eq_some_iff.mp h
    exact ⟨b, bs, hb, hbs, (Option.some.inj h).symm⟩
  · rintro ⟨b, bs, hb, hbs, rfl⟩
    rw [hb, hbs]
    rfl

theorem mapM_eq_some_iff : l.mapM f = some l' ↔ l.map f = l'.map some := by
  induction l generalizing l' with
  | nil =>
    rw [List.mapM_nil, List.map_nil, eq_comm (a := []), List.map_eq_nil_iff]
    exact Option.some_inj.trans eq_comm
  | cons a l ih =>
    rw [mapM_cons_eq_some_iff, List.map_cons]
    constructor
    · rintro ⟨b, bs, hb, hbs, rfl⟩
      rw [hb, ih.mp hbs, List.map_cons]
    · intro h
      cases l' with
      | nil => cases h
      | cons b bs =>
        rw [List.map_cons, List.cons.injEq] at h
        exact ⟨b, bs, h.1, ih.mpr h.2, rfl⟩

theorem isSome_mapM_iff (l : List α) : (l.mapM f).isSome ↔ ∀ a ∈ l, (f a).isSome := by
  induction l with
  | nil => exact iff_of_true rfl fun _ h => absurd h List.not_mem_nil
  | cons a l ih =>
    simp only [Option.isSome_iff_exists] at ih ⊢
    simp only [mapM_cons_eq_some_iff, List.forall_mem_cons, ← ih]
    constructor
    · rintro ⟨_, b, bs, hb, hbs, -⟩
      exact ⟨⟨b, hb⟩, bs, hbs⟩
    · rintro ⟨⟨b, hb⟩, bs, hbs⟩
      exact ⟨_, b, bs, hb, hbs, rfl⟩

theorem exists_of_mem_mapM (h : l.mapM f = some l') : ∀ b ∈ l', ∃ a ∈ l, f a = some b := by
  induction l generalizing l' with
  | nil =>
    rw [List.mapM_nil] at h
    rw [← Option.some.inj h]
    exact fun b hb => absurd hb List.not_mem_nil
  | cons a l ih =>
    obtain ⟨b, bs, hb, hbs, rfl⟩ := mapM_cons_eq_some_iff.mp h
    refine List.forall_mem_cons.mpr ⟨⟨a, List.mem_cons_self, hb⟩, fun b' hb' => ?_⟩
    obtain ⟨a', ha', hf⟩ := ih hbs b' hb'
    exact ⟨a', List.mem_cons_of_mem a ha', hf⟩

end Option

end Fallible
