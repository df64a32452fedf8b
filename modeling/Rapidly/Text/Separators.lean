import Mathlib.Data.List.Basic

/-!
# Separators

A list that is put together from two parts with a separator between them determines the parts if
the separator does not occur in the first one, or not in the second one.

A list that is split at its separators keeps its components when it is written out element by
element without making or losing a separator (`splitOnP_flatMap`). What is done to the components
of a list does to its length what it does to theirs (`length_intercalate_map`).
-/

namespace List

variable {α : Type} {a : α} {x y x' y' : List α}

theorem append_cons_inj_left (hx : a ∉ x) (hx' : a ∉ x') :
    x ++ a :: y = x' ++ a :: y' ↔ x = x' ∧ y = y' := by
  constructor
  · intro h
    induction x generalizing x' with
    | nil =>
      cases x' with
      | nil => exact ⟨rfl, (List.cons.inj h).2⟩
      | cons b x' =>
        have hb : a = b := (List.cons.inj h).1
        exact absurd List.mem_cons_self (hb ▸ hx')
    | cons c x ih =>
      cases x' with
      | nil =>
        have hc : c = a := (List.cons.inj h).1
        exact absurd List.mem_cons_self (hc ▸ hx)
      | cons b x' =>
        obtain ⟨rfl, hrest⟩ := List.cons.inj h
        have hsame := ih (fun hmem => hx (List.mem_cons_of_mem _ hmem))
          (fun hmem => hx' (List.mem_cons_of_mem _ hmem)) hrest
        exact ⟨congrArg _ hsame.1, hsame.2⟩
  · rintro ⟨rfl, rfl⟩
    rfl

theorem append_cons_inj_right (hy : a ∉ y) (hy' : a ∉ y') :
    x ++ a :: y = x' ++ a :: y' ↔ x = x' ∧ y = y' := by
  have hreverse (x y : List α) : (x ++ a :: y).reverse = y.reverse ++ a :: x.reverse := by
    rw [List.reverse_append, List.reverse_cons, List.append_assoc, List.singleton_append]
  rw [← List.reverse_inj, hreverse, hreverse, append_cons_inj_left, List.reverse_inj,
    List.reverse_inj, and_comm]
  · rwa [List.mem_reverse]
  · rwa [List.mem_reverse]

/-- A prefix with a separator has all that stands in front of the first one. -/
theorem append_cons_prefix_iff (hx : a ∉ x) (hx' : a ∉ x') :
    x ++ a :: y <+: x' ++ a :: y' ↔ x = x' ∧ y <+: y' := by
  constructor
  · rintro ⟨rest, h⟩
    rw [append_assoc, cons_append, append_cons_inj_left hx hx'] at h
    exact ⟨h.1, rest, h.2⟩
  · rintro ⟨rfl, rest, rfl⟩
    exact ⟨rest, by rw [append_assoc, cons_append]⟩

/-- A prefix without a separator ends in front of the first one. -/
theorem prefix_of_prefix_append_cons (hx : a ∉ x) (h : x <+: x' ++ a :: y') : x <+: x' := by
  obtain ⟨rest, h⟩ := h
  obtain ⟨more, rfl, -⟩ | ⟨more, hx', hrest⟩ := append_eq_append_iff.mp h
  · exact ⟨more, rfl⟩
  · cases more with
    | nil => exact ⟨[], by rw [append_nil, hx', append_nil]⟩
    | cons b more =>
      rw [cons_append, cons.injEq] at hrest
      rw [hx', ← hrest.1] at hx
      exact absurd (mem_append_right _ mem_cons_self) hx

/-! ### Components -/

variable {β : Type} {p : α → Bool} {xs l : List α} {ls : List (List α)}

theorem splitOnP_append {front : List α} (h : ∀ a ∈ front, p a = false) (xs : List α) :
    (front ++ xs).splitOnP p = (xs.splitOnP p).modifyHead (front ++ ·) := by
  induction front with
  | nil =>
    cases hsplit : xs.splitOnP p with
    | nil => exact absurd hsplit (splitOnP_ne_nil p xs)
    | cons l ls => rw [nil_append, hsplit, modifyHead_cons, nil_append]
  | cons a front ih =>
    obtain ⟨ha, hfront⟩ := forall_mem_cons.mp h
    rw [cons_append, splitOnP_cons_eq_if_modifyHead, if_neg (Bool.eq_false_iff.mp ha), ih hfront]
    cases xs.splitOnP p with
    | nil => rfl
    | cons l ls => rfl

/-- A list is written out element by element, a separator as a separator. -/
theorem splitOnP_flatMap {q : β → Bool} {f : α → List β} (hsep : ∀ a, p a → ∃ b, f a = [b] ∧ q b)
    (hne : ∀ a, p a = false → ∀ b ∈ f a, q b = false) (xs : List α) :
    (xs.flatMap f).splitOnP q = (xs.splitOnP p).map (flatMap f) := by
  induction xs with
  | nil => rfl
  | cons a xs ih =>
    rw [flatMap_cons, splitOnP_cons_eq_if_modifyHead]
    cases ha : p a with
    | true =>
      obtain ⟨b, hb, hq⟩ := hsep a ha
      rw [hb, singleton_append, splitOnP_cons_eq_if_modifyHead, if_pos hq, ih, if_pos rfl, map_cons,
        flatMap_nil]
    | false =>
      rw [splitOnP_append (hne a ha), ih, if_neg Bool.false_ne_true]
      cases xs.splitOnP p with
      | nil => rfl
      | cons l ls => rw [modifyHead_cons, map_cons, modifyHead_cons, map_cons, flatMap_cons]

theorem splitOnP_map (p : β → Bool) (f : α → β) (xs : List α) :
    (xs.map f).splitOnP p = (xs.splitOnP fun a => p (f a)).map (map f) := by
  have hlists : flatMap (fun a => [f a]) = map f := funext fun _ => map_eq_flatMap.symm
  rw [← hlists]
  exact splitOnP_flatMap (fun a ha => ⟨f a, rfl, ha⟩)
    (fun a ha b hb => mem_singleton.mp hb ▸ ha) xs

theorem mem_and_not_of_mem_splitOnP (hl : l ∈ xs.splitOnP p) : ∀ a ∈ l, a ∈ xs ∧ p a = false := by
  induction xs generalizing l with
  | nil =>
    obtain rfl := mem_singleton.mp hl
    exact fun a ha => absurd ha not_mem_nil
  | cons b xs ih =>
    have hrest {l : List α} (hl : l ∈ xs.splitOnP p) : ∀ a ∈ l, a ∈ b :: xs ∧ p a = false :=
      fun a ha => ⟨mem_cons_of_mem b (ih hl a ha).1, (ih hl a ha).2⟩
    rw [splitOnP_cons_eq_if_modifyHead] at hl
    split at hl
    · obtain rfl | hl := mem_cons.mp hl
      · exact fun a ha => absurd ha not_mem_nil
      · exact hrest hl
    next hb =>
      cases hsplit : xs.splitOnP p with
      | nil => exact absurd hsplit (splitOnP_ne_nil p xs)
      | cons first others =>
        rw [hsplit, modifyHead_cons] at hl
        obtain rfl | hl := mem_cons.mp hl
        · intro a ha
          obtain rfl | ha := mem_cons.mp ha
          · exact ⟨mem_cons_self, Bool.eq_false_iff.mpr hb⟩
          · exact hrest (hsplit ▸ mem_cons_self) a ha
        · exact hrest (hsplit ▸ mem_cons_of_mem first hl)

theorem splitOnP_intercalate (ha : p a) (hls : ∀ l ∈ ls, ∀ b ∈ l, p b = false) (hne : ls ≠ []) :
    ([a].intercalate ls).splitOnP p = ls := by
  induction ls with
  | nil => exact absurd rfl hne
  | cons l ls ih =>
    obtain ⟨hl, hls⟩ := forall_mem_cons.mp hls
    cases ls with
    | nil => rw [intercalate_singleton, splitOnP_eq_singleton hl]
    | cons l' ls =>
      rw [intercalate_cons_cons, append_assoc, singleton_append,
        splitOnP_append_cons_of_forall_mem hl a ha, ih hls (cons_ne_nil l' ls)]

theorem mem_intercalate_singleton {b : α} (hb : b ∈ [a].intercalate ls) :
    b = a ∨ ∃ l ∈ ls, b ∈ l := by
  induction ls with
  | nil => exact absurd hb not_mem_nil
  | cons l ls ih =>
    cases ls with
    | nil =>
      rw [intercalate_singleton] at hb
      exact .inr ⟨l, mem_singleton_self l, hb⟩
    | cons l' ls =>
      rw [intercalate_cons_cons, append_assoc, mem_append, singleton_append, mem_cons] at hb
      obtain hb | rfl | hb := hb
      · exact .inr ⟨l, mem_cons_self, hb⟩
      · exact .inl rfl
      · obtain rfl | ⟨l'', hl'', hb⟩ := ih hb
        · exact .inl rfl
        · exact .inr ⟨l'', mem_cons_of_mem l hl'', hb⟩

theorem length_intercalate_splitOnP (xs : List α) :
    ([a].intercalate (xs.splitOnP p)).length = xs.length := by
  induction xs with
  | nil => rfl
  | cons b xs ih =>
    rw [splitOnP_cons_eq_if_modifyHead, length_cons, ← ih]
    cases hsplit : xs.splitOnP p with
    | nil => exact absurd hsplit (splitOnP_ne_nil p xs)
    | cons l ls =>
      split
      · rw [intercalate_cons_cons]
        rfl
      · rw [modifyHead_cons]
        cases ls with
        | nil =>
          rw [intercalate_singleton, intercalate_singleton]
          rfl
        | cons l' ls =>
          rw [intercalate_cons_cons, intercalate_cons_cons]
          rfl

theorem length_intercalate_map {f : List α → List α} {r : List α → Bool}
    (hf : ∀ l, (f l).length = l.length + if r l then 1 else 0) (ls : List (List α)) :
    ([a].intercalate (ls.map f)).length = ([a].intercalate ls).length + ls.countP r := by
  induction ls with
  | nil => rfl
  | cons l ls ih =>
    rw [countP_cons]
    cases ls with
    | nil =>
      rw [map_singleton, intercalate_singleton, intercalate_singleton, hf, countP_nil, Nat.zero_add]
    | cons l' ls =>
      rw [map_cons] at ih
      rw [map_cons, map_cons, intercalate_cons_cons, intercalate_cons_cons]
      simp only [length_append, length_singleton]
      rw [ih, hf]
      omega

theorem flatMap_intercalate_singleton (f : α → List β) (ls : List (List α)) :
    ([a].intercalate ls).flatMap f = (f a).intercalate (ls.map (flatMap f)) := by
  induction ls with
  | nil => rfl
  | cons l ls ih =>
    cases ls with
    | nil => rw [map_singleton, intercalate_singleton, intercalate_singleton]
    | cons l' ls =>
      rw [map_cons] at ih
      rw [map_cons, map_cons, intercalate_cons_cons, intercalate_cons_cons, flatMap_append,
        flatMap_append, flatMap_singleton, ih]

end List
