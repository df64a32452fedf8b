import Mathlib.Data.List.DropRight

/-!
# Trimming

A list without the elements at both ends that have a property, and how it is related to the
positions of the whole list: what stands in front of an element of the trimmed list is what stands
in front of it in the whole list, trimmed at the front (`trim_append_cons`).
-/

namespace List

universe u

variable {α : Type u} {p : α → Bool} {c : α} {l l' pre post : List α}

/-- The list without the elements at its ends that have the property. -/
def trim (p : α → Bool) (l : List α) : List α := (l.dropWhile p).rdropWhile p

theorem dropWhile_append_cons (hc : p c = false) (l l' : List α) :
    (l ++ c :: l').dropWhile p = l.dropWhile p ++ c :: l' := by
  rw [List.dropWhile_append]
  split
  next h =>
    rw [List.isEmpty_iff.mp h, List.dropWhile_cons_of_neg (by rw [hc]; exact Bool.false_ne_true)]
    rfl
  next => rfl

theorem rdropWhile_append_cons (hc : p c = false) (l l' : List α) :
    (l ++ c :: l').rdropWhile p = l ++ c :: l'.rdropWhile p := by
  have hreverse : (l ++ c :: l').reverse = l'.reverse ++ c :: l.reverse := by simp
  rw [List.rdropWhile, hreverse, dropWhile_append_cons hc, List.rdropWhile]
  simp

theorem trim_append_cons (hc : p c = false) (l l' : List α) :
    (l ++ c :: l').trim p = l.dropWhile p ++ c :: l'.rdropWhile p := by
  rw [trim, dropWhile_append_cons hc, rdropWhile_append_cons hc]

theorem exists_eq_append_trim (p : α → Bool) (l : List α) :
    ∃ front back, l = front ++ (l.trim p ++ back) ∧ (∀ c ∈ front, p c) ∧ ∀ c ∈ back, p c := by
  refine ⟨l.takeWhile p, (l.dropWhile p).rtakeWhile p, ?_, fun c => List.mem_takeWhile_imp,
    fun c => List.mem_rtakeWhile_imp⟩
  rw [trim, List.rdropWhile_append_rtakeWhile, List.takeWhile_append_dropWhile]

theorem trim_prefix (p : α → Bool) (l : List α) : l.trim p <+: l.dropWhile p :=
  List.rdropWhile_prefix p _

theorem head_trim (hc : c ∈ (l.trim p).head?) : p c = false := by
  have htrimmed := trim_prefix p l
  cases hdrop : l.dropWhile p with
  | nil =>
    rw [hdrop, List.prefix_nil] at htrimmed
    rw [htrimmed] at hc
    cases hc
  | cons d rest =>
    have hd := List.head?_dropWhile_not p l
    rw [hdrop] at hd
    obtain ⟨back, hback⟩ := htrimmed
    cases htrim : l.trim p with
    | nil =>
      rw [htrim] at hc
      cases hc
    | cons e rest' =>
      rw [htrim] at hc
      rw [htrim, hdrop] at hback
      obtain rfl := Option.some_inj.mp hc
      obtain ⟨rfl, -⟩ := List.cons.inj hback
      simpa using hd

theorem getLast_trim (hc : c ∈ (l.trim p).getLast?) : p c = false := by
  have hne : l.trim p ≠ [] := fun hnil => by
    rw [hnil] at hc
    cases hc
  rw [Option.mem_def, List.getLast?_eq_some_getLast hne] at hc
  rw [← Option.some_inj.mp hc]
  exact Bool.eq_false_iff.mpr (List.rdropWhile_last_not p _ hne)

theorem trim_eq_self_iff : l.trim p = l ↔
    (∀ c ∈ l.head?, p c = false) ∧ ∀ c ∈ l.getLast?, p c = false := by
  constructor
  · intro h
    rw [← h]
    exact ⟨fun c => head_trim, fun c => getLast_trim⟩
  · rintro ⟨hhead, hlast⟩
    have hdrop : l.dropWhile p = l := by
      cases l with
      | nil => rfl
      | cons d l =>
        exact List.dropWhile_cons_of_neg (by rw [hhead d rfl]; exact Bool.false_ne_true)
    rw [trim, hdrop, List.rdropWhile_eq_self_iff]
    intro hne
    exact Bool.eq_false_iff.mp (hlast _ (List.getLast?_eq_some_getLast hne))

theorem trim_eq_self_of_length_le (h : l.length ≤ (l.trim p).length) : l.trim p = l := by
  obtain ⟨front, back, hl, -, -⟩ := exists_eq_append_trim p l
  have hlength := congrArg List.length hl
  rw [List.length_append, List.length_append] at hlength
  obtain rfl : front = [] := List.length_eq_zero_iff.mp (by omega)
  obtain rfl : back = [] := List.length_eq_zero_iff.mp (by omega)
  rw [List.append_nil, List.nil_append] at hl
  exact hl.symm

/-- What stands in front of an element, in the trimmed list. -/
theorem exists_of_trim_eq (h : l.trim p = pre ++ c :: post) :
    ∃ pre' back, l = pre' ++ c :: (post ++ back) ∧ pre'.dropWhile p = pre := by
  obtain ⟨front, back, hl, hfront, -⟩ := exists_eq_append_trim p l
  refine ⟨front ++ pre, back, ?_, ?_⟩
  · rw [h] at hl
    rw [hl]
    simp
  · rw [List.dropWhile_append_of_pos hfront]
    cases pre with
    | nil => rfl
    | cons d pre =>
      refine List.dropWhile_cons_of_neg ?_
      rw [head_trim (l := l) (p := p) (c := d) (by rw [h]; rfl)]
      exact Bool.false_ne_true

/-! ### Cutting -/

theorem infix_take_iff {n : ℕ} : l' <:+: l.take n ↔
    ∃ pre post, l = pre ++ (l' ++ post) ∧ pre.length + l'.length ≤ n := by
  constructor
  · rintro ⟨pre, post, h⟩
    refine ⟨pre, post ++ l.drop n, ?_, ?_⟩
    · rw [← List.append_assoc l', ← List.append_assoc pre, ← List.append_assoc pre, h,
        List.take_append_drop]
    · have hlength := congrArg List.length h
      rw [List.length_append, List.length_append, List.length_take] at hlength
      omega
  · rintro ⟨pre, post, rfl, hn⟩
    have hprefix : pre ++ l' <+: (pre ++ (l' ++ post)).take n := by
      rw [List.prefix_take_iff, List.length_append]
      exact ⟨⟨post, List.append_assoc ..⟩, hn⟩
    obtain ⟨rest, hrest⟩ := hprefix
    exact ⟨pre, rest, hrest⟩

end List
