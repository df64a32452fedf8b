import Mathlib.Data.List.Basic

/-!
# Patterns

Regular expressions that describe a text from its beginning to its end as a row of fixed pieces
and groups, where a group is a row of repeated characters of a class. The matcher tries the longest
repetitions first and goes back where the rest does not match.

`mem_ways_iff` says what a way to match is, without the order in which they are tried: where there
is one way only, the order does not matter (`captures_eq_some`).
-/

namespace Text

/-- Characters of a class, repeated: `[…]{least,most}`, or `[…]{least,}` without a `most`. -/
structure Repeated where
  accepts : Char → Bool
  least : Nat
  most : Option Nat

/-- `[…]` -/
def one (accepts : Char → Bool) : Repeated := ⟨accepts, 1, some 1⟩

/-- `[…]+` -/
def many (accepts : Char → Bool) : Repeated := ⟨accepts, 1, none⟩

inductive Piece where
  /-- The text itself. -/
  | fixed (text : List Char)
  /-- A group that captures what it matches. -/
  | group (items : List Repeated)

abbrev Pattern := List Piece

/-! ### The matcher -/

namespace Repeated

/-- How many characters at the front may be taken. -/
def limit (r : Repeated) (text : List Char) : Nat :=
  let run := (text.takeWhile r.accepts).length
  match r.most with
  | none => run
  | some most => min run most

/-- The ways to take characters from the front, the longest one first. -/
def ways (r : Repeated) (text : List Char) : List (List Char × List Char) :=
  ((List.range' r.least (r.limit text + 1 - r.least)).reverse).map fun n => text.splitAt n

/-- The text is a repetition. -/
def Matches (r : Repeated) (taken : List Char) : Prop :=
  (∀ c ∈ taken, r.accepts c = true) ∧ r.least ≤ taken.length ∧ ∀ m ∈ r.most, taken.length ≤ m

instance (r : Repeated) (taken : List Char) : Decidable (r.Matches taken) :=
  decidable_of_iff (taken.all r.accepts = true ∧ r.least ≤ taken.length ∧
    ∀ m ∈ r.most, taken.length ≤ m) (and_congr_left' List.all_eq_true)

end Repeated

/-- The ways to match a row of repetitions at the front. -/
def waysInGroup : List Repeated → List Char → List (List Char × List Char)
  | [], text => [([], text)]
  | r :: items, text =>
    (r.ways text).flatMap fun way =>
      (waysInGroup items way.2).map fun next => (way.1 ++ next.1, next.2)

/-- The captures of the ways to match the whole text. -/
def ways : Pattern → List Char → List (List (List Char))
  | [], text => if text = [] then [[]] else []
  | .fixed piece :: p, text =>
    if piece.isPrefixOf text then ways p (text.drop piece.length) else []
  | .group items :: p, text =>
    (waysInGroup items text).flatMap fun way => (ways p way.2).map (way.1 :: ·)

/-- `text.match(p)`, without the whole match. -/
def captures (p : Pattern) (text : List Char) : Option (List (List Char)) := (ways p text).head?

/-! ### What a way is -/

/-- The text is a row of repetitions. -/
def GroupMatches : List Repeated → List Char → Prop
  | [], text => text = []
  | r :: items, text => ∃ taken rest, text = taken ++ rest ∧ r.Matches taken ∧
      GroupMatches items rest

/-- The text matches with these captures. -/
def Fits : Pattern → List (List Char) → List Char → Prop
  | [], found, text => found = [] ∧ text = []
  | .fixed piece :: p, found, text => ∃ rest, text = piece ++ rest ∧ Fits p found rest
  | .group items :: p, found, text => ∃ taken more rest, found = taken :: more ∧
      text = taken ++ rest ∧ GroupMatches items taken ∧ Fits p more rest

/-- The pattern with the captures in the place of its groups. -/
def fill : Pattern → List (List Char) → List Char
  | [], _ => []
  | .fixed piece :: p, found => piece ++ fill p found
  | .group _ :: p, found => found.headD [] ++ fill p found.tail

/-- The captures are what the groups match. -/
def Admits : Pattern → List (List Char) → Prop
  | [], found => found = []
  | .fixed _ :: p, found => Admits p found
  | .group items :: p, found => ∃ taken more, found = taken :: more ∧ GroupMatches items taken ∧
      Admits p more

section Ways

variable {r : Repeated} {items : List Repeated} {p : Pattern} {text : List Char}
  {found : List (List Char)}

theorem Repeated.le_limit_iff {n : Nat} :
    n ≤ r.limit text ↔ n ≤ (text.takeWhile r.accepts).length ∧ ∀ m ∈ r.most, n ≤ m := by
  rw [Repeated.limit]
  cases r.most with
  | none => simp
  | some most => simp [Nat.le_min]

/-- As many characters as the class accepts at the front can be taken, and no more. -/
theorem Repeated.le_takeWhile_iff {n : Nat} :
    n ≤ (text.takeWhile r.accepts).length ↔
      n ≤ text.length ∧ ∀ c ∈ text.take n, r.accepts c = true := by
  constructor
  · intro h
    have hfront : text.take n = (text.takeWhile r.accepts).take n := by
      rw [List.prefix_iff_eq_take.mp (List.takeWhile_prefix r.accepts), List.take_take,
        Nat.min_eq_left h]
    refine ⟨Nat.le_trans h (List.takeWhile_prefix r.accepts).length_le, ?_⟩
    intro c hc
    rw [hfront] at hc
    exact List.all_eq_true.mp List.all_takeWhile c (List.mem_of_mem_take hc)
  · rintro ⟨hn, haccepts⟩
    rw [← List.take_append_drop n text, List.takeWhile_append_of_pos haccepts, List.length_append,
      List.length_take, Nat.min_eq_left hn]
    exact Nat.le_add_right _ _

theorem Repeated.mem_ways_iff {way : List Char × List Char} :
    way ∈ r.ways text ↔ text = way.1 ++ way.2 ∧ r.Matches way.1 := by
  obtain ⟨taken, rest⟩ := way
  have hrange (n : Nat) : n ∈ List.range' r.least (r.limit text + 1 - r.least) ↔
      r.least ≤ n ∧ (n ≤ text.length ∧ ∀ c ∈ text.take n, r.accepts c = true) ∧
        ∀ m ∈ r.most, n ≤ m := by
    rw [← Repeated.le_takeWhile_iff, ← Repeated.le_limit_iff, List.mem_range'_1]
    omega
  simp only [Repeated.ways, List.mem_map, List.mem_reverse, hrange, List.splitAt_eq,
    Prod.mk.injEq, Repeated.Matches]
  constructor
  · rintro ⟨n, ⟨hleast, ⟨hn, haccepts⟩, hmost⟩, rfl, rfl⟩
    rw [List.length_take, Nat.min_eq_left hn]
    exact ⟨(List.take_append_drop n text).symm, haccepts, hleast, hmost⟩
  · rintro ⟨rfl, haccepts, hleast, hmost⟩
    refine ⟨taken.length, ⟨hleast, ⟨?_, ?_⟩, hmost⟩, List.take_left, List.drop_left⟩
    · rw [List.length_append]
      exact Nat.le_add_right _ _
    · rwa [List.take_left]

theorem mem_waysInGroup_iff {way : List Char × List Char} :
    way ∈ waysInGroup items text ↔ text = way.1 ++ way.2 ∧ GroupMatches items way.1 := by
  induction items generalizing text way with
  | nil =>
    obtain ⟨taken, rest⟩ := way
    simp only [waysInGroup, List.mem_singleton, Prod.mk.injEq, GroupMatches]
    constructor
    · rintro ⟨rfl, rfl⟩
      exact ⟨rfl, rfl⟩
    · rintro ⟨htext, rfl⟩
      exact ⟨rfl, htext.symm⟩
  | cons r items ih =>
    obtain ⟨taken, rest⟩ := way
    simp only [waysInGroup, List.mem_flatMap, List.mem_map, Repeated.mem_ways_iff, ih,
      Prod.mk.injEq, GroupMatches]
    constructor
    · rintro ⟨first, ⟨rfl, hfirst⟩, next, ⟨hnext, hitems⟩, rfl, rfl⟩
      exact ⟨by rw [hnext, List.append_assoc], first.1, next.1, rfl, hfirst, hitems⟩
    · rintro ⟨rfl, first, next, rfl, hfirst, hitems⟩
      exact ⟨(first, next ++ rest), ⟨List.append_assoc _ _ _, hfirst⟩, (next, rest),
        ⟨rfl, hitems⟩, rfl, rfl⟩

theorem mem_ways_iff : found ∈ ways p text ↔ Fits p found text := by
  induction p generalizing text found with
  | nil =>
    simp only [ways, Fits]
    split <;> simp_all
  | cons piece p ih =>
    cases piece with
    | fixed piece =>
      simp only [ways, Fits]
      split
      case isTrue h =>
        obtain ⟨rest, rfl⟩ := List.isPrefixOf_iff_prefix.mp h
        rw [List.drop_left, ih]
        constructor
        · exact fun hrest => ⟨rest, rfl, hrest⟩
        · rintro ⟨rest', hsame, hrest⟩
          rwa [List.append_cancel_left hsame]
      case isFalse h =>
        constructor
        · exact fun hmem => absurd hmem List.not_mem_nil
        · rintro ⟨rest, rfl, -⟩
          exact absurd (List.isPrefixOf_iff_prefix.mpr (List.prefix_append _ _)) h
    | group items =>
      simp only [ways, Fits, List.mem_flatMap, List.mem_map, mem_waysInGroup_iff, ih]
      constructor
      · rintro ⟨way, ⟨htext, hitems⟩, more, hmore, rfl⟩
        exact ⟨way.1, more, way.2, rfl, htext, hitems, hmore⟩
      · rintro ⟨taken, more, rest, rfl, rfl, hitems, hmore⟩
        exact ⟨(taken, rest), ⟨rfl, hitems⟩, more, hmore, rfl⟩

theorem captures_eq_some (h : Fits p found text)
    (honly : ∀ other, Fits p other text → other = found) : captures p text = some found := by
  have hmem : found ∈ ways p text := mem_ways_iff.mpr h
  rw [captures]
  cases hways : ways p text with
  | nil => exact absurd (hways ▸ hmem) List.not_mem_nil
  | cons first more =>
    have hfirst : first ∈ ways p text := hways ▸ List.mem_cons_self
    rw [List.head?_cons, honly first (mem_ways_iff.mp hfirst)]

theorem captures_eq_none_iff : captures p text = none ↔ ∀ found, ¬Fits p found text := by
  rw [captures, List.head?_eq_none_iff, List.eq_nil_iff_forall_not_mem]
  simp only [mem_ways_iff]

theorem isSome_captures_iff : (captures p text).isSome ↔ ∃ found, Fits p found text := by
  rw [← not_iff_not, Bool.not_eq_true, Option.isSome_eq_false_iff, Option.isNone_iff_eq_none,
    captures_eq_none_iff, not_exists]

theorem fits_iff : Fits p found text ↔ Admits p found ∧ text = fill p found := by
  induction p generalizing text found with
  | nil => exact Iff.rfl
  | cons piece p ih =>
    cases piece with
    | fixed piece =>
      simp only [Fits, Admits, fill, ih]
      constructor
      · rintro ⟨rest, rfl, hadmits, rfl⟩
        exact ⟨hadmits, rfl⟩
      · rintro ⟨hadmits, rfl⟩
        exact ⟨_, rfl, hadmits, rfl⟩
    | group items =>
      simp only [Fits, Admits, fill, ih]
      constructor
      · rintro ⟨taken, more, rest, rfl, rfl, hitems, hadmits, rfl⟩
        exact ⟨⟨taken, more, rfl, hitems, hadmits⟩, rfl⟩
      · rintro ⟨⟨taken, more, rfl, hitems, hadmits⟩, rfl⟩
        exact ⟨taken, more, _, rfl, rfl, hitems, hadmits, rfl⟩

@[simp] theorem groupMatches_singleton {taken : List Char} :
    GroupMatches [r] taken ↔ r.Matches taken := by
  constructor
  · rintro ⟨_, _, rfl, htaken, rfl⟩
    rwa [List.append_nil]
  · exact fun h => ⟨taken, [], (List.append_nil taken).symm, h, rfl⟩

end Ways

end Text
