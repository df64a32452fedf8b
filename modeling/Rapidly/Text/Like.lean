import Mathlib.Data.List.Infix

/-!
# Patterns of `LIKE`

The patterns of SQL's `LIKE`: `%` stands for any text, `_` for any character, and a character
behind the escape character for itself. A pattern is read into `Token`s first (`tokens`), which
fails when nothing follows an escape character; `Matches` says which texts the tokens fit.
-/

namespace Text.Like

inductive Token where
  | literal (c : Char)
  | anyChar
  | anyText
deriving DecidableEq

/-- The tokens of a pattern; behind an escape character at the end there is none. -/
def tokens (escape : Char) : List Char → Option (List Token)
  | [] => some []
  | [c] =>
    if c = escape then none
    else some [if c = '%' then .anyText else if c = '_' then .anyChar else .literal c]
  | c :: d :: rest =>
    if c = escape then (tokens escape rest).map (.literal d :: ·)
    else
      (tokens escape (d :: rest)).map
        ((if c = '%' then .anyText else if c = '_' then .anyChar else .literal c) :: ·)

/-- The text fits the tokens. -/
def Matches : List Token → List Char → Prop
  | [], text => text = []
  | .literal c :: ts, text => ∃ rest, text = c :: rest ∧ Matches ts rest
  | .anyChar :: ts, text => ∃ c rest, text = c :: rest ∧ Matches ts rest
  | .anyText :: ts, text => ∃ skipped rest, text = skipped ++ rest ∧ Matches ts rest

/-- `Matches`, by trying out every rest of the text. -/
def fits : List Token → List Char → Bool
  | [], text => text.isEmpty
  | .literal c :: ts, text => text.head? = some c && fits ts text.tail
  | .anyChar :: ts, text => text.head?.isSome && fits ts text.tail
  | .anyText :: ts, text => text.tails.any (fits ts)

/-- `text LIKE pattern ESCAPE escape`; `none` is the error for a pattern that ends with an escape
character. -/
def like (escape : Char) (pattern text : List Char) : Option Bool :=
  (tokens escape pattern).map (fits · text)

variable {escape c : Char} {ts : List Token} {s text : List Char}

theorem fits_iff : fits ts text ↔ Matches ts text := by
  induction ts generalizing text with
  | nil => rw [fits, Matches, List.isEmpty_iff]
  | cons t ts ih =>
    cases t with
    | literal c =>
      rw [fits, Matches]
      cases text with
      | nil => simp
      | cons d text =>
        rw [List.head?_cons, List.tail_cons, Bool.and_eq_true, decide_eq_true_iff, ih]
        constructor
        · rintro ⟨heq, hfits⟩
          exact ⟨text, congrArg (· :: text) (Option.some_inj.mp heq), hfits⟩
        · rintro ⟨rest, heq, hfits⟩
          obtain ⟨rfl, rfl⟩ := List.cons.inj heq
          exact ⟨rfl, hfits⟩
    | anyChar =>
      rw [fits, Matches]
      cases text with
      | nil => simp
      | cons d text => simp [ih]
    | anyText =>
      rw [fits, Matches, List.any_eq_true]
      constructor
      · rintro ⟨rest, hrest, hfits⟩
        obtain ⟨skipped, rfl⟩ := (List.mem_tails _ _).mp hrest
        exact ⟨skipped, rest, rfl, ih.mp hfits⟩
      · rintro ⟨skipped, rest, rfl, hfits⟩
        exact ⟨rest, (List.mem_tails _ _).mpr (List.suffix_append skipped rest), ih.mpr hfits⟩

/-! ### Reading a pattern -/

/-- A character that means nothing by itself. -/
def Plain (escape c : Char) : Prop := c ≠ escape ∧ c ≠ '%' ∧ c ≠ '_'

instance (escape c : Char) : Decidable (Plain escape c) := inferInstanceAs (Decidable (_ ∧ _))

theorem tokens_escape_cons (c : Char) (rest : List Char) :
    tokens escape (escape :: c :: rest) = (tokens escape rest).map (.literal c :: ·) := by
  rw [tokens, if_pos rfl]

theorem tokens_cons (h : c ≠ escape) (rest : List Char) : tokens escape (c :: rest) =
    (tokens escape rest).map
      ((if c = '%' then .anyText else if c = '_' then .anyChar else .literal c) :: ·) := by
  cases rest with
  | nil => simp [tokens, h]
  | cons d rest => rw [tokens, if_neg h]

theorem tokens_plain_cons (h : Plain escape c) (rest : List Char) :
    tokens escape (c :: rest) = (tokens escape rest).map (.literal c :: ·) := by
  rw [tokens_cons h.1, if_neg h.2.1, if_neg h.2.2]

theorem tokens_percent_cons (h : '%' ≠ escape) (rest : List Char) :
    tokens escape ('%' :: rest) = (tokens escape rest).map (.anyText :: ·) := by
  rw [tokens_cons h, if_pos rfl]

/-! ### Literal text -/

theorem matches_literals_append : Matches (s.map .literal ++ ts) text ↔
    ∃ rest, text = s ++ rest ∧ Matches ts rest := by
  induction s generalizing text with
  | nil => simp
  | cons c s ih =>
    rw [List.map_cons, List.cons_append, Matches]
    constructor
    · rintro ⟨tail, rfl, htail⟩
      obtain ⟨rest, rfl, hrest⟩ := ih.mp htail
      exact ⟨rest, rfl, hrest⟩
    · rintro ⟨rest, rfl, hrest⟩
      exact ⟨s ++ rest, rfl, ih.mpr ⟨rest, rfl, hrest⟩⟩

/-- Any text in front of literal characters and behind them: they occur. -/
theorem matches_infix :
    Matches (.anyText :: (s.map .literal ++ [.anyText])) text ↔ s <:+: text := by
  rw [Matches]
  constructor
  · rintro ⟨front, middle, rfl, h⟩
    obtain ⟨rest, rfl, -⟩ := matches_literals_append.mp h
    exact ⟨front, rest, List.append_assoc ..⟩
  · rintro ⟨front, back, rfl⟩
    refine ⟨front, s ++ back, List.append_assoc .., matches_literals_append.mpr ⟨back, rfl, ?_⟩⟩
    exact ⟨back, [], (List.append_nil back).symm, rfl⟩

end Text.Like
