import Rapidly.Text.Like

/-!
# Literal search

`escape_like` of `core/queries/utils.py`. The three replacements are made one after the other; the
first one is that of the backslash, so that none of the backslashes which the others add is
escaped again (`escapeLike_eq`).

* `like_escapeLike`: a search for the escaped text finds the texts in which it occurs.
-/

namespace Rapidly.Core.Queries

open Text.Like

/-- `value.replace(old, new)` for an `old` of one character. -/
def replace (old : Char) (new : List Char) (value : List Char) : List Char :=
  value.flatMap fun c => if c = old then new else [c]

/-- `escape_like` -/
def escapeLike (value : List Char) : List Char :=
  replace '_' ['\\', '_'] (replace '%' ['\\', '%'] (replace '\\' ['\\', '\\'] value))

/-- What becomes of one character. -/
def escapeChar (c : Char) : List Char := if Plain '\\' c then [c] else ['\\', c]

theorem escapeLike_eq (value : List Char) : escapeLike value = value.flatMap escapeChar := by
  rw [escapeLike, replace, replace, replace, List.flatMap_assoc, List.flatMap_assoc]
  refine List.flatMap_congr fun c _ => ?_
  by_cases hbackslash : c = '\\'
  · subst hbackslash
    decide
  by_cases hpercent : c = '%'
  · subst hpercent
    decide
  by_cases hunderscore : c = '_'
  · subst hunderscore
    decide
  have hplain : Plain '\\' c := ⟨hbackslash, hpercent, hunderscore⟩
  simp [escapeChar, hplain, hbackslash, hpercent, hunderscore]

theorem tokens_escapeLike_append (value rest : List Char) :
    tokens '\\' (escapeLike value ++ rest) =
      (tokens '\\' rest).map (value.map .literal ++ ·) := by
  rw [escapeLike_eq]
  induction value with
  | nil => simp
  | cons c value ih =>
    have hchar : ∀ pattern, tokens '\\' (escapeChar c ++ pattern) =
        (tokens '\\' pattern).map (.literal c :: ·) := by
      intro pattern
      rw [escapeChar]
      split
      case isTrue hplain => exact tokens_plain_cons hplain pattern
      case isFalse => exact tokens_escape_cons c pattern
    rw [List.flatMap_cons, List.append_assoc, hchar, ih, Option.map_map]
    rfl

/-- **Literal search.** The pattern is always well formed, and fits a text exactly if the value
occurs in it. -/
theorem like_escapeLike (value text : List Char) :
    like '\\' (['%'] ++ escapeLike value ++ ['%']) text = some (decide (value <:+: text)) := by
  have hpercent : '%' ≠ '\\' := by decide
  rw [like, List.append_assoc, List.singleton_append, tokens_percent_cons hpercent,
    tokens_escapeLike_append, tokens_percent_cons hpercent, tokens]
  simp only [Option.map_some, Option.some_inj]
  rw [← Bool.coe_iff_coe, fits_iff, matches_infix, decide_eq_true_iff]

example : like '\\' (['%'] ++ escapeLike "50%".toList ++ ['%']) "up 500".toList = some false := by
  decide

end Rapidly.Core.Queries
