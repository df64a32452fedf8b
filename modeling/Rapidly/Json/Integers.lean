import Mathlib.Data.Int.Notation
import Mathlib.Data.List.TakeWhile
import Rapidly.Json.Text

/-!
# Integers as the numbers of JSON values

For runs of a model in which all numbers are integers. A literal with a fraction or an exponent is
read as far as it is an integer.
-/

namespace Json

theorem head?_toDigits_ne {k : ℕ} (hk : 0 < k) : (Nat.toDigits 10 k).head? ≠ some '0' := by
  induction k using Nat.strongRecOn with
  | ind k ih =>
    rw [Nat.toDigits_eq_if (by decide)]
    split
    next hlt =>
      have hdigit : ∀ d < 10, 0 < d → d.digitChar ≠ '0' := by decide
      rw [List.head?_cons, ne_eq, Option.some_inj]
      exact hdigit k hlt hk
    next hge =>
      have hhigh := ih (k / 10) (by omega) (by omega)
      have hne : Nat.toDigits 10 (k / 10) ≠ [] := Nat.toDigits_ne_nil
      cases hdigits : Nat.toDigits 10 (k / 10) with
      | nil => exact absurd hdigits hne
      | cons d ds =>
        rw [hdigits] at hhigh
        exact hhigh

theorem isUnsigned_toDigits (k : ℕ) : isUnsigned (Nat.toDigits 10 k) = true := by
  have hall : ∀ c ∈ Nat.toDigits 10 k, c.isDigit = true := fun c hc =>
    Nat.isDigit_of_mem_toDigits (by decide) (by decide) hc
  obtain rfl | hk := Nat.eq_zero_or_pos k
  · rfl
  have hzero := head?_toDigits_ne hk
  cases hdigits : Nat.toDigits 10 k with
  | nil => exact absurd hdigits Nat.toDigits_ne_nil
  | cons d ds =>
    rw [hdigits] at hall hzero
    have hd : d ≠ '0' := fun h => hzero (by rw [h, List.head?_cons])
    have hrest : ds.dropWhile Char.isDigit = [] :=
      List.dropWhile_eq_nil_iff.mpr fun c hc => hall c (List.mem_cons_of_mem d hc)
    rw [isUnsigned, if_neg hd, hall d List.mem_cons_self, hrest]
    rfl

theorem all_isNumberChar_toDigits (k : ℕ) : (Nat.toDigits 10 k).all isNumberChar = true := by
  rw [List.all_eq_true]
  intro c hc
  have hdigit := Nat.isDigit_of_mem_toDigits (by decide) (by decide) hc
  rw [isNumberChar, hdigit]
  rfl

theorem head?_toDigits_ne_minus (k : ℕ) : (Nat.toDigits 10 k).head? ≠ some '-' := by
  intro h
  have hdigit := Nat.isDigit_of_mem_toDigits (by decide) (by decide) (List.mem_of_head? h)
  exact absurd hdigit (by decide)

theorem ofDigitChars_takeWhile_toDigits (k : ℕ) :
    Nat.ofDigitChars 10 ((Nat.toDigits 10 k).takeWhile Char.isDigit) 0 = k := by
  have hall : (Nat.toDigits 10 k).takeWhile Char.isDigit = Nat.toDigits 10 k :=
    List.takeWhile_eq_self_iff.mpr fun c hc =>
      Nat.isDigit_of_mem_toDigits (by decide) (by decide) hc
  rw [hall, Nat.ofDigitChars_ten_toDigits]

/-- The decimal digits, behind a sign if need be. -/
def intText : ℤ → List Char
  | .ofNat k => Nat.toDigits 10 k
  | .negSucc k => '-' :: Nat.toDigits 10 (k + 1)

/-- The integer that a literal begins with. -/
def intValue (text : List Char) : ℤ :=
  if text.head? = some '-' then
    Int.neg (Int.ofNat (Nat.ofDigitChars 10 (text.tail.takeWhile Char.isDigit) 0))
  else Int.ofNat (Nat.ofDigitChars 10 (text.takeWhile Char.isDigit) 0)

theorem isNumber_intText (n : ℤ) : isNumber (intText n) = true := by
  cases n with
  | ofNat k =>
    rw [intText, isNumber, all_isNumberChar_toDigits, if_neg (head?_toDigits_ne_minus k),
      isUnsigned_toDigits]
    rfl
  | negSucc k =>
    rw [intText, isNumber, List.all_cons, all_isNumberChar_toDigits, List.head?_cons, if_pos rfl,
      List.tail_cons, isUnsigned_toDigits]
    rfl

theorem intValue_intText (n : ℤ) : intValue (intText n) = n := by
  cases n with
  | ofNat k =>
    rw [intText, intValue, if_neg (head?_toDigits_ne_minus k), ofDigitChars_takeWhile_toDigits]
  | negSucc k =>
    rw [intText, intValue, List.head?_cons, if_pos rfl, List.tail_cons,
      ofDigitChars_takeWhile_toDigits]
    rfl

instance : Numeral ℤ where
  toText := intText
  value := intValue
  ofNat := Int.ofNat
  IsFinite _ := True
  isNumber_toText n _ := isNumber_intText n
  value_toText n _ := intValue_intText n
  isFinite_ofNat _ _ := trivial
  toText_ofNat _ _ := rfl

end Json
