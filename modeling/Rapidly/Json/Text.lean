import Rapidly.Json.Value

/-!
# JSON texts

`JSON.stringify` and `JSON.parse`, on texts that are lists of characters.

Languages differ in how they write JSON: where they leave a space, and which characters of a
string they escape. A `Style` is a way to write it that a parser undoes; `javascript` and `python`
are the two of this development. They write the same fields in the same order.

* `Numeral` is what is asked of the numbers: those that are finite are written as number literals
  and read back.
* `parse_print`: what is written in any style is read as what it was.
-/

namespace Json

/-! ### Numbers -/

/-- The characters of number literals. -/
def isNumberChar (c : Char) : Bool :=
  c.isDigit || c = '-' || c = '+' || c = '.' || c = 'e' || c = 'E'

/-- The exponent of a number literal, if there is one. -/
def isExponent : List Char → Bool
  | [] => true
  | c :: rest =>
    let digits := if rest.head? = some '+' ∨ rest.head? = some '-' then rest.tail else rest
    (c = 'e' || c = 'E') && digits ≠ [] && digits.all Char.isDigit

/-- The fraction and the exponent of a number literal. -/
def isFraction (text : List Char) : Bool :=
  if text.head? = some '.' then
    (text.tail.head?.any Char.isDigit) && isExponent (text.tail.dropWhile Char.isDigit)
  else isExponent text

/-- A number literal without its sign. -/
def isUnsigned : List Char → Bool
  | [] => false
  | c :: rest =>
    if c = '0' then isFraction rest
    else c.isDigit && isFraction (rest.dropWhile Char.isDigit)

/-- A number literal. -/
def isNumber (text : List Char) : Bool :=
  text.all isNumberChar && isUnsigned (if text.head? = some '-' then text.tail else text)

/-- The numbers of JSON values. An integer below `2 ^ 53` is written with its decimal digits. -/
class Numeral (ν : Type) where
  toText : ν → List Char
  value : List Char → ν
  ofNat : ℕ → ν
  IsFinite : ν → Prop
  isNumber_toText : ∀ n, IsFinite n → isNumber (toText n)
  value_toText : ∀ n, IsFinite n → value (toText n) = n
  isFinite_ofNat : ∀ k < 2 ^ 53, IsFinite (ofNat k)
  toText_ofNat : ∀ k < 2 ^ 53, toText (ofNat k) = Nat.toDigits 10 k

variable {ν : Type} [Numeral ν]

theorem Numeral.ofNat_inj {j k : ℕ} (hj : j < 2 ^ 53) (hk : k < 2 ^ 53) :
    (ofNat j : ν) = ofNat k ↔ j = k := by
  constructor
  · intro h
    have htext : Nat.toDigits 10 j = Nat.toDigits 10 k := by
      rw [← toText_ofNat (ν := ν) j hj, ← toText_ofNat (ν := ν) k hk, h]
    rw [← @Nat.ofDigitChars_ten_toDigits j, ← @Nat.ofDigitChars_ten_toDigits k, htext]
  · rintro rfl
    rfl

theorem Numeral.toText_eq_cons {n : ν} (h : IsFinite n) :
    ∃ c rest, toText n = c :: rest ∧ isNumberChar c = true := by
  have hnumber := isNumber_toText n h
  rw [isNumber, Bool.and_eq_true] at hnumber
  cases htext : toText n with
  | nil => simp [htext, isUnsigned] at hnumber
  | cons c rest =>
    rw [htext, List.all_cons, Bool.and_eq_true] at hnumber
    exact ⟨c, rest, rfl, hnumber.1.1⟩

mutual

/-- All numbers in the value are finite. -/
def Value.IsFinite : Value ν → Prop
  | .number n => Numeral.IsFinite n
  | .array items => itemsFinite items
  | .object fields => fieldsFinite fields
  | _ => True

def itemsFinite : List (Value ν) → Prop
  | [] => True
  | v :: vs => v.IsFinite ∧ itemsFinite vs

def fieldsFinite : List (Units × Value ν) → Prop
  | [] => True
  | (_, v) :: fs => v.IsFinite ∧ fieldsFinite fs

end

theorem itemsFinite_iff {items : List (Value ν)} :
    itemsFinite items ↔ ∀ v ∈ items, v.IsFinite := by
  induction items with
  | nil => simp [itemsFinite]
  | cons v vs ih => simp [itemsFinite, ih]

theorem fieldsFinite_iff {fields : Fields ν} :
    fieldsFinite fields ↔ ∀ f ∈ fields, f.2.IsFinite := by
  induction fields with
  | nil => simp [fieldsFinite]
  | cons f fs ih =>
    obtain ⟨key, v⟩ := f
    simp [fieldsFinite, ih]

/-! ### Reading -/

/-- JSON white space. -/
def isSpace (c : Char) : Bool := c = ' ' || c = '\t' || c = '\n' || c = '\r'

def skipSpace (text : List Char) : List Char := text.dropWhile isSpace

/-- The value of a hexadecimal digit. -/
def hexDigit (c : Char) : Option ℕ :=
  if c.isDigit then some (c.toNat - 48)
  else if 'a' ≤ c ∧ c ≤ 'f' then some (c.toNat - 87)
  else if 'A' ≤ c ∧ c ≤ 'F' then some (c.toNat - 55)
  else none

/-- The code unit of a `\u` escape. -/
def hexUnit (a b c d : Char) : Option UInt16 := do
  return .ofNat (((← hexDigit a) * 16 + (← hexDigit b)) * 256 +
    (← hexDigit c) * 16 + (← hexDigit d))

/-- The code unit of an escape by one character. -/
def unescape (c : Char) : Option UInt16 :=
  if c = '"' ∨ c = '\\' ∨ c = '/' then some (.ofNat c.toNat)
  else if c = 'b' then some 8
  else if c = 't' then some 9
  else if c = 'n' then some 10
  else if c = 'f' then some 12
  else if c = 'r' then some 13
  else none

/-- A string from behind its quotation mark on, and what follows it. -/
def readString : List Char → Option (Units × List Char)
  | [] => none
  | c :: rest =>
    if c = '"' then some ([], rest)
    else if c = '\\' then
      match rest with
      | [] => none
      | e :: rest =>
        if e = 'u' then
          match rest with
          | a :: b :: c :: d :: rest => do
            let unit ← hexUnit a b c d
            let (s, rest) ← readString rest
            return (unit :: s, rest)
          | _ => none
        else do
          let unit ← unescape e
          let (s, rest) ← readString rest
          return (unit :: s, rest)
    else if c.toNat < 0x20 then none
    else do
      let (s, rest) ← readString rest
      return (units c ++ s, rest)

theorem readString_quotationMark (rest : List Char) :
    readString ('"' :: rest) = some ([], rest) := by
  rw [readString.eq_def]
  rfl

theorem readString_char {c : Char} (hquote : c ≠ '"') (hescape : c ≠ '\\')
    (hprint : ¬c.toNat < 0x20) (rest : List Char) :
    readString (c :: rest) = (readString rest).map fun r => (units c ++ r.1, r.2) := by
  rw [readString.eq_def]
  dsimp only
  rw [if_neg hquote, if_neg hescape, if_neg hprint]
  cases readString rest <;> rfl

theorem readString_escape {e : Char} (he : e ≠ 'u') (rest : List Char) :
    readString ('\\' :: e :: rest) =
      (unescape e).bind fun unit => (readString rest).map fun r => (unit :: r.1, r.2) := by
  rw [readString.eq_def]
  dsimp only
  rw [if_neg (by decide), if_pos rfl, if_neg he]
  cases unescape e <;> cases readString rest <;> rfl

theorem readString_hex (a b c d : Char) (rest : List Char) :
    readString ('\\' :: 'u' :: a :: b :: c :: d :: rest) =
      (hexUnit a b c d).bind fun unit => (readString rest).map fun r => (unit :: r.1, r.2) := by
  rw [readString.eq_def]
  dsimp only
  rw [if_neg (by decide), if_pos rfl, if_pos rfl]
  cases hexUnit a b c d <;> cases readString rest <;> rfl

/-- `null`, `true` or `false`. -/
def readWord (text : List Char) : Option (Value ν × List Char) :=
  if text.take 4 = ['n', 'u', 'l', 'l'] then some (.null, text.drop 4)
  else if text.take 4 = ['t', 'r', 'u', 'e'] then some (.bool true, text.drop 4)
  else if text.take 5 = ['f', 'a', 'l', 's', 'e'] then some (.bool false, text.drop 5)
  else none

/-- A number, and what follows it. -/
def readNumber (text : List Char) : Option (Value ν × List Char) :=
  let literal := text.takeWhile isNumberChar
  if isNumber literal then some (.number (Numeral.value literal), text.dropWhile isNumberChar)
  else none

section Sequence

variable {α : Type} (item : List Char → Option (α × List Char)) (close : Char)

/-- Items that are separated by commas, from the first one to the closing bracket. -/
def readMore : ℕ → List Char → Option (List α × List Char)
  | 0, _ => none
  | fuel + 1, text => do
    let (a, rest) ← item text
    match skipSpace rest with
    | [] => none
    | c :: rest =>
      if c = ',' then do
        let (as, rest) ← readMore fuel rest
        return (a :: as, rest)
      else if c = close then some ([a], rest)
      else none

/-- The items of an array or an object, from behind its opening bracket on. -/
def readItems (fuel : ℕ) (text : List Char) : Option (List α × List Char) :=
  if (skipSpace text).head? = some close then some ([], (skipSpace text).tail)
  else readMore item close fuel text

/-- A field of an object. -/
def readField (text : List Char) : Option ((Units × α) × List Char) := do
  let text := skipSpace text
  if text.head? = some '"' then do
    let (key, rest) ← readString text.tail
    let rest := skipSpace rest
    if rest.head? = some ':' then do
      let (a, rest) ← item rest.tail
      return ((key, a), rest)
    else none
  else none

end Sequence

/-- A value from its first character on; a reader for the values inside is given. -/
def readToken (read : List Char → Option (Value ν × List Char)) (fuel : ℕ) :
    List Char → Option (Value ν × List Char)
  | [] => none
  | c :: rest =>
    if c = '[' then do
      let (items, rest) ← readItems read ']' fuel rest
      return (.array items, rest)
    else if c = '\x7b' then do
      let (fields, rest) ← readItems (readField read) '\x7d' fuel rest
      return (.object fields, rest)
    else if c = '"' then do
      let (s, rest) ← readString rest
      return (.string s, rest)
    else if isNumberChar c then readNumber (c :: rest)
    else readWord (c :: rest)

/-- A value and what follows it. The fuel bounds how deep values are nested and how many items
they have; a text has no more of either than it has characters. -/
def readValue : ℕ → List Char → Option (Value ν × List Char)
  | 0, _ => none
  | fuel + 1, text => readToken (readValue fuel) fuel (skipSpace text)

/-- `JSON.parse`, `none` where it throws. -/
def parse (text : List Char) : Option (Value ν) := do
  let (v, rest) ← readValue (text.length + 1) text
  if skipSpace rest = [] then some v else none

/-! ### Writing -/

/-- A way to write JSON: the space behind a comma or a colon, and how the content of a string is
written. -/
structure Style where
  space : List Char
  quote : Units → List Char
  isSpace_space : ∀ c ∈ space, isSpace c = true
  readString_quote : ∀ s rest, readString (quote s ++ '"' :: rest) = some (s, rest)

section Print

variable (σ : Style)

/-- The texts with commas between them and a closing bracket behind. -/
def joinTexts (close : Char) : List (List Char) → List Char
  | [] => [close]
  | [text] => text ++ [close]
  | text :: next :: texts => text ++ ',' :: (σ.space ++ joinTexts close (next :: texts))

/-- The text of a string. -/
def printString (s : Units) : List Char := '"' :: (σ.quote s ++ ['"'])

mutual

/-- `JSON.stringify`, or what another language has for it. -/
def print : Value ν → List Char
  | .null => ['n', 'u', 'l', 'l']
  | .bool true => ['t', 'r', 'u', 'e']
  | .bool false => ['f', 'a', 'l', 's', 'e']
  | .number n => Numeral.toText n
  | .string s => printString σ s
  | .array items => '[' :: joinTexts σ ']' (printItems items)
  | .object fields => '\x7b' :: joinTexts σ '\x7d' (printFields fields)

def printItems : List (Value ν) → List (List Char)
  | [] => []
  | v :: vs => print v :: printItems vs

def printFields : List (Units × Value ν) → List (List Char)
  | [] => []
  | (key, v) :: fs => (printString σ key ++ ':' :: (σ.space ++ print v)) :: printFields fs

end

/-- The text of a field. -/
def printField (f : Units × Value ν) : List Char :=
  printString σ f.1 ++ ':' :: (σ.space ++ print σ f.2)

theorem printItems_eq_map (items : List (Value ν)) : printItems σ items = items.map (print σ) := by
  induction items with
  | nil => rfl
  | cons v vs ih => rw [printItems, ih, List.map_cons]

theorem printFields_eq_map (fields : Fields ν) :
    printFields σ fields = fields.map (printField σ) := by
  induction fields with
  | nil => rfl
  | cons f fs ih =>
    obtain ⟨key, v⟩ := f
    rw [printFields, ih, List.map_cons, printField]

end Print

/-! ### What is written is read -/

/-- No number goes on here. -/
def Ends (rest : List Char) : Prop := ∀ c ∈ rest.head?, isNumberChar c = false

theorem ends_nil : Ends [] := fun _ h => absurd h (Option.not_mem_none _)

theorem ends_cons {c : Char} (h : isNumberChar c = false) (rest : List Char) :
    Ends (c :: rest) := by
  intro c' hc'
  obtain rfl := Option.some_inj.mp hc'
  exact h

theorem skipSpace_append {space : List Char} (h : ∀ c ∈ space, isSpace c = true)
    (text : List Char) : skipSpace (space ++ text) = skipSpace text := by
  rw [skipSpace, List.dropWhile_append_of_pos h, skipSpace]

theorem skipSpace_cons {c : Char} (h : isSpace c = false) (text : List Char) :
    skipSpace (c :: text) = c :: text := by
  rw [skipSpace, List.dropWhile_cons_of_neg (by rw [h]; exact Bool.false_ne_true)]

theorem isSpace_of_isNumberChar {c : Char} (h : isNumberChar c = true) : isSpace c = false := by
  by_contra hspace
  rw [Bool.not_eq_false, isSpace] at hspace
  simp only [Bool.or_eq_true, decide_eq_true_eq] at hspace
  rcases hspace with ((rfl | rfl) | rfl) | rfl <;> exact absurd h (by decide)

/-- The item is written as the text: behind any space, the reader takes the text and nothing
more. -/
def Reads {α : Type} (item : List Char → Option (α × List Char)) (text : List Char) (a : α) :
    Prop :=
  ∀ space rest, (∀ c ∈ space, isSpace c = true) → Ends rest →
    item (space ++ (text ++ rest)) = some (a, rest)

section Sequence

variable {σ : Style} {α : Type} {item : List Char → Option (α × List Char)} {close : Char}
  {text : α → List Char}

theorem length_lt_joinTexts {texts : List (List Char)} {t : List Char} (h : t ∈ texts) :
    t.length < (joinTexts σ close texts).length := by
  induction texts with
  | nil => exact absurd h List.not_mem_nil
  | cons first texts ih =>
    cases texts with
    | nil =>
      obtain rfl := List.mem_singleton.mp h
      simp [joinTexts]
    | cons next texts =>
      have hlength : (joinTexts σ close (first :: next :: texts)).length =
          first.length + (1 + σ.space.length +
            (joinTexts σ close (next :: texts)).length) := by
        simp [joinTexts]
        omega
      rw [hlength]
      rcases List.mem_cons.mp h with rfl | htail
      · omega
      · have hlt := ih htail
        omega

theorem length_le_joinTexts (texts : List (List Char)) :
    texts.length ≤ (joinTexts σ close texts).length := by
  induction texts with
  | nil => exact Nat.zero_le _
  | cons first texts ih =>
    cases texts with
    | nil => simp [joinTexts]
    | cons next texts =>
      simp only [joinTexts, List.length_append, List.length_cons] at ih ⊢
      omega

theorem readMore_joinTexts (hclose : isNumberChar close = false ∧ isSpace close = false ∧
    close ≠ ',') {a : α} {as : List α} (hreads : ∀ b ∈ a :: as, Reads item (text b) b)
    {fuel : ℕ} (hfuel : (a :: as).length ≤ fuel) {space : List Char}
    (hspace : ∀ c ∈ space, isSpace c = true) (rest : List Char) :
    readMore item close fuel (space ++ (joinTexts σ close ((a :: as).map text) ++ rest)) =
      some (a :: as, rest) := by
  induction as generalizing a fuel space with
  | nil =>
    have hpos : 1 ≤ fuel := hfuel
    obtain ⟨fuel, rfl⟩ := Nat.exists_eq_add_of_le' hpos
    have hread := hreads a List.mem_cons_self space (close :: rest) hspace
      (ends_cons hclose.1 rest)
    rw [List.map_singleton, joinTexts, List.append_assoc, List.singleton_append, readMore, hread]
    simp only [Option.bind_eq_bind, Option.bind_some, skipSpace_cons hclose.2.1,
      if_neg hclose.2.2, if_true]
  | cons b as ih =>
    have hpos : 1 ≤ fuel := Nat.lt_of_lt_of_le (Nat.succ_pos _) hfuel
    obtain ⟨fuel, rfl⟩ := Nat.exists_eq_add_of_le' hpos
    have htail := ih (fun x hx => hreads x (List.mem_cons_of_mem _ hx))
      (Nat.le_of_succ_le_succ hfuel) σ.isSpace_space
    have hread := hreads a List.mem_cons_self space
      (',' :: (σ.space ++ (joinTexts σ close ((b :: as).map text) ++ rest))) hspace
      (ends_cons (by decide) _)
    rw [List.map_cons, List.map_cons, joinTexts, ← List.map_cons, List.append_assoc,
      List.cons_append, List.append_assoc, readMore, hread]
    simp only [Option.bind_eq_bind, Option.bind_some,
      skipSpace_cons (c := ',') (by decide), if_true, htail]
    rfl

theorem readItems_joinTexts (hclose : isNumberChar close = false ∧ isSpace close = false ∧
    close ≠ ',') {as : List α} (hreads : ∀ a ∈ as, Reads item (text a) a)
    (hhead : ∀ a ∈ as, ∃ c rest, text a = c :: rest ∧ isSpace c = false ∧ c ≠ close)
    {fuel : ℕ} (hfuel : as.length ≤ fuel) (rest : List Char) :
    readItems item close fuel (joinTexts σ close (as.map text) ++ rest) = some (as, rest) := by
  cases as with
  | nil =>
    rw [List.map_nil, joinTexts, List.singleton_append, readItems, skipSpace_cons hclose.2.1,
      List.head?_cons, if_pos rfl, List.tail_cons]
  | cons a as =>
    have hmore := @readMore_joinTexts σ α item close text hclose a as hreads fuel hfuel []
      (fun _ h => absurd h List.not_mem_nil) rest
    rw [List.nil_append] at hmore
    obtain ⟨c, cs, htext, hc, hne⟩ := hhead a List.mem_cons_self
    obtain ⟨cs', hjoined⟩ : ∃ cs', joinTexts σ close ((a :: as).map text) ++ rest = c :: cs' := by
      cases as with
      | nil => exact ⟨_, by rw [List.map_singleton, joinTexts, htext]; rfl⟩
      | cons b as => exact ⟨_, by rw [List.map_cons, List.map_cons, joinTexts, htext]; rfl⟩
    rw [readItems, if_neg, hmore]
    rw [hjoined, skipSpace_cons hc, List.head?_cons, Option.some_inj]
    exact hne

end Sequence

section Print

variable {σ : Style}

theorem readString_printString (s : Units) (rest : List Char) :
    readString ((printString σ s ++ rest).tail) = some (s, rest) := by
  have hread := σ.readString_quote s rest
  rwa [printString, List.cons_append, List.tail_cons, List.append_assoc, List.singleton_append]

theorem readNumber_toText {n : ν} (h : Numeral.IsFinite n) {rest : List Char}
    (hrest : Ends rest) :
    readNumber (Numeral.toText n ++ rest) = some (.number n, rest) := by
  have hnumber := Numeral.isNumber_toText n h
  have hchars : ∀ c ∈ Numeral.toText n, isNumberChar c = true := by
    rw [isNumber, Bool.and_eq_true, List.all_eq_true] at hnumber
    exact hnumber.1
  have hliteral : rest.takeWhile isNumberChar = [] ∧ rest.dropWhile isNumberChar = rest := by
    cases rest with
    | nil => exact ⟨rfl, rfl⟩
    | cons c rest =>
      have hc : ¬isNumberChar c = true := by rw [hrest c rfl]; exact Bool.false_ne_true
      exact ⟨List.takeWhile_cons_of_neg hc, List.dropWhile_cons_of_neg hc⟩
  rw [readNumber, List.takeWhile_append_of_pos hchars, List.dropWhile_append_of_pos hchars,
    hliteral.1, hliteral.2, List.append_nil, if_pos hnumber, Numeral.value_toText n h]

/-- The first character of a text for a value. -/
def Opens (c : Char) : Prop :=
  isSpace c = false ∧ c ≠ ']'

/-- A text for a value starts with a character that says what it is. -/
theorem print_eq_cons {v : Value ν} (h : v.IsFinite) :
    ∃ c rest, print σ v = c :: rest ∧ Opens c := by
  cases v with
  | number n =>
    obtain ⟨c, rest, htext, hc⟩ := Numeral.toText_eq_cons h
    refine ⟨c, rest, htext, isSpace_of_isNumberChar hc, ?_⟩
    rintro rfl
    exact absurd hc (by decide)
  | bool b => cases b <;> exact ⟨_, _, rfl, by decide, by decide⟩
  | _ => exact ⟨_, _, rfl, by decide, by decide⟩

theorem length_print_pos {v : Value ν} (h : v.IsFinite) : 0 < (print σ v).length := by
  obtain ⟨c, rest, htext, -⟩ := @print_eq_cons ν _ σ v h
  rw [htext]
  exact Nat.succ_pos _

theorem reads_printField {read : List Char → Option (Value ν × List Char)}
    {f : Units × Value ν} (h : Reads read (print σ f.2) f.2) :
    Reads (readField read) (printField σ f) f := by
  intro space rest hspace hrest
  have hkey := @readString_printString σ f.1 (':' :: (σ.space ++ (print σ f.2 ++ rest)))
  have hvalue := h σ.space rest σ.isSpace_space hrest
  have htext : skipSpace (space ++ (printField σ f ++ rest)) =
      printString σ f.1 ++ ':' :: (σ.space ++ (print σ f.2 ++ rest)) := by
    rw [skipSpace_append hspace, printField, List.append_assoc, List.cons_append,
      List.append_assoc, printString, List.cons_append, skipSpace_cons (by decide)]
  have hhead : (printString σ f.1 ++
      ':' :: (σ.space ++ (print σ f.2 ++ rest))).head? = some '"' := rfl
  rw [readField, htext]
  rw [if_pos hhead, hkey]
  simp only [Option.bind_eq_bind, Option.bind_some, skipSpace_cons (c := ':') (by decide),
    List.head?_cons, if_true, List.tail_cons, hvalue]
  rfl

theorem skipSpace_print {v : Value ν} (h : v.IsFinite) {space : List Char}
    (hspace : ∀ c ∈ space, isSpace c = true) (rest : List Char) :
    skipSpace (space ++ (print σ v ++ rest)) = print σ v ++ rest := by
  obtain ⟨c, cs, htext, hc, -⟩ := @print_eq_cons ν _ σ v h
  rw [skipSpace_append hspace, htext, List.cons_append, skipSpace_cons hc]

/-- A value without others inside is read whatever the reader for those. -/
theorem readToken_print {v : Value ν} (h : v.IsFinite)
    (hsimple : ∀ items, v ≠ .array items) (hsimple' : ∀ fields, v ≠ .object fields)
    (read : List Char → Option (Value ν × List Char)) (fuel : ℕ) {rest : List Char}
    (hrest : Ends rest) : readToken read fuel (print σ v ++ rest) = some (v, rest) := by
  cases v with
  | null => rfl
  | bool b => cases b <;> rfl
  | number n =>
    obtain ⟨c, cs, htext, hc⟩ := Numeral.toText_eq_cons h
    have hother : c ≠ '[' ∧ c ≠ '\x7b' ∧ c ≠ '"' := by
      refine ⟨?_, ?_, ?_⟩ <;> (rintro rfl; exact absurd hc (by decide))
    have hread := readNumber_toText h hrest
    rw [htext, List.cons_append] at hread
    rw [print, htext, List.cons_append, readToken, if_neg hother.1, if_neg hother.2.1,
      if_neg hother.2.2, if_pos hc, hread]
  | string s =>
    have hread := @readString_printString σ s rest
    rw [printString, List.cons_append, List.tail_cons] at hread
    rw [print, printString, List.cons_append, readToken]
    simp only [hread]
    rfl
  | array items => exact absurd rfl (hsimple items)
  | object fields => exact absurd rfl (hsimple' fields)

/-- **What is written is read.** -/
theorem reads_print {v : Value ν} (h : v.IsFinite) {fuel : ℕ}
    (hfuel : (print σ v).length ≤ fuel) : Reads (readValue fuel) (print σ v) v := by
  induction v using Value.induction generalizing fuel with
  | array items ih =>
    intro space rest hspace hrest
    have hpos : 1 ≤ fuel := Nat.lt_of_lt_of_le (length_print_pos h) hfuel
    obtain ⟨fuel, rfl⟩ := Nat.exists_eq_add_of_le' hpos
    rw [readValue, skipSpace_print h hspace]
    rw [print, printItems_eq_map] at hfuel ⊢
    have hfuel : (joinTexts σ ']' (items.map (print σ))).length ≤ fuel :=
      Nat.le_of_succ_le_succ hfuel
    have hfinite := itemsFinite_iff.mp h
    -- the text of an item is shorter than the array, so the fuel that is left is enough for it
    have hitems := @readItems_joinTexts σ (Value ν) (readValue fuel) ']' (print σ)
      (by decide) items ?_ ?_ fuel ?_ rest
    · rw [List.cons_append, readToken, if_pos rfl, hitems]
      rfl
    · intro v hv
      have hmem : print σ v ∈ items.map (print σ) := List.mem_map_of_mem hv
      have hlt := @length_lt_joinTexts σ ']' _ _ hmem
      exact ih v hv (hfinite v hv) (by omega)
    · intro v hv
      exact print_eq_cons (hfinite v hv)
    · have hle := @length_le_joinTexts σ ']' (items.map (print σ))
      rw [List.length_map] at hle
      omega
  | object fields ih =>
    intro space rest hspace hrest
    have hpos : 1 ≤ fuel := Nat.lt_of_lt_of_le (length_print_pos h) hfuel
    obtain ⟨fuel, rfl⟩ := Nat.exists_eq_add_of_le' hpos
    rw [readValue, skipSpace_print h hspace]
    rw [print, printFields_eq_map] at hfuel ⊢
    have hfuel : (joinTexts σ '\x7d' (fields.map (printField σ))).length ≤ fuel :=
      Nat.le_of_succ_le_succ hfuel
    have hfinite := fieldsFinite_iff.mp h
    have hitems := @readItems_joinTexts σ (Units × Value ν) (readField (readValue fuel)) '\x7d'
      (printField σ) (by decide) fields ?_ ?_ fuel ?_ rest
    · rw [List.cons_append, readToken, if_neg (by decide), if_pos rfl, hitems]
      rfl
    · intro f hf
      have hmem : printField σ f ∈ fields.map (printField σ) := List.mem_map_of_mem hf
      have hlt := @length_lt_joinTexts σ '\x7d' _ _ hmem
      have hlength : (printField σ f).length = (printString σ f.1).length +
          (σ.space.length + (print σ f.2).length + 1) := by
        rw [printField, List.length_append, List.length_cons, List.length_append]
      exact reads_printField (ih f hf (hfinite f hf) (by omega))
    · intro f _
      exact ⟨'"', _, rfl, by decide, by decide⟩
    · have hle := @length_le_joinTexts σ '\x7d' (fields.map (printField σ))
      rw [List.length_map] at hle
      omega
  | _ =>
    intro space rest hspace hrest
    have hpos : 1 ≤ fuel := Nat.lt_of_lt_of_le (length_print_pos h) hfuel
    obtain ⟨fuel, rfl⟩ := Nat.exists_eq_add_of_le' hpos
    rw [readValue, skipSpace_print h hspace]
    exact readToken_print h (by simp) (by simp) _ _ hrest

theorem parse_print {v : Value ν} (h : v.IsFinite) : parse (print σ v) = some v := by
  have hread := reads_print h (Nat.le_succ (print σ v).length) [] []
    (fun _ hc => absurd hc List.not_mem_nil) ends_nil
  rw [List.nil_append, List.append_nil] at hread
  rw [parse, hread]
  rfl

end Print

end Json
