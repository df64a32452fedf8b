import Rapidly.Json.Text

/-!
# JSON as JavaScript and Python write it

The two ways to quote a string. `JSON.stringify` escapes what has to be escaped and a surrogate
that stands alone. `json.dumps` escapes everything that is not printable ASCII, a character
outside the basic plane as two surrogates.
-/

namespace Json

/-- `\u` and four hexadecimal digits. -/
def escapeUnit (u : UInt16) : List Char :=
  let n := u.toNat
  ['\\', 'u', Nat.digitChar (n / 4096), Nat.digitChar (n / 256 % 16),
    Nat.digitChar (n / 16 % 16), Nat.digitChar (n % 16)]

/-- The character of a two-character escape. -/
def shortEscape (u : UInt16) : Option Char :=
  if u = 8 then some 'b'
  else if u = 9 then some 't'
  else if u = 10 then some 'n'
  else if u = 12 then some 'f'
  else if u = 13 then some 'r'
  else if u = 0x22 then some '"'
  else if u = 0x5c then some '\\'
  else none

/-- The first half of a surrogate pair. -/
def isLeading (u : UInt16) : Bool := 0xd800 ≤ u.toNat && u.toNat < 0xdc00

/-- The second half of a surrogate pair. -/
def isTrailing (u : UInt16) : Bool := 0xdc00 ≤ u.toNat && u.toNat < 0xe000

/-- The character of a surrogate pair. -/
def pairChar (u v : UInt16) : Char :=
  .ofNat (0x10000 + (u.toNat - 0xd800) * 0x400 + (v.toNat - 0xdc00))

/-- A unit that is no half of a pair, as `JSON.stringify` writes it. -/
def quoteUnit (u : UInt16) : List Char :=
  match shortEscape u with
  | some c => ['\\', c]
  | none =>
    if u.toNat < 0x20 ∨ isLeading u ∨ isTrailing u then escapeUnit u else [.ofNat u.toNat]

/-- `QuoteJSONString`, without the quotation marks. -/
def quoteJavascript : Units → List Char
  | [] => []
  | [u] => quoteUnit u
  | u :: v :: rest =>
    if isLeading u ∧ isTrailing v then pairChar u v :: quoteJavascript rest
    else quoteUnit u ++ quoteJavascript (v :: rest)

/-- A unit as `json.dumps` writes it. -/
def quoteAscii (u : UInt16) : List Char :=
  match shortEscape u with
  | some c => ['\\', c]
  | none => if u.toNat < 0x20 ∨ 0x7e < u.toNat then escapeUnit u else [.ofNat u.toNat]

/-- `py_encode_basestring_ascii`, without the quotation marks. -/
def quotePython (s : Units) : List Char := s.flatMap quoteAscii

/-! ### Quoting is undone -/

/-- The text stands for the code units in a string. -/
def Quotes (text : List Char) (s : Units) : Prop :=
  ∀ s' rest tail, readString rest = some (s', tail) →
    readString (text ++ rest) = some (s ++ s', tail)

theorem quotes_nil : Quotes [] [] := fun _ _ _ h => h

theorem Quotes.append {text text' : List Char} {s s' : Units} (h : Quotes text s)
    (h' : Quotes text' s') : Quotes (text ++ text') (s ++ s') := by
  intro s'' rest tail hrest
  rw [List.append_assoc, List.append_assoc]
  exact h _ _ _ (h' _ _ _ hrest)

theorem Quotes.readString {text : List Char} {s : Units} (h : Quotes text s) (rest : List Char) :
    readString (text ++ '"' :: rest) = some (s, rest) := by
  have hread := h [] ('"' :: rest) rest (readString_quotationMark rest)
  rwa [List.append_nil] at hread

theorem quotes_char {c : Char} (hquote : c ≠ '"') (hescape : c ≠ '\\') (hprint : 0x20 ≤ c.toNat) :
    Quotes [c] (units c) := by
  intro s rest tail hrest
  rw [List.singleton_append, readString_char hquote hescape (Nat.not_lt.mpr hprint), hrest]
  rfl

theorem quotes_shortEscape {u : UInt16} {c : Char} (h : shortEscape u = some c) :
    Quotes ['\\', c] [u] := by
  intro s rest tail hrest
  have hc : c ≠ 'u' ∧ unescape c = some u := by
    rw [shortEscape] at h
    split_ifs at h <;> obtain rfl := Option.some_inj.mp h <;> subst_vars <;> decide
  rw [List.cons_append, List.singleton_append, readString_escape hc.1, hc.2, hrest]
  rfl

theorem hexDigit_digitChar : ∀ n < 16, hexDigit (Nat.digitChar n) = some n := by decide

theorem quotes_escapeUnit (u : UInt16) : Quotes (escapeUnit u) [u] := by
  intro s rest tail hrest
  have hlt := u.toNat_lt
  have hunit : hexUnit (Nat.digitChar (u.toNat / 4096)) (Nat.digitChar (u.toNat / 256 % 16))
      (Nat.digitChar (u.toNat / 16 % 16)) (Nat.digitChar (u.toNat % 16)) = some u := by
    rw [hexUnit, hexDigit_digitChar _ (by omega), hexDigit_digitChar _ (by omega),
      hexDigit_digitChar _ (by omega), hexDigit_digitChar _ (by omega)]
    have hsum : (u.toNat / 4096 * 16 + u.toNat / 256 % 16) * 256 + u.toNat / 16 % 16 * 16 +
        u.toNat % 16 = u.toNat := by omega
    simp only [Option.bind_eq_bind, Option.bind_some, hsum, UInt16.ofNat_toNat]
    rfl
  rw [escapeUnit]
  simp only [List.cons_append, List.nil_append]
  rw [readString_hex, hunit, hrest]
  rfl

theorem toNat_ofNat {n : ℕ} (h : n.isValidChar) : (Char.ofNat n).toNat = n := by
  rw [Char.ofNat, dif_pos h]
  rfl

theorem quotes_unit {u : UInt16} (hshort : shortEscape u = none)
    (hplain : ¬(u.toNat < 0x20 ∨ isLeading u ∨ isTrailing u)) :
    Quotes [.ofNat u.toNat] [u] := by
  have hlt := u.toNat_lt
  simp only [isLeading, isTrailing, Bool.and_eq_true, decide_eq_true_eq, not_or, not_and,
    Nat.not_lt] at hplain
  have hvalid : u.toNat.isValidChar := by
    rw [Nat.isValidChar]
    omega
  have hnat := toNat_ofNat hvalid
  have hunits : units (.ofNat u.toNat) = [u] := by
    rw [units, hnat, if_pos (by omega), UInt16.ofNat_toNat]
  rw [← hunits]
  refine quotes_char ?_ ?_ (by rw [hnat]; omega)
  all_goals
    intro heq
    rw [heq] at hnat
    have hu : u = UInt16.ofNat u.toNat := UInt16.ofNat_toNat.symm
    rw [← hnat] at hu
    rw [hu] at hshort
    exact absurd hshort (by decide)

theorem quotes_quoteUnit (u : UInt16) : Quotes (quoteUnit u) [u] := by
  rw [quoteUnit]
  split
  next c hshort => exact quotes_shortEscape hshort
  next hshort =>
    split
    next => exact quotes_escapeUnit u
    next hplain => exact quotes_unit hshort hplain

theorem quotes_pairChar {u v : UInt16} (hu : isLeading u) (hv : isTrailing v) :
    Quotes [pairChar u v] [u, v] := by
  simp only [isLeading, isTrailing, Bool.and_eq_true, decide_eq_true_eq] at hu hv
  have hvalid : (0x10000 + (u.toNat - 0xd800) * 0x400 + (v.toNat - 0xdc00)).isValidChar := by
    rw [Nat.isValidChar]
    omega
  have hnat : (pairChar u v).toNat = _ := toNat_ofNat hvalid
  have hunits : units (pairChar u v) = [u, v] := by
    have hleading : 0xd800 + ((pairChar u v).toNat - 0x10000) / 0x400 = u.toNat := by omega
    have htrailing : 0xdc00 + ((pairChar u v).toNat - 0x10000) % 0x400 = v.toNat := by omega
    rw [units, if_neg (by omega), hleading, htrailing, UInt16.ofNat_toNat, UInt16.ofNat_toNat]
  rw [← hunits]
  refine quotes_char ?_ ?_ (by omega)
  all_goals
    intro heq
    rw [heq] at hnat
    exact absurd hnat (by simp; omega)

theorem quotes_quoteJavascript (s : Units) : Quotes (quoteJavascript s) s := by
  induction s using quoteJavascript.induct with
  | case1 => exact quotes_nil
  | case2 u => exact quotes_quoteUnit u
  | case3 u v rest hpair ih =>
    rw [quoteJavascript, if_pos hpair]
    exact (quotes_pairChar hpair.1 hpair.2).append ih
  | case4 u v rest hpair ih =>
    rw [quoteJavascript, if_neg hpair]
    exact (quotes_quoteUnit u).append ih

theorem length_quoteUnit_le (u : UInt16) : (quoteUnit u).length ≤ 6 := by
  rw [quoteUnit]
  split
  · exact Nat.le_add_left 2 4
  · split
    · exact Nat.le_refl 6
    · exact Nat.le_add_left 1 5

theorem length_quoteJavascript_le (s : Units) : (quoteJavascript s).length ≤ 6 * s.length := by
  induction s using quoteJavascript.induct with
  | case1 => exact Nat.le_refl 0
  | case2 u => exact length_quoteUnit_le u
  | case3 u v rest hpair ih =>
    rw [quoteJavascript, if_pos hpair]
    simp only [List.length_cons]
    omega
  | case4 u v rest hpair ih =>
    have hunit := length_quoteUnit_le u
    rw [quoteJavascript, if_neg hpair, List.length_append]
    simp only [List.length_cons] at ih ⊢
    omega

/-! ### Characters that are written as they are -/

/-- The character is one byte, and neither a control character nor one that JSON escapes. -/
def IsPlain (c : Char) : Prop := 0x20 ≤ c.toNat ∧ c.toNat < 0x80 ∧ c ≠ '"' ∧ c ≠ '\\'

instance (c : Char) : Decidable (IsPlain c) := inferInstanceAs (Decidable (_ ∧ _))

theorem isPlain_of_isDigit {c : Char} (h : c.isDigit = true) : IsPlain c := by
  rw [Char.isDigit_iff_toNat] at h
  have hbounds : '0'.toNat = 48 ∧ '9'.toNat = 57 := by decide
  refine ⟨by omega, by omega, ?_, ?_⟩
  all_goals
    rintro rfl
    exact absurd h (by decide)

theorem isPlain_of_mem_toDigits {c : Char} {k : ℕ} (h : c ∈ Nat.toDigits 10 k) : IsPlain c :=
  isPlain_of_isDigit (Nat.isDigit_of_mem_toDigits (by decide) (by decide) h)

section Plain

variable {c : Char} {text : List Char}

theorem IsPlain.units (h : IsPlain c) : units c = [.ofNat c.toNat] := by
  have hlt := h.2.1
  rw [Json.units, if_pos (by omega)]

theorem IsPlain.toNat_ofNat (h : IsPlain c) : (UInt16.ofNat c.toNat).toNat = c.toNat := by
  have hlt := h.2.1
  rw [UInt16.toNat_ofNat', Nat.mod_eq_of_lt (by omega)]

theorem IsPlain.quoteUnit (h : IsPlain c) : quoteUnit (.ofNat c.toNat) = [c] := by
  have hnat := h.toNat_ofNat
  obtain ⟨hprint, hlt, hquote, hescape⟩ := h
  have hne (n : ℕ) (hn : c.toNat ≠ n) (hn' : n < 0x80) :
      UInt16.ofNat c.toNat ≠ UInt16.ofNat n := by
    intro heq
    have hval := congrArg UInt16.toNat heq
    rw [hnat, UInt16.toNat_ofNat', Nat.mod_eq_of_lt (by omega)] at hval
    exact hn hval
  have hquote' : c.toNat ≠ 0x22 := fun heq => hquote (Char.toNat_inj.mp heq)
  have hescape' : c.toNat ≠ 0x5c := fun heq => hescape (Char.toNat_inj.mp heq)
  have hshort : shortEscape (.ofNat c.toNat) = none := by
    have h8 : UInt16.ofNat c.toNat ≠ 8 := hne 8 (by omega) (by omega)
    have h9 : UInt16.ofNat c.toNat ≠ 9 := hne 9 (by omega) (by omega)
    have h10 : UInt16.ofNat c.toNat ≠ 10 := hne 10 (by omega) (by omega)
    have h12 : UInt16.ofNat c.toNat ≠ 12 := hne 12 (by omega) (by omega)
    have h13 : UInt16.ofNat c.toNat ≠ 13 := hne 13 (by omega) (by omega)
    have hquote : UInt16.ofNat c.toNat ≠ 0x22 := hne 0x22 hquote' (by omega)
    have hescape : UInt16.ofNat c.toNat ≠ 0x5c := hne 0x5c hescape' (by omega)
    rw [shortEscape, if_neg h8, if_neg h9, if_neg h10, if_neg h12, if_neg h13, if_neg hquote,
      if_neg hescape]
  have hplain : ¬((UInt16.ofNat c.toNat).toNat < 0x20 ∨ isLeading (.ofNat c.toNat) ∨
      isTrailing (.ofNat c.toNat)) := by
    rw [isLeading, isTrailing, hnat]
    simp only [Bool.and_eq_true, decide_eq_true_eq]
    omega
  rw [Json.quoteUnit, hshort]
  rw [if_neg hplain, hnat, Char.ofNat_toNat]

theorem quoteJavascript_cons (h : IsPlain c) (s : Units) :
    quoteJavascript (.ofNat c.toNat :: s) = c :: quoteJavascript s := by
  have hleading : ¬isLeading (.ofNat c.toNat) = true := by
    have hlt := h.2.1
    rw [isLeading, h.toNat_ofNat, Bool.and_eq_true, decide_eq_true_eq]
    omega
  cases s with
  | nil => exact h.quoteUnit
  | cons v s =>
    rw [quoteJavascript, if_neg fun hpair => hleading hpair.1, h.quoteUnit, List.singleton_append]

theorem quoteJavascript_ofText (h : ∀ c ∈ text, IsPlain c) :
    quoteJavascript (ofText text) = text := by
  induction text with
  | nil => rfl
  | cons c text ih =>
    have hc := h c List.mem_cons_self
    rw [ofText, List.flatMap_cons, hc.units, ← ofText, List.singleton_append,
      quoteJavascript_cons hc, ih fun d hd => h d (List.mem_cons_of_mem c hd)]

end Plain

theorem quotes_quoteAscii (u : UInt16) : Quotes (quoteAscii u) [u] := by
  rw [quoteAscii]
  split
  next c hshort => exact quotes_shortEscape hshort
  next hshort =>
    split
    next => exact quotes_escapeUnit u
    next hplain =>
      refine quotes_unit hshort ?_
      simp only [isLeading, isTrailing, Bool.and_eq_true, decide_eq_true_eq]
      omega

theorem quotes_quotePython (s : Units) : Quotes (quotePython s) s := by
  induction s with
  | nil => exact quotes_nil
  | cons u s ih => exact (quotes_quoteAscii u).append ih

/-! ### Styles -/

/-- How `JSON.stringify` writes. -/
def javascript : Style where
  space := []
  quote := quoteJavascript
  isSpace_space := by simp
  readString_quote s rest := (quotes_quoteJavascript s).readString rest

/-- How `json.dumps` writes. -/
def python : Style where
  space := [' ']
  quote := quotePython
  isSpace_space c hc := by simp [isSpace, List.mem_singleton.mp hc]
  readString_quote s rest := (quotes_quotePython s).readString rest

end Json
