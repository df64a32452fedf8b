import Rapidly.Fallible.Traversal
import Rapidly.Net.IpAddress
import Rapidly.Text.Separators

/-!
# How addresses are written

What the text of an address looks like. An IPv4 address has one: its four numbers in decimal
(`parseV4_eq_some`). Of the many texts of an IPv6 address all begin with a group of hexadecimal
digits and a colon, and a group that is not empty is the first sixteen bits of the address
(`exists_firstGroup`).
-/

namespace Net

/-! ### Digits -/

/-- The number of digits is above the number in front of them. -/
theorem exists_foldl_eq {base : ℕ} {digits : List ℕ} (h : ∀ d ∈ digits, d < base) (n : ℕ) :
    ∃ low < base ^ digits.length,
      digits.foldl (fun n d => n * base + d) n = n * base ^ digits.length + low := by
  induction digits generalizing n with
  | nil => exact ⟨0, by simp, by simp⟩
  | cons d digits ih =>
    obtain ⟨hd, hdigits⟩ := List.forall_mem_cons.mp h
    obtain ⟨low, hlow, heq⟩ := ih hdigits (n * base + d)
    refine ⟨d * base ^ digits.length + low, ?_, ?_⟩
    · rw [List.length_cons, Nat.pow_succ]
      calc d * base ^ digits.length + low
          < d * base ^ digits.length + base ^ digits.length := Nat.add_lt_add_left hlow _
        _ = (d + 1) * base ^ digits.length := by rw [Nat.succ_mul]
        _ ≤ base * base ^ digits.length := Nat.mul_le_mul_right _ hd
        _ = base ^ digits.length * base := Nat.mul_comm _ _
    · rw [List.foldl_cons, heq, List.length_cons, Nat.pow_succ, Nat.add_mul, Nat.add_assoc,
        Nat.mul_assoc, Nat.mul_comm base]

theorem toNat_of_isDigit {c : Char} (h : c.isDigit) : 48 ≤ c.toNat ∧ c.toNat ≤ 57 := by
  rw [Char.isDigit, Bool.and_eq_true, decide_eq_true_iff, decide_eq_true_iff] at h
  exact h

theorem digitChar_of_isDigit {c : Char} (h : c.isDigit) : Nat.digitChar (c.toNat - 48) = c := by
  obtain ⟨hlow, hhigh⟩ := toNat_of_isDigit h
  refine Char.toNat_inj.mp ?_
  rw [Nat.toNat_digitChar_of_lt_ten (by omega)]
  omega

theorem toDigits_ofDigitChars {digits : List Char} (h : ∀ c ∈ digits, c.isDigit) {n : ℕ}
    (hn : 0 < n) :
    Nat.toDigits 10 (Nat.ofDigitChars 10 digits n) = Nat.toDigits 10 n ++ digits := by
  induction digits generalizing n with
  | nil => rw [Nat.ofDigitChars_nil, List.append_nil]
  | cons c digits ih =>
    obtain ⟨hc, hdigits⟩ := List.forall_mem_cons.mp h
    have hlt : c.toNat - 48 < 10 := by
      have hbound := toNat_of_isDigit hc
      omega
    have hfirst : Nat.toDigits 10 (10 * n + (c.toNat - 48)) = Nat.toDigits 10 n ++ [c] := by
      rw [← Nat.toDigits_append_toDigits (by decide) hn hlt, Nat.toDigits_of_lt_base hlt,
        digitChar_of_isDigit hc]
    have hdigit : c.toNat - '0'.toNat = c.toNat - 48 := rfl
    rw [Nat.ofDigitChars_cons, hdigit, ih hdigits (by omega), hfirst, List.append_assoc,
      List.singleton_append]

/-! ### IPv4 -/

theorem parseOctet_eq_some {octet : List Char} {n : ℕ} (h : parseOctet octet = some n) :
    octet = Nat.toDigits 10 n ∧ n ≤ 255 := by
  rw [parseOctet] at h
  split at h
  next => cases h
  next hform =>
    obtain ⟨hvalue, hle⟩ := Option.filter_eq_some_iff.mp h
    refine ⟨?_, of_decide_eq_true hle⟩
    obtain rfl := Option.some.inj hvalue
    simp only [not_or, not_and_or, not_not] at hform
    obtain ⟨hne, hdigits, -, hzero⟩ := hform
    rw [List.all_eq_true] at hdigits
    obtain ⟨c, rest, rfl⟩ := List.exists_cons_of_ne_nil hne
    obtain hzero | hzero := hzero
    · obtain ⟨rfl, rfl⟩ := List.cons.inj hzero
      decide
    · obtain ⟨hc, hrest⟩ := List.forall_mem_cons.mp hdigits
      have hpos : 0 < c.toNat - 48 := by
        have hbound := toNat_of_isDigit hc
        have hne : c.toNat ≠ 48 := fun heq => hzero (congrArg some (Char.toNat_inj.mp heq))
        omega
      have hlt : c.toNat - 48 < 10 := by
        have hbound := toNat_of_isDigit hc
        omega
      have hvalue : Nat.ofDigitChars 10 (c :: rest) 0 =
          Nat.ofDigitChars 10 rest (c.toNat - 48) := by
        rw [Nat.ofDigitChars_cons, Nat.mul_zero, Nat.zero_add]
        rfl
      rw [hvalue, toDigits_ofDigitChars hrest hpos, Nat.toDigits_of_lt_base hlt,
        digitChar_of_isDigit hc, List.singleton_append]

/-- An address of four numbers. -/
def dotted (a b c d : ℕ) : List Char :=
  Nat.toDigits 10 a ++ '.' :: (Nat.toDigits 10 b ++ '.' :: (Nat.toDigits 10 c ++ '.' ::
    Nat.toDigits 10 d))

theorem parseV4_eq_some {text : List Char} {address : ℕ} (h : parseV4 text = some address) :
    ∃ a ≤ 255, ∃ b ≤ 255, ∃ c ≤ 255, ∃ d ≤ 255, text = dotted a b c d ∧
      address = ((a * 256 + b) * 256 + c) * 256 + d := by
  rw [parseV4] at h
  split at h
  next hlength =>
    obtain ⟨values, hvalues, rfl⟩ := Option.map_eq_some_iff.mp h
    have htext : List.intercalate ['.'] (text.splitOn '.') = text := List.intercalate_splitOn '.'
    obtain ⟨w, x, y, z, hparts⟩ := List.length_eq_four.mp hlength
    rw [hparts] at hvalues htext
    obtain ⟨a, _, ha, htail, rfl⟩ := Fallible.mapM_cons_eq_some_iff.mp hvalues
    obtain ⟨b, _, hb, htail', rfl⟩ := Fallible.mapM_cons_eq_some_iff.mp htail
    obtain ⟨c, _, hc, htail'', rfl⟩ := Fallible.mapM_cons_eq_some_iff.mp htail'
    obtain ⟨d, _, hd, hnil, rfl⟩ := Fallible.mapM_cons_eq_some_iff.mp htail''
    obtain rfl := Option.some.inj hnil
    obtain ⟨rfl, ha'⟩ := parseOctet_eq_some ha
    obtain ⟨rfl, hb'⟩ := parseOctet_eq_some hb
    obtain ⟨rfl, hc'⟩ := parseOctet_eq_some hc
    obtain ⟨rfl, hd'⟩ := parseOctet_eq_some hd
    refine ⟨a, ha', b, hb', c, hc', d, hd', ?_, ?_⟩
    · rw [← htext]
      simp [dotted]
    · simp
  next => cases h

/-! ### IPv6 -/

/-- The value of a hexadecimal digit. -/
def hexValue (c : Char) : ℕ := if c.isDigit then c.toNat - 48 else c.toLower.toNat - 87

theorem hexValue_lt {c : Char} (h : isHexDigit c) : hexValue c < 16 := by
  rw [isHexDigit, Bool.or_eq_true, Bool.or_eq_true, Bool.and_eq_true, Bool.and_eq_true,
    decide_eq_true_iff, decide_eq_true_iff, decide_eq_true_iff, decide_eq_true_iff] at h
  obtain (hdigit | ⟨hlow, hhigh⟩) | ⟨hlow, hhigh⟩ := h
  · have hbound := toNat_of_isDigit hdigit
    rw [hexValue, if_pos hdigit]
    omega
  · have hlow' : 97 ≤ c.toNat := hlow
    have hhigh' : c.toNat ≤ 102 := hhigh
    have hc : c.toNat = 'a'.toNat ∨ c.toNat = 'b'.toNat ∨ c.toNat = 'c'.toNat ∨
        c.toNat = 'd'.toNat ∨ c.toNat = 'e'.toNat ∨ c.toNat = 'f'.toNat := by
      simp only [Char.reduceToNat]
      omega
    simp only [Char.toNat_inj] at hc
    rcases hc with rfl | rfl | rfl | rfl | rfl | rfl <;> decide
  · have hlow' : 65 ≤ c.toNat := hlow
    have hhigh' : c.toNat ≤ 70 := hhigh
    have hc : c.toNat = 'A'.toNat ∨ c.toNat = 'B'.toNat ∨ c.toNat = 'C'.toNat ∨
        c.toNat = 'D'.toNat ∨ c.toNat = 'E'.toNat ∨ c.toNat = 'F'.toNat := by
      simp only [Char.reduceToNat]
      omega
    simp only [Char.toNat_inj] at hc
    rcases hc with rfl | rfl | rfl | rfl | rfl | rfl <;> decide

theorem ofHexDigits_lt {digits : List Char} (h : ∀ c ∈ digits, isHexDigit c) :
    ofHexDigits digits < 16 ^ digits.length := by
  have hvalues : ∀ d ∈ digits.map hexValue, d < 16 := by
    intro d hd
    obtain ⟨c, hc, rfl⟩ := List.mem_map.mp hd
    exact hexValue_lt (h c hc)
  obtain ⟨low, hlow, heq⟩ := exists_foldl_eq hvalues 0
  rw [List.foldl_map, Nat.zero_mul, Nat.zero_add] at heq
  rw [List.length_map] at hlow
  exact lt_of_eq_of_lt heq hlow

theorem parseHextet_eq_some {hextet : List Char} {n : ℕ} (h : parseHextet hextet = some n) :
    hextet ≠ [] ∧ (∀ c ∈ hextet, isHexDigit c) ∧ n = ofHexDigits hextet ∧ n < 65536 := by
  rw [parseHextet] at h
  split at h
  next => cases h
  next hform =>
    simp only [not_or, not_not, List.all_eq_true] at hform
    obtain ⟨hne, hdigits, hlength⟩ := hform
    obtain rfl := Option.some.inj h
    refine ⟨hne, hdigits, rfl, ?_⟩
    calc ofHexDigits hextet < 16 ^ hextet.length := ofHexDigits_lt hdigits
      _ ≤ 16 ^ 4 := Nat.pow_le_pow_right (by decide) (Nat.not_lt.mp hlength)
      _ = 65536 := by decide

/-- The two hextets of an IPv4 suffix are not the first ones. -/
theorem hextetParts_cons {part part' : List Char} {parts result : List (List Char)}
    (h : hextetParts (part :: part' :: parts) = some result) : ∃ rest, result = part :: rest := by
  rw [hextetParts] at h
  split at h
  next =>
    split at h
    next =>
      obtain ⟨address, -, rfl⟩ := Option.map_eq_some_iff.mp h
      exact ⟨_, rfl⟩
    next => exact ⟨_, (Option.some.inj h).symm⟩
  next => exact ⟨_, (Option.some.inj h).symm⟩

theorem expandParts_cons {part : List Char} {parts hextets : List (List Char)}
    (h : expandParts (part :: parts) = some hextets) :
    hextets.length = 8 ∧ (part = [] ∨ ∃ rest, hextets = part :: rest) := by
  rw [expandParts] at h
  split at h
  next =>
    split at h
    next hlength =>
      obtain rfl := Option.some.inj h
      exact ⟨hlength, .inr ⟨parts, rfl⟩⟩
    next => cases h
  next i hskip =>
    have hi : i ∈ skipIndices (part :: parts) := hskip ▸ List.mem_singleton_self i
    rw [skipIndices, List.mem_filter, decide_eq_true_iff] at hi
    obtain ⟨k, rfl⟩ := Nat.exists_eq_add_of_le' hi.2.1
    rw [List.take_succ_cons] at h
    dsimp only at h
    generalize hhigh : (if (part :: parts.take k).head? = some [] then (part :: parts.take k).tail
      else part :: parts.take k) = high at h
    generalize (if ((part :: parts).drop (k + 1 + 1)).getLast? = some [] then
      ((part :: parts).drop (k + 1 + 1)).dropLast else (part :: parts).drop (k + 1 + 1)) = low at h
    split at h
    next => cases h
    next =>
      split at h
      next => cases h
      next hshort =>
        obtain rfl := Option.some.inj h
        refine ⟨?_, ?_⟩
        · simp only [List.length_append, List.length_replicate]
          omega
        · by_cases hpart : part = []
          · exact .inl hpart
          · have hhead : ¬(part :: parts.take k).head? = some [] :=
              fun heq => hpart (Option.some.inj heq)
            rw [if_neg hhead] at hhigh
            rw [← hhigh]
            exact .inr ⟨_, rfl⟩
  next => cases h

theorem foldl_div_of_seven {value : ℕ} {values : List ℕ} (hbounded : ∀ v ∈ values, v < 65536)
    (hseven : values.length = 7) :
    (value :: values).foldl (fun acc v => acc * 65536 + v) 0 / 2 ^ 112 = value := by
  obtain ⟨low, hlow, heq⟩ := exists_foldl_eq hbounded (0 * 65536 + value)
  rw [List.foldl_cons, heq, hseven]
  rw [hseven] at hlow
  omega

theorem exists_cons_cons {α : Type*} {l : List α} (h : 3 ≤ l.length) :
    ∃ a b rest, l = a :: b :: rest := by
  rcases l with _ | ⟨a, _ | ⟨b, rest⟩⟩
  · simp at h
  · simp at h
  · exact ⟨a, b, rest, rfl⟩

/-- An IPv6 address begins with a group of digits and a colon. -/
theorem exists_firstGroup {text : List Char} {address : ℕ} (h : parseV6 text = some address) :
    ∃ group rest, text = group ++ ':' :: rest ∧ (∀ c ∈ group, isHexDigit c) ∧
      (group ≠ [] → address / 2 ^ 112 = ofHexDigits group) := by
  rw [parseV6] at h
  split at h
  next => cases h
  next hlength =>
    obtain ⟨parts, hparts, h⟩ := Option.bind_eq_some_iff.mp h
    split at h
    next => cases h
    next =>
      obtain ⟨hextets, hexpand, h⟩ := Option.bind_eq_some_iff.mp h
      obtain ⟨values, hvalues, h⟩ := Option.bind_eq_some_iff.mp h
      obtain rfl := Option.some.inj h
      have htext : List.intercalate [':'] (text.splitOn ':') = text :=
        List.intercalate_splitOn ':'
      -- three parts at least, so that a colon follows the first one
      obtain ⟨part, part', more, hsplit⟩ := exists_cons_cons (Nat.le_of_not_lt hlength)
      rw [hsplit] at hparts htext
      rw [List.intercalate_cons_cons, List.append_assoc, List.singleton_append] at htext
      obtain ⟨rest, rfl⟩ := hextetParts_cons hparts
      obtain ⟨hlength', hfirst⟩ := expandParts_cons hexpand
      refine ⟨part, _, htext.symm, ?_, ?_⟩
      · obtain rfl | ⟨hextets', rfl⟩ := hfirst
        · exact fun c hc => absurd hc List.not_mem_nil
        · obtain ⟨value, _, hvalue, -, -⟩ := Fallible.mapM_cons_eq_some_iff.mp hvalues
          exact (parseHextet_eq_some hvalue).2.1
      · intro hpart
        obtain ⟨hextets', rfl⟩ := hfirst.resolve_left hpart
        obtain ⟨value, values', hvalue, hvalues', rfl⟩ :=
          Fallible.mapM_cons_eq_some_iff.mp hvalues
        obtain ⟨-, -, rfl, -⟩ := parseHextet_eq_some hvalue
        have hbounded : ∀ v ∈ values', v < 65536 := by
          intro v hv
          obtain ⟨hextet, -, hhextet⟩ := Fallible.exists_of_mem_mapM hvalues' v hv
          exact (parseHextet_eq_some hhextet).2.2.2
        have hseven : values'.length = 7 := by
          have hmap := congrArg List.length (Fallible.mapM_eq_some_iff.mp hvalues')
          rw [List.length_map, List.length_map] at hmap
          rw [List.length_cons] at hlength'
          omega
        exact foldl_div_of_seven hbounded hseven

theorem exists_firstGroup_of_ipAddress {text : List Char} {address : ℕ}
    (h : ipAddress text = some (.v6 address)) :
    ∃ group rest, text = group ++ ':' :: rest ∧ (∀ c ∈ group, isHexDigit c) ∧
      (group ≠ [] → address / 2 ^ 112 = ofHexDigits group) := by
  rw [ipAddress] at h
  split at h
  next => cases h
  next =>
    obtain ⟨value, hvalue, hsame⟩ := Option.map_eq_some_iff.mp h
    obtain rfl := IpAddress.v6.inj hsame
    obtain ⟨front, hfront, hparse⟩ := Option.bind_eq_some_iff.mp hvalue
    obtain ⟨group, rest, rfl, hgroup⟩ := exists_firstGroup hparse
    have htext : List.intercalate ['%'] (text.splitOn '%') = text := List.intercalate_splitOn '%'
    rw [splitScopeId] at hfront
    split at hfront
    next hsplit =>
      obtain rfl := Option.some.inj hfront
      rw [hsplit, List.intercalate_singleton] at htext
      exact ⟨group, rest, htext.symm, hgroup⟩
    next front scope hsplit =>
      split at hfront
      next => cases hfront
      next =>
        obtain rfl := Option.some.inj hfront
        rw [hsplit] at htext
        refine ⟨group, rest ++ '%' :: scope, ?_, hgroup⟩
        rw [← htext]
        simp
    next => cases hfront

end Net
