import Mathlib.Data.Nat.Notation

/-!
# UTF-8

`TextEncoder` and `TextDecoder`. The decoder does not fail: it puts a replacement character where
the bytes are no UTF-8, and takes a byte order mark at the beginning away.

* `decode_encode`: a text that does not start with a byte order mark comes back.
-/

namespace Utf8

/-- `TextEncoder.encode`. -/
def encode (text : List Char) : List UInt8 := text.flatMap String.utf8EncodeChar

/-- U+FFFD. -/
def replacement : Char := .ofNat 0xfffd

/-- U+FEFF. -/
def byteOrderMark : Char := .ofNat 0xfeff

/-- What the decoder remembers between two bytes: how many it still needs for a character, what
the next one may be, and the bits of the character so far. -/
structure Decoder where
  needed : ℕ := 0
  lower : ℕ := 0x80
  upper : ℕ := 0xbf
  codePoint : ℕ := 0
deriving DecidableEq

/-- The first byte of a character. -/
def start (b : ℕ) : Decoder × List Char :=
  if b < 0x80 then ({}, [.ofNat b])
  else if 0xc2 ≤ b ∧ b ≤ 0xdf then ({ needed := 1, codePoint := b - 0xc0 }, [])
  else if 0xe0 ≤ b ∧ b ≤ 0xef then
    ({ needed := 2, codePoint := b - 0xe0
       lower := if b = 0xe0 then 0xa0 else 0x80
       upper := if b = 0xed then 0x9f else 0xbf }, [])
  else if 0xf0 ≤ b ∧ b ≤ 0xf4 then
    ({ needed := 3, codePoint := b - 0xf0
       lower := if b = 0xf0 then 0x90 else 0x80
       upper := if b = 0xf4 then 0x8f else 0xbf }, [])
  else ({}, [replacement])

/-- A byte. One that does not belong to the character that was begun starts the next one. -/
def Decoder.step (d : Decoder) (b : ℕ) : Decoder × List Char :=
  if d.needed = 0 then start b
  else if b < d.lower ∨ d.upper < b then ((start b).1, replacement :: (start b).2)
  else
    let codePoint := d.codePoint * 64 + (b - 0x80)
    if d.needed = 1 then ({}, [.ofNat codePoint])
    else ({ needed := d.needed - 1, codePoint }, [])

/-- The characters of the remaining bytes. -/
def Decoder.decode (d : Decoder) : List UInt8 → List Char
  | [] => if d.needed = 0 then [] else [replacement]
  | b :: bs => (d.step b.toNat).2 ++ Decoder.decode (d.step b.toNat).1 bs

/-- `TextDecoder.decode`. -/
def decode (bytes : List UInt8) : List Char :=
  Decoder.decode {} (if bytes.take 3 = [0xef, 0xbb, 0xbf] then bytes.drop 3 else bytes)

/-! ### Round trip -/

theorem step_continue {d : Decoder} {b p : ℕ} (hneeded : 2 ≤ d.needed) (hlower : d.lower ≤ b)
    (hupper : b ≤ d.upper) (hbits : d.codePoint * 64 + (b - 0x80) = p) :
    d.step b = ({ needed := d.needed - 1, codePoint := p }, []) := by
  rw [Decoder.step, if_neg (by omega), if_neg (by omega), hbits]
  exact if_neg (by omega)

theorem step_last (c : Char) :
    Decoder.step { needed := 1, codePoint := c.toNat / 64 } (c.toNat % 0x40 + 0x80) =
      ({}, [c]) := by
  have hbits : c.toNat / 64 * 64 + (c.toNat % 0x40 + 0x80 - 0x80) = c.toNat := by omega
  rw [Decoder.step, if_neg (Nat.succ_ne_zero 0), if_neg (by dsimp only; omega)]
  rw [if_pos rfl, hbits, Char.ofNat_toNat]

theorem decode_cons {d d' : Decoder} {n : ℕ} {out : List Char} (hn : n < 256)
    (h : d.step n = (d', out)) (bs : List UInt8) :
    d.decode (.ofNat n :: bs) = out ++ d'.decode bs := by
  rw [Decoder.decode, UInt8.toNat_ofNat_of_lt' hn, h]

section Character

variable {c : Char} (bs : List UInt8)

theorem decode_two (h : 0x7f < c.toNat) (h' : c.toNat ≤ 0x7ff) :
    Decoder.decode {} (.ofNat (c.toNat / 64 % 0x20 + 0xc0) ::
      .ofNat (c.toNat % 0x40 + 0x80) :: bs) = c :: Decoder.decode {} bs := by
  have hfirst : Decoder.step {} (c.toNat / 64 % 0x20 + 0xc0) =
      ({ needed := 1, codePoint := c.toNat / 64 }, []) := by
    have hbits : c.toNat / 64 % 0x20 + 0xc0 - 0xc0 = c.toNat / 64 := by omega
    rw [Decoder.step, if_pos rfl, start, if_neg (by omega), if_pos (by omega), hbits]
  rw [decode_cons (by omega) hfirst, decode_cons (by omega) (step_last c)]
  rfl

theorem decode_three (h : 0x7ff < c.toNat) (h' : c.toNat ≤ 0xffff) :
    Decoder.decode {} (.ofNat (c.toNat / 4096 % 0x10 + 0xe0) ::
      .ofNat (c.toNat / 64 % 0x40 + 0x80) :: .ofNat (c.toNat % 0x40 + 0x80) :: bs) =
      c :: Decoder.decode {} bs := by
  have hvalid : c.toNat.isValidChar := c.valid
  rw [Nat.isValidChar] at hvalid
  have hfirst : Decoder.step {} (c.toNat / 4096 % 0x10 + 0xe0) =
      ({ needed := 2, codePoint := c.toNat / 4096
         lower := if c.toNat / 4096 = 0 then 0xa0 else 0x80
         upper := if c.toNat / 4096 = 13 then 0x9f else 0xbf }, []) := by
    have hbits : c.toNat / 4096 % 0x10 = c.toNat / 4096 := by omega
    rw [Decoder.step, if_pos rfl, start, if_neg (by omega), if_neg (by omega),
      if_pos (by omega), hbits, Nat.add_sub_cancel]
    simp only [Nat.add_eq_right, Nat.reduceEqDiff]
  -- the second byte of a character above U+07FF that is no surrogate is within its bounds
  have hsecond : Decoder.step
      { needed := 2, codePoint := c.toNat / 4096
        lower := if c.toNat / 4096 = 0 then 0xa0 else 0x80
        upper := if c.toNat / 4096 = 13 then 0x9f else 0xbf } (c.toNat / 64 % 0x40 + 0x80) =
      ({ needed := 1, codePoint := c.toNat / 64 }, []) :=
    step_continue (Nat.le_refl _) (by dsimp only; split <;> omega)
      (by dsimp only; split <;> omega) (by dsimp only; omega)
  rw [decode_cons (by omega) hfirst, decode_cons (by omega) hsecond,
    decode_cons (by omega) (step_last c)]
  rfl

theorem decode_four (h : 0xffff < c.toNat) :
    Decoder.decode {} (.ofNat (c.toNat / 262144 % 0x08 + 0xf0) ::
      .ofNat (c.toNat / 4096 % 0x40 + 0x80) :: .ofNat (c.toNat / 64 % 0x40 + 0x80) ::
      .ofNat (c.toNat % 0x40 + 0x80) :: bs) = c :: Decoder.decode {} bs := by
  have hvalid : c.toNat.isValidChar := c.valid
  rw [Nat.isValidChar] at hvalid
  have hfirst : Decoder.step {} (c.toNat / 262144 % 0x08 + 0xf0) =
      ({ needed := 3, codePoint := c.toNat / 262144
         lower := if c.toNat / 262144 = 0 then 0x90 else 0x80
         upper := if c.toNat / 262144 = 4 then 0x8f else 0xbf }, []) := by
    have hbits : c.toNat / 262144 % 0x08 = c.toNat / 262144 := by omega
    rw [Decoder.step, if_pos rfl, start, if_neg (by omega), if_neg (by omega),
      if_neg (by omega), if_pos (by omega), hbits, Nat.add_sub_cancel]
    simp only [Nat.add_eq_right, Nat.reduceEqDiff]
  have hsecond : Decoder.step
      { needed := 3, codePoint := c.toNat / 262144
        lower := if c.toNat / 262144 = 0 then 0x90 else 0x80
        upper := if c.toNat / 262144 = 4 then 0x8f else 0xbf } (c.toNat / 4096 % 0x40 + 0x80) =
      ({ needed := 2, codePoint := c.toNat / 4096 }, []) :=
    step_continue (Nat.le_succ _) (by dsimp only; split <;> omega)
      (by dsimp only; split <;> omega) (by dsimp only; omega)
  have hthird : Decoder.step { needed := 2, codePoint := c.toNat / 4096 }
      (c.toNat / 64 % 0x40 + 0x80) = ({ needed := 1, codePoint := c.toNat / 64 }, []) :=
    step_continue (Nat.le_refl _) (Nat.le_add_left _ _) (by dsimp only; omega)
      (by dsimp only; omega)
  rw [decode_cons (by omega) hfirst, decode_cons (by omega) hsecond, decode_cons (by omega) hthird,
    decode_cons (by omega) (step_last c)]
  rfl

theorem decode_utf8EncodeChar (c : Char) (bs : List UInt8) :
    Decoder.decode {} (String.utf8EncodeChar c ++ bs) = c :: Decoder.decode {} bs := by
  have hc : c.val.toNat = c.toNat := rfl
  rw [String.utf8EncodeChar]
  simp only [hc]
  by_cases h1 : c.toNat ≤ 0x7f
  · have hfirst : Decoder.step {} c.toNat = ({}, [c]) := by
      rw [Decoder.step, if_pos rfl, start, if_pos (by omega), Char.ofNat_toNat]
    rw [if_pos h1, List.singleton_append, decode_cons (by omega) hfirst]
    rfl
  by_cases h2 : c.toNat ≤ 0x7ff
  · rw [if_neg h1, if_pos h2]
    exact decode_two bs (Nat.lt_of_not_le h1) h2
  by_cases h3 : c.toNat ≤ 0xffff
  · rw [if_neg h1, if_neg h2, if_pos h3]
    exact decode_three bs (Nat.lt_of_not_le h2) h3
  · rw [if_neg h1, if_neg h2, if_neg h3]
    exact decode_four bs (Nat.lt_of_not_le h3)

end Character

theorem decode_text (text : List Char) : Decoder.decode {} (encode text) = text := by
  induction text with
  | nil => rfl
  | cons c text ih => rw [encode, List.flatMap_cons, decode_utf8EncodeChar, ← encode, ih]

/-- **Round trip.** -/
theorem decode_encode {text : List Char} (h : ∀ c ∈ text.head?, c ≠ byteOrderMark) :
    decode (encode text) = text := by
  rw [decode, if_neg, decode_text]
  intro hmark
  have hbytes : encode text = [0xef, 0xbb, 0xbf] ++ (encode text).drop 3 := by
    rw [← hmark, List.take_append_drop]
  have htext := decode_text text
  have hmark' : String.utf8EncodeChar byteOrderMark = [0xef, 0xbb, 0xbf] := by decide
  rw [hbytes, ← hmark', decode_utf8EncodeChar] at htext
  have hhead : text.head? = some byteOrderMark := by rw [← htext, List.head?_cons]
  exact h byteOrderMark hhead rfl

theorem length_utf8EncodeChar_le (c : Char) : (String.utf8EncodeChar c).length ≤ 4 := by
  rw [String.utf8EncodeChar]
  split
  · exact Nat.le_add_left 1 3
  split
  · exact Nat.le_add_left 2 2
  split
  · exact Nat.le_add_left 3 1
  · exact Nat.le_refl 4

theorem length_encode_le (text : List Char) : (encode text).length ≤ 4 * text.length := by
  induction text with
  | nil => exact Nat.le_refl 0
  | cons c text ih =>
    have hc := length_utf8EncodeChar_le c
    rw [encode, List.flatMap_cons, ← encode, List.length_append, List.length_cons]
    omega

theorem length_encode_of_lt {text : List Char} (h : ∀ c ∈ text, c.toNat < 0x80) :
    (encode text).length = text.length := by
  induction text with
  | nil => rfl
  | cons c text ih =>
    have hc : c.val.toNat ≤ 0x7f := Nat.le_of_lt_succ (h c List.mem_cons_self)
    have hone : (String.utf8EncodeChar c).length = 1 := by
      rw [String.utf8EncodeChar, if_pos hc]
      rfl
    rw [encode, List.flatMap_cons, ← encode, List.length_append, hone, List.length_cons,
      ih fun d hd => h d (List.mem_cons_of_mem c hd), Nat.add_comm]

end Utf8
