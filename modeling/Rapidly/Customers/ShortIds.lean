import Mathlib.Data.Nat.Digits.Lemmas

/-!
# Short ids of customers

`generate_customer_short_id`, a function of the database, and `short_id_to_base26` of
`models/customer.py`. An id has the milliseconds since the start of 2023 and ten bits of a
sequence; it is shown in letters, with the letter of the digit zero in front where it has fewer
than eight.

The letters are the digits of the id in base 26 (`reverse_shortIdToBase26`). Eight of them are
enough for the ids of the first two days; an id of fifty-two bits can need twelve.

* `encodes_iff`: different ids are shown as different texts which give them back, exactly if the
  shift by ten bits has not run over the sign.
-/

namespace Rapidly.Customers.ShortId

/-! ### Generating -/

/-- A `TIMESTAMP WITH TIME ZONE`: microseconds since 1970, up to the end of the type. -/
structure Timestamp where
  micros : ℤ
  lt_end : micros < 9224318016000000000
deriving DecidableEq

/-- `FLOOR(EXTRACT(EPOCH FROM creation_timestamp) * 1000)` -/
def Timestamp.millis (t : Timestamp) : ℤ := t.micros / 1000

/-- `our_epoch`, 2023-01-01 -/
def ourEpoch : ℤ := 1672531200000

/-- `generate_customer_short_id`, where the sequence gives the next value. -/
def generateCustomerShortId (creationTimestamp : Timestamp) (nextval : ℕ) : ℤ :=
  let seqId : BitVec 64 := .ofNat 64 (nextval % 1024)
  let nowMillis := creationTimestamp.millis
  let result := BitVec.ofInt 64 (nowMillis - ourEpoch) <<< 10
  (result ||| seqId).toInt

/-! ### Letters -/

/-- `_BASE26_CHARS` -/
def base26Chars : List Char := "ABCDEFGHIJKLMNOPQRSTUVWXYZ".toList

/-- `_SHORT_ID_WIDTH` -/
def shortIdWidth : ℕ := 8

/-- The letter of a digit. -/
def letter (digit : ℕ) : Char := base26Chars.getD digit 'A'

/-- The loop of `short_id_to_base26`: the letters of the digits, the last one first. -/
def base26Digits (remaining : ℕ) : List Char :=
  if remaining = 0 then [] else letter (remaining % 26) :: base26Digits (remaining / 26)
decreasing_by omega

/-- `text.rjust(width, fill)` -/
def rjust (text : List Char) (width : ℕ) (fill : Char) : List Char :=
  List.replicate (width - text.length) fill ++ text

/-- `short_id_to_base26`; for a negative id the loop does nothing. -/
def shortIdToBase26 (shortId : ℤ) : List Char :=
  rjust (base26Digits shortId.toNat).reverse shortIdWidth 'A'

/-- The id that letters show. -/
def ofBase26 (text : List Char) : ℤ :=
  (Nat.ofDigits 26 (text.reverse.map fun c => base26Chars.idxOf c) : ℕ)

/-- The text of an id: uppercase letters, eight where these are enough and otherwise more, which
give the id back. -/
structure Shows (id : ℤ) (text : List Char) : Prop where
  letters : ∀ c ∈ text, 'A' ≤ c ∧ c ≤ 'Z'
  width : shortIdWidth ≤ text.length
  width_eq_iff : text.length = shortIdWidth ↔ id < 26 ^ shortIdWidth
  recovered : ofBase26 text = id

/-- Two ids are shown, and as different texts. -/
structure Encodes (id id' : ℤ) : Prop where
  shows : Shows id (shortIdToBase26 id)
  shows' : Shows id' (shortIdToBase26 id')
  distinct : shortIdToBase26 id ≠ shortIdToBase26 id'

section Letters

variable {digit n : ℕ} {id : ℤ}

theorem idxOf_letter (h : digit < 26) : base26Chars.idxOf (letter digit) = digit := by
  have hall : ∀ d < 26, base26Chars.idxOf (letter d) = d := by decide
  exact hall digit h

theorem letter_mem (h : digit < 26) : 'A' ≤ letter digit ∧ letter digit ≤ 'Z' := by
  have hall : ∀ d < 26, 'A' ≤ letter d ∧ letter d ≤ 'Z' := by decide
  exact hall digit h

theorem base26Digits_eq (n : ℕ) : base26Digits n = (Nat.digits 26 n).map letter := by
  induction n using base26Digits.induct with
  | case1 => simp [base26Digits]
  | case2 n hn ih =>
    rw [base26Digits, if_neg hn, ih, Nat.digits_def' (by decide) (Nat.pos_of_ne_zero hn),
      List.map_cons]

theorem reverse_shortIdToBase26 (id : ℤ) : (shortIdToBase26 id).reverse =
    (Nat.digits 26 id.toNat ++
      List.replicate (8 - (Nat.digits 26 id.toNat).length) 0).map letter := by
  rw [shortIdToBase26, rjust, List.reverse_append, List.reverse_reverse, List.reverse_replicate,
    base26Digits_eq, List.map_append, List.length_reverse, List.length_map, List.map_replicate]
  rfl

theorem length_shortIdToBase26 (id : ℤ) :
    (shortIdToBase26 id).length = max 8 (Nat.digits 26 id.toNat).length := by
  rw [← List.length_reverse, reverse_shortIdToBase26, List.length_map, List.length_append,
    List.length_replicate]
  omega

theorem digit_lt {id : ℤ} {d : ℕ} (hd : d ∈ Nat.digits 26 id.toNat ++
    List.replicate (8 - (Nat.digits 26 id.toNat).length) 0) : d < 26 := by
  rcases List.mem_append.mp hd with hd | hd
  · exact Nat.digits_lt_base (by decide) hd
  · rw [List.eq_of_mem_replicate hd]
    decide

theorem ofBase26_shortIdToBase26 (id : ℤ) : ofBase26 (shortIdToBase26 id) = id.toNat := by
  have hidx : ∀ d ∈ Nat.digits 26 id.toNat ++
      List.replicate (8 - (Nat.digits 26 id.toNat).length) 0,
      ((fun c => base26Chars.idxOf c) ∘ letter) d = d := fun d hd => idxOf_letter (digit_lt hd)
  rw [ofBase26, reverse_shortIdToBase26, List.map_map, List.map_congr_left hidx, List.map_id',
    Nat.ofDigits_append_replicate_zero, Nat.ofDigits_digits]

theorem mem_shortIdToBase26 {c : Char} (hc : c ∈ shortIdToBase26 id) : 'A' ≤ c ∧ c ≤ 'Z' := by
  rw [← List.mem_reverse, reverse_shortIdToBase26] at hc
  obtain ⟨d, hd, rfl⟩ := List.mem_map.mp hc
  exact letter_mem (digit_lt hd)

theorem shows_iff : Shows id (shortIdToBase26 id) ↔ 0 ≤ id := by
  constructor
  · intro h
    rw [← h.recovered, ofBase26_shortIdToBase26]
    exact Int.natCast_nonneg _
  · intro hid
    obtain ⟨n, rfl⟩ := Int.eq_ofNat_of_zero_le hid
    refine ⟨fun c => mem_shortIdToBase26, ?_, ?_, ofBase26_shortIdToBase26 _⟩
    · rw [length_shortIdToBase26]
      exact Nat.le_max_left ..
    · have hfits := Nat.digits_length_le_iff (b := 26) (k := 8) (by decide) n
      rw [length_shortIdToBase26, Int.toNat_natCast, shortIdWidth]
      omega

end Letters

/-! ### Bits -/

section Bits

variable {t : Timestamp} {nextval : ℕ}

theorem Timestamp.millis_lt (t : Timestamp) : t.millis - ourEpoch < 2 ^ 54 := by
  have hend := t.lt_end
  rw [Timestamp.millis, ourEpoch]
  omega

theorem generateCustomerShortId_eq (h : ourEpoch ≤ t.millis) (nextval : ℕ) :
    generateCustomerShortId t nextval =
      Int.bmod ((t.millis - ourEpoch) * 1024 + (nextval % 1024 : ℕ)) (2 ^ 64) := by
  obtain ⟨m, hm⟩ := Int.eq_ofNat_of_zero_le (Int.sub_nonneg.mpr h)
  have hlt := t.millis_lt
  rw [hm] at hlt
  have hseq : nextval % 1024 < 2 ^ 10 := Nat.mod_lt _ (by decide)
  have hshift : (m % 2 ^ 64) <<< 10 % 2 ^ 64 = m <<< 10 := by
    rw [Nat.mod_eq_of_lt (by omega), Nat.shiftLeft_eq]
    omega
  have hbits : (BitVec.ofNat 64 m <<< 10 ||| BitVec.ofNat 64 (nextval % 1024)).toNat =
      m * 1024 + nextval % 1024 := by
    rw [BitVec.toNat_or, BitVec.toNat_shiftLeft, BitVec.toNat_ofNat, BitVec.toNat_ofNat, hshift,
      Nat.mod_eq_of_lt (b := 2 ^ 64) (by omega), ← Nat.shiftLeft_add_eq_or_of_lt hseq,
      Nat.shiftLeft_eq]
  rw [generateCustomerShortId, hm, BitVec.ofInt_natCast, BitVec.toInt_eq_toNat_bmod, hbits]
  rfl

theorem generateCustomerShortId_nonneg_iff (h : ourEpoch ≤ t.millis) :
    0 ≤ generateCustomerShortId t nextval ↔ t.millis - ourEpoch < 2 ^ 53 := by
  have hlt := t.millis_lt
  rw [generateCustomerShortId_eq h, Int.bmod_def]
  split <;> omega

end Bits

/-- **Short ids.** -/
theorem encodes_iff {t t' : Timestamp} {nextval nextval' : ℕ} (h : ourEpoch ≤ t.millis)
    (h' : ourEpoch ≤ t'.millis)
    (hne : generateCustomerShortId t nextval ≠ generateCustomerShortId t' nextval') :
    Encodes (generateCustomerShortId t nextval) (generateCustomerShortId t' nextval') ↔
      t.millis - ourEpoch < 2 ^ 53 ∧ t'.millis - ourEpoch < 2 ^ 53 := by
  rw [← generateCustomerShortId_nonneg_iff h, ← generateCustomerShortId_nonneg_iff h']
  constructor
  · intro hencodes
    exact ⟨shows_iff.mp hencodes.shows, shows_iff.mp hencodes.shows'⟩
  · rintro ⟨hid, hid'⟩
    refine ⟨shows_iff.mpr hid, shows_iff.mpr hid', fun hsame => hne ?_⟩
    have hrecovered := congrArg ofBase26 hsame
    rwa [(shows_iff.mpr hid).recovered, (shows_iff.mpr hid').recovered] at hrecovered

/-- Two customers of the first millisecond. -/
theorem encodes_first :
    Encodes (generateCustomerShortId ⟨1672531200000000, by decide⟩ 1)
      (generateCustomerShortId ⟨1672531200000000, by decide⟩ 2) :=
  (encodes_iff (by decide) (by decide) (by decide)).mpr (by decide)

/-- On the fourth day of 2023 eight letters are not enough. -/
theorem length_shortIdToBase26_fourthDay :
    generateCustomerShortId ⟨1672790400000000, by decide⟩ 1 ≠
      generateCustomerShortId ⟨1672790400000000, by decide⟩ 2 ∧
    (shortIdToBase26 (generateCustomerShortId ⟨1672790400000000, by decide⟩ 1)).length ≠ 8 := by
  refine ⟨by decide, fun hlength => ?_⟩
  have hid : generateCustomerShortId ⟨1672790400000000, by decide⟩ 1 = 265420800001 := by decide
  rw [hid] at hlength
  have hsmall := (shows_iff.mpr (by decide)).width_eq_iff.mp hlength
  exact absurd hsmall (by decide)

end Rapidly.Customers.ShortId
