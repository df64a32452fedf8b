import Mathlib.Algebra.Order.Ring.Nat

/-!
# Numbers as bytes

`leBytes w n` is the number `n` in `w` bytes, least significant first; what does not fit is cut
off (`ofBytes_leBytes`). `field bytes i w` reads the `w` bytes at offset `i` back. A field in front
of other bytes, or behind them, is what it is by itself, and so the fields of a record are read one
after the other (`field_recordBytes`, `field_recordBytes_cons`).

`lengthPrefixed header payload` is a header behind its length, in front of a payload.
-/

namespace Binary

/-- The `w` low bytes of a number, least significant first. -/
def leBytes : ℕ → ℕ → List UInt8
  | 0, _ => []
  | w + 1, n => UInt8.ofNat n :: leBytes w (n / 256)

/-- The `w` low bytes of a number, most significant first. -/
def beBytes (w n : ℕ) : List UInt8 := (leBytes w n).reverse

/-- The number whose bytes these are, least significant first. -/
def ofBytes : List UInt8 → ℕ
  | [] => 0
  | b :: bs => b.toNat + 256 * ofBytes bs

/-- The bytes of a record: the width of each field, and what is in it. -/
def recordBytes (fields : List (ℕ × ℕ)) : List UInt8 := fields.flatMap fun f => leBytes f.1 f.2

/-- The number in the `w` bytes at an offset. -/
def field (bytes : List UInt8) (i w : ℕ) : ℕ := ofBytes ((bytes.drop i).take w)

@[simp] theorem length_leBytes (w n : ℕ) : (leBytes w n).length = w := by
  induction w generalizing n with
  | zero => rfl
  | succ w ih => rw [leBytes, List.length_cons, ih]

@[simp] theorem length_beBytes (w n : ℕ) : (beBytes w n).length = w := by
  rw [beBytes, List.length_reverse, length_leBytes]

theorem ofBytes_leBytes (w n : ℕ) : ofBytes (leBytes w n) = n % 256 ^ w := by
  induction w generalizing n with
  | zero => rw [pow_zero, Nat.mod_one, leBytes, ofBytes]
  | succ w ih =>
    have hlow : (UInt8.ofNat n).toNat = n % 256 := UInt8.toNat_ofNat'
    rw [leBytes, ofBytes, ih, hlow, pow_succ', Nat.mod_mul]

@[simp] theorem length_recordBytes (fields : List (ℕ × ℕ)) :
    (recordBytes fields).length = (fields.map Prod.fst).sum := by
  rw [recordBytes, List.length_flatMap]
  simp only [length_leBytes]

/-! ### Fields of a list of bytes -/

section Field

variable {a b : List UInt8} {i w : ℕ}

theorem field_append_left (h : i + w ≤ a.length) : field (a ++ b) i w = field a i w := by
  have hdrop : w ≤ (a.drop i).length := by
    rw [List.length_drop]
    omega
  rw [field, List.drop_append_of_le_length (by omega), List.take_append_of_le_length hdrop, field]

theorem field_append_right (h : a.length = i) (j : ℕ) :
    field (a ++ b) (i + j) w = field b j w := by
  subst h
  rw [field, List.drop_length_add_append, field]

@[simp] theorem field_recordBytes (w n : ℕ) (fields : List (ℕ × ℕ)) :
    field (recordBytes ((w, n) :: fields)) 0 w = n % 256 ^ w := by
  have htake : (recordBytes ((w, n) :: fields)).take w = leBytes w n :=
    List.take_left' (length_leBytes w n)
  rw [field, List.drop_zero, htake, ofBytes_leBytes]

@[simp] theorem field_recordBytes_cons {n v : ℕ} {fields : List (ℕ × ℕ)} (h : w ≤ i) :
    field (recordBytes ((w, n) :: fields)) i v = field (recordBytes fields) (i - w) v := by
  obtain ⟨i, rfl⟩ := Nat.exists_eq_add_of_le h
  rw [Nat.add_sub_cancel_left]
  exact field_append_right (length_leBytes w n) i

end Field

/-! ### Length prefixes -/

/-- A header behind its length in four bytes, in front of a payload. -/
def lengthPrefixed (header payload : List UInt8) : List UInt8 :=
  beBytes 4 header.length ++ header ++ payload

/-- The length in the first four bytes. -/
def headerLength (frame : List UInt8) : ℕ := ofBytes (frame.take 4).reverse

section LengthPrefixed

variable (header payload : List UInt8)

@[simp] theorem length_lengthPrefixed :
    (lengthPrefixed header payload).length = 4 + header.length + payload.length := by
  rw [lengthPrefixed, List.length_append, List.length_append, length_beBytes]

theorem headerLength_lengthPrefixed (h : header.length < 2 ^ 32) :
    headerLength (lengthPrefixed header payload) = header.length := by
  have hfirst : (lengthPrefixed header payload).take 4 = beBytes 4 header.length := by
    rw [lengthPrefixed, List.append_assoc]
    exact List.take_left' (length_beBytes 4 _)
  rw [headerLength, hfirst, beBytes, List.reverse_reverse, ofBytes_leBytes]
  exact Nat.mod_eq_of_lt h

theorem take_drop_lengthPrefixed :
    ((lengthPrefixed header payload).drop 4).take header.length = header := by
  rw [lengthPrefixed, List.append_assoc, List.drop_left' (length_beBytes 4 _), List.take_left' rfl]

theorem drop_lengthPrefixed :
    (lengthPrefixed header payload).drop (4 + header.length) = payload := by
  refine List.drop_left' ?_
  rw [List.length_append, length_beBytes]

end LengthPrefixed

end Binary
