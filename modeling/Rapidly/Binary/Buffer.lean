import Rapidly.Binary.LittleEndian

/-!
# Writing into byte buffers

A `Write` puts bytes at an offset of a buffer of a fixed size, over what is there. A list of them
that is carried out relative to a base (`writeAll`) is how a record is written by hand into the
middle of a buffer.

`writeAll_append` says that such a list leaves alone what is in front of the base and what is
behind the record, so a record can be computed by itself. `writeAll_sequential` is about writes of
which each begins where the one before it ends.
-/

namespace Binary

/-- Bytes for an offset. -/
structure Write where
  offset : ℕ
  data : List UInt8

/-- `setUint8`. -/
def setUint8 (offset value : ℕ) : Write := ⟨offset, leBytes 1 value⟩

/-- `setUint16`, little-endian. -/
def setUint16 (offset value : ℕ) : Write := ⟨offset, leBytes 2 value⟩

/-- `setUint32`, little-endian. -/
def setUint32 (offset value : ℕ) : Write := ⟨offset, leBytes 4 value⟩

/-- `setUint16`, big-endian. -/
def setUint16BE (offset value : ℕ) : Write := ⟨offset, beBytes 2 value⟩

/-- `setUint32`, big-endian. -/
def setUint32BE (offset value : ℕ) : Write := ⟨offset, beBytes 4 value⟩

/-- A buffer of zeros. -/
def zeros (n : ℕ) : List UInt8 := List.replicate n 0

/-- Put bytes over those of a buffer. -/
def writeAt (buffer : List UInt8) (i : ℕ) (data : List UInt8) : List UInt8 :=
  buffer.take i ++ data ++ buffer.drop (i + data.length)

/-- Carry out the writes in order, at offsets from a base. -/
def writeAll (buffer : List UInt8) (base : ℕ) (writes : List Write) : List UInt8 :=
  writes.foldl (fun buffer w => writeAt buffer (base + w.offset) w.data) buffer

/-- The write stays within `n` bytes. -/
def Write.Within (n : ℕ) (w : Write) : Prop := w.offset + w.data.length ≤ n

section Lemmas

variable {buffer front back data : List UInt8} {n i base : ℕ} {w : Write} {writes ws : List Write}

@[simp] theorem length_zeros (n : ℕ) : (zeros n).length = n := List.length_replicate

theorem zeros_add (m n : ℕ) : zeros (m + n) = zeros m ++ zeros n :=
  List.replicate_append_replicate.symm

theorem length_writeAt (h : i + data.length ≤ buffer.length) :
    (writeAt buffer i data).length = buffer.length := by
  rw [writeAt, List.length_append, List.length_append, List.length_take, List.length_drop]
  omega

theorem take_writeAt (h : i ≤ buffer.length) :
    (writeAt buffer i data).take (i + data.length) = buffer.take i ++ data := by
  refine List.take_left' ?_
  rw [List.length_append, List.length_take, Nat.min_eq_left h]

theorem writeAt_writeAt {xs ys : List UInt8} (h : i + xs.length ≤ buffer.length) :
    writeAt (writeAt buffer i xs) (i + xs.length) ys = writeAt buffer i (xs ++ ys) := by
  have hlength : (buffer.take i ++ xs).length = i + xs.length := by
    rw [List.length_append, List.length_take]
    omega
  have hdrop : (writeAt buffer i xs).drop (i + xs.length + ys.length) =
      buffer.drop (i + (xs.length + ys.length)) := by
    rw [writeAt, ← hlength, List.drop_length_add_append, List.drop_drop, hlength, Nat.add_assoc]
  rw [writeAt, take_writeAt (by omega), hdrop, writeAt, List.length_append, List.append_assoc _ xs]

theorem writeAt_append (h : i + data.length ≤ buffer.length) :
    writeAt (front ++ (buffer ++ back)) (front.length + i) data =
      front ++ (writeAt buffer i data ++ back) := by
  have htake : (buffer ++ back).take i = buffer.take i :=
    List.take_append_of_le_length (by omega)
  have hdrop : (buffer ++ back).drop (i + data.length) = buffer.drop (i + data.length) ++ back :=
    List.drop_append_of_le_length h
  rw [writeAt, writeAt, List.take_length_add_append, htake, Nat.add_assoc,
    List.drop_length_add_append, hdrop]
  simp only [List.append_assoc]

theorem writeAt_middle (h : data.length = buffer.length) :
    writeAt (front ++ (buffer ++ back)) front.length data = front ++ (data ++ back) := by
  rw [writeAt, List.take_left, h, List.drop_length_add_append, List.drop_left,
    List.append_assoc]

@[simp] theorem writeAll_nil : writeAll buffer base [] = buffer := rfl

@[simp] theorem writeAll_cons : writeAll buffer base (w :: writes) =
    writeAll (writeAt buffer (base + w.offset) w.data) base writes := rfl

theorem writeAll_concat : writeAll buffer base (writes ++ ws) =
    writeAll (writeAll buffer base writes) base ws := List.foldl_append

/-! ### Writes within bounds -/

@[simp] theorem within_mk : Write.Within n ⟨i, data⟩ ↔ i + data.length ≤ n := Iff.rfl

@[simp] theorem within_setUint8 {v : ℕ} : (setUint8 i v).Within n ↔ i + 1 ≤ n := by
  simp [setUint8]

@[simp] theorem within_setUint16 {v : ℕ} : (setUint16 i v).Within n ↔ i + 2 ≤ n := by
  simp [setUint16]

@[simp] theorem within_setUint32 {v : ℕ} : (setUint32 i v).Within n ↔ i + 4 ≤ n := by
  simp [setUint32]

@[simp] theorem within_setUint16BE {v : ℕ} : (setUint16BE i v).Within n ↔ i + 2 ≤ n := by
  simp [setUint16BE]

@[simp] theorem within_setUint32BE {v : ℕ} : (setUint32BE i v).Within n ↔ i + 4 ≤ n := by
  simp [setUint32BE]

theorem length_writeAll (h : ∀ w ∈ writes, w.Within buffer.length) :
    (writeAll buffer 0 writes).length = buffer.length := by
  induction writes generalizing buffer with
  | nil => rfl
  | cons w writes ih =>
    obtain ⟨hw, hrest⟩ := List.forall_mem_cons.mp h
    have hlength : (writeAt buffer (0 + w.offset) w.data).length = buffer.length := by
      rw [Nat.zero_add]
      exact length_writeAt hw
    rw [writeAll_cons, ih, hlength]
    rw [hlength]
    exact hrest

/-- **A record in a buffer.** Writes that stay within a record touch nothing else. -/
theorem writeAll_append (h : ∀ w ∈ writes, w.Within buffer.length) :
    writeAll (front ++ (buffer ++ back)) front.length writes =
      front ++ (writeAll buffer 0 writes ++ back) := by
  induction writes generalizing buffer with
  | nil => rfl
  | cons w writes ih =>
    obtain ⟨hw, hrest⟩ := List.forall_mem_cons.mp h
    have hlength : (writeAt buffer w.offset w.data).length = buffer.length := length_writeAt hw
    rw [writeAll_cons, writeAll_cons, Nat.zero_add, writeAt_append hw, ih]
    rw [hlength]
    exact hrest

/-! ### Writes that follow each other -/

/-- Each write begins where the one before it ends. -/
def Sequential : ℕ → List Write → Prop
  | _, [] => True
  | i, w :: writes => w.offset = i ∧ Sequential (i + w.data.length) writes

/-- The data of some writes, as it comes. -/
def writtenData (writes : List Write) : List UInt8 := writes.flatMap Write.data

/-- **A buffer that is filled** has the data of the writes one after the other. -/
theorem writeAll_sequential (h : Sequential front.length writes) :
    writeAll (front ++ zeros (writtenData writes).length) 0 writes =
      front ++ writtenData writes := by
  induction writes generalizing front with
  | nil => rfl
  | cons w writes ih =>
    obtain ⟨hoffset, hrest⟩ := h
    have hdata : writtenData (w :: writes) = w.data ++ writtenData writes := List.flatMap_cons
    have hwrite : writeAt (front ++ (zeros w.data.length ++ zeros (writtenData writes).length))
        front.length w.data = (front ++ w.data) ++ zeros (writtenData writes).length := by
      rw [writeAt_middle (length_zeros _).symm, List.append_assoc]
    rw [writeAll_cons, Nat.zero_add, hoffset, hdata, List.length_append, zeros_add, hwrite, ih,
      List.append_assoc]
    rwa [List.length_append]

theorem writeAll_zeros (h : Sequential 0 writes) (hn : (writtenData writes).length = n) :
    writeAll (zeros n) 0 writes = writtenData writes := by
  subst hn
  exact @writeAll_sequential [] writes h

end Lemmas

end Binary
