import Rapidly.FileSharing.ZipStream.Layout

/-!
# Incremental checks

`Crc32` is fed a file chunk by chunk. The loop of `append` takes the length of a chunk for a signed
32-bit integer, so that a chunk of 2 GiB is not looked at, and a longer one only in part.

* `get_append`: chunks below 2 GiB give the CRC-32 of the file, however it is divided.
* `checks_iff`: for all others there is a content whose check is wrong.
-/

namespace Rapidly.FileSharing.ZipStream

open Binary

open Crc32 (loopBound)

theorem loopBound_lt {length : ℕ} (h : 2 ^ 31 ≤ length) : (loopBound length).toNat < length := by
  have hbound : loopBound length < 2 ^ 31 := BitVec.toInt_lt
  omega

theorem foldl_append {chunks : List (List UInt8)} (h : ∀ chunk ∈ chunks, chunk.length < 2 ^ 31)
    (c : Crc32) : chunks.foldl Crc32.append c = c.update chunks.flatten := by
  induction chunks generalizing c with
  | nil => rfl
  | cons chunk chunks ih =>
    have hrest := ih fun c hc => h c (List.mem_cons_of_mem chunk hc)
    rw [List.foldl_cons, hrest, Crc32.append_eq_update (h chunk List.mem_cons_self),
      List.flatten_cons, Crc32.update_update]

theorem get_append {chunks : List (List UInt8)} (h : ∀ chunk ∈ chunks, chunk.length < 2 ^ 31) :
    (chunks.foldl Crc32.append {}).get = crc 0xedb88320 chunks.flatten := by
  rw [foldl_append h, Crc32.get_update]

/-- Chunks of given lengths, with zeros but for the last byte of one. -/
def zerosBut (before : List ℕ) (length : ℕ) (last : UInt8) (after : List ℕ) :
    List (List UInt8) :=
  before.map zeros ++ (zeros (length - 1) ++ [last]) :: after.map zeros

theorem length_zerosBut {before after : List ℕ} {length : ℕ} {last : UInt8} (h : 0 < length) :
    (zerosBut before length last after).map List.length = before ++ length :: after := by
  have hzeros : List.length ∘ zeros = id := by
    funext k
    exact length_zeros k
  rw [zerosBut, List.map_append, List.map_cons, List.map_map, List.map_map, hzeros, List.map_id,
    List.map_id, List.length_append, length_zeros, List.length_singleton, Nat.sub_add_cancel h]

theorem foldl_zerosBut {before after : List ℕ} {length : ℕ} (h : 2 ^ 31 ≤ length)
    (last : UInt8) (c : Crc32) :
    (zerosBut before length last after).foldl Crc32.append c =
      (zerosBut before length 0 after).foldl Crc32.append c := by
  have hlength : ∀ x : UInt8, (zeros (length - 1) ++ [x]).length = length := by
    intro x
    rw [List.length_append, length_zeros, List.length_singleton]
    omega
  have hbound := loopBound_lt h
  have htake : ∀ (x : UInt8) (c : Crc32), c.append (zeros (length - 1) ++ [x]) =
      c.update ((zeros (length - 1)).take (loopBound length).toNat) := by
    intro x c
    rw [Crc32.append, hlength, List.take_append_of_le_length]
    rw [length_zeros]
    omega
  simp only [zerosBut, List.foldl_append, List.foldl_cons, htake]

/-- Whatever the lengths are, if one of them is 2 GiB or more, the check of some content is
wrong. -/
theorem exists_wrong_check {lengths : List ℕ} {length : ℕ} (hmem : length ∈ lengths)
    (h : 2 ^ 31 ≤ length) :
    ∃ chunks : List (List UInt8), chunks.map List.length = lengths ∧
      (chunks.foldl Crc32.append {}).get ≠ crc 0xedb88320 chunks.flatten := by
  obtain ⟨before, after, rfl⟩ := List.append_of_mem hmem
  by_contra hall
  push Not at hall
  have hlength : 0 < length := by omega
  have hzero := hall (zerosBut before length 0 after) (length_zerosBut hlength)
  have hone := hall (zerosBut before length 1 after) (length_zerosBut hlength)
  rw [foldl_zerosBut h 1] at hone
  have hsame := hzero.symm.trans hone
  have hflatten : ∀ last : UInt8, (zerosBut before length last after).flatten =
      ((before.map zeros).flatten ++ zeros (length - 1)) ++ last :: (after.map zeros).flatten := by
    intro last
    simp [zerosBut]
  rw [hflatten, hflatten] at hsame
  have hbyte := crc_inj_byte (by decide) (by decide) hsame
  revert hbyte
  decide

/-- **Incremental checks.** The check is the CRC-32 of the bytes, for all chunks of given lengths,
exactly if each length is below 2 GiB. -/
theorem checks_iff (lengths : List ℕ) :
    (∀ chunks : List (List UInt8), chunks.map List.length = lengths →
      (chunks.foldl Crc32.append {}).get = crc 0xedb88320 chunks.flatten) ↔
      ∀ length ∈ lengths, length < 2 ^ 31 := by
  constructor
  · intro hall length hmem
    by_contra hlong
    obtain ⟨chunks, hlengths, hwrong⟩ := exists_wrong_check hmem (not_lt.mp hlong)
    exact hwrong (hall chunks hlengths)
  · rintro hshort chunks rfl
    exact get_append fun chunk hchunk => hshort _ (List.mem_map_of_mem hchunk)

/-- Four bytes that bring the register to zero, and zeros up to 2 GiB. -/
def twoGiB : List UInt8 := [0xff, 0xff, 0xff, 0xff] ++ zeros (2 ^ 31 - 4)

theorem foldl_shiftByte_zeros (k : ℕ) :
    (zeros k).foldl (shiftByte (0xedb88320 : BitVec 32)) 0 = 0 := by
  induction k with
  | zero => rfl
  | succ k ih => exact ih

/-- The array is not looked at, so that its check is 0. -/
theorem twoGiB_unchecked :
    ¬∀ chunks : List (List UInt8),
      (chunks.foldl Crc32.append {}).get = crc 0xedb88320 chunks.flatten := by
  intro h
  have hcheck := h [twoGiB]
  have hlength : twoGiB.length = 2 ^ 31 := by
    rw [twoGiB, List.length_append, length_zeros]
    rfl
  have hcode : ([twoGiB].foldl Crc32.append {}).get = 0 := by
    change (Crc32.update {} (twoGiB.take (loopBound twoGiB.length).toNat)).get = 0
    rw [hlength]
    rfl
  have hspec : crc 0xedb88320 [twoGiB].flatten = ~~~(0 : BitVec 32) := by
    have hstart :
        [0xff, 0xff, 0xff, 0xff].foldl (shiftByte 0xedb88320) (BitVec.allOnes 32) = 0 := by
      decide +kernel
    rw [List.flatten_singleton, crc, twoGiB, List.foldl_append, hstart, foldl_shiftByte_zeros]
  rw [hcode, hspec] at hcheck
  revert hcheck
  decide

end Rapidly.FileSharing.ZipStream
