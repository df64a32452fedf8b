import Rapidly.FileSharing.StreamingHash

/-!
# The digest of a streamed file

`StreamingSHA256` computes SHA-256, however what it hashes is split into updates.

The arithmetic first: each number that `processBlock` computes stands for a word of the standard,
and no sum is so large that it would be rounded (`round_stand`, `processBlock_h`). Then the buffer:
a hash `Holds` some data if it has taken in its full blocks and has the rest in its buffer, which
`update` and the two forms of the padding keep. A checkpoint changes nothing (`run_checkpoint`).

`digits_eq_digest` puts these together for all sequences of calls. Its bound is the one of the
source: the number of bits is exact up to there.
-/

namespace Rapidly.FileSharing

open Binary Binary.Number

/-! ### Words -/

theorem stands_wordElement (array : List Word) (i : ℕ) :
    Stands (2 ^ 32) (wordElement array i) (array.getD i 0) := stands_toNat _

section Rotations

variable {x : ℤ} {w : Word} {n : ℕ}

theorem stands_rotr (h : Stands (2 ^ 32) x w) (hn : n < 32) :
    Stands (2 ^ 32) (rotr x n) (w.rotateRight n) := by
  rw [BitVec.rotateRight_def, Nat.mod_eq_of_lt hn]
  exact (h.shiftRight n).or (h.shiftLeft (32 - n))

variable {k l m : ℕ}

theorem stands_bigSigma (h : Stands (2 ^ 32) x w) (hk : k < 32) (hl : l < 32) (hm : m < 32) :
    Stands (2 ^ 32) (xor (xor (rotr x k) (rotr x l)) (rotr x m))
      (w.rotateRight k ^^^ w.rotateRight l ^^^ w.rotateRight m) :=
  ((stands_rotr h hk).xor (stands_rotr h hl)).xor (stands_rotr h hm)

theorem stands_smallSigma (h : Stands (2 ^ 32) x w) (hk : k < 32) (hl : l < 32) (m : ℕ) :
    Stands (2 ^ 32) (xor (xor (rotr x k) (rotr x l)) (shiftRight x m))
      (w.rotateRight k ^^^ w.rotateRight l ^^^ (w >>> m)) :=
  ((stands_rotr h hk).xor (stands_rotr h hl)).xor (h.shiftRight m)

end Rotations

/-- The variables stand for words. -/
structure WorkingVariables.Stand (v : WorkingVariables) (s : Sha256.State) : Prop where
  a : Stands (2 ^ 32) v.a s.a
  b : Stands (2 ^ 32) v.b s.b
  c : Stands (2 ^ 32) v.c s.c
  d : Stands (2 ^ 32) v.d s.d
  e : Stands (2 ^ 32) v.e s.e
  f : Stands (2 ^ 32) v.f s.f
  g : Stands (2 ^ 32) v.g s.g
  h : Stands (2 ^ 32) v.h s.h

namespace StreamingSHA256

/-! ### The schedule -/

section Schedule

variable {block : Bytes}

theorem toNat_byte_shiftLeft (x : UInt8) {n : ℕ} (hn : n ≤ 24) :
    (BitVec.ofNat 32 x.toNat <<< n).toNat = x.toNat <<< n := by
  have hx := x.toNat_lt
  have hpow : 2 ^ n ≤ 2 ^ 24 := Nat.pow_le_pow_right (by decide) hn
  have hlt : x.toNat * 2 ^ n < 2 ^ 32 :=
    (Nat.mul_le_mul (by omega : x.toNat ≤ 255) hpow).trans_lt (by decide)
  have hsmall : x.toNat % 2 ^ 32 = x.toNat := Nat.mod_eq_of_lt (by omega)
  rw [BitVec.toNat_shiftLeft, BitVec.toNat_ofNat, hsmall, Nat.shiftLeft_eq, Nat.mod_eq_of_lt hlt]

theorem shiftLeft_or_eq (a b c d : UInt8) :
    (BitVec.ofNat 32 a.toNat <<< 24 ||| BitVec.ofNat 32 b.toNat <<< 16 |||
      BitVec.ofNat 32 c.toNat <<< 8 ||| BitVec.ofNat 32 d.toNat) =
      BitVec.ofNat 32 (ofBytes [d, c, b, a]) := by
  have ha := a.toNat_lt
  have hb := b.toNat_lt
  have hc := c.toNat_lt
  have hd := d.toNat_lt
  have h1 : a.toNat <<< 24 ||| b.toNat <<< 16 = a.toNat * 2 ^ 24 + b.toNat * 2 ^ 16 := by
    rw [← Nat.shiftLeft_add_eq_or_of_lt (by rw [Nat.shiftLeft_eq]; omega), Nat.shiftLeft_eq,
      Nat.shiftLeft_eq]
  have h2 : (a.toNat * 2 ^ 24 + b.toNat * 2 ^ 16) ||| c.toNat <<< 8 =
      a.toNat * 2 ^ 24 + b.toNat * 2 ^ 16 + c.toNat * 2 ^ 8 := by
    have hshift : a.toNat * 2 ^ 24 + b.toNat * 2 ^ 16 = (a.toNat * 2 ^ 8 + b.toNat) <<< 16 := by
      rw [Nat.shiftLeft_eq]
      omega
    rw [hshift, ← Nat.shiftLeft_add_eq_or_of_lt (by rw [Nat.shiftLeft_eq]; omega),
      Nat.shiftLeft_eq c.toNat]
  have h3 : (a.toNat * 2 ^ 24 + b.toNat * 2 ^ 16 + c.toNat * 2 ^ 8) ||| d.toNat =
      a.toNat * 2 ^ 24 + b.toNat * 2 ^ 16 + c.toNat * 2 ^ 8 + d.toNat := by
    have hshift : a.toNat * 2 ^ 24 + b.toNat * 2 ^ 16 + c.toNat * 2 ^ 8 =
        (a.toNat * 2 ^ 16 + b.toNat * 2 ^ 8 + c.toNat) <<< 8 := by
      rw [Nat.shiftLeft_eq]
      omega
    rw [hshift, ← Nat.shiftLeft_add_eq_or_of_lt (by omega)]
  apply BitVec.eq_of_toNat_eq
  rw [BitVec.toNat_or, BitVec.toNat_or, BitVec.toNat_or,
    toNat_byte_shiftLeft a (by decide), toNat_byte_shiftLeft b (by decide),
    toNat_byte_shiftLeft c (by decide), BitVec.toNat_ofNat, Nat.mod_eq_of_lt (by omega), h1, h2, h3,
    BitVec.toNat_ofNat]
  simp only [ofBytes]
  omega

theorem firstWord_eq {t : ℕ} (hblock : block.length = 64) (ht : t < 16) :
    firstWord block t = wordAt block (4 * t) := by
  have hbyte : ∀ i, Stands (2 ^ 32) (byteElement block i)
      (BitVec.ofNat 32 (block.getD i 0).toNat) := by
    intro i
    have hlt := (block.getD i 0).toNat_lt
    refine ⟨?_, rfl⟩
    rw [byteElement, Int.natAbs_natCast]
    omega
  have hfour : (block.drop (4 * t)).take 4 = [block.getD (t * 4) 0, block.getD (t * 4 + 1) 0,
      block.getD (t * 4 + 2) 0, block.getD (t * 4 + 3) 0] := by
    rw [Nat.mul_comm 4 t, List.drop_eq_getElem_cons (by omega : t * 4 < block.length),
      List.drop_eq_getElem_cons (by omega : t * 4 + 1 < block.length),
      List.drop_eq_getElem_cons (by omega : t * 4 + 1 + 1 < block.length),
      List.drop_eq_getElem_cons (by omega : t * 4 + 1 + 1 + 1 < block.length)]
    rw [List.getD_eq_getElem, List.getD_eq_getElem, List.getD_eq_getElem, List.getD_eq_getElem]
    rfl
  have hor := ((((hbyte (t * 4)).shiftLeft 24).or ((hbyte (t * 4 + 1)).shiftLeft 16)).or
    ((hbyte (t * 4 + 2)).shiftLeft 8)).or (hbyte (t * 4 + 3))
  rw [firstWord, hor.toUint32_eq, shiftLeft_or_eq, wordAt, hfour]
  rfl

theorem laterWord_eq {w : List Word} {rest : List Word} (hw : 16 ≤ w.length) :
    laterWord (w ++ rest) w.length = Sha256.nextWord w := by
  have hget : ∀ i < w.length, Stands (2 ^ 32) (wordElement (w ++ rest) i) (w.getD i 0) := by
    intro i hi
    have helement := stands_wordElement (w ++ rest) i
    rwa [List.getD_append _ _ _ _ hi] at helement
  have h16 := hget (w.length - 16) (by omega)
  have h15 := hget (w.length - 15) (by omega)
  have h7 := hget (w.length - 7) (by omega)
  have h2 := hget (w.length - 2) (by omega)
  have hs0 := stands_smallSigma h15 (by decide : 7 < 32) (by decide : 18 < 32) 3
  have hs1 := stands_smallSigma h2 (by decide : 17 < 32) (by decide : 19 < 32) 10
  have hsum := (((h16.add hs0 (by decide)).add h7 (by decide)).add hs1 (by decide)).orZero
  rw [laterWord, hsum.toUint32_eq, Sha256.nextWord, Sha256.smallSigma0, Sha256.smallSigma1]
  ac_rfl

theorem foldl_set_range (g : ℕ → Word) {m n : ℕ} (h : n ≤ m) :
    (List.range n).foldl (fun W t => W.set t (g t)) (List.replicate m 0) =
      (List.range n).map g ++ List.replicate (m - n) 0 := by
  induction n with
  | zero => rfl
  | succ n ih =>
    have hlength : ((List.range n).map g).length = n := by
      rw [List.length_map, List.length_range]
    have hrest : List.replicate (m - n) (0 : Word) = 0 :: List.replicate (m - (n + 1)) 0 := by
      rw [← List.replicate_succ]
      congr 1
      omega
    rw [List.range_succ, List.foldl_append, ih (by omega), hrest, List.map_append]
    simp only [List.foldl_cons, List.foldl_nil, List.map_cons, List.map_nil]
    rw [List.set_append_right _ _ (by omega), hlength, Nat.sub_self, List.set_cons_zero,
      List.append_assoc, List.singleton_append]

theorem foldl_laterWord (n : ℕ) {w : List Word} (hw : 16 ≤ w.length) :
    (List.range' w.length n).foldl (fun W t => W.set t (laterWord W t))
      (w ++ List.replicate n 0) = Sha256.extend n w := by
  induction n generalizing w with
  | zero => exact List.append_nil w
  | succ n ih =>
    have hset : (w ++ List.replicate (n + 1) 0).set w.length
        (laterWord (w ++ List.replicate (n + 1) 0) w.length) =
          w ++ [Sha256.nextWord w] ++ List.replicate n 0 := by
      rw [laterWord_eq hw, List.set_append_right _ _ (Nat.le_refl _), Nat.sub_self,
        List.replicate_succ, List.set_cons_zero, List.append_assoc, List.singleton_append]
    have hlength : (w ++ [Sha256.nextWord w]).length = w.length + 1 := by
      rw [List.length_append, List.length_singleton]
    have hnext := @ih (w ++ [Sha256.nextWord w]) (by omega)
    rw [hlength] at hnext
    rw [List.range'_succ, List.foldl_cons, hset, hnext, Sha256.extend]

theorem messageSchedule_eq (hblock : block.length = 64) :
    messageSchedule block = Sha256.schedule block := by
  have hfirst : (List.range 16).map (firstWord block) = Sha256.messageWords block :=
    List.map_congr_left fun t ht => firstWord_eq hblock (List.mem_range.mp ht)
  have hsecond := foldl_laterWord 48 (Sha256.length_messageWords block).ge
  rw [Sha256.length_messageWords] at hsecond
  rw [messageSchedule, foldl_set_range _ (by decide), hfirst]
  exact hsecond

end Schedule

/-! ### Rounds -/

theorem K_eq : K = Sha256.roundConstants := by
  rw [Sha256.roundConstants, Sha256.primes_eq]
  decide +kernel

theorem new_h : new.h = Sha256.State.initial.words := by decide +kernel

theorem round_stand {v : WorkingVariables} {s : Sha256.State} (h : v.Stand s) (W : List Word)
    (t : ℕ) :
    (round W v t).Stand (s.round (Sha256.roundConstants.getD t 0) (W.getD t 0)) := by
  have hconstant : K.getD t 0 = Sha256.roundConstants.getD t 0 := by rw [K_eq]
  have hK := stands_wordElement K t
  rw [hconstant] at hK
  have hW := stands_wordElement W t
  have hS1 := stands_bigSigma h.e (by decide : 6 < 32) (by decide : 11 < 32) (by decide : 25 < 32)
  have hch := (h.e.and h.f).xor (h.e.not.and h.g)
  have htemp1 := ((((h.h.add hS1 (by decide)).add hch (by decide)).add hK (by decide)).add hW
    (by decide)).orZero
  have hS0 := stands_bigSigma h.a (by decide : 2 < 32) (by decide : 13 < 32) (by decide : 22 < 32)
  have hmaj := ((h.a.and h.b).xor (h.a.and h.c)).xor (h.b.and h.c)
  have htemp2 := (hS0.add hmaj (by decide)).orZero
  constructor
  · exact (htemp1.add htemp2 (by decide)).orZero
  · exact h.a
  · exact h.b
  · exact h.c
  · exact (h.d.add htemp1 (by decide)).orZero
  · exact h.e
  · exact h.f
  · exact h.g

theorem rounds_stand {v : WorkingVariables} {s : Sha256.State} (h : v.Stand s) (W : List Word)
    (ts : List ℕ) :
    (ts.foldl (round W) v).Stand (ts.foldl
      (fun s t => s.round (Sha256.roundConstants.getD t 0) (W.getD t 0)) s) := by
  induction ts generalizing v s with
  | nil => exact h
  | cons t ts ih => exact ih (round_stand h W t)

theorem updatedWord_eq {h : List Word} {i : ℕ} {x : ℤ} {w : Word} (hx : Stands (2 ^ 32) x w) :
    updatedWord h i x = h.getD i 0 + w :=
  ((stands_wordElement h i).add hx (by decide)).orZero.toUint32_eq

/-- **A block.** -/
theorem processBlock_h {s : StreamingSHA256} {H : Sha256.State} (hh : s.h = H.words)
    (hbuffer : s.buffer.length = 64) :
    s.processBlock.h = (Sha256.compress H s.buffer).words := by
  have hbegin : WorkingVariables.Stand
      { a := wordElement s.h 0, b := wordElement s.h 1, c := wordElement s.h 2,
        d := wordElement s.h 3, e := wordElement s.h 4, f := wordElement s.h 5,
        g := wordElement s.h 6, h := wordElement s.h 7 } H := by
    rw [hh]
    constructor <;> exact stands_wordElement H.words _
  have hend := rounds_stand hbegin (Sha256.schedule s.buffer) (List.range 64)
  rw [processBlock, messageSchedule_eq hbuffer, updatedWord_eq hend.a, updatedWord_eq hend.b,
    updatedWord_eq hend.c, updatedWord_eq hend.d, updatedWord_eq hend.e, updatedWord_eq hend.f,
    updatedWord_eq hend.g, updatedWord_eq hend.h, hh]
  rfl

/-! ### The buffer -/

/-- The hash has taken in the full blocks of some data, and has the rest in its buffer. -/
structure Holds (s : StreamingSHA256) (data : Bytes) : Prop where
  h : s.h = (absorbed Sha256.compress 64 .initial data).words
  length_buffer : s.buffer.length = 64
  take_buffer : s.buffer.take s.bufferOffset = remainder 64 data
  bufferOffset : s.bufferOffset = data.length % 64

theorem holds_new : Holds new [] where
  h := new_h
  length_buffer := length_zeros 64
  take_buffer := rfl
  bufferOffset := rfl

section Holds

variable {s : StreamingSHA256} {data more bytes : Bytes}

theorem Holds.append (h : Holds s data) (hmore : data.length % 64 + more.length < 64) :
    Holds { s with
      buffer := writeAt s.buffer s.bufferOffset more
      bufferOffset := s.bufferOffset + more.length } (data ++ more) := by
  have hoffset := h.bufferOffset
  have hlength := h.length_buffer
  obtain ⟨habsorbed, hremainder⟩ :=
    @absorbed_append_of_lt _ _ Sha256.compress 64 Sha256.State.initial data more hmore
  constructor
  · rw [habsorbed]
    exact h.h
  · exact (length_writeAt (by omega)).trans hlength
  · rw [hremainder, ← h.take_buffer]
    exact take_writeAt (by omega)
  · have hmod : (data ++ more).length % 64 = data.length % 64 + more.length := by
      rw [List.length_append]
      omega
    rw [hmod, ← hoffset]

theorem Holds.fill (h : Holds s data) (hmore : data.length % 64 + more.length = 64) (i : ℕ) :
    Holds { ({ s with
      buffer := writeAt s.buffer s.bufferOffset more
      bufferOffset := i }).processBlock with bufferOffset := 0 } (data ++ more) := by
  have hoffset := h.bufferOffset
  have hlength := h.length_buffer
  obtain ⟨habsorbed, hremainder⟩ :=
    @absorbed_append_of_eq _ _ Sha256.compress 64 Sha256.State.initial data more (by decide) hmore
  have hwritten : (writeAt s.buffer s.bufferOffset more).length = 64 :=
    (length_writeAt (by omega)).trans hlength
  have hblock : writeAt s.buffer s.bufferOffset more = remainder 64 data ++ more := by
    rw [← h.take_buffer, ← take_writeAt (by omega : s.bufferOffset ≤ s.buffer.length)]
    exact (List.take_of_length_le (by omega)).symm
  constructor
  · rw [habsorbed, ← hblock]
    exact processBlock_h (s := { s with
      buffer := writeAt s.buffer s.bufferOffset more
      bufferOffset := i }) h.h hwritten
  · exact hwritten
  · exact hremainder.symm
  · have hmod : (data ++ more).length % 64 = 0 := by
      rw [List.length_append]
      omega
    exact hmod.symm

theorem Holds.copyInto (h : Holds s data) {offset toCopy : ℕ}
    (hroom : data.length % 64 + toCopy ≤ 64) (hbytes : offset + toCopy ≤ bytes.length) :
    Holds (s.copyInto bytes offset toCopy) (data ++ (bytes.drop offset).take toCopy) := by
  have hlength : ((bytes.drop offset).take toCopy).length = toCopy := by
    rw [List.length_take, List.length_drop]
    omega
  have hoffset := h.bufferOffset
  rw [StreamingSHA256.copyInto]
  by_cases hfull : s.bufferOffset + toCopy = 64
  · rw [if_pos hfull]
    exact h.fill (by omega) _
  · rw [if_neg hfull]
    have hmore : data.length % 64 + ((bytes.drop offset).take toCopy).length < 64 := by omega
    have happend := h.append hmore
    rwa [hlength] at happend

/-- The loop. Every turn copies a byte at least, so there are no more turns than bytes. -/
theorem Holds.copyLoop {fuel offset : ℕ} (hfuel : bytes.length ≤ offset + fuel)
    (h : Holds s (data ++ bytes.take offset)) :
    Holds (StreamingSHA256.copyLoop bytes fuel offset s) (data ++ bytes) := by
  induction fuel generalizing s offset with
  | zero =>
    rwa [List.take_of_length_le (by omega)] at h
  | succ fuel ih =>
    rw [StreamingSHA256.copyLoop]
    by_cases hmore : offset < bytes.length
    · rw [if_pos hmore]
      have hoffset := h.bufferOffset
      refine ih (by omega) ?_
      rw [List.take_add, ← List.append_assoc]
      exact h.copyInto (by omega) (by omega)
    · rw [if_neg hmore]
      rwa [List.take_of_length_le (by omega)] at h

end Holds

/-! ### Calls -/

@[simp] theorem copyInto_totalBytes (s : StreamingSHA256) (bytes : Bytes) (offset toCopy : ℕ) :
    (s.copyInto bytes offset toCopy).totalBytes = s.totalBytes := by
  rw [copyInto]
  split <;> rfl

@[simp] theorem copyInto_finalized (s : StreamingSHA256) (bytes : Bytes) (offset toCopy : ℕ) :
    (s.copyInto bytes offset toCopy).finalized = s.finalized := by
  rw [copyInto]
  split <;> rfl

theorem copyLoop_fields (bytes : Bytes) (fuel offset : ℕ) (s : StreamingSHA256) :
    (copyLoop bytes fuel offset s).totalBytes = s.totalBytes ∧
      (copyLoop bytes fuel offset s).finalized = s.finalized := by
  induction fuel generalizing offset s with
  | zero => exact ⟨rfl, rfl⟩
  | succ fuel ih =>
    rw [copyLoop]
    split
    · exact ⟨(ih _ _).1.trans (copyInto_totalBytes s bytes offset _),
        (ih _ _).2.trans (copyInto_finalized s bytes offset _)⟩
    · exact ⟨rfl, rfl⟩

/-- The hash is that of some data, and more of it can follow. -/
structure Represents (s : StreamingSHA256) (data : Bytes) : Prop where
  holds : Holds s data
  totalBytes : s.totalBytes = data.length
  finalized : s.finalized = false

theorem represents_new : Represents new [] := ⟨holds_new, rfl, rfl⟩

section Calls

variable {s : StreamingSHA256} {data bytes : Bytes}

theorem Represents.update (h : Represents s data) (hsize : (data ++ bytes).length < 2 ^ 53) :
    ∃ s', s.update bytes = .ok s' ∧ Represents s' (data ++ bytes) := by
  have htotal : Number.add s.totalBytes bytes.length = (data ++ bytes).length := by
    rw [h.totalBytes, List.length_append, Nat.cast_add]
    refine add_of_lt ?_
    rw [List.length_append] at hsize
    omega
  have hbegin : Holds { s with totalBytes := Number.add s.totalBytes bytes.length }
      (data ++ bytes.take 0) := by
    rw [List.take_zero, List.append_nil]
    exact ⟨h.holds.h, h.holds.length_buffer, h.holds.take_buffer, h.holds.bufferOffset⟩
  have hloop := hbegin.copyLoop (Nat.zero_add bytes.length).ge
  obtain ⟨hsame, hopen⟩ := copyLoop_fields bytes bytes.length 0
    { s with totalBytes := Number.add s.totalBytes bytes.length }
  refine ⟨_, if_neg (by rw [h.finalized]; decide), hloop, hsame.trans htotal, hopen.trans ?_⟩
  exact h.finalized

/-- **A checkpoint changes nothing.** -/
theorem run_checkpoint (h : s.finalized = false) : Call.checkpoint.run s = .ok s := by
  have hwords : (s.h.map fun w => (w.toNat : ℤ)).map toUint32 = s.h := by
    rw [List.map_map]
    exact (List.map_congr_left fun w _ => toUint32_toNat w).trans (List.map_id _)
  have hbytes : (s.buffer.map fun b => (b.toNat : ℤ)).map toUint8 = s.buffer := by
    rw [List.map_map]
    exact (List.map_congr_left fun b _ => toUint8_toNat b).trans (List.map_id _)
  rw [Call.run, serialize, h, if_neg Bool.false_ne_true]
  simp only [bind, Except.bind, pure, Except.pure, deserialize, hwords, hbytes]
  rw [Except.ok.injEq]
  obtain ⟨hs, buffer, offset, total, finalized⟩ := s
  exact congrArg _ h.symm

theorem Represents.run {calls : List Call} (h : Represents s data)
    (hsize : (data ++ calls.flatMap Call.bytes).length < 2 ^ 53) :
    ∃ s', calls.foldlM Call.run s = .ok s' ∧ Represents s' (data ++ calls.flatMap Call.bytes) := by
  induction calls generalizing s data with
  | nil =>
    refine ⟨s, rfl, ?_⟩
    rwa [List.flatMap_nil, List.append_nil]
  | cons call calls ih =>
    have hcall : ∃ s', call.run s = .ok s' ∧ Represents s' (data ++ call.bytes) := by
      cases call with
      | update bytes =>
        refine h.update ?_
        rw [List.flatMap_cons, ← List.append_assoc, List.length_append] at hsize
        exact (Nat.le_add_right _ _).trans_lt hsize
      | checkpoint =>
        refine ⟨s, run_checkpoint h.finalized, ?_⟩
        rwa [Call.bytes, List.append_nil]
    obtain ⟨s', hrun, hs'⟩ := hcall
    rw [List.flatMap_cons, ← List.append_assoc] at hsize ⊢
    obtain ⟨s'', hrest, hs''⟩ := ih hs' hsize
    refine ⟨s'', ?_, hs''⟩
    rw [List.foldlM_cons, hrun]
    exact hrest

end Calls

/-! ### The digest -/

/-- The digits of a number, a fixed number of them. -/
def hexDigits : ℕ → ℕ → List Char
  | 0, _ => []
  | k + 1, n => hexDigits k (n / 16) ++ [Nat.digitChar (n % 16)]

theorem hexDigits_zero (k : ℕ) : hexDigits k 0 = List.replicate k '0' := by
  induction k with
  | zero => rfl
  | succ k ih =>
    rw [hexDigits, Nat.zero_div, ih, List.replicate_succ']
    rfl

theorem hexDigits_eq {k n : ℕ} (hk : 0 < k) (h : n < 16 ^ k) :
    List.replicate (k - (Nat.toDigits 16 n).length) '0' ++ Nat.toDigits 16 n = hexDigits k n := by
  induction k generalizing n with
  | zero => omega
  | succ k ih =>
    by_cases hn : n < 16
    · rw [Nat.toDigits_of_lt_base hn, hexDigits, Nat.div_eq_of_lt hn, hexDigits_zero,
        Nat.mod_eq_of_lt hn]
      rfl
    · have hdiv : n / 16 < 16 ^ k := by
        rw [pow_succ] at h
        omega
      have hpos : 0 < k := by
        rcases k with - | k
        · omega
        · exact Nat.succ_pos k
      rw [Nat.toDigits_of_base_le (by decide) (by omega), hexDigits, ← ih hpos hdiv,
        List.length_append, List.length_singleton, Nat.add_sub_add_right, List.append_assoc]

theorem hexDigits_two_mul (k n : ℕ) : hexDigits (2 * k) n = (beBytes k n).flatMap fun b =>
    [Nat.digitChar (b.toNat / 16), Nat.digitChar (b.toNat % 16)] := by
  induction k generalizing n with
  | zero => rfl
  | succ k ih =>
    have hbytes : beBytes (k + 1) n = beBytes k (n / 256) ++ [UInt8.ofNat n] := by
      rw [beBytes, leBytes, List.reverse_cons, beBytes]
    have hhigh : n % 2 ^ 8 / 16 = n / 16 % 16 := by omega
    have hlow : n % 2 ^ 8 % 16 = n % 16 := by omega
    have hdiv : n / 16 / 16 = n / 256 := by omega
    rw [hbytes, List.flatMap_append, ← ih, List.flatMap_singleton, UInt8.toNat_ofNat', hhigh, hlow,
      Nat.mul_succ, hexDigits, hexDigits, hdiv, List.append_assoc, List.singleton_append]

theorem hexWord_eq (w : Word) : hexWord w = (beBytes 4 w.toNat).flatMap fun b =>
    [Nat.digitChar (b.toNat / 16), Nat.digitChar (b.toNat % 16)] := by
  have hlt : w.toNat < 16 ^ 8 := w.isLt
  rw [hexWord, hexDigits_eq (by decide) hlt]
  exact hexDigits_two_mul 4 w.toNat

theorem flatMap_hexWord (message : Bytes) :
    String.ofList ((Sha256.hash message).words.flatMap hexWord) =
      WebCrypto.toHex (Sha256.digest message) := by
  rw [WebCrypto.toHex, Sha256.digest, List.flatMap_assoc]
  congr 2
  funext w
  exact hexWord_eq w

theorem lengthBytes_eq {n : ℕ} (h : n < 2 ^ 53) : lengthBytes n = beBytes 8 n := by
  have hhigh : Stands (2 ^ 32) ((n : ℤ) / 0x100000000) (BitVec.ofNat 32 (n / 2 ^ 32)) := by
    refine ⟨?_, rfl⟩
    omega
  have hlow : Stands (2 ^ 32) (Number.shiftRight n 0) (BitVec.ofNat 32 n >>> 0) :=
    Stands.shiftRight (b := n) ⟨(Int.natAbs_natCast n).le, rfl⟩ 0
  rw [lengthBytes, (hhigh.shiftRight 24).toUint8_and, (hhigh.shiftRight 16).toUint8_and,
    (hhigh.shiftRight 8).toUint8_and, hhigh.toUint8_and, (hlow.shiftRight 24).toUint8_and,
    (hlow.shiftRight 16).toUint8_and, (hlow.shiftRight 8).toUint8_and, hlow.toUint8_and]
  simp only [beBytes, leBytes, List.reverse_cons, List.reverse_nil, List.nil_append,
    List.cons_append, BitVec.toNat_ushiftRight, BitVec.toNat_ofNat, Nat.shiftRight_eq_div_pow]
  have hbyte : ∀ {i j : ℕ}, i % 2 ^ 8 = j % 2 ^ 8 → UInt8.ofNat i = UInt8.ofNat j := fun hij =>
    UInt8.toNat.inj (by rwa [UInt8.toNat_ofNat', UInt8.toNat_ofNat'])
  simp only [List.cons.injEq, and_true]
  refine ⟨hbyte ?_, hbyte ?_, hbyte ?_, hbyte ?_, hbyte ?_, hbyte ?_, hbyte ?_, hbyte ?_⟩ <;> omega

section Padding

variable {s : StreamingSHA256} {data : Bytes}

theorem Holds.beginPadding (h : Holds s data) : ∃ first, Holds s.beginPadding (data ++ first) ∧
    s.beginPadding.bufferOffset ≤ 56 ∧
    first ++ zeros (56 - s.beginPadding.bufferOffset) =
      0x80 :: zeros (Sha256.padZeros data.length) := by
  have hoffset := h.bufferOffset
  have hlength := h.length_buffer
  by_cases hfull : 56 < s.bufferOffset + 1
  · -- there is no room for the length: zeros up to the end of this block
    have hwrite : fillZeros (writeAt s.buffer s.bufferOffset [0x80]) (s.bufferOffset + 1)
        (writeAt s.buffer s.bufferOffset [0x80]).length =
          writeAt s.buffer s.bufferOffset (0x80 :: zeros (63 - s.bufferOffset)) := by
      have hone : s.bufferOffset + [(0x80 : UInt8)].length ≤ s.buffer.length := by
        rw [List.length_singleton]
        omega
      have hrest : 64 - (s.bufferOffset + 1) = 63 - s.bufferOffset := by omega
      rw [fillZeros, (length_writeAt hone).trans hlength, hrest]
      exact writeAt_writeAt hone
    have hbegin : s.beginPadding = { ({ s with
        buffer := writeAt s.buffer s.bufferOffset (0x80 :: zeros (63 - s.bufferOffset))
        bufferOffset := s.bufferOffset + 1 }).processBlock with bufferOffset := 0 } := by
      rw [← hwrite]
      exact if_pos hfull
    have hroom : data.length % 64 + ((0x80 : UInt8) :: zeros (63 - s.bufferOffset)).length =
        64 := by
      rw [List.length_cons, length_zeros]
      omega
    have hzeros : Sha256.padZeros data.length = 63 - s.bufferOffset + 56 := by
      rw [Sha256.padZeros]
      omega
    rw [hbegin, hzeros, zeros_add]
    exact ⟨_, h.fill hroom _, Nat.zero_le 56, rfl⟩
  · have hbegin : s.beginPadding = { s with
        buffer := writeAt s.buffer s.bufferOffset [0x80]
        bufferOffset := s.bufferOffset + 1 } := if_neg hfull
    have hroom : data.length % 64 + [(0x80 : UInt8)].length < 64 := by
      rw [List.length_singleton]
      omega
    have hzeros : Sha256.padZeros data.length = 56 - (s.bufferOffset + 1) := by
      rw [Sha256.padZeros]
      omega
    rw [hbegin, hzeros]
    exact ⟨[0x80], h.append hroom, Nat.le_of_not_lt hfull, rfl⟩

theorem Holds.endPadding (h : Holds s data) (hroom : s.bufferOffset ≤ 56) {n : ℕ}
    (hn : n < 2 ^ 53) :
    (s.endPadding n).h = (absorbed Sha256.compress 64 .initial
      (data ++ (zeros (56 - s.bufferOffset) ++ beBytes 8 n))).words := by
  have hoffset := h.bufferOffset
  have hlength := h.length_buffer
  have hwrite : writeAt (fillZeros s.buffer s.bufferOffset 56) 56 (lengthBytes n) =
      writeAt s.buffer s.bufferOffset (zeros (56 - s.bufferOffset) ++ beBytes 8 n) := by
    have hend : s.bufferOffset + (zeros (56 - s.bufferOffset)).length = 56 := by
      rw [length_zeros]
      omega
    have hwrite := @writeAt_writeAt s.buffer s.bufferOffset (zeros (56 - s.bufferOffset))
      (beBytes 8 n) (by omega)
    rw [hend] at hwrite
    rw [fillZeros, lengthBytes_eq hn]
    exact hwrite
  have hfull : data.length % 64 + (zeros (56 - s.bufferOffset) ++ beBytes 8 n).length = 64 := by
    rw [List.length_append, length_zeros, length_beBytes]
    omega
  have hfill := (h.fill hfull s.bufferOffset).h
  rw [← hwrite] at hfill
  exact hfill

/-- **The digest.** -/
theorem Represents.finalize (h : Represents s data) (hsize : data.length < 2 ^ 50) :
    ∃ s', s.finalize = .ok (WebCrypto.toHex (Sha256.digest data), s') := by
  have hbits : Number.mul s.totalBytes 8 = (8 * data.length : ℕ) := by
    rw [h.totalBytes, Number.mul_of_lt (by omega), Nat.mul_comm, Nat.cast_mul]
    rfl
  obtain ⟨t, ht⟩ : ∃ t, t = { s with finalized := true } := ⟨_, rfl⟩
  have hholds : Holds t data := by
    rw [ht]
    exact ⟨h.holds.h, h.holds.length_buffer, h.holds.take_buffer, h.holds.bufferOffset⟩
  obtain ⟨first, hfirst, hroom, hpadding⟩ := hholds.beginPadding
  have hmessage : data ++ first ++ (zeros (56 - t.beginPadding.bufferOffset) ++
      beBytes 8 (8 * data.length)) = data ++ Sha256.padding data.length := by
    rw [List.append_assoc, ← List.append_assoc first, hpadding]
    rfl
  have hend : (t.beginPadding.endPadding (8 * data.length : ℕ)).h = (Sha256.hash data).words := by
    rw [hfirst.endPadding hroom (by omega), hmessage]
    rfl
  refine ⟨t.beginPadding.endPadding (8 * data.length : ℕ), ?_⟩
  rw [StreamingSHA256.finalize, h.finalized, if_neg Bool.false_ne_true, ← ht, hbits]
  simp only [hend, flatMap_hexWord]

end Padding

/-- **A streamed file.** However a file is split into updates, and wherever the hash is saved and
restored between them, `finalize` returns the digest of the whole file, as hexadecimal digits. -/
theorem digits_eq_digest (calls : List Call)
    (hsize : (calls.flatMap Call.bytes).length < 2 ^ 50) :
    digits calls = .ok (WebCrypto.toHex (Sha256.digest (calls.flatMap Call.bytes))) := by
  have hlength : ([] ++ calls.flatMap Call.bytes).length < 2 ^ 53 := by
    rw [List.nil_append]
    omega
  obtain ⟨s, hrun, hs⟩ := represents_new.run hlength
  rw [List.nil_append] at hs
  obtain ⟨s', hfinalize⟩ := hs.finalize hsize
  rw [digits, run, hrun]
  simp only [bind, Except.bind, pure, Except.pure, hfinalize]

/-- The letters "abc", with a checkpoint behind the first one. -/
theorem digits_eq_digest_abc :
    digits [.update [0x61], .checkpoint, .update [0x62, 0x63]] =
      .ok "ba7816bf8f01cfea414140de5dae2223b00361a396177a9cb410ff61f20015ad" := by
  -- the constants are taken from the table, not computed again
  have hcompress : Sha256.compress = fun H block =>
      H.add ((List.range 64).foldl
        (fun s t => s.round (K.getD t 0) ((Sha256.schedule block).getD t 0)) H) := by
    rw [K_eq]
    rfl
  rw [digits_eq_digest _ (by decide), Sha256.digest, Sha256.hash, hcompress]
  exact congrArg Except.ok (by decide +kernel)

end StreamingSHA256

end Rapidly.FileSharing
