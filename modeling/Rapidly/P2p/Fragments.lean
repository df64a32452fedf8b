import Mathlib.Data.List.Nodup
import Mathlib.Data.List.Perm.Subperm
import Rapidly.Fallible.Traversal
import Rapidly.P2p.PeerConnection

/-!
# Sets of fragments

What the receiver does with the fragments that a sender makes of a payload: `Data.IsPart` is a
decoded fragment, and `Entry.Collects` a set of which some indices have arrived, in any order.

* `unframe_fragment`: a fragment is decoded to the part it was made for.
* `handleFragment_of_isPart`: the checks of the receiver let it pass.
* `fileFragment_of_notMem`: it is filed, and the last one joins the set.
-/

namespace Rapidly.P2p

open Binary Json KeyValue

variable {ν : Type} [Numeral ν]

/-! ### Decoded fragments -/

/-- The frame is a fragment with these fields. -/
structure Data.IsPart [DecidableEq ν] (parsed : Data ν) (id : Units) (i n : ℕ) (type : Units)
    (payload : List UInt8) : Prop where
  isFragment : parsed.IsFragment
  id : parsed.value.property "id" = some (.string id)
  i : parsed.value.property "i" = natValue ν i
  n : parsed.value.property "n" = natValue ν n
  type : parsed.value.property "t" = some (.string type)
  binary : parsed.binary = some (.bytes, payload)

theorem Data.IsPart.part [DecidableEq ν] {parsed : Data ν} {id type : Units} {i n : ℕ}
    {payload : List UInt8} (h : parsed.IsPart id i n type payload) :
    parsed.part = .bytes payload := by
  rw [Data.part, h.binary]

section Header

variable {id type : Units} {i n : ℕ}

theorem length_printString_le (s : Units) :
    (printString javascript s).length ≤ 6 * s.length + 2 := by
  have hle := length_quoteJavascript_le s
  have hquote : javascript.quote s = quoteJavascript s := rfl
  rw [printString, List.length_cons, List.length_append, hquote, List.length_singleton]
  omega

theorem length_toText_ofNat_le {k : ℕ} (hk : k ≤ 10000) :
    (Numeral.toText (Numeral.ofNat k : ν)).length ≤ 5 := by
  rw [Numeral.toText_ofNat k (by omega), Nat.length_toDigits_le_iff (by decide) (by decide)]
  omega

theorem length_fragHeader_le (hid : id.length ≤ 16) (htype : type.length ≤ 1) (hi : i ≤ 10000)
    (hn : n ≤ 10000) :
    (Utf8.encode (print javascript (.object (fragHeader ν id i n type)))).length ≤
      maxHeaderSize := by
  have htext : (print javascript (.object (fragHeader ν id i n type))).length ≤ 1000 := by
    have hi' := @length_toText_ofNat_le ν _ i hi
    have hn' := @length_toText_ofNat_le ν _ n hn
    have hone := @length_toText_ofNat_le ν _ 1 (by decide)
    have hid' := length_printString_le id
    have htype' := length_printString_le type
    have hkey (s : Units) (hs : s.length ≤ 10) : (printString javascript s).length ≤ 62 := by
      have hle := length_printString_le s
      omega
    have h1 := hkey "_frag" (by decide)
    have h2 := hkey "id" (by decide)
    have h3 := hkey "i" (by decide)
    have h4 := hkey "n" (by decide)
    have h5 := hkey "t" (by decide)
    have h6 := hkey "_hasBinary" (by decide)
    have h7 := hkey "bytes" (by decide)
    have hspace : javascript.space.length = 0 := rfl
    simp only [fragHeader, print, printFields, joinTexts, List.length_cons, List.length_append,
      List.length_nil, hspace]
    omega
  have hbytes := Utf8.length_encode_le (print javascript (.object (fragHeader ν id i n type)))
  have hlimit : maxHeaderSize = 65536 := rfl
  omega

theorem isFinite_fragHeader (hi : i < 2 ^ 53) (hn : n < 2 ^ 53) :
    (Value.object (fragHeader ν id i n type)).IsFinite := by
  rw [Value.IsFinite, fieldsFinite_iff]
  intro f hf
  simp only [fragHeader, List.mem_cons, List.not_mem_nil, or_false] at hf
  rcases hf with rfl | rfl | rfl | rfl | rfl | rfl
  · exact Numeral.isFinite_ofNat 1 (by decide)
  · exact trivial
  · exact Numeral.isFinite_ofNat i hi
  · exact Numeral.isFinite_ofNat n hn
  · exact trivial
  · exact trivial

theorem attach_fragHeader [DecidableEq ν] (payload : List UInt8) :
    ∃ parsed : Data ν, attach (.object (fragHeader ν id i n type)) payload = .ok parsed ∧
      parsed.IsPart id i n type payload :=
  ⟨_, rfl, rfl, rfl, rfl, rfl, rfl, rfl⟩

theorem unframe_part [DecidableEq ν] {payload : List UInt8} (hid : id.length ≤ 16)
    (htype : type.length ≤ 1) (hi : i < n) (hn : n ≤ 10000)
    (hpayload : payload.length ≤ fragPayloadMax) :
    ∃ parsed : Data ν,
      unframe (lengthPrefixed
        (Utf8.encode (print javascript (.object (fragHeader ν id i n type)))) payload) =
        .ok parsed ∧
      parsed.IsPart id i n type payload := by
  have hheader := @length_fragHeader_le ν _ id type i n hid htype (hi.le.trans hn) hn
  have hfinite := @isFinite_fragHeader ν _ id type i n (by omega) (by omega)
  have hlimits : maxHeaderSize = 65536 ∧ fragPayloadMax = 262012 ∧ maxFrameSize = 67108864 := by
    decide
  have hunframe := @unframe_lengthPrefixed ν _ _ hfinite payload hheader (by omega)
  obtain ⟨parsed, hattach, hpart⟩ := @attach_fragHeader ν _ id type i n _ payload
  exact ⟨parsed, hunframe.trans hattach, hpart⟩

end Header

/-! ### Fragments of a payload -/

section Payload

variable {p : Packet} {i : ℕ}

theorem fragPayloadMax_pos : 0 < fragPayloadMax := by decide

theorem totalFrags_eq_cutCount {bytes : List UInt8} (h : 0 < bytes.length) :
    totalFrags bytes = cutCount fragPayloadMax 0 bytes.length := by
  have hsum : bytes.length + fragPayloadMax - 1 = bytes.length - 0 - 1 + fragPayloadMax := by
    omega
  rw [totalFrags, cutCount, hsum, Nat.add_div_right _ fragPayloadMax_pos]

/-- A payload that is within the limit of a frame takes no more fragments than the receiver
accepts. -/
theorem totalFrags_le {bytes : List UInt8} (h : bytes.length ≤ maxFrameSize) :
    totalFrags bytes ≤ 10000 := by
  have hmono : totalFrags bytes ≤ (maxFrameSize + fragPayloadMax - 1) / fragPayloadMax :=
    Nat.div_le_div_right (by omega)
  exact hmono.trans (by decide)

/-- The part of a payload in a fragment. -/
def sliceOf (bytes : List UInt8) (i : ℕ) : List UInt8 :=
  bytes.extract (cut fragPayloadMax 0 bytes.length i).1 (cut fragPayloadMax 0 bytes.length i).2

theorem length_sliceOf_le (bytes : List UInt8) (i : ℕ) :
    (sliceOf bytes i).length ≤ fragPayloadMax := by
  rw [sliceOf, List.extract_eq_take_drop, List.length_take, cut, Nat.succ_mul]
  omega

theorem flatMap_sliceOf {bytes : List UInt8} (h : 0 < bytes.length) :
    (List.range (totalFrags bytes)).flatMap (sliceOf bytes) = bytes := by
  have hcuts := @consecutive_cuts fragPayloadMax 0 bytes.length
    (cutCount fragPayloadMax 0 bytes.length) fragPayloadMax_pos (Nat.zero_le _) le_rfl
  have hwhole := flatMap_extract bytes hcuts
  rw [endOf_cuts_cutCount fragPayloadMax_pos, cuts, List.flatMap_map] at hwhole
  rw [totalFrags_eq_cutCount h]
  refine hwhole.trans ?_
  rw [List.extract_eq_take_drop, List.drop_zero, Nat.sub_zero, List.take_length]

/-- **A fragment is decoded** to the part it was made for. -/
theorem unframe_fragment [DecidableEq ν] {id : Units} (hid : id.length ≤ 16)
    (htotal : totalFrags p.bytes ≤ 10000) (hi : i < totalFrags p.bytes) :
    ∃ parsed : Data ν, unframe (fragment ν id p i) = .ok parsed ∧
      parsed.IsPart id i (totalFrags p.bytes) p.type (sliceOf p.bytes i) := by
  have htype : p.type.length ≤ 1 := by cases p <;> exact Nat.le_refl 1
  exact unframe_part hid htype hi htotal (length_sliceOf_le p.bytes i)

end Payload

/-! ### Filing -/

section Filing

variable {C : Coercions ν} {id type : Units} {i n : ℕ} {payload : ℕ → List UInt8}
  {indices : List ℕ} {entry : Entry ν} {s : Receiver ν}

/-- The set has the parts of these indices, in the order in which they arrived. -/
structure Entry.Collects (entry : Entry ν) (n : ℕ) (type : Units) (payload : ℕ → List UInt8)
    (indices : List ℕ) : Prop where
  total : entry.total.value = natValue ν n
  type : entry.type = some (.string type)
  parts : entry.parts = indices.map fun j => (.number (Numeral.ofNat j), .bytes (payload j))

theorem handleFragment_of_isPart [DecidableEq ν] {parsed : Data ν} {content : List UInt8}
    (h : parsed.IsPart id i n type content) (hi : i < n) (hn : n ≤ 10000) (s : Receiver ν) :
    handleFragment C parsed s =
      acceptFragment C s (.string id) { value := natValue ν i, identity := s.decoded }
        { value := natValue ν n, identity := s.decoded } (some (.string type))
        (.bytes content) := by
  have hid : (s.operand parsed "id").key = .string id := by
    rw [Operand.key, Receiver.operand, h.id]
  have hindex : s.operand parsed "i" = { value := natValue ν i, identity := s.decoded } := by
    rw [Receiver.operand, h.i]
  have htotal : s.operand parsed "n" = { value := natValue ν n, identity := s.decoded } := by
    rw [Receiver.operand, h.n]
  have hguard : ¬(C.lt (natValue ν n) (natValue ν 1) ∨ C.lt (natValue ν 10000) (natValue ν n) ∨
      C.lt (natValue ν i) (natValue ν 0) ∨ C.le (natValue ν n) (natValue ν i)) := by
    rw [natValue, natValue, natValue, natValue, natValue, C.lt_ofNat n (by omega) 1 (by omega),
      C.lt_ofNat 10000 (by omega) n (by omega), C.lt_ofNat i (by omega) 0 (by omega),
      C.le_ofNat n (by omega) i (by omega)]
    simp only [decide_eq_true_eq]
    omega
  rw [handleFragment, hid, hindex, htotal, h.type, h.part]
  exact if_neg hguard

theorem Entry.Collects.lookup [DecidableEq ν] (h : entry.Collects n type payload indices)
    (hindices : ∀ j ∈ indices, j < 10000) (hi : i < 10000) :
    entry.parts.lookup (.number (Numeral.ofNat i)) =
      if i ∈ indices then some (.bytes (payload i)) else none := by
  rw [h.parts]
  clear h
  induction indices with
  | nil => rfl
  | cons j indices ih =>
    have hj := hindices j List.mem_cons_self
    have hkey : (Key.number (Numeral.ofNat i) : Key ν) = .number (Numeral.ofNat j) ↔ i = j := by
      rw [Key.number.injEq, Numeral.ofNat_inj (by omega) (by omega)]
    rw [List.map_cons, lookup_cons_eq_ite, ih fun j hj => hindices j (List.mem_cons_of_mem _ hj)]
    by_cases hij : i = j
    · rw [if_pos (hkey.mpr hij), if_pos (by simp [hij]), hij]
    · rw [if_neg fun hk => hij (hkey.mp hk)]
      simp only [List.mem_cons, hij, false_or]

theorem takeWhile_range {p : ℕ → Bool} {n m : ℕ} (hnm : n ≤ m)
    (hp : ∀ j < m, p j = decide (j < n)) : (List.range m).takeWhile p = List.range n := by
  obtain ⟨k, rfl⟩ := Nat.exists_eq_add_of_le hnm
  have hlow : ∀ j ∈ List.range n, p j = true := by
    intro j hj
    have hlt := List.mem_range.mp hj
    rw [hp j (by omega), decide_eq_true_iff]
    exact hlt
  rw [List.range_add, List.takeWhile_append_of_pos hlow]
  cases k with
  | zero => simp
  | succ k =>
    have hnext : ¬p n = true := by
      rw [hp n (by omega), decide_eq_true_iff]
      exact lt_irrefl n
    have hrest : ((List.range (k + 1)).map (n + ·)).takeWhile p = [] := by
      rw [List.range_succ_eq_map, List.map_cons]
      exact List.takeWhile_cons_of_neg hnext
    rw [hrest, List.append_nil]

theorem Entry.Collects.indices_eq (h : entry.Collects n type payload indices) (hn : n ≤ 10000) :
    entry.indices C = List.range n := by
  refine takeWhile_range hn fun j hj => ?_
  rw [h.total]
  exact C.lt_ofNat j (by omega) n (by omega)

theorem Entry.Collects.assembled [DecidableEq ν] (h : entry.Collects n type payload indices)
    (hn : n ≤ 10000) (hindices : ∀ j, j ∈ indices ↔ j < n) :
    entry.assembled C = some ((List.range n).flatMap payload) := by
  have hpart : ∀ j ∈ List.range n, entry.part j = some (.bytes (payload j)) := by
    intro j hj
    have hlt := List.mem_range.mp hj
    have hlookup := h.lookup (fun j hj => ((hindices j).mp hj).trans_le hn) (hlt.trans_le hn)
    rw [Entry.part, hlookup, if_pos ((hindices j).mpr hlt)]
    rfl
  have hparts : (List.range n).mapM entry.part =
      some (((List.range n).map payload).map Part.bytes) := by
    rw [List.map_map]
    exact Fallible.mapM_eq_pure_map hpart
  rw [Entry.assembled, h.indices_eq hn, hparts, Option.bind_some, C.concat_bytes,
    List.flatMap_def]

section Step

variable [DecidableEq ν]

theorem reassemble_eq_deliver {assembled : List UInt8}
    (h : entry.assembled C = some assembled) :
    entry.reassemble C = deliver entry.type assembled := by
  unfold Entry.reassemble
  generalize entry.assembled C = x at h
  rw [h]

theorem fileFragment_of_mem (h : entry.Collects n type payload indices)
    (hindices : ∀ j ∈ indices, j < n) (hn : n ≤ 10000) (hi : i ∈ indices) (x y : ℕ)
    (content : List UInt8) :
    fileFragment C s (.string id) { value := natValue ν i, identity := x }
      { value := natValue ν n, identity := y } (.bytes content) entry = (s, []) := by
  have hlookup := h.lookup (fun j hj => (hindices j hj).trans_le hn)
    ((hindices i hi).trans_le hn)
  rw [if_pos hi] at hlookup
  have hkey : ({ value := natValue ν i, identity := x } : Operand ν).key =
      .number (Numeral.ofNat i) := rfl
  rw [fileFragment, hkey, hlookup]
  exact if_pos (.inr rfl)

theorem fileFragment_of_notMem (h : entry.Collects n type payload indices)
    (hnodup : indices.Nodup) (hindices : ∀ j ∈ indices, j < n) (hn : n ≤ 10000) (hi : i < n)
    (hnew : i ∉ indices) (x y : ℕ) :
    ∃ entry' : Entry ν, entry'.Collects n type payload (indices ++ [i]) ∧
      fileFragment C s (.string id) { value := natValue ν i, identity := x }
        { value := natValue ν n, identity := y } (.bytes (payload i)) entry =
      if indices.length + 1 < n then
        ({ s with fragBuf := assign s.fragBuf (.string id) entry' }, [])
      else ({ s with fragBuf := remove s.fragBuf (.string id) },
        deliver (some (.string type)) ((List.range n).flatMap payload)) := by
  have hcollects : ({ entry with
      parts := entry.parts ++ [(.number (Numeral.ofNat i), .bytes (payload i))] } :
      Entry ν).Collects n type payload (indices ++ [i]) := by
    refine ⟨h.total, h.type, ?_⟩
    rw [List.map_append, h.parts]
    rfl
  refine ⟨_, hcollects, ?_⟩
  have hlookup := h.lookup (fun j hj => (hindices j hj).trans_le hn) (hi.trans_le hn)
  rw [if_neg hnew] at hlookup
  have hkey : ({ value := natValue ν i, identity := x } : Operand ν).key =
      .number (Numeral.ofNat i) := rfl
  have htotal : entry.total.key = ({ value := natValue ν n, identity := y } : Operand ν).key := by
    rw [Operand.key, h.total]
    rfl
  -- no index twice and none outside, so the set is complete when it has as many as it needs
  have hnodup' : (indices ++ [i]).Nodup := by
    rw [List.nodup_append]
    refine ⟨hnodup, List.nodup_singleton i, fun a ha b hb hab => hnew ?_⟩
    rwa [← List.mem_singleton.mp hb, ← hab]
  have hsubset : indices ++ [i] ⊆ List.range n := by
    intro j hj
    rw [List.mem_range]
    rcases List.mem_append.mp hj with hold | hlast
    · exact hindices j hold
    · rw [List.mem_singleton.mp hlast]
      exact hi
  have hsubperm := List.subperm_of_subset hnodup' hsubset
  have hlength : (indices ++ [i]).length ≤ n := by
    have hle := hsubperm.length_le
    rwa [List.length_range] at hle
  have hparts : (entry.parts ++ [(Key.number (Numeral.ofNat i), Part.bytes (payload i))]).length =
      indices.length + 1 := by
    rw [h.parts, List.length_append, List.length_map, List.length_singleton]
  rw [List.length_append, List.length_singleton] at hlength
  have hlt : C.lt (natValue ν (indices.length + 1)) (natValue ν n) = true ↔
      indices.length + 1 < n := by
    rw [natValue, natValue, C.lt_ofNat (indices.length + 1) (by omega) n (by omega),
      decide_eq_true_iff]
  rw [fileFragment, hkey, hlookup, if_neg]
  · dsimp only
    rw [hparts, h.total]
    rcases Nat.lt_or_ge (indices.length + 1) n with hmore | hmore
    · rw [if_pos (hlt.mpr hmore), if_pos hmore]
    · have hlength' : (List.range n).length ≤ (indices ++ [i]).length := by
        rw [List.length_range, List.length_append, List.length_singleton]
        exact hmore
      have hperm := hsubperm.perm_of_length_le hlength'
      have hall : ∀ j, j ∈ indices ++ [i] ↔ j < n := fun j => by
        rw [hperm.mem_iff, List.mem_range]
      rw [if_neg fun hless => absurd (hlt.mp hless) (Nat.not_lt.mpr hmore),
        if_neg (Nat.not_lt.mpr hmore), reassemble_eq_deliver (hcollects.assembled hn hall),
        hcollects.type]
  · rintro (hother | hsome)
    · exact hother htotal
    · exact absurd hsome (by simp)

end Step

end Filing

end Rapidly.P2p
