import Rapidly.P2p.Fragments

/-!
# Messages over a data channel

Whether what `send` puts on the channel comes out of the other end as the same message.

The sender picks the binary field by `data.bytes ?? data.payload` and leaves a field out of the
header by `'bytes' in header`, which are different things when `bytes` is there and null; the
header uses a name that a message may use itself; and a frame whose header has `_frag: 1` is taken
for a fragment, whoever wrote it.

* `runFrom_fragments`: fragments that arrive in order are joined again.
* `nullBytes_garbled` is a message that arrives as another one.
* `roundTrips_iff` is the exact condition on a message.
-/

namespace Rapidly.P2p

open Binary Json KeyValue Transition

variable {ν : Type} [Numeral ν] [DecidableEq ν] {C : Coercions ν}

/-! ### Fragments in order -/

section Fragments

variable {p : Packet} {id : Units} {s : Receiver ν}

/-- The first fragments of a payload are there: the next one finds them in the set of its id. -/
def Gathered (id : Units) (p : Packet) (k : ℕ) (s : Receiver ν) : Prop :=
  ∀ identity, ∃ base entry,
    openSet s.fragBuf (.string id) { value := natValue ν (totalFrags p.bytes), identity }
      (some (.string p.type)) = base ++ [(.string id, entry)] ∧
    base.lookup (.string id) = none ∧
    entry.Collects (totalFrags p.bytes) p.type (sliceOf p.bytes) (List.range k)

omit [Numeral ν] in
theorem lookup_makeRoom {fragBuf : List (Key ν × Entry ν)} {key : Key ν}
    (h : fragBuf.lookup key = none) : (makeRoom fragBuf).lookup key = none := by
  cases fragBuf with
  | nil =>
    have hfew : ¬([] : List (Key ν × Entry ν)).length ≥ maxFragSets := Nat.not_succ_le_zero 15
    rw [makeRoom.eq_def, if_neg hfew]
    rfl
  | cons oldest rest =>
    rw [makeRoom.eq_def]
    dsimp only
    split_ifs
    · exact h
    · rw [List.lookup_eq_none_iff] at h ⊢
      exact fun e he => h e (List.mem_cons_of_mem oldest he)
    · exact h

theorem gathered_zero (h : s.fragBuf.lookup (.string id) = none) : Gathered id p 0 s := by
  intro identity
  refine ⟨makeRoom s.fragBuf,
    { total := { value := natValue ν (totalFrags p.bytes), identity },
      type := some (.string p.type) },
    ?_, lookup_makeRoom h, rfl, rfl, rfl⟩
  rw [openSet, h]

theorem gathered_of_fragBuf {base : List (Key ν × Entry ν)} {entry : Entry ν} {k : ℕ}
    (hs : s.fragBuf = base ++ [(.string id, entry)]) (hbase : base.lookup (.string id) = none)
    (hentry : entry.Collects (totalFrags p.bytes) p.type (sliceOf p.bytes) (List.range k)) :
    Gathered id p k s := by
  intro identity
  refine ⟨base, entry, ?_, hbase, hentry⟩
  rw [openSet, hs, lookup_concat_self hbase]

theorem onMessage_fragment (hid : id.length ≤ 16) (htotal : totalFrags p.bytes ≤ 10000) {k : ℕ}
    (hk : k < totalFrags p.bytes) (h : Gathered id p k s) :
    let r := onMessage C s (.binary (fragment ν id p k))
    if k + 1 < totalFrags p.bytes then Gathered id p (k + 1) r.1 ∧ r.2 = []
    else r.2 = deliver (some (.string p.type))
      ((List.range (totalFrags p.bytes)).flatMap (sliceOf p.bytes)) := by
  obtain ⟨parsed, hparsed, hpart⟩ := @unframe_fragment ν _ p k _ id hid htotal hk
  obtain ⟨base, entry, hopen, hbase, hentry⟩ := h (s.decoded + 1)
  obtain ⟨entry', hentry', hfile⟩ := @fileFragment_of_notMem ν _ C id p.type k _
    (sliceOf p.bytes) (List.range k) entry
    { fragBuf := base ++ [(.string id, entry)], decoded := s.decoded + 1 } _ hentry
    List.nodup_range (fun j hj => (List.mem_range.mp hj).trans hk) htotal hk
    (fun hmem => lt_irrefl k (List.mem_range.mp hmem)) (s.decoded + 1) (s.decoded + 1)
  have hstep : onMessage C s (.binary (fragment ν id p k)) =
      if k + 1 < totalFrags p.bytes then
        ({ fragBuf := base ++ [(.string id, entry')], decoded := s.decoded + 1 }, [])
      else
        ({ fragBuf := base, decoded := s.decoded + 1 },
          deliver (some (.string p.type))
            ((List.range (totalFrags p.bytes)).flatMap (sliceOf p.bytes))) := by
    rw [onMessage, hparsed]
    dsimp only
    rw [if_pos hpart.isFragment, handleFragment_of_isPart hpart hk htotal, acceptFragment]
    rw [hopen, lookup_concat_self hbase]
    dsimp only
    rw [hfile, List.length_range, assign_concat hbase, remove_concat hbase]
  rw [hstep]
  split
  · rw [← List.range_succ] at hentry'
    exact ⟨gathered_of_fragBuf rfl hbase hentry', rfl⟩
  · rfl

/-- **Fragments that arrive in order are joined again.** -/
theorem runFrom_fragments (hid : id.length ≤ 16) (hpos : 0 < p.bytes.length)
    (htotal : totalFrags p.bytes ≤ 10000) (hs : s.fragBuf.lookup (.string id) = none) :
    ((receiver C).runFrom s ((List.range (totalFrags p.bytes)).map fun i =>
      Event.received (.binary (fragment ν id p i)))).2 =
      deliver (some (.string p.type)) p.bytes := by
  have hfirst (k : ℕ) (hk : k < totalFrags p.bytes) :
      Gathered id p k ((receiver C).runFrom s ((List.range k).map fun i =>
        Event.received (.binary (fragment ν id p i)))).1 ∧
      ((receiver C).runFrom s ((List.range k).map fun i =>
        Event.received (.binary (fragment ν id p i)))).2 = [] := by
    induction k with
    | zero => exact ⟨gathered_zero hs, rfl⟩
    | succ k ih =>
      obtain ⟨hgathered, hnothing⟩ := ih (Nat.lt_of_succ_lt hk)
      have hnext := @onMessage_fragment ν _ _ C p id _ hid htotal k (Nat.lt_of_succ_lt hk) hgathered
      rw [if_pos hk] at hnext
      rw [List.range_succ, List.map_append, System.runFrom_append, hnothing,
        List.map_singleton, System.runFrom_singleton]
      exact hnext
  obtain ⟨k, hk⟩ := Nat.exists_eq_succ_of_ne_zero (n := totalFrags p.bytes) (by
    rw [totalFrags_eq_cutCount hpos]
    exact Nat.succ_ne_zero _)
  obtain ⟨hgathered, hnothing⟩ := hfirst k (by omega)
  have hlast := @onMessage_fragment ν _ _ C p id _ hid htotal k (by omega) hgathered
  rw [if_neg (by omega), flatMap_sliceOf hpos] at hlast
  rw [hk, List.range_succ, List.map_append, System.runFrom_append, hnothing, List.map_singleton,
    System.runFrom_singleton]
  exact hlast

end Fragments

/-! ### Messages -/

/-- The messages that are handed to `onData`. -/
def delivered (os : List (Output ν)) : List (Data ν) :=
  os.filterMap fun
    | .data data => some data
    | .error _ => none

/-- Whatever sets the receiver has open, if none of them has the id that is drawn, one message is
handed over, and it is the one that was sent. -/
def RoundTrips (C : Coercions ν) (m : Message ν) : Prop :=
  ∀ (idBytes : List UInt8) (s : Receiver ν),
    s.fragBuf.lookup (.string (ofText (fragmentId idBytes))) = none →
    ∃ d, delivered ((receiver C).runFrom s ((m.send idBytes).map Event.received)).2 = [d] ∧ d.Is m

/-- A message without a binary field, or whose binary field can be told from the others: if it is
`payload` there is no `bytes`; no field is called `_hasBinary`; the header is within its limit; and
if the frame is not cut into fragments, it does not look like one. -/
def Message.Framable (m : Message ν) : Prop :=
  ∀ b ∈ m.binary,
    (b.1 = .payload → (Fields.get m.fields "bytes").isNone) ∧
    (Fields.get m.fields "_hasBinary").isNone ∧
    m.headerJson.length ≤ maxHeaderSize ∧
    (m.rawPayload.bytes.length ≤ sctpMaxSize →
      (Fields.get m.fields "_frag").bind Value.toNumber? ≠ some (Numeral.ofNat 1))

instance (m : Message ν) : Decidable m.Framable :=
  inferInstanceAs (Decidable (∀ b ∈ m.binary, (b.1 = .payload → _) ∧ _ ∧ _ ∧ (_ → _)))

section Message

variable {m : Message ν} {idBytes : List UInt8} {s : Receiver ν}

omit [DecidableEq ν] in
theorem length_fragmentId_le (idBytes : List UInt8) :
    (ofText (fragmentId idBytes)).length ≤ 16 := by
  have hle := length_ofText_le (fragmentId idBytes)
  have htake : (fragmentId idBytes).length ≤ 8 := List.length_take_le 8 _
  omega

theorem runFrom_sendPayload {p : Packet} (hlong : ¬p.bytes.length ≤ sctpMaxSize)
    (hsize : p.bytes.length ≤ maxFrameSize)
    (hs : s.fragBuf.lookup (.string (ofText (fragmentId idBytes))) = none) :
    ((receiver C).runFrom s ((sendPayload ν idBytes p).map Event.received)).2 =
      deliver (some (.string p.type)) p.bytes := by
  have hfragments := @runFrom_fragments ν _ _ C p _ s (length_fragmentId_le idBytes)
    (by omega) (totalFrags_le hsize) hs
  rw [sendPayload, if_neg hlong, List.map_map]
  exact hfragments

theorem runFrom_sendPayload_of_le {p : Packet} (hshort : p.bytes.length ≤ sctpMaxSize) :
    ((receiver C).runFrom s ((sendPayload ν idBytes p).map Event.received)).2 =
      (onMessage C s p).2 := by
  rw [sendPayload, if_pos hshort, List.map_singleton, System.runFrom_singleton]
  rfl

theorem delivered_of_text (hraw : m.rawPayload = .text m.text)
    (hsize : m.rawPayload.bytes.length ≤ maxFrameSize)
    (hs : s.fragBuf.lookup (.string (ofText (fragmentId idBytes))) = none) :
    delivered ((receiver C).runFrom s ((m.send idBytes).map Event.received)).2 =
      [{ value := .object m.fields }] := by
  rw [Message.send]
  by_cases hshort : m.rawPayload.bytes.length ≤ sctpMaxSize
  · have hparse : parse m.text = some (.object m.fields) := parse_print m.isFinite
    rw [runFrom_sendPayload_of_le hshort, hraw, onMessage, hparse]
    rfl
  · have hparse : parse (Utf8.decode m.rawPayload.bytes) = some (.object m.fields) := by
      rw [hraw]
      exact parse_decode_encode m.isFinite
    have htype : m.rawPayload.type = ofString "s" := by rw [hraw]; rfl
    rw [runFrom_sendPayload hshort hsize hs, deliver, htype]
    simp only [Option.bind_some, Value.toUnits?, if_true, hparse]
    rfl

/-- What arrives of a message that is sent as a frame, unless the frame is taken for a fragment. -/
theorem delivered_of_frame {content : List UInt8}
    (hraw : m.rawPayload = .binary (lengthPrefixed m.headerJson content))
    (hsize : m.rawPayload.bytes.length ≤ maxFrameSize)
    (hs : s.fragBuf.lookup (.string (ofText (fragmentId idBytes))) = none)
    (hwhole : m.headerJson.length ≤ maxHeaderSize → m.rawPayload.bytes.length ≤ sctpMaxSize →
      ¬(m.framed content).IsFragment) :
    delivered ((receiver C).runFrom s ((m.send idBytes).map Event.received)).2 =
      if m.headerJson.length ≤ maxHeaderSize then [m.framed content] else [] := by
  have hbytes : m.rawPayload.bytes = lengthPrefixed m.headerJson content := by rw [hraw]; rfl
  have hunframe : (unframe (lengthPrefixed m.headerJson content) : Except FrameError (Data ν)) =
      .ok (m.framed content) ∧ m.headerJson.length ≤ maxHeaderSize ∨
      (∃ e, (unframe (lengthPrefixed m.headerJson content) : Except FrameError (Data ν)) =
        .error e) ∧ ¬m.headerJson.length ≤ maxHeaderSize := by
    by_cases hheader : m.headerJson.length ≤ maxHeaderSize
    · exact .inl ⟨m.unframe_lengthPrefixed_headerJson content hheader (hbytes ▸ hsize), hheader⟩
    · have h32 : m.headerJson.length < 2 ^ 32 := by
        have hlimit : maxFrameSize = 67108864 := rfl
        rw [hbytes, length_lengthPrefixed] at hsize
        omega
      exact .inr ⟨unframe_of_maxHeaderSize_lt (Nat.lt_of_not_le hheader) h32, hheader⟩
  rw [Message.send]
  by_cases hshort : m.rawPayload.bytes.length ≤ sctpMaxSize
  · rw [runFrom_sendPayload_of_le hshort, hraw, onMessage]
    obtain ⟨hok, hheader⟩ | ⟨⟨e, herror⟩, hheader⟩ := hunframe
    · rw [hok, if_pos hheader]
      dsimp only
      rw [if_neg (hwhole hheader hshort)]
      rfl
    · rw [herror, if_neg hheader]
      rfl
  · have htype : m.rawPayload.type ≠ ofString "s" := by
      rw [hraw, Packet.type]
      decide
    rw [runFrom_sendPayload hshort hsize hs, deliver, hbytes]
    simp only [Option.bind_some, Value.toUnits?, Option.some_inj, if_neg htype]
    obtain ⟨hok, hheader⟩ | ⟨⟨e, herror⟩, hheader⟩ := hunframe
    · rw [hok, if_pos hheader]
      rfl
    · rw [herror, if_neg hheader]
      rfl

end Message

/-! ### A message that looks like a fragment -/

section Forged

variable {parsed : Data ν} {f : BinaryField} {content : List UInt8}

omit [DecidableEq ν] in
theorem Entry.indices_sublist (entry : Entry ν) :
    (entry.indices C).Sublist (List.range 10000) := by
  rw [Entry.indices]
  generalize List.range 10000 = indices
  exact List.takeWhile_sublist _

omit [DecidableEq ν] in
theorem Entry.nodup_indices (entry : Entry ν) : (entry.indices C).Nodup :=
  List.Nodup.sublist entry.indices_sublist List.nodup_range

omit [DecidableEq ν] in
theorem Entry.lt_of_mem_indices {entry : Entry ν} {j : ℕ} (hj : j ∈ entry.indices C) :
    j < 10000 := by
  have hmem := List.Sublist.subset entry.indices_sublist hj
  generalize 10000 = limit at hmem ⊢
  exact List.mem_range.mp hmem

theorem length_assembled_singleton {key : Key ν} {part : Part ν} {entry : Entry ν}
    (hparts : entry.parts = [(key, part)])
    (hpart : part = .bytes content ∨ part.isFalsy = true) {assembled : List UInt8}
    (h : entry.assembled C = some assembled) : assembled.length ≤ content.length := by
  -- a part is found under one index at most, and only if it is bytes
  have hfound (j : ℕ) (q : Part ν) (hq : entry.part j = some q) :
      key = .number (Numeral.ofNat j) ∧ q = .bytes content := by
    rw [Entry.part, hparts, Option.filter_eq_some_iff, lookup_cons_eq_ite, List.lookup_nil] at hq
    obtain ⟨hlookup, hfalsy⟩ := hq
    split at hlookup
    next hkey =>
      obtain rfl := Option.some_inj.mp hlookup
      refine ⟨hkey.symm, hpart.resolve_right fun hbad => ?_⟩
      simp [hbad] at hfalsy
    · cases hlookup
  have hnodup := @Entry.nodup_indices ν _ C entry
  have hbound := fun j => @Entry.lt_of_mem_indices ν _ C entry j
  unfold Entry.assembled at h
  generalize entry.indices C = indices at h hnodup hbound
  cases indices with
  | nil =>
    have hnothing : C.concat [] = some [] := C.concat_bytes []
    have hnone : assembled = [] := Option.some_inj.mp (h.symm.trans hnothing)
    rw [hnone]
    exact Nat.zero_le _
  | cons j indices =>
    obtain ⟨parts, hmap, hconcat⟩ := Option.bind_eq_some_iff.mp h
    rw [List.mapM_cons] at hmap
    obtain ⟨q, hq, hrest⟩ := Option.bind_eq_some_iff.mp hmap
    obtain ⟨hkey, rfl⟩ := hfound j q hq
    cases indices with
    | nil =>
      obtain rfl : [Part.bytes content] = parts := Option.some_inj.mp hrest
      have hone : C.concat [.bytes content] = some ([content].flatten) := C.concat_bytes [content]
      have hsame : assembled = [content].flatten := Option.some_inj.mp (hconcat.symm.trans hone)
      rw [hsame, List.flatten_singleton]
    | cons j' indices =>
      rw [List.mapM_cons] at hrest
      obtain ⟨qs, hqs, -⟩ := Option.bind_eq_some_iff.mp hrest
      obtain ⟨q', hq', -⟩ := Option.bind_eq_some_iff.mp hqs
      have hsame := hkey.symm.trans (hfound j' q' hq').1
      rw [Key.number.injEq, Numeral.ofNat_inj] at hsame
      · rw [hsame] at hnodup
        exact absurd List.mem_cons_self (List.nodup_cons.mp hnodup).1
      · exact (hbound j List.mem_cons_self).trans (by decide)
      · exact (hbound j' (List.mem_cons_of_mem _ List.mem_cons_self)).trans (by decide)

omit [DecidableEq ν] in
theorem length_of_mem_delivered_deliver {type : Option (Value ν)} {assembled : List UInt8}
    {d : Data ν} (hd : d ∈ delivered (deliver type assembled)) :
    ∀ b ∈ d.binary, b.2.length + 4 ≤ assembled.length := by
  rw [deliver] at hd
  split at hd
  · split at hd
    · obtain rfl := List.mem_singleton.mp hd
      intro b hb
      cases hb
    · cases hd
  · split at hd
    next data hok =>
      obtain rfl := List.mem_singleton.mp hd
      obtain ⟨f, b, hbinary, hlength⟩ := length_of_unframe_eq_ok hok
      intro b' hb'
      rw [hbinary] at hb'
      rw [← Option.some_inj.mp hb']
      exact hlength
    · cases hd

/-- What a new receiver makes of one fragment has not as many bytes as the fragment. -/
theorem length_of_mem_delivered_handleFragment (hbinary : parsed.binary = some (f, content))
    (hpayload : f = .payload → parsed.value.property "bytes" = none) (decoded : ℕ) {d : Data ν}
    (hd : d ∈ delivered (handleFragment C parsed { decoded }).2) :
    ∀ b ∈ d.binary, b.2.length < content.length := by
  have hpart : parsed.part = .bytes content ∨ parsed.part.isFalsy = true := by
    cases f with
    | bytes => exact .inl (by rw [Data.part, hbinary])
    | payload =>
      right
      rw [Data.part, hbinary]
      rw [hpayload rfl]
      rfl
  rw [handleFragment] at hd
  split at hd
  · cases hd
  rw [acceptFragment] at hd
  have hopen (id : Key ν) (n : Operand ν) (t : Option (Value ν)) :
      openSet [] id n t = [(id, { total := n, type := t })] := by
    rw [openSet]
    rfl
  simp only [hopen, List.lookup_cons_self] at hd
  rw [fileFragment] at hd
  split at hd
  · cases hd
  dsimp only at hd
  split at hd
  · cases hd
  unfold Entry.reassemble at hd
  split at hd
  next assembled hassembled =>
    have hle := length_assembled_singleton rfl hpart hassembled
    intro b hb
    have hlt := length_of_mem_delivered_deliver hd b hb
    omega
  · cases hd

end Forged

/-! ### The exact condition -/

section Condition

variable {m : Message ν} {f : BinaryField} {content : List UInt8}

omit [DecidableEq ν] in
/-- The header leaves out the binary field, unless that is `payload` and there is a `bytes` too. -/
theorem framedField_eq_iff (hbinary : m.binary = some (f, content)) :
    m.framedField = f ↔ (f = .payload → (Fields.get m.fields "bytes").isNone) := by
  have hkey : (Fields.get m.fields "bytes").isNone ↔
      BinaryField.bytes.name ∉ Fields.keys m.fields :=
    Option.isNone_iff_eq_none.trans Fields.get_eq_none_iff
  have hthere := m.hasBinary _ hbinary
  rw [hkey, Message.framedField]
  cases f with
  | bytes => simp [hthere]
  | payload => split <;> simp_all

omit [DecidableEq ν] in
theorem binaryField_eq (hbinary : m.binary = some (f, content))
    (hname : f = .payload → (Fields.get m.fields "bytes").isNone) :
    m.binaryField = some content := by
  rw [Message.binaryField, hbinary]
  cases f with
  | bytes => rfl
  | payload =>
    have hnone := Option.isNone_iff_eq_none.mp (hname rfl)
    rw [hnone]

omit [DecidableEq ν] in
theorem binary_of_binaryField (h : m.binaryField = some content) :
    ∃ f, m.binary = some (f, content) := by
  rw [Message.binaryField] at h
  split at h
  · cases h
  next bytes hbinary =>
    exact ⟨.bytes, hbinary.trans (congrArg _ (congrArg _ (Option.some_inj.mp h)))⟩
  next bytes hbinary =>
    split at h
    · exact ⟨.payload, hbinary.trans (congrArg _ (congrArg _ (Option.some_inj.mp h)))⟩
    · exact ⟨.payload, hbinary.trans (congrArg _ (congrArg _ (Option.some_inj.mp h)))⟩
    · cases h

omit [DecidableEq ν] in
theorem isFragment_framed_iff : (m.framed content).IsFragment ↔
    (Fields.get m.fields "_frag").bind Value.toNumber? = some (Numeral.ofNat 1) := by
  have hother : ¬((ofString "_frag") = m.framedField.name ∨
      ofString "_frag" = ofString "_hasBinary") := by
    cases m.framedField <;> decide
  have hproperty := m.property_framed content "_frag"
  rw [if_neg hother] at hproperty
  rw [Data.IsFragment, hproperty]

omit [DecidableEq ν] in
theorem rawPayload_of_some (h : m.binaryField = some content) :
    m.rawPayload = .binary (lengthPrefixed m.headerJson content) := by
  rw [Message.rawPayload, h]

omit [DecidableEq ν] in
theorem rawPayload_of_none (h : m.binaryField = none) : m.rawPayload = .text m.text := by
  rw [Message.rawPayload, h]

theorem roundTrips_of_framable (hsize : m.rawPayload.bytes.length ≤ maxFrameSize)
    (h : m.Framable) : RoundTrips C m := by
  intro idBytes s hs
  rcases hbinary : m.binary with _ | ⟨f, content⟩
  · have htext : m.binaryField = none := by rw [Message.binaryField, hbinary]
    exact ⟨_, delivered_of_text (rawPayload_of_none htext) hsize hs, hbinary.symm, m.fields, rfl,
      fun _ _ => rfl⟩
  · obtain ⟨hname, hmark, hheader, hwhole⟩ := h _ hbinary
    have hfield : m.framedField = f := (framedField_eq_iff hbinary).mpr hname
    have hraw := rawPayload_of_some (binaryField_eq hbinary hname)
    have harrived := @delivered_of_frame ν _ _ C m idBytes s content hraw hsize hs
      fun _ hshort hfragment => hwhole hshort (isFragment_framed_iff.mp hfragment)
    rw [if_pos hheader] at harrived
    exact ⟨_, harrived, Message.framed_is_iff m content |>.mpr ⟨hfield ▸ hbinary, hmark⟩⟩

theorem not_is_of_isFragment (hraw : m.rawPayload = .binary (lengthPrefixed m.headerJson content))
    (hbinary : m.binary = some (f, content)) (hsize : m.rawPayload.bytes.length ≤ maxFrameSize)
    (hheader : m.headerJson.length ≤ maxHeaderSize)
    (hshort : m.rawPayload.bytes.length ≤ sctpMaxSize) (hfragment : (m.framed content).IsFragment)
    {d : Data ν}
    (hd : d ∈ delivered ((receiver C).runFrom {} ((m.send []).map Event.received)).2) :
    ¬d.Is m := by
  have hframe : (lengthPrefixed m.headerJson content).length ≤ maxFrameSize := by
    rwa [hraw] at hsize
  have hpayload : m.framedField = .payload → (m.framed content).value.property "bytes" = none := by
    intro hfield
    have hother : ¬((ofString "bytes") = m.framedField.name ∨
        ofString "bytes" = ofString "_hasBinary") := by
      rw [hfield]
      decide
    have hproperty := m.property_framed content "bytes"
    rw [if_neg hother] at hproperty
    rw [hproperty, Fields.get_eq_none_iff]
    rw [Message.framedField] at hfield
    split at hfield
    · cases hfield
    next hnot => exact hnot
  rw [Message.send, runFrom_sendPayload_of_le hshort, hraw, onMessage] at hd
  rw [m.unframe_lengthPrefixed_headerJson content hheader hframe] at hd
  dsimp only at hd
  rw [if_pos hfragment] at hd
  intro his
  have hlt := length_of_mem_delivered_handleFragment rfl hpayload 1 hd _ (his.1.trans hbinary)
  exact lt_irrefl _ hlt

theorem framable_of_roundTrips (hsize : m.rawPayload.bytes.length ≤ maxFrameSize)
    (h : RoundTrips C m) : m.Framable := by
  obtain ⟨d, hd, his⟩ := h [] {} rfl
  rintro ⟨f, content⟩ hbinary
  rcases hfield : m.binaryField with _ | content'
  · -- it went as a text, without its bytes
    rw [delivered_of_text (rawPayload_of_none hfield) hsize rfl] at hd
    have hnone := his.1
    rw [← (List.cons.inj hd).1, hbinary] at hnone
    cases hnone
  have hraw := rawPayload_of_some hfield
  obtain ⟨f', hbinary'⟩ := binary_of_binaryField hfield
  obtain ⟨rfl, rfl⟩ := Prod.mk.inj (Option.some_inj.mp (hbinary.symm.trans hbinary'))
  have hheader : m.headerJson.length ≤ maxHeaderSize := by
    by_contra hlong
    rw [delivered_of_frame hraw hsize rfl fun hheader => absurd hheader hlong,
      if_neg hlong] at hd
    cases hd
  have hwhole : m.rawPayload.bytes.length ≤ sctpMaxSize → ¬(m.framed content).IsFragment := by
    intro hshort hfragment
    have hmem : d ∈ delivered ((receiver C).runFrom {} ((m.send []).map Event.received)).2 := by
      rw [hd]
      exact List.mem_singleton_self d
    exact not_is_of_isFragment hraw hbinary hsize hheader hshort hfragment hmem his
  rw [delivered_of_frame hraw hsize rfl fun _ => hwhole, if_pos hheader] at hd
  rw [← (List.cons.inj hd).1, Message.framed_is_iff, hbinary] at his
  obtain ⟨hframed, hmark⟩ := his
  have hname : m.framedField = f := (Prod.mk.inj (Option.some_inj.mp hframed)).1.symm
  exact ⟨(framedField_eq_iff hbinary).mp hname, hmark, hheader,
    fun hshort hfragment => hwhole hshort (isFragment_framed_iff.mpr hfragment)⟩

end Condition

/-- **The framing is a round trip for exactly these messages.** -/
theorem roundTrips_iff (C : Coercions ν) (m : Message ν)
    (hsize : m.rawPayload.bytes.length ≤ maxFrameSize) : RoundTrips C m ↔ m.Framable :=
  ⟨framable_of_roundTrips hsize, roundTrips_of_framable hsize⟩

/-- A chunk. -/
def chunkMessage : Message ℤ where
  fields := [("type", .string "Chunk"), ("offset", .number 7), ("bytes", .object [])]
  binary := some (.bytes, [1, 2, 3])
  nodup := by decide
  isFinite := by simp [Value.IsFinite, fieldsFinite_iff, Numeral.IsFinite]
  hasBinary := by decide

/-- A message whose `bytes` is null, with a binary `payload`. -/
def nullBytes : Message ℤ where
  fields := [("bytes", .null), ("payload", .object [])]
  binary := some (.payload, [1])
  nodup := by decide
  isFinite := by simp [Value.IsFinite, fieldsFinite_iff]
  hasBinary := by decide

theorem roundTrips_chunkMessage : RoundTrips integerCoercions chunkMessage :=
  (roundTrips_iff integerCoercions chunkMessage (by decide +kernel)).mpr (by decide +kernel)

/-- The bytes arrive under the other name. -/
theorem nullBytes_garbled :
    nullBytes.rawPayload.bytes.length ≤ maxFrameSize ∧ ¬RoundTrips integerCoercions nullBytes := by
  refine ⟨by decide +kernel, fun h => ?_⟩
  obtain ⟨d, hd, his⟩ := h [] {} rfl
  have hbinary : (delivered ((receiver integerCoercions).runFrom {}
      ((nullBytes.send []).map Event.received)).2).map Data.binary = [some (.bytes, [1])] := by
    decide +kernel
  rw [hd] at hbinary
  have hother := his.1.symm.trans (List.cons.inj hbinary).1
  exact absurd hother (by decide)

end Rapidly.P2p
