import Rapidly.P2p.Fragments

/-!
# Reassembly

What the receiver delivers when the fragments of several sets arrive in any order, repeated, and
mixed with anything else.

`gathering` says what reassembly is for: of each set the indices are gathered that have arrived
since it was last joined, and the fragment that completes them joins the set. `Orderly` says which
arrivals the receiver copes with: fewer than `MAX_FRAG_SETS` sets are open, and what is no fragment
of a set neither takes its place in the table nor removes it from there. Then the receiver
delivers a set at exactly the arrivals at which it is joined (`handsOver_of_orderly`).

The receiver forgets a set when it joins it, so that its fragments may come again and be joined
again (`log_twice`): a set is delivered exactly once if none of its fragments comes again after
that (`count_log_eq_one`). What holds in every run is that a set is only delivered when a part has
come for each of its indices (`complete_of_run`), and, while every fragment has an id, that the
table has room for `MAX_FRAG_SETS` sets (`length_fragBuf_le`).
-/

namespace Rapidly.P2p

open Binary Json KeyValue Transition

/-- A set of fragments, as it is sent: the type of what was cut, and the parts. -/
structure FragmentSet where
  type : Units
  count : ℕ
  payload : ℕ → List UInt8
  count_pos : 0 < count
  count_le : count ≤ 10000

/-- What was cut. -/
def FragmentSet.content (set : FragmentSet) : List UInt8 :=
  (List.range set.count).flatMap set.payload

variable {ν : Type}

/-- Something happens to the receiver: a fragment of a set arrives, or anything else. -/
inductive Arrival (ν : Type) where
  | part (id : Units) (i : ℕ) (frame : List UInt8)
  | other (e : Event ν)

def Arrival.event : Arrival ν → Event ν
  | .part _ _ frame => .received (.binary frame)
  | .other e => e

/-! ### What reassembly is for -/

section Gathering

/-- The indices after one more. The last one that is missing joins the set, which starts again. -/
def FragmentSet.add (set : FragmentSet) (got : List ℕ) (i : ℕ) : List ℕ :=
  if i ∈ got then got
  else if got.length + 1 < set.count then got ++ [i]
  else []

/-- The index is the last one that is missing. -/
def FragmentSet.JoinedBy (set : FragmentSet) (got : List ℕ) (i : ℕ) : Prop :=
  i ∉ got ∧ set.count ≤ got.length + 1

instance (set : FragmentSet) (got : List ℕ) (i : ℕ) : Decidable (set.JoinedBy got i) :=
  inferInstanceAs (Decidable (_ ∧ _))

/-- The gathering of the sets, each under its id. What is observed is that a set is joined. -/
def gathering (ν : Type) (sets : Units → Option FragmentSet) :
    System (Units → List ℕ) (Arrival ν) Units where
  init _ := []
  step g
    | .part id i _ =>
      match sets id with
      | some set =>
        (Function.update g id (set.add (g id) i), if set.JoinedBy (g id) i then [id] else [])
      | none => (g, [])
    | .other _ => (g, [])

variable {sets : Units → Option FragmentSet} {g : Units → List ℕ} {id id' : Units} {i : ℕ}
  {set : FragmentSet} {got : List ℕ} {past : List (Arrival ν)} {a : Arrival ν}

theorem step_part (hset : sets id = some set) (frame : List UInt8) :
    (gathering ν sets).step g (.part id i frame) =
      (Function.update g id (set.add (g id) i),
        if set.JoinedBy (g id) i then [id] else []) := by
  rw [gathering]
  dsimp only
  rw [hset]

/-- The indices that have been gathered of a set that is not complete. -/
structure FragmentSet.Gathered (set : FragmentSet) (got : List ℕ) : Prop where
  nodup : got.Nodup
  lt : ∀ j ∈ got, j < set.count
  length_lt : got.length < set.count

theorem FragmentSet.gathered_nil (set : FragmentSet) : set.Gathered [] :=
  ⟨List.nodup_nil, fun _ h => absurd h List.not_mem_nil, set.count_pos⟩

theorem FragmentSet.Gathered.add (h : set.Gathered got) (hi : i < set.count) :
    set.Gathered (set.add got i) := by
  rw [FragmentSet.add]
  split
  · exact h
  next hnew =>
    split
    next hmore =>
      refine ⟨?_, fun j hj => ?_, ?_⟩
      · rw [List.nodup_append]
        refine ⟨h.nodup, List.nodup_singleton i, fun a ha b hb hab => hnew ?_⟩
        rwa [← List.mem_singleton.mp hb, ← hab]
      · rcases List.mem_append.mp hj with hold | hlast
        · exact h.lt j hold
        · rw [List.mem_singleton.mp hlast]
          exact hi
      · rw [List.length_append, List.length_singleton]
        exact hmore
    · exact set.gathered_nil

theorem FragmentSet.mem_add {j : ℕ} (set : FragmentSet) (h : ¬set.JoinedBy got i)
    (hj : j ∈ got ∨ j = i) : j ∈ set.add got i := by
  rw [FragmentSet.add]
  split
  next hmem =>
    rcases hj with hold | rfl
    · exact hold
    · exact hmem
  next hnew =>
    have hmore : got.length + 1 < set.count := by
      by_contra hless
      exact h ⟨hnew, by omega⟩
    rw [if_pos hmore, List.mem_append, List.mem_singleton]
    exact hj

theorem FragmentSet.Gathered.exists_missing (h : set.Gathered got) :
    ∃ i < set.count, i ∉ got := by
  by_contra hall
  have hsubset : List.range set.count ⊆ got := by
    intro i hi
    by_contra hmissing
    exact hall ⟨i, List.mem_range.mp hi, hmissing⟩
  have hle := (List.subperm_of_subset List.nodup_range hsubset).length_le
  rw [List.length_range] at hle
  exact absurd h.length_lt (Nat.not_lt.mpr hle)

/-- The set is joined, or every index that arrived is gathered. -/
def JoinedOrHeld (sets : Units → Option FragmentSet) (id : Units) (past : List (Arrival ν)) :
    Prop :=
  id ∈ (gathering ν sets).log past ∨
    ∀ i frame, .part id i frame ∈ past → i ∈ (gathering ν sets).after past id

theorem joinedOrHeld_concat (h : JoinedOrHeld sets id past) (hset : sets id = some set)
    (ha : ∀ id' i frame, a = .part id' i frame → (sets id').isSome) :
    JoinedOrHeld sets id (past ++ [a]) := by
  rw [JoinedOrHeld, System.log_snoc, System.after_snoc]
  rcases h with hjoined | hheld
  · exact .inl (List.mem_append_left _ hjoined)
  rcases a with ⟨id', i, frame⟩ | e
  · obtain ⟨set', hset'⟩ := Option.isSome_iff_exists.mp (ha id' i frame rfl)
    rw [step_part hset']
    dsimp only
    by_cases hid : id = id'
    · subst hid
      obtain rfl := Option.some_inj.mp (hset.symm.trans hset')
      rw [Function.update_self]
      by_cases hjoined : set.JoinedBy ((gathering ν sets).after past id) i
      · left
        rw [if_pos hjoined]
        exact List.mem_append_right _ List.mem_cons_self
      · right
        intro j frame' hj
        rw [List.mem_append, List.mem_singleton] at hj
        have hmem : j ∈ (gathering ν sets).after past id ∨ j = i := by
          rcases hj with hold | hnew
          · exact .inl (hheld j frame' hold)
          · injection hnew with _ hji
            exact .inr hji
        exact set.mem_add hjoined hmem
    · right
      intro j frame' hj
      rw [List.mem_append, List.mem_singleton] at hj
      rw [Function.update_of_ne hid]
      rcases hj with hold | hnew
      · exact hheld j frame' hold
      · injection hnew with hid'
        exact absurd hid' hid
  · right
    intro j frame hj
    rw [List.mem_append, List.mem_singleton] at hj
    rcases hj with hold | hnew
    · exact hheld j frame hold
    · exact absurd hnew (by simp)

/-- No fragment of the set arrives when it has been joined. -/
def NotAgain (sets : Units → Option FragmentSet) (id : Units) (past : List (Arrival ν))
    (a : Arrival ν) : Prop :=
  id ∈ (gathering ν sets).log past → ∀ i frame, a ≠ .part id i frame

theorem step_snd_eq (g : Units → List ℕ) (a : Arrival ν) :
    ((gathering ν sets).step g a).2 = [] ∨
      ∃ id i frame, a = .part id i frame ∧ ((gathering ν sets).step g a).2 = [id] := by
  rcases a with ⟨id, i, frame⟩ | e
  · by_cases hset : ∃ set, sets id = some set
    · obtain ⟨set, hset⟩ := hset
      rw [step_part hset]
      by_cases hjoined : set.JoinedBy (g id) i
      · exact .inr ⟨id, i, frame, rfl, if_pos hjoined⟩
      · exact .inl (if_neg hjoined)
    · have hnone : sets id = none := Option.eq_none_iff_forall_ne_some.mpr fun set hs =>
        hset ⟨set, hs⟩
      left
      rw [gathering]
      dsimp only
      rw [hnone]
  · exact .inl rfl

theorem count_log_concat (h : ((gathering ν sets).log past).count id ≤ 1)
    (ha : NotAgain sets id past a) : ((gathering ν sets).log (past ++ [a])).count id ≤ 1 := by
  rw [System.log_snoc, List.count_append]
  have hstep := @step_snd_eq ν sets ((gathering ν sets).after past) a
  rcases hstep with hnone | ⟨id', i, frame, rfl, hone⟩
  · rw [hnone, List.count_nil]
    exact h
  · rw [hone]
    by_cases hid : id' = id
    · subst hid
      have hnew : id' ∉ (gathering ν sets).log past := fun hmem => ha hmem i frame rfl
      rw [List.count_eq_zero_of_not_mem hnew, List.count_singleton_self]
    · rw [List.count_singleton, if_neg (by simpa using hid)]
      exact h

end Gathering

/-! ### Other arrivals -/

section Receiver

variable [Numeral ν] [DecidableEq ν] (C : Coercions ν)

/-- The checks on index and count turn the fragment away. -/
def Data.Invalid (parsed : Data ν) : Prop :=
  C.lt (parsed.value.property "n") (natValue ν 1) ∨
    C.lt (natValue ν 10000) (parsed.value.property "n") ∨
    C.lt (parsed.value.property "i") (natValue ν 0) ∨
    C.le (parsed.value.property "n") (parsed.value.property "i")

/-- The set of its id is open, with another count or with the index already. -/
def Receiver.Rejects (s : Receiver ν) (parsed : Data ν) : Prop :=
  ∃ entry, s.fragBuf.lookup (s.operand parsed "id").key = some entry ∧
    (entry.total.key ≠ (s.operand parsed "n").key ∨
      (entry.parts.lookup (s.operand parsed "i").key).isSome)

/-- The receiver while it handles a frame. -/
def Receiver.next (s : Receiver ν) : Receiver ν := { s with decoded := s.decoded + 1 }

/-- A frame that the sets have nothing to do with: if it is a fragment, it is turned away, or
belongs to another set. -/
def Foreign (sets : Units → Option FragmentSet) (s : Receiver ν) (frame : List UInt8) : Prop :=
  ∀ parsed, unframe frame = .ok parsed → parsed.IsFragment →
    parsed.Invalid C ∨ s.next.Rejects parsed ∨
      ∀ id, (sets id).isSome → (s.next.operand parsed "id").key ≠ .string id

/-- The receiver can cope with the arrival: fewer than `MAX_FRAG_SETS` sets are open, a fragment
is one of its set, a frame of another kind has nothing to do with the sets, and no timer of a set
fires. -/
def Orderly (sets : Units → Option FragmentSet) (s : Receiver ν) (a : Arrival ν) : Prop :=
  s.fragBuf.length < maxFragSets ∧
    match a with
    | .part id i frame => ∃ (set : FragmentSet) (parsed : Data ν), sets id = some set ∧
        i < set.count ∧ unframe frame = .ok parsed ∧
        parsed.IsPart id i set.count set.type (set.payload i)
    | .other (.received (.text _)) => True
    | .other (.received (.binary frame)) => Foreign C sets s frame
    | .other (.timedOut key) => ∀ id, (sets id).isSome → key ≠ .string id

/-- The receiver, and what arrives there. -/
def arrivals : System (Receiver ν) (Arrival ν) (Output ν) where
  init := {}
  step s a := receive C s a.event

/-! ### One arrival -/

variable {C} {sets : Units → Option FragmentSet} {s : Receiver ν} {id : Units} {i : ℕ}
  {set : FragmentSet} {got : List ℕ}

omit [Numeral ν] in
theorem makeRoom_of_lt {fragBuf : List (Key ν × Entry ν)} (h : fragBuf.length < maxFragSets) :
    makeRoom fragBuf = fragBuf := by
  rw [makeRoom.eq_def, if_neg (Nat.not_le.mpr h)]

omit [Numeral ν] in
theorem lookup_openSet_of_ne {fragBuf : List (Key ν × Entry ν)} {key key' : Key ν}
    {n : Operand ν} {t : Option (Value ν)} (h : fragBuf.length < maxFragSets) (hne : key ≠ key') :
    (openSet fragBuf key' n t).lookup key = fragBuf.lookup key := by
  rw [openSet]
  split
  · rfl
  · rw [makeRoom_of_lt h, lookup_concat, if_neg hne, Option.or_none]

theorem lookup_acceptFragment_of_ne {key key' : Key ν} {x n : Operand ν} {t : Option (Value ν)}
    {part : Part ν} (h : s.fragBuf.length < maxFragSets) (hne : key ≠ key') :
    (acceptFragment C s key' x n t part).1.fragBuf.lookup key = s.fragBuf.lookup key := by
  have hopen : (openSet s.fragBuf key' n t).lookup key = s.fragBuf.lookup key :=
    lookup_openSet_of_ne h hne
  rw [acceptFragment]
  split
  · rw [fileFragment]
    split
    · exact hopen
    · dsimp only
      split
      · rw [lookup_assign, if_neg hne]
        exact hopen
      · rw [lookup_remove, if_neg hne]
        exact hopen
  · exact hopen

/-- The set is open with the indices that have been gathered. -/
def Tracks (set : FragmentSet) (id : Units) (s : Receiver ν) (got : List ℕ) : Prop :=
  set.Gathered got ∧
    (got = [] ∧ s.fragBuf.lookup (.string id) = none ∨
      got ≠ [] ∧ ∃ entry, s.fragBuf.lookup (.string id) = some entry ∧
        entry.Collects set.count set.type set.payload got)

theorem Tracks.congr {s' : Receiver ν} (h : Tracks set id s got)
    (hlookup : s'.fragBuf.lookup (.string id) = s.fragBuf.lookup (.string id)) :
    Tracks set id s' got := by
  rw [Tracks, hlookup]
  exact h

/-- Whether it is open or not, a fragment finds its set with what has been gathered. -/
theorem Tracks.exists_entry (h : Tracks set id s got) (hroom : s.fragBuf.length < maxFragSets)
    (identity : ℕ) :
    ∃ entry, (openSet s.fragBuf (.string id) { value := natValue ν set.count, identity }
        (some (.string set.type))).lookup (.string id) = some entry ∧
      entry.Collects set.count set.type set.payload got := by
  obtain ⟨-, ⟨rfl, hnone⟩ | ⟨-, entry, hentry, hcollects⟩⟩ := h
  · refine ⟨.mk { value := natValue ν set.count, identity } (some (.string set.type)) [], ?_,
      rfl, rfl, rfl⟩
    rw [openSet, hnone]
    rw [makeRoom_of_lt hroom, lookup_concat_self hnone]
  · refine ⟨entry, ?_, hcollects⟩
    rw [openSet, hentry]
    exact hentry

/-- **A fragment of a set** is gathered, and the set delivered when it is the last one. -/
theorem acceptFragment_of_tracks (h : Tracks set id s got) (hroom : s.fragBuf.length < maxFragSets)
    (hi : i < set.count) (identity : ℕ) :
    Tracks set id
      (acceptFragment C s (.string id) { value := natValue ν i, identity }
        { value := natValue ν set.count, identity } (some (.string set.type))
        (.bytes (set.payload i))).1 (set.add got i) ∧
    (acceptFragment C s (.string id) { value := natValue ν i, identity }
        { value := natValue ν set.count, identity } (some (.string set.type))
        (.bytes (set.payload i))).2 =
      if set.JoinedBy got i then deliver (some (.string set.type)) set.content else [] := by
  obtain ⟨entry, hentry, hcollects⟩ := h.exists_entry hroom identity
  have hgathered := h.1.add hi
  rw [acceptFragment]
  rw [hentry]
  dsimp only
  by_cases hmem : i ∈ got
  · -- the fragment came before, so its set is open
    have hnotJoined : ¬set.JoinedBy got i := fun hjoined => hjoined.1 hmem
    have hadd : set.add got i = got := by rw [FragmentSet.add, if_pos hmem]
    have hne : got ≠ [] := List.ne_nil_of_mem hmem
    rw [fileFragment_of_mem hcollects h.1.lt set.count_le hmem, hadd, if_neg hnotJoined]
    exact ⟨⟨h.1, .inr ⟨hne, entry, hentry, hcollects⟩⟩, rfl⟩
  · obtain ⟨entry', hcollects', hfile⟩ := @fileFragment_of_notMem ν _ C id _ i _ _ _ _ _ _
      hcollects h.1.nodup h.1.lt set.count_le hi hmem identity identity
    rw [hfile]
    rw [FragmentSet.add, if_neg hmem] at hgathered ⊢
    by_cases hmore : got.length + 1 < set.count
    · have hnotJoined : ¬set.JoinedBy got i := fun hjoined => absurd hjoined.2 (by omega)
      rw [if_pos hmore] at hgathered
      rw [if_pos hmore, if_pos hmore, if_neg hnotJoined]
      refine ⟨⟨hgathered, .inr ⟨by simp, entry', ?_, hcollects'⟩⟩, rfl⟩
      rw [lookup_assign, if_pos rfl, hentry, Option.map_some]
    · have hjoined : set.JoinedBy got i := ⟨hmem, by omega⟩
      rw [if_neg hmore, if_neg hmore, if_pos hjoined]
      refine ⟨⟨set.gathered_nil, .inl ⟨rfl, ?_⟩⟩, rfl⟩
      rw [lookup_remove, if_pos rfl]

/-- A fragment with another count or with an index that is there already is turned away. -/
theorem handleFragment_of_rejects {parsed : Data ν} (h : s.Rejects parsed) :
    handleFragment C parsed s = (s, []) := by
  obtain ⟨entry, hentry, hrejected⟩ := h
  have hopen : openSet s.fragBuf (s.operand parsed "id").key (s.operand parsed "n")
      (parsed.value.property "t") = s.fragBuf := by
    rw [openSet, hentry]
  rw [handleFragment]
  split
  · rfl
  · rw [acceptFragment, hopen]
    rw [hentry]
    dsimp only
    rw [fileFragment, if_pos hrejected]

theorem lookup_handleFragment_of_foreign {frame : List UInt8} {parsed : Data ν}
    (h : Foreign C sets s frame) (hparsed : unframe frame = .ok parsed)
    (hfragment : parsed.IsFragment) (hroom : s.fragBuf.length < maxFragSets)
    (hid : (sets id).isSome) :
    (handleFragment C parsed s.next).1.fragBuf.lookup (.string id) =
      s.fragBuf.lookup (.string id) := by
  have hinvalid (hinvalid : parsed.Invalid C) :
      handleFragment C parsed s.next = (s.next, []) := if_pos hinvalid
  rcases h parsed hparsed hfragment with hturned | hrejected | hother
  · rw [hinvalid hturned]
    rfl
  · rw [handleFragment_of_rejects hrejected]
    rfl
  · rw [handleFragment]
    split
    · rfl
    · exact lookup_acceptFragment_of_ne hroom (hother id hid).symm

/-- What is handed over when a set is joined. -/
def handedOver (ν : Type) [Numeral ν] (sets : Units → Option FragmentSet) (id : Units) :
    List (Output ν) :=
  match sets id with
  | some set => deliver (some (.string set.type)) set.content
  | none => []

/-- The step of the receiver is that of the gathering: a fragment of a set leads to what is handed
over if it joins the set, and anything else leaves the sets as they are. -/
def HandsOver (C : Coercions ν) (sets : Units → Option FragmentSet) (past : List (Arrival ν))
    (s : Receiver ν) (a : Arrival ν) : Prop :=
  match a with
  | .part _ _ _ => (receive C s a.event).2 =
      ((gathering ν sets).step ((gathering ν sets).after past) a).2.flatMap (handedOver ν sets)
  | .other e => ∀ id, (sets id).isSome →
      (receive C s e).1.fragBuf.lookup (.string id) = s.fragBuf.lookup (.string id)

theorem lookup_receive_of_orderly {e : Event ν} (h : Orderly C sets s (.other e))
    (hid : (sets id).isSome) :
    (receive C s e).1.fragBuf.lookup (.string id) = s.fragBuf.lookup (.string id) := by
  obtain ⟨hroom, h⟩ := h
  rcases e with (raw | frame) | key
  · rw [receive, onMessage]
    split
    · rfl
    · rfl
  · rw [receive, onMessage]
    split
    · rfl
    next parsed hparsed =>
      split
      next hfragment => exact lookup_handleFragment_of_foreign h hparsed hfragment hroom hid
      · rfl
  · rw [receive]
    rw [lookup_remove, if_neg fun heq => h id hid heq.symm]

theorem receive_part {frame : List UInt8} (h : Tracks set id s got)
    (ha : Orderly C sets s (.part id i frame)) (hset : sets id = some set) :
    Tracks set id (receive C s (.received (.binary frame))).1 (set.add got i) ∧
    (receive C s (.received (.binary frame))).2 =
      (if set.JoinedBy got i then [id] else []).flatMap (handedOver ν sets) ∧
    ∀ id', id' ≠ id → (receive C s (.received (.binary frame))).1.fragBuf.lookup (.string id') =
      s.fragBuf.lookup (.string id') := by
  obtain ⟨hroom, set', parsed, hset', hi, hparsed, hpart⟩ := ha
  obtain rfl := Option.some_inj.mp (hset.symm.trans hset')
  have hreceive : receive C s (.received (.binary frame)) =
      acceptFragment C s.next (.string id) { value := natValue ν i, identity := s.next.decoded }
        { value := natValue ν set.count, identity := s.next.decoded } (some (.string set.type))
        (.bytes (set.payload i)) := by
    rw [← handleFragment_of_isPart hpart hi set.count_le s.next, receive, onMessage, hparsed]
    exact if_pos hpart.isFragment
  have hnext : Tracks set id s.next got := h
  obtain ⟨htracks, houtput⟩ := acceptFragment_of_tracks (C := C) hnext hroom hi s.next.decoded
  rw [hreceive]
  refine ⟨htracks, houtput.trans ?_, fun id' hne => ?_⟩
  · split
    · rw [List.flatMap_singleton, handedOver, hset]
    · rfl
  · have hkey : (Key.string id' : Key ν) ≠ .string id := fun heq => hne (Key.string.inj heq)
    exact lookup_acceptFragment_of_ne hroom hkey

/-! ### Runs -/

section Runs

variable {past as : List (Arrival ν)} {a : Arrival ν}

/-- Of each set there is in the table what has been gathered. -/
def TracksAll (sets : Units → Option FragmentSet) (past : List (Arrival ν)) (s : Receiver ν) :
    Prop :=
  ∀ id set, sets id = some set → Tracks set id s ((gathering ν sets).after past id)

theorem tracksAll_init : TracksAll sets [] (arrivals C).init :=
  fun _ set _ => ⟨set.gathered_nil, .inl ⟨rfl, rfl⟩⟩

theorem TracksAll.step (h : TracksAll sets past s) (ha : Orderly C sets s a) :
    TracksAll sets (past ++ [a]) (receive C s a.event).1 := by
  intro id set hset
  rw [System.after_snoc]
  have hold := h id set hset
  rcases a with ⟨id', i, frame⟩ | e
  · obtain ⟨set', hset'⟩ : ∃ set', sets id' = some set' := by
      obtain ⟨-, set', -, hset', -⟩ := ha
      exact ⟨set', hset'⟩
    obtain ⟨htracks, -, hframe⟩ := receive_part (h id' set' hset') ha hset'
    rw [step_part hset']
    dsimp only
    by_cases hid : id = id'
    · subst hid
      obtain rfl := Option.some_inj.mp (hset.symm.trans hset')
      rw [Function.update_self]
      exact htracks
    · rw [Function.update_of_ne hid]
      exact hold.congr (hframe id hid)
  · have hid : (sets id).isSome := by rw [hset]; rfl
    exact hold.congr (lookup_receive_of_orderly ha hid)

theorem TracksAll.handsOver (h : TracksAll sets past s) (ha : Orderly C sets s a) :
    HandsOver C sets past s a := by
  rcases a with ⟨id, i, frame⟩ | e
  · obtain ⟨set, hset⟩ : ∃ set, sets id = some set := by
      obtain ⟨-, set, -, hset, -⟩ := ha
      exact ⟨set, hset⟩
    obtain ⟨-, houtput, -⟩ := receive_part (h id set hset) ha hset
    rw [HandsOver, step_part hset]
    exact houtput
  · exact fun id hid => lookup_receive_of_orderly ha hid

/-- **Reassembly**: in an orderly run the receiver delivers a set when it is joined. -/
theorem along_handsOver (h : (arrivals C).Along (fun _ s a => Orderly C sets s a) as) :
    (arrivals C).Along (HandsOver C sets) as := by
  refine (arrivals C).along_of_along (fun past s _ => TracksAll sets past s) tracksAll_init
    (fun past a hinv ha => ?_) (fun past a hinv ha => ?_) h
  · exact hinv.step ha
  · exact hinv.handsOver ha

theorem mem_log_of_arrived (h : (arrivals C).Along (fun _ s a => Orderly C sets s a) as)
    (hset : sets id = some set) (harrived : ∀ i < set.count, ∃ frame, .part id i frame ∈ as) :
    id ∈ (gathering ν sets).log as := by
  have hinv := (arrivals C).invariant_of_along
    (fun past s _ => TracksAll sets past s ∧ JoinedOrHeld sets id past)
    ⟨tracksAll_init, .inr fun _ _ h => absurd h List.not_mem_nil⟩
    (fun past a hinv ha => ?_) h
  · obtain ⟨htracks, hjoined | hheld⟩ := hinv
    · exact hjoined
    · obtain ⟨i, hi, hmissing⟩ := (htracks id set hset).1.exists_missing
      obtain ⟨frame, hframe⟩ := harrived i hi
      exact absurd (hheld i frame hframe) hmissing
  · refine ⟨hinv.1.step ha, joinedOrHeld_concat hinv.2 hset fun id' i frame hpart => ?_⟩
    subst hpart
    obtain ⟨-, set', -, hset', -⟩ := ha
    rw [hset']
    rfl

theorem count_log_eq_one (h : (arrivals C).Along (fun _ s a => Orderly C sets s a) as)
    (hset : sets id = some set) (harrived : ∀ i < set.count, ∃ frame, .part id i frame ∈ as)
    (honce : (arrivals C).Along (fun past _ a => NotAgain sets id past a) as) :
    ((gathering ν sets).log as).count id = 1 := by
  have hmem := mem_log_of_arrived h hset harrived
  have hle := (arrivals C).invariant_of_along
    (fun past _ _ => ((gathering ν sets).log past).count id ≤ 1) (Nat.zero_le 1)
    (fun past a hinv ha => count_log_concat hinv ha) honce
  have hpos := List.count_pos_iff.mpr hmem
  omega

end Runs

/-! ### Any run -/

section AnyRun

variable {past es : List (Event ν)} {key total k : Key ν} {part : Part ν}

/-- A fragment came that put the part there: of this set, with this total, under this index. -/
def Came (C : Coercions ν) (past : List (Event ν)) (key total k : Key ν) (part : Part ν) : Prop :=
  ∃ earlier frame parsed, earlier ++ [.received (.binary frame)] <+: past ∧
    unframe frame = .ok parsed ∧ parsed.IsFragment ∧ parsed.part = part ∧
    (((receiver C).after earlier).next.operand parsed "id").key = key ∧
    (((receiver C).after earlier).next.operand parsed "n").key = total ∧
    (((receiver C).after earlier).next.operand parsed "i").key = k

theorem Came.mono (h : Came C past key total k part) (e : Event ν) :
    Came C (past ++ [e]) key total k part := by
  obtain ⟨earlier, frame, parsed, hprefix, h⟩ := h
  exact ⟨earlier, frame, parsed, hprefix.trans (List.prefix_append past [e]), h⟩

/-- Every part of every set came. -/
def AllCame (C : Coercions ν) (past : List (Event ν)) (fragBuf : List (Key ν × Entry ν)) : Prop :=
  ∀ e ∈ fragBuf, ∀ q ∈ e.2.parts, Came C past e.1 e.2.total.key q.1 q.2

/-- A set that is joined has a part for each index, and the part came. -/
def Complete (C : Coercions ν) (past : List (Event ν)) (o : Output ν) : Prop :=
  ∃ (key : Key ν) (entry : Entry ν) (assembled : List UInt8), o ∈ deliver entry.type assembled ∧
    entry.assembled C = some assembled ∧
    ∀ j ∈ entry.indices C, ∃ part, entry.part j = some part ∧
      Came C past key entry.total.key (.number (Numeral.ofNat j)) part

omit [Numeral ν] in
theorem mem_of_mem_openSet {fragBuf : List (Key ν × Entry ν)} {n : Operand ν}
    {t : Option (Value ν)} {e : Key ν × Entry ν} (he : e ∈ openSet fragBuf key n t) :
    e ∈ fragBuf ∨ e = (key, .mk n t []) := by
  have hroom : ∀ e ∈ makeRoom fragBuf, e ∈ fragBuf := by
    intro e he
    rw [makeRoom.eq_def] at he
    split at he
    · split at he
      · exact absurd he List.not_mem_nil
      · split at he
        · exact he
        · exact List.mem_cons_of_mem _ he
    · exact he
  rw [openSet] at he
  split at he
  · exact .inl he
  · rcases List.mem_append.mp he with hold | hnew
    · exact .inl (hroom e hold)
    · exact .inr (List.mem_singleton.mp hnew)

omit [Numeral ν] in
theorem mem_of_lookup {fragBuf : List (Key ν × Entry ν)} {entry : Entry ν}
    (h : fragBuf.lookup key = some entry) : (key, entry) ∈ fragBuf := by
  obtain ⟨l, l', hsplit, -⟩ := List.lookup_eq_some_iff.mp h
  rw [hsplit]
  exact List.mem_append_right _ List.mem_cons_self

theorem Entry.exists_part {entry : Entry ν} {assembled : List UInt8} {j : ℕ}
    (h : entry.assembled C = some assembled) (hj : j ∈ entry.indices C) :
    ∃ part, entry.part j = some part ∧ (.number (Numeral.ofNat j), part) ∈ entry.parts := by
  obtain ⟨parts, hparts, -⟩ := Option.bind_eq_some_iff.mp h
  have hall := (Fallible.isSome_mapM_iff _).mp (Option.isSome_iff_exists.mpr ⟨parts, hparts⟩)
  obtain ⟨part, hpart⟩ := Option.isSome_iff_exists.mp (hall j hj)
  refine ⟨part, hpart, ?_⟩
  obtain ⟨hlookup, -⟩ := Option.filter_eq_some_iff.mp hpart
  obtain ⟨l, l', hsplit, -⟩ := List.lookup_eq_some_iff.mp hlookup
  rw [hsplit]
  exact List.mem_append_right _ List.mem_cons_self

theorem complete_of_mem_reassemble {entry : Entry ν}
    (hparts : ∀ q ∈ entry.parts, Came C past key entry.total.key q.1 q.2) (d : Data ν)
    (hd : .data d ∈ entry.reassemble C) : Complete C past (.data d) := by
  have hcases : entry.reassemble C = [malformed] ∨ ∃ assembled,
      entry.assembled C = some assembled ∧ entry.reassemble C = deliver entry.type assembled := by
    rcases hassembled : entry.assembled C with _ | assembled
    · left
      unfold Entry.reassemble
      generalize entry.assembled C = x at hassembled
      rw [hassembled]
    · exact .inr ⟨assembled, rfl, reassemble_eq_deliver hassembled⟩
  rcases hcases with hnone | ⟨assembled, hassembled, hdelivered⟩
  · rw [hnone, List.mem_singleton] at hd
    exact absurd hd (by simp [malformed])
  · rw [hdelivered] at hd
    refine ⟨key, entry, assembled, hd, hassembled, fun j hj => ?_⟩
    obtain ⟨found, hfound, hmem⟩ := Entry.exists_part hassembled hj
    exact ⟨found, hfound, hparts _ hmem⟩

theorem AllCame.fileFragment {x n : Operand ν} {entry : Entry ν}
    (h : AllCame C past s.fragBuf) (hentry : ∀ q ∈ entry.parts,
      Came C past key entry.total.key q.1 q.2)
    (hnew : Came C past key n.key x.key part) :
    AllCame C past (fileFragment C s key x n part entry).1.fragBuf ∧
    ∀ d, .data d ∈ (fileFragment C s key x n part entry).2 → Complete C past (.data d) := by
  rw [P2p.fileFragment]
  split
  · exact ⟨h, fun d hd => absurd hd List.not_mem_nil⟩
  next haccepted =>
    have htotal : entry.total.key = n.key := by
      by_contra hne
      exact haccepted (.inl hne)
    have hparts : ∀ q ∈ entry.parts ++ [(x.key, part)],
        Came C past key entry.total.key q.1 q.2 := by
      intro q hq
      rcases List.mem_append.mp hq with hold | hlast
      · exact hentry q hold
      · rw [List.mem_singleton.mp hlast, htotal]
        exact hnew
    dsimp only
    split
    · refine ⟨fun e he => ?_, fun d hd => absurd hd List.not_mem_nil⟩
      obtain ⟨old, hold, rfl⟩ := List.mem_map.mp he
      split
      · exact hparts
      · exact h old hold
    · have hremoved : AllCame C past (remove s.fragBuf key) := by
        intro e he
        exact h e (mem_remove.mp he).1
      have hcomplete := fun d => @complete_of_mem_reassemble ν _ _ C past key
        { entry with parts := entry.parts ++ [(x.key, part)] } hparts d
      dsimp only
      exact ⟨hremoved, hcomplete⟩

theorem AllCame.handleFragment {parsed : Data ν} (h : AllCame C past s.fragBuf)
    (hnew : Came C past (s.operand parsed "id").key (s.operand parsed "n").key
      (s.operand parsed "i").key parsed.part) :
    AllCame C past (handleFragment C parsed s).1.fragBuf ∧
    ∀ d, .data d ∈ (handleFragment C parsed s).2 → Complete C past (.data d) := by
  have hopen : AllCame C past (openSet s.fragBuf (s.operand parsed "id").key
      (s.operand parsed "n") (parsed.value.property "t")) := by
    intro e he
    rcases mem_of_mem_openSet he with hold | rfl
    · exact h e hold
    · exact fun q hq => absurd hq List.not_mem_nil
  rw [P2p.handleFragment]
  split
  · exact ⟨h, fun d hd => absurd hd List.not_mem_nil⟩
  · rw [acceptFragment]
    split
    next entry hentry =>
      exact AllCame.fileFragment hopen (hopen _ (mem_of_lookup hentry)) hnew
    · exact ⟨hopen, fun d hd => absurd hd List.not_mem_nil⟩

theorem AllCame.mono {fragBuf : List (Key ν × Entry ν)} (h : AllCame C past fragBuf)
    (e : Event ν) : AllCame C (past ++ [e]) fragBuf :=
  fun entry hentry q hq => (h entry hentry q hq).mono e

/-- What is delivered by a fragment is complete. -/
def DeliversComplete (C : Coercions ν) (past : List (Event ν)) (s : Receiver ν) (e : Event ν) :
    Prop :=
  ∀ (frame : List UInt8) (parsed : Data ν), e = .received (.binary frame) →
    unframe frame = .ok parsed → parsed.IsFragment →
      ∀ d, .data d ∈ (receive C s e).2 → Complete C (past ++ [e]) (.data d)

theorem AllCame.receive {e : Event ν} (h : AllCame C past ((receiver C).after past).fragBuf) :
    AllCame C (past ++ [e]) (receive C ((receiver C).after past) e).1.fragBuf ∧
    DeliversComplete C past ((receiver C).after past) e := by
  have hmono := h.mono e
  rcases e with (raw | frame) | key
  -- of the three kinds of messages only a fragment is filed
  · constructor
    · rw [P2p.receive, onMessage]
      split
      · exact hmono
      · exact hmono
    · rw [DeliversComplete]
      intro frame parsed he
      simp at he
  · rcases hparsed : (unframe frame : Except FrameError (Data ν)) with error | parsed
    · constructor
      · rw [P2p.receive, onMessage, hparsed]
        exact hmono
      · rw [DeliversComplete]
        intro frame' parsed he hparsed'
        obtain rfl : frame = frame' := by injection he with he; injection he
        exact absurd (hparsed.symm.trans hparsed') (by simp)
    by_cases hfragment : parsed.IsFragment
    · have hreceive : P2p.receive C ((receiver C).after past) (.received (.binary frame)) =
          P2p.handleFragment C parsed ((receiver C).after past).next := by
        rw [P2p.receive, onMessage, hparsed]
        exact if_pos hfragment
      have hnew : Came C (past ++ [.received (.binary frame)])
          (((receiver C).after past).next.operand parsed "id").key
          (((receiver C).after past).next.operand parsed "n").key
          (((receiver C).after past).next.operand parsed "i").key parsed.part :=
        ⟨past, frame, parsed, List.prefix_refl _, hparsed, hfragment, rfl, rfl, rfl, rfl⟩
      obtain ⟨hcame, hcomplete⟩ := AllCame.handleFragment (s := ((receiver C).after past).next)
        hmono hnew
      rw [DeliversComplete, hreceive]
      exact ⟨hcame, fun _ _ _ _ _ => hcomplete⟩
    · constructor
      · rw [P2p.receive, onMessage, hparsed]
        dsimp only
        rw [if_neg hfragment]
        exact hmono
      · rw [DeliversComplete]
        intro frame' parsed' he hparsed' hfragment'
        obtain rfl : frame = frame' := by injection he with he; injection he
        rw [hparsed] at hparsed'
        obtain rfl := Except.ok.inj hparsed'
        exact absurd hfragment' hfragment
  · constructor
    · intro e he
      exact hmono e (mem_remove.mp he).1
    · rw [DeliversComplete]
      intro frame parsed he
      simp at he

/-- **No incomplete set is delivered**, in any run. -/
theorem along_deliversComplete (es : List (Event ν)) :
    (receiver C).Along (DeliversComplete C) es := by
  have hinv := fun past => (receiver C).invariant (fun past s _ => AllCame C past s.fragBuf)
    (fun e he => absurd he List.not_mem_nil) (fun past e hinv => hinv.receive.1) past
  exact (receiver C).along_of_forall (fun past e => (hinv past).receive.2) es

/-- A fragment has an id. -/
def HasId (e : Event ν) : Prop :=
  ∀ (frame : List UInt8) (parsed : Data ν), e = .received (.binary frame) →
    unframe frame = .ok parsed → parsed.IsFragment → parsed.value.property "id" ≠ none

/-- The table is no larger than it may be, and every set has an id. -/
structure Bounded (fragBuf : List (Key ν × Entry ν)) : Prop where
  length_le : fragBuf.length ≤ maxFragSets
  key_ne : ∀ e ∈ fragBuf, e.1 ≠ .undefined

omit [Numeral ν] [DecidableEq ν] in
theorem key_ne_undefined {x : Operand ν} (h : x.value ≠ none) : x.key ≠ .undefined := by
  rw [Operand.key]
  split
  · exact absurd ‹_› h
  all_goals simp

omit [Numeral ν] in
/-- Where every set has an id, there is room for one more set when it is opened. -/
theorem Bounded.openSet {fragBuf : List (Key ν × Entry ν)} {n : Operand ν}
    {t : Option (Value ν)} (h : Bounded fragBuf) (hkey : key ≠ .undefined) :
    Bounded (openSet fragBuf key n t) := by
  have hroom : (makeRoom fragBuf).length < maxFragSets := by
    have hle := h.length_le
    by_cases hfull : fragBuf.length < maxFragSets
    · rw [makeRoom_of_lt hfull]
      exact hfull
    · rw [makeRoom.eq_def, if_pos (Nat.not_lt.mp hfull)]
      rcases fragBuf with _ | ⟨oldest, rest⟩
      · exact absurd (Nat.succ_pos 15) hfull
      · have hid := h.key_ne oldest List.mem_cons_self
        dsimp only
        rw [if_neg hid]
        rw [List.length_cons] at hle
        omega
  refine ⟨?_, fun e he => ?_⟩
  · rw [P2p.openSet]
    split
    · exact h.length_le
    · rw [List.length_append, List.length_singleton]
      omega
  · rcases mem_of_mem_openSet he with hold | rfl
    · exact h.key_ne e hold
    · exact hkey

omit [Numeral ν] in
theorem Bounded.assign {fragBuf : List (Key ν × Entry ν)} (h : Bounded fragBuf)
    (hkey : key ≠ .undefined) (entry : Entry ν) : Bounded (assign fragBuf key entry) := by
  refine ⟨?_, fun e he => ?_⟩
  · rw [length_assign]
    exact h.length_le
  · obtain ⟨old, hold, rfl⟩ := List.mem_map.mp he
    split
    · exact hkey
    · exact h.key_ne old hold

omit [Numeral ν] in
theorem Bounded.remove {fragBuf : List (Key ν × Entry ν)} (h : Bounded fragBuf)
    (key : Key ν) : Bounded (remove fragBuf key) :=
  ⟨(length_remove_le fragBuf key).trans h.length_le, fun e he =>
    h.key_ne e (mem_remove.mp he).1⟩

theorem Bounded.handleFragment {parsed : Data ν} (h : Bounded s.fragBuf)
    (hid : parsed.value.property "id" ≠ none) :
    Bounded (handleFragment C parsed s).1.fragBuf := by
  have hkey : (s.operand parsed "id").key ≠ .undefined := key_ne_undefined hid
  have hopen : Bounded (P2p.openSet s.fragBuf (s.operand parsed "id").key
      (s.operand parsed "n") (parsed.value.property "t")) := h.openSet hkey
  rw [P2p.handleFragment]
  split
  · exact h
  · rw [acceptFragment]
    split
    · rw [fileFragment]
      split
      · exact hopen
      · dsimp only
        split
        · exact hopen.assign hkey _
        · exact hopen.remove _
    · exact hopen

theorem Bounded.receive {e : Event ν} (h : Bounded s.fragBuf) (hid : HasId e) :
    Bounded (receive C s e).1.fragBuf := by
  rcases e with (raw | frame) | key
  · rw [P2p.receive, onMessage]
    split
    · exact h
    · exact h
  · rw [P2p.receive, onMessage]
    split
    · exact h
    next parsed hparsed =>
      split
      next hfragment => exact Bounded.handleFragment h (hid frame parsed rfl hparsed hfragment)
      · exact h
  · exact h.remove key

/-- While every fragment has an id, no more than `MAX_FRAG_SETS` sets are held. -/
theorem length_fragBuf_le (h : ∀ e ∈ es, HasId e) :
    ((receiver C).after es).fragBuf.length ≤ maxFragSets := by
  have hinv : Bounded ((receiver C).after es).fragBuf := by
    induction es using List.reverseRecOn with
    | nil => exact ⟨Nat.zero_le _, fun e he => absurd he List.not_mem_nil⟩
    | append_singleton es e ih =>
      rw [System.after_snoc]
      have hes := ih fun e he => h e (List.mem_append_left _ he)
      exact hes.receive (h e List.mem_concat_self)
  exact hinv.length_le

end AnyRun

/-! ### Sets that are sent -/

section Sent

variable {as : List (Arrival ν)} {a : Arrival ν}

/-- The frame of a fragment of the set. -/
def FragmentSet.frame (ν : Type) [Numeral ν] (set : FragmentSet) (id : Units) (i : ℕ) :
    List UInt8 :=
  lengthPrefixed
    (Utf8.encode (print javascript (.object (fragHeader ν id i set.count set.type))))
    (set.payload i)

/-- The arrival is a fragment of a set, as a sender makes it. -/
def Arrival.IsSent (sets : Units → Option FragmentSet) (a : Arrival ν) : Prop :=
  ∃ id set i, a = .part id i (set.frame ν id i) ∧ sets id = some set ∧ i < set.count ∧
    id.length ≤ 16 ∧ set.type.length ≤ 1 ∧ (set.payload i).length ≤ fragPayloadMax

omit [Numeral ν] in
theorem length_openSet_le (fragBuf : List (Key ν × Entry ν)) (key : Key ν) (n : Operand ν)
    (t : Option (Value ν)) : (openSet fragBuf key n t).length ≤ fragBuf.length + 1 := by
  have hroom : (makeRoom fragBuf).length ≤ fragBuf.length := by
    rw [makeRoom.eq_def]
    split
    · rcases fragBuf with _ | ⟨oldest, rest⟩
      · exact Nat.le_refl 0
      · dsimp only
        split
        · exact Nat.le_refl _
        · exact Nat.le_succ rest.length
    · exact Nat.le_refl _
  rw [openSet]
  split
  · exact Nat.le_succ _
  · rw [List.length_append, List.length_singleton]
    omega

theorem length_receive_le (e : Event ν) :
    (receive C s e).1.fragBuf.length ≤ s.fragBuf.length + 1 := by
  rcases e with (raw | frame) | key
  · rw [receive, onMessage]
    split
    · exact Nat.le_succ _
    · exact Nat.le_succ _
  · rw [receive, onMessage]
    split
    · exact Nat.le_succ _
    next parsed hparsed =>
      have hopen := length_openSet_le s.fragBuf (s.next.operand parsed "id").key
        (s.next.operand parsed "n") (parsed.value.property "t")
      split
      · rw [handleFragment]
        split
        · exact Nat.le_succ _
        · rw [acceptFragment]
          split
          · rw [fileFragment]
            split
            · exact hopen
            · dsimp only
              split
              · rw [length_assign]
                exact hopen
              · exact (length_remove_le _ _).trans hopen
          · exact hopen
      · exact Nat.le_succ _
  · exact (length_remove_le s.fragBuf key).trans (Nat.le_succ _)

theorem after_other_cons (e : Event ν) (as : List (Arrival ν)) :
    (arrivals C).after (.other e :: as) = ((arrivals C).runFrom (receive C {} e).1 as).1 := rfl

theorem length_fragBuf_le_length (as : List (Arrival ν)) :
    ((arrivals C).after as).fragBuf.length ≤ as.length := by
  induction as using List.reverseRecOn with
  | nil => exact Nat.le_refl 0
  | append_singleton as a ih =>
    rw [System.after_snoc, List.length_append, List.length_singleton]
    have hstep := @length_receive_le ν _ _ C ((arrivals C).after as) a.event
    exact hstep.trans (Nat.add_le_add_right ih 1)

/-- A run in which nothing arrives but fragments of sets, and not too many, is orderly. -/
theorem along_orderly_of_isSent (h : ∀ a ∈ as, a.IsSent sets) (hlength : as.length ≤ maxFragSets) :
    (arrivals C).Along (fun _ s a => Orderly C sets s a) as := by
  induction as using List.reverseRecOn with
  | nil => exact (arrivals C).along_nil _
  | append_singleton as a ih =>
    rw [List.length_append, List.length_singleton] at hlength
    rw [System.along_snoc]
    refine ⟨ih (fun a ha => h a (List.mem_append_left _ ha)) (by omega), ?_, ?_⟩
    · have hle := @length_fragBuf_le_length ν _ _ C as
      omega
    · obtain ⟨id, set, i, rfl, hset, hi, hid, htype, hpayload⟩ := h a List.mem_concat_self
      obtain ⟨parsed, hparsed, hpart⟩ := @unframe_part ν _ id set.type i set.count _
        (set.payload i) hid htype hi set.count_le hpayload
      exact ⟨set, parsed, hset, hi, hparsed, hpart⟩

/-- If nothing arrives but fragments of sets, what is delivered are the sets that are joined. -/
theorem log_of_isSent (h : ∀ a ∈ as, a.IsSent sets) (hlength : as.length ≤ maxFragSets) :
    (arrivals C).log as = ((gathering ν sets).log as).flatMap (handedOver ν sets) := by
  have hhands := along_handsOver (along_orderly_of_isSent (C := C) h hlength)
  clear hlength
  induction as using List.reverseRecOn with
  | nil => rfl
  | append_singleton as a ih =>
    rw [System.along_snoc] at hhands
    obtain ⟨id, set, i, rfl, -⟩ := h a List.mem_concat_self
    have hstep := hhands.2
    rw [HandsOver] at hstep
    rw [System.log_snoc, System.log_snoc, List.flatMap_append, ← hstep,
      ih (fun a ha => h a (List.mem_append_left _ ha)) hhands.1]
    rfl

/-! ### What goes wrong -/

/-- A set that is complete is forgotten: a second copy of its only fragment is a set again. -/
theorem log_twice (hset : sets id = some set) (hcount : set.count = 1)
    (hsent : (Arrival.part id 0 (set.frame ν id 0) : Arrival ν).IsSent sets) :
    (arrivals C).log [.part id 0 (set.frame ν id 0), .part id 0 (set.frame ν id 0)] =
      deliver (some (.string set.type)) set.content ++
        deliver (some (.string set.type)) set.content := by
  have hall : ∀ a ∈ [(Arrival.part id 0 (set.frame ν id 0) : Arrival ν),
      .part id 0 (set.frame ν id 0)], a.IsSent sets := by
    intro a ha
    simp only [List.mem_cons, List.not_mem_nil, or_false, or_self] at ha
    rw [ha]
    exact hsent
  have hjoined : set.JoinedBy [] 0 ∧ set.add [] 0 = [] := by
    rw [FragmentSet.JoinedBy, FragmentSet.add, hcount]
    decide
  have hgathered : (gathering ν sets).log
      [.part id 0 (set.frame ν id 0), .part id 0 (set.frame ν id 0)] = [id, id] := by
    have hinit : (gathering ν sets).init id = [] := rfl
    rw [System.log, System.runFrom, System.runFrom, step_part hset, step_part hset]
    simp only [Function.update_self, hinit, hjoined.2, if_pos hjoined.1, System.runFrom_nil]
    rfl
  rw [log_of_isSent hall (Nat.le_add_left 2 14), hgathered, List.flatMap_cons,
    List.flatMap_singleton, handedOver, hset]

/-- While a set is open, a fragment of its id with another count is turned away. -/
theorem Tracks.rejects {parsed : Data ν} {type : Units} {n : ℕ} {payload : List UInt8}
    (h : Tracks set id s got) (hgot : got ≠ []) (hpart : parsed.IsPart id i n type payload)
    (hn : n ≤ 10000) (hne : n ≠ set.count) : s.next.Rejects parsed := by
  obtain ⟨-, ⟨hnil, -⟩ | ⟨-, entry, hentry, hcollects⟩⟩ := h
  · exact absurd hnil hgot
  have hid : (s.next.operand parsed "id").key = .string id := by
    rw [Operand.key, Receiver.operand, hpart.id]
  have htotal : entry.total.key = .number (Numeral.ofNat set.count) := by
    rw [Operand.key, hcollects.total]
    rfl
  have hcount : (s.next.operand parsed "n").key = .number (Numeral.ofNat n) := by
    rw [Operand.key, Receiver.operand, hpart.n]
    rfl
  refine ⟨entry, ?_, .inl ?_⟩
  · rw [hid]
    exact hentry
  · rw [htotal, hcount]
    intro heq
    have hle := set.count_le
    have hcounts := (Numeral.ofNat_inj (by omega) (by omega)).mp (Key.number.inj heq)
    exact hne hcounts.symm

/-- While a set is open, nothing is delivered of a set with its id and another count. -/
theorem runFrom_of_mismatch {set' : FragmentSet} (h : Tracks set' id s got) (hgot : got ≠ [])
    (hne : set.count ≠ set'.count) (hid : id.length ≤ 16) (htype : set.type.length ≤ 1)
    (hall : ∀ a ∈ as, ∃ i < set.count, a = .part id i (set.frame ν id i) ∧
      (set.payload i).length ≤ fragPayloadMax) :
    ((arrivals C).runFrom s as).2 = [] := by
  induction as generalizing s with
  | nil => rfl
  | cons a as ih =>
    obtain ⟨i, hi, rfl, hpayload⟩ := hall a List.mem_cons_self
    obtain ⟨parsed, hparsed, hpart⟩ := @unframe_part ν _ id set.type i set.count _
      (set.payload i) hid htype hi set.count_le hpayload
    have hrejects := h.rejects hgot hpart set.count_le hne
    have hreceive : receive C s (.received (.binary (set.frame ν id i))) = (s.next, []) := by
      rw [receive, onMessage, FragmentSet.frame, hparsed, ← handleFragment_of_rejects hrejects]
      exact if_pos hpart.isFragment
    have hstep : (arrivals C).step s (.part id i (set.frame ν id i)) = (s.next, []) := hreceive
    have hnext : Tracks set' id s.next got := h
    rw [System.runFrom, hstep, ih hnext fun a ha => hall a (List.mem_cons_of_mem _ ha)]
    rfl

/-- A header with another count opens the set, and then nothing of the set gets through. -/
theorem log_of_mismatch {set' : FragmentSet} (hset : sets id = some set') (hmore : 1 < set'.count)
    (hsent : (Arrival.part id 0 (set'.frame ν id 0) : Arrival ν).IsSent sets)
    (hne : set.count ≠ set'.count) (hid : id.length ≤ 16) (htype : set.type.length ≤ 1)
    (hall : ∀ a ∈ as, ∃ i < set.count, a = .part id i (set.frame ν id i) ∧
      (set.payload i).length ≤ fragPayloadMax) :
    (arrivals C).log (.part id 0 (set'.frame ν id 0) :: as) = [] := by
  have horderly := @along_orderly_of_isSent ν _ _ C sets [.part id 0 (set'.frame ν id 0)]
    (fun a ha => by rw [List.mem_singleton.mp ha]; exact hsent) (Nat.le_add_left 1 15)
  have htracks : Tracks set' id (arrivals C).init [] := ⟨set'.gathered_nil, .inl ⟨rfl, rfl⟩⟩
  obtain ⟨hopen, houtput, -⟩ := receive_part htracks horderly.1 hset
  have hadd : set'.add [] 0 = [0] := by
    rw [FragmentSet.add, if_neg List.not_mem_nil]
    exact if_pos hmore
  have hnotJoined : ¬set'.JoinedBy [] 0 := fun hjoined => absurd hjoined.2 (Nat.not_le.mpr hmore)
  rw [hadd] at hopen
  rw [if_neg hnotJoined, List.flatMap_nil] at houtput
  have hrest : ((arrivals C).runFrom
      (receive C (arrivals C).init (.received (.binary (set'.frame ν id 0)))).1 as).2 = [] :=
    runFrom_of_mismatch hopen (List.cons_ne_nil 0 []) hne hid htype hall
  have hlog : (arrivals C).log (.part id 0 (set'.frame ν id 0) :: as) =
      (receive C (arrivals C).init (.received (.binary (set'.frame ν id 0)))).2 ++
        ((arrivals C).runFrom
          (receive C (arrivals C).init (.received (.binary (set'.frame ν id 0)))).1 as).2 := rfl
  rw [hlog, houtput, hrest, List.append_nil]

/-- Where the oldest set has no id, a set is opened without room being made for it. -/
theorem map_fst_receive {frame : List UInt8} {parsed : Data ν} {type : Units} {n : ℕ}
    {payload : List UInt8} {keys : List (Key ν)}
    (hkeys : s.fragBuf.map Prod.fst = .undefined :: keys) (hnew : .string id ∉ keys)
    (hparsed : unframe frame = .ok parsed) (hpart : parsed.IsPart id i n type payload)
    (hi : i < n) (hmore : 1 < n) (hn : n ≤ 10000) :
    (receive C s (.received (.binary frame))).1.fragBuf.map Prod.fst =
      .undefined :: (keys ++ [.string id]) := by
  have hreceive : receive C s (.received (.binary frame)) =
      acceptFragment C s.next (.string id) { value := natValue ν i, identity := s.next.decoded }
        { value := natValue ν n, identity := s.next.decoded } (some (.string type))
        (.bytes payload) := by
    rw [← handleFragment_of_isPart hpart hi hn s.next, receive, onMessage, hparsed]
    exact if_pos hpart.isFragment
  -- an oldest key that is undefined is taken for no key at all
  have hroom : makeRoom s.fragBuf = s.fragBuf := by
    obtain ⟨oldest, rest, hcons, hundefined, -⟩ := List.map_eq_cons_iff.mp hkeys
    rw [hcons, makeRoom.eq_def]
    split
    · dsimp only
      rw [if_pos hundefined]
    · rfl
  have hlookup : s.fragBuf.lookup (.string id) = none := by
    refine find_eq_none_iff.mpr ?_
    rw [hkeys, List.mem_cons]
    rintro (heq | hmem)
    · exact absurd heq (by simp)
    · exact hnew hmem
  have hopen : openSet s.next.fragBuf (.string id)
      { value := natValue ν n, identity := s.next.decoded } (some (.string type)) =
      s.fragBuf ++ [(.string id, .mk { value := natValue ν n, identity := s.next.decoded }
        (some (.string type)) [])] := by
    refine Eq.trans (b := openSet s.fragBuf (.string id) _ _) rfl ?_
    rw [openSet, hlookup]
    rw [hroom]
  have hcollects : (Entry.mk { value := natValue ν n, identity := s.next.decoded }
      (some (.string type)) [] : Entry ν).Collects n type (fun _ => payload) [] :=
    ⟨rfl, rfl, rfl⟩
  obtain ⟨entry', -, hfile⟩ := @fileFragment_of_notMem ν _ C id _ i _ _ _ _
    { s.next with fragBuf := s.fragBuf ++ [(.string id, .mk
      { value := natValue ν n, identity := s.next.decoded } (some (.string type)) [])] } _
    hcollects List.nodup_nil (fun _ h => absurd h List.not_mem_nil) hn hi List.not_mem_nil
    s.next.decoded s.next.decoded
  rw [hreceive, acceptFragment, hopen]
  rw [lookup_concat_self hlookup]
  dsimp only
  rw [hfile, List.length_nil, Nat.zero_add, if_pos hmore]
  rw [map_fst_assign, List.map_append, hkeys]
  rfl

theorem map_fst_runFrom {keys : List (Key ν)} {ids : List Units} (hmore : 1 < set.count)
    (htype : set.type.length ≤ 1) (hpayload : (set.payload 0).length ≤ fragPayloadMax)
    (hkeys : s.fragBuf.map Prod.fst = .undefined :: keys) (hids : ids.Nodup)
    (hlength : ∀ id ∈ ids, id.length ≤ 16) (hnew : ∀ id ∈ ids, .string id ∉ keys) :
    ((arrivals C).runFrom s (ids.map fun id => .part id 0 (set.frame ν id 0))).1.fragBuf.map
      Prod.fst = .undefined :: (keys ++ ids.map Key.string) := by
  induction ids generalizing s keys with
  | nil =>
    rw [List.map_nil, List.map_nil, List.append_nil]
    exact hkeys
  | cons id ids ih =>
    obtain ⟨hid, hrest⟩ := List.nodup_cons.mp hids
    obtain ⟨parsed, hparsed, hpart⟩ := @unframe_part ν _ id set.type 0 set.count _
      (set.payload 0) (hlength id List.mem_cons_self) htype set.count_pos set.count_le hpayload
    have hstep := map_fst_receive (C := C) hkeys (hnew id List.mem_cons_self) hparsed hpart
      set.count_pos hmore set.count_le
    have hfresh : ∀ id' ∈ ids, .string id' ∉ keys ++ [.string id] := by
      intro id' hid' hmem
      rcases List.mem_append.mp hmem with hold | hlast
      · exact hnew id' (List.mem_cons_of_mem id hid') hold
      · obtain rfl := Key.string.inj (List.mem_singleton.mp hlast)
        exact hid hid'
    have hrun := ih hstep hrest (fun id' h => hlength id' (List.mem_cons_of_mem id h)) hfresh
    rw [List.append_assoc] at hrun
    exact hrun

end Sent

end Receiver

/-! ### Examples -/

/-- A text in fragments of a character each. -/
def FragmentSet.characters (text : List Char) (hpos : 0 < text.length)
    (hle : text.length ≤ 10000) : FragmentSet where
  type := "s"
  count := text.length
  payload i := Utf8.encode ((text.drop i).take 1)
  count_pos := hpos
  count_le := hle

/-- The header of a fragment without an id. -/
def anonymousFields : Fields ℤ := (fragHeader ℤ [] 0 2 "s").eraseIdx 1

/-- What is decoded from it. -/
def anonymousData : Data ℤ where
  value := .object (anonymousFields.take 4)
  binary := some (.bytes, [])

/-- A fragment without an id. -/
def anonymous : List UInt8 :=
  lengthPrefixed (Utf8.encode (print javascript (.object anonymousFields))) []

theorem map_fst_receive_anonymous :
    (receive integerCoercions {} (.received (.binary anonymous))).1.fragBuf.map Prod.fst =
      [.undefined] := by
  have hfinite : (Value.object anonymousFields).IsFinite := by
    rw [Value.IsFinite, fieldsFinite_iff]
    intro f hf
    simp only [anonymousFields, fragHeader, List.eraseIdx, List.mem_cons, List.not_mem_nil,
      or_false] at hf
    rcases hf with rfl | rfl | rfl | rfl | rfl
    all_goals exact trivial
  have hheader : (Utf8.encode (print javascript (.object anonymousFields))).length ≤ 100 := by
    decide
  have hlimits : 100 ≤ maxHeaderSize ∧ 104 ≤ maxFrameSize := by decide
  have hunframe := @unframe_lengthPrefixed ℤ _ _ hfinite [] (hheader.trans hlimits.1) (by
    rw [List.length_nil]
    omega)
  have hattach : attach (.object anonymousFields) [] = .ok anonymousData := rfl
  have hreceive : receive integerCoercions {} (.received (.binary anonymous)) =
      handleFragment integerCoercions anonymousData { decoded := 1 } := by
    rw [receive, onMessage, anonymous, hunframe, hattach]
    exact if_pos rfl
  rw [hreceive]
  rfl

section Delivered

variable [Numeral ν] [DecidableEq ν]

/-- **Sets of fragments are delivered once.** While fewer than `MAX_FRAG_SETS` sets are open, the
receiver delivers a set, with its payloads in the order of their indices, at the arrival that
completes it; once, if none of its fragments comes again after that. No set is delivered of which
a part has not come, and while every fragment has an id, no more than `MAX_FRAG_SETS` sets are
held. -/
theorem sets_delivered_once (C : Coercions ν) (sets : Units → Option FragmentSet)
    (as : List (Arrival ν)) (h : (arrivals C).Along (fun _ s a => Orderly C sets s a) as) :
    (arrivals C).Along (HandsOver C sets) as ∧
    (∀ id set, sets id = some set → (∀ i < set.count, ∃ frame, .part id i frame ∈ as) →
      (arrivals C).Along (fun past _ a => NotAgain sets id past a) as →
      ((gathering ν sets).log as).count id = 1) ∧
    (∀ es, (receiver C).Along (DeliversComplete C) es) ∧
    (∀ es, (∀ e ∈ es, HasId e) → ((receiver C).after es).fragBuf.length ≤ maxFragSets) := by
  refine ⟨along_handsOver h, fun id set hset harrived honce => ?_, fun es => ?_, fun es hids => ?_⟩
  · exact count_log_eq_one h hset harrived honce
  · exact along_deliversComplete es
  · exact length_fragBuf_le hids

end Delivered

/-- A number of three digits. -/
def threeDigits : FragmentSet :=
  .characters ['1', '2', '3'] (Nat.succ_pos 2) (Nat.le_add_left 3 9997)

/-- A number of two digits. -/
def twoDigits : FragmentSet :=
  .characters ['4', '5'] (Nat.succ_pos 1) (Nat.le_add_left 2 9998)

/-- A number of one digit. -/
def oneDigit : FragmentSet := .characters ['6'] (Nat.succ_pos 0) (Nat.le_add_left 1 9999)

/-- Two sets with the ids `a` and `b`. -/
def twoSets (id : Units) : Option FragmentSet :=
  if id = ofString "a" then some threeDigits
  else if id = ofString "b" then some twoDigits
  else none

theorem length_payload_characters_le {text : List Char} (hpos : 0 < text.length)
    (hle : text.length ≤ 10000) (i : ℕ) :
    ((FragmentSet.characters text hpos hle).payload i).length ≤ fragPayloadMax := by
  have hbytes := Utf8.length_encode_le ((text.drop i).take 1)
  have hone : ((text.drop i).take 1).length ≤ 1 := List.length_take_le _ _
  have hlimit : fragPayloadMax = 262012 := rfl
  have hpayload : ((FragmentSet.characters text hpos hle).payload i).length =
    (Utf8.encode ((text.drop i).take 1)).length := rfl
  omega

theorem isSent_characters {sets : Units → Option FragmentSet} {set : FragmentSet} {id : Units}
    {text : List Char} {i : ℕ} (hset : sets id = some set) (hid : id.length ≤ 16)
    (hpos : 0 < text.length) (hle : text.length ≤ 10000)
    (htext : set = .characters text hpos hle) (hi : i < text.length) :
    (Arrival.part id i (set.frame ℤ id i) : Arrival ℤ).IsSent sets := by
  subst htext
  exact ⟨id, _, i, rfl, hset, hi, hid, Nat.le_refl 1, length_payload_characters_le hpos hle i⟩

/-- The fragments of the sets in some order, one of them twice. -/
def interleaved : List (Arrival ℤ) :=
  let a := fun i => .part (ofString "a") i (threeDigits.frame ℤ (ofString "a") i)
  let b := fun i => .part (ofString "b") i (twoDigits.frame ℤ (ofString "b") i)
  [a 2, b 1, a 2, a 0, b 0, a 1]

theorem isSent_interleaved : ∀ x ∈ interleaved, x.IsSent twoSets := by
  have ha (i : ℕ) (hi : i < 3) :
      (Arrival.part (ofString "a") i (threeDigits.frame ℤ (ofString "a") i)).IsSent twoSets :=
    isSent_characters rfl (by decide) _ _ rfl hi
  have hb (i : ℕ) (hi : i < 2) :
      (Arrival.part (ofString "b") i (twoDigits.frame ℤ (ofString "b") i)).IsSent twoSets :=
    isSent_characters rfl (by decide) _ _ rfl hi
  intro x hx
  simp only [interleaved, List.mem_cons, List.not_mem_nil, or_false] at hx
  rcases hx with rfl | rfl | rfl | rfl | rfl | rfl
  · exact ha 2 (by decide)
  · exact hb 1 (by decide)
  · exact ha 2 (by decide)
  · exact ha 0 (by decide)
  · exact hb 0 (by decide)
  · exact ha 1 (by decide)

theorem sets_delivered_once_interleaved :
    ((gathering ℤ twoSets).log interleaved).count (ofString "a") = 1 ∧
    ((gathering ℤ twoSets).log interleaved).count (ofString "b") = 1 := by
  have hsets := sets_delivered_once integerCoercions twoSets interleaved
    (along_orderly_of_isSent isSent_interleaved (by decide))
  refine ⟨hsets.2.1 (ofString "a") threeDigits rfl ?_ ?_,
    hsets.2.1 (ofString "b") twoDigits rfl ?_ ?_⟩
  · intro i hi
    have hcases : i = 0 ∨ i = 1 ∨ i = 2 := by
      have hcount : threeDigits.count = 3 := rfl
      omega
    rcases hcases with rfl | rfl | rfl
    · exact ⟨threeDigits.frame ℤ (ofString "a") 0, List.mem_of_getElem? (i := 3) rfl⟩
    · exact ⟨threeDigits.frame ℤ (ofString "a") 1, List.mem_of_getElem? (i := 5) rfl⟩
    · exact ⟨threeDigits.frame ℤ (ofString "a") 2, List.mem_of_getElem? (i := 0) rfl⟩
  · have hnew (past : List (Arrival ℤ)) (a : Arrival ℤ)
        (h : ofString "a" ∉ (gathering ℤ twoSets).log past) :
        NotAgain twoSets (ofString "a") past a := fun hmem => absurd hmem h
    refine ⟨?_, ?_, ?_, ?_, ?_, ?_, trivial⟩
    all_goals exact hnew _ _ (by decide)
  · intro i hi
    have hcases : i = 0 ∨ i = 1 := by
      have hcount : twoDigits.count = 2 := rfl
      omega
    rcases hcases with rfl | rfl
    · exact ⟨twoDigits.frame ℤ (ofString "b") 0, List.mem_of_getElem? (i := 4) rfl⟩
    · exact ⟨twoDigits.frame ℤ (ofString "b") 1, List.mem_of_getElem? (i := 1) rfl⟩
  · have hnew (past : List (Arrival ℤ)) (a : Arrival ℤ)
        (h : ofString "b" ∉ (gathering ℤ twoSets).log past) :
        NotAgain twoSets (ofString "b") past a := fun hmem => absurd hmem h
    refine ⟨hnew _ _ ?_, hnew _ _ ?_, hnew _ _ ?_, hnew _ _ ?_, hnew _ _ ?_, ?_, trivial⟩
    · decide
    · decide
    · decide
    · decide
    · decide
    · intro _ i frame heq
      injection heq with hid
      exact absurd hid (by decide)

/-- Different ids of one code unit each. -/
def manyIds : List Units := (List.range maxFragSets).map fun k => [UInt16.ofNat k]

/-- A set whose fragments come again is delivered again; one whose id has been taken by a header
with another count is not delivered; and there is one set too many where the first has no id. -/
theorem sets_not_delivered_once :
    (arrivals integerCoercions).log
      [.part (ofString "a") 0 (oneDigit.frame ℤ (ofString "a") 0),
        .part (ofString "a") 0 (oneDigit.frame ℤ (ofString "a") 0)] =
      [.data { value := .number 6 }, .data { value := .number 6 }] ∧
    (arrivals integerCoercions).log
      [.part (ofString "a") 0 (threeDigits.frame ℤ (ofString "a") 0),
        .part (ofString "a") 0 (twoDigits.frame ℤ (ofString "a") 0),
        .part (ofString "a") 1 (twoDigits.frame ℤ (ofString "a") 1)] = [] ∧
    ((arrivals integerCoercions).after
      (.other (.received (.binary anonymous)) ::
        manyIds.map fun id => .part id 0 (twoDigits.frame ℤ id 0))).fragBuf.length =
      maxFragSets + 1 := by
  have hone : (fun _ => some oneDigit : Units → Option FragmentSet) (ofString "a") =
      some oneDigit := rfl
  have hthree : (fun _ => some threeDigits : Units → Option FragmentSet) (ofString "a") =
      some threeDigits := rfl
  refine ⟨?_, ?_, ?_⟩
  · have hsent : (Arrival.part (ofString "a") 0 (oneDigit.frame ℤ (ofString "a") 0)).IsSent
        fun _ => some oneDigit := isSent_characters rfl (by decide) _ _ rfl (Nat.succ_pos 0)
    have hdeliver : (deliver (some (.string oneDigit.type)) oneDigit.content : List (Output ℤ)) =
        [.data { value := .number 6 }] := rfl
    rw [@log_twice ℤ _ _ integerCoercions _ _ _ hone rfl hsent, hdeliver]
    rfl
  · have hsent : (Arrival.part (ofString "a") 0 (threeDigits.frame ℤ (ofString "a") 0)).IsSent
        fun _ => some threeDigits := isSent_characters rfl (by decide) _ _ rfl (Nat.succ_pos 2)
    have hcounts : twoDigits.count ≠ threeDigits.count := by decide
    have hshort (i : ℕ) : (twoDigits.payload i).length ≤ fragPayloadMax :=
      length_payload_characters_le _ _ i
    refine @log_of_mismatch ℤ _ _ integerCoercions _ _ twoDigits _ threeDigits hthree (by decide)
      hsent hcounts (by decide) (Nat.le_refl 1) fun a ha => ?_
    simp only [List.mem_cons, List.not_mem_nil, or_false] at ha
    rcases ha with rfl | rfl
    · exact ⟨0, Nat.succ_pos 1, rfl, hshort 0⟩
    · exact ⟨1, Nat.lt_succ_self 1, rfl, hshort 1⟩
  · have hnodup : manyIds.Nodup := by decide
    have hlength : ∀ id ∈ manyIds, id.length ≤ 16 := by decide
    have hshort : (twoDigits.payload 0).length ≤ fragPayloadMax :=
      length_payload_characters_le _ _ 0
    have hkeys := @map_fst_runFrom ℤ _ _ integerCoercions _ twoDigits [] manyIds (by decide)
      (Nat.le_refl 1) hshort map_fst_receive_anonymous hnodup hlength
      (fun _ _ => List.not_mem_nil)
    rw [after_other_cons, ← List.length_map Prod.fst, hkeys, List.length_cons, List.nil_append,
      List.length_map, manyIds, List.length_map, List.length_range]

end Rapidly.P2p
