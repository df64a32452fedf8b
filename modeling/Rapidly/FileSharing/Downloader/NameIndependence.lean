import Mathlib.Algebra.Order.BigOperators.Group.List
import Rapidly.FileSharing.Downloader.NamedRecords

/-!
# Names that make no difference

Whether a download starts its files at zero and takes their chunks, whatever the files are called.
It does not for a file with the name of an inherited property, as `constructor` or `__proto__`:
what `expectedOffset` has under it before anything came in is a function or an object, which no
offset is equal to.

* `opensFresh_iff`: the files start at zero exactly if no name is inherited.
* `acceptsInOrder`: then all chunks are accepted that come in order.
* `nameIndependent_iff` is the exact condition on a list of files and a renaming.
-/

namespace Rapidly.FileSharing.Downloader

open KeyValue (PlainObject Reading builtinNames)
open Transition (System)

/-- Nothing was received of any file, and the hash states are empty. -/
def OpensFresh (files : List FileInfo) : Prop :=
  ∀ info ∈ files, (Reception.start files).nextOffset info.fileName = some 0 ∧
    orZero ((Reception.start files).totalBytesReceived.get info.fileName) = some 0 ∧
    (Reception.start files).integrityHashers.get info.fileName =
      if (givenHash info).isSome then .value {} else .undefined

/-- A chunk of a file without its place in the file. -/
structure Part where
  fileIndex : Option ℚ := none
  bytes : Bytes
  plaintext : Bytes

/-- A chunk of a file in its place. -/
def nextArrival (info : FileInfo) (offset : ℕ) (part : Part) (final : Bool) : Arrival where
  chunk := {
    fileName := info.fileName
    fileIndex := part.fileIndex
    offset := offset
    bytes := part.bytes
    final := final }
  decryption := .plaintext part.plaintext

/-- The chunks of a file in order, from an offset on. -/
def sequence (info : FileInfo) : ℕ → List Part → List Arrival
  | _, [] => []
  | offset, part :: parts =>
    nextArrival info offset part parts.isEmpty ::
      sequence info (offset + part.plaintext.length) parts

/-- The parts are of allowed lengths, and have the hash of the file. -/
structure Suitable (W : WebCrypto) (info : FileInfo) (parts : List Part) : Prop where
  nonempty : parts ≠ []
  short : ∀ part ∈ parts, part.bytes.length ≤ maxIncomingChunkSize
  total : ((parts.map fun part => (part.bytes.length : ℚ)).sum) ≤ Download.maxReceived info.size
  hash : ∀ expected ∈ givenHash info, W.sha256 (parts.flatMap Part.plaintext) = expected

/-- The files are received one after the other: each chunk is accepted. -/
def AcceptsInOrder (W : WebCrypto) (files : List FileInfo) : Prop :=
  ∀ parts : List (List Part), List.Forall₂ (Suitable W) files parts →
    ∀ verdict ∈ (reception W files).log
      ((files.zip parts).flatMap fun e => sequence e.1 0 e.2), verdict = .accepted

/-! ### The start -/

section Start

variable {files : List FileInfo}

theorem not_proto_of_free {names : List String} (h : ∀ name ∈ names, name ∉ builtinNames) :
    "__proto__" ∉ names := fun hmem => h _ hmem (by decide)

theorem sublist_filterMap {α β γ : Type} {f : α → Option β} {g : α → γ} {k : β → γ}
    (h : ∀ a b, f a = some b → k b = g a) (l : List α) :
    ((l.filterMap f).map k).Sublist (l.map g) := by
  induction l with
  | nil => exact List.Sublist.refl _
  | cons a l ih =>
    cases hf : f a with
    | none =>
      rw [List.filterMap_cons_none hf, List.map_cons]
      exact ih.cons _
    | some b =>
      rw [List.filterMap_cons_some hf, List.map_cons, List.map_cons, h a b hf]
      exact ih.cons_cons _

theorem own_given {V : Type} [KeyValue.Inheritable V] (f : String → V)
    (hnodup : (files.map FileInfo.fileName).Nodup)
    (hfree : ∀ info ∈ files, info.fileName ∉ builtinNames) :
    (PlainObject.ofEntries (files.filterMap fun info =>
      (givenHash info).map fun h => (info.fileName, f h))).prototype = none ∧
    ∀ info ∈ files, (PlainObject.ofEntries (files.filterMap fun info =>
      (givenHash info).map fun h => (info.fileName, f h))).own info.fileName =
        (givenHash info).map f := by
  have hname (info : FileInfo) (e : String × V)
      (he : ((givenHash info).map fun h => (info.fileName, f h)) = some e) :
      e.1 = info.fileName := by
    obtain ⟨h, -, rfl⟩ := Option.map_eq_some_iff.mp he
    rfl
  have hsub := sublist_filterMap hname files
  have hproto : "__proto__" ∉ (files.filterMap fun info =>
      (givenHash info).map fun h => (info.fileName, f h)).map Prod.fst := by
    refine fun hmem => not_proto_of_free (fun name hname => ?_) (hsub.subset hmem)
    obtain ⟨info, hinfo, rfl⟩ := List.mem_map.mp hname
    exact hfree info hinfo
  obtain ⟨hclean, hfound, habsent⟩ := PlainObject.own_ofEntries hproto (hnodup.sublist hsub)
  refine ⟨hclean, fun info hinfo => ?_⟩
  cases hgiven : givenHash info with
  | some h =>
    refine hfound (info.fileName, f h) (List.mem_filterMap.mpr ⟨info, hinfo, ?_⟩)
    rw [hgiven]
    rfl
  | none =>
    refine habsent _ fun hmem => ?_
    obtain ⟨e, he, hsame⟩ := List.mem_map.mp hmem
    obtain ⟨info', hinfo', he'⟩ := List.mem_filterMap.mp he
    obtain rfl := List.inj_on_of_nodup_map hnodup hinfo' hinfo
      ((hname info' e he').symm.trans hsame)
    rw [hgiven] at he'
    exact nomatch he'

theorem own_streams (hnodup : (files.map FileInfo.fileName).Nodup)
    (hfree : ∀ info ∈ files, info.fileName ∉ builtinNames) :
    (Reception.start files).fileStreamByPath.prototype = none ∧
      ∀ i info, files[i]? = some info →
        (Reception.start files).fileStreamByPath.own info.fileName = some ⟨i⟩ := by
  have hnames : (files.zipIdx.map fun e => (e.1.fileName, (⟨e.2⟩ : StreamHandle))).map Prod.fst =
      files.map FileInfo.fileName := by
    rw [List.map_map]
    have hcomp : (Prod.fst ∘ fun (e : FileInfo × ℕ) => (e.1.fileName, (⟨e.2⟩ : StreamHandle))) =
        FileInfo.fileName ∘ Prod.fst := rfl
    rw [hcomp, ← List.map_map, List.zipIdx_map_fst]
  have hproto : "__proto__" ∉
      (files.zipIdx.map fun e => (e.1.fileName, (⟨e.2⟩ : StreamHandle))).map Prod.fst := by
    rw [hnames]
    refine not_proto_of_free fun name hname => ?_
    obtain ⟨info, hinfo, rfl⟩ := List.mem_map.mp hname
    exact hfree info hinfo
  obtain ⟨hclean, hfound, -⟩ := PlainObject.own_ofEntries hproto (hnames ▸ hnodup)
  refine ⟨hclean, fun i info hi => ?_⟩
  refine hfound (info.fileName, ⟨i⟩) (List.mem_map.mpr ⟨(info, i), ?_, rfl⟩)
  exact List.mk_mem_zipIdx_iff_getElem?.mpr hi

theorem opensFresh_iff (hnodup : (files.map FileInfo.fileName).Nodup) :
    OpensFresh files ↔ ∀ info ∈ files, info.fileName ∉ builtinNames := by
  constructor
  · intro hfresh info hinfo hbuiltin
    have hoffset := (hfresh info hinfo).1
    have hread : (Reception.start files).expectedOffset.get info.fileName = .inherited true :=
      PlainObject.get_empty hbuiltin
    rw [Reception.nextOffset, hread] at hoffset
    exact nomatch hoffset
  · intro hfree info hinfo
    have hempty : ({} : PlainObject (Option ℚ)).get info.fileName = .undefined :=
      PlainObject.get_eq_own rfl (hfree info hinfo)
    obtain ⟨hclean, hown⟩ := own_given (fun _ => ({} : Hasher)) hnodup hfree
    refine ⟨congrArg orZero hempty, congrArg orZero hempty, ?_⟩
    have hread := PlainObject.get_eq_own hclean (hfree info hinfo)
    rw [hown info hinfo] at hread
    refine hread.trans ?_
    cases givenHash info with
    | none => rfl
    | some h => rfl

end Start

/-! ### Chunks in order -/

/-- The `i`-th file is being received: these bytes of it have been written, and so many bytes have
come in. Nothing is there of the files behind it. -/
structure Awaits (files : List FileInfo) (r : Reception) (i : ℕ) (content : Bytes) (raw : ℚ) :
    Prop where
  filesInfo : r.filesInfo = files
  remaining : r.remainingFiles = files.drop (i + 1)
  requested : ∀ info : FileInfo, files[i]? = some info → info.fileName ∈ r.requestedFiles
  completed : ∀ (j : ℕ) (info : FileInfo), i ≤ j → files[j]? = some info →
    info.fileName ∉ r.completedFiles
  isOpen : r.isClosed = false
  handle : ∀ (j : ℕ) (info : FileInfo), files[j]? = some info →
    r.fileStreamByPath.own info.fileName = some ⟨j⟩
  streams : ∀ (j : ℕ), i ≤ j → j < files.length →
    r.streams[j]? = some { content := if j = i then content else [] }
  offset : ∀ (j : ℕ) (info : FileInfo), i ≤ j → files[j]? = some info →
    r.nextOffset info.fileName = some (if j = i then (content.length : ℚ) else 0)
  total : ∀ (j : ℕ) (info : FileInfo), i ≤ j → files[j]? = some info →
    orZero (r.totalBytesReceived.get info.fileName) = some (if j = i then raw else 0)
  hasher : ∀ (j : ℕ) (info : FileInfo), i ≤ j → files[j]? = some info →
    r.integrityHashers.own info.fileName =
      (givenHash info).map fun _ => ⟨if j = i then content else []⟩
  hash : ∀ (j : ℕ) (info : FileInfo), files[j]? = some info →
    r.expectedHashes.own info.fileName = givenHash info
  clean : r.fileStreamByPath.prototype = none ∧ r.expectedOffset.prototype = none ∧
    r.totalBytesReceived.prototype = none ∧ r.integrityHashers.prototype = none ∧
    r.expectedHashes.prototype = none

section Order

variable {files : List FileInfo} {r : Reception} {i j : ℕ} {content : Bytes} {raw : ℚ}
  {info info' : FileInfo} {part : Part} {W : WebCrypto} {offset : ℚ} {final : Bool}

theorem index_eq (hnodup : (files.map FileInfo.fileName).Nodup) (hi : files[i]? = some info)
    (hj : files[j]? = some info') (hsame : info'.fileName = info.fileName) : j = i := by
  have hlength : j < (files.map FileInfo.fileName).length := by
    rw [List.length_map]
    exact (List.getElem?_eq_some_iff.mp hj).1
  refine (List.getElem?_inj hlength hnodup).mp ?_
  rw [List.getElem?_map, List.getElem?_map, hi, hj, Option.map_some, Option.map_some, hsame]

theorem awaits_start (hnodup : (files.map FileInfo.fileName).Nodup)
    (hfree : ∀ info ∈ files, info.fileName ∉ builtinNames) :
    Awaits files (.start files) 0 [] 0 := by
  obtain ⟨hstreams, hhandle⟩ := own_streams hnodup hfree
  obtain ⟨hhashers, hhasher⟩ := own_given (fun _ => ({} : Hasher)) hnodup hfree
  obtain ⟨hhashes, hhash⟩ := own_given (fun h => h) hnodup hfree
  have hempty {j : ℕ} {info : FileInfo} (hj : files[j]? = some info) :
      orZero (({} : PlainObject (Option ℚ)).get info.fileName) = some 0 :=
    congrArg orZero (PlainObject.get_eq_own rfl (hfree info (List.mem_of_getElem? hj)))
  constructor
  · rfl
  · exact List.drop_one.symm
  · intro info hinfo
    rw [Reception.start, List.head?_eq_getElem?, hinfo]
    exact List.mem_singleton_self _
  · exact fun _ _ _ _ => List.not_mem_nil
  · rfl
  · exact hhandle
  · intro j _ hj
    rw [Reception.start, List.getElem?_map, List.getElem?_eq_getElem hj, ite_self]
    rfl
  · intro j info _ hj
    rw [List.length_nil, Nat.cast_zero, ite_self]
    exact hempty hj
  · intro j info _ hj
    rw [ite_self]
    exact hempty hj
  · intro j info _ hj
    rw [ite_self]
    exact hhasher info (List.mem_of_getElem? hj)
  · intro j info hj
    refine (hhash info (List.mem_of_getElem? hj)).trans ?_
    exact Option.map_id'
  · exact ⟨hstreams, rfl, rfl, hhashers, hhashes⟩

/-- The state after a chunk of a file. -/
def afterPart (r : Reception) (i : ℕ) (info : FileInfo) (offset raw : ℚ) (part : Part)
    (content : Bytes) : Reception :=
  { r with
    totalBytesReceived :=
      r.totalBytesReceived.set info.fileName (some (raw + part.bytes.length))
    expectedOffset := r.expectedOffset.set info.fileName (some (offset + part.plaintext.length))
    streams := r.streams.modify i fun stream =>
      { stream with content := stream.content ++ part.plaintext }
    integrityHashers :=
      if (givenHash info).isSome then
        r.integrityHashers.set info.fileName ⟨content ++ part.plaintext⟩
      else r.integrityHashers }

variable (hnodup : (files.map FileInfo.fileName).Nodup)
  (hfree : ∀ info ∈ files, info.fileName ∉ builtinNames)

namespace Awaits

theorem received_eq (h : Awaits files r i content raw) (hi : files[i]? = some info) :
    r.received (nextArrival info content.length part final).chunk =
      some (raw + part.bytes.length) := by
  have hraw := h.total i info (Nat.le_refl i) hi
  rw [if_pos rfl] at hraw
  exact congrArg (Option.map (· + (part.bytes.length : ℚ))) hraw

theorem stream_eq (h : Awaits files r i content raw) (hi : files[i]? = some info) :
    r.streams[i]? = some { content := content } := by
  rw [h.streams i (Nat.le_refl i) (List.getElem?_eq_some_iff.mp hi).1, if_pos rfl]

theorem handle_eq (h : Awaits files r i content raw) (hi : files[i]? = some info)
    (hname : info.fileName ∉ builtinNames) :
    r.fileStreamByPath.get info.fileName = .value ⟨i⟩ := by
  rw [PlainObject.get_eq_own h.clean.1 hname, h.handle i info hi]
  rfl

/-- The hasher of the file has what was received of it, if the file has a hash. -/
theorem hasher_eq (h : Awaits files r i content raw) (hi : files[i]? = some info)
    (hname : info.fileName ∉ builtinNames) :
    r.integrityHashers.get info.fileName =
      ((givenHash info).map fun _ => (⟨content⟩ : Hasher)).elim .undefined .value := by
  obtain ⟨-, -, -, hhashers, -⟩ := h.clean
  rw [PlainObject.get_eq_own hhashers hname, h.hasher i info (Nat.le_refl i) hi, if_pos rfl]

include hnodup

theorem refusal_eq_none (h : Awaits files r i content raw) (hi : files[i]? = some info)
    (hshort : part.bytes.length ≤ maxIncomingChunkSize)
    (htotal : raw + part.bytes.length ≤ Download.maxReceived info.size) :
    r.refusal (nextArrival info content.length part final).chunk = none := by
  set chunk := (nextArrival info content.length part final).chunk with hchunk
  have hlong : ¬chunk.bytes.length > maxIncomingChunkSize := Nat.not_lt.mpr hshort
  have hoffset : ¬r.nextOffset chunk.fileName ≠ some chunk.offset := by
    rw [ne_eq, not_not]
    refine (h.offset i info (Nat.le_refl i) hi).trans ?_
    rw [if_pos rfl]
    rfl
  have hreceived : r.received chunk = some (raw + part.bytes.length) := h.received_eq hi
  have hexceeds : ¬(r.filesInfo.find? (·.fileName = chunk.fileName)).any (fun f =>
      (r.received chunk).any (· > Download.maxReceived f.size)) = true := by
    rw [hreceived, h.filesInfo, Option.any_eq_true]
    rintro ⟨f, hf, hmore⟩
    have hfound := List.find?_some hf
    have hname : f.fileName = info.fileName := of_decide_eq_true hfound
    obtain rfl := List.inj_on_of_nodup_map hnodup (List.mem_of_find?_eq_some hf)
      (List.mem_of_getElem? hi) hname
    exact absurd (of_decide_eq_true hmore) (not_lt.mpr htotal)
  rw [Reception.refusal, if_neg hlong, if_neg hoffset, if_neg hexceeds]

theorem complete (h : Awaits files r i content raw) (hi : files[i]? = some info)
    {hashers : PlainObject Hasher} (hclean : hashers.prototype = none)
    (hrest : ∀ name, name ≠ info.fileName → hashers.own name = r.integrityHashers.own name)
    {requested : List String} {remaining : List FileInfo}
    (hrequested : ∀ info : FileInfo, files[i + 1]? = some info → info.fileName ∈ requested)
    (hremaining : remaining = files.drop (i + 1 + 1)) :
    Awaits files { r with
      integrityHashers := hashers
      completedFiles := r.completedFiles ++ [info.fileName]
      streams := r.streams.modify i fun stream => { stream with isClosed := true }
      requestedFiles := requested
      remainingFiles := remaining } (i + 1) [] 0 := by
  obtain ⟨hstreams, hoffsets, htotals, -, hhashes⟩ := h.clean
  have hother {k : ℕ} {info' : FileInfo} (hk : i + 1 ≤ k) (hinfo' : files[k]? = some info') :
      info'.fileName ≠ info.fileName := fun hsame => by
    have hsame := index_eq hnodup hi hinfo' hsame
    omega
  constructor
  · exact h.filesInfo
  · exact hremaining
  · exact hrequested
  · intro k info' hk hinfo' hmem
    rcases List.mem_append.mp hmem with hold | hlast
    · exact h.completed k info' (by omega) hinfo' hold
    · exact hother hk hinfo' (List.mem_singleton.mp hlast)
  · exact h.isOpen
  · exact h.handle
  -- of the files from the next one on nothing was received yet
  · intro k hk hlength
    have hold := h.streams k (by omega) hlength
    have hne : i ≠ k := by omega
    rw [if_neg fun hsame => hne hsame.symm] at hold
    rw [List.getElem?_modify_ne _ _ hne, hold, ite_self]
  · intro k info' hk hinfo'
    have hold := h.offset k info' (by omega) hinfo'
    rw [if_neg (by omega)] at hold
    rw [List.length_nil, Nat.cast_zero, ite_self]
    exact hold
  · intro k info' hk hinfo'
    have hold := h.total k info' (by omega) hinfo'
    rw [if_neg (by omega)] at hold
    rw [ite_self]
    exact hold
  · intro k info' hk hinfo'
    have hold := h.hasher k info' (by omega) hinfo'
    rw [if_neg (by omega)] at hold
    rw [ite_self, ← hold]
    exact hrest _ (hother hk hinfo')
  · exact h.hash
  · exact ⟨hstreams, hoffsets, htotals, hclean, hhashes⟩

theorem startNext (h : Awaits files r i content raw) (hi : files[i]? = some info)
    {hashers : PlainObject Hasher} (hclean : hashers.prototype = none)
    (hrest : ∀ name, name ≠ info.fileName → hashers.own name = r.integrityHashers.own name) :
    Awaits files ({ r with
      integrityHashers := hashers
      completedFiles := r.completedFiles ++ [info.fileName] }.closeStream ⟨i⟩
        |>.startNextFileOrFinish) (i + 1) [] 0 := by
  rw [Reception.startNextFileOrFinish, Reception.closeStream]
  split
  case h_1 hnone =>
    rw [h.remaining] at hnone
    have hlength := List.drop_eq_nil_iff.mp hnone
    refine h.complete hnodup hi hclean hrest (fun info' hinfo' => ?_) ?_
    · have hlt := (List.getElem?_eq_some_iff.mp hinfo').1
      omega
    · rw [h.remaining, hnone, List.drop_of_length_le (by omega)]
  case h_2 next rest hsome =>
    rw [h.remaining] at hsome
    refine h.complete hnodup hi hclean hrest (fun info' hinfo' => ?_) ?_
    · have hhead : (files.drop (i + 1))[0]? = some info' := by
        rw [List.getElem?_drop, Nat.add_zero, hinfo']
      rw [hsome] at hhead
      obtain rfl := Option.some.inj hhead
      exact List.mem_concat_self
    · rw [← List.drop_drop, hsome]
      rfl

include hfree

theorem receive_eq (h : Awaits files r i content raw) (hi : files[i]? = some info)
    (hshort : part.bytes.length ≤ maxIncomingChunkSize)
    (htotal : raw + part.bytes.length ≤ Download.maxReceived info.size) :
    r.receive W (nextArrival info content.length part final) =
      if final then
        (afterPart r i info content.length raw part content).finish W ⟨i⟩ info.fileName
      else (afterPart r i info content.length raw part content, [.accepted]) := by
  have hname := hfree info (List.mem_of_getElem? hi)
  have hopen : ¬(r.isClosed = true ∨
      (nextArrival info content.length part final).isPaused = true) := by
    rw [h.isOpen]
    rintro (hclosed | hpaused)
    · exact Bool.false_ne_true hclosed
    · exact Bool.false_ne_true hpaused
  have hwanted : ¬(info.fileName ∉ r.requestedFiles ∨ info.fileName ∈ r.completedFiles) := by
    rintro (hnot | hdone)
    · exact hnot (h.requested info hi)
    · exact h.completed i info (Nat.le_refl i) hi hdone
  have hrefusal := @refusal_eq_none _ _ _ _ _ _ _ final hnodup h hi hshort htotal
  have hfile : (nextArrival info content.length part final).chunk.fileName = info.fileName := rfl
  have hprocess : r.receive W (nextArrival info content.length part final) =
      r.process W (.value ⟨i⟩) (nextArrival info content.length part final) := by
    rw [Reception.receive, if_neg hopen, hfile, if_neg hwanted, h.handle_eq hi hname]
  have hstillOpen : (r.streams[i]?.any fun stream => !stream.isClosed) = true := by
    rw [h.stream_eq hi]
    rfl
  rw [hprocess, Reception.process, hrefusal]
  dsimp only [nextArrival]
  rw [Reception.deliver]
  rw [if_pos hstillOpen, Reception.write]
  rw [h.hasher_eq hi hname]
  -- what is written is the state after the chunk, with the hasher that the file has or none
  have hafter (hashers : PlainObject Hasher)
      (hhashers : hashers = (afterPart r i info content.length raw part content).integrityHashers) :
      { r with
        totalBytesReceived := r.totalBytesReceived.set info.fileName
          (r.received (nextArrival info content.length part final).chunk)
        expectedOffset :=
          r.expectedOffset.set info.fileName (some (content.length + part.plaintext.length))
        streams := r.streams.modify i fun stream =>
          { stream with content := stream.content ++ part.plaintext }
        integrityHashers := hashers } = afterPart r i info content.length raw part content := by
    rw [hhashers, h.received_eq hi]
    rfl
  cases hgiven : givenHash info with
  | none =>
    have hsame := hafter r.integrityHashers (by rw [afterPart, hgiven]; rfl)
    rw [← hsame]
    rfl
  | some expected =>
    have hsame := hafter (r.integrityHashers.set info.fileName ⟨content ++ part.plaintext⟩)
      (by rw [afterPart, hgiven]; rfl)
    rw [← hsame]
    rfl

omit hfree in
/-- After a chunk of the file its own hasher has the chunk, and those of the others are the same. -/
theorem own_hashers (h : Awaits files r i content raw) (hi : files[i]? = some info)
    (hproto : info.fileName ≠ "__proto__") (hj : i ≤ j) (hinfo' : files[j]? = some info')
    (part : Part) :
    (afterPart r i info content.length raw part content).integrityHashers.own info'.fileName =
      (givenHash info').map fun _ => ⟨if j = i then content ++ part.plaintext else []⟩ := by
  have hold := h.hasher j info' hj hinfo'
  rw [afterPart]
  by_cases hsame : info'.fileName = info.fileName
  · obtain rfl := index_eq hnodup hi hinfo' hsame
    obtain rfl := Option.some.inj (hi.symm.trans hinfo')
    cases hgiven : givenHash info with
    | none =>
      rw [hgiven] at hold
      exact hold
    | some expected =>
      have hset : (some expected).isSome = true := rfl
      rw [if_pos rfl, if_pos hset, PlainObject.own_set hproto, Function.update_self]
      rfl
  · have hne : j ≠ i := by
      rintro rfl
      obtain rfl := Option.some.inj (hi.symm.trans hinfo')
      exact hsame rfl
    rw [if_neg hne] at hold ⊢
    split
    · rw [PlainObject.own_set hproto, Function.update_of_ne hsame, hold]
    · exact hold

theorem orZero_set {object : PlainObject (Option ℚ)} {n m : ℚ}
    (hclean : object.prototype = none) (hi : files[i]? = some info) (hj : files[j]? = some info')
    (hold : orZero (object.get info'.fileName) = some (if j = i then m else 0)) :
    orZero ((object.set info.fileName (some n)).get info'.fileName) =
      some (if j = i then n else 0) := by
  rw [PlainObject.get_set hclean (hfree info (List.mem_of_getElem? hi))
    (hfree info' (List.mem_of_getElem? hj))]
  by_cases hsame : info'.fileName = info.fileName
  · rw [if_pos hsame, if_pos (index_eq hnodup hi hj hsame)]
    rfl
  · have hne : j ≠ i := by
      rintro rfl
      obtain rfl := Option.some.inj (hi.symm.trans hj)
      exact hsame rfl
    rw [if_neg hne] at hold ⊢
    rw [if_neg hsame, hold]

theorem afterPart (h : Awaits files r i content raw) (hi : files[i]? = some info) (part : Part) :
    Awaits files (afterPart r i info content.length raw part content) i (content ++ part.plaintext)
      (raw + part.bytes.length) := by
  have hproto : info.fileName ≠ "__proto__" := by
    intro hsame
    exact hfree info (List.mem_of_getElem? hi) (hsame ▸ by decide)
  obtain ⟨hstreams, hoffsets, htotals, hhashers, hhashes⟩ := h.clean
  constructor
  · exact h.filesInfo
  · exact h.remaining
  · exact h.requested
  · exact h.completed
  · exact h.isOpen
  · exact h.handle
  · intro k hk hlength
    have hold := h.streams k hk hlength
    rw [Downloader.afterPart, List.getElem?_modify, hold]
    by_cases hsame : k = i
    · subst hsame
      simp
    · have hne : i ≠ k := fun heq => hsame heq.symm
      simp [hsame, hne]
  · intro k info' hk hinfo'
    have hnew := orZero_set hnodup hfree hoffsets hi hinfo' (h.offset k info' hk hinfo')
      (n := content.length + part.plaintext.length)
    refine hnew.trans ?_
    rw [List.length_append, Nat.cast_add]
  · exact fun k info' hk hinfo' =>
      orZero_set hnodup hfree htotals hi hinfo' (h.total k info' hk hinfo')
  · exact fun k info' hk hinfo' => h.own_hashers hnodup hi hproto hk hinfo' part
  · exact h.hash
  · refine ⟨hstreams, (PlainObject.prototype_set hproto).trans hoffsets,
      (PlainObject.prototype_set hproto).trans htotals, ?_, hhashes⟩
    rw [Downloader.afterPart]
    split
    · exact (PlainObject.prototype_set hproto).trans hhashers
    · exact hhashers

/-- After the last chunk of a file, with the right hash, the next file is awaited. -/
theorem finish (h : Awaits files r i content raw) (hi : files[i]? = some info)
    (hhash : ∀ expected ∈ givenHash info, W.sha256 content = expected) :
    (r.finish W ⟨i⟩ info.fileName).2 = [.accepted] ∧
      Awaits files (r.finish W ⟨i⟩ info.fileName).1 (i + 1) [] 0 := by
  have hname := hfree info (List.mem_of_getElem? hi)
  obtain ⟨-, -, -, hhashers, hhashes⟩ := h.clean
  have hread : r.expectedHashes.get info.fileName =
      (givenHash info).elim .undefined .value := by
    rw [PlainObject.get_eq_own hhashes hname, h.hash i info hi]
  rw [Reception.finish, Reception.check, hread, h.hasher_eq hi hname]
  cases hgiven : givenHash info with
  | none => exact ⟨rfl, h.startNext hnodup hi hhashers fun _ _ => rfl⟩
  | some expected =>
    have hnonempty : expected ≠ "" := by
      rw [givenHash, Option.filter_eq_some_iff] at hgiven
      exact of_decide_eq_true hgiven.2
    have hright := hhash expected hgiven
    -- the hasher of the file is deleted, those of the others stay
    have hothers : ∀ name, name ≠ info.fileName →
        (r.integrityHashers.delete info.fileName).own name = r.integrityHashers.own name := by
      intro name hne
      rw [PlainObject.own_delete, Function.update_of_ne hne]
    have hclean : (r.integrityHashers.delete info.fileName).prototype = none := hhashers
    have hdeleted := h.startNext hnodup hi hclean hothers
    simp only [Option.elim_some, Option.map_some, hright, decide_true]
    exact ⟨trivial, hdeleted⟩

theorem sequence (h : Awaits files r i content raw) (hi : files[i]? = some info)
    {parts : List Part} (hnonempty : parts ≠ [])
    (hshort : ∀ part ∈ parts, part.bytes.length ≤ maxIncomingChunkSize)
    (htotal : raw + (parts.map fun part => (part.bytes.length : ℚ)).sum ≤
      Download.maxReceived info.size)
    (hhash : ∀ expected ∈ givenHash info,
      W.sha256 (content ++ parts.flatMap Part.plaintext) = expected) :
    (∀ verdict ∈ ((reception W files).runFrom r (sequence info content.length parts)).2,
        verdict = .accepted) ∧
      Awaits files ((reception W files).runFrom r (sequence info content.length parts)).1
        (i + 1) [] 0 := by
  induction parts generalizing r content raw with
  | nil => exact absurd rfl hnonempty
  | cons part parts ih =>
    have hbytes (part : Part) : (0 : ℚ) ≤ part.bytes.length := Nat.cast_nonneg _
    rw [List.map_cons, List.sum_cons, ← add_assoc] at htotal
    have hsum : (0 : ℚ) ≤ (parts.map fun part => (part.bytes.length : ℚ)).sum :=
      List.sum_nonneg fun x hx => by
        obtain ⟨part', -, rfl⟩ := List.mem_map.mp hx
        exact hbytes part'
    have hreceive := @receive_eq _ _ _ _ _ _ _ W parts.isEmpty hnodup hfree h hi
      (hshort part List.mem_cons_self) (by linarith)
    have hnext := h.afterPart hnodup hfree hi part
    have hstep : (reception W files).step r (nextArrival info content.length part parts.isEmpty) =
      r.receive W (nextArrival info content.length part parts.isEmpty) := rfl
    rw [Downloader.sequence, System.runFrom, hstep, hreceive]
    cases parts with
    | nil =>
      rw [List.flatMap_cons, List.flatMap_nil, List.append_nil] at hhash
      obtain ⟨haccepted, hawaits⟩ := hnext.finish hnodup hfree hi hhash
      refine ⟨fun verdict hverdict => ?_, hawaits⟩
      change verdict ∈ (Reception.finish _ W _ _).2 ++ [] at hverdict
      rw [List.append_nil, haccepted] at hverdict
      exact List.mem_singleton.mp hverdict
    | cons part' parts =>
      rw [List.flatMap_cons, ← List.append_assoc] at hhash
      obtain ⟨haccepted, hawaits⟩ := ih hnext (List.cons_ne_nil _ _)
        (fun part hpart => hshort part (List.mem_cons_of_mem _ hpart)) htotal hhash
      rw [List.length_append] at haccepted hawaits
      refine ⟨fun verdict hverdict => ?_, hawaits⟩
      rcases List.mem_cons.mp hverdict with hfirst | hrest
      · exact hfirst
      · exact haccepted verdict hrest

theorem remainingFiles {rest : List FileInfo} {parts : List (List Part)} (h : Awaits files r i [] 0)
    (hrest : files.drop i = rest) (hparts : List.Forall₂ (Suitable W) rest parts) :
    ∀ verdict ∈ ((reception W files).runFrom r
      ((rest.zip parts).flatMap fun e => Downloader.sequence e.1 0 e.2)).2,
        verdict = .accepted := by
  induction hparts generalizing r i with
  | nil => exact fun _ hverdict => absurd hverdict List.not_mem_nil
  | @cons info part rest parts hsuitable _ ih =>
    have hi : files[i]? = some info := by
      rw [← Nat.add_zero i, ← List.getElem?_drop, hrest]
      rfl
    have hdrop : files.drop (i + 1) = rest := by
      rw [← List.drop_drop, hrest]
      rfl
    obtain ⟨haccepted, hawaits⟩ := h.sequence hnodup hfree hi hsuitable.nonempty hsuitable.short
      (by rw [zero_add]; exact hsuitable.total) hsuitable.hash
    rw [List.zip_cons_cons, List.flatMap_cons, System.runFrom_append]
    intro verdict hverdict
    rcases List.mem_append.mp hverdict with hfirst | hlater
    · exact haccepted verdict hfirst
    · exact ih hawaits hdrop verdict hlater

end Awaits

include hnodup hfree in
theorem acceptsInOrder (W : WebCrypto) : AcceptsInOrder W files := fun _ hparts =>
  (awaits_start hnodup hfree).remainingFiles hnodup hfree List.drop_zero hparts

end Order

/-! ### The condition -/

/-- The state of the files does not depend on their names, for a list and what it is renamed to:
the files of both start at zero and are received in order, and the same chunks are accepted. -/
structure NameIndependent (W : WebCrypto) (files : List FileInfo) (ρ : String → String) : Prop where
  fresh : OpensFresh files ∧ OpensFresh (files.map (renameFile ρ))
  inOrder : AcceptsInOrder W files ∧ AcceptsInOrder W (files.map (renameFile ρ))
  same : ∀ arrivals : List Arrival,
    (reception W (files.map (renameFile ρ))).log (arrivals.map (renameArrival ρ)) =
      (reception W files).log arrivals

/-- **Names make no difference** exactly if none of them, before and after the renaming, is that of
an inherited property. -/
theorem nameIndependent_iff (W : WebCrypto) {files : List FileInfo} {ρ : String → String}
    (hnodup : (files.map FileInfo.fileName).Nodup) (hρ : Function.Injective ρ) :
    NameIndependent W files ρ ↔
      ∀ info ∈ files, info.fileName ∉ builtinNames ∧ ρ info.fileName ∉ builtinNames := by
  have hrenamed : ((files.map (renameFile ρ)).map FileInfo.fileName).Nodup := by
    rw [List.map_map]
    have hcomp : FileInfo.fileName ∘ renameFile ρ = ρ ∘ FileInfo.fileName := rfl
    rw [hcomp, ← List.map_map]
    exact hnodup.map hρ
  constructor
  · intro h info hinfo
    refine ⟨(opensFresh_iff hnodup).mp h.fresh.1 info hinfo, ?_⟩
    exact (opensFresh_iff hrenamed).mp h.fresh.2 _ (List.mem_map_of_mem hinfo)
  · intro hfree
    have hfirst : ∀ info ∈ files, info.fileName ∉ builtinNames := fun info hinfo =>
      (hfree info hinfo).1
    have hsecond : ∀ info ∈ files.map (renameFile ρ), info.fileName ∉ builtinNames := by
      intro info hinfo
      obtain ⟨original, horiginal, rfl⟩ := List.mem_map.mp hinfo
      exact (hfree original horiginal).2
    constructor
    · exact ⟨(opensFresh_iff hnodup).mpr hfirst, (opensFresh_iff hrenamed).mpr hsecond⟩
    · exact ⟨acceptsInOrder hnodup hfirst W, acceptsInOrder hrenamed hsecond W⟩
    · exact Renames.log hρ hfree

/-- Files of one byte with these names. -/
def oneByteFiles (names : List String) : List FileInfo :=
  names.map fun fileName => { fileName, size := 1, type := "" }

theorem nameIndependent_folder :
    NameIndependent plainCrypto (oneByteFiles ["a", "b"]) fun name => "folder/" ++ name :=
  have hinj : Function.Injective fun name : String => "folder/" ++ name := fun _ _ =>
    (String.append_right_inj "folder/").mp
  (nameIndependent_iff plainCrypto (by decide) hinj).mpr (by decide)

/-- The first chunk of a file `a`. -/
def firstChunk : List Arrival :=
  sequence { fileName := "a", size := 1, type := "" } 0 [{ bytes := [104], plaintext := [104] }]

/-- A file that is called `constructor` can be announced, but its first chunk is refused; that of a
file `a` is accepted. -/
theorem constructor_refused :
    Accepts { files := oneByteFiles ["constructor"] } { files := oneByteFiles ["constructor"] } ∧
      (reception plainCrypto (oneByteFiles ["constructor"])).log
        (firstChunk.map (renameArrival (Equiv.swap "a" "constructor"))) =
          [.refused "Received out-of-order data. The transfer may be corrupted."] ∧
      ¬NameIndependent plainCrypto (oneByteFiles ["a"]) (Equiv.swap "a" "constructor") := by
  have hrenamed : (oneByteFiles ["a"]).map (renameFile (Equiv.swap "a" "constructor")) =
      oneByteFiles ["constructor"] := by decide +kernel
  have hrefused : (reception plainCrypto (oneByteFiles ["constructor"])).log
      (firstChunk.map (renameArrival (Equiv.swap "a" "constructor"))) =
        [.refused "Received out-of-order data. The transfer may be corrupted."] := by
    decide +kernel
  have haccepted : (reception plainCrypto (oneByteFiles ["a"])).log firstChunk = [.accepted] := by
    decide +kernel
  refine ⟨⟨by decide +kernel, by decide +kernel⟩, hrefused, fun h => ?_⟩
  have hsame := h.same firstChunk
  rw [hrenamed, hrefused, haccepted] at hsame
  exact absurd hsame (by decide)

end Rapidly.FileSharing.Downloader
