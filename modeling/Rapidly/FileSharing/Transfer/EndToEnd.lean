import Rapidly.FileSharing.Downloader.NameIndependence
import Rapidly.FileSharing.Transfer.Coverage

/-!
# Files from one end to the other

A connection of the uploader sends the files of a list, each as a whole, and a downloader takes in
the chunks in their order. What its streams are given are the files (`transfers`).

Both sides are as they were: the sender is the connection with its send loops (`sending`), the
receiver the function `processChunk` (`reception`). In between the chunks are read with the key of
the link.
-/

namespace Rapidly.FileSharing

namespace Downloader

open Transition (System)

section Streams

variable {files : List FileInfo} {r : Reception} {i : ℕ} {content : Bytes} {raw : ℚ}
  {info : FileInfo} {W : WebCrypto}

theorem streams_finish (r : Reception) (W : WebCrypto) (handle : StreamHandle)
    (fileName : String) : (r.finish W handle fileName).1.streams =
      r.streams.modify handle.index fun stream => { stream with isClosed := true } := by
  have hnext (r : Reception) : r.startNextFileOrFinish.streams = r.streams := by
    rw [Reception.startNextFileOrFinish]
    split <;> rfl
  rw [Reception.finish]
  split
  · rfl
  · exact hnext _
  · exact hnext _

variable (hnodup : (files.map FileInfo.fileName).Nodup)
  (hfree : ∀ info ∈ files, info.fileName ∉ KeyValue.builtinNames)

include hnodup hfree

/-- What the chunks of a file that come in order leave in its stream. -/
theorem streams_sequence (h : Awaits files r i content raw) (hi : files[i]? = some info)
    {parts : List Part} (hnonempty : parts ≠ [])
    (hshort : ∀ part ∈ parts, part.bytes.length ≤ maxIncomingChunkSize)
    (htotal : raw + (parts.map fun part => (part.bytes.length : ℚ)).sum ≤
      Download.maxReceived info.size) :
    ((reception W files).runFrom r (sequence info content.length parts)).1.streams =
      r.streams.modify i fun stream =>
        { content := stream.content ++ parts.flatMap Part.plaintext, isClosed := true } := by
  induction parts generalizing r content raw with
  | nil => exact absurd rfl hnonempty
  | cons part parts ih =>
    rw [List.map_cons, List.sum_cons, ← add_assoc] at htotal
    have hsum : (0 : ℚ) ≤ (parts.map fun part => (part.bytes.length : ℚ)).sum :=
      List.sum_nonneg fun x hx => by
        obtain ⟨part', -, rfl⟩ := List.mem_map.mp hx
        exact Nat.cast_nonneg _
    have hreceive := @Awaits.receive_eq _ _ _ _ _ _ _ W parts.isEmpty hnodup hfree h hi
      (hshort part List.mem_cons_self) (by linarith)
    have hstep : (reception W files).step r (nextArrival info content.length part parts.isEmpty) =
      r.receive W (nextArrival info content.length part parts.isEmpty) := rfl
    rw [sequence, System.runFrom, hstep, hreceive]
    cases parts with
    | nil =>
      change (Reception.finish _ W ⟨i⟩ info.fileName).1.streams = _
      rw [streams_finish, afterPart, List.modify_modify_eq, List.flatMap_singleton]
      rfl
    | cons part' parts =>
      have hlater := ih (h.afterPart hnodup hfree hi part) (List.cons_ne_nil _ _)
        (fun part hpart => hshort part (List.mem_cons_of_mem _ hpart)) htotal
      rw [List.length_append] at hlater
      refine hlater.trans ?_
      have hsplit : (part :: part' :: parts).flatMap Part.plaintext =
          part.plaintext ++ (part' :: parts).flatMap Part.plaintext := List.flatMap_cons
      rw [afterPart, List.modify_modify_eq, hsplit]
      refine congrArg (r.streams.modify i) (funext fun stream => ?_)
      rw [Function.comp_apply, List.append_assoc]

/-- Files that come one after the other are all accepted, and what is written are their bytes. -/
theorem streams_remaining {rest : List FileInfo} {parts : List (List Part)}
    (h : Awaits files r i [] 0) (hlength : r.streams.length = files.length)
    (hrest : files.drop i = rest) (hparts : List.Forall₂ (Suitable W) rest parts) :
    ((reception W files).runFrom r
      ((rest.zip parts).flatMap fun e => sequence e.1 0 e.2)).1.streams =
        r.streams.take i ++ parts.map fun parts =>
          { content := parts.flatMap Part.plaintext, isClosed := true } := by
  induction hparts generalizing r i with
  | nil =>
    have hle : r.streams.length ≤ i := hlength.trans_le (List.drop_eq_nil_iff.mp hrest)
    rw [List.take_of_length_le hle]
    exact (List.append_nil _).symm
  | @cons info part rest parts hsuitable _ ih =>
    have hi : files[i]? = some info := by
      rw [← Nat.add_zero i, ← List.getElem?_drop, hrest]
      rfl
    have hdrop : files.drop (i + 1) = rest := by
      rw [← List.drop_drop, hrest]
      rfl
    have htotal : 0 + (part.map fun part => (part.bytes.length : ℚ)).sum ≤
        Download.maxReceived info.size := by
      rw [zero_add]
      exact hsuitable.total
    obtain ⟨-, hawaits⟩ := h.sequence hnodup hfree hi hsuitable.nonempty hsuitable.short htotal
      hsuitable.hash
    have hstreams := @streams_sequence _ _ _ _ _ _ W hnodup hfree h hi _ hsuitable.nonempty
      hsuitable.short htotal
    have hstream : r.streams[i]? = some {} :=
      (h.streams i le_rfl (List.getElem?_eq_some_iff.mp hi).1).trans (by rw [if_pos rfl])
    have hlater := ih hawaits (by rw [hstreams, List.length_modify, hlength]) hdrop
    rw [List.zip_cons_cons, List.flatMap_cons, System.runFrom_append]
    refine hlater.trans ?_
    rw [hstreams, List.take_add_one, List.getElem?_modify_eq, hstream, List.take_modify,
      List.modify_eq_self (List.length_take_le ..), List.append_assoc]
    rfl

end Streams

end Downloader

namespace Transfer

open Binary Transition Uploader
open Downloader (Arrival Chunk Download Link Part Suitable encryptionOverheadPerChunk givenHash
  maxChunkSize_pos maxIncomingChunkSize nextArrival plaintextOf reception secretLink sequence
  taggingCrypto)

variable {W : WebCrypto} {share : Share} {link : Link}

/-- A chunk as it comes in: what the link makes of its bytes. -/
def arrivalOf (W : WebCrypto) (link : Link) (isEncrypted : Bool) (chunk : Chunk) : Arrival where
  chunk
  decryption := (plaintextOf W link isEncrypted chunk).elim .failed .plaintext

/-- A file is sent as a whole: the `Start` at its beginning is taken up, and nothing interrupts
the loop before it owes no chunk any more. -/
structure SendsFile (W : WebCrypto) (share : Share) (s : Connection) (info : FileInfo)
    (file : UploadedFile) (events : List Event) : Prop where
  admissible : StartAdmissible share s info.fileName 0
  status : s.status = .ready ∨ s.status = .paused
  file : validateOffset share.files info.fileName 0 = some file
  uninterrupted : (sending W share s info.fileName 0).Along (Uninterrupted W share) events
  vectors : (sending W share s info.fileName 0).Along DrawsVectors events
  done : ((sending W share s info.fileName 0).after events).pending = []

/-- The files are sent one after the other, with the chunks that come of it. -/
inductive SendsFiles (W : WebCrypto) (share : Share) :
    Connection → List (FileInfo × UploadedFile) → List Chunk → Prop
  | nil (s : Connection) : SendsFiles W share s [] []
  | cons {s : Connection} {info : FileInfo} {file : UploadedFile} {events : List Event}
      {files : List (FileInfo × UploadedFile)} {chunks : List Chunk}
      (h : SendsFile W share s info file events)
      (hrest : SendsFiles W share ((sending W share s info.fileName 0).after events) files
        chunks) :
      SendsFiles W share s ((info, file) :: files)
        (chunksSent ((sending W share s info.fileName 0).log events) ++ chunks)

/-- A piece without its place in the file. -/
def Piece.part (p : Piece) : Part where
  fileIndex := p.chunk.fileIndex
  bytes := p.chunk.bytes
  plaintext := p.plaintext

section OneFile

variable {isEncrypted : Bool} {info : FileInfo} {file : UploadedFile} {content : Bytes}
  {offset : ℕ} {pieces : List Piece}

/-- Consecutive pieces, of which the last one is flagged final, come in as the chunks of a file in
order. -/
theorem map_arrivalOf (hparts : ∀ p ∈ pieces, p.PartOf W link isEncrypted info.fileName content)
    (hconsecutive : Consecutive offset (pieces.map Piece.interval))
    (hunfinished : ∀ p ∈ pieces.dropLast, p.chunk.final = false)
    (hfinal : ∀ p ∈ pieces.getLast?, p.chunk.final = true) :
    pieces.map (fun p => arrivalOf W link isEncrypted p.chunk) =
      sequence info offset (pieces.map Piece.part) := by
  induction pieces generalizing offset with
  | nil => rfl
  | cons p ps ih =>
    obtain ⟨hp, hps⟩ := List.forall_mem_cons.mp hparts
    obtain ⟨rfl, -, hrest⟩ := hconsecutive
    have hlast : p.chunk.final = ps.isEmpty := by
      cases ps with
      | nil => exact hfinal p rfl
      | cons q qs => exact hunfinished p List.mem_cons_self
    have harrival : arrivalOf W link isEncrypted p.chunk =
        nextArrival info p.start p.part (ps.map Piece.part).isEmpty := by
      rw [arrivalOf, hp.plaintext, List.isEmpty_map, ← hlast, nextArrival, ← hp.fileName,
        ← hp.offset]
      rfl
    rw [List.map_cons, List.map_cons, Downloader.sequence, harrival]
    refine congrArg _ (ih hps hrest (fun q hq => ?_) fun q hq => ?_)
    · cases ps with
      | nil => exact absurd hq List.not_mem_nil
      | cons q' qs => exact hunfinished q (List.mem_cons_of_mem _ hq)
    · cases ps with
      | nil => cases hq
      | cons q' qs => exact hfinal q hq

/-- What the chunks add to the bytes of the file is their overhead. -/
theorem sum_length_le (hparts : ∀ p ∈ pieces, p.PartOf W link isEncrypted info.fileName content) :
    ((pieces.map Piece.part).map fun part => (part.bytes.length : ℚ)).sum ≤
      (pieces.flatMap Piece.plaintext).length + pieces.length * encryptionOverheadPerChunk := by
  induction pieces with
  | nil => simp
  | cons p ps ih =>
    obtain ⟨hp, hps⟩ := List.forall_mem_cons.mp hparts
    have hfirst : ((p.part.bytes.length : ℕ) : ℚ) ≤
        ((p.plaintext.length + encryptionOverheadPerChunk : ℕ) : ℚ) :=
      Nat.cast_le.mpr hp.overhead
    have hrest := ih hps
    simp only [List.map_cons, List.sum_cons, List.flatMap_cons, List.length_append,
      List.length_cons]
    push_cast at hfirst hrest ⊢
    linarith

variable {s : Connection} {events : List Event}

/-- The chunks of a file that is sent as a whole are those of the file in order. -/
theorem exists_parts (hlink : CanRead W share link) (hpending : s.pending = [])
    (h : SendsFile W share s info file events)
    (hsize : info.size = file.size)
    (hhash : ∀ expected ∈ givenHash info, W.sha256 file.content = expected) :
    ∃ parts, Suitable W info parts ∧ parts.flatMap Part.plaintext = file.content ∧
      (chunksSent ((sending W share s info.fileName 0).log events)).map
        (arrivalOf W link share.encryptionKey.isSome) = sequence info 0 parts := by
  have hle : 0 ≤ file.size := Nat.zero_le _
  have hinit : Transfers W share link info.fileName file 0 0
      (sending W share s info.fileName 0).init [] := by
    refine ⟨[], ⟨rfl, fun p hp => absurd hp List.not_mem_nil, rfl, rfl⟩, ?_⟩
    refine .owes _ .scheduled ?_ (continues_startLoop W share info.fileName file 0)
      ⟨rfl, fun buffer hmem => absurd hmem (Option.not_mem_none buffer)⟩ ?_ (Nat.succ_pos _) le_rfl
    · have hnil := owing_eq_nil_iff.mpr hpending
      rw [owing, List.filter_eq_nil_iff] at hnil
      rw [owing, tasks_sending_init h.admissible h.status h.file, List.filter_append,
        List.filter_eq_nil_iff.mpr hnil]
      rfl
    · simp [Task.pendingChunk, startLoop]
  obtain ⟨pieces, hsends, hprogress⟩ := (sending W share s info.fileName 0).invariant_of_along
    (fun past s' os => Transfers W share link info.fileName file 0
      ((sending W share s info.fileName 0).count WakesLoop past) s' os) hinit
    (fun past event hinv hstep => by
      rw [System.count_snoc]
      exact hinv.step hlink hle hstep.1 hstep.2)
    ((System.along_and _).mpr ⟨h.uninterrupted, h.vectors⟩)
  have hcount : pieces.length = chunkCount file 0 := by
    cases hprogress with
    | complete _ hk => exact hk
    | owes loop point howing =>
      rw [owing_eq_nil_iff.mpr h.done] at howing
      cases howing
  have hcomplete := hsends.complete hle hcount
  -- any download that expects the file from its beginning on
  have hcovers := hsends.covers hle hcount.le (d :=
    { connection := 0, filesInfo := [], remainingFiles := [], expectedOffset := fun _ => none
      totalBytesReceived := fun _ => none, integrityHashers := fun _ => none })
    (.of_received_eq Nat.cast_zero.symm Nat.cast_zero.symm fun f hf => by cases hf)
  have hcontent : pieces.flatMap Piece.plaintext = file.content := hcomplete.content
  refine ⟨pieces.map Piece.part, ⟨?_, ?_, ?_, ?_⟩, ?_, ?_⟩
  · obtain ⟨p, hp, -⟩ := hcomplete.final
    rintro hnil
    rw [List.map_eq_nil_iff.mp hnil] at hp
    cases hp
  · rw [List.forall_mem_map]
    intro p hp
    have hpart := hsends.partOf p hp
    exact hpart.overhead.trans
      ((Nat.add_le_add_right hpart.small _).trans (Nat.le_add_right _ 1024))
  · have hdiv : 0 / maxChunkSize + chunkCount file 0 ≤ file.size / maxChunkSize + 1 :=
      div_add_cutCount_le maxChunkSize hle
    rw [Nat.zero_div, Nat.zero_add, ← hcount] at hdiv
    have hroom := le_maxReceived_of_le_div hdiv
    rw [hsize]
    refine (sum_length_le hsends.partOf).trans ?_
    rw [hcontent]
    exact hroom
  · rw [List.flatMap_map]
    exact fun expected hexpected => (congrArg W.sha256 hcontent).trans (hhash expected hexpected)
  · rw [List.flatMap_map]
    exact hcontent
  · rw [← hsends.chunks, List.map_map]
    refine map_arrivalOf hcovers.partOf hcovers.consecutive hcovers.unfinished fun p hp => ?_
    obtain ⟨q, hq, hfinal⟩ := hcomplete.final
    rw [hq] at hp
    exact Option.some_inj.mp hp ▸ hfinal

end OneFile

section Files

variable {s : Connection} {files : List (FileInfo × UploadedFile)} {chunks : List Chunk}

/-- A list of files says of each how long it is, and its hash if any. -/
def Announces (W : WebCrypto) (files : List (FileInfo × UploadedFile)) : Prop :=
  ∀ e ∈ files, e.1.size = e.2.size ∧
    ∀ expected ∈ givenHash e.1, W.sha256 e.2.content = expected

theorem exists_parts_of_sendsFiles (hlink : CanRead W share link) (hpending : s.pending = [])
    (h : SendsFiles W share s files chunks) (hfiles : Announces W files) :
    ∃ parts, List.Forall₂ (Suitable W) (files.map Prod.fst) parts ∧
      parts.map (fun ps => ps.flatMap Part.plaintext) = files.map (fun e => e.2.content) ∧
      chunks.map (arrivalOf W link share.encryptionKey.isSome) =
        ((files.map Prod.fst).zip parts).flatMap fun e => sequence e.1 0 e.2 := by
  induction h with
  | nil s => exact ⟨[], .nil, rfl, rfl⟩
  | cons h _ ih =>
    obtain ⟨⟨hsize, hhash⟩, hrest⟩ := List.forall_mem_cons.mp hfiles
    obtain ⟨first, hsuitable, hcontent, harrivals⟩ :=
      exists_parts hlink hpending h hsize hhash
    obtain ⟨parts, hparts, hcontents, hlater⟩ := ih h.done hrest
    refine ⟨first :: parts, .cons hsuitable hparts, ?_, ?_⟩
    · rw [List.map_cons, List.map_cons, hcontent, hcontents]
    · rw [List.map_append, harrivals, hlater, List.map_cons, List.zip_cons_cons,
        List.flatMap_cons]

/-- The file of a share, with what is said of it. -/
def secretFiles : List (FileInfo × UploadedFile) :=
  [({ fileName := "a", size := 3, type := "" }, { name := "a", content := [1, 2, 3] })]

/-- The chunks that are sent of it. -/
def secretChunks : List Chunk :=
  chunksSent ((sending taggingCrypto secretShare readyConnection "a" 0).log wholeRun) ++ []

theorem sendsFiles_secretFiles :
    SendsFiles taggingCrypto secretShare readyConnection secretFiles secretChunks :=
  .cons ⟨by decide, by decide, by decide, by decide, by decide, by decide⟩ (.nil _)

end Files

end Transfer

end Rapidly.FileSharing
