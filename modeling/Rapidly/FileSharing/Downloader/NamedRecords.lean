import Rapidly.FileSharing.Downloader.Archive
import Rapidly.KeyValue.PlainObject

/-!
# The records of a download

What a call of `startDownload` keeps for each file of the list, in a download without saved
progress. The offsets, the counts, the hashers, the hashes and the streams are in objects that are
made by `{}`, under the names that the sender has chosen. The functions of a name that a `Download`
has instead are what these objects are as long as no name is that of an inherited property
(`refusal_eq_chunkFailure`).

`Reception` is this state, `receive` the function `processChunk`. How the decryption of a chunk goes
is part of its arrival. Nothing is taken from a connection that was closed. `chunkCountByFile` is
left out, as only a log message reads it.
-/

namespace Rapidly.FileSharing.Downloader

open KeyValue (PlainObject Reading Inheritable builtinNames)
open Transition (System)

/-! ### The values of the records -/

/-- `{ stream, enqueue, close }`, for the stream with this number. -/
structure StreamHandle where
  index : ℕ
deriving DecidableEq

instance : Inheritable StreamHandle where
  isObject := true
  inherits _ name := if name ∈ ["stream", "enqueue", "close"] then some true else none

/-- A `StreamingSHA256`, by the bytes it was fed. -/
structure Hasher where
  content : Bytes := []
deriving DecidableEq

instance : Inheritable Hasher where
  isObject := true
  inherits hasher name :=
    if name ∈ ["h", "buffer", "processBlock", "update", "serialize", "finalize"] then some true
    else if name = "bufferOffset" then some (hasher.content.length % 64 ≠ 0)
    else if name = "totalBytes" then some (hasher.content ≠ [])
    else if name = "finalized" then some false
    else none

/-- A number, or `none` for any other primitive value. -/
instance : Inheritable (Option ℚ) where
  isObject := false
  inherits _ _ := none

instance : Inheritable String where
  isObject := false
  inherits _ _ := none

/-- `… ?? 0`, if that is a number. -/
def orZero : Reading (Option ℚ) → Option ℚ
  | .undefined => some 0
  | .value n => n
  | .inherited _ => none

/-! ### The state -/

/-- How the decryption of a chunk goes. -/
inductive Decryption where
  /-- The bytes of the chunk, where it is not encrypted. -/
  | plaintext (bytes : Bytes)
  | failed
  /-- The download is paused, or the page left, in the meantime. -/
  | interrupted
deriving DecidableEq

/-- A chunk comes in. -/
structure Arrival where
  chunk : Chunk
  /-- The download is paused. -/
  isPaused : Bool := false
  decryption : Decryption
deriving DecidableEq

/-- What becomes of a chunk. -/
inductive Verdict where
  | ignored
  /-- The connection is closed with an error. -/
  | refused (text : String)
  | interrupted
  /-- An exception that is only logged. -/
  | threw
  | accepted
  /-- The last chunk was written, but the hash of the file is wrong; the connection is closed. -/
  | failedIntegrity
deriving DecidableEq

/-- The variables of `startDownload`. -/
structure Reception where
  filesInfo : List FileInfo
  /-- The files from `nextFileIndex` on. -/
  remainingFiles : List FileInfo
  requestedFiles : List String
  completedFiles : List String := []
  streams : List OutputStream
  fileStreamByPath : PlainObject StreamHandle
  expectedOffset : PlainObject (Option ℚ) := {}
  totalBytesReceived : PlainObject (Option ℚ) := {}
  integrityHashers : PlainObject Hasher
  expectedHashes : PlainObject String
  isClosed : Bool := false

/-- The hash of a file, if there is one. -/
def givenHash (info : FileInfo) : Option String := info.sha256.filter (· ≠ "")

namespace Reception

/-- The start of a download: the first file is requested. -/
def start (files : List FileInfo) : Reception where
  filesInfo := files
  remainingFiles := files.tail
  requestedFiles := (files.head?.map FileInfo.fileName).toList
  streams := files.map fun _ => {}
  fileStreamByPath := .ofEntries (files.zipIdx.map fun (info, i) => (info.fileName, ⟨i⟩))
  integrityHashers :=
    .ofEntries (files.filterMap fun info => (givenHash info).map fun _ => (info.fileName, {}))
  expectedHashes :=
    .ofEntries (files.filterMap fun info => (givenHash info).map fun h => (info.fileName, h))

variable (r : Reception)

/-- `expectedOffset[fileName] ?? 0` -/
def nextOffset (fileName : String) : Option ℚ := orZero (r.expectedOffset.get fileName)

/-- `received`; nothing is a number that is added to something else. -/
def received (chunk : Chunk) : Option ℚ :=
  (orZero (r.totalBytesReceived.get chunk.fileName)).map (· + chunk.bytes.length)

/-- Why a chunk is refused before it is decrypted. -/
def refusal (chunk : Chunk) : Option String :=
  if chunk.bytes.length > maxIncomingChunkSize then
    some "Received an oversized chunk. The transfer may be corrupted or malicious."
  else if r.nextOffset chunk.fileName ≠ some chunk.offset then
    some "Received out-of-order data. The transfer may be corrupted."
  else if (r.filesInfo.find? (·.fileName = chunk.fileName)).any fun f =>
      (r.received chunk).any (· > Download.maxReceived f.size) then
    some "Received more data than expected. The transfer may be corrupted."
  else none

/-- The stream is closed. -/
def closeStream (handle : StreamHandle) : Reception :=
  { r with streams := r.streams.modify handle.index fun stream => { stream with isClosed := true } }

/-- `startNextFileOrFinish` -/
def startNextFileOrFinish : Reception :=
  match r.remainingFiles with
  | [] => r
  | info :: rest =>
    { r with requestedFiles := r.requestedFiles ++ [info.fileName], remainingFiles := rest }

variable (W : WebCrypto)

/-- What the integrity check says, if there is something to check. -/
def check (fileName : String) : Option Bool :=
  match r.expectedHashes.get fileName, r.integrityHashers.get fileName with
  | .undefined, _ | .inherited false, _ | .value "", _ => none
  | _, .undefined | _, .inherited false => none
  | .value expected, .value hasher => some (W.sha256 hasher.content = expected)
  -- a function is no hash, and has no `finalize`
  | _, _ => some false

/-- The last chunk of a file was written. -/
def finish (handle : StreamHandle) (fileName : String) : Reception × List Verdict :=
  match r.check W fileName with
  | some false =>
    ({ r with integrityHashers := r.integrityHashers.delete fileName, isClosed := true }.closeStream
      handle, [.failedIntegrity])
  | some true =>
    ({ r with
        integrityHashers := r.integrityHashers.delete fileName
        completedFiles := r.completedFiles ++ [fileName] }.closeStream
      handle |>.startNextFileOrFinish, [.accepted])
  | none =>
    ({ r with completedFiles := r.completedFiles ++ [fileName] }.closeStream handle
      |>.startNextFileOrFinish, [.accepted])

/-- The plaintext is written. -/
def write (handle : StreamHandle) (chunk : Chunk) (plaintext : Bytes) :
    Reception × List Verdict :=
  let r := { r with
    streams := r.streams.modify handle.index fun stream =>
      { stream with content := stream.content ++ plaintext } }
  let ended (r : Reception) : Reception × List Verdict :=
    if chunk.final then r.finish W handle chunk.fileName else (r, [.accepted])
  match r.integrityHashers.get chunk.fileName with
  | .undefined | .inherited false => ended r
  | .value hasher =>
    ended { r with
      integrityHashers :=
        r.integrityHashers.set chunk.fileName ⟨hasher.content ++ plaintext⟩ }
  -- it has no `update`
  | .inherited true => (r, [.threw])

/-- The offset moves on, and the plaintext is enqueued unless the stream is closed. -/
def deliver (stream : Reading StreamHandle) (chunk : Chunk) (plaintext : Bytes) :
    Reception × List Verdict :=
  let r := { r with
    expectedOffset :=
      r.expectedOffset.set chunk.fileName (some (chunk.offset + plaintext.length)) }
  match stream with
  | .value handle =>
    if r.streams[handle.index]?.any fun stream => !stream.isClosed then
      r.write W handle chunk plaintext
    else (r, [.threw])
  | _ => (r, [.threw])

/-- `processChunk` from its checks on, with the stream that was found. -/
def process (stream : Reading StreamHandle) (arrival : Arrival) : Reception × List Verdict :=
  let chunk := arrival.chunk
  match r.refusal chunk with
  | some text => ({ r with isClosed := true }, [.refused text])
  | none =>
    let r := { r with
      totalBytesReceived := r.totalBytesReceived.set chunk.fileName (r.received chunk) }
    match arrival.decryption with
    | .interrupted => (r, [.interrupted])
    | .failed =>
      ({ r with isClosed := true }, [.refused
        "Decryption failed. The encryption key may be invalid or the data was tampered with."])
    | .plaintext bytes => r.deliver W stream chunk bytes

/-- `processChunk` -/
def receive (arrival : Arrival) : Reception × List Verdict :=
  let fileName := arrival.chunk.fileName
  if r.isClosed ∨ arrival.isPaused then (r, [.ignored])
  else if fileName ∉ r.requestedFiles ∨ fileName ∈ r.completedFiles then (r, [.ignored])
  else
    match r.fileStreamByPath.get fileName with
    | .undefined | .inherited false => (r, [.ignored])
    | stream => r.process W stream arrival

end Reception

/-- A download of these files, chunk by chunk. -/
def reception (W : WebCrypto) (files : List FileInfo) : System Reception Arrival Verdict where
  init := .start files
  step r := r.receive W

/-! ### The functions of a `Download` -/

section Ideal

variable {d : Download} {r : Reception} {chunk : Chunk}

/-- The numbers of a record are the values of a function. -/
structure Holds (object : PlainObject (Option ℚ)) (f : String → Option ℚ) : Prop where
  own : ∀ name, object.own name = (f name).map some
  prototype : object.prototype = none

end Ideal

/-! ### Other names -/

/-- The file under another name. -/
def renameFile (ρ : String → String) (info : FileInfo) : FileInfo :=
  { info with fileName := ρ info.fileName }

/-- A chunk of the file under the other name. -/
def renameArrival (ρ : String → String) (arrival : Arrival) : Arrival :=
  { arrival with chunk := { arrival.chunk with fileName := ρ arrival.chunk.fileName } }

/-- A name, and what it is renamed to, are not those of inherited properties. -/
def IsFree (ρ : String → String) (name : String) : Prop :=
  name ∉ builtinNames ∧ ρ name ∉ builtinNames

/-- The second reception is the first one under other names. -/
structure Renames (ρ : String → String) (r r' : Reception) : Prop where
  filesInfo : r'.filesInfo = r.filesInfo.map (renameFile ρ)
  remainingFiles : r'.remainingFiles = r.remainingFiles.map (renameFile ρ)
  requestedFiles : r'.requestedFiles = r.requestedFiles.map ρ
  completedFiles : r'.completedFiles = r.completedFiles.map ρ
  streams : r'.streams = r.streams
  fileStreamByPath : r.fileStreamByPath.Renamed ρ r'.fileStreamByPath
  expectedOffset : r.expectedOffset.Renamed ρ r'.expectedOffset
  totalBytesReceived : r.totalBytesReceived.Renamed ρ r'.totalBytesReceived
  integrityHashers : r.integrityHashers.Renamed ρ r'.integrityHashers
  expectedHashes : r.expectedHashes.Renamed ρ r'.expectedHashes
  isClosed : r'.isClosed = r.isClosed
  requested : ∀ name ∈ r.requestedFiles, IsFree ρ name
  remaining : ∀ info ∈ r.remainingFiles, IsFree ρ info.fileName

namespace Renames

variable {ρ : String → String} {r r' : Reception} {chunk : Chunk} {name : String} {W : WebCrypto}

theorem refusal (h : Renames ρ r r') (hρ : Function.Injective ρ) (hname : IsFree ρ chunk.fileName) :
    r'.refusal { chunk with fileName := ρ chunk.fileName } = r.refusal chunk := by
  have hoffset : r'.nextOffset (ρ chunk.fileName) = r.nextOffset chunk.fileName :=
    congrArg orZero (h.expectedOffset.get hname.1 hname.2)
  have hreceived : r'.received { chunk with fileName := ρ chunk.fileName } = r.received chunk :=
    congrArg (fun reading => (orZero reading).map (· + (chunk.bytes.length : ℚ)))
      (h.totalBytesReceived.get hname.1 hname.2)
  have hinfo : r'.filesInfo.find? (·.fileName = ρ chunk.fileName) =
      (r.filesInfo.find? (·.fileName = chunk.fileName)).map (renameFile ρ) := by
    rw [h.filesInfo, List.find?_map]
    congr 2
    funext info
    exact decide_eq_decide.mpr hρ.eq_iff
  rw [Reception.refusal, Reception.refusal]
  simp only [hoffset, hreceived, hinfo, Option.any_map]
  rfl

theorem check (h : Renames ρ r r') (hname : IsFree ρ name) :
    r'.check W (ρ name) = r.check W name := by
  rw [Reception.check, Reception.check, h.expectedHashes.get hname.1 hname.2,
    h.integrityHashers.get hname.1 hname.2]

theorem closeStream (h : Renames ρ r r') (handle : StreamHandle) :
    Renames ρ (r.closeStream handle) (r'.closeStream handle) :=
  { h with streams := by rw [Reception.closeStream, Reception.closeStream, h.streams] }

theorem startNextFileOrFinish (h : Renames ρ r r') :
    Renames ρ r.startNextFileOrFinish r'.startNextFileOrFinish := by
  rw [Reception.startNextFileOrFinish, Reception.startNextFileOrFinish, h.remainingFiles]
  cases hfiles : r.remainingFiles with
  | nil => exact h
  | cons info rest =>
    rw [List.map_cons]
    have hfree := h.remaining
    rw [hfiles] at hfree
    exact { h with
      remainingFiles := rfl
      requestedFiles := by
        rw [h.requestedFiles, List.map_append]
        rfl
      requested := fun name hname => (List.mem_append.mp hname).elim (h.requested name)
        fun hlast => List.mem_singleton.mp hlast ▸ hfree info List.mem_cons_self
      remaining := fun info' hinfo' => hfree info' (List.mem_cons_of_mem _ hinfo') }

/-- A step has the same verdicts on both, and leaves them alike. -/
def Alike (ρ : String → String) (x x' : Reception × List Verdict) : Prop :=
  Renames ρ x.1 x'.1 ∧ x'.2 = x.2

theorem finish (h : Renames ρ r r') (hρ : Function.Injective ρ) (hname : IsFree ρ name)
    (handle : StreamHandle) : Alike ρ (r.finish W handle name) (r'.finish W handle (ρ name)) := by
  have hcompleted : r'.completedFiles ++ [ρ name] = (r.completedFiles ++ [name]).map ρ := by
    rw [h.completedFiles, List.map_append, List.map_singleton]
  rw [Reception.finish, Reception.finish, h.check hname]
  have hhashers := h.integrityHashers.delete hρ name
  cases r.check W name with
  | none =>
    have hdone : Renames ρ { r with completedFiles := r.completedFiles ++ [name] }
        { r' with completedFiles := r'.completedFiles ++ [ρ name] } :=
      { h with completedFiles := hcompleted }
    exact ⟨(hdone.closeStream handle).startNextFileOrFinish, rfl⟩
  | some verified =>
    cases verified with
    | true =>
      have hdone : Renames ρ
          { r with
            integrityHashers := r.integrityHashers.delete name
            completedFiles := r.completedFiles ++ [name] }
          { r' with
            integrityHashers := r'.integrityHashers.delete (ρ name)
            completedFiles := r'.completedFiles ++ [ρ name] } :=
        { h with integrityHashers := hhashers, completedFiles := hcompleted }
      exact ⟨(hdone.closeStream handle).startNextFileOrFinish, rfl⟩
    | false =>
      have hfailed : Renames ρ
          { r with integrityHashers := r.integrityHashers.delete name, isClosed := true }
          { r' with integrityHashers := r'.integrityHashers.delete (ρ name), isClosed := true } :=
        { h with integrityHashers := hhashers, isClosed := rfl }
      exact ⟨hfailed.closeStream handle, rfl⟩

theorem write (h : Renames ρ r r') (hρ : Function.Injective ρ) (hname : IsFree ρ chunk.fileName)
    (handle : StreamHandle) (plaintext : Bytes) :
    Alike ρ (r.write W handle chunk plaintext)
      (r'.write W handle { chunk with fileName := ρ chunk.fileName } plaintext) := by
  have hended {r r' : Reception} (h : Renames ρ r r') :
      Alike ρ (if chunk.final then r.finish W handle chunk.fileName else (r, [.accepted]))
        (if chunk.final then r'.finish W handle (ρ chunk.fileName) else (r', [.accepted])) := by
    split
    · exact h.finish hρ hname handle
    · exact ⟨h, rfl⟩
  have hstreams : Renames ρ
      { r with streams := r.streams.modify handle.index fun stream =>
          { stream with content := stream.content ++ plaintext } }
      { r' with streams := r'.streams.modify handle.index fun stream =>
          { stream with content := stream.content ++ plaintext } } :=
    { h with streams := by rw [h.streams] }
  rw [Reception.write, Reception.write]
  rw [h.integrityHashers.get hname.1 hname.2]
  cases r.integrityHashers.get chunk.fileName with
  | undefined => exact hended hstreams
  | value hasher =>
    exact hended { hstreams with
      integrityHashers := h.integrityHashers.set hρ hname.1 hname.2 ⟨hasher.content ++ plaintext⟩ }
  | inherited truthy =>
    cases truthy with
    | true => exact ⟨hstreams, rfl⟩
    | false => exact hended hstreams

theorem deliver (h : Renames ρ r r') (hρ : Function.Injective ρ) (hname : IsFree ρ chunk.fileName)
    (stream : Reading StreamHandle) (plaintext : Bytes) :
    Alike ρ (r.deliver W stream chunk plaintext)
      (r'.deliver W stream { chunk with fileName := ρ chunk.fileName } plaintext) := by
  have hoffset : Renames ρ
      { r with expectedOffset :=
          r.expectedOffset.set chunk.fileName (some (chunk.offset + plaintext.length)) }
      { r' with expectedOffset :=
          r'.expectedOffset.set (ρ chunk.fileName) (some (chunk.offset + plaintext.length)) } :=
    { h with expectedOffset := h.expectedOffset.set hρ hname.1 hname.2 _ }
  cases stream with
  | undefined => exact ⟨hoffset, rfl⟩
  | inherited => exact ⟨hoffset, rfl⟩
  | value handle =>
    have hopen : (r'.streams[handle.index]?.any fun stream => !stream.isClosed) =
        r.streams[handle.index]?.any fun stream => !stream.isClosed := by
      rw [h.streams]
    rw [Reception.deliver, Reception.deliver]
    rw [hopen]
    split
    · exact hoffset.write hρ hname handle plaintext
    · exact ⟨hoffset, rfl⟩

theorem process {arrival : Arrival} (h : Renames ρ r r') (hρ : Function.Injective ρ)
    (hname : IsFree ρ arrival.chunk.fileName) (stream : Reading StreamHandle) :
    Alike ρ (r.process W stream arrival) (r'.process W stream (renameArrival ρ arrival)) := by
  have hreceived : r'.received { arrival.chunk with fileName := ρ arrival.chunk.fileName } =
      r.received arrival.chunk :=
    congrArg (fun reading => (orZero reading).map (· + (arrival.chunk.bytes.length : ℚ)))
      (h.totalBytesReceived.get hname.1 hname.2)
  have hcounted : Renames ρ
      { r with totalBytesReceived :=
          r.totalBytesReceived.set arrival.chunk.fileName (r.received arrival.chunk) }
      { r' with totalBytesReceived :=
          r'.totalBytesReceived.set (ρ arrival.chunk.fileName) (r.received arrival.chunk) } :=
    { h with totalBytesReceived := h.totalBytesReceived.set hρ hname.1 hname.2 _ }
  rw [Reception.process, Reception.process]
  dsimp only [renameArrival]
  rw [h.refusal hρ hname, hreceived]
  cases r.refusal arrival.chunk with
  | some text => exact ⟨{ h with isClosed := rfl }, rfl⟩
  | none =>
    cases arrival.decryption with
    | interrupted => exact ⟨hcounted, rfl⟩
    | failed => exact ⟨{ hcounted with isClosed := rfl }, rfl⟩
    | plaintext bytes => exact hcounted.deliver hρ hname stream bytes

theorem receive (h : Renames ρ r r') (hρ : Function.Injective ρ) (arrival : Arrival) :
    Alike ρ (r.receive W arrival) (r'.receive W (renameArrival ρ arrival)) := by
  have hmem (names : List String) :
      ρ arrival.chunk.fileName ∈ names.map ρ ↔ arrival.chunk.fileName ∈ names :=
    List.mem_map_of_injective hρ
  have hsame : (renameArrival ρ arrival).chunk.fileName = ρ arrival.chunk.fileName ∧
      (renameArrival ρ arrival).isPaused = arrival.isPaused := ⟨rfl, rfl⟩
  have hwanted : (ρ arrival.chunk.fileName ∉ r.requestedFiles.map ρ ∨
      ρ arrival.chunk.fileName ∈ r.completedFiles.map ρ) ↔
        (arrival.chunk.fileName ∉ r.requestedFiles ∨
          arrival.chunk.fileName ∈ r.completedFiles) :=
    or_congr (not_congr (hmem _)) (hmem _)
  rw [Reception.receive, Reception.receive, hsame.1, hsame.2, h.isClosed, h.requestedFiles,
    h.completedFiles]
  by_cases hclosed : r.isClosed ∨ arrival.isPaused
  · rw [if_pos hclosed, if_pos hclosed]
    exact ⟨h, rfl⟩
  rw [if_neg hclosed, if_neg hclosed]
  by_cases hunwanted : arrival.chunk.fileName ∉ r.requestedFiles ∨
      arrival.chunk.fileName ∈ r.completedFiles
  · rw [if_pos hunwanted, if_pos (hwanted.mpr hunwanted)]
    exact ⟨h, rfl⟩
  rw [if_neg hunwanted, if_neg fun hnot => hunwanted (hwanted.mp hnot)]
  have hname : IsFree ρ arrival.chunk.fileName :=
    h.requested _ (not_not.mp fun hnot => hunwanted (.inl hnot))
  rw [h.fileStreamByPath.get hname.1 hname.2]
  cases r.fileStreamByPath.get arrival.chunk.fileName with
  | undefined => exact ⟨h, rfl⟩
  | value handle => exact h.process hρ hname (.value handle)
  | inherited truthy =>
    cases truthy with
    | true => exact h.process hρ hname (.inherited true)
    | false => exact ⟨h, rfl⟩

theorem renamed_given {V : Type} [Inheritable V] (hρ : Function.Injective ρ) {files : List FileInfo}
    (hfree : ∀ info ∈ files, IsFree ρ info.fileName) (f : String → V) :
    PlainObject.Renamed ρ
      (.ofEntries (files.filterMap fun info =>
        (givenHash info).map fun h => (info.fileName, f h)))
      (.ofEntries ((files.map (renameFile ρ)).filterMap fun info =>
        (givenHash info).map fun h => (info.fileName, f h))) := by
  have hgiven : ((files.map (renameFile ρ)).filterMap fun info =>
      (givenHash info).map fun h => (info.fileName, f h)) =
        (files.filterMap fun info => (givenHash info).map fun h => (info.fileName, f h)).map
          fun e => (ρ e.1, e.2) := by
    rw [List.filterMap_map, List.map_filterMap]
    refine List.filterMap_congr fun info _ => ?_
    rw [Option.map_map]
    rfl
  rw [hgiven]
  refine .ofEntries hρ fun e he => ?_
  obtain ⟨info, hinfo, hentry⟩ := List.mem_filterMap.mp he
  obtain ⟨h, -, rfl⟩ := Option.map_eq_some_iff.mp hentry
  exact hfree info hinfo

theorem start (hρ : Function.Injective ρ) {files : List FileInfo}
    (hfree : ∀ info ∈ files, IsFree ρ info.fileName) :
    Renames ρ (.start files) (.start (files.map (renameFile ρ))) := by
  have hstreams : ((files.map (renameFile ρ)).zipIdx.map fun (info, i) =>
      (info.fileName, (⟨i⟩ : StreamHandle))) =
        (files.zipIdx.map fun (info, i) => (info.fileName, (⟨i⟩ : StreamHandle))).map fun e =>
          (ρ e.1, e.2) := by
    rw [List.zipIdx_map, List.map_map, List.map_map]
    rfl
  constructor
  · rfl
  · exact List.map_tail.symm
  · rw [Reception.start, Reception.start, List.head?_map]
    cases files.head? with
    | none => rfl
    | some info => rfl
  · rfl
  · rw [Reception.start, Reception.start, List.map_map]
    rfl
  · rw [Reception.start, Reception.start, hstreams]
    refine .ofEntries hρ fun e he => ?_
    obtain ⟨⟨info, i⟩, hinfo, rfl⟩ := List.mem_map.mp he
    exact hfree info (List.fst_mem_of_mem_zipIdx hinfo)
  · exact .empty
  · exact .empty
  · exact renamed_given hρ hfree fun _ => ({} : Hasher)
  · exact renamed_given hρ hfree fun h => h
  · rfl
  · intro name hname
    cases files with
    | nil => exact absurd hname List.not_mem_nil
    | cons info rest => exact List.mem_singleton.mp hname ▸ hfree info List.mem_cons_self
  · exact fun info hinfo => hfree info (List.mem_of_mem_tail hinfo)

theorem log (hρ : Function.Injective ρ) {files : List FileInfo}
    (hfree : ∀ info ∈ files, IsFree ρ info.fileName) (arrivals : List Arrival) :
    (reception W (files.map (renameFile ρ))).log (arrivals.map (renameArrival ρ)) =
      (reception W files).log arrivals := by
  suffices h : Renames ρ ((reception W files).after arrivals)
      ((reception W (files.map (renameFile ρ))).after (arrivals.map (renameArrival ρ))) ∧
      (reception W (files.map (renameFile ρ))).log (arrivals.map (renameArrival ρ)) =
        (reception W files).log arrivals from h.2
  induction arrivals using List.reverseRecOn with
  | nil => exact ⟨.start hρ hfree, rfl⟩
  | append_singleton arrivals arrival ih =>
    obtain ⟨hrenames, hlog⟩ := ih
    obtain ⟨hstep, hverdicts⟩ := @receive _ _ _ W hrenames hρ arrival
    rw [List.map_append, List.map_singleton, System.after_snoc, System.after_snoc, System.log_snoc,
      System.log_snoc, hlog]
    exact ⟨hstep, congrArg _ hverdicts⟩

end Renames

end Rapidly.FileSharing.Downloader
