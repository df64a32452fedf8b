import Rapidly.FileSharing.ZipStream.Writer
import Rapidly.Transition.System

/-!
# ZIP streams

`createZipStream` of `utils/file-sharing/zip-stream.ts` as a transition system. The zip writer
enqueues files and closes the archive, and the consumer of the stream pulls; one pull reads one
chunk of the active file, or its end. The files are kept in the order of `filenames`: those in
front of `activeZipIndex`, the one that is active, and those after it.

The callbacks of the underlying source are the events that come next, and what they throw is
observed beside the chunks of the stream. A consumer does not pull once the stream is closed or
errored.
-/

namespace Rapidly.FileSharing.ZipStream

open Binary Transition

/-- The readable stream that `createZipStream` returns. -/
inductive StreamState where
  | readable
  | closed
  | errored
deriving DecidableEq

structure State where
  /-- The files in front of `activeZipIndex`. -/
  before : List ZipObject := []
  activeZipObject : Option ZipObject := none
  /-- The files behind it. -/
  waiting : List ZipObject := []
  offset : ℕ := 0
  closed : Bool := false
  archiveNeedsZip64 : Bool := false
  stream : StreamState := .readable
deriving DecidableEq

inductive Output where
  | chunk (data : List UInt8)
  | threw (message : String)
deriving DecidableEq

inductive Event where
  | enqueue (fileLike : FileLike)
  | close
  | pull
deriving DecidableEq

/-- All files, in the order of `filenames`. -/
def State.files (s : State) : List ZipObject := s.before ++ s.activeZipObject.toList ++ s.waiting

/-- How far `processNextChunk` comes with a file. -/
structure Progress where
  state : State
  file : ZipObject
  outputs : List Output := []
  /-- `next` is called. -/
  next : Bool

/-- The state in which `next` is called. -/
def Progress.finished (progress : Progress) : State :=
  { progress.state with before := progress.state.before ++ [progress.file] }

section System

variable (s : State)

/-- `writeHeader` -/
def State.writeHeader (z : ZipObject) : Progress where
  state := { s with offset := s.offset + z.headerData.length }
  file := z.writeHeader s.offset
  outputs := [.chunk z.headerData]
  next := false

/-- `writeFooter` -/
def State.writeFooter (z : ZipObject) : Progress :=
  let offset := s.offset + z.compressedLength + if z.writeFooter.needsZip64 then 24 else 16
  { state :=
      { s with
        offset
        archiveNeedsZip64 := s.archiveNeedsZip64 || z.hasGrown || zip64Threshold ≤ offset }
    file := z.writeFooter
    outputs := [.chunk z.footerData]
    next := true }

/-- The file after one of its chunks. -/
def ZipObject.append (z : ZipObject) (chunk : List UInt8) : ZipObject :=
  { z with
    crc := z.crc.map (·.append chunk)
    uncompressedLength := z.uncompressedLength + chunk.length
    compressedLength := z.compressedLength + chunk.length }

/-- `pump` -/
def State.pump (z : ZipObject) (reader : Source) : Progress :=
  match reader.chunks with
  | chunk :: chunks =>
    { state := s, file := { z.append chunk with reader := some { reader with chunks } }
      outputs := [.chunk chunk], next := false }
  | [] =>
    if reader.fails then
      { state := { s with stream := .errored }, file := z, next := false }
    else s.writeFooter z

/-- `processNextChunk` of a file. -/
def State.processChunk (z : ZipObject) : Progress :=
  if z.directory then
    let header := s.writeHeader z
    let footer := header.state.writeFooter header.file
    { footer with outputs := header.outputs ++ footer.outputs }
  else
    match z.reader with
    | some reader => s.pump z reader
    | none =>
      match z.fileLike.stream with
      | some stream => s.writeHeader { z with crc := some {}, reader := some stream }
      | none => { state := s, file := z, next := true }

/-- `closeZip` of the stream. -/
def State.finish : State × List Output :=
  ({ s with stream := .closed }, (closeZip s.files s.archiveNeedsZip64 s.offset).map .chunk)

/-- Process the first of the files from the active one on, and call `next` as long as files are
finished. -/
def State.process : State → List ZipObject → State × List Output
  | s, [] =>
    let s := { s with activeZipObject := none, waiting := [] }
    if s.closed then s.finish else (s, [])
  | s, file :: files =>
    let progress := s.processChunk file
    if progress.next then
      let rest := progress.finished.process files
      (rest.1, progress.outputs ++ rest.2)
    else
      ({ progress.state with activeZipObject := some progress.file, waiting := files },
        progress.outputs)

/-- `enqueue` -/
def enqueue (f : FileLike) : State × List Output :=
  if s.closed then
    (s, [.threw ("Cannot enqueue a chunk into a readable stream that is closed or has been " ++
      "requested to be closed")])
  else if f.entryName ∈ s.files.map ZipObject.name then (s, [.threw "File already exists."])
  else
    let zipObject := ZipObject.ofFileLike f
    let s := { s with archiveNeedsZip64 := s.archiveNeedsZip64 || f.declaresZip64 }
    match s.activeZipObject with
    | none => s.process [zipObject]
    | some _ => ({ s with waiting := s.waiting ++ [zipObject] }, [])

/-- `close` -/
def close : State × List Output :=
  if s.closed then
    (s, [.threw "Cannot close a readable stream that has already been requested to be closed"])
  else
    match s.activeZipObject with
    | none => { s with closed := true }.finish
    | some _ => ({ s with closed := true }, [])

/-- `pull` -/
def pull : State × List Output :=
  match s.stream, s.activeZipObject with
  | .readable, some file => s.process (file :: s.waiting)
  | _, _ => (s, [])

def step : Event → State × List Output
  | .enqueue f => enqueue s f
  | .close => close s
  | .pull => pull s

end System

/-- The ZIP stream. -/
def zipStream : System State Event Output where
  init := {}
  step := step

/-- What a consumer of the stream has received. -/
def received (log : List Output) : List UInt8 :=
  log.flatMap fun
    | .chunk data => data
    | .threw _ => []

end Rapidly.FileSharing.ZipStream
