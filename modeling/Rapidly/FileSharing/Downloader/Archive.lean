import Mathlib.Data.List.Nodup
import Rapidly.Fallible.Traversal
import Rapidly.FileSharing.Downloader.Handler
import Rapidly.FileSharing.Filename
import Rapidly.FileSharing.ZipStream.Layout

/-!
# The archive of a download

A download of several files is written as one ZIP stream (`streamDownloadMultipleFiles`), whose
writer refuses a second entry of the same name. The list of files was checked before that: by the
schema of `Info` messages (`parseInfo`), which rewrites the names, and by the handler, which
refuses lists in which a name is there twice (`infoFailure`). The writer removes white space from
both ends of a name before it compares it, which neither of the two does.

* `archives_iff` is the exact condition on the names of a list that was accepted.
-/

namespace Rapidly.FileSharing

/-! ### Enqueueing a list -/

namespace ZipStream

open Transition

/-- Every call of `enqueue` returns. -/
def Archives (files : List FileLike) : Prop :=
  ∀ message, Output.threw message ∉ zipStream.log (files.map .enqueue)

section Enqueue

variable {s : State} {f : FileLike} {fs : List FileLike} {zs : List ZipObject}

theorem threw_notMem_process (message : String) : Output.threw message ∉ (s.process zs).2 := by
  induction zs generalizing s with
  | nil =>
    rw [process_nil]
    split
    · intro hmem
      obtain ⟨data, -, hdata⟩ := List.mem_map.mp hmem
      exact Output.noConfusion hdata
    · exact List.not_mem_nil
  | cons z zs ih =>
    have hchunk : Output.threw message ∉ (s.processChunk z).outputs := by
      unfold State.processChunk State.pump State.writeHeader State.writeFooter
      repeat' split
      all_goals simp
    cases hnext : (s.processChunk z).next with
    | true =>
      rw [process_of_next hnext]
      intro hmem
      obtain hmem | hmem := List.mem_append.mp hmem
      · exact hchunk hmem
      · exact ih hmem
    | false =>
      rw [process_of_not_next hnext]
      exact hchunk

theorem accepts_iff : s.Accepts f ↔ ∀ message, Output.threw message ∉ (enqueue s f).2 := by
  constructor
  · intro h message
    cases hactive : s.activeZipObject with
    | none =>
      rw [enqueue_of_none h hactive]
      exact threw_notMem_process message
    | some z =>
      rw [enqueue_of_some h hactive]
      exact List.not_mem_nil
  · intro h
    by_contra hrefused
    obtain ⟨message, hthrew⟩ := enqueue_of_not_accepts hrefused
    have hnone := h message
    rw [hthrew] at hnone
    exact hnone (List.mem_singleton_self _)

theorem closed_enqueue : (enqueue s f).1.closed = s.closed := by
  by_cases h : s.Accepts f
  · cases hactive : s.activeZipObject with
    | none =>
      rw [enqueue_of_none h hactive, process_closed]
      rfl
    | some z =>
      rw [enqueue_of_some h hactive]
      rfl
  · obtain ⟨message, hsame⟩ := enqueue_of_not_accepts h
    rw [hsame]

/-- **A list is enqueued** if no name comes twice, once white space is removed. -/
theorem archives_iff_nodup : Archives fs ↔ (fs.map FileLike.entryName).Nodup := by
  -- as long as nothing is refused, the archive is open and has the names of the list
  suffices h : (Archives fs ↔ (fs.map FileLike.entryName).Nodup) ∧ (Archives fs →
      (zipStream.after (fs.map .enqueue)).closed = false ∧
        (zipStream.after (fs.map .enqueue)).files.map ZipObject.name =
          fs.map FileLike.entryName) from h.1
  induction fs using List.reverseRecOn with
  | nil =>
    refine ⟨iff_of_true (fun _ => List.not_mem_nil) List.nodup_nil, fun _ => ⟨rfl, rfl⟩⟩
  | append_singleton fs f ih =>
    obtain ⟨hiff, hstate⟩ := ih
    have hlog : zipStream.log ((fs ++ [f]).map .enqueue) = zipStream.log (fs.map .enqueue) ++
        (enqueue (zipStream.after (fs.map .enqueue)) f).2 := by
      rw [List.map_append, List.map_singleton, System.log_snoc]
      rfl
    have hafter : zipStream.after ((fs ++ [f]).map .enqueue) =
        (enqueue (zipStream.after (fs.map .enqueue)) f).1 := by
      rw [List.map_append, List.map_singleton, System.after_snoc]
      rfl
    have hsplit : Archives (fs ++ [f]) ↔
        Archives fs ∧ (zipStream.after (fs.map .enqueue)).Accepts f := by
      rw [Archives, hlog, accepts_iff]
      simp only [List.mem_append, not_or, forall_and]
      rfl
    constructor
    · have hnodup : ((fs ++ [f]).map FileLike.entryName).Nodup ↔
          (fs.map FileLike.entryName).Nodup ∧ f.entryName ∉ fs.map FileLike.entryName := by
        rw [List.map_append, List.map_singleton, ← List.concat_eq_append, List.nodup_concat]
        exact And.comm
      rw [hsplit, hnodup, ← hiff]
      refine and_congr_right fun hfs => ?_
      obtain ⟨hopen, hnames⟩ := hstate hfs
      rw [State.Accepts, hopen, hnames]
      exact and_iff_right rfl
    · intro harchives
      obtain ⟨hfs, haccepts⟩ := hsplit.mp harchives
      obtain ⟨hopen, hnames⟩ := hstate hfs
      rw [hafter, closed_enqueue]
      refine ⟨hopen, ?_⟩
      rw [map_files_enqueue (fun _ _ => processChunk_file.2) (orderly_after _) haccepts, hnames,
        List.map_append]
      rfl

end Enqueue

end ZipStream

namespace Downloader

open ZipStream (FileLike Source trim Archives)

/-! ### The schema of file lists -/

/-- The length of a string in UTF-16 code units. -/
def unitLength (text : List Char) : ℕ :=
  (text.map fun c => if c.toNat < 0x10000 then 1 else 2).sum

/-- A path separator. -/
def isSeparator (c : Char) : Bool := c = '/' || c = '\\'

/-- `name.split(/[/\\]/)` -/
def pathComponents (name : String) : List (List Char) := name.toList.splitOnP isSeparator

/-- `safeFileName`: `PATH_TRAVERSAL_PATTERNS` finds two dots that are a whole component. -/
def safeFileName (name : String) : Option String :=
  if name.toList ≠ [] ∧ unitLength name.toList ≤ 4096 ∧ ['.', '.'] ∉ pathComponents name ∧
      (name.toList.all fun c => 0x20 ≤ c.toNat) ∧ name.toList.head?.all (!isSeparator ·) ∧
      (∀ seg ∈ pathComponents name, unitLength seg ≤ 255) then
    some (sanitizeFileName name)
  else none

/-- A SHA-256 hex digest. -/
def isHexDigest (text : String) : Bool :=
  text.length = 64 && text.toList.all fun c => c.isDigit || ('a' ≤ c && c ≤ 'f')

/-- An entry of the list of files. -/
def parseFile (raw : FileInfo) : Option FileInfo :=
  if 0 ≤ raw.size ∧ unitLength raw.type.toList ≤ 255 ∧ raw.sha256.all isHexDigest ∧
      raw.commitment.all isHexDigest then
    (safeFileName raw.fileName).map fun fileName => { raw with fileName }
  else none

/-- `InfoMessage` -/
def parseInfo (payload : InfoPayload) : Option InfoPayload :=
  if 1 ≤ payload.files.length ∧ payload.files.length ≤ 65535 then
    (payload.files.mapM parseFile).map fun files => { payload with files }
  else none

/-- A list of files as it was sent is accepted as this one. -/
def Accepts (payload info : InfoPayload) : Prop :=
  parseInfo payload = some info ∧ infoFailure info.files = none

/-! ### The archive -/

/-- `name.replace(/^\//, '')` -/
def withoutSlash (name : String) : String :=
  match name.toList with
  | '/' :: rest => String.ofList rest
  | _ => name

/-- `downloads`, with the streams of the files. -/
def downloads (files : List FileInfo) (fileStreams : ℕ → Source) : List FileLike :=
  files.zipIdx.map fun (info, i) =>
    { name := withoutSlash info.fileName
      size := some info.size.floor.toNat
      stream := some (fileStreams i) }

/-! ### Accepted names -/

section Names

variable {payload info : InfoPayload} {name safe : String}

/-- A name that does not begin with a separator does not do so when it is made safe. -/
theorem head?_sanitizeFileName {c : Char} {cs : List Char} (hname : name.toList = c :: cs)
    (hc : isSeparator c = false) : (sanitizeFileName name).toList.head? ≠ some '/' := by
  have hne : c ≠ '/' ∧ c ≠ '\\' := by
    rw [isSeparator, Bool.or_eq_false_iff, decide_eq_false_iff_not, decide_eq_false_iff_not] at hc
    exact hc
  rw [sanitizeFileName, hname, String.toList_ofList, List.map_cons, if_neg hne.2, List.map_cons]
  -- the first character of the first segment is not a slash
  obtain ⟨d, hd, hreplaced⟩ : ∃ d, d ≠ '/' ∧
      (if c ∈ windowsUnsafeChars then '_' else c) = d := by
    refine ⟨_, ?_, rfl⟩
    split
    · decide
    · exact hne.1
  have hbeq : (d == '/') = false := beq_eq_false_iff_ne.mpr hd
  rw [hreplaced, List.splitOn_cons_eq_if_modifyHead, hbeq, if_neg Bool.false_ne_true]
  cases hsegments : List.splitOn '/' ((cs.map fun c => if c = '\\' then '/' else c).map fun c =>
      if c ∈ windowsUnsafeChars then '_' else c) with
  | nil => exact absurd hsegments (List.splitOn_ne_nil _ _)
  | cons seg segs =>
    have hhead (x : Char) (xs : List Char) (rest : List (List Char)) :
        (['/'].intercalate ((x :: xs) :: rest)).head? = some x := by
      cases rest <;> rfl
    rw [List.modifyHead_cons, List.map_cons]
    split
    · rw [hhead]
      decide
    · rw [hhead]
      exact fun hslash => hd (Option.some.inj hslash)

/-- **An accepted name** is the name of its download. -/
theorem withoutSlash_of_safeFileName (h : safeFileName name = some safe) :
    withoutSlash safe = safe := by
  rw [safeFileName] at h
  split at h
  next hsafe =>
    obtain ⟨hne, -, -, -, hhead, -⟩ := hsafe
    obtain ⟨c, cs, hname⟩ := List.exists_cons_of_ne_nil hne
    rw [hname, List.head?_cons, Option.all_some, Bool.not_eq_true'] at hhead
    have hslash := head?_sanitizeFileName hname hhead
    rw [← Option.some.inj h, withoutSlash]
    split
    next rest hrest =>
      rw [hrest] at hslash
      exact absurd rfl hslash
    · rfl
  · exact absurd h.symm (Option.some_ne_none _)

theorem exists_of_mem_files (h : parseInfo payload = some info) {f : FileInfo}
    (hf : f ∈ info.files) : ∃ raw ∈ payload.files, safeFileName raw.fileName = some f.fileName := by
  rw [parseInfo] at h
  split at h
  · obtain ⟨files, hfiles, rfl⟩ := Option.map_eq_some_iff.mp h
    obtain ⟨raw, hmem, hraw⟩ := Fallible.exists_of_mem_mapM hfiles f hf
    rw [parseFile] at hraw
    split at hraw
    · obtain ⟨fileName, hname, rfl⟩ := Option.map_eq_some_iff.mp hraw
      exact ⟨raw, hmem, hname⟩
    · exact absurd hraw.symm (Option.some_ne_none _)
  · exact absurd h.symm (Option.some_ne_none _)

theorem withoutSlash_of_parseInfo (h : parseInfo payload = some info) :
    ∀ f ∈ info.files, withoutSlash f.fileName = f.fileName := by
  intro f hf
  obtain ⟨raw, -, hname⟩ := exists_of_mem_files h hf
  exact withoutSlash_of_safeFileName hname

theorem map_entryName_downloads (fileStreams : ℕ → Source) {files : List FileInfo}
    (h : ∀ f ∈ files, withoutSlash f.fileName = f.fileName) :
    (downloads files fileStreams).map FileLike.entryName =
      files.map fun f => trim f.fileName := by
  have hname (info : FileInfo) (i : ℕ) : FileLike.entryName
      { name := withoutSlash info.fileName, size := some info.size.floor.toNat
        stream := some (fileStreams i) } = trim (withoutSlash info.fileName) := by
    rw [FileLike.entryName]
    exact if_neg fun hdirectory => Bool.false_ne_true hdirectory.1
  have hfiles : files.map (fun f => trim f.fileName) =
      files.map fun f => trim (withoutSlash f.fileName) :=
    List.map_congr_left fun f hf => by rw [h f hf]
  rw [downloads, List.map_map, hfiles]
  conv_rhs => rw [← List.zipIdx_map_fst 0 files, List.map_map]
  refine List.map_congr_left fun entry _ => ?_
  exact hname entry.1 entry.2

end Names

/-- **The archive of an accepted list** is made without an exception exactly if no two names become
the same when white space is removed from their ends. -/
theorem archives_iff {payload info : InfoPayload} (h : Accepts payload info)
    (fileStreams : ℕ → Source) :
    Archives (downloads info.files fileStreams) ↔
      (info.files.map fun f => trim f.fileName).Nodup := by
  rw [ZipStream.archives_iff_nodup,
    map_entryName_downloads fileStreams (withoutSlash_of_parseInfo h.1)]

/-- A list of two files of these names. -/
def twoFiles (a b : String) : InfoPayload where
  files := [{ fileName := a, size := 1, type := "" }, { fileName := b, size := 1, type := "" }]

theorem archives_twoFiles : Archives (downloads (twoFiles "a" "b").files fun _ => {}) :=
  (@archives_iff (twoFiles "a" "b") (twoFiles "a" "b") ⟨by decide +kernel, by decide +kernel⟩
    fun _ => {}).mpr (by decide +kernel)

/-- Two names that differ in a blank in front only are accepted, but can not be archived. -/
theorem blankInFront_refused : ¬∀ (payload info : InfoPayload), Accepts payload info →
    ∀ fileStreams : ℕ → Source, Archives (downloads info.files fileStreams) := by
  intro h
  have harchives := h (twoFiles "a" " a") (twoFiles "a" " a")
    ⟨by decide +kernel, by decide +kernel⟩ fun _ => {}
  exact harchives "File already exists." (by decide +kernel)

end Downloader

end Rapidly.FileSharing
