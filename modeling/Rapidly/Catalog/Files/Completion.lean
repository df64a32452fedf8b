import Rapidly.Identity.Schema

/-!
# Completing an upload

`uploaded` of `catalog/file/api.py`, `complete_upload` of `catalog/file/actions.py` and
`complete_multipart_upload` of `integrations/aws/s3/actions.py`.

The route finds the file among those the caller may read; which object is completed, and whose
head is recorded on the file, is decided by the path in the body of the request. A run records
the storage calls that it makes (`StorageCall`), so that a statement can be about the objects that
a request touches. The object storage and the hash function are parameters.

* `boto3Arguments` is `get_boto3_arguments`, which fails on a part checksum that is no base64.
* `completeUpload_ok` is what a completed upload leaves behind.
* `actsOnOwnObject_iff` says which requests touch the object of the file and no other.
-/

namespace Rapidly.Catalog

open Relational

open Identity (Uuid Time)

/-! ### Base64 -/

/-- The alphabet of `base64.b64encode`. -/
def base64Alphabet : List Char :=
  "ABCDEFGHIJKLMNOPQRSTUVWXYZabcdefghijklmnopqrstuvwxyz0123456789+/".toList

/-- `binascii.a2b_base64` in its lenient mode, at a position of the quad, with the bits that are
left over and the padding seen: characters outside the alphabet are skipped, and complete padding
ends the input. -/
def a2bBase64 (quad left pads : ℕ) : List Char → Option (List UInt8)
  | [] => if quad = 0 then some [] else none
  | c :: cs =>
    if c = '=' then
      if 2 ≤ quad then
        if 4 ≤ quad + (pads + 1) then some [] else a2bBase64 quad left (pads + 1) cs
      else a2bBase64 quad left pads cs
    else
      match base64Alphabet.idxOf? c with
      | none => a2bBase64 quad left pads cs
      | some v =>
        match quad with
        | 0 => a2bBase64 1 v 0 cs
        | 1 => (a2bBase64 2 (v % 16) 0 cs).map (.ofNat (left * 4 + v / 16) :: ·)
        | 2 => (a2bBase64 3 (v % 4) 0 cs).map (.ofNat (left * 16 + v / 4) :: ·)
        | _ => (a2bBase64 0 0 0 cs).map (.ofNat (left * 64 + v) :: ·)

/-- `base64.b64decode` of a string, `none` where it raises. -/
def b64decode (s : String) : Option (List UInt8) :=
  if s.toList.all (·.toNat < 128) then a2bBase64 0 0 0 s.toList else none

/-- The characters of three bytes. -/
def base64Quad (a b c : ℕ) : List Char :=
  [a / 4, a % 4 * 16 + b / 16, b % 16 * 4 + c / 64, c % 64].map (base64Alphabet.getD · 'A')

/-- `base64.b64encode`. -/
def b64encode : List UInt8 → List Char
  | [] => []
  | [a] => (base64Quad a.toNat 0 0).take 2 ++ ['=', '=']
  | [a, b] => (base64Quad a.toNat b.toNat 0).take 3 ++ ['=']
  | a :: b :: c :: bytes => base64Quad a.toNat b.toNat c.toNat ++ b64encode bytes

example : b64decode "UmFwaWRseQ==" = some [82, 97, 112, 105, 100, 108, 121] := by decide

/-! ### Files -/

/-- `FileServiceTypes`. -/
inductive FileServiceTypes where
  | downloadable
  | productMedia
  | workspaceAvatar
deriving DecidableEq

/-- `FileScanStatus`. -/
inductive FileScanStatus where
  | pending
  | scanning
  | clean
  | infected
  | mimeMismatch
  | error
  | skipped
deriving DecidableEq

structure File where
  id : Uuid
  workspaceId : Uuid
  name : String
  path : String
  service : FileServiceTypes
  lastModifiedAt : Option Time := none
  storageVersion : Option String := none
  checksumEtag : Option String := none
  isUploaded : Bool := false
  scanStatus : Option FileScanStatus := none
  deletedAt : Option Time := none
deriving DecidableEq

/-- The settings `S3_SERVICES` is built from. -/
structure Settings where
  s3FilesBucketName : String := "rapidly-s3"
  s3FilesPublicBucketName : String := "rapidly-s3-public"

/-- The bucket of `S3_SERVICES[service]`. -/
def Settings.bucket (settings : Settings) : FileServiceTypes → String
  | .downloadable => settings.s3FilesBucketName
  | .productMedia => settings.s3FilesPublicBucketName
  | .workspaceAvatar => settings.s3FilesPublicBucketName

/-- An object is named by its bucket and its key. -/
structure ObjectName where
  bucket : String
  key : String
deriving DecidableEq

/-- The object at the stored path of a file. -/
def Settings.objectOf (settings : Settings) (file : File) : ObjectName :=
  ⟨settings.bucket file.service, file.path⟩

/-- The tables that the route reads. -/
structure Database extends Identity.Database where
  files : Table File.id := Table.empty

/-- The subject of an `AuthPrincipal[User | Workspace]`. -/
inductive Subject where
  | user (id : Uuid)
  | workspace (id : Uuid)
deriving DecidableEq

namespace Database

variable (db : Database)

/-- The condition that `get_readable_statement` adds for the subject. -/
def Reads (subject : Subject) (file : File) : Prop :=
  match subject with
  | .user id => db.MemberOf id file.workspaceId
  | .workspace id => file.workspaceId = id

instance (subject : Subject) (file : File) : Decidable (db.Reads subject file) :=
  match subject with
  | .user id => inferInstanceAs (Decidable (db.MemberOf id file.workspaceId))
  | .workspace id => inferInstanceAs (Decidable (file.workspaceId = id))

/-- `get`: the file, if it is not deleted and the subject may read it. -/
def get (subject : Subject) (id : Uuid) : Option File :=
  (db.files.get id).filter fun file => file.deletedAt = none ∧ db.Reads subject file

end Database

/-! ### Requests -/

structure S3FileUploadCompletedPart where
  number : ℤ
  checksumEtag : String
  checksumSha256Base64 : Option String := none
deriving DecidableEq

/-- `S3FileUploadCompleted`, the body of the request. -/
structure S3FileUploadCompleted where
  id : String
  path : String
  parts : List S3FileUploadCompletedPart
deriving DecidableEq

/-- An element of `Parts`. -/
structure CompletedPart where
  eTag : String
  partNumber : ℤ
  checksumSha256 : Option String := none
deriving DecidableEq

/-- The keyword arguments of `get_boto3_arguments`. -/
structure Boto3Arguments where
  uploadId : String
  parts : List CompletedPart
  checksumSha256 : Option String := none
deriving DecidableEq

/-- A value that is tested for truth: `None` and the empty string are false. -/
def truthy (s : Option String) : Option String := s.filter (· ≠ "")

/-- The element of `Parts` for a part. -/
def S3FileUploadCompletedPart.entry (part : S3FileUploadCompletedPart) : CompletedPart :=
  ⟨part.checksumEtag, part.number, truthy part.checksumSha256Base64⟩

/-- The digests of the parts that have one, `none` where `b64decode` raises. -/
def checksumDigests : List S3FileUploadCompletedPart → Option (List (List UInt8))
  | [] => some []
  | part :: parts =>
    match truthy part.checksumSha256Base64 with
    | none => checksumDigests parts
    | some checksum => do
      let digest ← b64decode checksum
      let digests ← checksumDigests parts
      return digest :: digests

/-- `generate_base64_multipart_checksum`. -/
def generateBase64MultipartChecksum (sha256 : List UInt8 → List UInt8)
    (digests : List (List UInt8)) : String :=
  String.ofList (b64encode (sha256 digests.flatten))

/-- `get_boto3_arguments`, `none` where it raises. -/
def S3FileUploadCompleted.boto3Arguments (sha256 : List UInt8 → List UInt8)
    (data : S3FileUploadCompleted) : Option Boto3Arguments := do
  let digests ← checksumDigests data.parts
  let entries := data.parts.map S3FileUploadCompletedPart.entry
  if digests = [] then return ⟨data.id, entries, none⟩
  return ⟨data.id, entries, some (generateBase64MultipartChecksum sha256 digests)⟩

/-! ### The object storage -/

/-- The parts of the answer to `head_object` that are read. -/
structure Head where
  metadata : List (String × String) := []
  contentType : Option String := none
  versionId : Option String := none
  eTag : Option String := none
  lastModified : Option Time := none
deriving DecidableEq

/-- The object storage, as the client sees it. An answer of `complete_multipart_upload` is its
`VersionId`; it may be missing, and so may the answer. -/
structure ObjectStorage (σ : Type*) where
  completeMultipartUpload :
    σ → ObjectName → Boto3Arguments → Except String (Option (Option String)) × σ
  headObject : σ → ObjectName → String → Except String Head

/-- Validation of the fields of `S3File`, which is Pydantic's. -/
structure Validation where
  uuid4 : String → Option Uuid
  integer : String → Option ℤ

/-- `S3File`, in the fields that the validation of the metadata and `complete_upload` are about. -/
structure S3File where
  id : Uuid
  workspaceId : Uuid
  name : String
  path : String
  mimeType : String
  size : ℤ
  storageVersion : Option String
  checksumEtag : Option String
  lastModifiedAt : Option Time
deriving DecidableEq

/-- How the route fails. -/
inductive FileError where
  | resourceNotFound
  /-- `binascii.Error`, or `ValueError` for a string that is not ASCII. -/
  | base64Error
  | clientError (code : String)
  | s3FileError (message : String)
  | keyError (key : String)
  | validationError
  | valueError (message : String)
deriving DecidableEq

/-- `S3File.from_head`. -/
def S3File.fromHead (validation : Validation) (path : String) (head : Head) :
    Except FileError S3File :=
  match head.contentType with
  | none => .error (.keyError "ContentType")
  | some contentType =>
    match (head.metadata.lookup "rapidly-id").bind validation.uuid4,
      (head.metadata.lookup "rapidly-workspace-id").bind validation.uuid4,
      head.metadata.lookup "rapidly-name",
      (head.metadata.lookup "rapidly-size").bind validation.integer with
    | some id, some workspaceId, some name, some size =>
      .ok { id, workspaceId, name, path, mimeType := contentType, size
            storageVersion := head.versionId, checksumEtag := head.eTag
            lastModifiedAt := head.lastModified }
    | _, _, _, _ => .error .validationError

/-- A call to the storage. -/
inductive StorageCall where
  /-- `complete_multipart_upload`, which the storage accepts or refuses with an error. -/
  | complete (object : ObjectName) (accepted : Bool)
  | head (object : ObjectName)
deriving DecidableEq

/-- The object that a call changes or reads; a completion that is refused does neither. -/
def StorageCall.touched : StorageCall → Option ObjectName
  | .complete object accepted => if accepted then some object else none
  | .head object => some object

/-- What a run ends with: the storage, the calls made to it, and a value or an exception. -/
structure Run (σ α : Type*) where
  storage : σ
  calls : List StorageCall
  result : Except FileError α

/-! ### The run of a request -/

section Run

variable {σ : Type*} (storage : ObjectStorage σ) (validation : Validation)
  (sha256 : List UInt8 → List UInt8) (settings : Settings)

/-- `complete_multipart_upload` of the service with a bucket. -/
def completeMultipartUpload (s : σ) (bucket : String) (data : S3FileUploadCompleted) :
    Run σ S3File :=
  match data.boto3Arguments sha256 with
  | none => ⟨s, [], .error .base64Error⟩
  | some arguments =>
    let object : ObjectName := ⟨bucket, data.path⟩
    match storage.completeMultipartUpload s object arguments with
    | (.error code, s') => ⟨s', [.complete object false], .error (.clientError code)⟩
    | (.ok none, s') =>
      ⟨s', [.complete object true], .error (.s3FileError "No response from S3")⟩
    | (.ok (some versionId), s') =>
      let calls := [.complete object true, .head object]
      match storage.headObject s' object (versionId.getD "") with
      | .error _ => ⟨s', calls, .error (.s3FileError "No metadata from S3")⟩
      | .ok head => ⟨s', calls, S3File.fromHead validation data.path head⟩

/-- The fields of a file that `complete_upload` sets. -/
def File.complete (file : File) (result : S3File) : File :=
  { file with
    isUploaded := true
    checksumEtag := (truthy result.checksumEtag).or file.checksumEtag
    lastModifiedAt := result.lastModifiedAt.or file.lastModifiedAt
    storageVersion := (truthy result.storageVersion).or file.storageVersion
    scanStatus := some .pending }

/-- The checks on the file after the flush; a file that passes is queued for its scan. -/
def File.checkCompleted (file : File) : Except FileError File :=
  if file.checksumEtag = none then
    .error (.valueError "file.checksum_etag must not be None after upload completion")
  else if file.lastModifiedAt = none then
    .error (.valueError "file.last_modified_at must not be None after upload completion")
  else .ok file

/-- `complete_upload`. -/
def completeUpload (s : σ) (file : File) (completedSchema : S3FileUploadCompleted) :
    Run σ File :=
  let run := completeMultipartUpload storage validation sha256 s
    (settings.bucket file.service) completedSchema
  { run with result := run.result.bind fun result => (file.complete result).checkCompleted }

/-- The route `uploaded`. -/
def uploaded (s : σ) (db : Database) (subject : Subject) (id : Uuid)
    (completedSchema : S3FileUploadCompleted) : Run σ File :=
  match db.get subject id with
  | none => ⟨s, [], .error .resourceNotFound⟩
  | some found => completeUpload storage validation sha256 settings s found completedSchema

/-! ### The objects that a request touches -/

/-- A run touches the object of the file and no other, and what it records on the file is from the
head of that object. -/
structure TouchesOwnObject (file : File) (run : Run σ File) : Prop where
  touched : ∀ call ∈ run.calls, ∀ object ∈ call.touched, object = settings.objectOf file
  recorded : ∀ file', run.result = .ok file' → ∃ versionId head result,
    storage.headObject run.storage (settings.objectOf file) versionId = .ok head ∧
      S3File.fromHead validation file.path head = .ok result ∧ file' = file.complete result

/-- The storage accepts the completion that a body asks for, at the path of the body. -/
def Accepts (s : σ) (bucket : String) (body : S3FileUploadCompleted) : Prop :=
  ∃ arguments version s', body.boto3Arguments sha256 = some arguments ∧
    storage.completeMultipartUpload s ⟨bucket, body.path⟩ arguments = (.ok version, s')

variable {storage validation sha256 settings}

variable {s : σ} {file : File} {body : S3FileUploadCompleted}

theorem TouchesOwnObject.spares_others {run : Run σ File}
    (h : TouchesOwnObject storage validation settings file run) {other : File}
    (hne : settings.objectOf other ≠ settings.objectOf file) :
    ∀ call ∈ run.calls, settings.objectOf other ∉ call.touched := by
  intro call hcall hmem
  exact hne (h.touched call hcall _ hmem)

/-- **What a completion can do**: it touches nothing and fails, or it completes the object at the
path of the body and fails, or it returns what the head of that object says. -/
theorem completeMultipartUpload_cases {bucket : String} :
    let run := completeMultipartUpload storage validation sha256 s bucket body
    (¬ Accepts storage sha256 s bucket body ∧ (∀ call ∈ run.calls, call.touched = none) ∧
        ∃ e, run.result = .error e) ∨
      (Accepts storage sha256 s bucket body ∧
        .complete ⟨bucket, body.path⟩ true ∈ run.calls ∧
        (∀ call ∈ run.calls, call.touched = some ⟨bucket, body.path⟩) ∧
        ((∃ e, run.result = .error e) ∨ ∃ versionId head,
          storage.headObject run.storage ⟨bucket, body.path⟩ versionId = .ok head ∧
            run.result = S3File.fromHead validation body.path head)) := by
  intro run
  cases hargs : body.boto3Arguments sha256 with
  | none =>
    have hrun : run = ⟨s, [], .error .base64Error⟩ := by
      simp only [run, completeMultipartUpload, hargs]
    have hrefused : ¬ Accepts storage sha256 s bucket body := by
      rintro ⟨arguments, version, s', hsome, -⟩
      exact absurd (hargs.symm.trans hsome) nofun
    rw [hrun]
    exact .inl ⟨hrefused, fun _ hcall => absurd hcall List.not_mem_nil, _, rfl⟩
  | some arguments =>
    rcases hcomplete : storage.completeMultipartUpload s ⟨bucket, body.path⟩ arguments with
      ⟨code | version | versionId, s'⟩
    · -- the storage refuses the parts
      have hrun : run = ⟨s', [.complete ⟨bucket, body.path⟩ false],
          .error (.clientError code)⟩ := by
        simp only [run, completeMultipartUpload, hargs, hcomplete]
      have hrefused : ¬ Accepts storage sha256 s bucket body := by
        rintro ⟨arguments', version, s'', hsome, haccepted⟩
        obtain rfl : arguments = arguments' := Option.some.inj (hargs.symm.trans hsome)
        rw [hcomplete] at haccepted
        exact absurd (congrArg Prod.fst haccepted) nofun
      rw [hrun]
      refine .inl ⟨hrefused, fun call hcall => ?_, _, rfl⟩
      rw [List.mem_singleton.mp hcall]
      rfl
    · -- it accepts them, but does not say which version they became
      have hrun : run = ⟨s', [.complete ⟨bucket, body.path⟩ true],
          .error (.s3FileError "No response from S3")⟩ := by
        simp only [run, completeMultipartUpload, hargs, hcomplete]
      rw [hrun]
      refine .inr ⟨⟨arguments, none, s', hargs, hcomplete⟩, List.mem_singleton.mpr rfl,
        fun call hcall => ?_, .inl ⟨_, rfl⟩⟩
      rw [List.mem_singleton.mp hcall]
      rfl
    · -- the metadata of the version is asked for
      have haccepts : Accepts storage sha256 s bucket body :=
        ⟨arguments, some versionId, s', hargs, hcomplete⟩
      have hcalls : run.calls =
          [.complete ⟨bucket, body.path⟩ true, .head ⟨bucket, body.path⟩] := by
        simp only [run, completeMultipartUpload, hargs, hcomplete]
        split <;> rfl
      have hstorage : run.storage = s' := by
        simp only [run, completeMultipartUpload, hargs, hcomplete]
        split <;> rfl
      refine .inr ⟨haccepts, hcalls ▸ List.mem_cons_self, fun call hcall => ?_, ?_⟩
      · rw [hcalls] at hcall
        obtain rfl | hcall := List.mem_cons.mp hcall
        · rfl
        · rw [List.mem_singleton.mp hcall]
          rfl
      · rw [hstorage]
        cases hhead : storage.headObject s' ⟨bucket, body.path⟩ (versionId.getD "") with
        | error code =>
          refine .inl ⟨.s3FileError "No metadata from S3", ?_⟩
          simp only [run, completeMultipartUpload, hargs, hcomplete, hhead]
        | ok head =>
          refine .inr ⟨versionId.getD "", head, hhead, ?_⟩
          simp only [run, completeMultipartUpload, hargs, hcomplete, hhead]

/-- **A completed upload** is the file with what the service returned; its entity tag and its
modification time are known. -/
theorem completeUpload_ok {file' : File}
    (h : (completeUpload storage validation sha256 settings s file body).result = .ok file') :
    ∃ result, (completeMultipartUpload storage validation sha256 s (settings.bucket file.service)
        body).result = .ok result ∧ file' = file.complete result ∧
      file'.checksumEtag ≠ none ∧ file'.lastModifiedAt ≠ none := by
  rw [completeUpload] at h
  cases hresult : (completeMultipartUpload storage validation sha256 s
      (settings.bucket file.service) body).result with
  | error e =>
    rw [hresult] at h
    exact absurd h nofun
  | ok result =>
    rw [hresult] at h
    change (file.complete result).checkCompleted = .ok file' at h
    rw [File.checkCompleted] at h
    split at h
    · exact absurd h nofun
    · next hetag =>
      split at h
      · exact absurd h nofun
      · next hmodified =>
        have heq : file.complete result = file' := Except.ok.inj h
        subst heq
        exact ⟨result, rfl, rfl, hetag, hmodified⟩

/-- A completion keeps to the object of the file exactly if the path in the body is the path of the
file, or nothing is completed. -/
theorem completeUpload_touchesOwnObject_iff :
    TouchesOwnObject storage validation settings file
        (completeUpload storage validation sha256 settings s file body) ↔
      body.path = file.path ∨ ¬ Accepts storage sha256 s (settings.bucket file.service) body := by
  obtain ⟨hrefused, huntouched, e, herror⟩ | ⟨haccepts, hcompleted, htouched, hresult⟩ :=
    @completeMultipartUpload_cases _ storage validation sha256 s body (settings.bucket file.service)
  · refine iff_of_true ⟨?_, ?_⟩ (.inr hrefused)
    · intro call hcall object hmem
      rw [huntouched call hcall] at hmem
      exact absurd hmem (Option.not_mem_none _)
    · intro file' hok
      obtain ⟨result, hresult, -⟩ := completeUpload_ok hok
      exact absurd (herror.symm.trans hresult) nofun
  · constructor
    · intro h
      have hobject := h.touched _ hcompleted _ rfl
      exact .inl (congrArg ObjectName.key hobject)
    · intro h
      have hpath : body.path = file.path := h.resolve_right (not_not_intro haccepts)
      have hobject : (⟨settings.bucket file.service, body.path⟩ : ObjectName) =
          settings.objectOf file := by rw [hpath, Settings.objectOf]
      rw [hobject] at htouched hresult
      constructor
      · intro call hcall object hmem
        rw [htouched call hcall] at hmem
        exact (Option.mem_some_iff.mp hmem).symm
      · intro file' hok
        obtain ⟨result, hresult', hfile, -⟩ := completeUpload_ok hok
        obtain ⟨e, herror⟩ | ⟨versionId, head, hhead, hfrom⟩ := hresult
        · exact absurd (herror.symm.trans hresult') nofun
        · rw [hpath] at hfrom
          exact ⟨versionId, head, result, hhead, hfrom.symm.trans hresult', hfile⟩

/-! ### The requests of all callers -/

variable (storage validation sha256 settings)

/-- A request acts on the object of the file that the caller may complete, and on nothing if there
is no such file; it touches no object of another file. -/
def ActsOnOwnObject (s : σ) (db : Database) (subject : Subject) (id : Uuid)
    (body : S3FileUploadCompleted) : Prop :=
  let run := uploaded storage validation sha256 settings s db subject id body
  (db.get subject id = none → run.calls = []) ∧
    ∀ file, db.get subject id = some file →
      TouchesOwnObject storage validation settings file run ∧
        ∀ other ∈ db.files, settings.objectOf other ≠ settings.objectOf file →
          ∀ call ∈ run.calls, settings.objectOf other ∉ call.touched

/-- **Objects that requests touch.** A request acts on the object of its file exactly if the caller
may not complete the file, or the path of the body is the path of the file, or nothing is completed
at the path of the body. -/
theorem actsOnOwnObject_iff (s : σ) (db : Database) (subject : Subject) (id : Uuid)
    (body : S3FileUploadCompleted) :
    ActsOnOwnObject storage validation sha256 settings s db subject id body ↔
      ∀ file, db.get subject id = some file → body.path = file.path ∨
        ¬ Accepts storage sha256 s (settings.bucket file.service) body := by
  unfold ActsOnOwnObject uploaded
  cases hget : db.get subject id with
  | none =>
    have hnone : ∀ file, (none : Option File) ≠ some file := fun file => by simp
    exact ⟨fun _ file h => absurd h (hnone file),
      fun _ => ⟨fun _ => rfl, fun file h => absurd h (hnone file)⟩⟩
  | some found =>
    constructor
    · rintro ⟨-, h⟩ file hfile
      obtain rfl : found = file := Option.some.inj hfile
      exact completeUpload_touchesOwnObject_iff.mp (h found rfl).1
    · intro h
      refine ⟨nofun, fun file hfile => ?_⟩
      obtain rfl : found = file := Option.some.inj hfile
      have hown : TouchesOwnObject storage validation settings found
          (completeUpload storage validation sha256 settings s found body) :=
        completeUpload_touchesOwnObject_iff.mpr (h found rfl)
      exact ⟨hown, fun other _ hne => hown.spares_others hne⟩

end Run

/-! ### An upload of another workspace -/

/-- A storage that keeps open uploads with the heads their objects will have, and the objects. -/
structure Shelf where
  uploads : List (ObjectName × String × Head)
  objects : List (ObjectName × Head)
deriving DecidableEq

/-- Completion closes the upload with the name and the identifier, and puts its object up. -/
def shelfStorage : ObjectStorage Shelf where
  completeMultipartUpload s object arguments :=
    match s.uploads.find? fun u => u.1 = object ∧ u.2.1 = arguments.uploadId with
    | none => (.error "NoSuchUpload", s)
    | some upload =>
      (.ok (some upload.2.2.versionId),
        ⟨s.uploads.erase upload, (object, upload.2.2) :: s.objects⟩)
  headObject s object _ :=
    match s.objects.lookup object with
    | none => .error "404"
    | some head => .ok head

namespace Foreign

/-- The caller's file, in the workspace 1. -/
def ownFile : File :=
  { id := 11, workspaceId := 1, name := "a.bin", path := "downloadable/1/11/a.bin"
    service := .downloadable }

/-- A file of the workspace 2, whose upload is open. -/
def foreignFile : File :=
  { id := 12, workspaceId := 2, name := "b.bin", path := "downloadable/2/12/b.bin"
    service := .downloadable }

def db : Database where
  toDatabase := Identity.Database.empty
  files := .mk [ownFile, foreignFile] (by decide)

def foreignHead : Head :=
  { metadata := [("rapidly-id", "12"), ("rapidly-workspace-id", "2"), ("rapidly-name", "b.bin"),
      ("rapidly-size", "5")]
    contentType := some "application/octet-stream", eTag := some "e2", lastModified := some 7 }

def shelf : Shelf := ⟨[(⟨"rapidly-s3", foreignFile.path⟩, "upload-2", foreignHead)], []⟩

def validation : Validation where
  uuid4 s := List.lookup s [("11", 11), ("12", 12), ("1", 1), ("2", 2)]
  integer s := List.lookup s [("5", 5)]

/-- The body names the upload of the other workspace. -/
def body : S3FileUploadCompleted :=
  { id := "upload-2", path := foreignFile.path, parts := [⟨1, "e2", none⟩] }

end Foreign

/-- The workspace 1 completes its own file with a body that names the upload of the workspace 2: the
object of that workspace is completed. -/
theorem not_actsOnOwnObject :
    ¬ ActsOnOwnObject shelfStorage Foreign.validation id {} Foreign.shelf Foreign.db
      (.workspace 1) 11 Foreign.body := by
  intro h
  have hget : Foreign.db.get (.workspace 1) 11 = some Foreign.ownFile := by decide
  have hcall : .complete (Settings.objectOf {} Foreign.foreignFile) true ∈
      (uploaded shelfStorage Foreign.validation id {} Foreign.shelf Foreign.db (.workspace 1) 11
        Foreign.body).calls := by decide
  have hobject := (h.2 _ hget).1.touched _ hcall _ rfl
  exact absurd hobject (by decide)

end Rapidly.Catalog
