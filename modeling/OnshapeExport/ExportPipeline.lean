import OnshapeExport.Lib.ContentStore
import OnshapeExport.Postprocessing
import OnshapeExport.Translations

/-!
# ExportPipeline

The calls of `refresh_preview` and `refresh_download` of `main.rs`: the payload of a request is
fetched as in `Translations`, its bytes are read back and checked, and the files that are taken out
of them are recorded, uploaded and marked ready as in `Publication`. Any number of calls take their
steps in any order, next to the operator's supersessions and to what others do to the bucket.

* `Refresh` — one call, with what it publishes of a payload.
* `publishStep`, `work` — the next step of a call: one statement, or one request to the storage.
* `step` — one operation of the whole service.
* `publishStep_publishes` — a step of an upload is a statement of an attempt of `Publication`.
-/

namespace OnshapeExport
namespace Pipeline

open Artifacts CacheKey CacheModel Checks ContentStore Encoding Exports ExportQueue Json
open Postprocess Preview Publishing Relational Translations
open Catalogs (Model)

/-! ## The service -/

/-- What the service is given: the readers of texts and archives, and the hashes. -/
structure Setup where
  text : JsonText
  digests : Digests
  hexSha256 : ByteArray → String
  fromSlice : ByteArray → Option Value
  unzip : ByteArray → Except Failure (List ZipEntry)
  hashes : ExportHashes
  artifactSetHash : ArtifactSetIdentity → String
  microversion : String → String → String
  apiHostClass : String

structure StoredObject where
  bytes : ByteArray
  contentType : String
deriving DecidableEq

abbrev Bucket := Store String StoredObject

/-- How a write to the bucket ends. The object of a write that fails may be written. -/
inductive PutReply where
  | stored
  | failed (written : Bool) (error : String)

def PutReply.written : PutReply → Bool
  | .stored => true
  | .failed written _ => written

def PutReply.result : PutReply → Except String Unit
  | .stored => .ok ()
  | .failed _ error => .error error

/-- What is answered in a step. A step takes the answers it asks for. -/
structure Replies where
  now : Timestamp
  start : Except String Value
  polls : List (Except String Value)
  download : Except String DownloadedExternalData
  put : PutReply
  /-- Whether an object is read, and whether its content type comes with it. -/
  get : Except String Bool

def Replies.answers (r : Replies) : Answers := ⟨r.start, r.polls, r.download, r.put.result⟩

def putBytes (put : PutReply) (key : String) (object : StoredObject) (bucket : Bucket) : Bucket :=
  if put.written then bucket.put key object else bucket

def getBytes (get : Except String Bool) (key : String) (bucket : Bucket) :
    Except String (StoredObject × Bool) := do
  let typed ← get
  match bucket key with
  | none => throw "NoSuchKey"
  | some object => return (object, typed)

/-! ## Payloads -/

def bytesOf (bytes : List UInt8) : ByteArray := ⟨bytes.toArray⟩

def Setup.zipInventoryJson (c : Setup) (bytes : ByteArray) : Except String (Option String) :=
  match zipInventory c.unzip bytes with
  | .error _ => .error "inspecting raw payload ZIP inventory"
  | .ok files => .ok (files.map fun files => c.text.print (.array (files.map
      fun (path, byteLen) =>
        .object [("path", .string path), ("byteLen", .number (.int byteLen))])))

def Setup.inspection (c : Setup) : Inspection where
  hexSha256 bytes := c.hexSha256 (bytesOf bytes)
  detectKind bytes := detectRawPayloadKind c.fromSlice (bytesOf bytes)
  zipInventory bytes := c.zipInventoryJson (bytesOf bytes)

def payloadObject (d : DownloadedExternalData) : StoredObject :=
  ⟨bytesOf d.bytes, d.contentType.getD "application/octet-stream"⟩

def verifyRawPayloadBytes (c : Setup) (rawPayloadHash : String) (bytes : ByteArray) :
    Except String Unit :=
  ensure (c.hexSha256 bytes = rawPayloadHash) ("raw payload bytes sha256 mismatch: expected " ++
    rawPayloadHash ++ ", got " ++ c.hexSha256 bytes)

/-! ## Uploads -/

def strictUploadVerification : Bool := false

def verifyUploadedObjectMetadata (object : StoredObject) (typed : Bool)
    (objectKey expectedContentType : String) (expectedLen : Nat) : Except String Unit := do
  ensure (object.bytes.size = expectedLen) ("uploaded object length mismatch for " ++ objectKey ++
    ": expected " ++ toString expectedLen ++ ", got " ++ toString object.bytes.size)
  ensure (typed = true → object.contentType = expectedContentType)
    ("uploaded object content type mismatch for " ++ objectKey ++ ": expected " ++
      expectedContentType ++ ", got " ++ object.contentType)

def verifyUploadedObjectBytes (c : Setup) (bytes : ByteArray) (objectKey : String)
    (expectedLen : Nat) (expectedSha256 : String) : Except String Unit := do
  ensure (bytes.size = expectedLen) ("uploaded object read-back length mismatch for " ++
    objectKey ++ ": expected " ++ toString expectedLen ++ ", got " ++ toString bytes.size)
  ensure (c.hexSha256 bytes = expectedSha256) ("uploaded object read-back sha256 mismatch for " ++
    objectKey ++ ": expected " ++ expectedSha256 ++ ", got " ++ c.hexSha256 bytes)

def verifyUploadedArtifact (c : Setup) (object : StoredObject) (typed : Bool) (objectKey : String)
    (file : DerivedFile) : Except String Unit := do
  verifyUploadedObjectMetadata object typed objectKey file.contentType file.bytes.size
  if strictUploadVerification then
    verifyUploadedObjectBytes c object.bytes objectKey file.bytes.size (c.hexSha256 file.bytes)

/-! ## Calls -/

/-- A call of `refresh_preview` or `refresh_download`, with its request prepared. -/
structure Refresh where
  model : Model
  typedValues : List (String × CanonicalParameterValue)
  configValuesJson : String
  output : Output
  configuration : EncodedConfigurationIdentity
  expectedRequestHash : Option String

section Refresh

variable (c : Setup) (r : Refresh)

def Refresh.identity : RequestIdentity :=
  exportRequest c.apiHostClass r.model r.configuration r.output

def Refresh.requestHash : String := c.hashes.requestHash (r.identity c)

def Refresh.request : Translations.ExportRequest where
  requestHash := r.requestHash c
  operation := (r.identity c).operation
  documentId := (r.identity c).pathParams.lookup "did"

def Refresh.subject : String := if r.output = .preview then "preview" else "download"

def Refresh.mismatch : String :=
  "queued " ++ r.subject ++ " request hash no longer matches the canonical export request"

def outputFile (f : DerivedFile) : OutputFile :=
  ⟨f.role, f.logicalPath, f.originalPath, f.contentType, f.bytes.size, c.hexSha256 f.bytes⟩

def Refresh.publication (rawPayloadHash : String) (d : Derived) : Publication :=
  refresh c.hashes c.microversion c.artifactSetHash c.apiHostClass r.model r.typedValues
    r.configValuesJson r.output
    ⟨r.configuration, rawPayloadHash, outputFile c d.primary, d.sidecars.map (outputFile c)⟩

def Refresh.fileKey (rawPayloadHash : String) (d : Derived) (file : DerivedFile) : String :=
  objectKey r.output.kind (r.publication c rawPayloadHash d).key file.logicalPath

def Refresh.derive (bytes : ByteArray) : Except Failure Derived :=
  Postprocess.derive c.fromSlice c.unzip r.model.slug r.output bytes

/-! ## Post-processing runs -/

def acceptedInputShapes : Output → List String
  | .preview => ["direct_glb", "direct_gltf_json", "zip_single_glb", "zip_single_gltf_asset_set"]
  | .download .step => ["direct_step", "zip_single_step", "zip_step_package"]
  | .download _ => ["requested_format_bytes"]

def shapesField (output : Output) : String × Value :=
  ("acceptedInputShapes", .array ((acceptedInputShapes output).map .string))

/-- `PreviewPostprocessPolicy` and `DownloadPostprocessPolicy`. -/
def policyValue (output : Output) : Value :=
  match output with
  | .preview => .object [shapesField output,
      ("allowPartialMultiGltfPreviewFallback", .bool allowPartialMultiGltfPreviewFallback)]
  | .download format => .object
      [("strategy", .string (if format = .step then "step_zip_detection" else "identity")),
       ("format", .string format.slug), ("contentType", .string (contentType format)),
       shapesField output]

def derivedArtifactFile (f : DerivedFile) : Value := .object
  [("role", .string f.role), ("logicalPath", .string f.logicalPath),
   ("originalPath", (f.originalPath.map Value.string).getD .null),
   ("contentType", .string f.contentType), ("byteLen", .number (.int f.bytes.size)),
   ("sha256", .string (c.hexSha256 f.bytes))]

def postprocessLog (level message : String) : Value :=
  .array [.object [("level", .string level), ("message", .string message)]]

/-- The outermost message of a failure. -/
def message (e : Failure) : String := e.headD ""

def Refresh.postprocessHash (rawPayloadHash : String) : String :=
  c.hashes.postprocessHash (postprocessIdentity r.output rawPayloadHash)

def Refresh.stagedRun (rawPayloadHash : String) : PostprocessRun where
  postprocessHash := r.postprocessHash c rawPayloadHash
  rawPayloadHash := rawPayloadHash
  processorName := (postprocessIdentity r.output rawPayloadHash).processorName
  processorVersion := (postprocessIdentity r.output rawPayloadHash).processorVersion
  policyJson := c.text.print (policyValue r.output)
  status := "staged"
  logJson := "[]"
  derivedFilesJson := "[]"

/-- The status, the log and the derived files of a run that is over. -/
def Refresh.report (derived : Except Failure Derived) : String × String × String :=
  match derived with
  | .ok d => ("ready", c.text.print (postprocessLog "info" (r.subject ++
      " post-processing completed")),
      c.text.print (.array (d.files.map (derivedArtifactFile c))))
  | .error e => ("failed", c.text.print (postprocessLog "error" (message e)), "[]")

def transitionRun (rawPayloadHash : String) (derived : Except Failure Derived)
    (t : Table PostprocessRun) : Table PostprocessRun :=
  let (status, logJson, derivedFilesJson) := r.report c derived
  transitionPostprocessRunStatus (r.postprocessHash c rawPayloadHash) status logJson
    derivedFilesJson t

end Refresh

/-! ## Steps of a call -/

/-- Where the publication of some files stands. -/
inductive Upload where
  | staging
  | uploading (done : Nat)
  /-- The next file is written. -/
  | verifying (done : Nat)
  | failing (error : String)
  | superseding

inductive Phase where
  | requested
  | fetching (phase : Translations.Phase)
  | recording (rawPayloadHash : String)
  | loading (rawPayloadHash : String)
  | reading (rawPayloadHash objectKey : String)
  | transitioning (rawPayloadHash : String) (derived : Except Failure Derived)
  | publishing (rawPayloadHash : String) (d : Derived) (upload : Upload)
  | returned (result : Except String String)
  | gone

/-- The tables and the bucket. -/
structure Shared where
  tables : Translations.Tables
  runs : Table PostprocessRun
  artifacts : ArtifactTables
  bucket : Bucket

def Phase.fail (error : String) : Phase := .returned (.error error)

def DbError.text : DbError → String
  | .protocol message => message
  | .constraint => "UNIQUE constraint failed: artifact_files"

section Steps

variable (c : Setup) (replies : Replies) (r : Refresh)

def returnedBy (events : List Translations.Event) : Option (Except String String) :=
  events.findSome? fun event =>
    match event with
    | .returned result => some result
    | _ => none

def afterFetch (phase : Translations.Phase) (events : List Translations.Event) : Phase :=
  match returnedBy events with
  | some (.ok rawPayloadHash) => .recording rawPayloadHash
  | some (.error e) => .fail e
  | none => .fetching phase

/-- The payload is written once its archive is looked into. -/
def fetchedBucket (phase : Translations.Phase) (bucket : Bucket) : Bucket :=
  match phase with
  | .storing _ d =>
    match c.zipInventoryJson (bytesOf d.bytes) with
    | .error _ => bucket
    | .ok _ => putBytes replies.put (rawPayloadObjectKey (c.hexSha256 (bytesOf d.bytes)))
        (payloadObject d) bucket
  | _ => bucket

def fetch (s : Shared) (phase : Translations.Phase) : Phase × Shared :=
  let o := advance c.text c.digests c.inspection (r.request c) replies.now replies.answers
    s.tables phase
  (afterFetch o.phase o.events,
   { s with tables := o.tables, bucket := fetchedBucket c replies phase s.bucket })

/-- The next step of the publication of some files. -/
def publishStep (s : Shared) (rawPayloadHash : String) (d : Derived) : Upload → Phase × Shared
  | .staging =>
    let p := r.publication c rawPayloadHash d
    match stageArtifact replies.now p.artifact p.files s.artifacts with
    | .error e => (.fail (DbError.text e), s)
    | .ok artifacts =>
      (.publishing rawPayloadHash d (.uploading 0), { s with artifacts := artifacts })
  | .uploading done =>
    let p := r.publication c rawPayloadHash d
    match d.files[done]? with
    | none => (.publishing rawPayloadHash d .superseding, { s with
        artifacts := (markArtifactSetReady replies.now p.key p.artifact.objectKey s.artifacts).2 })
    | some file =>
      let bucket := putBytes replies.put (r.fileKey c rawPayloadHash d file)
        ⟨file.bytes, file.contentType⟩ s.bucket
      let s := { s with bucket := bucket }
      match replies.put.result with
      | .error e => (.publishing rawPayloadHash d (.failing e), s)
      | .ok () => (.publishing rawPayloadHash d (.verifying done), s)
  | .verifying done =>
    match d.files[done]? with
    | none => (.publishing rawPayloadHash d (.uploading done), s)
    | some file =>
      let key := r.fileKey c rawPayloadHash d file
      let verified := do
        let (object, typed) ← getBytes replies.get key s.bucket
        verifyUploadedArtifact c object typed key file
      match verified with
      | .error e => (.publishing rawPayloadHash d (.failing e), s)
      | .ok () => (.publishing rawPayloadHash d (.uploading (done + 1)), s)
  | .failing error =>
    (.fail error, { s with artifacts := (transitionArtifactSetStatus replies.now
      (r.publication c rawPayloadHash d).key .uploadFailed s.artifacts).2 })
  | .superseding =>
    let p := r.publication c rawPayloadHash d
    (.returned (.ok p.artifact.objectKey), { s with
      artifacts := (supersedeReadyArtifactsForOutput replies.now p.artifact.outputKey p.key
        (some "replaced") s.artifacts).2 })

/-- The next step of a call. -/
def work (s : Shared) : Phase → Phase × Shared
  | .requested =>
    if ∀ expected ∈ r.expectedRequestHash, r.requestHash c = expected then (.fetching .idle, s)
    else (.fail r.mismatch, s)
  | .fetching phase => fetch c replies r s phase
  | .recording rawPayloadHash =>
    (.loading rawPayloadHash,
     { s with runs := insertPostprocessRunIfAbsent (r.stagedRun c rawPayloadHash) s.runs })
  | .loading rawPayloadHash =>
    match s.tables.rawPayloads.find? rawPayloadHash with
    | none => (.fail ("missing raw payload record for " ++ rawPayloadHash), s)
    | some row => (.reading rawPayloadHash row.objectKey, s)
  | .reading rawPayloadHash objectKey =>
    let verified := do
      let (object, _) ← getBytes replies.get objectKey s.bucket
      verifyRawPayloadBytes c rawPayloadHash object.bytes
      return object.bytes
    match verified with
    | .error e => (.fail e, s)
    | .ok bytes => (.transitioning rawPayloadHash (r.derive c bytes), s)
  | .transitioning rawPayloadHash derived =>
    let s := { s with runs := transitionRun c r rawPayloadHash derived s.runs }
    match derived with
    | .error e => (.fail (message e), s)
    | .ok d => (.publishing rawPayloadHash d .staging, s)
  | .publishing rawPayloadHash d upload => publishStep c replies r s rawPayloadHash d upload
  | .returned result => (.returned result, s)
  | .gone => (.gone, s)

end Steps

/-! ## Uploads as attempts -/

section Attempts

variable {c : Setup} {replies : Replies} {r : Refresh} {s s' : Shared} {rawPayloadHash : String}
  {d : Derived} {upload : Upload} {phase : Phase}

/-- The files of a publication are the derived ones, in their order. -/
theorem publication_files : (r.publication c rawPayloadHash d).files = d.files.map fun file =>
    ⟨(r.publication c rawPayloadHash d).key, file.role, file.logicalPath, file.originalPath,
      r.fileKey c rawPayloadHash d file, file.contentType, file.bytes.size,
      c.hexSha256 file.bytes, "\x7b\x7d"⟩ := by
  simp only [Refresh.publication, refresh, ExportOutput.publication, Derived.files, List.map_cons,
    List.map_map]
  rfl

@[simp] theorem publication_files_length :
    (r.publication c rawPayloadHash d).files.length = d.files.length := by
  rw [publication_files, List.length_map]

/-- What an upload is as an attempt of `Publication`. -/
def Upload.attempt : Upload → Publishing.Phase
  | .staging => .pending
  | .uploading done => .uploading done
  | .verifying done => .uploading done
  | .failing _ => .uploadFailed
  | .superseding => .superseding

def Phase.attempt : Phase → Publishing.Phase
  | .publishing _ _ upload => upload.attempt
  | .returned (.ok _) => .finished
  | .returned (.error _) => .failed
  | .gone => .crashed
  | _ => .pending

/-- No more files are uploaded than there are. -/
def Upload.Within (count : Nat) : Upload → Prop
  | .uploading done => done ≤ count
  | .verifying done => done < count
  | _ => True

/-- What a step of an upload leaves: it goes on with the same files, or the call returns. -/
structure UploadStep (c : Setup) (now : Timestamp) (r : Refresh) (rawPayloadHash : String)
    (d : Derived) (s : Shared) (upload : Upload) (phase : Phase) (s' : Shared) : Prop where
  statement : ∃ stmt, Publishes now (r.publication c rawPayloadHash d) s.artifacts upload.attempt
    stmt phase.attempt s'.artifacts
  tables : s'.tables = s.tables
  runs : s'.runs = s.runs
  goesOn : (∃ upload', phase = .publishing rawPayloadHash d upload' ∧
    upload'.Within d.files.length) ∨ ∃ result, phase = .returned result

theorem UploadStep.waiting {now : Timestamp} {upload' : Upload} (hs : s'.artifacts = s.artifacts)
    (htables : s'.tables = s.tables) (hruns : s'.runs = s.runs)
    (hattempt : upload'.attempt = upload.attempt) (hwithin : upload'.Within d.files.length) :
    UploadStep c now r rawPayloadHash d s upload (.publishing rawPayloadHash d upload') s' := by
  refine ⟨⟨.crash, ?_⟩, htables, hruns, .inl ⟨upload', rfl, hwithin⟩⟩
  rw [hs, Phase.attempt, hattempt]
  exact .waits

theorem UploadStep.broken {now : Timestamp} {done : Nat} {e : String} (hdone : done < d.files.length)
    (hattempt : upload.attempt = .uploading done) (hs : s'.artifacts = s.artifacts)
    (htables : s'.tables = s.tables) (hruns : s'.runs = s.runs) :
    UploadStep c now r rawPayloadHash d s upload
      (.publishing rawPayloadHash d (.failing e)) s' := by
  refine ⟨⟨.upload false, ?_⟩, htables, hruns, .inl ⟨_, rfl, trivial⟩⟩
  rw [hs, hattempt]
  exact .broken (by rwa [publication_files_length])

theorem publishStep_publishes (replies : Replies) (r : Refresh) (s : Shared)
    (rawPayloadHash : String) (hwithin : upload.Within d.files.length) :
    UploadStep c replies.now r rawPayloadHash d s upload
      (publishStep c replies r s rawPayloadHash d upload).1
      (publishStep c replies r s rawPayloadHash d upload).2 := by
  cases upload with
  | staging =>
    simp only [publishStep]
    cases hstage : stageArtifact replies.now (r.publication c rawPayloadHash d).artifact
        (r.publication c rawPayloadHash d).files s.artifacts with
    | error e => exact ⟨⟨_, .rejected⟩, rfl, rfl, .inr ⟨_, rfl⟩⟩
    | ok artifacts =>
      exact ⟨⟨_, .staged hstage⟩, rfl, rfl, .inl ⟨_, rfl, Nat.zero_le _⟩⟩
  | uploading done =>
    simp only [publishStep]
    cases hfile : d.files[done]? with
    | none =>
      have hlength : d.files.length ≤ done := List.getElem?_eq_none_iff.mp hfile
      have hdone : done = (r.publication c rawPayloadHash d).files.length := by
        rw [publication_files_length]
        exact Nat.le_antisymm hwithin hlength
      refine ⟨⟨.markReady, ?_⟩, rfl, rfl, .inl ⟨_, rfl, trivial⟩⟩
      rw [Upload.attempt, hdone]
      exact .marked
    | some file =>
      have hdone : done < d.files.length := (List.getElem?_eq_some_iff.mp hfile).1
      simp only
      cases hput : replies.put.result with
      | error e => exact .broken hdone rfl rfl rfl rfl
      | ok => exact .waiting rfl rfl rfl rfl hdone
  | verifying done =>
    simp only [publishStep]
    cases hfile : d.files[done]? with
    | none => exact absurd hwithin (Nat.not_lt.mpr (List.getElem?_eq_none_iff.mp hfile))
    | some file =>
      simp only
      split
      · exact .broken hwithin rfl rfl rfl rfl
      · refine ⟨⟨.upload true, ?_⟩, rfl, rfl, .inl ⟨_, rfl, hwithin⟩⟩
        exact .uploaded (by rwa [publication_files_length])
  | failing error => exact ⟨⟨_, .recorded⟩, rfl, rfl, .inr ⟨_, rfl⟩⟩
  | superseding => exact ⟨⟨_, .superseded⟩, rfl, rfl, .inr ⟨_, rfl⟩⟩

end Attempts

/-! ## The whole service -/

structure Worker where
  refresh : Refresh
  phase : Phase

structure State where
  shared : Shared
  workers : List Worker

def State.empty : State := ⟨⟨⟨.empty, .empty, .empty⟩, .empty, .empty, .empty⟩, []⟩

inductive Op where
  | call (r : Refresh)
  | work (i : Nat) (replies : Replies)
  /-- The process ends, or the database fails it. -/
  | stop (i : Nat)
  | supersedeSet (now : Timestamp) (artifactSetHash : String)
      (supersededBy supersessionReason : Option String)
  /-- An object is written or deleted, and not by a call. -/
  | overwrite (key : String) (object : Option StoredObject)

def step (c : Setup) (s : State) : Op → State
  | .call r => { s with workers := s.workers ++ [⟨r, .requested⟩] }
  | .work i replies =>
    match s.workers[i]? with
    | none => s
    | some w =>
      let (phase, shared) := work c replies w.refresh s.shared w.phase
      ⟨shared, s.workers.set i ⟨w.refresh, phase⟩⟩
  | .stop i =>
    match s.workers[i]? with
    | none => s
    | some w => { s with workers := s.workers.set i ⟨w.refresh, .gone⟩ }
  | .supersedeSet now artifactSetHash by_ reason =>
    { s with shared := { s.shared with
      artifacts := (supersedeArtifactSet now artifactSetHash by_ reason s.shared.artifacts).2 } }
  | .overwrite key object =>
    { s with shared := { s.shared with bucket := s.shared.bucket.write key object } }

end Pipeline
end OnshapeExport
