import OnshapeExport.CacheModel
import OnshapeExport.Publication

/-!
# ExportQueue

Export jobs and the artifacts they publish: `enqueue_preview` and `enqueue_download`,
`process_next_job` and `execute_job` of `main.rs`, the operator's `supersede_published_artifact`
and the retries. A worker whose lease ran out keeps executing; an execution is known by the place
of its claim.

* `execute` — the next step of one execution, its publication included.
* `step` — one operation of the whole queue.
-/

namespace OnshapeExport
namespace ExportQueue

open Relational Jobs Artifacts Publishing CacheModel Trace

def exportJobKey (requestHash : String) : String := "work-v2:export:" ++ requestHash

theorem exportJobKey_injective : Function.Injective exportJobKey := by
  intro a b h
  have := congrArg String.toList h
  simp only [exportJobKey, String.toList_append, List.append_cancel_left_eq] at this
  exact String.toList_injective this

structure OutputFile where
  role : String
  logicalPath : String
  originalPath : Option String
  contentType : String
  byteLen : Int
  sha256 : String
deriving DecidableEq, Repr

/-- What the export and the post-processing of an execution produced. -/
structure ExportOutput where
  modelSlug : String
  sourceHash : String
  configHash : String
  optionsHash : String
  outputKind : String
  format : String
  rawPayloadHash : String
  postprocessHash : String
  configValuesJson : String
  primary : OutputFile
  sidecars : List OutputFile
deriving DecidableEq, Repr

def ExportOutput.identity (o : ExportOutput) (requestHash : String) : ArtifactSetIdentity where
  artifactSetSchemaVersion := artifactSetSchemaVersion
  outputKind := o.outputKind
  format := o.format
  sourceHash := o.sourceHash
  configHash := o.configHash
  optionsHash := o.optionsHash
  requestHash := some requestHash
  rawPayloadHash := some o.rawPayloadHash
  postprocessHash := o.postprocessHash
  generatorProcessingHash := none

/-- `preview_asset_object_key` and `download_object_key`. -/
def objectKey (outputKind artifactSetHash name : String) : String :=
  if outputKind = "preview_glb" then "previews/v2/" ++ artifactSetHash ++ "/" ++ name
  else "artifacts/v2/" ++ artifactSetHash ++ "/" ++ name

def schemaVersion : Int := 4

/-- What `refresh_preview` and `refresh_download` publish. -/
def ExportOutput.publication (artifactSetHash : ArtifactSetIdentity → String) (o : ExportOutput)
    (requestHash workKey : String) : Publication :=
  let key := artifactSetHash (o.identity requestHash)
  { artifact :=
      { artifactKey := key
        modelSlug := o.modelSlug
        configHash := o.configHash
        outputKind := o.outputKind
        format := o.format
        objectKey := objectKey o.outputKind key o.primary.logicalPath
        producingJobKey := some workKey
        sourceHash := o.sourceHash
        optionsHash := o.optionsHash
        requestHash := some requestHash
        rawPayloadHash := some o.rawPayloadHash
        postprocessHash := some o.postprocessHash
        generatorProcessingHash := none
        parameterSchemaVersion := schemaVersion
        configValuesJson := o.configValuesJson }
    files := (o.primary :: o.sidecars).map fun f =>
      ⟨key, f.role, f.logicalPath, f.originalPath, objectKey o.outputKind key f.logicalPath,
        f.contentType, f.byteLen, f.sha256, "{}"⟩
    ownFiles := by
      intro f hf
      obtain ⟨g, -, rfl⟩ := List.mem_map.mp hf
      rfl }

/-- Where an execution of a job stands. -/
inductive Progress where
  | claimed
  | preparing
  | publishing (p : Publication) (phase : Phase)
  | succeeded
  | erred
  | gone

structure Execution where
  lease : JobLease
  progress : Progress

structure ExportState where
  jobs : JobTable
  tables : ArtifactTables
  executions : List Execution

def ExportState.empty : ExportState := ⟨.empty, .empty, []⟩

/-- What an execution does next, with what the environment decides. -/
inductive ExecOp where
  /-- The lookup of a ready artifact before any work. -/
  | check
  /-- Any error on the way to the publication. -/
  | fail
  | prepare (o : ExportOutput)
  | publish (now : Timestamp) (stmt : Stmt)
  | finish (now : Timestamp)
  | recordFailure (now : Timestamp) (summary : String) (retryDelaySeconds : Int)
  | crash
deriving DecidableEq, Repr

/-- Which failed jobs `failures retry` puts back. -/
inductive RetryScope where
  | all
  | workKey (workKey : String)
  | kind (jobKind : String)
deriving DecidableEq, Repr

def RetryScope.toQueueOp : RetryScope → QueueOp
  | .all => .retryAll
  | .workKey k => .retryOne k
  | .kind jobKind => .retryKind jobKind

/-- How an execution goes on after a statement of its publication. -/
def afterPublish (p : Publication) : Phase → Progress
  | .finished => .succeeded
  | .failed => .erred
  | .crashed => .gone
  | phase => .publishing p phase

/-- `claim_next_job(15 * 60)`. -/
def leaseSeconds : Int := 15 * 60

section

variable (artifactSetHash : ArtifactSetIdentity → String) (payloadRequest : String → Option String)

/-- What `enqueue_preview` and `enqueue_download` queue: `payloadRequest`, which reads
`request_hash` out of a job payload, finds the request in it. -/
structure ExportRequest where
  requestHash : String
  jobKind : String
  payloadJson : String
  carries : payloadRequest payloadJson = some requestHash

def Execution.request (e : Execution) : Option String := payloadRequest e.lease.payloadJson

inductive Op where
  | enqueue (now : Timestamp) (e : ExportRequest payloadRequest)
  | retry (now : Timestamp) (scope : RetryScope)
  | claim (now : Timestamp) (tie : Nat)
  | execution (i : Nat) (op : ExecOp)
  /-- The first statement of `supersede_published_artifact`. -/
  | supersedeArtifact (now : Timestamp) (artifactKey : String)
  /-- The second one. -/
  | supersedeJob (now : Timestamp) (workKey : String)

/-- The ready lookup of `execute_job`. -/
def checked (tables : ArtifactTables) (e : Execution) : Progress :=
  match e.request payloadRequest with
  | none => .erred
  | some r => if (latestReadyArtifactForRequest r tables).isSome then .succeeded else .preparing

/-- One step of the execution `e`: its progress, and the tables it leaves. -/
def execute (jobs : JobTable) (tables : ArtifactTables) (e : Execution) (op : ExecOp) :
    Progress × JobTable × ArtifactTables :=
  match e.progress, op with
  | .claimed, .check => (checked payloadRequest tables e, jobs, tables)
  | .claimed, .fail => (.erred, jobs, tables)
  | .preparing, .fail => (.erred, jobs, tables)
  | .preparing, .prepare o =>
    match e.request payloadRequest with
    | none => (.erred, jobs, tables)
    | some r =>
      (.publishing (o.publication artifactSetHash r e.lease.workKey) .pending, jobs, tables)
  | .publishing p phase, .publish now stmt =>
    let out := Publishing.publish now p tables phase stmt
    (afterPublish p out.1, jobs, out.2)
  | .succeeded, .finish now =>
    (.gone, (finishJob now e.lease.workKey e.lease.attempt .ready none jobs).2, tables)
  | .erred, .recordFailure now summary delay =>
    (.gone, (recordJobFailure now e.lease.workKey e.lease.attempt summary delay jobs).2, tables)
  | _, .crash => (.gone, jobs, tables)
  | progress, _ => (progress, jobs, tables)

def step (s : ExportState) : Op payloadRequest → ExportState
  | .enqueue now e =>
    { s with jobs := (enqueueJob now (exportJobKey e.requestHash) e.jobKind e.payloadJson s.jobs).2 }
  | .retry now scope => { s with jobs := scope.toQueueOp.apply now s.jobs }
  | .claim now tie =>
    match claimNextJob now leaseSeconds tie s.jobs with
    | (some lease, jobs) => { s with jobs := jobs, executions := s.executions ++ [⟨lease, .claimed⟩] }
    | (none, jobs) => { s with jobs := jobs }
  | .execution i op =>
    match s.executions[i]? with
    | none => s
    | some e =>
      let out := execute artifactSetHash payloadRequest s.jobs s.tables e op
      ⟨out.2.1, out.2.2, s.executions.set i ⟨e.lease, out.1⟩⟩
  | .supersedeArtifact now k =>
    { s with tables := (supersedeArtifactSet now k none none s.tables).2 }
  | .supersedeJob now k => { s with jobs := (QueueOp.supersedeReady k).apply now s.jobs }

end

end ExportQueue
end OnshapeExport
