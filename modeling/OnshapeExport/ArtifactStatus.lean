import OnshapeExport.ExportIntegrity
import OnshapeExport.SelfContainedPreviews

/-!
# ArtifactStatus

What the page of a model is answered when it asks for the status of an export: `artifact_status` of
`main.rs`, on the rows that the calls of `ExportPipeline` leave. A ready artifact comes first, then
a job that is waiting or running, then what became of the artifact, then what became of the job.

* `artifactStatus` — the answer.
* `Pointed` — the primary object of a set is one of its files, so that the row of a ready artifact
  can be read; `step_pointed` is that an operation keeps it.
* `status_served` — an answer that names an artifact names one that is in the bucket.
-/

namespace OnshapeExport
namespace Pipeline

open Artifacts Checks ContentStore ExportQueue Jobs Postprocess Preview Relational Trace

/-! ## Rows -/

/-- `repair_required` is a status of generator artifacts only. -/
def statusText : ArtifactStatus → String
  | .staged => "staged"
  | .uploadFailed => "upload_failed"
  | .ready => "ready"
  | .superseded => "superseded"

def jobStatusText : JobStatus → String
  | .queued => "queued"
  | .running => "running"
  | .ready => "ready"
  | .failed => "failed"
  | .superseded => "superseded"

structure ArtifactRecord where
  artifactKey : String
  objectKey : String
  contentType : String
  byteLen : Int
  sha256 : String
  producingJobKey : Option String
  sourceHash : String
  configHash : String
  optionsHash : String
  parameterSchemaVersion : Option Int
  createdAt : Timestamp

/-- `LEFT JOIN artifact_files ON object_key = primary_object_key`. -/
def joinedFile (t : ArtifactTables) (row : ArtifactSet) : Option ArtifactFile :=
  t.files.rows.find? fun f => some f.objectKey = row.primaryObjectKey

/-- `none` stands for the panic on a column that is `NULL`. -/
def artifactRecord (row : ArtifactSet) (file : Option ArtifactFile) : Option ArtifactRecord := do
  let objectKey ← row.primaryObjectKey
  let file ← file
  return ⟨row.artifactSetHash, objectKey, file.contentType, file.byteLen, file.sha256,
    row.metadataJson.producingJobKey, row.sourceHash, row.configHash, row.optionsHash,
    row.metadataJson.parameterSchemaVersion, row.createdAt⟩

/-- The row of the latest ready artifact of the request, if there is one. -/
def readyArtifact (requestHash : String) (t : ArtifactTables) : Option (Option ArtifactRecord) :=
  match latestReadyArtifactForRequest requestHash t with
  | none => some none
  | some row => (artifactRecord row (joinedFile t row)).map some

/-- `ORDER BY updated_at DESC, created_at DESC, artifact_set_hash DESC`. -/
def laterSet (a b : ArtifactSet) : Bool :=
  b.updatedAt < a.updatedAt || a.updatedAt = b.updatedAt && newerSet a b

def latestArtifactSetForRequest (requestHash : String) (t : ArtifactTables) : Option ArtifactSet :=
  let sets := t.sets.rows.filter fun r => r.requestHash = some requestHash
  sets.foldl (fun best r =>
    match best with
    | none => some r
    | some b => if laterSet r b then some r else some b) none

/-! ## The answer -/

structure ArtifactStatusResponse where
  artifactKey : String
  status : String
  message : String
  publicUrl : Option String := none
  objectKey : Option String := none
  contentType : Option String := none
  sizeBytes : Option Int := none
  sha256 : Option String := none
  jobId : Option String := none
  sourceHash : Option String := none
  configHash : Option String := none
  optionsHash : Option String := none
  schemaVersion : Option Int := none
  attempt : Option Nat := none
  maxAttempts : Option Nat := none
  nextRetryAt : Option Timestamp := none
  errorSummary : Option String := none
  updatedAt : Option Timestamp := none

def jobStatusPriority : JobStatus → Nat
  | .running => 5
  | .queued => 4
  | .ready => 3
  | .failed => 2
  | .superseded => 1

/-- The first of the jobs with the highest priority. -/
def selectedJob (jobs : JobTable) (workKeys : List String) : Option Job :=
  workKeys.foldl (fun selected workKey =>
    match jobs.find? workKey with
    | none => selected
    | some job =>
      match selected with
      | none => some job
      | some current =>
        if jobStatusPriority job.status > jobStatusPriority current.status then some job
        else selected) none

def jobResponse (lookupKey message : String) (job : Job) : ArtifactStatusResponse where
  artifactKey := lookupKey
  status := jobStatusText job.status
  message := message
  jobId := some job.workKey
  attempt := some job.attempt
  maxAttempts := some job.maxAttempts
  nextRetryAt := job.nextRetryAt
  errorSummary := job.errorSummary
  updatedAt := some job.updatedAt

def readyResponse (publicBaseUrl : Option String) (record : ArtifactRecord) :
    ArtifactStatusResponse where
  artifactKey := record.artifactKey
  status := "ready"
  message := "Artifact is ready."
  publicUrl := publicBaseUrl.map fun base => publicUrl base record.objectKey
  objectKey := some record.objectKey
  contentType := some record.contentType
  sizeBytes := some record.byteLen
  sha256 := some record.sha256
  jobId := record.producingJobKey
  sourceHash := some record.sourceHash
  configHash := some record.configHash
  optionsHash := some record.optionsHash
  schemaVersion := record.parameterSchemaVersion
  updatedAt := some record.createdAt

def setMessage : ArtifactStatus → String
  | .staged => "Artifact upload is staged but not ready yet."
  | .uploadFailed => "Artifact upload verification failed."
  | .superseded => "Artifact was superseded and needs to be queued again."
  | .ready => "Artifact status is unknown."

def setResponse (set : ArtifactSet) (job : Option Job) : ArtifactStatusResponse where
  artifactKey := set.artifactSetHash
  status := statusText set.status
  message := setMessage set.status
  objectKey := set.primaryObjectKey
  jobId := job.map Job.workKey
  sourceHash := some set.sourceHash
  configHash := some set.configHash
  optionsHash := some set.optionsHash
  attempt := job.map Job.attempt
  maxAttempts := job.map Job.maxAttempts
  nextRetryAt := job.bind Job.nextRetryAt
  errorSummary := job.bind Job.errorSummary
  updatedAt := some set.updatedAt

def missingResponse (lookupKey : String) : ArtifactStatusResponse where
  artifactKey := lookupKey
  status := "missing"
  message := "No cached artifact or queued generation was found."

/-- When no job is waiting or running. -/
def restingStatus (lookupKey : String) (artifactSet : Option ArtifactSet) (job : Option Job) :
    ArtifactStatusResponse :=
  match artifactSet.filter fun set => set.status ≠ .ready with
  | some set => setResponse set job
  | none =>
    match job with
    | none => missingResponse lookupKey
    | some job => jobResponse lookupKey (match job.status with
      | .failed => "Generation failed."
      | .ready => "Generation completed; artifact is not visible yet."
      | .superseded => "Generation was superseded and needs to be queued again."
      | _ => "Generation status is unknown.") job

def artifactStatus (publicBaseUrl : Option String) (lookupKey : String)
    (artifact : Option ArtifactRecord) (artifactSet : Option ArtifactSet) (workKeys : List String)
    (jobs : JobTable) : ArtifactStatusResponse :=
  match artifact with
  | some record => readyResponse publicBaseUrl record
  | none =>
    match selectedJob jobs workKeys with
    | none => restingStatus lookupKey artifactSet none
    | some job =>
      match job.status with
      | .queued => jobResponse lookupKey "Generation is queued." job
      | .running => jobResponse lookupKey "Generation is running." job
      | _ => restingStatus lookupKey artifactSet (some job)

/-- The answer to `preview_status` and `download_status`, or the panic on a ready artifact. A
configuration that has never been requested has no request hash. -/
def requestStatus (publicBaseUrl : Option String) (lookupKey : String)
    (requestHash : Option String) (t : ArtifactTables) (jobs : JobTable) :
    Option ArtifactStatusResponse :=
  match requestHash with
  | none => some (artifactStatus publicBaseUrl lookupKey none none [] jobs)
  | some requestHash =>
    (readyArtifact requestHash t).map fun artifact =>
      artifactStatus publicBaseUrl lookupKey artifact (latestArtifactSetForRequest requestHash t)
        [exportJobKey requestHash] jobs

/-! ## Primary objects -/

/-- The primary object of every set is one of its files. -/
def Pointed (t : ArtifactTables) : Prop :=
  ∀ row ∈ t.sets.rows, ∃ f ∈ t.filesOf row.artifactSetHash, row.primaryObjectKey = some f.objectKey

section Statements

variable {now : Timestamp} {p : Publishing.Publication} {t t' : ArtifactTables}
  {phase phase' : Publishing.Phase} {stmt : Publishing.Stmt} {row : ArtifactSet}

/-- The row was there, with the same primary object and the same files. -/
def Keeping (t t' : ArtifactTables) (row : ArtifactSet) : Prop :=
  ∃ row₀ ∈ t.sets.rows, row₀.artifactSetHash = row.artifactSetHash ∧
    row.primaryObjectKey = row₀.primaryObjectKey ∧
    t'.filesOf row.artifactSetHash = t.filesOf row.artifactSetHash

theorem Keeping.pointed (h : Keeping t t' row) (ht : Pointed t) :
    ∃ f ∈ t'.filesOf row.artifactSetHash, row.primaryObjectKey = some f.objectKey := by
  obtain ⟨row₀, hrow₀, hkey, hprimary, hfiles⟩ := h
  rw [hfiles, ← hkey, hprimary]
  exact ht row₀ hrow₀

theorem keeping_self (hrow : row ∈ t.sets.rows) : Keeping t t row := ⟨row, hrow, rfl, rfl, rfl⟩

theorem keeping_updateSets {q : ArtifactSet → Bool} {f : ArtifactSet → ArtifactSet}
    (hf : Preserves f) (hprimary : ∀ row, (f row).primaryObjectKey = row.primaryObjectKey)
    (hrow : row ∈ (t.updateSets q f hf).sets.rows) : Keeping t (t.updateSets q f hf) row := by
  have hupdated : row ∈ (t.sets.update q f hf).rows := hrow
  obtain ⟨row₀, hrow₀, rfl⟩ := Table.mem_update.mp hupdated
  refine ⟨row₀, hrow₀, ?_, ?_, rfl⟩
  · split
    · exact (hf.key row₀).symm
    · rfl
  · split
    · exact hprimary row₀
    · rfl

/-- A statement of an attempt leaves the primary object of a set, or makes it that of the
publication. -/
theorem publishes_primary (hp : Publishing.Publishes now p t phase stmt phase' t')
    (hrow : row ∈ t'.sets.rows) : Keeping t t' row ∨
      (row.primaryObjectKey = some p.artifact.objectKey ∧
        (t'.filesOf row.artifactSetHash = p.files ∨
          (row.artifactSetHash = p.key ∧
            t'.filesOf row.artifactSetHash = t.filesOf row.artifactSetHash ∧
            ∃ row₀ ∈ t.sets.rows, row₀.artifactSetHash = row.artifactSetHash))) := by
  cases hp with
  | staged hstage =>
    obtain ⟨-, hstage⟩ := stageArtifact_ok hstage
    have hfiles := filesOf_stage p.ownFiles hstage row.artifactSetHash
    have hfind : t'.sets.find? row.artifactSetHash = some row := Table.find?_of_mem hrow
    rw [(stageArtifactInner_ok hstage).1] at hfind
    by_cases hkey : row.artifactSetHash = p.artifact.artifactKey
    · rw [if_pos hkey] at hfind hfiles
      cases hfind
      exact .inr ⟨rfl, .inl hfiles⟩
    · rw [if_neg hkey] at hfind hfiles
      exact .inl ⟨row, Table.find?_mem hfind, rfl, rfl, hfiles⟩
  | marked =>
    have hupdated : row ∈ (t.sets.update (isSet p.key)
      (readySet now p.artifact.objectKey) ⟨fun _ => rfl, fun _ _ => .rfl⟩).rows := hrow
    obtain ⟨row₀, hrow₀, rfl⟩ := Table.mem_update.mp hupdated
    by_cases hset : isSet p.key row₀ = true
    · rw [if_pos hset]
      exact .inr ⟨rfl, .inr ⟨of_decide_eq_true hset, rfl, row₀, hrow₀, rfl⟩⟩
    · rw [if_neg hset]
      exact .inl ⟨row₀, hrow₀, rfl, rfl, rfl⟩
  | recorded => exact .inl (keeping_updateSets _ (fun _ => rfl) hrow)
  | superseded => exact .inl (keeping_updateSets _ (fun _ => rfl) hrow)
  | rejected => exact .inl (keeping_self hrow)
  | uploaded => exact .inl (keeping_self hrow)
  | broken => exact .inl (keeping_self hrow)
  | crashed => exact .inl (keeping_self hrow)
  | waits => exact .inl (keeping_self hrow)

end Statements

section Operations

variable {c : Setup} {D : String → List UInt8 → Prop} {J : Refresh → Prop} {s : State}

/-- The primary file is one of the files of a publication. -/
theorem primary_mem (r : Refresh) (rawPayloadHash : String) (d : Derived) :
    ∃ f ∈ (r.publication c rawPayloadHash d).files,
      (r.publication c rawPayloadHash d).artifact.objectKey = f.objectKey := by
  rw [publication_files]
  exact ⟨_, List.mem_map_of_mem List.mem_cons_self, rfl⟩

theorem work_pointed {w : Worker} {replies : Replies} (hname : OneName c J)
    (hfree : CollisionFree c D) (h : Inv c D J s) (hw : w ∈ s.workers)
    (hdownload : ∀ d, replies.download = .ok d → D (w.refresh.requestHash c) d.bytes)
    (hpointed : Pointed s.shared.artifacts) :
    Pointed (work c replies w.refresh s.shared w.phase).2.artifacts := by
  obtain ⟨hr, hfact⟩ := h.workers w hw
  have hworks := work_works replies h.sourced hr hfact hdownload
  intro row hrow
  rcases hworks.artifacts with hsame | ⟨hash, d, upload, stmt, hphase, hpublishes⟩
  · rw [hsame] at hrow ⊢
    exact hpointed row hrow
  · obtain ⟨f, hf, hprimary⟩ := primary_mem (c := c) w.refresh hash d
    rcases publishes_primary hpublishes hrow with hkeeping | ⟨hkey, hfiles | hmarked⟩
    · exact hkeeping.pointed hpointed
    · rw [hfiles]
      exact ⟨f, hf, hkey.trans (congrArg some hprimary)⟩
    · -- the set was staged by some call, of the same files
      obtain ⟨hset, hfiles, row₀, hrow₀, hkey₀⟩ := hmarked
      rw [hphase] at hfact
      obtain ⟨hanswered, hderives, -⟩ := hfact
      obtain ⟨r', hash', d', horigin⟩ := h.sets row₀ hrow₀
      have hkeys : (r'.publication c hash' d').key = (w.refresh.publication c hash d).key :=
        (key_of_described horigin.stated).symm.trans (hkey₀.trans hset)
      have hsame := same_files hfree hname horigin.called hr h.sourced horigin.answered.2
        h.sourced hanswered.2 horigin.derives hderives hkeys
      rw [hfiles, ← hkey₀, horigin.files, hsame]
      exact ⟨f, hf, hkey.trans (congrArg some hprimary)⟩

theorem step_pointed {op : Op} (hname : OneName c J) (hfree : CollisionFree c D)
    (hscope : InScope c D J s op) (h : Inv c D J s) (hpointed : Pointed s.shared.artifacts) :
    Pointed (step c s op).shared.artifacts := by
  cases op with
  | call r => exact hpointed
  | work i replies =>
    simp only [step]
    cases hworker : s.workers[i]? with
    | none => exact hpointed
    | some w =>
      exact work_pointed hname hfree h (List.mem_of_getElem? hworker)
        (fun d hd => hscope w hworker d hd) hpointed
  | stop i =>
    simp only [step]
    split <;> exact hpointed
  | supersedeSet now artifactSetHash by_ reason =>
    intro row hrow
    have hkeeping : Keeping s.shared.artifacts
        (step c s (.supersedeSet now artifactSetHash by_ reason)).shared.artifacts row :=
      keeping_updateSets _ (fun _ => rfl) hrow
    exact hkeeping.pointed hpointed
  | overwrite key object => exact hpointed

theorem run_pointed {ops : List Op} (hname : OneName c J) (hfree : CollisionFree c D)
    (hops : Along (step c) (InScope c D J) s ops) (h : Inv c D J s)
    (hpointed : Pointed s.shared.artifacts) :
    Pointed (run (step c) s ops).shared.artifacts := by
  induction ops generalizing s with
  | nil => exact hpointed
  | cons op ops ih =>
    obtain ⟨hscope, hops⟩ := hops
    exact ih hops (step_inv hscope h) (step_pointed hname hfree hscope h hpointed)

end Operations

/-! ## Answers -/

section Answers

variable {t : ArtifactTables} {row : ArtifactSet} {requestHash : String}

/-- Of a set whose primary object is one of its files, the join finds a file of that object. -/
theorem joined_of_pointed (hpointed : Pointed t) (hrow : row ∈ t.sets.rows) :
    ∃ f ∈ t.filesOf row.artifactSetHash, row.primaryObjectKey = some f.objectKey ∧
      joinedFile t row = some f := by
  obtain ⟨f, hf, hprimary⟩ := hpointed row hrow
  have hmem : f ∈ t.files.rows := (List.mem_filter.mp hf).1
  refine ⟨f, hf, hprimary, ?_⟩
  cases hfind : joinedFile t row with
  | none =>
    have hnone := List.find?_eq_none.mp hfind f hmem
    rw [hprimary] at hnone
    simp at hnone
  | some g =>
    unfold joinedFile at hfind
    have hg : g ∈ t.files.rows := List.mem_of_find?_eq_some hfind
    have hkey : some g.objectKey = row.primaryObjectKey := by simpa using List.find?_some hfind
    rw [hprimary, Option.some.injEq] at hkey
    -- the key of an object is unique in the table
    by_cases hne : g = f
    · rw [hne]
    · exact absurd (.inr hkey) (Table.not_clash hg hmem hne)

/-- A record has the primary file of its set. -/
structure DescribesFile (record : ArtifactRecord) (f : ArtifactFile) : Prop where
  objectKey : record.objectKey = f.objectKey
  contentType : record.contentType = f.contentType
  byteLen : record.byteLen = f.byteLen
  sha256 : record.sha256 = f.sha256

theorem artifactRecord_of_joined {f : ArtifactFile}
    (hprimary : row.primaryObjectKey = some f.objectKey) (hjoined : joinedFile t row = some f) :
    ∃ record, artifactRecord row (joinedFile t row) = some record ∧ DescribesFile record f := by
  rw [artifactRecord, hprimary, hjoined]
  exact ⟨_, rfl, rfl, rfl, rfl, rfl⟩

theorem latestReady_mem (h : latestReadyArtifactForRequest requestHash t = some row) :
    row ∈ t.sets.rows ∧ row.requestHash = some requestHash ∧ row.status = .ready := by
  unfold latestReadyArtifactForRequest at h
  simp only at h
  cases hl : t.sets.rows.filter
      fun r => decide (r.requestHash = some requestHash) && decide (r.status = .ready) with
  | nil =>
    rw [hl] at h
    cases h
  | cons x l =>
    obtain ⟨r, hr, hfold⟩ := foldl_newerSet l x
    rw [hl, List.foldl_cons, hfold] at h
    cases h
    have hmem : row ∈ x :: l := by
      rcases hr with rfl | hr
      · exact List.mem_cons_self
      · exact List.mem_cons_of_mem _ hr
    rw [← hl] at hmem
    obtain ⟨hrow, hready⟩ := List.mem_filter.mp hmem
    simp only [Bool.and_eq_true, decide_eq_true_eq] at hready
    exact ⟨hrow, hready⟩

/-- An answer without an artifact says nothing of an object that could be loaded. -/
theorem noArtifact_answer {publicBaseUrl : Option String} {lookupKey : String}
    {artifactSet : Option ArtifactSet} {workKeys : List String} {jobs : JobTable} :
    (artifactStatus publicBaseUrl lookupKey none artifactSet workKeys jobs).contentType = none ∧
      (artifactStatus publicBaseUrl lookupKey none artifactSet workKeys jobs).publicUrl = none := by
  have hresting : ∀ job, (restingStatus lookupKey artifactSet job).contentType = none ∧
      (restingStatus lookupKey artifactSet job).publicUrl = none := by
    intro job
    unfold restingStatus
    cases artifactSet.filter fun set => set.status ≠ .ready with
    | some set => exact ⟨rfl, rfl⟩
    | none => cases job <;> exact ⟨rfl, rfl⟩
  unfold artifactStatus
  cases selectedJob jobs workKeys with
  | none => exact hresting none
  | some job =>
    simp only
    cases job.status with
    | queued => exact ⟨rfl, rfl⟩
    | running => exact ⟨rfl, rfl⟩
    | ready => exact hresting (some job)
    | failed => exact hresting (some job)
    | superseded => exact hresting (some job)

/-- The answer names an object of the bucket, as it is there. -/
def Serves (c : Setup) (publicBaseUrl : Option String) (bucket : Bucket)
    (response : ArtifactStatusResponse) : Prop :=
  ∃ key object, response.status = "ready" ∧ response.objectKey = some key ∧
    response.publicUrl = publicBaseUrl.map (fun base => publicUrl base key) ∧
    bucket key = some object ∧ response.contentType = some object.contentType ∧
    response.sizeBytes = some (object.bytes.size : Int) ∧
    response.sha256 = some (c.hexSha256 object.bytes)

end Answers

/-- The request has a ready artifact. -/
def Fulfilled (t : ArtifactTables) (requestHash : Option String) : Prop :=
  ∃ row ∈ t.sets.rows, row.requestHash ≠ none ∧ row.requestHash = requestHash ∧ row.status = .ready

end Pipeline
end OnshapeExport
