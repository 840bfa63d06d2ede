import OnshapeExport.CheckpointRuns
import OnshapeExport.ProjectRecords

/-!
# ProjectExecution

Any number of executions of project requests (`execute_inner` and `execute_job` of
`bambu_project.rs`), one durable step after the other, with crashes, changes of the catalog and of
the deployment, new requests and ordinary exports between any two. What Onshape, the generator, the
storage, the retention root and the clock answer comes with each step.

* `checkCurrent`, `prepareInputs`, `validatePrepared` — what an execution checks.
* `Stage` — how far a running execution is: a bound request is reopened, reconciled and published
  again; an unbound one is planned, acquired, generated, retained and bound first.
* `work`, `step` — one step of one execution, one step of the service.
-/

namespace OnshapeExport
namespace Projects

open CacheKey CacheModel Catalogs Checks Checkpoints Construction Deployed GeneratorArtifacts
  GeneratorPublication Json OnshapeApi Parameters Processing Protocol Relational Runner Selection
open Geometry (AcquiredGeometry TrustedAcquisitionPlan)
open Publishing (Publication)

/-- The hashes and the writers of the service. -/
structure Primitives where
  digests : Digests
  sizes : Annotation.Sizes
  hashes : ExportHashes
  artifacts : GeneratorHashes
  fileSha256 : ByteArray → String
  settingsSchema : Value
  jsonText : Value → String

/-- What the world answers to the calls of one step. -/
structure Replies where
  /-- The database answers. -/
  answered : Bool
  /-- `load_or_refresh_parameters`: an error, nothing yet, or a schema. -/
  parameters : Option (Option ParameterSchema)
  sourceHash : Option String
  outputRoot : Bool
  strictApi : Except ApiFailure Unit
  plan : Except ApiFailure TrustedAcquisitionPlan
  scratch : Bool
  geometry : Except ApiFailure AcquiredGeometry
  generated : Except GeneratorRunnerError VerifiedGeneratorOutput
  /-- The retention root as it is found, and whether a checkpoint can be written to it. -/
  root : Root
  written : Bool
  /-- A private copy of the candidate can be made and removed. -/
  retained : Bool
  cleaned : Bool
  uploaded : Bool
  verified : Bool
  stagedAt : Timestamp
  readyAt : Timestamp
  supersededAt : Timestamp

/-! ## Failures -/

def operational (code : String) : ProjectError := .failure "operational_failure" code

def runnerFailure : GeneratorRunnerError → ProjectError
  | .unsupportedCombination => .failure "unsupported_request" "generator_unsupported"
  | .structuredFailure result =>
    if result.errors ≠ [] ∧ ∀ e ∈ result.errors, e.category = .unsupportedRequest then
      .failure "unsupported_request" "generator_unsupported_request"
    else operational "generator_reported_failure"
  | .invalidInvocation => operational "generator_invocation_invalid"
  | .deploymentIntegrity => operational "deployment_integrity"
  | .spawn => operational "generator_start_failed"
  | .crash _ => operational "generator_crashed"
  | .unexpectedExit _ => operational "generator_unexpected_exit"
  | .timeout => operational "generator_timeout"
  | .missingResult => operational "generator_result_missing"
  | .malformedResult => operational "generator_protocol_invalid"
  | .resultIdentityMismatch => operational "generator_identity_mismatch"
  | .outputDeclarationMismatch => operational "generator_output_declaration_mismatch"
  | .unexpectedFiles => operational "generator_file_declaration_mismatch"
  | .candidateMissing => operational "generator_candidate_missing"
  | .candidateMismatch => operational "generator_candidate_integrity"
  | .cancelled => operational "generator_cancelled"
  | .staging => operational "generator_input_staging_failed"
  | .io => operational "generator_retention_failed"
  | .processCleanup | .cleanup => operational "generator_cleanup_failed"
  | .supervisor => operational "generator_supervisor_failed"

def publicationFailed : ProjectError := operational "project_publication_failed"

/-- A failure of the project stays; any other error is named. -/
def recipeFailure (code : String) : ProjectError → ProjectError
  | .failure category code => .failure category code
  | .message _ => operational code

/-! ## Checks -/

section Checks

variable (p : Primitives)

/-- `configured`, `validate_profile` and the work key. -/
def checkProfile (request : ProjectJob) (producingJobKey : String)
    (configured : Option DeployedGenerator) : Except ProjectError DeployedGenerator := do
  let generator ← orFailure configured "deployment_unavailable" "approved_generator_unavailable"
  ensure (request.identity p.digests = request.requestIdentity ∧
      request.generatorStaticIdentity = generator.staticIdentity p.digests ∧
      request.policyIdentity = profileIdentity p.digests generator)
    (.failure "stale_request" "project_profile_changed")
  ensure (producingJobKey = workKey request.requestIdentity)
    (.message "project work identity mismatch")
  return generator

/-- The row that an execution starts from. -/
def readRequest (request : ProjectJob) (t : Table BambuProjectRequestRecord) :
    Except ProjectError BambuProjectRequestRecord := do
  let stored ← orFailure (t.find? request.requestIdentity) "operational_failure"
    "request_record_missing"
  let json ← request.canonicalJson p.digests
  ensure (stored.requestJson = json) (.message "project request association mismatch")
  ensure (invalidOutputAssociation stored = false)
    (operational "stored_output_association")
  return stored

def publishedCatalogModel (models : List Model) (slug : String) : Option Model :=
  models.find? fun m => m.slug = slug && m.published

/-- Numbers that cannot be read are those of a schema that was never accepted. -/
def validatedValues (schema : ParameterSchema) (values : SortedMap String) (allowUnknown : Bool) :
    Except ProjectError ValidatedConfiguration :=
  match validateValues schema values allowUnknown with
  | some (.ok validated) => .ok validated
  | _ => .error (.failure "stale_request" "parameters_invalid")

/-- The request is what would be frozen for the model now. -/
def checkCurrent (request : ProjectJob) (models : List Model) (r : Replies) :
    Except ProjectError (Model × ValidatedConfiguration) := do
  let model ← orFailure (publishedCatalogModel models request.modelSlug) "stale_request"
    "model_unavailable"
  validateSelectors model request.selectors
  ensure (request.catalogIdentity = catalogIdentity p.digests model)
    (.failure "stale_request" "catalog_policy_changed")
  let found ← orFailure r.parameters "operational_failure" "parameter_metadata_failed"
  let schema ← orFailure found "operational_failure" "parameter_metadata_pending"
  let validated ← validatedValues schema request.values model.parameterPolicy.allowUnknown
  let sourceHash ← orFailure r.sourceHash "operational_failure" "source_resolution_failed"
  ensure (sourceHash = request.sourceHash ∧
      configurationHash p.hashes sourceHash validated = request.configHash)
    (.failure "stale_request" "source_or_configuration_changed")
  return (model, validated)

/-- The limits of the objects, whose lengths are counted with those before them. -/
def limitsFrom : Nat → List Protocol.InputObject → Bool
  | _, [] => true
  | total, o :: os =>
    o.retainedContent.mediaType = "model/3mf" &&
      o.retainedContent.byteLength ≤ maxGeometryFileBytes &&
      total + o.retainedContent.byteLength ≤ maxGeometryTotalBytes &&
      limitsFrom (total + o.retainedContent.byteLength) os

def validateInputLimits (manifest : Protocol.InputManifest) : Except ProjectError Unit :=
  ensure (limitsFrom 0 manifest.objects = true) (.failure "unsupported_request" "input_limit_exceeded")

def validatePrepared (request : ProjectJob) (generator : DeployedGenerator)
    (prepared : PreparedGeneratorProcessing) : Except ProjectError Unit := do
  let recipe := prepared.recipe
  let policy := inputPolicy generator
  let protocol := protocolInputs generator
  validateInputLimits recipe.inputManifest
  ensure (recipe.inputManifest.sourceIdentity = request.sourceHash ∧
      recipe.inputManifest.objects.length = request.selectors.length ∧
      recipe.inputManifest.requirementsIdentity = policy.requirementsIdentity ∧
      recipe.inputManifest.export_.kindIdentity = policy.inputKindIdentity ∧
      recipe.inputManifest.export_.schemaIdentity = policy.inputSchemaIdentity ∧
      (∀ o ∈ recipe.inputManifest.objects, o.retainedContent.mediaType = policy.mediaType ∧
        o.retainedContent.detectedKindIdentity = policy.detectedKindIdentity) ∧
      recipe.invocation.inputManifest.path = protocol.manifestPath ∧
      recipe.invocation.settings.content.contentIdentity = protocol.settingsContentIdentity ∧
      recipe.invocation.settings.content.path = protocol.settingsPath ∧
      recipe.invocation.settings.content.mediaType = protocol.settingsMediaType ∧
      recipe.invocation.settings.content.detectedKindIdentity =
        protocol.settingsDetectedKindIdentity ∧
      recipe.invocation.output = protocol.output)
    (.message "project recipe does not match its frozen request policy")

def constructionPolicy (generator : DeployedGenerator) : Construction.GeneratorInputPolicy :=
  let policy := inputPolicy generator
  ⟨policy.requirementsIdentity, policy.inputKindIdentity, policy.inputSchemaIdentity,
    policy.detectedKindIdentity, policy.mediaType⟩

/-- From acquired geometry to the recipe of an invocation. -/
def prepareInputs (request : ProjectJob) (generator : DeployedGenerator)
    (trusted : TrustedAcquisitionPlan) (acquired : AcquiredGeometry) :
    Except ProjectError PreparedGeneratorProcessing := do
  let inputs ← (constructGeneratorInputs p.digests p.sizes p.hashes p.settingsSchema trusted acquired
    (constructionPolicy generator)).mapError fun _ => operational "generator_inputs_invalid"
  validateInputLimits inputs.manifest
  let prepared ← (prepareGeneratorProcessing p.digests p.sizes p.settingsSchema generator
    (compatibility generator) inputs.manifest inputs.settings inputs.expectedPlacements
    (protocolInputs generator)).mapError fun _ => operational "generator_recipe_invalid"
  (validatePrepared request generator prepared).mapError (recipeFailure "recipe_request_mismatch")
  return prepared

/-- `persist` of the checkpoints; its writes are those of `CheckpointRuns`. -/
def persist (r : Replies) (prepared : PreparedGeneratorProcessing)
    (output : VerifiedGeneratorOutput) : Except CheckpointError String := do
  passes p.digests r.root output prepared
  measureCopy p.fileSha256 (receiptOf output) output.bytes
  ensure (r.written = true) .io
  return checkpointIdentity p.digests (receiptOf output)

end Checks

/-! ## Publishing -/

section Publishing

variable (p : Primitives)

/-- Where the output of an execution goes. -/
def publicationOf (request : ProjectJob) (generator : DeployedGenerator)
    (producingJobKey : String) : GeneratorPublicationTarget :=
  target p.jsonText request generator (some producingJobKey)

def validateDeployment (generator : DeployedGenerator) (prepared : PreparedGeneratorProcessing)
    (publication : GeneratorPublicationTarget) : Except ProjectError Unit := do
  let recipe := prepared.recipe
  (validateTarget (recorded p.digests prepared) publication).mapError fun _ => publicationFailed
  ensure (recipe.deployedGeneratorIdentity = generator.staticIdentity p.digests ∧
    recipe.compatibilityDecision = .supported) publicationFailed
  (generator.ensureCompatible (storedCompatibility recipe)).mapError fun _ => publicationFailed
  ensure (recipe.invocation.expectedIdentities = generator.identityBindings recipe.settingsIdentity)
    publicationFailed

/-- `retain_candidate`: the accepted bytes are copied and measured again. -/
def retainCandidate (r : Replies) (prepared : PreparedGeneratorProcessing)
    (output : VerifiedGeneratorOutput) : Except ProjectError MeasuredCandidate := do
  let request := prepared.recipe.invocation
  ensure (output.processingHash = prepared.processingHash ∧
    output.invocationIdentity = request.invocationIdentity) publicationFailed
  ensure (output.result.status = .success) publicationFailed
  (output.result.validateAgainstRequest p.digests request).mapError fun _ => publicationFailed
  match output.result.output with
  | none => throw publicationFailed
  | some declared =>
    ensure (declared.byteLength ≤ Recipes.i64Max) publicationFailed
    ensure (r.retained = true) publicationFailed
    ensure (Measures p.fileSha256 declared output.bytes) publicationFailed
    return ⟨output.bytes.size, p.fileSha256 output.bytes,
      p.jsonText (GeneratorResult.codec.enc output.result)⟩

/-- The set a reconciliation finds, when all it declares is what is published. -/
def reconcilable (generator : DeployedGenerator) (prepared : PreparedGeneratorProcessing)
    (publication : GeneratorPublicationTarget) (db : GeneratorArtifacts.Database) :
    Option (Artifacts.ArtifactSet × GeneratorArtifactFile) :=
  match validateDeployment p generator prepared publication with
  | .error _ => none
  | .ok () =>
    match loadGeneratorArtifact p.artifacts (recorded p.digests prepared) publication.outputKind
        publication.format db.recipes db.artifacts with
    | .ok (some (set, file)) =>
      if set.metadataJson ≠ ⟨publication.modelSlug, publication.producingJobKey,
          some publication.parameterSchemaVersion, some publication.configValuesJson⟩ then none
      else
        match parseResult p.digests.text file.metadataJson.toByteArray with
        | .error _ => none
        | .ok metadata =>
          match metadata.validateAgainstRequest p.digests prepared.recipe.invocation,
              metadata.output with
          | .ok (), some output =>
            if metadata.status = .success ∧ file.role = "generated_project" ∧
                file.logicalPath = publication.logicalPath ∧ file.originalPath = none ∧
                file.objectKey = generatorPublicationObjectKey p.artifacts
                  (recorded p.digests prepared) publication ∧
                file.contentType = prepared.recipe.invocation.output.mediaType ∧
                file.byteLen = output.byteLength ∧ file.sha256 = output.sha256 then
              some (set, file)
            else none
          | _, _ => none
    | _ => none

/-- A set that did not verify is withdrawn: a ready one only in the version that was seen. -/
def recordVerificationFailure (now : Timestamp) (status : Artifacts.ArtifactStatus)
    (artifactSetHash : String) (updatedAt : Timestamp) : GeneratorArtifacts.Op :=
  if status = .ready then .failReadyVerification now artifactSetHash updatedAt
  else .fail now artifactSetHash

end Publishing

/-! ## Executions -/

/-- How far a running execution is, with what it has in hand. -/
inductive Stage where
  | check
  /-- The row is bound: its recipe is reopened. -/
  | reopen (processingHash : String)
  | reconcile (prepared : PreparedGeneratorProcessing)
  | verify (prepared : PreparedGeneratorProcessing) (set : Artifacts.ArtifactSet)
      (file : GeneratorArtifactFile)
  | checkpoint (prepared : PreparedGeneratorProcessing)
  /-- The row is not bound. -/
  | plan
  | acquire (trusted : TrustedAcquisitionPlan)
  | generate (prepared : PreparedGeneratorProcessing)
  | retain (prepared : PreparedGeneratorProcessing) (output : VerifiedGeneratorOutput)
  | insertRecipe (prepared : PreparedGeneratorProcessing) (output : VerifiedGeneratorOutput)
      (snapshot : String)
  | bind (prepared : PreparedGeneratorProcessing) (output : VerifiedGeneratorOutput)
      (snapshot : String)
  /-- The row is bound to what is in hand: it is staged, stored and completed. -/
  | publish (prepared : PreparedGeneratorProcessing) (output : VerifiedGeneratorOutput)
  | store (prepared : PreparedGeneratorProcessing) (output : VerifiedGeneratorOutput)
      (state : GeneratorArtifactState)

inductive Phase where
  | started
  | running (generator : DeployedGenerator) (stage : Stage)
  /-- What happened is recorded in the row. -/
  | record (answer : Except ProjectError Unit)
  | finished (answer : Except ProjectError Unit)
  | crashed

/-- What an execution asks of Onshape and of the generator. -/
inductive Call where
  | plan
  | acquire
  | generate
deriving DecidableEq, Repr

/-- One execution, with the row it has read and the calls it has made. -/
structure Execution where
  request : ProjectJob
  producingJobKey : String
  stored : Option BambuProjectRequestRecord
  calls : List Call
  phase : Phase

def Execution.go (e : Execution) (generator : DeployedGenerator) (stage : Stage) : Execution :=
  { e with phase := .running generator stage }

def Execution.answer (e : Execution) (answer : Except ProjectError Unit) : Execution :=
  { e with phase := .record answer }

/-- On to a stage, or to the record of a failure. -/
def Execution.next (e : Execution) (generator : DeployedGenerator) :
    Except ProjectError Stage → Execution
  | .ok stage => e.go generator stage
  | .error error => e.answer (.error error)

def Execution.call (e : Execution) (call : Call) : Execution :=
  { e with calls := e.calls ++ [call] }

/-- The catalog, the deployment and the tables, with the executions under way. -/
structure State where
  configured : Option DeployedGenerator
  models : List Model
  requests : Table BambuProjectRequestRecord
  database : GeneratorArtifacts.Database
  executions : List Execution

def initial (configured : Option DeployedGenerator) (models : List Model) : State :=
  ⟨configured, models, .empty, .empty, []⟩

def State.put (s : State) (i : Nat) (e : Execution) : State :=
  { s with executions := s.executions.set i e }

section Step

variable (p : Primitives)

/-- The row is read, and what runs is the request of the row. -/
def beginExecution (s : State) (e : Execution) (r : Replies) : Execution :=
  match checkProfile p e.request e.producingJobKey s.configured with
  | .error error => e.answer (.error error)
  | .ok generator =>
    if !r.answered then e.answer (.error (.message "database"))
    else
      match readRequest p e.request s.requests with
      | .error error => e.answer (.error error)
      | .ok stored => { e with stored := some stored }.go generator .check

/-- The two branches of an execution. -/
def branch (e : Execution) (stored : BambuProjectRequestRecord) (models : List Model)
    (r : Replies) : Except ProjectError Stage := do
  let _ ← checkCurrent p e.request models r
  match stored.processingHash with
  | some hash => return .reopen hash
  | none => do
    ensure (r.outputRoot = true) (.failure "deployment_unavailable" "output_retention_unavailable")
    r.strictApi.mapError apiFailure
    return .plan

def reopenStage (s : State) (e : Execution) (generator : DeployedGenerator) (hash : String)
    (r : Replies) : Except ProjectError Stage := do
  ensure (r.answered = true) (operational "stored_recipe_integrity")
  let prepared ← (reopenRecorded p.digests p.sizes p.settingsSchema generator hash
    s.database.recipes).mapError fun _ => operational "stored_recipe_integrity"
  (validatePrepared e.request generator prepared).mapError (recipeFailure "stored_recipe_policy")
  return .reconcile prepared

/-- Whatever keeps a reconciliation from its end, the checkpoint is tried next. -/
def reconcileStage (s : State) (e : Execution) (generator : DeployedGenerator)
    (prepared : PreparedGeneratorProcessing) (r : Replies) : Stage :=
  if !r.answered then .checkpoint prepared
  else
    match reconcilable p generator prepared (publicationOf p e.request generator e.producingJobKey)
        s.database with
    | some (set, file) => .verify prepared set file
    | none => .checkpoint prepared

def checkpointStage (stored : BambuProjectRequestRecord)
    (prepared : PreparedGeneratorProcessing) (r : Replies) : Except ProjectError Stage := do
  let snapshot ← orFailure stored.outputSnapshotIdentity "operational_failure"
    "project_input_recovery_required"
  ensure (r.outputRoot = true) (.failure "deployment_unavailable" "output_retention_unavailable")
  let output ← (reopen p.digests p.fileSha256 r.root snapshot prepared).mapError
    fun _ => operational "output_snapshot_integrity"
  return .publish prepared output

def planStage (e : Execution) (r : Replies) : Except ProjectError Stage := do
  let trusted ← r.plan.mapError apiFailure
  ensure (trusted.record.configurationEncoding.sourceHash = e.request.sourceHash ∧
      trusted.record.configurationEncoding.configHash = e.request.configHash)
    (.failure "stale_request" "acquisition_request_changed")
  return .acquire trusted

def acquireStage (e : Execution) (generator : DeployedGenerator)
    (trusted : TrustedAcquisitionPlan) (r : Replies) : Except ProjectError Stage := do
  let acquired ← r.geometry.mapError apiFailure
  let prepared ← prepareInputs p e.request generator trusted acquired
  return .generate prepared

def retainStage (prepared : PreparedGeneratorProcessing) (output : VerifiedGeneratorOutput)
    (r : Replies) : Except ProjectError Stage := do
  let snapshot ← (persist p r prepared output).mapError
    fun _ => operational "output_snapshot_persistence"
  -- `bind_bambu_project_output` looks at the identity before it writes anything
  ensure (validGeneratorSha256 snapshot = true) (operational "recipe_association_failed")
  return .insertRecipe prepared output snapshot

/-- Everything that is checked and staged of a publication. -/
def publishStage (s : State) (e : Execution) (generator : DeployedGenerator)
    (prepared : PreparedGeneratorProcessing) (output : VerifiedGeneratorOutput) (r : Replies) :
    State × Except ProjectError Stage :=
  let publication := publicationOf p e.request generator e.producingJobKey
  match (do validateDeployment p generator prepared publication; retainCandidate p r prepared output) with
  | .error error => (s, .error error)
  | .ok candidate =>
    if !r.answered then (s, .error publicationFailed)
    else
      let kept := recorded p.digests prepared
      match stageOrResumeGeneratorArtifact p.artifacts r.stagedAt kept
          (stageFor p.artifacts kept publication candidate)
          [fileFor p.artifacts kept publication candidate] s.database with
      | (.error _, db) => ({ s with database := db }, .error publicationFailed)
      | (.ok state, db) => ({ s with database := db }, .ok (.store prepared output state))

/-- One call on the artifact tables. -/
def State.apply (s : State) (op : GeneratorArtifacts.Op) : State :=
  { s with database := GeneratorArtifacts.step p.artifacts s.database op }

/-- The completion of a stored set, with whether it is ready. -/
def completeSet (s : State) (e : Execution) (generator : DeployedGenerator)
    (prepared : PreparedGeneratorProcessing) (r : Replies) : State × Bool :=
  let publication := publicationOf p e.request generator e.producingJobKey
  let kept := recorded p.digests prepared
  match completeGeneratorArtifact p.artifacts r.readyAt r.supersededAt kept publication.outputKind
      publication.format (generatorPublicationObjectKey p.artifacts kept publication) s.database with
  | (.ok true, db) => ({ s with database := db }, true)
  | (_, db) => ({ s with database := db }, false)

/-- A reconciliation ends: the object is verified, and its set completed or withdrawn. -/
def verifyStage (s : State) (e : Execution) (generator : DeployedGenerator)
    (prepared : PreparedGeneratorProcessing) (set : Artifacts.ArtifactSet) (r : Replies) :
    State × Execution :=
  if !r.answered then (s, e.go generator (.checkpoint prepared))
  else if !r.verified then
    (s.apply p (recordVerificationFailure r.stagedAt set.status set.artifactSetHash set.updatedAt),
      e.go generator (.checkpoint prepared))
  else
    match completeSet p s e generator prepared r with
    | (s', true) => (s', e.answer (.ok ()))
    | (s', false) => (s', e.go generator (.checkpoint prepared))

/-- The upload and its verification; a set that is ready is not uploaded again. -/
def storedObject (state : GeneratorArtifactState) (r : Replies) : Except ProjectError Unit := do
  ensure (state.status = .ready ∨ r.uploaded = true) (operational "project_upload_failed")
  ensure (r.verified = true) (operational "project_storage_verification_failed")

/-- A publication ends. -/
def storeStage (s : State) (e : Execution) (generator : DeployedGenerator)
    (prepared : PreparedGeneratorProcessing) (state : GeneratorArtifactState) (r : Replies) :
    State × Except ProjectError Unit :=
  if !r.answered then (s, .error publicationFailed)
  else
    match storedObject state r with
    | .error error =>
      (s.apply p (recordVerificationFailure r.stagedAt state.status state.artifactSetHash
        state.updatedAt), .error error)
    | .ok () =>
      if !r.cleaned then
        (s.apply p (.fail r.stagedAt state.artifactSetHash), .error publicationFailed)
      else
        match completeSet p s e generator prepared r with
        | (s', true) => (s', .ok ())
        | (s', false) => (s', .error publicationFailed)

/-- What `execute_job` records and answers. -/
def endExecution (s : State) (e : Execution) (answer : Except ProjectError Unit) (r : Replies) :
    State × Execution :=
  let (category, code) : Option String × Option String :=
    match answer with
    | .ok () => (none, none)
    | .error (.failure category code) => (some category, some code)
    | .error (.message _) => (some "operational_failure", some "project_operation_failed")
  if !r.answered then (s, { e with phase := .finished (.error (.message "database")) })
  else
    let s' := { s with
      requests := recordBambuProjectFailure e.request.requestIdentity category code s.requests }
    match category, code with
    | some category, some code =>
      if category = "unavailable_source_state" ∨ category = "unsupported_request" then
        (s', { e with phase := .finished (.ok ()) })
      else (s', { e with phase := .finished (.error (.failure category code)) })
    | _, _ => (s', { e with phase := .finished (.ok ()) })

/-- The row is bound to the recipe and the checkpoint in hand. -/
def bindRow (s : State) (e : Execution) (prepared : PreparedGeneratorProcessing)
    (snapshot : String) (r : Replies) : Except ProjectError (Table BambuProjectRequestRecord) := do
  let json ← e.request.canonicalJson p.digests
  ensure (r.answered = true) (operational "recipe_association_failed")
  (bindTransaction e.request.requestIdentity json prepared.processingHash snapshot
    s.database.recipes s.requests).mapError fun _ => operational "recipe_association_failed"

/-- The recipe in hand is inserted. -/
def insertRecipeRow (s : State) (prepared : PreparedGeneratorProcessing) (r : Replies) :
    Except ProjectError (Bool × Recipes.RecipeTables) := do
  ensure (r.answered = true) (operational "recipe_association_failed")
  (Recipes.insertGeneratorProcessingRecipe (recorded p.digests prepared)
    s.database.recipes).mapError fun _ => operational "recipe_association_failed"

/-- One step of a running execution. -/
def advance (s : State) (e : Execution) (generator : DeployedGenerator)
    (stored : BambuProjectRequestRecord) (r : Replies) : Stage → State × Execution
  | .check => (s, e.next generator (branch p e stored s.models r))
  | .reopen hash => (s, e.next generator (reopenStage p s e generator hash r))
  | .reconcile prepared => (s, e.go generator (reconcileStage p s e generator prepared r))
  | .verify prepared set _ => verifyStage p s e generator prepared set r
  | .checkpoint prepared => (s, e.next generator (checkpointStage p stored prepared r))
  | .plan => (s, (e.call .plan).next generator (planStage e r))
  | .acquire trusted =>
    if !r.scratch then (s, e.answer (.error (operational "retention_directory_failed")))
    else (s, (e.call .acquire).next generator (acquireStage p e generator trusted r))
  | .generate prepared =>
    (s, (e.call .generate).next generator
      ((r.generated.mapError runnerFailure).map (.retain prepared)))
  | .retain prepared output => (s, e.next generator (retainStage p prepared output r))
  | .insertRecipe prepared output snapshot =>
    match insertRecipeRow p s prepared r with
    | .error error => (s, e.answer (.error error))
    | .ok (_, recipes) =>
      ({ s with database := ⟨recipes, s.database.artifacts⟩ },
        e.go generator (.bind prepared output snapshot))
  | .bind prepared output snapshot =>
    match bindRow p s e prepared snapshot r with
    | .error error => (s, e.answer (.error error))
    | .ok requests => ({ s with requests := requests }, e.go generator (.publish prepared output))
  | .publish prepared output =>
    match publishStage p s e generator prepared output r with
    | (s', answer) => (s', e.next generator answer)
  | .store prepared _ state =>
    match storeStage p s e generator prepared state r with
    | (s', answer) => (s', e.answer answer)

/-- One step of an execution. -/
def work (s : State) (e : Execution) (r : Replies) : State × Execution :=
  match e.phase with
  | .started => (s, beginExecution p s e r)
  | .running generator stage =>
    match e.stored with
    | none => (s, e)
    | some stored => advance p s e generator stored r stage
  | .record answer => endExecution s e answer r
  | .finished _ | .crashed => (s, e)

inductive Action where
  | replaceCatalog (models : List Model)
  | deploy (configured : Option DeployedGenerator)
  | enqueue (answers : Answers) (model : Model) (validated : ValidatedConfiguration)
      (selectors : List SelectionSelector)
  | start (request : ProjectJob) (producingJobKey : String)
  | work (execution : Nat) (replies : Replies)
  | crash (execution : Nat)
  | stageArtifact (now : Timestamp) (publication : Publication)

def step (s : State) : Action → State
  | .replaceCatalog models => { s with models := models }
  | .deploy configured => { s with configured := configured }
  | .enqueue answers model validated selectors =>
    match freeze p.digests p.hashes { answers with configured := s.configured } model validated
        selectors with
    | .error _ => s
    | .ok (request, json) =>
      match insertBambuProjectRequest request.requestIdentity json s.requests with
      | .error _ => s
      | .ok requests => { s with requests := requests }
  | .start request producingJobKey =>
    { s with executions := s.executions ++ [⟨request, producingJobKey, none, [], .started⟩] }
  | .work i r =>
    match s.executions[i]? with
    | none => s
    | some e => ((Projects.work p s e r).1).put i (Projects.work p s e r).2
  | .crash i =>
    match s.executions[i]? with
    | none => s
    | some e => s.put i { e with phase := .crashed }
  | .stageArtifact now publication => s.apply p (.stageArtifact now publication)

end Step

end Projects
end OnshapeExport
