import OnshapeExport.CacheModel
import OnshapeExport.OnshapeApi
import OnshapeExport.Publication
import OnshapeExport.Recipes

/-!
# GeneratorArtifacts

The generator's artifact sets in `db.rs`. A set is named by its recipe, keeps one file, and its
row is written by five calls: `stage_or_resume_generator_artifact`, `fail_generator_artifact`,
`fail_ready_generator_verification`, `complete_generator_artifact`, and the `stage_artifact` of
the export path. Every transition of a pending or ready set moves `updated_at` past its old value,
which makes it the version a withdrawal has to name.

* `loadGeneratorArtifact` — the row and the file of a set, with every check a reader makes.
* `Op.apply` — one call, with what it answers; a call that fails commits no artifact table.
* `Writes`, `apply_writes` — all a call can do to the artifact tables.
-/

namespace OnshapeExport
namespace GeneratorArtifacts

open Relational Artifacts CacheModel OnshapeApi Publishing Recipes

structure Database where
  recipes : RecipeTables
  artifacts : ArtifactTables

def Database.empty : Database := ⟨.empty, .empty⟩

/-- What a caller stages, but for its file. -/
structure GeneratorArtifactStage where
  modelSlug : String
  outputKind : String
  format : String
  objectKey : String
  contentType : String
  byteLen : Int
  sha256 : String
  producingJobKey : Option String
  parameterSchemaVersion : Int
  configValuesJson : String
deriving DecidableEq, Repr

/-- A file as it is inserted and as it is stored, but for its set. -/
structure GeneratorArtifactFile where
  role : String
  logicalPath : String
  originalPath : Option String
  objectKey : String
  contentType : String
  byteLen : Int
  sha256 : String
  metadataJson : String
deriving DecidableEq, Repr

structure GeneratorArtifactState where
  artifactSetHash : String
  status : ArtifactStatus
  updatedAt : Timestamp
deriving DecidableEq, Repr

def GeneratorArtifactFile.row (f : GeneratorArtifactFile) (artifactSetHash : String) :
    ArtifactFile :=
  ⟨artifactSetHash, f.role, f.logicalPath, f.originalPath, f.objectKey, f.contentType, f.byteLen,
    f.sha256, f.metadataJson⟩

def storedFile (f : ArtifactFile) : GeneratorArtifactFile :=
  ⟨f.role, f.logicalPath, f.originalPath, f.objectKey, f.contentType, f.byteLen, f.sha256,
    f.metadataJson⟩

/-! ## Checks -/

def validGeneratorSha256 (hash : String) : Bool := isSha256 hash

/-- The Unicode control characters. -/
def isControl (c : Char) : Bool := c.toNat < 32 || (127 ≤ c.toNat && c.toNat < 160)

def validGeneratorLogicalPath (path : String) : Bool :=
  path ≠ "" && path ≠ "." && path ≠ ".." &&
    path.toList.all fun c => c ≠ '/' && c ≠ '\\' && !isControl c

/-- What staging and loading both ask of a file. -/
def acceptableFile (recipe : GeneratorProcessingRecipe) (f : GeneratorArtifactFile) : Bool :=
  f.role = "generated_project" && f.originalPath.isNone &&
    validGeneratorLogicalPath f.logicalPath &&
    f.contentType = recipe.invocation.output.mediaType && 0 < f.byteLen &&
    validGeneratorSha256 f.sha256 && f.byteLen ≤ recipe.invocation.output.maxByteLength

def matchesStage (artifact : GeneratorArtifactStage) (f : GeneratorArtifactFile) : Bool :=
  f.objectKey = artifact.objectKey && f.contentType = artifact.contentType &&
    f.byteLen = artifact.byteLen && f.sha256 = artifact.sha256

section Calls

variable (hashes : GeneratorHashes)

def generatorOptionsHash (prepared : PreparedGeneratorProcessing) (format : String) : String :=
  hashes.optionsHash format "generator-project-v1"
    ⟨prepared.recipe.compatibility.dialectIdentity,
     prepared.recipe.compatibility.capabilityIdentities, prepared.recipe.settingsIdentity,
     prepared.recipe.settingsSchemaIdentity⟩

def generatorArtifactSetIdentity (prepared : PreparedGeneratorProcessing)
    (outputKind format : String) : ArtifactSetIdentity where
  artifactSetSchemaVersion := artifactSetSchemaVersion
  outputKind := outputKind
  format := format
  sourceHash := prepared.recipe.inputManifest.sourceIdentity
  configHash := prepared.recipe.inputManifest.configurationIdentity
  optionsHash := generatorOptionsHash hashes prepared format
  requestHash := none
  rawPayloadHash := none
  postprocessHash := prepared.processingHash
  generatorProcessingHash := some prepared.processingHash

def generatorArtifactSetHash (prepared : PreparedGeneratorProcessing)
    (outputKind format : String) : String :=
  hashes.artifactSetHash (generatorArtifactSetIdentity hashes prepared outputKind format)

/-- The row is the set of the recipe, and neither superseded nor in an unknown status. -/
def loadable (prepared : PreparedGeneratorProcessing) (outputKind format : String)
    (record : ArtifactSet) : Bool :=
  let identity := generatorArtifactSetIdentity hashes prepared outputKind format
  prepared.recipe.compatibilityDecision = .supported &&
    record.sourceHash = identity.sourceHash && record.configHash = identity.configHash &&
    record.optionsHash = identity.optionsHash && record.outputKind = outputKind &&
    record.format = format && record.requestHash.isNone && record.rawPayloadHash.isNone &&
    record.postprocessHash = some prepared.processingHash &&
    record.generatorProcessingHash = some prepared.processingHash &&
    record.status ≠ .superseded && record.Unsuperseded

def loadGeneratorArtifact (prepared : PreparedGeneratorProcessing) (outputKind format : String)
    (recipes : RecipeTables) (t : ArtifactTables) :
    Except DbError (Option (ArtifactSet × GeneratorArtifactFile)) :=
  let hash := generatorArtifactSetHash hashes prepared outputKind format
  match t.sets.find? hash with
  | none => .ok none
  | some record =>
    if !loadable hashes prepared outputKind format record then .error generatorArtifactConflict
    else
      match verifyPersistedGeneratorRecipe prepared recipes with
      | .error e => .error e
      | .ok () =>
        match t.filesOf hash with
        | [row] =>
          let file := storedFile row
          if acceptableFile prepared.recipe file &&
              record.primaryObjectKey = some file.objectKey && file.objectKey ≠ "" then
            .ok (some (record, file))
          else .error generatorArtifactConflict
        | _ => .error generatorArtifactConflict

/-! ## The calls -/

/-- The row `stage_or_resume_generator_artifact` inserts. -/
def generatorSet (now : Timestamp) (prepared : PreparedGeneratorProcessing)
    (artifact : GeneratorArtifactStage) : ArtifactSet :=
  let identity := generatorArtifactSetIdentity hashes prepared artifact.outputKind artifact.format
  { artifactSetHash :=
      generatorArtifactSetHash hashes prepared artifact.outputKind artifact.format
    sourceHash := identity.sourceHash
    configHash := identity.configHash
    optionsHash := identity.optionsHash
    requestHash := none
    rawPayloadHash := none
    postprocessHash := some prepared.processingHash
    generatorProcessingHash := some prepared.processingHash
    outputKind := artifact.outputKind
    format := artifact.format
    status := .staged
    primaryObjectKey := some artifact.objectKey
    metadataJson := ⟨artifact.modelSlug, artifact.producingJobKey,
      some artifact.parameterSchemaVersion, some artifact.configValuesJson⟩
    createdAt := now
    updatedAt := now
    supersededAt := none
    supersededBy := none
    supersessionReason := none }

/-- The transaction that follows the recipe's: what it answers and commits. -/
def stageTransaction (now : Timestamp) (prepared : PreparedGeneratorProcessing)
    (artifact : GeneratorArtifactStage) (file : GeneratorArtifactFile) (recipes : RecipeTables)
    (t : ArtifactTables) : Except DbError (GeneratorArtifactState × ArtifactTables) :=
  let row := generatorSet hashes now prepared artifact
  let (inserted, sets) := t.sets.insertOrIgnore row
  match insertFiles (if inserted then [file.row row.artifactSetHash] else []) t.files with
  | .error e => .error e
  | .ok files =>
    match loadGeneratorArtifact hashes prepared artifact.outputKind artifact.format recipes
        ⟨sets, files⟩ with
    | .error e => .error e
    | .ok none => .error generatorArtifactConflict
    | .ok (some (record, stored)) =>
      if record.primaryObjectKey ≠ some artifact.objectKey ∨
          record.metadataJson ≠ row.metadataJson ∨ stored ≠ file then
        .error generatorArtifactConflict
      else .ok (⟨row.artifactSetHash, record.status, record.updatedAt⟩, ⟨sets, files⟩)

/-- The recipe is committed before the artifact is staged, and stays when staging fails. -/
def stageOrResumeGeneratorArtifact (now : Timestamp) (prepared : PreparedGeneratorProcessing)
    (artifact : GeneratorArtifactStage) (files : List GeneratorArtifactFile) (db : Database) :
    Except DbError GeneratorArtifactState × Database :=
  match prepared.recipe.compatibilityDecision, files with
  | .supported, [file] =>
    if !(matchesStage artifact file && acceptableFile prepared.recipe file) then
      (.error generatorArtifactConflict, db)
    else
      match insertGeneratorProcessingRecipe prepared db.recipes with
      | .error e => (.error e, db)
      | .ok (_, recipes) =>
        match stageTransaction hashes now prepared artifact file recipes db.artifacts with
        | .error e => (.error e, ⟨recipes, db.artifacts⟩)
        | .ok (state, t) => (.ok state, ⟨recipes, t⟩)
  | _, _ => (.error generatorArtifactConflict, db)

/-- Every transition of a generator set moves `updated_at`. -/
def advancedSet (now : Timestamp) (status : ArtifactStatus) (r : ArtifactSet) : ArtifactSet :=
  { r with status := status, updatedAt := max now (r.updatedAt + 1) }

def advanceSets (now : Timestamp) (status : ArtifactStatus) (p : ArtifactSet → Bool)
    (t : ArtifactTables) : ArtifactTables :=
  t.updateSets p (advancedSet now status) ⟨fun _ => rfl, fun _ _ => .rfl⟩

def isPending (r : ArtifactSet) : Bool :=
  (r.status = .staged || r.status = .uploadFailed) && r.Unsuperseded

def failGeneratorArtifact (now : Timestamp) (artifactSetHash : String) (t : ArtifactTables) :
    Bool × ArtifactTables :=
  let p : ArtifactSet → Bool := fun r =>
    isSet artifactSetHash r && r.generatorProcessingHash.isSome && isPending r
  (t.sets.affected p == 1, advanceSets now .uploadFailed p t)

/-- The generator set of the hash, ready since the version the caller observed. -/
def isObserved (artifactSetHash : String) (expectedUpdatedAt : Timestamp) (r : ArtifactSet) :
    Bool :=
  isSet artifactSetHash r && r.generatorProcessingHash.isSome && r.status = .ready &&
    r.updatedAt = expectedUpdatedAt && r.Unsuperseded

def failReadyGeneratorVerification (now : Timestamp) (artifactSetHash : String)
    (expectedUpdatedAt : Timestamp) (t : ArtifactTables) : Bool × ArtifactTables :=
  (t.sets.affected (isObserved artifactSetHash expectedUpdatedAt) == 1,
   advanceSets now .uploadFailed (isObserved artifactSetHash expectedUpdatedAt) t)

/-- The transaction: its two updates read the clock one after the other. -/
def completeTransaction (readyAt supersededAt : Timestamp)
    (prepared : PreparedGeneratorProcessing) (outputKind format objectKey : String)
    (recipes : RecipeTables) (t : ArtifactTables) : Except DbError (Bool × ArtifactTables) :=
  match loadGeneratorArtifact hashes prepared outputKind format recipes t with
  | .error e => .error e
  | .ok none => .ok (false, t)
  | .ok (some (record, file)) =>
    let hash := generatorArtifactSetHash hashes prepared outputKind format
    if file.objectKey ≠ objectKey then .error generatorArtifactConflict
    else if record.status ≠ .ready then
      let t' := advanceSets readyAt .ready (fun r => isSet hash r && isPending r) t
      let key : OutputKey := ⟨record.sourceHash, record.configHash, record.optionsHash, outputKind⟩
      .ok (true, (supersedeReadyArtifactsForOutput supersededAt key hash (some "replaced") t').2)
    else .ok (true, t)

def completeGeneratorArtifact (readyAt supersededAt : Timestamp)
    (prepared : PreparedGeneratorProcessing) (outputKind format objectKey : String)
    (db : Database) : Except DbError Bool × Database :=
  match completeTransaction hashes readyAt supersededAt prepared outputKind format objectKey
      db.recipes db.artifacts with
  | .error e => (.error e, db)
  | .ok (done, t) => (.ok done, { db with artifacts := t })

/-- One call, with the clock readings of its statements. -/
inductive Op where
  | stageOrResume (now : Timestamp) (prepared : PreparedGeneratorProcessing)
      (artifact : GeneratorArtifactStage) (files : List GeneratorArtifactFile)
  | fail (now : Timestamp) (artifactSetHash : String)
  | failReadyVerification (now : Timestamp) (artifactSetHash : String)
      (expectedUpdatedAt : Timestamp)
  | complete (readyAt supersededAt : Timestamp) (prepared : PreparedGeneratorProcessing)
      (outputKind format objectKey : String)
  | stageArtifact (now : Timestamp) (p : Publication)

/-- The call's answer, without its value, and the database it leaves. -/
def Op.apply (db : Database) : Op → Except DbError Unit × Database
  | .stageOrResume now prepared artifact files =>
    let out := stageOrResumeGeneratorArtifact hashes now prepared artifact files db
    (out.1.map fun _ => (), out.2)
  | .fail now h => (.ok (), { db with artifacts := (failGeneratorArtifact now h db.artifacts).2 })
  | .failReadyVerification now h expected =>
    (.ok (), { db with artifacts := (failReadyGeneratorVerification now h expected
      db.artifacts).2 })
  | .complete readyAt supersededAt prepared outputKind format objectKey =>
    let out := completeGeneratorArtifact hashes readyAt supersededAt prepared outputKind format
      objectKey db
    (out.1.map fun _ => (), out.2)
  | .stageArtifact now p =>
    match Artifacts.stageArtifact now p.artifact p.files db.artifacts with
    | .error e => (.error e, db)
    | .ok t => (.ok (), { db with artifacts := t })

def step (db : Database) (op : Op) : Database := (op.apply hashes db).2

/-! ## What a call can do -/

/-- What loading found: the set of the recipe, pending or ready, with its one file. -/
theorem loadGeneratorArtifact_some {prepared : PreparedGeneratorProcessing}
    {outputKind format : String} {recipes : RecipeTables} {t : ArtifactTables}
    {record : ArtifactSet} {file : GeneratorArtifactFile}
    (h : loadGeneratorArtifact hashes prepared outputKind format recipes t =
      .ok (some (record, file))) :
    t.sets.find? (generatorArtifactSetHash hashes prepared outputKind format) = some record ∧
      loadable hashes prepared outputKind format record = true ∧
      verifyPersistedGeneratorRecipe prepared recipes = .ok () ∧
      ∃ row, t.filesOf (generatorArtifactSetHash hashes prepared outputKind format) = [row] ∧
        file = storedFile row ∧ acceptableFile prepared.recipe file = true ∧
        record.primaryObjectKey = some file.objectKey := by
  unfold loadGeneratorArtifact at h
  simp only at h
  split at h
  · cases h
  · rename_i record' hfind
    split at h
    · cases h
    · rename_i hload
      split at h
      · cases h
      · rename_i hverify
        split at h
        · rename_i row hfiles
          split at h
          · rename_i hok
            cases h
            simp only [Bool.and_eq_true, decide_eq_true_eq] at hok
            exact ⟨hfind, by simpa using hload, hverify, row, hfiles, rfl, hok.1.1, hok.1.2⟩
          · cases h
        · cases h

theorem loadable_generator {prepared : PreparedGeneratorProcessing} {outputKind format : String}
    {r : ArtifactSet} (h : loadable hashes prepared outputKind format r = true) :
    r.generatorProcessingHash = some prepared.processingHash ∧ r.status ≠ .superseded ∧
      r.Unsuperseded ∧ r.outputKind = outputKind := by
  simp only [loadable, Bool.and_eq_true, decide_eq_true_eq] at h
  obtain ⟨⟨⟨⟨⟨⟨⟨⟨-, hkind⟩, -⟩, -⟩, -⟩, -⟩, hgen⟩, hst⟩, hcols⟩ := h
  exact ⟨hgen, hst, hcols, hkind⟩

/-- All a call can do to the artifact tables. -/
inductive Writes (t : ArtifactTables) : ArtifactTables → Prop where
  | nothing : Writes t t
  | inserted {row : ArtifactSet} {file : ArtifactFile} {t' : ArtifactTables} :
      t.sets.find? row.artifactSetHash = none → row.generatorProcessingHash ≠ none →
      row.status = .staged → row.Unsuperseded →
      (∀ k, t'.sets.find? k = if k = row.artifactSetHash then some row else t.sets.find? k) →
      (∀ k, t'.filesOf k = if k = row.artifactSetHash then [file] else t.filesOf k) →
      Writes t t'
  | failed {now : Timestamp} {p : ArtifactSet → Bool} :
      (∀ r, p r = true → r.status ≠ .superseded ∧ r.Unsuperseded) →
      Writes t (advanceSets now .uploadFailed p t)
  | completed {readyAt supersededAt : Timestamp} {record : ArtifactSet} :
      t.sets.find? record.artifactSetHash = some record → record.generatorProcessingHash ≠ none →
      isPending record = true →
      Writes t (supersedeReadyArtifactsForOutput supersededAt record.outputKey
        record.artifactSetHash (some "replaced") (advanceSets readyAt .ready
          (fun r => isSet record.artifactSetHash r && isPending r) t)).2
  | staged {now : Timestamp} {p : Publication} {t' : ArtifactTables} :
      stageArtifact now p.artifact p.files t = .ok t' → Writes t t'

theorem stageTransaction_writes {now : Timestamp} {prepared : PreparedGeneratorProcessing}
    {artifact : GeneratorArtifactStage} {file : GeneratorArtifactFile} {recipes : RecipeTables}
    {t t' : ArtifactTables} {state : GeneratorArtifactState}
    (h : stageTransaction hashes now prepared artifact file recipes t = .ok (state, t')) :
    Writes t t' := by
  unfold stageTransaction at h
  simp only at h
  split at h
  · cases h
  · rename_i files hf
    split at h
    · cases h
    · cases h
    · rename_i record stored hload
      split at h
      · cases h
      · cases h
        obtain ⟨-, -, -, row, hrow, -⟩ := loadGeneratorArtifact_some hashes hload
        revert hf hload hrow
        unfold Table.insertOrIgnore
        split
        · rename_i sets hi
          intro hf hload hrow
          -- the set is new, and the file check has seen that no stray file shares its hash
          have hnone : t.sets.find? (generatorSet hashes now prepared artifact).artifactSetHash =
              none := by
            rw [Table.find?_eq_none]
            exact (Table.insert?_eq_some hi).2
          have hrows := insertFiles_ok hf
          refine @Writes.inserted _ _ row _ hnone (by simp [generatorSet]) rfl ⟨rfl, rfl, rfl⟩ ?_ ?_
          · intro k
            rw [Table.find?_of_insert? hi]
            simp only [eq_comm (a := k)]
            rfl
          · intro k
            by_cases hk : k = (generatorSet hashes now prepared artifact).artifactSetHash
            · rw [if_pos hk, hk]
              exact hrow
            · simp only [ArtifactTables.filesOf, hrows, if_neg hk, List.filter_append]
              rw [List.append_right_eq_self, List.filter_eq_nil_iff]
              intro f hf
              simp only [if_true, List.mem_singleton] at hf
              subst hf
              exact fun he => hk (of_decide_eq_true he).symm
        · intro hf hload hrow
          simp only [Bool.false_eq_true, if_false, insertFiles, Except.ok.injEq] at hf
          subst hf
          exact .nothing

/-- The status and the version a publisher is told are those of the committed row. -/
theorem stageTransaction_reports {now : Timestamp} {prepared : PreparedGeneratorProcessing}
    {artifact : GeneratorArtifactStage} {file : GeneratorArtifactFile} {recipes : RecipeTables}
    {t t' : ArtifactTables} {state : GeneratorArtifactState}
    (h : stageTransaction hashes now prepared artifact file recipes t = .ok (state, t')) :
    ∃ r, t'.sets.find? state.artifactSetHash = some r ∧ r.status = state.status ∧
      r.updatedAt = state.updatedAt := by
  unfold stageTransaction at h
  simp only at h
  split at h
  · cases h
  · split at h
    · cases h
    · cases h
    · rename_i record stored hload
      split at h
      · cases h
      · cases h
        exact ⟨record, (loadGeneratorArtifact_some hashes hload).1, rfl, rfl⟩

theorem completeTransaction_writes {readyAt supersededAt : Timestamp}
    {prepared : PreparedGeneratorProcessing} {outputKind format objectKey : String}
    {recipes : RecipeTables} {t t' : ArtifactTables} {done : Bool}
    (h : completeTransaction hashes readyAt supersededAt prepared outputKind format objectKey
      recipes t = .ok (done, t')) : Writes t t' := by
  unfold completeTransaction at h
  split at h
  · cases h
  · cases h; exact .nothing
  · rename_i record file hload
    simp only at h
    split at h
    · cases h
    · split at h
      · rename_i hready
        cases h
        obtain ⟨hfind, hok, -⟩ := loadGeneratorArtifact_some hashes hload
        obtain ⟨hgen, hsup, hcols, rfl⟩ := loadable_generator hashes hok
        have hkey := Table.find?_key hfind
        have hpending : isPending record = true := by
          cases hst : record.status with
          | staged => simp [isPending, hst, hcols]
          | uploadFailed => simp [isPending, hst, hcols]
          | ready => exact absurd hst hready
          | superseded => exact absurd hst hsup
        rw [← hkey] at hfind ⊢
        exact .completed hfind (by simp [hgen]) hpending
      · cases h; exact .nothing

theorem apply_writes (db : Database) (op : Op) :
    Writes db.artifacts (step hashes db op).artifacts := by
  unfold step
  cases op with
  | stageOrResume now prepared artifact files =>
    simp only [Op.apply, stageOrResumeGeneratorArtifact]
    split
    · split
      · exact .nothing
      · split
        · exact .nothing
        · split
          · exact .nothing
          · rename_i hs
            exact stageTransaction_writes hashes hs
    · exact .nothing
  | fail now h =>
    refine .failed fun r hr => ?_
    simp only [isPending, Bool.and_eq_true, Bool.or_eq_true, decide_eq_true_eq] at hr
    obtain ⟨-, hst, hcols⟩ := hr
    exact ⟨by rcases hst with h | h <;> simp [h], hcols⟩
  | failReadyVerification now h expected =>
    refine .failed fun r hr => ?_
    simp only [isObserved, Bool.and_eq_true, decide_eq_true_eq] at hr
    exact ⟨by simp [hr.1.1.2], hr.2⟩
  | complete readyAt supersededAt prepared outputKind format objectKey =>
    simp only [Op.apply, completeGeneratorArtifact]
    split
    · exact .nothing
    · rename_i hc
      exact completeTransaction_writes hashes hc
  | stageArtifact now p =>
    simp only [Op.apply]
    split
    · exact .nothing
    · rename_i hs
      exact .staged hs

end Calls

/-! ## A sample publication -/

def sampleSha256 : String := String.ofList (List.replicate 64 'a')

/-- A recipe of one object, told apart from its like by what its geometry was acquired as. -/
def plateRecipe (acquired : String) : GeneratorProcessingRecipe where
  recipeVersion := 1
  deployedGeneratorIdentity := "generator"
  compatibility := ⟨"bambu", ["plates"]⟩
  compatibilityDecision := .supported
  compatibilityDecisionIdentity := "decision"
  inputManifest :=
    { manifestIdentity := "manifest-" ++ acquired
      inputSetIdentity := some ("inputs-" ++ acquired)
      requirementsIdentity := "requirements"
      sourceIdentity := "source"
      configurationIdentity := "config"
      kindIdentity := "kind"
      schemaIdentity := "schema"
      objects := [⟨"plate", "model", none,
        ⟨acquired, "inputs/plate.3mf", sampleSha256, 10, "model/3mf", "kind"⟩, "{}", "{}"⟩] }
  placements := ["{}"]
  settingsIdentity := "settings"
  settingsSchemaIdentity := "settings-schema"
  invocation := ⟨"inputs/manifest.json", ⟨"settings-content", "inputs/settings.json", sampleSha256,
    2, "application/json", "settings-schema"⟩, ⟨"output", "outputs/project.3mf", "model/3mf", 100⟩⟩

/-- Hashes that tell the sample recipes apart. -/
def plateRecipeHashes : RecipeHashes where
  processingHash r := "recipe-" ++ r.inputManifest.manifestIdentity
  occurrenceIdentity o := "occurrence-" ++ o.processingHash ++ "-" ++ o.objectIdentity
  recipeJson r := "recipe of " ++ r.inputManifest.manifestIdentity

def platePrepared (acquired : String) : PreparedGeneratorProcessing :=
  preparedOf plateRecipeHashes (plateRecipe acquired)

def plateStage (request : String) : GeneratorArtifactStage where
  modelSlug := "demo"
  outputKind := "slicer_project:bambu"
  format := "project_3mf"
  objectKey := "artifacts/v2/" ++ request ++ "/demo-bambu-project.3mf"
  contentType := "model/3mf"
  byteLen := 20
  sha256 := sampleSha256
  producingJobKey := some ("bambu-project-v1:" ++ request)
  parameterSchemaVersion := 2
  configValuesJson := "{}"

def plateFile (request : String) : GeneratorArtifactFile where
  role := "generated_project"
  logicalPath := "demo-bambu-project.3mf"
  originalPath := none
  objectKey := (plateStage request).objectKey
  contentType := "model/3mf"
  byteLen := 20
  sha256 := sampleSha256
  metadataJson := "{}"

def publishPlate (now : Timestamp) (acquired : String) : List Op :=
  [.stageOrResume now (platePrepared acquired) (plateStage acquired) [plateFile acquired],
   .complete now now (platePrepared acquired) "slicer_project:bambu" "project_3mf"
     (plateStage acquired).objectKey]

/-- Hashes that tell the sample's sets apart. -/
def plateHashes : GeneratorHashes where
  optionsHash _ _ o := "options-" ++ o.settingsIdentity
  artifactSetHash i := "set-" ++ i.postprocessHash

def plateHash (acquired : String) : String :=
  generatorArtifactSetHash plateHashes (platePrepared acquired) "slicer_project:bambu"
    "project_3mf"

end GeneratorArtifacts
end OnshapeExport
