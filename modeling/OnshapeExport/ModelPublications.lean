import OnshapeExport.Exports
import OnshapeExport.GeneratorPublication

/-!
# ModelPublications

Publications of the models of a catalog, each from its start to its end: `refresh_preview` and
`refresh_download` publish an export, `execute_inner` of `bambu_project.rs` a project. All of them
write the same two tables.

* `publishExport` — stage, mark ready, supersede; `publish_statements` runs the statements of
  `Publishing.publish` to the same end.
* `publishProject` — the recipe has to be made from the source of the model.
* `run` — any sequence of publications, of those that fail too.
* `Tidy` — what every row of the tables carries in its name.
-/

namespace OnshapeExport
namespace ModelPublications

open Relational Artifacts CacheModel Catalogs Exports GeneratorArtifacts GeneratorPublication
open Publishing Recipes

structure Hashes where
  exports : ExportHashes
  recipes : RecipeHashes
  generator : GeneratorHashes

/-- What Onshape and the deployment fix for all models. -/
structure Deployment where
  apiHostClass : String
  microversion : String → String → String

inductive Work where
  | export (typedValues : List (String × CanonicalParameterValue)) (configValuesJson : String)
      (output : Output) (produced : Produced)
  | project (recipe : GeneratorProcessingRecipe) (requestIdentity configValuesJson : String)
      (candidate : MeasuredCandidate)
deriving DecidableEq, Repr

/-- A publication made for a model. -/
structure ModelPublication where
  model : Model
  work : Work
  times : PublicationTimes
deriving DecidableEq, Repr

/-- `work_key`. -/
def projectWorkKey (requestIdentity : String) : String := "bambu-project-v1:" ++ requestIdentity

/-- `target`. -/
def projectTarget (modelSlug dialectIdentity workKey configValuesJson : String) :
    GeneratorPublicationTarget where
  modelSlug := modelSlug
  outputKind := slicerProject dialectIdentity
  format := "project_3mf"
  logicalPath := modelSlug ++ "-bambu-project.3mf"
  producingJobKey := some workKey
  parameterSchemaVersion := ExportQueue.schemaVersion
  configValuesJson := configValuesJson

def publishExport (times : PublicationTimes) (p : Publication) (db : Database) :
    Except DbError Unit × Database :=
  match stageArtifact times.stagedAt p.artifact p.files db.artifacts with
  | .error e => (.error e, db)
  | .ok t =>
    let t := (markArtifactSetReady times.readyAt p.key p.artifact.objectKey t).2
    let t := (supersedeReadyArtifactsForOutput times.supersededAt p.artifact.outputKey p.key
      (some "replaced") t).2
    (.ok (), { db with artifacts := t })

section

variable (hashes : Hashes) (deployment : Deployment)

def sourceHashOf (m : Model) : String :=
  modelSourceHash hashes.exports deployment.microversion m

def publishProject (times : PublicationTimes) (m : Model) (recipe : GeneratorProcessingRecipe)
    (requestIdentity configValuesJson : String) (candidate : MeasuredCandidate) (db : Database) :
    Except DbError Unit × Database :=
  if recipe.inputManifest.sourceIdentity ≠ sourceHashOf hashes deployment m then
    (.error (.protocol "project recipe does not match its frozen request policy"), db)
  else
    publishGeneratorOutput hashes.generator times (preparedOf hashes.recipes recipe)
      (projectTarget m.slug recipe.compatibility.dialectIdentity (projectWorkKey requestIdentity)
        configValuesJson) candidate db

/-- The publication of an export. -/
def exportOf (m : Model) (typedValues : List (String × CanonicalParameterValue))
    (configValuesJson : String) (output : Output) (produced : Produced) : Publication :=
  refresh hashes.exports deployment.microversion hashes.generator.artifactSetHash
    deployment.apiHostClass m typedValues configValuesJson output produced

def ModelPublication.publish (p : ModelPublication) (db : Database) :
    Except DbError Unit × Database :=
  match p.work with
  | .export typedValues configValuesJson output produced =>
    publishExport p.times
      (exportOf hashes deployment p.model typedValues configValuesJson output produced) db
  | .project recipe requestIdentity configValuesJson candidate =>
    publishProject hashes deployment p.times p.model recipe requestIdentity configValuesJson
      candidate db

/-- What the set of the publication is named after. -/
def ModelPublication.identity (p : ModelPublication) : ArtifactSetIdentity :=
  match p.work with
  | .export typedValues _ output produced =>
    let sourceHash := sourceHashOf hashes deployment p.model
    { artifactSetSchemaVersion := artifactSetSchemaVersion
      outputKind := output.kind
      format := output.format produced.primary
      sourceHash := sourceHash
      configHash := configurationHash hashes.exports sourceHash typedValues
      optionsHash := exportOptionsHash hashes.exports p.model output
      requestHash := some (hashes.exports.requestHash
        (exportRequest deployment.apiHostClass p.model produced.configuration output))
      rawPayloadHash := some produced.rawPayloadHash
      postprocessHash := hashes.exports.postprocessHash
        (postprocessIdentity output produced.rawPayloadHash)
      generatorProcessingHash := none }
  | .project recipe _ _ _ =>
    generatorArtifactSetIdentity hashes.generator (preparedOf hashes.recipes recipe)
      (slicerProject recipe.compatibility.dialectIdentity) "project_3mf"

def run (publications : List ModelPublication) (db : Database) : Database :=
  publications.foldl (fun db p => (p.publish hashes deployment db).2) db

end

/-- The output that sets of this identity compete for. -/
def outputKey (i : ArtifactSetIdentity) : OutputKey :=
  ⟨i.sourceHash, i.configHash, i.optionsHash, i.outputKind⟩

/-! ## An export as a run of statements -/

section Statements

variable (times : PublicationTimes) (p : Publication)

/-- The statements of an export whose uploads succeed, with the clock they read. -/
def exportStatements : List (Timestamp × Stmt) :=
  (times.stagedAt, .stage) :: List.replicate p.files.length (times.stagedAt, .upload true) ++
    [(times.readyAt, .markReady), (times.supersededAt, .supersede)]

def runStatements (statements : List (Timestamp × Stmt)) (state : Phase × ArtifactTables) :
    Phase × ArtifactTables :=
  statements.foldl (fun s o => Publishing.publish o.1 p s.2 s.1 o.2) state

theorem runStatements_uploads {n done : Nat} (t : ArtifactTables)
    (h : done + n = p.files.length) :
    runStatements p (List.replicate n (times.stagedAt, .upload true)) (.uploading done, t) =
      (.uploading p.files.length, t) := by
  induction n generalizing done with
  | zero => simp [runStatements, ← h]
  | succ n ih =>
    have hlt : done < p.files.length := by omega
    have hstep : Publishing.publish times.stagedAt p t (.uploading done) (.upload true) =
        (.uploading (done + 1), t) := by
      simp [Publishing.publish, hlt]
    rw [List.replicate_succ, runStatements, List.foldl_cons, hstep]
    exact ih (by omega)

variable {times p}

/-- The statements of an export, one after the other, do what `publishExport` does. -/
theorem publish_statements {db db' : Database}
    (h : publishExport times p db = (.ok (), db')) :
    runStatements p (exportStatements times p) (.pending, db.artifacts) =
      (.finished, db'.artifacts) := by
  unfold publishExport at h
  split at h
  · cases h
  · rename_i t hs
    cases h
    have hstage : Publishing.publish times.stagedAt p db.artifacts .pending .stage =
        (.uploading 0, t) := by
      simp [Publishing.publish, hs]
    have hup := runStatements_uploads times p t (Nat.zero_add _)
    rw [exportStatements, runStatements, List.cons_append, List.foldl_cons, hstage,
      List.foldl_append]
    simp only [runStatements] at hup
    rw [hup]
    simp [Publishing.publish]

end Statements

/-! ## What the rows are named after -/

section Tidy

variable (hashes : Hashes) (deployment : Deployment) (catalog : Catalog)

/-- A set is named after an identity of its own columns, and made from the source of its model. -/
structure NamedSet (r : ArtifactSet) : Prop where
  identity : ∃ i, r.artifactSetHash = hashes.generator.artifactSetHash i ∧
    r.outputKey = outputKey i ∧ r.generatorProcessingHash = i.generatorProcessingHash
  model : ∃ m ∈ catalog.models, r.metadataJson.modelSlug = m.slug ∧
    r.sourceHash = sourceHashOf hashes deployment m

/-- An object key is a directory, the hash of the set, and a name. -/
def InDirectory (artifactSetHash objectKey : String) : Prop :=
  ∃ directory name : String, (directory = "previews/v2/" ∨ directory = "artifacts/v2/") ∧
    objectKey = directory ++ artifactSetHash ++ "/" ++ name

structure NamedFile (f : ArtifactFile) : Prop where
  identity : ∃ i, f.artifactSetHash = hashes.generator.artifactSetHash i
  directory : InDirectory f.artifactSetHash f.objectKey

def NamedOccurrence (o : OccurrenceRow) : Prop :=
  ∃ order, o.occurrenceIdentity = hashes.recipes.occurrenceIdentity
    ⟨o.processingHash, order, o.objectIdentity, o.stagedPath⟩

structure Tidy (db : Database) : Prop where
  sets : ∀ r ∈ db.artifacts.sets.rows, NamedSet hashes deployment catalog r
  files : ∀ f ∈ db.artifacts.files.rows, NamedFile hashes f
  occurrences : ∀ o ∈ db.recipes.occurrences.rows, NamedOccurrence hashes o

variable {hashes deployment catalog}

theorem tidy_empty : Tidy hashes deployment catalog .empty where
  sets r hr := by cases hr
  files f hf := by cases hf
  occurrences o ho := by cases ho

theorem NamedSet.of_columns {r r' : ArtifactSet} (h : NamedSet hashes deployment catalog r)
    (hset : r'.artifactSetHash = r.artifactSetHash) (hkey : r'.outputKey = r.outputKey)
    (hgen : r'.generatorProcessingHash = r.generatorProcessingHash)
    (hmeta : r'.metadataJson = r.metadataJson) : NamedSet hashes deployment catalog r' where
  identity := by rw [hset, hkey, hgen]; exact h.identity
  model := by
    have hsource : r'.sourceHash = r.sourceHash := congrArg OutputKey.sourceHash hkey
    rw [hmeta, hsource]
    exact h.model

/-- An assignment to the status and the times leaves the names as they are. -/
theorem named_updateSets {t : ArtifactTables} {p : ArtifactSet → Bool}
    {f : ArtifactSet → ArtifactSet} {hf : Preserves f}
    (hcols : ∀ r, (f r).outputKey = r.outputKey ∧
      (f r).generatorProcessingHash = r.generatorProcessingHash ∧
      (f r).metadataJson = r.metadataJson)
    (h : ∀ r ∈ t.sets.rows, NamedSet hashes deployment catalog r) :
    ∀ r ∈ (t.updateSets p f hf).sets.rows, NamedSet hashes deployment catalog r := by
  intro r hr
  have hr' : r ∈ (t.sets.update p f hf).rows := hr
  obtain ⟨a, ha, rfl⟩ := Table.mem_update.mp hr'
  split
  · exact (h a ha).of_columns (hf.key a) (hcols a).1 (hcols a).2.1 (hcols a).2.2
  · exact h a ha

theorem tidy_publishExport {times : PublicationTimes} {p : Publication} {db : Database}
    (hset : NamedSet hashes deployment catalog (stagedSet times.stagedAt p.artifact))
    (hfiles : ∀ f ∈ p.files, NamedFile hashes f) (h : Tidy hashes deployment catalog db) :
    Tidy hashes deployment catalog (publishExport times p db).2 := by
  unfold publishExport
  split
  · exact h
  · rename_i t hs
    obtain ⟨-, hs⟩ := stageArtifact_ok hs
    obtain ⟨hfind, -, hrows⟩ := stageArtifactInner_ok hs
    have hsets : ∀ r ∈ t.sets.rows, NamedSet hashes deployment catalog r := by
      intro r hr
      have hr' := Table.find?_of_mem hr
      rw [hfind] at hr'
      split at hr'
      · cases hr'; exact hset
      · exact h.sets r (Table.find?_mem hr')
    refine ⟨?_, ?_, h.occurrences⟩
    · refine named_updateSets (fun _ => ⟨rfl, rfl, rfl⟩) ?_
      exact named_updateSets (fun _ => ⟨rfl, rfl, rfl⟩) hsets
    · intro f hf
      simp only [supersedeReadyArtifactsForOutput, markArtifactSetReady, files_updateSets, hrows,
        List.mem_append, List.mem_filter] at hf
      rcases hf with hf | hf
      · exact h.files f hf.1
      · exact hfiles f hf

theorem mem_insertRecipe {prepared : PreparedGeneratorProcessing} {t t' : RecipeTables}
    {inserted : Bool} (h : insertGeneratorProcessingRecipe prepared t = .ok (inserted, t'))
    {o : OccurrenceRow} (ho : o ∈ t'.occurrences.rows) :
    o ∈ t.occurrences.rows ∨ o ∈ occurrenceRows prepared := by
  unfold insertGeneratorProcessingRecipe at h
  split at h
  · cases h
  · split at h
    · cases h
    · simp only [insertGeneratorProcessingRecipeFields] at h
      split at h
      · cases h
      · split at h
        · cases h
        · cases h
          exact mem_insertOccurrences ho

theorem namedOccurrence_of_prepared {recipe : GeneratorProcessingRecipe} {o : OccurrenceRow}
    (h : o ∈ occurrenceRows (preparedOf hashes.recipes recipe)) :
    o.processingHash = hashes.recipes.processingHash recipe ∧ NamedOccurrence hashes o := by
  obtain ⟨occ, hocc, rfl⟩ := List.mem_map.mp h
  simp only [preparedOf, deriveOccurrences, List.mem_map, Prod.exists] at hocc
  obtain ⟨object, placement, order, -, rfl⟩ := hocc
  exact ⟨rfl, order, rfl⟩

theorem tidy_stageTransaction {now : Timestamp} {prepared : PreparedGeneratorProcessing}
    {artifact : GeneratorArtifactStage} {file : GeneratorArtifactFile} {db : Database}
    {recipes : RecipeTables} {t : ArtifactTables} {state : GeneratorArtifactState}
    (hs : stageTransaction hashes.generator now prepared artifact file recipes db.artifacts =
      .ok (state, t))
    (hset : NamedSet hashes deployment catalog (generatorSet hashes.generator now prepared artifact))
    (hfile : NamedFile hashes (file.row
      (generatorSet hashes.generator now prepared artifact).artifactSetHash))
    (h : Tidy hashes deployment catalog db) :
    (∀ r ∈ t.sets.rows, NamedSet hashes deployment catalog r) ∧
      ∀ f ∈ t.files.rows, NamedFile hashes f := by
  unfold stageTransaction at hs
  simp only at hs
  split at hs
  · cases hs
  · rename_i files hf
    have hrows := insertFiles_ok hf
    split at hs
    · cases hs
    · cases hs
    · split at hs
      · cases hs
      · cases hs
        refine ⟨fun r hr => ?_, fun f hf => ?_⟩
        · rcases Table.mem_insertOrIgnore hr with hr | rfl
          · exact h.sets r hr
          · exact hset
        · rw [hrows, List.mem_append] at hf
          rcases hf with hf | hf
          · exact h.files f hf
          · split at hf
            · rw [List.mem_singleton.mp hf]
              exact hfile
            · cases hf

theorem tidy_stageOrResume {now : Timestamp} {recipe : GeneratorProcessingRecipe}
    {artifact : GeneratorArtifactStage} {file : GeneratorArtifactFile} {db : Database}
    (hset : NamedSet hashes deployment catalog
      (generatorSet hashes.generator now (preparedOf hashes.recipes recipe) artifact))
    (hfile : NamedFile hashes (file.row (generatorSet hashes.generator now
      (preparedOf hashes.recipes recipe) artifact).artifactSetHash))
    (h : Tidy hashes deployment catalog db) :
    Tidy hashes deployment catalog (stageOrResumeGeneratorArtifact hashes.generator now
      (preparedOf hashes.recipes recipe) artifact [file] db).2 := by
  unfold stageOrResumeGeneratorArtifact
  split
  · rename_i hone
    cases hone
    split
    · exact h
    · split
      · exact h
      · rename_i recipes hins
        have hocc : ∀ o ∈ recipes.occurrences.rows, NamedOccurrence hashes o := by
          intro o ho
          rcases mem_insertRecipe hins ho with ho | ho
          · exact h.occurrences o ho
          · exact (namedOccurrence_of_prepared ho).2
        split
        · exact ⟨h.sets, h.files, hocc⟩
        · rename_i hs
          obtain ⟨hsets, hfiles⟩ := tidy_stageTransaction hs hset hfile h
          exact ⟨hsets, hfiles, hocc⟩
  · exact h

theorem tidy_complete (readyAt supersededAt : Timestamp) (prepared : PreparedGeneratorProcessing)
    (outputKind format objectKey : String) {db : Database}
    (h : Tidy hashes deployment catalog db) :
    Tidy hashes deployment catalog (completeGeneratorArtifact hashes.generator readyAt supersededAt
      prepared outputKind format objectKey db).2 := by
  unfold completeGeneratorArtifact
  split
  · exact h
  · rename_i done t hc
    unfold completeTransaction at hc
    split at hc
    · cases hc
    · cases hc; exact h
    · simp only at hc
      split at hc
      · cases hc
      · split at hc
        · cases hc
          refine ⟨?_, h.files, h.occurrences⟩
          refine named_updateSets (fun _ => ⟨rfl, rfl, rfl⟩) ?_
          exact named_updateSets (fun _ => ⟨rfl, rfl, rfl⟩) h.sets
        · cases hc; exact h

theorem tidy_publishGeneratorOutput {times : PublicationTimes}
    {recipe : GeneratorProcessingRecipe} {target : GeneratorPublicationTarget}
    {candidate : MeasuredCandidate} {db : Database}
    (hmodel : ∃ m ∈ catalog.models, target.modelSlug = m.slug ∧
      recipe.inputManifest.sourceIdentity = sourceHashOf hashes deployment m)
    (h : Tidy hashes deployment catalog db) :
    Tidy hashes deployment catalog (publishGeneratorOutput hashes.generator times
      (preparedOf hashes.recipes recipe) target candidate db).2 := by
  refine publishGeneratorOutput_keeps hashes.generator h ?_ fun _ => tidy_complete _ _ _ _ _ _
  refine tidy_stageOrResume ⟨⟨_, rfl, rfl, rfl⟩, hmodel⟩ ⟨⟨_, rfl⟩, ?_⟩ h
  exact ⟨"artifacts/v2/", target.logicalPath, .inr rfl, rfl⟩

theorem namedFiles_exportOf {m : Model}
    {typedValues : List (String × CanonicalParameterValue)} {configValuesJson : String}
    {output : Output} {produced : Produced} :
    ∀ f ∈ (exportOf hashes deployment m typedValues configValuesJson output produced).files,
      NamedFile hashes f := by
  intro f hf
  obtain ⟨g, -, rfl⟩ := List.mem_map.mp hf
  refine ⟨⟨_, rfl⟩, ?_⟩
  simp only [ExportQueue.objectKey]
  split
  · exact ⟨"previews/v2/", g.logicalPath, .inl rfl, rfl⟩
  · exact ⟨"artifacts/v2/", g.logicalPath, .inr rfl, rfl⟩

/-- A publication of a catalog model keeps the names of all rows. -/
theorem tidy_publish {p : ModelPublication} {db : Database} (hm : p.model ∈ catalog.models)
    (h : Tidy hashes deployment catalog db) :
    Tidy hashes deployment catalog (p.publish hashes deployment db).2 := by
  unfold ModelPublication.publish
  split
  · rename_i typedValues configValuesJson output produced _
    refine tidy_publishExport ⟨⟨p.identity hashes deployment, ?_⟩, p.model, hm, rfl, rfl⟩ ?_ h
    · rename_i hwork
      simp only [ModelPublication.identity, hwork]
      exact ⟨rfl, rfl, rfl⟩
    · exact namedFiles_exportOf
  · unfold publishProject
    split
    · exact h
    · rename_i hsource
      exact tidy_publishGeneratorOutput ⟨p.model, hm, rfl, not_not.mp hsource⟩ h

theorem tidy_run {publications : List ModelPublication} {db : Database}
    (hm : ∀ p ∈ publications, p.model ∈ catalog.models)
    (h : Tidy hashes deployment catalog db) :
    Tidy hashes deployment catalog (run hashes deployment publications db) := by
  induction publications generalizing db with
  | nil => exact h
  | cons p publications ih =>
    exact ih (fun q hq => hm q (List.mem_cons_of_mem _ hq))
      (tidy_publish (hm p List.mem_cons_self) h)

end Tidy

end ModelPublications
end OnshapeExport
