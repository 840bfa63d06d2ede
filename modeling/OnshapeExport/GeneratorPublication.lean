import OnshapeExport.GeneratorArtifacts

/-!
# GeneratorPublication

What `generator_publication.rs` publishes of accepted generator bytes: the target's checks, the
object key, and the row and file that are staged for it.

* `validateTarget`, `generatorPublicationObjectKey` — where a project goes.
* `publishGeneratorOutput` — a publication whose upload and verification succeed.
-/

namespace OnshapeExport
namespace GeneratorPublication

open Artifacts CacheModel GeneratorArtifacts Recipes

structure GeneratorPublicationTarget where
  modelSlug : String
  outputKind : String
  format : String
  logicalPath : String
  producingJobKey : Option String
  parameterSchemaVersion : Int
  configValuesJson : String
deriving DecidableEq, Repr

/-- Accepted bytes as `retain_candidate` measured them, with the result that declares them. -/
structure MeasuredCandidate where
  byteLen : Nat
  sha256 : String
  resultJson : String
deriving DecidableEq, Repr

def isSegmentChar (c : Char) : Bool :=
  ('a' ≤ c && c ≤ 'z') || ('A' ≤ c && c ≤ 'Z') || ('0' ≤ c && c ≤ '9') || c = '-' || c = '_' ||
    c = '.'

def safeSegment (value : String) : Bool :=
  value ≠ "" && value.utf8ByteSize ≤ 255 && value ≠ "." && value ≠ ".." &&
    value.toList.all isSegmentChar

def slicerProject (dialectIdentity : String) : String := "slicer_project:" ++ dialectIdentity

/-- The configuration metadata is the text of an object by construction. -/
def validateTarget (prepared : PreparedGeneratorProcessing) (target : GeneratorPublicationTarget) :
    Except DbError Unit :=
  if target.outputKind ≠ slicerProject prepared.recipe.compatibility.dialectIdentity ∨
      target.format ≠ "project_3mf" then
    .error (.protocol "generator publication requires its exact dialect-qualified project output")
  else if !(safeSegment target.logicalPath && safeSegment target.modelSlug) then
    .error (.protocol "generator artifact presentation must use safe single path segments")
  else if target.parameterSchemaVersion ≤ 0 then
    .error (.protocol "invalid parameter schema version")
  else .ok ()

section Publish

variable (hashes : GeneratorHashes)

def generatorPublicationObjectKey (prepared : PreparedGeneratorProcessing)
    (target : GeneratorPublicationTarget) : String :=
  "artifacts/v2/" ++ generatorArtifactSetHash hashes prepared target.outputKind target.format ++
    "/" ++ target.logicalPath

def stageFor (prepared : PreparedGeneratorProcessing) (target : GeneratorPublicationTarget)
    (candidate : MeasuredCandidate) : GeneratorArtifactStage where
  modelSlug := target.modelSlug
  outputKind := target.outputKind
  format := target.format
  objectKey := generatorPublicationObjectKey hashes prepared target
  contentType := prepared.recipe.invocation.output.mediaType
  byteLen := candidate.byteLen
  sha256 := candidate.sha256
  producingJobKey := target.producingJobKey
  parameterSchemaVersion := target.parameterSchemaVersion
  configValuesJson := target.configValuesJson

def fileFor (prepared : PreparedGeneratorProcessing) (target : GeneratorPublicationTarget)
    (candidate : MeasuredCandidate) : GeneratorArtifactFile where
  role := "generated_project"
  logicalPath := target.logicalPath
  originalPath := none
  objectKey := generatorPublicationObjectKey hashes prepared target
  contentType := prepared.recipe.invocation.output.mediaType
  byteLen := candidate.byteLen
  sha256 := candidate.sha256
  metadataJson := candidate.resultJson

/-- The calls of one publication read the clock in this order. -/
structure PublicationTimes where
  stagedAt : Timestamp
  readyAt : Timestamp
  supersededAt : Timestamp
deriving DecidableEq, Repr

/-- `publish_generator_output` where the upload, the verification and the clean-up succeed. -/
def publishGeneratorOutput (times : PublicationTimes) (prepared : PreparedGeneratorProcessing)
    (target : GeneratorPublicationTarget) (candidate : MeasuredCandidate) (db : Database) :
    Except DbError Unit × Database :=
  match validateTarget prepared target with
  | .error e => (.error e, db)
  | .ok () =>
    match stageOrResumeGeneratorArtifact hashes times.stagedAt prepared
        (stageFor hashes prepared target candidate) [fileFor hashes prepared target candidate] db with
    | (.error e, db) => (.error e, db)
    | (.ok _, db) =>
      match completeGeneratorArtifact hashes times.readyAt times.supersededAt prepared
          target.outputKind target.format (generatorPublicationObjectKey hashes prepared target)
          db with
      | (.error e, db) => (.error e, db)
      | (.ok true, db) => (.ok (), db)
      | (.ok false, db) =>
        (.error (.protocol "generator artifact was superseded before publication completed"), db)

/-- What holds before a publication, of what it stages and of what it completes, holds after it. -/
theorem publishGeneratorOutput_keeps {times : PublicationTimes}
    {prepared : PreparedGeneratorProcessing} {target : GeneratorPublicationTarget}
    {candidate : MeasuredCandidate} {db : Database} {Q : Database → Prop} (h : Q db)
    (hstage : Q (stageOrResumeGeneratorArtifact hashes times.stagedAt prepared
      (stageFor hashes prepared target candidate) [fileFor hashes prepared target candidate] db).2)
    (hcomplete : ∀ db', Q db' → Q (completeGeneratorArtifact hashes times.readyAt
      times.supersededAt prepared target.outputKind target.format
      (generatorPublicationObjectKey hashes prepared target) db').2) :
    Q (publishGeneratorOutput hashes times prepared target candidate db).2 := by
  unfold publishGeneratorOutput
  split
  · exact h
  · split
    · rename_i hs
      rw [hs] at hstage
      exact hstage
    · rename_i hs
      rw [hs] at hstage
      have hdone := hcomplete _ hstage
      split
      all_goals
        rename_i hc
        rw [hc] at hdone
        exact hdone

/-- The answer of a publication that staged its artifact is that of the completion. -/
theorem publishGeneratorOutput_fst {times : PublicationTimes}
    {prepared : PreparedGeneratorProcessing} {target : GeneratorPublicationTarget}
    {candidate : MeasuredCandidate} {db staged : Database} {state : GeneratorArtifactState}
    (hvalid : validateTarget prepared target = .ok ())
    (hstage : stageOrResumeGeneratorArtifact hashes times.stagedAt prepared
      (stageFor hashes prepared target candidate) [fileFor hashes prepared target candidate] db =
        (.ok state, staged)) :
    (publishGeneratorOutput hashes times prepared target candidate db).1 =
      (completeGeneratorArtifact hashes times.readyAt times.supersededAt prepared target.outputKind
        target.format (generatorPublicationObjectKey hashes prepared target) staged).1.bind
          fun completed => if completed then .ok () else .error (.protocol
            "generator artifact was superseded before publication completed") := by
  simp only [publishGeneratorOutput, hvalid, hstage]
  generalize completeGeneratorArtifact hashes times.readyAt times.supersededAt prepared
    target.outputKind target.format (generatorPublicationObjectKey hashes prepared target) staged
      = out
  obtain ⟨answer, db'⟩ := out
  cases answer with
  | error e => rfl
  | ok completed => cases completed <;> rfl

end Publish

end GeneratorPublication
end OnshapeExport
