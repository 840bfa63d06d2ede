import OnshapeExport.GeneratorInputs
import OnshapeExport.OutputCheckpoints
import OnshapeExport.ProjectRequests

/-!
# ProjectRecords

What `db.rs` keeps of project requests: the rows of `bambu_project_requests`, the recipe a row is
bound to, and what the recipe tables keep of a prepared recipe.

* `recorded` — a prepared recipe as its tables keep it.
* `insertBambuProjectRequest`, `bindTransaction`, `recordBambuProjectFailure` — the writes.
* `reopenRecorded` — the prepared recipe of a stored one.
* `Grown`, `grown_insert`, `grown_bind`, `grown_record` — all the writes do to a row that is there.
-/

namespace OnshapeExport
namespace Projects

open CacheKey Checks Deployed Json Processing Protocol Relational

/-! ## A recipe in its tables -/

section Recorded

variable (digests : Digests)

def recordedContent (c : Protocol.FileContent) : Recipes.FileContent :=
  ⟨c.contentIdentity, c.path, c.sha256, c.byteLength, c.mediaType, c.detectedKindIdentity⟩

def recordedObject (o : Protocol.InputObject) : Recipes.InputObject where
  objectIdentity := o.objectIdentity
  role := o.role.key
  displayName := o.displayName
  retainedContent := recordedContent o.retainedContent
  mapping := canonicalJson digests (ObjectMapping.codec.enc o.mapping)
  provenance := canonicalJson digests (OccurrenceProvenance.codec.enc
    ⟨o.sourceObjectIdentity, o.occurrencePath, o.producerResultIdentity, o.sourceFilename,
      o.parentObjectIdentity⟩)

def recordedManifest (m : Protocol.InputManifest) : Recipes.InputManifest where
  manifestIdentity := m.manifestIdentity
  inputSetIdentity := m.inputSetIdentity
  requirementsIdentity := m.requirementsIdentity
  sourceIdentity := m.sourceIdentity
  configurationIdentity := m.configurationIdentity
  kindIdentity := m.export_.kindIdentity
  schemaIdentity := m.export_.schemaIdentity
  objects := m.objects.map (recordedObject digests)

def recordedOutput (o : Protocol.OutputDeclaration) : Recipes.OutputDeclaration :=
  ⟨o.outputIdentity, o.path, o.mediaType, o.maxByteLength⟩

def recordedRequest (r : Protocol.GeneratorRequest) : Recipes.GeneratorRequest :=
  ⟨r.inputManifest.path, recordedContent r.settings.content, recordedOutput r.output⟩

def recordedDecision : Processing.GeneratorCompatibilityDecision →
    Recipes.GeneratorCompatibilityDecision
  | .supported => .supported
  | .unsupported field => .unsupported field

def recordedRecipe (r : Processing.GeneratorProcessingRecipe) :
    Recipes.GeneratorProcessingRecipe where
  recipeVersion := r.recipeVersion
  deployedGeneratorIdentity := r.deployedGeneratorIdentity
  compatibility := ⟨r.compatibility.dialectIdentity, r.compatibility.capabilityIdentities⟩
  compatibilityDecision := recordedDecision r.compatibilityDecision
  compatibilityDecisionIdentity := r.compatibilityDecisionIdentity
  inputManifest := recordedManifest digests r.inputManifest
  placements := r.settings.placements.map fun p =>
    canonicalJson digests ( Annotation.GeneratorSettingsPlacementV2.codec.enc p)
  settingsIdentity := r.settingsIdentity
  settingsSchemaIdentity := r.settingsSchemaIdentity
  invocation := recordedRequest r.invocation

def recordedOccurrence (o : Processing.GeneratorProcessingOccurrence) :
    Recipes.GeneratorProcessingOccurrence :=
  ⟨o.occurrenceIdentity, o.occurrenceOrder, o.objectIdentity, o.contentIdentity, o.contentSha256,
    o.contentByteLength, o.stagedPath, o.transportRole, o.displayName, o.mappingJson,
    o.provenanceJson, o.placementJson⟩

/-- A prepared recipe as its tables keep it. -/
def recorded (p : Processing.PreparedGeneratorProcessing) :
    Recipes.PreparedGeneratorProcessing where
  processingHash := p.processingHash
  recipeJson := p.recipeJson
  recipe := recordedRecipe digests p.recipe
  occurrences := p.occurrences.map recordedOccurrence

end Recorded

/-! ## The rows of the requests -/

/-- A row of `bambu_project_requests`. -/
structure BambuProjectRequestRecord where
  requestIdentity : String
  requestJson : String
  processingHash : Option String
  outputSnapshotIdentity : Option String
  failureCategory : Option String
  failureCode : Option String
deriving DecidableEq, Repr

instance : Schema BambuProjectRequestRecord String where
  key := BambuProjectRequestRecord.requestIdentity
  clash a b := a.requestIdentity = b.requestIdentity
  clash_of_key h := h
  clash_symm h := h.symm

instance : DecidableRel (Schema.clash (α := BambuProjectRequestRecord)) := fun a b =>
  inferInstanceAs (Decidable (a.requestIdentity = b.requestIdentity))

/-- `INSERT … ON CONFLICT DO NOTHING`, and what is stored is compared. -/
def insertBambuProjectRequest (requestIdentity requestJson : String)
    (t : Table BambuProjectRequestRecord) :
    Except DbError (Table BambuProjectRequestRecord) :=
  let (_, t') := t.insertOrIgnore ⟨requestIdentity, requestJson, none, none, none, none⟩
  match t'.find? requestIdentity with
  | none => .error .constraint
  | some stored =>
    if stored.requestJson ≠ requestJson then
      .error (.protocol "immutable project request conflict")
    else .ok t'

/-- The row of a request is changed outside its key. -/
def updateRequest (requestIdentity : String)
    (f : BambuProjectRequestRecord → BambuProjectRequestRecord)
    (hf : ∀ r, (f r).requestIdentity = r.requestIdentity) (t : Table BambuProjectRequestRecord) :
    Table BambuProjectRequestRecord :=
  t.update (fun r => r.requestIdentity = requestIdentity) f
    ⟨hf, fun a b => by
      show (f a).requestIdentity = b.requestIdentity ↔ a.requestIdentity = b.requestIdentity
      rw [hf]⟩

/-- What a row says already is not what it is to be bound to. -/
def bindingConflict (row : BambuProjectRequestRecord) (requestJson processingHash
    snapshotIdentity : String) : Bool :=
  row.requestJson ≠ requestJson || row.processingHash.any (· ≠ processingHash) ||
    row.outputSnapshotIdentity.any (· ≠ snapshotIdentity) ||
    row.processingHash.isSome != row.outputSnapshotIdentity.isSome

def boundRecord (processingHash snapshotIdentity : String) (row : BambuProjectRequestRecord) :
    BambuProjectRequestRecord :=
  { row with
    processingHash := some processingHash
    outputSnapshotIdentity := some snapshotIdentity
    failureCategory := none
    failureCode := none }

theorem boundRecord_identity (processingHash snapshotIdentity : String)
    (row : BambuProjectRequestRecord) :
    (boundRecord processingHash snapshotIdentity row).requestIdentity = row.requestIdentity := rfl

/-- The second transaction of `bind_bambu_project_output`. The recipe a row is bound to has to be
there: `processing_hash` references it. -/
def bindTransaction (requestIdentity requestJson processingHash snapshotIdentity : String)
    (recipes : Recipes.RecipeTables) (t : Table BambuProjectRequestRecord) :
    Except DbError (Table BambuProjectRequestRecord) :=
  match t.find? requestIdentity with
  | none => .error .constraint
  | some row =>
    if bindingConflict row requestJson processingHash snapshotIdentity then
      .error (.protocol "immutable project recipe association conflict")
    else if recipes.recipes.find? processingHash = none then .error .constraint
    else .ok (updateRequest requestIdentity (boundRecord processingHash snapshotIdentity)
      (boundRecord_identity processingHash snapshotIdentity) t)

def failedRecord (category code : Option String) (row : BambuProjectRequestRecord) :
    BambuProjectRequestRecord :=
  { row with failureCategory := category, failureCode := code }

theorem failedRecord_identity (category code : Option String) (row : BambuProjectRequestRecord) :
    (failedRecord category code row).requestIdentity = row.requestIdentity := rfl

def recordBambuProjectFailure (requestIdentity : String) (category code : Option String)
    (t : Table BambuProjectRequestRecord) : Table BambuProjectRequestRecord :=
  updateRequest requestIdentity (failedRecord category code) (failedRecord_identity category code) t

/-- What a row is bound to has to have the shape of what binds it. -/
def invalidOutputAssociation (stored : BambuProjectRequestRecord) : Bool :=
  (stored.processingHash.isNone && stored.outputSnapshotIdentity.isSome) ||
    stored.processingHash.any (fun hash => !OnshapeApi.isSha256 hash) ||
    stored.outputSnapshotIdentity.any fun hash => !OnshapeApi.isSha256 hash

/-! ## The recipe of a row -/

inductive StoredRecipeError where
  | missing
  | recipe (e : ProcessingError)
  | database (e : DbError)

/-- `reopen_generator_processing` of the database. -/
def reopenRecorded (digests : Digests) (sizes : Annotation.Sizes) (schema : Value)
    (generator : DeployedGenerator) (processingHash : String) (t : Recipes.RecipeTables) :
    Except StoredRecipeError Processing.PreparedGeneratorProcessing :=
  match t.recipes.find? processingHash with
  | none => .error .missing
  | some row => do
    let prepared ← (reopenGeneratorProcessing digests sizes schema generator processingHash
      row.recipeJson).mapError .recipe
    (Recipes.verifyPersistedGeneratorRecipe (recorded digests prepared) t).mapError .database
    return prepared

/-! ## What the writes do -/

section Writes

variable {requestIdentity requestJson processingHash snapshotIdentity : String}
  {t t' : Table BambuProjectRequestRecord} {row : BambuProjectRequestRecord}

/-- A later row of a request: its text is the same, and what it is bound to stays. -/
structure Grown (row row' : BambuProjectRequestRecord) : Prop where
  requestIdentity : row'.requestIdentity = row.requestIdentity
  requestJson : row'.requestJson = row.requestJson
  processingHash : ∀ hash, row.processingHash = some hash → row'.processingHash = some hash
  snapshot : ∀ identity, row.outputSnapshotIdentity = some identity →
    row'.outputSnapshotIdentity = some identity
  paired : row.processingHash.isSome = row.outputSnapshotIdentity.isSome →
    row'.processingHash.isSome = row'.outputSnapshotIdentity.isSome

theorem Grown.refl (row : BambuProjectRequestRecord) : Grown row row :=
  ⟨rfl, rfl, fun _ h => h, fun _ h => h, fun h => h⟩

theorem Grown.trans {row' row'' : BambuProjectRequestRecord} (h : Grown row row')
    (h' : Grown row' row'') : Grown row row'' where
  requestIdentity := h'.requestIdentity.trans h.requestIdentity
  requestJson := h'.requestJson.trans h.requestJson
  processingHash hash hhash := h'.processingHash hash (h.processingHash hash hhash)
  snapshot identity hidentity := h'.snapshot identity (h.snapshot identity hidentity)
  paired hpaired := h'.paired (h.paired hpaired)

theorem find?_updateRequest {f : BambuProjectRequestRecord → BambuProjectRequestRecord}
    {hf : ∀ r, (f r).requestIdentity = r.requestIdentity} (k : String) :
    (updateRequest requestIdentity f hf t).find? k =
      (t.find? k).map fun r => if r.requestIdentity = requestIdentity then f r else r := by
  simp only [updateRequest, Table.find?_update, decide_eq_true_eq]

/-- A row from here on. -/
def GrownTable (t t' : Table BambuProjectRequestRecord) : Prop :=
  ∀ k row, t.find? k = some row → ∃ row', t'.find? k = some row' ∧ Grown row row'

theorem GrownTable.refl (t : Table BambuProjectRequestRecord) : GrownTable t t :=
  fun _ row h => ⟨row, h, .refl row⟩

theorem GrownTable.trans {t'' : Table BambuProjectRequestRecord} (h : GrownTable t t')
    (h' : GrownTable t' t'') : GrownTable t t'' := by
  intro k row hrow
  obtain ⟨row', hrow', hgrown⟩ := h k row hrow
  obtain ⟨row'', hrow'', hgrown'⟩ := h' k row' hrow'
  exact ⟨row'', hrow'', hgrown.trans hgrown'⟩

theorem grown_insert (h : insertBambuProjectRequest requestIdentity requestJson t = .ok t') :
    GrownTable t t' ∧ ∀ k row, t'.find? k = some row → t.find? k = some row ∨
      row = ⟨requestIdentity, requestJson, none, none, none, none⟩ := by
  unfold insertBambuProjectRequest at h
  simp only at h
  split at h
  · cases h
  · split at h
    · cases h
    · cases h
      refine ⟨fun k row hrow => ⟨row, Table.find?_insertOrIgnore hrow, .refl row⟩, ?_⟩
      intro k row hrow
      rw [(Table.insertOrIgnore_keyed (fun _ _ h => h) t _).2 k] at hrow
      by_cases hk : requestIdentity = k
      · rw [if_pos (by exact hk)] at hrow
        cases hfind : t.find? k with
        | none =>
          rw [hfind] at hrow
          exact .inr (Option.some.inj hrow).symm
        | some old =>
          rw [hfind] at hrow
          exact .inl hrow
      · rw [if_neg (by exact hk)] at hrow
        exact .inl hrow

/-- A row that is bound says what it is bound to, and was not bound to anything else. -/
theorem bindTransaction_ok {recipes : Recipes.RecipeTables}
    (h : bindTransaction requestIdentity requestJson processingHash snapshotIdentity recipes t =
      .ok t') :
    ∃ row, t.find? requestIdentity = some row ∧ row.requestJson = requestJson ∧
      Grown row (boundRecord processingHash snapshotIdentity row) ∧
      recipes.recipes.find? processingHash ≠ none ∧
      ∀ k, t'.find? k = if k = requestIdentity then
        some (boundRecord processingHash snapshotIdentity row) else t.find? k := by
  unfold bindTransaction at h
  split at h
  · cases h
  · rename_i row hrow
    split at h
    · cases h
    · rename_i hconflict
      split at h
      · cases h
      · rename_i hrecipe
        cases h
        simp only [bindingConflict, ne_eq, Bool.or_eq_true, decide_eq_true_eq, bne_iff_ne,
          Option.any_eq_true, not_or, not_exists, not_and, not_not] at hconflict
        obtain ⟨⟨⟨hjson, hhash⟩, hsnapshot⟩, hpaired⟩ := hconflict
        refine ⟨row, hrow, hjson, ?_, hrecipe, fun k => ?_⟩
        · exact {
            requestIdentity := rfl
            requestJson := rfl
            processingHash := fun hash hh => by rw [← hhash hash hh]; rfl
            snapshot := fun identity hi => by rw [← hsnapshot identity hi]; rfl
            paired := fun _ => rfl }
        · rw [find?_updateRequest]
          by_cases hk : k = requestIdentity
          · subst hk
            have hkey : row.requestIdentity = k := Table.find?_key hrow
            rw [hrow, if_pos rfl, Option.map_some, if_pos hkey]
          · rw [if_neg hk]
            cases hfind : t.find? k with
            | none => rfl
            | some other =>
              have hkey : other.requestIdentity = k := Table.find?_key hfind
              rw [Option.map_some, if_neg (by rw [hkey]; exact hk)]

theorem grown_bind {recipes : Recipes.RecipeTables}
    (h : bindTransaction requestIdentity requestJson processingHash snapshotIdentity recipes t =
      .ok t') : GrownTable t t' := by
  obtain ⟨row, hrow, -, hgrown, -, hfind⟩ := bindTransaction_ok h
  intro k old hold
  rw [hfind]
  by_cases hk : k = requestIdentity
  · rw [hk, hrow] at hold
    cases hold
    rw [if_pos hk]
    exact ⟨_, rfl, hgrown⟩
  · rw [if_neg hk]
    exact ⟨old, hold, .refl old⟩

theorem grown_record {category code : Option String} :
    GrownTable t (recordBambuProjectFailure requestIdentity category code t) := by
  intro k row hrow
  rw [recordBambuProjectFailure, find?_updateRequest, hrow]
  refine ⟨_, rfl, ?_⟩
  simp only
  split
  · exact ⟨rfl, rfl, fun _ h => h, fun _ h => h, fun h => h⟩
  · exact .refl row

end Writes

end Projects
end OnshapeExport
