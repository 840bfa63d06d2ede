import OnshapeExport.Artifacts
import Mathlib.Data.List.Sort

/-!
# Recipes

The processing recipes of the generator (`generator_processing.rs`) and the two tables of `db.rs`
that keep them. A recipe row and its occurrence rows are written once: `ON CONFLICT DO NOTHING`
leaves what is there, and the rows are then compared with what the caller has.

* `insertGeneratorProcessingRecipe` — the recipe and its occurrences, or an error and nothing.
* `verifyPersistedGeneratorRecipe` — the check every reader of a generator artifact makes.
* `verify_of_insert` — what was inserted verifies.
-/

namespace OnshapeExport
namespace Recipes

open Relational

/-! ## A prepared recipe -/

structure GeneratorCompatibilityIdentity where
  dialectIdentity : String
  capabilityIdentities : List String
deriving DecidableEq, Repr

inductive GeneratorCompatibilityDecision where
  | supported
  | unsupported (field : String)
deriving DecidableEq, Repr

def GeneratorCompatibilityDecision.status : GeneratorCompatibilityDecision → String
  | .supported => "supported"
  | .unsupported _ => "unsupported"

structure FileContent where
  contentIdentity : String
  path : String
  sha256 : String
  byteLength : Nat
  mediaType : String
  detectedKindIdentity : String
deriving DecidableEq, Repr

/-- An object of the manifest; its mapping and its provenance are their canonical JSON. -/
structure InputObject where
  objectIdentity : String
  role : String
  displayName : Option String
  retainedContent : FileContent
  mapping : String
  provenance : String
deriving DecidableEq, Repr

structure InputManifest where
  manifestIdentity : String
  inputSetIdentity : Option String
  requirementsIdentity : String
  sourceIdentity : String
  configurationIdentity : String
  kindIdentity : String
  schemaIdentity : String
  objects : List InputObject
deriving DecidableEq, Repr

structure OutputDeclaration where
  outputIdentity : String
  path : String
  mediaType : String
  maxByteLength : Nat
deriving DecidableEq, Repr

structure GeneratorRequest where
  manifestPath : String
  settingsContent : FileContent
  output : OutputDeclaration
deriving DecidableEq, Repr

structure GeneratorProcessingRecipe where
  recipeVersion : Nat
  deployedGeneratorIdentity : String
  compatibility : GeneratorCompatibilityIdentity
  compatibilityDecision : GeneratorCompatibilityDecision
  compatibilityDecisionIdentity : String
  inputManifest : InputManifest
  /-- The placements of the settings, as their canonical JSON. -/
  placements : List String
  settingsIdentity : String
  settingsSchemaIdentity : String
  invocation : GeneratorRequest
deriving DecidableEq, Repr

structure GeneratorProcessingOccurrence where
  occurrenceIdentity : String
  occurrenceOrder : Nat
  objectIdentity : String
  contentIdentity : String
  contentSha256 : String
  contentByteLength : Nat
  stagedPath : String
  transportRole : String
  displayName : Option String
  mappingJson : String
  provenanceJson : String
  placementJson : String
deriving DecidableEq, Repr

structure PreparedGeneratorProcessing where
  processingHash : String
  recipeJson : String
  recipe : GeneratorProcessingRecipe
  occurrences : List GeneratorProcessingOccurrence
deriving DecidableEq, Repr

structure OccurrenceIdentityPayload where
  processingHash : String
  occurrenceOrder : Nat
  objectIdentity : String
  stagedPath : String
deriving DecidableEq, Repr

/-- The hashes of a recipe and of its occurrences, and its canonical JSON. -/
structure RecipeHashes where
  processingHash : GeneratorProcessingRecipe → String
  occurrenceIdentity : OccurrenceIdentityPayload → String
  recipeJson : GeneratorProcessingRecipe → String

section Prepare

variable (hashes : RecipeHashes)

def deriveOccurrences (processingHash : String) (recipe : GeneratorProcessingRecipe) :
    List GeneratorProcessingOccurrence :=
  (recipe.inputManifest.objects.zip recipe.placements).zipIdx.map fun ((object, placement), order) =>
    { occurrenceIdentity := hashes.occurrenceIdentity
        ⟨processingHash, order, object.objectIdentity, object.retainedContent.path⟩
      occurrenceOrder := order
      objectIdentity := object.objectIdentity
      contentIdentity := object.retainedContent.contentIdentity
      contentSha256 := object.retainedContent.sha256
      contentByteLength := object.retainedContent.byteLength
      stagedPath := object.retainedContent.path
      transportRole := object.role
      displayName := object.displayName
      mappingJson := object.mapping
      provenanceJson := object.provenance
      placementJson := placement }

/-- How `prepare_generator_processing` ends, once it has checked and assembled the recipe. -/
def preparedOf (recipe : GeneratorProcessingRecipe) : PreparedGeneratorProcessing where
  processingHash := hashes.processingHash recipe
  recipeJson := hashes.recipeJson recipe
  recipe := recipe
  occurrences := deriveOccurrences hashes (hashes.processingHash recipe) recipe

end Prepare

/-! ## The tables -/

/-- A row of `generator_processing_recipes`. -/
structure RecipeRow where
  processingHash : String
  recipeVersion : Int
  deployedGeneratorIdentity : String
  manifestIdentity : String
  inputSetIdentity : String
  settingsIdentity : String
  settingsSchemaIdentity : String
  compatibilityDecisionIdentity : String
  compatibilityStatus : String
  recipeJson : String
deriving DecidableEq, Repr

/-- A row of `generator_processing_occurrences`. -/
structure OccurrenceRow where
  occurrenceIdentity : String
  processingHash : String
  occurrenceOrder : Int
  objectIdentity : String
  contentIdentity : String
  contentSha256 : String
  contentByteLength : Int
  stagedPath : String
  transportRole : String
  displayName : Option String
  mappingJson : String
  provenanceJson : String
  placementJson : String
deriving DecidableEq, Repr

instance : Schema RecipeRow String where
  key := RecipeRow.processingHash
  clash a b := a.processingHash = b.processingHash
  clash_of_key h := h
  clash_symm h := h.symm

instance : DecidableRel (Schema.clash (α := RecipeRow)) := fun a b =>
  inferInstanceAs (Decidable (a.processingHash = b.processingHash))

/-- Within one recipe the order, the object and the staged path are `UNIQUE` each. -/
instance : Schema OccurrenceRow String where
  key := OccurrenceRow.occurrenceIdentity
  clash a b := a.occurrenceIdentity = b.occurrenceIdentity ∨
    a.processingHash = b.processingHash ∧ (a.occurrenceOrder = b.occurrenceOrder ∨
      a.objectIdentity = b.objectIdentity ∨ a.stagedPath = b.stagedPath)
  clash_of_key h := .inl h
  clash_symm h := h.imp Eq.symm fun ⟨hp, hu⟩ =>
    ⟨hp.symm, hu.imp Eq.symm (Or.imp Eq.symm Eq.symm)⟩

instance : DecidableRel (Schema.clash (α := OccurrenceRow)) := fun a b =>
  inferInstanceAs (Decidable (a.occurrenceIdentity = b.occurrenceIdentity ∨
    a.processingHash = b.processingHash ∧ (a.occurrenceOrder = b.occurrenceOrder ∨
      a.objectIdentity = b.objectIdentity ∨ a.stagedPath = b.stagedPath)))

structure RecipeTables where
  recipes : Table RecipeRow
  occurrences : Table OccurrenceRow

def RecipeTables.empty : RecipeTables := ⟨.empty, .empty⟩

/-- `WHERE processing_hash = ? ORDER BY occurrence_order`. -/
def RecipeTables.occurrencesOf (t : RecipeTables) (processingHash : String) :
    List OccurrenceRow :=
  (t.occurrences.rows.filter fun r => r.processingHash = processingHash).insertionSort
    fun a b => a.occurrenceOrder ≤ b.occurrenceOrder

/-! ## The statements -/

def i64Max : Nat := 9223372036854775807

def recipeRow (prepared : PreparedGeneratorProcessing) (inputSetIdentity : String) : RecipeRow where
  processingHash := prepared.processingHash
  recipeVersion := prepared.recipe.recipeVersion
  deployedGeneratorIdentity := prepared.recipe.deployedGeneratorIdentity
  manifestIdentity := prepared.recipe.inputManifest.manifestIdentity
  inputSetIdentity := inputSetIdentity
  settingsIdentity := prepared.recipe.settingsIdentity
  settingsSchemaIdentity := prepared.recipe.settingsSchemaIdentity
  compatibilityDecisionIdentity := prepared.recipe.compatibilityDecisionIdentity
  compatibilityStatus := prepared.recipe.compatibilityDecision.status
  recipeJson := prepared.recipeJson

def occurrenceRow (processingHash : String) (o : GeneratorProcessingOccurrence) :
    OccurrenceRow where
  occurrenceIdentity := o.occurrenceIdentity
  processingHash := processingHash
  occurrenceOrder := o.occurrenceOrder
  objectIdentity := o.objectIdentity
  contentIdentity := o.contentIdentity
  contentSha256 := o.contentSha256
  contentByteLength := o.contentByteLength
  stagedPath := o.stagedPath
  transportRole := o.transportRole
  displayName := o.displayName
  mappingJson := o.mappingJson
  provenanceJson := o.provenanceJson
  placementJson := o.placementJson

def occurrenceRows (prepared : PreparedGeneratorProcessing) : List OccurrenceRow :=
  prepared.occurrences.map (occurrenceRow prepared.processingHash)

/-- The first number of an occurrence that is not an SQLite integer. -/
def integerOverflow : List GeneratorProcessingOccurrence → Option String
  | [] => none
  | o :: os =>
    if i64Max < o.occurrenceOrder then some "generator occurrence order exceeds SQLite INTEGER"
    else if i64Max < o.contentByteLength then
      some "generator occurrence length exceeds SQLite INTEGER"
    else integerOverflow os

/-- One `INSERT … ON CONFLICT DO NOTHING` an occurrence. -/
def insertOccurrences (rows : List OccurrenceRow) (t : Table OccurrenceRow) :
    Table OccurrenceRow :=
  rows.foldl (fun t r => (t.insertOrIgnore r).2) t

/-- The transaction: what it commits, and whether the recipe was new. -/
def insertGeneratorProcessingRecipeFields (recipe : RecipeRow) (rows : List OccurrenceRow)
    (t : RecipeTables) : Except DbError (Bool × RecipeTables) :=
  let (inserted, recipes) := t.recipes.insertOrIgnore recipe
  if recipes.find? recipe.processingHash ≠ some recipe then
    .error (.protocol ("immutable generator recipe conflict for " ++ recipe.processingHash))
  else
    let t' : RecipeTables := ⟨recipes, insertOccurrences rows t.occurrences⟩
    if t'.occurrencesOf recipe.processingHash ≠ rows then
      .error (.protocol ("immutable generator occurrence conflict for " ++ recipe.processingHash))
    else .ok (inserted, t')

def insertGeneratorProcessingRecipe (prepared : PreparedGeneratorProcessing) (t : RecipeTables) :
    Except DbError (Bool × RecipeTables) :=
  match integerOverflow prepared.occurrences with
  | some message => .error (.protocol message)
  | none =>
    match prepared.recipe.inputManifest.inputSetIdentity with
    | none => .error (.protocol "generator processing recipe has no input-set identity")
    | some inputSetIdentity =>
      insertGeneratorProcessingRecipeFields (recipeRow prepared inputSetIdentity)
        (occurrenceRows prepared) t

def generatorArtifactConflict : DbError := .protocol "immutable generator artifact conflict"

/-- The stored recipe and its occurrences are the prepared ones. -/
def verifyPersistedGeneratorRecipe (prepared : PreparedGeneratorProcessing) (t : RecipeTables) :
    Except DbError Unit :=
  match t.recipes.find? prepared.processingHash with
  | none => .error generatorArtifactConflict
  | some row =>
    if row ≠ recipeRow prepared row.inputSetIdentity ∨
        some row.inputSetIdentity ≠ prepared.recipe.inputManifest.inputSetIdentity then
      .error generatorArtifactConflict
    else if t.occurrencesOf prepared.processingHash ≠ occurrenceRows prepared then
      .error generatorArtifactConflict
    else .ok ()

/-! ## What they do -/

theorem mem_insertOccurrences {rows : List OccurrenceRow} {t : Table OccurrenceRow}
    {o : OccurrenceRow} (h : o ∈ (insertOccurrences rows t).rows) : o ∈ t.rows ∨ o ∈ rows := by
  induction rows generalizing t with
  | nil => exact .inl h
  | cons r rows ih =>
    rcases ih h with h | h
    · rcases Table.mem_insertOrIgnore h with h | h
      · exact .inl h
      · exact .inr (h ▸ List.mem_cons_self)
    · exact .inr (List.mem_cons_of_mem _ h)

theorem agree_insertOccurrences {q : OccurrenceRow → Bool} {rows : List OccurrenceRow}
    (u : Table OccurrenceRow) (hq : ∀ o ∈ rows, q o = false) :
    Table.Agree q u (insertOccurrences rows u) := by
  induction rows generalizing u with
  | nil => exact .refl _
  | cons o rows ih =>
    have hone : Table.Agree q u (u.insertOrIgnore o).2 :=
      Table.agree_insertOrIgnore (hq o List.mem_cons_self)
    exact hone.trans (ih _ fun o ho => hq o (List.mem_cons_of_mem _ ho))

theorem insertGeneratorProcessingRecipe_ok {prepared : PreparedGeneratorProcessing}
    {t t' : RecipeTables} {inserted : Bool}
    (h : insertGeneratorProcessingRecipe prepared t = .ok (inserted, t')) :
    ∃ inputSetIdentity, prepared.recipe.inputManifest.inputSetIdentity = some inputSetIdentity ∧
      t'.recipes = (t.recipes.insertOrIgnore (recipeRow prepared inputSetIdentity)).2 ∧
      t'.recipes.find? prepared.processingHash = some (recipeRow prepared inputSetIdentity) ∧
      t'.occurrencesOf prepared.processingHash = occurrenceRows prepared := by
  unfold insertGeneratorProcessingRecipe at h
  split at h
  · cases h
  · split at h
    · cases h
    · rename_i inputSetIdentity hi
      simp only [insertGeneratorProcessingRecipeFields] at h
      split at h
      · cases h
      · rename_i hrow
        split at h
        · cases h
        · rename_i hocc
          cases h
          exact ⟨inputSetIdentity, hi, rfl, not_not.mp hrow, not_not.mp hocc⟩

theorem verify_of_insert {prepared : PreparedGeneratorProcessing} {t t' : RecipeTables}
    {inserted : Bool} (h : insertGeneratorProcessingRecipe prepared t = .ok (inserted, t')) :
    verifyPersistedGeneratorRecipe prepared t' = .ok () := by
  obtain ⟨inputSetIdentity, hi, -, hrow, hocc⟩ := insertGeneratorProcessingRecipe_ok h
  unfold verifyPersistedGeneratorRecipe
  rw [hrow]
  simp only
  rw [if_neg, if_neg]
  · exact not_not.mpr hocc
  · rw [not_or, not_not, not_not]
    exact ⟨rfl, hi.symm⟩

/-- No recipe row is ever changed or removed. -/
theorem recipe_stays {prepared : PreparedGeneratorProcessing} {t t' : RecipeTables}
    {inserted : Bool} {h : String} {row : RecipeRow}
    (hins : insertGeneratorProcessingRecipe prepared t = .ok (inserted, t'))
    (hrow : t.recipes.find? h = some row) : t'.recipes.find? h = some row := by
  obtain ⟨inputSetIdentity, -, hrec, -, -⟩ := insertGeneratorProcessingRecipe_ok hins
  rw [hrec]
  exact Table.find?_insertOrIgnore hrow

end Recipes
end OnshapeExport
