import OnshapeExport.Catalog
import OnshapeExport.Lib.JsonCodec
import OnshapeExport.Lib.JsonText
import OnshapeExport.Lib.Table

/-!
# CatalogStore

The four tables of `db.rs` that hold the catalog, how it is written there and read back. The reader
and printer of the JSON columns are a parameter.

* `Tables.replaceCatalog` — everything is deleted and inserted anew, in one transaction.
* `Tables.catalog` — the catalog that the rows stand for, checked again.
* `Tables.publishedCatalogModel` — the entry of a slug, if it is published.
-/

namespace OnshapeExport
namespace Catalogs

open Json Relational Selection

/-! ## Documents of the JSON columns -/

section Documents

def downloadFormatCodec : Codec DownloadFormat :=
  .enum DownloadFormat.slug [.step, .stl, .threeMf] (fun a => by cases a <;> decide)
    (fun a b => by cases a <;> cases b <;> decide)

def previewResolutionCodec : Codec PreviewResolution :=
  .enum PreviewResolution.asOnshapeStr [.coarse, .medium, .fine] (fun a => by cases a <;> decide)
    (fun a b => by cases a <;> cases b <;> decide)

def meshResolutionCodec : Codec MeshResolution :=
  .enum MeshResolution.asOnshapeStr [.coarse, .medium, .fine] (fun a => by cases a <;> decide)
    (fun a b => by cases a <;> cases b <;> decide)

def stlModeCodec : Codec StlMode :=
  .enum StlMode.asOnshapeStr [.binary, .text] (fun a => by cases a <;> decide)
    (fun a b => by cases a <;> cases b <;> decide)

def stepVersionStringCodec : Codec StepVersionString :=
  .enum StepVersionString.asOnshapeStr [.ap242] (fun a => by cases a <;> decide)
    (fun a b => by cases a <;> cases b <;> decide)

def tagsCodec : Codec (List String) := .list .str

def downloadsCodec : Codec (List DownloadFormat) := .list downloadFormatCodec

def previewOptionsCodec : Codec PreviewResolution :=
  .record true (.required "resolution" previewResolutionCodec)

def downloadOptionsCodec : Codec DownloadOptions :=
  .record true <|
    ((Fields.required "stepVersionString" stepVersionStringCodec).and <|
      (Fields.required "stl" (.record true
        ((Fields.required "resolution" meshResolutionCodec).and
          (.required "stlMode" stlModeCodec)))).and
      (Fields.required "3mf" (.record true (.required "resolution" meshResolutionCodec)))).iso
    (fun (version, (resolution, mode), threeMf) => ⟨version, resolution, mode, threeMf⟩)
    (fun o => (o.stepVersionString, (o.stlResolution, o.stlMode), o.threeMfResolution))
    (fun _ => rfl)

def selectorCodec : Codec SelectionSelector :=
  (Codec.untagged (.record true (.required "partId" .str))
    (.record true (.required "occurrencePath" (.list .str))) (fun _ => rfl)).iso
    (fun | .inl partId => .part partId | .inr path => .occurrence path)
    (fun | .part partId => .inl partId | .occurrence path => .inr path)
    (fun s => by cases s <;> rfl)

def bambuProjectCodec : Codec BambuProjectConfig :=
  .record true ((Fields.required "selectors" (.list selectorCodec)).iso (fun l => ⟨l⟩)
    BambuProjectConfig.selectors (fun _ => rfl))

end Documents

/-! ## Rows -/

structure ModelRow where
  id : Nat
  displayOrder : Int
  catalogSchemaVersion : Int
  entryVersion : Int
  slug : String
  name : String
  description : String
  published : Int
  tagsJson : String
  thumbnail : Option String
  documentId : String
  versionId : String
  elementId : String
  elementKind : String
  linkDocumentId : Option String
  downloadsJson : String
  previewFormat : String
  previewOptionsJson : String
  downloadOptionsJson : String
  bambuProjectJson : Option String
  parameterSource : String
  parameterAllowUnknown : Int
  parameterAutoRefresh : Int
deriving DecidableEq

/-- The columns of `catalog_models_source_identity_idx`. -/
def ModelRow.sourceIdentity (r : ModelRow) : String × String × String × String × String :=
  (r.documentId, r.versionId, r.elementId, r.elementKind, r.linkDocumentId.getD "")

/-- The `CHECK` constraints. -/
def ModelRow.checked (r : ModelRow) : Bool :=
  r.published ∈ [0, 1] && r.elementKind ∈ ["part_studio", "assembly"] &&
    r.previewFormat ∈ ["glb"] && r.parameterSource ∈ ["onshape"] &&
    r.parameterAllowUnknown ∈ [0, 1] && r.parameterAutoRefresh ∈ [0, 1]

instance : Schema ModelRow Nat where
  key := ModelRow.id
  clash a b := a.id = b.id ∨ a.slug = b.slug ∨ a.sourceIdentity = b.sourceIdentity
  clash_of_key h := .inl h
  clash_symm h := h.imp Eq.symm (.imp Eq.symm Eq.symm)

instance : DecidableRel (Schema.clash (α := ModelRow)) := fun a b =>
  inferInstanceAs (Decidable (a.id = b.id ∨ a.slug = b.slug ∨ a.sourceIdentity = b.sourceIdentity))

structure OverrideRow where
  modelId : Nat
  parameterId : String
  label : Option String
  description : Option String
  hidden : Int
  precision : Option Int
  widget : Option String
deriving DecidableEq

instance : Schema OverrideRow (Nat × String) where
  key r := (r.modelId, r.parameterId)
  clash a b := (a.modelId, a.parameterId) = (b.modelId, b.parameterId)
  clash_of_key h := h
  clash_symm h := h.symm

instance : DecidableRel (Schema.clash (α := OverrideRow)) := fun a b =>
  inferInstanceAs (Decidable ((a.modelId, a.parameterId) = (b.modelId, b.parameterId)))

structure PresetRow where
  id : Nat
  modelId : Nat
  displayOrder : Int
  slug : String
  name : String
deriving DecidableEq

instance : Schema PresetRow Nat where
  key := PresetRow.id
  clash a b := a.id = b.id ∨ (a.modelId, a.slug) = (b.modelId, b.slug)
  clash_of_key h := .inl h
  clash_symm h := h.imp Eq.symm Eq.symm

instance : DecidableRel (Schema.clash (α := PresetRow)) := fun a b =>
  inferInstanceAs (Decidable (a.id = b.id ∨ (a.modelId, a.slug) = (b.modelId, b.slug)))

structure PresetValueRow where
  presetId : Nat
  parameterId : String
  value : String
deriving DecidableEq

instance : Schema PresetValueRow (Nat × String) where
  key r := (r.presetId, r.parameterId)
  clash a b := (a.presetId, a.parameterId) = (b.presetId, b.parameterId)
  clash_of_key h := h
  clash_symm h := h.symm

instance : DecidableRel (Schema.clash (α := PresetValueRow)) := fun a b =>
  inferInstanceAs (Decidable ((a.presetId, a.parameterId) = (b.presetId, b.parameterId)))

/-- The tables, with the largest identifiers that were ever given. -/
structure Tables where
  models : Table ModelRow
  overrides : Table OverrideRow
  presets : Table PresetRow
  values : Table PresetValueRow
  modelSequence : Nat
  presetSequence : Nat

/-! ## Writing -/

def boolToI64 (value : Bool) : Int := if value then 1 else 0

section Write

variable (text : JsonText)

def modelRow (id displayOrder : Nat) (m : Model) : ModelRow where
  id := id
  displayOrder := displayOrder
  catalogSchemaVersion := m.catalogSchemaVersion
  entryVersion := m.entryVersion
  slug := m.slug
  name := m.name
  description := m.description
  published := boolToI64 m.published
  tagsJson := text.print (tagsCodec.enc m.tags)
  thumbnail := m.thumbnail
  documentId := m.onshape.documentId
  versionId := m.onshape.versionId
  elementId := m.onshape.elementId
  elementKind := m.onshape.elementKind.key
  linkDocumentId := m.onshape.linkDocumentId
  downloadsJson := text.print (downloadsCodec.enc m.exports.downloads)
  previewFormat := "glb"
  previewOptionsJson := text.print (previewOptionsCodec.enc m.exports.previewResolution)
  downloadOptionsJson := text.print (downloadOptionsCodec.enc m.exports.downloadOptions)
  bambuProjectJson := m.exports.bambuProject.map fun p => text.print (bambuProjectCodec.enc p)
  parameterSource := "onshape"
  parameterAllowUnknown := boolToI64 m.parameterPolicy.allowUnknown
  parameterAutoRefresh := boolToI64 m.parameterPolicy.autoRefresh

def overrideRow (modelId : Nat) (o : String × ParameterOverride) : OverrideRow where
  modelId := modelId
  parameterId := o.1
  label := o.2.label
  description := o.2.description
  hidden := boolToI64 o.2.hidden
  precision := o.2.precision.map Int.ofNat
  widget := o.2.widget

def presetRow (modelId id displayOrder : Nat) (p : ParameterPreset) : PresetRow :=
  ⟨id, modelId, displayOrder, p.slug, p.name⟩

def presetValueRow (presetId : Nat) (v : String × String) : PresetValueRow := ⟨presetId, v.1, v.2⟩

/-! ### Statements -/

def Tables.deleteAll (t : Tables) : Tables :=
  { t with models := .empty, overrides := .empty, presets := .empty, values := .empty }

/-- A row gets the identifier after the largest one given. -/
def Tables.insertModel (displayOrder : Nat) (m : Model) (t : Tables) : Option Tables :=
  let row := modelRow text (t.modelSequence + 1) displayOrder m
  if row.checked then
    (t.models.insert? row).map fun models =>
      { t with models := models, modelSequence := t.modelSequence + 1 }
  else none

def Tables.insertOverride (modelId : Nat) (o : String × ParameterOverride) (t : Tables) :
    Option Tables :=
  (t.overrides.insert? (overrideRow modelId o)).map fun overrides => { t with overrides := overrides }

def Tables.insertPreset (modelId displayOrder : Nat) (p : ParameterPreset) (t : Tables) :
    Option Tables :=
  (t.presets.insert? (presetRow modelId (t.presetSequence + 1) displayOrder p)).map fun presets =>
    { t with presets := presets, presetSequence := t.presetSequence + 1 }

def Tables.insertPresetValue (presetId : Nat) (v : String × String) (t : Tables) : Option Tables :=
  (t.values.insert? (presetValueRow presetId v)).map fun values => { t with values := values }

/-! ### The transaction -/

/-- What the transaction sees, and how many statements it has run. -/
structure Tx where
  tables : Tables
  statements : Nat

section Fails

-- which statements the database refuses for reasons of its own
variable (fails : Nat → Bool)

def execute (statement : Tables → Option Tables) (tx : Tx) : Option Tx :=
  if fails tx.statements then none
  else (statement tx.tables).map fun tables => ⟨tables, tx.statements + 1⟩

/-- The same statement for each element of a list. -/
def executeEach {α : Type} (statement : α → Tables → Option Tables) : List α → Tx → Option Tx
  | [], tx => some tx
  | a :: l, tx => do
    let tx ← execute fails (statement a) tx
    executeEach statement l tx

def insertPresets (modelId : Nat) : Nat → List ParameterPreset → Tx → Option Tx
  | _, [], tx => some tx
  | displayOrder, p :: presets, tx => do
    let tx ← execute fails (Tables.insertPreset modelId displayOrder p) tx
    let tx ← executeEach fails (Tables.insertPresetValue tx.tables.presetSequence) p.values tx
    insertPresets modelId (displayOrder + 1) presets tx

def insertModels : Nat → List Model → Tx → Option Tx
  | _, [], tx => some tx
  | displayOrder, m :: models, tx => do
    let tx ← execute fails (Tables.insertModel text displayOrder m) tx
    let modelId := tx.tables.modelSequence
    let tx ← executeEach fails (Tables.insertOverride modelId) m.parameterOverrides tx
    let tx ← insertPresets fails modelId 0 m.parameterPresets tx
    insertModels (displayOrder + 1) models tx

/-- The four deletions, the insertions and the commit. -/
def replaceTransaction (catalog : Catalog) (t : Tables) : Option Tx := do
  let tx ← execute fails (fun t => some { t with values := .empty }) ⟨t, 0⟩
  let tx ← execute fails (fun t => some { t with presets := .empty }) tx
  let tx ← execute fails (fun t => some { t with overrides := .empty }) tx
  let tx ← execute fails (fun t => some { t with models := .empty }) tx
  let tx ← insertModels text fails 0 catalog.models tx
  execute fails some tx

/-- A transaction that does not come to its commit leaves the tables as they were. -/
def Tables.replaceCatalog (catalog : Catalog) (t : Tables) : Tables × Bool :=
  match catalog.validate with
  | .error _ => (t, false)
  | .ok () =>
    match replaceTransaction text fails catalog t with
    | none => (t, false)
    | some tx => (tx.tables, true)

end Fails

/-! ## Reading -/

def jsonColumn {α : Type} (c : Codec α) (column : String) : Option α :=
  (text.read column).bind c.dec

def u32Column (column : Int) : Option Nat :=
  if 0 ≤ column ∧ column < 2 ^ 32 then some column.toNat else none

def boolColumn (column : Int) : Bool := column ≠ 0

def elementKindColumn (column : String) : Option ElementKind :=
  [ElementKind.partStudio, .assembly].find? fun kind => kind.key = column

def nullableColumn {α β : Type} (decode : α → Option β) : Option α → Option (Option β)
  | none => some none
  | some column => (decode column).map some

def overrideOfRow (r : OverrideRow) : Option (String × ParameterOverride) := do
  let precision ← nullableColumn u32Column r.precision
  return (r.parameterId, {
    label := r.label
    description := r.description
    hidden := boolColumn r.hidden
    precision := precision
    widget := r.widget })

def Tables.catalogParameterOverrides (t : Tables) (modelId : Nat) :
    Option (List (String × ParameterOverride)) :=
  ((t.overrides.rows.filter fun r => r.modelId = modelId).mergeSort
    fun a b => a.parameterId ≤ b.parameterId).mapM overrideOfRow

def Tables.presetValues (t : Tables) (presetId : Nat) : List (String × String) :=
  ((t.values.rows.filter fun r => r.presetId = presetId).mergeSort
    fun a b => a.parameterId ≤ b.parameterId).map fun r => (r.parameterId, r.value)

def orderedBefore (order order' : Int) (slug slug' : String) : Bool :=
  order < order' || order = order' && slug ≤ slug'

def Tables.catalogParameterPresets (t : Tables) (modelId : Nat) : List ParameterPreset :=
  ((t.presets.rows.filter fun r => r.modelId = modelId).mergeSort
    fun a b => orderedBefore a.displayOrder b.displayOrder a.slug b.slug).map
    fun r => ⟨r.slug, r.name, t.presetValues r.id⟩

def Tables.catalogModelFromRow (t : Tables) (r : ModelRow) : Option Model := do
  let parameterOverrides ← t.catalogParameterOverrides r.id
  let catalogSchemaVersion ← u32Column r.catalogSchemaVersion
  let entryVersion ← u32Column r.entryVersion
  let tags ← jsonColumn text tagsCodec r.tagsJson
  let elementKind ← elementKindColumn r.elementKind
  let downloads ← jsonColumn text downloadsCodec r.downloadsJson
  guard (r.previewFormat = "glb")
  let previewResolution ← jsonColumn text previewOptionsCodec r.previewOptionsJson
  let downloadOptions ← jsonColumn text downloadOptionsCodec r.downloadOptionsJson
  let bambuProject ← nullableColumn (jsonColumn text bambuProjectCodec) r.bambuProjectJson
  guard (r.parameterSource = "onshape")
  return {
    catalogSchemaVersion := catalogSchemaVersion
    entryVersion := entryVersion
    slug := r.slug
    name := r.name
    description := r.description
    published := boolColumn r.published
    tags := tags
    thumbnail := r.thumbnail
    onshape := ⟨r.documentId, r.versionId, r.elementId, elementKind, r.linkDocumentId⟩
    exports := ⟨downloads, previewResolution, downloadOptions, bambuProject⟩
    parameterPolicy := ⟨boolColumn r.parameterAllowUnknown, boolColumn r.parameterAutoRefresh⟩
    parameterPresets := t.catalogParameterPresets r.id
    parameterOverrides := parameterOverrides }

/-- `Catalog::from_models`. -/
def Catalog.fromModels (models : List Model) : Except String Catalog := do
  let catalog : Catalog := ⟨Catalogs.catalogSchemaVersion, models⟩
  catalog.validate
  return catalog

def Tables.catalog (t : Tables) : Except String Catalog :=
  match (t.models.rows.mergeSort
      fun a b => orderedBefore a.displayOrder b.displayOrder a.slug b.slug).mapM
    (t.catalogModelFromRow text) with
  | none => .error "parsing catalog column"
  | some models => Catalog.fromModels models

def Tables.publishedCatalogModel (t : Tables) (slug : String) : Except String (Option Model) :=
  match t.models.rows.find? fun r => r.slug = slug ∧ r.published = 1 with
  | none => .ok none
  | some row =>
    match t.catalogModelFromRow text row with
    | none => .error "parsing catalog column"
    | some m => (Catalog.fromModels [m]).map fun _ => some m

end Write

end Catalogs
end OnshapeExport
