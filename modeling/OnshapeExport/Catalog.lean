import OnshapeExport.SelectionRequest
import Mathlib.Data.List.Nodup

/-!
# Catalog

The catalog of `catalog.rs` and the check every catalog passes before it is stored. The maps of
presets and overrides are lists of their entries.

* `Catalog.validate` — the check, with its error texts.
* `validate_ok` — what an accepted catalog satisfies: slugs are not empty and tell models apart,
  and so do the configured sources.
-/

namespace OnshapeExport
namespace Catalogs

open OnshapeApi Selection

def catalogSchemaVersion : Nat := 1

inductive ElementKind where
  | partStudio
  | assembly
deriving DecidableEq, Repr

def ElementKind.key : ElementKind → String
  | .partStudio => "part_studio"
  | .assembly => "assembly"

def ElementKind.selection : ElementKind → SelectionElementKind
  | .partStudio => .partStudio
  | .assembly => .assembly

structure OnshapeSource where
  documentId : String
  versionId : String
  elementId : String
  elementKind : ElementKind
  linkDocumentId : Option String
deriving DecidableEq, Repr

def OnshapeSource.identityKey (s : OnshapeSource) : String :=
  let key := s.elementKind.key ++ ":" ++ s.documentId ++ ":" ++ s.versionId ++ ":" ++ s.elementId
  match s.linkDocumentId with
  | some linkDocumentId => key ++ ":" ++ linkDocumentId
  | none => key

inductive PreviewResolution where
  | coarse | medium | fine
deriving DecidableEq, Repr

def PreviewResolution.asOnshapeStr : PreviewResolution → String
  | .coarse => "COARSE"
  | .medium => "MEDIUM"
  | .fine => "FINE"

inductive MeshResolution where
  | coarse | medium | fine
deriving DecidableEq, Repr

def MeshResolution.asOnshapeStr : MeshResolution → String
  | .coarse => "coarse"
  | .medium => "medium"
  | .fine => "fine"

inductive StlMode where
  | binary | text
deriving DecidableEq, Repr

def StlMode.asOnshapeStr : StlMode → String
  | .binary => "BINARY"
  | .text => "TEXT"

inductive StepVersionString where
  | ap242
deriving DecidableEq, Repr

def StepVersionString.asOnshapeStr : StepVersionString → String
  | .ap242 => "AP242"

inductive DownloadFormat where
  | step | stl | threeMf
deriving DecidableEq, Repr

def DownloadFormat.slug : DownloadFormat → String
  | .step => "step"
  | .stl => "stl"
  | .threeMf => "3mf"

def DownloadFormat.label : DownloadFormat → String
  | .step => "STEP"
  | .stl => "STL"
  | .threeMf => "3MF"

structure DownloadOptions where
  stepVersionString : StepVersionString
  stlResolution : MeshResolution
  stlMode : StlMode
  threeMfResolution : MeshResolution
deriving DecidableEq, Repr

structure BambuProjectConfig where
  selectors : List SelectionSelector
deriving DecidableEq, Repr

structure ExportConfig where
  downloads : List DownloadFormat
  previewResolution : PreviewResolution
  downloadOptions : DownloadOptions
  bambuProject : Option BambuProjectConfig
deriving DecidableEq, Repr

structure ParameterPolicy where
  allowUnknown : Bool
  autoRefresh : Bool
deriving DecidableEq, Repr

structure ParameterPreset where
  slug : String
  name : String
  values : List (String × String)
deriving DecidableEq, Repr

structure ParameterOverride where
  label : Option String
  description : Option String
  hidden : Bool
  precision : Option Nat
  widget : Option String
deriving DecidableEq, Repr

structure Model where
  catalogSchemaVersion : Nat
  entryVersion : Nat
  slug : String
  name : String
  description : String
  published : Bool
  tags : List String
  thumbnail : Option String
  onshape : OnshapeSource
  exports : ExportConfig
  parameterPolicy : ParameterPolicy
  parameterPresets : List ParameterPreset
  parameterOverrides : List (String × ParameterOverride)
deriving DecidableEq, Repr

structure Catalog where
  catalogSchemaVersion : Nat
  models : List Model
deriving DecidableEq, Repr

/-! ## The check -/

def isSlugChar (c : Char) : Bool := ('a' ≤ c && c ≤ 'z') || ('0' ≤ c && c ≤ '9') || c = '-'

/-- Two hyphens in a row. -/
def hasDoubleHyphen : List Char → Bool
  | a :: b :: cs => a = '-' && b = '-' || hasDoubleHyphen (b :: cs)
  | _ => false

def isPathSlug (value : String) : Bool :=
  value ≠ "" && value.toList.all isSlugChar && value.toList.head? ≠ some '-' &&
    value.toList.getLast? ≠ some '-' && !hasDoubleHyphen value.toList

/-- The Unicode white space that `trim` takes off. -/
def isWhiteSpace (c : Char) : Bool :=
  let n := c.toNat
  (9 ≤ n && n ≤ 13) || n = 32 || n = 0x85 || n = 0xA0 || n = 0x1680 ||
    (0x2000 ≤ n && n ≤ 0x200A) || n = 0x2028 || n = 0x2029 || n = 0x202F || n = 0x205F ||
    n = 0x3000

def ensure (ok : Bool) (message : String) : Except String Unit :=
  if ok then .ok () else .error message

def ensureUnique (message : String) :
    List DownloadFormat → List DownloadFormat → Except String Unit
  | _, [] => .ok ()
  | seen, v :: values => do
    ensure (v ∉ seen) message
    ensureUnique message (v :: seen) values

def validateTags (slug : String) : List String → Except String Unit
  | [] => .ok ()
  | tag :: tags => do
    ensure (isPathSlug tag)
      ("catalog model tags must use lowercase letters, numbers, and hyphens for " ++ slug ++ ": " ++
        tag)
    validateTags slug tags

/-- The selection a project is made of, checked with stand-in configuration hashes. -/
def Model.selectionRequest (m : Model) (encodedId : String) (selectors : List SelectionSelector) :
    SelectionRequest where
  documentId := m.onshape.documentId
  versionId := m.onshape.versionId
  elementId := m.onshape.elementId
  elementKind := m.onshape.elementKind.selection
  configurationEncoding :=
    let zeros := String.ofList (List.replicate 64 '0')
    ⟨zeros, zeros, zeros, encodedId⟩
  selectors := selectors

def validateProject (m : Model) : Except String Unit :=
  match m.exports.bambuProject with
  | none => .ok ()
  | some project =>
    match (m.selectionRequest "catalog_preflight" project.selectors).preflight with
    | .error _ => .error ("invalid Bambu project selection for " ++ m.slug)
    | .ok () => .ok ()

def validatePresets (slug : String) : List String → List ParameterPreset → Except String Unit
  | _, [] => .ok ()
  | seen, preset :: presets => do
    ensure (preset.slug ≠ "") ("parameter preset slug cannot be empty for " ++ slug)
    ensure (isPathSlug preset.slug)
      ("parameter preset slug must use lowercase letters, numbers, and hyphens for " ++ slug ++
        ": " ++ preset.slug)
    ensure (preset.slug ≠ "default") ("parameter preset slug cannot be 'default' for " ++ slug)
    ensure (!("--".toList.isPrefixOf preset.slug.toList))
      ("parameter preset slug cannot start with '--' for " ++ slug)
    ensure (preset.slug ∉ seen)
      ("duplicate parameter preset slug for " ++ slug ++ ": " ++ preset.slug)
    ensure (preset.name ≠ "")
      ("parameter preset name cannot be empty for " ++ slug ++ ":" ++ preset.slug)
    validatePresets slug (preset.slug :: seen) presets

def validateOverrides (slug : String) : List (String × ParameterOverride) → Except String Unit
  | [] => .ok ()
  | (id, o) :: overrides => do
    ensure (id ≠ "") ("parameter override id cannot be empty for " ++ slug)
    ensure (o.label ≠ some "")
      ("parameter override label cannot be empty for " ++ slug ++ ":" ++ id)
    ensure (o.precision.all (· ≤ 12))
      ("parameter override precision cannot exceed 12 for " ++ slug ++ ":" ++ id)
    ensure (o.widget.all (· ∈ ["number", "range", "text", "textarea"]))
      ("unsupported parameter override widget for " ++ slug ++ ":" ++ id ++ ": " ++
        o.widget.getD "")
    validateOverrides slug overrides

def validateSource (m : Model) (sources : List (String × String)) : Except String Unit := do
  ensure (m.onshape.documentId ≠ "") ("document id cannot be empty for " ++ m.slug)
  ensure (m.onshape.versionId ≠ "") ("version id cannot be empty for " ++ m.slug)
  ensure (m.onshape.elementId ≠ "") ("element id cannot be empty for " ++ m.slug)
  ensure (m.onshape.linkDocumentId ≠ some "") ("link document id cannot be empty for " ++ m.slug)
  match sources.lookup m.onshape.identityKey with
  | some existing =>
    .error ("duplicate catalog source identity for " ++ existing ++ " and " ++ m.slug ++ ": " ++
      m.onshape.identityKey)
  | none => .ok ()

/-- The checks of one model, given the slugs and the sources seen so far. -/
def validateModel (slugs : List String) (sources : List (String × String)) (m : Model) :
    Except String Unit := do
  ensure (m.catalogSchemaVersion = Catalogs.catalogSchemaVersion)
    ("unsupported catalog model schema version for " ++ m.slug ++ ": " ++
      toString m.catalogSchemaVersion)
  ensure (0 < m.entryVersion)
    ("catalog model entry version must be greater than zero for " ++ m.slug)
  ensure (m.slug ≠ "") "catalog model slug cannot be empty"
  ensure (isPathSlug m.slug)
    ("catalog model slug must use lowercase letters, numbers, and hyphens: " ++ m.slug)
  ensure (m.slug ∉ slugs) ("duplicate catalog model slug: " ++ m.slug)
  ensure (m.name ≠ "") ("catalog model name cannot be empty for " ++ m.slug)
  ensure (m.description ≠ "") ("catalog model description cannot be empty for " ++ m.slug)
  validateTags m.slug m.tags
  ensure (m.thumbnail.all fun t => !t.toList.all isWhiteSpace)
    ("catalog model thumbnail cannot be empty for " ++ m.slug)
  validateSource m sources
  ensure (m.exports.downloads ≠ []) ("at least one download format is required for " ++ m.slug)
  ensureUnique ("duplicate download format for " ++ m.slug) [] m.exports.downloads
  validateProject m
  validatePresets m.slug [] m.parameterPresets
  validateOverrides m.slug m.parameterOverrides

def validateModels : List String → List (String × String) → List Model → Except String Unit
  | _, _, [] => .ok ()
  | slugs, sources, m :: models => do
    validateModel slugs sources m
    validateModels (m.slug :: slugs) ((m.onshape.identityKey, m.slug) :: sources) models

def Catalog.validate (c : Catalog) : Except String Unit := do
  ensure (c.catalogSchemaVersion = Catalogs.catalogSchemaVersion)
    ("unsupported catalog schema version: " ++ toString c.catalogSchemaVersion)
  validateModels [] [] c.models

/-! ## What the check guarantees -/

theorem bind_ok {α β : Type} {x : Except String α} {f : α → Except String β} {b : β}
    (h : (x >>= f) = .ok b) : ∃ a, x = .ok a ∧ f a = .ok b := by
  cases x with
  | error e => cases h
  | ok a => exact ⟨a, rfl, h⟩

theorem ensure_ok {ok : Bool} {message : String} (h : ensure ok message = .ok ()) : ok = true := by
  unfold ensure at h
  split at h
  · assumption
  · cases h

theorem validateModel_ok {slugs : List String} {sources : List (String × String)} {m : Model}
    (h : validateModel slugs sources m = .ok ()) :
    m.slug ≠ "" ∧ m.slug ∉ slugs ∧ validateSource m sources = .ok () ∧
      validateProject m = .ok () := by
  unfold validateModel at h
  obtain ⟨_, -, h⟩ := bind_ok h
  obtain ⟨_, -, h⟩ := bind_ok h
  obtain ⟨_, hempty, h⟩ := bind_ok h
  obtain ⟨_, -, h⟩ := bind_ok h
  obtain ⟨_, hfresh, h⟩ := bind_ok h
  obtain ⟨_, -, h⟩ := bind_ok h
  obtain ⟨_, -, h⟩ := bind_ok h
  obtain ⟨_, -, h⟩ := bind_ok h
  obtain ⟨_, -, h⟩ := bind_ok h
  obtain ⟨_, hsource, h⟩ := bind_ok h
  obtain ⟨_, -, h⟩ := bind_ok h
  obtain ⟨_, -, h⟩ := bind_ok h
  obtain ⟨_, hproject, -⟩ := bind_ok h
  exact ⟨by simpa using ensure_ok hempty, by simpa using ensure_ok hfresh, hsource, hproject⟩

theorem validateSource_ok {m : Model} {sources : List (String × String)}
    (h : validateSource m sources = .ok ()) :
    sources.lookup m.onshape.identityKey = none := by
  unfold validateSource at h
  obtain ⟨_, -, h⟩ := bind_ok h
  obtain ⟨_, -, h⟩ := bind_ok h
  obtain ⟨_, -, h⟩ := bind_ok h
  obtain ⟨_, -, h⟩ := bind_ok h
  split at h
  · cases h
  · assumption

theorem lookup_eq_none {k : String} {l : List (String × String)} (h : l.lookup k = none) :
    k ∉ l.map Prod.fst := by
  induction l with
  | nil => simp
  | cons p l ih =>
    rw [List.lookup_cons] at h
    split at h
    · cases h
    · rename_i hne
      simp only [List.map_cons, List.mem_cons, not_or]
      exact ⟨by simpa using hne, ih h⟩

theorem validateModels_ok {models : List Model} :
    ∀ {slugs : List String} {sources : List (String × String)},
      validateModels slugs sources models = .ok () →
        (∀ m ∈ models, m.slug ∉ slugs ∧ m.onshape.identityKey ∉ sources.map Prod.fst ∧
          m.slug ≠ "" ∧ validateProject m = .ok ()) ∧
        (models.map Model.slug).Nodup ∧
        (models.map fun m => m.onshape.identityKey).Nodup := by
  induction models with
  | nil => simp
  | cons m models ih =>
    intro slugs sources h
    simp only [validateModels] at h
    obtain ⟨_, hm, h⟩ := bind_ok h
    obtain ⟨hempty, hfresh, hsource, hproject⟩ := validateModel_ok hm
    have hkey := lookup_eq_none (validateSource_ok hsource)
    obtain ⟨hall, hslugs, hkeys⟩ := ih h
    refine ⟨?_, List.nodup_cons.mpr ⟨?_, hslugs⟩, List.nodup_cons.mpr ⟨?_, hkeys⟩⟩
    · intro x hx
      rcases List.mem_cons.mp hx with rfl | hx
      · exact ⟨hfresh, hkey, hempty, hproject⟩
      · obtain ⟨hs, hk, hrest⟩ := hall x hx
        exact ⟨fun hm => hs (List.mem_cons_of_mem _ hm),
          fun hm => hk (List.mem_cons_of_mem _ hm), hrest⟩
    · intro hm
      obtain ⟨x, hx, he⟩ := List.mem_map.mp hm
      exact (hall x hx).1 (he ▸ List.mem_cons_self)
    · intro hm
      obtain ⟨x, hx, he⟩ := List.mem_map.mp hm
      exact (hall x hx).2.1 (by rw [he]; exact List.mem_cons_self)

/-- What an accepted catalog satisfies. -/
theorem validate_ok {c : Catalog} (h : c.validate = .ok ()) :
    (c.models.map Model.slug).Nodup ∧ (c.models.map fun m => m.onshape.identityKey).Nodup ∧
      ∀ m ∈ c.models, m.slug ≠ "" ∧ validateProject m = .ok () := by
  unfold Catalog.validate at h
  obtain ⟨_, -, h⟩ := bind_ok h
  obtain ⟨hall, hslugs, hkeys⟩ := validateModels_ok h
  exact ⟨hslugs, hkeys, fun m hm => (hall m hm).2.2⟩

/-- A slug names one model of an accepted catalog. -/
theorem eq_of_slug_eq {c : Catalog} (h : c.validate = .ok ()) {m m' : Model} (hm : m ∈ c.models)
    (hm' : m' ∈ c.models) (hs : m.slug = m'.slug) : m = m' :=
  List.inj_on_of_nodup_map (validate_ok h).1 hm hm' hs

end Catalogs
end OnshapeExport
