import OnshapeExport.Annotation

/-!
# GeneratorSettings

The settings a generator is handed with its objects, and their checks in `onshape_annotation.rs`:
on their own, and against the objects of a manifest and their placements.

* `normalizeGeneratorSettingsV2` — matrices without the signs of zeros.
* `normalize_of_settled`, `normalize_idem` — settings are normalized once.
* `settingsV2_ok` — what accepted settings satisfy.
-/

namespace OnshapeExport
namespace Annotation

open CacheKey Checks Json
open Protocol (InputRole)

def settingsV2SchemaVersion : Nat := 2
def maxSettingsEdges : Nat := 16384

structure ManifestObjectSummary where
  objectIdentity : String
  transportRole : InputRole
deriving DecidableEq, Repr

structure ExpectedPlacementSummaryV2 where
  objectIdentity : String
  transportRole : InputRole
  expectedNeutralPlacementMatrix : List Scalar
deriving DecidableEq

/-! ## Settings on their own -/

section Settings

variable (digests : Digests) (sizes : Sizes)

def validateBlockerTargets (index : Nat) (blocker : GeneratorSettingsBlocker) : Checked := do
  let field := "blockers[" ++ toString index ++ "]"
  require (blocker.targets ≠ [] ∧ blocker.targets.length ≤ maxDescriptionTargets)
    (field ++ ".targets must contain 1 to 64 identities")
  eachNew (fun i target => validateIdentity target (field ++ ".targets[" ++ toString i ++ "]")) id
    (fun _ target => .invalid (field ++ " contains duplicate target " ++ target))
    (fun _ _ => .ok ()) 0 [] blocker.targets

def validateGeneratorSettings (settings : GeneratorSettings) : Checked := do
  validateSerializedSize (sizes.generatorSettings settings) "generator settings"
  require (settings.schemaVersion = schemaVersion)
    ("unsupported generator settings schemaVersion: " ++ toString settings.schemaVersion)
  require (settings.blockers.length ≤ maxObjects)
    ("generator settings exceed " ++ toString maxObjects ++ " blockers")
  eachNew (fun i (b : GeneratorSettingsBlocker) =>
      validateIdentity b.objectIdentity ("blockers[" ++ toString i ++ "].objectIdentity"))
    GeneratorSettingsBlocker.objectIdentity
    (fun _ b => .invalid ("duplicate blocker identity: " ++ b.objectIdentity))
    validateBlockerTargets 0 [] settings.blockers
  require ((settings.blockers.map fun b => b.targets.length).sum ≤ maxSettingsEdges)
    ("generator settings exceed " ++ toString maxSettingsEdges ++ " target edges")

def lookupRole (manifest : List ManifestObjectSummary) (identity : String) : Option InputRole :=
  (manifest.find? fun o => o.objectIdentity = identity).map ManifestObjectSummary.transportRole

def validateSettingsContext (settings : GeneratorSettings)
    (manifest : List ManifestObjectSummary) : Checked := do
  validateGeneratorSettings sizes settings
  eachNew (fun i (o : ManifestObjectSummary) =>
      validateIdentity o.objectIdentity ("manifest[" ++ toString i ++ "].objectIdentity"))
    ManifestObjectSummary.objectIdentity
    (fun _ o => .invalid ("manifest contains duplicate identity " ++ o.objectIdentity))
    (fun _ _ => .ok ()) 0 [] manifest
  let auxiliary := (manifest.filter fun o => o.transportRole = .auxiliaryGeometry).map
    ManifestObjectSummary.objectIdentity
  let blockers := settings.blockers.map GeneratorSettingsBlocker.objectIdentity
  require ((∀ b ∈ blockers, b ∈ auxiliary) ∧ ∀ a ∈ auxiliary, a ∈ blockers)
    "settings blockers must equal the manifest auxiliaryGeometry identity set"
  each (fun _ (b : GeneratorSettingsBlocker) => do
    require (lookupRole manifest b.objectIdentity = some .auxiliaryGeometry)
      ("blocker " ++ b.objectIdentity ++ " is not auxiliaryGeometry")
    each (fun _ target => require (lookupRole manifest target = some .rawGeometry)
      ("target " ++ target ++ " is missing or is not rawGeometry")) 0 b.targets) 0
    settings.blockers

/-! ## Settings with placements -/

/-- A zero loses its sign. -/
def settleMatrix (matrix : List Scalar) : List Scalar :=
  matrix.map fun s => if s.value = 0 then .rat 0 else s

def normalizeGeneratorSettingsV2 (settings : GeneratorSettingsV2) : GeneratorSettingsV2 :=
  { settings with placements := settings.placements.map fun p =>
      { p with matrix := settleMatrix p.matrix } }

/-- Every scalar of the model is finite. -/
def validateMatrix (matrix : List Scalar) (field : String) : Checked := do
  require (matrix.length = 16) (field ++ " must contain exactly 16 scalars")
  require ((matrix.drop 12).map Scalar.value = [0, 0, 0, 1])
    (field ++ " final row must be [0,0,0,1] after signed-zero normalization")

def validateNormalizedGeneratorSettingsV2 (settings : GeneratorSettingsV2) : Checked := do
  validateSerializedSize (sizes.generatorSettingsV2 settings) "generator settings v2"
  require (settings.schemaVersion = settingsV2SchemaVersion)
    ("unsupported generator settings v2 schemaVersion: " ++ toString settings.schemaVersion)
  validateGeneratorSettings sizes ⟨schemaVersion, settings.blockers⟩
  require (settings.placements.length ≤ maxObjects)
    ("generator settings v2 exceed " ++ toString maxObjects ++ " placements")
  eachNew (fun i (p : GeneratorSettingsPlacementV2) =>
      validateIdentity p.objectIdentity ("placements[" ++ toString i ++ "].objectIdentity"))
    GeneratorSettingsPlacementV2.objectIdentity
    (fun _ p => .invalid ("duplicate placement identity: " ++ p.objectIdentity))
    (fun i p => validateMatrix p.matrix ("placements[" ++ toString i ++ "].matrix")) 0 []
    settings.placements

def validatePlacement (index : Nat)
    (p : GeneratorSettingsPlacementV2 × ExpectedPlacementSummaryV2) : Checked := do
  require (p.1.objectIdentity = p.2.objectIdentity)
    ("placements[" ++ toString index ++ "].objectIdentity does not match expected manifest order")
  let expectedMatrix := settleMatrix p.2.expectedNeutralPlacementMatrix
  validateMatrix expectedMatrix
    ("expected[" ++ toString index ++ "].expectedNeutralPlacementMatrix")
  require (p.1.matrix.map Scalar.value = expectedMatrix.map Scalar.value)
    ("placements[" ++ toString index ++ "].matrix does not match expected neutral placement")

def validateSettingsContextV2 (settings : GeneratorSettingsV2)
    (expected : List ExpectedPlacementSummaryV2) : Checked := do
  let normalized := normalizeGeneratorSettingsV2 settings
  validateNormalizedGeneratorSettingsV2 sizes normalized
  require (normalized.placements.length = expected.length)
    "settings placements must contain exactly one entry per expected manifest object"
  validateSettingsContext sizes ⟨schemaVersion, normalized.blockers⟩
    (expected.map fun e => ⟨e.objectIdentity, e.transportRole⟩)
  each validatePlacement 0 (normalized.placements.zip expected)

def generatorSettingsV2CanonicalJson (settings : GeneratorSettingsV2) :
    Except AnnotationError String := do
  let normalized := normalizeGeneratorSettingsV2 settings
  validateNormalizedGeneratorSettingsV2 sizes normalized
  return canonicalJson digests (GeneratorSettingsV2.codec.enc normalized)

def generatorSettingsV2Identity (settings : GeneratorSettingsV2) :
    Except AnnotationError String := do
  let normalized := normalizeGeneratorSettingsV2 settings
  validateNormalizedGeneratorSettingsV2 sizes normalized
  return hashJson digests "onshape-export-generator-settings-v2"
    (GeneratorSettingsV2.codec.enc normalized)

/-- The identity of the schema of these settings, a document of its own. -/
def generatorSettingsV2SchemaIdentity (schema : Value) : String :=
  hashJson digests "onshape-export-generator-settings-schema-v2" schema

end Settings

/-! ## Normalization -/

/-- Settings whose zeros have no sign. -/
def Settled (settings : GeneratorSettingsV2) : Prop :=
  ∀ p ∈ settings.placements, ∀ s ∈ p.matrix, s ≠ .negZero

theorem settle_scalar (s : Scalar) : (if s.value = 0 then Scalar.rat 0 else s) ≠ .negZero := by
  split
  · simp
  · rintro rfl
    rename_i h
    exact h rfl

theorem settle_scalar_eq {s : Scalar} (h : s ≠ .negZero) :
    (if s.value = 0 then Scalar.rat 0 else s) = s := by
  split
  · rename_i hv
    cases s with
    | rat q => exact congrArg Scalar.rat (Eq.symm hv)
    | negZero => exact absurd rfl h
  · rfl

theorem settleMatrix_eq {matrix : List Scalar} (h : ∀ s ∈ matrix, s ≠ .negZero) :
    settleMatrix matrix = matrix := by
  rw [settleMatrix]
  exact (List.map_congr_left fun s hs => settle_scalar_eq (h s hs)).trans (List.map_id _)

theorem settled_normalize (settings : GeneratorSettingsV2) :
    Settled (normalizeGeneratorSettingsV2 settings) := by
  intro p hp s hs
  obtain ⟨p', -, rfl⟩ := List.mem_map.mp hp
  obtain ⟨s', -, rfl⟩ := List.mem_map.mp hs
  exact settle_scalar s'

theorem normalize_of_settled {settings : GeneratorSettingsV2} (h : Settled settings) :
    normalizeGeneratorSettingsV2 settings = settings := by
  have hp : (settings.placements.map fun p => { p with matrix := settleMatrix p.matrix }) =
      settings.placements := by
    refine (List.map_congr_left fun p hp => ?_).trans (List.map_id _)
    simp only [settleMatrix_eq (h p hp), id_eq]
  rw [normalizeGeneratorSettingsV2, hp]

theorem normalize_idem (settings : GeneratorSettingsV2) :
    normalizeGeneratorSettingsV2 (normalizeGeneratorSettingsV2 settings) =
      normalizeGeneratorSettingsV2 settings :=
  normalize_of_settled (settled_normalize settings)

/-! ## Accepted settings -/

/-- A matrix of sixteen scalars with the last row of a placement. -/
def IsPlacement (matrix : List Scalar) : Prop :=
  matrix.length = 16 ∧ (matrix.drop 12).map Scalar.value = [0, 0, 0, 1]

theorem validateMatrix_ok {matrix : List Scalar} {field : String} :
    validateMatrix matrix field = .ok () ↔ IsPlacement matrix := by
  simp only [validateMatrix, seq_ok, require_ok, IsPlacement]

/-- A placement is the one that is expected. -/
def Expected (p : GeneratorSettingsPlacementV2 × ExpectedPlacementSummaryV2) : Prop :=
  p.1.objectIdentity = p.2.objectIdentity ∧
    IsPlacement (settleMatrix p.2.expectedNeutralPlacementMatrix) ∧
    p.1.matrix.map Scalar.value =
      (settleMatrix p.2.expectedNeutralPlacementMatrix).map Scalar.value

theorem validatePlacement_ok (index : Nat)
    (p : GeneratorSettingsPlacementV2 × ExpectedPlacementSummaryV2) :
    validatePlacement index p = .ok () ↔ Expected p := by
  simp only [validatePlacement, seq_ok, require_ok, validateMatrix_ok, Expected]

/-- What settings accepted on their own satisfy. -/
theorem settingsV2_ok {sizes : Sizes} {settings : GeneratorSettingsV2}
    (h : validateNormalizedGeneratorSettingsV2 sizes settings = .ok ()) :
    settings.schemaVersion = settingsV2SchemaVersion ∧
      ∀ p ∈ settings.placements, IsPlacement p.matrix := by
  simp only [validateNormalizedGeneratorSettingsV2, seq_ok, require_ok, eachNew_ok,
    validateMatrix_ok] at h
  obtain ⟨-, hv, -, -, hplacements, -⟩ := h
  refine ⟨hv, fun p hp => ?_⟩
  obtain ⟨i, hi⟩ := List.getElem?_of_mem hp
  exact (hplacements i p hi).2

/-- The check of settings against placements, condition by condition. -/
theorem settingsContextV2_ok {sizes : Sizes} {settings : GeneratorSettingsV2}
    (hs : Settled settings) {expected : List ExpectedPlacementSummaryV2} :
    validateSettingsContextV2 sizes settings expected = .ok () ↔
      validateNormalizedGeneratorSettingsV2 sizes settings = .ok () ∧
      settings.placements.length = expected.length ∧
      validateSettingsContext sizes ⟨schemaVersion, settings.blockers⟩
        (expected.map fun e => ⟨e.objectIdentity, e.transportRole⟩) = .ok () ∧
      ∀ p ∈ settings.placements.zip expected, Expected p := by
  simp only [validateSettingsContextV2, seq_ok, require_ok, normalize_of_settled hs,
    each_ok_mem validatePlacement_ok]

/-! ## Settings as documents -/

@[simp] theorem fits_blocker (b : GeneratorSettingsBlocker) :
    GeneratorSettingsBlocker.codec.Fits b := by
  simp [GeneratorSettingsBlocker.codec]

theorem fits_settingsV2 {settings : GeneratorSettingsV2} :
    GeneratorSettingsV2.codec.Fits settings ↔
      settings.schemaVersion < 2 ^ 32 ∧ Settled settings := by
  simp only [GeneratorSettingsV2.codec, GeneratorSettingsPlacementV2.codec, fits_record, fits_iso,
    fits_and, fits_required, fits_unsigned, fits_list, fits_blocker, fits_str, fits_scalar,
    implies_true, true_and, Settled]
  constructor
  · rintro ⟨⟨h1, -⟩, h2⟩
    exact ⟨h1, h2⟩
  · rintro ⟨h1, h2⟩
    exact ⟨⟨h1, by omega⟩, h2⟩

end Annotation
end OnshapeExport
