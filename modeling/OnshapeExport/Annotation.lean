import OnshapeExport.GeneratorValidation

/-!
# Annotation

The annotations of `onshape_annotation.rs`: how a description and a name are read, the authoring
document of a selection and the checks it passes, and the settings a generator is handed. What
`serde_json::to_vec` writes is known here by its length only.

* `normalizeAuthoringObject` — an object from the text of its carriers.
* `validateAuthoringDocument`, `validateAuthoringContext` — the checks of a document.
* `normalizeAuthoringObject_ok` — an object read from its carriers passes the check of an object.
-/

namespace OnshapeExport
namespace Annotation

open CacheKey Checks Json
open OnshapeApi (boundedVisibleAscii)
open Protocol (InputRole visible isControl isAsciiAlphanumeric)

def schemaVersion : Nat := 1
def maxDocumentBytes : Nat := 1048576
def maxObjects : Nat := 256
def maxDescriptionBytes : Nat := 65536
def maxDescriptionAnnotationBytes : Nat := 4096
def maxNameSuffixBytes : Nat := 192
def maxDisplayNameScalars : Nat := 256
def maxDescriptionTargets : Nat := 64
def maxNameTargets : Nat := 4
def maxOccurrencePathSegments : Nat := 64
def maxSourceValueBytes : Nat := 4096
def maxIdentityLength : Nat := 256

def descriptionMarkerPrefix : String := "onshape-export:"
def descriptionV1Prefix : String := "onshape-export:v1 "
def nameMarkerPrefix : String := " [onshape-export:"

/-- The message of a reader or a printer is not kept. -/
inductive AnnotationError where
  | documentTooLarge (document : String) (limit : Nat)
  | invalidJson (document : String)
  | invalid (message : String)
  | identity
deriving DecidableEq, Repr

abbrev Checked := Except AnnotationError Unit

def require (p : Prop) [Decidable p] (message : String) : Checked := ensure p (.invalid message)

@[simp] theorem require_ok {p : Prop} [Decidable p] {message : String} :
    require p message = .ok () ↔ p := ensure_ok

/-! ## Documents -/

inductive AuthoringSelector where
  | partStudioPart (documentId documentMicroversion elementId configurationIdentity : String)
      (partId : String)
  | assemblyOccurrence (documentId documentMicroversion elementId configurationIdentity : String)
      (occurrencePath : List String)
deriving DecidableEq, Repr

inductive SemanticRole where
  | printable | supportBlocker
deriving DecidableEq, Repr

def SemanticRole.transportRole : SemanticRole → InputRole
  | .printable => .rawGeometry
  | .supportBlocker => .auxiliaryGeometry

structure NormalizedAnnotation where
  role : SemanticRole
  key : Option String
  targets : List String
deriving DecidableEq, Repr

structure AuthoringObject where
  selector : AuthoringSelector
  displayName : String
  annotation : NormalizedAnnotation
deriving DecidableEq, Repr

def AuthoringObject.key (o : AuthoringObject) : Option String := o.annotation.key

def AuthoringObject.role (o : AuthoringObject) : SemanticRole := o.annotation.role

structure AuthoringDocument where
  schemaVersion : Nat
  objects : List AuthoringObject
deriving DecidableEq, Repr

structure AuthoringContextEntry where
  selector : AuthoringSelector
  planPosition : Nat
  configuredPartIdentity : String
deriving DecidableEq, Repr

/-- The matrix of an array of sixteen scalars. -/
abbrev PlacementMatrix := { m : List Scalar // m.length = 16 }

structure GeneratorSettingsBlocker where
  objectIdentity : String
  targets : List String
deriving DecidableEq, Repr

structure GeneratorSettings where
  schemaVersion : Nat
  blockers : List GeneratorSettingsBlocker
deriving DecidableEq, Repr

structure GeneratorSettingsPlacementV2 where
  objectIdentity : String
  matrix : List Scalar
deriving DecidableEq

structure GeneratorSettingsV2 where
  schemaVersion : Nat
  blockers : List GeneratorSettingsBlocker
  placements : List GeneratorSettingsPlacementV2
deriving DecidableEq

/-- The lengths of what `serde_json::to_vec` writes. -/
structure Sizes where
  authoringDocument : AuthoringDocument → Nat
  generatorSettings : GeneratorSettings → Nat
  generatorSettingsV2 : GeneratorSettingsV2 → Nat

open Fields in
def AuthoringSelector.codec : Codec AuthoringSelector :=
  .tagged "kind" true
    (((Variants.case "partStudioPart" ((required "documentId" .str).and <|
        (required "documentMicroversion" .str).and <| (required "elementId" .str).and <|
        (required "configurationIdentity" .str).and (required "partId" .str))).or
      (Variants.case "assemblyOccurrence" ((required "documentId" .str).and <|
        (required "documentMicroversion" .str).and <| (required "elementId" .str).and <|
        (required "configurationIdentity" .str).and
          (required "occurrencePath" (.list .str))))).iso
      (fun
        | .inl (d, m, e, c, p) => .partStudioPart d m e c p
        | .inr (d, m, e, c, p) => .assemblyOccurrence d m e c p)
      (fun
        | .partStudioPart d m e c p => .inl (d, m, e, c, p)
        | .assemblyOccurrence d m e c p => .inr (d, m, e, c, p))
      (by rintro (_ | _) <;> rfl))

def SemanticRole.codec : Codec SemanticRole :=
  .enum (fun | .printable => "printable" | .supportBlocker => "supportBlocker")
    [.printable, .supportBlocker] (by rintro (_ | _) <;> simp)
    (by rintro (_ | _) (_ | _) <;> simp)

open Fields in
/-- A key that is there is a string, never a null. -/
def NormalizedAnnotation.codec : Codec NormalizedAnnotation :=
  .record true (((required "role" SemanticRole.codec).and <| (optional "key" .str false).and
      (required "targets" (.list .str))).iso
    (fun (a, b, c) => ⟨a, b, c⟩) (fun x => (x.role, x.key, x.targets)) fun _ => rfl)

open Fields in
def AuthoringObject.codec : Codec AuthoringObject :=
  .record true (((required "selector" AuthoringSelector.codec).and <|
    (required "displayName" .str).and
      (required "annotation" NormalizedAnnotation.codec)).iso
    (fun (a, b, c) => ⟨a, b, c⟩) (fun x => (x.selector, x.displayName, x.annotation)) fun _ => rfl)

open Fields in
def AuthoringDocument.codec : Codec AuthoringDocument :=
  .record true (((required "schemaVersion" (.unsigned 32)).and
      (required "objects" (.list AuthoringObject.codec))).iso
    (fun (a, b) => ⟨a, b⟩) (fun x => (x.schemaVersion, x.objects)) fun _ => rfl)

open Fields in
def GeneratorSettingsBlocker.codec : Codec GeneratorSettingsBlocker :=
  .record true (((required "objectIdentity" .str).and (required "targets" (.list .str))).iso
    (fun (a, b) => ⟨a, b⟩) (fun x => (x.objectIdentity, x.targets)) fun _ => rfl)

open Fields in
def GeneratorSettingsPlacementV2.codec : Codec GeneratorSettingsPlacementV2 :=
  .record true (((required "objectIdentity" .str).and (required "matrix" (.list .scalar))).iso
    (fun (a, b) => ⟨a, b⟩) (fun x => (x.objectIdentity, x.matrix)) fun _ => rfl)

open Fields in
def GeneratorSettingsV2.codec : Codec GeneratorSettingsV2 :=
  .record true (((required "schemaVersion" (.unsigned 32)).and <|
    (required "blockers" (.list GeneratorSettingsBlocker.codec)).and
      (required "placements" (.list GeneratorSettingsPlacementV2.codec))).iso
    (fun (a, b, c) => ⟨a, b, c⟩) (fun x => (x.schemaVersion, x.blockers, x.placements))
    fun _ => rfl)

def PlacementMatrix.codec : Codec PlacementMatrix := (Codec.list .scalar).sub fun m => m.length = 16

@[simp] theorem fits_selector (s : AuthoringSelector) : AuthoringSelector.codec.Fits s := by
  cases s <;> simp [AuthoringSelector.codec, Variants.iso, Variants.or, Variants.case]

@[simp] theorem fits_role (r : SemanticRole) : SemanticRole.codec.Fits r := trivial

@[simp] theorem fits_annotation (a : NormalizedAnnotation) : NormalizedAnnotation.codec.Fits a := by
  simp [ NormalizedAnnotation.codec]

@[simp] theorem fits_authoringObject (o : AuthoringObject) : AuthoringObject.codec.Fits o := by
  simp [AuthoringObject.codec]

/-! ## Checks of values -/

def isKey (value : List Char) : Bool :=
  value.length ≤ 32 && value.head?.any isAsciiAlphanumeric &&
    value.all fun c => isAsciiAlphanumeric c || c ∈ ['.', '_', '-']

def validateKey (value field : String) : Checked :=
  require (isKey value.toList) (field ++ " must match [A-Za-z0-9][A-Za-z0-9._-]\x7b0,31\x7d")

@[simp] theorem validateKey_ok {value field : String} :
    validateKey value field = .ok () ↔ isKey value.toList = true := require_ok

def isDisplayName (value : String) : Bool :=
  value ≠ "" && value.toList.length ≤ maxDisplayNameScalars && value.toList.all (!isControl ·)

def validateDisplayName (value field : String) : Checked :=
  require (isDisplayName value) (field ++ " must contain 1 to " ++
    toString maxDisplayNameScalars ++ " Unicode scalar values and no Cc characters")

@[simp] theorem validateDisplayName_ok {value field : String} :
    validateDisplayName value field = .ok () ↔ isDisplayName value = true := require_ok

def validateSourceValue (value field : String) : Checked :=
  require (visible maxSourceValueBytes value) (field ++ " must contain 1 to " ++
    toString maxSourceValueBytes ++ " visible ASCII bytes")

def validateIdentity (value field : String) : Checked :=
  require (visible maxIdentityLength value) (field ++ " must contain 1 to " ++
    toString maxIdentityLength ++ " visible ASCII characters")

def validateRoot (field documentId microversion elementId configuration : String) : Checked := do
  validateSourceValue documentId (field ++ ".documentId")
  validateSourceValue microversion (field ++ ".documentMicroversion")
  validateSourceValue elementId (field ++ ".elementId")
  validateSourceValue configuration (field ++ ".configurationIdentity")

def validateSelector (selector : AuthoringSelector) (field : String) : Checked :=
  match selector with
  | .partStudioPart documentId microversion elementId configuration partId => do
    validateSourceValue partId (field ++ ".partId")
    validateRoot field documentId microversion elementId configuration
  | .assemblyOccurrence documentId microversion elementId configuration occurrencePath => do
    require (occurrencePath ≠ [] ∧ occurrencePath.length ≤ maxOccurrencePathSegments)
      (field ++ ".occurrencePath must contain 1 to " ++ toString maxOccurrencePathSegments ++
        " segments")
    each (fun i segment => validateSourceValue segment
      (field ++ ".occurrencePath[" ++ toString i ++ "]")) 0 occurrencePath
    validateRoot field documentId microversion elementId configuration

def validateAnnotation (a : NormalizedAnnotation) (targetLimit : Nat) (field : String) :
    Checked := do
  whenSome (fun key => validateKey key (field ++ ".key")) a.key
  require (a.targets.length ≤ targetLimit)
    (field ++ ".targets exceeds " ++ toString targetLimit ++ " entries")
  eachNew (fun i target => validateKey target (field ++ ".targets[" ++ toString i ++ "]")) id
    (fun _ target => .invalid (field ++ ".targets contains duplicate key " ++ target))
    (fun _ _ => .ok ()) 0 [] a.targets
  match a.role with
  | .printable => require (a.targets = []) (field ++ ": printable annotations cannot have targets")
  | .supportBlocker =>
    require (a.targets ≠ []) (field ++ ": supportBlocker annotations require a target")

/-- What is asked of an annotation, wherever it is read. -/
structure WellFormed (targetLimit : Nat) (a : NormalizedAnnotation) : Prop where
  key : ∀ key ∈ a.key, isKey key.toList = true
  length : a.targets.length ≤ targetLimit
  targets : ∀ target ∈ a.targets, isKey target.toList = true
  distinct : a.targets.Nodup
  relation : a.targets = [] ↔ a.role = .printable

theorem validateAnnotation_ok {a : NormalizedAnnotation} {targetLimit : Nat} {field : String} :
    validateAnnotation a targetLimit field = .ok () ↔ WellFormed targetLimit a := by
  have htargets : ∀ n, eachNew (fun i target => validateKey target
      (field ++ ".targets[" ++ toString i ++ "]")) id
      (fun _ target => .invalid (field ++ ".targets contains duplicate key " ++ target))
      (fun _ _ => .ok ()) n [] a.targets = .ok () ↔
      (∀ target ∈ a.targets, isKey target.toList = true) ∧ a.targets.Nodup := by
    intro n
    rw [eachNew_ok_mem (P := fun target => isKey target.toList = true), List.map_id]
    intro i target
    rw [validateKey_ok, and_iff_left rfl]
  obtain ⟨role, key, targets⟩ := a
  simp only [ validateAnnotation, seq_ok, whenSome_ok, require_ok, validateKey_ok, htargets]
  constructor
  · rintro ⟨hkey, hlength, ⟨hall, hdistinct⟩, hrole⟩
    refine ⟨hkey, hlength, hall, hdistinct, ?_⟩
    cases role with
    | printable => exact ⟨fun _ => rfl, fun _ => require_ok.mp hrole⟩
    | supportBlocker =>
      refine ⟨fun h => absurd h (require_ok.mp hrole), fun h => ?_⟩
      cases h
  · rintro ⟨hkey, hlength, hall, hdistinct, hrelation⟩
    refine ⟨hkey, hlength, ⟨hall, hdistinct⟩, ?_⟩
    cases role with
    | printable => exact require_ok.mpr (hrelation.mpr rfl)
    | supportBlocker =>
      refine require_ok.mpr fun h => ?_
      cases hrelation.mp h

def AuthoringObject.validate (o : AuthoringObject) (index : Nat) : Checked := do
  let field := "objects[" ++ toString index ++ "]"
  validateSelector o.selector (field ++ ".selector")
  validateDisplayName o.displayName (field ++ ".displayName")
  validateAnnotation o.annotation maxDescriptionTargets (field ++ ".annotation")

/-! ## Carriers -/

/-- What is left of a text after a prefix. -/
def stripPrefix (start : String) (text : List Char) : Option (List Char) :=
  if start.toList.isPrefixOf text then some (text.drop start.toList.length) else none

/-- The last place where a text has a pattern: what stands before, and the rest from there on. -/
def rfind (pattern : List Char) : List Char → Option (List Char × List Char)
  | [] => none
  | c :: cs =>
    match rfind pattern cs with
    | some (before, suffix) => some (c :: before, suffix)
    | none => if pattern.isPrefixOf (c :: cs) then some ([], c :: cs) else none

/-- `parse_typed_json`: a key that is there twice is refused. -/
def parseTypedJson {α : Type} (text : JsonText) (c : Codec α) (json document : String) :
    Except AnnotationError α :=
  match text.read json with
  | none => .error (.invalidJson document)
  | some v =>
    if v.distinct then
      match c.dec v with
      | some a => .ok a
      | none => .error (.invalidJson document)
    else .error (.invalidJson document)

def parseDescriptionAnnotation (text : JsonText) (description : String) :
    Except AnnotationError (Option NormalizedAnnotation) := do
  require (description.utf8ByteSize ≤ maxDescriptionBytes)
    ("Description exceeds " ++ toString maxDescriptionBytes ++ " UTF-8 bytes")
  let markerLines := (description.toList.splitOn '\n').filter
    fun line => descriptionMarkerPrefix.toList.isPrefixOf line
  match markerLines with
  | [] => return none
  | line :: others =>
    require (others = [])
      "Description must contain exactly one recognized annotation marker line"
    match stripPrefix descriptionV1Prefix line with
    | none => throw (.invalid "unsupported or incomplete Description marker")
    | some json =>
      require (json ≠ []) "Description annotation JSON is missing"
      require (json.head? = some '\x7b' ∧ json.getLast? = some '\x7d')
        ("Description annotation JSON object must begin immediately after the marker and " ++
          "extend through the line end")
      require ((String.ofList json).utf8ByteSize ≤ maxDescriptionAnnotationBytes)
        ("Description annotation exceeds " ++ toString maxDescriptionAnnotationBytes ++
          " UTF-8 bytes")
      let annotation ← parseTypedJson text NormalizedAnnotation.codec (String.ofList json)
        "Description annotation"
      validateAnnotation annotation maxDescriptionTargets "Description annotation"
      return some annotation

def parseRole (directive : List Char) : Except AnnotationError SemanticRole :=
  match stripPrefix "role=" directive with
  | some role =>
    if role = "printable".toList then .ok .printable
    else if role = "supportBlocker".toList then .ok .supportBlocker
    else .error (.invalid "invalid Name annotation role")
  | none => .error (.invalid "invalid Name annotation role")

def parseNameKey (directive : List Char) : Except AnnotationError String :=
  match stripPrefix "key=" directive with
  | none => .error (.invalid "invalid Name key directive")
  | some key => do
    validateKey (String.ofList key) "Name annotation key"
    return String.ofList key

def parseTargets (directive : List Char) : Except AnnotationError (List String) :=
  match stripPrefix "targets=" directive with
  | none => .error (.invalid "invalid Name targets directive")
  | some [] => .ok []
  | some targets => .ok ((targets.splitOn ',').map String.ofList)

/-- The directives between the brackets of a marker. -/
def parseDirectives (directives : List (List Char)) :
    Except AnnotationError NormalizedAnnotation := do
  require (directives.length = 3 ∨ directives.length = 4)
    "Name annotation has an invalid directive count"
  require (directives.head? = some "v1".toList) "unsupported Name annotation version"
  let role ← parseRole (directives.getD 1 [])
  if directives.length = 4 then
    let key ← parseNameKey (directives.getD 2 [])
    return ⟨role, some key, ← parseTargets (directives.getD 3 [])⟩
  else return ⟨role, none, ← parseTargets (directives.getD 2 [])⟩

/-- A condition on the characters of a text is decided over the text, not over all characters. -/
instance decidableChars (p : Char → Prop) [DecidablePred p] (cs : List Char) :
    Decidable (∀ c ∈ cs, p c) :=
  List.decidableBAll p cs

def parseNameAnnotation (name : String) :
    Except AnnotationError (String × Option NormalizedAnnotation) := do
  validateDisplayName name "API Part Name"
  match rfind nameMarkerPrefix.toList name.toList with
  | none => return (name, none)
  | some (before, suffix) =>
    if !(suffix.getLast? = some ']' || ']' ∉ suffix) then return (name, none)
    require (∀ c ∈ suffix, c.toNat < 128) "Name annotation suffix must be ASCII"
    require (suffix.length ≤ maxNameSuffixBytes)
      ("Name annotation suffix exceeds " ++ toString maxNameSuffixBytes ++ " ASCII bytes")
    require ('%' ∉ suffix) "Name annotation suffix forbids percent"
    require (suffix.getLast? = some ']') "incomplete Name annotation suffix"
    let body := (suffix.drop nameMarkerPrefix.toList.length).dropLast
    let annotation ← parseDirectives (body.splitOn ';')
    validateAnnotation annotation maxNameTargets "Name annotation"
    let displayName := String.ofList before
    validateDisplayName displayName "displayName after Name suffix removal"
    return (displayName, some annotation)

structure ParsedCarriers where
  displayName : String
  annotation : NormalizedAnnotation
deriving DecidableEq, Repr

def parseCarriers (text : JsonText) (description name : String) :
    Except AnnotationError ParsedCarriers := do
  let descriptionAnnotation ← parseDescriptionAnnotation text description
  let (displayName, nameAnnotation) ← parseNameAnnotation name
  match descriptionAnnotation, nameAnnotation with
  | some description, some name => do
    require (description = name) "Description and Name annotations disagree"
    return ⟨displayName, description⟩
  | some description, none => return ⟨displayName, description⟩
  | none, some name => return ⟨displayName, name⟩
  | none, none => return ⟨displayName, ⟨.printable, none, []⟩⟩

def normalizeAuthoringObject (text : JsonText) (selector : AuthoringSelector)
    (description name : String) : Except AnnotationError AuthoringObject := do
  let parsed ← parseCarriers text description name
  let object : AuthoringObject := ⟨selector, parsed.displayName, parsed.annotation⟩
  object.validate 0
  return object

theorem normalizeAuthoringObject_ok {text : JsonText} {selector : AuthoringSelector}
    {description name : String} {o : AuthoringObject}
    (h : normalizeAuthoringObject text selector description name = .ok o) :
    o.selector = selector ∧ o.validate 0 = .ok () := by
  obtain ⟨parsed, -, h⟩ := bind_ok.mp h
  obtain ⟨hv, h⟩ := seq_ok.mp h
  cases h
  exact ⟨rfl, hv⟩

/-! ## The authoring document -/

section Document

variable (digests : Digests) (sizes : Sizes)

def validateSerializedSize (size : Nat) (document : String) : Checked :=
  ensure (size ≤ maxDocumentBytes) (.documentTooLarge document maxDocumentBytes)

/-- The positions of the objects with a key. -/
def keyPositions (objects : List AuthoringObject) (key : String) : List Nat :=
  (objects.zipIdx.filter fun p => p.1.key = some key).map Prod.snd

/-- A target is the key of exactly one other object, a printable one. -/
def validateTarget (objects : List AuthoringObject) (index : Nat) (target : String) : Checked :=
  let field := "objects[" ++ toString index ++ "]"
  match keyPositions objects target with
  | [] => .error (.invalid (field ++ " target " ++ target ++ " does not resolve"))
  | [targetIndex] => do
    require (targetIndex ≠ index) (field ++ " cannot target itself")
    require (objects[targetIndex]?.map AuthoringObject.role = some .printable)
      (field ++ " target " ++ target ++ " is not printable")
  | _ => .error (.invalid (field ++ " target " ++ target ++ " is ambiguous"))

def validateAuthoringDocument (document : AuthoringDocument) : Checked := do
  validateSerializedSize (sizes.authoringDocument document) "authoring document"
  require (document.schemaVersion = schemaVersion)
    ("unsupported authoring schemaVersion: " ++ toString document.schemaVersion)
  require (document.objects.length ≤ maxObjects)
    ("authoring document exceeds " ++ toString maxObjects ++ " objects")
  eachNew (fun i (o : AuthoringObject) => o.validate i) AuthoringObject.selector
    (fun i _ => .invalid ("objects[" ++ toString i ++ "].selector duplicates another selector"))
    (fun _ _ => .ok ()) 0 [] document.objects
  each (fun i o => each (fun _ target => validateTarget document.objects i target) 0
    o.annotation.targets) 0 document.objects

def authoringDocumentIdentity (document : AuthoringDocument) :
    Except AnnotationError String := do
  validateAuthoringDocument sizes document
  return hashJson digests "onshape-export-authoring-document-v1"
    (AuthoringDocument.codec.enc document)

def canonicalAnnotation (a : NormalizedAnnotation) : String :=
  canonicalJson digests ( NormalizedAnnotation.codec.enc a)

/-- The loop over objects and entries, with the name and the annotation of each configured part
seen so far. -/
def validateContextEntries :
    Nat → List (String × String × String) → List (AuthoringObject × AuthoringContextEntry) →
      Checked
  | _, _, [] => .ok ()
  | index, seen, (object, entry) :: rest => do
    let field := "context[" ++ toString index ++ "]"
    require (entry.planPosition = index)
      (field ++ ".planPosition does not match document order")
    require (entry.selector = object.selector)
      (field ++ ".selector does not match the authoring object")
    require (entry.configuredPartIdentity ≠ "")
      (field ++ ".configuredPartIdentity must not be empty")
    let canonical := canonicalAnnotation digests object.annotation
    match get? seen entry.configuredPartIdentity with
    | some (displayName, annotation) => do
      require (displayName = object.displayName)
        ("configured part " ++ entry.configuredPartIdentity ++ " has conflicting display names")
      require (canonical = annotation)
        ("configured part " ++ entry.configuredPartIdentity ++ " has conflicting annotations")
      validateContextEntries (index + 1) seen rest
    | none =>
      validateContextEntries (index + 1)
        ((entry.configuredPartIdentity, object.displayName, canonical) :: seen) rest

/-- The configured part and the annotation of every object with a key. -/
def keyGroup (pairs : List (AuthoringObject × AuthoringContextEntry)) (key : String) :
    List (String × String) :=
  (pairs.filter fun p => p.1.key = some key).map fun (object, entry) =>
    (entry.configuredPartIdentity, canonicalAnnotation digests object.annotation)

def validateAuthoringContext (document : AuthoringDocument)
    (context : List AuthoringContextEntry) : Checked := do
  validateAuthoringDocument sizes document
  require (context.length = document.objects.length)
    "authoring context must contain exactly one entry per object"
  let pairs := document.objects.zip context
  validateContextEntries digests 0 [] pairs
  each (fun _ key => do
    let group := keyGroup digests pairs key
    require (∀ g ∈ group, some g = group.head?)
      ("duplicate key " ++ key ++ " does not represent identical configured-part fan-out")) 0
    (document.objects.filterMap AuthoringObject.key).dedup

/-! ### Accepted documents -/

theorem mem_keyPositions {objects : List AuthoringObject} {key : String} {i : Nat} :
    i ∈ keyPositions objects key ↔ ∃ o, objects[i]? = some o ∧ o.key = some key := by
  simp only [keyPositions, List.mem_map, List.mem_filter, decide_eq_true_eq, Prod.exists,
    List.mem_zipIdx_iff_getElem?, exists_eq_right]

/-- A target is the key of one object, another one and printable. -/
def Resolves (objects : List AuthoringObject) (index : Nat) (target : String) : Prop :=
  ∃ i o, keyPositions objects target = [i] ∧ i ≠ index ∧ objects[i]? = some o ∧ o.role = .printable

theorem validateTarget_ok {objects : List AuthoringObject} {index : Nat} {target : String} :
    validateTarget objects index target = .ok () ↔ Resolves objects index target := by
  unfold validateTarget Resolves
  split
  · rename_i hnone
    simp [hnone]
  · rename_i i hone
    simp only [seq_ok, require_ok, hone, List.cons.injEq, and_true, Option.map_eq_some_iff]
    constructor
    · rintro ⟨hne, o, ho, hr⟩
      exact ⟨i, o, rfl, hne, ho, hr⟩
    · rintro ⟨_, o, rfl, hne, ho, hr⟩
      exact ⟨hne, o, ho, hr⟩
  · rename_i hmany
    simp only [reduceCtorEq, false_iff, not_exists, not_and]
    intro i o hone
    exact absurd hone (hmany i)

theorem AuthoringObject.wellFormed {o : AuthoringObject} {i : Nat} (h : o.validate i = .ok ()) :
    WellFormed maxDescriptionTargets o.annotation := by
  obtain ⟨-, h⟩ := seq_ok.mp h
  obtain ⟨-, h⟩ := seq_ok.mp h
  exact validateAnnotation_ok.mp h

theorem validateAuthoringDocument_ok {document : AuthoringDocument} :
    validateAuthoringDocument sizes document = .ok () ↔
      sizes.authoringDocument document ≤ maxDocumentBytes ∧
      document.schemaVersion = schemaVersion ∧ document.objects.length ≤ maxObjects ∧
      (∀ i (o : AuthoringObject), document.objects[i]? = some o → o.validate i = .ok ()) ∧
      (document.objects.map AuthoringObject.selector).Nodup ∧
      ∀ i (o : AuthoringObject), document.objects[i]? = some o → ∀ target ∈ o.annotation.targets,
        Resolves document.objects i target := by
  have htargets : ∀ i (o : AuthoringObject), each
      (fun _ target => validateTarget document.objects i target) 0 o.annotation.targets = .ok () ↔
      ∀ target ∈ o.annotation.targets, Resolves document.objects i target :=
    fun i o => each_ok_mem fun _ _ => validateTarget_ok
  simp only [validateAuthoringDocument, validateSerializedSize, seq_ok, ensure_ok, require_ok,
    eachNew_ok, Nat.zero_add, and_true, and_assoc, each_ok, htargets]

/-- What an accepted document satisfies. -/
theorem authoringDocument_ok {document : AuthoringDocument}
    (h : validateAuthoringDocument sizes document = .ok ()) :
    document.schemaVersion = schemaVersion ∧ document.objects.length ≤ maxObjects ∧
      (∀ i (o : AuthoringObject), document.objects[i]? = some o → o.validate i = .ok ()) ∧
      (document.objects.map AuthoringObject.selector).Nodup := by
  simp only [validateAuthoringDocument, seq_ok, require_ok, eachNew_ok, Nat.zero_add,
    and_true] at h
  obtain ⟨-, hv, hlen, ⟨hobjects, hnodup⟩, -⟩ := h
  exact ⟨hv, hlen, hobjects, hnodup⟩

end Document

end Annotation
end OnshapeExport
