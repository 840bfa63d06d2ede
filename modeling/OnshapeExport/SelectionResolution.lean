import OnshapeExport.Lib.FirstSeen
import OnshapeExport.SelectionPlan

/-!
# SelectionResolution

How `onshape_selection.rs` turns the responses of Onshape into the candidates of a plan, and the
candidates into the plan. A map from keys to rows is the list of its entries.

* `resolvePartStudio`, `resolveAssembly`, `resolveCarrier` — the candidates of a selection.
* `constructPlan` — the plan of a root and its candidates.
-/

namespace OnshapeExport
namespace Selection

open Annotation CacheKey Checks Json OnshapeApi
open FirstSeen (noteFirst)

def maxRelationIds : Nat := 16384

/-- The members of an object. -/
abbrev Members := List (String × Value)

structure Candidate where
  leaf : ConfiguredLeaf
  selector : AuthoringSelector
  matrix : PlacementMatrix
  name : String
  description : String
deriving DecidableEq

/-! ## Failures -/

def malformed : ApiFailure := .new .operationalApiContractFailure "malformed_source_projection"

def unavailable (position : Nat) : ApiFailure :=
  (ApiFailure.new .unavailableSourceState "unavailable_source_state").position position

def annotationFailure (error : AnnotationError) (position : Option Nat) : ApiFailure :=
  let kind := if error = .identity then .operationalApiContractFailure else .unavailableSourceState
  let failure := (ApiFailure.new kind "authoring_validation_failed").operation
    "authoringValidation"
  position.elim failure failure.position

/-- A target that is not the key of one other printable object. -/
def targetFails (objects : List AuthoringObject) (p : Nat) (target : String) : Bool :=
  match keyPositions objects target with
  | [position] => position = p || (objects[position]?).any fun other => other.role ≠ .printable
  | _ => true

/-- The first object with a target that does not resolve. -/
def documentFailurePosition (document : AuthoringDocument) : Option Nat :=
  document.objects.zipIdx.findSome? fun (o, p) =>
    if o.annotation.targets.any (targetFails document.objects p) then some p else none

/-- The maps of the loop of `context_failure_position`, and the lowest position so far. -/
structure ContextScan where
  firstByLeaf : List (ConfiguredLeaf × Nat)
  firstByKey : List (String × Nat)
  lowest : Option Nat

/-- What is compared of two objects of one leaf. -/
def leafContent : AuthoringObject × Candidate → String × NormalizedAnnotation
  | (o, _) => (o.displayName, o.annotation)

/-- What is compared of two objects of one key. -/
def keyContent : AuthoringObject × Candidate → ConfiguredLeaf × NormalizedAnnotation
  | (o, c) => (c.leaf, o.annotation)

def scanEntry (entries : List (AuthoringObject × Candidate)) (s : ContextScan)
    (e : (AuthoringObject × Candidate) × Nat) : ContextScan :=
  let byLeaf := noteFirst entries (fun a => some a.2.leaf) leafContent s.firstByLeaf s.lowest e.2 e.1
  let byKey := noteFirst entries (fun a => a.1.key) keyContent s.firstByKey byLeaf.2 e.2 e.1
  ⟨byLeaf.1, byKey.1, byKey.2⟩

/-- The lowest first position of a leaf or a key whose objects should agree and do not. -/
def contextFailurePosition (document : AuthoringDocument) (candidates : List Candidate) :
    Option Nat :=
  let entries := document.objects.zip candidates
  (entries.zipIdx.foldl (scanEntry entries) ⟨[], [], none⟩).lowest

/-! ## Projections of a response -/

def object : Value → Except ApiFailure Members
  | .object members => .ok members
  | _ => .error malformed

def items : Value → Except ApiFailure (List Value)
  | .array values => .ok values
  | _ => .error malformed

def text : Value → Except ApiFailure String
  | .string s => .ok s
  | _ => .error malformed

def member (obj : Members) (key : String) : Except ApiFailure Value :=
  match get? obj key with
  | some v => .ok v
  | none => .error malformed

def array (obj : Members) (key : String) : Except ApiFailure (List Value) :=
  member obj key >>= items

def string (obj : Members) (key : String) : Except ApiFailure String :=
  member obj key >>= text

def bounded (s : String) : Except ApiFailure Unit := ensure (boundedVisibleAscii s = true) malformed

def sourceString (obj : Members) (key : String) : Except ApiFailure String := do
  let value ← string obj key
  bounded value
  return value

def boolean (obj : Members) (key : String) : Except ApiFailure Bool := do
  match ← member obj key with
  | .bool b => return b
  | _ => throw malformed

/-- An error without a position gets one. -/
def positioned {α : Type} (position : Nat) (x : Except ApiFailure α) : Except ApiFailure α :=
  x.mapError (·.position position)

/-- The rows of a response by key; no key is there twice. -/
def indexRows {κ : Type} [DecidableEq κ] (key : Members → Except ApiFailure κ) :
    List (κ × Members) → List Value → Except ApiFailure (List (κ × Members))
  | index, [] => .ok index
  | index, row :: rows => do
    let obj ← object row
    let k ← key obj
    ensure (k ∉ index.map Prod.fst) malformed
    indexRows key (index ++ [(k, obj)]) rows

def lookupRow {κ : Type} [DecidableEq κ] (index : List (κ × Members)) (k : κ) : Option Members :=
  (index.find? fun entry => entry.1 = k).map Prod.snd

/-- The first position where a condition fails is reported as unavailable. -/
def gate (states : List Bool) : Except ApiFailure Unit :=
  match states.findIdx? (· = false) with
  | some p => .error (unavailable p)
  | none => .ok ()

def solidState (obj : Members) : Except ApiFailure Bool := do
  let body ← sourceString obj "bodyType"
  let flattened ← boolean obj "isFlattenedBody"
  let mesh ← boolean obj "isMesh"
  let state ← string obj "meshState"
  ensure (state ∈ ["NO_MESH", "MIXED", "ALL_MESH", "UNKNOWN"]) malformed
  let hidden ← boolean obj "isHidden"
  return body = "solid" && !flattened && !mesh && state = "NO_MESH" && !hidden

def root (request : SelectionRequest) (mid configuration : String) : SelectionRoot where
  documentId := request.documentId
  versionId := request.versionId
  documentMicroversion := mid
  elementId := request.elementId
  elementKind := request.elementKind
  configurationIdentity := configuration

/-! ## Part studios -/

def resolvePartStudio (request : SelectionRequest) (mid : String) (response : Value) :
    Except ApiFailure (SelectionRoot × List Candidate) := do
  let rows ← items response
  let index ← indexRows (fun obj => sourceString obj "partId") [] rows
  let selected ← traverse (fun position selector =>
    match selector with
    | .part partId =>
      match lookupRow index partId with
      | some obj => .ok obj
      | none => .error (unavailable position)
    | .occurrence _ => .error invalid) 0 request.selectors
  let identities ← traverse (fun position obj => do
    let e ← positioned position (sourceString obj "elementId")
    let m ← positioned position (sourceString obj "microversionId")
    let c ← positioned position (sourceString obj "configurationId")
    ensure (e = request.elementId ∧ m = mid) (malformed.position position)
    return c) 0 selected
  ensure (∀ c ∈ identities, c = identities.headD "") malformed
  let states ← traverse (fun position obj => positioned position (solidState obj)) 0 selected
  gate states
  let candidates ← traverse (fun position (obj, configuration) => do
    let name ← positioned position (string obj "name")
    let description ← positioned position (string obj "description")
    let partId ← sourceString obj "partId"
    let configured : ConfiguredLeaf :=
      ⟨request.documentId, mid, request.elementId, configuration, partId⟩
    return { selector := partSelector configured, leaf := configured,
             matrix := identityPlacement, name := name, description := description }) 0
    (selected.zip identities)
  return (root request mid (identities.headD ""), candidates)

/-! ## Assemblies -/

structure CarrierKey where
  documentId : String
  microversion : String
  elementId : String
  configuration : String
deriving DecidableEq, Repr

structure CarrierGroup where
  key : CarrierKey
  positions : List Nat
deriving DecidableEq, Repr

structure AssemblyResolution where
  root : SelectionRoot
  candidates : List Candidate
  carriers : List CarrierGroup
deriving DecidableEq

def boundedText (v : Value) : Except ApiFailure String := do
  let s ← text v
  bounded s
  return s

def occurrencePath (obj : Members) : Except ApiFailure (List String) := do
  let values ← array obj "path"
  ensure (1 ≤ values.length ∧ values.length ≤ 64) malformed
  traverse (fun _ v => boundedText v) 0 values

/-- The identifiers of a relation, each of them once. -/
def distinctTexts (values : List Value) : Except ApiFailure (List String) := do
  let ids ← traverse (fun _ v => text v) 0 values
  ensure ids.Nodup malformed
  return ids

def parametricIds (relation : Value) : Except ApiFailure (String × List String) := do
  let relation ← object relation
  let id ← sourceString relation "id"
  let children ← array relation "children"
  let children ← traverse (fun _ child => do
    let child ← object child
    let ids ← array child "instanceIds"
    let ids ← traverse (fun _ v => text v) 0 ids
    let seed ← if (get? child "seedOccurrence").isSome then
        (sourceString child "seedOccurrence").map fun s => [s]
      else .ok []
    return (ids, seed)) 0 children
  ensure (children.flatMap Prod.fst).Nodup malformed
  return (id, id :: children.flatMap fun c => c.1 ++ c.2)

def patternIds (relation : Value) : Except ApiFailure (String × List String) := do
  let relation ← object relation
  let id ← sourceString relation "id"
  let seeds ← member relation "seedToPatternInstances"
  let seeds ← object seeds
  let generated ← traverse (fun _ (entry : String × Value) => do
    let values ← items entry.2
    let ids ← traverse (fun _ v => text v) 0 values
    return (entry.1, ids)) 0 seeds
  ensure (generated.flatMap Prod.snd).Nodup malformed
  return (id, generated.flatMap fun g => g.1 :: g.2)

/-- The instances that take part in a pattern. Every failure is the same, so it does not matter
which check comes first. -/
def relationIds (assembly : Members) : Except ApiFailure (List String) := do
  let parametric ← array assembly "parametricInstances"
  let parametric ← traverse (fun _ v => parametricIds v) 0 parametric
  ensure (parametric.map Prod.fst).Nodup malformed
  let patterns ← array assembly "patterns"
  let patterns ← traverse (fun _ v => patternIds v) 0 patterns
  ensure (patterns.map Prod.fst).Nodup malformed
  let ids := parametric.flatMap Prod.snd ++ patterns.flatMap Prod.snd
  ensure (∀ id ∈ ids, boundedVisibleAscii id = true) malformed
  ensure (ids.length ≤ maxRelationIds) malformed
  return ids

def projectedLeaf (obj : Members) : Except ApiFailure ConfiguredLeaf := do
  let documentId ← sourceString obj "documentId"
  let microversion ← sourceString obj "documentMicroversion"
  let elementId ← sourceString obj "elementId"
  let configuration ← sourceString obj "fullConfiguration"
  let partId ← sourceString obj "partId"
  return ⟨documentId, microversion, elementId, configuration, partId⟩

def scalarOf : Value → Except ApiFailure Scalar
  | .number n => .ok n.scalar
  | _ => .error malformed

def projectTransform (obj : Members) : Except ApiFailure PlacementMatrix := do
  let values ← array obj "transform"
  let matrix ← traverse (fun _ v => scalarOf v) 0 values
  if h : matrix.length = 16 then return ⟨matrix, h⟩ else throw malformed

def selectedPath : SelectionSelector → Except ApiFailure (List String)
  | .occurrence path => .ok path
  | .part _ => .error invalid

def deletedStatus (position : Nat) (obj : Members) : Except ApiFailure Bool :=
  match get? obj "status" with
  | none => .ok false
  | some (.string "DeletedElement") => .ok true
  | some _ => .error (malformed.position position)

def typeIsPart (position : Nat) (obj : Members) : Except ApiFailure Bool := do
  let t ← positioned position (string obj "type")
  ensure (t ∈ ["Part", "Assembly", "Feature", "Unknown"]) (malformed.position position)
  return t = "Part"

def bodyIsSolid (position : Nat) (obj : Members) : Except ApiFailure Bool := do
  let body ← positioned position (string obj "bodyType")
  ensure (body ∈ ["solid", "sheet", "composite"]) (malformed.position position)
  return body = "solid"

def carrierKey (leaf : ConfiguredLeaf) : CarrierKey :=
  ⟨leaf.documentId, leaf.documentMicroversion, leaf.elementId, leaf.configurationIdentity⟩

/-- The position of a leaf joins the group of its carrier, a new one if there is none. -/
def joinCarrier : List CarrierGroup → Nat → CarrierKey → List CarrierGroup
  | [], position, key => [⟨key, [position]⟩]
  | g :: groups, position, key =>
    if g.key = key then { g with positions := g.positions ++ [position] } :: groups
    else g :: joinCarrier groups position key

def carrierGroups (leaves : List ConfiguredLeaf) : List CarrierGroup :=
  leaves.zipIdx.foldl (fun groups (leaf, position) =>
    joinCarrier groups position (carrierKey leaf)) []

/-- The instances and the occurrences of an assembly, joined by the selectors. -/
def joinSelected (request : SelectionRequest) (instances : List (String × Members))
    (occurrences : List (List String × Members)) :
    Except ApiFailure (List (Members × Members)) := do
  let selected ← traverse (fun position selector => do
    let path ← selectedPath selector
    match lookupRow instances (path.headD ""), lookupRow occurrences path with
    | some i, some o => return some (i, o)
    | none, none => return none
    | _, _ => throw (malformed.position position)) 0 request.selectors
  gate (selected.map Option.isSome)
  return selected.reduceOption

/-- The leaves and the matrices of the selected instances: every gate projects all of them before
it classifies one. -/
def projectSelected (d m : String) (selected : List (Members × Members)) :
    Except ApiFailure (List ConfiguredLeaf × List PlacementMatrix) := do
  let deleted ← traverse (fun p (i, _) => deletedStatus p i) 0 selected
  gate (deleted.map (!·))
  let types ← traverse (fun p (i, _) => typeIsPart p i) 0 selected
  gate types
  let suppressed ← traverse (fun p (i, _) => positioned p (boolean i "suppressed")) 0 selected
  gate (suppressed.map (!·))
  let hidden ← traverse (fun p (_, o) => positioned p (boolean o "hidden")) 0 selected
  gate (hidden.map (!·))
  let leaves ← traverse (fun p (i, _) => positioned p (projectedLeaf i)) 0 selected
  gate (leaves.map fun l => l.documentId = d && l.documentMicroversion = m)
  let matrices ← traverse (fun p (_, o) => positioned p (projectTransform o)) 0 selected
  gate (matrices.map properRigid)
  return (leaves, matrices)

/-- Every leaf is a solid part of the assembly. -/
def checkParts (parts : List Value) (leaves : List ConfiguredLeaf) : Except ApiFailure Unit := do
  let partIndex ← indexRows projectedLeaf [] parts
  let joined ← traverse (fun p l =>
    match lookupRow partIndex l with
    | some obj => .ok obj
    | none => .error (malformed.position p)) 0 leaves
  let bodies ← traverse (fun p obj => bodyIsSolid p obj) 0 joined
  gate bodies

def resolveAssembly (request : SelectionRequest) (mid : String) (response : Value) :
    Except ApiFailure AssemblyResolution := do
  let envelope ← object response
  let assembly ← member envelope "rootAssembly" >>= object
  let d ← sourceString assembly "documentId"
  let m ← sourceString assembly "documentMicroversion"
  let e ← sourceString assembly "elementId"
  let configuration ← sourceString assembly "fullConfiguration"
  let instances ← array assembly "instances"
  let occurrences ← array assembly "occurrences"
  let _ ← array assembly "parametricInstances"
  let _ ← array assembly "patterns"
  let parts ← array envelope "parts"
  ensure (d = request.documentId ∧ m = mid ∧ e = request.elementId) malformed
  let instanceIndex ← indexRows (fun obj => sourceString obj "id") [] instances
  let occurrenceIndex ← indexRows occurrencePath [] occurrences
  let exclusions ← relationIds assembly
  let selected ← joinSelected request instanceIndex occurrenceIndex
  let paths ← traverse (fun _ selector => selectedPath selector) 0 request.selectors
  gate (paths.map fun path => path.headD "" ∉ exclusions)
  let (leaves, matrices) ← projectSelected d m selected
  checkParts parts leaves
  let candidates := (paths.zip (leaves.zip matrices)).map fun (path, leaf, matrix) =>
    { selector := AuthoringSelector.assemblyOccurrence d m e configuration path, leaf := leaf,
      matrix := normalizeMatrix matrix, name := "", description := "" }
  return { root := root request mid configuration, candidates := candidates,
           carriers := carrierGroups leaves }

/-! ## Carriers -/

def setCarrier (candidates : List Candidate) (metadata : Nat × String × String) :
    List Candidate :=
  candidates.modify metadata.1 fun c =>
    { c with name := metadata.2.1, description := metadata.2.2 }

def carrierRowKey (obj : Members) : Except ApiFailure (String × String × String) := do
  let elementId ← sourceString obj "elementId"
  let microversion ← sourceString obj "microversionId"
  let partId ← sourceString obj "partId"
  return (elementId, microversion, partId)

def resolveCarrier (response : Value) (group : CarrierGroup) (candidates : List Candidate) :
    Except ApiFailure (List Candidate) := do
  let rows ← items response
  let index ← indexRows carrierRowKey [] rows
  let joined ← traverse (fun _ p => do
    let candidate ← match candidates[p]? with
      | some c => .ok c
      | none => .error malformed
    let l := candidate.leaf
    match lookupRow index (l.elementId, l.documentMicroversion, l.partId) with
    | none => throw (malformed.position p)
    | some obj =>
      let _ ← positioned p (sourceString obj "configurationId")
      return (p, obj)) 0 group.positions
  let states ← traverse (fun _ (p, obj) => positioned p (solidState obj)) 0 joined
  match states.findIdx? (· = false) with
  | some i => throw (unavailable (joined.map Prod.fst |>.getD i 0))
  | none =>
    let metadata ← traverse (fun _ (p, obj) => do
      let name ← positioned p (string obj "name")
      let description ← positioned p (string obj "description")
      return (p, name, description)) 0 joined
    return metadata.foldl setCarrier candidates

/-- Every group of carriers, each with its response. -/
def resolveCarriers : List (CarrierGroup × Value) → List Candidate →
    Except ApiFailure (List Candidate)
  | [], candidates => .ok candidates
  | (group, response) :: rest, candidates => do
    let candidates ← resolveCarrier response group candidates
    resolveCarriers rest candidates

/-! ## The plan -/

section Plan

variable (digests : Digests) (sizes : Sizes)

def planObject (candidate : Candidate) (authored : AuthoringObject) : ResolvedSelectionObject where
  planLocalObjectIdentity := objectIdentity digests candidate.selector candidate.leaf
  selector := candidate.selector
  configuredLeaf := candidate.leaf
  displayName := authored.displayName
  annotation := authored.annotation
  expectedNeutralPlacementMatrix := normalizeMatrix candidate.matrix

def authorCandidates (candidates : List Candidate) : Except ApiFailure (List AuthoringObject) :=
  traverse (fun p (candidate : Candidate) =>
    (normalizeAuthoringObject digests.text candidate.selector candidate.description
      candidate.name).mapError fun e => annotationFailure e (some p)) 0 candidates

def candidateContext (candidates : List Candidate) : List AuthoringContextEntry :=
  authoringContext digests (candidates.map fun c => (c.selector, c.leaf))

def constructPlan (root : SelectionRoot) (candidates : List Candidate) :
    Except ApiFailure ResolvedSelectionPlan := do
  let objects ← authorCandidates digests candidates
  let document : AuthoringDocument := ⟨1, objects⟩
  (validateAuthoringDocument sizes document).mapError fun e =>
    annotationFailure e (documentFailurePosition document)
  (validateAuthoringContext digests sizes document
    (candidateContext digests candidates)).mapError fun e =>
    annotationFailure e (contextFailurePosition document candidates)
  let authoringDocumentIdentity ← (authoringDocumentIdentity digests sizes document).mapError
    fun _ => malformed
  let objects := List.zipWith (planObject digests) candidates objects
  match computedPlanIdentity digests ⟨root, authoringDocumentIdentity, objects⟩ with
  | none => throw (unavailable 0)
  | some planIdentity => return ⟨root, authoringDocumentIdentity, objects, planIdentity⟩

end Plan

end Selection
end OnshapeExport
