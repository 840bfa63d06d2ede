import Mathlib.Algebra.Order.Ring.Rat
import Mathlib.Algebra.Order.Group.Abs
import OnshapeExport.Annotation
import OnshapeExport.SelectionRequest

/-!
# SelectionPlan

The plan of `onshape_selection.rs` for a selection and the check of a plan that was kept. Scalars
of a matrix are exact, and a zero may carry a sign.

* `validateRetainedPlan` — the check.
* `retainedPlan_ok` — an accepted plan, condition by condition.
* `plan_eq_of_identity` — an accepted plan is determined by its identity.
-/

namespace OnshapeExport
namespace Selection

open Annotation CacheKey Checks Json OnshapeApi

def maxPlanBytes : Nat := 8388608

/-! ## Documents -/

structure ConfiguredLeaf where
  documentId : String
  documentMicroversion : String
  elementId : String
  configurationIdentity : String
  partId : String
deriving DecidableEq, Repr

structure SelectionRoot where
  documentId : String
  versionId : String
  documentMicroversion : String
  elementId : String
  elementKind : SelectionElementKind
  configurationIdentity : String
deriving DecidableEq, Repr

structure ResolvedSelectionObject where
  planLocalObjectIdentity : String
  selector : AuthoringSelector
  configuredLeaf : ConfiguredLeaf
  displayName : String
  annotation : NormalizedAnnotation
  expectedNeutralPlacementMatrix : PlacementMatrix
deriving DecidableEq

structure ResolvedSelectionPlan where
  root : SelectionRoot
  authoringDocumentIdentity : String
  objects : List ResolvedSelectionObject
  planIdentity : String
deriving DecidableEq

def SelectionElementKind.codec : Codec SelectionElementKind :=
  .enum (fun | .partStudio => "part_studio" | .assembly => "assembly") [.partStudio, .assembly]
    (by rintro (_ | _) <;> simp) (by rintro (_ | _) (_ | _) <;> simp)

theorem configuration_disjoint_part :
    ∀ name ∈ (Fields.required "configurationIdentity" .str).names,
      name ∉ (Fields.required "partId" .str).names :=
  Fields.required_disjoint _ _ (by decide)

open Fields in
/-- The kind of the element of a leaf has one value only. -/
def ConfiguredLeaf.codec : Codec ConfiguredLeaf :=
  .record true (((required "documentId" .str).and <| (required "documentMicroversion" .str).and <|
    (required "elementId" .str).and <|
    (required "elementKind" (Protocol.oneName "part_studio")).and <|
    (required "configurationIdentity" .str).and (required "partId" .str)
      configuration_disjoint_part).iso
    (fun (a, b, c, _, d, e) => ⟨a, b, c, d, e⟩)
    (fun x => (x.documentId, x.documentMicroversion, x.elementId, (), x.configurationIdentity,
      x.partId)) fun _ => rfl)

open Fields in
def SelectionRoot.codec : Codec SelectionRoot :=
  .record true (((required "documentId" .str).and <| (required "versionId" .str).and <|
    (required "documentMicroversion" .str).and <| (required "elementId" .str).and <|
    (required "elementKind" SelectionElementKind.codec).and
      (required "configurationIdentity" .str)).iso
    (fun (a, b, c, d, e, f) => ⟨a, b, c, d, e, f⟩)
    (fun x => (x.documentId, x.versionId, x.documentMicroversion, x.elementId, x.elementKind,
      x.configurationIdentity)) fun _ => rfl)

open Fields in
def ResolvedSelectionObject.codec : Codec ResolvedSelectionObject :=
  .record true (((required "planLocalObjectIdentity" .str).and <|
    (required "selector" AuthoringSelector.codec).and <|
    (required "configuredLeaf" ConfiguredLeaf.codec).and <| (required "displayName" .str).and <|
    (required "annotation" NormalizedAnnotation.codec).and
      (required "expectedNeutralPlacementMatrix" PlacementMatrix.codec)).iso
    (fun (a, b, c, d, e, f) => ⟨a, b, c, d, e, f⟩)
    (fun x => (x.planLocalObjectIdentity, x.selector, x.configuredLeaf, x.displayName,
      x.annotation, x.expectedNeutralPlacementMatrix)) fun _ => rfl)

open Fields in
def ResolvedSelectionPlan.codec : Codec ResolvedSelectionPlan :=
  .record true (((required "root" SelectionRoot.codec).and <|
    (required "authoringDocumentIdentity" .str).and <|
    (required "objects" (.list ResolvedSelectionObject.codec)).and
      (required "planIdentity" .str)).iso
    (fun (a, b, c, d) => ⟨a, b, c, d⟩)
    (fun x => (x.root, x.authoringDocumentIdentity, x.objects, x.planIdentity)) fun _ => rfl)

@[simp] theorem fits_elementKind (k : SelectionElementKind) : SelectionElementKind.codec.Fits k :=
  trivial

@[simp] theorem fits_leaf (l : ConfiguredLeaf) : ConfiguredLeaf.codec.Fits l := by
  simp [ConfiguredLeaf.codec]

@[simp] theorem fits_root (r : SelectionRoot) : SelectionRoot.codec.Fits r := by
  simp [SelectionRoot.codec]

@[simp] theorem fits_matrix {m : PlacementMatrix} :
    PlacementMatrix.codec.Fits m ↔ ∀ s ∈ m.1, s ≠ .negZero := by
  simp [PlacementMatrix.codec]

@[simp] theorem fits_object {o : ResolvedSelectionObject} :
    ResolvedSelectionObject.codec.Fits o ↔
      ∀ s ∈ o.expectedNeutralPlacementMatrix.1, s ≠ .negZero := by
  simp [ResolvedSelectionObject.codec]

theorem fits_plan {p : ResolvedSelectionPlan} :
    ResolvedSelectionPlan.codec.Fits p ↔
      ∀ o ∈ p.objects, ∀ s ∈ o.expectedNeutralPlacementMatrix.1, s ≠ .negZero := by
  simp [ResolvedSelectionPlan.codec]

open Fields in
def EncodingHandoff.codec : Codec EncodingHandoff :=
  .record true (((required "sourceHash" .str).and <| (required "configHash" .str).and <|
    (required "encodingContextHash" .str).and (required "encodedId" .str)).iso
    (fun (a, b, c, d) => ⟨a, b, c, d⟩)
    (fun x => (x.sourceHash, x.configHash, x.encodingContextHash, x.encodedId)) fun _ => rfl)

@[simp] theorem fits_handoff (h : EncodingHandoff) : EncodingHandoff.codec.Fits h := by
  simp [EncodingHandoff.codec]

/-! ## Matrices -/

def identityPlacement : PlacementMatrix :=
  ⟨[.rat 1, .rat 0, .rat 0, .rat 0, .rat 0, .rat 1, .rat 0, .rat 0, .rat 0, .rat 0, .rat 1, .rat 0,
    .rat 0, .rat 0, .rat 0, .rat 1], rfl⟩

def epsilon : ℚ := 1 / 10 ^ 12

def entry (m : PlacementMatrix) (k : Nat) : ℚ := (m.1.getD k (.rat 0)).value

/-- Whether `f64` finds two matrices equal: zeros are, whatever their sign. -/
def sameMatrix (m n : PlacementMatrix) : Bool := m.1.map Scalar.value = n.1.map Scalar.value

def dot (m : PlacementMatrix) (i j : Nat) : ℚ :=
  entry m i * entry m j + entry m (4 + i) * entry m (4 + j) + entry m (8 + i) * entry m (8 + j)

def determinant (m : PlacementMatrix) : ℚ :=
  entry m 0 * (entry m 5 * entry m 10 - entry m 6 * entry m 9) -
    entry m 1 * (entry m 4 * entry m 10 - entry m 6 * entry m 8) +
    entry m 2 * (entry m 4 * entry m 9 - entry m 5 * entry m 8)

def near (a b : ℚ) : Bool := |a - b| ≤ epsilon

/-- Every scalar of the model is finite. -/
def properRigid (m : PlacementMatrix) : Bool :=
  ((List.range 4).all fun k => near (entry m (12 + k)) (if k = 3 then 1 else 0)) &&
    ((List.range 3).all fun i => (List.range 3).all fun j =>
      near (dot m i j) (if i = j then 1 else 0)) &&
    near (determinant m) 1

def lastRow (m : PlacementMatrix) : List Scalar := m.1.drop 12

/-- The last row is set, and no zero keeps a sign. -/
def normalizeMatrix (m : PlacementMatrix) : PlacementMatrix :=
  ⟨(m.1.take 12 ++ [Scalar.rat 0, .rat 0, .rat 0, .rat 1]).map
    fun s => if s.value = 0 then .rat 0 else s, by simp [m.2]⟩

/-! ## Identities -/

section Identities

variable (digests : Digests) (sizes : Sizes)

structure ObjectIdentity where
  selector : AuthoringSelector
  configuredLeaf : ConfiguredLeaf

open Fields in
def ObjectIdentity.codec : Codec ObjectIdentity :=
  .record false (((required "selector" AuthoringSelector.codec).and
      (required "configuredLeaf" ConfiguredLeaf.codec)).iso
    (fun (a, b) => ⟨a, b⟩) (fun x => (x.selector, x.configuredLeaf)) fun _ => rfl)

def objectIdentity (selector : AuthoringSelector) (leaf : ConfiguredLeaf) : String :=
  hashJson digests "onshape-export-selection-plan-object-v1"
    (ObjectIdentity.codec.enc ⟨selector, leaf⟩)

structure PlanPayload where
  root : SelectionRoot
  authoringDocumentIdentity : String
  objects : List ResolvedSelectionObject

open Fields in
def PlanPayload.codec : Codec PlanPayload :=
  .record false (((required "root" SelectionRoot.codec).and <|
    (required "authoringDocumentIdentity" .str).and
      (required "objects" (.list ResolvedSelectionObject.codec))).iso
    (fun (a, b, c) => ⟨a, b, c⟩) (fun x => (x.root, x.authoringDocumentIdentity, x.objects))
    fun _ => rfl)

def planDomain : String := "onshape-export-selection-plan-v1"

/-- The hash of a plan, unless the text that is hashed goes over the limit: `BoundedHash`. -/
def computedPlanIdentity (payload : PlanPayload) : Option String :=
  let json := canonicalJson digests (.ofFields [("domain", .string planDomain),
    ("payload", PlanPayload.codec.enc payload)])
  if json.utf8ByteSize ≤ maxPlanBytes then some (digests.sha256 json) else none

def configuredPartIdentity (leaf : ConfiguredLeaf) : String :=
  canonicalJson digests (ConfiguredLeaf.codec.enc leaf)

def authoringDocument (objects : List ResolvedSelectionObject) : AuthoringDocument where
  schemaVersion := 1
  objects := objects.map fun o => ⟨o.selector, o.displayName, o.annotation⟩

def authoringContext (objects : List (AuthoringSelector × ConfiguredLeaf)) :
    List AuthoringContextEntry :=
  objects.zipIdx.map fun p => ⟨p.1.1, p.2, configuredPartIdentity digests p.1.2⟩

/-! ## The check of a plan -/

def retainedFailure : ApiFailure :=
  .new .operationalApiContractFailure "invalid_retained_selection_plan"

def partSelector (leaf : ConfiguredLeaf) : AuthoringSelector :=
  .partStudioPart leaf.documentId leaf.documentMicroversion leaf.elementId
    leaf.configurationIdentity leaf.partId

/-- What the check asks of the selector and the leaf of an object, by the kind of the root. -/
def selectorMatches (root : SelectionRoot) (object : ResolvedSelectionObject) : Bool :=
  let leaf := object.configuredLeaf
  match root.elementKind, object.selector with
  | .partStudio, .partStudioPart _ _ _ _ _ =>
    leaf.elementId = root.elementId && leaf.configurationIdentity = root.configurationIdentity &&
      object.selector = partSelector leaf &&
      sameMatrix object.expectedNeutralPlacementMatrix identityPlacement
  | .assembly, .assemblyOccurrence documentId documentMicroversion elementId
      configurationIdentity occurrencePath =>
    documentId = root.documentId && documentMicroversion = root.documentMicroversion &&
      elementId = root.elementId && configurationIdentity = root.configurationIdentity &&
      (match occurrencePath with
        | [instance_] => boundedVisibleAscii instance_
        | _ => false)
  | _, _ => false

def rootBounded (root : SelectionRoot) : Bool :=
  [root.documentId, root.versionId, root.documentMicroversion, root.elementId,
    root.configurationIdentity].all boundedVisibleAscii

def leafBounded (leaf : ConfiguredLeaf) : Bool :=
  [leaf.documentId, leaf.documentMicroversion, leaf.elementId, leaf.configurationIdentity,
    leaf.partId].all boundedVisibleAscii

def ResolvedSelectionPlan.payload (plan : ResolvedSelectionPlan) : PlanPayload :=
  ⟨plan.root, plan.authoringDocumentIdentity, plan.objects⟩

/-- The checks of an object before its identity is compared with the earlier ones. -/
def validateLeaf (root : SelectionRoot) (object : ResolvedSelectionObject) :
    Except ApiFailure Unit :=
  let leaf := object.configuredLeaf
  ensure (leafBounded leaf = true ∧ leaf.documentId = root.documentId ∧
    leaf.documentMicroversion = root.documentMicroversion ∧
    isSha256 object.planLocalObjectIdentity = true) retainedFailure

def validateObject (root : SelectionRoot) (object : ResolvedSelectionObject) :
    Except ApiFailure Unit :=
  let matrix := object.expectedNeutralPlacementMatrix
  ensure (properRigid matrix = true ∧ (lastRow matrix).map Scalar.value = [0, 0, 0, 1] ∧
    (∀ s ∈ matrix.1, s ≠ .negZero) ∧ selectorMatches root object = true ∧
    objectIdentity digests object.selector object.configuredLeaf =
      object.planLocalObjectIdentity) retainedFailure

def validateRetainedPlan (plan : ResolvedSelectionPlan) : Except ApiFailure Unit := do
  ensure (1 ≤ plan.objects.length ∧ plan.objects.length ≤ maxSelectors ∧
    rootBounded plan.root = true ∧ isSha256 plan.planIdentity = true ∧
    isSha256 plan.authoringDocumentIdentity = true) retainedFailure
  eachNew (fun _ object => validateLeaf plan.root object)
    ResolvedSelectionObject.planLocalObjectIdentity (fun _ _ => retainedFailure)
    (fun _ object => validateObject digests plan.root object) 0 [] plan.objects
  let document := authoringDocument plan.objects
  let context := authoringContext digests
    (plan.objects.map fun o => (o.selector, o.configuredLeaf))
  (validateAuthoringContext digests sizes document context).mapError fun _ => retainedFailure
  ensure (authoringDocumentIdentity digests sizes document =
    .ok plan.authoringDocumentIdentity) retainedFailure
  ensure (computedPlanIdentity digests plan.payload = some plan.planIdentity) retainedFailure

/-- An object of an accepted plan. -/
structure RetainedObject (root : SelectionRoot) (object : ResolvedSelectionObject) : Prop where
  leaf : leafBounded object.configuredLeaf = true
  document : object.configuredLeaf.documentId = root.documentId
  microversion : object.configuredLeaf.documentMicroversion = root.documentMicroversion
  sha256 : isSha256 object.planLocalObjectIdentity = true
  rigid : properRigid object.expectedNeutralPlacementMatrix = true
  last : (lastRow object.expectedNeutralPlacementMatrix).map Scalar.value = [0, 0, 0, 1]
  zeros : ∀ s ∈ object.expectedNeutralPlacementMatrix.1, s ≠ .negZero
  selector : selectorMatches root object = true
  identity : objectIdentity digests object.selector object.configuredLeaf =
    object.planLocalObjectIdentity

/-- An accepted plan. -/
structure Retained (plan : ResolvedSelectionPlan) : Prop where
  nonempty : 1 ≤ plan.objects.length
  count : plan.objects.length ≤ maxSelectors
  root : rootBounded plan.root = true
  planSha256 : isSha256 plan.planIdentity = true
  authoringSha256 : isSha256 plan.authoringDocumentIdentity = true
  objects : ∀ o ∈ plan.objects, RetainedObject digests plan.root o
  distinct : (plan.objects.map ResolvedSelectionObject.planLocalObjectIdentity).Nodup
  context : validateAuthoringContext digests sizes (authoringDocument plan.objects)
    (authoringContext digests (plan.objects.map fun o => (o.selector, o.configuredLeaf))) = .ok ()
  authoring : authoringDocumentIdentity digests sizes (authoringDocument plan.objects) =
    .ok plan.authoringDocumentIdentity
  identity : computedPlanIdentity digests plan.payload = some plan.planIdentity

theorem retainedObject_ok {root : SelectionRoot} {o : ResolvedSelectionObject} :
    validateLeaf root o = .ok () ∧ validateObject digests root o = .ok () ↔
      RetainedObject digests root o := by
  simp only [validateLeaf, validateObject, ensure_ok]
  constructor
  · rintro ⟨⟨h1, h2, h3, h4⟩, h5, h6, h7, h8, h9⟩
    exact ⟨h1, h2, h3, h4, h5, h6, h7, h8, h9⟩
  · intro h
    exact ⟨⟨h.leaf, h.document, h.microversion, h.sha256⟩, h.rigid, h.last, h.zeros, h.selector,
      h.identity⟩

/-- The check accepts exactly the plans that satisfy every condition. -/
theorem retainedPlan_ok {plan : ResolvedSelectionPlan} :
    validateRetainedPlan digests sizes plan = .ok () ↔ Retained digests sizes plan := by
  have hobjects (_ : Nat) (o : ResolvedSelectionObject) :
      validateLeaf plan.root o = .ok () ∧ validateObject digests plan.root o = .ok () ↔
        RetainedObject digests plan.root o := retainedObject_ok digests
  simp only [validateRetainedPlan, seq_ok, ensure_ok, mapError_ok, eachNew_ok_mem hobjects]
  constructor
  · rintro ⟨⟨h1, h2, h3, h4, h5⟩, ⟨h6, h7⟩, h8, h9, h10⟩
    exact ⟨h1, h2, h3, h4, h5, h6, h7, h8, h9, h10⟩
  · intro h
    exact ⟨⟨h.nonempty, h.count, h.root, h.planSha256, h.authoringSha256⟩,
      ⟨h.objects, h.distinct⟩, h.context, h.authoring, h.identity⟩

/-! ## The identity of a plan covers every field -/

variable {digests sizes}

theorem planPayload_fits {payload : PlanPayload}
    (h : ∀ o ∈ payload.objects, ∀ s ∈ o.expectedNeutralPlacementMatrix.1, s ≠ .negZero) :
    PlanPayload.codec.Fits payload := by
  simpa [PlanPayload.codec] using h

variable (digests) in
/-- The text that is hashed for a plan. -/
def planText (payload : PlanPayload) : String :=
  canonicalJson digests (.ofFields [("domain", .string planDomain),
    ("payload", PlanPayload.codec.enc payload)])

theorem computedPlanIdentity_eq {payload : PlanPayload} {identity : String}
    (h : computedPlanIdentity digests payload = some identity) :
    identity = digests.sha256 (planText digests payload) := by
  simp only [computedPlanIdentity] at h
  split at h
  · exact (Option.some.inj h).symm
  · cases h

theorem payload_eq_of_text {a b : PlanPayload} (ht : digests.text.Faithful)
    (ha : PlanPayload.codec.Fits a) (hb : PlanPayload.codec.Fits b)
    (h : planText digests a = planText digests b) : a = b := by
  have hv := ht.print_inj (canonical_preimage (PlanPayload.codec.canonical a ha))
    (canonical_preimage (PlanPayload.codec.canonical b hb)) h
  have hp := Value.get?_of_ofFields_eq (by simp) (by simp) hv "payload"
  exact PlanPayload.codec.enc_inj ha hb (by simpa [get?, List.lookup_cons, List.lookup_nil] using hp)

theorem Retained.fits {p : ResolvedSelectionPlan} (h : Retained digests sizes p) :
    PlanPayload.codec.Fits p.payload :=
  planPayload_fits fun o ho => (h.objects o ho).zeros

/-- Accepted plans with one identity are equal, unless their texts collide. -/
theorem plan_eq_of_text {p q : ResolvedSelectionPlan} (ht : digests.text.Faithful)
    (hp : Retained digests sizes p) (hq : Retained digests sizes q)
    (hc : digests.sha256 (planText digests p.payload) = digests.sha256 (planText digests q.payload) →
      planText digests p.payload = planText digests q.payload)
    (he : p.planIdentity = q.planIdentity) : p = q := by
  have hi := computedPlanIdentity_eq hp.identity
  have hj := computedPlanIdentity_eq hq.identity
  have hpay := payload_eq_of_text ht hp.fits hq.fits (hc (hi.symm.trans (he.trans hj)))
  cases p
  cases q
  simp only [ResolvedSelectionPlan.payload, PlanPayload.mk.injEq] at hpay
  obtain ⟨rfl, rfl, rfl⟩ := hpay
  simp only at he
  rw [he]

/-- Accepted plans are told apart by their identities. -/
theorem plan_eq_of_identity {p q : ResolvedSelectionPlan} (ht : digests.text.Faithful)
    (hc : CollisionFree digests) (hp : validateRetainedPlan digests sizes p = .ok ())
    (hq : validateRetainedPlan digests sizes q = .ok ()) (he : p.planIdentity = q.planIdentity) :
    p = q :=
  plan_eq_of_text ht ((retainedPlan_ok digests sizes).mp hp) ((retainedPlan_ok digests sizes).mp hq)
    (fun h => hc h) he

end Identities

end Selection
end OnshapeExport
