import OnshapeExport.ConfigurationEncoding
import OnshapeExport.SelectionPlan

/-!
# Provenance

The record of `onshape_geometry.rs` that ties a plan to the request it was made for, and its
identity.

* `ProvenanceRecord.identity` — the hash of everything else in a record.
* `record_eq_of_identity` — a record is determined by its identity, up to the signs of zeros in
  the matrices of its plan, which no comparison of floats sees.
-/

namespace OnshapeExport
namespace Geometry

open Annotation CacheKey Checks Encoding Json OnshapeApi Selection

def recordLimit : Nat := 16777216
def contract : String := "onshape-export-configured-leaf-geometry-request-v1"
def provenanceDomain : String := "onshape-export-acquisition-provenance-v1"

def invariant (code : String) : ApiFailure :=
  (ApiFailure.new .operationalApiContractFailure code).operation "acquisitionProvenance"

/-! ## Documents -/

inductive Representation where
  | partStudioOriginalEncoding
  | assemblyLeafFullConfiguration
deriving DecidableEq, Repr

structure ProvenanceBinding where
  position : Nat
  planLocalObjectIdentity : String
  selector : AuthoringSelector
  configuredLeaf : ConfiguredLeaf
  representation : Representation
  configurationRequestValue : String
deriving DecidableEq

structure ProvenancePayload where
  provenanceSchemaVersion : Nat
  requestContract : String
  configurationEncoding : EncodingHandoff
  encodingContext : EncodingContext
  plan : ResolvedSelectionPlan
  bindings : List ProvenanceBinding
deriving DecidableEq

structure ProvenanceRecord where
  provenanceSchemaVersion : Nat
  requestContract : String
  configurationEncoding : EncodingHandoff
  encodingContext : EncodingContext
  plan : ResolvedSelectionPlan
  bindings : List ProvenanceBinding
  provenanceIdentity : String
deriving DecidableEq

def Representation.codec : Codec Representation :=
  .enum (fun
      | .partStudioOriginalEncoding => "part_studio_original_encoding_v1"
      | .assemblyLeafFullConfiguration => "assembly_leaf_full_configuration_v1")
    [.partStudioOriginalEncoding, .assemblyLeafFullConfiguration]
    (by rintro (_ | _) <;> simp) (by rintro (_ | _) (_ | _) <;> simp)

open Fields in
def ProvenanceBinding.codec : Codec ProvenanceBinding :=
  .record true (((required "position" (.unsigned 64)).and <|
    (required "planLocalObjectIdentity" .str).and <|
    (required "selector" AuthoringSelector.codec).and <|
    (required "configuredLeaf" ConfiguredLeaf.codec).and <|
    (required "representation" Representation.codec).and
      (required "configurationRequestValue" .str)).iso
    (fun (a, b, c, d, e, f) => ⟨a, b, c, d, e, f⟩)
    (fun x => (x.position, x.planLocalObjectIdentity, x.selector, x.configuredLeaf,
      x.representation, x.configurationRequestValue)) fun _ => rfl)

open Fields in
def ProvenancePayload.codec : Codec ProvenancePayload :=
  .record true (((required "provenanceSchemaVersion" (.unsigned 32)).and <|
    (required "requestContract" .str).and <|
    (required "configurationEncoding" EncodingHandoff.codec).and <|
    (required "encodingContext" EncodingContext.codec).and <|
    (required "plan" ResolvedSelectionPlan.codec).and
      (required "bindings" (.list ProvenanceBinding.codec))).iso
    (fun (a, b, c, d, e, f) => ⟨a, b, c, d, e, f⟩)
    (fun x => (x.provenanceSchemaVersion, x.requestContract, x.configurationEncoding,
      x.encodingContext, x.plan, x.bindings)) fun _ => rfl)

open Fields in
def ProvenanceRecord.codec : Codec ProvenanceRecord :=
  .record true (((required "provenanceSchemaVersion" (.unsigned 32)).and <|
    (required "requestContract" .str).and <|
    (required "configurationEncoding" EncodingHandoff.codec).and <|
    (required "encodingContext" EncodingContext.codec).and <|
    (required "plan" ResolvedSelectionPlan.codec).and <|
    (required "bindings" (.list ProvenanceBinding.codec)).and
      (required "provenanceIdentity" .str)).iso
    (fun (a, b, c, d, e, f, g) => ⟨a, b, c, d, e, f, g⟩)
    (fun x => (x.provenanceSchemaVersion, x.requestContract, x.configurationEncoding,
      x.encodingContext, x.plan, x.bindings, x.provenanceIdentity)) fun _ => rfl)

/-! ## Identity -/

def ProvenanceRecord.payload (r : ProvenanceRecord) : ProvenancePayload where
  provenanceSchemaVersion := r.provenanceSchemaVersion
  requestContract := r.requestContract
  configurationEncoding := r.configurationEncoding
  encodingContext := r.encodingContext
  plan := r.plan
  bindings := r.bindings

section Identity

variable (digests : Digests)

def boundedCanonical (v : Value) : Except ApiFailure String :=
  let json := canonicalJson digests v
  if recordLimit < json.utf8ByteSize then .error (invariant "provenance_canonicalization")
  else
    match parseJson digests.text json recordLimit with
    | .ok _ => .ok json
    | .error _ => .error (invariant "provenance_structure")

def ProvenanceRecord.identity (r : ProvenanceRecord) : Except ApiFailure String := do
  let json ← boundedCanonical digests (.ofFields [("domain", .string provenanceDomain),
    ("payload", ProvenancePayload.codec.enc r.payload)])
  return digests.sha256 json

theorem boundedCanonical_ok {v : Value} {json : String}
    (h : boundedCanonical digests v = .ok json) : json = canonicalJson digests v := by
  simp only [boundedCanonical] at h
  split at h
  · cases h
  · split at h
    · cases h
      rfl
    · cases h

theorem boundedCanonical_of_parsed {v w : Value}
    (hs : (canonicalJson digests v).utf8ByteSize ≤ recordLimit)
    (hp : parseJson digests.text (canonicalJson digests v) recordLimit = .ok w) :
    boundedCanonical digests v = .ok (canonicalJson digests v) := by
  simp only [boundedCanonical]
  rw [if_neg (by omega), hp]

theorem identity_ok {r : ProvenanceRecord} {identity : String}
    (h : r.identity digests = .ok identity) :
    identity = hashJson digests provenanceDomain (ProvenancePayload.codec.enc r.payload) := by
  obtain ⟨json, hj, h⟩ := bind_ok.mp h
  cases h
  rw [boundedCanonical_ok digests hj]
  rfl

end Identity

/-! ## Equality of records -/

/-- A plan without the signs of the zeros in its matrices. -/
def settleObject (o : ResolvedSelectionObject) : ResolvedSelectionObject :=
  { o with expectedNeutralPlacementMatrix :=
      ⟨o.expectedNeutralPlacementMatrix.1.map Scalar.settle, by
        simp [o.expectedNeutralPlacementMatrix.2]⟩ }

def settlePlan (p : ResolvedSelectionPlan) : ResolvedSelectionPlan :=
  { p with objects := p.objects.map settleObject }

def ProvenanceRecord.settle (r : ProvenanceRecord) : ProvenanceRecord :=
  { r with plan := settlePlan r.plan }

/-- Records as a comparison field by field finds them equal. -/
def ProvenanceRecord.Same (r r' : ProvenanceRecord) : Prop := r.settle = r'.settle

/-- The integers of a record are safe in JSON. -/
structure SafeIntegers (r : ProvenanceRecord) : Prop where
  schemaVersion : r.provenanceSchemaVersion < 2 ^ 32
  context : EncodingContext.codec.Fits r.encodingContext
  positions : ∀ b ∈ r.bindings, b.position ≤ Protocol.maxSafeJsonInteger

theorem enc_settleObject (o : ResolvedSelectionObject) :
    ResolvedSelectionObject.codec.enc (settleObject o) = ResolvedSelectionObject.codec.enc o := by
  have hm : PlacementMatrix.codec.enc (settleObject o).expectedNeutralPlacementMatrix =
      PlacementMatrix.codec.enc o.expectedNeutralPlacementMatrix := by
    simp [PlacementMatrix.codec, Codec.sub, Codec.list, Codec.scalar, settleObject,
      Scalar.number_settle]
  simp only [ResolvedSelectionObject.codec, Codec.record, Fields.iso, Fields.and,
    Fields.required, hm]
  rfl

theorem enc_settlePlan (p : ResolvedSelectionPlan) :
    ResolvedSelectionPlan.codec.enc (settlePlan p) = ResolvedSelectionPlan.codec.enc p := by
  have ho : (Codec.list ResolvedSelectionObject.codec).enc (settlePlan p).objects =
      (Codec.list ResolvedSelectionObject.codec).enc p.objects := by
    simp [Codec.list, settlePlan, enc_settleObject]
  simp only [ResolvedSelectionPlan.codec, Codec.record, Fields.iso, Fields.and,
    Fields.required, ho]
  rfl

theorem enc_settle (r : ProvenanceRecord) :
    ProvenancePayload.codec.enc r.settle.payload = ProvenancePayload.codec.enc r.payload := by
  simp only [ProvenancePayload.codec, Codec.record, Fields.iso, Fields.and, Fields.required,
    ProvenanceRecord.payload, ProvenanceRecord.settle, enc_settlePlan]

@[simp] theorem fits_representation (r : Representation) : Representation.codec.Fits r := trivial

@[simp] theorem fits_binding {b : ProvenanceBinding} :
    ProvenanceBinding.codec.Fits b ↔ b.position < 2 ^ 64 := by
  simp [ProvenanceBinding.codec]

theorem payload_fits {p : ProvenancePayload} :
    ProvenancePayload.codec.Fits p ↔ p.provenanceSchemaVersion < 2 ^ 32 ∧
      EncodingContext.codec.Fits p.encodingContext ∧ ResolvedSelectionPlan.codec.Fits p.plan ∧
      ∀ b ∈ p.bindings, b.position < 2 ^ 64 := by
  simp only [ProvenancePayload.codec, fits_record, fits_iso, fits_and, fits_required,
    fits_unsigned, fits_str, fits_handoff, fits_list, fits_binding, true_and]
  constructor
  · rintro ⟨⟨h1, -⟩, h2⟩
    exact ⟨h1, h2⟩
  · rintro ⟨h1, h2⟩
    exact ⟨⟨h1, by omega⟩, h2⟩

theorem settle_fits {r : ProvenanceRecord} (h : SafeIntegers r) :
    ProvenancePayload.codec.Fits r.settle.payload := by
  refine payload_fits.mpr ⟨h.schemaVersion, h.context, fits_plan.mpr ?_, fun b hb => ?_⟩
  · intro o ho s hs
    obtain ⟨o', -, rfl⟩ := List.mem_map.mp ho
    obtain ⟨s', -, rfl⟩ := List.mem_map.mp hs
    exact s'.settle_ne
  · have := h.positions b hb
    simp only [Protocol.maxSafeJsonInteger] at this
    omega

/-- Records that carry their identity are told apart by it. -/
theorem record_eq_of_identity {digests : Digests} {r r' : ProvenanceRecord}
    (ht : digests.text.Faithful) (hc : CollisionFree digests) (hs : SafeIntegers r)
    (hs' : SafeIntegers r') (h : r.identity digests = .ok r.provenanceIdentity)
    (h' : r'.identity digests = .ok r'.provenanceIdentity)
    (he : r.provenanceIdentity = r'.provenanceIdentity) : r.Same r' := by
  have hf := settle_fits hs
  have hf' := settle_fits hs'
  have hhash := (identity_ok digests h).symm.trans (he.trans (identity_ok digests h'))
  rw [← enc_settle r, ← enc_settle r'] at hhash
  have henc := hashJson_inj digests ht hc (ProvenancePayload.codec.canonical _ hf)
    (ProvenancePayload.codec.canonical _ hf') hhash
  have hp := ProvenancePayload.codec.enc_inj hf hf' henc
  cases r
  cases r'
  simp only [ProvenanceRecord.payload, ProvenanceRecord.settle, ProvenancePayload.mk.injEq] at hp
  obtain ⟨rfl, rfl, rfl, rfl, hplan, rfl⟩ := hp
  simp only at he
  simp only [ProvenanceRecord.Same, ProvenanceRecord.settle, hplan, he]

end Geometry
end OnshapeExport
