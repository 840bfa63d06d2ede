import OnshapeExport.Provenance

/-!
# RecordShape

The shape of a provenance record. The plan of a record has at most 256 objects, each with one
occurrence and at most 64 targets, so that a record is always within the structural bounds of the
reader, whatever its texts are.

* `record_bounded`, `payload_bounded` — a record and what is hashed of it.
-/

namespace OnshapeExport
namespace Geometry

open Annotation CacheKey Checks Encoding Json OnshapeApi Selection

section Shape

variable {arrays objects d : Nat}

theorem within_leaf (h : 6 ≤ objects) (l : ConfiguredLeaf) :
    Within arrays objects 1 6 (ConfiguredLeaf.codec.enc l) :=
  within_record (d := 0) (within_iso (within_text_and (within_text_and (within_text_and
    (within_and (m := 1) (within_required (within_string _))
      (within_text_and (within_text _))))))) h

theorem within_root (h : 6 ≤ objects) (r : SelectionRoot) :
    Within arrays objects 1 6 (SelectionRoot.codec.enc r) :=
  within_record (d := 0) (within_iso (within_text_and (within_text_and (within_text_and
    (within_text_and (within_and (m := 1) (within_required (within_string _))
      (within_text _))))))) h

theorem within_handoff (h : 4 ≤ objects) (e : EncodingHandoff) :
    Within arrays objects 1 4 (EncodingHandoff.codec.enc e) :=
  within_record (d := 0) (within_iso (within_text_and (within_text_and (within_text_and
    (within_text _))))) h

/-- The occurrence of a selector, nothing for a part. -/
def pathOf : AuthoringSelector → List String
  | .partStudioPart _ _ _ _ _ => []
  | .assemblyOccurrence _ _ _ _ path => path

theorem within_selector (h : 6 ≤ objects) {s : AuthoringSelector}
    (hs : (pathOf s).length ≤ arrays) :
    Within arrays objects 2 6 (AuthoringSelector.codec.enc s) := by
  cases s with
  | partStudioPart documentId microversion elementId configuration partId =>
    have hfields : FieldsWithin arrays objects 1 5 [("documentId", .string documentId),
        ("documentMicroversion", .string microversion), ("elementId", .string elementId),
        ("configurationIdentity", .string configuration), ("partId", .string partId)] :=
      within_member (m := 0) (within_string _) <| within_member (m := 0) (within_string _) <|
        within_member (m := 0) (within_string _) <| within_member (m := 0) (within_string _) <|
        within_member (m := 0) (within_string _) (within_nil (m := 0))
    exact within_tagged (d := 1) hfields h
  | assemblyOccurrence documentId microversion elementId configuration path =>
    have hfields : FieldsWithin arrays objects 1 5 [("documentId", .string documentId),
        ("documentMicroversion", .string microversion), ("elementId", .string elementId),
        ("configurationIdentity", .string configuration),
        ("occurrencePath", (Codec.list .str).enc path)] :=
      within_member (m := 0) (within_string _) <| within_member (m := 0) (within_string _) <|
        within_member (m := 0) (within_string _) <| within_member (m := 0) (within_string _) <|
        within_member (m := 0) (within_texts hs) (within_nil (m := 0))
    exact within_tagged (d := 1) hfields h

theorem within_normalized (h : 3 ≤ objects) {a : NormalizedAnnotation}
    (ha : a.targets.length ≤ arrays) :
    Within arrays objects 2 3 ( NormalizedAnnotation.codec.enc a) :=
  within_record (d := 1) (within_iso (within_and (m := 1) (within_required (within_string _))
    (within_and (m := 1) (within_optional fun key _ => within_string key)
      (within_required (within_texts ha))))) h

theorem within_matrix (h : 16 ≤ arrays) (m : PlacementMatrix) :
    Within arrays objects 1 0 (PlacementMatrix.codec.enc m) :=
  within_list (m := 0) (fun s _ => within_number s.number) (m.2.trans_le h) (by omega)

/-- An object of a plan that is narrow enough. -/
structure Slim (arrays : Nat) (selector : AuthoringSelector) (a : NormalizedAnnotation) : Prop where
  path : (pathOf selector).length ≤ arrays
  targets : a.targets.length ≤ arrays

theorem within_object (h : 6 ≤ objects) (ha : 16 ≤ arrays) {o : ResolvedSelectionObject}
    (ho : Slim arrays o.selector o.annotation) :
    Within arrays objects 3 21 (ResolvedSelectionObject.codec.enc o) :=
  within_record (d := 2) (within_iso (within_text_and
    (within_and (m := 7) (within_required (within_selector h ho.path))
      (within_and (m := 7) (within_required ((within_leaf h _).mono (by omega) le_rfl))
        (within_text_and (within_and (m := 4)
          (within_required (within_normalized (by omega) ho.targets))
          (within_required ((within_matrix ha _).mono (by omega) le_rfl)))))))) h

theorem within_plan (h : 6 ≤ objects) (ha : 256 ≤ arrays) {p : ResolvedSelectionPlan}
    (hl : p.objects.length ≤ 256) (ho : ∀ o ∈ p.objects, Slim arrays o.selector o.annotation) :
    Within arrays objects 5 5386 (ResolvedSelectionPlan.codec.enc p) :=
  within_record (d := 4) (within_iso (within_and (m := 7)
    (within_required ((within_root h _).mono (by omega) le_rfl))
    (within_text_and (within_and (m := 5377)
      (within_required (within_list (fun o hm => within_object h (by omega) (ho o hm))
        (hl.trans ha) (show p.objects.length * 21 ≤ 5376 by omega)))
      (within_text _))))) ((by decide : 4 ≤ 6).trans h)

theorem within_context (h : 16 ≤ objects) (c : EncodingContext) :
    Within arrays objects 2 17 (EncodingContext.codec.enc c) := by
  refine within_record (d := 1) (within_iso ?_) h
  refine within_and (m := 1) (within_required (within_number _)) (within_text_and ?_)
  refine within_and (m := 1) (within_required (within_number _)) (within_text_and ?_)
  refine within_text_and (within_text_and (within_text_and (within_text_and (within_text_and
    (within_text_and (within_text_and (within_text_and ?_)))))))
  refine within_and (m := 1) (within_nullable fun s _ => within_string s) ?_
  refine within_and (m := 2)
    (within_required (within_record (d := 0) (within_text _) ((by decide : 1 ≤ 16).trans h))) ?_
  exact within_and (m := 1) (within_required (within_number _))
    (within_required (within_number _))

theorem within_binding (h : 6 ≤ objects) {b : ProvenanceBinding}
    (hb : (pathOf b.selector).length ≤ arrays) :
    Within arrays objects 3 18 (ProvenanceBinding.codec.enc b) :=
  within_record (d := 2) (within_iso (within_and (m := 1) (within_required (within_number _))
    (within_text_and (within_and (m := 7) (within_required (within_selector h hb))
      (within_and (m := 7) (within_required ((within_leaf h _).mono (by omega) le_rfl))
        (within_and (m := 1) (within_required (within_string _)) (within_text _))))))) h

/-- The plan and the bindings of a record are narrow enough. -/
structure SlimRecord (arrays : Nat) (plan : ResolvedSelectionPlan)
    (bindings : List ProvenanceBinding) : Prop where
  objects : plan.objects.length ≤ 256
  slim : ∀ o ∈ plan.objects, Slim arrays o.selector o.annotation
  count : bindings.length ≤ 256
  paths : ∀ b ∈ bindings, (pathOf b.selector).length ≤ arrays

theorem within_payload (h : 16 ≤ objects) (ha : 256 ≤ arrays) {p : ProvenancePayload}
    (hp : SlimRecord arrays p.plan p.bindings) :
    Within arrays objects 6 10021 (ProvenancePayload.codec.enc p) := by
  have hplan := within_plan ((by decide : 6 ≤ 16).trans h) ha hp.objects hp.slim
  have hbindings := within_list
    (fun b hb => within_binding ((by decide : 6 ≤ 16).trans h) (hp.paths b hb))
    (hp.count.trans ha) (Nat.mul_le_mul_right 18 hp.count)
  have hhandoff : Within arrays objects 1 4 (EncodingHandoff.codec.enc p.configurationEncoding) :=
    within_handoff ((by decide : 4 ≤ 16).trans h) _
  have hcontext : Within arrays objects 2 17 (EncodingContext.codec.enc p.encodingContext) :=
    within_context h _
  refine within_record (d := 5) (within_iso ?_) ((by decide : 6 ≤ 16).trans h)
  refine within_and (m := 1) (within_required (within_number _)) (within_text_and ?_)
  refine within_and (m := 5) (within_required (hhandoff.mono (by decide) le_rfl)) ?_
  refine within_and (m := 18) (within_required (hcontext.mono (by decide) le_rfl)) ?_
  exact within_and (m := 5387) (within_required hplan)
    (within_required (hbindings.mono (by decide) le_rfl))

theorem within_provenance (h : 16 ≤ objects) (ha : 256 ≤ arrays) {r : ProvenanceRecord}
    (hr : SlimRecord arrays r.plan r.bindings) :
    Within arrays objects 6 10022 (ProvenanceRecord.codec.enc r) := by
  have hplan := within_plan ((by decide : 6 ≤ 16).trans h) ha hr.objects hr.slim
  have hbindings := within_list
    (fun b hb => within_binding ((by decide : 6 ≤ 16).trans h) (hr.paths b hb))
    (hr.count.trans ha) (Nat.mul_le_mul_right 18 hr.count)
  have hhandoff : Within arrays objects 1 4 (EncodingHandoff.codec.enc r.configurationEncoding) :=
    within_handoff ((by decide : 4 ≤ 16).trans h) _
  have hcontext : Within arrays objects 2 17 (EncodingContext.codec.enc r.encodingContext) :=
    within_context h _
  refine within_record (d := 5) (within_iso ?_) ((by decide : 7 ≤ 16).trans h)
  refine within_and (m := 1) (within_required (within_number _)) (within_text_and ?_)
  refine within_and (m := 5) (within_required (hhandoff.mono (by decide) le_rfl)) ?_
  refine within_and (m := 18) (within_required (hcontext.mono (by decide) le_rfl)) ?_
  exact within_and (m := 5387) (within_required hplan)
    (within_and (m := 4609) (within_required (hbindings.mono (by decide) le_rfl)) (within_text _))

end Shape

/-! ## Within the bounds of the reader -/

/-- The objects of an accepted plan have one occurrence and at most 64 targets. -/
theorem slim_of_retained {digests : Digests} {sizes : Sizes} {plan : ResolvedSelectionPlan}
    (h : Retained digests sizes plan) {o : ResolvedSelectionObject} (ho : o ∈ plan.objects) :
    Slim maxArrayEntries o.selector o.annotation := by
  obtain ⟨hdocument, -⟩ := seq_ok.mp h.authoring
  obtain ⟨-, -, hvalid, -⟩ := authoringDocument_ok sizes hdocument
  obtain ⟨i, hi⟩ := List.getElem?_of_mem ho
  have hobject := hvalid i ⟨o.selector, o.displayName, o.annotation⟩ (by
    simp only [authoringDocument, List.getElem?_map, hi, Option.map_some])
  refine ⟨?_, ?_⟩
  · have hs := (h.objects o ho).selector
    unfold selectorMatches at hs
    split at hs
    · rename_i hselector
      simp [hselector, pathOf]
    · rename_i path _ hselector
      split at hs
      · simp [hselector, pathOf, maxArrayEntries]
      · simp at hs
    · cases hs
  · simp only [AuthoringObject.validate, validateAnnotation, seq_ok, Annotation.require_ok] at hobject
    have := hobject.2.2.2.1
    simp only [maxDescriptionTargets] at this
    simp only [maxArrayEntries]
    omega

theorem record_bounded {r : ProvenanceRecord} (hr : SlimRecord maxArrayEntries r.plan r.bindings) :
    Bounded (ProvenanceRecord.codec.enc r) :=
  bounded_of_within ((within_provenance (by decide) (by decide) hr).mono (by decide) (by decide))

/-- What is hashed of a record is within the bounds as well. -/
theorem payload_bounded {r : ProvenanceRecord} (hr : SlimRecord maxArrayEntries r.plan r.bindings) :
    Bounded (.ofFields [("domain", .string provenanceDomain),
      ("payload", ProvenancePayload.codec.enc r.payload)]) := by
  have hpayload : Within maxArrayEntries maxObjectMembers 6 10021
      (ProvenancePayload.codec.enc r.payload) := within_payload (by decide) (by decide) hr
  have hfields : FieldsWithin maxArrayEntries maxObjectMembers 6 10023
      [("domain", .string provenanceDomain), ("payload", ProvenancePayload.codec.enc r.payload)] :=
    within_member (m := 0) (within_string _) (within_member hpayload (within_nil (m := 0)))
  have hwithin := within_ofFields hfields (by simp [maxObjectMembers]) (by simp)
  exact bounded_of_within (hwithin.mono (by decide) (by decide))

end Geometry
end OnshapeExport
