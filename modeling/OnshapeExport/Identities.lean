import OnshapeExport.Provenance

/-!
# Identities

The identities of the documents that are handed from the planner to the generator. Each is the
hash of a payload written by hand next to its document, and each payload has every field of it.

* `identities_cover` — documents that carry their identities are told apart by them.
-/

namespace OnshapeExport
namespace Identities

open Annotation CacheKey Checks Encoding OnshapeExport.Geometry Json OnshapeApi Protocol Selection

/-- Manifests, requests, plans and records that pass their checks are told apart by their
identities. -/
theorem identities_cover (digests : Digests) (sizes : Sizes) (ht : digests.text.Faithful)
    (hc : CollisionFree digests) :
    (∀ m m' : InputManifest, m.validate digests = .ok () → m'.validate digests = .ok () →
      m.manifestIdentity = m'.manifestIdentity → m = m') ∧
    (∀ r r' : GeneratorRequest, r.validate digests = .ok () → r'.validate digests = .ok () →
      r.invocationIdentity = r'.invocationIdentity → r = r') ∧
    (∀ p p' : ResolvedSelectionPlan, validateRetainedPlan digests sizes p = .ok () →
      validateRetainedPlan digests sizes p' = .ok () → p.planIdentity = p'.planIdentity →
      p = p') ∧
    (∀ r r' : ProvenanceRecord, SafeIntegers r → SafeIntegers r' →
      r.identity digests = .ok r.provenanceIdentity →
      r'.identity digests = .ok r'.provenanceIdentity →
      r.provenanceIdentity = r'.provenanceIdentity → r.Same r') := by
  refine ⟨?_, ?_, ?_, ?_⟩
  · intro m m' h h' he
    exact manifest_eq_of_identity ht hc h h' he
  · intro r r' h h' he
    exact request_eq_of_identity ht hc h h' he
  · intro p p' h h' he
    exact plan_eq_of_identity ht hc h h' he
  · intro r r' hs hs' h h' he
    exact record_eq_of_identity ht hc hs hs' h h' he

/-! ## Documents that pass -/

/-- A stand-in for SHA-256: the texts of a table have the hashes of the table. -/
@[irreducible] def tableHash (table : List (String × String)) (text : String) : String :=
  match get? table text with
  | some hash => hash
  | none => "x" ++ text

theorem tableHash_injective {table : List (String × String)}
    (hn : (table.map Prod.snd).Nodup) (hx : ∀ p ∈ table, p.2.toList.head? ≠ some 'x') :
    Function.Injective (tableHash table) := by
  have hhead (t : String) : ("x" ++ t).toList.head? = some 'x' := by simp
  intro s t h
  rw [tableHash, tableHash] at h
  split at h
  · rename_i hash hs
    have hs := mem_of_get? hs
    split at h
    · rename_i hash' ht
      have ht := mem_of_get? ht
      subst h
      exact congrArg Prod.fst (List.inj_on_of_nodup_map hn hs ht rfl)
    · exact absurd (h ▸ hhead t) (hx _ hs)
  · split at h
    · rename_i hash' ht
      exact absurd (h ▸ hhead s) (hx _ (mem_of_get? ht))
    · exact String.append_right_inj _ |>.mp h

def sampleId (c : Char) : String := String.ofList (List.replicate 64 c)

def sampleManifest : InputManifest where
  protocolVersion := 1
  manifestVersion := 1
  manifestIdentity := sampleId 'a'
  inputSetIdentity := none
  requirementsIdentity := "r"
  sourceIdentity := "s"
  configurationIdentity := "c"
  export_ := ⟨"k", "s", .grouped, .missing, none⟩
  decision := ⟨.unavailable, some "none"⟩
  objects := []

def sampleContent : FileContent := ⟨"i", "inputs/s", sampleId '0', 1, "a/b", "k"⟩

def sampleRequest : GeneratorRequest where
  protocolVersion := 1
  invocationIdentity := sampleId 'b'
  expectedIdentities := ⟨"p", "b", "b", "d", [], "k", "s", "t", "u", "p", "n", "v"⟩
  inputManifest := ⟨"inputs/m", sampleId '1', sampleId '2'⟩
  settings := ⟨"t", "u", sampleContent⟩
  output := ⟨"o", "outputs/o", "a/b", 1⟩

def sampleLeaf : ConfiguredLeaf := ⟨"d", "m", "e", "c", "p"⟩

def samplePlan : ResolvedSelectionPlan where
  root := ⟨"d", "v", "m", "e", .partStudio, "c"⟩
  authoringDocumentIdentity := sampleId 'd'
  objects := [⟨sampleId 'c', partSelector sampleLeaf, sampleLeaf, "n", ⟨.printable, none, []⟩,
    identityPlacement⟩]
  planIdentity := sampleId 'e'

def sampleRecord : ProvenanceRecord where
  provenanceSchemaVersion := 1
  requestContract := "c"
  configurationEncoding := ⟨"s", "c", "e", "i"⟩
  encodingContext := ⟨1, "o", 16, "h", "e", "POST", "p", "d", "v", "m", "e", "part_studio", none,
    "v", 2, 4⟩
  plan := ⟨⟨"d", "v", "m", "e", .partStudio, "c"⟩, "a", [], "p"⟩
  bindings := []
  provenanceIdentity := sampleId 'f'

/-- The payloads of these documents, with the domain and the hash of each. -/
def samples : List (String × Value × String) :=
  [("generator-input-manifest-v1", ManifestIdentityPayload.codec.enc sampleManifest.payload,
      sampleId 'a'),
   ("generator-invocation-v1", InvocationIdentityPayload.codec.enc sampleRequest.payload,
      sampleId 'b'),
   ("onshape-export-selection-plan-object-v1",
      ObjectIdentity.codec.enc ⟨partSelector sampleLeaf, sampleLeaf⟩, sampleId 'c'),
   ("onshape-export-authoring-document-v1",
      AuthoringDocument.codec.enc (authoringDocument samplePlan.objects), sampleId 'd'),
   (planDomain, PlanPayload.codec.enc samplePlan.payload, sampleId 'e'),
   (provenanceDomain, ProvenancePayload.codec.enc sampleRecord.payload, sampleId 'f')]

/-- The text that is hashed for a payload. -/
def hashed (domain : String) (payload : Value) : String :=
  canonicalText.print (.ofFields [("domain", .string domain), ("payload", payload)])

theorem read_hashed {domain : String} {payload : Value} (h : payload.Canonical) :
    canonicalText.read (hashed domain payload) =
      some (.ofFields [("domain", .string domain), ("payload", payload)]) := by
  rw [hashed]
  exact canonicalText_faithful _ (canonical_preimage h)

def sampleTable : List (String × String) := samples.map fun x => (hashed x.1 x.2.1, x.2.2)

def sampleDigests : Digests := ⟨canonicalText, tableHash sampleTable⟩

def sampleSizes : Sizes := ⟨fun _ => 0, fun _ => 0, fun _ => 0⟩

theorem sampleId_head (c : Char) : (sampleId c).toList.head? = some c := by
  simp [sampleId]

theorem sampleId_injective : Function.Injective sampleId := by
  intro c d h
  have := sampleId_head c
  rw [h, sampleId_head d] at this
  exact (Option.some.inj this).symm

theorem samples_hashes :
    samples.map (fun x => x.2.2) = ['a', 'b', 'c', 'd', 'e', 'f'].map sampleId := rfl

theorem sampleTable_injective : Function.Injective (tableHash sampleTable) := by
  have hmap : sampleTable.map Prod.snd = ['a', 'b', 'c', 'd', 'e', 'f'].map sampleId := by
    rw [sampleTable, List.map_map, ← samples_hashes]
    simp only [Function.comp_def]
  have hn : (sampleTable.map Prod.snd).Nodup := by
    rw [hmap]
    exact List.Nodup.map sampleId_injective (by decide)
  refine tableHash_injective hn ?_
  intro p hp
  have hp := List.mem_map_of_mem (f := Prod.snd) hp
  rw [hmap] at hp
  obtain ⟨c, hc, he⟩ := List.mem_map.mp hp
  rw [← he, sampleId_head]
  rintro ⟨rfl⟩
  exact absurd hc (by decide)

theorem sampleDigests_collisionFree : CollisionFree sampleDigests := by
  rw [CollisionFree, sampleDigests]
  exact sampleTable_injective

theorem samples_canonical : ∀ x ∈ samples, x.2.1.Canonical := by
  have hmanifest : InputManifest.codec.Fits sampleManifest := fits_inputManifest.mpr (by decide)
  have hrequest : GeneratorRequest.codec.Fits sampleRequest := fits_generatorRequest.mpr (by decide)
  intro x hx
  simp only [samples, List.mem_cons, List.not_mem_nil, or_false] at hx
  obtain rfl | rfl | rfl | rfl | rfl | rfl := hx
  · exact ManifestIdentityPayload.codec.canonical _ (Protocol.payload_fits hmanifest)
  · exact InvocationIdentityPayload.codec.canonical _ (invocationPayload_fits hrequest)
  · exact ObjectIdentity.codec.canonical _ (by simp [ObjectIdentity.codec])
  · exact AuthoringDocument.codec.canonical _ (by simp [AuthoringDocument.codec, authoringDocument])
  · exact PlanPayload.codec.canonical _ (planPayload_fits (by decide))
  · refine ProvenancePayload.codec.canonical _ (Geometry.payload_fits.mpr ?_)
    exact ⟨by decide, fits_context.mpr (by decide), fits_plan.mpr (by decide), by decide⟩

/-- The stand-in gives these documents their hashes. -/
theorem sample_hash {x : String × Value × String} (hx : x ∈ samples) :
    hashJson sampleDigests x.1 x.2.1 = x.2.2 := by
  have hdomains : (samples.map Prod.fst).Nodup := by
    have : samples.map Prod.fst = ["generator-input-manifest-v1", "generator-invocation-v1",
        "onshape-export-selection-plan-object-v1", "onshape-export-authoring-document-v1",
        "onshape-export-selection-plan-v1", "onshape-export-acquisition-provenance-v1"] := rfl
    rw [this]
    decide
  have hkeys : (keys sampleTable).Nodup := by
    rw [sampleTable, keys, List.map_map]
    refine (List.nodup_map_iff_inj_on hdomains.of_map).mpr fun y hy z hz he => ?_
    have hv := canonicalText_faithful.print_inj (canonical_preimage (samples_canonical y hy))
      (canonical_preimage (samples_canonical z hz)) he
    have hd := Value.get?_of_ofFields_eq (by simp) (by simp) hv "domain"
    have hd : y.1 = z.1 := by simpa [get?, List.lookup_cons, List.lookup_nil] using hd
    exact List.inj_on_of_nodup_map hdomains hy hz hd
  have hmem : (hashed x.1 x.2.1, x.2.2) ∈ sampleTable := List.mem_map_of_mem hx
  have hget := get?_of_mem hkeys hmem
  show tableHash sampleTable (hashed x.1 x.2.1) = x.2.2
  rw [tableHash, hget]

theorem sampleManifest_valid : sampleManifest.validate sampleDigests = .ok () := by
  have hash : sampleManifest.computedManifestIdentity sampleDigests = sampleId 'a' :=
    sample_hash (x := (_, _, _)) (List.getElem_mem (n := 0) (by decide))
  simp only [InputManifest.validate, seq_ok, Protocol.require_ok]
  refine ⟨?_, ?_, ?_, ?_, ?_, ?_, ?_, ?_, ?_, ?_, ?_, ?_, ?_, ?_, ?_, hash.symm⟩ <;> decide +kernel

theorem sampleRequest_valid : sampleRequest.validate sampleDigests = .ok () := by
  have hash : sampleRequest.computedInvocationIdentity sampleDigests = sampleId 'b' :=
    sample_hash (x := (_, _, _)) (List.getElem_mem (n := 1) (by decide))
  simp only [GeneratorRequest.validate, seq_ok, Protocol.require_ok]
  refine ⟨?_, ?_, ?_, ?_, ?_, ?_, ?_, ?_, ?_, ?_, ?_, ?_, ?_, ?_, ?_, ?_, ?_, ?_, ?_,
    hash.symm⟩ <;> decide +kernel

theorem samplePlan_valid : validateRetainedPlan sampleDigests sampleSizes samplePlan = .ok () := by
  have object : objectIdentity sampleDigests (partSelector sampleLeaf) sampleLeaf = sampleId 'c' :=
    sample_hash (x := (_, _, _)) (List.getElem_mem (n := 2) (by decide))
  have authoring : hashJson sampleDigests "onshape-export-authoring-document-v1"
      (AuthoringDocument.codec.enc (authoringDocument samplePlan.objects)) = sampleId 'd' :=
    sample_hash (x := (_, _, _)) (List.getElem_mem (n := 3) (by decide))
  have plan : hashJson sampleDigests planDomain (PlanPayload.codec.enc samplePlan.payload) =
      sampleId 'e' := sample_hash (x := (_, _, _)) (List.getElem_mem (n := 4) (by decide))
  have size : (hashed planDomain (PlanPayload.codec.enc samplePlan.payload)).utf8ByteSize ≤
      maxPlanBytes := (canonicalText_size _).trans (by decide +kernel)
  have document : validateAuthoringDocument sampleSizes (authoringDocument samplePlan.objects) =
      .ok () := by decide +kernel
  refine (retainedPlan_ok _ _).mpr ⟨by decide, by decide, by decide +kernel, by decide +kernel,
    by decide +kernel, ?_, by decide +kernel, by decide +kernel, ?_, ?_⟩
  · intro o ho
    obtain rfl := List.mem_singleton.mp ho
    exact ⟨by decide +kernel, rfl, rfl, by decide +kernel, by decide +kernel, by decide +kernel,
      by decide +kernel, by decide +kernel, object⟩
  · rw [authoringDocumentIdentity, document, authoring]
    rfl
  · simp only [computedPlanIdentity]
    exact (if_pos size).trans (congrArg some plan)

theorem sampleRecord_identity :
    sampleRecord.identity sampleDigests = .ok sampleRecord.provenanceIdentity := by
  have hash : hashJson sampleDigests provenanceDomain
      (ProvenancePayload.codec.enc sampleRecord.payload) = sampleId 'f' :=
    sample_hash (x := (_, _, _)) (List.getElem_mem (n := 5) (by decide))
  have size : (hashed provenanceDomain
      (ProvenancePayload.codec.enc sampleRecord.payload)).utf8ByteSize ≤ recordLimit :=
    (canonicalText_size _).trans (by decide +kernel)
  have canonical := samples_canonical (_, _, _) (List.getElem_mem (n := 5) (by decide))
  have parsed := parseJson_ok.mpr ⟨size, read_hashed canonical, by decide +kernel⟩
  have bounded := boundedCanonical_of_parsed sampleDigests size parsed
  rw [ProvenanceRecord.identity, bounded]
  exact congrArg Except.ok hash

/-- One document of each kind passes, and no other of its kind has its identity. -/
theorem identities_cover_sample :
    (sampleManifest.validate sampleDigests = .ok () ∧
      ∀ m : InputManifest, m.validate sampleDigests = .ok () →
        m.manifestIdentity = sampleManifest.manifestIdentity → m = sampleManifest) ∧
    (sampleRequest.validate sampleDigests = .ok () ∧
      ∀ r : GeneratorRequest, r.validate sampleDigests = .ok () →
        r.invocationIdentity = sampleRequest.invocationIdentity → r = sampleRequest) ∧
    (validateRetainedPlan sampleDigests sampleSizes samplePlan = .ok () ∧
      ∀ p : ResolvedSelectionPlan, validateRetainedPlan sampleDigests sampleSizes p = .ok () →
        p.planIdentity = samplePlan.planIdentity → p = samplePlan) ∧
    (sampleRecord.identity sampleDigests = .ok sampleRecord.provenanceIdentity ∧
      ∀ r : ProvenanceRecord, SafeIntegers r →
        r.identity sampleDigests = .ok r.provenanceIdentity →
        r.provenanceIdentity = sampleRecord.provenanceIdentity → r.Same sampleRecord) := by
  obtain ⟨hm, hr, hp, hrec⟩ := identities_cover sampleDigests sampleSizes canonicalText_faithful
    sampleDigests_collisionFree
  have safe : SafeIntegers sampleRecord := ⟨by decide, fits_context.mpr (by decide), by decide⟩
  refine ⟨⟨sampleManifest_valid, fun m h he => ?_⟩, ⟨sampleRequest_valid, fun r h he => ?_⟩,
    ⟨samplePlan_valid, fun p h he => ?_⟩, ⟨sampleRecord_identity, fun r hs h he => ?_⟩⟩
  · exact hm m sampleManifest h sampleManifest_valid he
  · exact hr r sampleRequest h sampleRequest_valid he
  · exact hp p samplePlan h samplePlan_valid he
  · exact hrec r sampleRecord hs safe h sampleRecord_identity he

end Identities
end OnshapeExport
