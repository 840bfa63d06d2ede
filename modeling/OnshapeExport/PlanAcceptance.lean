import Mathlib.Data.List.ReduceOption
import OnshapeExport.SelectionResolution

/-!
# PlanAcceptance

Every plan the planner builds passes the check of a plan that was kept. The resolver of either
kind of element hands `constructPlan` candidates that are sound for their root, and a plan of sound
candidates satisfies every condition of the check.

* `resolvePartStudio_sound`, `resolveAssembly_sound` — what the resolvers hand over.
* `constructPlan_retained` — a plan of sound candidates is accepted.
* `planned_accepted` — the two together.
-/

namespace OnshapeExport
namespace Selection

open Annotation CacheKey Checks Json OnshapeApi

/-! ## Matrices -/

theorem value_normalized (s : Scalar) : (if s.value = 0 then Scalar.rat 0 else s).value = s.value := by
  split
  · rename_i h
    exact h.symm
  · rfl

theorem values_normalizeMatrix (m : PlacementMatrix) :
    (normalizeMatrix m).1.map Scalar.value = (m.1.take 12).map Scalar.value ++ [0, 0, 0, 1] := by
  simp only [normalizeMatrix, List.map_map, Function.comp_def, value_normalized, List.map_append]
  rfl

theorem entry_eq (m : PlacementMatrix) (k : Nat) :
    entry m k = (m.1.map Scalar.value).getD k 0 := by
  simp only [entry, List.getD_eq_getElem?_getD, List.getElem?_map]
  cases m.1[k]? <;> rfl

theorem entry_normalize {m : PlacementMatrix} {k : Nat} (hk : k < 12) :
    entry (normalizeMatrix m) k = entry m k := by
  have hl : k < ((m.1.take 12).map Scalar.value).length := by simp [m.2, hk]
  rw [entry_eq, entry_eq, values_normalizeMatrix, List.getD_eq_getElem?_getD,
    List.getD_eq_getElem?_getD, List.getElem?_append_left hl]
  simp [hk]

theorem lastRow_normalize (m : PlacementMatrix) :
    (lastRow (normalizeMatrix m)).map Scalar.value = [0, 0, 0, 1] := by
  rw [lastRow, List.map_drop, values_normalizeMatrix, List.drop_append_of_le_length (by simp [m.2])]
  simp

theorem zeros_normalize (m : PlacementMatrix) : ∀ s ∈ (normalizeMatrix m).1, s ≠ .negZero := by
  intro s hs
  obtain ⟨t, -, rfl⟩ := List.mem_map.mp hs
  split
  · simp
  · rintro rfl
    rename_i h
    exact h rfl

theorem near_self (a : ℚ) : near a a = true := by
  have h : (0 : ℚ) ≤ epsilon := by decide +kernel
  simpa [near] using h

/-- Setting the last row of a rigid matrix keeps it rigid: neither the products of its columns nor
its determinant reads that row. -/
theorem properRigid_normalize {m : PlacementMatrix} (h : properRigid m = true) :
    properRigid (normalizeMatrix m) = true := by
  have hdot (i j : Nat) (hi : i < 3) (hj : j < 3) : dot (normalizeMatrix m) i j = dot m i j := by
    simp only [dot]
    rw [entry_normalize (by omega), entry_normalize (by omega), entry_normalize (by omega),
      entry_normalize (by omega), entry_normalize (by omega), entry_normalize (by omega)]
  have hdet : determinant (normalizeMatrix m) = determinant m := by
    simp only [determinant, entry_normalize (show 0 < 12 by omega),
      entry_normalize (show 1 < 12 by omega), entry_normalize (show 2 < 12 by omega),
      entry_normalize (show 4 < 12 by omega), entry_normalize (show 5 < 12 by omega),
      entry_normalize (show 6 < 12 by omega), entry_normalize (show 8 < 12 by omega),
      entry_normalize (show 9 < 12 by omega), entry_normalize (show 10 < 12 by omega)]
  have hlast (k : Nat) (hk : k < 4) :
      entry (normalizeMatrix m) (12 + k) = if k = 3 then 1 else 0 := by
    have hlen : ((m.1.take 12).map Scalar.value).length = 12 := by simp [m.2]
    rw [entry_eq, values_normalizeMatrix, List.getD_eq_getElem?_getD,
      List.getElem?_append_right (by omega), hlen, Nat.add_sub_cancel_left]
    obtain rfl | rfl | rfl | rfl : k = 0 ∨ k = 1 ∨ k = 2 ∨ k = 3 := by omega
    all_goals rfl
  simp only [properRigid, Bool.and_eq_true, List.all_eq_true, List.mem_range] at h ⊢
  refine ⟨⟨fun k hk => ?_, fun i hi j hj => ?_⟩, ?_⟩
  · rw [hlast k hk]
    exact near_self _
  · rw [hdot i j hi hj]
    exact h.1.2 i hi j hj
  · rw [hdet]
    exact h.2

/-! ## Sound candidates -/

section Plan

variable {digests : Digests} {sizes : Sizes}

/-- What the check of a plan asks of a candidate. -/
structure Sound (digests : Digests) (root : SelectionRoot) (c : Candidate) : Prop where
  leaf : leafBounded c.leaf = true
  document : c.leaf.documentId = root.documentId
  microversion : c.leaf.documentMicroversion = root.documentMicroversion
  rigid : properRigid (normalizeMatrix c.matrix) = true
  selector : ∀ authored, selectorMatches root (planObject digests c authored) = true

/-- The hashes of SHA-256 are lowercase hexadecimal. -/
def Hexadecimal (digests : Digests) : Prop := ∀ text, isSha256 (digests.sha256 text) = true

/-- The texts that are hashed for the objects of a plan. -/
def objectText (digests : Digests) (o : ResolvedSelectionObject) : String :=
  canonicalJson digests (.ofFields [("domain", .string "onshape-export-selection-plan-object-v1"),
    ("payload", ObjectIdentity.codec.enc ⟨o.selector, o.configuredLeaf⟩)])

/-- No two of the texts that are hashed for the objects of a plan have one hash. -/
def CollisionFreeOn (digests : Digests) (objects : List ResolvedSelectionObject) : Prop :=
  ∀ o ∈ objects, ∀ o' ∈ objects,
    digests.sha256 (objectText digests o) = digests.sha256 (objectText digests o') →
      objectText digests o = objectText digests o'

theorem selector_eq_of_text {o o' : ResolvedSelectionObject} (ht : digests.text.Faithful)
    (h : objectText digests o = objectText digests o') : o.selector = o'.selector := by
  have hf (i : ObjectIdentity) : ObjectIdentity.codec.Fits i := by simp [ObjectIdentity.codec]
  have hc (i : ObjectIdentity) := ObjectIdentity.codec.canonical i (hf i)
  have hv := ht.print_inj (canonical_preimage (hc _)) (canonical_preimage (hc _)) h
  have hp := Value.get?_of_ofFields_eq (by simp) (by simp) hv "payload"
  have he : ObjectIdentity.codec.enc ⟨o.selector, o.configuredLeaf⟩ =
      ObjectIdentity.codec.enc ⟨o'.selector, o'.configuredLeaf⟩ := by
    simpa [get?, List.lookup_cons, List.lookup_nil] using hp
  exact congrArg ObjectIdentity.selector (ObjectIdentity.codec.enc_inj (hf _) (hf _) he)

/-- Objects with distinct selectors have distinct identities. -/
theorem identities_nodup {objects : List ResolvedSelectionObject} (ht : digests.text.Faithful)
    (hc : CollisionFreeOn digests objects)
    (hi : ∀ o ∈ objects, objectIdentity digests o.selector o.configuredLeaf =
      o.planLocalObjectIdentity)
    (hn : (objects.map ResolvedSelectionObject.selector).Nodup) :
    (objects.map ResolvedSelectionObject.planLocalObjectIdentity).Nodup := by
  refine (List.nodup_map_iff_inj_on hn.of_map).mpr fun o ho o' ho' he => ?_
  rw [← hi o ho, ← hi o' ho'] at he
  exact List.inj_on_of_nodup_map hn ho ho' (selector_eq_of_text ht (hc o ho o' ho' he))

/-! ## Plans of sound candidates -/

/-- The objects of a plan next to the candidates and the authored objects they are made of. -/
structure Built (digests : Digests) (sizes : Sizes) (root : SelectionRoot)
    (candidates : List Candidate) (authored : List AuthoringObject)
    (plan : ResolvedSelectionPlan) : Prop where
  length : authored.length = candidates.length
  selectors : ∀ (i : Nat) (c : Candidate), candidates[i]? = some c →
    (authored[i]?).map AuthoringObject.selector = some c.selector
  root : plan.root = root
  objects : plan.objects = List.zipWith (planObject digests) candidates authored
  context : validateAuthoringContext digests sizes ⟨1, authored⟩
    (candidateContext digests candidates) = .ok ()
  authoring : authoringDocumentIdentity digests sizes ⟨1, authored⟩ =
    .ok plan.authoringDocumentIdentity
  identity : computedPlanIdentity digests plan.payload = some plan.planIdentity

theorem constructPlan_built {root : SelectionRoot} {candidates : List Candidate}
    {plan : ResolvedSelectionPlan} (h : constructPlan digests sizes root candidates = .ok plan) :
    ∃ authored, Built digests sizes root candidates authored plan := by
  obtain ⟨authored, hauthored, h⟩ := bind_ok.mp h
  obtain ⟨-, h⟩ := seq_ok.mp h
  obtain ⟨hcontext, h⟩ := seq_ok.mp h
  obtain ⟨authoringIdentity, hidentity, h⟩ := bind_ok.mp h
  rw [mapError_ok] at hcontext hidentity
  simp only at h
  split at h
  · cases h
  · rename_i planIdentity hplan
    cases h
    have hlength := traverse_length hauthored
    refine ⟨authored, hlength, fun i c hc => ?_, rfl, rfl, hcontext, hidentity, hplan⟩
    have hi : i < authored.length := by
      rw [hlength]
      exact (List.getElem?_eq_some_iff.mp hc).1
    obtain ⟨c', hc', hn⟩ := traverse_getElem? hauthored (List.getElem?_eq_getElem hi)
    rw [hc] at hc'
    obtain rfl := Option.some.inj hc'
    rw [List.getElem?_eq_getElem hi]
    exact congrArg some (normalizeAuthoringObject_ok (mapError_ok.mp hn)).1

theorem constructPlan_of {root : SelectionRoot} {candidates : List Candidate}
    {authored : List AuthoringObject} {authoringIdentity planIdentity : String}
    (hauthored : authorCandidates digests candidates = .ok authored)
    (hcontext : validateAuthoringContext digests sizes ⟨1, authored⟩
      (candidateContext digests candidates) = .ok ())
    (hidentity : authoringDocumentIdentity digests sizes ⟨1, authored⟩ = .ok authoringIdentity)
    (hplan : computedPlanIdentity digests
      ⟨root, authoringIdentity, List.zipWith (planObject digests) candidates authored⟩ =
        some planIdentity) :
    constructPlan digests sizes root candidates = .ok ⟨root, authoringIdentity,
      List.zipWith (planObject digests) candidates authored, planIdentity⟩ := by
  obtain ⟨hdocument, -⟩ := seq_ok.mp hidentity
  refine bind_ok.mpr ⟨authored, hauthored, seq_ok.mpr ⟨mapError_ok.mpr hdocument, ?_⟩⟩
  refine seq_ok.mpr ⟨mapError_ok.mpr hcontext, bind_ok.mpr ⟨_, mapError_ok.mpr hidentity, ?_⟩⟩
  simp only [hplan]
  rfl

/-- An object of the plan comes from the candidate and the authored object at its position. -/
theorem Built.object {root : SelectionRoot} {candidates : List Candidate}
    {authored : List AuthoringObject} {plan : ResolvedSelectionPlan}
    (hb : Built digests sizes root candidates authored plan) {o : ResolvedSelectionObject}
    (ho : o ∈ plan.objects) : ∃ c ∈ candidates, ∃ a, o = planObject digests c a := by
  rw [hb.objects, ← List.map_uncurry_zip_eq_zipWith] at ho
  obtain ⟨⟨c, a⟩, hmem, rfl⟩ := List.mem_map.mp ho
  exact ⟨c, (List.of_mem_zip hmem).1, a, rfl⟩

/-- The authoring document of the plan is the one its candidates were authored to. -/
theorem Built.authoringDocument {root : SelectionRoot} {candidates : List Candidate}
    {authored : List AuthoringObject} {plan : ResolvedSelectionPlan}
    (hb : Built digests sizes root candidates authored plan) :
    authoringDocument plan.objects = ⟨1, authored⟩ := by
  have hobjects : (plan.objects.map fun o => (⟨o.selector, o.displayName, o.annotation⟩ :
      AuthoringObject)) = authored := by
    rw [hb.objects]
    refine List.ext_getElem? fun i => ?_
    rw [List.getElem?_map, List.getElem?_zipWith]
    cases hc : candidates[i]? with
    | none =>
      have : authored[i]? = none := by
        rw [List.getElem?_eq_none_iff] at hc ⊢
        rw [hb.length]
        exact hc
      simp [this]
    | some c =>
      have hs := hb.selectors i c hc
      cases ha : authored[i]? with
      | none => simp [ha] at hs
      | some a =>
        rw [ha, Option.map_some, Option.some.injEq] at hs
        simp [planObject, ← hs]
  simp only [Selection.authoringDocument, hobjects]

theorem Built.leaves {root : SelectionRoot} {candidates : List Candidate}
    {authored : List AuthoringObject} {plan : ResolvedSelectionPlan}
    (hb : Built digests sizes root candidates authored plan) :
    (plan.objects.map fun o => (o.selector, o.configuredLeaf)) =
      candidates.map fun c => (c.selector, c.leaf) := by
  have hz (cs : List Candidate) (as : List AuthoringObject) (hl : as.length = cs.length) :
      ((List.zipWith (planObject digests) cs as).map fun o => (o.selector, o.configuredLeaf)) =
        cs.map fun c => (c.selector, c.leaf) := by
    induction cs generalizing as with
    | nil => simp
    | cons c cs ih =>
      cases as with
      | nil => simp at hl
      | cons a as =>
        simp only [List.length_cons, Nat.add_right_cancel_iff] at hl
        simp [ih as hl, planObject]
  rw [hb.objects]
  exact hz candidates authored hb.length

theorem hex_hash (hx : Hexadecimal digests) (domain : String) (v : Value) :
    isSha256 (hashJson digests domain v) = true := hx _

theorem Sound.retained {root : SelectionRoot} {c : Candidate} (hx : Hexadecimal digests)
    (hs : Sound digests root c) (a : AuthoringObject) :
    RetainedObject digests root (planObject digests c a) :=
  ⟨hs.leaf, hs.document, hs.microversion, hex_hash hx _ _, hs.rigid, lastRow_normalize _,
    zeros_normalize _, hs.selector a, rfl⟩

/-- A plan of sound candidates is accepted. -/
theorem constructPlan_retained {root : SelectionRoot} {candidates : List Candidate}
    {plan : ResolvedSelectionPlan} (ht : digests.text.Faithful) (hx : Hexadecimal digests)
    (hroot : rootBounded root = true) (hne : 1 ≤ candidates.length)
    (hcount : candidates.length ≤ maxSelectors)
    (hs : ∀ c ∈ candidates, Sound digests root c)
    (h : constructPlan digests sizes root candidates = .ok plan)
    (hc : CollisionFreeOn digests plan.objects) :
    validateRetainedPlan digests sizes plan = .ok () := by
  obtain ⟨authored, hb⟩ := constructPlan_built h
  have hlength : plan.objects.length = candidates.length := by
    rw [hb.objects, List.length_zipWith, hb.length, Nat.min_self]
  have hobjects : ∀ o ∈ plan.objects, RetainedObject digests plan.root o := by
    intro o ho
    obtain ⟨c, hmem, a, rfl⟩ := hb.object ho
    rw [hb.root]
    exact (hs c hmem).retained hx a
  have hplan : isSha256 plan.planIdentity = true := by
    have hi := hb.identity
    simp only [computedPlanIdentity] at hi
    split at hi
    · rw [← Option.some.inj hi]
      exact hx _
    · cases hi
  have hvalid : validateAuthoringDocument sizes ⟨1, authored⟩ = .ok () := by
    obtain ⟨hv, -⟩ := seq_ok.mp hb.authoring
    exact hv
  have hauthoring : isSha256 plan.authoringDocumentIdentity = true := by
    obtain ⟨-, hi⟩ := seq_ok.mp hb.authoring
    rw [← Except.ok.inj hi]
    exact hex_hash hx _ _
  have hselectors : (plan.objects.map ResolvedSelectionObject.selector).Nodup := by
    obtain ⟨-, -, -, hn⟩ := authoringDocument_ok sizes hvalid
    rw [← hb.authoringDocument] at hn
    simpa [authoringDocument, Function.comp_def] using hn
  refine (retainedPlan_ok digests sizes).mpr ⟨by omega, by omega, hb.root ▸ hroot, hplan,
    hauthoring, hobjects, ?_, ?_, ?_, hb.identity⟩
  · exact identities_nodup ht hc (fun o ho => (hobjects o ho).identity) hselectors
  · rw [hb.authoringDocument, hb.leaves]
    exact hb.context
  · rw [hb.authoringDocument]
    exact hb.authoring

/-! ## What the resolvers hand over -/

theorem sourceString_ok {obj : Members} {key value : String} (h : sourceString obj key = .ok value) :
    boundedVisibleAscii value = true := by
  obtain ⟨v, -, h⟩ := bind_ok.mp h
  obtain ⟨hb, h⟩ := seq_ok.mp h
  cases h
  exact ensure_ok.mp hb

theorem gate_ok {states : List Bool} : gate states = .ok () ↔ ∀ s ∈ states, s = true := by
  unfold gate
  split
  · rename_i p hp
    simp only [reduceCtorEq, false_iff]
    intro h
    obtain ⟨hlt, hfalse, -⟩ := List.findIdx?_eq_some_iff_getElem.mp hp
    have := h _ (List.getElem_mem hlt)
    simp [this] at hfalse
  · rename_i hp
    simp only [List.findIdx?_eq_none_iff] at hp
    simpa using hp

/-- A resolution is sound when its root is bounded, it has a candidate for every selector, and each
candidate is sound. -/
structure Resolves (digests : Digests) (request : SelectionRequest) (root : SelectionRoot)
    (candidates : List Candidate) : Prop where
  bounded : rootBounded root = true
  length : candidates.length = request.selectors.length
  sound : ∀ c ∈ candidates, Sound digests root c

/-- A selector of a request has the kind of the request's element. -/
theorem kind_of_selector {request : SelectionRequest} (hp : request.preflight = .ok ())
    {s : SelectionSelector} (hs : s ∈ request.selectors) :
    (∃ partId, s = .part partId ∧ request.elementKind = .partStudio ∧
        boundedVisibleAscii partId = true) ∨
      ∃ instance_, s = .occurrence [instance_] ∧ request.elementKind = .assembly ∧
        boundedVisibleAscii instance_ = true := by
  obtain ⟨-, -, -, -, -, -, hvalid, -⟩ := preflight_ok hp
  have h := hvalid s hs
  unfold validSelector at h
  split at h
  · rename_i kind partId hk
    exact .inl ⟨partId, rfl, hk, h⟩
  · rename_i kind instance_ hk
    exact .inr ⟨instance_, rfl, hk, h⟩
  · cases h

theorem resolvePartStudio_sound {request : SelectionRequest} {mid : String} {response : Value}
    {root : SelectionRoot} {candidates : List Candidate} (hp : request.preflight = .ok ())
    (hmid : boundedVisibleAscii mid = true)
    (h : resolvePartStudio request mid response = .ok (root, candidates)) :
    Resolves digests request root candidates := by
  obtain ⟨hdoc, hver, helem, -, hlo, -, -, -⟩ := preflight_ok hp
  obtain ⟨rows, -, h⟩ := bind_ok.mp h
  obtain ⟨index, -, h⟩ := bind_ok.mp h
  obtain ⟨selected, hselected, h⟩ := bind_ok.mp h
  obtain ⟨identities, hidentities, h⟩ := bind_ok.mp h
  obtain ⟨hsame, h⟩ := seq_ok.mp h
  obtain ⟨states, -, h⟩ := bind_ok.mp h
  obtain ⟨-, h⟩ := seq_ok.mp h
  obtain ⟨made, hmade, h⟩ := bind_ok.mp h
  cases h
  have hlen : selected.length = request.selectors.length := traverse_length hselected
  have hlen' : identities.length = selected.length := traverse_length hidentities
  have hbounded : ∀ c ∈ identities, boundedVisibleAscii c = true := by
    intro c hc
    obtain ⟨i, obj, -, hf⟩ := traverse_mem hidentities hc
    obtain ⟨e, -, hf⟩ := bind_ok.mp hf
    obtain ⟨m, -, hf⟩ := bind_ok.mp hf
    obtain ⟨c', hc', hf⟩ := bind_ok.mp hf
    obtain ⟨-, hf⟩ := seq_ok.mp hf
    cases hf
    exact sourceString_ok (mapError_ok.mp hc')
  have hhead : identities.headD "" ∈ identities := by
    cases identities with
    | nil =>
      simp only [List.length_nil] at hlen'
      omega
    | cons c cs => simp
  -- the first selector decides the kind of the element
  have hkind : request.elementKind = .partStudio := by
    have hpos : 0 < selected.length := by omega
    obtain ⟨s, hs, hf⟩ := traverse_getElem? hselected (List.getElem?_eq_getElem hpos)
    obtain ⟨partId, -, hk, -⟩ | ⟨instance_, rfl, -, -⟩ :=
      kind_of_selector hp (List.mem_of_getElem? hs)
    · exact hk
    · cases hf
  refine ⟨?_, ?_, fun c hc => ?_⟩
  · simp only [rootBounded, Selection.root, List.all_cons, List.all_nil, hdoc, hver, hmid, helem,
      hbounded _ hhead, Bool.and_self]
  · rw [traverse_length hmade, List.length_zip]
    omega
  · obtain ⟨i, ⟨obj, configuration⟩, hmem, hf⟩ := traverse_mem hmade hc
    obtain ⟨name, -, hf⟩ := bind_ok.mp hf
    obtain ⟨description, -, hf⟩ := bind_ok.mp hf
    obtain ⟨partId, hpart, hf⟩ := bind_ok.mp hf
    cases hf
    have hconf := (List.of_mem_zip hmem).2
    have heq := ensure_ok.mp hsame configuration hconf
    have hpart := sourceString_ok hpart
    refine ⟨?_, rfl, rfl, properRigid_normalize (m := identityPlacement) (by decide +kernel),
      fun authored => ?_⟩
    · simp [leafBounded, hdoc, hmid, helem, hpart, hbounded configuration hconf]
    · have hmatrix : sameMatrix (normalizeMatrix identityPlacement) identityPlacement = true := by
        decide +kernel
      simp only [selectorMatches, planObject, Selection.root, hkind, partSelector, ← heq, hmatrix,
        decide_true, Bool.and_self]

theorem projectedLeaf_ok {obj : Members} {leaf : ConfiguredLeaf}
    (h : projectedLeaf obj = .ok leaf) : leafBounded leaf = true := by
  obtain ⟨documentId, hd, h⟩ := bind_ok.mp h
  obtain ⟨microversion, hm, h⟩ := bind_ok.mp h
  obtain ⟨elementId, he, h⟩ := bind_ok.mp h
  obtain ⟨configuration, hc, h⟩ := bind_ok.mp h
  obtain ⟨partId, hp, h⟩ := bind_ok.mp h
  cases h
  simp [leafBounded, sourceString_ok hd, sourceString_ok hm, sourceString_ok he,
    sourceString_ok hc, sourceString_ok hp]

theorem joinSelected_length {request : SelectionRequest} {instances : List (String × Members)}
    {occurrences : List (List String × Members)} {selected : List (Members × Members)}
    (h : joinSelected request instances occurrences = .ok selected) :
    selected.length = request.selectors.length := by
  obtain ⟨found, hfound, h⟩ := bind_ok.mp h
  obtain ⟨hgate, h⟩ := seq_ok.mp h
  cases h
  rw [← traverse_length hfound, List.reduceOption_length_eq_iff]
  intro o ho
  exact gate_ok.mp hgate _ (List.mem_map_of_mem ho)

/-- The projected leaves lie in the assembly's document, and the matrices are rigid. -/
theorem projectSelected_ok {d m : String} {selected : List (Members × Members)}
    {leaves : List ConfiguredLeaf} {matrices : List PlacementMatrix}
    (h : projectSelected d m selected = .ok (leaves, matrices)) :
    leaves.length = selected.length ∧ matrices.length = selected.length ∧
      (∀ l ∈ leaves, leafBounded l = true ∧ l.documentId = d ∧ l.documentMicroversion = m) ∧
      ∀ matrix ∈ matrices, properRigid matrix = true := by
  obtain ⟨deleted, -, h⟩ := bind_ok.mp h
  obtain ⟨-, h⟩ := seq_ok.mp h
  obtain ⟨types, -, h⟩ := bind_ok.mp h
  obtain ⟨-, h⟩ := seq_ok.mp h
  obtain ⟨suppressed, -, h⟩ := bind_ok.mp h
  obtain ⟨-, h⟩ := seq_ok.mp h
  obtain ⟨hidden, -, h⟩ := bind_ok.mp h
  obtain ⟨-, h⟩ := seq_ok.mp h
  obtain ⟨projected, hleaves, h⟩ := bind_ok.mp h
  obtain ⟨hdocument, h⟩ := seq_ok.mp h
  obtain ⟨transforms, hmatrices, h⟩ := bind_ok.mp h
  obtain ⟨hrigid, h⟩ := seq_ok.mp h
  cases h
  refine ⟨traverse_length hleaves, traverse_length hmatrices, fun l hl => ?_, fun matrix hm => ?_⟩
  · obtain ⟨i, obj, -, hf⟩ := traverse_mem hleaves hl
    have hsame := gate_ok.mp hdocument _ (List.mem_map_of_mem hl)
    simp only [Bool.and_eq_true, decide_eq_true_eq] at hsame
    exact ⟨projectedLeaf_ok (mapError_ok.mp hf), hsame⟩
  · exact gate_ok.mp hrigid _ (List.mem_map_of_mem hm)

theorem resolveAssembly_sound {request : SelectionRequest} {mid : String} {response : Value}
    {assembly : AssemblyResolution} (hp : request.preflight = .ok ())
    (hmid : boundedVisibleAscii mid = true)
    (h : resolveAssembly request mid response = .ok assembly) :
    Resolves digests request assembly.root assembly.candidates := by
  obtain ⟨hdoc, hver, helem, -, hlo, -, -, -⟩ := preflight_ok hp
  obtain ⟨envelope, -, h⟩ := bind_ok.mp h
  obtain ⟨row, -, h⟩ := bind_ok.mp h
  obtain ⟨d, hd, h⟩ := bind_ok.mp h
  obtain ⟨m, hm, h⟩ := bind_ok.mp h
  obtain ⟨e, he, h⟩ := bind_ok.mp h
  obtain ⟨configuration, hconf, h⟩ := bind_ok.mp h
  obtain ⟨instances, -, h⟩ := bind_ok.mp h
  obtain ⟨occurrences, -, h⟩ := bind_ok.mp h
  obtain ⟨-, -, h⟩ := bind_ok.mp h
  obtain ⟨-, -, h⟩ := bind_ok.mp h
  obtain ⟨parts, -, h⟩ := bind_ok.mp h
  obtain ⟨hrequest, h⟩ := seq_ok.mp h
  obtain ⟨rfl, rfl, rfl⟩ := ensure_ok.mp hrequest
  obtain ⟨instanceIndex, -, h⟩ := bind_ok.mp h
  obtain ⟨occurrenceIndex, -, h⟩ := bind_ok.mp h
  obtain ⟨exclusions, -, h⟩ := bind_ok.mp h
  obtain ⟨selected, hselected, h⟩ := bind_ok.mp h
  obtain ⟨paths, hpaths, h⟩ := bind_ok.mp h
  obtain ⟨-, h⟩ := seq_ok.mp h
  obtain ⟨⟨leaves, matrices⟩, hprojected, h⟩ := bind_ok.mp h
  obtain ⟨-, h⟩ := seq_ok.mp h
  cases h
  have hlen := joinSelected_length hselected
  have hpathsLen : paths.length = request.selectors.length := traverse_length hpaths
  obtain ⟨hleavesLen, hmatricesLen, hleaves, hmatrices⟩ := projectSelected_ok hprojected
  -- every selector is an occurrence, so the element is an assembly
  have hpath : ∀ path ∈ paths, ∃ instance_, path = [instance_] ∧
      request.elementKind = .assembly ∧ boundedVisibleAscii instance_ = true := by
    intro path hmem
    obtain ⟨i, s, hs, hf⟩ := traverse_mem hpaths hmem
    obtain ⟨partId, rfl, -, -⟩ | ⟨instance_, rfl, hk, hb⟩ := kind_of_selector hp hs
    · cases hf
    · cases hf
      exact ⟨instance_, rfl, hk, hb⟩
  refine ⟨?_, ?_, fun c hc => ?_⟩
  · simp [rootBounded, Selection.root, hdoc, hver, hmid, helem, sourceString_ok hconf]
  · rw [List.length_map, List.length_zip, List.length_zip]
    omega
  · obtain ⟨⟨path, leaf, matrix⟩, hmem, rfl⟩ := List.mem_map.mp hc
    obtain ⟨hmemPath, hmem⟩ := List.of_mem_zip hmem
    obtain ⟨hmemLeaf, hmemMatrix⟩ := List.of_mem_zip hmem
    obtain ⟨hleaf, hleafDocument, hleafMicroversion⟩ := hleaves leaf hmemLeaf
    obtain ⟨instance_, rfl, hkind, hb⟩ := hpath path hmemPath
    refine ⟨hleaf, hleafDocument, hleafMicroversion, ?_, fun authored => ?_⟩
    · exact properRigid_normalize (properRigid_normalize (hmatrices matrix hmemMatrix))
    · simp [selectorMatches, planObject, Selection.root, hkind, hb]

/-! ## Carriers keep everything but names and descriptions -/

/-- What the check of a plan reads of a candidate. -/
def Candidate.core (c : Candidate) : ConfiguredLeaf × AuthoringSelector × PlacementMatrix :=
  (c.leaf, c.selector, c.matrix)

theorem setCarrier_core (candidates : List Candidate) (metadata : Nat × String × String) :
    (setCarrier candidates metadata).map Candidate.core = candidates.map Candidate.core := by
  refine List.ext_getElem? fun i => ?_
  rw [List.getElem?_map, List.getElem?_map, setCarrier, List.getElem?_modify]
  cases candidates[i]? with
  | none => rfl
  | some c => split <;> rfl

theorem resolveCarrier_core {response : Value} {group : CarrierGroup}
    {candidates candidates' : List Candidate}
    (h : resolveCarrier response group candidates = .ok candidates') :
    candidates'.map Candidate.core = candidates.map Candidate.core := by
  have hfold (metadata : List (Nat × String × String)) (cs : List Candidate) :
      (metadata.foldl setCarrier cs).map Candidate.core = cs.map Candidate.core := by
    induction metadata generalizing cs with
    | nil => rfl
    | cons x metadata ih => rw [List.foldl_cons, ih, setCarrier_core]
  obtain ⟨rows, -, h⟩ := bind_ok.mp h
  obtain ⟨index, -, h⟩ := bind_ok.mp h
  obtain ⟨joined, -, h⟩ := bind_ok.mp h
  obtain ⟨states, -, h⟩ := bind_ok.mp h
  split at h
  · cases h
  · obtain ⟨metadata, -, h⟩ := bind_ok.mp h
    cases h
    exact hfold metadata candidates

theorem resolveCarriers_core {groups : List (CarrierGroup × Value)}
    {candidates candidates' : List Candidate}
    (h : resolveCarriers groups candidates = .ok candidates') :
    candidates'.map Candidate.core = candidates.map Candidate.core := by
  induction groups generalizing candidates with
  | nil =>
    cases h
    rfl
  | cons g groups ih =>
    obtain ⟨next, hnext, h⟩ := bind_ok.mp h
    rw [ih h, resolveCarrier_core hnext]

theorem Resolves.of_core {request : SelectionRequest} {root : SelectionRoot}
    {candidates candidates' : List Candidate} (h : Resolves digests request root candidates)
    (hcore : candidates'.map Candidate.core = candidates.map Candidate.core) :
    Resolves digests request root candidates' := by
  refine ⟨h.bounded, ?_, fun c' hc' => ?_⟩
  · have := congrArg List.length hcore
    rw [List.length_map, List.length_map] at this
    rw [this]
    exact h.length
  · have hmem := List.mem_map_of_mem (f := Candidate.core) hc'
    rw [hcore] at hmem
    obtain ⟨c, hc, he⟩ := List.mem_map.mp hmem
    have hs := h.sound c hc
    simp only [Candidate.core, Prod.mk.injEq] at he
    obtain ⟨hleaf, hselector, hmatrix⟩ := he
    refine ⟨hleaf ▸ hs.leaf, hleaf ▸ hs.document, hleaf ▸ hs.microversion, hmatrix ▸ hs.rigid,
      fun authored => ?_⟩
    have := hs.selector authored
    simp only [selectorMatches, planObject, hleaf, hselector, hmatrix] at this ⊢
    exact this

/-! ## Every plan is accepted -/

/-- A plan made of what either resolver hands over is accepted when it is read back. -/
theorem planned_accepted (digests : Digests) (sizes : Sizes) (ht : digests.text.Faithful)
    (hx : Hexadecimal digests) (request : SelectionRequest) (hp : request.preflight = .ok ())
    (mid : String) (hmid : boundedVisibleAscii mid = true) (response : Value)
    (plan : ResolvedSelectionPlan) (hc : CollisionFreeOn digests plan.objects) :
    (∀ root candidates, resolvePartStudio request mid response = .ok (root, candidates) →
      constructPlan digests sizes root candidates = .ok plan →
      validateRetainedPlan digests sizes plan = .ok ()) ∧
    (∀ assembly responses candidates, resolveAssembly request mid response = .ok assembly →
      responses.length = assembly.carriers.length →
      resolveCarriers (assembly.carriers.zip responses) assembly.candidates = .ok candidates →
      constructPlan digests sizes assembly.root candidates = .ok plan →
      validateRetainedPlan digests sizes plan = .ok ()) := by
  obtain ⟨-, -, -, -, hlo, hhi, -, -⟩ := preflight_ok hp
  have accepted (root : SelectionRoot) (candidates : List Candidate)
      (hr : Resolves digests request root candidates)
      (h : constructPlan digests sizes root candidates = .ok plan) :
      validateRetainedPlan digests sizes plan = .ok () := by
    have hlength := hr.length
    exact constructPlan_retained ht hx hr.bounded (by omega) (by omega) hr.sound h hc
  refine ⟨fun root candidates hresolved h => ?_, ?_⟩
  · exact accepted root candidates (resolvePartStudio_sound hp hmid hresolved) h
  · intro assembly responses candidates hresolved _ hcarriers h
    have hsound : Resolves digests request assembly.root candidates :=
      (resolveAssembly_sound hp hmid hresolved).of_core (resolveCarriers_core hcarriers)
    exact accepted assembly.root candidates hsound h

end Plan

/-! ## A part and an occurrence of it -/

def oneHash : String := String.ofList (List.replicate 64 'a')

/-- A stand-in with one hash, which is enough for plans of one object. -/
def oneDigests : Digests := ⟨canonicalText, fun _ => oneHash⟩

def noSizes : Sizes := ⟨fun _ => 0, fun _ => 0, fun _ => 0⟩

def partRow : Value := .object
  [("bodyType", .string "solid"), ("configurationId", .string "c"), ("description", .string ""),
   ("elementId", .string "e"), ("isFlattenedBody", .bool false), ("isHidden", .bool false),
   ("isMesh", .bool false), ("meshState", .string "NO_MESH"), ("microversionId", .string "m"),
   ("name", .string "n"), ("partId", .string "p")]

def leafMembers : Members :=
  [("bodyType", .string "solid"), ("documentId", .string "d"),
   ("documentMicroversion", .string "m"), ("elementId", .string "e"),
   ("fullConfiguration", .string "c"), ("id", .string "i"), ("partId", .string "p"),
   ("suppressed", .bool false), ("type", .string "Part")]

def occurrenceRow : Value := .object
  [("hidden", .bool false), ("path", .array [.string "i"]),
   ("transform", .array (identityPlacement.1.map fun s => .number s.number))]

def assemblyResponse : Value := .object
  [("parts", .array [.object leafMembers]),
   ("rootAssembly", .object
     [("documentId", .string "d"), ("documentMicroversion", .string "m"),
      ("elementId", .string "r"), ("fullConfiguration", .string "c"),
      ("instances", .array [.object leafMembers]), ("occurrences", .array [occurrenceRow]),
      ("parametricInstances", .array []), ("patterns", .array [])])]

def partRequest : SelectionRequest :=
  ⟨"d", "v", "e", .partStudio, ⟨oneHash, oneHash, oneHash, "x"⟩, [.part "p"]⟩

def occurrenceRequest : SelectionRequest :=
  ⟨"d", "v", "r", .assembly, ⟨oneHash, oneHash, oneHash, "x"⟩, [.occurrence ["i"]]⟩

def oneLeaf : ConfiguredLeaf := ⟨"d", "m", "e", "c", "p"⟩

def oneCandidate (selector : AuthoringSelector) : Candidate :=
  ⟨oneLeaf, selector, identityPlacement, "n", ""⟩

def oneAuthored (selector : AuthoringSelector) : AuthoringObject :=
  ⟨selector, "n", ⟨.printable, none, []⟩⟩

def onePlan (root : SelectionRoot) (selector : AuthoringSelector) : ResolvedSelectionPlan :=
  ⟨root, oneHash, [planObject oneDigests (oneCandidate selector) (oneAuthored selector)], oneHash⟩

theorem oneDigests_hexadecimal : Hexadecimal oneDigests := by
  intro text
  show isSha256 oneHash = true
  decide +kernel

def partRoot : SelectionRoot := ⟨"d", "v", "m", "e", .partStudio, "c"⟩
def assemblyRoot : SelectionRoot := ⟨"d", "v", "m", "r", .assembly, "c"⟩
def occurrenceSelector : AuthoringSelector := .assemblyOccurrence "d" "m" "r" "c" ["i"]

theorem onePlan_collisionFree (root : SelectionRoot) (selector : AuthoringSelector) :
    CollisionFreeOn oneDigests (onePlan root selector).objects := by
  intro o ho o' ho' _
  rw [List.mem_singleton.mp ho, List.mem_singleton.mp ho']

theorem onePlanIdentity {payload : PlanPayload}
    (h : 4 * (Value.ofFields [("domain", .string planDomain),
      ("payload", PlanPayload.codec.enc payload)]).room ≤ maxPlanBytes) :
    computedPlanIdentity oneDigests payload = some oneHash := by
  simp only [computedPlanIdentity]
  exact if_pos ((canonicalText_size _).trans h)

theorem constructPlan_part : constructPlan oneDigests noSizes partRoot
    [oneCandidate (partSelector oneLeaf)] = .ok (onePlan partRoot (partSelector oneLeaf)) := by
  have hauthored : authorCandidates oneDigests [oneCandidate (partSelector oneLeaf)] =
      .ok [oneAuthored (partSelector oneLeaf)] := by decide +kernel
  exact constructPlan_of hauthored (by decide +kernel) (by decide +kernel)
    (onePlanIdentity (by decide +kernel))

theorem constructPlan_occurrence : constructPlan oneDigests noSizes assemblyRoot
    [oneCandidate occurrenceSelector] = .ok (onePlan assemblyRoot occurrenceSelector) := by
  have hauthored : authorCandidates oneDigests [oneCandidate occurrenceSelector] =
      .ok [oneAuthored occurrenceSelector] := by decide +kernel
  exact constructPlan_of hauthored (by decide +kernel) (by decide +kernel)
    (onePlanIdentity (by decide +kernel))

/-- A part and an occurrence of it are planned, and the plans are accepted. -/
theorem planned_accepted_sample :
    validateRetainedPlan oneDigests noSizes (onePlan partRoot (partSelector oneLeaf)) = .ok () ∧
      validateRetainedPlan oneDigests noSizes (onePlan assemblyRoot occurrenceSelector) =
        .ok () := by
  have hmid : boundedVisibleAscii "m" = true := by decide +kernel
  refine ⟨?_, ?_⟩
  · refine (planned_accepted oneDigests noSizes canonicalText_faithful oneDigests_hexadecimal
      partRequest (by decide +kernel) "m" hmid (.array [partRow]) _
      (onePlan_collisionFree partRoot (partSelector oneLeaf))).1 partRoot _ ?_ constructPlan_part
    decide +kernel
  · have hresolved : resolveAssembly occurrenceRequest "m" assemblyResponse =
        .ok ⟨assemblyRoot, [{ oneCandidate occurrenceSelector with name := "" }],
          [⟨carrierKey oneLeaf, [0]⟩]⟩ := by decide +kernel
    refine (planned_accepted oneDigests noSizes canonicalText_faithful oneDigests_hexadecimal
      occurrenceRequest (by decide +kernel) "m" hmid assemblyResponse _
      (onePlan_collisionFree assemblyRoot occurrenceSelector)).2 _ [.array [partRow]] _ hresolved
      rfl ?_ constructPlan_occurrence
    decide +kernel

end Selection
end OnshapeExport
