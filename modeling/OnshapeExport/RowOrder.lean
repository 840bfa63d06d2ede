import OnshapeExport.AssemblyClassification
import OnshapeExport.Lib.TwoRuns
import OnshapeExport.PlanRecording

/-!
# RowOrder

The planner of `onshape_selection.rs` on two answers of Onshape that differ in the order of their
rows only. Rows are looked up by key and relations are counted, so no order is seen: not in the
plan, and not in which failure is reported.

* `SameRows`, `SameAssembly`, `SameDefinition` — answers with their rows in any order.
* `indexRows_agrees`, `relationIds_agrees` — the two loops over rows.
* `resolvePartStudio_eq`, `resolveAssembly_eq_of_rows`, `resolveCarrier_eq` — the resolvers.
* `planned_in_any_order` — the planner, from the request to the plan or the failure.
-/

namespace OnshapeExport
namespace Selection

open Annotation CacheKey CacheModel Checks Encoding Json OnshapeApi TwoRuns

/-! ## Answers with their rows in another order -/

inductive SameRows : Value → Value → Prop
  | rows {l l' : List Value} : l.Perm l' → SameRows (.array l) (.array l')
  | same (v : Value) : SameRows v v

/-- The members of two objects are related key by key. -/
inductive SameMembers (R : String → Value → Value → Prop) : Value → Value → Prop
  | members {obj obj' : Members} :
      (∀ key, Option.Rel (R key) (get? obj key) (get? obj' key)) →
        SameMembers R (.object obj) (.object obj')
  | same (v : Value) : SameMembers R v v

def assemblyMember (key : String) (v v' : Value) : Prop :=
  if key ∈ ["instances", "occurrences", "parametricInstances", "patterns"] then SameRows v v'
  else v = v'

def SameAssembly : Value → Value → Prop := SameMembers assemblyMember

def definitionMember (key : String) (v v' : Value) : Prop :=
  if key = "rootAssembly" then SameAssembly v v'
  else if key = "parts" then SameRows v v'
  else v = v'

def SameDefinition : Value → Value → Prop := SameMembers definitionMember

/-- Onshape answers the same, save for the order of the rows. -/
structure SameAnswers (onshape onshape' : Onshape) : Prop where
  version : onshape.version = onshape'.version
  parts : ∀ d m e c, Agrees SameRows (onshape.parts d m e c) (onshape'.parts d m e c)
  assembly : ∀ d m e c, Agrees SameDefinition (onshape.assembly d m e c) (onshape'.assembly d m e c)

/-! ## Projections -/

theorem items_agrees {v v' : Value} (h : SameRows v v') : Agrees List.Perm (items v) (items v') := by
  cases h with
  | rows h => exact .ok h
  | same => exact agrees_refl List.Perm.refl _

theorem member_agrees {obj obj' : Members} {key : String} {R : Value → Value → Prop}
    (h : Option.Rel R (get? obj key) (get? obj' key)) :
    Agrees R (member obj key) (member obj' key) := by
  unfold member
  cases hv : get? obj key with
  | none =>
    cases hv' : get? obj' key with
    | none => exact .error _
    | some v' =>
      rw [hv, hv'] at h
      cases h
  | some v =>
    cases hv' : get? obj' key with
    | none =>
      rw [hv, hv'] at h
      cases h
    | some v' =>
      rw [hv, hv'] at h
      cases h with
      | some h => exact .ok h

theorem array_agrees {obj obj' : Members} {key : String}
    (h : Option.Rel SameRows (get? obj key) (get? obj' key)) :
    Agrees List.Perm (array obj key) (array obj' key) :=
  (member_agrees h).bind fun _ _ => items_agrees

theorem sourceString_congr {obj obj' : Members} {key : String} (h : get? obj key = get? obj' key) :
    sourceString obj key = sourceString obj' key := by
  rw [sourceString, sourceString, string, string, member, member, h]

/-- What differs in an assembly is the order of four lists. -/
structure SameLists (obj obj' : Members) : Prop where
  lists : ∀ key ∈ ["instances", "occurrences", "parametricInstances", "patterns"],
    Agrees List.Perm (array obj key) (array obj' key)
  texts : ∀ key ∉ ["instances", "occurrences", "parametricInstances", "patterns"],
    sourceString obj key = sourceString obj' key

theorem Option.Rel.eq_of {α : Type} {a b : Option α} (h : Option.Rel Eq a b) : a = b := by
  cases h with
  | none => rfl
  | some h => rw [h]

theorem sameLists_of_members {obj obj' : Members}
    (h : ∀ key, Option.Rel (assemblyMember key) (get? obj key) (get? obj' key)) :
    SameLists obj obj' where
  lists key hkey := by
    refine array_agrees ?_
    have hrel : assemblyMember key = SameRows := by
      funext v v'
      exact propext (iff_of_eq (if_pos hkey))
    exact hrel ▸ h key
  texts key hkey := by
    refine sourceString_congr (Option.Rel.eq_of ?_)
    have hrel : assemblyMember key = Eq := by
      funext v v'
      exact propext (iff_of_eq (if_neg hkey))
    exact hrel ▸ h key

theorem object_agrees {v v' : Value} (h : SameAssembly v v') :
    Agrees SameLists (object v) (object v') := by
  cases h with
  | members h => exact .ok (sameLists_of_members h)
  | same =>
    exact agrees_refl (fun obj => ⟨fun _ _ => agrees_refl List.Perm.refl _, fun _ _ => rfl⟩) _

/-! ## Rows by key -/

theorem Keyed.perm {κ : Type} {Key : Members → κ → Prop} {rows rows' : List Value} (h : rows.Perm rows')
    (hk : Keyed Key rows) : Keyed Key rows' where
  key v hv := hk.key v (h.mem_iff.mpr hv)
  distinct := by
    refine (h.pairwise_iff ?_).mp hk.distinct
    intro v w hvw obj obj' k hv hw hobj hobj'
    exact hvw obj' obj k hw hv hobj' hobj

section Index

variable {κ : Type} [DecidableEq κ] {key : Members → Except ApiFailure κ}

/-- The order of the rows decides neither whether they have keys of their own nor which row a key
has. -/
theorem indexRows_agrees (hkey : ∀ obj, Malforms (key obj)) {rows rows' : List Value}
    (h : rows.Perm rows') :
    Agrees (fun index index' => ∀ k, lookupRow index k = lookupRow index' k)
      (indexRows key [] rows) (indexRows key [] rows') := by
  have hkeys : Keys key fun obj k => key obj = .ok k := ⟨fun _ _ => Iff.rfl, hkey⟩
  have hmove : ∀ {rows rows' : List Value} {index : List (κ × Members)}, rows.Perm rows' →
      indexRows key [] rows = .ok index → ∃ index', indexRows key [] rows' = .ok index' ∧
        ∀ k, lookupRow index k = lookupRow index' k := by
    intro rows rows' index h hindex
    obtain ⟨hkeyed, hlookup⟩ := indexRows_ok hkeys hindex
    cases hindex' : indexRows key [] rows' with
    | error e => exact absurd (hkeyed.perm h) (indexRows_error hkeys hindex').2
    | ok index' =>
      refine ⟨index', rfl, fun k => Option.ext fun obj => ?_⟩
      rw [hlookup, (indexRows_ok hkeys hindex').2, RowAt, RowAt, h.mem_iff]
  refine FailsOnly.agrees (malforms_indexRows hkey [] rows) (malforms_indexRows hkey [] rows')
    (fun index => hmove h) fun index hindex => ?_
  obtain ⟨index', hindex', -⟩ := hmove h.symm hindex
  exact ⟨index', hindex'⟩

end Index

/-! ## Relations -/

/-- The counter and the sets of the loop see each identifier once, in any order. -/
theorem relationIds_agrees {obj obj' : Members} (h : SameLists obj obj') :
    Agrees List.Perm (relationIds obj) (relationIds obj') := by
  have hnodup {relations relations' : List (String × List String)}
      (hp : relations.Perm relations') :
      (relations.map Prod.fst).Nodup ↔ (relations'.map Prod.fst).Nodup := (hp.map _).nodup_iff
  refine (h.lists "parametricInstances" (by simp)).bind fun rows rows' hrows => ?_
  refine (agrees_traverse_perm malforms_parametricIds hrows 0).bind fun parametric parametric' hp => ?_
  refine (agrees_ensure (hnodup hp) malformed).bind fun _ _ _ => ?_
  refine (h.lists "patterns" (by simp)).bind fun rows rows' hrows => ?_
  refine (agrees_traverse_perm malforms_patternIds hrows 0).bind fun patterns patterns' hq => ?_
  refine (agrees_ensure (hnodup hq) malformed).bind fun _ _ _ => ?_
  have hids := (hp.flatMap_right Prod.snd).append (hq.flatMap_right Prod.snd)
  refine (agrees_ensure (p := ∀ id ∈ _, _) ?_ malformed).bind fun _ _ _ => ?_
  · simp only [hids.mem_iff]
  refine (agrees_ensure (by rw [hids.length_eq]) malformed).bind fun _ _ _ => ?_
  exact .ok hids

/-! ## Resolvers -/

section Resolvers

variable {request : SelectionRequest} {mid : String} {response response' : Value}

theorem resolvePartStudio_eq (h : SameRows response response') :
    resolvePartStudio request mid response = resolvePartStudio request mid response' := by
  refine Agrees.eq ?_
  refine (items_agrees h).bind fun rows rows' hrows => ?_
  refine (indexRows_agrees (fun obj => malforms_sourceString obj "partId") hrows).bind
    fun index index' hindex => ?_
  simp only [hindex]
  exact agrees_refl (fun _ => rfl) _

theorem joinSelected_congr {instances instances' : List (String × Members)}
    {occurrences occurrences' : List (List String × Members)}
    (hi : ∀ k, lookupRow instances k = lookupRow instances' k)
    (ho : ∀ k, lookupRow occurrences k = lookupRow occurrences' k) :
    joinSelected request instances occurrences = joinSelected request instances' occurrences' := by
  simp only [joinSelected, hi, ho]

theorem checkParts_agrees {parts parts' : List Value} (h : parts.Perm parts')
    (leaves : List ConfiguredLeaf) :
    Agrees Eq (checkParts parts leaves) (checkParts parts' leaves) := by
  refine (indexRows_agrees malforms_projectedLeaf h).bind fun index index' hindex => ?_
  simp only [hindex]
  exact agrees_refl (fun _ => rfl) _

theorem gate_congr {α : Type} {l : List α} {f g : α → Bool} (h : ∀ a, f a = g a) :
    gate (l.map f) = gate (l.map g) := by
  rw [funext h]

/-- The two answers have the same lists in some order, and the same assembly. -/
theorem definition_agrees (h : SameDefinition response response') :
    Agrees (fun obj obj' => Agrees SameAssembly (member obj "rootAssembly") (member obj' "rootAssembly") ∧
      Agrees List.Perm (array obj "parts") (array obj' "parts"))
      (object response) (object response') := by
  have hroot : definitionMember "rootAssembly" = SameAssembly := by
    funext v v'
    exact propext (iff_of_eq (if_pos rfl))
  have hparts : definitionMember "parts" = SameRows := by
    funext v v'
    rw [definitionMember, if_neg (by decide), if_pos rfl]
  cases h with
  | members h =>
    have h₁ := h "rootAssembly"
    have h₂ := h "parts"
    rw [hroot] at h₁
    rw [hparts] at h₂
    exact .ok ⟨member_agrees h₁, array_agrees h₂⟩
  | same =>
    exact agrees_refl (fun obj => ⟨agrees_refl SameMembers.same _, agrees_refl List.Perm.refl _⟩) _

theorem resolveAssembly_eq_of_rows (h : SameDefinition response response') :
    resolveAssembly request mid response = resolveAssembly request mid response' := by
  refine Agrees.eq ?_
  refine (definition_agrees h).bind fun envelope envelope' ⟨hroot, hparts⟩ => ?_
  refine (hroot.bind fun _ _ => object_agrees).bind fun assembly assembly' hlists => ?_
  refine .same (hlists.texts "documentId" (by simp)) fun d => ?_
  refine .same (hlists.texts "documentMicroversion" (by simp)) fun m => ?_
  refine .same (hlists.texts "elementId" (by simp)) fun e => ?_
  refine .same (hlists.texts "fullConfiguration" (by simp)) fun configuration => ?_
  refine (hlists.lists "instances" (by simp)).bind fun instances instances' hinstances => ?_
  refine (hlists.lists "occurrences" (by simp)).bind fun occurrences occurrences' hoccurrences => ?_
  refine (hlists.lists "parametricInstances" (by simp)).bind fun _ _ _ => ?_
  refine (hlists.lists "patterns" (by simp)).bind fun _ _ _ => ?_
  refine hparts.bind fun parts parts' hparts => ?_
  refine .same rfl fun _ => ?_
  refine (indexRows_agrees (fun obj => malforms_sourceString obj "id") hinstances).bind
    fun index index' hindex => ?_
  refine (indexRows_agrees malforms_occurrencePath hoccurrences).bind fun paths paths' hpaths => ?_
  refine (relationIds_agrees hlists).bind fun exclusions exclusions' hexclusions => ?_
  refine .same (joinSelected_congr hindex hpaths) fun selected => ?_
  refine .same rfl fun paths => ?_
  refine .same (gate_congr fun path => ?_) fun _ => ?_
  · simp only [hexclusions.mem_iff]
  refine .same rfl fun (leaves, matrices) => ?_
  refine (checkParts_agrees hparts leaves).bind fun _ _ _ => ?_
  exact .ok rfl

theorem malforms_carrierRowKey (obj : Members) : Malforms (carrierRowKey obj) :=
  (malforms_sourceString _ _).bind fun _ => (malforms_sourceString _ _).bind fun _ =>
    (malforms_sourceString _ _).bind fun _ => .ok _

theorem resolveCarrier_eq (h : SameRows response response') (group : CarrierGroup)
    (candidates : List Candidate) :
    resolveCarrier response group candidates = resolveCarrier response' group candidates := by
  refine Agrees.eq ?_
  refine (items_agrees h).bind fun rows rows' hrows => ?_
  refine (indexRows_agrees malforms_carrierRowKey hrows).bind fun index index' hindex => ?_
  simp only [hindex]
  exact agrees_refl (fun _ => rfl) _

end Resolvers

/-! ## The planner -/

section Planner

variable {onshape onshape' : Onshape}

theorem resolveVersion_congr (h : onshape.version = onshape'.version) (d v : String) :
    resolveVersion onshape d v = resolveVersion onshape' d v := by
  rw [resolveVersion, resolveVersion, h]

theorem askCarriers_congr (h : SameAnswers onshape onshape') (groups : List CarrierGroup)
    (candidates : List Candidate) :
    askCarriers onshape groups candidates = askCarriers onshape' groups candidates := by
  induction groups generalizing candidates with
  | nil => rfl
  | cons group groups ih =>
    refine Agrees.eq ?_
    refine ((h.parts _ _ _ _).mapError _).bind fun response response' hresponse => ?_
    refine .same (congrArg _ (resolveCarrier_eq hresponse group candidates)) fun candidates => ?_
    exact agrees_of_eq (ih candidates)

theorem resolveSelection_congr (h : SameAnswers onshape onshape') (request : SelectionRequest)
    (mid : String) : resolveSelection onshape request mid = resolveSelection onshape' request mid := by
  refine Agrees.eq ?_
  unfold resolveSelection
  cases request.elementKind with
  | partStudio =>
    refine (h.parts _ _ _ _).bind fun response response' hresponse => ?_
    exact agrees_of_eq (congrArg _ (resolvePartStudio_eq hresponse))
  | assembly =>
    refine (h.assembly _ _ _ _).bind fun response response' hresponse => ?_
    refine .same (congrArg _ (resolveAssembly_eq_of_rows hresponse)) fun assembly => ?_
    refine .same (askCarriers_congr h assembly.carriers assembly.candidates) fun candidates => ?_
    exact .ok rfl

variable {digests : Digests} {sizes : Sizes} {hashes : ExportHashes}
  {canonicalOrigin : String → Except ApiFailure String} {origin : String}

/-- A plan is made of the version and the candidates, and of nothing else Onshape says. -/
theorem planSelection_congr {request : SelectionRequest} (db : Database)
    (hversion : resolveVersion onshape request.documentId request.versionId =
      resolveVersion onshape' request.documentId request.versionId)
    (hresolved : ∀ mid, resolveVersion onshape request.documentId request.versionId = .ok mid →
      resolveSelection onshape request mid = resolveSelection onshape' request mid) :
    planSelection digests sizes hashes canonicalOrigin origin db onshape request =
      planSelection digests sizes hashes canonicalOrigin origin db onshape' request := by
  unfold planSelection
  rw [← hversion]
  cases hmid : resolveVersion onshape request.documentId request.versionId with
  | error e => rfl
  | ok mid => simp only [ok_seq, hresolved mid hmid]

/-- The objects of a plan are for the selectors of its request, in their order. -/
theorem planSelection_selectors {db : Database} {request : SelectionRequest}
    {plan : ResolvedSelectionPlan}
    (h : planSelection digests sizes hashes canonicalOrigin origin db onshape request = .ok plan) :
    List.Forall₂ (fun (o : ResolvedSelectionObject) s => selects o.selector s = true)
      plan.objects request.selectors := by
  obtain ⟨mid, root, candidates, -, -, -, -, hprojects, hplan⟩ := planSelection_ok h
  obtain ⟨authored, hbuilt⟩ := constructPlan_built hplan
  have hselectors : plan.objects.map ResolvedSelectionObject.selector =
      candidates.map Candidate.selector := by
    have hfirst : (candidates.zip authored).map Prod.fst = candidates :=
      List.map_fst_zip hbuilt.length.ge
    rw [hbuilt.objects, List.map_zipWith]
    conv_rhs => rw [← hfirst, List.map_map]
    exact (List.map_uncurry_zip_eq_zipWith ..).symm
  have hforall := hprojects.selectors
  rw [← hselectors, List.forall₂_map_left_iff] at hforall
  exact hforall

variable (digests sizes hashes canonicalOrigin origin) in
/-- No plan and no failure depends on the order of the rows. -/
theorem planned_in_any_order (db : Database) (request : SelectionRequest)
    (h : SameAnswers onshape onshape') :
    (∃ plan, planSelection digests sizes hashes canonicalOrigin origin db onshape request =
          .ok plan ∧
        planSelection digests sizes hashes canonicalOrigin origin db onshape' request =
          .ok plan ∧
        List.Forall₂ (fun (o : ResolvedSelectionObject) s => selects o.selector s = true)
          plan.objects request.selectors) ∨
      ∃ failure, planSelection digests sizes hashes canonicalOrigin origin db onshape request =
          .error failure ∧
        planSelection digests sizes hashes canonicalOrigin origin db onshape' request =
          .error failure := by
  have hsame : planSelection digests sizes hashes canonicalOrigin origin db onshape request =
      planSelection digests sizes hashes canonicalOrigin origin db onshape' request :=
    planSelection_congr db (resolveVersion_congr h.version _ _)
      fun mid _ => resolveSelection_congr h request mid
  cases hplan : planSelection digests sizes hashes canonicalOrigin origin db onshape request with
  | ok plan => exact .inl ⟨plan, rfl, hsame ▸ hplan, planSelection_selectors hplan⟩
  | error failure => exact .inr ⟨failure, rfl, hsame ▸ hplan⟩

end Planner

/-! ## Two parts -/

section TwoParts

open Geometry (recordingOnshape recordingRequest recordingDigests recordingHashes recordingDatabase
  recordingPlan recording_evaluated recording_plan)

def otherPartRow : Value := .object [("partId", .string "q")]

/-- The answers about the one part that is recorded, with a second row. -/
def twoParts (rows : List Value) : Onshape :=
  { recordingOnshape with parts := fun _ _ _ _ => .ok (.array rows) }

/-- A part is planned from the rows of two parts, whichever comes first. -/
theorem planned_in_any_order_sample :
    planSelection recordingDigests noSizes recordingHashes .ok "o" recordingDatabase
      (twoParts [otherPartRow, partRow]) (recordingRequest false) = .ok recordingPlan := by
  have hsame : SameAnswers (twoParts [partRow, otherPartRow]) (twoParts [otherPartRow, partRow]) :=
    ⟨rfl, fun _ _ _ _ => .ok (.rows (List.Perm.swap _ _ [])), fun _ _ _ _ =>
      agrees_refl (R := SameDefinition) SameMembers.same _⟩
  have hmid : resolveVersion recordingOnshape "d" "v" = .ok "m" := recording_evaluated.version false
  have hresolved : resolveSelection (twoParts [partRow, otherPartRow]) (recordingRequest false) "m" =
      .ok (partRoot, [oneCandidate (partSelector oneLeaf)]) := by decide +kernel
  have hfirst : planSelection recordingDigests noSizes recordingHashes .ok "o" recordingDatabase
      (twoParts [partRow, otherPartRow]) (recordingRequest false) = .ok recordingPlan := by
    rw [← recording_plan false]
    refine planSelection_congr recordingDatabase rfl fun mid h => ?_
    obtain rfl : "m" = mid := Except.ok.inj (hmid.symm.trans h)
    rw [hresolved, recording_evaluated.resolved false]
  obtain ⟨plan, hplan, hother, -⟩ | ⟨failure, hfailure, -⟩ :=
    planned_in_any_order recordingDigests noSizes recordingHashes .ok "o" recordingDatabase
      (recordingRequest false) hsame
  · rw [hfirst] at hplan
    rw [hother, ← hplan]
  · rw [hfirst] at hfailure
    cases hfailure

end TwoParts

end Selection
end OnshapeExport
