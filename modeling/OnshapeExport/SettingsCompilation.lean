import OnshapeExport.GeneratorSettings
import Mathlib.Algebra.Order.BigOperators.Group.List

/-!
# SettingsCompilation

How `build_generator_settings` compiles an authoring document: every support blocker becomes an
entry with the identities of what it blocks.

* `buildGeneratorSettings` — as the source has it; `none` is where it would panic.
* `compiled` — what an accepted document compiles to.
* `compiled_blocks` — one object blocks another in the settings when it does in the document.
* `settings_compiled` — the compilation, and when it fails.
-/

namespace OnshapeExport
namespace Annotation

open Checks Json
open Protocol (InputRole visible)

/-- The map from a key to the last object that has it. -/
def uniqueKey (objects : List AuthoringObject) (key : String) : Option Nat :=
  (keyPositions objects key).getLast?

def buildBlocker (objects : List AuthoringObject) (identities : List String) :
    AuthoringObject × Nat → Option GeneratorSettingsBlocker
  | (o, index) =>
    match identities[index]?,
        o.annotation.targets.mapM fun key => (uniqueKey objects key).bind (identities[·]?) with
    | some identity, some targets => some ⟨identity, targets⟩
    | _, _ => none

def checkIdentities (document : AuthoringDocument) (identities : List String) : Checked := do
  require (identities.length = document.objects.length)
    "manifest identity list must align exactly with authoring objects"
  each (fun i identity =>
    validateIdentity identity ("manifestObjectIdentities[" ++ toString i ++ "]")) 0 identities

def finishSettings (sizes : Sizes) (blockers : List GeneratorSettingsBlocker) :
    Except AnnotationError GeneratorSettings := do
  let settings : GeneratorSettings := ⟨schemaVersion, blockers⟩
  validateGeneratorSettings sizes settings
  return settings

/-- `build_generator_settings`. -/
def buildGeneratorSettings (sizes : Sizes) (document : AuthoringDocument)
    (identities : List String) : Option (Except AnnotationError GeneratorSettings) :=
  match validateAuthoringDocument sizes document with
  | .error e => some (.error e)
  | .ok () =>
    match checkIdentities document identities with
    | .error e => some (.error e)
    | .ok () =>
      ((document.objects.zipIdx.filter fun p => p.1.role = .supportBlocker).mapM
        (buildBlocker document.objects identities)).map (finishSettings sizes)

/-- The objects of a document as a manifest has them. -/
def manifestSummary (document : AuthoringDocument) (identities : List String) :
    List ManifestObjectSummary :=
  (document.objects.zip identities).map fun (o, identity) => ⟨identity, o.role.transportRole⟩

/-! ## The settings of an accepted document -/

/-- The identity of the object with a key. -/
def identityOf (objects : List AuthoringObject) (identities : List String) (key : String) : String :=
  identities.getD ((uniqueKey objects key).getD 0) ""

def compiledBlocker (objects : List AuthoringObject) (identities : List String) :
    AuthoringObject × Nat → GeneratorSettingsBlocker
  | (o, index) =>
    ⟨identities.getD index "", o.annotation.targets.map (identityOf objects identities)⟩

def compiled (objects : List AuthoringObject) (identities : List String) : GeneratorSettings :=
  ⟨schemaVersion, (objects.zipIdx.filter fun p => p.1.role = .supportBlocker).map
    (compiledBlocker objects identities)⟩

/-- An accepted document beside the identities of its objects. -/
structure Aligned (sizes : Sizes) (document : AuthoringDocument) (identities : List String) :
    Prop where
  accepted : validateAuthoringDocument sizes document = .ok ()
  length : identities.length = document.objects.length
  valid : ∀ identity ∈ identities, visible maxIdentityLength identity = true
  distinct : identities.Nodup

section Compiled

variable {sizes : Sizes} {document : AuthoringDocument} {identities : List String}

theorem Aligned.getD (h : Aligned sizes document identities) {i : Nat} {o : AuthoringObject}
    (ho : document.objects[i]? = some o) :
    identities[i]? = some (identities.getD i "") := by
  obtain ⟨hi, -⟩ := List.getElem?_eq_some_iff.mp ho
  rw [← h.length] at hi
  rw [List.getD_eq_getElem?_getD, List.getElem?_eq_getElem hi]
  rfl

/-- A target of an object leads to the object with its key. -/
theorem Aligned.target (h : Aligned sizes document identities) {j : Nat} {o : AuthoringObject}
    (ho : document.objects[j]? = some o) {target : String} (ht : target ∈ o.annotation.targets) :
    ∃ i t, keyPositions document.objects target = [i] ∧ document.objects[i]? = some t ∧
      t.key = some target ∧ t.role = .printable ∧ uniqueKey document.objects target = some i ∧
      identities[i]? = some (identityOf document.objects identities target) := by
  obtain ⟨-, -, -, -, -, htargets⟩ := (validateAuthoringDocument_ok sizes).mp h.accepted
  obtain ⟨i, t, hpos, -, hi, hrole⟩ := htargets j o ho target ht
  have hkey : uniqueKey document.objects target = some i := by rw [uniqueKey, hpos]; rfl
  have hmem : i ∈ keyPositions document.objects target := by rw [hpos]; exact List.mem_singleton_self i
  obtain ⟨t', hi', hkey'⟩ := mem_keyPositions.mp hmem
  rw [hi, Option.some.injEq] at hi'
  subst hi'
  refine ⟨i, t, hpos, hi, hkey', hrole, hkey, ?_⟩
  rw [identityOf, hkey]
  exact h.getD hi

theorem buildBlocker_eq (h : Aligned sizes document identities) {p : AuthoringObject × Nat}
    (hp : p ∈ document.objects.zipIdx) : buildBlocker document.objects identities p =
      some (compiledBlocker document.objects identities p) := by
  obtain ⟨o, j⟩ := p
  have ho := List.mem_zipIdx_iff_getElem?.mp hp
  have htargets : (o.annotation.targets.mapM fun target =>
      (uniqueKey document.objects target).bind (identities[·]?)) =
      some (o.annotation.targets.map (identityOf document.objects identities)) := by
    refine mapM_eq_map fun target ht => ?_
    obtain ⟨i, t, -, -, -, -, hkey, hidentity⟩ := h.target ho ht
    rw [hkey, Option.bind_some, hidentity]
  simp only [buildBlocker, compiledBlocker, htargets, h.getD ho]

/-- An accepted document compiles without a panic, and only the checks of the settings are left. -/
theorem build_eq (h : Aligned sizes document identities) :
    buildGeneratorSettings sizes document identities =
      some (finishSettings sizes (compiled document.objects identities).blockers) := by
  have hidentities : checkIdentities document identities = .ok () := by
    refine seq_ok.mpr ⟨require_ok.mpr h.length, ?_⟩
    exact (each_ok_mem (P := fun identity => visible maxIdentityLength identity = true)
      fun _ _ => require_ok).mpr h.valid
  have hblockers := mapM_eq_map (f := buildBlocker document.objects identities)
    (g := compiledBlocker document.objects identities)
    (l := document.objects.zipIdx.filter fun p => p.1.role = .supportBlocker)
    fun p hp => buildBlocker_eq h (List.mem_of_mem_filter hp)
  simp only [buildGeneratorSettings, h.accepted, hidentities, hblockers, Option.map_some, compiled]

theorem mem_compiled {b : GeneratorSettingsBlocker} :
    b ∈ (compiled document.objects identities).blockers ↔
      ∃ j o, document.objects[j]? = some o ∧ o.role = .supportBlocker ∧
        b = compiledBlocker document.objects identities (o, j) := by
  simp only [compiled, List.mem_map, List.mem_filter, decide_eq_true_eq, Prod.exists,
    List.mem_zipIdx_iff_getElem?, and_assoc, eq_comm (a := b)]
  exact exists_comm

theorem Aligned.index_inj (h : Aligned sizes document identities) {i j : Nat} {identity : String}
    (hi : identities[i]? = some identity) (hj : identities[j]? = some identity) : i = j := by
  obtain ⟨hilt, rfl⟩ := List.getElem?_eq_some_iff.mp hi
  obtain ⟨hjlt, hj⟩ := List.getElem?_eq_some_iff.mp hj
  exact (h.distinct.getElem_inj_iff.mp hj).symm

theorem Aligned.valid_at (h : Aligned sizes document identities) {i : Nat} {identity : String}
    (hi : identities[i]? = some identity) : visible maxIdentityLength identity = true :=
  h.valid identity (List.mem_of_getElem? hi)

/-- The targets of an object have different identities. -/
theorem Aligned.identityOf_inj (h : Aligned sizes document identities) {j : Nat}
    {o : AuthoringObject} (ho : document.objects[j]? = some o) {s t : String}
    (hs : s ∈ o.annotation.targets) (ht : t ∈ o.annotation.targets)
    (he : identityOf document.objects identities s = identityOf document.objects identities t) :
    s = t := by
  obtain ⟨i, a, -, hi, hkey, -, -, hidentity⟩ := h.target ho hs
  obtain ⟨i', a', -, hi', hkey', -, -, hidentity'⟩ := h.target ho ht
  rw [he] at hidentity
  obtain rfl := h.index_inj hidentity hidentity'
  rw [hi, Option.some.injEq] at hi'
  subst hi'
  rw [hkey, Option.some.injEq] at hkey'
  exact hkey'

/-- In the settings one object blocks another when it does in the document. -/
theorem compiled_blocks (h : Aligned sizes document identities) {i j : Nat} {o t : AuthoringObject}
    {target blocker : String} (ho : document.objects[j]? = some o)
    (ht : document.objects[i]? = some t) (hblocker : identities[j]? = some blocker)
    (htarget : identities[i]? = some target) :
    (∃ b ∈ (compiled document.objects identities).blockers,
      b.objectIdentity = blocker ∧ target ∈ b.targets) ↔
    o.role = .supportBlocker ∧ ∃ key, t.key = some key ∧ key ∈ o.annotation.targets := by
  constructor
  · rintro ⟨b, hb, hidentity, hmem⟩
    obtain ⟨j', o', ho', hrole, rfl⟩ := mem_compiled.mp hb
    have hj' := h.getD ho'
    rw [show identities.getD j' "" = blocker from hidentity] at hj'
    obtain rfl := h.index_inj hj' hblocker
    rw [ho, Option.some.injEq] at ho'
    subst ho'
    obtain ⟨key, hkey, hk⟩ := List.mem_map.mp hmem
    obtain ⟨i', t', -, hi', htkey, -, -, hat⟩ := h.target ho hkey
    rw [hk] at hat
    obtain rfl := h.index_inj hat htarget
    rw [ht, Option.some.injEq] at hi'
    subst hi'
    exact ⟨hrole, key, htkey, hkey⟩
  · rintro ⟨hrole, key, hkey, hmem⟩
    obtain ⟨i', t', hpos, -, -, -, -, hat⟩ := h.target ho hmem
    have hi : i ∈ keyPositions document.objects key := mem_keyPositions.mpr ⟨t, ht, hkey⟩
    rw [hpos, List.mem_singleton] at hi
    subst hi
    rw [htarget, Option.some.injEq] at hat
    refine ⟨_, mem_compiled.mpr ⟨j, o, ho, hrole, rfl⟩, ?_, ?_⟩
    · have hj := h.getD ho
      rw [hblocker, Option.some.injEq] at hj
      exact hj.symm
    · exact List.mem_map.mpr ⟨key, hmem, hat.symm⟩

/-! ## The checks of the settings -/

theorem validateBlockerTargets_ok {index : Nat} {b : GeneratorSettingsBlocker} :
    validateBlockerTargets index b = .ok () ↔
      (b.targets ≠ [] ∧ b.targets.length ≤ maxDescriptionTargets) ∧
      (∀ target ∈ b.targets, visible maxIdentityLength target = true) ∧ b.targets.Nodup := by
  have htargets : ∀ field : String, eachNew (fun i target => validateIdentity target
      (field ++ ".targets[" ++ toString i ++ "]")) id
      (fun _ target => .invalid (field ++ " contains duplicate target " ++ target))
      (fun _ _ => .ok ()) 0 [] b.targets = .ok () ↔
      (∀ target ∈ b.targets, visible maxIdentityLength target = true) ∧ b.targets.Nodup := by
    intro field
    rw [eachNew_ok_mem (P := fun target => visible maxIdentityLength target = true), List.map_id]
    intro i target
    rw [validateIdentity, require_ok, and_iff_left rfl]
  simp only [validateBlockerTargets, seq_ok, require_ok, htargets]

theorem validateGeneratorSettings_ok {settings : GeneratorSettings} :
    validateGeneratorSettings sizes settings = .ok () ↔
      sizes.generatorSettings settings ≤ maxDocumentBytes ∧
      settings.schemaVersion = schemaVersion ∧ settings.blockers.length ≤ maxObjects ∧
      ((∀ b ∈ settings.blockers, visible maxIdentityLength b.objectIdentity = true ∧
        (b.targets ≠ [] ∧ b.targets.length ≤ maxDescriptionTargets) ∧
        (∀ target ∈ b.targets, visible maxIdentityLength target = true) ∧ b.targets.Nodup) ∧
      (settings.blockers.map GeneratorSettingsBlocker.objectIdentity).Nodup) ∧
      (settings.blockers.map fun b => b.targets.length).sum ≤ maxSettingsEdges := by
  have hblockers : eachNew (fun i (b : GeneratorSettingsBlocker) =>
      validateIdentity b.objectIdentity ("blockers[" ++ toString i ++ "].objectIdentity"))
      GeneratorSettingsBlocker.objectIdentity
      (fun _ b => .invalid ("duplicate blocker identity: " ++ b.objectIdentity))
      validateBlockerTargets 0 [] settings.blockers = .ok () ↔
      (∀ b ∈ settings.blockers, visible maxIdentityLength b.objectIdentity = true ∧
        (b.targets ≠ [] ∧ b.targets.length ≤ maxDescriptionTargets) ∧
        (∀ target ∈ b.targets, visible maxIdentityLength target = true) ∧ b.targets.Nodup) ∧
      (settings.blockers.map GeneratorSettingsBlocker.objectIdentity).Nodup := by
    refine eachNew_ok_mem fun i b => ?_
    rw [validateIdentity, require_ok, validateBlockerTargets_ok]
  simp only [validateGeneratorSettings, validateSerializedSize, seq_ok, ensure_ok, require_ok,
    hblockers]

theorem compiled_blocker (h : Aligned sizes document identities) {j : Nat} {o : AuthoringObject}
    (ho : document.objects[j]? = some o) (hrole : o.role = .supportBlocker) :
    let b := compiledBlocker document.objects identities (o, j)
    visible maxIdentityLength b.objectIdentity = true ∧
      (b.targets ≠ [] ∧ b.targets.length ≤ maxDescriptionTargets) ∧
      (∀ target ∈ b.targets, visible maxIdentityLength target = true) ∧ b.targets.Nodup := by
  obtain ⟨-, -, -, hobjects, -, -⟩ := (validateAuthoringDocument_ok sizes).mp h.accepted
  have hwf := AuthoringObject.wellFormed (hobjects j o ho)
  refine ⟨h.valid_at (h.getD ho), ⟨?_, ?_⟩, fun target ht => ?_, ?_⟩
  · intro hnil
    have hprintable := hwf.relation.mp (List.map_eq_nil_iff.mp hnil)
    rw [show o.annotation.role = .supportBlocker from hrole] at hprintable
    cases hprintable
  · rw [compiledBlocker, List.length_map]
    exact hwf.length
  · obtain ⟨key, hkey, rfl⟩ := List.mem_map.mp ht
    obtain ⟨i, t, -, -, -, -, -, hat⟩ := h.target ho hkey
    exact h.valid_at hat
  · exact hwf.distinct.map_on fun s hs t ht he => h.identityOf_inj ho hs ht he

theorem zipIdx_nodup {α : Type} (l : List α) : l.zipIdx.Nodup := by
  refine List.Nodup.of_map Prod.snd ?_
  rw [List.zipIdx_map_snd]
  exact List.nodup_range'

theorem compiled_identities (h : Aligned sizes document identities) :
    ((compiled document.objects identities).blockers.map
      GeneratorSettingsBlocker.objectIdentity).Nodup := by
  rw [compiled, List.map_map]
  refine ((zipIdx_nodup document.objects).filter _).map_on ?_
  rintro ⟨o, i⟩ ho ⟨t, j⟩ ht he
  have ho := List.mem_zipIdx_iff_getElem?.mp (List.mem_of_mem_filter ho)
  have ht := List.mem_zipIdx_iff_getElem?.mp (List.mem_of_mem_filter ht)
  have hi := h.getD ho
  rw [show identities.getD i "" = identities.getD j "" from he] at hi
  obtain rfl := h.index_inj hi (h.getD ht)
  rw [ho, Option.some.injEq] at ht
  exact Prod.ext ht rfl

/-- There is room for the edges of every document. -/
theorem compiled_edges (h : Aligned sizes document identities) :
    (compiled document.objects identities).blockers.length ≤ maxObjects ∧
      ((compiled document.objects identities).blockers.map fun b => b.targets.length).sum ≤
        maxSettingsEdges := by
  obtain ⟨-, -, hlength, -, -, -⟩ := (validateAuthoringDocument_ok sizes).mp h.accepted
  have hcount : (compiled document.objects identities).blockers.length ≤ maxObjects := by
    rw [compiled, List.length_map]
    have := List.length_filter_le (fun p : AuthoringObject × Nat => p.1.role = .supportBlocker)
      document.objects.zipIdx
    rw [List.length_zipIdx] at this
    omega
  refine ⟨hcount, ?_⟩
  have hsum := List.sum_le_card_nsmul
    ((compiled document.objects identities).blockers.map fun b => b.targets.length)
    maxDescriptionTargets (fun n hn => by
      obtain ⟨b, hb, rfl⟩ := List.mem_map.mp hn
      obtain ⟨j, o, ho, hrole, rfl⟩ := mem_compiled.mp hb
      exact (compiled_blocker h ho hrole).2.1.2)
  rw [List.length_map] at hsum
  refine hsum.trans ?_
  simp only [maxObjects, maxDescriptionTargets, maxSettingsEdges, nsmul_eq_mul, Nat.cast_id] at *
  omega

/-- What an accepted document compiles to passes every check but that of its size. -/
theorem validate_compiled (h : Aligned sizes document identities) :
    validateGeneratorSettings sizes (compiled document.objects identities) = .ok () ↔
      sizes.generatorSettings (compiled document.objects identities) ≤ maxDocumentBytes := by
  rw [validateGeneratorSettings_ok]
  refine and_iff_left ⟨rfl, (compiled_edges h).1, ⟨fun b hb => ?_, compiled_identities h⟩,
    (compiled_edges h).2⟩
  obtain ⟨j, o, ho, hrole, rfl⟩ := mem_compiled.mp hb
  exact compiled_blocker h ho hrole

/-! ## The settings beside the manifest -/

theorem summary_identities (h : Aligned sizes document identities) :
    (manifestSummary document identities).map ManifestObjectSummary.objectIdentity =
      identities := by
  rw [manifestSummary, List.map_map]
  exact List.map_snd_zip (by rw [h.length])

theorem mem_summary {m : ManifestObjectSummary} : m ∈ manifestSummary document identities ↔
    ∃ (j : Nat) (o : AuthoringObject), document.objects[j]? = some o ∧
      identities[j]? = some m.objectIdentity ∧
      m.transportRole = o.role.transportRole := by
  rw [manifestSummary, List.mem_map]
  constructor
  · rintro ⟨⟨o, identity⟩, hmem, rfl⟩
    obtain ⟨j, hj⟩ := List.getElem?_of_mem hmem
    rw [List.getElem?_zip_eq_some] at hj
    exact ⟨j, o, hj.1, hj.2, rfl⟩
  · rintro ⟨j, o, ho, hidentity, hrole⟩
    refine ⟨(o, m.objectIdentity), ?_, ?_⟩
    · exact List.mem_of_getElem? (List.getElem?_zip_eq_some.mpr ⟨ho, hidentity⟩)
    · obtain ⟨identity, role⟩ := m
      simp only at hrole
      rw [hrole]

theorem lookupRole_of_mem {manifest : List ManifestObjectSummary}
    (hn : (manifest.map ManifestObjectSummary.objectIdentity).Nodup) {m : ManifestObjectSummary}
    (hm : m ∈ manifest) : lookupRole manifest m.objectIdentity = some m.transportRole := by
  induction manifest with
  | nil => cases hm
  | cons first manifest ih =>
    rw [List.map_cons, List.nodup_cons] at hn
    rcases List.mem_cons.mp hm with rfl | hm
    · simp [lookupRole]
    · have hne : first.objectIdentity ≠ m.objectIdentity :=
        fun he => hn.1 (he ▸ List.mem_map_of_mem hm)
      have hrest := ih hn.2 hm
      rw [lookupRole, List.find?_cons_of_neg (by simpa using hne)]
      exact hrest

theorem Aligned.lookupRole (h : Aligned sizes document identities) {j : Nat} {o : AuthoringObject}
    {identity : String} (ho : document.objects[j]? = some o)
    (hidentity : identities[j]? = some identity) :
    Annotation.lookupRole (manifestSummary document identities) identity =
      some o.role.transportRole := by
  have hn : ((manifestSummary document identities).map
      ManifestObjectSummary.objectIdentity).Nodup := by rw [summary_identities h]; exact h.distinct
  exact lookupRole_of_mem hn (m := ⟨identity, o.role.transportRole⟩)
    (mem_summary.mpr ⟨j, o, ho, hidentity, rfl⟩)

theorem validate_context (h : Aligned sizes document identities)
    (hsettings : validateGeneratorSettings sizes (compiled document.objects identities) = .ok ()) :
    validateSettingsContext sizes (compiled document.objects identities)
      (manifestSummary document identities) = .ok () := by
  refine seq_ok.mpr ⟨hsettings, seq_ok.mpr ⟨?_, seq_ok.mpr ⟨require_ok.mpr ⟨?_, ?_⟩, ?_⟩⟩⟩
  · refine (eachNew_ok_mem (P := fun o : ManifestObjectSummary =>
      visible maxIdentityLength o.objectIdentity = true) fun i o => ?_).mpr ⟨fun m hm => ?_, ?_⟩
    · rw [validateIdentity, require_ok, and_iff_left rfl]
    · obtain ⟨j, o, -, hidentity, -⟩ := mem_summary.mp hm
      exact h.valid_at hidentity
    · rw [summary_identities h]
      exact h.distinct
  · intro identity hmem
    obtain ⟨b, hb, rfl⟩ := List.mem_map.mp hmem
    obtain ⟨j, o, ho, hrole, rfl⟩ := mem_compiled.mp hb
    refine List.mem_map.mpr ⟨⟨_, o.role.transportRole⟩, List.mem_filter.mpr
      ⟨mem_summary.mpr ⟨j, o, ho, h.getD ho, rfl⟩, ?_⟩, rfl⟩
    rw [hrole]
    rfl
  · intro identity hmem
    obtain ⟨m, hm, rfl⟩ := List.mem_map.mp hmem
    obtain ⟨hm, hauxiliary⟩ := List.mem_filter.mp hm
    obtain ⟨j, o, ho, hidentity, htransport⟩ := mem_summary.mp hm
    rw [decide_eq_true_eq, htransport] at hauxiliary
    have hrole : o.role = .supportBlocker := by
      cases hr : o.role with
      | supportBlocker => rfl
      | printable =>
        rw [hr] at hauxiliary
        cases hauxiliary
    refine List.mem_map.mpr ⟨_, mem_compiled.mpr ⟨j, o, ho, hrole, rfl⟩, ?_⟩
    have hj := h.getD ho
    rw [hidentity, Option.some.injEq] at hj
    exact hj.symm
  · refine (each_ok_mem (P := fun b : GeneratorSettingsBlocker =>
      Annotation.lookupRole (manifestSummary document identities) b.objectIdentity =
        some .auxiliaryGeometry ∧ ∀ target ∈ b.targets,
        Annotation.lookupRole (manifestSummary document identities) target = some .rawGeometry)
      fun i b => ?_).mpr fun b hb => ?_
    · rw [seq_ok, require_ok]
      exact and_congr_right fun _ => each_ok_mem fun _ _ => require_ok
    · obtain ⟨j, o, ho, hrole, rfl⟩ := mem_compiled.mp hb
      refine ⟨?_, fun target ht => ?_⟩
      · rw [compiledBlocker, h.lookupRole ho (h.getD ho), hrole]
        rfl
      · obtain ⟨key, hkey, rfl⟩ := List.mem_map.mp ht
        obtain ⟨i, t, -, hi, -, hprintable, -, hat⟩ := h.target ho hkey
        rw [h.lookupRole hi hat, hprintable]
        rfl

/-! ## The compilation -/

theorem finishSettings_ok {blockers : List GeneratorSettingsBlocker} {settings : GeneratorSettings} :
    finishSettings sizes blockers = .ok settings ↔ settings = ⟨schemaVersion, blockers⟩ ∧
      validateGeneratorSettings sizes ⟨schemaVersion, blockers⟩ = .ok () := by
  constructor
  · intro h
    obtain ⟨hvalid, h⟩ := seq_ok.mp h
    cases h
    exact ⟨rfl, hvalid⟩
  · rintro ⟨rfl, hvalid⟩
    exact seq_ok.mpr ⟨hvalid, rfl⟩

/-- The only check that what is compiled can fail is the first. -/
theorem validate_compiled_error (h : Aligned sizes document identities) {e : AnnotationError}
    (he : validateGeneratorSettings sizes (compiled document.objects identities) = .error e) :
    maxDocumentBytes < sizes.generatorSettings (compiled document.objects identities) ∧
      e = .documentTooLarge "generator settings" maxDocumentBytes := by
  have hsize : ¬ sizes.generatorSettings (compiled document.objects identities) ≤
      maxDocumentBytes := by
    intro hle
    rw [(validate_compiled h).mpr hle] at he
    cases he
  refine ⟨by omega, ?_⟩
  rcases bind_error.mp he with he | ⟨u, hok, -⟩
  · exact (ensure_error.mp he).2.symm
  · exact absurd (ensure_ok.mp hok) hsize

end Compiled

/-- A target of a blocker is the identity of the object with its key. -/
def Names (document : AuthoringDocument) (identities : List String) (key target : String) : Prop :=
  ∃ (i : Nat) (t : AuthoringObject), document.objects[i]? = some t ∧ t.key = some key ∧
    identities[i]? = some target

/-- Blockers and their targets stand in the order of the document. -/
def InOrder (document : AuthoringDocument) (identities : List String)
    (settings : GeneratorSettings) : Prop :=
  List.Forall₂ (fun ((o, j) : AuthoringObject × Nat) (b : GeneratorSettingsBlocker) =>
      identities[j]? = some b.objectIdentity ∧
        List.Forall₂ (Names document identities) o.annotation.targets b.targets)
    (document.objects.zipIdx.filter fun p => p.1.role = .supportBlocker) settings.blockers

theorem compiled_inOrder {sizes : Sizes} {document : AuthoringDocument} {identities : List String}
    (h : Aligned sizes document identities) :
    InOrder document identities (compiled document.objects identities) := by
  rw [InOrder, compiled, List.forall₂_map_right_iff, List.forall₂_same]
  rintro ⟨o, j⟩ hp
  have ho := List.mem_zipIdx_iff_getElem?.mp (List.mem_of_mem_filter hp)
  refine ⟨h.getD ho, ?_⟩
  rw [compiledBlocker, List.forall₂_map_right_iff, List.forall₂_same]
  intro key hkey
  obtain ⟨i, t, -, hi, htkey, -, -, hat⟩ := h.target ho hkey
  exact ⟨i, t, hi, htkey, hat⟩

/-- An accepted document with an identity for every object compiles without a panic. In the settings
one object blocks another exactly when it is a support blocker that lists the key of the other,
blockers and targets stand in the order of the document, and the settings fit the manifest of the
objects; only a document of settings that is too large is refused. -/
theorem settings_compiled {sizes : Sizes} {document : AuthoringDocument} {identities : List String}
    (h : Aligned sizes document identities) :
    (∀ settings, buildGeneratorSettings sizes document identities = some (.ok settings) →
      (∀ (i j : Nat) (o t : AuthoringObject) (blocker target : String),
        document.objects[j]? = some o → document.objects[i]? = some t →
        identities[j]? = some blocker → identities[i]? = some target →
        ((∃ b ∈ settings.blockers, b.objectIdentity = blocker ∧ target ∈ b.targets) ↔
          o.role = .supportBlocker ∧ ∃ key, t.key = some key ∧ key ∈ o.annotation.targets)) ∧
      InOrder document identities settings ∧
      validateSettingsContext sizes settings (manifestSummary document identities) = .ok ()) ∧
    (∀ e, buildGeneratorSettings sizes document identities = some (.error e) →
      e = .documentTooLarge "generator settings" maxDocumentBytes ∧
      maxDocumentBytes < sizes.generatorSettings (compiled document.objects identities)) ∧
    buildGeneratorSettings sizes document identities ≠ none := by
  rw [build_eq h]
  refine ⟨fun settings hs => ?_, fun e he => ?_, Option.some_ne_none _⟩
  · obtain ⟨rfl, hvalid⟩ := finishSettings_ok.mp (Option.some.inj hs)
    exact ⟨fun i j o t blocker target => compiled_blocks h, compiled_inOrder h,
      validate_context h hvalid⟩
  · rcases bind_error.mp (Option.some.inj he) with he | ⟨u, -, he⟩
    · obtain ⟨hsize, rfl⟩ := validate_compiled_error h he
      exact ⟨rfl, hsize⟩
    · cases he

def blockerDocument : AuthoringDocument where
  schemaVersion := 1
  objects := [⟨.partStudioPart "d" "m" "e" "c" "p", "body", ⟨.printable, some "k", []⟩⟩,
    ⟨.partStudioPart "d" "m" "e" "c" "q", "block", ⟨.supportBlocker, none, ["k"]⟩⟩]

theorem blockerDocument_aligned :
    Aligned ⟨fun _ => 0, fun _ => 0, fun _ => 0⟩ blockerDocument ["a", "b"] :=
  ⟨by decide +kernel, rfl, by decide +kernel, by decide⟩

example : buildGeneratorSettings ⟨fun _ => 0, fun _ => 0, fun _ => 0⟩ blockerDocument ["a", "b"] =
    some (.ok ⟨1, [⟨"b", ["a"]⟩]⟩) := by decide +kernel

theorem settings_compiled_blocker :
    buildGeneratorSettings ⟨fun _ => 0, fun _ => 0, fun _ => 0⟩ blockerDocument ["a", "b"] ≠ none :=
  (settings_compiled blockerDocument_aligned).2.2

end Annotation
end OnshapeExport
