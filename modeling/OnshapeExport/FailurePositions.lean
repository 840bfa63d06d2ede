import OnshapeExport.SelectionResolution
import Mathlib.Data.List.Dedup

/-!
# FailurePositions

The positions that `onshape_selection.rs` reports when a document or its context is refused, and
the validators of `onshape_annotation.rs` that refuse it.

* `documentFailurePosition_some` — the first object with a target that does not resolve.
* `validateContext_iff` — what a context that is accepted agrees on.
* `contextFailurePosition_spec` — the lowest contested position.
* `failure_positions` — a position is reported exactly when a validator refuses.
-/

namespace OnshapeExport
namespace Selection

open Annotation CacheKey Checks Json
open FirstSeen (Contested ContestedBefore IsLowest Notes contested_iff foldl_zipIdx)

/-! ## Documents -/

/-- All a document is checked for before its targets. -/
structure BeforeTargets (sizes : Sizes) (document : AuthoringDocument) : Prop where
  size : sizes.authoringDocument document ≤ maxDocumentBytes
  version : document.schemaVersion = schemaVersion
  length : document.objects.length ≤ maxObjects
  objects : ∀ i (o : AuthoringObject), document.objects[i]? = some o → o.validate i = .ok ()
  selectors : (document.objects.map AuthoringObject.selector).Nodup

/-- The check of the targets of all objects. -/
def validateTargets (document : AuthoringDocument) : Checked :=
  each (fun i (o : AuthoringObject) => each (fun _ target => validateTarget document.objects i target)
    0 o.annotation.targets) 0 document.objects

theorem BeforeTargets.validate {sizes : Sizes} {document : AuthoringDocument} (h : BeforeTargets sizes document) :
    validateAuthoringDocument sizes document = validateTargets document := by
  have hobjects : eachNew (fun i (o : AuthoringObject) => o.validate i) AuthoringObject.selector
      (fun i _ => .invalid ("objects[" ++ toString i ++ "].selector duplicates another selector"))
      (fun _ _ => .ok ()) 0 [] document.objects = .ok () :=
    eachNew_ok.mpr ⟨fun i o ho => ⟨by rw [Nat.zero_add]; exact h.objects i o ho, rfl⟩, h.selectors⟩
  simp only [validateAuthoringDocument, validateSerializedSize, require, ensure, if_pos h.size,
    if_pos h.version, if_pos h.length, hobjects]
  rfl

theorem targetFails_eq_false {objects : List AuthoringObject} {p : Nat} {target : String} :
    targetFails objects p target = false ↔ Resolves objects p target := by
  unfold targetFails Resolves
  split
  · rename_i position hone
    simp only [hone, List.cons.injEq, and_true, Bool.or_eq_false_iff, decide_eq_false_iff_not]
    have hmem : position ∈ keyPositions objects target := by
      rw [hone]
      exact List.mem_singleton_self position
    obtain ⟨o, ho, -⟩ := mem_keyPositions.mp hmem
    constructor
    · rintro ⟨hne, hrole⟩
      rw [ho, Option.any_some, decide_eq_false_iff_not, not_not] at hrole
      exact ⟨position, o, rfl, hne, ho, hrole⟩
    · rintro ⟨_, o', rfl, hne, ho', hrole⟩
      rw [ho', Option.any_some, decide_eq_false_iff_not, not_not]
      exact ⟨hne, hrole⟩
  · rename_i hmany
    simp only [Bool.true_eq_false, false_iff, not_exists, not_and]
    intro i o hone
    exact absurd hone (hmany i)

/-- An object all of whose targets resolve. -/
def Resolved (document : AuthoringDocument) (p : Nat) (o : AuthoringObject) : Prop :=
  ∀ target ∈ o.annotation.targets, Resolves document.objects p target

/-- The first place of a list whose element is bad there. -/
theorem findSome_zipIdx {α : Type} {bad : Nat → α → Bool} {l : List α} {n p : Nat} :
    (l.zipIdx n).findSome? (fun (a, i) => if bad i a then some i else none) = some p ↔
      ∃ i, p = n + i ∧ (∃ a, l[i]? = some a ∧ bad p a = true) ∧
        ∀ j a, j < i → l[j]? = some a → bad (n + j) a = false := by
  induction l generalizing n with
  | nil => simp
  | cons b l ih =>
    rw [List.zipIdx_cons, List.findSome?_cons]
    dsimp only
    by_cases hb : bad n b = true
    · rw [if_pos hb]
      simp only [Option.some.injEq]
      constructor
      · rintro rfl
        exact ⟨0, rfl, ⟨b, rfl, hb⟩, fun j a hj => absurd hj (Nat.not_lt_zero j)⟩
      · rintro ⟨i, rfl, -, hbefore⟩
        cases i with
        | zero => rfl
        | succ i =>
          have := hbefore 0 b (by omega) rfl
          rw [Nat.add_zero, hb] at this
          cases this
    · rw [if_neg hb]
      dsimp only
      rw [ih]
      constructor
      · rintro ⟨i, rfl, ⟨a, ha, hbad⟩, hbefore⟩
        refine ⟨i + 1, by omega, ⟨a, by rw [List.getElem?_cons_succ]; exact ha, hbad⟩, ?_⟩
        intro j a' hj ha'
        cases j with
        | zero =>
          simp only [List.getElem?_cons_zero, Option.some.injEq] at ha'
          subst ha'
          exact Bool.eq_false_iff.mpr hb
        | succ j =>
          rw [List.getElem?_cons_succ] at ha'
          have := hbefore j a' (by omega) ha'
          rwa [show n + 1 + j = n + (j + 1) by omega] at this
      · rintro ⟨i, rfl, ⟨a, ha, hbad⟩, hbefore⟩
        cases i with
        | zero =>
          simp only [List.getElem?_cons_zero, Option.some.injEq] at ha
          subst ha
          exact absurd hbad hb
        | succ i =>
          rw [List.getElem?_cons_succ] at ha
          refine ⟨i, by omega, ⟨a, ha, hbad⟩, fun j a' hj ha' => ?_⟩
          have := hbefore (j + 1) a' (by omega) (by rw [List.getElem?_cons_succ]; exact ha')
          rwa [show n + (j + 1) = n + 1 + j by omega] at this

theorem documentFailurePosition_some {document : AuthoringDocument} {p : Nat} :
    documentFailurePosition document = some p ↔
      (∃ o, document.objects[p]? = some o ∧ ¬ Resolved document p o) ∧
        ∀ q o, q < p → document.objects[q]? = some o → Resolved document q o := by
  have hbad : ∀ (p : Nat) (o : AuthoringObject),
      o.annotation.targets.any (targetFails document.objects p) = false ↔ Resolved document p o := by
    intro p o
    rw [List.any_eq_false]
    refine forall₂_congr fun target _ => ?_
    rw [Bool.not_eq_true, targetFails_eq_false]
  rw [documentFailurePosition, @findSome_zipIdx _ fun p (o : AuthoringObject) =>
    o.annotation.targets.any (targetFails document.objects p)]
  simp only [Nat.zero_add, hbad, exists_eq_left']
  refine and_congr_left fun _ => exists_congr fun o => and_congr_right fun _ => ?_
  rw [← hbad, Bool.not_eq_false]

/-- What the check of targets fails with is the first failure of the object that is reported. -/
theorem validateTargets_error {document : AuthoringDocument} {e : AnnotationError}
    (h : validateTargets document = .error e) : ∃ p o target,
      documentFailurePosition document = some p ∧ document.objects[p]? = some o ∧
      target ∈ o.annotation.targets ∧ validateTarget document.objects p target = .error e ∧
      ∀ q o, q < p → document.objects[q]? = some o → ∀ target ∈ o.annotation.targets,
        validateTarget document.objects q target = .ok () := by
  obtain ⟨p, o, ho, hfails, hbefore⟩ := each_error h
  rw [Nat.zero_add] at hfails
  obtain ⟨i, target, ht, htarget, -⟩ := each_error hfails
  have hmem := List.mem_of_getElem? ht
  have hearlier : ∀ q o, q < p → document.objects[q]? = some o → ∀ target ∈ o.annotation.targets,
      validateTarget document.objects q target = .ok () := by
    intro q o' hq ho'
    have hok := hbefore q o' hq ho'
    rw [Nat.zero_add] at hok
    exact (each_ok_mem (P := fun t => validateTarget document.objects q t = .ok ())
      fun _ _ => Iff.rfl).mp hok
  refine ⟨p, o, target, documentFailurePosition_some.mpr ⟨⟨o, ho, fun hall => ?_⟩, ?_⟩, ho, hmem,
    htarget, hearlier⟩
  · rw [validateTarget_ok.mpr (hall target hmem)] at htarget
    cases htarget
  · exact fun q o' hq ho' t htm => validateTarget_ok.mp (hearlier q o' hq ho' t htm)

theorem validateTargets_ok {document : AuthoringDocument} :
    validateTargets document = .ok () ↔ documentFailurePosition document = none := by
  have hok : validateTargets document = .ok () ↔
      ∀ p o, document.objects[p]? = some o → Resolved document p o := by
    rw [validateTargets, each_ok]
    refine forall₂_congr fun p o => forall_congr' fun _ => ?_
    rw [Nat.zero_add]
    exact each_ok_mem fun _ _ => validateTarget_ok
  constructor
  · intro h
    cases hp : documentFailurePosition document with
    | none => rfl
    | some p =>
      obtain ⟨⟨o, ho, hfails⟩, -⟩ := documentFailurePosition_some.mp hp
      exact absurd (hok.mp h p o ho) hfails
  · intro hnone
    cases h : validateTargets document with
    | ok u => rfl
    | error e =>
      obtain ⟨p, -, -, hp, -⟩ := validateTargets_error h
      rw [hp] at hnone
      cases hnone

/-! ## Contexts -/

/-- What is kept of the first object of a configured part. -/
def partContent (digests : Digests) : AuthoringObject × AuthoringContextEntry → String × String
  | (o, _) => (o.displayName, canonicalAnnotation digests o.annotation)

/-- An entry that belongs to its object. -/
def EntryMatches (index : Nat) : AuthoringObject × AuthoringContextEntry → Prop
  | (o, entry) => entry.planPosition = index ∧ entry.selector = o.selector ∧
      entry.configuredPartIdentity ≠ ""

/-- Entries of one configured part agree. -/
def PartsAgree (digests : Digests) (pairs : List (AuthoringObject × AuthoringContextEntry)) : Prop :=
  ∀ a ∈ pairs, ∀ b ∈ pairs, a.2.configuredPartIdentity = b.2.configuredPartIdentity →
    partContent digests a = partContent digests b

section Context

variable {digests : Digests}

theorem partsAgree_cons {a : AuthoringObject × AuthoringContextEntry}
    {pairs : List (AuthoringObject × AuthoringContextEntry)} :
    PartsAgree digests (a :: pairs) ↔
      (∀ b ∈ pairs, b.2.configuredPartIdentity = a.2.configuredPartIdentity →
        partContent digests b = partContent digests a) ∧ PartsAgree digests pairs := by
  constructor
  · intro h
    exact ⟨fun b hb => h b (List.mem_cons_of_mem _ hb) a List.mem_cons_self,
      fun b hb c hc => h b (List.mem_cons_of_mem _ hb) c (List.mem_cons_of_mem _ hc)⟩
  · rintro ⟨ha, h⟩ b hb c hc he
    rcases List.mem_cons.mp hb with hba | hb
    · rcases List.mem_cons.mp hc with hca | hc
      · rw [hba, hca]
      · rw [hba] at he ⊢
        exact (ha c hc he.symm).symm
    · rcases List.mem_cons.mp hc with hca | hc
      · rw [hca] at he ⊢
        exact ha b hb he
      · exact h b hb c hc he

theorem entriesMatch_cons {index : Nat} {a : AuthoringObject × AuthoringContextEntry}
    {pairs : List (AuthoringObject × AuthoringContextEntry)} :
    (∀ i b, (a :: pairs)[i]? = some b → EntryMatches (index + i) b) ↔
      EntryMatches index a ∧ ∀ i b, pairs[i]? = some b → EntryMatches (index + 1 + i) b := by
  constructor
  · intro h
    refine ⟨h 0 a rfl, fun i b hb => ?_⟩
    have := h (i + 1) b (by rw [List.getElem?_cons_succ]; exact hb)
    rwa [show index + (i + 1) = index + 1 + i by omega] at this
  · rintro ⟨h0, h⟩ i b hb
    cases i with
    | zero =>
      simp only [List.getElem?_cons_zero, Option.some.injEq] at hb
      subst hb
      exact h0
    | succ i =>
      rw [List.getElem?_cons_succ] at hb
      have := h i b hb
      rwa [show index + 1 + i = index + (i + 1) by omega] at this

/-- The loop over the entries accepts what belongs together and agrees. -/
theorem validateContextEntries_ok {pairs : List (AuthoringObject × AuthoringContextEntry)}
    {index : Nat} {seen : List (String × String × String)} :
    validateContextEntries digests index seen pairs = .ok () ↔
      (∀ i a, pairs[i]? = some a → EntryMatches (index + i) a) ∧
      (∀ a ∈ pairs, ∀ content, get? seen a.2.configuredPartIdentity = some content →
        partContent digests a = content) ∧ PartsAgree digests pairs := by
  induction pairs generalizing index seen with
  | nil => simp [validateContextEntries, PartsAgree]
  | cons a pairs ih =>
    rw [entriesMatch_cons, partsAgree_cons, List.forall_mem_cons]
    obtain ⟨o, entry⟩ := a
    cases hs : get? seen entry.configuredPartIdentity with
    | some content =>
      obtain ⟨displayName, annotation⟩ := content
      simp only [validateContextEntries, hs, seq_ok, require_ok, ih, EntryMatches, partContent,
        Option.some.injEq]
      constructor
      · rintro ⟨hplan, hselector, hne, rfl, rfl, hmatch, hseen, hagree⟩
        refine ⟨⟨⟨hplan, hselector, hne⟩, hmatch⟩, ⟨fun _ he => he, hseen⟩, fun b hb he => ?_, hagree⟩
        exact hseen b hb _ (by rw [he]; exact hs)
      · rintro ⟨⟨⟨hplan, hselector, hne⟩, hmatch⟩, ⟨hself, hseen⟩, -, hagree⟩
        have := Prod.ext_iff.mp (hself _ rfl)
        exact ⟨hplan, hselector, hne, this.1.symm, this.2, hmatch, hseen, hagree⟩
    | none =>
      have hlookup : ∀ (b : AuthoringObject × AuthoringContextEntry) content,
          get? ((entry.configuredPartIdentity, o.displayName,
              canonicalAnnotation digests o.annotation) :: seen) b.2.configuredPartIdentity =
            some content ↔
          b.2.configuredPartIdentity = entry.configuredPartIdentity ∧
              content = partContent digests (o, entry) ∨
            get? seen b.2.configuredPartIdentity = some content := by
        intro b content
        by_cases he : b.2.configuredPartIdentity = entry.configuredPartIdentity
        · rw [he, hs]
          simp [get?, partContent, eq_comm]
        · have hne : (b.2.configuredPartIdentity == entry.configuredPartIdentity) = false := by
            simpa using he
          simp [get?, List.lookup_cons, List.lookup_nil, hne, he]
      simp only [validateContextEntries, hs, seq_ok, require_ok, ih, EntryMatches, hlookup,
        reduceCtorEq, false_implies, implies_true, true_and]
      constructor
      · rintro ⟨hplan, hselector, hne, hmatch, hseen, hagree⟩
        exact ⟨⟨⟨hplan, hselector, hne⟩, hmatch⟩, fun b hb content he => hseen b hb content (.inr he),
          fun b hb he => hseen b hb _ (.inl ⟨he, rfl⟩), hagree⟩
      · rintro ⟨⟨⟨hplan, hselector, hne⟩, hmatch⟩, hseen, hsame, hagree⟩
        refine ⟨hplan, hselector, hne, hmatch, ?_, hagree⟩
        rintro b hb content (⟨he, rfl⟩ | he)
        · exact hsame b hb he
        · exact hseen b hb content he

theorem heads_iff {α : Type} {l : List α} :
    (∀ a ∈ l, some a = l.head?) ↔ ∀ a ∈ l, ∀ b ∈ l, a = b := by
  cases l with
  | nil => simp
  | cons c l =>
    rw [List.head?_cons]
    constructor
    · intro h a ha b hb
      rw [Option.some.inj (h a ha), Option.some.inj (h b hb)]
    · intro h a ha
      rw [h a ha c List.mem_cons_self]

/-- What is compared of the objects of one key. -/
def keyGroupContent (digests : Digests) : AuthoringObject × AuthoringContextEntry → String × String
  | (o, entry) => (entry.configuredPartIdentity, canonicalAnnotation digests o.annotation)

/-- All objects of a key have one configured part and one annotation. -/
def KeysAgree (digests : Digests) (pairs : List (AuthoringObject × AuthoringContextEntry)) : Prop :=
  ∀ a ∈ pairs, ∀ b ∈ pairs, ∀ key, a.1.key = some key → b.1.key = some key →
    keyGroupContent digests a = keyGroupContent digests b

theorem mem_keyGroup {pairs : List (AuthoringObject × AuthoringContextEntry)} {key : String}
    {content : String × String} : content ∈ keyGroup digests pairs key ↔
      ∃ a ∈ pairs, a.1.key = some key ∧ keyGroupContent digests a = content := by
  simp only [keyGroup, List.mem_map, List.mem_filter, decide_eq_true_eq, and_assoc]
  rfl

/-- The groups of the keys are accepted when the objects of every key agree. -/
theorem keyGroups_ok {pairs : List (AuthoringObject × AuthoringContextEntry)}
    {objects : List AuthoringObject} (hobjects : pairs.map Prod.fst = objects) :
    each (fun _ key => do
      let group := keyGroup digests pairs key
      require (∀ g ∈ group, some g = group.head?)
        ("duplicate key " ++ key ++ " does not represent identical configured-part fan-out")) 0
      (objects.filterMap AuthoringObject.key).dedup = .ok () ↔ KeysAgree digests pairs := by
  rw [each_ok_mem (P := fun key => ∀ g ∈ keyGroup digests pairs key,
    some g = (keyGroup digests pairs key).head?) fun _ _ => require_ok]
  constructor
  · intro h a ha b hb key hka hkb
    have hkey : key ∈ (objects.filterMap AuthoringObject.key).dedup := by
      rw [List.mem_dedup, List.mem_filterMap, ← hobjects]
      exact ⟨a.1, List.mem_map_of_mem ha, hka⟩
    exact heads_iff.mp (h key hkey) _ (mem_keyGroup.mpr ⟨a, ha, hka, rfl⟩) _
      (mem_keyGroup.mpr ⟨b, hb, hkb, rfl⟩)
  · intro h key _
    refine heads_iff.mpr fun g hg g' hg' => ?_
    obtain ⟨a, ha, hka, rfl⟩ := mem_keyGroup.mp hg
    obtain ⟨b, hb, hkb, rfl⟩ := mem_keyGroup.mp hg'
    exact h a ha b hb key hka hkb

theorem validateAuthoringContext_ok {sizes : Sizes} {document : AuthoringDocument}
    {context : List AuthoringContextEntry} (hdocument : validateAuthoringDocument sizes document = .ok ())
    (hlength : context.length = document.objects.length) :
    validateAuthoringContext digests sizes document context = .ok () ↔
      (∀ i a, (document.objects.zip context)[i]? = some a → EntryMatches i a) ∧
      PartsAgree digests (document.objects.zip context) ∧
      KeysAgree digests (document.objects.zip context) := by
  have hobjects : (document.objects.zip context).map Prod.fst = document.objects :=
    List.map_fst_zip (by rw [hlength])
  simp only [validateAuthoringContext, seq_ok, require_ok, validateContextEntries_ok,
    keyGroups_ok hobjects, Nat.zero_add]
  constructor
  · rintro ⟨-, -, ⟨hmatch, -, hparts⟩, hkeys⟩
    exact ⟨hmatch, hparts, hkeys⟩
  · rintro ⟨hmatch, hparts, hkeys⟩
    refine ⟨hdocument, hlength, ⟨hmatch, ?_, hparts⟩, hkeys⟩
    intro a _ content hcontent
    rw [get?, List.lookup_nil] at hcontent
    cases hcontent

end Context

/-! ## Candidates -/

section Candidates

variable {digests : Digests} {document : AuthoringDocument} {candidates : List Candidate}

/-- The objects of one leaf have one name and one annotation. -/
def LeavesAgree (entries : List (AuthoringObject × Candidate)) : Prop :=
  ∀ a ∈ entries, ∀ b ∈ entries, a.2.leaf = b.2.leaf → leafContent a = leafContent b

/-- The objects of one key have one leaf and one annotation. -/
def EntriesAgree (entries : List (AuthoringObject × Candidate)) : Prop :=
  ∀ a ∈ entries, ∀ b ∈ entries, ∀ key, a.1.key = some key → b.1.key = some key →
    keyContent a = keyContent b

theorem canonicalAnnotation_inj (ht : digests.text.Faithful) {a b : NormalizedAnnotation} :
    canonicalAnnotation digests a = canonicalAnnotation digests b ↔ a = b := by
  refine ⟨fun h => ?_, fun h => by rw [h]⟩
  exact NormalizedAnnotation.codec.enc_inj ( fits_annotation a) ( fits_annotation b)
    (ht.print_inj ( NormalizedAnnotation.codec.canonical a ( fits_annotation a))
      ( NormalizedAnnotation.codec.canonical b ( fits_annotation b)) h)

theorem configuredPartIdentity_inj (ht : digests.text.Faithful) {a b : ConfiguredLeaf} :
    configuredPartIdentity digests a = configuredPartIdentity digests b ↔ a = b := by
  refine ⟨fun h => ?_, fun h => by rw [h]⟩
  exact ConfiguredLeaf.codec.enc_inj (fits_leaf a) (fits_leaf b)
    (ht.print_inj (ConfiguredLeaf.codec.canonical a (fits_leaf a))
      (ConfiguredLeaf.codec.canonical b (fits_leaf b)) h)

variable (digests) in
def contextEntry (p : Nat) (c : Candidate) : AuthoringContextEntry :=
  ⟨c.selector, p, configuredPartIdentity digests c.leaf⟩

theorem candidateContext_getElem? (p : Nat) :
    (candidateContext digests candidates)[p]? = (candidates[p]?).map (contextEntry digests p) := by
  simp only [candidateContext, authoringContext, List.getElem?_map, List.getElem?_zipIdx,
    Option.map_map, Nat.zero_add]
  rfl

theorem zip_context_getElem? {p : Nat} {o : AuthoringObject} {entry : AuthoringContextEntry} :
    (document.objects.zip (candidateContext digests candidates))[p]? = some (o, entry) ↔
      ∃ c, (document.objects.zip candidates)[p]? = some (o, c) ∧ entry = contextEntry digests p c := by
  simp only [List.getElem?_zip_eq_some, candidateContext_getElem?, Option.map_eq_some_iff]
  constructor
  · rintro ⟨ho, c, hc, rfl⟩
    exact ⟨c, ⟨ho, hc⟩, rfl⟩
  · rintro ⟨c, ⟨ho, hc⟩, rfl⟩
    exact ⟨ho, c, hc, rfl⟩

theorem mem_zip_context {a : AuthoringObject × AuthoringContextEntry} :
    a ∈ document.objects.zip (candidateContext digests candidates) ↔
      ∃ p o c, (o, c) ∈ document.objects.zip candidates ∧
        (document.objects.zip candidates)[p]? = some (o, c) ∧ a = (o, contextEntry digests p c) := by
  constructor
  · intro h
    obtain ⟨p, hp⟩ := List.getElem?_of_mem h
    obtain ⟨o, entry⟩ := a
    obtain ⟨c, hc, rfl⟩ := zip_context_getElem?.mp hp
    exact ⟨p, o, c, List.mem_of_getElem? hc, hc, rfl⟩
  · rintro ⟨p, o, c, -, hc, rfl⟩
    exact List.mem_of_getElem? (zip_context_getElem?.mpr ⟨c, hc, rfl⟩)

theorem context_of_mem {o : AuthoringObject} {c : Candidate}
    (h : (o, c) ∈ document.objects.zip candidates) :
    ∃ p, (o, contextEntry digests p c) ∈
      document.objects.zip (candidateContext digests candidates) := by
  obtain ⟨p, hp⟩ := List.getElem?_of_mem h
  exact ⟨p, mem_zip_context.mpr ⟨p, o, c, h, hp, rfl⟩⟩

theorem partsAgree_iff (ht : digests.text.Faithful) :
    PartsAgree digests (document.objects.zip (candidateContext digests candidates)) ↔
      LeavesAgree (document.objects.zip candidates) := by
  constructor
  · rintro h ⟨o, c⟩ ha ⟨o', c'⟩ hb he
    obtain ⟨p, hp⟩ := context_of_mem ha
    obtain ⟨q, hq⟩ := context_of_mem hb
    have := Prod.ext_iff.mp (h _ hp _ hq ((configuredPartIdentity_inj ht).mpr he))
    exact Prod.ext this.1 ((canonicalAnnotation_inj ht).mp this.2)
  · intro h a ha b hb he
    obtain ⟨p, o, c, hc, -, rfl⟩ := mem_zip_context.mp ha
    obtain ⟨q, o', c', hc', -, rfl⟩ := mem_zip_context.mp hb
    have := Prod.ext_iff.mp (h _ hc _ hc' ((configuredPartIdentity_inj ht).mp he))
    exact Prod.ext this.1 ((canonicalAnnotation_inj ht).mpr this.2)

theorem keysAgree_iff (ht : digests.text.Faithful) :
    KeysAgree digests (document.objects.zip (candidateContext digests candidates)) ↔
      EntriesAgree (document.objects.zip candidates) := by
  constructor
  · rintro h ⟨o, c⟩ ha ⟨o', c'⟩ hb key hka hkb
    obtain ⟨p, hp⟩ := context_of_mem ha
    obtain ⟨q, hq⟩ := context_of_mem hb
    have := Prod.ext_iff.mp (h _ hp _ hq key hka hkb)
    exact Prod.ext ((configuredPartIdentity_inj ht).mp this.1)
      ((canonicalAnnotation_inj ht).mp this.2)
  · intro h a ha b hb key hka hkb
    obtain ⟨p, o, c, hc, -, rfl⟩ := mem_zip_context.mp ha
    obtain ⟨q, o', c', hc', -, rfl⟩ := mem_zip_context.mp hb
    have := Prod.ext_iff.mp (h _ hc _ hc' key hka hkb)
    exact Prod.ext ((configuredPartIdentity_inj ht).mpr this.1)
      ((canonicalAnnotation_inj ht).mpr this.2)

/-- The first position of a leaf or a key, contested by a later object. -/
def Involved (entries : List (AuthoringObject × Candidate)) (p : Nat) : Prop :=
  Contested entries (fun a => some a.2.leaf) leafContent p ∨
    Contested entries (fun a => a.1.key) keyContent p

theorem involved_iff {entries : List (AuthoringObject × Candidate)} :
    (∃ p, Involved entries p) ↔ ¬ (LeavesAgree entries ∧ EntriesAgree entries) := by
  have hleaf : (∃ p, Contested entries (fun a => some a.2.leaf) leafContent p) ↔
      ¬ LeavesAgree entries := by
    rw [contested_iff]
    refine not_congr (forall₂_congr fun a _ => forall₂_congr fun b _ => ?_)
    constructor
    · intro h he
      exact h b.2.leaf (congrArg some he) rfl
    · intro h leaf ha hb
      exact h ((Option.some.inj ha).trans (Option.some.inj hb).symm)
  have hkey : (∃ p, Contested entries (fun a => a.1.key) keyContent p) ↔
      ¬ EntriesAgree entries := contested_iff
  simp only [Involved, exists_or, hleaf, hkey]
  tauto

/-- What the scan knows after some entries. -/
structure Scanned (entries : List (AuthoringObject × Candidate)) (n : Nat) (s : ContextScan) :
    Prop where
  leaves : Notes entries (fun a => some a.2.leaf) n s.firstByLeaf
  keys : Notes entries (fun a => a.1.key) n s.firstByKey
  lowest : IsLowest ({p | ContestedBefore entries (fun a => some a.2.leaf) leafContent n p} ∪
    {p | ContestedBefore entries (fun a => a.1.key) keyContent n p}) s.lowest

theorem scanned_step {entries : List (AuthoringObject × Candidate)} {n : Nat}
    {a : AuthoringObject × Candidate} {s : ContextScan} (ha : entries[n]? = some a)
    (h : Scanned entries n s) : Scanned entries (n + 1) (scanEntry entries s (a, n)) := by
  obtain ⟨hleaves, hlowest⟩ := FirstSeen.notes_step ha h.leaves h.lowest
  rw [Set.union_comm] at hlowest
  obtain ⟨hkeys, hlowest⟩ := FirstSeen.notes_step ha h.keys hlowest
  rw [Set.union_comm] at hlowest
  exact ⟨hleaves, hkeys, hlowest⟩

theorem scanned_start (entries : List (AuthoringObject × Candidate)) :
    Scanned entries 0 ⟨[], [], none⟩ where
  leaves := FirstSeen.notes_start
  keys := FirstSeen.notes_start
  lowest := by
    refine Set.eq_empty_iff_forall_notMem.mpr fun p hp => ?_
    rcases hp with hp | hp
    · exact FirstSeen.contested_start p hp
    · exact FirstSeen.contested_start p hp

/-- The position that is reported is the lowest that is involved. -/
theorem contextFailurePosition_spec (document : AuthoringDocument) (candidates : List Candidate) :
    IsLowest {p | Involved (document.objects.zip candidates) p}
      (contextFailurePosition document candidates) := by
  have h : Scanned (document.objects.zip candidates) (document.objects.zip candidates).length _ :=
    foldl_zipIdx (scanned_start _) fun n a s ha hs => scanned_step ha hs
  have hset : {p | Involved (document.objects.zip candidates) p} =
      {p | ContestedBefore (document.objects.zip candidates) (fun a => some a.2.leaf) leafContent
        (document.objects.zip candidates).length p} ∪
      {p | ContestedBefore (document.objects.zip candidates) (fun a => a.1.key) keyContent
        (document.objects.zip candidates).length p} := by
    ext p
    simp only [Involved, ← FirstSeen.contestedBefore_length, Set.mem_union, Set.mem_ofPred_eq]
  rw [hset]
  exact h.lowest

/-- The entries of aligned candidates belong to their objects. -/
theorem entries_match (hprint : ∀ v, digests.text.print v ≠ "")
    (haligned : document.objects.map AuthoringObject.selector = candidates.map Candidate.selector)
    (p : Nat) (a : AuthoringObject × AuthoringContextEntry)
    (ha : (document.objects.zip (candidateContext digests candidates))[p]? = some a) :
    EntryMatches p a := by
  obtain ⟨o, entry⟩ := a
  obtain ⟨c, hc, rfl⟩ := zip_context_getElem?.mp ha
  rw [List.getElem?_zip_eq_some] at hc
  have hselector := congrArg (·[p]?) haligned
  simp only [List.getElem?_map, hc.1, hc.2, Option.map_some, Option.some.injEq] at hselector
  exact ⟨rfl, hselector.symm, hprint _⟩

end Candidates

/-! ## Positions and validators -/

theorem error_iff {ε : Type} {x : Except ε Unit} : (∃ e, x = .error e) ↔ ¬ x = .ok () := by
  cases x <;> simp

/-- A document that is sound but for its targets is refused exactly when a position is reported, that
of the object whose target fails first. A context of aligned candidates is refused exactly when a
position is reported, the lowest first position of a leaf or a key that is contested. -/
theorem failure_positions {digests : Digests} {sizes : Sizes} (ht : digests.text.Faithful)
    (hprint : ∀ v, digests.text.print v ≠ "") :
    (∀ document, BeforeTargets sizes document →
      ((∃ e, validateAuthoringDocument sizes document = .error e) ↔
        ∃ p, documentFailurePosition document = some p) ∧
      ∀ e, validateAuthoringDocument sizes document = .error e → ∃ p o target,
        documentFailurePosition document = some p ∧ document.objects[p]? = some o ∧
        target ∈ o.annotation.targets ∧ validateTarget document.objects p target = .error e ∧
        ∀ q o, q < p → document.objects[q]? = some o → ∀ target ∈ o.annotation.targets,
          validateTarget document.objects q target = .ok ()) ∧
    ∀ document candidates, validateAuthoringDocument sizes document = .ok () →
      document.objects.map AuthoringObject.selector = candidates.map Candidate.selector →
      ((∃ e, validateAuthoringContext digests sizes document
          (candidateContext digests candidates) = .error e) ↔
        ∃ p, contextFailurePosition document candidates = some p) ∧
      ∀ p, contextFailurePosition document candidates = some p ↔
        IsLeast {p | Involved (document.objects.zip candidates) p} p := by
  constructor
  · intro document hsound
    rw [hsound.validate]
    refine ⟨?_, fun e => validateTargets_error⟩
    rw [error_iff, validateTargets_ok, ← Option.isSome_iff_exists, Option.isSome_iff_ne_none]
  · intro document candidates hdocument haligned
    have hspec := contextFailurePosition_spec document candidates
    refine ⟨?_, fun p => FirstSeen.isLowest_eq_some hspec⟩
    have hlength : (candidateContext digests candidates).length = document.objects.length := by
      have := congrArg List.length haligned
      simp only [List.length_map] at this
      simp [candidateContext, authoringContext, this]
    rw [error_iff, validateAuthoringContext_ok hdocument hlength, partsAgree_iff ht,
      keysAgree_iff ht, and_iff_right (entries_match hprint haligned),
      FirstSeen.isLowest_isSome hspec]
    exact involved_iff.symm

/-- No position is reported for a document of another version. -/
theorem other_version_refused :
    ¬ ∀ (sizes : Sizes) (document : AuthoringDocument),
      sizes.authoringDocument document ≤ maxDocumentBytes → document.objects.length ≤ maxObjects →
      (∀ i (o : AuthoringObject), document.objects[i]? = some o → o.validate i = .ok ()) →
      (document.objects.map AuthoringObject.selector).Nodup →
      ((∃ e, validateAuthoringDocument sizes document = .error e) ↔
        ∃ p, documentFailurePosition document = some p) := by
  intro h
  obtain ⟨p, hp⟩ := (h ⟨fun _ => 0, fun _ => 0, fun _ => 0⟩ ⟨2, []⟩ (Nat.zero_le _) (Nat.zero_le _)
    nofun List.nodup_nil).mp ⟨_, rfl⟩
  cases hp

theorem canonicalText_print_ne (v : Value) : canonicalText.print v ≠ "" := by
  intro h
  have hchars : v.chars = [] := by
    have := congrArg String.toList h
    simpa [canonicalText] using this
  have hnat : ∀ n, natChars n ≠ [] := fun n => Nat.toDigits_ne_nil
  cases v with
  | null => simp [Value.chars] at hchars
  | bool b => cases b <;> simp [Value.chars] at hchars
  | number n =>
    cases n with
    | int n =>
      simp only [Value.chars, numberChars, intChars] at hchars
      split at hchars
      · cases hchars
      · exact hnat _ hchars
    | float s => simp [Value.chars, numberChars] at hchars
  | string s => simp [Value.chars, stringChars] at hchars
  | array items => cases items <;> simp [Value.chars] at hchars
  | object members =>
    cases members with
    | nil => simp [Value.chars] at hchars
    | cons m ms =>
      obtain ⟨k, w⟩ := m
      simp [Value.chars] at hchars

def fanOutLeaf : ConfiguredLeaf := ⟨"d", "m", "e", "c", "p"⟩

/-- Two occurrences of one part, under two names. -/
def fanOutDocument : AuthoringDocument where
  schemaVersion := 1
  objects := [⟨.assemblyOccurrence "d" "m" "e" "c" ["a"], "left", ⟨.printable, none, []⟩⟩,
    ⟨.assemblyOccurrence "d" "m" "e" "c" ["b"], "right", ⟨.printable, none, []⟩⟩]

def fanOutCandidates : List Candidate :=
  [⟨fanOutLeaf, .assemblyOccurrence "d" "m" "e" "c" ["a"], identityPlacement, "", ""⟩,
    ⟨fanOutLeaf, .assemblyOccurrence "d" "m" "e" "c" ["b"], identityPlacement, "", ""⟩]

example : contextFailurePosition fanOutDocument fanOutCandidates = some 0 := by decide +kernel

theorem failure_positions_fanOut :
    (∃ e, validateAuthoringContext ⟨canonicalText, fun _ => ""⟩ ⟨fun _ => 0, fun _ => 0, fun _ => 0⟩
        fanOutDocument (candidateContext ⟨canonicalText, fun _ => ""⟩ fanOutCandidates) = .error e) ↔
      ∃ p, contextFailurePosition fanOutDocument fanOutCandidates = some p :=
  ((failure_positions canonicalText_faithful canonicalText_print_ne).2 fanOutDocument
    fanOutCandidates (by decide +kernel) (by decide +kernel)).1

end Selection
end OnshapeExport
