import OnshapeExport.AssemblyProjections

/-!
# AssemblyClassification

The failures of an assembly selection are those of its phases.

* `joinSelected_runs`, `projectSelected_runs`, `checkParts_runs` — the parts of a resolution and
  the phases they run.
* `resolveAssembly_runs` — the resolution runs all phases; `assembly_classified` — so it reports
  the first defect.
-/

namespace OnshapeExport
namespace Selection

open Annotation Checks Json OnshapeApi Phases

section Phases

variable {request : SelectionRequest} {mid : String} {response : Value}

/-- The answer as it is read before the lists are indexed. -/
def readEnvelope (request : SelectionRequest) (mid : String) (response : Value) :
    Except ApiFailure (Members × String × String × String × String × List Value × List Value ×
      List Value) := do
  let envelope ← object response
  let assembly ← member envelope "rootAssembly" >>= object
  let d ← sourceString assembly "documentId"
  let m ← sourceString assembly "documentMicroversion"
  let e ← sourceString assembly "elementId"
  let configuration ← sourceString assembly "fullConfiguration"
  let instances ← array assembly "instances"
  let occurrences ← array assembly "occurrences"
  let _ ← array assembly "parametricInstances"
  let _ ← array assembly "patterns"
  let parts ← array envelope "parts"
  ensure (d = request.documentId ∧ m = mid ∧ e = request.elementId) malformed
  return (assembly, d, m, e, configuration, instances, occurrences, parts)

theorem malforms_readEnvelope : Malforms (readEnvelope request mid response) :=
  (malforms_object _).bind fun _ => ((malforms_member _ _).bind malforms_object).bind fun _ =>
    (malforms_sourceString _ _).bind fun _ => (malforms_sourceString _ _).bind fun _ =>
      (malforms_sourceString _ _).bind fun _ => (malforms_sourceString _ _).bind fun _ =>
        (malforms_array _ _).bind fun _ => (malforms_array _ _).bind fun _ =>
          (malforms_array _ _).bind fun _ => (malforms_array _ _).bind fun _ =>
            (malforms_array _ _).bind fun _ => (malforms_ensure _).bind fun _ => .ok _

/-- The answer that is read is enveloped, and its parts are those of the answer. -/
theorem readEnvelope_iff {assembly : Members} {d m e c : String}
    {instances occurrences parts : List Value} :
    readEnvelope request mid response = .ok (assembly, d, m, e, c, instances, occurrences, parts) ↔
      Enveloped request mid response ∧ assembly = rootAssembly response ∧
        d = request.documentId ∧ m = mid ∧ e = request.elementId ∧
        HasText assembly "fullConfiguration" c ∧ instances = rowsOf assembly "instances" ∧
        occurrences = rowsOf assembly "occurrences" ∧ parts = rowsOf (membersOf response) "parts" := by
  have hrows {obj : Members} {key : String} {l : List Value} (h : HasItems obj key l) :
      rowsOf obj key = l := by
    rw [HasItems] at h
    rw [rowsOf, h]
  rw [readEnvelope]
  simp only [↓seq_ok, bind_ok, object_iff, member_iff, sourceString_iff, array_iff, ensure_ok]
  constructor
  · rintro ⟨envelope, rfl, a, ⟨v, ha, rfl⟩, d', hd, m', hm, e', he, c', hc, i, hi, o, ho, pa, hpa,
      pt, hpt, ps, hps, ⟨rfl, rfl, rfl⟩, h⟩
    have hroot : rootAssembly (.object envelope) = a := by
      simp [rootAssembly, membersOf, ha]
    obtain ⟨rfl, rfl, rfl, rfl, rfl, rfl, rfl, rfl⟩ :
        a = assembly ∧ request.documentId = d ∧ m' = m ∧ request.elementId = e ∧ c' = c ∧
          i = instances ∧ o = occurrences ∧ ps = parts := by
      have heq := Except.ok.inj h
      simpa only [Prod.mk.injEq] using heq
    refine ⟨?_, hroot.symm, rfl, rfl, rfl, hc, (hrows hi).symm, (hrows ho).symm, (hrows hps).symm⟩
    exact ⟨⟨envelope, rfl⟩, ⟨a, ha⟩, hroot ▸ hd, hroot ▸ hm, hroot ▸ he, hroot ▸ ⟨c', hc⟩,
      hroot ▸ ⟨i, hi⟩, hroot ▸ ⟨o, ho⟩, hroot ▸ ⟨pa, hpa⟩, hroot ▸ ⟨pt, hpt⟩, ⟨ps, hps⟩⟩
  · rintro ⟨henv, rfl, rfl, rfl, rfl, hc, rfl, rfl, rfl⟩
    obtain ⟨envelope, rfl⟩ := henv.envelope
    obtain ⟨a, ha⟩ := henv.assembly
    have hroot : rootAssembly (.object envelope) = a := by
      rw [rootAssembly, ha]
      rfl
    obtain ⟨i, hi⟩ := henv.instances
    obtain ⟨o, ho⟩ := henv.occurrences
    obtain ⟨pa, hpa⟩ := henv.parametric
    obtain ⟨pt, hpt⟩ := henv.patterns
    obtain ⟨ps, hps⟩ := henv.parts
    rw [hroot] at hi ho hpa hpt
    have hd := henv.documentId
    have hm := henv.documentMicroversion
    have he := henv.elementId
    rw [hroot] at hd hm he hc
    rw [hroot, hrows hi, hrows ho, hrows hps]
    exact ⟨envelope, rfl, a, ⟨_, ha, rfl⟩, _, hd, _, hm, _, he, _, hc, _, hi, _, ho, _, hpa, _, hpt,
      _, hps, ⟨rfl, rfl, rfl⟩, rfl⟩

/-- Every selector names an occurrence. -/
def Occurrences (request : SelectionRequest) : Prop :=
  ∀ s ∈ request.selectors, ∃ path, s = .occurrence path

theorem Occurrences.at (h : Occurrences request) {p : Nat} {s : SelectionSelector}
    (hs : request.selectors[p]? = some s) :
    ∃ path, request.selectors[p]? = some (.occurrence path) ∧ s = .occurrence path := by
  obtain ⟨path, rfl⟩ := h s (List.mem_of_getElem? hs)
  exact ⟨path, hs, rfl⟩

/-- The rows of every selector, in the order of the selectors. -/
structure Joined (request : SelectionRequest) (response : Value)
    (selected : List (Members × Members)) : Prop where
  length : selected.length = request.selectors.length
  row : ∀ p i o, selected[p]? = some (i, o) ↔ Selected request response p i o

theorem Joined.unique {selected : List (Members × Members)} (h : Joined request response selected)
    {p : Nat} {i o i' o' : Members} (hs : Selected request response p i o)
    (hs' : Selected request response p i' o') : i = i' ∧ o = o' := by
  have heq := ((h.row p i o).mpr hs).symm.trans ((h.row p i' o').mpr hs')
  exact Prod.mk.inj (Option.some.inj heq)

theorem Joined.out {selected : List (Members × Members)} (h : Joined request response selected)
    {p : Nat} (hp : selected.length ≤ p) (i o : Members) : ¬ Selected request response p i o := by
  intro hs
  have hrow := (h.row p i o).mpr hs
  rw [List.getElem?_eq_none hp] at hrow
  cases hrow

theorem ok_seq {ε α β : Type} (a : α) (f : α → Except ε β) : (Except.ok a >>= f) = f a := rfl

theorem map_some_reduceOption {α : Type} {l : List (Option α)} (h : ∀ a ∈ l, a.isSome = true) :
    l.reduceOption.map some = l := by
  induction l with
  | nil => rfl
  | cons a l ih =>
    obtain ⟨b, rfl⟩ := Option.isSome_iff_exists.mp (h a List.mem_cons_self)
    have hl := ih fun a ha => h a (List.mem_cons_of_mem _ ha)
    change some b :: l.reduceOption.map some = some b :: l
    rw [hl]

theorem gate_eq {α : Type} (good : α → Bool) (l : List α) :
    gate (l.map good) =
      match (l.map good).findIdx? (· = false) with
      | some p => .error (defectFailure (.unavailable p))
      | none => .ok () := rfl

theorem gate_eq_id (states : List Bool) :
    gate states =
      match (states.map fun b => b).findIdx? (· = false) with
      | some p => .error (defectFailure (.unavailable p))
      | none => .ok () := by
  rw [List.map_id']
  rfl

theorem joinSelected_runs (hocc : Occurrences request) {instances : List (String × Members)}
    {occurrences : List (List String × Members)}
    (hi : ∀ id obj, lookupRow instances id = some obj ↔ InstanceRow response id obj)
    (ho : ∀ path obj, lookupRow occurrences path = some obj ↔ OccurrenceRow response path obj) :
    Runs defectFailure [associationPhase request response]
      (joinSelected request instances occurrences) (Joined request response) := by
  have hnone {p : Nat} (hp : request.selectors.length ≤ p) (path : List String) :
      request.selectors[p]? ≠ some (.occurrence path) := by
    rw [List.getElem?_eq_none hp]
    exact fun h => by cases h
  refine Runs.classify (gate_eq Option.isSome) id (fun p s hs => ?_) (fun p hp => ?_)
    fun bs hlength hbs => ?_
  · obtain ⟨path, hs, rfl⟩ := hocc.at hs
    have hpath (path' : List String) (h : request.selectors[p]? = some (.occurrence path')) :
        path' = path := by
      rw [hs] at h
      exact (SelectionSelector.occurrence.inj (Option.some.inj h)).symm
    have hinst : (∃ i, InstanceRow response (path.headD "") i) ↔
        (lookupRow instances (path.headD "")).isSome = true := by
      simp only [← hi, Option.isSome_iff_exists]
    have hoccur : (∃ o, OccurrenceRow response path o) ↔
        (lookupRow occurrences path).isSome = true := by
      simp only [← ho, Option.isSome_iff_exists]
    have hmalformed : (associationPhase request response).malformedAt p ↔
        ¬ ((lookupRow instances (path.headD "")).isSome = true ↔
          (lookupRow occurrences path).isSome = true) := by
      rw [← hinst, ← hoccur]
      exact ⟨fun ⟨path', h, hn⟩ => hpath path' h ▸ hn, fun hn => ⟨path, hs, hn⟩⟩
    have hunavailable : (associationPhase request response).unavailableAt p ↔
        ¬ (lookupRow instances (path.headD "")).isSome = true ∧
          ¬ (lookupRow occurrences path).isSome = true := by
      rw [← hinst, ← hoccur]
      exact ⟨fun ⟨path', h, hn⟩ => hpath path' h ▸ hn, fun hn => ⟨path, hs, hn⟩⟩
    rw [hmalformed, hunavailable]
    simp only [selectedPath, ok_seq]
    generalize lookupRow instances (path.headD "") = i, lookupRow occurrences path = o
    cases i with
    | none =>
      cases o with
      | none => exact .inl ⟨none, rfl, by simp, by simp⟩
      | some o => exact .inr ⟨rfl, by simp⟩
    | some i =>
      cases o with
      | none => exact .inr ⟨rfl, by simp⟩
      | some o => exact .inl ⟨some (i, o), rfl, by simp, by simp⟩
  · exact ⟨fun ⟨path, h, _⟩ => hnone hp path h, fun ⟨path, h, _⟩ => hnone hp path h⟩
  · have hat {p : Nat} (hp : p < bs.length) :
        ∃ s, request.selectors[p]? = some s := by
      rw [hlength] at hp
      exact ⟨_, List.getElem?_eq_getElem hp⟩
    have hsome : bs.reduceOption.map some = bs := by
      refine map_some_reduceOption fun b hb => ?_
      obtain ⟨p, hp⟩ := List.mem_iff_getElem?.mp hb
      obtain ⟨s, hs⟩ := hat (List.getElem?_eq_some_iff.mp hp).1
      exact (hbs p s b hs hp).2
    refine .pure ⟨?_, fun p i o => ?_⟩
    · rw [← hlength, ← List.length_map (f := some), hsome]
    have hrow : bs.reduceOption[p]? = some (i, o) ↔ bs[p]? = some (some (i, o)) := by
      conv_rhs => rw [← hsome]
      rw [List.getElem?_map]
      cases bs.reduceOption[p]? <;> simp
    rw [hrow]
    constructor
    · intro hb
      obtain ⟨s, hs⟩ := hat (List.getElem?_eq_some_iff.mp hb).1
      obtain ⟨path, hs, rfl⟩ := hocc.at hs
      obtain ⟨hread, -⟩ := hbs p _ _ hs hb
      simp only [selectedPath, ok_seq] at hread
      have hboth : lookupRow instances (path.headD "") = some i ∧
          lookupRow occurrences path = some o := by
        generalize lookupRow instances (path.headD "") = i', lookupRow occurrences path = o'
          at hread
        cases i' <;> cases o' <;> cases hread
        exact ⟨rfl, rfl⟩
      exact ⟨path, hs, (hi _ _).mp hboth.1, (ho _ _).mp hboth.2⟩
    · rintro ⟨path, hs, hinst, hoccur⟩
      have hp : p < bs.length := by
        rw [hlength]
        exact (List.getElem?_eq_some_iff.mp hs).1
      obtain ⟨hread, -⟩ := hbs p _ _ hs (List.getElem?_eq_getElem hp)
      simp only [selectedPath, ok_seq, (hi _ _).mpr hinst, (ho _ _).mpr hoccur] at hread
      rw [List.getElem?_eq_getElem hp, ← Except.ok.inj hread]

/-- Patterns and their seeds are not selected. -/
theorem exclusion_runs {α : Type} (hocc : Occurrences request) {exclusions : List String}
    (hrelates : ∀ ids, Relates (rootAssembly response) ids ↔ ids = exclusions)
    {phases : List Phase} {k : List (List String) → Except ApiFailure α} {post : α → Prop}
    (hk : ∀ paths, Runs defectFailure phases (k paths) post) :
    Runs defectFailure (exclusionPhase request response :: phases) (do
      let paths ← traverse (fun _ selector => selectedPath selector) 0 request.selectors
      gate (paths.map fun path => path.headD "" ∉ exclusions)
      k paths) post := by
  have hat (p : Nat) : (exclusionPhase request response).unavailableAt p ↔
      ∃ path, request.selectors[p]? = some (.occurrence path) ∧ path.headD "" ∈ exclusions := by
    constructor
    · rintro ⟨path, ids, hs, hids, hm⟩
      rw [(hrelates ids).mp hids] at hm
      exact ⟨path, hs, hm⟩
    · rintro ⟨path, hs, hm⟩
      exact ⟨path, exclusions, hs, (hrelates _).mpr rfl, hm⟩
  refine Runs.classify (gate_eq _) id (fun p s hs => ?_) (fun p hp => ⟨id, ?_⟩)
    fun paths _ _ => hk paths
  · obtain ⟨path, hs, rfl⟩ := hocc.at hs
    refine .inl ⟨path, rfl, id, ?_⟩
    rw [hat, decide_eq_false_iff_not, not_not]
    constructor
    · rintro ⟨path', hs', hm⟩
      rw [hs] at hs'
      obtain rfl := SelectionSelector.occurrence.inj (Option.some.inj hs')
      exact hm
    · exact fun hm => ⟨path, hs, hm⟩
  · rw [hat, List.getElem?_eq_none hp]
    rintro ⟨_, h, -⟩
    cases h

/-- A phase that reads the rows of each selector. -/
theorem perSelected_runs {α β : Type} {selected : List (Members × Members)}
    (hj : Joined request response selected) {malforms unavails : Members → Members → Prop}
    {f : Nat → Members × Members → Except ApiFailure β} {good : β → Bool}
    {gate : List β → Except ApiFailure Unit} {phases : List Phase}
    {k : List β → Except ApiFailure α} {post : α → Prop}
    (hgate : ∀ bs, gate bs =
      match (bs.map good).findIdx? (· = false) with
      | some p => .error (defectFailure (.unavailable p))
      | none => .ok ())
    (hone : ∀ p i o,
      (∃ b, f p (i, o) = .ok b ∧ ¬ malforms i o ∧ (unavails i o ↔ good b = false)) ∨
        f p (i, o) = .error (malformed.position p) ∧ malforms i o)
    (hk : ∀ bs, bs.length = selected.length →
      (∀ p io b, selected[p]? = some io → bs[p]? = some b → f p io = .ok b ∧ good b = true) →
        Runs defectFailure phases (k bs) post) :
    Runs defectFailure (perSelected request response malforms unavails :: phases) (do
      let bs ← traverse f 0 selected
      gate bs
      k bs) post := by
  have hat (R : Members → Members → Prop) {p : Nat} {i o : Members}
      (hs : Selected request response p i o) :
      (∃ i o, Selected request response p i o ∧ R i o) ↔ R i o := by
    constructor
    · rintro ⟨i', o', hs', hR⟩
      obtain ⟨rfl, rfl⟩ := hj.unique hs hs'
      exact hR
    · exact fun hR => ⟨i, o, hs, hR⟩
  refine Runs.classify hgate id (fun p io hrow => ?_) (fun p hp => ?_) hk
  · have hs := (hj.row p io.1 io.2).mp hrow
    rcases hone p io.1 io.2 with ⟨b, hb, hm, hu⟩ | ⟨he, hm⟩
    · exact .inl ⟨b, hb, fun h => hm ((hat malforms hs).mp h), (hat unavails hs).trans hu⟩
    · exact .inr ⟨he, (hat malforms hs).mpr hm⟩
  · exact ⟨fun ⟨i, o, hs, _⟩ => hj.out hp i o hs, fun ⟨i, o, hs, _⟩ => hj.out hp i o hs⟩

/-! ## The phases of the selected rows -/

theorem positioned_reads {β : Type} {x : Except ApiFailure β} {Has : β → Prop} (hx : Malforms x)
    (hiff : ∀ b, x = .ok b ↔ Has b) (p : Nat) :
    (∃ b, positioned p x = .ok b ∧ Has b) ∨
      positioned p x = .error (malformed.position p) ∧ ¬ ∃ b, Has b := by
  cases h : x with
  | ok b => exact .inl ⟨b, rfl, (hiff b).mp h⟩
  | error e =>
    obtain rfl := hx e h
    refine .inr ⟨rfl, fun ⟨b, hb⟩ => ?_⟩
    rw [(hiff b).mpr hb] at h
    cases h

/-- A field that is malformed when it cannot be read, and good or not when it can. -/
theorem field_reads {β : Type} {x : Except ApiFailure β} {Has : β → Prop} (hx : Malforms x)
    (hiff : ∀ b, x = .ok b ↔ Has b) {good : β → Bool} {U : Prop}
    (hU : ∀ b, Has b → (U ↔ good b = false)) (p : Nat) :
    (∃ b, positioned p x = .ok b ∧ ¬ (¬ ∃ b, Has b) ∧ (U ↔ good b = false)) ∨
      positioned p x = .error (malformed.position p) ∧ ¬ ∃ b, Has b := by
  rcases positioned_reads hx hiff p with ⟨b, hb, hhas⟩ | h
  · exact .inl ⟨b, hb, not_not.mpr ⟨b, hhas⟩, hU b hhas⟩
  · exact .inr h

/-- A text of a list of names, the first of which is the good one. -/
theorem name_reads (obj : Members) (key first : String) (others : List String)
    (hfirst : first ∉ others) (p : Nat) :
    (∃ b, (do
        let t ← positioned p (string obj key)
        ensure (t ∈ first :: others) (malformed.position p)
        return decide (t = first)) = .ok b ∧
        ¬ (¬ ∃ t ∈ first :: others, get? obj key = some (.string t)) ∧
        ((∃ t ∈ others, get? obj key = some (.string t)) ↔ b = false)) ∨
      (do
        let t ← positioned p (string obj key)
        ensure (t ∈ first :: others) (malformed.position p)
        return decide (t = first)) = .error (malformed.position p) ∧
        ¬ ∃ t ∈ first :: others, get? obj key = some (.string t) := by
  rcases positioned_reads (malforms_string obj key) (fun _ => string_iff) p with
    ⟨t, ht, hget⟩ | ⟨he, hnone⟩
  · have hunique (t' : String) (h : get? obj key = some (.string t')) : t = t' :=
      Value.string.inj (Option.some.inj (hget.symm.trans h))
    rw [ht, ok_seq]
    by_cases hm : t ∈ first :: others
    · rw [ensure, if_pos hm, ok_seq]
      refine .inl ⟨_, rfl, not_not.mpr ⟨t, hm, hget⟩, ?_⟩
      rw [decide_eq_false_iff_not]
      constructor
      · rintro ⟨t', ht', h⟩ rfl
        exact hfirst (hunique t' h ▸ ht')
      · intro hne
        exact ⟨t, (List.mem_cons.mp hm).resolve_left hne, hget⟩
    · rw [ensure, if_neg hm]
      exact .inr ⟨rfl, fun ⟨t', ht', h⟩ => hm (hunique t' h ▸ ht')⟩
  · rw [he]
    exact .inr ⟨rfl, fun ⟨t, _, h⟩ => hnone ⟨t, h⟩⟩

theorem deleted_reads (obj : Members) (p : Nat) :
    (∃ b, deletedStatus p obj = .ok b ∧
        ¬ (∃ v, get? obj "status" = some v ∧ v ≠ .string "DeletedElement") ∧
        (get? obj "status" = some (.string "DeletedElement") ↔ (!b) = false)) ∨
      deletedStatus p obj = .error (malformed.position p) ∧
        ∃ v, get? obj "status" = some v ∧ v ≠ .string "DeletedElement" := by
  unfold deletedStatus
  split
  · next h => exact .inl ⟨false, rfl, by simp [h], by simp [h]⟩
  · next h => exact .inl ⟨true, rfl, by simp [h], by simp [h]⟩
  · next v hne h => exact .inr ⟨rfl, v, h, fun he => hne he⟩

/-- What is read is read once. -/
theorem unique_iff {β : Type} {x : Except ApiFailure β} {Has Bad : β → Prop}
    (hiff : ∀ {b}, x = .ok b ↔ Has b) {b : β} (hb : Has b) : (∃ b, Has b ∧ Bad b) ↔ Bad b := by
  constructor
  · rintro ⟨b', hb', h⟩
    rwa [Except.ok.inj ((hiff.mpr hb).symm.trans (hiff.mpr hb'))]
  · exact fun h => ⟨b, hb, h⟩

/-- The leaves of the selected instances, in the order of the selectors. -/
structure Leaves (request : SelectionRequest) (response : Value) (leaves : List ConfiguredLeaf) :
    Prop where
  length : leaves.length = request.selectors.length
  leaf : ∀ p l, leaves[p]? = some l ↔ ∃ i o, Selected request response p i o ∧ HasLeaf i l

theorem projectSelected_runs {selected : List (Members × Members)}
    (hj : Joined request response selected) :
    Runs defectFailure
      [deletedPhase request response, typePhase request response, suppressedPhase request response,
        hiddenPhase request response, leafPhase request mid response,
        transformPhase request response]
      (projectSelected request.documentId mid selected)
      (fun (leaves, _) => Leaves request response leaves) := by
  have hbool (obj : Members) (key : String) (p : Nat) :
      (∃ b, positioned p (boolean obj key) = .ok b ∧
        ¬ (¬ ∃ b, get? obj key = some (.bool b)) ∧
        (get? obj key = some (.bool true) ↔ (!b) = false)) ∨
      positioned p (boolean obj key) = .error (malformed.position p) ∧
        ¬ ∃ b, get? obj key = some (.bool b) :=
    field_reads (malforms_boolean obj key) (fun _ => boolean_iff) (fun b hb => by simp [hb]) p
  refine perSelected_runs hj (gate_eq (!·)) (fun p i o => deleted_reads i p) fun _ _ _ => ?_
  refine perSelected_runs hj gate_eq_id (fun p i o =>
    name_reads i "type" "Part" ["Assembly", "Feature", "Unknown"] (by decide) p) fun _ _ _ => ?_
  refine perSelected_runs hj (gate_eq (!·)) (fun p i o => hbool i "suppressed" p) fun _ _ _ => ?_
  refine perSelected_runs hj (gate_eq (!·)) (fun p i o => hbool o "hidden" p) fun _ _ _ => ?_
  have hsnapshot (l : ConfiguredLeaf) :
      ¬ (l.documentId = request.documentId ∧ l.documentMicroversion = mid) ↔
        (decide (l.documentId = request.documentId) && decide (l.documentMicroversion = mid)) =
          false := by
    rw [Bool.and_eq_false_iff, decide_eq_false_iff_not, decide_eq_false_iff_not, not_and_or]
  refine perSelected_runs hj (gate_eq _) (fun p i o =>
    field_reads (malforms_projectedLeaf i) (fun _ => projectedLeaf_iff)
      (fun l hl => (unique_iff projectedLeaf_iff hl).trans (hsnapshot l)) p)
    fun leaves hlength hleaves => ?_
  refine perSelected_runs hj (gate_eq properRigid) (fun p i o =>
    field_reads (malforms_projectTransform o) (fun _ => projectTransform_iff)
      (fun l hl => unique_iff projectTransform_iff hl) p)
    fun _ _ _ => ?_
  refine .pure ⟨hlength.trans hj.length, fun p l => ?_⟩
  constructor
  · intro hl
    have hp : p < selected.length := by
      rw [← hlength]
      exact (List.getElem?_eq_some_iff.mp hl).1
    have hrow := List.getElem?_eq_getElem hp
    obtain ⟨hread, -⟩ := hleaves p _ l hrow hl
    exact ⟨_, _, (hj.row p _ _).mp hrow, projectedLeaf_iff.mp (mapError_ok.mp hread)⟩
  · rintro ⟨i, o, hs, hl⟩
    have hrow := (hj.row p i o).mpr hs
    have hp : p < leaves.length := by
      rw [hlength]
      exact (List.getElem?_eq_some_iff.mp hrow).1
    obtain ⟨hread, -⟩ := hleaves p _ _ hrow (List.getElem?_eq_getElem hp)
    have hleaf := projectedLeaf_iff.mpr hl
    rw [List.getElem?_eq_getElem hp, Except.ok.inj (hleaf.symm.trans (mapError_ok.mp hread))]

/-! ## Parts -/

theorem checkParts_runs {selected : List (Members × Members)} {leaves : List ConfiguredLeaf}
    (hj : Joined request response selected) (hl : Leaves request response leaves) :
    Runs defectFailure
      [.whole (¬ Keyed HasLeaf (rowsOf (membersOf response) "parts")), joinPhase request response,
        bodyPhase request response]
      (checkParts (rowsOf (membersOf response) "parts") leaves) (fun _ => True) := by
  have hkeys : Keys projectedLeaf HasLeaf := ⟨fun _ _ => projectedLeaf_iff, malforms_projectedLeaf⟩
  refine Runs.check (fun index hindex => ?_) (fun e he => ?_)
  · obtain ⟨hkeyed, hlookup⟩ := indexRows_ok hkeys hindex
    refine ⟨not_not.mpr hkeyed, ?_⟩
    have hat {p : Nat} {l : ConfiguredLeaf} (hleaf : leaves[p]? = some l)
        (R : ConfiguredLeaf → Prop) :
        (∃ i o, Selected request response p i o ∧ ∃ leaf, HasLeaf i leaf ∧ R leaf) ↔ R l := by
      constructor
      · rintro ⟨i, o, hs, leaf, hl', hR⟩
        have hsame := hleaf.symm.trans ((hl.leaf p leaf).mpr ⟨i, o, hs, hl'⟩)
        rwa [Option.some.inj hsame]
      · intro hR
        obtain ⟨i, o, hs, hl'⟩ := (hl.leaf p l).mp hleaf
        exact ⟨i, o, hs, l, hl', hR⟩
    have hout {p : Nat} (hp : leaves.length ≤ p) (R : Members → Members → Prop) :
        ¬ ∃ i o, Selected request response p i o ∧ R i o := by
      rintro ⟨i, o, hs, -⟩
      rw [hl.length, ← hj.length] at hp
      exact hj.out hp i o hs
    refine Runs.read id (fun p l hleaf => ?_) (fun p hp => hout hp _)
      (fun p ⟨_, _, _, h⟩ => h) fun parts hlength hparts => ?_
    · rw [show (joinPhase request response).malformedAt p ↔ ¬ ∃ part, PartRow response l part from
        hat hleaf fun leaf => ¬ ∃ part, PartRow response leaf part]
      simp only [← hlookup, PartRow]
      cases hpart : lookupRow index l with
      | some part => exact .inl ⟨part, rfl, by simp⟩
      | none => exact .inr ⟨rfl, by simp⟩
    · have hend : (fun bodies => gate bodies) = fun bodies => gate bodies >>= fun _ => .ok () := by
        funext bodies
        cases gate bodies <;> rfl
      have hleafAt {p : Nat} {part : Members} (hpart : parts[p]? = some part) :
          ∃ l, leaves[p]? = some l ∧ PartRow response l part := by
        have hp : p < leaves.length := by
          rw [← hlength]
          exact (List.getElem?_eq_some_iff.mp hpart).1
        have hleaf := List.getElem?_eq_getElem hp
        have hread := hparts p _ part hleaf hpart
        refine ⟨_, hleaf, (hlookup _ _).mp ?_⟩
        cases hrow : lookupRow index leaves[p] <;> rw [hrow] at hread <;> cases hread
        rfl
      have hpartAt {p : Nat} {l : ConfiguredLeaf} {part : Members} (hleaf : leaves[p]? = some l)
          (hpart : PartRow response l part) (R : Members → Prop) :
          (∃ i o, Selected request response p i o ∧
            ∃ leaf part, HasLeaf i leaf ∧ PartRow response leaf part ∧ R part) ↔ R part := by
        have hpull : (∃ part, PartRow response l part ∧ R part) ↔ R part :=
          ⟨fun ⟨part', hrow, hR⟩ => by
            have hsame := ((hlookup l part).mpr hpart).symm.trans ((hlookup l part').mpr hrow)
            rwa [Option.some.inj hsame], fun hR => ⟨part, hpart, hR⟩⟩
        rw [← hpull, ← hat hleaf fun leaf => ∃ part, PartRow response leaf part ∧ R part]
        exact ⟨fun ⟨i, o, hs, leaf, part, hl, h⟩ => ⟨i, o, hs, leaf, hl, part, h⟩,
          fun ⟨i, o, hs, leaf, hl, part, h⟩ => ⟨i, o, hs, leaf, part, hl, h⟩⟩
      rw [hend]
      refine Runs.classify gate_eq_id id (fun p part hpart => ?_) (fun p hp => ?_)
        fun _ _ _ => .pure trivial
      · obtain ⟨l, hleaf, hrow⟩ := hleafAt hpart
        rcases name_reads part "bodyType" "solid" ["sheet", "composite"] (by decide) p with
          ⟨b, hb, hm, hu⟩ | ⟨he, hm⟩
        · exact .inl ⟨b, hb, fun h => hm ((hpartAt hleaf hrow _).mp h),
            (hpartAt hleaf hrow _).trans hu⟩
        · exact .inr ⟨he, (hpartAt hleaf hrow _).mpr hm⟩
      · rw [hlength] at hp
        exact ⟨hout hp _, hout hp _⟩
  · exact (indexRows_error hkeys he).imp_right fun h => h

/-! ## The phases of a resolution -/

/-- What follows the envelope. -/
def resolveRows (request : SelectionRequest) (mid : String) :
    Members × String × String × String × String × List Value × List Value × List Value →
      Except ApiFailure AssemblyResolution
  | (assembly, d, m, e, configuration, instances, occurrences, parts) => do
    let instanceIndex ← indexRows (fun obj => sourceString obj "id") [] instances
    let occurrenceIndex ← indexRows occurrencePath [] occurrences
    let exclusions ← relationIds assembly
    let selected ← joinSelected request instanceIndex occurrenceIndex
    let paths ← traverse (fun _ selector => selectedPath selector) 0 request.selectors
    gate (paths.map fun path => path.headD "" ∉ exclusions)
    let (leaves, matrices) ← projectSelected d m selected
    checkParts parts leaves
    let candidates := (paths.zip (leaves.zip matrices)).map fun (path, leaf, matrix) =>
      { selector := AuthoringSelector.assemblyOccurrence d m e configuration path, leaf := leaf,
        matrix := normalizeMatrix matrix, name := "", description := "" }
    return { root := root request mid configuration, candidates := candidates,
             carriers := carrierGroups leaves }

theorem resolveAssembly_eq :
    resolveAssembly request mid response =
      readEnvelope request mid response >>= resolveRows request mid := by
  unfold resolveAssembly readEnvelope
  simp only [bind_assoc, pure_bind]
  rfl

theorem resolveRows_runs (hocc : Occurrences request) {e c : String} :
    Runs defectFailure (assemblyPhases request mid response).tail
      (resolveRows request mid (rootAssembly response, request.documentId, mid, e, c,
        rowsOf (rootAssembly response) "instances", rowsOf (rootAssembly response) "occurrences",
        rowsOf (membersOf response) "parts")) (fun _ => True) := by
  have hids : Keys (fun obj => sourceString obj "id") (HasText · "id") :=
    ⟨fun _ _ => sourceString_iff, fun _ => malforms_sourceString _ _⟩
  have hpaths : Keys occurrencePath HasPath :=
    ⟨fun _ _ => occurrencePath_iff, malforms_occurrencePath⟩
  refine Runs.check (fun instances hinstances => ?_)
    fun e he => (indexRows_error hids he).imp_right id
  obtain ⟨hkeyed, hinstance⟩ := indexRows_ok hids hinstances
  refine ⟨not_not.mpr hkeyed, Runs.check (fun occurrences hoccurrences => ?_)
    fun e he => (indexRows_error hpaths he).imp_right id⟩
  obtain ⟨hkeyed, hoccurrence⟩ := indexRows_ok hpaths hoccurrences
  refine ⟨not_not.mpr hkeyed, Runs.check (fun exclusions hexclusions => ?_) fun e he => ?_⟩
  · have hrelates (ids : List String) :
        Relates (rootAssembly response) ids ↔ ids = exclusions := by
      rw [← relationIds_iff, hexclusions, Except.ok.injEq, eq_comm]
    refine ⟨fun h => h exclusions ((hrelates _).mpr rfl), ?_⟩
    refine Runs.bind (joinSelected_runs hocc hinstance hoccurrence) fun selected hj => ?_
    refine exclusion_runs hocc hrelates fun paths => ?_
    refine Runs.bind (projectSelected_runs hj) fun (leaves, matrices) hl => ?_
    exact Runs.bind (checkParts_runs hj hl) fun _ _ => .pure trivial
  · refine ⟨malforms_relationIds _ e he, fun ids hids => ?_⟩
    rw [relationIds_iff.mpr hids] at he
    cases he

theorem resolveAssembly_runs (hocc : Occurrences request) :
    Runs defectFailure (assemblyPhases request mid response)
      (resolveAssembly request mid response) (fun _ => True) := by
  rw [resolveAssembly_eq]
  refine Runs.check (fun (assembly, d, m, e, c, instances, occurrences, parts) h => ?_)
    fun e he => ⟨malforms_readEnvelope e he, fun henveloped => ?_⟩
  · obtain ⟨henveloped, rfl, rfl, rfl, rfl, -, rfl, rfl, rfl⟩ := readEnvelope_iff.mp h
    exact ⟨not_not.mpr henveloped, resolveRows_runs hocc⟩
  · obtain ⟨c, hc⟩ := henveloped.configuration
    rw [readEnvelope_iff.mpr ⟨henveloped, rfl, rfl, rfl, rfl, hc, rfl, rfl, rfl⟩] at he
    cases he

theorem occurrences_of_preflight (hpreflight : request.preflight = .ok ())
    (hkind : request.elementKind = .assembly) : Occurrences request := by
  intro s hs
  obtain ⟨-, -, -, -, -, -, hvalid, -⟩ := preflight_ok hpreflight
  have hselector := hvalid s hs
  rw [hkind] at hselector
  cases s with
  | part partId => cases hselector
  | occurrence path => exact ⟨path, rfl⟩

theorem unavailable_of_kind {d : Defect} (h : (defectFailure d).kind = .unavailableSourceState) :
    ∃ p, d = .unavailable p := by
  cases d with
  | malformed position => cases position <;> cases h
  | unavailable p => exact ⟨p, rfl⟩

end Phases

/-! ## A request of two occurrences -/

def twoOccurrences : SelectionRequest :=
  let hash := String.ofList (List.replicate 64 '1')
  ⟨"d", "v", "r", .assembly, ⟨hash, hash, hash, "x"⟩, [.occurrence ["i"], .occurrence ["j"]]⟩

/-- The first instance is deleted, the second has a status. -/
def statusResponse (status : Value) : Value := .object
  [("parts", .array []),
   ("rootAssembly", .object
     [("documentId", .string "d"), ("documentMicroversion", .string "m"),
      ("elementId", .string "r"), ("fullConfiguration", .string "c"),
      ("instances", .array
        [.object [("id", .string "i"), ("status", .string "DeletedElement")],
         .object [("id", .string "j"), ("status", status)]]),
      ("occurrences", .array
        [.object [("path", .array [.string "i"])], .object [("path", .array [.string "j"])]]),
      ("parametricInstances", .array []), ("patterns", .array [])])]

end Selection
end OnshapeExport
