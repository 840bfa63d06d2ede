import OnshapeExport.GeneratorValidation
import OnshapeExport.Lib.LinkWalk

/-!
# ParentForest

The parent links of an input manifest. `InputManifest::validate` walks up the parents of every
object with a fresh set of visited identities.

* `walk_ends` — the walk from an object ends, within one turn more than there are objects.
* `parents_forest` — the walks pass exactly when the parents are objects of the manifest and no
  object is its own ancestor.
* `manifest_forest` — what this says of an accepted manifest.
-/

namespace OnshapeExport
namespace Protocol

open Checks LinkWalk Relation

/-! ## The walk -/

/-- `by_identity.get(identity)` and the parent of what it finds. -/
def parentIn (objects : List InputObject) (identity : String) : Option String :=
  (objects.find? fun o => o.objectIdentity = identity).bind InputObject.parentObjectIdentity

/-- What the walk says of the identity it met again. -/
def reportedCycle : Option String → Checked
  | none => .ok ()
  | some identity => .error (.invalid ("input object parent cycle includes " ++ identity))

@[simp] theorem reportedCycle_ok {outcome : Option String} :
    reportedCycle outcome = .ok () ↔ outcome = none := by
  cases outcome <;> simp [reportedCycle]

/-- No more turns are taken than the walk needs, whatever the allowance. -/
theorem walkParents_of_ends {objects : List InputObject} {visited : List String}
    {current : Option String} {turns : Nat} {outcome : Option String}
    (h : Ends (parentIn objects) visited current turns outcome) {fuel : Nat}
    (hfuel : turns ≤ fuel) : walkParents objects fuel visited current = reportedCycle outcome := by
  induction h generalizing fuel with
  | out => rw [walkParents, reportedCycle]
  | again hmem =>
    obtain ⟨fuel, rfl⟩ : ∃ n, fuel = n + 1 := ⟨fuel - 1, by omega⟩
    simp [walkParents, require, ensure, hmem, reportedCycle]
    rfl
  | @turn visited identity turns outcome hnot _ ih =>
    obtain ⟨fuel, rfl⟩ : ∃ n, fuel = n + 1 := ⟨fuel - 1, by omega⟩
    rw [walkParents, Protocol.require_ok.mpr hnot]
    exact ih (by omega)

theorem parentIn_outside {objects : List InputObject} {identity : String}
    (h : identity ∉ (objects.map InputObject.objectIdentity).toFinset) :
    parentIn objects identity = none := by
  have hnone : objects.find? (fun o => o.objectIdentity = identity) = none := by
    rw [List.find?_eq_none]
    intro o ho
    have hne : o.objectIdentity ≠ identity := by
      intro heq
      refine h (List.mem_toFinset.mpr ?_)
      rw [← heq]
      exact List.mem_map_of_mem ho
    simpa using hne
  rw [parentIn, hnone]
  rfl

theorem walk_ends (objects : List InputObject) (identity : String) :
    ∃ turns ≤ objects.length + 1, ∃ outcome,
      Ends (parentIn objects) [] (some identity) turns outcome := by
  obtain ⟨turns, hturns, hends⟩ :=
    ends_of_finite (fun _ hx => @parentIn_outside objects _ hx) (some identity)
  have hcard := List.toFinset_card_le (objects.map InputObject.objectIdentity)
  rw [List.length_map] at hcard
  exact ⟨turns, by omega, hends⟩

/-! ## The links between the objects -/

/-- `p` is the parent of `o`. -/
structure ParentOf (objects : List InputObject) (o p : InputObject) : Prop where
  child : o ∈ objects
  parent : p ∈ objects
  named : o.parentObjectIdentity = some p.objectIdentity

def ParentsExist (objects : List InputObject) : Prop :=
  ∀ o ∈ objects, ∀ parent, o.parentObjectIdentity = some parent →
    ∃ p ∈ objects, p.objectIdentity = parent

section Distinct

variable {objects : List InputObject}

theorem same_of_identity (hdistinct : (objects.map InputObject.objectIdentity).Nodup)
    {o p : InputObject} (ho : o ∈ objects) (hp : p ∈ objects)
    (h : o.objectIdentity = p.objectIdentity) : o = p :=
  List.inj_on_of_nodup_map hdistinct ho hp h

theorem parentIn_of_mem (hdistinct : (objects.map InputObject.objectIdentity).Nodup)
    {o : InputObject} (ho : o ∈ objects) :
    parentIn objects o.objectIdentity = o.parentObjectIdentity := by
  cases hfind : objects.find? fun p => p.objectIdentity = o.objectIdentity with
  | none =>
    have hnot := List.find?_eq_none.mp hfind o ho
    simp at hnot
  | some p =>
    have hp : p.objectIdentity = o.objectIdentity := by simpa using List.find?_some hfind
    rw [same_of_identity hdistinct (List.mem_of_find?_eq_some hfind) ho hp] at hfind
    rw [parentIn, hfind]
    rfl

theorem link_of_parentOf (hdistinct : (objects.map InputObject.objectIdentity).Nodup)
    {o p : InputObject} (h : ParentOf objects o p) :
    Link (parentIn objects) o.objectIdentity p.objectIdentity :=
  (parentIn_of_mem hdistinct h.child).trans h.named

theorem parentOf_of_link (hdistinct : (objects.map InputObject.objectIdentity).Nodup)
    (hexist : ParentsExist objects) {o : InputObject} (ho : o ∈ objects) {identity : String}
    (h : Link (parentIn objects) o.objectIdentity identity) :
    ∃ p, ParentOf objects o p ∧ p.objectIdentity = identity := by
  have hnamed : o.parentObjectIdentity = some identity := (parentIn_of_mem hdistinct ho).symm.trans h
  obtain ⟨p, hp, hidentity⟩ := hexist o ho identity hnamed
  exact ⟨p, ⟨ho, hp, by rw [hnamed, hidentity]⟩, hidentity⟩

/-- What the identities lead to is what the objects lead to. -/
theorem reaches_object (hdistinct : (objects.map InputObject.objectIdentity).Nodup)
    (hexist : ParentsExist objects) {o : InputObject} (ho : o ∈ objects) {identity : String}
    (h : ReflTransGen (Link (parentIn objects)) o.objectIdentity identity) :
    ∃ p ∈ objects, ReflTransGen (ParentOf objects) o p ∧ p.objectIdentity = identity := by
  induction h with
  | refl => exact ⟨o, ho, .refl, rfl⟩
  | tail _ hlink ih =>
    obtain ⟨p, hp, hreach, hidentity⟩ := ih
    rw [← hidentity] at hlink
    obtain ⟨q, hparent, hq⟩ := parentOf_of_link hdistinct hexist hp hlink
    exact ⟨q, hparent.parent, hreach.tail hparent, hq⟩

theorem cycle_of_objects (hdistinct : (objects.map InputObject.objectIdentity).Nodup)
    (hexist : ParentsExist objects) {o : InputObject} (ho : o ∈ objects) :
    TransGen (ParentOf objects) o o ↔
      TransGen (Link (parentIn objects)) o.objectIdentity o.objectIdentity := by
  constructor
  · intro h
    exact TransGen.lift InputObject.objectIdentity (fun _ _ => link_of_parentOf hdistinct) _ _ h
  · intro h
    obtain ⟨identity, hreach, hback⟩ := TransGen.tail'_iff.mp h
    obtain ⟨p, hp, hop, hidentity⟩ := reaches_object hdistinct hexist ho hreach
    rw [← hidentity] at hback
    obtain ⟨q, hparent, hq⟩ := parentOf_of_link hdistinct hexist hp hback
    rw [same_of_identity hdistinct hparent.parent ho hq] at hparent
    exact TransGen.tail' hop hparent

/-! ## What passes -/

theorem validateParents_ok :
    validateParents objects = .ok () ↔ ParentsExist objects ∧
      ∀ o ∈ objects, walkParents objects (objects.length + 1) [] (some o.objectIdentity) = .ok () := by
  have hobject : ∀ (_ : Nat) (o : InputObject),
      ((do
        whenSome (fun parent => require (∃ p ∈ objects, p.objectIdentity = parent)
          ("input object " ++ o.objectIdentity ++ " references missing parent " ++ parent))
          o.parentObjectIdentity
        walkParents objects (objects.length + 1) [] (some o.objectIdentity)) = .ok ()) ↔
      (∀ parent, o.parentObjectIdentity = some parent → ∃ p ∈ objects, p.objectIdentity = parent) ∧
        walkParents objects (objects.length + 1) [] (some o.objectIdentity) = .ok () := by
    intro _ o
    rw [seq_ok, whenSome_ok]
    simp only [Protocol.require_ok, Option.mem_def]
  rw [validateParents, each_ok_mem hobject]
  exact forall₂_and

/-- The walk from an object passes when its links lead to an object without a parent. -/
theorem walkParents_ok_iff (hdistinct : (objects.map InputObject.objectIdentity).Nodup)
    (hexist : ParentsExist objects) {o : InputObject} (ho : o ∈ objects) :
    walkParents objects (objects.length + 1) [] (some o.objectIdentity) = .ok () ↔
      ∃ root ∈ objects, ReflTransGen (ParentOf objects) o root ∧
        root.parentObjectIdentity = none := by
  obtain ⟨turns, hturns, outcome, hends⟩ := walk_ends objects o.objectIdentity
  rw [walkParents_of_ends hends hturns, reportedCycle_ok, ends_none_iff hends]
  constructor
  · intro hend
    obtain ⟨identity, hreach, hnone⟩ := hend
    obtain ⟨root, hroot, hor, hidentity⟩ := reaches_object hdistinct hexist ho hreach
    rw [← hidentity, parentIn_of_mem hdistinct hroot] at hnone
    exact ⟨root, hroot, hor, hnone⟩
  · intro hend
    obtain ⟨root, hroot, hreach, hnone⟩ := hend
    have hlinks : ReflTransGen (Link (parentIn objects)) o.objectIdentity root.objectIdentity :=
      ReflTransGen.lift InputObject.objectIdentity (fun _ _ => link_of_parentOf hdistinct) _ _
        hreach
    refine ⟨root.objectIdentity, hlinks, ?_⟩
    rw [parentIn_of_mem hdistinct hroot, hnone]

theorem walks_ok_iff_acyclic (hdistinct : (objects.map InputObject.objectIdentity).Nodup)
    (hexist : ParentsExist objects) :
    (∀ o ∈ objects,
        walkParents objects (objects.length + 1) [] (some o.objectIdentity) = .ok ()) ↔
      ∀ o ∈ objects, ¬TransGen (ParentOf objects) o o := by
  have hwalk : ∀ o ∈ objects,
      (walkParents objects (objects.length + 1) [] (some o.objectIdentity) = .ok () ↔
        ∀ identity, ReflTransGen (Link (parentIn objects)) o.objectIdentity identity →
          ¬TransGen (Link (parentIn objects)) identity identity) := by
    intro o _
    obtain ⟨turns, hturns, outcome, hends⟩ := walk_ends objects o.objectIdentity
    rw [walkParents_of_ends hends hturns, reportedCycle_ok, ends_none_iff_acyclic hends]
  constructor
  · intro h o ho hcycle
    exact (hwalk o ho).mp (h o ho) _ .refl ((cycle_of_objects hdistinct hexist ho).mp hcycle)
  · intro h o ho
    refine (hwalk o ho).mpr fun identity hreach hcycle => ?_
    obtain ⟨p, hp, _, hidentity⟩ := reaches_object hdistinct hexist ho hreach
    rw [← hidentity] at hcycle
    exact h p hp ((cycle_of_objects hdistinct hexist hp).mpr hcycle)

theorem parents_forest (hdistinct : (objects.map InputObject.objectIdentity).Nodup) :
    (∀ o ∈ objects, ∃ turns ≤ objects.length + 1, ∃ outcome,
        Ends (parentIn objects) [] (some o.objectIdentity) turns outcome ∧
        ∀ fuel, turns ≤ fuel →
          walkParents objects fuel [] (some o.objectIdentity) = reportedCycle outcome) ∧
      (validateParents objects = .ok () ↔ ParentsExist objects ∧
        ∀ o ∈ objects, ∃ root ∈ objects, ReflTransGen (ParentOf objects) o root ∧
          root.parentObjectIdentity = none) ∧
      (validateParents objects = .ok () ↔
        ParentsExist objects ∧ ∀ o ∈ objects, ¬TransGen (ParentOf objects) o o) := by
  refine ⟨fun o _ => ?_, ?_, ?_⟩
  · obtain ⟨turns, hturns, outcome, hends⟩ := walk_ends objects o.objectIdentity
    exact ⟨turns, hturns, outcome, hends, fun fuel hfuel => walkParents_of_ends hends hfuel⟩
  · rw [validateParents_ok]
    constructor
    · intro h
      exact ⟨h.1, fun o ho => (walkParents_ok_iff hdistinct h.1 ho).mp (h.2 o ho)⟩
    · intro h
      exact ⟨h.1, fun o ho => (walkParents_ok_iff hdistinct h.1 ho).mpr (h.2 o ho)⟩
  · rw [validateParents_ok]
    constructor
    · intro h
      exact ⟨h.1, (walks_ok_iff_acyclic hdistinct h.1).mp h.2⟩
    · intro h
      exact ⟨h.1, (walks_ok_iff_acyclic hdistinct h.1).mpr h.2⟩

end Distinct

/-- An object that another one is the parent of, or that has no parent. -/
def linkedObject (identity : String) (parent : Option String) : InputObject :=
  ⟨identity, .rawGeometry, ⟨"c", "inputs/" ++ identity, "", 1, "model/stl", "stl"⟩,
    ⟨.unproven, none, some "r"⟩, none, none, none, none, none, parent⟩

theorem parents_forest_linked :
    validateParents [linkedObject "child" (some "root"), linkedObject "root" none] = .ok () ↔
      ParentsExist [linkedObject "child" (some "root"), linkedObject "root" none] ∧
        ∀ o ∈ [linkedObject "child" (some "root"), linkedObject "root" none],
          ¬TransGen (ParentOf [linkedObject "child" (some "root"), linkedObject "root" none]) o o :=
  (@parents_forest [linkedObject "child" (some "root"), linkedObject "root" none]
    (by simp [linkedObject])).2.2

/-! ## Accepted manifests -/

theorem validateObjects_distinct {status : ManifestStatus} {objects : List InputObject}
    {index : Nat} {identities paths : List String}
    (h : validateObjects status index identities paths objects = .ok ()) :
    (objects.map InputObject.objectIdentity).Nodup ∧
      ∀ o ∈ objects, o.objectIdentity ∉ identities := by
  induction objects generalizing index identities paths with
  | nil => simp
  | cons o objects ih =>
    simp only [validateObjects, seq_ok, Protocol.require_ok] at h
    obtain ⟨_, hnew, _, _, _, _, hrest⟩ := h
    obtain ⟨hnodup, hfresh⟩ := ih hrest
    refine ⟨List.nodup_cons.mpr ⟨fun hmem => ?_, hnodup⟩, fun p hp => ?_⟩
    · obtain ⟨p, hp, heq⟩ := List.mem_map.mp hmem
      refine hfresh p hp ?_
      rw [heq]
      exact List.mem_cons_self
    · rcases List.mem_cons.mp hp with rfl | hp
      · exact hnew
      · exact fun hmem => hfresh p hp (List.mem_cons_of_mem _ hmem)

/-- The objects of an accepted manifest are a forest. -/
theorem manifest_forest {digests : CacheKey.Digests} {m : InputManifest}
    (h : m.validate digests = .ok ()) :
    ParentsExist m.objects ∧ ∀ o ∈ m.objects, ¬TransGen (ParentOf m.objects) o o := by
  simp only [InputManifest.validate, seq_ok] at h
  obtain ⟨_, _, _, _, _, _, _, _, _, _, _, hobjects, _, hparents, _⟩ := h
  have hdistinct := (validateObjects_distinct hobjects).1
  obtain ⟨hexist, hwalks⟩ := validateParents_ok.mp hparents
  exact ⟨hexist, (walks_ok_iff_acyclic hdistinct hexist).mp hwalks⟩

end Protocol
end OnshapeExport
