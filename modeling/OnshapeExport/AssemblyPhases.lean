import OnshapeExport.Lib.Phases
import OnshapeExport.SelectionResolution

/-!
# AssemblyPhases

What may be wrong with the answer to an assembly selection, phase by phase, said of the answer
itself and not of how it is read.

* `HasText`, `HasPath`, `HasLeaf`, `HasTransform`, `Relates` — the projections of rows.
* `Selected` — the rows of an instance and of an occurrence at the position of a selector.
* `assemblyPhases` — the phases in their order, each with what is malformed and what is not
  available.
-/

namespace OnshapeExport
namespace Selection

open Annotation Json OnshapeApi Phases

/-! ## Rows -/

/-- A member that is a text of bounded visible characters. -/
def HasText (obj : Members) (key s : String) : Prop :=
  get? obj key = some (.string s) ∧ boundedVisibleAscii s = true

def HasItems (obj : Members) (key : String) (values : List Value) : Prop :=
  get? obj key = some (.array values)

def HasPath (obj : Members) (path : List String) : Prop :=
  HasItems obj "path" (path.map .string) ∧ 1 ≤ path.length ∧ path.length ≤ 64 ∧
    ∀ s ∈ path, boundedVisibleAscii s = true

structure HasLeaf (obj : Members) (leaf : ConfiguredLeaf) : Prop where
  documentId : HasText obj "documentId" leaf.documentId
  documentMicroversion : HasText obj "documentMicroversion" leaf.documentMicroversion
  elementId : HasText obj "elementId" leaf.elementId
  configuration : HasText obj "fullConfiguration" leaf.configurationIdentity
  partId : HasText obj "partId" leaf.partId

def HasTransform (obj : Members) (matrix : PlacementMatrix) : Prop :=
  ∃ numbers : List Number, HasItems obj "transform" (numbers.map .number) ∧
    matrix.1 = numbers.map Number.scalar

/-- Every row has a key, and no two rows have the same. -/
structure Keyed {κ : Type} (Key : Members → κ → Prop) (rows : List Value) : Prop where
  key : ∀ v ∈ rows, ∃ obj k, v = .object obj ∧ Key obj k
  distinct : rows.Pairwise fun v w =>
    ∀ obj obj' k, v = .object obj → w = .object obj' → Key obj k → ¬ Key obj' k

def RowAt {κ : Type} (Key : Members → κ → Prop) (rows : List Value) (k : κ) (obj : Members) :
    Prop :=
  .object obj ∈ rows ∧ Key obj k

/-! ## Relations -/

/-- The instances of a child and its seed, if it names one. -/
def IsChild (v : Value) (child : List String × List String) : Prop :=
  ∃ obj, v = .object obj ∧ HasItems obj "instanceIds" (child.1.map .string) ∧
    (get? obj "seedOccurrence" = none ∧ child.2 = [] ∨
      ∃ seed, HasText obj "seedOccurrence" seed ∧ child.2 = [seed])

/-- A parametric relation and the instances it names. -/
def IsParametric (v : Value) (relation : String × List String) : Prop :=
  ∃ obj values children, v = .object obj ∧ HasText obj "id" relation.1 ∧
    HasItems obj "children" values ∧ List.Forall₂ IsChild values children ∧
    (children.flatMap Prod.fst).Nodup ∧
    relation.2 = relation.1 :: children.flatMap fun c => c.1 ++ c.2

/-- A pattern and the instances it names: seeds and what is generated from them. -/
def IsPattern (v : Value) (relation : String × List String) : Prop :=
  ∃ obj seeds generated, v = .object obj ∧ HasText obj "id" relation.1 ∧
    get? obj "seedToPatternInstances" = some (.object seeds) ∧
    List.Forall₂ (fun (m : String × Value) (g : String × List String) =>
      m.1 = g.1 ∧ m.2 = .array (g.2.map .string)) seeds generated ∧
    (generated.flatMap Prod.snd).Nodup ∧ relation.2 = generated.flatMap fun g => g.1 :: g.2

/-- The instances that the relations of an assembly name. -/
def Relates (assembly : Members) (ids : List String) : Prop :=
  ∃ parametricRows patternRows parametric patterns,
    HasItems assembly "parametricInstances" parametricRows ∧
    HasItems assembly "patterns" patternRows ∧
    List.Forall₂ IsParametric parametricRows parametric ∧ (parametric.map Prod.fst).Nodup ∧
    List.Forall₂ IsPattern patternRows patterns ∧ (patterns.map Prod.fst).Nodup ∧
    ids = parametric.flatMap Prod.snd ++ patterns.flatMap Prod.snd ∧
    (∀ id ∈ ids, boundedVisibleAscii id = true) ∧ ids.length ≤ maxRelationIds

/-! ## The parts of an answer -/

def membersOf : Value → Members
  | .object members => members
  | _ => []

def rootAssembly (response : Value) : Members :=
  ((get? (membersOf response) "rootAssembly").map membersOf).getD []

def rowsOf (obj : Members) (key : String) : List Value :=
  match get? obj key with
  | some (.array values) => values
  | _ => []

section Answer

variable (request : SelectionRequest) (mid : String) (response : Value)

/-- The answer is about the element that was asked for, and has its lists. -/
structure Enveloped : Prop where
  envelope : ∃ members, response = .object members
  assembly : ∃ members, get? (membersOf response) "rootAssembly" = some (.object members)
  documentId : HasText (rootAssembly response) "documentId" request.documentId
  documentMicroversion : HasText (rootAssembly response) "documentMicroversion" mid
  elementId : HasText (rootAssembly response) "elementId" request.elementId
  configuration : ∃ c, HasText (rootAssembly response) "fullConfiguration" c
  instances : ∃ l, HasItems (rootAssembly response) "instances" l
  occurrences : ∃ l, HasItems (rootAssembly response) "occurrences" l
  parametric : ∃ l, HasItems (rootAssembly response) "parametricInstances" l
  patterns : ∃ l, HasItems (rootAssembly response) "patterns" l
  parts : ∃ l, HasItems (membersOf response) "parts" l

def InstanceRow (id : String) (obj : Members) : Prop :=
  RowAt (HasText · "id") (rowsOf (rootAssembly response) "instances") id obj

def OccurrenceRow (path : List String) (obj : Members) : Prop :=
  RowAt HasPath (rowsOf (rootAssembly response) "occurrences") path obj

def PartRow (leaf : ConfiguredLeaf) (obj : Members) : Prop :=
  RowAt HasLeaf (rowsOf (membersOf response) "parts") leaf obj

/-- The instance and the occurrence of the selector at a position. -/
def Selected (p : Nat) (i o : Members) : Prop :=
  ∃ path, request.selectors[p]? = some (.occurrence path) ∧
    InstanceRow response (path.headD "") i ∧ OccurrenceRow response path o

/-! ## Phases -/

/-- A phase that looks at the rows of each selector. -/
def perSelected (malformed unavailable : Members → Members → Prop) : Phase :=
  .positions (fun p => ∃ i o, Selected request response p i o ∧ malformed i o)
    (fun p => ∃ i o, Selected request response p i o ∧ unavailable i o)

/-- An instance without its occurrence, or the other way round, is malformed. -/
def associationPhase : Phase :=
  .positions
    (fun p => ∃ path, request.selectors[p]? = some (.occurrence path) ∧
      ¬ ((∃ i, InstanceRow response (path.headD "") i) ↔ ∃ o, OccurrenceRow response path o))
    (fun p => ∃ path, request.selectors[p]? = some (.occurrence path) ∧
      (¬ ∃ i, InstanceRow response (path.headD "") i) ∧ ¬ ∃ o, OccurrenceRow response path o)

def exclusionPhase : Phase :=
  .positions (fun _ => False)
    (fun p => ∃ path ids, request.selectors[p]? = some (.occurrence path) ∧
      Relates (rootAssembly response) ids ∧ path.headD "" ∈ ids)

def deletedPhase : Phase :=
  perSelected request response
    (fun i _ => ∃ v, get? i "status" = some v ∧ v ≠ .string "DeletedElement")
    (fun i _ => get? i "status" = some (.string "DeletedElement"))

def typePhase : Phase :=
  perSelected request response
    (fun i _ => ¬ ∃ t ∈ ["Part", "Assembly", "Feature", "Unknown"],
      get? i "type" = some (.string t))
    (fun i _ => ∃ t ∈ ["Assembly", "Feature", "Unknown"], get? i "type" = some (.string t))

def suppressedPhase : Phase :=
  perSelected request response (fun i _ => ¬ ∃ b, get? i "suppressed" = some (.bool b))
    (fun i _ => get? i "suppressed" = some (.bool true))

def hiddenPhase : Phase :=
  perSelected request response (fun _ o => ¬ ∃ b, get? o "hidden" = some (.bool b))
    (fun _ o => get? o "hidden" = some (.bool true))

/-- A leaf of another document or version is not of this snapshot. -/
def leafPhase : Phase :=
  perSelected request response (fun i _ => ¬ ∃ leaf, HasLeaf i leaf)
    (fun i _ => ∃ leaf, HasLeaf i leaf ∧
      ¬ (leaf.documentId = request.documentId ∧ leaf.documentMicroversion = mid))

def transformPhase : Phase :=
  perSelected request response (fun _ o => ¬ ∃ matrix, HasTransform o matrix)
    (fun _ o => ∃ matrix, HasTransform o matrix ∧ properRigid matrix = false)

def joinPhase : Phase :=
  perSelected request response
    (fun i _ => ∃ leaf, HasLeaf i leaf ∧ ¬ ∃ part, PartRow response leaf part)
    (fun _ _ => False)

def bodyPhase : Phase :=
  perSelected request response
    (fun i _ => ∃ leaf part, HasLeaf i leaf ∧ PartRow response leaf part ∧
      ¬ ∃ body ∈ ["solid", "sheet", "composite"], get? part "bodyType" = some (.string body))
    (fun i _ => ∃ leaf part, HasLeaf i leaf ∧ PartRow response leaf part ∧
      ∃ body ∈ ["sheet", "composite"], get? part "bodyType" = some (.string body))

/-- The phases in their order. The lists are indexed as a whole; a defect there has no position. -/
def assemblyPhases : List Phase :=
  [.whole (¬ Enveloped request mid response),
   .whole (¬ Keyed (HasText · "id") (rowsOf (rootAssembly response) "instances")),
   .whole (¬ Keyed HasPath (rowsOf (rootAssembly response) "occurrences")),
   .whole (∀ ids, ¬ Relates (rootAssembly response) ids),
   associationPhase request response, exclusionPhase request response,
   deletedPhase request response, typePhase request response, suppressedPhase request response,
   hiddenPhase request response, leafPhase request mid response, transformPhase request response,
   .whole (¬ Keyed HasLeaf (rowsOf (membersOf response) "parts")),
   joinPhase request response, bodyPhase request response]

end Answer

/-- What is reported of a defect. -/
def defectFailure : Defect → ApiFailure
  | .malformed none => malformed
  | .malformed (some p) => malformed.position p
  | .unavailable p => unavailable p

end Selection
end OnshapeExport
