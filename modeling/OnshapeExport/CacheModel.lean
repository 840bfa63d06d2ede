import OnshapeExport.Catalog

/-!
# CacheModel

The identities of `cache_model.rs` that name what is published. `cache_key::hash_json` hashes the
canonical JSON of an identity under the domain of its kind; each such hash is a parameter of the
modules that use it, and collision-free where a result asks for that.

`joinFields` is a collision-free text of a list of fields, for runs with a concrete hash.
-/

namespace OnshapeExport
namespace CacheModel

open Catalogs

/-- A JSON document, as the path and the text of each of its values. -/
abbrev Members := List (String × String)

structure ResolvedOnshapeSourceIdentity where
  documentId : String
  versionId : String
  microversionId : String
  elementId : String
  elementKind : ElementKind
  linkDocumentId : Option String
deriving DecidableEq, Repr

structure SourceHashPayload where
  documentId : String
  microversionId : String
  elementId : String
  elementKind : String
  linkDocumentId : Option String
deriving DecidableEq, Repr

/-- What `source_hash` hashes: the version is left out. -/
def ResolvedOnshapeSourceIdentity.payload (i : ResolvedOnshapeSourceIdentity) :
    SourceHashPayload where
  documentId := i.documentId
  microversionId := i.microversionId
  elementId := i.elementId
  elementKind := i.elementKind.key
  linkDocumentId := i.linkDocumentId

inductive QuantityDimension where
  | length | angle
deriving DecidableEq, Repr

inductive CanonicalParameterValue where
  | text (value : String)
  | number (numerator denominator : String)
  | quantity (dimension : QuantityDimension) (numerator denominator unit : String)
  | boolean (value : Bool)
  | enum (value : String)
deriving DecidableEq, Repr

def canonicalizationVersion : Nat := 2

structure ConfigHashPayload where
  canonicalizationVersion : Nat
  sourceHash : String
  parameterSchemaVersion : Nat
  typedValues : List (String × CanonicalParameterValue)
deriving DecidableEq, Repr

structure EncodedConfigurationIdentity where
  encodedId : String
  queryParam : String
deriving DecidableEq, Repr

structure RequestIdentity where
  apiHostClass : String
  apiSpecVersion : Option String
  operation : String
  method : String
  pathTemplate : String
  pathParams : Members
  query : Members
  body : Members
  encodedConfiguration : Option EncodedConfigurationIdentity
  defaultsPolicyVersion : String
  requestBuilderVersion : String
deriving DecidableEq, Repr

structure PostprocessIdentity where
  rawPayloadHash : String
  processorName : String
  processorVersion : String
  policy : Members
deriving DecidableEq, Repr

def artifactSetSchemaVersion : Nat := 1

structure ArtifactSetIdentity where
  artifactSetSchemaVersion : Nat
  outputKind : String
  format : String
  sourceHash : String
  configHash : String
  optionsHash : String
  requestHash : Option String
  rawPayloadHash : Option String
  postprocessHash : String
  generatorProcessingHash : Option String
deriving DecidableEq, Repr

/-- The options a generator project is made with. -/
structure GeneratorOptionsIdentity where
  dialectIdentity : String
  capabilityIdentities : List String
  settingsIdentity : String
  settingsSchemaIdentity : String
deriving DecidableEq, Repr

/-- The hashes of a generator artifact set: `options_hash`, of a format, an options version and
the options, and `artifact_set_hash`. -/
structure GeneratorHashes where
  optionsHash : String → String → GeneratorOptionsIdentity → String
  artifactSetHash : ArtifactSetIdentity → String

/-- The hashes of an export; `optionsHash` takes the format, the options version and the
options. -/
structure ExportHashes where
  sourceHash : SourceHashPayload → String
  configHash : ConfigHashPayload → String
  optionsHash : String → String → Members → String
  requestHash : RequestIdentity → String
  postprocessHash : PostprocessIdentity → String

/-! ## A collision-free text -/

/-- Slashes, dots and marks are marked, so that a bare dot can only end a field and no slash is
left. -/
def charMarks (c : Char) : List Char :=
  if c = '/' then ['+', '-'] else if c = '.' ∨ c = '+' then ['+', c] else [c]

def fieldChars (s : List Char) : List Char := s.flatMap charMarks ++ ['.']

def joinFields (fields : List String) : String :=
  String.ofList (fields.flatMap fun s => fieldChars s.toList)

theorem charMarks_append_inj {c c' : Char} {l l' : List Char}
    (h : charMarks c ++ l = charMarks c' ++ l') : c = c' ∧ l = l' := by
  unfold charMarks at h
  split_ifs at h <;> grind

theorem dot_ne_charMarks {c : Char} {l l' : List Char} : '.' :: l ≠ charMarks c ++ l' := by
  unfold charMarks
  split
  · simp
  · split
    · simp
    · rename_i hor
      intro h
      simp only [List.cons_append, List.nil_append, List.cons.injEq] at h
      exact hor (.inl h.1.symm)

theorem fieldChars_append_inj {s s' l l' : List Char}
    (h : fieldChars s ++ l = fieldChars s' ++ l') : s = s' ∧ l = l' := by
  induction s generalizing s' with
  | nil =>
    cases s' with
    | nil => exact ⟨rfl, by simpa [fieldChars] using h⟩
    | cons c' s' =>
      simp only [fieldChars, List.flatMap_nil, List.nil_append, List.flatMap_cons,
        List.append_assoc, List.cons_append] at h
      exact absurd h dot_ne_charMarks
  | cons c s ih =>
    cases s' with
    | nil =>
      simp only [fieldChars, List.flatMap_nil, List.nil_append, List.flatMap_cons,
        List.append_assoc, List.cons_append] at h
      exact absurd h.symm dot_ne_charMarks
    | cons c' s' =>
      simp only [fieldChars, List.flatMap_cons, List.append_assoc] at h
      obtain ⟨rfl, hrest⟩ := charMarks_append_inj h
      obtain ⟨rfl, hl⟩ := ih (by simpa [fieldChars] using hrest)
      exact ⟨rfl, hl⟩

theorem flatMap_fieldChars_inj {l l' : List (List Char)}
    (h : l.flatMap fieldChars = l'.flatMap fieldChars) : l = l' := by
  induction l generalizing l' with
  | nil =>
    cases l' with
    | nil => rfl
    | cons s' l' => simp [fieldChars] at h
  | cons s l ih =>
    cases l' with
    | nil => simp [fieldChars] at h
    | cons s' l' =>
      rw [List.flatMap_cons, List.flatMap_cons] at h
      obtain ⟨rfl, hl⟩ := fieldChars_append_inj h
      rw [ih hl]

theorem joinFields_injective : Function.Injective joinFields := by
  intro l l' h
  have hl : (l.map String.toList).flatMap fieldChars = (l'.map String.toList).flatMap fieldChars := by
    rw [List.flatMap_map, List.flatMap_map]
    exact String.ofList_injective h
  exact List.map_injective_iff.mpr (fun _ _ => String.toList_injective)
    (flatMap_fieldChars_inj hl)

theorem slash_notMem_charMarks (c : Char) : '/' ∉ charMarks c := by
  unfold charMarks
  split
  · decide
  · rename_i hc
    split
    · simpa using Ne.symm hc
    · simpa using Ne.symm hc

theorem slash_notMem_joinFields (l : List String) : '/' ∉ (joinFields l).toList := by
  simp only [joinFields, String.toList_ofList, List.mem_flatMap, fieldChars, List.mem_append,
    List.mem_singleton, not_exists, not_and, not_or]
  exact fun _ _ => ⟨fun c _ => slash_notMem_charMarks c, by decide⟩

/-- An optional field, told apart from every present one. -/
def optionField : Option String → String
  | none => ""
  | some s => "=" ++ s

/-- A number as so many marks. -/
def natField (n : Nat) : String := String.ofList (List.replicate n '#')

/-- A stand-in for the hash of an artifact set. -/
def joinArtifactSet (i : ArtifactSetIdentity) : String :=
  joinFields [natField i.artifactSetSchemaVersion, i.outputKind, i.format, i.sourceHash,
    i.configHash, i.optionsHash, optionField i.requestHash, optionField i.rawPayloadHash,
    i.postprocessHash, optionField i.generatorProcessingHash]

theorem optionField_injective : Function.Injective optionField := by
  intro a b h
  cases a with
  | none =>
    cases b with
    | none => rfl
    | some s => exact absurd (congrArg String.toList h) (by simp [optionField])
  | some s =>
    cases b with
    | none => exact absurd (congrArg String.toList h) (by simp [optionField])
    | some s' =>
      have := congrArg String.toList h
      simp only [optionField, String.toList_append, List.append_cancel_left_eq] at this
      rw [String.toList_injective this]

theorem natField_injective : Function.Injective natField := by
  intro m n h
  have := congrArg List.length (String.ofList_injective h)
  simpa using this

theorem joinArtifactSet_injective : Function.Injective joinArtifactSet := by
  intro i j h
  have hl := joinFields_injective h
  simp only [List.cons.injEq, and_true] at hl
  obtain ⟨hv, ho, hf, hs, hc, hop, hr, hp, hpost, hg⟩ := hl
  cases i
  cases j
  simp only [ArtifactSetIdentity.mk.injEq]
  exact ⟨natField_injective hv, ho, hf, hs, hc, hop, optionField_injective hr,
    optionField_injective hp, hpost, optionField_injective hg⟩

end CacheModel
end OnshapeExport
