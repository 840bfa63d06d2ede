import OnshapeExport.GeneratorValidation

/-!
# DeployedGenerator

The generator of `deployed_generator.rs`: the document it is configured with, what it supports, and
the identities an invocation is bound to. The executable on disk is not modelled.

* `DeployedGenerator` — a document that passed its check.
* `ensureCompatible_ok` — what is supported is what the document says.
-/

namespace OnshapeExport
namespace Deployed

open CacheKey Checks Json Protocol

def maxIdentities : Nat := 256

inductive DeployedGeneratorError where
  | configInvalid (message : String)
  | unsupportedCombination (field : String)
deriving DecidableEq, Repr

structure DeployedGeneratorDocument where
  executablePath : String
  packageIdentity : String
  packageSha256 : String
  buildIdentity : String
  binaryIdentity : String
  binarySha256 : String
  protocolVersion : Nat
  dialectIdentity : String
  capabilityIdentities : List String
  inputKindIdentity : String
  inputSchemaIdentity : String
  settingsSchemaIdentity : String
  provenanceSetIdentity : String
  normalizationIdentity : String
  validationIdentity : String
deriving DecidableEq, Repr

structure GeneratorCompatibilityRequest where
  protocolVersion : Nat
  dialectIdentity : String
  capabilityIdentities : List String
  inputKindIdentity : String
  inputSchemaIdentity : String
  settingsSchemaIdentity : String
deriving DecidableEq, Repr

def ensureConfig (p : Prop) [Decidable p] (message : String) :
    Except DeployedGeneratorError Unit := ensure p (.configInvalid message)

def validateIdentity (value field : String) : Except DeployedGeneratorError Unit :=
  ensureConfig (visible maxIdentityLength value)
    (field ++ " must contain 1 to " ++ toString maxIdentityLength ++ " visible ASCII characters")

def validateSha256 (value field : String) : Except DeployedGeneratorError Unit :=
  ensureConfig (isSha256 value) (field ++ " must be a lowercase 64-character SHA-256 value")

def DeployedGeneratorDocument.validate (d : DeployedGeneratorDocument) :
    Except DeployedGeneratorError Unit := do
  ensureConfig (d.executablePath.toList.head? = some '/') "executablePath must be absolute"
  ensureConfig (d.protocolVersion = Protocol.protocolVersion)
    ("protocolVersion must be the implemented version " ++ toString Protocol.protocolVersion)
  each (fun _ (p : String × String) => validateIdentity p.2 p.1) 0
    [("packageIdentity", d.packageIdentity), ("buildIdentity", d.buildIdentity),
     ("binaryIdentity", d.binaryIdentity), ("dialectIdentity", d.dialectIdentity),
     ("inputKindIdentity", d.inputKindIdentity), ("inputSchemaIdentity", d.inputSchemaIdentity),
     ("settingsSchemaIdentity", d.settingsSchemaIdentity),
     ("provenanceSetIdentity", d.provenanceSetIdentity),
     ("normalizationIdentity", d.normalizationIdentity),
     ("validationIdentity", d.validationIdentity)]
  validateSha256 d.packageSha256 "packageSha256"
  validateSha256 d.binarySha256 "binarySha256"
  ensureConfig (d.capabilityIdentities.length ≤ maxIdentities)
    ("capabilityIdentities exceeds " ++ toString maxIdentities ++ " entries")
  each (fun i identity =>
    validateIdentity identity ("capabilityIdentities[" ++ toString i ++ "]")) 0
    d.capabilityIdentities
  ensureConfig (d.capabilityIdentities.IsChain (· < ·))
    "capabilityIdentities must be unique and sorted lexicographically"

/-- A generator is deployed with a document that passed its check. -/
structure DeployedGenerator where
  document : DeployedGeneratorDocument
  valid : document.validate = .ok ()

structure ImmutableIdentityPayload where
  packageIdentity : String
  packageSha256 : String
  buildIdentity : String
  binaryIdentity : String
  binarySha256 : String
  protocolVersion : Nat
  dialectIdentity : String
  capabilityIdentities : List String
  inputKindIdentity : String
  inputSchemaIdentity : String
  settingsSchemaIdentity : String
  provenanceSetIdentity : String
  normalizationIdentity : String
  validationIdentity : String

theorem normalization_disjoint_validation :
    ∀ name ∈ (Fields.required "normalizationIdentity" .str).names,
      name ∉ (Fields.required "validationIdentity" .str).names :=
  Fields.required_disjoint _ _ (by decide)

open Fields in
def ImmutableIdentityPayload.codec : Codec ImmutableIdentityPayload :=
  .record false (((required "packageIdentity" .str).and <|
    (required "packageSha256" .str).and <| (required "buildIdentity" .str).and <|
    (required "binaryIdentity" .str).and <| (required "binarySha256" .str).and <|
    (required "protocolVersion" (.unsigned 32)).and <| (required "dialectIdentity" .str).and <|
    (required "capabilityIdentities" (.list .str)).and <|
    (required "inputKindIdentity" .str).and <| (required "inputSchemaIdentity" .str).and <|
    (required "settingsSchemaIdentity" .str).and <| (required "provenanceSetIdentity" .str).and <|
    (required "normalizationIdentity" .str).and (required "validationIdentity" .str)
      normalization_disjoint_validation).iso
    (fun (a, b, c, d, e, f, g, h, i, j, k, l, m, n) => ⟨a, b, c, d, e, f, g, h, i, j, k, l, m, n⟩)
    (fun x => (x.packageIdentity, x.packageSha256, x.buildIdentity, x.binaryIdentity,
      x.binarySha256, x.protocolVersion, x.dialectIdentity, x.capabilityIdentities,
      x.inputKindIdentity, x.inputSchemaIdentity, x.settingsSchemaIdentity,
      x.provenanceSetIdentity, x.normalizationIdentity, x.validationIdentity)) fun _ => rfl)

/-- Everything but the path of the executable. -/
def DeployedGeneratorDocument.immutablePayload (d : DeployedGeneratorDocument) :
    ImmutableIdentityPayload where
  packageIdentity := d.packageIdentity
  packageSha256 := d.packageSha256
  buildIdentity := d.buildIdentity
  binaryIdentity := d.binaryIdentity
  binarySha256 := d.binarySha256
  protocolVersion := d.protocolVersion
  dialectIdentity := d.dialectIdentity
  capabilityIdentities := d.capabilityIdentities
  inputKindIdentity := d.inputKindIdentity
  inputSchemaIdentity := d.inputSchemaIdentity
  settingsSchemaIdentity := d.settingsSchemaIdentity
  provenanceSetIdentity := d.provenanceSetIdentity
  normalizationIdentity := d.normalizationIdentity
  validationIdentity := d.validationIdentity

/-- The domain is a text of its own before the payload. -/
def DeployedGenerator.staticIdentity (digests : Digests) (g : DeployedGenerator) : String :=
  digests.sha256 ("onshape-export-deployed-generator-v1\x00" ++
    canonicalJson digests (ImmutableIdentityPayload.codec.enc g.document.immutablePayload))

/-- The first identity that differs is the one that is reported. -/
def DeployedGenerator.ensureCompatible (g : DeployedGenerator)
    (request : GeneratorCompatibilityRequest) : Except DeployedGeneratorError Unit :=
  each (fun _ (p : Bool × String) => ensure (p.1 = true) (.unsupportedCombination p.2)) 0
    [(decide (request.protocolVersion = g.document.protocolVersion), "protocolVersion"),
     (decide (request.dialectIdentity = g.document.dialectIdentity), "dialectIdentity"),
     (decide (request.capabilityIdentities = g.document.capabilityIdentities),
       "capabilityIdentities"),
     (decide (request.inputKindIdentity = g.document.inputKindIdentity), "inputKindIdentity"),
     (decide (request.inputSchemaIdentity = g.document.inputSchemaIdentity),
       "inputSchemaIdentity"),
     (decide (request.settingsSchemaIdentity = g.document.settingsSchemaIdentity),
       "settingsSchemaIdentity")]

def DeployedGenerator.identityBindings (g : DeployedGenerator) (settingsIdentity : String) :
    IdentityBindings where
  packageIdentity := g.document.packageIdentity
  buildIdentity := g.document.buildIdentity
  binaryIdentity := g.document.binaryIdentity
  dialectIdentity := g.document.dialectIdentity
  capabilityIdentities := g.document.capabilityIdentities
  inputKindIdentity := g.document.inputKindIdentity
  inputSchemaIdentity := g.document.inputSchemaIdentity
  settingsIdentity := settingsIdentity
  settingsSchemaIdentity := g.document.settingsSchemaIdentity
  provenanceSetIdentity := g.document.provenanceSetIdentity
  normalizationIdentity := g.document.normalizationIdentity
  validationIdentity := g.document.validationIdentity

/-- What is supported is what the document of the generator says. -/
theorem ensureCompatible_ok {g : DeployedGenerator} {r : GeneratorCompatibilityRequest} :
    g.ensureCompatible r = .ok () ↔ r = ⟨g.document.protocolVersion, g.document.dialectIdentity,
      g.document.capabilityIdentities, g.document.inputKindIdentity,
      g.document.inputSchemaIdentity, g.document.settingsSchemaIdentity⟩ := by
  cases r
  simp [DeployedGenerator.ensureCompatible, each]

end Deployed
end OnshapeExport
