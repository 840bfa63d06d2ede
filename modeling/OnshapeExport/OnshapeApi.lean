import Mathlib.Data.List.Basic

/-!
# OnshapeApi

The failures of `onshape_api.rs` and its checks on strings.
-/

namespace OnshapeExport
namespace OnshapeApi

inductive FailureKind where
  | invalidSelection
  | operationalApiContractFailure
  | unavailableSourceState
  | authenticationFailure
  | transportFailure
  | operationalTimeoutFailure
  | operationalTranslationFailure
  | operationalHttpFailure
deriving DecidableEq, Repr

def FailureKind.message : FailureKind → String
  | .invalidSelection => "The selection request is invalid."
  | .operationalApiContractFailure => "The Onshape API contract could not be verified."
  | .unavailableSourceState => "The selected source state is unavailable."
  | .authenticationFailure => "Onshape authentication failed."
  | .transportFailure => "The Onshape operation did not complete."
  | .operationalTimeoutFailure => "The geometry acquisition deadline expired."
  | .operationalTranslationFailure => "The geometry translation failed."
  | .operationalHttpFailure => "The geometry HTTP operation failed."

structure SafeDiagnostic where
  code : String
  message : String
  operation : Option String
  selectorPosition : Option Nat
deriving DecidableEq, Repr

structure ApiFailure where
  kind : FailureKind
  diagnostics : List SafeDiagnostic
deriving DecidableEq, Repr

/-- `is_ascii_graphic`. -/
def isAsciiGraphic (c : Char) : Bool := 33 ≤ c.toNat && c.toNat ≤ 126

def isCodeChar (c : Char) : Bool :=
  ('a' ≤ c && c ≤ 'z') || ('0' ≤ c && c ≤ '9') || c = '_' || c = '.' || c = '-'

def ApiFailure.new (kind : FailureKind) (code : String) : ApiFailure :=
  let code := String.ofList ((code.toList.filter isCodeChar).take 128)
  ⟨kind, [⟨if code = "" then "failure" else code, kind.message, none, none⟩]⟩

def ApiFailure.operation (e : ApiFailure) (operation : String) : ApiFailure :=
  let operation := String.ofList ((operation.toList.filter isAsciiGraphic).take 128)
  { e with diagnostics := e.diagnostics.map fun d => { d with operation := some operation } }

def ApiFailure.position (e : ApiFailure) (position : Nat) : ApiFailure :=
  { e with diagnostics := e.diagnostics.map fun d => { d with selectorPosition := some position } }

def boundedVisibleAscii (value : String) : Bool :=
  value ≠ "" && value.utf8ByteSize ≤ 4096 && value.toList.all isAsciiGraphic

def isHexDigit (c : Char) : Bool := ('0' ≤ c && c ≤ '9') || ('a' ≤ c && c ≤ 'f')

def isSha256 (value : String) : Bool :=
  value.utf8ByteSize = 64 && value.toList.all isHexDigit

end OnshapeApi
end OnshapeExport
