import OnshapeExport.BoundedJson
import OnshapeExport.GeneratorRunner

/-!
# OutputCheckpoints

The private copies of accepted output that `generator_output_checkpoint.rs` keeps: a directory
named by the hash of its receipt, with the receipt and the bytes in it. What the root itself is
checked for is a parameter.

* `receiptOf`, `checkpointIdentity` — the receipt of an output and its name.
* `reopen` — the output that a directory holds, with every check a reader makes.
* `reopen_ok` — what a directory that reopens holds.
* `reopen_sealed` — the directory that is written for an output reopens as that output.
-/

namespace OnshapeExport
namespace Checkpoints

open CacheKey Checks Json OnshapeApi Processing Protocol Runner

def receiptLimit : Nat := 1048576
def receiptDomain : String := "onshape-export-accepted-generator-output-v1"

structure Receipt where
  schemaVersion : Nat
  processingHash : String
  invocationIdentity : String
  result : GeneratorResult
deriving DecidableEq

open Fields in
def Receipt.codec : Codec Receipt :=
  .record true (((required "schemaVersion" (.unsigned 32)).and <|
    (required "processingHash" .str).and <| (required "invocationIdentity" .str).and
      (required "result" GeneratorResult.codec)).iso
    (fun (a, b, c, d) => ⟨a, b, c, d⟩)
    (fun x => (x.schemaVersion, x.processingHash, x.invocationIdentity, x.result)) fun _ => rfl)

inductive CheckpointError where
  | message (text : String)
  | protocol (error : ProtocolError)
  | api (failure : ApiFailure)
  | json
  | io
deriving DecidableEq

/-! ## The retention root -/

/-- A regular file, and whether it is private. -/
structure File where
  isPrivate : Bool
  bytes : ByteArray
deriving DecidableEq

/-- What a name in a directory leads to. -/
inductive Node where
  | file (file : File)
  | other
deriving DecidableEq

structure Directory where
  isPrivate : Bool
  nodes : List (String × Node)
deriving DecidableEq

/-- What a name in the root leads to. -/
inductive Entry where
  | directory (directory : Directory)
  | other
deriving DecidableEq

/-- The root, and whether `root_check` accepts it. -/
structure Root where
  accepted : Bool
  entries : String → Option Entry

def rootCheck (root : Root) : Except CheckpointError Unit :=
  ensure (root.accepted = true)
    (.message "output retention requires a private regular directory")

/-- `regular_file`. -/
def privateFile (d : Directory) (name : String) : Except CheckpointError File :=
  match d.nodes.lookup name with
  | none => .error .io
  | some .other => .error (.message "output checkpoint requires private regular files")
  | some (.file f) =>
    if f.isPrivate then .ok f
    else .error (.message "output checkpoint requires private regular files")

/-- The directory of a checkpoint. -/
def privateDirectory (root : Root) (name : String) : Except CheckpointError Directory :=
  match root.entries name with
  | none => .error .io
  | some .other => .error (.message "output checkpoint requires a private regular directory")
  | some (.directory d) =>
    if d.isPrivate then .ok d
    else .error (.message "output checkpoint requires a private regular directory")

/-! ## Receipts -/

section Receipts

variable (digests : Digests) (fileSha256 : ByteArray → String)

def receiptOf (output : VerifiedGeneratorOutput) : Receipt where
  schemaVersion := 1
  processingHash := output.processingHash
  invocationIdentity := output.invocationIdentity
  result := output.result

/-- `canonical_json_bytes` of a receipt. -/
def receiptBytes (receipt : Receipt) : ByteArray :=
  (canonicalJson digests (Receipt.codec.enc receipt)).toByteArray

def checkpointIdentity (receipt : Receipt) : String :=
  hashJson digests receiptDomain (Receipt.codec.enc receipt)

def validate (receipt : Receipt) (prepared : PreparedGeneratorProcessing) :
    Except CheckpointError Unit := do
  ensure (receipt.schemaVersion = 1 ∧ receipt.processingHash = prepared.processingHash ∧
      receipt.invocationIdentity = prepared.recipe.invocation.invocationIdentity ∧
      receipt.result.status = .success)
    (.message "output checkpoint does not match its successful invocation")
  (receipt.result.validateAgainstRequest digests prepared.recipe.invocation).mapError .protocol

/-- What `measure_copy` asks of all the bytes it has copied. -/
def measureCopy (receipt : Receipt) (bytes : ByteArray) : Except CheckpointError Unit :=
  match receipt.result.output with
  | none => .error (.message "checkpoint output missing")
  | some declared => do
    ensure (bytes.size ≤ declared.byteLength) .io
    ensure (Measures fileSha256 declared bytes)
      (.message "output checkpoint byte evidence mismatch")

/-! ## Reopening -/

/-- The receipt of a directory that is reopened under a name. -/
def reopenReceipt (d : Directory) (identity : String) (prepared : PreparedGeneratorProcessing) :
    Except CheckpointError Receipt := do
  let file ← privateFile d "receipt.json"
  ensure (file.bytes.size ≤ receiptLimit)
    (.message "output checkpoint receipt exceeds its bound")
  let value ← (parseBytes digests.text file.bytes receiptLimit).mapError .api
  let receipt ← orError (Receipt.codec.dec value) .json
  ensure (receiptBytes digests receipt = file.bytes ∧
      checkpointIdentity digests receipt = identity)
    (.message "output checkpoint receipt integrity mismatch")
  validate digests receipt prepared
  return receipt

/-- `reopen`. -/
def reopen (root : Root) (identity : String) (prepared : PreparedGeneratorProcessing) :
    Except CheckpointError VerifiedGeneratorOutput := do
  rootCheck root
  ensure (OnshapeApi.isSha256 identity = true) (.message "invalid output checkpoint identity")
  let d ← privateDirectory root identity
  let receipt ← reopenReceipt digests d identity prepared
  let source ← privateFile d "output.bin"
  measureCopy fileSha256 receipt source.bytes
  return ⟨receipt.result, receipt.invocationIdentity, receipt.processingHash, source.bytes⟩

/-- The directory that is written for an output. -/
def sealedDirectory (output : VerifiedGeneratorOutput) : Directory where
  isPrivate := true
  nodes := [("output.bin", .file ⟨true, output.bytes⟩),
    ("receipt.json", .file ⟨true, receiptBytes digests (receiptOf output)⟩)]

end Receipts

/-! ## What reopens -/

section Reopened

variable {digests : Digests} {fileSha256 : ByteArray → String} {root : Root}
  {identity : String} {prepared : PreparedGeneratorProcessing} {output : VerifiedGeneratorOutput}

@[simp] theorem privateFile_ok {d : Directory} {name : String} {f : File} :
    privateFile d name = .ok f ↔ d.nodes.lookup name = some (.file f) ∧ f.isPrivate = true := by
  unfold privateFile
  rcases d.nodes.lookup name with _ | g | _
  · simp
  · cases hp : g.isPrivate with
    | false =>
      simp only [hp, Bool.false_eq_true, if_false, reduceCtorEq, Option.some.injEq,
        Node.file.injEq, false_iff, not_and]
      rintro rfl
      simp [hp]
    | true =>
      simp only [hp, if_true, Except.ok.injEq, Option.some.injEq, Node.file.injEq]
      constructor
      · rintro rfl
        exact ⟨rfl, hp⟩
      · exact fun h => h.1
  · simp

@[simp] theorem privateDirectory_ok {name : String} {d : Directory} :
    privateDirectory root name = .ok d ↔
      root.entries name = some (.directory d) ∧ d.isPrivate = true := by
  unfold privateDirectory
  rcases root.entries name with _ | e | _
  · simp
  · cases hp : e.isPrivate with
    | false =>
      simp only [hp, Bool.false_eq_true, if_false, reduceCtorEq, Option.some.injEq,
        Entry.directory.injEq, false_iff, not_and]
      rintro rfl
      simp [hp]
    | true =>
      simp only [hp, if_true, Except.ok.injEq, Option.some.injEq, Entry.directory.injEq]
      constructor
      · rintro rfl
        exact ⟨rfl, hp⟩
      · exact fun h => h.1
  · simp

theorem validate_ok {receipt : Receipt} :
    validate digests receipt prepared = .ok () ↔
      (receipt.schemaVersion = 1 ∧ receipt.processingHash = prepared.processingHash ∧
        receipt.invocationIdentity = prepared.recipe.invocation.invocationIdentity ∧
        receipt.result.status = .success) ∧
      receipt.result.validateAgainstRequest digests prepared.recipe.invocation = .ok () := by
  simp [validate]

theorem measureCopy_ok {receipt : Receipt} {bytes : ByteArray} :
    measureCopy fileSha256 receipt bytes = .ok () ↔
      ∃ declared, receipt.result.output = some declared ∧ Measures fileSha256 declared bytes := by
  unfold measureCopy
  cases receipt.result.output with
  | none => simp
  | some declared =>
    simp only [seq_ok, ensure_ok, Option.some.injEq, exists_eq_left']
    exact ⟨fun h => h.2, fun h => ⟨by rw [h.1], h⟩⟩

/-- The output and its receipt say the same. -/
theorem accepted_iff :
    Accepted digests fileSha256 prepared output ↔
      validate digests (receiptOf output) prepared = .ok () ∧
        measureCopy fileSha256 (receiptOf output) output.bytes = .ok () := by
  rw [validate_ok, measureCopy_ok]
  constructor
  · intro h
    exact ⟨⟨⟨rfl, h.processing, h.invocation, h.status⟩, h.valid⟩, h.measured⟩
  · rintro ⟨⟨⟨-, hp, hi, hs⟩, hv⟩, hm⟩
    exact ⟨hp, hi, hs, hv, hm⟩

/-- What a directory holds that reopens as an output. -/
structure Holds (digests : Digests) (identity : String) (output : VerifiedGeneratorOutput)
    (d : Directory) : Prop where
  directory : d.isPrivate = true
  receipt : ∃ f, d.nodes.lookup "receipt.json" = some (.file f) ∧ f.isPrivate = true ∧
    f.bytes = receiptBytes digests (receiptOf output)
  bytes : ∃ f, d.nodes.lookup "output.bin" = some (.file f) ∧ f.isPrivate = true ∧
    f.bytes = output.bytes
  identity : checkpointIdentity digests (receiptOf output) = identity

/-- Whatever is on disk, what reopens is an accepted output of the recipe, its receipt on disk is
the canonical receipt of the name, and its bytes are those on disk. -/
theorem reopen_ok (h : reopen digests fileSha256 root identity prepared = .ok output) :
    Accepted digests fileSha256 prepared output ∧
      ∃ d, root.entries identity = some (.directory d) ∧ Holds digests identity output d := by
  obtain ⟨-, h⟩ := seq_ok.mp h
  obtain ⟨-, h⟩ := seq_ok.mp h
  obtain ⟨d, hd, h⟩ := bind_ok.mp h
  obtain ⟨receipt, hreceipt, h⟩ := bind_ok.mp h
  obtain ⟨source, hsource, h⟩ := bind_ok.mp h
  obtain ⟨hmeasure, h⟩ := seq_ok.mp h
  cases h
  obtain ⟨file, hfile, hreceipt⟩ := bind_ok.mp hreceipt
  obtain ⟨-, hreceipt⟩ := seq_ok.mp hreceipt
  obtain ⟨value, -, hreceipt⟩ := bind_ok.mp hreceipt
  obtain ⟨receipt', -, hreceipt⟩ := bind_ok.mp hreceipt
  obtain ⟨hexact, hreceipt⟩ := seq_ok.mp hreceipt
  obtain ⟨hvalid, hreceipt⟩ := seq_ok.mp hreceipt
  cases hreceipt
  obtain ⟨hdir, hprivate⟩ := privateDirectory_ok.mp hd
  obtain ⟨hreceiptFile, hreceiptPrivate⟩ := privateFile_ok.mp hfile
  obtain ⟨hsourceFile, hsourcePrivate⟩ := privateFile_ok.mp hsource
  obtain ⟨hbytes, hidentity⟩ := ensure_ok.mp hexact
  have hversion := (validate_ok.mp hvalid).1.1
  -- the receipt of what is returned is the receipt that was read
  have hself : receiptOf ⟨receipt.result, receipt.invocationIdentity, receipt.processingHash,
      source.bytes⟩ = receipt := by
    cases receipt
    simp only [receiptOf] at hversion ⊢
    rw [hversion]
  refine ⟨accepted_iff.mpr (by rw [hself]; exact ⟨hvalid, hmeasure⟩), d, hdir, ?_⟩
  exact {
    directory := hprivate
    receipt := ⟨file, hreceiptFile, hreceiptPrivate, by rw [hself, hbytes]⟩
    bytes := ⟨source, hsourceFile, hsourcePrivate, rfl⟩
    identity := by rw [hself]; exact hidentity }

/-! ## What is written reopens -/

theorem receipt_fits (h : Accepted digests fileSha256 prepared output) :
    Receipt.codec.Fits (receiptOf output) := by
  have hresult := result_ok h.valid
  simp only [Receipt.codec, receiptOf, fits_record, fits_iso, fits_and, fits_required, fits_str,
    fits_unsigned, true_and]
  exact ⟨⟨by decide, by decide⟩, hresult⟩

/-- Within the limits, a directory that holds an output is read as its receipt. -/
theorem reopenReceipt_holds {d : Directory} (ht : digests.text.Faithful)
    (h : Accepted digests fileSha256 prepared output)
    (hlimit : (receiptBytes digests (receiptOf output)).size ≤ receiptLimit)
    (hbounded : Bounded (Receipt.codec.enc (receiptOf output)))
    (hholds : Holds digests identity output d) :
    reopenReceipt digests d identity prepared = .ok (receiptOf output) := by
  obtain ⟨f, hf, hprivate, hbytes⟩ := hholds.receipt
  have hfits := receipt_fits h
  have hread := ht _ (Receipt.codec.canonical _ hfits)
  have hparse : parseBytes digests.text f.bytes receiptLimit =
      .ok (Receipt.codec.enc (receiptOf output)) := by
    rw [hbytes]
    exact parseBytes_ok.mpr ⟨hlimit, _, fromUTF8_toByteArray _, hread, hbounded⟩
  refine bind_ok.mpr ⟨f, privateFile_ok.mpr ⟨hf, hprivate⟩, seq_ok.mpr ⟨?_, ?_⟩⟩
  · rw [ensure_ok, hbytes]
    exact hlimit
  · refine bind_ok.mpr ⟨_, mapError_ok.mpr hparse, bind_ok.mpr ⟨receiptOf output, ?_, ?_⟩⟩
    · rw [orError_ok, Receipt.codec.dec_enc _ hfits]
    · refine seq_ok.mpr ⟨ensure_ok.mpr ⟨hbytes.symm, hholds.identity⟩, seq_ok.mpr ⟨?_, rfl⟩⟩
      exact (accepted_iff.mp h).1

theorem reopen_holds {d : Directory} (ht : digests.text.Faithful)
    (h : Accepted digests fileSha256 prepared output)
    (hlimit : (receiptBytes digests (receiptOf output)).size ≤ receiptLimit)
    (hbounded : Bounded (Receipt.codec.enc (receiptOf output)))
    (hroot : root.accepted = true) (hsha : OnshapeApi.isSha256 identity = true)
    (hentry : root.entries identity = some (.directory d))
    (hholds : Holds digests identity output d) :
    reopen digests fileSha256 root identity prepared = .ok output := by
  obtain ⟨f, hf, hprivate, hbytes⟩ := hholds.bytes
  refine seq_ok.mpr ⟨ensure_ok.mpr hroot, seq_ok.mpr ⟨ensure_ok.mpr hsha, ?_⟩⟩
  refine bind_ok.mpr ⟨d, privateDirectory_ok.mpr ⟨hentry, hholds.directory⟩, ?_⟩
  refine bind_ok.mpr ⟨_, reopenReceipt_holds ht h hlimit hbounded hholds, ?_⟩
  refine bind_ok.mpr ⟨f, privateFile_ok.mpr ⟨hf, hprivate⟩, seq_ok.mpr ⟨?_, ?_⟩⟩
  · rw [hbytes]
    exact (accepted_iff.mp h).2
  · rw [hbytes]
    rfl

theorem holds_sealed (output : VerifiedGeneratorOutput) :
    Holds digests (checkpointIdentity digests (receiptOf output)) output
      (sealedDirectory digests output) where
  directory := rfl
  receipt := ⟨_, rfl, rfl, rfl⟩
  bytes := ⟨_, rfl, rfl, rfl⟩
  identity := rfl

end Reopened

end Checkpoints
end OnshapeExport
