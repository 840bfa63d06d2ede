import OnshapeExport.RecipeReopening
import OnshapeExport.RunnerLayout

/-!
# GeneratorRunner

What `generator_runner.rs` accepts of a finished generator: its result document and the candidate
it names, measured while they are copied. SHA-256 of bytes is a parameter, and so are the reads
that cut a file into chunks.

* `acceptFinal` — the output of an invocation, or why there is none.
* `acceptance` — exactly which roots and exit codes are accepted, or reported as failures.
-/

namespace OnshapeExport
namespace Runner

open CacheKey Checks Files Json Processing Protocol

def maxResultBytes : Nat := 262144

/-- Accepted bytes, with the result that declares them. -/
structure VerifiedGeneratorOutput where
  result : GeneratorResult
  invocationIdentity : String
  processingHash : String
  bytes : ByteArray
deriving DecidableEq

/-! ## Documents -/

mutual

/-- No object has a member twice. -/
def distinctMembers : Value → Bool
  | .array items => distinctItems items
  | .object members => distinctValues [] members
  | _ => true

def distinctItems : List Value → Bool
  | [] => true
  | v :: vs => distinctMembers v && distinctItems vs

def distinctValues (seen : List String) : List (String × Value) → Bool
  | [] => true
  | (key, v) :: ms => !(seen.contains key) && distinctMembers v && distinctValues (key :: seen) ms

end

/-- `serde_json::from_slice`: a typed document refuses a member that comes twice. -/
def fromSlice {α : Type} (text : JsonText) (c : Codec α) (bytes : ByteArray) : Option α :=
  match (String.fromUTF8? bytes).bind text.read with
  | none => none
  | some v => if distinctMembers v then c.dec v else none

theorem fromUTF8_toByteArray (s : String) : String.fromUTF8? s.toByteArray = some s := by
  rw [String.fromUTF8?, dif_pos s.isValidUTF8]
  rfl

/-- `parse_result`. -/
def parseResult (text : JsonText) (bytes : ByteArray) : Except ProtocolError GeneratorResult := do
  ensure (bytes.size ≤ maxResultBytes) (.documentTooLarge "generator result" maxResultBytes)
  match fromSlice text GeneratorResult.codec bytes with
  | none => throw (.invalidJson "generator result" "")
  | some result =>
    result.validate
    return result

/-! ## Measuring -/

/-- How the reads of a copy cut the bytes of a file. -/
structure Reads where
  cut : ByteArray → List ByteArray
  joins : ∀ bytes, (cut bytes).foldl (· ++ ·) .empty = bytes

/-- `MeasuringWriter`; its hash is that of what it has written. -/
structure MeasuringWriter where
  output : ByteArray
  count : Nat
  limit : Nat

def MeasuringWriter.write (w : MeasuringWriter) (bytes : ByteArray) :
    Except GeneratorRunnerError MeasuringWriter := do
  ensure (bytes.size ≤ w.limit - w.count) .candidateMismatch
  return { w with output := w.output ++ bytes, count := w.count + bytes.size }

/-- `io::copy`. -/
def MeasuringWriter.copy (w : MeasuringWriter) (chunks : List ByteArray) :
    Except GeneratorRunnerError MeasuringWriter := chunks.foldlM MeasuringWriter.write w

/-! ## Acceptance -/

section Accept

variable (digests : Digests) (fileSha256 : ByteArray → String) (reads : Reads)

/-- The regular file at a path that is looked up without following links. -/
def regularFile (root : FileTree ByteArray) (path : Path) (missing irregular : GeneratorRunnerError) :
    Except GeneratorRunnerError ByteArray :=
  match root.get? path with
  | none => .error missing
  | some (.file bytes) => .ok bytes
  | some _ => .error irregular

/-- The result document of an invocation, checked against its request. -/
def acceptResult (root : FileTree ByteArray) (request : GeneratorRequest) (code : Int) :
    Except GeneratorRunnerError GeneratorResult := do
  let bytes ← regularFile root (pathOf resultPath) .missingResult .unexpectedFiles
  ensure (bytes.size ≤ maxResultBytes) .malformedResult
  let result ← orError (fromSlice digests.text GeneratorResult.codec bytes) .malformedResult
  ensure (result.protocolVersion = request.protocolVersion ∧
      (∀ identity ∈ result.invocationIdentity, identity = request.invocationIdentity) ∧
      ∀ identities ∈ result.reportedIdentities, identities = request.expectedIdentities)
    .resultIdentityMismatch
  let _ ← (parseResult digests.text bytes).mapError fun _ => .malformedResult
  (result.validateAgainstRequest digests request).mapError fun _ => .outputDeclarationMismatch
  ensure (code = 0 ↔ result.status = .success) (.unexpectedExit code)
  return result

/-- `accept_final`. -/
def acceptFinal (root : FileTree ByteArray) (layout : Layout) (request : GeneratorRequest)
    (prepared : PreparedGeneratorProcessing) (code : Int) :
    Except GeneratorRunnerError VerifiedGeneratorOutput := do
  let result ← acceptResult digests root request code
  layout.verify root true
  ensure (result.status ≠ .failure) (.structuredFailure result)
  let output ← orError result.output .malformedResult
  let candidate ← regularFile root layout.candidate .candidateMissing .unexpectedFiles
  ensure (candidate.size = output.byteLength ∧ candidate.size ≤ request.output.maxByteLength)
    .candidateMismatch
  let writer ← MeasuringWriter.copy ⟨.empty, 0, output.byteLength⟩ (reads.cut candidate)
  ensure (writer.count = output.byteLength ∧ fileSha256 writer.output = output.sha256)
    .candidateMismatch
  return ⟨result, request.invocationIdentity, prepared.processingHash, writer.output⟩

end Accept

/-! ## What is accepted -/

section Accepted

variable {digests : Digests} {fileSha256 : ByteArray → String} {reads : Reads}
  {root : FileTree ByteArray} {layout : Layout} {manifest : InputManifest}
  {request : GeneratorRequest} {prepared : PreparedGeneratorProcessing} {code : Int}
  {result : GeneratorResult} {output : VerifiedGeneratorOutput}

@[simp] theorem regularFile_ok {path : Path} {missing irregular : GeneratorRunnerError}
    {bytes : ByteArray} :
    regularFile root path missing irregular = .ok bytes ↔
      root.get? path = some (.file bytes) := by
  unfold regularFile
  split <;> simp_all

theorem regularFile_error {path : Path} {missing irregular e : GeneratorRunnerError} :
    regularFile root path missing irregular = .error e → e = missing ∨ e = irregular := by
  unfold regularFile
  split
  · intro h
    cases h
    exact .inl rfl
  · nofun
  · intro h
    cases h
    exact .inr rfl

/-- Bytes have the length and the hash that a declaration gives them. -/
def Measures (fileSha256 : ByteArray → String) (output : GeneratedOutput) (bytes : ByteArray) :
    Prop :=
  bytes.size = output.byteLength ∧ fileSha256 bytes = output.sha256

instance (output : GeneratedOutput) (bytes : ByteArray) :
    Decidable (Measures fileSha256 output bytes) := inferInstanceAs (Decidable (_ ∧ _))

theorem size_le_foldl (chunks : List ByteArray) (bytes : ByteArray) :
    bytes.size ≤ (chunks.foldl (· ++ ·) bytes).size := by
  induction chunks generalizing bytes with
  | nil => exact Nat.le_refl _
  | cons chunk chunks ih =>
    have := ih (bytes ++ chunk)
    rw [ByteArray.size_append] at this
    rw [List.foldl_cons]
    omega

/-- However it is cut, a copy that stays within its limit writes everything. -/
theorem copy_ok {chunks : List ByteArray} {written : ByteArray} {limit : Nat}
    (h : (chunks.foldl (· ++ ·) written).size ≤ limit) :
    MeasuringWriter.copy ⟨written, written.size, limit⟩ chunks =
      .ok ⟨chunks.foldl (· ++ ·) written, (chunks.foldl (· ++ ·) written).size, limit⟩ := by
  induction chunks generalizing written with
  | nil => rfl
  | cons chunk chunks ih =>
    rw [List.foldl_cons] at h ⊢
    have hle := size_le_foldl chunks (written ++ chunk)
    have hroom : chunk.size ≤ limit - written.size := by
      rw [ByteArray.size_append] at hle
      omega
    have hwrite : MeasuringWriter.write ⟨written, written.size, limit⟩ chunk =
        .ok ⟨written ++ chunk, (written ++ chunk).size, limit⟩ := by
      rw [MeasuringWriter.write, seq_ok, ByteArray.size_append]
      exact ⟨ensure_ok.mpr hroom, rfl⟩
    rw [MeasuringWriter.copy, List.foldlM_cons, hwrite]
    exact ih h

/-- A copy of a file, within its limit, is the file. -/
theorem copy_reads {bytes : ByteArray} {limit : Nat} (h : bytes.size ≤ limit) :
    MeasuringWriter.copy ⟨.empty, 0, limit⟩ (reads.cut bytes) = .ok ⟨bytes, bytes.size, limit⟩ := by
  have hcopy := @copy_ok (reads.cut bytes) .empty limit (by rw [reads.joins]; exact h)
  rw [reads.joins] at hcopy
  exact hcopy

/-- The result file of a root, and what it says. -/
def ResultFile (digests : Digests) (root : FileTree ByteArray) (request : GeneratorRequest)
    (result : GeneratorResult) : Prop :=
  ∃ bytes, root.get? (pathOf resultPath) = some (.file bytes) ∧ bytes.size ≤ maxResultBytes ∧
    fromSlice digests.text GeneratorResult.codec bytes = some result ∧
    result.validateAgainstRequest digests request = .ok ()

/-- A result that validates against a request has its version and its identities. -/
theorem identities_of_valid (h : result.validateAgainstRequest digests request = .ok ()) :
    result.validate = .ok () ∧ result.protocolVersion = request.protocolVersion ∧
      (∀ identity ∈ result.invocationIdentity, identity = request.invocationIdentity) ∧
      ∀ identities ∈ result.reportedIdentities, identities = request.expectedIdentities := by
  simp only [GeneratorResult.validateAgainstRequest, seq_ok, whenSome_ok, require_ok] at h
  obtain ⟨hrequest, hvalid, hinvocation, hidentities, -⟩ := h
  simp only [GeneratorRequest.validate, seq_ok, version_ok] at hrequest
  have hversion := hvalid
  simp only [GeneratorResult.validate, seq_ok, version_ok] at hversion
  exact ⟨hvalid, hversion.1.trans hrequest.1.symm, hinvocation, hidentities⟩

theorem parseResult_ok {bytes : ByteArray} (hsize : bytes.size ≤ maxResultBytes)
    (hread : fromSlice digests.text GeneratorResult.codec bytes = some result)
    (hvalid : result.validate = .ok ()) : parseResult digests.text bytes = .ok result := by
  rw [parseResult, seq_ok]
  refine ⟨ensure_ok.mpr hsize, ?_⟩
  rw [hread]
  exact seq_ok.mpr ⟨hvalid, rfl⟩

theorem acceptResult_ok : acceptResult digests root request code = .ok result ↔
    ResultFile digests root request result ∧ (code = 0 ↔ result.status = .success) := by
  constructor
  · intro h
    obtain ⟨bytes, hbytes, h⟩ := bind_ok.mp h
    obtain ⟨hsize, h⟩ := seq_ok.mp h
    obtain ⟨result', hread, h⟩ := bind_ok.mp h
    obtain ⟨-, h⟩ := seq_ok.mp h
    obtain ⟨parsed, -, h⟩ := bind_ok.mp h
    obtain ⟨hvalid, h⟩ := seq_ok.mp h
    obtain ⟨hcode, h⟩ := seq_ok.mp h
    cases h
    exact ⟨⟨bytes, regularFile_ok.mp hbytes, ensure_ok.mp hsize, orError_ok.mp hread,
      mapError_ok.mp hvalid⟩, ensure_ok.mp hcode⟩
  · rintro ⟨⟨bytes, hbytes, hsize, hread, hvalid⟩, hcode⟩
    obtain ⟨hself, hidentities⟩ := identities_of_valid hvalid
    refine bind_ok.mpr ⟨bytes, regularFile_ok.mpr hbytes, seq_ok.mpr ⟨ensure_ok.mpr hsize, ?_⟩⟩
    refine bind_ok.mpr ⟨result, orError_ok.mpr hread, seq_ok.mpr ⟨ensure_ok.mpr hidentities, ?_⟩⟩
    refine bind_ok.mpr ⟨result, mapError_ok.mpr (parseResult_ok hsize hread hself), ?_⟩
    exact seq_ok.mpr ⟨mapError_ok.mpr hvalid, seq_ok.mpr ⟨ensure_ok.mpr hcode, rfl⟩⟩

/-- The tree has exactly the directories and the files of the layout. -/
structure ExactTree (layout : Layout) (root : FileTree ByteArray) : Prop where
  directories : ∀ p, root.get? p = some .directory ↔ p ∈ layout.directories
  files : ∀ p, (∃ bytes, root.get? p = some (.file bytes)) ↔ p ∈ layout.files
  regular : ∀ p, root.get? p ≠ some .other

/-- A verified root with a regular candidate is exact. -/
theorem exactTree_iff (hfor : layout.For manifest request) :
    ExactTree layout root ↔ layout.verify root true = .ok () ∧
      ∃ bytes, root.get? layout.candidate = some (.file bytes) := by
  have hcandidate : layout.candidate ∈ layout.files := by
    refine (hfor.files _).mpr ⟨request.output.path, ?_, hfor.candidate⟩
    simp [declaredPaths]
  simp only [verify_iff, Layout.Exact, true_or, and_true]
  constructor
  · rintro ⟨hdirectories, hfiles, hregular⟩
    refine ⟨⟨fun e he => ?_, fun p hp _ => (hfiles p).mpr hp⟩, (hfiles _).mpr hcandidate⟩
    obtain ⟨p, k⟩ := e
    have hget := FileTree.get?_eq_some.mpr he
    cases k with
    | directory => exact decide_eq_true ((hdirectories p).mp hget)
    | file bytes => exact decide_eq_true ((hfiles p).mp ⟨bytes, hget⟩)
    | other => exact absurd hget (hregular p)
  · rintro ⟨⟨hdeclared, hpresent⟩, hregular⟩
    have hentry : ∀ {p k}, root.get? p = some k → layout.declares (p, k) = true :=
      fun h => hdeclared _ (FileTree.get?_eq_some.mp h)
    have hfile : ∀ p ∈ layout.files, ∃ bytes, root.get? p = some (.file bytes) := by
      intro p hp
      by_cases hc : p = layout.candidate
      · rw [hc]
        exact hregular
      · exact hpresent p hp hc
    refine ⟨fun p => ⟨fun h => of_decide_eq_true (hentry h), fun hp => ?_⟩,
      fun p => ⟨fun h => ?_, hfile p⟩, fun p h => ?_⟩
    · obtain ⟨hne, file, hmem, habove⟩ := (hfor.directories p).mp hp
      obtain ⟨bytes, hbytes⟩ := hfile file hmem
      exact (FileTree.isDirectory_of_prefix hbytes habove.1 habove.2).resolve_left hne
    · obtain ⟨_, h⟩ := h
      exact of_decide_eq_true (hentry h)
    · have := hentry h
      cases this

/-- What is accepted of a finished invocation. -/
structure Acceptable (digests : Digests) (fileSha256 : ByteArray → String)
    (root : FileTree ByteArray)
    (layout : Layout) (request : GeneratorRequest) (prepared : PreparedGeneratorProcessing)
    (output : VerifiedGeneratorOutput) : Prop where
  result : ResultFile digests root request output.result
  status : output.result.status = .success
  exact_ : ExactTree layout root
  candidate : root.get? layout.candidate = some (.file output.bytes)
  measured : ∃ declared, output.result.output = some declared ∧
    Measures fileSha256 declared output.bytes ∧
    output.bytes.size ≤ request.output.maxByteLength
  invocation : output.invocationIdentity = request.invocationIdentity
  processing : output.processingHash = prepared.processingHash

theorem acceptFinal_iff (hfor : layout.For manifest request) :
    acceptFinal digests fileSha256 reads root layout request prepared code = .ok output ↔
      code = 0 ∧ Acceptable digests fileSha256 root layout request prepared output := by
  constructor
  · intro h
    obtain ⟨result, hresult, h⟩ := bind_ok.mp h
    obtain ⟨hverify, h⟩ := seq_ok.mp h
    obtain ⟨hstatus, h⟩ := seq_ok.mp h
    obtain ⟨declared, hdeclared, h⟩ := bind_ok.mp h
    obtain ⟨candidate, hcandidate, h⟩ := bind_ok.mp h
    obtain ⟨hsize, h⟩ := seq_ok.mp h
    obtain ⟨hlength, hmax⟩ := ensure_ok.mp hsize
    rw [copy_reads (by rw [hlength])] at h
    obtain ⟨hmeasured, h⟩ := seq_ok.mp h
    cases h
    obtain ⟨hfile, hcode⟩ := acceptResult_ok.mp hresult
    have hsuccess : result.status = .success := by
      have hne := ensure_ok.mp hstatus
      cases hs : result.status with
      | success => rfl
      | failure => exact absurd hs hne
    have hbytes := regularFile_ok.mp hcandidate
    exact ⟨hcode.mpr hsuccess, {
      result := hfile
      status := hsuccess
      exact_ := (exactTree_iff hfor).mpr ⟨hverify, candidate, hbytes⟩
      candidate := hbytes
      measured := ⟨declared, orError_ok.mp hdeclared, ensure_ok.mp hmeasured, hmax⟩
      invocation := rfl
      processing := rfl }⟩
  · rintro ⟨hcode, h⟩
    obtain ⟨declared, hdeclared, hmeasured, hmax⟩ := h.measured
    have hverify := ((exactTree_iff hfor).mp h.exact_).1
    have hresult := acceptResult_ok.mpr ⟨h.result, iff_of_true hcode h.status⟩
    refine bind_ok.mpr ⟨output.result, hresult, seq_ok.mpr ⟨hverify, seq_ok.mpr ⟨?_, ?_⟩⟩⟩
    · rw [ensure_ok, h.status]
      nofun
    · refine bind_ok.mpr ⟨declared, orError_ok.mpr hdeclared, bind_ok.mpr ⟨output.bytes,
        regularFile_ok.mpr h.candidate, seq_ok.mpr ⟨ensure_ok.mpr ⟨hmeasured.1, hmax⟩, ?_⟩⟩⟩
      rw [copy_reads (by rw [hmeasured.1])]
      refine seq_ok.mpr ⟨ensure_ok.mpr hmeasured, ?_⟩
      rw [← h.invocation, ← h.processing]
      rfl

theorem verify_error {resultRequired : Bool} {e : GeneratorRunnerError}
    (h : layout.verify root resultRequired = .error e) : e = .unexpectedFiles := by
  rcases bind_error.mp h with h | ⟨remaining, -, h⟩
  · cases hwalk : root.walk layout.declares recordFile _ with
    | none =>
      rw [hwalk] at h
      cases h
      rfl
    | some remaining =>
      rw [hwalk] at h
      cases h
  · rcases bind_error.mp h with h | ⟨-, -, h⟩
    · exact (ensure_error.mp h).2.symm
    · exact (ensure_error.mp h).2.symm

/-- No check of the result reports a structured failure. -/
theorem acceptResult_error {failed : GeneratorResult} :
    acceptResult digests root request code ≠ .error (.structuredFailure failed) := by
  intro h
  rcases bind_error.mp h with h | ⟨bytes, -, h⟩
  · rcases regularFile_error h with h | h <;> cases h
  rcases bind_error.mp h with h | ⟨-, -, h⟩
  · cases (ensure_error.mp h).2
  rcases bind_error.mp h with h | ⟨result, -, h⟩
  · unfold orError at h
    split at h <;> cases h
  rcases bind_error.mp h with h | ⟨-, -, h⟩
  · cases (ensure_error.mp h).2
  rcases bind_error.mp h with h | ⟨parsed, -, h⟩
  · obtain ⟨-, -, he⟩ := mapError_error.mp h
    cases he
  rcases bind_error.mp h with h | ⟨-, -, h⟩
  · obtain ⟨-, -, he⟩ := mapError_error.mp h
    cases he
  rcases bind_error.mp h with h | ⟨-, -, h⟩
  · cases (ensure_error.mp h).2
  · cases h

theorem structuredFailure_iff :
    acceptFinal digests fileSha256 reads root layout request prepared code =
        .error (.structuredFailure result) ↔
      code ≠ 0 ∧ ResultFile digests root request result ∧ result.status = .failure ∧
        layout.verify root true = .ok () := by
  constructor
  · intro h
    rcases bind_error.mp h with h | ⟨result', hresult, h⟩
    · exact absurd h acceptResult_error
    rcases bind_error.mp h with h | ⟨u, hverify, h⟩
    · cases verify_error h
    obtain ⟨hfile, hcode⟩ := acceptResult_ok.mp hresult
    rcases bind_error.mp h with h | ⟨-, -, h⟩
    · obtain ⟨hstatus, he⟩ := ensure_error.mp h
      cases he
      rw [not_not] at hstatus
      refine ⟨fun h0 => ?_, hfile, hstatus, hverify⟩
      rw [hcode.mp h0] at hstatus
      cases hstatus
    · exfalso
      rcases bind_error.mp h with h | ⟨declared, -, h⟩
      · unfold orError at h
        split at h <;> cases h
      rcases bind_error.mp h with h | ⟨candidate, -, h⟩
      · rcases regularFile_error h with h | h <;> cases h
      rcases bind_error.mp h with h | ⟨u, hsize, h⟩
      · cases (ensure_error.mp h).2
      rcases bind_error.mp h with h | ⟨writer, -, h⟩
      · rw [copy_reads (by rw [(ensure_ok.mp hsize).1])] at h
        cases h
      rcases bind_error.mp h with h | ⟨-, -, h⟩
      · cases (ensure_error.mp h).2
      · cases h
  · rintro ⟨hcode, hfile, hstatus, hverify⟩
    have hresult := acceptResult_ok.mpr ⟨hfile, iff_of_false hcode (by rw [hstatus]; nofun)⟩
    refine bind_error.mpr (.inr ⟨result, hresult, bind_error.mpr (.inr ⟨(), hverify, ?_⟩)⟩)
    refine bind_error.mpr (.inl (ensure_error.mpr ⟨?_, rfl⟩))
    rw [not_not]
    exact hstatus

/-- An output of a recipe's invocation, whoever made it. -/
structure Accepted (digests : Digests) (fileSha256 : ByteArray → String)
    (prepared : PreparedGeneratorProcessing) (output : VerifiedGeneratorOutput) : Prop where
  processing : output.processingHash = prepared.processingHash
  invocation : output.invocationIdentity = prepared.recipe.invocation.invocationIdentity
  status : output.result.status = .success
  valid : output.result.validateAgainstRequest digests prepared.recipe.invocation = .ok ()
  measured : ∃ declared, output.result.output = some declared ∧
    Measures fileSha256 declared output.bytes

theorem Acceptable.accepted
    (h : Acceptable digests fileSha256 root layout prepared.recipe.invocation prepared output) :
    Accepted digests fileSha256 prepared output := by
  obtain ⟨declared, hdeclared, hmeasured, -⟩ := h.measured
  obtain ⟨bytes, -, -, -, hvalid⟩ := h.result
  exact ⟨h.processing, h.invocation, h.status, hvalid, declared, hdeclared, hmeasured⟩

/-- The integers of an accepted result fit. -/
theorem result_ok (h : result.validateAgainstRequest digests request = .ok ()) :
    GeneratorResult.codec.Fits result := by
  have hvalid := (identities_of_valid h).1
  simp only [GeneratorResult.validate, seq_ok, version_ok, whenSome_ok] at hvalid
  obtain ⟨hversion, -, -, -, -, -, -, houtput, -⟩ := hvalid
  refine fits_generatorResult.mpr ⟨by rw [hversion]; decide, fun o ho => ?_⟩
  have hlength := houtput o ho
  simp only [GeneratedOutput.validate, seq_ok, byteLength_ok] at hlength
  have := hlength.2.2.2.2.1.2
  simp only [maxSafeJsonInteger] at this
  omega

end Accepted

/-- With the exit code of a success, exactly the roots that hold what was declared are accepted,
with the bytes of the candidate; a structured failure comes of the other code, and of a result that
is one in a root that is exact but for the candidate. -/
theorem acceptance (digests : Digests) (fileSha256 : ByteArray → String) (reads : Reads)
    {manifest : InputManifest} {request : GeneratorRequest} {layout : Layout}
    (hnew : Layout.new manifest request = .ok layout) (root : FileTree ByteArray)
    (prepared : PreparedGeneratorProcessing) (code : Int) (hcode : code = 0 ∨ code = 1) :
    (∀ output, acceptFinal digests fileSha256 reads root layout request prepared code = .ok output ↔
      code = 0 ∧ Acceptable digests fileSha256 root layout request prepared output) ∧
    ∀ result, acceptFinal digests fileSha256 reads root layout request prepared code =
        .error (.structuredFailure result) ↔
      code = 1 ∧ ResultFile digests root request result ∧ result.status = .failure ∧
        layout.Exact root fun p => p ≠ layout.candidate := by
  refine ⟨fun output => acceptFinal_iff (layout_new_ok.mp hnew).2, fun result => ?_⟩
  rw [structuredFailure_iff, verify_iff]
  simp only [true_or, and_true]
  refine and_congr_left fun _ => ?_
  omega

/-- The root of the sample recipe, and reads that take a file whole. -/
theorem acceptance_sample : ∃ layout, Layout.new recipeManifest recipeInvocation = .ok layout ∧
    ∀ root output, acceptFinal recipeDigests (fun _ => recipeHash)
        ⟨fun bytes => [bytes], fun bytes => by simp⟩ root layout recipeInvocation
        (finishRecipe recipeDigests sampleRecipe) 0 = .ok output ↔
      (0 : Int) = 0 ∧ Acceptable recipeDigests (fun _ => recipeHash) root layout recipeInvocation
        (finishRecipe recipeDigests sampleRecipe) output := by
  obtain ⟨layout, hnew⟩ := layout_new_iff.mpr
    (show Separate (declaredPaths recipeManifest recipeInvocation) by
      rw [Separate]
      decide +kernel)
  exact ⟨layout, hnew, fun root output => (acceptance recipeDigests (fun _ => recipeHash)
    ⟨fun bytes => [bytes], fun bytes => by simp⟩ hnew root _ 0 (.inl rfl)).1 output⟩

end Runner
end OnshapeExport
