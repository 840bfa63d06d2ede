import OnshapeExport.Exports
import OnshapeExport.GltfPreviews

/-!
# Postprocessing

What `main.rs` makes of the bytes that Onshape answered an export with: their kind, the preview or
the download that is taken out of them, and the runs that record it. The ZIP and JSON readers are
parameters: `unzip` lists the entries of an archive, and `fromSlice` is what a document is read as.

* `validateGlb`, `validateGltfJson` — the checks of a preview file.
* `previewArtifactFromOnshapeBytes`, `downloadArtifactFromOnshapeBytes` — the artifact of a payload.
* `PostprocessRun` — the rows of `postprocess_runs`.
* `preview_wellFormed` — whatever the payload, a preview that is taken out of it is one.
-/

namespace OnshapeExport
namespace Postprocess

open Catalogs Checks Exports Json Preview Relational

/-! ## Files -/

def zipMagic : List UInt8 := [0x50, 0x4b, 0x03, 0x04]

def glbMagic : List UInt8 := [0x67, 0x6c, 0x54, 0x46]

def startsWith (bytes : ByteArray) (magic : List UInt8) : Bool := magic.isPrefixOf bytes.data.toList

/-- The value of some bytes, the least significant one first. -/
def littleEndian : List UInt8 → Nat
  | [] => 0
  | byte :: bytes => byte.toNat + 256 * littleEndian bytes

/-- `u32::from_le_bytes` of the four bytes at an offset. -/
def u32At (bytes : ByteArray) (offset : Nat) : Nat :=
  littleEndian ((bytes.data.toList.drop offset).take 4)

def validateGlb (bytes : ByteArray) : Except Failure Unit := do
  ensure (12 ≤ bytes.size) ["GLB data is shorter than its header"]
  ensure (startsWith bytes glbMagic = true) ["GLB data has an invalid magic header"]
  ensure (u32At bytes 4 = 2) ["unsupported GLB version: " ++ toString (u32At bytes 4)]
  ensure (u32At bytes 8 = bytes.size) ["GLB declared length " ++ toString (u32At bytes 8) ++
    " does not match " ++ toString bytes.size ++ " bytes"]

section Readers

variable (fromSlice : ByteArray → Option Value)
  (unzip : ByteArray → Except Failure (List ZipEntry))

def validateGltfJson (bytes : ByteArray) : Except Failure Unit :=
  match fromSlice bytes with
  | none => .error ["invalid JSON"]
  | some value => ensure (hasVersion value = true) ["glTF JSON did not include asset.version"]

def detectRawPayloadKind (bytes : ByteArray) : String :=
  if startsWith bytes zipMagic then "zip"
  else if startsWith bytes glbMagic then "glb"
  else
    match validateGltfJson fromSlice bytes with
    | .ok () => "gltf_json"
    | .error _ => "binary"

/-- The files of an archive, with their names checked. -/
def zipInventory (bytes : ByteArray) : Except Failure (Option (List (String × Nat))) :=
  if startsWith bytes zipMagic = false then .ok none
  else do
    let entries ← unzip bytes
    let files ← traverse (fun _ (entry : ZipEntry) => do
      let path ← safeZipAssetName entry.name
      return (path, entry.bytes.size)) 0 (entries.filter fun entry => !entry.isDir)
    return some files

/-! ## Previews -/

def glbArtifact (originalPath : Option String) (bytes : ByteArray) : PreviewArtifact where
  logicalPath := "preview.glb"
  originalPath := originalPath
  contentType := "model/gltf-binary"
  bytes := bytes
  sidecars := []

def previewArtifactFromZip (bytes : ByteArray) : Except Failure PreviewArtifact := do
  let entries ← unzip bytes
  match zipEntryIndicesWithExtension entries "glb" with
  | [] => previewArtifactFromGltfZip fromSlice entries
  | [index] =>
    match entries[index]? with
    | none => throw ["specified file not found in archive"]
    | some entry =>
      (validateGlb entry.bytes).mapError ("validating zipped GLB preview export" :: ·)
      let originalPath ← safeZipAssetName entry.name
      return glbArtifact (some originalPath) entry.bytes
  | _ => throw ["Onshape preview ZIP contained multiple GLB files; expected exactly one GLB " ++
      "preview artifact"]

def previewArtifactFromOnshapeBytes (bytes : ByteArray) : Except Failure PreviewArtifact :=
  if startsWith bytes glbMagic then do
    (validateGlb bytes).mapError ("validating direct GLB preview export" :: ·)
    return glbArtifact none bytes
  else if startsWith bytes zipMagic then previewArtifactFromZip fromSlice unzip bytes
  else do
    (validateGltfJson fromSlice bytes).mapError ("validating direct glTF preview export" :: ·)
    return {
      logicalPath := "preview.gltf"
      originalPath := none
      contentType := "model/gltf+json"
      bytes := bytes
      sidecars := [] }

/-! ## Downloads -/

structure DownloadArtifact where
  logicalPath : String
  originalPath : Option String
  contentType : String
  bytes : ByteArray
deriving DecidableEq

def contentType : DownloadFormat → String
  | .step => "model/step"
  | .stl => "model/stl"
  | .threeMf => "model/3mf"

def isStemChar (c : Char) : Bool :=
  ('a' ≤ c && c ≤ 'z') || ('A' ≤ c && c ≤ 'Z') || ('0' ≤ c && c ≤ '9') || c = '-' || c = '_'

def safeFilenameStem (value : String) : String :=
  String.ofList (value.toList.map fun c => if isStemChar c then c else '-')

/-- The extension of a format is its slug. -/
def downloadFilename (slug : String) (format : DownloadFormat) : String :=
  safeFilenameStem slug ++ "-" ++ format.slug ++ "." ++ format.slug

def downloadPackageFilename (slug : String) (format : DownloadFormat) : String :=
  safeFilenameStem slug ++ "-" ++ format.slug ++ ".zip"

/-- The indices of the files of an archive, whose names are checked. -/
def zipFileEntryIndices (entries : List ZipEntry) : Except Failure (List Nat) := do
  let files := entries.zipIdx.filter fun (entry, _) => !entry.isDir
  each (fun _ (file : ZipEntry × Nat) => (safeZipAssetName file.1.name).map fun _ => ()) 0 files
  return files.map Prod.snd

/-- The payload as it came. -/
def wholePayload (logicalPath contentType : String) (bytes : ByteArray) : DownloadArtifact :=
  ⟨logicalPath, some logicalPath, contentType, bytes⟩

def stepArtifactFromOnshapeBytes (slug : String) (bytes : ByteArray) :
    Except Failure DownloadArtifact :=
  if startsWith bytes zipMagic = false then
    .ok (wholePayload (downloadFilename slug .step) (contentType .step) bytes)
  else do
    let entries ← (unzip bytes).mapError ("reading zipped STEP download payload" :: ·)
    let fileEntries ← zipFileEntryIndices entries
    match fileEntries, zipEntryIndicesWithExtension entries "step" with
    | [_], [index] =>
      match entries[index]? with
      | none => throw ["specified file not found in archive"]
      | some entry =>
        let originalPath ← safeZipAssetName entry.name
        return ⟨downloadFilename slug .step, some originalPath, contentType .step, entry.bytes⟩
    | _, _ => return wholePayload (downloadPackageFilename slug .step) "application/zip" bytes

def downloadArtifactFromOnshapeBytes (slug : String) (format : DownloadFormat)
    (bytes : ByteArray) : Except Failure DownloadArtifact :=
  if format = .step then stepArtifactFromOnshapeBytes unzip slug bytes
  else .ok (wholePayload (downloadFilename slug format) (contentType format) bytes)

/-! ## What is published -/

/-- A file that is uploaded. -/
structure DerivedFile where
  role : String
  logicalPath : String
  originalPath : Option String
  contentType : String
  bytes : ByteArray
deriving DecidableEq

/-- The primary file first, and the files beside it. -/
structure Derived where
  primary : DerivedFile
  sidecars : List DerivedFile
deriving DecidableEq

def Derived.files (d : Derived) : List DerivedFile := d.primary :: d.sidecars

def derivedPreview (a : PreviewArtifact) : Derived where
  primary := ⟨"viewer_entry", a.logicalPath, a.originalPath, a.contentType, a.bytes⟩
  sidecars := a.sidecars.map fun s =>
    ⟨s.role, s.logicalPath, s.originalPath, s.contentType, s.bytes⟩

def derivedDownload (a : DownloadArtifact) : Derived where
  primary := ⟨"download", a.logicalPath, a.originalPath, a.contentType, a.bytes⟩
  sidecars := []

/-- What the post-processing of an output makes of a payload. -/
def derive (slug : String) (output : Output) (bytes : ByteArray) : Except Failure Derived :=
  match output with
  | .preview => (previewArtifactFromOnshapeBytes fromSlice unzip bytes).map derivedPreview
  | .download format =>
    (downloadArtifactFromOnshapeBytes unzip slug format bytes).map derivedDownload

end Readers

/-! ## Runs -/

/-- A row of `postprocess_runs`. -/
structure PostprocessRun where
  postprocessHash : String
  rawPayloadHash : String
  processorName : String
  processorVersion : String
  policyJson : String
  status : String
  logJson : String
  derivedFilesJson : String
deriving DecidableEq, Repr

instance : Schema PostprocessRun String where
  key := PostprocessRun.postprocessHash
  clash a b := a.postprocessHash = b.postprocessHash
  clash_of_key h := h
  clash_symm h := h.symm

instance : DecidableRel (Schema.clash (α := PostprocessRun)) := fun a b =>
  inferInstanceAs (Decidable (a.postprocessHash = b.postprocessHash))

def insertPostprocessRunIfAbsent (run : PostprocessRun) (t : Table PostprocessRun) :
    Table PostprocessRun :=
  (t.insertOrIgnore run).2

def transitionPostprocessRunStatus (postprocessHash status logJson derivedFilesJson : String)
    (t : Table PostprocessRun) : Table PostprocessRun :=
  t.update (fun r => r.postprocessHash = postprocessHash)
    (fun r => { r with status := status, logJson := logJson, derivedFilesJson := derivedFilesJson })
    ⟨fun _ => rfl, fun _ _ => .rfl⟩

/-! ## What is taken out of a payload -/

/-- The header that a binary glTF file of version 2 has to start with. -/
structure GlbHeader (bytes : ByteArray) : Prop where
  magic : glbMagic <+: bytes.data.toList
  version : u32At bytes 4 = 2
  length : u32At bytes 8 = bytes.size
  header : 12 ≤ bytes.size

theorem validateGlb_ok {bytes : ByteArray} : validateGlb bytes = .ok () ↔ GlbHeader bytes := by
  simp only [validateGlb, seq_ok, Checks.ensure_ok, startsWith, List.isPrefixOf_iff_prefix]
  constructor
  · intro h
    exact ⟨h.2.1, h.2.2.1, h.2.2.2, h.1⟩
  · intro h
    exact ⟨h.header, h.magic, h.version, h.length⟩

section WellFormed

variable {fromSlice : ByteArray → Option Value} {unzip : ByteArray → Except Failure (List ZipEntry)}

theorem validateGltfJson_ok {bytes : ByteArray} :
    validateGltfJson fromSlice bytes = .ok () ↔
      ∃ value, fromSlice bytes = some value ∧ hasVersion value = true := by
  unfold validateGltfJson
  cases fromSlice bytes with
  | none => simp
  | some value => simp

/-- A name of one segment, of characters that a header may quote. -/
def PlainName (name : String) : Prop :=
  name ≠ "" ∧ ¬ dotPart name.toList ∧ ∀ c ∈ name.toList, isStemChar c = true ∨ c = '.'

theorem plain_chars {c : Char} (h : isStemChar c = true ∨ c = '.') :
    c ≠ '/' ∧ c ≠ '\\' ∧ c ≠ '"' ∧ Protocol.isControl c = false := by
  have hrange : 45 ≤ c.toNat ∧ c.toNat ≤ 122 ∧ c.toNat ≠ 47 ∧ c.toNat ≠ 92 := by
    rcases h with h | rfl
    · simp only [isStemChar, Bool.or_eq_true, Bool.and_eq_true, decide_eq_true_eq, Char.le_def,
        UInt32.le_iff_toNat_le] at h
      rcases h with (((h | h) | h) | rfl) | rfl
      · have hlow : 97 ≤ c.toNat := h.1
        have hhigh : c.toNat ≤ 122 := h.2
        omega
      · have hlow : 65 ≤ c.toNat := h.1
        have hhigh : c.toNat ≤ 90 := h.2
        omega
      · have hlow : 48 ≤ c.toNat := h.1
        have hhigh : c.toNat ≤ 57 := h.2
        omega
      · decide
      · decide
    · decide
  refine ⟨?_, ?_, ?_, ?_⟩
  · rintro rfl
    exact hrange.2.2.1 rfl
  · rintro rfl
    exact hrange.2.2.2 rfl
  · rintro rfl
    have hquote : 45 ≤ 34 := hrange.1
    omega
  · simp only [Protocol.isControl, Bool.or_eq_false_iff, Bool.and_eq_false_iff,
      decide_eq_false_iff_not]
    omega

theorem parts_of_no_slash {name : String} (h : '/' ∉ name.toList) : parts name = [name.toList] := by
  have hjoined : (List.intercalate ['/'] [name.toList]).splitOn '/' = [name.toList] :=
    List.splitOn_intercalate '/' (by simpa using h) (by simp)
  simpa [parts, List.intercalate] using hjoined

theorem PlainName.safePath {name : String} (h : PlainName name) : SafePath name := by
  obtain ⟨hne, hdots, hchars⟩ := h
  have hslash : '/' ∉ name.toList := fun hmem => (plain_chars (hchars _ hmem)).1 rfl
  refine ⟨fun hmem => (plain_chars (hchars _ hmem)).2.1 rfl, fun part hpart => ?_⟩
  rw [parts_of_no_slash hslash, List.mem_singleton] at hpart
  subst hpart
  refine ⟨fun hnil => hne (String.toList_eq_nil_iff.mp hnil), hdots, ?_⟩
  rw [List.any_eq_false]
  intro c hc
  rw [(plain_chars (hchars c hc)).2.2.2]
  exact Bool.false_ne_true

theorem mem_safeFilenameStem {slug : String} {c : Char} (h : c ∈ (safeFilenameStem slug).toList) :
    isStemChar c = true := by
  rw [safeFilenameStem, String.toList_ofList] at h
  obtain ⟨d, -, rfl⟩ := List.mem_map.mp h
  split
  · assumption
  · rfl

/-- A name that is made of a stem and a suffix with a hyphen in it. -/
theorem plain_suffixed {slug suffix : String}
    (hsuffix : suffix.toList.all (fun c => isStemChar c || c = '.') = true)
    (hhyphen : suffix.toList.head? = some '-') : PlainName (safeFilenameStem slug ++ suffix) := by
  have hmem : '-' ∈ (safeFilenameStem slug ++ suffix).toList := by
    rw [String.toList_append]
    exact List.mem_append_right _ (List.mem_of_mem_head? (Option.mem_def.mpr hhyphen))
  refine ⟨?_, ?_, fun c hc => ?_⟩
  · intro hempty
    rw [hempty] at hmem
    cases hmem
  · rintro (hdot | hdots)
    · rw [hdot] at hmem
      simp at hmem
    · rw [hdots] at hmem
      simp at hmem
  · rw [String.toList_append, List.mem_append] at hc
    rcases hc with hstem | hc
    · exact .inl (mem_safeFilenameStem hstem)
    · simpa using List.all_eq_true.mp hsuffix c hc

theorem plain_downloadFilename (slug : String) (format : DownloadFormat) :
    PlainName (downloadFilename slug format) ∧ PlainName (downloadPackageFilename slug format) := by
  have hname : downloadFilename slug format =
      safeFilenameStem slug ++ ("-" ++ format.slug ++ "." ++ format.slug) := by
    simp only [downloadFilename, String.append_assoc]
  have hpackage : downloadPackageFilename slug format =
      safeFilenameStem slug ++ ("-" ++ format.slug ++ ".zip") := by
    simp only [downloadPackageFilename, String.append_assoc]
  rw [hname, hpackage]
  have hsuffixes : (("-" ++ format.slug ++ "." ++ format.slug).toList.all
      (fun c => isStemChar c || c = '.') = true ∧
      ("-" ++ format.slug ++ "." ++ format.slug).toList.head? = some '-') ∧
      (("-" ++ format.slug ++ ".zip").toList.all (fun c => isStemChar c || c = '.') = true ∧
      ("-" ++ format.slug ++ ".zip").toList.head? = some '-') := by
    cases format <;> decide +kernel
  exact ⟨plain_suffixed hsuffixes.1.1 hsuffixes.1.2, plain_suffixed hsuffixes.2.1 hsuffixes.2.2⟩

/-- Where the preview of a payload comes from. -/
inductive Extracted (fromSlice : ByteArray → Option Value)
    (unzip : ByteArray → Except Failure (List ZipEntry)) (bytes : ByteArray) :
    PreviewArtifact → Prop where
  | glb : GlbHeader bytes → Extracted fromSlice unzip bytes (glbArtifact none bytes)
  | zippedGlb {entries : List ZipEntry} {index : Nat} {entry : ZipEntry} :
      zipMagic <+: bytes.data.toList → unzip bytes = .ok entries →
      zipEntryIndicesWithExtension entries "glb" = [index] → entries[index]? = some entry →
      GlbHeader entry.bytes → SafePath entry.name →
      Extracted fromSlice unzip bytes (glbArtifact (some entry.name) entry.bytes)
  | zippedGltf {entries : List ZipEntry} {artifact : PreviewArtifact} :
      zipMagic <+: bytes.data.toList → unzip bytes = .ok entries →
      zipEntryIndicesWithExtension entries "glb" = [] →
      previewArtifactFromGltfZip fromSlice entries = .ok artifact →
      Extracted fromSlice unzip bytes artifact
  | json {value : Value} : ¬ glbMagic <+: bytes.data.toList → ¬ zipMagic <+: bytes.data.toList →
      fromSlice bytes = some value → hasVersion value = true →
      Extracted fromSlice unzip bytes ⟨"preview.gltf", none, "model/gltf+json", bytes, []⟩

/-- No payload starts as two kinds of file. -/
theorem magics_differ {bytes : ByteArray} (hglb : glbMagic <+: bytes.data.toList)
    (hzip : zipMagic <+: bytes.data.toList) : False := by
  obtain ⟨rest, hrest⟩ := hglb
  obtain ⟨rest', hrest'⟩ := hzip
  rw [← hrest] at hrest'
  simp [glbMagic, zipMagic] at hrest'

theorem previewFromZip_iff {bytes : ByteArray} {artifact : PreviewArtifact}
    (hzip : zipMagic <+: bytes.data.toList) :
    previewArtifactFromZip fromSlice unzip bytes = .ok artifact ↔
      Extracted fromSlice unzip bytes artifact := by
  constructor
  · intro h
    obtain ⟨entries, hentries, h⟩ := bind_ok.mp h
    split at h
    · rename_i hnone
      exact .zippedGltf hzip hentries hnone h
    · rename_i index hone
      split at h
      · cases h
      · rename_i entry hentry
        obtain ⟨hheader, h⟩ := seq_ok.mp h
        obtain ⟨name, hname, h⟩ := bind_ok.mp h
        obtain ⟨hsafe, rfl⟩ := safeZipAssetName_ok.mp hname
        cases h
        exact .zippedGlb hzip hentries hone hentry (validateGlb_ok.mp (mapError_ok.mp hheader)) hsafe
    · cases h
  · intro h
    cases h with
    | glb hheader => exact (magics_differ hheader.magic hzip).elim
    | zippedGlb _ hentries hone hentry hheader hsafe =>
      refine bind_ok.mpr ⟨_, hentries, ?_⟩
      rw [hone]
      simp only [hentry]
      refine seq_ok.mpr ⟨mapError_ok.mpr (validateGlb_ok.mpr hheader), ?_⟩
      exact bind_ok.mpr ⟨_, safeZipAssetName_ok.mpr ⟨hsafe, rfl⟩, rfl⟩
    | zippedGltf _ hentries hnone hartifact =>
      refine bind_ok.mpr ⟨_, hentries, ?_⟩
      rw [hnone]
      exact hartifact
    | json _ hnot => exact (hnot hzip).elim

/-- The payloads that have a preview, and what it is. -/
theorem preview_iff {bytes : ByteArray} {artifact : PreviewArtifact} :
    previewArtifactFromOnshapeBytes fromSlice unzip bytes = .ok artifact ↔
      Extracted fromSlice unzip bytes artifact := by
  unfold previewArtifactFromOnshapeBytes
  simp only [startsWith, List.isPrefixOf_iff_prefix]
  by_cases hglb : glbMagic <+: bytes.data.toList
  · rw [if_pos hglb, seq_ok, mapError_ok, validateGlb_ok]
    constructor
    · rintro ⟨hheader, h⟩
      cases h
      exact .glb hheader
    · intro h
      cases h with
      | glb hheader => exact ⟨hheader, rfl⟩
      | zippedGlb hzip => exact (magics_differ hglb hzip).elim
      | zippedGltf hzip => exact (magics_differ hglb hzip).elim
      | json hnot => exact (hnot hglb).elim
  · rw [if_neg hglb]
    by_cases hzip : zipMagic <+: bytes.data.toList
    · rw [if_pos hzip]
      exact previewFromZip_iff hzip
    · rw [if_neg hzip, seq_ok, mapError_ok, validateGltfJson_ok]
      constructor
      · rintro ⟨⟨value, hvalue, hversion⟩, h⟩
        cases h
        exact .json hglb hzip hvalue hversion
      · intro h
        cases h with
        | glb hheader => exact (hglb hheader.magic).elim
        | zippedGlb hmagic => exact (hzip hmagic).elim
        | zippedGltf hmagic => exact (hzip hmagic).elim
        | json _ _ hvalue hversion => exact ⟨⟨_, hvalue, hversion⟩, rfl⟩

/-- A glTF that is taken out of an archive, whatever the names of the entries. -/
theorem gltfZip_wellFormed {entries : List ZipEntry} {artifact : PreviewArtifact}
    (h : previewArtifactFromGltfZip fromSlice entries = .ok artifact) :
    artifact.contentType = "model/gltf+json" ∧ SafePath artifact.logicalPath ∧
      artifact.originalPath = some artifact.logicalPath ∧
      (∀ s ∈ artifact.sidecars, SafePath s.logicalPath ∧ s.originalPath = some s.logicalPath) ∧
      ∃ value, fromSlice artifact.bytes = some value ∧ hasVersion value = true := by
  obtain ⟨index, -, h⟩ := bind_ok.mp h
  split at h
  · cases h
  · rename_i primary _
    obtain ⟨name, hname, h⟩ := bind_ok.mp h
    obtain ⟨hsafe, rfl⟩ := safeZipAssetName_ok.mp hname
    obtain ⟨assets, hassets, h⟩ := bind_ok.mp h
    obtain ⟨sidecars, hsidecars, h⟩ := bind_ok.mp h
    obtain ⟨-, h⟩ := seq_ok.mp h
    cases h
    obtain ⟨hall, rfl⟩ := sidecarsFrom_ok.mp hsidecars
    refine ⟨rfl, hsafe, rfl, fun s hs => ?_, ?_⟩
    · obtain ⟨entry, hentry, rfl⟩ := List.mem_map.mp hs
      exact ⟨hall entry hentry, rfl⟩
    · have hassets := mapError_ok.mp hassets
      unfold referencedGltfSidecarAssets at hassets
      split at hassets
      · cases hassets
      · rename_i value hvalue
        obtain ⟨hversion, -⟩ := seq_ok.mp hassets
        exact ⟨value, hvalue, Checks.ensure_ok.mp hversion⟩

/-- What holds of the files of an output. -/
structure WellFormed (fromSlice : ByteArray → Option Value) (output : Output) (d : Derived) :
    Prop where
  paths : ∀ f ∈ d.files, SafePath f.logicalPath
  originals : ∀ f ∈ d.files, ∀ path, f.originalPath = some path → SafePath path
  /-- A preview is a binary glTF file, or a glTF document of some version. -/
  preview : output = .preview →
    d.primary.contentType = "model/gltf-binary" ∧ GlbHeader d.primary.bytes ∧ d.sidecars = [] ∨
    d.primary.contentType = "model/gltf+json" ∧
      ∃ value, fromSlice d.primary.bytes = some value ∧ hasVersion value = true
  /-- A download is one file, with a name that a header may quote. -/
  download : output ≠ .preview → PlainName d.primary.logicalPath ∧ d.sidecars = []

theorem safe_of_checked {name : String} (h : safeZipAssetName name = .ok name) : SafePath name :=
  (safeZipAssetName_ok.mp h).1

theorem preview_wellFormed {bytes : ByteArray} {artifact : PreviewArtifact}
    (h : Extracted fromSlice unzip bytes artifact) :
    WellFormed fromSlice .preview (derivedPreview artifact) := by
  have hglb : SafePath "preview.glb" := safe_of_checked (by decide +kernel)
  have hgltf : SafePath "preview.gltf" := safe_of_checked (by decide +kernel)
  cases h with
  | glb hheader =>
    exact {
      paths := fun f hf => by
        rw [List.mem_singleton.mp hf]
        exact hglb
      originals := fun f hf path hpath => by
        rw [List.mem_singleton.mp hf] at hpath
        cases hpath
      preview := fun _ => .inl ⟨rfl, hheader, rfl⟩
      download := fun hne => absurd rfl hne }
  | zippedGlb _ _ _ _ hheader hsafe =>
    exact {
      paths := fun f hf => by
        rw [List.mem_singleton.mp hf]
        exact hglb
      originals := fun f hf path hpath => by
        rw [List.mem_singleton.mp hf] at hpath
        cases hpath
        exact hsafe
      preview := fun _ => .inl ⟨rfl, hheader, rfl⟩
      download := fun hne => absurd rfl hne }
  | zippedGltf _ _ _ hartifact =>
    obtain ⟨htype, hsafe, horiginal, hsidecars, hvalue⟩ := gltfZip_wellFormed hartifact
    exact {
      paths := fun f hf => by
        rcases List.mem_cons.mp hf with rfl | hf
        · exact hsafe
        · obtain ⟨s, hs, rfl⟩ := List.mem_map.mp hf
          exact (hsidecars s hs).1
      originals := fun f hf path hpath => by
        rcases List.mem_cons.mp hf with rfl | hf
        · rw [show (derivedPreview artifact).primary.originalPath = artifact.originalPath from rfl,
            horiginal] at hpath
          cases hpath
          exact hsafe
        · obtain ⟨s, hs, rfl⟩ := List.mem_map.mp hf
          simp only [(hsidecars s hs).2, Option.some.injEq] at hpath
          rw [← hpath]
          exact (hsidecars s hs).1
      preview := fun _ => .inr ⟨htype, hvalue⟩
      download := fun hne => absurd rfl hne }
  | json _ _ hvalue hversion =>
    exact {
      paths := fun f hf => by
        rw [List.mem_singleton.mp hf]
        exact hgltf
      originals := fun f hf path hpath => by
        rw [List.mem_singleton.mp hf] at hpath
        cases hpath
      preview := fun _ => .inr ⟨rfl, _, hvalue, hversion⟩
      download := fun hne => absurd rfl hne }

/-- A download is named by its model, whatever it is taken out of. -/
theorem download_wellFormed {slug : String} {format : DownloadFormat} {bytes : ByteArray}
    {artifact : DownloadArtifact}
    (h : downloadArtifactFromOnshapeBytes unzip slug format bytes = .ok artifact) :
    WellFormed fromSlice (.download format) (derivedDownload artifact) := by
  have hplain : PlainName artifact.logicalPath ∧
      ∀ path, artifact.originalPath = some path → SafePath path := by
    have hwhole : ∀ {name type : String}, PlainName name →
        artifact = wholePayload name type bytes → PlainName artifact.logicalPath ∧
          ∀ path, artifact.originalPath = some path → SafePath path := by
      rintro name type hname rfl
      refine ⟨hname, fun path hpath => ?_⟩
      cases hpath
      exact hname.safePath
    obtain ⟨hname, hpackage⟩ := plain_downloadFilename slug format
    unfold downloadArtifactFromOnshapeBytes at h
    split at h
    · rename_i hstep
      subst hstep
      unfold stepArtifactFromOnshapeBytes at h
      split at h
      · exact hwhole hname (Except.ok.inj h).symm
      · obtain ⟨entries, -, h⟩ := bind_ok.mp h
        obtain ⟨files, -, h⟩ := bind_ok.mp h
        split at h
        · split at h
          · cases h
          · obtain ⟨path, hpath, h⟩ := bind_ok.mp h
            obtain ⟨hsafe, rfl⟩ := safeZipAssetName_ok.mp hpath
            cases h
            refine ⟨hname, fun path hpath => ?_⟩
            cases hpath
            exact hsafe
        · exact hwhole hpackage (Except.ok.inj h).symm
    · exact hwhole hname (Except.ok.inj h).symm
  exact {
    paths := fun f hf => by
      rw [List.mem_singleton.mp hf]
      exact hplain.1.safePath
    originals := fun f hf path hpath => by
      rw [List.mem_singleton.mp hf] at hpath
      exact hplain.2 path hpath
    preview := fun hpreview => by cases hpreview
    download := fun _ => ⟨hplain.1, rfl⟩ }

/-- Whatever Onshape answers an export with, what is published of it is well formed. -/
theorem derived_wellFormed {slug : String} {output : Output} {bytes : ByteArray} {d : Derived}
    (h : derive fromSlice unzip slug output bytes = .ok d) : WellFormed fromSlice output d := by
  unfold derive at h
  cases output with
  | preview =>
    cases hartifact : previewArtifactFromOnshapeBytes fromSlice unzip bytes with
    | error e =>
      rw [hartifact] at h
      cases h
    | ok artifact =>
      rw [hartifact] at h
      cases h
      exact preview_wellFormed (preview_iff.mp hartifact)
  | download format =>
    cases hartifact : downloadArtifactFromOnshapeBytes unzip slug format bytes with
    | error e =>
      simp only [hartifact] at h
      cases h
    | ok artifact =>
      simp only [hartifact] at h
      cases h
      exact download_wellFormed hartifact

end WellFormed

end Postprocess
end OnshapeExport
