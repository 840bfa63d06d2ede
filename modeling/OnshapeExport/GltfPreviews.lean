import OnshapeExport.GeneratorValidation
import OnshapeExport.ParameterNormalization
import Mathlib

/-!
# GltfPreviews

How `main.rs` takes the preview of a model out of a ZIP with one glTF file: the names of the
entries are checked, and the references of the glTF are compared with them as they are spelled. The
ZIP and JSON readers are parameters: an archive is its entries as the reader lists them, and
`fromSlice` is what a document is read as.

* `safeZipAssetName`, `normalizeGltfReferenceUri` — the two checks of a name.
* `previewArtifactFromGltfZip` — the artifact of an archive.
* `artifact_ok` — which archives have one, and what it is.
-/

namespace OnshapeExport
namespace Preview

open Checks Json Parameters
open Protocol (isControl)

/-- The messages of an error and of its causes, the outermost one first. -/
abbrev Failure := List String

def allowPartialMultiGltfPreviewFallback : Bool := false

structure ZipEntry where
  name : String
  isDir : Bool
  bytes : ByteArray
deriving DecidableEq

structure PreviewAsset where
  role : String
  logicalPath : String
  originalPath : Option String
  contentType : String
  bytes : ByteArray
deriving DecidableEq

structure PreviewArtifact where
  logicalPath : String
  originalPath : Option String
  contentType : String
  bytes : ByteArray
  sidecars : List PreviewAsset
deriving DecidableEq

/-! ## Names -/

/-- `str::split` at the slashes. -/
def parts (name : String) : List (List Char) := name.toList.splitOn '/'

def joinParts (parts : List (List Char)) : String := String.ofList (['/'].intercalate parts)

def dotPart (part : List Char) : Prop := part = ['.'] ∨ part = ['.', '.']

instance (part : List Char) : Decidable (dotPart part) := inferInstanceAs (Decidable (_ ∨ _))

def safeZipAssetName (name : String) : Except Failure String := do
  ensure ('\\' ∉ name.toList) ["ZIP asset path contains a backslash: " ++ name]
  ensure (name.toList.head? ≠ some '/') ["ZIP asset path is absolute: " ++ name]
  ensure (parts name ≠ []) ["ZIP asset path is empty"]
  each (fun _ part => do
    ensure (part ≠ [] ∧ ¬ dotPart part) ["ZIP asset path is not safe: " ++ name]
    ensure (part.any isControl = false) ["ZIP asset path contains control characters: " ++ name])
    0 (parts name)
  return joinParts (parts name)

/-- The normal components of `Path::parent`. -/
def parentParts (primaryName : String) : List (List Char) :=
  (parts primaryName).dropLast.filter fun part => part ≠ [] ∧ ¬ dotPart part

def normalizeGltfReferenceUri (primaryName uri : String) : Except Failure String := do
  ensure (uri ≠ "") ["URI is empty"]
  ensure (uri.toList = trim uri.toList) ["URI must not have surrounding whitespace"]
  ensure (¬ "data:".toList <+: (toAsciiLowercase uri).toList) ["data URI sidecars are not supported"]
  ensure (¬ "://".toList <:+: uri.toList) ["external URI sidecars are not supported"]
  ensure (uri.toList.head? ≠ some '/' ∧ uri.toList.head? ≠ some '\\')
    ["absolute sidecar paths are not supported"]
  ensure ('\\' ∉ uri.toList) ["backslash sidecar paths are not supported"]
  ensure ('?' ∉ uri.toList ∧ '#' ∉ uri.toList)
    ["URI query and fragment components are not supported"]
  each (fun _ part => do
    ensure (part ≠ []) ["URI contains an empty path segment"]
    ensure (¬ dotPart part) ["URI contains an unsafe path segment"]
    ensure (part.any isControl = false) ["URI contains control characters"]) 0 (parts uri)
  return joinParts (parentParts primaryName ++ parts uri)

def hasExtension (name extension : String) : Bool :=
  ('.' :: extension.toList).isSuffixOf (toAsciiLowercase name).toList

def previewAssetContentType (name : String) : String :=
  if hasExtension name "gltf" then "model/gltf+json"
  else if hasExtension name "bin" then "application/octet-stream"
  else if hasExtension name "png" then "image/png"
  else if hasExtension name "jpg" ∨ hasExtension name "jpeg" then "image/jpeg"
  else if hasExtension name "webp" then "image/webp"
  else "application/octet-stream"

/-! ## References -/

/-- `value.get(name)`. -/
def member (value : Value) (name : String) : Option Value :=
  (asObject value).bind (get? · name)

/-- `as_array` of a member, or nothing. -/
def arrayMember (value : Value) (name : String) : List Value :=
  ((member value name).bind asArray).getD []

def uriOf (value : Value) : Option String := (member value "uri").bind asText

def collectGltfUriReferences (primaryName kind : String) : List Value → Except Failure (List String)
  | [] => .ok []
  | value :: values =>
    match uriOf value with
    | none => collectGltfUriReferences primaryName kind values
    | some uri => do
      let normalized ← (normalizeGltfReferenceUri primaryName uri).mapError
        (("glTF " ++ kind ++ " URI is unsupported: " ++ uri) :: ·)
      let assets ← collectGltfUriReferences primaryName kind values
      return normalized :: assets

/-- The document says which version of glTF it is. -/
def hasVersion (value : Value) : Bool :=
  (((member value "asset").bind (member · "version")).bind asText).isSome

section Artifact

variable (fromSlice : ByteArray → Option Value)

def referencedGltfSidecarAssets (primaryName : String) (bytes : ByteArray) :
    Except Failure (List String) :=
  match fromSlice bytes with
  | none => .error ["invalid JSON"]
  | some value => do
    ensure (hasVersion value = true) ["glTF JSON did not include asset.version"]
    let buffers ← collectGltfUriReferences primaryName "buffer" (arrayMember value "buffers")
    let images ← collectGltfUriReferences primaryName "image" (arrayMember value "images")
    return buffers ++ images

/-! ## The artifact -/

def zipEntryIndicesWithExtension (entries : List ZipEntry) (extension : String) : List Nat :=
  (entries.zipIdx.filter fun (entry, _) => !entry.isDir && hasExtension entry.name extension).map
    Prod.snd

/-- The first of the largest of some entries. -/
def largestZipEntry (entries : List ZipEntry) (indices : List Nat) : Option Nat :=
  (indices.foldl (fun (largest : Option (Nat × Nat)) index =>
    let size := ((entries[index]?).map (·.bytes.size)).getD 0
    match largest with
    | none => some (index, size)
    | some (_, largestSize) => if largestSize < size then some (index, size) else largest)
    none).map Prod.fst

def primaryIndex (entries : List ZipEntry) : Except Failure Nat :=
  match zipEntryIndicesWithExtension entries "gltf" with
  | [] => .error ["Onshape preview ZIP contained neither a GLB nor a glTF preview file"]
  | [index] => .ok index
  | indices =>
    match if allowPartialMultiGltfPreviewFallback then largestZipEntry entries indices else none with
    | some index => .ok index
    | none => .error ["Onshape preview ZIP contained multiple glTF files; grouped preview export " ++
        "did not produce a single viewer asset"]

def sidecarOf (entry : ZipEntry) : PreviewAsset where
  role := "sidecar"
  logicalPath := entry.name
  originalPath := some entry.name
  contentType := previewAssetContentType entry.name
  bytes := entry.bytes

/-- The sidecars, of the entries from an index on. -/
def sidecarsFrom (primaryIndex : Nat) : Nat → List ZipEntry → Except Failure (List PreviewAsset)
  | _, [] => .ok []
  | index, entry :: entries =>
    if index = primaryIndex ∨ entry.isDir = true then sidecarsFrom primaryIndex (index + 1) entries
    else do
      let assetName ← safeZipAssetName entry.name
      let sidecars ← sidecarsFrom primaryIndex (index + 1) entries
      return sidecarOf { entry with name := assetName } :: sidecars

def previewArtifactFromGltfZip (entries : List ZipEntry) : Except Failure PreviewArtifact := do
  let index ← primaryIndex entries
  match entries[index]? with
  | none => throw ["specified file not found in archive"]
  | some primary =>
    let primaryName ← safeZipAssetName primary.name
    let referencedAssets ← (referencedGltfSidecarAssets fromSlice primaryName primary.bytes).mapError
      ("validating zipped glTF preview JSON" :: ·)
    let sidecars ← sidecarsFrom index 0 entries
    each (fun _ (asset : String) => ensure (asset ∈ sidecars.map PreviewAsset.logicalPath)
      ["glTF preview ZIP is missing referenced sidecar asset: " ++ asset]) 0 referencedAssets
    return {
      logicalPath := primaryName
      originalPath := some primaryName
      contentType := "model/gltf+json"
      bytes := primary.bytes
      sidecars := sidecars }

end Artifact

/-! ## Checked names -/

structure SafePart (part : List Char) : Prop where
  nonempty : part ≠ []
  dots : ¬ dotPart part
  control : part.any isControl = false

/-- A relative path whose segments are all safe. -/
structure SafePath (path : String) : Prop where
  backslash : '\\' ∉ path.toList
  parts : ∀ part ∈ parts path, SafePart part

theorem joinParts_parts (name : String) : joinParts (parts name) = name := by
  rw [joinParts, parts, List.intercalate_splitOn, String.ofList_toList]

theorem parts_ne_nil (name : String) : parts name ≠ [] := List.splitOn_ne_nil '/' name.toList

/-- A leading slash leaves an empty segment before it. -/
theorem head_ne_slash {name : String} (h : ∀ part ∈ parts name, part ≠ []) :
    name.toList.head? ≠ some '/' := by
  intro hhead
  cases hname : name.toList with
  | nil =>
    rw [hname] at hhead
    cases hhead
  | cons c cs =>
    rw [hname, List.head?_cons, Option.some.injEq] at hhead
    subst hhead
    refine h [] ?_ rfl
    rw [parts, hname, List.splitOn_cons_eq_if_modifyHead]
    exact List.mem_cons_self

theorem safeZipAssetName_ok {name path : String} :
    safeZipAssetName name = .ok path ↔ SafePath name ∧ path = name := by
  have hparts : ∀ (_ : Nat) (part : List Char), (do
      ensure (part ≠ [] ∧ ¬ dotPart part) ["ZIP asset path is not safe: " ++ name]
      ensure (part.any isControl = false)
        ["ZIP asset path contains control characters: " ++ name]) = Except.ok () ↔
      SafePart part := by
    intro _ part
    rw [seq_ok, ensure_ok, ensure_ok]
    constructor
    · intro h
      exact ⟨h.1.1, h.1.2, h.2⟩
    · intro h
      exact ⟨⟨h.nonempty, h.dots⟩, h.control⟩
  simp only [safeZipAssetName, seq_ok, ensure_ok, each_ok_mem hparts, joinParts_parts]
  constructor
  · intro h
    obtain ⟨hbackslash, -, -, hall, hpath⟩ := h
    exact ⟨⟨hbackslash, hall⟩, (Except.ok.inj hpath).symm⟩
  · intro h
    obtain ⟨hsafe, rfl⟩ := h
    exact ⟨hsafe.backslash, head_ne_slash fun part hpart => (hsafe.parts part hpart).nonempty,
      parts_ne_nil _, hsafe.parts, rfl⟩

/-! ## Which archives have an artifact -/

/-- The buffers and images of a glTF that are kept outside of it. -/
def gltfReferences (value : Value) : List String :=
  (arrayMember value "buffers").filterMap uriOf ++ (arrayMember value "images").filterMap uriOf

theorem collect_within {primaryName kind : String} {P : String → Prop} {values : List Value} :
    (∃ assets, collectGltfUriReferences primaryName kind values = .ok assets ∧ ∀ a ∈ assets, P a) ↔
      ∀ uri ∈ values.filterMap uriOf,
        ∃ asset, normalizeGltfReferenceUri primaryName uri = .ok asset ∧ P asset := by
  induction values with
  | nil =>
    constructor
    · intro _ uri huri
      cases huri
    · intro _
      exact ⟨[], rfl, nofun⟩
  | cons value values ih =>
    cases huri : uriOf value with
    | none =>
      rw [List.filterMap_cons_none huri, ← ih]
      simp only [collectGltfUriReferences, huri]
    | some uri =>
      rw [List.filterMap_cons_some huri, List.forall_mem_cons, ← ih]
      simp only [collectGltfUriReferences, huri, bind_ok, mapError_ok]
      constructor
      · intro h
        obtain ⟨assets, ⟨asset, hasset, rest, hrest, hassets⟩, hall⟩ := h
        cases hassets
        obtain ⟨hfirst, hothers⟩ := List.forall_mem_cons.mp hall
        exact ⟨⟨asset, hasset, hfirst⟩, rest, hrest, hothers⟩
      · intro h
        obtain ⟨⟨asset, hasset, hfirst⟩, rest, hrest, hothers⟩ := h
        exact ⟨asset :: rest, ⟨asset, hasset, rest, hrest, rfl⟩,
          List.forall_mem_cons.mpr ⟨hfirst, hothers⟩⟩

theorem referenced_within {fromSlice : ByteArray → Option Value} {primaryName : String}
    {bytes : ByteArray} {P : String → Prop} :
    (∃ assets, referencedGltfSidecarAssets fromSlice primaryName bytes = .ok assets ∧
        ∀ a ∈ assets, P a) ↔
      ∃ value, fromSlice bytes = some value ∧ hasVersion value = true ∧
        ∀ uri ∈ gltfReferences value,
          ∃ asset, normalizeGltfReferenceUri primaryName uri = .ok asset ∧ P asset := by
  unfold referencedGltfSidecarAssets
  cases hvalue : fromSlice bytes with
  | none =>
    constructor
    · intro h
      obtain ⟨assets, hassets, -⟩ := h
      cases hassets
    · intro h
      obtain ⟨value, hnone, -⟩ := h
      cases hnone
  | some value =>
    constructor
    · intro h
      obtain ⟨assets, hassets, hall⟩ := h
      obtain ⟨hversion, hassets⟩ := seq_ok.mp hassets
      obtain ⟨buffers, hbuffers, hassets⟩ := bind_ok.mp hassets
      obtain ⟨images, himages, hassets⟩ := bind_ok.mp hassets
      cases hassets
      obtain ⟨hall, hall'⟩ := List.forall_mem_append.mp hall
      exact ⟨value, rfl, ensure_ok.mp hversion, List.forall_mem_append.mpr
        ⟨collect_within.mp ⟨buffers, hbuffers, hall⟩, collect_within.mp ⟨images, himages, hall'⟩⟩⟩
    · intro h
      obtain ⟨read, hread, hversion, hall⟩ := h
      cases hread
      obtain ⟨hall, hall'⟩ := List.forall_mem_append.mp hall
      obtain ⟨buffers, hbuffers, hbufferAssets⟩ :
          ∃ buffers, collectGltfUriReferences primaryName "buffer" (arrayMember value "buffers") =
            .ok buffers ∧ ∀ a ∈ buffers, P a := collect_within.mpr hall
      obtain ⟨images, himages, himageAssets⟩ :
          ∃ images, collectGltfUriReferences primaryName "image" (arrayMember value "images") =
            .ok images ∧ ∀ a ∈ images, P a := collect_within.mpr hall'
      refine ⟨buffers ++ images, ?_, List.forall_mem_append.mpr ⟨hbufferAssets, himageAssets⟩⟩
      exact seq_ok.mpr ⟨ensure_ok.mpr hversion,
        bind_ok.mpr ⟨buffers, hbuffers, bind_ok.mpr ⟨images, himages, rfl⟩⟩⟩

def isGltf (entry : ZipEntry) : Bool := !entry.isDir && hasExtension entry.name "gltf"

/-- The files of an archive beside one of them. -/
def beside (entries : List ZipEntry) (primary : ZipEntry) : List ZipEntry :=
  entries.filter fun entry => !entry.isDir && entry.name ≠ primary.name

/-- The entries from an index on that are files, without the primary one. -/
def filesFrom (primaryIndex index : Nat) (entries : List ZipEntry) : List ZipEntry :=
  ((entries.zipIdx index).filter fun (entry, i) => !entry.isDir && i ≠ primaryIndex).map Prod.fst

theorem filesFrom_cons (primaryIndex index : Nat) (entry : ZipEntry) (entries : List ZipEntry) :
    filesFrom primaryIndex index (entry :: entries) =
      if index = primaryIndex ∨ entry.isDir = true then filesFrom primaryIndex (index + 1) entries
      else entry :: filesFrom primaryIndex (index + 1) entries := by
  by_cases hskip : index = primaryIndex ∨ entry.isDir = true
  · rw [if_pos hskip, filesFrom, List.zipIdx_cons, List.filter_cons_of_neg]
    · rfl
    · rcases hskip with h | h <;> simp [h]
  · rw [if_neg hskip, filesFrom, List.zipIdx_cons, List.filter_cons_of_pos]
    · rfl
    · rw [not_or, Bool.not_eq_true] at hskip
      simp [hskip]

theorem sidecarsFrom_ok {primaryIndex index : Nat} {entries : List ZipEntry}
    {sidecars : List PreviewAsset} :
    sidecarsFrom primaryIndex index entries = .ok sidecars ↔
      (∀ entry ∈ filesFrom primaryIndex index entries, SafePath entry.name) ∧
        sidecars = (filesFrom primaryIndex index entries).map sidecarOf := by
  induction entries generalizing index sidecars with
  | nil =>
    constructor
    · intro h
      cases h
      exact ⟨nofun, rfl⟩
    · intro h
      rw [h.2]
      rfl
  | cons entry entries ih =>
    rw [sidecarsFrom, filesFrom_cons]
    split
    · exact ih
    · simp only [bind_ok, safeZipAssetName_ok, ih, List.forall_mem_cons, List.map_cons]
      constructor
      · intro h
        obtain ⟨name, ⟨hsafe, rfl⟩, rest, ⟨hall, rfl⟩, hsidecars⟩ := h
        exact ⟨⟨hsafe, hall⟩, (Except.ok.inj hsidecars).symm⟩
      · intro h
        obtain ⟨⟨hsafe, hall⟩, rfl⟩ := h
        exact ⟨entry.name, ⟨hsafe, rfl⟩, _, ⟨hall, rfl⟩, rfl⟩

/-! ### Indices and names -/

section Names

variable {entries : List ZipEntry} {index : Nat} {primary : ZipEntry}

theorem filter_zipIdx (p : ZipEntry → Bool) (entries : List ZipEntry) :
    (entries.zipIdx.filter fun (entry, _) => p entry).map Prod.fst = entries.filter p := by
  have hfilter := List.filter_map (f := Prod.fst) (p := p) (l := entries.zipIdx)
  rw [List.zipIdx_map_fst] at hfilter
  exact hfilter.symm

/-- An archive whose glTF files have one index has one glTF file. -/
theorem indices_iff :
    zipEntryIndicesWithExtension entries "gltf" = [index] ∧ entries[index]? = some primary ↔
      entries.filter isGltf = [primary] ∧ entries[index]? = some primary := by
  refine and_congr_left fun hprimary => ?_
  have hmem : (primary, index) ∈ entries.zipIdx := List.mem_zipIdx_iff_getElem?.mpr hprimary
  rw [zipEntryIndicesWithExtension, ← filter_zipIdx isGltf entries]
  have hin {x : ZipEntry × Nat} (hx : x ∈ entries.zipIdx.filter fun (entry, _) => isGltf entry) :
      entries[x.2]? = some x.1 := List.mem_zipIdx_iff_getElem?.mp (List.mem_of_mem_filter hx)
  constructor
  · intro h
    obtain ⟨x, hfound, rfl⟩ := List.map_eq_singleton_iff.mp h
    have hfound : (entries.zipIdx.filter fun (entry, _) => isGltf entry) = [x] := hfound
    have hx := hin (hfound ▸ List.mem_singleton_self x)
    rw [hfound, List.map_singleton, Option.some.inj (hx.symm.trans hprimary)]
  · intro h
    obtain ⟨x, hfound, rfl⟩ := List.map_eq_singleton_iff.mp h
    have hx : x ∈ entries.zipIdx.filter fun (entry, _) => isGltf entry :=
      hfound ▸ List.mem_singleton_self x
    have hself : (x.1, index) ∈ entries.zipIdx.filter fun (entry, _) => isGltf entry := by
      have hgltf : isGltf x.1 = true := (List.mem_filter.mp hx).2
      exact List.mem_filter.mpr ⟨hmem, hgltf⟩
    rw [hfound, List.mem_singleton] at hself
    have hsnd : x.2 = index := (congrArg Prod.snd hself).symm
    exact (congrArg (List.map Prod.snd) hfound).trans (by rw [List.map_singleton, hsnd])

/-- Names tell the files of an archive apart. -/
theorem filesFrom_eq_beside (hn : (entries.map ZipEntry.name).Nodup)
    (hprimary : entries[index]? = some primary) :
    filesFrom index 0 entries = beside entries primary := by
  rw [beside, ← filter_zipIdx, filesFrom]
  refine congrArg _ (List.filter_congr fun x hx => ?_)
  obtain ⟨entry, i⟩ := x
  have hentry : entries[i]? = some entry := List.mem_zipIdx_iff_getElem?.mp hx
  have hiff : i ≠ index ↔ entry.name ≠ primary.name := by
    refine not_congr ⟨fun h => ?_, fun h => ?_⟩
    · subst h
      rw [Option.some.inj (hentry.symm.trans hprimary)]
    · have hnames : (entries.map ZipEntry.name)[i]? = (entries.map ZipEntry.name)[index]? := by
        rw [List.getElem?_map, List.getElem?_map, hentry, hprimary, Option.map_some, h]
        rfl
      have hlt : i < (entries.map ZipEntry.name).length := by
        rw [List.length_map]
        exact (List.getElem?_eq_some_iff.mp hentry).1
      exact (List.getElem?_inj hlt hn).mp hnames
  simp only [hiff]

theorem primaryIndex_ok :
    primaryIndex entries = .ok index ↔ zipEntryIndicesWithExtension entries "gltf" = [index] := by
  unfold primaryIndex
  split
  · rename_i hnone
    rw [hnone]
    simp
  · rename_i found hone
    rw [hone]
    simp
  · rename_i hnone hone
    constructor
    · intro h
      cases h
    · intro h
      exact absurd h (hone index)

end Names

/-! ### The artifact -/

section Accepted

variable {fromSlice : ByteArray → Option Value} {entries : List ZipEntry} {primary : ZipEntry}
  {value : Value} {artifact : PreviewArtifact}

/-- An archive with one glTF file whose document can be read, and with safe names only. -/
structure Readable (fromSlice : ByteArray → Option Value) (entries : List ZipEntry)
    (primary : ZipEntry) (value : Value) : Prop where
  only : entries.filter isGltf = [primary]
  safe : ∀ entry ∈ entries, entry.isDir = false → SafePath entry.name
  document : fromSlice primary.bytes = some value
  version : hasVersion value = true

/-- A reference is the name of another file of the archive, as it is spelled. -/
def FoundAsSpelled (entries : List ZipEntry) (primary : ZipEntry) (uri : String) : Prop :=
  ∃ entry ∈ beside entries primary,
    normalizeGltfReferenceUri primary.name uri = .ok entry.name

def artifactOf (entries : List ZipEntry) (primary : ZipEntry) : PreviewArtifact where
  logicalPath := primary.name
  originalPath := some primary.name
  contentType := "model/gltf+json"
  bytes := primary.bytes
  sidecars := (beside entries primary).map sidecarOf

theorem Readable.primary_file (h : Readable fromSlice entries primary value) :
    primary ∈ entries ∧ primary.isDir = false := by
  have hmem : primary ∈ entries.filter isGltf := by
    rw [h.only]
    exact List.mem_singleton_self primary
  obtain ⟨hentry, hgltf⟩ := List.mem_filter.mp hmem
  simp only [isGltf, Bool.and_eq_true, Bool.not_eq_true'] at hgltf
  exact ⟨hentry, hgltf.1⟩

theorem mem_beside {entry : ZipEntry} :
    entry ∈ beside entries primary ↔
      entry ∈ entries ∧ entry.isDir = false ∧ entry.name ≠ primary.name := by
  simp [beside, List.mem_filter]

/-- The names that are checked are those of all files. -/
theorem safe_files (hprimary : primary ∈ entries) (hfile : primary.isDir = false) :
    (∀ entry ∈ entries, entry.isDir = false → SafePath entry.name) ↔
      SafePath primary.name ∧ ∀ entry ∈ beside entries primary, SafePath entry.name := by
  constructor
  · intro h
    refine ⟨h primary hprimary hfile, fun entry hentry => ?_⟩
    obtain ⟨hmem, hdir, -⟩ := mem_beside.mp hentry
    exact h entry hmem hdir
  · intro h entry hmem hdir
    obtain ⟨hsafe, hall⟩ := h
    by_cases hname : entry.name = primary.name
    · rw [hname]
      exact hsafe
    · exact hall entry (mem_beside.mpr ⟨hmem, hdir, hname⟩)

theorem sidecar_paths :
    ((beside entries primary).map sidecarOf).map PreviewAsset.logicalPath =
      (beside entries primary).map ZipEntry.name := by
  rw [List.map_map]
  rfl

theorem artifact_ok (hn : (entries.map ZipEntry.name).Nodup) :
    previewArtifactFromGltfZip fromSlice entries = .ok artifact ↔
      ∃ primary value, Readable fromSlice entries primary value ∧
        (∀ uri ∈ gltfReferences value, FoundAsSpelled entries primary uri) ∧
        artifact = artifactOf entries primary := by
  have hwithin (primary : ZipEntry) : ∀ assets : List String,
      each (fun _ (asset : String) => ensure
        (asset ∈ ((beside entries primary).map sidecarOf).map PreviewAsset.logicalPath)
        ["glTF preview ZIP is missing referenced sidecar asset: " ++ asset]) 0 assets = .ok () ↔
      ∀ asset ∈ assets, ∃ entry ∈ beside entries primary, entry.name = asset := by
    intro assets
    refine each_ok_mem fun _ asset => ?_
    rw [ensure_ok, sidecar_paths, List.mem_map]
  constructor
  · intro h
    obtain ⟨index, hindex, h⟩ := bind_ok.mp h
    split at h
    · cases h
    · rename_i primary hprimary
      obtain ⟨hgltf, -⟩ := indices_iff.mp ⟨primaryIndex_ok.mp hindex, hprimary⟩
      obtain ⟨name, hname, h⟩ := bind_ok.mp h
      obtain ⟨hsafe, rfl⟩ := safeZipAssetName_ok.mp hname
      obtain ⟨assets, hassets, h⟩ := bind_ok.mp h
      obtain ⟨sidecars, hsidecars, h⟩ := bind_ok.mp h
      obtain ⟨hpresent, h⟩ := seq_ok.mp h
      rw [sidecarsFrom_ok, filesFrom_eq_beside hn hprimary] at hsidecars
      obtain ⟨hall, rfl⟩ := hsidecars
      cases h
      obtain ⟨value, hvalue, hversion, hreferences⟩ :=
        referenced_within.mp ⟨assets, mapError_ok.mp hassets, (hwithin primary assets).mp hpresent⟩
      have hgltfMem : primary ∈ entries.filter isGltf := hgltf ▸ List.mem_singleton_self primary
      have hfile : primary.isDir = false := by
        have hisGltf := (List.mem_filter.mp hgltfMem).2
        simp only [isGltf, Bool.and_eq_true, Bool.not_eq_true'] at hisGltf
        exact hisGltf.1
      refine ⟨primary, value, ⟨hgltf, ?_, hvalue, hversion⟩, fun uri huri => ?_, rfl⟩
      · exact (safe_files (List.mem_of_getElem? hprimary) hfile).mpr ⟨hsafe, hall⟩
      · obtain ⟨asset, hasset, entry, hentry, rfl⟩ := hreferences uri huri
        exact ⟨entry, hentry, hasset⟩
  · intro h
    obtain ⟨primary, value, hreadable, hreferences, rfl⟩ := h
    obtain ⟨hmem, hfile⟩ := hreadable.primary_file
    obtain ⟨index, hprimary⟩ := List.getElem?_of_mem hmem
    obtain ⟨hindices, -⟩ := indices_iff.mpr ⟨hreadable.only, hprimary⟩
    obtain ⟨hsafe, hall⟩ := (safe_files hmem hfile).mp hreadable.safe
    obtain ⟨assets, hassets, hpresent⟩ :
        ∃ assets, referencedGltfSidecarAssets fromSlice primary.name primary.bytes = .ok assets ∧
          ∀ asset ∈ assets, ∃ entry ∈ beside entries primary, entry.name = asset := by
      refine referenced_within.mpr ⟨value, hreadable.document, hreadable.version, ?_⟩
      intro uri huri
      obtain ⟨entry, hentry, hasset⟩ := hreferences uri huri
      exact ⟨entry.name, hasset, entry, hentry, rfl⟩
    have hsidecars : sidecarsFrom index 0 entries = .ok ((beside entries primary).map sidecarOf) := by
      rw [sidecarsFrom_ok, filesFrom_eq_beside hn hprimary]
      exact ⟨hall, rfl⟩
    refine bind_ok.mpr ⟨index, primaryIndex_ok.mpr hindices, ?_⟩
    simp only [hprimary]
    refine bind_ok.mpr ⟨_, safeZipAssetName_ok.mpr ⟨hsafe, rfl⟩, bind_ok.mpr ⟨assets,
      mapError_ok.mpr hassets, bind_ok.mpr ⟨_, hsidecars, ?_⟩⟩⟩
    exact seq_ok.mpr ⟨(hwithin primary assets).mpr hpresent, rfl⟩

end Accepted

end Preview
end OnshapeExport
