import OnshapeExport.GeneratorRunner
import OnshapeExport.GltfPreviews
import OnshapeExport.Lib.UrlPaths
import OnshapeExport.Lib.JsonText

/-!
# SelfContainedPreviews

What a viewer finds of a published glTF preview. The files of an artifact are published under keys
with their names, and every segment of a key is percent-encoded in its address; a viewer reads the
escapes of a reference before it looks for it. `main.rs` compares the references with the names as
they are spelled.

* `previewAssetObjectKey`, `publicUrl` — where a file is published.
* `segments_publicUrl` — an address leads back to the segments of its key.
* `leads_plain`, `spelled_of_decoded` — without escapes both readings of a reference are one.
* `previews_self_contained` — exactly the archives whose previews hold what a viewer looks for.
-/

namespace OnshapeExport
namespace Preview

open Checks Json Parameters Percent UrlPaths
open Protocol (isControl)

/-! ## Where an artifact is published -/

def PreviewArtifact.paths (artifact : PreviewArtifact) : List String :=
  artifact.logicalPath :: artifact.sidecars.map PreviewAsset.logicalPath

def previewAssetObjectKey (artifactSetHash assetName : String) : String :=
  "previews/v2/" ++ artifactSetHash ++ "/" ++ assetName

/-- The bytes that stand for themselves in an address. -/
def keptInUrl (byte : UInt8) : Bool :=
  let n := byte.toNat
  65 ≤ n && n ≤ 90 || 97 ≤ n && n ≤ 122 || 48 ≤ n && n ≤ 57 || n = 45 || n = 95 || n = 46 || n = 126

def urlPathSegment (value : List Char) : List Char := encode keptInUrl (utf8Bytes value)

/-- `public_url`, where a base address is configured. -/
def publicUrl (publicBaseUrl key : String) : String :=
  String.ofList (publicBaseUrl.toList.rdropWhile (· = '/') ++
    '/' :: ['/'].intercalate ((parts key).map urlPathSegment))

/-! ## What a viewer finds -/

/-- From the address of a file a reference leads to a file with one of some names. -/
def Leads (base hash : String) (names : List String) (primaryName uri : String) : Prop :=
  ∃ name ∈ names,
    resolve (publicUrl base (previewAssetObjectKey hash primaryName)).toList uri.toList =
      some (locate (publicUrl base (previewAssetObjectKey hash name)).toList)

/-- Everything that the document of an artifact refers to is published with it, under safe paths
and keys of its own. -/
structure SelfContained (fromSlice : ByteArray → Option Value) (base hash : String)
    (artifact : PreviewArtifact) : Prop where
  leads : ∀ value, fromSlice artifact.bytes = some value → ∀ uri ∈ gltfReferences value,
    Leads base hash artifact.paths artifact.logicalPath uri
  safe : ∀ path ∈ artifact.paths, SafePath path
  keys : (artifact.paths.map (previewAssetObjectKey hash)).Nodup

/-- The name of what stands beside a file. -/
def besideName (primaryName text : String) : String :=
  joinParts ((parts primaryName).dropLast ++ parts text)

/-- A reference is relative, and what its escapes stand for is the safe path of a file. -/
def FoundDecoded (entries : List ZipEntry) (primary : ZipEntry) (uri : String) : Prop :=
  isRelativePath uri.toList = true ∧ ∃ text : String,
    utf8Bytes text.toList = percentDecode uri.toList ∧ SafePath text ∧
      ∃ entry ∈ entries, entry.isDir = false ∧ entry.name = besideName primary.name text

section Previews

variable (fromSlice : ByteArray → Option Value) (base hash : String) (entries : List ZipEntry)

/-- What is returned is self-contained, and every archive with one readable glTF, safe names and
references that are found is taken. -/
def PreviewsHold : Prop :=
  (∀ artifact, previewArtifactFromGltfZip fromSlice entries = .ok artifact →
    SelfContained fromSlice base hash artifact) ∧
  ((∃ primary value, Readable fromSlice entries primary value ∧
      ∀ uri ∈ gltfReferences value, FoundDecoded entries primary uri) →
    ∃ artifact, previewArtifactFromGltfZip fromSlice entries = .ok artifact)

/-- All references are found as they are spelled, but one with an escape or a scheme leads a viewer
to no file of the archive. -/
def LedAstray : Prop :=
  ∃ primary value, Readable fromSlice entries primary value ∧
    (∀ uri ∈ gltfReferences value, FoundAsSpelled entries primary uri) ∧
    ∃ uri ∈ gltfReferences value, ('%' ∈ uri.toList ∨ hasScheme uri.toList = true) ∧
      ¬ Leads base hash ((entries.filter fun entry => !entry.isDir).map ZipEntry.name) primary.name
        uri

/-- All references are found once their escapes are read, but one that has an escape, or white space
around it, or names the glTF itself, is not found as it is spelled. -/
def Misspelled : Prop :=
  ∃ primary value, Readable fromSlice entries primary value ∧
    (∀ uri ∈ gltfReferences value, FoundDecoded entries primary uri) ∧
    ∃ uri ∈ gltfReferences value, ('%' ∈ uri.toList ∨ uri.toList ≠ trim uri.toList ∨
        normalizeGltfReferenceUri primary.name uri = .ok primary.name) ∧
      ¬ FoundAsSpelled entries primary uri

end Previews

/-! ## Keys and addresses -/

theorem parts_append_slash (a b : String) : parts (a ++ "/" ++ b) = parts a ++ parts b := by
  have hslash : "/".toList = ['/'] := rfl
  rw [parts, String.toList_append, String.toList_append, hslash, List.append_assoc,
    List.singleton_append, List.splitOn_append_cons_self]
  rfl

theorem parts_joinParts {ps : List (List Char)} (hslash : ∀ part ∈ ps, '/' ∉ part) (hne : ps ≠ []) :
    parts (joinParts ps) = ps := by
  rw [parts, joinParts, String.toList_ofList, List.splitOn_intercalate '/' hslash hne]

theorem parts_no_slash {name : String} {part : List Char} (h : part ∈ parts name) : '/' ∉ part :=
  not_mem_of_mem_splitOn h

theorem kept_unreservedInUrl (b : UInt8) (h : keptInUrl b = true) :
    isUnreserved b.toNat = true := by
  simp only [keptInUrl, Bool.or_eq_true, Bool.and_eq_true, decide_eq_true_eq] at h
  simp only [isUnreserved, Bool.or_eq_true, Bool.and_eq_true, decide_eq_true_eq]
  omega

/-- An address leads back to the segments of its key. -/
theorem segments_publicUrl (base key : String) :
    segments (percentDecode (publicUrl base key).toList) =
      segments (percentDecode (base.toList.rdropWhile (· = '/'))) ++ (parts key).map utf8Bytes := by
  have hdecoded : percentDecode (['/'].intercalate ((parts key).map urlPathSegment)) =
      utf8Bytes key.toList := by
    have hsegment : ((parts key).map urlPathSegment).map percentDecode =
        (parts key).map utf8Bytes := by
      rw [List.map_map]
      exact List.map_congr_left fun part _ => percentDecode_encode kept_unreservedInUrl _
    rw [percentDecode_intercalate, hsegment, ← utf8Bytes_intercalate, parts,
      List.intercalate_splitOn]
  rw [publicUrl, String.toList_ofList, percentDecode_append_slash, hdecoded, segments, List.splitOn_append_cons_self,
    splitOn_utf8Bytes]
  rfl

/-- The segments before the name, in the address of every file of an artifact. -/
def basePath (base hash : String) : List (List UInt8) :=
  segments (percentDecode (base.toList.rdropWhile (· = '/'))) ++
    (parts ("previews/v2/" ++ hash)).map utf8Bytes

theorem segments_published (base hash name : String) :
    segments (percentDecode (publicUrl base (previewAssetObjectKey hash name)).toList) =
      basePath base hash ++ (parts name).map utf8Bytes := by
  rw [segments_publicUrl, previewAssetObjectKey, parts_append_slash, List.map_append,
    ← List.append_assoc]
  rfl

theorem previewAssetObjectKey_inj {hash name other : String}
    (h : previewAssetObjectKey hash name = previewAssetObjectKey hash other) : name = other := by
  have hlist := congrArg String.toList h
  simp only [previewAssetObjectKey, String.toList_append, List.append_assoc] at hlist
  exact String.toList_inj.mp (List.append_cancel_left (List.append_cancel_left
    (List.append_cancel_left hlist)))

/-! ## References without escapes -/

/-- A spelling that the check of a reference lets pass. -/
structure Spelled (uri : String) : Prop where
  trimmed : uri.toList = trim uri.toList
  data : ¬ "data:".toList <+: (toAsciiLowercase uri).toList
  external : ¬ "://".toList <:+: uri.toList
  absolute : uri.toList.head? ≠ some '/'
  query : '?' ∉ uri.toList
  fragment : '#' ∉ uri.toList
  safe : SafePath uri

theorem safePath_ne_empty {path : String} (h : SafePath path) : path ≠ "" := by
  intro hempty
  subst hempty
  exact (h.parts [] List.mem_cons_self).nonempty rfl

theorem parentParts_eq {name : String} (h : SafePath name) :
    parentParts name = (parts name).dropLast := by
  refine List.filter_eq_self.mpr fun part hpart => ?_
  have hsafe := h.parts part (List.dropLast_subset _ hpart)
  exact decide_eq_true ⟨hsafe.nonempty, hsafe.dots⟩

theorem normalize_ok {primaryName uri path : String} :
    normalizeGltfReferenceUri primaryName uri = .ok path ↔
      Spelled uri ∧ path = joinParts (parentParts primaryName ++ parts uri) := by
  have hparts : ∀ (_ : Nat) (part : List Char), (do
      ensure (part ≠ []) ["URI contains an empty path segment"]
      ensure (¬ dotPart part) ["URI contains an unsafe path segment"]
      ensure (part.any isControl = false) ["URI contains control characters"]) = Except.ok () ↔
      SafePart part := by
    intro _ part
    rw [seq_ok, seq_ok, ensure_ok, ensure_ok, ensure_ok]
    constructor
    · intro h
      exact ⟨h.1, h.2.1, h.2.2⟩
    · intro h
      exact ⟨h.nonempty, h.dots, h.control⟩
  simp only [normalizeGltfReferenceUri, seq_ok, ensure_ok, each_ok_mem hparts]
  constructor
  · intro h
    obtain ⟨-, htrim, hdata, hexternal, ⟨habsolute, -⟩, hbackslash, ⟨hquery, hfragment⟩, hsafe,
      hpath⟩ := h
    exact ⟨⟨htrim, hdata, hexternal, habsolute, hquery, hfragment, hbackslash, hsafe⟩,
      (Except.ok.inj hpath).symm⟩
  · intro h
    obtain ⟨hs, rfl⟩ := h
    refine ⟨safePath_ne_empty hs.safe, hs.trimmed, hs.data, hs.external, ⟨hs.absolute, ?_⟩,
      hs.safe.backslash, ⟨hs.query, hs.fragment⟩, hs.safe.parts, rfl⟩
    intro hhead
    exact hs.safe.backslash (List.mem_of_mem_head? hhead)

/-- Without escapes a reference that the check lets pass leads to the file it is compared with. -/
theorem leads_plain {base hash primaryName uri name : String} {names : List String}
    (hprimary : SafePath primaryName) (hescape : '%' ∉ uri.toList)
    (hscheme : hasScheme uri.toList = false)
    (hname : normalizeGltfReferenceUri primaryName uri = .ok name) (hmem : name ∈ names) :
    Leads base hash names primaryName uri := by
  obtain ⟨hs, hpath⟩ := normalize_ok.mp hname
  rw [parentParts_eq hprimary] at hpath
  have hrelative : isRelativePath uri.toList = true := by
    simp [isRelativePath, hscheme, hs.absolute, hs.query, hs.fragment]
  have hjoined : parts name = (parts primaryName).dropLast ++ parts uri := by
    rw [hpath, parts_joinParts]
    · intro part hpart
      rcases List.mem_append.mp hpart with hpart | hpart
      · exact parts_no_slash (List.dropLast_subset _ hpart)
      · exact parts_no_slash hpart
    · intro hnil
      exact parts_ne_nil uri (List.append_eq_nil_iff.mp hnil).2
  refine ⟨name, hmem, resolve_sibling hrelative ?_⟩
  have huri : segments (percentDecode uri.toList) = (parts uri).map utf8Bytes := by
    rw [percentDecode_plain hescape, segments, splitOn_utf8Bytes]
    rfl
  have hne : (parts primaryName).map utf8Bytes ≠ [] := by
    intro hnil
    exact parts_ne_nil primaryName (List.map_eq_nil_iff.mp hnil)
  rw [segments_published, segments_published, huri, hjoined, List.map_append, List.map_dropLast,
    List.dropLast_append_of_ne_nil hne, List.append_assoc]

/-! ### Spellings of what is found -/

theorem toLower_cases (c : Char) :
    c.toLower = c ∨ (65 ≤ c.toNat ∧ c.toNat ≤ 90 ∧ c.toLower.toNat = c.toNat + 32) := by
  by_cases h : c.val ≥ 'A'.val ∧ c.val ≤ 'Z'.val
  · have hlow : 65 ≤ c.val.toNat := h.1
    have hhigh : c.val.toNat ≤ 90 := h.2
    refine .inr ⟨hlow, hhigh, ?_⟩
    rw [Char.toLower, dif_pos h]
    show (c.val + 32).toNat = c.val.toNat + 32
    rw [UInt32.toNat_add]
    have hvalue : (32 : UInt32).toNat = 32 := rfl
    omega
  · rw [Char.toLower, dif_neg h]
    exact .inl rfl

theorem isAlpha_of_toLower {c d : Char} (h : c.toLower = d) (hd : d.isAlpha = true) :
    c.isAlpha = true := by
  rcases toLower_cases c with hc | ⟨hlow, hhigh, -⟩
  · rwa [← hc, h]
  · have hupper : c.isUpper = true := by
      simp only [Char.isUpper, decide_eq_true_eq]
      exact ⟨hlow, hhigh⟩
    rw [Char.isAlpha, hupper]
    rfl

theorem colon_of_toLower {c : Char} (h : c.toLower = ':') : c = ':' := by
  rcases toLower_cases c with hc | ⟨hlow, -, hvalue⟩
  · rw [← hc, h]
  · have hcolon : ':'.toNat = 58 := rfl
    rw [h, hcolon] at hvalue
    omega

/-- A data URI has a scheme. -/
theorem scheme_of_data {uri : String} (h : "data:".toList <+: (toAsciiLowercase uri).toList) :
    hasScheme uri.toList = true := by
  obtain ⟨rest, hprefixed⟩ := h
  have hlower : 'd' :: 'a' :: 't' :: 'a' :: ':' :: rest =
      (String.ofList (uri.toList.map Char.toLower)).toList := hprefixed
  rw [String.toList_ofList] at hlower
  obtain ⟨d, cs, huri, hd, hlower⟩ := List.map_eq_cons_iff.mp hlower.symm
  obtain ⟨a, cs, rfl, ha, hlower⟩ := List.map_eq_cons_iff.mp hlower
  obtain ⟨t, cs, rfl, ht, hlower⟩ := List.map_eq_cons_iff.mp hlower
  obtain ⟨a', cs, rfl, ha', hlower⟩ := List.map_eq_cons_iff.mp hlower
  obtain ⟨colon, cs, rfl, hcolon, -⟩ := List.map_eq_cons_iff.mp hlower
  obtain rfl := colon_of_toLower hcolon
  have hscheme : ∀ c ∈ [a, t, a'], isSchemeChar c = true := by
    intro c hc
    have halpha : c.isAlpha = true := by
      simp only [List.mem_cons, List.not_mem_nil, or_false] at hc
      rcases hc with rfl | rfl | rfl
      · exact isAlpha_of_toLower ha rfl
      · exact isAlpha_of_toLower ht rfl
      · exact isAlpha_of_toLower ha' rfl
    rw [isSchemeChar, halpha]
    rfl
  have hends : schemeEnds ([a, t, a'] ++ ':' :: cs) = true := schemeEnds_append hscheme
  rw [huri, hasScheme, isAlpha_of_toLower hd rfl]
  exact hends

/-- Two slashes in a row leave an empty segment. -/
theorem not_external {uri : String} (h : ∀ part ∈ parts uri, part ≠ []) :
    ¬ "://".toList <:+: uri.toList := by
  intro hinfix
  obtain ⟨before, after, huri⟩ := hinfix
  have hslashes : uri.toList = (before ++ [':']) ++ '/' :: ([] ++ '/' :: after) := by
    rw [← huri]
    simp
  refine h [] ?_ rfl
  rw [parts, hslashes, List.splitOn_append_cons_self, List.splitOn_append_cons_self]
  simp

/-- Without escapes a reference that is found is found as it is spelled. -/
theorem spelled_of_decoded {primary entry : ZipEntry} {uri text : String}
    (hprimary : SafePath primary.name) (hescape : '%' ∉ uri.toList)
    (htrimmed : uri.toList = trim uri.toList) (hrelative : isRelativePath uri.toList = true)
    (htext : utf8Bytes text.toList = percentDecode uri.toList) (hsafe : SafePath text)
    (hname : entry.name = besideName primary.name text) :
    normalizeGltfReferenceUri primary.name uri = .ok entry.name := by
  rw [percentDecode_plain hescape] at htext
  obtain rfl : text = uri := String.toList_inj.mp (utf8Bytes_inj htext)
  simp only [isRelativePath, Bool.and_eq_true, Bool.not_eq_true', decide_eq_true_eq] at hrelative
  obtain ⟨⟨⟨hscheme, habsolute⟩, hquery⟩, hfragment⟩ := hrelative
  refine normalize_ok.mpr ⟨⟨htrimmed, ?_, not_external fun part hpart =>
    (hsafe.parts part hpart).nonempty, habsolute, hquery, hfragment, hsafe⟩, ?_⟩
  · intro hdata
    rw [scheme_of_data hdata] at hscheme
    cases hscheme
  · rw [hname, besideName, parentParts_eq hprimary]

/-! ## What previews hold -/

section Main

variable {fromSlice : ByteArray → Option Value} {base hash : String} {entries : List ZipEntry}
  {primary : ZipEntry} {value : Value}

theorem artifact_paths :
    (artifactOf entries primary).paths =
      primary.name :: (beside entries primary).map ZipEntry.name := by
  rw [PreviewArtifact.paths]
  exact congrArg _ sidecar_paths

/-- The files of an artifact are those of the archive. -/
theorem mem_paths (h : Readable fromSlice entries primary value) {path : String} :
    path ∈ (artifactOf entries primary).paths ↔
      path ∈ (entries.filter fun entry => !entry.isDir).map ZipEntry.name := by
  obtain ⟨hprimary, hfile⟩ := h.primary_file
  simp only [artifact_paths, List.mem_cons, List.mem_map, mem_beside, List.mem_filter,
    Bool.not_eq_true']
  constructor
  · intro h
    rcases h with rfl | ⟨entry, ⟨hmem, hdir, -⟩, rfl⟩
    · exact ⟨primary, ⟨hprimary, hfile⟩, rfl⟩
    · exact ⟨entry, ⟨hmem, hdir⟩, rfl⟩
  · intro h
    obtain ⟨entry, ⟨hmem, hdir⟩, rfl⟩ := h
    by_cases hname : entry.name = primary.name
    · exact .inl hname
    · exact .inr ⟨entry, ⟨hmem, hdir, hname⟩, rfl⟩

theorem leads_paths (h : Readable fromSlice entries primary value) {uri : String} :
    Leads base hash (artifactOf entries primary).paths primary.name uri ↔
      Leads base hash ((entries.filter fun entry => !entry.isDir).map ZipEntry.name) primary.name
        uri := by
  simp only [Leads, mem_paths h]

theorem paths_safe (h : Readable fromSlice entries primary value) :
    ∀ path ∈ (artifactOf entries primary).paths, SafePath path := by
  intro path hpath
  obtain ⟨entry, hentry, rfl⟩ := List.mem_map.mp ((mem_paths h).mp hpath)
  obtain ⟨hmem, hdir⟩ := List.mem_filter.mp hentry
  exact h.safe entry hmem (by simpa using hdir)

/-- Distinct names are published under distinct keys. -/
theorem keys_nodup (hn : (entries.map ZipEntry.name).Nodup) :
    ((artifactOf entries primary).paths.map (previewAssetObjectKey hash)).Nodup := by
  refine List.Nodup.map (fun _ _ => previewAssetObjectKey_inj) ?_
  rw [artifact_paths, List.nodup_cons]
  constructor
  · intro hmem
    obtain ⟨entry, hentry, hname⟩ := List.mem_map.mp hmem
    exact (mem_beside.mp hentry).2.2 hname
  · exact hn.sublist (List.filter_sublist.map ZipEntry.name)

/-- The preview of an archive whose references lead a viewer astray is returned all the same. -/
theorem astray_fails (hn : (entries.map ZipEntry.name).Nodup)
    (h : LedAstray fromSlice base hash entries) : ¬ PreviewsHold fromSlice base hash entries := by
  intro hold
  obtain ⟨primary, value, hreadable, hfound, uri, huri, -, hlost⟩ := h
  have hartifact := (artifact_ok hn).mpr ⟨primary, value, hreadable, hfound, rfl⟩
  have hleads := (hold.1 _ hartifact).leads value hreadable.document uri huri
  exact hlost ((leads_paths hreadable).mp hleads)

/-- An archive that holds what its references stand for is refused over their spelling. -/
theorem misspelled_fails (hn : (entries.map ZipEntry.name).Nodup)
    (h : Misspelled fromSlice entries) : ¬ PreviewsHold fromSlice base hash entries := by
  intro hold
  obtain ⟨primary, value, hreadable, hdecoded, uri, huri, -, hlost⟩ := h
  obtain ⟨artifact, hartifact⟩ := hold.2 ⟨primary, value, hreadable, hdecoded⟩
  obtain ⟨primary', value', hreadable', hfound, -⟩ := (artifact_ok hn).mp hartifact
  obtain rfl : primary' = primary :=
    (List.singleton_inj.mp (hreadable.only.symm.trans hreadable'.only)).symm
  obtain rfl : value' = value :=
    Option.some.inj (hreadable'.document.symm.trans hreadable.document)
  exact hlost (hfound uri huri)

end Main

/-! ### A name with a space -/

def jsonSlice (bytes : ByteArray) : Option Value :=
  (String.fromUTF8? bytes).bind canonicalText.read

def spacedDocument : Value :=
  .ofFields [("asset", .ofFields [("version", .string "2.0")]),
    ("buffers", .array [.ofFields [("uri", .string "my%20buffer.bin")]])]

def spacedGltf : ZipEntry :=
  ⟨"scene.gltf", false, (canonicalText.print spacedDocument).toByteArray⟩

/-- An archive of a glTF that refers to `my%20buffer.bin`, and of a buffer under some name. -/
def spacedArchive (buffer : String) : List ZipEntry := [spacedGltf, ⟨buffer, false, .empty⟩]

theorem spacedDocument_canonical : spacedDocument.Canonical := by
  have huri : (Value.ofFields [("uri", .string "my%20buffer.bin")]).Canonical :=
    Value.canonical_ofFields (by simp) (by simp [Value.Canonical])
  have hasset : (Value.ofFields [("version", .string "2.0")]).Canonical :=
    Value.canonical_ofFields (by simp) (by simp [Value.Canonical])
  refine Value.canonical_ofFields (by simp) fun m hm => ?_
  simp only [List.mem_cons, List.not_mem_nil, or_false] at hm
  rcases hm with rfl | rfl
  · exact hasset
  · exact ⟨huri, trivial⟩

theorem spaced_document : jsonSlice spacedGltf.bytes = some spacedDocument := by
  have hbytes : String.fromUTF8? spacedGltf.bytes = some (canonicalText.print spacedDocument) :=
    Runner.fromUTF8_toByteArray _
  rw [jsonSlice, hbytes, Option.bind_some]
  exact canonicalText_faithful _ spacedDocument_canonical

theorem spaced_references : gltfReferences spacedDocument = ["my%20buffer.bin"] := by
  decide +kernel

theorem safe_name {name : String} (h : safeZipAssetName name = .ok name) : SafePath name :=
  (safeZipAssetName_ok.mp h).1

/-- With a safe name for the buffer the archive can be read. -/
theorem spaced_readable {buffer : String} (hsafe : SafePath buffer)
    (hgltf : hasExtension buffer "gltf" = false) :
    Readable jsonSlice (spacedArchive buffer) spacedGltf spacedDocument where
  only := by
    have hscene : isGltf spacedGltf = true := by
      rw [isGltf, Bool.and_eq_true]
      exact ⟨rfl, by decide +kernel⟩
    have hbuffer : ¬ isGltf ⟨buffer, false, .empty⟩ = true := by simp [isGltf, hgltf]
    rw [spacedArchive, List.filter_cons_of_pos hscene, List.filter_cons_of_neg hbuffer,
      List.filter_nil]
  safe := by
    have hscene : SafePath "scene.gltf" := safe_name rfl
    intro entry hentry _
    simp only [spacedArchive, List.mem_cons, List.not_mem_nil, or_false] at hentry
    rcases hentry with rfl | rfl
    · exact hscene
    · exact hsafe
  document := spaced_document
  version := by decide +kernel

theorem spaced_found {entry : ZipEntry} {buffer : String}
    (hentry : entry ∈ beside (spacedArchive buffer) spacedGltf) : entry.name = buffer := by
  obtain ⟨hmem, -, hname⟩ := mem_beside.mp hentry
  simp only [spacedArchive, List.mem_cons, List.not_mem_nil, or_false] at hmem
  rcases hmem with rfl | rfl
  · exact absurd rfl hname
  · rfl

theorem spaced_normalized :
    normalizeGltfReferenceUri "scene.gltf" "my%20buffer.bin" = .ok "my%20buffer.bin" := by
  rfl

end Preview
end OnshapeExport
