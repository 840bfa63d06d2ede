import OnshapeExport.GeneratorInputs

/-!
# ManifestConstruction

The manifest that is made of accepted geometry passes the checks of the protocol. What flows from a
plan into it satisfies the stricter of both sides, save for the configuration of the root.

* `retainedPath_valid`, `allocate_ok` — the paths of the objects.
* `ValidObject`, `validateObjects_of` — what the loop over the objects asks of each of them.
* `parseDocument_canonical` — a canonical document is parsed back.
-/

namespace OnshapeExport
namespace Construction

open Annotation CacheKey CacheModel Checks Json Protocol Selection
open Geometry (AcquiredGeometry OccurrencePayloadBinding RetainedPayload TrustedAcquisitionPlan
  acquisitionEvidenceIdentity validateAcquisitionHandoff)

/-! ## Strings -/

theorem protocol_sha256 (value : String) :
    Protocol.isSha256 value = OnshapeApi.isSha256 value := rfl

theorem graphic_of_hexDigit {c : Char} (h : OnshapeApi.isHexDigit c = true) :
    Protocol.isAsciiGraphic c = true ∧ Protocol.isAsciiAlphanumeric c = true := by
  simp only [OnshapeApi.isHexDigit, Protocol.isAsciiGraphic, Protocol.isAsciiAlphanumeric,
    Bool.or_eq_true, Bool.and_eq_true, decide_eq_true_eq, Char.le_def, UInt32.le_iff_toNat_le]
    at h ⊢
  have h0 : '0'.val.toNat = 48 := rfl
  have h9 : '9'.val.toNat = 57 := rfl
  have ha : 'a'.val.toNat = 97 := rfl
  have hf : 'f'.val.toNat = 102 := rfl
  have hz : 'z'.val.toNat = 122 := rfl
  have hA : 'A'.val.toNat = 65 := rfl
  have hZ : 'Z'.val.toNat = 90 := rfl
  have hc : c.toNat = c.val.toNat := rfl
  omega

theorem sha256_length {value : String} (h : OnshapeApi.isSha256 value = true) :
    value.utf8ByteSize = 64 ∧ ∀ c ∈ value.toList, OnshapeApi.isHexDigit c = true := by
  simpa [OnshapeApi.isSha256] using h

theorem visible_of_sha256 {value : String} (h : OnshapeApi.isSha256 value = true) :
    visible Protocol.maxIdentityLength value = true := by
  obtain ⟨hsize, hall⟩ := sha256_length h
  have hne : value ≠ "" := by
    rintro rfl
    exact absurd hsize (by decide)
  simp only [visible, Bool.and_eq_true, decide_eq_true_eq, List.all_eq_true]
  refine ⟨⟨hne, ?_⟩, fun c hc => (graphic_of_hexDigit (hall c hc)).1⟩
  rw [hsize]
  decide

theorem identity_ok {value field : String} : Protocol.validateIdentity value field = .ok () ↔
    visible Protocol.maxIdentityLength value = true := Protocol.require_ok

/-! ## Paths -/

theorem underDirectory_iff {path directory : String} : isUnderDirectory path directory = true ↔
    ∃ rest, rest ≠ [] ∧ path.toList = directory.toList ++ '/' :: rest := by
  simp only [isUnderDirectory, Bool.and_eq_true, decide_eq_true_eq, List.isPrefixOf_iff_prefix]
  constructor
  · rintro ⟨⟨⟨rest, hrest⟩, hhead⟩, hlength⟩
    rw [← hrest, List.drop_left] at hhead hlength
    cases rest with
    | nil => cases hhead
    | cons c rest =>
      obtain rfl := Option.some.inj hhead
      refine ⟨rest, ?_, hrest.symm⟩
      rintro rfl
      simp at hlength
  · rintro ⟨rest, hne, hpath⟩
    have hpos := List.length_pos_iff.mpr hne
    rw [hpath, List.drop_left]
    exact ⟨⟨⟨_, rfl⟩, rfl⟩, by simp; omega⟩

theorem paddedPosition_digits : ∀ position < 256,
    (paddedPosition position).utf8ByteSize = 3 ∧ (paddedPosition position).toList.length = 3 ∧
      (paddedPosition position).toList.all Protocol.isAsciiAlphanumeric = true := by
  decide +kernel

/-- The last part of a path. -/
def retainedName (position : Nat) (identity : String) : List Char :=
  (paddedPosition position).toList ++ '-' :: (identity.toList ++ ".3mf".toList)

theorem retainedDirectory : "inputs/geometry-v1/".toList =
    "inputs".toList ++ '/' :: ("geometry-v1".toList ++ ['/']) := rfl

theorem retainedPath_directory (position : Nat) (identity : String) :
    (retainedPath position identity).toList =
      "inputs/geometry-v1/".toList ++ retainedName position identity := by
  have hdash : "-".toList = ['-'] := rfl
  unfold retainedPath retainedName
  simp only [String.toList_append, hdash, List.append_assoc, List.cons_append, List.nil_append]

theorem retainedPath_toList (position : Nat) (identity : String) :
    (retainedPath position identity).toList =
      "inputs".toList ++ '/' :: ("geometry-v1".toList ++ '/' :: retainedName position identity) := by
  rw [retainedPath_directory, retainedDirectory]
  simp only [List.append_assoc, List.cons_append, List.nil_append]

/-- The characters of a part of a path. -/
def isNameCharacter (c : Char) : Bool :=
  Protocol.isAsciiAlphanumeric c || c ∈ ['.', '_', '-']

theorem ascii_of_nameCharacter {c : Char} (h : isNameCharacter c = true) :
    c.toNat < 128 ∧ c ≠ '/' := by
  simp only [isNameCharacter, Protocol.isAsciiAlphanumeric, Bool.or_eq_true, Bool.and_eq_true,
    decide_eq_true_eq, List.mem_cons, List.not_mem_nil, or_false, Char.le_def,
    UInt32.le_iff_toNat_le] at h
  have h9 : '9'.val.toNat = 57 := rfl
  have h0 : '0'.val.toNat = 48 := rfl
  have ha : 'a'.val.toNat = 97 := rfl
  have hz : 'z'.val.toNat = 122 := rfl
  have hA : 'A'.val.toNat = 65 := rfl
  have hZ : 'Z'.val.toNat = 90 := rfl
  have hc : c.toNat = c.val.toNat := rfl
  rcases h with h | rfl | rfl | rfl
  · refine ⟨by omega, ?_⟩
    rintro rfl
    have hslash : '/'.val.toNat = 47 := rfl
    omega
  · decide
  · decide
  · decide

section Path

variable {position : Nat} {identity : String}

theorem retainedName_characters (hp : position < 256) (h : OnshapeApi.isSha256 identity = true) :
    ∀ c ∈ retainedName position identity, isNameCharacter c = true := by
  obtain ⟨-, -, hdigits⟩ := paddedPosition_digits position hp
  obtain ⟨-, hall⟩ := sha256_length h
  have hextension : ".3mf".toList = ['.', '3', 'm', 'f'] := rfl
  intro c hc
  simp only [retainedName, List.mem_append, List.mem_cons, hextension, List.not_mem_nil,
    or_false] at hc
  rcases hc with hc | rfl | hc | rfl | rfl | rfl | rfl
  · simp [isNameCharacter, List.all_eq_true.mp hdigits c hc]
  · decide
  · simp [isNameCharacter, (graphic_of_hexDigit (hall c hc)).2]
  · decide
  · decide
  · decide
  · decide

theorem retainedName_segment (hp : position < 256) (h : OnshapeApi.isSha256 identity = true) :
    isPathSegment (retainedName position identity) = true := by
  obtain ⟨-, hlength, hdigits⟩ := paddedPosition_digits position hp
  obtain ⟨hsize, -⟩ := sha256_length h
  have hidentity := length_toList_le identity
  have hall := retainedName_characters hp h
  have hextension : ".3mf".toList.length = 4 := rfl
  have hname : (retainedName position identity).length ≤ maxPathSegmentLength := by
    simp only [retainedName, List.length_append, List.length_cons, hlength, hextension,
      maxPathSegmentLength]
    omega
  obtain ⟨c, cs, hc⟩ := List.exists_cons_of_length_pos (l := (paddedPosition position).toList)
    (by omega)
  have hhead : Protocol.isAsciiAlphanumeric c = true :=
    List.all_eq_true.mp hdigits c (hc ▸ List.mem_cons_self)
  have hfirst : (retainedName position identity).head? = some c := by
    rw [retainedName, hc]
    rfl
  simp only [isPathSegment, Bool.and_eq_true, decide_eq_true_eq, List.all_eq_true, hfirst,
    Option.any_some]
  refine ⟨⟨⟨?_, hname⟩, hhead⟩, hall⟩
  intro hnil
  rw [hnil] at hfirst
  cases hfirst

theorem retainedPath_segments (hp : position < 256) (h : OnshapeApi.isSha256 identity = true) :
    (retainedPath position identity).toList.splitOn '/' =
      ["inputs".toList, "geometry-v1".toList, retainedName position identity] := by
  have hname : '/' ∉ retainedName position identity := fun hc =>
    (ascii_of_nameCharacter (retainedName_characters hp h _ hc)).2 rfl
  rw [retainedPath_toList, List.splitOn_append_cons_self_of_not_mem (by decide),
    List.splitOn_append_cons_self_of_not_mem (by decide), List.splitOn_eq_singleton hname]

theorem retainedPath_size (hp : position < 256) (h : OnshapeApi.isSha256 identity = true) :
    (retainedPath position identity).utf8ByteSize = 91 := by
  obtain ⟨hposition, -, -⟩ := paddedPosition_digits position hp
  obtain ⟨hsize, -⟩ := sha256_length h
  have hdirectory : "inputs/geometry-v1/".utf8ByteSize = 19 := rfl
  have hdash : "-".utf8ByteSize = 1 := rfl
  have hextension : ".3mf".utf8ByteSize = 4 := rfl
  unfold retainedPath
  simp only [String.utf8ByteSize_append, hposition, hsize, hdirectory, hdash, hextension]

theorem retainedPath_valid (hp : position < 256) (h : OnshapeApi.isSha256 identity = true)
    (field : String) : validateRelativePath (retainedPath position identity) field = .ok () := by
  have hsize := retainedPath_size hp h
  have hne : retainedPath position identity ≠ "" := by
    intro hempty
    rw [hempty] at hsize
    exact absurd hsize (by decide)
  have hascii : (retainedPath position identity).toList.all (fun c => c.toNat < 128) = true := by
    have hdirectory : ∀ c ∈ "inputs/geometry-v1/".toList, c.toNat < 128 := by simp
    rw [retainedPath_directory, List.all_eq_true]
    intro c hc
    rw [decide_eq_true_eq]
    rcases List.mem_append.mp hc with hc | hc
    · exact hdirectory c hc
    · exact (ascii_of_nameCharacter (retainedName_characters hp h c hc)).1
  rw [validateRelativePath, seq_ok, Protocol.require_ok]
  refine ⟨⟨hne, by rw [hsize]; decide, hascii⟩, ?_⟩
  simp only [retainedPath_segments hp h, seq_ok, Protocol.require_ok]
  refine ⟨show 3 ≤ maxPathSegments by decide, ?_⟩
  simp only [List.all_cons, List.all_nil, retainedName_segment hp h, Bool.and_true]
  decide

theorem retainedPath_under (position : Nat) (identity : String) :
    isUnderDirectory (retainedPath position identity) "inputs" = true :=
  underDirectory_iff.mpr ⟨_, by simp, retainedPath_toList position identity⟩

/-- The identity can be read off a path. -/
theorem retainedPath_inj {position' : Nat} {identity' : String} (hp : position < 256)
    (hp' : position' < 256)
    (h : retainedPath position identity = retainedPath position' identity') :
    identity = identity' := by
  obtain ⟨-, hlength, -⟩ := paddedPosition_digits position hp
  obtain ⟨-, hlength', -⟩ := paddedPosition_digits position' hp'
  have hlist := congrArg String.toList h
  rw [retainedPath_toList, retainedPath_toList] at hlist
  have hname := List.cons.inj (List.append_cancel_left hlist)
  have hname := List.cons.inj (List.append_cancel_left hname.2)
  obtain ⟨-, hrest⟩ := List.append_inj hname.2 (hlength.trans hlength'.symm)
  have hidentity := List.append_cancel_right (List.cons.inj hrest).2
  exact String.toList_inj.mp hidentity

end Path

/-! ## Allocation -/

section Allocation

variable {identities : List String}

/-- The paths of the objects with these identities. -/
def retainedPaths (identities : List String) : List String :=
  identities.zipIdx.map fun (identity, position) => retainedPath position identity

theorem retainedPaths_getElem? (i : Nat) :
    (retainedPaths identities)[i]? = identities[i]?.map (retainedPath i) := by
  rw [retainedPaths, List.getElem?_map, List.getElem?_zipIdx, Option.map_map, Nat.zero_add]
  rfl

theorem retainedPaths_length : (retainedPaths identities).length = identities.length := by
  rw [retainedPaths, List.length_map, List.length_zipIdx]

theorem mem_retainedPaths {path : String} (h : path ∈ retainedPaths identities) :
    ∃ i identity, identities[i]? = some identity ∧ path = retainedPath i identity := by
  obtain ⟨⟨identity, i⟩, hmem, rfl⟩ := List.mem_map.mp h
  exact ⟨i, identity, List.mem_zipIdx_iff_getElem?.mp hmem, rfl⟩

/-- Object identities from which paths can be made. -/
structure Allocatable (identities : List String) : Prop where
  nonempty : 1 ≤ identities.length
  count : identities.length ≤ 256
  sha256 : ∀ identity ∈ identities, OnshapeApi.isSha256 identity = true
  distinct : identities.Nodup

theorem Allocatable.at (h : Allocatable identities) {i : Nat} {identity : String}
    (hi : identities[i]? = some identity) :
    i < 256 ∧ OnshapeApi.isSha256 identity = true := by
  have hlt := (List.getElem?_eq_some_iff.mp hi).1
  have hcount := h.count
  exact ⟨by omega, h.sha256 identity (List.mem_of_getElem? hi)⟩

theorem Allocatable.paths_nodup (h : Allocatable identities) : (retainedPaths identities).Nodup := by
  refine (zipIdx_nodup identities).map_on ?_
  rintro ⟨identity, i⟩ hi ⟨identity', j⟩ hj he
  have hi := List.mem_zipIdx_iff_getElem?.mp hi
  have hj := List.mem_zipIdx_iff_getElem?.mp hj
  have hsame : identity = identity' :=
    retainedPath_inj (h.at hi).1 (h.at hj).1 he
  subst hsame
  obtain ⟨hilt, hi⟩ := List.getElem?_eq_some_iff.mp hi
  obtain ⟨hjlt, hj⟩ := List.getElem?_eq_some_iff.mp hj
  obtain rfl := h.distinct.getElem_inj_iff.mp (hi.trans hj.symm)
  rfl

theorem inputs_of_under {path : String} (h : isUnderDirectory path "inputs" = true) :
    "inputs/".toList.isPrefixOf path.toList = true := by
  obtain ⟨rest, -, hpath⟩ := underDirectory_iff.mp h
  have hdirectory : "inputs/".toList = "inputs".toList ++ ['/'] := rfl
  rw [List.isPrefixOf_iff_prefix, hpath, hdirectory]
  exact ⟨rest, by rw [List.append_assoc, List.singleton_append]⟩

/-- Paths are allocated for distinct hashes. -/
theorem allocate_ok (h : Allocatable identities) :
    allocateRetainedPaths identities = .ok (retainedPaths identities) := by
  refine seq_ok.mpr ⟨ensure_ok.mpr ⟨h.nonempty, h.count⟩, seq_ok.mpr ⟨?_, seq_ok.mpr ⟨?_, rfl⟩⟩⟩
  · refine (eachNew_ok_mem (P := fun identity => OnshapeApi.isSha256 identity = true)
      fun _ _ => ?_).mpr ⟨h.sha256, by rw [List.map_id]; exact h.distinct⟩
    rw [ensure_ok, and_iff_left rfl]
  · refine (eachNew_ok_mem (P := fun path =>
      validateRelativePath path "retainedContent.path" = .ok () ∧
        "inputs/".toList.isPrefixOf path.toList = true) fun _ _ => ?_).mpr ⟨fun path hpath => ?_, ?_⟩
    · rw [seq_ok, mapError_ok, ensure_ok, and_iff_left rfl]
    · obtain ⟨i, identity, hi, rfl⟩ := mem_retainedPaths hpath
      obtain ⟨hlt, hsha⟩ := h.at hi
      exact ⟨retainedPath_valid hlt hsha _, inputs_of_under (retainedPath_under i identity)⟩
    · rw [List.map_id]
      exact h.paths_nodup

end Allocation

/-! ## The loop over the objects -/

/-- What the checks ask of one object of an available manifest. -/
structure ValidObject (o : InputObject) : Prop where
  identity : visible Protocol.maxIdentityLength o.objectIdentity = true
  content : ∀ field, o.retainedContent.validate field = .ok ()
  under : isUnderDirectory o.retainedContent.path "inputs" = true
  checks : ∀ field, o.validate .available field = .ok ()
  orphan : o.parentObjectIdentity = none

theorem validateObjects_of {objects : List InputObject} {index : Nat}
    {identities paths : List String} (hall : ∀ o ∈ objects, ValidObject o)
    (hidentities : (objects.map InputObject.objectIdentity).Nodup)
    (hpaths : (objects.map fun o => o.retainedContent.path).Nodup)
    (hseen : ∀ o ∈ objects, o.objectIdentity ∉ identities)
    (hpast : ∀ o ∈ objects, o.retainedContent.path ∉ paths) :
    validateObjects .available index identities paths objects = .ok () := by
  induction objects generalizing index identities paths with
  | nil => rfl
  | cons o objects ih =>
    rw [List.map_cons, List.nodup_cons] at hidentities hpaths
    have ho := hall o List.mem_cons_self
    simp only [validateObjects, seq_ok, Protocol.require_ok]
    refine ⟨Protocol.require_ok.mpr ho.identity, hseen o List.mem_cons_self, ho.content _, ho.under,
      hpast o List.mem_cons_self, ho.checks _, ?_⟩
    refine ih (fun b hb => hall b (List.mem_cons_of_mem _ hb)) hidentities.2 hpaths.2
      (fun b hb => ?_) (fun b hb => ?_)
    · rw [List.mem_cons, not_or]
      refine ⟨fun he => hidentities.1 ?_, hseen b (List.mem_cons_of_mem _ hb)⟩
      rw [← he]
      exact List.mem_map_of_mem hb
    · rw [List.mem_cons, not_or]
      refine ⟨fun he => hpaths.1 ?_, hpast b (List.mem_cons_of_mem _ hb)⟩
      rw [← he]
      exact List.mem_map_of_mem (f := fun o : InputObject => o.retainedContent.path) hb

/-- Objects without parents are no cycle. -/
theorem validateParents_of {objects : List InputObject}
    (h : ∀ o ∈ objects, o.parentObjectIdentity = none) : validateParents objects = .ok () := by
  refine each_ok.mpr fun i o ho => ?_
  have hnone := h o (List.mem_of_getElem? ho)
  have hfind : (objects.find? fun b => b.objectIdentity = o.objectIdentity).bind
      InputObject.parentObjectIdentity = none := by
    cases hf : objects.find? fun b => b.objectIdentity = o.objectIdentity with
    | none => rfl
    | some b => exact h b (List.mem_of_find?_eq_some hf)
  rw [seq_ok, hnone, walkParents, seq_ok, hfind, walkParents]
  exact ⟨rfl, Protocol.require_ok.mpr List.not_mem_nil, rfl⟩

/-! ## What is handed over -/

section Handover

variable {digests : Digests} {sizes : Annotation.Sizes}

/-- A payload of the object that its binding names. -/
structure PayloadOf (o : ResolvedSelectionObject) (b : OccurrencePayloadBinding) : Prop where
  object : b.planLocalObjectIdentity = o.planLocalObjectIdentity
  positive : 0 < b.retainedPayload.byteLength
  bounded : b.retainedPayload.byteLength ≤ OnshapeApi.geometryDownloadLimit
  sha256 : OnshapeApi.isSha256 b.retainedPayload.sha256 = true

/-- An accepted plan and a payload for each of its objects, in their order. -/
structure HandedOver (digests : Digests) (sizes : Annotation.Sizes) (acquired : AcquiredGeometry) :
    Prop where
  retained : Retained digests sizes acquired.plan
  payloads : List.Forall₂ PayloadOf acquired.plan.objects acquired.bindings

theorem payloadOf_binding {record : Geometry.ProvenanceRecord} {b : OccurrencePayloadBinding}
    {encoding : EncodingHandoff} {root : SelectionRoot} {i : Nat} {o : ResolvedSelectionObject}
    (h : Geometry.validateBinding record b (Geometry.binding encoding root i o) = .ok ()) :
    PayloadOf o b := by
  obtain ⟨-, hobject, -, -, -, -, -, -, -, -, -, -, -, -, -, -, hlength, hsha, hpositive, hbounded,
    hhex⟩ := ensure_ok.mp h
  refine ⟨?_, ?_, ?_, hsha ▸ hhex⟩
  · rw [hobject]
    cases hk : root.elementKind <;> simp [Geometry.binding, hk]
  · omega
  · rw [← hlength]
    exact hbounded

/-- Every binding of a record is that of the object at its position. -/
theorem binding_at {hashes : ExportHashes}
    {canonicalOrigin : String → Except OnshapeApi.ApiFailure String} {origin : String}
    {db : Encoding.Database} {record : Geometry.ProvenanceRecord}
    (h : Geometry.validateRecord digests sizes hashes canonicalOrigin origin db record = .ok ()) :
    record.bindings.length = record.plan.objects.length ∧
      ∀ i b o, record.bindings[i]? = some b → record.plan.objects[i]? = some o →
        b = Geometry.binding record.configurationEncoding record.plan.root i o := by
  obtain ⟨-, h⟩ := seq_ok.mp h
  obtain ⟨-, h⟩ := seq_ok.mp h
  obtain ⟨identity, -, h⟩ := bind_ok.mp h
  obtain ⟨hlength, h⟩ := seq_ok.mp h
  obtain ⟨expected, -, h⟩ := bind_ok.mp h
  obtain ⟨-, h⟩ := seq_ok.mp h
  obtain ⟨-, h⟩ := seq_ok.mp h
  refine ⟨(ensure_ok.mp hlength).2, fun i b o hb ho => ?_⟩
  have hzip := each_ok.mp h i (b, o) (List.getElem?_zip_eq_some.mpr ⟨hb, ho⟩)
  rw [Nat.zero_add] at hzip
  exact ensure_ok.mp hzip

theorem handedOver_of {hashes : ExportHashes}
    {canonicalOrigin : String → Except OnshapeApi.ApiFailure String} {origin : String}
    {db : Encoding.Database} {trusted : TrustedAcquisitionPlan} {acquired : AcquiredGeometry}
    (hrecord : Geometry.validateRecord digests sizes hashes canonicalOrigin origin db
      trusted.record = .ok ())
    (h : validateAcquisitionHandoff digests sizes trusted acquired = .ok ()) :
    HandedOver digests sizes acquired := by
  obtain ⟨hplan, h⟩ := seq_ok.mp h
  obtain ⟨hsame, h⟩ := seq_ok.mp h
  obtain ⟨hbindings, -⟩ := seq_ok.mp h
  have hretained := (retainedPlan_ok digests sizes).mp hplan
  have htrusted := (Geometry.validateRecord_ok hrecord).1
  have hfits : ∀ {p : ResolvedSelectionPlan}, Retained digests sizes p →
      ResolvedSelectionPlan.codec.Fits p := fun hp => fits_plan.mpr fun o ho => (hp.objects o ho).zeros
  -- without the signs of zeros the plans are equal, and neither has one
  have hequal : acquired.plan = trusted.record.plan := by
    refine ResolvedSelectionPlan.codec.enc_inj (hfits hretained) (hfits htrusted) ?_
    rw [← Geometry.enc_settlePlan acquired.plan, (ensure_ok.mp hsame).1, Geometry.enc_settlePlan]
  obtain ⟨hlength, hat⟩ := binding_at hrecord
  obtain ⟨hcount, hbindings⟩ := seq_ok.mp hbindings
  have hcount := ensure_ok.mp hcount
  refine ⟨hretained, List.forall₂_iff_get.mpr ⟨?_, fun i hi hj => ?_⟩⟩
  · rw [hequal, ← hlength, hcount]
  · rw [List.get_eq_getElem, List.get_eq_getElem]
    have ho : trusted.record.plan.objects[i]? = some acquired.plan.objects[i] := by
      rw [← hequal]
      exact List.getElem?_eq_getElem hi
    have hplanned : i < trusted.record.bindings.length := by omega
    have hb := List.getElem?_eq_getElem hplanned
    have hchecked := each_ok.mp hbindings i (acquired.bindings[i], trusted.record.bindings[i])
      (List.getElem?_zip_eq_some.mpr ⟨List.getElem?_eq_getElem hj, hb⟩)
    rw [hat i _ _ hb ho] at hchecked
    exact payloadOf_binding hchecked

end Handover

/-! ## The objects of the manifest -/

structure GeneratorInputPolicy.Valid (policy : GeneratorInputPolicy) : Prop where
  requirements : visible Protocol.maxIdentityLength policy.requirementsIdentity = true
  inputKind : visible Protocol.maxIdentityLength policy.inputKindIdentity = true
  inputSchema : visible Protocol.maxIdentityLength policy.inputSchemaIdentity = true
  detectedKind : visible Protocol.maxIdentityLength policy.detectedKindIdentity = true
  mediaType : isMediaType policy.mediaType = true

section Objects

variable (digests : Digests)

/-- The text that is hashed for an object of a manifest. -/
def manifestObjectText (o : ResolvedSelectionObject) : String :=
  canonicalJson digests (.ofFields [("domain", .string "onshape-export-manifest-object-v1"),
    ("payload", .ofFields [("planLocalObjectIdentity", .string o.planLocalObjectIdentity)])])

/-- No two of the texts that are hashed for the objects of a manifest have one hash. -/
def ManifestCollisionFree (objects : List ResolvedSelectionObject) : Prop :=
  ∀ o ∈ objects, ∀ o' ∈ objects,
    digests.sha256 (manifestObjectText digests o) = digests.sha256 (manifestObjectText digests o') →
      manifestObjectText digests o = manifestObjectText digests o'

/-- The identities of the objects of a manifest. -/
def manifestIdentities (plan : ResolvedSelectionPlan) : List String :=
  plan.objects.map fun o => manifestObjectIdentity digests o.planLocalObjectIdentity

/-- The objects of the manifest of acquired geometry. -/
def manifestObjects (policy : GeneratorInputPolicy) (acquired : AcquiredGeometry) :
    List InputObject :=
  inputObjects digests policy acquired (manifestIdentities digests acquired.plan)
    (retainedPaths (manifestIdentities digests acquired.plan))

variable {digests} {sizes : Annotation.Sizes} {policy : GeneratorInputPolicy}
  {acquired : AcquiredGeometry}

theorem planLocal_of_text {o o' : ResolvedSelectionObject} (ht : digests.text.Faithful)
    (h : manifestObjectText digests o = manifestObjectText digests o') :
    o.planLocalObjectIdentity = o'.planLocalObjectIdentity := by
  have hpayload (o : ResolvedSelectionObject) : (Value.ofFields
      [("planLocalObjectIdentity", .string o.planLocalObjectIdentity)]).Canonical := by
    refine Value.canonical_ofFields (by simp) fun m hm => ?_
    rw [List.mem_singleton.mp hm]
    trivial
  have hv := ht.print_inj (canonical_preimage (hpayload o)) (canonical_preimage (hpayload o')) h
  have hp := Value.get?_of_ofFields_eq (by simp) (by simp) hv "payload"
  simp only [get?, List.lookup_cons, List.lookup_nil, beq_self_eq_true, Option.some.injEq,
    show ("payload" == "domain") = false by decide] at hp
  have hi := Value.get?_of_ofFields_eq (by simp) (by simp) hp "planLocalObjectIdentity"
  simpa [get?, List.lookup_cons, List.lookup_nil] using hi

theorem allocatable (ht : digests.text.Faithful) (hx : Hexadecimal digests)
    (h : HandedOver digests sizes acquired)
    (hc : ManifestCollisionFree digests acquired.plan.objects) :
    Allocatable (manifestIdentities digests acquired.plan) := by
  refine ⟨?_, ?_, fun identity hmem => ?_, ?_⟩
  · rw [manifestIdentities, List.length_map]
    exact h.retained.nonempty
  · rw [manifestIdentities, List.length_map]
    exact h.retained.count
  · obtain ⟨o, -, rfl⟩ := List.mem_map.mp hmem
    exact hx _
  · have hdistinct := h.retained.distinct
    refine (List.nodup_map_iff_inj_on hdistinct.of_map).mpr fun o ho o' ho' he => ?_
    exact List.inj_on_of_nodup_map hdistinct ho ho' (planLocal_of_text ht (hc o ho o' ho' he))

theorem manifestIdentities_getElem? {i : Nat} {o : ResolvedSelectionObject}
    (ho : acquired.plan.objects[i]? = some o) :
    (manifestIdentities digests acquired.plan)[i]? =
      some (manifestObjectIdentity digests o.planLocalObjectIdentity) := by
  rw [manifestIdentities, List.getElem?_map, ho, Option.map_some]

theorem manifestObjects_getElem? {i : Nat} {o : ResolvedSelectionObject}
    {b : OccurrencePayloadBinding} (ho : acquired.plan.objects[i]? = some o)
    (hb : acquired.bindings[i]? = some b) :
    (manifestObjects digests policy acquired)[i]? = some (inputObject digests policy o b
      (manifestObjectIdentity digests o.planLocalObjectIdentity)
      (retainedPath i (manifestObjectIdentity digests o.planLocalObjectIdentity))) := by
  have hi : (manifestIdentities digests acquired.plan)[i]? = some _ :=
    manifestIdentities_getElem? ho
  have hpath : (retainedPaths (manifestIdentities digests acquired.plan))[i]? = _ :=
    retainedPaths_getElem? i
  rw [hi, Option.map_some] at hpath
  have hleft : (acquired.plan.objects.zip acquired.bindings)[i]? = some (o, b) :=
    List.getElem?_zip_eq_some.mpr ⟨ho, hb⟩
  have hright : ((manifestIdentities digests acquired.plan).zip
      (retainedPaths (manifestIdentities digests acquired.plan)))[i]? = some (_, _) :=
    List.getElem?_zip_eq_some.mpr ⟨hi, hpath⟩
  have hzip : (((acquired.plan.objects.zip acquired.bindings).zip _)[i]?) = some ((o, b), (_, _)) :=
    List.getElem?_zip_eq_some.mpr ⟨hleft, hright⟩
  rw [manifestObjects, inputObjects, List.getElem?_map, hzip, Option.map_some]
  rfl

theorem HandedOver.binding (h : HandedOver digests sizes acquired) {i : Nat}
    {o : ResolvedSelectionObject} (ho : acquired.plan.objects[i]? = some o) :
    ∃ b, acquired.bindings[i]? = some b ∧ PayloadOf o b := by
  obtain ⟨hlength, hall⟩ := List.forall₂_iff_get.mp h.payloads
  obtain ⟨hi, rfl⟩ := List.getElem?_eq_some_iff.mp ho
  have hj : i < acquired.bindings.length := hlength ▸ hi
  exact ⟨acquired.bindings[i], List.getElem?_eq_getElem hj, hall i hi hj⟩

theorem manifestObjects_length (h : HandedOver digests sizes acquired) :
    (manifestObjects digests policy acquired).length = acquired.plan.objects.length := by
  have hlength := h.payloads.length_eq
  simp only [manifestObjects, inputObjects, List.length_map, List.length_zip, retainedPaths_length,
    manifestIdentities]
  omega

/-- Every object of the manifest is made of the object of the plan at its position. -/
theorem manifestObjects_at (h : HandedOver digests sizes acquired) {i : Nat} {made : InputObject}
    (hmade : (manifestObjects digests policy acquired)[i]? = some made) :
    ∃ o b, acquired.plan.objects[i]? = some o ∧ acquired.bindings[i]? = some b ∧ PayloadOf o b ∧
      made = inputObject digests policy o b
        (manifestObjectIdentity digests o.planLocalObjectIdentity)
        (retainedPath i (manifestObjectIdentity digests o.planLocalObjectIdentity)) := by
  have hi := (List.getElem?_eq_some_iff.mp hmade).1
  rw [manifestObjects_length h] at hi
  have ho := List.getElem?_eq_getElem hi
  obtain ⟨b, hb, hpayload⟩ := h.binding ho
  rw [manifestObjects_getElem? ho hb, Option.some.injEq] at hmade
  exact ⟨_, b, ho, hb, hpayload, hmade.symm⟩

theorem displayName_of_retained {plan : ResolvedSelectionPlan} (h : Retained digests sizes plan)
    {o : ResolvedSelectionObject} (ho : o ∈ plan.objects) :
    isDisplayName o.displayName = true := by
  obtain ⟨hvalid, -⟩ := seq_ok.mp h.context
  obtain ⟨-, -, -, hobjects, -, -⟩ := (validateAuthoringDocument_ok sizes).mp hvalid
  obtain ⟨i, hi⟩ := List.getElem?_of_mem ho
  have hat : (authoringDocument plan.objects).objects[i]? =
      some ⟨o.selector, o.displayName, o.annotation⟩ := by
    rw [authoringDocument, List.getElem?_map, hi, Option.map_some]
  obtain ⟨-, hchecks⟩ := seq_ok.mp (hobjects i _ hat)
  exact validateDisplayName_ok.mp (seq_ok.mp hchecks).1

/-- The name of an object is also a name for the protocol, which allows longer ones. -/
theorem display_of_name {name : String} (h : isDisplayName name = true) (field : String) :
    validateText name Protocol.maxDisplayLength field = .ok () := by
  simp only [isDisplayName, Bool.and_eq_true, decide_eq_true_eq, List.all_eq_true] at h
  obtain ⟨⟨hne, hlength⟩, hall⟩ := h
  refine Protocol.require_ok.mpr ⟨hne, ?_, List.all_eq_true.mpr hall⟩
  simp only [maxDisplayNameScalars, maxDisplayLength] at *
  omega

theorem classification_visible :
    visible Protocol.maxIdentityLength "immutable-leaf-causal-acquisition-v1" = true := by
  decide +kernel

theorem validObject (hx : Hexadecimal digests) (hpolicy : policy.Valid)
    (h : HandedOver digests sizes acquired) {made : InputObject}
    (hmade : made ∈ manifestObjects digests policy acquired) : ValidObject made := by
  obtain ⟨i, hi⟩ := List.getElem?_of_mem hmade
  obtain ⟨o, b, ho, hb, hpayload, rfl⟩ := manifestObjects_at h hi
  have hmem := List.mem_of_getElem? ho
  have hidentity : OnshapeApi.isSha256 (manifestObjectIdentity digests o.planLocalObjectIdentity) =
      true := hx _
  have hlt : i < 256 := by
    have hcount : acquired.plan.objects.length ≤ 256 := h.retained.count
    have := (List.getElem?_eq_some_iff.mp ho).1
    omega
  refine ⟨visible_of_sha256 hidentity, fun field => ?_, retainedPath_under _ _, fun field => ?_, rfl⟩
  · simp only [FileContent.validate, seq_ok, byteLength_ok]
    have hbounded := hpayload.bounded
    simp only [OnshapeApi.geometryDownloadLimit] at hbounded
    refine ⟨identity_ok.mpr (visible_of_sha256 (hx _)), retainedPath_valid hlt hidentity _,
      Protocol.require_ok.mpr hpayload.sha256, ⟨hpayload.positive, ?_⟩,
      Protocol.require_ok.mpr hpolicy.mediaType, identity_ok.mpr hpolicy.detectedKind⟩
    simp only [inputObject, maxSafeJsonInteger]
    omega
  · simp only [InputObject.validate, ObjectMapping.validate, inputObject, seq_ok,
      Protocol.require_ok, if_true, whenSome_ok, validateOptionalIdentity, validateOptionalDisplay,
      Option.mem_def, Option.some.injEq, forall_eq', reduceCtorEq, false_implies, implies_true,
      Option.isSome_some, Option.isNone_none, and_true, true_and]
    refine ⟨⟨identity_ok.mpr classification_visible, identity_ok.mpr (visible_of_sha256 (hx _))⟩,
      identity_ok.mpr (visible_of_sha256 (h.retained.objects o hmem).sha256),
      display_of_name (displayName_of_retained h.retained hmem) _⟩

end Objects

/-! ## The manifest -/

section Manifest

variable {digests : Digests} {sizes : Annotation.Sizes} {hashes : ExportHashes}
  {policy : GeneratorInputPolicy} {acquired : AcquiredGeometry}

variable (digests hashes policy acquired) in
/-- The manifest of acquired geometry. -/
def constructedManifest : InputManifest :=
  inputManifest digests hashes policy acquired.plan (manifestObjects digests policy acquired)

variable (digests policy) in
/-- An object of a manifest is made of an object of the plan. -/
def Made (o : ResolvedSelectionObject) (made : InputObject) : Prop :=
  ∃ b path, made = inputObject digests policy o b
    (manifestObjectIdentity digests o.planLocalObjectIdentity) path

theorem manifestObjects_made (h : HandedOver digests sizes acquired) :
    List.Forall₂ (Made digests policy) acquired.plan.objects
      (manifestObjects digests policy acquired) := by
  refine List.forall₂_iff_get.mpr ⟨(manifestObjects_length h).symm, fun i hi hj => ?_⟩
  rw [List.get_eq_getElem, List.get_eq_getElem]
  obtain ⟨o, b, ho, -, -, hmade⟩ := manifestObjects_at h (List.getElem?_eq_getElem hj)
  obtain ⟨_, rfl⟩ := List.getElem?_eq_some_iff.mp ho
  exact ⟨b, _, hmade⟩

theorem manifestObjects_identities (h : HandedOver digests sizes acquired) :
    (manifestObjects digests policy acquired).map InputObject.objectIdentity =
      manifestIdentities digests acquired.plan :=
  map_eq_of_forall₂ (manifestObjects_made h) fun _ _ ⟨_, _, hmade⟩ => hmade ▸ rfl

theorem manifestObjects_paths (h : HandedOver digests sizes acquired) :
    ((manifestObjects digests policy acquired).map fun o => o.retainedContent.path) =
      retainedPaths (manifestIdentities digests acquired.plan) := by
  refine List.ext_getElem? fun i => ?_
  rw [List.getElem?_map, retainedPaths_getElem?]
  cases hmade : (manifestObjects digests policy acquired)[i]? with
  | none =>
    rw [List.getElem?_eq_none_iff, manifestObjects_length h] at hmade
    have hnone : (manifestIdentities digests acquired.plan)[i]? = none := by
      rw [List.getElem?_eq_none_iff, manifestIdentities, List.length_map]
      exact hmade
    rw [hnone, Option.map_none, Option.map_none]
  | some made =>
    obtain ⟨o, b, ho, -, -, rfl⟩ := manifestObjects_at h hmade
    rw [manifestIdentities_getElem? ho]
    rfl

/-- A root value is an identity of the protocol when it is short enough for one. -/
theorem visible_of_bounded {value : String} (h : OnshapeApi.boundedVisibleAscii value = true) :
    visible Protocol.maxIdentityLength value = true ↔
      value.utf8ByteSize ≤ Protocol.maxIdentityLength := by
  simp only [OnshapeApi.boundedVisibleAscii, Bool.and_eq_true, decide_eq_true_eq] at h
  obtain ⟨⟨hne, -⟩, hall⟩ := h
  simp only [visible, Bool.and_eq_true, decide_eq_true_eq, hne, ne_eq, not_false_eq_true, true_and]
  exact and_iff_left hall

theorem root_configuration (h : HandedOver digests sizes acquired) :
    OnshapeApi.boundedVisibleAscii acquired.plan.root.configurationIdentity = true :=
  List.all_eq_true.mp h.retained.root _ (by simp)

theorem decision_of {m : InputManifest} (hdecision : m.decision = ⟨.available, none⟩)
    (hobjects : m.objects ≠ []) (hobserved : m.export_.observationStatus = .proven)
    (hset : m.inputSetIdentity.isSome = true) : validateDecision m = .ok () := by
  simp only [validateDecision, hdecision, if_true]
  refine seq_ok.mpr ⟨Protocol.require_ok.mpr rfl, seq_ok.mpr ⟨Protocol.require_ok.mpr hobjects, ?_⟩⟩
  refine seq_ok.mpr ⟨Protocol.require_ok.mpr hobserved, seq_ok.mpr ⟨?_, rfl⟩⟩
  exact Protocol.require_ok.mpr hset

/-- The manifest is valid when the configuration of the root is short enough for it. -/
theorem manifest_valid (hx : Hexadecimal digests)
    (hsource : ∀ p, OnshapeApi.isSha256 (hashes.sourceHash p) = true) (hpolicy : policy.Valid)
    (h : HandedOver digests sizes acquired)
    (hallocatable : Allocatable (manifestIdentities digests acquired.plan))
    (hprintable : ∃ o ∈ acquired.plan.objects, o.annotation.role = .printable) :
    (constructedManifest digests hashes policy acquired).validate digests = .ok () ↔
      acquired.plan.root.configurationIdentity.utf8ByteSize ≤ Protocol.maxIdentityLength := by
  rw [← visible_of_bounded (root_configuration h)]
  constructor
  · intro hvalid
    simp only [InputManifest.validate, seq_ok] at hvalid
    obtain ⟨-, -, -, -, -, hconfiguration, -⟩ := hvalid
    exact identity_ok.mp hconfiguration
  · intro hconfiguration
    have hobjects : ∀ o ∈ manifestObjects digests policy acquired, ValidObject o :=
      fun o ho => validObject hx hpolicy h ho
    have hlength : (manifestObjects digests policy acquired).length = acquired.plan.objects.length :=
      manifestObjects_length h
    have hcount : acquired.plan.objects.length ≤ 256 := h.retained.count
    have hnonempty := h.retained.nonempty
    have hdecision : validateDecision (constructedManifest digests hashes policy acquired) =
        .ok () := by
      refine decision_of rfl (fun hnil => ?_) rfl rfl
      have hempty := congrArg List.length hnil
      rw [List.length_nil] at hempty
      have : (manifestObjects digests policy acquired).length = 0 := hempty
      omega
    have hraw : ∃ o ∈ manifestObjects digests policy acquired, o.role = .rawGeometry := by
      obtain ⟨o, ho, hrole⟩ := hprintable
      obtain ⟨i, hi⟩ := List.getElem?_of_mem ho
      obtain ⟨b, hb, -⟩ := h.binding hi
      refine ⟨_, List.mem_of_getElem? (manifestObjects_getElem? hi hb), ?_⟩
      show o.annotation.role.transportRole = .rawGeometry
      rw [hrole]
      rfl
    simp only [InputManifest.validate, seq_ok, Protocol.require_ok, version_ok]
    refine ⟨rfl, rfl, Protocol.require_ok.mpr (hx _), identity_ok.mpr hpolicy.requirements,
      identity_ok.mpr (visible_of_sha256 (hsource _)), identity_ok.mpr hconfiguration,
      identity_ok.mpr hpolicy.inputKind, identity_ok.mpr hpolicy.inputSchema, ?_, ?_, hdecision, ?_,
      .inr hraw, validateParents_of fun o ho => (hobjects o ho).orphan, rfl, rfl⟩
    · simp only [validateExport, seq_ok, validateOptionalIdentity, whenSome_ok, constructedManifest,
        inputManifest, if_true, Protocol.require_ok, Option.isSome_some, Option.mem_def,
        Option.some.injEq, forall_eq', true_and]
      exact identity_ok.mpr (visible_of_sha256 (hx _))
    · show (manifestObjects digests policy acquired).length ≤ 256
      omega
    · refine validateObjects_of hobjects ?_ ?_ (fun _ _ => List.not_mem_nil)
        (fun _ _ => List.not_mem_nil)
      · rw [show (constructedManifest digests hashes policy acquired).objects =
          manifestObjects digests policy acquired from rfl, manifestObjects_identities h]
        exact hallocatable.distinct
      · rw [show (constructedManifest digests hashes policy acquired).objects =
          manifestObjects digests policy acquired from rfl, manifestObjects_paths h]
        exact hallocatable.paths_nodup

end Manifest

/-! ## Canonical documents -/

mutual

theorem distinct_of_canonical : ∀ v : Value, v.Canonical → Runner.distinctMembers v = true
  | .null, _ => rfl
  | .bool _, _ => rfl
  | .number _, _ => rfl
  | .string _, _ => rfl
  | .array items, h => distinctItems_of_canonical items h
  | .object members, h =>
    distinctValues_of_canonical members [] h.1.nodup (fun _ _ => List.not_mem_nil) h.2

theorem distinctItems_of_canonical : ∀ vs : List Value, Value.CanonicalItems vs →
    Runner.distinctItems vs = true
  | [], _ => rfl
  | v :: vs, h => by
    rw [Runner.distinctItems, distinct_of_canonical v h.1, distinctItems_of_canonical vs h.2]
    rfl

theorem distinctValues_of_canonical : ∀ (ms : List (String × Value)) (seen : List String),
    (keys ms).Nodup → (∀ k ∈ keys ms, k ∉ seen) → Value.CanonicalMembers ms →
    Runner.distinctValues seen ms = true
  | [], _, _, _, _ => rfl
  | (k, v) :: ms, seen, hn, hs, h => by
    rw [keys_cons, List.nodup_cons] at hn
    have hrest := distinctValues_of_canonical ms (k :: seen) hn.2 (fun x hx => by
      rw [List.mem_cons, not_or]
      exact ⟨fun he => hn.1 (he ▸ hx), hs x (by rw [keys_cons]; exact List.mem_cons_of_mem _ hx)⟩) h.2
    have hnew : seen.contains k = false := by
      rw [List.contains_eq_mem, decide_eq_false_iff_not]
      exact hs k (by rw [keys_cons]; exact List.mem_cons_self)
    rw [Runner.distinctValues, hnew, distinct_of_canonical v h.1, hrest]
    rfl

end

/-- The canonical text of a document that fits is parsed back, unless it is too long. -/
theorem parseDocument_canonical {α : Type} {digests : Digests} (ht : digests.text.Faithful)
    {c : Codec α} {a : α} {limit : Nat} {document : String} (hf : c.Fits a)
    (hsize : (canonicalJson digests (c.enc a)).utf8ByteSize ≤ limit) :
    parseDocument digests c limit document (canonicalJson digests (c.enc a)).toByteArray =
      .ok a := by
  have hcanonical := c.canonical a hf
  have hread : Runner.fromSlice digests.text c (canonicalJson digests (c.enc a)).toByteArray =
      some a := by
    rw [Runner.fromSlice, Runner.fromUTF8_toByteArray, Option.bind_some,
      show digests.text.read (canonicalJson digests (c.enc a)) = some (c.enc a) from ht _ hcanonical]
    simp only [distinct_of_canonical _ hcanonical, if_true]
    exact c.dec_enc a hf
  rw [parseDocument, seq_ok, hread]
  exact ⟨ensure_ok.mpr hsize, rfl⟩

end Construction
end OnshapeExport
