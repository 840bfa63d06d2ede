import OnshapeExport.GeneratorProcessing
import OnshapeExport.Lib.FileTree
import Mathlib

/-!
# RunnerLayout

The invocation root of `generator_runner.rs`: the files an invocation declares, the directories
above them, how they are staged and how a tree is checked against them. A path is the list of its
segments, as `PathBuf` reads a valid relative path.

* `Layout.new`, `Layout.verify`, `stage` — as the runner has them.
* `layout_new_iff` — paths that differ, none of them above another.
* `verify_iff` — what a verified tree holds.
* `staging` — the two together, and what staging makes.
-/

namespace OnshapeExport
namespace Runner

open CacheKey Checks Files Json Processing Protocol

inductive GeneratorRunnerError where
  | invalidInvocation
  | unsupportedCombination
  | deploymentIntegrity
  | spawn
  | crash (signal : Int)
  | unexpectedExit (code : Int)
  | timeout
  | missingResult
  | malformedResult
  | resultIdentityMismatch
  | outputDeclarationMismatch
  | unexpectedFiles
  | candidateMissing
  | candidateMismatch
  | staging
  | io
  | processCleanup
  | cleanup
  | cancelled
  | supervisor
  | structuredFailure (result : GeneratorResult)
deriving DecidableEq

def requestPath : String := "request.json"
def resultPath : String := "result.json"

/-- The segments of a relative path. -/
def pathOf (value : String) : Path := (value.toList.splitOn '/').map String.ofList

def orError {ε α : Type} (o : Option α) (e : ε) : Except ε α :=
  match o with
  | none => .error e
  | some a => .ok a

@[simp] theorem orError_ok {ε α : Type} {o : Option α} {e : ε} {a : α} :
    orError o e = .ok a ↔ o = some a := by
  cases o <;> simp [orError]

structure Layout where
  files : Finset Path
  directories : Finset Path
  candidate : Path

/-! ## The layout -/

/-- The files an invocation declares, in the order they are inserted. -/
def declaredPaths (manifest : InputManifest) (request : GeneratorRequest) : List String :=
  [requestPath, resultPath, request.inputManifest.path, request.settings.content.path,
    request.output.path] ++ manifest.objects.map fun o => o.retainedContent.path

def insertPaths : List String → Finset Path → Except GeneratorRunnerError (Finset Path)
  | [], files => .ok files
  | path :: paths, files =>
    if pathOf path ∈ files then .error .invalidInvocation
    else insertPaths paths (insert (pathOf path) files)

/-- The directories above a path, none of which may be a file; the fuel bounds the segments. -/
def insertParents (files : Finset Path) :
    Nat → Path → Finset Path → Except GeneratorRunnerError (Finset Path)
  | 0, _, directories => .ok directories
  | n + 1, path, directories =>
    let parent := path.dropLast
    if parent = [] then .ok directories
    else if parent ∈ files then .error .invalidInvocation
    else insertParents files n parent (insert parent directories)

def insertAllParents (files : Finset Path) :
    List Path → Finset Path → Except GeneratorRunnerError (Finset Path)
  | [], directories => .ok directories
  | path :: paths, directories => do
    let directories ← insertParents files path.length path directories
    insertAllParents files paths directories

def Layout.new (manifest : InputManifest) (request : GeneratorRequest) :
    Except GeneratorRunnerError Layout := do
  let paths := declaredPaths manifest request
  let files ← insertPaths paths ∅
  let directories ← insertAllParents files (paths.map pathOf) ∅
  return ⟨files, directories, pathOf request.output.path⟩

/-! ## Verifying a tree -/

/-- A declared directory, or a regular file that is declared. -/
def Layout.declares (layout : Layout) (e : Path × Kind ByteArray) : Bool :=
  match e.2 with
  | .directory => e.1 ∈ layout.directories
  | .file _ => e.1 ∈ layout.files
  | .other => false

def recordFile (remaining : Finset Path) (e : Path × Kind ByteArray) : Finset Path :=
  match e.2 with
  | .file _ => remaining.erase e.1
  | _ => remaining

def Layout.verify (layout : Layout) (root : FileTree ByteArray) (resultRequired : Bool) :
    Except GeneratorRunnerError Unit := do
  let files := layout.files.erase layout.candidate
  let files := if resultRequired then files else files.erase (pathOf resultPath)
  let remaining ← orError (root.walk layout.declares recordFile files) .unexpectedFiles
  ensure (remaining = ∅) .unexpectedFiles
  ensure (resultRequired = true ∨ (root.get? (pathOf resultPath) = none ∧
    root.get? layout.candidate = none)) .unexpectedFiles

/-! ## Staging -/

/-- Geometry that was acquired for one object. -/
structure RetainedPayload where
  bytes : ByteArray
  byteLength : Nat
  sha256 : String
deriving DecidableEq

/-- A payload is the content that the manifest declares of its object. -/
def RetainedPayload.Matches (fileSha256 : ByteArray → String) (payload : RetainedPayload)
    (object : InputObject) : Prop :=
  payload.bytes.size = payload.byteLength ∧ fileSha256 payload.bytes = payload.sha256 ∧
    payload.byteLength = object.retainedContent.byteLength ∧
    payload.sha256 = object.retainedContent.sha256

/-- What staging reads of a construction; the payloads are those of the objects in order. -/
structure ConstructedGeneratorInputs (fileSha256 : ByteArray → String) where
  manifest : InputManifest
  settingsBytes : ByteArray
  payloads : List RetainedPayload
  retained : List.Forall₂ (RetainedPayload.Matches fileSha256) payloads manifest.objects

section Stage

variable (digests : Digests) (fileSha256 : ByteArray → String)

def stageFile (root : FileTree ByteArray) (path : String) (bytes : ByteArray) (length : Nat)
    (sha256 : String) : Except GeneratorRunnerError (FileTree ByteArray) := do
  let root ← orError (root.mkdirAll (pathOf path).dropLast) .staging
  ensure (bytes.size = length ∧ fileSha256 bytes = sha256) .staging
  orError (root.putFile (pathOf path) bytes) .staging

def stageDirectories :
    List Path → FileTree ByteArray → Except GeneratorRunnerError (FileTree ByteArray)
  | [], root => .ok root
  | directory :: directories, root => do
    let root ← orError (root.mkdirAll directory) .staging
    stageDirectories directories root

def stageObjects (payloads : List RetainedPayload) :
    Nat → List InputObject → FileTree ByteArray → Except GeneratorRunnerError (FileTree ByteArray)
  | _, [], root => .ok root
  | position, object :: objects, root => do
    let payload ← orError payloads[position]? .staging
    ensure (payload.bytes.size = payload.byteLength) .staging
    let root ← stageFile fileSha256 root object.retainedContent.path payload.bytes
      object.retainedContent.byteLength object.retainedContent.sha256
    stageObjects payloads (position + 1) objects root

def stageDocuments : List (String × ByteArray) → FileTree ByteArray →
    Except GeneratorRunnerError (FileTree ByteArray)
  | [], root => .ok root
  | (path, bytes) :: documents, root => do
    let root ← stageFile fileSha256 root path bytes bytes.size (fileSha256 bytes)
    stageDocuments documents root

/-- The documents of an invocation, each with its path. -/
def stagedDocuments (inputs : ConstructedGeneratorInputs fileSha256) (request : GeneratorRequest) :
    List (String × ByteArray) :=
  [(request.inputManifest.path,
      (canonicalJson digests (InputManifest.codec.enc inputs.manifest)).toByteArray),
    (request.settings.content.path, inputs.settingsBytes),
    (requestPath, (canonicalJson digests (GeneratorRequest.codec.enc request)).toByteArray)]

/-- `stage`, with the directories of the layout in the order their set gives them. -/
def stage (inputs : ConstructedGeneratorInputs fileSha256) (request : GeneratorRequest)
    (layout : Layout) (order : List Path) (root : FileTree ByteArray) :
    Except GeneratorRunnerError (FileTree ByteArray) := do
  let root ← stageDirectories order root
  let root ← stageObjects fileSha256 inputs.payloads 0 inputs.manifest.objects root
  let root ← stageDocuments fileSha256 (stagedDocuments digests fileSha256 inputs request) root
  layout.verify root false
  return root

end Stage

/-! ## The paths of a layout -/

theorem pathOf_injective : Function.Injective pathOf := by
  intro a b h
  have hsegments := List.map_injective_iff.mpr (fun x y h => by
    simpa using congrArg String.toList h) h
  have ha : ['/'].intercalate (a.toList.splitOn '/') = a.toList := List.intercalate_splitOn '/'
  rw [hsegments, List.intercalate_splitOn] at ha
  exact String.toList_injective ha.symm

theorem pathOf_ne_nil (value : String) : pathOf value ≠ [] := by
  simp [pathOf, List.splitOn_ne_nil]

/-- One path leads to something below another. -/
def Above (p q : Path) : Prop := p <+: q ∧ p ≠ q

instance (p q : Path) : Decidable (Above p q) := inferInstanceAs (Decidable (_ ∧ _))

theorem insertPaths_ok {paths : List String} {files files' : Finset Path} :
    insertPaths paths files = .ok files' ↔
      paths.Nodup ∧ (∀ path ∈ paths, pathOf path ∉ files) ∧
        files' = files ∪ (paths.map pathOf).toFinset := by
  induction paths generalizing files with
  | nil =>
    simp only [insertPaths, Except.ok.injEq, List.nodup_nil, List.map_nil, List.toFinset_nil,
      Finset.union_empty, true_and, eq_comm]
    exact ⟨fun h => ⟨fun _ h => absurd h List.not_mem_nil, h⟩, fun h => h.2⟩
  | cons path paths ih =>
    rw [insertPaths]
    by_cases hmem : pathOf path ∈ files
    · rw [if_pos hmem]
      simp [hmem]
    · rw [if_neg hmem, ih]
      simp only [List.nodup_cons, Finset.mem_insert, not_or, List.mem_cons, forall_eq_or_imp, hmem,
        not_false_eq_true, true_and, List.map_cons, List.toFinset_cons, Finset.insert_union,
        Finset.union_insert]
      constructor
      · rintro ⟨hn, hout, rfl⟩
        exact ⟨⟨fun h => (hout path h).1 rfl, hn⟩, fun q hq => (hout q hq).2, rfl⟩
      · rintro ⟨⟨hnot, hn⟩, hout, rfl⟩
        refine ⟨hn, fun q hq => ⟨fun he => hnot ?_, hout q hq⟩, rfl⟩
        rw [← pathOf_injective he]
        exact hq

theorem above_iff_dropLast {p q : Path} : Above p q ↔ q ≠ [] ∧ p <+: q.dropLast := by
  constructor
  · rintro ⟨hle, hne⟩
    have hlength : p.length < q.length := by
      have := hle.length_le
      have : p.length ≠ q.length := fun he => hne (hle.eq_of_length he)
      omega
    refine ⟨by rintro rfl; simp at hlength, ?_⟩
    rw [List.prefix_iff_eq_take] at hle ⊢
    rw [List.dropLast_eq_take, List.take_take, Nat.min_eq_left (by omega)]
    exact hle
  · rintro ⟨hne, hle⟩
    refine ⟨hle.trans (List.dropLast_prefix q), ?_⟩
    rintro rfl
    have := hle.length_le
    rw [List.length_dropLast] at this
    have := List.length_pos_iff.mpr hne
    omega

theorem insertParents_ok {files : Finset Path} {n : Nat} {path : Path}
    {directories directories' : Finset Path} (hn : path.length ≤ n) :
    insertParents files n path directories = .ok directories' ↔
      (∀ p, p ≠ [] → Above p path → p ∉ files) ∧
        ∀ p, p ∈ directories' ↔ p ∈ directories ∨ (p ≠ [] ∧ Above p path) := by
  induction n generalizing path directories with
  | zero =>
    rw [List.length_eq_zero_iff.mp (Nat.le_zero.mp hn)]
    have hnone : ∀ p : Path, ¬ Above p [] := fun p h => (above_iff_dropLast.mp h).1 rfl
    simp only [insertParents, Except.ok.injEq, hnone, and_false, or_false, false_implies,
      implies_true, true_and]
    exact ⟨fun h p => by rw [h], fun h => (Finset.ext h).symm⟩
  | succ n ih =>
    rw [insertParents]
    by_cases hroot : path.dropLast = []
    · have hnone : ∀ p : Path, p ≠ [] → ¬ Above p path := by
        intro p hp h
        have := (above_iff_dropLast.mp h).2
        rw [hroot] at this
        exact hp (List.prefix_nil.mp this)
      rw [if_pos hroot]
      constructor
      · intro h
        cases h
        refine ⟨fun p hp h => absurd h (hnone p hp), fun p => ⟨.inl, fun h => ?_⟩⟩
        exact h.resolve_right fun h => hnone p h.1 h.2
      · rintro ⟨-, h⟩
        rw [Except.ok.injEq]
        refine Finset.ext fun p => ?_
        rw [h p]
        exact ⟨.inl, fun h => h.resolve_right fun h => hnone p h.1 h.2⟩
    · have hne : path ≠ [] := by
        rintro rfl
        exact hroot rfl
      -- what is above the path is its parent, or above its parent
      have hsplit : ∀ p, Above p path ↔ p = path.dropLast ∨ Above p path.dropLast := by
        intro p
        rw [above_iff_dropLast]
        constructor
        · rintro ⟨-, hle⟩
          by_cases he : p = path.dropLast
          · exact .inl he
          · exact .inr ⟨hle, he⟩
        · rintro (rfl | h)
          · exact ⟨hne, List.prefix_rfl⟩
          · exact ⟨hne, h.1⟩
      rw [if_neg hroot]
      by_cases hfile : path.dropLast ∈ files
      · rw [if_pos hfile]
        constructor
        · intro h
          cases h
        · rintro ⟨h, -⟩
          exact absurd hfile (h _ hroot ((hsplit _).mpr (.inl rfl)))
      · rw [if_neg hfile, ih (by rw [List.length_dropLast]; omega)]
        refine and_congr ⟨fun h p hp habove => ?_, fun h p hp habove => ?_⟩
          (forall_congr' fun p => ?_)
        · rcases (hsplit p).mp habove with rfl | habove
          · exact hfile
          · exact h p hp habove
        · exact h p hp ((hsplit p).mpr (.inr habove))
        · rw [hsplit p, Finset.mem_insert]
          have hiff : (p = path.dropLast ∨ p ∈ directories) ∨ p ≠ [] ∧ Above p path.dropLast ↔
              p ∈ directories ∨ p ≠ [] ∧ (p = path.dropLast ∨ Above p path.dropLast) := by
            by_cases he : p = path.dropLast
            · simp [he, hroot]
            · simp [he]
          rw [hiff]

theorem exists_insertParents {files : Finset Path} {path : Path} (directories : Finset Path)
    (h : ∀ p, p ≠ [] → Above p path → p ∉ files) :
    ∃ directories', insertParents files path.length path directories = .ok directories' := by
  refine ⟨directories ∪ path.inits.toFinset.filter fun p => p ≠ [] ∧ Above p path, ?_⟩
  refine (insertParents_ok (Nat.le_refl _)).mpr ⟨h, fun p => ?_⟩
  rw [Finset.mem_union, Finset.mem_filter, List.mem_toFinset, List.mem_inits]
  exact or_congr_right ⟨fun h => h.2, fun h => ⟨h.2.1, h⟩⟩

theorem insertAllParents_ok {files : Finset Path} {paths : List Path}
    {directories directories' : Finset Path} :
    insertAllParents files paths directories = .ok directories' ↔
      (∀ path ∈ paths, ∀ p, p ≠ [] → Above p path → p ∉ files) ∧
        ∀ p, p ∈ directories' ↔ p ∈ directories ∨ (p ≠ [] ∧ ∃ path ∈ paths, Above p path) := by
  induction paths generalizing directories with
  | nil =>
    simp only [insertAllParents, Except.ok.injEq, List.not_mem_nil, false_implies, implies_true,
      true_and, false_and, exists_false, and_false, or_false]
    exact ⟨fun h p => by rw [h], fun h => (Finset.ext h).symm⟩
  | cons path paths ih =>
    rw [insertAllParents, bind_ok]
    simp only [insertParents_ok (Nat.le_refl _), ih, List.forall_mem_cons, List.exists_mem_cons_iff]
    constructor
    · rintro ⟨middle, ⟨hpath, hmiddle⟩, hpaths, hall⟩
      refine ⟨⟨hpath, hpaths⟩, fun p => ?_⟩
      rw [hall p, hmiddle p, or_assoc, and_or_left]
    · rintro ⟨⟨hpath, hpaths⟩, hall⟩
      obtain ⟨middle, hmiddle⟩ := exists_insertParents directories hpath
      obtain ⟨-, hmem⟩ := (insertParents_ok (Nat.le_refl _)).mp hmiddle
      refine ⟨middle, ⟨hpath, hmem⟩, hpaths, fun p => ?_⟩
      rw [hall p, hmem p, or_assoc, and_or_left]

/-- What a layout is made of. -/
structure Layout.For (layout : Layout) (manifest : InputManifest) (request : GeneratorRequest) :
    Prop where
  files : ∀ p, p ∈ layout.files ↔ ∃ path ∈ declaredPaths manifest request, p = pathOf path
  directories : ∀ p, p ∈ layout.directories ↔ p ≠ [] ∧ ∃ file ∈ layout.files, Above p file
  candidate : layout.candidate = pathOf request.output.path

/-- The paths differ, and none is a segment prefix of another. -/
def Separate (paths : List String) : Prop :=
  paths.Nodup ∧ ∀ p ∈ paths, ∀ q ∈ paths, ¬ Above (pathOf p) (pathOf q)

theorem layout_new_ok {manifest : InputManifest} {request : GeneratorRequest} {layout : Layout} :
    Layout.new manifest request = .ok layout ↔
      Separate (declaredPaths manifest request) ∧ layout.For manifest request := by
  unfold Layout.new
  simp only [bind_ok, insertPaths_ok, insertAllParents_ok, Finset.notMem_empty, not_false_eq_true,
    implies_true, true_and, Finset.empty_union, false_or]
  constructor
  · rintro ⟨files, ⟨hnodup, rfl⟩, directories, ⟨habove, hdirectories⟩, h⟩
    cases h
    refine ⟨⟨hnodup, fun p hp q hq h => ?_⟩, ?_, ?_, rfl⟩
    · exact habove _ (List.mem_map_of_mem hq) _ (pathOf_ne_nil p) h
        (List.mem_toFinset.mpr (List.mem_map_of_mem hp))
    · intro p
      simp [eq_comm]
    · intro p
      rw [hdirectories p]
      simp
  · rintro ⟨⟨hnodup, hseparate⟩, hfor⟩
    have hfiles : layout.files = ((declaredPaths manifest request).map pathOf).toFinset := by
      refine Finset.ext fun p => ?_
      rw [hfor.files p]
      simp [eq_comm]
    refine ⟨_, ⟨hnodup, rfl⟩, layout.directories, ⟨?_, fun p => ?_⟩, ?_⟩
    · intro path hpath p _ habove hfile
      obtain ⟨q, hq, rfl⟩ := List.mem_map.mp hpath
      obtain ⟨p, hp, rfl⟩ := List.mem_map.mp (List.mem_toFinset.mp hfile)
      exact hseparate p hp q hq habove
    · rw [hfor.directories p, hfiles]
      simp
    · rw [← hfiles, ← hfor.candidate]
      rfl

theorem layout_new_iff {manifest : InputManifest} {request : GeneratorRequest} :
    (∃ layout, Layout.new manifest request = .ok layout) ↔
      Separate (declaredPaths manifest request) := by
  constructor
  · rintro ⟨layout, h⟩
    exact (layout_new_ok.mp h).1
  · intro h
    let files := ((declaredPaths manifest request).map pathOf).toFinset
    let directories := (((declaredPaths manifest request).map pathOf).flatMap
      List.inits).toFinset.filter fun p => p ≠ [] ∧ ∃ file ∈ files, Above p file
    refine ⟨⟨files, directories, pathOf request.output.path⟩,
      layout_new_ok.mpr ⟨h, fun p => ?_, fun p => ?_, rfl⟩⟩
    · simp [files, eq_comm]
    · simp only [directories, Finset.mem_filter, List.mem_toFinset, List.mem_flatMap,
        List.mem_inits]
      refine ⟨fun h => h.2, fun h => ⟨?_, h⟩⟩
      obtain ⟨-, file, hfile, habove⟩ := h
      exact ⟨file, List.mem_toFinset.mp hfile, habove.1⟩

/-! ## Verified trees -/

theorem mem_foldl_recordFile {order : List (Path × Kind ByteArray)} {files : Finset Path}
    {p : Path} : p ∈ order.foldl recordFile files ↔
      p ∈ files ∧ ∀ bytes, (p, Kind.file bytes) ∉ order := by
  induction order generalizing files with
  | nil => simp
  | cons e order ih =>
    obtain ⟨q, k⟩ := e
    rw [List.foldl_cons, ih]
    cases k with
    | file bytes =>
      simp only [recordFile, Finset.mem_erase, List.mem_cons, Prod.mk.injEq, Kind.file.injEq,
        not_or, not_and]
      constructor
      · rintro ⟨⟨hne, hp⟩, h⟩
        exact ⟨hp, fun bytes => ⟨fun he => absurd he hne, h bytes⟩⟩
      · rintro ⟨hp, h⟩
        exact ⟨⟨fun he => (h bytes).1 he rfl, hp⟩, fun bytes => (h bytes).2⟩
    | directory => simp [recordFile]
    | other => simp [recordFile]

/-- Every entry is declared, and of what must be there nothing is missing. -/
def Layout.Exact (layout : Layout) (root : FileTree ByteArray) (required : Path → Prop) : Prop :=
  (∀ e ∈ root.entries, layout.declares e = true) ∧
    ∀ p ∈ layout.files, required p → ∃ bytes, root.get? p = some (.file bytes)

theorem verify_iff {layout : Layout} {root : FileTree ByteArray} {resultRequired : Bool} :
    layout.verify root resultRequired = .ok () ↔
      layout.Exact root (fun p => p ≠ layout.candidate ∧
        (resultRequired = true ∨ p ≠ pathOf resultPath)) ∧
      (resultRequired = true ∨
        root.get? (pathOf resultPath) = none ∧ root.get? layout.candidate = none) := by
  have hfiles : ∀ p, (p ∈ if resultRequired = true then layout.files.erase layout.candidate
      else (layout.files.erase layout.candidate).erase (pathOf resultPath)) ↔
      p ∈ layout.files ∧ p ≠ layout.candidate ∧ (resultRequired = true ∨ p ≠ pathOf resultPath) := by
    intro p
    cases resultRequired <;> simp [and_comm, and_left_comm, and_assoc]
  rw [Layout.verify, bind_ok]
  simp only [seq_ok, ensure_ok, orError_ok]
  generalize (if resultRequired = true then layout.files.erase layout.candidate
    else (layout.files.erase layout.candidate).erase (pathOf resultPath)) = files at hfiles
  rcases root.walk_eq layout.declares recordFile files with
    ⟨order, hperm, hall, hwalk⟩ | ⟨⟨e, he, hbad⟩, hwalk⟩
  · rw [hwalk]
    simp only [Option.some.injEq, exists_eq_left']
    refine and_congr ?_ Iff.rfl
    have hmem : ∀ p, p ∈ order.foldl recordFile files ↔
        (p ∈ layout.files ∧ p ≠ layout.candidate ∧
          (resultRequired = true ∨ p ≠ pathOf resultPath)) ∧
        ∀ bytes, root.get? p ≠ some (.file bytes) := by
      intro p
      rw [mem_foldl_recordFile, hfiles]
      refine and_congr_right fun _ => forall_congr' fun bytes => not_congr ?_
      rw [hperm.mem_iff, FileTree.get?_eq_some]
    rw [Finset.eq_empty_iff_forall_notMem, Layout.Exact]
    constructor
    · intro h
      refine ⟨hall, fun p hp hrequired => ?_⟩
      by_contra hnone
      rw [not_exists] at hnone
      exact h p ((hmem p).mpr ⟨⟨hp, hrequired⟩, hnone⟩)
    · rintro ⟨-, h⟩ p hp
      obtain ⟨⟨hfile, hrequired⟩, hnone⟩ := (hmem p).mp hp
      obtain ⟨bytes, hbytes⟩ := h p hfile hrequired
      exact hnone bytes hbytes
  · rw [hwalk]
    simp only [reduceCtorEq, false_and, exists_const, false_iff, not_and]
    rintro ⟨hall, -⟩
    rw [hall e he] at hbad
    cases hbad

/-! ## Staged trees -/

section Staged

variable {digests : Digests} {fileSha256 : ByteArray → String} {manifest : InputManifest}
  {request : GeneratorRequest} {layout : Layout}

/-- The directories of a layout, and the files that are there so far. -/
def Staged (layout : Layout) (files : List (String × ByteArray)) (root : FileTree ByteArray) :
    Prop :=
  ∀ p k, root.get? p = some k ↔
    (k = .directory ∧ p ∈ layout.directories) ∨
      ∃ file ∈ files, p = pathOf file.1 ∧ k = .file file.2

theorem stageDirectories_ok (order : List Path) {root : FileTree ByteArray}
    (hroot : ∀ p, root.get? p = none ∨ root.get? p = some .directory) :
    ∃ root', stageDirectories order root = .ok root' ∧
      ∀ p, root'.get? p = if ∃ d ∈ order, p <+: d ∧ p ≠ [] then some .directory
        else root.get? p := by
  induction order generalizing root with
  | nil => exact ⟨root, rfl, fun p => by simp⟩
  | cons d order ih =>
    obtain ⟨middle, hmiddle, hget⟩ := FileTree.mkdirAll_some (p := d) fun q _ _ => hroot q
    have honly : ∀ p, middle.get? p = none ∨ middle.get? p = some .directory := by
      intro p
      rw [hget]
      split
      · exact .inr rfl
      · exact hroot p
    obtain ⟨root', hroot', hget'⟩ := ih honly
    refine ⟨root', ?_, fun p => ?_⟩
    · rw [stageDirectories, hmiddle]
      exact hroot'
    · rw [hget', hget]
      simp only [List.exists_mem_cons_iff]
      by_cases hd : p <+: d ∧ p ≠ []
      · simp [hd]
      · simp [hd]

/-- The parents of a file are among the directories, and the file is not. -/
theorem Layout.For.above (hfor : layout.For manifest request)
    (hseparate : Separate (declaredPaths manifest request)) {path : String}
    (hpath : path ∈ declaredPaths manifest request) :
    pathOf path ∉ layout.directories ∧
      ∀ q, Above q (pathOf path) → q ≠ [] → q ∈ layout.directories := by
  constructor
  · intro hdir
    obtain ⟨-, file, hfile, habove⟩ := (hfor.directories _).mp hdir
    obtain ⟨other, hother, rfl⟩ := (hfor.files file).mp hfile
    exact hseparate.2 path hpath other hother habove
  · intro q habove hne
    exact (hfor.directories q).mpr
      ⟨hne, pathOf path, (hfor.files _).mpr ⟨path, hpath, rfl⟩, habove⟩

variable (fileSha256) in
theorem stageFile_ok (hfor : layout.For manifest request)
    (hseparate : Separate (declaredPaths manifest request)) {files : List (String × ByteArray)}
    {root : FileTree ByteArray} (hstaged : Staged layout files root) {path : String}
    (hpath : path ∈ declaredPaths manifest request) (hnew : path ∉ files.map Prod.fst)
    (bytes : ByteArray) :
    ∃ root', stageFile fileSha256 root path bytes bytes.size (fileSha256 bytes) = .ok root' ∧
      Staged layout (files ++ [(path, bytes)]) root' := by
  obtain ⟨hnotDir, hparents⟩ := hfor.above hseparate hpath
  have hdir : ∀ q, q <+: (pathOf path).dropLast → q ≠ [] → root.get? q = some .directory := by
    intro q hq hne
    refine (hstaged q _).mpr (.inl ⟨rfl, hparents q ?_ hne⟩)
    exact above_iff_dropLast.mpr ⟨pathOf_ne_nil path, hq⟩
  obtain ⟨middle, hmiddle, hsame⟩ := FileTree.mkdirAll_some fun q hq hne => .inr (hdir q hq hne)
  have hget : ∀ q, middle.get? q = root.get? q := by
    intro q
    rw [hsame]
    split
    · rename_i hq
      exact (hdir q hq.1 hq.2).symm
    · rfl
  have hnone : middle.get? (pathOf path) = none := by
    rw [hget, Option.eq_none_iff_forall_ne_some]
    intro k hk
    rcases (hstaged _ k).mp hk with ⟨-, hd⟩ | ⟨file, hfile, he, -⟩
    · exact hnotDir hd
    · exact hnew (List.mem_map.mpr ⟨file, hfile, (pathOf_injective he).symm⟩)
  have hparent : middle.isDirectory (pathOf path).dropLast := by
    by_cases hroot : (pathOf path).dropLast = []
    · exact .inl hroot
    · exact .inr ((hget _).trans (hdir _ List.prefix_rfl hroot))
  obtain ⟨root', hroot', hget'⟩ := FileTree.putFile_some (pathOf_ne_nil path) hnone hparent
  refine ⟨root', ?_, fun p k => ?_⟩
  · rw [stageFile, hmiddle]
    exact seq_ok.mpr ⟨ensure_ok.mpr ⟨rfl, rfl⟩, orError_ok.mpr hroot'⟩
  · rw [hget' p]
    simp only [List.mem_append, List.mem_singleton]
    by_cases hp : p = pathOf path
    · subst hp
      rw [if_pos rfl]
      constructor
      · intro h
        cases h
        exact .inr ⟨(path, bytes), .inr rfl, rfl, rfl⟩
      · rintro (⟨-, hd⟩ | ⟨file, hfile | rfl, he, rfl⟩)
        · exact absurd hd hnotDir
        · exact absurd (List.mem_map.mpr ⟨file, hfile, (pathOf_injective he).symm⟩) hnew
        · rfl
    · rw [if_neg hp, hget, hstaged p k]
      refine or_congr_right ⟨?_, ?_⟩
      · rintro ⟨file, hfile, he⟩
        exact ⟨file, .inl hfile, he⟩
      · rintro ⟨file, hfile | rfl, he⟩
        · exact ⟨file, hfile, he⟩
        · exact absurd he.1 hp

variable (fileSha256) in
theorem stageDocuments_ok (hfor : layout.For manifest request)
    (hseparate : Separate (declaredPaths manifest request))
    {documents files : List (String × ByteArray)} {root : FileTree ByteArray}
    (hstaged : Staged layout files root)
    (hpaths : ∀ file ∈ documents, file.1 ∈ declaredPaths manifest request)
    (hnew : ((files ++ documents).map Prod.fst).Nodup) :
    ∃ root', stageDocuments fileSha256 documents root = .ok root' ∧
      Staged layout (files ++ documents) root' := by
  induction documents generalizing files root with
  | nil =>
    rw [List.append_nil]
    exact ⟨root, rfl, hstaged⟩
  | cons file documents ih =>
    obtain ⟨path, bytes⟩ := file
    have hfresh : path ∉ files.map Prod.fst := by
      rw [List.map_append, List.nodup_append] at hnew
      exact fun h => hnew.2.2 path h path List.mem_cons_self rfl
    obtain ⟨middle, hmiddle, hstaged'⟩ := stageFile_ok fileSha256 hfor hseparate hstaged
      (hpaths _ List.mem_cons_self) hfresh bytes
    have happend : files ++ (path, bytes) :: documents =
        (files ++ [(path, bytes)]) ++ documents := by simp
    rw [happend] at hnew ⊢
    obtain ⟨root', hroot', hfinal⟩ := ih hstaged'
      (fun f hf => hpaths f (List.mem_cons_of_mem _ hf)) hnew
    refine ⟨root', ?_, hfinal⟩
    rw [stageDocuments, hmiddle]
    exact hroot'

/-- The geometry of the objects, each with its path. -/
def stagedPayloads (payloads : List RetainedPayload) (objects : List InputObject) :
    List (String × ByteArray) :=
  (payloads.zip objects).map fun p => (p.2.retainedContent.path, p.1.bytes)

/-- Payloads that are what the manifest declares are staged as they are. -/
theorem stageObjects_eq {payloads : List RetainedPayload} {objects : List InputObject}
    {position : Nat} {root : FileTree ByteArray}
    (h : List.Forall₂ (RetainedPayload.Matches fileSha256) (payloads.drop position) objects) :
    stageObjects fileSha256 payloads position objects root =
      stageDocuments fileSha256 (stagedPayloads (payloads.drop position) objects) root := by
  induction objects generalizing position root with
  | nil =>
    rw [stageObjects, stagedPayloads, List.zip_nil_right]
    rfl
  | cons object objects ih =>
    cases hdrop : payloads.drop position with
    | nil =>
      rw [hdrop] at h
      cases h
    | cons payload rest =>
      rw [hdrop] at h
      obtain ⟨⟨hsize, hsha, hlength, hcontent⟩, hrest⟩ := List.forall₂_cons.mp h
      have hhead : payloads[position]? = some payload := by
        rw [← List.head?_drop, hdrop]
        rfl
      have htail : payloads.drop (position + 1) = rest := by
        rw [← List.tail_drop, hdrop]
        rfl
      have hlength' : object.retainedContent.byteLength = payload.bytes.size := by
        rw [← hlength, hsize]
      have hcontent' : object.retainedContent.sha256 = fileSha256 payload.bytes := by
        rw [← hcontent, hsha]
      have hok : (ensure (payload.bytes.size = payload.byteLength) .staging :
          Except GeneratorRunnerError Unit) = .ok () := ensure_ok.mpr hsize
      rw [stageObjects, hhead, orError]
      simp only [stagedPayloads, List.zip_cons_cons, List.map_cons, stageDocuments, hlength',
        hcontent', hok, bind, Except.bind]
      cases stageFile fileSha256 root object.retainedContent.path payload.bytes
        payload.bytes.size (fileSha256 payload.bytes) with
      | error e => rfl
      | ok middle =>
        simp only
        rw [ih (by rw [htail]; exact hrest), htail]
        rfl

theorem stageDocuments_append {first second : List (String × ByteArray)}
    {root : FileTree ByteArray} :
    stageDocuments fileSha256 (first ++ second) root =
      (stageDocuments fileSha256 first root).bind (stageDocuments fileSha256 second) := by
  induction first generalizing root with
  | nil => rfl
  | cons file first ih =>
    rw [List.cons_append, stageDocuments, stageDocuments]
    simp only [bind]
    cases stageFile fileSha256 root file.1 file.2 file.2.size (fileSha256 file.2) with
    | error e => rfl
    | ok middle => exact ih

variable (digests) in
/-- Everything that is staged, each file with its path. -/
def stagedFiles (inputs : ConstructedGeneratorInputs fileSha256) (request : GeneratorRequest) :
    List (String × ByteArray) :=
  stagedPayloads inputs.payloads inputs.manifest.objects ++
    stagedDocuments digests fileSha256 inputs request

theorem stagedFiles_paths (inputs : ConstructedGeneratorInputs fileSha256)
    (request : GeneratorRequest) : (stagedFiles digests inputs request).map Prod.fst =
      (inputs.manifest.objects.map fun o => o.retainedContent.path) ++
        [request.inputManifest.path, request.settings.content.path, requestPath] := by
  rw [stagedFiles, List.map_append, stagedPayloads, List.map_map]
  congr 1
  have hlength := inputs.retained.length_eq
  have : (Prod.fst ∘ fun p : RetainedPayload × InputObject =>
      (p.2.retainedContent.path, p.1.bytes)) = (fun o => o.retainedContent.path) ∘ Prod.snd := rfl
  rw [this, ← List.map_map, List.map_snd_zip (by omega)]

variable (digests) in
/-- The declared files are those that are staged, the result and the candidate. -/
theorem declaredPaths_perm (inputs : ConstructedGeneratorInputs fileSha256)
    (request : GeneratorRequest) : (declaredPaths inputs.manifest request).Perm
      (resultPath :: request.output.path :: (stagedFiles digests inputs request).map Prod.fst) := by
  rw [stagedFiles_paths, declaredPaths]
  generalize (inputs.manifest.objects.map fun o => o.retainedContent.path) = objects
  rw [List.perm_iff_count]
  intro path
  simp only [List.cons_append, List.nil_append, List.count_cons, List.count_append, List.count_nil]
  omega

/-- What staging makes of an empty root. -/
structure StagedRoot (digests : Digests) (inputs : ConstructedGeneratorInputs fileSha256)
    (request : GeneratorRequest) (layout : Layout) (root : FileTree ByteArray) : Prop where
  directories : ∀ p, root.get? p = some .directory ↔ p ∈ layout.directories
  files : ∀ p, (∃ bytes, root.get? p = some (.file bytes)) ↔
    p ∈ layout.files ∧ p ≠ pathOf resultPath ∧ p ≠ layout.candidate
  regular : ∀ p, root.get? p ≠ some .other
  contents : ∀ file ∈ stagedFiles digests inputs request,
    root.get? (pathOf file.1) = some (.file file.2)
  verified : layout.verify root false = .ok ()

theorem stage_ok {inputs : ConstructedGeneratorInputs fileSha256}
    (hnew : Layout.new inputs.manifest request = .ok layout) {order : List Path}
    (horder : ∀ p, p ∈ order ↔ p ∈ layout.directories) :
    ∃ root, stage digests fileSha256 inputs request layout order .empty = .ok root ∧
      StagedRoot digests inputs request layout root := by
  obtain ⟨hseparate, hfor⟩ := layout_new_ok.mp hnew
  have hperm := declaredPaths_perm digests inputs request
  have hnodup := hperm.nodup_iff.mp hseparate.1
  simp only [List.nodup_cons, List.mem_cons, not_or] at hnodup
  obtain ⟨⟨hresult, hresultFile⟩, hcandidate, hfiles⟩ := hnodup
  obtain ⟨bare, hbare, hget⟩ := stageDirectories_ok order fun p => .inl (FileTree.get?_empty p)
  have hbelow : ∀ p, (∃ d ∈ order, p <+: d ∧ p ≠ []) ↔ p ∈ layout.directories := by
    intro p
    constructor
    · rintro ⟨d, hd, hle, hne⟩
      obtain ⟨-, file, hfile, habove⟩ := (hfor.directories d).mp ((horder d).mp hd)
      refine (hfor.directories p).mpr ⟨hne, file, hfile, hle.trans habove.1, ?_⟩
      rintro rfl
      exact habove.2 (habove.1.eq_of_length_le hle.length_le)
    · intro hp
      exact ⟨p, (horder p).mpr hp, List.prefix_rfl, ((hfor.directories p).mp hp).1⟩
  have hempty : Staged layout [] bare := by
    intro p k
    rw [hget, FileTree.get?_empty]
    simp only [hbelow]
    by_cases hp : p ∈ layout.directories
    · simp [hp, eq_comm]
    · simp [hp]
  have hpaths : ∀ file ∈ stagedFiles digests inputs request,
      file.1 ∈ declaredPaths inputs.manifest request := by
    intro file hfile
    refine hperm.mem_iff.mpr ?_
    exact List.mem_cons_of_mem _ (List.mem_cons_of_mem _ (List.mem_map_of_mem hfile))
  obtain ⟨root, hroot, hstaged⟩ := stageDocuments_ok fileSha256 hfor hseparate hempty
    hpaths (by rw [List.nil_append]; exact hfiles)
  rw [List.nil_append] at hstaged
  have hfileIff : ∀ p, (∃ file ∈ stagedFiles digests inputs request, p = pathOf file.1) ↔
      p ∈ layout.files ∧ p ≠ pathOf resultPath ∧ p ≠ layout.candidate := by
    intro p
    rw [hfor.files p, hfor.candidate]
    constructor
    · rintro ⟨file, hfile, rfl⟩
      have hmem : file.1 ∈ (stagedFiles digests inputs request).map Prod.fst :=
        List.mem_map_of_mem hfile
      refine ⟨⟨file.1, hpaths file hfile, rfl⟩, fun he => ?_, fun he => ?_⟩
      · exact hresultFile (pathOf_injective he ▸ hmem)
      · exact hcandidate (pathOf_injective he ▸ hmem)
    · rintro ⟨⟨path, hpath, rfl⟩, hne, hne'⟩
      have hmem := hperm.mem_iff.mp hpath
      simp only [List.mem_cons] at hmem
      rcases hmem with rfl | rfl | hmem
      · exact absurd rfl hne
      · exact absurd rfl hne'
      · obtain ⟨file, hfile, rfl⟩ := List.mem_map.mp hmem
        exact ⟨file, hfile, rfl⟩
  have hfile : ∀ p, (∃ bytes, root.get? p = some (.file bytes)) ↔
      p ∈ layout.files ∧ p ≠ pathOf resultPath ∧ p ≠ layout.candidate := by
    intro p
    rw [← hfileIff p]
    constructor
    · rintro ⟨bytes, hbytes⟩
      rcases (hstaged p _).mp hbytes with ⟨h, -⟩ | ⟨file, hfile, he, -⟩
      · cases h
      · exact ⟨file, hfile, he⟩
    · rintro ⟨file, hfile, he⟩
      exact ⟨file.2, (hstaged p _).mpr (.inr ⟨file, hfile, he, rfl⟩)⟩
  have hdirectory : ∀ p, root.get? p = some .directory ↔ p ∈ layout.directories := by
    intro p
    rw [hstaged p]
    simp
  have hregular : ∀ p, root.get? p ≠ some .other := by
    intro p h
    rcases (hstaged p _).mp h with ⟨h, -⟩ | ⟨file, -, -, h⟩ <;> cases h
  have habsent : ∀ p ∈ layout.files, p = pathOf resultPath ∨ p = layout.candidate →
      root.get? p = none := by
    intro p hp hor
    rw [Option.eq_none_iff_forall_ne_some]
    rintro (_ | bytes | _) h
    · obtain ⟨path, hpath, rfl⟩ := (hfor.files p).mp hp
      exact (hfor.above hseparate hpath).1 ((hdirectory _).mp h)
    · obtain ⟨-, hne, hne'⟩ := (hfile p).mp ⟨bytes, h⟩
      exact hor.elim hne hne'
    · exact hregular p h
  have hverified : layout.verify root false = .ok () := by
    refine verify_iff.mpr ⟨⟨fun e he => ?_, fun p hp hrequired => ?_⟩, .inr ⟨?_, ?_⟩⟩
    · obtain ⟨p, k⟩ := e
      have hget := FileTree.get?_eq_some.mpr he
      cases k with
      | directory => exact decide_eq_true ((hdirectory p).mp hget)
      | file bytes => exact decide_eq_true ((hfile p).mp ⟨bytes, hget⟩).1
      | other => exact absurd hget (hregular p)
    · exact (hfile p).mpr ⟨hp, hrequired.2.resolve_left Bool.false_ne_true, hrequired.1⟩
    · exact habsent _ ((hfor.files _).mpr ⟨resultPath, by simp [declaredPaths], rfl⟩) (.inl rfl)
    · refine habsent _ ((hfor.files _).mpr ⟨request.output.path, ?_, hfor.candidate⟩) (.inr rfl)
      simp [declaredPaths]
  refine ⟨root, ?_, hdirectory, hfile, hregular, ?_, hverified⟩
  · rw [stage, hbare]
    simp only [bind, Except.bind]
    rw [stageObjects_eq (by rw [List.drop_zero]; exact inputs.retained), List.drop_zero]
    rw [stagedFiles, stageDocuments_append] at hroot
    cases hobjects : stageDocuments fileSha256
        (stagedPayloads inputs.payloads inputs.manifest.objects) bare with
    | error e =>
      rw [hobjects] at hroot
      cases hroot
    | ok middle =>
      rw [hobjects] at hroot
      have hlast : stageDocuments fileSha256 (stagedDocuments digests fileSha256 inputs request)
          middle = .ok root := hroot
      simp only [hlast, hverified]
      rfl
  · intro file hfile
    exact (hstaged _ _).mpr (.inr ⟨file, hfile, rfl, rfl⟩)

end Staged

end Runner
end OnshapeExport
