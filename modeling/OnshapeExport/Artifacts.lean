import OnshapeExport.Jobs

/-!
# Artifacts

The `artifact_sets` and `artifact_files` tables of `db.rs` and the statements of the export path.
A call that writes more than one statement is a transaction: it returns the tables it commits, or
an error and nothing.

* `stageArtifact` — puts a set (back) to `staged` and replaces its files.
* `markArtifactSetReady`, `transitionArtifactSetStatus`, `supersedeArtifactSet` — one set.
* `supersedeReadyArtifactsForOutput` — the ready sets of one output, but for the retained one.
-/

namespace OnshapeExport

open Relational

inductive DbError where
  | protocol (message : String)
  | constraint
deriving DecidableEq, Repr

namespace Artifacts

inductive ArtifactStatus where
  | staged
  | uploadFailed
  | ready
  | superseded
deriving DecidableEq, Repr

/-- `metadata_json`, as the structure it serializes. -/
structure ArtifactMetadata where
  modelSlug : String
  producingJobKey : Option String
  parameterSchemaVersion : Option Int
  configValuesJson : Option String
deriving DecidableEq, Repr

/-- A row of `artifact_sets`. -/
structure ArtifactSet where
  artifactSetHash : String
  sourceHash : String
  configHash : String
  optionsHash : String
  requestHash : Option String
  rawPayloadHash : Option String
  postprocessHash : Option String
  generatorProcessingHash : Option String
  outputKind : String
  format : String
  status : ArtifactStatus
  primaryObjectKey : Option String
  metadataJson : ArtifactMetadata
  createdAt : Timestamp
  updatedAt : Timestamp
  supersededAt : Option Timestamp
  supersededBy : Option String
  supersessionReason : Option String
deriving DecidableEq, Repr

/-- A row of `artifact_files`, and what a caller inserts. -/
structure ArtifactFile where
  artifactSetHash : String
  role : String
  logicalPath : String
  originalPath : Option String
  objectKey : String
  contentType : String
  byteLen : Int
  sha256 : String
  metadataJson : String
deriving DecidableEq, Repr

/-- What a publication of one output competes with. -/
structure OutputKey where
  sourceHash : String
  configHash : String
  optionsHash : String
  outputKind : String
deriving DecidableEq, Repr

def ArtifactSet.outputKey (r : ArtifactSet) : OutputKey :=
  ⟨r.sourceHash, r.configHash, r.optionsHash, r.outputKind⟩

/-- The three supersession columns are `NULL`. -/
def ArtifactSet.Unsuperseded (r : ArtifactSet) : Prop :=
  r.supersededAt = none ∧ r.supersededBy = none ∧ r.supersessionReason = none

instance (r : ArtifactSet) : Decidable r.Unsuperseded := by
  unfold ArtifactSet.Unsuperseded; infer_instance

instance : Schema ArtifactSet String where
  key := ArtifactSet.artifactSetHash
  clash a b := a.artifactSetHash = b.artifactSetHash
  clash_of_key h := h
  clash_symm h := h.symm

instance : DecidableRel (Schema.clash (α := ArtifactSet)) := fun a b =>
  inferInstanceAs (Decidable (a.artifactSetHash = b.artifactSetHash))

/-- `PRIMARY KEY (artifact_set_hash, role, logical_path)`, and `object_key` is `UNIQUE`. -/
instance : Schema ArtifactFile (String × String × String) where
  key f := (f.artifactSetHash, f.role, f.logicalPath)
  clash a b := (a.artifactSetHash, a.role, a.logicalPath) = (b.artifactSetHash, b.role, b.logicalPath)
    ∨ a.objectKey = b.objectKey
  clash_of_key h := .inl h
  clash_symm h := h.imp Eq.symm Eq.symm

instance : DecidableRel (Schema.clash (α := ArtifactFile)) := fun a b =>
  inferInstanceAs (Decidable ((a.artifactSetHash, a.role, a.logicalPath) =
    (b.artifactSetHash, b.role, b.logicalPath) ∨ a.objectKey = b.objectKey))

structure ArtifactTables where
  sets : Table ArtifactSet
  files : Table ArtifactFile

def ArtifactTables.empty : ArtifactTables := ⟨.empty, .empty⟩

def ArtifactTables.updateSets (t : ArtifactTables) (p : ArtifactSet → Bool)
    (f : ArtifactSet → ArtifactSet) (hf : Preserves f) : ArtifactTables :=
  { t with sets := t.sets.update p f hf }

/-- The files recorded for a set. -/
def ArtifactTables.filesOf (t : ArtifactTables) (artifactSetHash : String) : List ArtifactFile :=
  t.files.rows.filter fun f => f.artifactSetHash = artifactSetHash

structure ArtifactUpsert where
  artifactKey : String
  modelSlug : String
  configHash : String
  outputKind : String
  format : String
  objectKey : String
  producingJobKey : Option String
  sourceHash : String
  optionsHash : String
  requestHash : Option String
  rawPayloadHash : Option String
  postprocessHash : Option String
  generatorProcessingHash : Option String
  parameterSchemaVersion : Int
  configValuesJson : String
deriving DecidableEq, Repr

def ArtifactUpsert.outputKey (a : ArtifactUpsert) : OutputKey :=
  ⟨a.sourceHash, a.configHash, a.optionsHash, a.outputKind⟩

/-! ## The statements -/

/-- The row an upsert stages, whether it inserts or takes over an existing row. -/
def stagedSet (now : Timestamp) (a : ArtifactUpsert) : ArtifactSet where
  artifactSetHash := a.artifactKey
  sourceHash := a.sourceHash
  configHash := a.configHash
  optionsHash := a.optionsHash
  requestHash := a.requestHash
  rawPayloadHash := a.rawPayloadHash
  postprocessHash := a.postprocessHash
  generatorProcessingHash := a.generatorProcessingHash
  outputKind := a.outputKind
  format := a.format
  status := .staged
  primaryObjectKey := some a.objectKey
  metadataJson := ⟨a.modelSlug, a.producingJobKey, some a.parameterSchemaVersion,
    some a.configValuesJson⟩
  createdAt := now
  updatedAt := now
  supersededAt := none
  supersededBy := none
  supersessionReason := none

/-- The row of the key is there and may be staged again. -/
def restageable (a : ArtifactUpsert) (r : ArtifactSet) : Bool :=
  r.artifactSetHash = a.artifactKey && r.generatorProcessingHash.isNone &&
    a.generatorProcessingHash.isNone

/-- `INSERT … ON CONFLICT(artifact_set_hash) DO UPDATE … WHERE`, and whether it wrote a row. -/
def upsertSet (now : Timestamp) (a : ArtifactUpsert) (sets : Table ArtifactSet) :
    Bool × Table ArtifactSet :=
  match sets.insert? (stagedSet now a) with
  | some sets' => (true, sets')
  | none =>
    (sets.affected (restageable a) != 0,
     sets.update (restageable a)
       (fun r => { stagedSet now a with artifactSetHash := r.artifactSetHash })
       ⟨fun _ => rfl, fun _ _ => .rfl⟩)

def insertFiles (files : List ArtifactFile) (t : Table ArtifactFile) :
    Except DbError (Table ArtifactFile) :=
  match files with
  | [] => .ok t
  | f :: files =>
    match t.insert? f with
    | none => .error .constraint
    | some t' => insertFiles files t'

def stageArtifactInner (now : Timestamp) (a : ArtifactUpsert) (files : List ArtifactFile)
    (t : ArtifactTables) : Except DbError ArtifactTables :=
  match upsertSet now a t.sets with
  | (false, _) =>
    .error (.protocol ("immutable generator artifact conflict for " ++ a.artifactKey))
  | (true, sets) =>
    match insertFiles files (t.files.delete fun f => f.artifactSetHash = a.artifactKey) with
    | .error e => .error e
    | .ok files => .ok ⟨sets, files⟩

def stageArtifact (now : Timestamp) (a : ArtifactUpsert) (files : List ArtifactFile)
    (t : ArtifactTables) : Except DbError ArtifactTables :=
  if a.generatorProcessingHash.isSome then
    .error (.protocol "generator artifacts must use prepared-recipe staging")
  else stageArtifactInner now a files t

/-- `WHERE artifact_set_hash = ?`. -/
def isSet (artifactSetHash : String) (r : ArtifactSet) : Bool :=
  r.artifactSetHash = artifactSetHash

def readySet (now : Timestamp) (primaryObjectKey : String) (r : ArtifactSet) : ArtifactSet :=
  { r with status := .ready, primaryObjectKey := some primaryObjectKey, updatedAt := now }

def markArtifactSetReady (now : Timestamp) (artifactSetHash primaryObjectKey : String)
    (t : ArtifactTables) : Bool × ArtifactTables :=
  (t.sets.affected (isSet artifactSetHash) == 1,
   t.updateSets (isSet artifactSetHash) (readySet now primaryObjectKey)
     ⟨fun _ => rfl, fun _ _ => .rfl⟩)

def transitionArtifactSetStatus (now : Timestamp) (artifactSetHash : String)
    (status : ArtifactStatus) (t : ArtifactTables) : Bool × ArtifactTables :=
  (t.sets.affected (isSet artifactSetHash) == 1,
   t.updateSets (isSet artifactSetHash)
     (fun r => { r with status := status, updatedAt := now })
     ⟨fun _ => rfl, fun _ _ => .rfl⟩)

/-- The assignments of both supersessions. -/
def supersededSet (now : Timestamp) (by_ reason : Option String) (r : ArtifactSet) : ArtifactSet :=
  { r with status := .superseded, supersededAt := some now, supersededBy := by_,
           supersessionReason := reason, updatedAt := now }

def supersedeArtifactSet (now : Timestamp) (artifactSetHash : String)
    (supersededBy supersessionReason : Option String) (t : ArtifactTables) :
    Bool × ArtifactTables :=
  let p : ArtifactSet → Bool := fun r => isSet artifactSetHash r && r.status ≠ .superseded
  (t.sets.affected p == 1,
   t.updateSets p (supersededSet now supersededBy supersessionReason)
     ⟨fun _ => rfl, fun _ _ => .rfl⟩)

/-- The ready sets of an output other than the retained one. -/
def replacedBy (key : OutputKey) (retained : String) (r : ArtifactSet) : Bool :=
  r.outputKey = key && r.status = .ready && r.artifactSetHash ≠ retained

def supersedeReadyArtifactsForOutput (now : Timestamp) (key : OutputKey)
    (retainedArtifactSetHash : String) (supersessionReason : Option String) (t : ArtifactTables) :
    Nat × ArtifactTables :=
  (t.sets.affected (replacedBy key retainedArtifactSetHash),
   t.updateSets (replacedBy key retainedArtifactSetHash)
     (supersededSet now (some retainedArtifactSetHash) supersessionReason)
     ⟨fun _ => rfl, fun _ _ => .rfl⟩)

/-- `ORDER BY created_at DESC, artifact_set_hash DESC`. -/
def newerSet (a b : ArtifactSet) : Bool :=
  b.createdAt < a.createdAt || a.createdAt = b.createdAt && b.artifactSetHash < a.artifactSetHash

def latestReadyArtifactForRequest (requestHash : String) (t : ArtifactTables) :
    Option ArtifactSet :=
  let ready := t.sets.rows.filter fun r => r.requestHash = some requestHash && r.status = .ready
  ready.foldl (fun best r =>
    match best with
    | none => some r
    | some b => if newerSet r b then some r else some b) none

/-! ## What one statement does -/

@[simp] theorem find?_updateSets {t : ArtifactTables} {p : ArtifactSet → Bool}
    {f : ArtifactSet → ArtifactSet} {hf : Preserves f} (h : String) :
    (t.updateSets p f hf).sets.find? h = (t.sets.find? h).map fun r => if p r then f r else r :=
  Table.find?_update hf h

@[simp] theorem files_updateSets {t : ArtifactTables} {p : ArtifactSet → Bool}
    {f : ArtifactSet → ArtifactSet} {hf : Preserves f} : (t.updateSets p f hf).files = t.files :=
  rfl

/-- An upsert that wrote a row left the staged one, over no generator row. -/
theorem upsertSet_true {now : Timestamp} {a : ArtifactUpsert} {t t' : Table ArtifactSet}
    (h : upsertSet now a t = (true, t')) :
    (∀ k, t'.find? k = if k = a.artifactKey then some (stagedSet now a) else t.find? k) ∧
      ∀ r, t.find? a.artifactKey = some r → r.generatorProcessingHash = none := by
  unfold upsertSet at h
  cases hi : t.insert? (stagedSet now a) with
  | some sets =>
    rw [hi] at h
    cases h
    refine ⟨fun k => ?_, fun r hr => ?_⟩
    · rw [Table.find?_of_insert? hi]
      by_cases hk : k = a.artifactKey
      · subst hk; exact (if_pos rfl).trans (if_pos rfl).symm
      · rw [if_neg hk]; exact if_neg fun he => hk he.symm
    · obtain ⟨hr, hk⟩ := Table.find?_eq_some.mp hr
      exact absurd hk ((Table.insert?_eq_some hi).2 r hr)
  | none =>
    rw [hi] at h
    obtain ⟨r, hr, hc⟩ := Table.insert?_eq_none.mp hi
    have hfind : t.find? a.artifactKey = some r := Table.find?_eq_some.mpr ⟨hr, hc⟩
    simp only [Prod.mk.injEq, bne_iff_ne] at h
    obtain ⟨haff, rfl⟩ := h
    -- the statement touched a row, and only the row of the key can match
    obtain ⟨r', hr', hp⟩ : ∃ r' ∈ t.rows, restageable a r' = true := by
      rw [← List.countP_pos_iff]
      exact Nat.pos_of_ne_zero haff
    have hkey : r'.artifactSetHash = a.artifactKey := by
      simp only [restageable, Bool.and_eq_true, decide_eq_true_eq] at hp; exact hp.1.1
    have hrr : r' = r := by
      have := Table.find?_eq_some.mpr ⟨hr', hkey⟩
      rw [hfind] at this; cases this; rfl
    subst hrr
    refine ⟨fun k => ?_, fun r'' hr'' => ?_⟩
    · rw [Table.find?_update]
      by_cases hk : k = a.artifactKey
      · subst hk
        rw [hfind, if_pos rfl, Option.map_some, if_pos hp, hkey]
        rfl
      · rw [if_neg hk]
        cases hf : t.find? k with
        | none => rfl
        | some x =>
          have hx : x.artifactSetHash = k := Table.find?_key hf
          simp [restageable, hx, hk]
    · rw [hfind] at hr''
      cases hr''
      simp only [restageable, Bool.and_eq_true, Option.isNone_iff_eq_none] at hp
      exact hp.1.2

/-- No generator row in the way, so the upsert writes. -/
theorem upsertSet_writes {now : Timestamp} {a : ArtifactUpsert} {u : Table ArtifactSet}
    (ha : a.generatorProcessingHash = none)
    (h : ∀ r ∈ u.rows, r.artifactSetHash = a.artifactKey → r.generatorProcessingHash = none) :
    (upsertSet now a u).1 = true := by
  unfold upsertSet
  cases hi : u.insert? (stagedSet now a) with
  | some u' => rfl
  | none =>
    obtain ⟨r, hr, hc⟩ := Table.insert?_eq_none.mp hi
    have hpos : 0 < u.affected (restageable a) := by
      rw [Table.affected, List.countP_pos_iff]
      have hkey : r.artifactSetHash = a.artifactKey := hc
      exact ⟨r, hr, by simp [restageable, hkey, h r hr hkey, ha]⟩
    simp only [bne_iff_ne, ne_eq]
    omega

theorem insertFiles_ok {files : List ArtifactFile} {t t' : Table ArtifactFile}
    (h : insertFiles files t = .ok t') : t'.rows = t.rows ++ files := by
  induction files generalizing t with
  | nil => cases h; simp
  | cons f files ih =>
    simp only [insertFiles] at h
    split at h
    · cases h
    · rename_i t1 hi
      rw [ih h, (Table.insert?_eq_some hi).1, List.append_assoc, List.singleton_append]

theorem stageArtifactInner_ok {now : Timestamp} {a : ArtifactUpsert} {files : List ArtifactFile}
    {t t' : ArtifactTables} (h : stageArtifactInner now a files t = .ok t') :
    (∀ k, t'.sets.find? k = if k = a.artifactKey then some (stagedSet now a) else t.sets.find? k) ∧
      (∀ r, t.sets.find? a.artifactKey = some r → r.generatorProcessingHash = none) ∧
      t'.files.rows =
        (t.files.rows.filter fun f => !decide (f.artifactSetHash = a.artifactKey)) ++ files := by
  unfold stageArtifactInner at h
  split at h
  · cases h
  · rename_i sets hu
    split at h
    · cases h
    · rename_i files' hf
      cases h
      obtain ⟨hsets, hgen⟩ := upsertSet_true hu
      exact ⟨hsets, hgen, insertFiles_ok hf⟩

theorem stageArtifact_ok {now : Timestamp} {a : ArtifactUpsert} {files : List ArtifactFile}
    {t t' : ArtifactTables} (h : stageArtifact now a files t = .ok t') :
    a.generatorProcessingHash = none ∧ stageArtifactInner now a files t = .ok t' := by
  unfold stageArtifact at h
  split at h
  · cases h
  · rename_i hg
    exact ⟨by simpa using hg, h⟩

theorem insertFiles_accepts {files : List ArtifactFile} {t : Table ArtifactFile}
    (hfiles : files.Pairwise fun f g => ¬ Schema.clash f g)
    (h : ∀ a ∈ t.rows, ∀ f ∈ files, ¬ Schema.clash a f) : ∃ t', insertFiles files t = .ok t' := by
  induction files generalizing t with
  | nil => exact ⟨t, rfl⟩
  | cons f files ih =>
    obtain ⟨hf, hfiles⟩ := List.pairwise_cons.mp hfiles
    cases hi : t.insert? f with
    | none =>
      obtain ⟨a, ha, hclash⟩ := Table.insert?_eq_none.mp hi
      exact absurd hclash (h a ha f List.mem_cons_self)
    | some t₁ =>
      simp only [insertFiles, hi]
      refine ih hfiles fun a ha g hg => ?_
      rw [(Table.insert?_eq_some hi).1, List.mem_append, List.mem_singleton] at ha
      rcases ha with ha | rfl
      · exact h a ha g (List.mem_cons_of_mem _ hg)
      · exact hf g hg

/-- A set whose files clash with nothing but its own old files is staged. -/
theorem stageArtifact_accepts {now : Timestamp} {a : ArtifactUpsert} {files : List ArtifactFile}
    {t : ArtifactTables} (ha : a.generatorProcessingHash = none)
    (hsets : ∀ r ∈ t.sets.rows, r.artifactSetHash = a.artifactKey → r.generatorProcessingHash = none)
    (hfiles : files.Pairwise fun f g => ¬ Schema.clash f g)
    (h : ∀ b ∈ t.files.rows, b.artifactSetHash ≠ a.artifactKey → ∀ f ∈ files,
      ¬ Schema.clash b f) : ∃ t', stageArtifact now a files t = .ok t' := by
  have hkept : ∀ b ∈ (t.files.delete fun f => f.artifactSetHash = a.artifactKey).rows,
      ∀ f ∈ files, ¬ Schema.clash b f := by
    intro b hb
    obtain ⟨hb, hkey⟩ := List.mem_filter.mp hb
    exact h b hb (by simpa using hkey)
  obtain ⟨inserted, hinserted⟩ := insertFiles_accepts hfiles hkept
  have hwrites : (upsertSet now a t.sets).1 = true := upsertSet_writes ha hsets
  unfold stageArtifact
  rw [ha, Option.isSome_none, if_neg Bool.false_ne_true, stageArtifactInner]
  split
  · rename_i hu
    rw [hu] at hwrites
    cases hwrites
  · rw [hinserted]
    exact ⟨_, rfl⟩

/-- Staging replaces the files of its own set and no others. -/
theorem filesOf_stage {now : Timestamp} {a : ArtifactUpsert} {files : List ArtifactFile}
    {t t' : ArtifactTables} (hown : ∀ f ∈ files, f.artifactSetHash = a.artifactKey)
    (h : stageArtifactInner now a files t = .ok t') (k : String) :
    t'.filesOf k = if k = a.artifactKey then files else t.filesOf k := by
  obtain ⟨-, -, hfiles⟩ := stageArtifactInner_ok h
  rw [ArtifactTables.filesOf, hfiles, List.filter_append, List.filter_filter]
  by_cases hk : k = a.artifactKey
  · subst hk
    have h1 : List.filter (fun f => decide (f.artifactSetHash = a.artifactKey) &&
        !decide (f.artifactSetHash = a.artifactKey)) t.files.rows = [] := by
      rw [List.filter_eq_nil_iff]; simp
    have h2 : List.filter (fun f => decide (f.artifactSetHash = a.artifactKey)) files = files := by
      rw [List.filter_eq_self]; simpa using hown
    rw [if_pos rfl, h1, h2, List.nil_append]
  · have h2 : List.filter (fun f => decide (f.artifactSetHash = k)) files = [] := by
      rw [List.filter_eq_nil_iff]
      intro f hf
      simp [hown f hf, Ne.symm hk]
    rw [if_neg hk, h2, List.append_nil, ArtifactTables.filesOf]
    refine List.filter_congr fun f _ => ?_
    by_cases hf : f.artifactSetHash = k <;> simp [hf, hk]

theorem foldl_newerSet (l : List ArtifactSet) (b : ArtifactSet) :
    ∃ r, (r = b ∨ r ∈ l) ∧ l.foldl (fun best r =>
      match best with
      | none => some r
      | some b => if newerSet r b then some r else some b) (some b) = some r := by
  induction l generalizing b with
  | nil => exact ⟨b, .inl rfl, rfl⟩
  | cons x l ih =>
    rw [List.foldl_cons]
    by_cases hn : newerSet x b = true
    · obtain ⟨r, hr, he⟩ := ih x
      refine ⟨r, .inr ?_, by simp only [hn, if_true]; exact he⟩
      exact hr.elim (fun h => h ▸ List.mem_cons_self) (List.mem_cons_of_mem _)
    · obtain ⟨r, hr, he⟩ := ih b
      refine ⟨r, ?_, by simp only [hn]; exact he⟩
      exact hr.imp id (List.mem_cons_of_mem _)

/-- The lookup finds a set exactly when the request has a ready one. -/
theorem latestReadyArtifactForRequest_isSome {requestHash : String} {t : ArtifactTables} :
    (latestReadyArtifactForRequest requestHash t).isSome = true ↔
      ∃ k r, t.sets.find? k = some r ∧ r.requestHash = some requestHash ∧ r.status = .ready := by
  unfold latestReadyArtifactForRequest
  simp only
  cases hl : t.sets.rows.filter
      fun r => decide (r.requestHash = some requestHash) && decide (r.status = .ready) with
  | nil =>
    constructor
    · intro h; cases h
    · rintro ⟨k, r, hf, hr, hs⟩
      have := List.filter_eq_nil_iff.mp hl r (Table.find?_mem hf)
      simp [hr, hs] at this
  | cons x l =>
    obtain ⟨r, -, he⟩ := foldl_newerSet l x
    rw [List.foldl_cons, he]
    have hx : x ∈ t.sets.rows.filter
        fun r => decide (r.requestHash = some requestHash) && decide (r.status = .ready) := by
      rw [hl]; exact List.mem_cons_self
    obtain ⟨hm, hp⟩ := List.mem_filter.mp hx
    simp only [Bool.and_eq_true, decide_eq_true_eq] at hp
    exact ⟨fun _ => ⟨_, x, Table.find?_of_mem hm, hp.1, hp.2⟩, fun _ => rfl⟩

end Artifacts
end OnshapeExport
