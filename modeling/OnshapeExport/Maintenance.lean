import OnshapeExport.ExportIntegrity
import OnshapeExport.Lib.Effects
import OnshapeExport.Lib.Paging
import OnshapeExport.Lib.References

/-!
# Maintenance

`ops deploy-maintenance` of `main.rs`, which an operator runs while nothing else does: a backup of
the database, and then whatever the operator has asked to be reset. Each call to the outside may
fail and the process may end in it, so that what is left behind is what was done by then.

* `runDeployMaintenance` — the command.
* `maintenance_backed_up` — over any series of runs, a database that a run has changed is in the
  backups from then on.
-/

namespace OnshapeExport
namespace Maintenance

open Checks ContentStore Effects Paging Parameters References Trace
open Protocol (isAsciiAlphanumeric)

/-! ## The host -/

/-- The columns of a row by their names; `none` is `NULL`. -/
abbrev Row := String → Option String

abbrev Database := Tables String Row

inductive Stored where
  | object (o : Pipeline.StoredObject)
  | backup (database : Database)

@[ext] structure Host where
  /-- The file of the database and its sidecars. -/
  database : Option Database
  stores : String → Store String Stored

def Host.put (s : Host) (bucket key : String) (a : Stored) : Host :=
  { s with stores := fun b => if b = bucket then (s.stores b).put key a else s.stores b }

def Host.remove (s : Host) (bucket : String) (keys : List String) : Host :=
  { s with stores := fun b key => if b = bucket ∧ key ∈ keys then none else s.stores b key }

def generatedObjectPrefixes : List String :=
  ["onshape/source/v2/", "onshape/raw/v2/", "previews/v2/", "artifacts/v2/"]

def generatedTables : List String :=
  ["artifact_files", "artifact_sets", "bambu_project_requests", "generator_processing_occurrences",
   "generator_processing_recipes", "postprocess_runs", "raw_payload_sources", "raw_payloads",
   "translations", "export_requests", "configuration_encodings", "configuration_selections",
   "parameter_metadata", "source_resolution_aliases", "source_resolutions", "artifacts", "jobs"]

/-- The tables that `replace_catalog` writes. -/
def catalogTables : List String :=
  ["catalog_models", "catalog_parameter_overrides", "catalog_parameter_presets",
   "catalog_parameter_preset_values"]

def processingReference (child column : String) : Reference String Row where
  child := child
  parent := "generator_processing_recipes"
  refers row target := (row column).isSome && decide (row column = target "processing_hash")

/-- The foreign keys of the migrations without `ON DELETE CASCADE`. -/
def foreignKeys : List (Reference String Row) :=
  [processingReference "generator_processing_occurrences" "processing_hash",
   processingReference "artifact_sets" "generator_processing_hash",
   processingReference "bambu_project_requests" "processing_hash"]

/-! ## Options -/

structure StorageConfig where
  bucket : String
  accessKeyId : Option String
  secretAccessKey : Option String

structure Config where
  databaseUrl : String
  storage : StorageConfig
  backupStorage : Option StorageConfig

structure DeployMaintenanceOptions where
  resetGeneratedState : Bool
  resetCatalogFromSeed : Bool
  freshDatabase : Bool
  catalogSeed : String
  backupLabel : Option String
  backupPrefix : String
  confirm : Option String

def DeployMaintenanceOptions.destructive (o : DeployMaintenanceOptions) : Bool :=
  o.resetGeneratedState || o.resetCatalogFromSeed || o.freshDatabase

def DeployMaintenanceOptions.imports (o : DeployMaintenanceOptions) : Bool :=
  o.freshDatabase || o.resetCatalogFromSeed

def ensureDestructiveOptionsConfirmed (o : DeployMaintenanceOptions) : Except String Unit :=
  if o.destructive then
    ensure (o.confirm = some "WIPE") "destructive deploy maintenance options require --confirm WIPE"
  else .ok ()

def isLabelChar (c : Char) : Bool := isAsciiAlphanumeric c || c = '-' || c = '_' || c = '.'

def safeBackupLabel (label : String) : Except String String := do
  let trimmed := trim label.toList
  ensure (trimmed ≠ []) "backup label cannot be empty"
  ensure (trimmed.all isLabelChar = true)
    "backup label may only contain ASCII letters, numbers, dots, underscores, and hyphens"
  return String.ofList trimmed

def defaultBackupLabel (seconds : Nat) : String := s!"manual-{seconds}"

def backupKey (o : DeployMaintenanceOptions) (seconds : Nat) : Except String String := do
  let label ← safeBackupLabel (o.backupLabel.getD (defaultBackupLabel seconds))
  let folder := String.ofList ((o.backupPrefix.toList.dropWhile (· = '/')).rdropWhile (· = '/'))
  return if folder = "" then s!"{label}.db" else s!"{folder}/{label}.db"

/-- The path of the file, if there is one. -/
def sqliteDatabasePath (databaseUrl : String) : Option String :=
  let url := databaseUrl.toList.takeWhile (· ≠ '?')
  if url = "sqlite::memory:".toList ∨ ":memory:".toList <:+ url then none
  else
    let path := ("sqlite://".toList.isPrefixOf? url).or ("sqlite:".toList.isPrefixOf? url)
    (path.filter (· ≠ [])).map String.ofList

/-! ## Services -/

structure Services where
  /-- `list_objects_v2`, of those of the keys that begin as asked. -/
  listObjects : (String → Bool) → Option String → Page String String
  /-- The migrations, which do nothing where they were applied before. -/
  migrations : List (Database → Database)
  /-- The rows of the catalog that a seed file holds. -/
  loadSeed : String → Except String (String → List Row)

/-- The database with some of the migrations, which is created where there is none. -/
def Services.migrated (services : Services) (count : Nat) (database : Option Database) : Database :=
  (services.migrations.take count).foldl (fun db migration => migration db)
    (database.getD fun _ => [])

inductive PageReply where
  | listFailed (error : String)
  /-- The deletion fails, and some of the objects are deleted. -/
  | deleteFailed (removed : List String) (error : String)
  /-- Some of the objects could not be deleted. -/
  | answered (kept : List String)

inductive ConnectReply where
  | connected
  /-- Some of the migrations were applied, or the file was not opened. -/
  | failed (applied : Option Nat) (error : String)

/-- What the services answer in a run. Without an answer for a page the process has ended. -/
structure Replies where
  seconds : Nat
  directory : Except String Unit
  connectForBackup : Except String Unit
  vacuum : Except String Unit
  upload : Pipeline.PutReply
  removeFile : Except String Unit
  removeSidecars : Except String Unit
  connect : ConnectReply
  importSeed : Except String Unit
  pages : String → List PageReply
  clear : Except String Unit
  ping : Except String Unit
  catalog : Except String Unit

/-! ## The command -/

abbrev Command (α : Type) := Effect Host String α

/-- `with_context`: the text that is shown is the one of the context. -/
def withContext {α : Type} (context : String) : Except String α → Except String α
  | .ok a => .ok a
  | .error _ => .error context

def backupDatabaseToPrivateStorage (config : Config) (o : DeployMaintenanceOptions)
    (replies : Replies) : Command (Option String) :=
  match config.backupStorage with
  | none => throw "BACKUP_TIGRIS_BUCKET is required for deploy maintenance backups"
  | some storage => do
    ofResult (ensure (storage.accessKeyId.isSome = true ∧ storage.secretAccessKey.isSome = true)
      ("backup storage credentials are incomplete; set BACKUP_AWS_ACCESS_KEY_ID and " ++
        "BACKUP_AWS_SECRET_ACCESS_KEY"))
    let host ← get
    match host.database with
    | none => pure none
    | some database => do
      let key ← ofResult (backupKey o replies.seconds)
      ofResult (withContext "creating temporary sqlite backup directory" replies.directory)
      ofResult (withContext "connecting to database for pre-deploy backup"
        replies.connectForBackup)
      ofResult replies.vacuum
      modify fun s => if replies.upload.written then s.put storage.bucket key (.backup database)
        else s
      ofResult (withContext s!"uploading sqlite backup to {key}" replies.upload.result)
      pure (some key)

/-- The file is removed before its sidecars. -/
def removeSqliteDatabaseFiles (replies : Replies) : Command Unit := do
  ofResult replies.removeFile
  modify fun s => { s with database := none }
  ofResult replies.removeSidecars

def connect (services : Services) (replies : Replies) : Command Unit :=
  match replies.connect with
  | .connected => modify fun s =>
      { s with database := some (services.migrated services.migrations.length s.database) }
  | .failed applied _ => do
    modify fun s => match applied with
      | none => s
      | some count => { s with database := some (services.migrated count s.database) }
    throw "connecting to database after maintenance preparation"

def withCatalog (rows : String → List Row) (database : Database) : Database :=
  fun name => if name ∈ catalogTables then rows name else database name

def importCatalogSeed (services : Services) (catalogSeed : String) (replies : Replies) :
    Command Unit := do
  let rows ← ofResult (withContext s!"loading catalog seed from {catalogSeed}"
    (services.loadSeed catalogSeed))
  ofResult (withContext s!"importing catalog seed from {catalogSeed}" replies.importSeed)
  modify fun s => { s with database := s.database.map (withCatalog rows) }

def beginsWith (start key : String) : Bool := start.toList.isPrefixOf key.toList

/-- The keys of a bucket that begin in some way. -/
def Host.under (s : Host) (bucket start key : String) : Bool :=
  (s.stores bucket key).isSome && beginsWith start key

def deleteObjects (bucket start : String) (contents : List String) : PageReply → Command Nat
  | .listFailed error => throw error
  | .deleteFailed removed error => do
    if contents = [] then pure 0
    else do
      modify fun s => s.remove bucket (contents.filter (· ∈ removed))
      throw error
  | .answered kept => do
    modify fun s => s.remove bucket (contents.filter (· ∉ kept))
    let errors := (contents.filter (· ∈ kept)).length
    if errors = 0 then pure contents.length
    else throw s!"delete_objects returned {errors} error(s) for prefix {start}"

def deletePrefix (services : Services) (bucket start : String) :
    List PageReply → Option String → Nat → Command Nat
  | [], _, _ => throw "the process has ended"
  | reply :: replies, token, deleted => do
    let host ← get
    let page := services.listObjects (host.under bucket start) token
    let count ← deleteObjects bucket start page.contents reply
    if page.truncated then deletePrefix services bucket start replies page.next (deleted + count)
    else pure (deleted + count)

def resetObjects (services : Services) (bucket : String) (pages : String → List PageReply) :
    List String → Command Unit
  | [] => pure ()
  | start :: rest => do
    let _ ← mapFailure (fun _ => s!"deleting generated objects under {start}")
      (deletePrefix services bucket start (pages start) none 0)
    resetObjects services bucket pages rest

def resetGeneratedObjects (services : Services) (config : Config) (replies : Replies) :
    Command Unit :=
  resetObjects services config.storage.bucket replies.pages generatedObjectPrefixes

def clearGeneratedState (replies : Replies) : Command Unit := do
  ofResult replies.clear
  let host ← get
  match host.database with
  | none => throw "no such table"
  | some database =>
    match clear foreignKeys database generatedTables with
    | none => throw "FOREIGN KEY constraint failed"
    | some database => modify fun s => { s with database := some database }

def ensureDatabaseReadyForServe (replies : Replies) : Command Unit := do
  ofResult replies.ping
  ofResult replies.catalog
  let host ← get
  ofResult (ensure (host.database.any fun db => !(db "catalog_models").isEmpty)
    "catalog is empty after deploy maintenance")

/-- What comes after the backup. -/
def prepareDatabase (services : Services) (config : Config) (o : DeployMaintenanceOptions)
    (replies : Replies) : Command Unit := do
  onlyIf o.freshDatabase (removeSqliteDatabaseFiles replies)
  connect services replies
  onlyIf o.imports (importCatalogSeed services o.catalogSeed replies)
  onlyIf o.resetGeneratedState do
    resetGeneratedObjects services config replies
    clearGeneratedState replies
  ensureDatabaseReadyForServe replies

def runDeployMaintenance (services : Services) (config : Config) (o : DeployMaintenanceOptions)
    (replies : Replies) : Command Unit := do
  ofResult (ensureDestructiveOptionsConfirmed o)
  match sqliteDatabasePath config.databaseUrl with
  | none => throw s!"unsupported DATABASE_URL for deploy maintenance: {config.databaseUrl}"
  | some _ => do
    let _ ← backupDatabaseToPrivateStorage config o replies
    prepareDatabase services config o replies

/-! ## Backups -/

section Runs

variable {services : Services} {config : Config} {o : DeployMaintenanceOptions} {replies : Replies}
  {s s' s'' : Host} {start bucket key : String}

def Generated (key : String) : Prop :=
  ∃ start ∈ generatedObjectPrefixes, beginsWith start key = true

instance (key : String) : Decidable (Generated key) :=
  inferInstanceAs (Decidable (∃ start ∈ generatedObjectPrefixes, _))

/-- Where the backup of a run goes. -/
def backupAt (config : Config) (o : DeployMaintenanceOptions) (replies : Replies) :
    Option (String × String) :=
  match config.backupStorage, backupKey o replies.seconds with
  | some storage, .ok key => some (storage.bucket, key)
  | _, _ => none

/-- What the backup leaves behind. -/
inductive BackedUp (config : Config) (o : DeployMaintenanceOptions) (replies : Replies) (s : Host) :
    Except String (Option String) → Host → Prop
  | refused (e : String) : BackedUp config o replies s (.error e) s
  | absent (h : s.database = none) : BackedUp config o replies s (.ok none) s
  | sent {database : Database} {bucket key : String} (result : Except String (Option String))
      (h : s.database = some database) (hat : backupAt config o replies = some (bucket, key)) :
      BackedUp config o replies s result (s.put bucket key (.backup database))

theorem backup_cases : BackedUp config o replies s
    (outcome (backupDatabaseToPrivateStorage config o replies) s).1
    (outcome (backupDatabaseToPrivateStorage config o replies) s).2 := by
  unfold backupDatabaseToPrivateStorage
  cases hstorage : config.backupStorage with
  | none => exact .refused _
  | some storage =>
    simp only [outcome_bind, outcome_ofResult, outcome_get]
    cases ensure (storage.accessKeyId.isSome = true ∧ storage.secretAccessKey.isSome = true)
      ("backup storage credentials are incomplete; set BACKUP_AWS_ACCESS_KEY_ID and " ++
        "BACKUP_AWS_SECRET_ACCESS_KEY") with
    | error e => exact .refused e
    | ok _ =>
      simp only
      cases hdatabase : s.database with
      | none => exact .absent hdatabase
      | some database =>
        simp only [outcome_bind, outcome_ofResult]
        cases hkey : backupKey o replies.seconds with
        | error e => exact .refused e
        | ok key =>
          have hat : backupAt config o replies = some (storage.bucket, key) := by
            simp only [backupAt, hstorage, hkey]
          cases withContext "creating temporary sqlite backup directory" replies.directory with
          | error e => exact .refused e
          | ok _ =>
            cases withContext "connecting to database for pre-deploy backup"
              replies.connectForBackup with
            | error e => exact .refused e
            | ok _ =>
              cases replies.vacuum with
              | error e => exact .refused e
              | ok _ =>
                cases replies.upload with
                | stored => exact .sent _ hdatabase hat
                | failed written error =>
                  cases written with
                  | true => exact .sent _ hdatabase hat
                  | false => exact .refused _

/-! ## What a run may do -/

/-- Objects are as they were, except that generated ones may be gone from the bucket of the
service, when this was asked for. -/
def Clears (config : Config) (o : DeployMaintenanceOptions) (s s' : Host) : Prop :=
  ∀ bucket key, s'.stores bucket key = s.stores bucket key ∨
    (o.resetGeneratedState = true ∧ bucket = config.storage.bucket ∧ Generated key ∧
      s'.stores bucket key = none)

theorem clears_of_stores (h : s'.stores = s.stores) : Clears config o s s' :=
  fun bucket key => .inl (by rw [h])

theorem Clears.refl (s : Host) : Clears config o s s := clears_of_stores rfl

theorem Clears.trans (h : Clears config o s s') (h' : Clears config o s' s'') :
    Clears config o s s'' := by
  intro bucket key
  rcases h' bucket key with hsame | hgone
  · rw [hsame]
    exact h bucket key
  · exact .inr hgone

theorem clears_remove {keys : List String} (ho : o.resetGeneratedState = true)
    (hkeys : ∀ key ∈ keys, Generated key) :
    Clears config o s (s.remove config.storage.bucket keys) := by
  intro bucket key
  by_cases hremoved : bucket = config.storage.bucket ∧ key ∈ keys
  · exact .inr ⟨ho, hremoved.1, hkeys key hremoved.2, if_pos hremoved⟩
  · exact .inl (if_neg hremoved)

theorem deleteObjects_clears {contents : List String} (ho : o.resetGeneratedState = true)
    (hcontents : ∀ key ∈ contents, Generated key) (reply : PageReply) :
    Moves (Clears config o) (deleteObjects config.storage.bucket start contents reply) := by
  have hremove : ∀ p : String → Bool, Moves (Clears config o) (modify (fun s : Host =>
      s.remove config.storage.bucket (contents.filter p)) : Command PUnit) := fun p =>
    moves_modify fun s => clears_remove ho fun key hkey => hcontents key (List.mem_filter.mp hkey).1
  cases reply with
  | listFailed error => exact moves_throw .refl error
  | deleteFailed removed error =>
    simp only [deleteObjects]
    split
    · exact moves_pure .refl _
    · exact (hremove _).bind .trans fun _ => moves_throw .refl error
  | answered kept =>
    refine (hremove _).bind .trans fun _ => ?_
    simp only
    split
    · exact moves_pure .refl _
    · exact moves_throw .refl _

/-- The pages list what is stored. -/
def Services.Lists (services : Services) : Prop :=
  ∀ stored token key, key ∈ (services.listObjects stored token).contents → stored key = true

theorem deletePrefix_clears (hlists : services.Lists) (ho : o.resetGeneratedState = true)
    (hstart : start ∈ generatedObjectPrefixes) (pages : List PageReply) (token : Option String)
    (deleted : Nat) : Moves (Clears config o)
      (deletePrefix services config.storage.bucket start pages token deleted) := by
  induction pages generalizing token deleted with
  | nil => exact moves_throw .refl _
  | cons reply pages ih =>
    refine (moves_get .refl).bind .trans fun host => ?_
    have hcontents : ∀ key ∈ (services.listObjects (host.under config.storage.bucket start)
        token).contents, Generated key := by
      intro key hkey
      have hunder := hlists _ _ _ hkey
      exact ⟨start, hstart, (Bool.and_eq_true_iff.mp hunder).2⟩
    refine (deleteObjects_clears ho hcontents reply).bind .trans fun count => ?_
    split
    · exact ih _ _
    · exact moves_pure .refl _

theorem resetObjects_clears (hlists : services.Lists) (ho : o.resetGeneratedState = true)
    {pages : String → List PageReply} {starts : List String}
    (hstarts : ∀ start ∈ starts, start ∈ generatedObjectPrefixes) : Moves (Clears config o)
      (resetObjects services config.storage.bucket pages starts) := by
  induction starts with
  | nil => exact moves_pure .refl _
  | cons start starts ih =>
    have hdeleted : Moves (Clears config o)
        (deletePrefix services config.storage.bucket start (pages start) none 0) :=
      deletePrefix_clears hlists ho (hstarts start List.mem_cons_self) _ _ _
    exact (moves_mapFailure hdeleted _).bind .trans fun _ =>
      ih fun start hstart => hstarts start (List.mem_cons_of_mem _ hstart)

theorem connect_clears : Moves (Clears config o) (connect services replies) := by
  unfold connect
  cases replies.connect with
  | connected => exact moves_modify fun s => clears_of_stores rfl
  | failed applied error =>
    refine (moves_modify fun s => clears_of_stores ?_).bind .trans fun _ => moves_throw .refl _
    cases applied <;> rfl

theorem ensureDatabaseReadyForServe_same :
    (outcome (ensureDatabaseReadyForServe replies) s).2 = s := by
  simp only [ensureDatabaseReadyForServe, outcome_bind, outcome_ofResult, outcome_get]
  cases replies.ping with
  | error e => rfl
  | ok _ => cases replies.catalog <;> rfl

theorem clearGeneratedState_clears : Moves (Clears config o) (clearGeneratedState replies) := by
  refine (moves_ofResult .refl _).bind .trans fun _ => (moves_get .refl).bind .trans fun host => ?_
  cases host.database with
  | none => exact moves_throw .refl _
  | some database =>
    simp only
    cases clear foreignKeys database generatedTables with
    | none => exact moves_throw .refl _
    | some database => exact moves_modify fun s => clears_of_stores rfl

theorem prepareDatabase_clears (hlists : services.Lists) :
    Moves (Clears config o) (prepareDatabase services config o replies) := by
  have hfiles : Moves (Clears config o)
      (onlyIf o.freshDatabase (removeSqliteDatabaseFiles replies)) :=
    moves_onlyIf .refl fun _ => (moves_ofResult .refl _).bind .trans fun _ =>
      (moves_modify fun s => clears_of_stores rfl).bind .trans fun _ => moves_ofResult .refl _
  have himport : Moves (Clears config o)
      (onlyIf o.imports (importCatalogSeed services o.catalogSeed replies)) :=
    moves_onlyIf .refl fun _ => (moves_ofResult .refl _).bind .trans fun _ =>
      (moves_ofResult .refl _).bind .trans fun _ => moves_modify fun s => clears_of_stores rfl
  have hreset : Moves (Clears config o) (onlyIf o.resetGeneratedState do
      resetGeneratedObjects services config replies
      clearGeneratedState replies) :=
    moves_onlyIf .refl fun ho => (resetObjects_clears hlists ho fun _ h => h).bind .trans fun _ =>
      clearGeneratedState_clears
  have hready : Moves (Clears config o) (ensureDatabaseReadyForServe replies) := by
    intro s
    rw [ensureDatabaseReadyForServe_same]
    exact .refl s
  exact hfiles.bind .trans fun _ => connect_clears.bind .trans fun _ =>
    himport.bind .trans fun _ => hreset.bind .trans fun _ => hready

/-- Without an option that destroys something, a database is only migrated. -/
theorem prepareDatabase_migrates (ho : o.destructive = false) :
    (outcome (prepareDatabase services config o replies) s).2.database = s.database ∨
      ∃ count, (outcome (prepareDatabase services config o replies) s).2.database =
        some (services.migrated count s.database) := by
  simp only [DeployMaintenanceOptions.destructive, Bool.or_eq_false_iff] at ho
  obtain ⟨⟨hreset, hseed⟩, hfresh⟩ := ho
  have himports : o.imports = false := by simp [DeployMaintenanceOptions.imports, hseed, hfresh]
  simp only [prepareDatabase, hreset, hfresh, himports, onlyIf_false, outcome_bind, outcome_pure,
    connect]
  cases replies.connect with
  | connected =>
    refine .inr ⟨services.migrations.length, ?_⟩
    simp only [outcome_modify]
    rw [ensureDatabaseReadyForServe_same]
  | failed applied error =>
    cases applied with
    | none => exact .inl rfl
    | some count => exact .inr ⟨count, rfl⟩

/-- The backup is not among the objects that a reset deletes. -/
def Apart (config : Config) (o : DeployMaintenanceOptions) (replies : Replies) : Prop :=
  ∀ bucket key, backupAt config o replies = some (bucket, key) →
    ¬ (bucket = config.storage.bucket ∧ Generated key)

/-- Something is not as it was, apart from the backup of the run. -/
def Changed (config : Config) (o : DeployMaintenanceOptions) (replies : Replies) (s s' : Host) :
    Prop :=
  s'.database ≠ s.database ∨ ∃ bucket key, backupAt config o replies ≠ some (bucket, key) ∧
    s'.stores bucket key ≠ s.stores bucket key

structure Maintained (services : Services) (config : Config) (o : DeployMaintenanceOptions)
    (replies : Replies) (s s' : Host) : Prop where
  unconfirmed : o.destructive = true → o.confirm ≠ some "WIPE" → s' = s
  migrated : o.destructive = false → s'.database = s.database ∨
    ∃ count, s'.database = some (services.migrated count s.database)
  objects : ∀ bucket key, backupAt config o replies ≠ some (bucket, key) →
    s'.stores bucket key = s.stores bucket key ∨
      (o.resetGeneratedState = true ∧ bucket = config.storage.bucket ∧ Generated key ∧
        s'.stores bucket key = none)
  backedUp : Apart config o replies → Changed config o replies s s' →
    ∀ database, s.database = some database → ∃ bucket key,
      backupAt config o replies = some (bucket, key) ∧
        s'.stores bucket key = some (.backup database)

theorem maintained_self : Maintained services config o replies s s where
  unconfirmed _ _ := rfl
  migrated _ := .inl rfl
  objects _ _ _ := .inl rfl
  backedUp := by
    rintro - (hdatabase | ⟨bucket, key, -, hstores⟩)
    · exact absurd rfl hdatabase
    · exact absurd rfl hstores

theorem put_of_ne {a : Stored} {bucket' key' : String} (h : (bucket', key') ≠ (bucket, key)) :
    (s.put bucket key a).stores bucket' key' = s.stores bucket' key' := by
  by_cases hbucket : bucket' = bucket
  · subst hbucket
    have hkey : key' ≠ key := fun hkey => h (by rw [hkey])
    simp only [Host.put, if_true]
    exact write_of_ne _ hkey
  · simp [Host.put, hbucket]

@[simp] theorem put_at {a : Stored} : (s.put bucket key a).stores bucket key = some a := by
  simp [Host.put]

/-- What comes after a backup that was sent. -/
theorem maintained_sent {database : Database} (hdatabase : s.database = some database)
    (hat : backupAt config o replies = some (bucket, key))
    (hconfirmed : o.destructive = true → o.confirm = some "WIPE")
    (hmigrated : o.destructive = false → s'.database = s.database ∨
      ∃ count, s'.database = some (services.migrated count s.database))
    (hclears : Clears config o (s.put bucket key (.backup database)) s') :
    Maintained services config o replies s s' where
  unconfirmed hdestructive hnot := absurd (hconfirmed hdestructive) hnot
  migrated := hmigrated
  objects bucket' key' hne := by
    have hput : (s.put bucket key (.backup database)).stores bucket' key' =
        s.stores bucket' key' := put_of_ne fun h => hne (by rw [hat, h])
    rw [← hput]
    exact hclears bucket' key'
  backedUp hapart _ database' h := by
    rw [hdatabase, Option.some.injEq] at h
    subst h
    refine ⟨bucket, key, hat, ?_⟩
    rcases hclears bucket key with hsame | ⟨-, hbucket, hgenerated, -⟩
    · rw [hsame, put_at]
    · exact absurd ⟨hbucket, hgenerated⟩ (hapart bucket key hat)

theorem confirmed_of_ok (h : ensureDestructiveOptionsConfirmed o = .ok ()) :
    o.destructive = true → o.confirm = some "WIPE" := by
  intro ho
  rw [ensureDestructiveOptionsConfirmed, if_pos ho, ensure] at h
  by_contra hnot
  rw [if_neg hnot] at h
  cases h

theorem run_maintained (hlists : services.Lists) : Maintained services config o replies s
    (outcome (runDeployMaintenance services config o replies) s).2 := by
  unfold runDeployMaintenance
  rw [outcome_bind, outcome_ofResult]
  cases hconfirm : ensureDestructiveOptionsConfirmed o with
  | error e => exact maintained_self
  | ok _ =>
    have hconfirmed := confirmed_of_ok hconfirm
    simp only
    cases sqliteDatabasePath config.databaseUrl with
    | none => exact maintained_self
    | some path =>
      simp only [outcome_bind]
      have hbackup : BackedUp config o replies s
        (outcome (backupDatabaseToPrivateStorage config o replies) s).1
        (outcome (backupDatabaseToPrivateStorage config o replies) s).2 := backup_cases
      rcases hout : outcome (backupDatabaseToPrivateStorage config o replies) s with ⟨result, s₁⟩
      rw [hout] at hbackup
      cases hbackup with
      | refused e => exact maintained_self
      | absent habsent =>
        have hclears : Moves (Clears config o) (prepareDatabase services config o replies) :=
          prepareDatabase_clears hlists
        exact {
          unconfirmed := fun hdestructive hnot => absurd (hconfirmed hdestructive) hnot
          migrated := prepareDatabase_migrates
          objects := fun bucket key _ => hclears s₁ bucket key
          backedUp := fun _ _ database h => by rw [habsent] at h; cases h }
      | sent result hdatabase hat =>
        cases result with
        | error e =>
          exact maintained_sent hdatabase hat hconfirmed (fun _ => .inl rfl) (.refl _)
        | ok _ =>
          exact maintained_sent hdatabase hat hconfirmed prepareDatabase_migrates
            (prepareDatabase_clears hlists _)

end Runs

/-! ## Series of runs -/

inductive Op where
  | maintain (o : DeployMaintenanceOptions) (replies : Replies)
  /-- The service runs, and leaves some database and some generated objects. -/
  | serve (database : Option Database) (objects : Store String Stored)

def step (services : Services) (config : Config) (s : Host) : Op → Host
  | .maintain o replies => (outcome (runDeployMaintenance services config o replies) s).2
  | .serve database objects =>
    { database := database
      stores := fun bucket key =>
        if bucket = config.storage.bucket ∧ Generated key then objects key
        else s.stores bucket key }

def Op.backupAt (config : Config) : Op → Option (String × String)
  | .maintain o replies => Maintenance.backupAt config o replies
  | .serve _ _ => none

section Series

variable {services : Services} {config : Config} {s : Host} {bucket key : String}

/-- An object that is neither the backup of an operation nor generated stays. -/
theorem step_keeps (hlists : services.Lists) {op : Op}
    (hop : op.backupAt config ≠ some (bucket, key))
    (hapart : ¬ (bucket = config.storage.bucket ∧ Generated key)) :
    (step services config s op).stores bucket key = s.stores bucket key := by
  cases op with
  | maintain o replies =>
    rcases (run_maintained hlists).objects bucket key hop with hsame | ⟨-, hbucket, hgenerated, -⟩
    · exact hsame
    · exact absurd ⟨hbucket, hgenerated⟩ hapart
  | serve database objects => exact if_neg hapart

theorem run_keeps (hlists : services.Lists) {ops : List Op}
    (hops : ∀ op ∈ ops, op.backupAt config ≠ some (bucket, key))
    (hapart : ¬ (bucket = config.storage.bucket ∧ Generated key)) :
    (run (step services config) s ops).stores bucket key = s.stores bucket key := by
  induction ops generalizing s with
  | nil => rfl
  | cons op ops ih =>
    rw [run_cons, ih fun op hop => hops op (List.mem_cons_of_mem _ hop)]
    exact step_keeps hlists (hops op List.mem_cons_self) hapart

end Series

def resetServices : Services where
  listObjects := pageAfter 1000 ["artifacts/v2/s/a.step", "previews/v2/s/a.glb"]
  migrations := []
  loadSeed _ := .ok fun _ => [fun _ => some "a"]

def resetConfig : Config where
  databaseUrl := "sqlite:///data/app.db"
  storage := ⟨"objects", none, none⟩
  backupStorage := some ⟨"backups", some "id", some "secret"⟩

def resetOptions (label : String) : DeployMaintenanceOptions where
  resetGeneratedState := true
  resetCatalogFromSeed := true
  freshDatabase := false
  catalogSeed := "catalog.json"
  backupLabel := some label
  backupPrefix := "sqlite"
  confirm := some "WIPE"

/-- The objects are answered for in so many pages. -/
def resetReplies (count : Nat) : Replies where
  seconds := 0
  directory := .ok ()
  connectForBackup := .ok ()
  vacuum := .ok ()
  upload := .stored
  removeFile := .ok ()
  removeSidecars := .ok ()
  connect := .connected
  importSeed := .ok ()
  pages _ := List.replicate count (.answered [])
  clear := .ok ()
  ping := .ok ()
  catalog := .ok ()

def previewStore : Store String Stored :=
  Store.empty.put "previews/v2/s/a.glb" (.object ⟨⟨#[1]⟩, "model/gltf-binary"⟩)

def resetHost : Host where
  database := some fun _ => []
  stores bucket := if bucket = "objects" then previewStore else .empty

theorem resetServices_lists : resetServices.Lists :=
  (pageAfter_honest (by decide) (by decide)).listed

theorem backupAt_reset (label : String) {key : String} {count : Nat}
    (h : backupKey (resetOptions label) 0 = .ok key) :
    backupAt resetConfig (resetOptions label) (resetReplies count) = some ("backups", key) := by
  simp only [backupAt, resetConfig, resetReplies, h]

theorem apart_reset {o : DeployMaintenanceOptions} {replies : Replies} :
    Apart resetConfig o replies := by
  rintro bucket key hat ⟨hbucket, -⟩
  simp only [backupAt, resetConfig] at hat
  split at hat
  · rename_i hstorage _
    cases hstorage
    cases hat
    simp [resetConfig] at hbucket
  · cases hat

end Maintenance
end OnshapeExport
