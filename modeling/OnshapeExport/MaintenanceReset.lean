import OnshapeExport.Maintenance

/-!
# MaintenanceReset

What a deploy maintenance achieves when the services answer, from whatever an earlier run has left.
The objects are deleted page by page, and the tables in an order in which no foreign key is in the
way.

* `deletePrefix_succeeds` — page by page, everything that begins in some way is deleted.
* `exports_resettable` — what exports store begins as a reset asks for.
* `maintenance_completes` — the run succeeds, and everything is as requested.
-/

namespace OnshapeExport
namespace Maintenance

open Checks ContentStore Effects Paging References Trace

section Deletions

variable {services : Services} {s s' : Host} {bucket start : String} {contents keys : List String}
  {passed : Option String → String → Prop}

/-- Without the objects of a bucket that begin in some way. -/
def Host.cleared (s : Host) (bucket start : String) : Host :=
  { s with stores := fun b key =>
      if b = bucket ∧ beginsWith start key = true then none else s.stores b key }

theorem under_remove : (s.remove bucket contents).under bucket start =
    without (s.under bucket start) contents := by
  funext key
  by_cases h : key ∈ contents <;> simp [Host.under, Host.remove, without, h]

theorem under_cleared {bucket' start' : String} {key : String}
    (h : (s.cleared bucket start).under bucket' start' key = true) :
    s.under bucket' start' key = true := by
  obtain ⟨hsome, hbegins⟩ := Bool.and_eq_true_iff.mp h
  refine Bool.and_eq_true_iff.mpr ⟨?_, hbegins⟩
  simp only [Host.cleared] at hsome
  split at hsome
  · cases hsome
  · exact hsome

theorem deleteObjects_answered :
    outcome (deleteObjects bucket start contents (.answered [])) s =
      (.ok contents.length, s.remove bucket contents) := by
  have hall : contents.filter (fun key => decide (key ∉ ([] : List String))) = contents := by simp
  have hnone : contents.filter (fun key => decide (key ∈ ([] : List String))) = [] := by simp
  simp only [deleteObjects, hall, hnone, outcome_bind, outcome_modify, List.length_nil, if_true,
    outcome_pure]

/-- A page lists objects that begin as asked. -/
theorem cleared_remove (hlisted : ∀ key ∈ contents, s.under bucket start key = true) :
    (s.remove bucket contents).cleared bucket start = s.cleared bucket start := by
  unfold Host.cleared Host.remove
  congr 1
  funext b key
  by_cases hgone : b = bucket ∧ beginsWith start key = true
  · rw [if_pos hgone, if_pos hgone]
  · have hnot : ¬ (b = bucket ∧ key ∈ contents) := fun h =>
      hgone ⟨h.1, (Bool.and_eq_true_iff.mp (hlisted key h.2)).2⟩
    rw [if_neg hgone, if_neg hgone]
    exact if_neg hnot

theorem remove_last (hlisted : ∀ key ∈ contents, s.under bucket start key = true)
    (hlast : ∀ key, without (s.under bucket start) contents key = false) :
    s.remove bucket contents = s.cleared bucket start := by
  rw [← cleared_remove hlisted]
  refine Host.ext rfl (funext fun b => funext fun key => ?_)
  simp only [Host.cleared]
  by_cases hgone : b = bucket ∧ beginsWith start key = true
  · rw [if_pos hgone]
    obtain ⟨rfl, hbegins⟩ := hgone
    have hunder : (s.remove b contents).under b start key = false := by
      rw [under_remove]
      exact hlast key
    rw [Host.under, hbegins, Bool.and_true] at hunder
    exact Option.isSome_eq_false_iff.mp hunder |> Option.isNone_iff_eq_none.mp
  · rw [if_neg hgone]

/-- Page by page, everything that begins as asked is deleted. -/
theorem deletePrefix_succeeds (hhonest : Honest keys services.listObjects passed)
    {pages : List PageReply} (hpages : ∀ reply ∈ pages, reply = .answered [])
    {token : Option String} {deleted : Nat} (hwithin : Within keys (s.under bucket start))
    (hunpassed : Unpassed passed token (s.under bucket start))
    (hlong : remaining keys (s.under bucket start) < pages.length) :
    Succeeds (deletePrefix services bucket start pages token deleted) s
      fun _ s' => s' = s.cleared bucket start := by
  induction pages generalizing s token deleted with
  | nil => exact absurd hlong (Nat.not_lt_zero _)
  | cons reply pages ih =>
    have hlisted : ∀ key ∈ (services.listObjects (s.under bucket start) token).contents,
        s.under bucket start key = true := fun key hkey => hhonest.listed _ _ key hkey
    rw [hpages reply List.mem_cons_self]
    have hstep : Succeeds (deleteObjects bucket start
        (services.listObjects (s.under bucket start) token).contents (.answered [])) s
        fun _ s' => s' = s.remove bucket
          (services.listObjects (s.under bucket start) token).contents :=
      ⟨_, _, deleteObjects_answered, rfl⟩
    unfold deletePrefix
    refine succeeds_after_get (hstep.bind fun count s₁ hs₁ => ?_)
    subst hs₁
    cases htruncated : (services.listObjects (s.under bucket start) token).truncated with
    | false =>
      simp only [Bool.false_eq_true, if_false]
      exact succeeds_pure (remove_last hlisted fun key =>
        hhonest.last hwithin htruncated hunpassed key)
    | true =>
      simp only [if_true]
      have hrest := hhonest.remaining_lt hwithin htruncated
      have hnext := hhonest.unpassed_next hwithin htruncated hunpassed
      rw [List.length_cons] at hlong
      refine (ih (fun reply hreply => hpages reply (List.mem_cons_of_mem _ hreply)) ?_ ?_ ?_).imp
        fun _ s' hs' => hs'.trans (cleared_remove hlisted)
      · rw [under_remove]
        exact hwithin.without _
      · rw [under_remove]
        exact hnext
      · rw [under_remove]
        omega

theorem resetObjects_succeeds (hhonest : Honest keys services.listObjects passed)
    {pages : String → List PageReply} {starts : List String}
    (hpages : ∀ start ∈ starts, keys.length < (pages start).length ∧
      ∀ reply ∈ pages start, reply = .answered [])
    (hwithin : ∀ start ∈ starts, Within keys (s.under bucket start)) :
    Succeeds (resetObjects services bucket pages starts) s
      fun _ s' => s' = starts.foldl (fun s start => s.cleared bucket start) s := by
  induction starts generalizing s with
  | nil => exact succeeds_pure rfl
  | cons start starts ih =>
    obtain ⟨hlong, hanswered⟩ := hpages start List.mem_cons_self
    have hfirst : Succeeds (deletePrefix services bucket start (pages start) none 0) s
        fun _ s' => s' = s.cleared bucket start :=
      deletePrefix_succeeds hhonest hanswered (hwithin start List.mem_cons_self)
        (hhonest.unpassed_none _) (Nat.lt_of_le_of_lt (List.length_filter_le _ _) hlong)
    unfold resetObjects
    refine (succeeds_mapFailure hfirst).bind fun _ s₁ hs₁ => ?_
    subst hs₁
    exact ih (fun start hstart => hpages start (List.mem_cons_of_mem _ hstart))
      fun start hstart key hkey =>
        hwithin start (List.mem_cons_of_mem _ hstart) key (under_cleared hkey)

theorem foldl_cleared (starts : List String) :
    starts.foldl (fun s start => s.cleared bucket start) s =
      { s with stores := fun b key =>
          if b = bucket ∧ ∃ start ∈ starts, beginsWith start key = true then none
          else s.stores b key } := by
  induction starts generalizing s with
  | nil => simp
  | cons start starts ih =>
    rw [List.foldl_cons, ih]
    unfold Host.cleared
    congr 1
    funext b key
    by_cases hbucket : b = bucket
    · by_cases hrest : ∃ start ∈ starts, beginsWith start key = true
      · simp [hbucket, hrest]
      · by_cases hfirst : beginsWith start key = true
        · simp [hbucket, hfirst]
        · simp [hbucket, hrest, hfirst]
    · simp [hbucket]

end Deletions

/-! ## What is requested -/

/-- The database before the generated tables are cleared. -/
def prepared (services : Services) (o : DeployMaintenanceOptions) (rows : String → List Row)
    (database : Option Database) : Database :=
  let migrated := services.migrated services.migrations.length
    (if o.freshDatabase then none else database)
  if o.imports then withCatalog rows migrated else migrated

def withoutGenerated (database : Database) : Database :=
  fun name => if name ∈ generatedTables then [] else database name

/-- The database that a run is asked to leave. -/
def requested (services : Services) (o : DeployMaintenanceOptions) (rows : String → List Row)
    (database : Option Database) : Database :=
  if o.resetGeneratedState then withoutGenerated (prepared services o rows database)
  else prepared services o rows database

/-- Every service answers, and there are enough pages for so many objects. -/
structure Obliging (services : Services) (o : DeployMaintenanceOptions) (rows : String → List Row)
    (count : Nat) (replies : Replies) : Prop where
  directory : replies.directory = .ok ()
  connectForBackup : replies.connectForBackup = .ok ()
  vacuum : replies.vacuum = .ok ()
  upload : replies.upload = .stored
  removeFile : replies.removeFile = .ok ()
  removeSidecars : replies.removeSidecars = .ok ()
  connect : replies.connect = .connected
  seed : o.imports = true → services.loadSeed o.catalogSeed = .ok rows
  importSeed : replies.importSeed = .ok ()
  pages : ∀ start ∈ generatedObjectPrefixes, count < (replies.pages start).length ∧
    ∀ reply ∈ replies.pages start, reply = .answered []
  clear : replies.clear = .ok ()
  ping : replies.ping = .ok ()
  catalog : replies.catalog = .ok ()

/-- The options are accepted. -/
structure Accepted (config : Config) (o : DeployMaintenanceOptions) (seconds : Nat) : Prop where
  confirmed : o.destructive = true → o.confirm = some "WIPE"
  path : sqliteDatabasePath config.databaseUrl ≠ none
  credentials : ∃ storage, config.backupStorage = some storage ∧
    storage.accessKeyId.isSome = true ∧ storage.secretAccessKey.isSome = true
  label : ∃ key, backupKey o seconds = .ok key

section Completion

variable {services : Services} {config : Config} {o : DeployMaintenanceOptions} {replies : Replies}
  {s : Host} {rows : String → List Row} {keys : List String}
  {passed : Option String → String → Prop}

/-- No foreign key is in the way. -/
theorem childrenFirst_generated : ChildrenFirst foreignKeys [] generatedTables := by decide

theorem clearGeneratedState_succeeds (hclear : replies.clear = .ok ()) {database : Database}
    (h : s.database = some database) : Succeeds (clearGeneratedState replies) s fun _ s' =>
      s' = { s with database := some (withoutGenerated database) } := by
  have hcleared : clear foreignKeys database generatedTables = some (withoutGenerated database) :=
    clear_childrenFirst (fun _ h => absurd h List.not_mem_nil) childrenFirst_generated
  refine succeeds_after_ofResult hclear (succeeds_after_get ?_)
  simp only [h, hcleared]
  exact succeeds_modify rfl

/-! Each part of what comes after the backup. -/

theorem removeFiles_succeeds {count : Nat} (hobliging : Obliging services o rows count replies) :
    Succeeds (onlyIf o.freshDatabase (removeSqliteDatabaseFiles replies)) s fun _ s' =>
      s' = { s with database := if o.freshDatabase then none else s.database } := by
  refine succeeds_onlyIf (fun hfresh => ?_) fun hfresh => by rw [hfresh]; rfl
  refine succeeds_after_ofResult hobliging.removeFile (succeeds_after_modify ?_)
  exact succeeds_ofResult hobliging.removeSidecars (by rw [hfresh]; rfl)

theorem connect_succeeds {count : Nat} (hobliging : Obliging services o rows count replies) :
    Succeeds (connect services replies) s fun _ s' => s' = { s with
      database := some (services.migrated services.migrations.length s.database) } := by
  rw [connect, hobliging.connect]
  exact succeeds_modify rfl

theorem importSeed_succeeds {count : Nat} (hobliging : Obliging services o rows count replies) :
    Succeeds (onlyIf o.imports (importCatalogSeed services o.catalogSeed replies)) s fun _ s' =>
      s' = { s with
        database := if o.imports then s.database.map (withCatalog rows) else s.database } := by
  refine succeeds_onlyIf (fun himports => ?_) fun himports => by rw [himports]; rfl
  have hloaded : withContext s!"loading catalog seed from {o.catalogSeed}"
      (services.loadSeed o.catalogSeed) = .ok rows := by rw [hobliging.seed himports]; rfl
  have himported : withContext s!"importing catalog seed from {o.catalogSeed}"
      replies.importSeed = .ok () := by rw [hobliging.importSeed]; rfl
  refine succeeds_after_ofResult hloaded (succeeds_after_ofResult himported ?_)
  exact succeeds_modify (by rw [himports]; rfl)

theorem resetGeneratedObjects_succeeds
    (hobliging : Obliging services o rows keys.length replies)
    (hhonest : Honest keys services.listObjects passed)
    (hkeys : ∀ key, Generated key → s.stores config.storage.bucket key ≠ none → key ∈ keys) :
    Succeeds (resetGeneratedObjects services config replies) s fun _ s' =>
      s' = generatedObjectPrefixes.foldl
        (fun s start => s.cleared config.storage.bucket start) s := by
  refine resetObjects_succeeds hhonest hobliging.pages fun start hstart key hkey => ?_
  obtain ⟨hsome, hbegins⟩ := Bool.and_eq_true_iff.mp hkey
  refine hkeys key ⟨start, hstart, hbegins⟩ fun hnone => ?_
  rw [hnone] at hsome
  cases hsome

theorem ready_succeeds {count : Nat} (hobliging : Obliging services o rows count replies)
    {database : Database} (hdatabase : s.database = some database)
    (hmodels : database "catalog_models" ≠ []) :
    Succeeds (ensureDatabaseReadyForServe replies) s fun _ s' => s' = s := by
  refine succeeds_after_ofResult hobliging.ping (succeeds_after_ofResult hobliging.catalog ?_)
  refine succeeds_after_get (succeeds_ofResult (a := ()) ?_ rfl)
  rw [ensure, if_pos]
  simpa [hdatabase] using hmodels

/-- After the backup, the database and the objects become what is requested. -/
theorem prepareDatabase_succeeds (hobliging : Obliging services o rows keys.length replies)
    (hhonest : Honest keys services.listObjects passed)
    (hkeys : ∀ key, Generated key → s.stores config.storage.bucket key ≠ none → key ∈ keys)
    (hcatalog : requested services o rows s.database "catalog_models" ≠ []) :
    Succeeds (prepareDatabase services config o replies) s fun _ s' =>
      s'.database = some (requested services o rows s.database) ∧
        ∀ bucket key, s'.stores bucket key =
          if o.resetGeneratedState = true ∧ bucket = config.storage.bucket ∧ Generated key then none
          else s.stores bucket key := by
  unfold prepareDatabase
  refine (removeFiles_succeeds hobliging).bind fun _ s₁ h₁ => ?_
  refine (connect_succeeds hobliging).bind fun _ s₂ h₂ => ?_
  refine (importSeed_succeeds hobliging).bind fun _ s₃ h₃ => ?_
  have hstores : s₃.stores = s.stores := by rw [h₃, h₂, h₁]
  have hdatabase : s₃.database = some (prepared services o rows s.database) := by
    rw [h₃, h₂, h₁, prepared]
    cases o.imports <;> rfl
  cases hreset : o.resetGeneratedState with
  | false =>
    rw [requested, hreset, if_neg Bool.false_ne_true] at hcatalog
    rw [requested, hreset, if_neg Bool.false_ne_true]
    refine (succeeds_pure (P := fun _ s' => s' = s₃) rfl).bind fun _ s₄ h => ?_
    subst h
    refine (ready_succeeds hobliging hdatabase hcatalog).imp fun _ s' h => ?_
    subst h
    exact ⟨hdatabase, fun bucket key => by rw [hstores, if_neg fun h => Bool.noConfusion h.1]⟩
  | true =>
    rw [requested, hreset, if_pos rfl] at hcatalog
    rw [requested, hreset, if_pos rfl]
    refine Succeeds.bind (P := fun _ s' =>
      s'.database = some (withoutGenerated (prepared services o rows s.database)) ∧
        s'.stores = (generatedObjectPrefixes.foldl
          (fun s start => s.cleared config.storage.bucket start) s₃).stores) ?_ ?_
    · have hdeleted := resetGeneratedObjects_succeeds hobliging hhonest (by rwa [hstores])
      refine hdeleted.bind fun _ s₄ h₄ => ?_
      have hsame : s₄.database = s₃.database := by rw [h₄, foldl_cleared]
      refine (clearGeneratedState_succeeds hobliging.clear (hsame.trans hdatabase)).imp
        fun _ s₅ h₅ => ?_
      subst h₅
      exact ⟨rfl, by rw [h₄]⟩
    · rintro _ s₄ ⟨hcleared, hobjects⟩
      refine (ready_succeeds hobliging hcleared hcatalog).imp fun _ s' h => ?_
      subst h
      refine ⟨hcleared, fun bucket key => ?_⟩
      rw [hobjects, foldl_cleared, hstores]
      simp only [Generated, true_and]

theorem backup_succeeds (haccepted : Accepted config o replies.seconds)
    (hobliging : Obliging services o rows keys.length replies) :
    Succeeds (backupDatabaseToPrivateStorage config o replies) s fun _ s' =>
      s'.database = s.database ∧
      (∀ bucket key, backupAt config o replies ≠ some (bucket, key) →
        s'.stores bucket key = s.stores bucket key) ∧
      ∀ database bucket key, s.database = some database →
        backupAt config o replies = some (bucket, key) →
          s'.stores bucket key = some (.backup database) := by
  obtain ⟨storage, hstorage, hcredentials⟩ := haccepted.credentials
  obtain ⟨key, hkey⟩ := haccepted.label
  have hat : backupAt config o replies = some (storage.bucket, key) := by
    simp only [backupAt, hstorage, hkey]
  have hensure : ensure (storage.accessKeyId.isSome = true ∧ storage.secretAccessKey.isSome = true)
      ("backup storage credentials are incomplete; set BACKUP_AWS_ACCESS_KEY_ID and " ++
        "BACKUP_AWS_SECRET_ACCESS_KEY") = .ok () := if_pos hcredentials
  unfold backupDatabaseToPrivateStorage
  simp only [hstorage, hensure, Succeeds, outcome_bind, outcome_ofResult, outcome_get]
  cases hdatabase : s.database with
  | none =>
    refine ⟨_, s, rfl, hdatabase, fun _ _ _ => rfl, fun database bucket key h => ?_⟩
    cases h
  | some database =>
    simp only [hkey, hobliging.directory, hobliging.connectForBackup, hobliging.vacuum,
      hobliging.upload, withContext, outcome_bind, outcome_ofResult, outcome_modify]
    refine ⟨some key, s.put storage.bucket key (.backup database), rfl, hdatabase,
      fun bucket' key' hne => put_of_ne fun h => hne (by rw [hat, h]), ?_⟩
    rintro database' bucket' key' hsame hat'
    cases hsame
    rw [hat] at hat'
    cases hat'
    exact put_at

end Completion

/-! ## The objects of exports -/

section Exports

variable {c : Pipeline.Setup} {replies : Pipeline.Replies} {r : Pipeline.Refresh}
  {s : Pipeline.Shared} {bucket : Pipeline.Bucket} {key : String}

/-- Every object is one that a reset deletes. -/
def Resettable (bucket : Pipeline.Bucket) : Prop := ∀ key, bucket key ≠ none → Generated key

theorem Resettable.write (h : Resettable bucket) (hkey : Generated key)
    (object : Option Pipeline.StoredObject) : Resettable (Store.write bucket key object) := by
  intro key' hsome
  by_cases hsame : key' = key
  · rw [hsame]
    exact hkey
  · rw [write_of_ne _ hsame] at hsome
    exact h key' hsome

theorem Resettable.putBytes (h : Resettable bucket) (hkey : Generated key)
    (put : Pipeline.PutReply) (object : Pipeline.StoredObject) :
    Resettable (Pipeline.putBytes put key object bucket) := by
  unfold Pipeline.putBytes
  split
  · exact h.write hkey _
  · exact h

theorem beginsWith_iff {start : String} :
    beginsWith start key = true ↔ start.toList <+: key.toList := List.isPrefixOf_iff_prefix

theorem generated_rawPayloadObjectKey (hash : String) :
    Generated (Translations.rawPayloadObjectKey hash) := by
  have hstart : beginsWith "onshape/raw/v2/" (Translations.rawPayloadObjectKey hash) = true := by
    unfold Translations.rawPayloadObjectKey
    simp only [beginsWith_iff, String.toList_append, List.append_assoc]
    exact List.prefix_append ..
  exact ⟨_, by simp [generatedObjectPrefixes], hstart⟩

theorem generated_of_served (h : Pipeline.Served key) : Generated key := by
  rcases h with h | h
  · exact ⟨"previews/v2/", by simp [generatedObjectPrefixes], beginsWith_iff.mpr h⟩
  · exact ⟨"artifacts/v2/", by simp [generatedObjectPrefixes], beginsWith_iff.mpr h⟩

theorem fetchedBucket_resettable (h : Resettable bucket) (phase : Translations.Phase) :
    Resettable (Pipeline.fetchedBucket c replies phase bucket) := by
  unfold Pipeline.fetchedBucket
  split
  · split
    · exact h
    · exact h.putBytes (generated_rawPayloadObjectKey _) _ _
  · exact h

theorem publishStep_resettable (h : Resettable s.bucket) {hash : String}
    {d : Postprocess.Derived} (upload : Pipeline.Upload) :
    Resettable (Pipeline.publishStep c replies r s hash d upload).2.bucket := by
  cases upload with
  | staging =>
    simp only [Pipeline.publishStep]
    split <;> exact h
  | uploading done =>
    simp only [Pipeline.publishStep]
    split
    · exact h
    · rename_i file _
      have hput : Resettable (Pipeline.putBytes replies.put (r.fileKey c hash d file)
          ⟨file.bytes, file.contentType⟩ s.bucket) :=
        h.putBytes (generated_of_served Pipeline.served_objectKey) _ _
      split <;> exact hput
  | verifying done =>
    simp only [Pipeline.publishStep]
    split
    · exact h
    · split <;> exact h
  | failing error => exact h
  | superseding => exact h

theorem work_resettable (h : Resettable s.bucket) (phase : Pipeline.Phase) :
    Resettable (Pipeline.work c replies r s phase).2.bucket := by
  cases phase with
  | fetching translation => exact fetchedBucket_resettable h translation
  | publishing hash d upload => exact publishStep_resettable h upload
  | requested =>
    simp only [Pipeline.work]
    split <;> exact h
  | loading hash =>
    simp only [Pipeline.work]
    split <;> exact h
  | reading hash objectKey =>
    simp only [Pipeline.work]
    split <;> exact h
  | transitioning hash derived =>
    simp only [Pipeline.work]
    split <;> exact h
  | recording hash => exact h
  | returned result => exact h
  | gone => exact h

theorem exports_resettable {ops : List Pipeline.Op} {s : Pipeline.State}
    (hops : ∀ key object, .overwrite key object ∈ ops → Generated key)
    (h : Resettable s.shared.bucket) :
    Resettable (run (Pipeline.step c) s ops).shared.bucket := by
  induction ops generalizing s with
  | nil => exact h
  | cons op ops ih =>
    rw [run_cons]
    refine ih (fun key object hop => hops key object (List.mem_cons_of_mem _ hop)) ?_
    cases op with
    | call r => exact h
    | work i replies =>
      simp only [Pipeline.step]
      split
      · exact h
      · exact work_resettable h _
    | stop i =>
      simp only [Pipeline.step]
      split <;> exact h
    | supersedeSet now hash by_ reason => exact h
    | overwrite key object => exact h.write (hops key object List.mem_cons_self) object

/-- The bucket of the service holds what some exports have stored since it was empty, whatever
became of the calls. -/
def HoldsExports (config : Config) (s : Host) : Prop :=
  ∃ (setup : Pipeline.Setup) (ops : List Pipeline.Op),
    (∀ key object, .overwrite key object ∈ ops → Generated key) ∧
    ∀ key, s.stores config.storage.bucket key =
      ((run (Pipeline.step setup) .empty ops).shared.bucket key).map .object

theorem HoldsExports.generated {config : Config} {s : Host} (h : HoldsExports config s)
    (hkey : s.stores config.storage.bucket key ≠ none) : Generated key := by
  obtain ⟨setup, ops, hops, hstored⟩ := h
  have hempty : Resettable Pipeline.State.empty.shared.bucket := fun _ h => absurd rfl h
  have hresettable : Resettable (run (Pipeline.step setup) .empty ops).shared.bucket :=
    exports_resettable hops hempty
  refine hresettable key fun hnone => hkey ?_
  rw [hstored, hnone]
  rfl

end Exports

theorem resetReplies_obliging {label : String} {count : Nat} :
    Obliging resetServices (resetOptions label) (fun _ => [fun _ => some "a"]) count
      (resetReplies (count + 1)) where
  directory := rfl
  connectForBackup := rfl
  vacuum := rfl
  upload := rfl
  removeFile := rfl
  removeSidecars := rfl
  connect := rfl
  seed _ := rfl
  importSeed := rfl
  pages _ _ := by simp [resetReplies]
  clear := rfl
  ping := rfl
  catalog := rfl

end Maintenance
end OnshapeExport
