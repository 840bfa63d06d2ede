import OnshapeExport.CacheModel
import OnshapeExport.Lib.Upsert

/-!
# SourceAliases

`upsert_source_resolution` and `source_resolution_for_version` over their two tables. A row of
`source_resolutions` is named by its source hash, which leaves the version out, and keeps the
version it was inserted with; an alias names the row of a version. Both tables have a unique index
over document, version, element, kind and link.

* `Resolutions.upsert` — the transaction, `none` when a constraint breaks.
* `Recorded` — what the tables say of the calls made.
* `resolution_answers` — which runs of calls succeed, and what the lookups answer after them.
-/

namespace OnshapeExport
namespace SourceAliases

open CacheModel Relational

/-! ## The tables -/

/-- What a lookup names. -/
structure CatalogIdentity where
  documentId : String
  versionId : String
  elementId : String
  elementKind : String
  linkDocumentId : Option String
deriving DecidableEq, Repr

/-- The columns of the unique indexes: `ifnull(link_document_id, '')`. -/
def CatalogIdentity.indexed (i : CatalogIdentity) : CatalogIdentity :=
  { i with linkDocumentId := some (i.linkDocumentId.getD "") }

structure SourceResolutionRecord extends CatalogIdentity where
  sourceHash : String
  modelSlug : String
  microversionId : String
  diagnosticsJson : String
  createdAt : Int
  updatedAt : Int
deriving DecidableEq, Repr

structure SourceResolutionAlias extends CatalogIdentity where
  sourceHash : String
  createdAt : Int
  updatedAt : Int
deriving DecidableEq, Repr

instance : Schema SourceResolutionRecord String where
  key r := r.sourceHash
  clash r s := r.sourceHash = s.sourceHash ∨
    r.toCatalogIdentity.indexed = s.toCatalogIdentity.indexed
  clash_of_key h := .inl h
  clash_symm h := h.imp Eq.symm Eq.symm

instance : DecidableRel (Schema.clash (α := SourceResolutionRecord)) := fun r s =>
  inferInstanceAs (Decidable (r.sourceHash = s.sourceHash ∨
    r.toCatalogIdentity.indexed = s.toCatalogIdentity.indexed))

instance : Schema SourceResolutionAlias CatalogIdentity where
  key a := a.toCatalogIdentity.indexed
  clash a b := a.toCatalogIdentity.indexed = b.toCatalogIdentity.indexed
  clash_of_key h := h
  clash_symm h := h.symm

instance : DecidableRel (Schema.clash (α := SourceResolutionAlias)) := fun a b =>
  inferInstanceAs (Decidable (a.toCatalogIdentity.indexed = b.toCatalogIdentity.indexed))

structure Resolutions where
  sources : Table SourceResolutionRecord
  aliases : Table SourceResolutionAlias

def Resolutions.empty : Resolutions := ⟨.empty, .empty⟩

/-! ## The statements -/

/-- A call, at the time the database gives it. -/
structure SourceResolutionUpsert extends CatalogIdentity where
  sourceHash : String
  modelSlug : String
  microversionId : String
  diagnosticsJson : String
  now : Int
deriving DecidableEq, Repr

def SourceResolutionUpsert.inserted (c : SourceResolutionUpsert) : SourceResolutionRecord :=
  ⟨c.toCatalogIdentity, c.sourceHash, c.modelSlug, c.microversionId, c.diagnosticsJson, c.now, c.now⟩

/-- `DO UPDATE SET` of the source: the version stays. -/
def SourceResolutionUpsert.updated (c : SourceResolutionUpsert) (r : SourceResolutionRecord) :
    SourceResolutionRecord :=
  { r with
    modelSlug := c.modelSlug
    documentId := c.documentId
    microversionId := c.microversionId
    elementId := c.elementId
    elementKind := c.elementKind
    linkDocumentId := c.linkDocumentId
    diagnosticsJson := c.diagnosticsJson
    updatedAt := c.now }

def SourceResolutionUpsert.alias (c : SourceResolutionUpsert) : SourceResolutionAlias :=
  ⟨c.toCatalogIdentity, c.sourceHash, c.now, c.now⟩

def SourceResolutionUpsert.realiased (c : SourceResolutionUpsert) (a : SourceResolutionAlias) :
    SourceResolutionAlias :=
  { a with sourceHash := c.sourceHash, updatedAt := c.now }

/-- `upsert_source_resolution`; the transaction is rolled back when a statement fails. -/
def Resolutions.upsert (db : Resolutions) (c : SourceResolutionUpsert) : Option Resolutions :=
  (db.sources.upsert? c.inserted c.updated).bind fun sources =>
    (db.aliases.upsert? c.alias c.realiased).map fun aliases => ⟨sources, aliases⟩

def Resolutions.after (db : Resolutions) (c : SourceResolutionUpsert) : Resolutions :=
  (db.upsert c).getD db

/-- The calls one after the other, `none` when one fails. -/
def Resolutions.upsertAll : Resolutions → List SourceResolutionUpsert → Option Resolutions
  | db, [] => some db
  | db, c :: calls => (db.upsert c).bind fun db => db.upsertAll calls

/-- `source_resolution_for_version`. -/
def Resolutions.sourceResolutionForVersion (db : Resolutions) (i : CatalogIdentity) :
    Option SourceResolutionRecord :=
  (db.aliases.find? i.indexed).bind fun a =>
    (db.sources.find? a.sourceHash).map fun s => { s with toCatalogIdentity := a.toCatalogIdentity }

/-! ## The invariant -/

def SourceResolutionRecord.payload (r : SourceResolutionRecord) : SourceHashPayload :=
  ⟨r.documentId, r.microversionId, r.elementId, r.elementKind, r.linkDocumentId⟩

def SourceResolutionUpsert.payload (c : SourceResolutionUpsert) : SourceHashPayload :=
  ⟨c.documentId, c.microversionId, c.elementId, c.elementKind, c.linkDocumentId⟩

/-- The last call for a key. -/
def lastFor (calls : List SourceResolutionUpsert) (key : CatalogIdentity) :
    Option SourceResolutionUpsert :=
  calls.reverse.find? fun c => c.toCatalogIdentity.indexed = key

theorem lastFor_concat (calls : List SourceResolutionUpsert) (c : SourceResolutionUpsert)
    (key : CatalogIdentity) :
    lastFor (calls ++ [c]) key =
      if c.toCatalogIdentity.indexed = key then some c else lastFor calls key := by
  by_cases h : c.toCatalogIdentity.indexed = key
  · simp [lastFor, h]
  · simp [lastFor, h]

theorem lastFor_mem {calls : List SourceResolutionUpsert} {key : CatalogIdentity}
    {c : SourceResolutionUpsert} (h : lastFor calls key = some c) : c ∈ calls :=
  List.mem_reverse.mp (List.mem_of_find?_eq_some h)

/-- The calls carry the hashes of what they name, and no two payloads share a hash. -/
structure Hashed (hash : SourceHashPayload → String) (calls : List SourceResolutionUpsert) :
    Prop where
  hashes : ∀ c ∈ calls, c.sourceHash = hash c.payload
  collisionFree : ∀ c ∈ calls, ∀ d ∈ calls, hash c.payload = hash d.payload → c.payload = d.payload

/-- What the tables say of the calls made. -/
structure Recorded (done : List SourceResolutionUpsert) (db : Resolutions) : Prop where
  rows : ∀ r ∈ db.sources.rows, ∃ c ∈ done, c.sourceHash = r.sourceHash ∧ c.payload = r.payload
  stored : ∀ c ∈ done, db.sources.find? c.sourceHash ≠ none
  aliases : ∀ key, (db.aliases.find? key).map SourceResolutionAlias.sourceHash =
    (lastFor done key).map SourceResolutionUpsert.sourceHash

theorem recorded_empty : Recorded [] .empty where
  rows r hr := by cases hr
  stored c hc := by cases hc
  aliases key := rfl

/-! ## One call -/

section Call

variable {hash : SourceHashPayload → String} {calls done : List SourceResolutionUpsert}
  {db : Resolutions} {c : SourceResolutionUpsert}

/-- The row of the hash of a call names what the call names. -/
theorem payload_of_row (hcalls : Hashed hash calls) (hdone : ∀ d ∈ done, d ∈ calls)
    (hc : c ∈ calls) (hdb : Recorded done db) {r : SourceResolutionRecord}
    (hr : r ∈ db.sources.rows) (h : r.sourceHash = c.sourceHash) : r.payload = c.payload := by
  obtain ⟨d, hd, hhash, hpayload⟩ := hdb.rows r hr
  rw [← hpayload]
  refine hcalls.collisionFree d (hdone d hd) c hc ?_
  rw [← hcalls.hashes d (hdone d hd), ← hcalls.hashes c hc, hhash, h]

theorem updated_keeps {r : SourceResolutionRecord} (h : r.payload = c.payload) :
    Table.KeepsRow c.updated r := by
  simp only [SourceResolutionRecord.payload, SourceResolutionUpsert.payload,
    SourceHashPayload.mk.injEq] at h
  obtain ⟨hdocument, _, helement, hkind, hlink⟩ := h
  have hidentity : (c.updated r).toCatalogIdentity = r.toCatalogIdentity := by
    simp only [SourceResolutionUpsert.updated, ← hdocument, ← helement, ← hkind, ← hlink]
  refine ⟨rfl, fun s => ?_⟩
  change _ ∨ (c.updated r).toCatalogIdentity.indexed = _ ↔ _
  rw [hidentity]
  rfl

theorem realiased_keeps (a : SourceResolutionAlias) : Table.KeepsRow c.realiased a :=
  ⟨rfl, fun _ => Iff.rfl⟩

theorem exists_aliased (aliases : Table SourceResolutionAlias) (c : SourceResolutionUpsert) :
    ∃ aliases', aliases.upsert? c.alias c.realiased = some aliases' :=
  Table.exists_upsert? (fun _ _ h => h) fun a _ _ => realiased_keeps a

/-- The state before a call in which it succeeds: its hash is stored, or no row has its key. -/
def Insertable (db : Resolutions) (c : SourceResolutionUpsert) : Prop :=
  (∃ r ∈ db.sources.rows, r.sourceHash = c.sourceHash) ∨
    ∀ r ∈ db.sources.rows, r.toCatalogIdentity.indexed ≠ c.toCatalogIdentity.indexed

theorem upsert_succeeds (hcalls : Hashed hash calls) (hdone : ∀ d ∈ done, d ∈ calls)
    (hc : c ∈ calls) (hdb : Recorded done db) :
    (∃ db', db.upsert c = some db') ↔ Insertable db c := by
  have hkeeps : ∀ r ∈ db.sources.rows, Schema.key r = Schema.key c.inserted →
      Table.KeepsRow c.updated r :=
    fun r hr hkey => updated_keeps (payload_of_row hcalls hdone hc hdb hr hkey)
  have hnone := Table.upsert?_eq_none hkeeps
  obtain ⟨aliases', haliases⟩ := exists_aliased db.aliases c
  constructor
  · intro h
    obtain ⟨db', h⟩ := h
    obtain ⟨sources', hsources, _⟩ := Option.bind_eq_some_iff.mp h
    by_contra hnot
    simp only [Insertable, not_or, not_exists, not_and, not_forall, not_not] at hnot
    obtain ⟨hhash, r, hr, hkey⟩ := hnot
    have hfail : db.sources.upsert? c.inserted c.updated = none :=
      hnone.mpr ⟨Table.find?_eq_none.mpr hhash, r, hr, .inr hkey⟩
    rw [hfail] at hsources
    cases hsources
  · intro h
    cases hsources : db.sources.upsert? c.inserted c.updated with
    | some sources' => exact ⟨⟨sources', aliases'⟩, by rw [Resolutions.upsert, hsources,
        Option.bind_some, haliases, Option.map_some]⟩
    | none =>
      obtain ⟨hfind, r, hr, hclash⟩ := hnone.mp hsources
      have hother := Table.find?_eq_none.mp hfind r hr
      rcases h with ⟨s, hs, hhash⟩ | hfree
      · exact absurd hhash (Table.find?_eq_none.mp hfind s hs)
      · rcases hclash with hhash | hkey
        · exact absurd hhash hother
        · exact absurd hkey (hfree r hr)

theorem recorded_upsert (hcalls : Hashed hash calls) (hdone : ∀ d ∈ done, d ∈ calls)
    (hc : c ∈ calls) (hdb : Recorded done db) {db' : Resolutions} (h : db.upsert c = some db') :
    Recorded (done ++ [c]) db' := by
  have hkeeps : ∀ r ∈ db.sources.rows, Schema.key r = Schema.key c.inserted →
      Table.KeepsRow c.updated r :=
    fun r hr hkey => updated_keeps (payload_of_row hcalls hdone hc hdb hr hkey)
  obtain ⟨sources', hsources, h⟩ := Option.bind_eq_some_iff.mp h
  obtain ⟨aliases', haliases, rfl⟩ := Option.map_eq_some_iff.mp h
  have hfind := Table.find?_of_upsert? hkeeps hsources
  have halias := Table.find?_of_upsert? (fun a _ _ => realiased_keeps a) haliases
  have hself : Schema.key c.inserted = c.sourceHash := rfl
  have hselfAlias : Schema.key c.alias = c.toCatalogIdentity.indexed := rfl
  constructor
  · intro r hr
    have hr' : sources'.find? r.sourceHash = some r := Table.find?_of_mem hr
    rw [hfind, hself] at hr'
    by_cases hk : c.sourceHash = r.sourceHash
    · refine ⟨c, by simp, hk, ?_⟩
      rw [if_pos hk] at hr'
      cases hold : db.sources.find? r.sourceHash with
      | none =>
        rw [hold] at hr'
        cases hr'
        rfl
      | some s =>
        rw [hold] at hr'
        cases hr'
        rfl
    · rw [if_neg hk] at hr'
      obtain ⟨d, hd, hhash, hpayload⟩ := hdb.rows r (Table.find?_mem hr')
      exact ⟨d, List.mem_append_left _ hd, hhash, hpayload⟩
  · intro d hd
    rw [hfind, hself]
    by_cases hk : c.sourceHash = d.sourceHash
    · rw [if_pos hk]
      exact Option.some_ne_none _
    · rw [if_neg hk]
      rcases List.mem_append.mp hd with hd | hd
      · exact hdb.stored d hd
      · rw [List.mem_singleton.mp hd] at hk
        exact absurd rfl hk
  · intro key
    rw [halias, lastFor_concat, hselfAlias]
    by_cases hk : c.toCatalogIdentity.indexed = key
    · rw [if_pos hk, if_pos hk]
      cases db.aliases.find? key <;> rfl
    · rw [if_neg hk, if_neg hk]
      exact hdb.aliases key

end Call

/-! ## Runs -/

/-- Every call of the run meets a state in which it succeeds. -/
def AllInsertable : Resolutions → List SourceResolutionUpsert → Prop
  | _, [] => True
  | db, c :: calls => Insertable db c ∧ AllInsertable (db.after c) calls

section Run

variable {hash : SourceHashPayload → String} {calls : List SourceResolutionUpsert}

theorem recorded_run (hcalls : Hashed hash calls) :
    ∀ (next done : List SourceResolutionUpsert) (db : Resolutions), done ++ next = calls →
      Recorded done db →
      ((∃ db', db.upsertAll next = some db') ↔ AllInsertable db next) ∧
        ∀ db', db.upsertAll next = some db' → Recorded calls db' := by
  intro next
  induction next with
  | nil =>
    intro done db hsplit hdb
    rw [List.append_nil] at hsplit
    rw [hsplit] at hdb
    refine ⟨⟨fun _ => trivial, fun _ => ⟨db, rfl⟩⟩, fun db' h => ?_⟩
    cases h
    exact hdb
  | cons c next ih =>
    intro done db hsplit hdb
    have hdone : ∀ d ∈ done, d ∈ calls := fun d hd => by
      rw [← hsplit]
      exact List.mem_append_left _ hd
    have hc : c ∈ calls := by
      rw [← hsplit]
      simp
    have hsucceeds := upsert_succeeds hcalls hdone hc hdb
    cases hupsert : db.upsert c with
    | none =>
      have hnot : ¬Insertable db c := by
        rw [← hsucceeds, hupsert]
        simp
      simp [Resolutions.upsertAll, hupsert, AllInsertable, hnot]
    | some db₁ =>
      have hinsertable : Insertable db c := hsucceeds.mp ⟨db₁, hupsert⟩
      obtain ⟨hrun, hrecorded⟩ := ih (done ++ [c]) db₁ (by rw [← hsplit]; simp)
        (recorded_upsert hcalls hdone hc hdb hupsert)
      have hafter : db.after c = db₁ := by rw [Resolutions.after, hupsert, Option.getD_some]
      simp only [Resolutions.upsertAll, hupsert, Option.bind_some, AllInsertable, hafter,
        hinsertable, true_and]
      exact ⟨hrun, hrecorded⟩

/-- What a lookup answers with: the hash, the microversion, and the key with its version. -/
def SourceResolutionRecord.answer (r : SourceResolutionRecord) : String × String × CatalogIdentity :=
  (r.sourceHash, r.microversionId, r.toCatalogIdentity.indexed)

theorem answer_of_recorded (hcalls : Hashed hash calls) {db : Resolutions}
    (hdb : Recorded calls db) (key : CatalogIdentity) :
    (db.sourceResolutionForVersion key).map SourceResolutionRecord.answer =
      (lastFor calls key.indexed).map fun c => (c.sourceHash, c.microversionId, key.indexed) := by
  have halias := hdb.aliases key.indexed
  rw [Resolutions.sourceResolutionForVersion]
  cases hlast : lastFor calls key.indexed with
  | none =>
    rw [hlast, Option.map_none, Option.map_eq_none_iff] at halias
    rw [halias]
    rfl
  | some c =>
    rw [hlast, Option.map_some] at halias
    obtain ⟨a, ha, hhash⟩ := Option.map_eq_some_iff.mp halias
    have hc := lastFor_mem hlast
    obtain ⟨s, hs⟩ := Option.ne_none_iff_exists'.mp (hdb.stored c hc)
    have hkey : s.sourceHash = c.sourceHash := Table.find?_key hs
    have hpayload := payload_of_row hcalls (fun _ hd => hd) hc hdb (Table.find?_mem hs) hkey
    have hindexed : a.toCatalogIdentity.indexed = key.indexed := Table.find?_key ha
    have hmicroversion : s.microversionId = c.microversionId :=
      congrArg SourceHashPayload.microversionId hpayload
    rw [ha, Option.bind_some, hhash, hs, Option.map_some, Option.map_some, Option.map_some,
      SourceResolutionRecord.answer, hkey, hmicroversion, hindexed]

/-- The runs whose calls all succeed, and what the lookups answer after them. Keys whose links are
not empty are the keys of the indexes. -/
theorem resolution_answers (hcalls : Hashed hash calls) :
    ((∃ db, Resolutions.empty.upsertAll calls = some db) ↔ AllInsertable .empty calls) ∧
      (∀ db, Resolutions.empty.upsertAll calls = some db → ∀ key,
        (db.sourceResolutionForVersion key).map SourceResolutionRecord.answer =
          (lastFor calls key.indexed).map fun c => (c.sourceHash, c.microversionId, key.indexed)) ∧
      ∀ key key' : CatalogIdentity, key.linkDocumentId ≠ some "" → key'.linkDocumentId ≠ some "" →
        (key.indexed = key'.indexed ↔ key = key') := by
  obtain ⟨hrun, hrecorded⟩ := recorded_run hcalls calls [] .empty rfl recorded_empty
  refine ⟨hrun, fun db hdb key => answer_of_recorded hcalls (hrecorded db hdb) key, ?_⟩
  intro key key' hlink hlink'
  obtain ⟨d, v, e, k, link⟩ := key
  obtain ⟨d', v', e', k', link'⟩ := key'
  cases link <;> cases link' <;> simp_all [CatalogIdentity.indexed]

end Run

/-! ## Another microversion of one version -/

def joinedHash (p : SourceHashPayload) : String :=
  p.documentId ++ "." ++ p.microversionId ++ "." ++ p.elementId ++ "." ++ p.elementKind ++ "." ++
    p.linkDocumentId.getD ""

def resolvedAt (versionId microversionId : String) : SourceResolutionUpsert :=
  ⟨⟨"d", versionId, "e", "part_studio", none⟩,
    joinedHash ⟨"d", microversionId, "e", "part_studio", none⟩, "m", microversionId, "{}", 0⟩

theorem resolvedAt_hashed {calls : List (String × String)} (h : ∀ c ∈ calls, ∀ d ∈ calls,
    joinedHash ⟨"d", c.2, "e", "part_studio", none⟩ = joinedHash ⟨"d", d.2, "e", "part_studio", none⟩ →
      c.2 = d.2) : Hashed joinedHash (calls.map fun c => resolvedAt c.1 c.2) where
  hashes c hc := by
    obtain ⟨p, _, rfl⟩ := List.mem_map.mp hc
    rfl
  collisionFree c hc d hd hhash := by
    obtain ⟨p, hp, rfl⟩ := List.mem_map.mp hc
    obtain ⟨q, hq, rfl⟩ := List.mem_map.mp hd
    have hsame := h p hp q hq hhash
    simp only [SourceResolutionUpsert.payload, resolvedAt, hsame]

/-- The second call breaks the unique index of `source_resolutions`, and the answer stays. -/
theorem second_microversion_fails :
    Hashed joinedHash [resolvedAt "v" "m", resolvedAt "v" "n"] ∧
      (Resolutions.empty.upsertAll [resolvedAt "v" "m"]).isSome = true ∧
      (Resolutions.empty.upsertAll [resolvedAt "v" "m", resolvedAt "v" "n"]).isSome = false ∧
      (((Resolutions.empty.after (resolvedAt "v" "m")).after
          (resolvedAt "v" "n")).sourceResolutionForVersion
        (resolvedAt "v" "n").toCatalogIdentity).map SourceResolutionRecord.microversionId =
        some "m" :=
  ⟨@resolvedAt_hashed [("v", "m"), ("v", "n")] (by decide), by decide, by decide, by decide⟩

theorem resolution_answers_versions :
    ((∃ db, Resolutions.empty.upsertAll [resolvedAt "v" "m", resolvedAt "w" "m"] = some db) ↔
      AllInsertable .empty [resolvedAt "v" "m", resolvedAt "w" "m"]) :=
  (resolution_answers (@resolvedAt_hashed [("v", "m"), ("w", "m")] (by decide))).1

end SourceAliases
end OnshapeExport
