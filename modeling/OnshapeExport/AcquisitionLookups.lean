import OnshapeExport.AcquisitionRuns
import OnshapeExport.BoundedJson
import OnshapeExport.GeneratorRunner
import OnshapeExport.Lib.Trace

/-!
# AcquisitionLookups

How `onshape_geometry.rs` answers a serialized lookup. The bytes come from outside; they name a
plan and the identity of its record and may bring copies of both. What is handed out is read from
the table of associations, and the copies are only compared with it.

* `lookupAcquisitionPlan` — the answer to the bytes of a lookup.
* `lookup_ok` — what an answer stands for.
* `step` — the table is written by recordings, and lookups run at any time on any database.
* `lookups_authorise` — over every run: what the answers stand for, and what stays.
-/

namespace OnshapeExport
namespace Geometry

open Annotation CacheKey CacheModel Checks Encoding Json OnshapeApi Relational Selection

structure ProvenanceLookup where
  provenanceSchemaVersion : Nat
  planIdentity : String
  provenanceIdentity : String
  plan : Option ResolvedSelectionPlan
  record : Option ProvenanceRecord
deriving DecidableEq

open Fields in
def ProvenanceLookup.codec : Codec ProvenanceLookup :=
  .record true (((required "provenanceSchemaVersion" (.unsigned 32)).and <|
    (required "planIdentity" .str).and <|
    (required "provenanceIdentity" .str).and <|
    (optional "plan" ResolvedSelectionPlan.codec true).and
      (optional "record" ProvenanceRecord.codec true)).iso
    (fun (a, b, c, d, e) => ⟨a, b, c, d, e⟩)
    (fun x => (x.provenanceSchemaVersion, x.planIdentity, x.provenanceIdentity, x.plan, x.record))
    fun _ => rfl)

def invalid : ApiFailure := .new .invalidSelection "invalid_acquisition_handoff"

/-- `value.get(name)` is a null. -/
def nullMember (value : Value) (name : String) : Bool :=
  match value with
  | .object members => get? members name = some .null
  | _ => false

section Lookup

variable (digests : Digests) (sizes : Sizes) (hashes : ExportHashes)
  (canonicalOrigin : String → Except ApiFailure String) (origin : String)

/-- The request a handle serializes to. -/
def lookupRequest (trusted : TrustedAcquisitionPlan) : Except ApiFailure String :=
  boundedCanonical digests (ProvenanceLookup.codec.enc
    ⟨1, trusted.record.plan.planIdentity, trusted.record.provenanceIdentity, none, none⟩)

/-- What the bytes of a lookup denote, before anything is looked up. -/
def readLookup (bytes : ByteArray) : Except ApiFailure ProvenanceLookup := do
  let value ← (parseBytes digests.text bytes recordLimit).mapError fun _ => invalid
  match ProvenanceLookup.codec.dec value with
  | none => throw invalid
  | some lookup =>
    ensure (lookup.provenanceSchemaVersion = 1 ∧ isSha256 lookup.planIdentity = true ∧
      isSha256 lookup.provenanceIdentity = true ∧ nullMember value "plan" = false ∧
      nullMember value "record" = false) invalid
    let canonical ← boundedCanonical digests (ProvenanceLookup.codec.enc lookup)
    ensure (canonicalJson digests value = canonical) invalid
    return lookup

/-- The copies a lookup brings are those of the association. Plans are compared as floats are. -/
def suppliedPair (lookup : ProvenanceLookup) (trusted : TrustedAcquisitionPlan) : Prop :=
  (∀ plan ∈ lookup.plan, settlePlan plan = settlePlan trusted.record.plan) ∧
    ∀ record ∈ lookup.record,
      (boundedCanonical digests (ProvenanceRecord.codec.enc record)).toOption =
        (boundedCanonical digests (ProvenanceRecord.codec.enc trusted.record)).toOption

instance (lookup : ProvenanceLookup) (trusted : TrustedAcquisitionPlan) :
    Decidable (suppliedPair digests lookup trusted) :=
  inferInstanceAs (Decidable (_ ∧ _))

def lookupAcquisitionPlan (db : Database) (table : Table AcquisitionRow) (bytes : ByteArray) :
    Except ApiFailure TrustedAcquisitionPlan := do
  let lookup ← readLookup digests bytes
  let trusted ← readAssociation digests sizes hashes canonicalOrigin origin db table
    lookup.planIdentity lookup.provenanceIdentity
  whenSome (validateRetainedPlan digests sizes) lookup.plan
  whenSome (validateRecord digests sizes hashes canonicalOrigin origin db) lookup.record
  ensure (suppliedPair digests lookup trusted) (invariant "provenance_supplied_pair_mismatch")
  return trusted

/-! ## Runs -/

/-- The table, and the answers so far with the bytes they were given for. -/
structure Lookups where
  table : Table AcquisitionRow
  answers : List (ByteArray × Except ApiFailure TrustedAcquisitionPlan)

/-- A recording tries to store any row; a lookup finds the database in any state. -/
inductive LookupOp where
  | record (row : AcquisitionRow)
  | lookup (db : Database) (bytes : ByteArray)

def LookupOp.step (s : Lookups) : LookupOp → Lookups
  | .record row => { s with table := (recordAcquisitionProvenance s.table row).getD s.table }
  | .lookup db bytes =>
    { s with answers := s.answers ++ [(bytes,
        lookupAcquisitionPlan digests sizes hashes canonicalOrigin origin db s.table bytes)] }

def LookupOp.isRecord : LookupOp → Bool
  | .record _ => true
  | .lookup _ _ => false

end Lookup

/-! ## What an answer stands for -/

section Answers

variable {digests : Digests} {sizes : Sizes} {hashes : ExportHashes}
  {canonicalOrigin : String → Except ApiFailure String} {origin : String} {db : Database}
  {table : Table AcquisitionRow} {bytes : ByteArray} {lookup : ProvenanceLookup}
  {trusted : TrustedAcquisitionPlan}

variable (digests) in
/-- The bytes are bounded JSON, and what they say is a lookup written canonically. -/
structure Denotes (bytes : ByteArray) (lookup : ProvenanceLookup) : Prop where
  document : ∃ json value, bytes.size ≤ recordLimit ∧ String.fromUTF8? bytes = some json ∧
    digests.text.read json = some value ∧ Bounded value ∧
    ProvenanceLookup.codec.dec value = some lookup ∧ nullMember value "plan" = false ∧
    nullMember value "record" = false ∧
    canonicalJson digests value = canonicalJson digests (ProvenanceLookup.codec.enc lookup)
  schema : lookup.provenanceSchemaVersion = 1
  planSha256 : isSha256 lookup.planIdentity = true
  provenanceSha256 : isSha256 lookup.provenanceIdentity = true

theorem readLookup_ok (h : readLookup digests bytes = .ok lookup) :
    Denotes digests bytes lookup := by
  obtain ⟨value, hvalue, h⟩ := bind_ok.mp h
  obtain ⟨hsize, json, hutf, hread, hbounded⟩ := parseBytes_ok.mp (mapError_ok.mp hvalue)
  split at h
  · cases h
  · rename_i decoded hdec
    obtain ⟨hchecks, h⟩ := seq_ok.mp h
    obtain ⟨canonical, hcanonical, h⟩ := bind_ok.mp h
    obtain ⟨hsame, h⟩ := seq_ok.mp h
    cases h
    obtain ⟨hschema, hplan, hprovenance, hnull, hnull'⟩ := ensure_ok.mp hchecks
    have hspelled := (ensure_ok.mp hsame).trans (boundedCanonical_ok digests hcanonical)
    exact ⟨⟨json, value, hsize, hutf, hread, hbounded, hdec, hnull, hnull', hspelled⟩, hschema,
      hplan, hprovenance⟩

theorem Denotes.unique {other : ProvenanceLookup} (h : Denotes digests bytes lookup)
    (h' : Denotes digests bytes other) : lookup = other := by
  obtain ⟨json, value, -, hutf, hread, -, hdec, -⟩ := h.document
  obtain ⟨json', value', -, hutf', hread', -, hdec', -⟩ := h'.document
  rw [hutf, Option.some.injEq] at hutf'
  subst hutf'
  rw [hread, Option.some.injEq] at hread'
  subst hread'
  rw [hdec, Option.some.injEq] at hdec'
  exact hdec'

/-- An association that is read is the row of the record that is handed out. -/
theorem readAssociation_row {planIdentity provenanceIdentity : String}
    (h : readAssociation digests sizes hashes canonicalOrigin origin db table planIdentity
      provenanceIdentity = .ok trusted) :
    table.find? planIdentity = some (rowOf digests trusted.record) ∧
      trusted.record.plan.planIdentity = planIdentity ∧
      trusted.record.provenanceIdentity = provenanceIdentity ∧
      boundedCanonical digests (ProvenanceRecord.codec.enc trusted.record) =
        .ok (canonicalJson digests (ProvenanceRecord.codec.enc trusted.record)) := by
  unfold readAssociation at h
  split at h
  · cases h
  · rename_i row hrow
    obtain ⟨value, -, h⟩ := bind_ok.mp h
    split at h
    · cases h
    · rename_i record hdec
      obtain ⟨hnames, h⟩ := seq_ok.mp h
      obtain ⟨json, hjson, h⟩ := bind_ok.mp h
      obtain ⟨hsame, h⟩ := seq_ok.mp h
      obtain ⟨hvalid, h⟩ := seq_ok.mp h
      cases h
      obtain ⟨hplan, hprovenance, hstored⟩ := ensure_ok.mp hnames
      have htext : canonicalJson digests (ProvenanceRecord.codec.enc record) = row.recordJson :=
        (boundedCanonical_ok digests hjson).symm.trans (ensure_ok.mp hsame)
      have hkey : row.planIdentity = planIdentity := Table.find?_key hrow
      have hrowOf : rowOf digests record = row := by
        rw [rowOf, htext, hplan, hprovenance, ← hkey, ← hstored]
      have hwritten := boundedCanonical_ok digests hjson
      exact ⟨hrow.trans (congrArg some hrowOf.symm), hplan, hprovenance, hwritten ▸ hjson⟩

/-- A plan that passes its check has no signed zeros. -/
theorem settlePlan_eq {plan : ResolvedSelectionPlan} (h : Retained digests sizes plan) :
    settlePlan plan = plan := by
  have hobject : ∀ o ∈ plan.objects, settleObject o = o := by
    intro o ho
    have hmatrix : o.expectedNeutralPlacementMatrix.1.map Scalar.settle =
        o.expectedNeutralPlacementMatrix.1 :=
      (List.map_congr_left fun s hs => Scalar.settle_eq ((h.objects o ho).zeros s hs)).trans
        (List.map_id _)
    simp only [settleObject, hmatrix]
  rw [settlePlan, List.map_congr_left hobject, List.map_id']

/-- Records that pass their check are one record when their rows are the same. -/
theorem record_of_row (ht : digests.text.Faithful) {record other : ProvenanceRecord}
    (hf : ProvenanceRecord.codec.Fits record) (hf' : ProvenanceRecord.codec.Fits other)
    (h : canonicalJson digests (ProvenanceRecord.codec.enc record) =
      canonicalJson digests (ProvenanceRecord.codec.enc other)) : record = other :=
  ProvenanceRecord.codec.enc_inj hf hf' (ht.print_inj (ProvenanceRecord.codec.canonical _ hf)
    (ProvenanceRecord.codec.canonical _ hf') h)

theorem toOption_ok {ε α : Type} {x : Except ε α} {a : α}
    (h : x.toOption = (Except.ok a : Except ε α).toOption) : x = .ok a := by
  cases x with
  | error e => cases h
  | ok b =>
    rw [Option.some.inj h]

variable (digests table) in
/-- What the bytes of an answered lookup are, and what is handed out for them. -/
structure Authorised (lookup : ProvenanceLookup) (trusted : TrustedAcquisitionPlan) : Prop where
  stored : table.find? lookup.planIdentity = some (rowOf digests trusted.record)
  planIdentity : lookup.planIdentity = trusted.record.plan.planIdentity
  provenanceIdentity : lookup.provenanceIdentity = trusted.record.provenanceIdentity
  plan : ∀ plan, lookup.plan = some plan → plan = trusted.record.plan
  record : ∀ record, lookup.record = some record → record = trusted.record
  fits : ProvenanceRecord.codec.Fits trusted.record

theorem lookup_ok (ht : digests.text.Faithful)
    (h : lookupAcquisitionPlan digests sizes hashes canonicalOrigin origin db table bytes =
      .ok trusted) :
    ∃ lookup, Denotes digests bytes lookup ∧ Authorised digests table lookup trusted := by
  obtain ⟨lookup, hlookup, h⟩ := bind_ok.mp h
  obtain ⟨read, hread, h⟩ := bind_ok.mp h
  obtain ⟨hplan, h⟩ := seq_ok.mp h
  obtain ⟨hrecord, h⟩ := seq_ok.mp h
  obtain ⟨hpair, h⟩ := seq_ok.mp h
  cases h
  obtain ⟨hstored, hnames, hprovenance, hwritten⟩ := readAssociation_row hread
  have hvalid := readAssociation_valid hread
  have hfits := validateRecord_fits hvalid
  obtain ⟨hplans, hrecords⟩ := ensure_ok.mp hpair
  refine ⟨lookup, readLookup_ok hlookup, hstored, hnames.symm, hprovenance.symm, ?_, ?_, hfits⟩
  · intro plan hsome
    have hretained : Retained digests sizes plan :=
      (retainedPlan_ok digests sizes).mp (whenSome_ok.mp hplan plan hsome)
    have hsame := hplans plan hsome
    rwa [settlePlan_eq hretained, settlePlan_eq (validateRecord_ok hvalid).1] at hsame
  · intro record hsome
    have hchecked := whenSome_ok.mp hrecord record hsome
    have hsame := hrecords record hsome
    rw [hwritten] at hsame
    have hcopy : boundedCanonical digests (ProvenanceRecord.codec.enc record) =
        .ok (canonicalJson digests (ProvenanceRecord.codec.enc trusted.record)) :=
      toOption_ok hsame
    exact record_of_row ht (validateRecord_fits hchecked) hfits
      (boundedCanonical_ok digests hcopy).symm

/-- The record of an answer is the one that its row is of. -/
theorem Authorised.unique {other : ProvenanceLookup} {trusted' : TrustedAcquisitionPlan}
    (ht : digests.text.Faithful) (h : Authorised digests table lookup trusted)
    (h' : Authorised digests table other trusted') (hplan : lookup.planIdentity = other.planIdentity) :
    trusted = trusted' := by
  have hrow := h.stored
  rw [hplan, h'.stored, Option.some.injEq] at hrow
  have htext := congrArg AcquisitionRow.recordJson hrow.symm
  have hrecord : trusted.record = trusted'.record := record_of_row ht h.fits h'.fits htext
  cases trusted
  cases trusted'
  exact congrArg _ hrecord

theorem Authorised.mono {table' : Table AcquisitionRow} (hg : Grows table table')
    (h : Authorised digests table lookup trusted) : Authorised digests table' lookup trusted :=
  { h with stored := hg _ _ h.stored }

/-! ## Requests that are found -/

/-- Without copies the answer is the association. -/
theorem lookup_bare (h : readLookup digests bytes = .ok lookup) (hplan : lookup.plan = none)
    (hrecord : lookup.record = none) :
    lookupAcquisitionPlan digests sizes hashes canonicalOrigin origin db table bytes =
      readAssociation digests sizes hashes canonicalOrigin origin db table lookup.planIdentity
        lookup.provenanceIdentity := by
  obtain ⟨version, planIdentity, provenanceIdentity, plan, record⟩ := lookup
  subst hplan hrecord
  have hread : lookupAcquisitionPlan digests sizes hashes canonicalOrigin origin db table bytes = (do
      let trusted ← readAssociation digests sizes hashes canonicalOrigin origin db table
        planIdentity provenanceIdentity
      ensure (suppliedPair digests ⟨version, planIdentity, provenanceIdentity, none, none⟩ trusted)
        (invariant "provenance_supplied_pair_mismatch")
      return trusted) := by
    rw [lookupAcquisitionPlan, h]
    rfl
  rw [hread]
  cases readAssociation digests sizes hashes canonicalOrigin origin db table planIdentity
    provenanceIdentity with
  | error e => rfl
  | ok trusted =>
    have hpair : suppliedPair digests ⟨version, planIdentity, provenanceIdentity, none, none⟩
        trusted := ⟨nofun, nofun⟩
    have hchecked : ensure (suppliedPair digests
        ⟨version, planIdentity, provenanceIdentity, none, none⟩ trusted)
        (invariant "provenance_supplied_pair_mismatch") = .ok () := ensure_ok.mpr hpair
    exact seq_ok.mpr ⟨hchecked, rfl⟩

theorem validateRecord_provenanceSha256 {record : ProvenanceRecord}
    (h : validateRecord digests sizes hashes canonicalOrigin origin db record = .ok ()) :
    isSha256 record.provenanceIdentity = true := by
  obtain ⟨-, h⟩ := seq_ok.mp h
  obtain ⟨hversion, -⟩ := seq_ok.mp h
  exact (ensure_ok.mp hversion).2.2

theorem nullMember_bare (planIdentity provenanceIdentity name : String) :
    nullMember (ProvenanceLookup.codec.enc ⟨1, planIdentity, provenanceIdentity, none, none⟩) name =
      false := by
  have hmembers : ∀ m ∈ sortMembers [("provenanceSchemaVersion", Value.number (.int 1)),
      ("planIdentity", .string planIdentity), ("provenanceIdentity", .string provenanceIdentity)],
      m.2 ≠ .null := by
    intro m hm
    have hmem := (sortMembers_perm _).subset hm
    simp only [List.mem_cons, List.not_mem_nil, or_false] at hmem
    obtain rfl | rfl | rfl := hmem <;> simp
  refine decide_eq_false ?_
  intro hnull
  exact hmembers _ (mem_of_get? hnull) rfl

/-- The request of a handle denotes the pair of its record. -/
theorem readLookup_request (ht : digests.text.Faithful)
    (hvalid : validateRecord digests sizes hashes canonicalOrigin origin db trusted.record = .ok ())
    {request : String} (h : lookupRequest digests trusted = .ok request) :
    readLookup digests request.toByteArray = .ok
      ⟨1, trusted.record.plan.planIdentity, trusted.record.provenanceIdentity, none, none⟩ := by
  generalize hlookup : (⟨1, trusted.record.plan.planIdentity, trusted.record.provenanceIdentity,
    none, none⟩ : ProvenanceLookup) = lookup
  rw [lookupRequest, hlookup] at h
  have hf : ProvenanceLookup.codec.Fits lookup := by
    subst hlookup
    simp [ProvenanceLookup.codec]
  have hcanonical := ProvenanceLookup.codec.canonical _ hf
  obtain ⟨hrequest, hsize, hbounded⟩ := boundedCanonical_bounds ht hcanonical h
  have hread : digests.text.read request = some (ProvenanceLookup.codec.enc lookup) := by
    rw [hrequest]
    exact ht _ hcanonical
  have hparse : parseBytes digests.text request.toByteArray recordLimit =
      .ok (ProvenanceLookup.codec.enc lookup) :=
    parseBytes_ok.mpr ⟨hrequest ▸ hsize, request, Runner.fromUTF8_toByteArray _, hread, hbounded⟩
  refine bind_ok.mpr ⟨_, mapError_ok.mpr hparse, ?_⟩
  simp only [ProvenanceLookup.codec.dec_enc _ hf]
  refine seq_ok.mpr ⟨ensure_ok.mpr ?_, bind_ok.mpr ⟨request, h, ?_⟩⟩
  · subst hlookup
    exact ⟨rfl, (validateRecord_ok hvalid).1.planSha256, validateRecord_provenanceSha256 hvalid,
      nullMember_bare _ _ _, nullMember_bare _ _ _⟩
  · exact seq_ok.mpr ⟨ensure_ok.mpr hrequest.symm, rfl⟩

/-- The request of a recorded handle is answered with the handle. -/
theorem lookup_request_found {handoff : EncodingHandoff} {record : ProvenanceRecord}
    (ht : digests.text.Faithful)
    (h : Made digests sizes hashes canonicalOrigin origin db handoff record)
    (hrow : table.find? record.plan.planIdentity = some (rowOf digests record)) {request : String}
    (hrequest : lookupRequest digests ⟨record⟩ = .ok request) :
    lookupAcquisitionPlan digests sizes hashes canonicalOrigin origin db table request.toByteArray =
      .ok ⟨record⟩ := by
  have hread : readLookup digests request.toByteArray =
      .ok ⟨1, record.plan.planIdentity, record.provenanceIdentity, none, none⟩ :=
    @readLookup_request _ _ _ _ _ _ ⟨record⟩ ht h.valid _ hrequest
  rw [lookup_bare hread rfl rfl]
  exact h.read ht hrow

/-! ## Every run -/

section Steps

variable {s : Lookups} {op : LookupOp} {ops : List LookupOp}

theorem Grows.trans {a b c : Table AcquisitionRow} (h : Grows a b) (h' : Grows b c) : Grows a c :=
  fun key row hrow => h' key row (h key row hrow)

theorem step_grows :
    Grows s.table (op.step digests sizes hashes canonicalOrigin origin s).table := by
  cases op with
  | lookup db bytes => exact fun _ _ h => h
  | record row =>
    obtain ⟨table', hrecord, -, hgrows, -⟩ | ⟨hrecord, -⟩ :=
      recordAcquisitionProvenance_cases s.table row
    · simp only [LookupOp.step, hrecord, Option.getD_some]
      exact hgrows
    · simp only [LookupOp.step, hrecord, Option.getD_none]
      exact fun _ _ h => h

variable (digests sizes hashes canonicalOrigin origin) in
/-- Every answer so far is authorised by the table as it is now. -/
def Vouched (s : Lookups) : Prop :=
  ∀ bytes trusted, (bytes, Except.ok trusted) ∈ s.answers →
    ∃ lookup, Denotes digests bytes lookup ∧ Authorised digests s.table lookup trusted

theorem step_vouched (ht : digests.text.Faithful) (h : Vouched digests s) :
    Vouched digests (op.step digests sizes hashes canonicalOrigin origin s) := by
  intro bytes trusted hanswer
  have hgrows : Grows s.table (op.step digests sizes hashes canonicalOrigin origin s).table :=
    step_grows
  have hold : (bytes, Except.ok trusted) ∈ s.answers → ∃ lookup, Denotes digests bytes lookup ∧
      Authorised digests (op.step digests sizes hashes canonicalOrigin origin s).table lookup
        trusted := by
    intro hmem
    obtain ⟨lookup, hdenotes, hauthorised⟩ := h bytes trusted hmem
    exact ⟨lookup, hdenotes, hauthorised.mono hgrows⟩
  cases op with
  | record row => exact hold hanswer
  | lookup db given =>
    obtain hmem | hnew := List.mem_append.mp hanswer
    · exact hold hmem
    · obtain ⟨rfl, hfound⟩ := Prod.mk.inj (List.mem_singleton.mp hnew)
      exact lookup_ok ht hfound.symm

/-- The table is that of the recordings alone. -/
theorem run_table (ops : List LookupOp) (s s' : Lookups) (h : s.table = s'.table) :
    (Trace.run (LookupOp.step digests sizes hashes canonicalOrigin origin) s ops).table =
      (Trace.run (LookupOp.step digests sizes hashes canonicalOrigin origin) s'
        (ops.filter LookupOp.isRecord)).table := by
  induction ops generalizing s s' with
  | nil => exact h
  | cons op ops ih =>
    cases op with
    | lookup db bytes => exact ih _ _ h
    | record row =>
      refine ih _ _ ?_
      simp only [LookupOp.step, h]

end Steps

end Answers

/-! ## Lookups authorise what was recorded -/

theorem lookups_authorise {digests : Digests} (ht : digests.text.Faithful) (sizes : Sizes)
    (hashes : ExportHashes) (canonicalOrigin : String → Except ApiFailure String) (origin : String)
    (ops : List LookupOp) :
    let step := LookupOp.step digests sizes hashes canonicalOrigin origin
    let s := Trace.run step ⟨.empty, []⟩ ops
    -- what an answer stands for
    (∀ bytes trusted, (bytes, .ok trusted) ∈ s.answers →
      ∃ lookup, Denotes digests bytes lookup ∧ Authorised digests s.table lookup trusted) ∧
    -- an association stays as it is
    (∀ later planIdentity row, s.table.find? planIdentity = some row →
      (Trace.run step s later).table.find? planIdentity = some row) ∧
    -- lookups do not write
    s.table = (Trace.run step ⟨.empty, []⟩ (ops.filter LookupOp.isRecord)).table ∧
    -- one pair, one handle
    (∀ bytes bytes' trusted trusted', (bytes, .ok trusted) ∈ s.answers →
      (bytes', .ok trusted') ∈ s.answers → ∀ lookup lookup', Denotes digests bytes lookup →
        Denotes digests bytes' lookup' → lookup.planIdentity = lookup'.planIdentity →
          trusted = trusted') ∧
    -- and without copies one answer
    ∀ db bytes bytes' lookup lookup', readLookup digests bytes = .ok lookup →
      readLookup digests bytes' = .ok lookup' →
      lookup.plan = none → lookup.record = none → lookup'.plan = none → lookup'.record = none →
      lookup.planIdentity = lookup'.planIdentity →
      lookup.provenanceIdentity = lookup'.provenanceIdentity →
        lookupAcquisitionPlan digests sizes hashes canonicalOrigin origin db s.table bytes =
          lookupAcquisitionPlan digests sizes hashes canonicalOrigin origin db s.table bytes' := by
  intro step s
  have hvouched : Vouched digests s :=
    Trace.run_inv (I := Vouched digests) (fun _ _ h => absurd h List.not_mem_nil)
      (fun _ _ h => step_vouched ht h) ops
  refine ⟨hvouched, fun later => ?_, run_table ops _ _ rfl, ?_, ?_⟩
  · have hgrows : Grows s.table (Trace.run step s later).table :=
      Trace.run_rel (R := fun a b => Grows a.table b.table) (fun _ _ _ h => h)
        Grows.trans (fun _ _ => step_grows) s later
    exact hgrows
  · intro bytes bytes' trusted trusted' hanswer hanswer' lookup lookup' hdenotes hdenotes' hplan
    obtain ⟨found, hfound, hauthorised⟩ := hvouched bytes trusted hanswer
    obtain ⟨found', hfound', hauthorised'⟩ := hvouched bytes' trusted' hanswer'
    rw [hfound.unique hdenotes] at hauthorised
    rw [hfound'.unique hdenotes'] at hauthorised'
    exact hauthorised.unique ht hauthorised' hplan
  · intro db bytes bytes' lookup lookup' h h' hplan hrecord hplan' hrecord' hnames hprovenance
    rw [lookup_bare h hplan hrecord, lookup_bare h' hplan' hrecord', hnames, hprovenance]

/-- The request of the recorded handle. -/
def acquiredLookup : ProvenanceLookup := ⟨1, recordingId 'f', recordingId 'b', none, none⟩

def acquiredRequest : String := canonicalText.print (ProvenanceLookup.codec.enc acquiredLookup)

def acquiredOps : List LookupOp :=
  [.record (rowOf recordingDigests acquiredRecord),
    .lookup recordingDatabase acquiredRequest.toByteArray]

theorem acquired_request :
    lookupRequest recordingDigests ⟨acquiredRecord⟩ = .ok acquiredRequest := by
  have hprovenance : acquiredRecord.provenanceIdentity = recordingId 'b' :=
    @recording_hash (provenanceDomain, ProvenancePayload.codec.enc (recordingDraft true).payload,
      'b') (by simp [recordingSamples])
  have hlookup : (⟨1, acquiredRecord.plan.planIdentity, acquiredRecord.provenanceIdentity, none,
      none⟩ : ProvenanceLookup) = acquiredLookup := by
    rw [hprovenance]
    rfl
  have hf : ProvenanceLookup.codec.Fits acquiredLookup := by
    simp [ProvenanceLookup.codec, acquiredLookup]
  have hparse : parseJson canonicalText acquiredRequest recordLimit =
      .ok (ProvenanceLookup.codec.enc acquiredLookup) :=
    parse_print (ProvenanceLookup.codec.canonical _ hf) (by decide +kernel) (by decide +kernel)
  rw [lookupRequest, hlookup]
  exact boundedCanonical_of_parsed recordingDigests (parseJson_ok.mp hparse).1 hparse

theorem lookups_authorise_acquired :
    let step := LookupOp.step recordingDigests noSizes recordingHashes .ok "o"
    let s := Trace.run step ⟨.empty, []⟩ acquiredOps
    ∃ lookup, Denotes recordingDigests acquiredRequest.toByteArray lookup ∧
      Authorised recordingDigests s.table lookup ⟨acquiredRecord⟩ := by
  have hrow : ((recordAcquisitionProvenance .empty (rowOf recordingDigests acquiredRecord)).getD
      .empty).find? acquiredRecord.plan.planIdentity =
        some (rowOf recordingDigests acquiredRecord) := by
    obtain ⟨table, hrecord, hfind, -⟩ | ⟨-, other, hother, -⟩ :=
      recordAcquisitionProvenance_cases .empty (rowOf recordingDigests acquiredRecord)
    · rw [hrecord]
      exact hfind
    · rw [Table.find?_empty] at hother
      cases hother
  have hfound := lookup_request_found canonicalText_faithful acquired_made hrow acquired_request
  exact (lookups_authorise canonicalText_faithful noSizes recordingHashes .ok "o" acquiredOps).1
    acquiredRequest.toByteArray ⟨acquiredRecord⟩
    (List.mem_singleton.mpr (congrArg (Prod.mk _) hfound.symm))

end Geometry
end OnshapeExport
