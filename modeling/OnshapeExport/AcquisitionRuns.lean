import OnshapeExport.GeometryAcquisition

/-!
# AcquisitionRuns

What an acquisition of geometry does, for every record that passes its check and whatever Onshape
answers.

* `acquireLeaf_carries` — a call that succeeds returns the evidence for its own binding.
* `Bound.same_leaf` — the bindings of a record with one leaf send one request.
* `acquireBinding_cases` — one turn of the loop; `acquireBindings_cases` — all of them.
* `geometry_acquired` — one call for each leaf, and a result that its consumer accepts.
-/

namespace OnshapeExport
namespace Geometry

open Annotation CacheKey CacheModel Checks Encoding Json Memoized OnshapeApi Relational Selection

/-! ## One leaf -/

theorem requiredAscii_ok {obj : Selection.Members} {field value : String}
    (h : requiredAscii obj field = .ok value) : boundedVisibleAscii value = true := by
  unfold requiredAscii at h
  split at h
  · split at h
    · cases h
      assumption
    · cases h
  · cases h

theorem translation_ok {value : Value} {plan : ResolvedSelectionPlan} {leaf : ConfiguredLeaf}
    {expectedId : Option String} {id state : String}
    (h : translation value plan leaf expectedId = .ok (id, state)) :
    boundedVisibleAscii id = true := by
  unfold translation at h
  split at h
  · obtain ⟨found, hid, h⟩ := bind_ok.mp h
    obtain ⟨requestState, -, h⟩ := bind_ok.mp h
    obtain ⟨-, h⟩ := seq_ok.mp h
    obtain ⟨-, h⟩ := seq_ok.mp h
    obtain ⟨-, h⟩ := seq_ok.mp h
    obtain ⟨-, h⟩ := seq_ok.mp h
    obtain ⟨-, h⟩ := seq_ok.mp h
    cases h
    exact requiredAscii_ok hid
  · cases h

theorem terminalExternalData_ok {value : Value} {id : String}
    (h : terminalExternalData value = .ok id) : boundedVisibleAscii id = true := by
  unfold terminalExternalData at h
  split at h
  · split at h
    · split at h
      · obtain ⟨hid, h⟩ := seq_ok.mp h
        split at h
        · cases h
          exact ensure_ok.mp hid
        · cases h
          exact ensure_ok.mp hid
        · cases h
          exact ensure_ok.mp hid
        · cases h
      · cases h
    · cases h
  · cases h

/-- The evidence of a call: what was asked for its binding, and what was stored. -/
structure Carries (plan : ResolvedSelectionPlan) (call : Nat) (b : ProvenanceBinding)
    (payload : RetainedPayload) (e : AcquisitionEvidence) : Prop where
  stored : payload.storageReference = call
  requestContract : e.requestContract = contract
  representation : e.representation = b.representation
  configurationRequestValue : e.configurationRequestValue = b.configurationRequestValue
  documentId : e.documentId = plan.root.documentId
  versionId : e.versionId = plan.root.versionId
  configuredLeaf : e.configuredLeaf = b.configuredLeaf
  createRequestPath : e.createRequestPath =
    geometryCreatePath e.documentId e.versionId b.configuredLeaf.elementId
  createRequestQuery : e.createRequestQuery = []
  createRequestBody : e.createRequestBody =
    geometryCreateBody b.configurationRequestValue b.configuredLeaf.partId
  terminal : e.createTranslationId = e.terminalTranslationId
  createTranslationId : boundedVisibleAscii e.createTranslationId = true
  externalDataId : boundedVisibleAscii e.externalDataId = true
  downloadDocumentId : e.downloadDocumentId = plan.root.documentId
  byteLength : e.byteLength = payload.byteLength
  sha256 : e.sha256 = payload.sha256
  nonempty : e.byteLength ≠ 0
  limited : e.byteLength ≤ geometryDownloadLimit
  hashed : isSha256 e.sha256 = true

section Runs

variable {digests : Digests} {hashBytes : List UInt8 → String} {maxPolls : Nat}
  {plan : ResolvedSelectionPlan} {remote : Remote}

theorem acquireLeaf_carries (hx : ∀ bytes, isSha256 (hashBytes bytes) = true)
    {answers : LeafAnswers} {call : Nat} {b : ProvenanceBinding} {payload : RetainedPayload}
    {e : AcquisitionEvidence}
    (h : acquireLeaf hashBytes maxPolls plan answers call b = .ok (payload, e)) :
    Carries plan call b payload e := by
  obtain ⟨-, h⟩ := seq_ok.mp h
  obtain ⟨created, -, h⟩ := bind_ok.mp h
  obtain ⟨-, h⟩ := seq_ok.mp h
  obtain ⟨⟨createId, state⟩, hcreate, h⟩ := bind_ok.mp h
  obtain ⟨value, -, h⟩ := bind_ok.mp h
  obtain ⟨externalDataId, hexternal, h⟩ := bind_ok.mp h
  obtain ⟨-, h⟩ := seq_ok.mp h
  obtain ⟨downloaded, -, h⟩ := bind_ok.mp h
  obtain ⟨-, h⟩ := seq_ok.mp h
  obtain ⟨-, h⟩ := seq_ok.mp h
  obtain ⟨-, h⟩ := seq_ok.mp h
  obtain ⟨-, h⟩ := seq_ok.mp h
  obtain ⟨-, h⟩ := seq_ok.mp h
  cases h
  exact
    { stored := rfl
      requestContract := rfl
      representation := rfl
      configurationRequestValue := rfl
      documentId := rfl
      versionId := rfl
      configuredLeaf := rfl
      createRequestPath := rfl
      createRequestQuery := rfl
      createRequestBody := rfl
      terminal := rfl
      createTranslationId := translation_ok hcreate
      externalDataId := terminalExternalData_ok hexternal
      downloadDocumentId := rfl
      byteLength := rfl
      sha256 := rfl
      nonempty := fun h0 => downloaded.nonempty (List.eq_nil_of_length_eq_zero h0)
      limited := downloaded.bounded
      hashed := hx _ }

/-! ## The bindings of a record -/

/-- The bindings of a record are those of the objects of its plan. -/
structure Bound (record : ProvenanceRecord) : Prop where
  requestContract : record.requestContract = contract
  bindings : ∀ b ∈ record.bindings, ∃ i o,
    b = binding record.configurationEncoding record.plan.root i o

theorem Bound.same_leaf {record : ProvenanceRecord} (h : Bound record) {b b' : ProvenanceBinding}
    (hb : b ∈ record.bindings) (hb' : b' ∈ record.bindings)
    (hleaf : b.configuredLeaf = b'.configuredLeaf) :
    b.configurationRequestValue = b'.configurationRequestValue ∧
      b.representation = b'.representation := by
  obtain ⟨i, o, rfl⟩ := h.bindings b hb
  obtain ⟨j, o', rfl⟩ := h.bindings b' hb'
  unfold binding at hleaf ⊢
  cases hkind : record.plan.root.elementKind with
  | partStudio => exact ⟨rfl, rfl⟩
  | assembly =>
    simp only at hleaf ⊢
    exact ⟨congrArg ConfiguredLeaf.configurationIdentity hleaf, trivial⟩

theorem validateBinding_of_carries {record : ProvenanceRecord} {call : Nat}
    {b first : ProvenanceBinding} {payload : RetainedPayload} {e : AcquisitionEvidence}
    (hc : Carries record.plan call first payload e) (hr : record.requestContract = contract)
    (hleaf : first.configuredLeaf = b.configuredLeaf)
    (hsame : first.configurationRequestValue = b.configurationRequestValue ∧
      first.representation = b.representation) :
    validateBinding record (occurrence b payload e) b = .ok () := by
  refine ensure_ok.mpr ⟨rfl, rfl, rfl, hc.configuredLeaf.trans hleaf,
    hc.configurationRequestValue.trans hsame.1, hc.representation.trans hsame.2,
    hc.requestContract.trans hr.symm, hc.documentId, hc.versionId, hc.downloadDocumentId,
    hc.terminal, hc.externalDataId, hc.createTranslationId, ?_, hc.createRequestQuery, ?_,
    hc.byteLength, hc.sha256, hc.nonempty, hc.limited, hc.hashed⟩
  · show e.createRequestPath =
      geometryCreatePath e.documentId e.versionId b.configuredLeaf.elementId
    rw [← hleaf]
    exact hc.createRequestPath
  · rw [← hsame.1, ← hleaf]
    exact hc.createRequestBody

/-! ## The loop -/

variable (hashBytes maxPolls plan remote) in
/-- After some bindings: there was one call for each of their leaves, and each of them has the
payload of its leaf. -/
structure Acquired (seen : List ProvenanceBinding) (p : Progress) : Prop where
  remembers : Remembers ProvenanceBinding.configuredLeaf
    (leafCall hashBytes maxPolls plan remote) seen p.memo
  bindings : List.Forall₂ (fun b o => ∃ r, p.memo.known.lookup b.configuredLeaf = some r ∧
    o = occurrence b r.1 r.2) seen p.bindings

theorem acquired_start : Acquired hashBytes maxPolls plan remote [] ⟨.empty, []⟩ :=
  ⟨remembers_empty, .nil⟩

theorem Acquired.carries {seen : List ProvenanceBinding} {p : Progress}
    (hx : ∀ bytes, isSha256 (hashBytes bytes) = true)
    (h : Acquired hashBytes maxPolls plan remote seen p) {leaf : ConfiguredLeaf}
    {r : RetainedPayload × AcquisitionEvidence} (hr : p.memo.known.lookup leaf = some r) :
    ∃ i first, p.memo.calls[i]? = some first ∧ first.configuredLeaf = leaf ∧
      Carries plan i first r.1 r.2 := by
  obtain ⟨i, first, hi, hleaf, hcall⟩ := h.remembers.call_of_lookup hr
  exact ⟨i, first, hi, hleaf, acquireLeaf_carries hx hcall⟩

/-- One turn: the deadline has passed, or the leaf is new and its call fails, or the binding gets
the payload of its leaf. -/
theorem acquireBinding_cases {record : ProvenanceRecord} {seen : List ProvenanceBinding}
    {p : Progress} {b : ProvenanceBinding} (hx : ∀ bytes, isSha256 (hashBytes bytes) = true)
    (hbound : Bound record) (h : Acquired hashBytes maxPolls record.plan remote seen p)
    (hseen : ∀ b' ∈ seen, b' ∈ record.bindings) (hb : b ∈ record.bindings) :
    (remote.late (.binding seen.length) = true ∧
      acquireBinding hashBytes maxPolls record.plan remote b p = (p, some timeout)) ∨
    (∃ e p', acquireBinding hashBytes maxPolls record.plan remote b p =
        (p', some (e.position b.position)) ∧
      b.configuredLeaf ∉ seen.map ProvenanceBinding.configuredLeaf ∧
      leafCall hashBytes maxPolls record.plan remote
        (firsts ProvenanceBinding.configuredLeaf seen).length b = .error e ∧
      p'.memo.calls = firsts ProvenanceBinding.configuredLeaf (seen ++ [b])) ∨
    ∃ p', acquireBinding hashBytes maxPolls record.plan remote b p = (p', none) ∧
      Acquired hashBytes maxPolls record.plan remote (seen ++ [b]) p' := by
  unfold acquireBinding
  rw [← h.bindings.length_eq]
  by_cases hlate : remote.late (.binding seen.length) = true
  · exact .inl ⟨hlate, by rw [if_pos hlate]⟩
  rw [if_neg hlate]
  refine .inr ?_
  obtain ⟨e, hfill, hnew, hcall, hcalls⟩ | ⟨memo, r, hfill, hremembers, hlookup, hkept⟩ :=
    fill_cases h.remembers b
  · rw [h.remembers.calls] at hcall
    exact .inl ⟨e, { p with memo := { p.memo with calls := p.memo.calls ++ [b] } },
      by rw [hfill], hnew, hcall, hcalls⟩
  · refine .inr ⟨⟨memo, p.bindings ++ [occurrence b r.1 r.2]⟩, ?_, hremembers, ?_⟩
    · rw [hfill]
      simp only [hlookup]
      -- the first binding of the leaf is one of the record too, so it sent the same request
      obtain ⟨i, first, hi, hleaf, hcall⟩ := hremembers.call_of_lookup hlookup
      have hcarries := acquireLeaf_carries hx hcall
      have hfirst : first ∈ record.bindings := by
        have hmem := List.mem_of_getElem? hi
        rw [hremembers.calls] at hmem
        obtain hold | hnew := List.mem_append.mp ((firsts_sublist _).subset hmem)
        · exact hseen first hold
        · rw [List.mem_singleton.mp hnew]
          exact hb
      obtain ⟨hvalue, hrepresentation⟩ := hbound.same_leaf hfirst hb hleaf
      rw [if_neg]
      rintro (hne | hne)
      · exact hne (hcarries.configurationRequestValue.trans hvalue)
      · exact hne (hcarries.representation.trans hrepresentation)
    · refine List.rel_append (h.bindings.imp fun b' o ho => ?_) (.cons ⟨r, hlookup, rfl⟩ .nil)
      obtain ⟨r', hr', rfl⟩ := ho
      exact ⟨r', hkept _ _ hr', rfl⟩

variable (hashBytes maxPolls remote) in
/-- How the loop ends. -/
inductive LoopEnd (record : ProvenanceRecord) : Progress × Option ApiFailure → Prop
  | late {reached : List ProvenanceBinding} {p : Progress} (hreached : reached <+: record.bindings)
      (hlate : remote.late (.binding reached.length) = true)
      (h : Acquired hashBytes maxPolls record.plan remote reached p) :
      LoopEnd record (p, some timeout)
  | failed {before : List ProvenanceBinding} {b : ProvenanceBinding} {e : ApiFailure}
      {p p' : Progress} (hreached : before ++ [b] <+: record.bindings)
      (h : Acquired hashBytes maxPolls record.plan remote before p)
      (hnew : b.configuredLeaf ∉ before.map ProvenanceBinding.configuredLeaf)
      (hcall : leafCall hashBytes maxPolls record.plan remote
        (firsts ProvenanceBinding.configuredLeaf before).length b = .error e)
      (hcalls : p'.memo.calls = firsts ProvenanceBinding.configuredLeaf (before ++ [b])) :
      LoopEnd record (p', some (e.position b.position))
  | done {p : Progress} (h : Acquired hashBytes maxPolls record.plan remote record.bindings p) :
      LoopEnd record (p, none)

theorem acquireBindings_end {record : ProvenanceRecord} {seen rest : List ProvenanceBinding}
    {p : Progress} (hx : ∀ bytes, isSha256 (hashBytes bytes) = true) (hbound : Bound record)
    (h : Acquired hashBytes maxPolls record.plan remote seen p)
    (hall : seen ++ rest = record.bindings) :
    LoopEnd hashBytes maxPolls remote record
      (acquireBindings hashBytes maxPolls record.plan remote rest p) := by
  induction rest generalizing seen p with
  | nil =>
    rw [List.append_nil] at hall
    exact .done (hall ▸ h)
  | cons b rest ih =>
    have hnext : seen ++ [b] ++ rest = record.bindings := by
      rw [List.append_assoc]
      exact hall
    have hmem : ∀ b' ∈ seen ++ [b], b' ∈ record.bindings := fun b' hb' =>
      hnext ▸ List.mem_append_left rest hb'
    obtain ⟨hlate, hturn⟩ | ⟨e, p', hturn, hnew, hcall, hcalls⟩ | ⟨p', hturn, h'⟩ :=
      acquireBinding_cases hx hbound h (fun b' hb' => hmem b' (List.mem_append_left [b] hb'))
        (hmem b (List.mem_append_right seen (List.mem_singleton_self b)))
    · simp only [acquireBindings, hturn]
      exact .late ⟨b :: rest, hall⟩ hlate h
    · simp only [acquireBindings, hturn]
      exact .failed ⟨rest, hnext⟩ h hnew hcall hcalls
    · simp only [acquireBindings, hturn]
      exact ih h' hnext

theorem LoopEnd.calls {record : ProvenanceRecord} {p : Progress} {e : Option ApiFailure}
    (h : LoopEnd hashBytes maxPolls remote record (p, e)) : ∃ reached,
      reached <+: record.bindings ∧
        p.memo.calls = firsts ProvenanceBinding.configuredLeaf reached := by
  cases h with
  | late hreached hlate h => exact ⟨_, hreached, h.remembers.calls⟩
  | failed hreached h hnew hcall hcalls => exact ⟨_, hreached, hcalls⟩
  | done h => exact ⟨_, List.prefix_refl _, h.remembers.calls⟩

/-! ## The end -/

variable (hashBytes maxPolls plan remote) in
/-- Every call by its number returned a payload. -/
def Succeeded (calls : List ProvenanceBinding) : Prop :=
  ∀ i b, calls[i]? = some b → ∃ r, leafCall hashBytes maxPolls plan remote i b = .ok r

theorem Acquired.succeeded {seen : List ProvenanceBinding} {p : Progress}
    (h : Acquired hashBytes maxPolls plan remote seen p) :
    Succeeded hashBytes maxPolls plan remote (firsts ProvenanceBinding.configuredLeaf seen) := by
  intro i b hi
  rw [← h.remembers.calls] at hi
  obtain ⟨r, hcall, -⟩ := h.remembers.answers i b hi
  exact ⟨r, hcall⟩

theorem Acquired.validated {record : ProvenanceRecord} {p : Progress}
    (hx : ∀ bytes, isSha256 (hashBytes bytes) = true) (hbound : Bound record)
    (h : Acquired hashBytes maxPolls record.plan remote record.bindings p) :
    validateAcquired record p.bindings = .ok () := by
  refine seq_ok.mpr ⟨ensure_ok.mpr h.bindings.length_eq.symm, each_ok.mpr fun i pair hi => ?_⟩
  have hmem := List.mem_of_getElem? hi
  obtain ⟨o, b⟩ := pair
  obtain ⟨-, hb⟩ := List.of_mem_zip hmem
  obtain ⟨r, hr, rfl⟩ := List.forall₂_zip h.bindings.flip hmem
  obtain ⟨n, first, hn, hleaf, hcarries⟩ := h.carries hx hr
  have hfirst : first ∈ record.bindings := by
    have hmem := List.mem_of_getElem? hn
    rw [h.remembers.calls] at hmem
    exact (firsts_sublist _).subset hmem
  exact validateBinding_of_carries hcarries hbound.requestContract hleaf
    (hbound.same_leaf hfirst hb hleaf)

/-- Two occurrences have one retained payload exactly when they are of one leaf. -/
def Shared (bindings : List OccurrencePayloadBinding) : Prop :=
  ∀ o ∈ bindings, ∀ o' ∈ bindings,
    (o.configuredLeaf = o'.configuredLeaf → o.retainedPayload = o'.retainedPayload ∧
      o.acquisitionEvidence = o'.acquisitionEvidence) ∧
    (o.retainedPayload.storageReference = o'.retainedPayload.storageReference →
      o.configuredLeaf = o'.configuredLeaf)

theorem Acquired.shared {seen : List ProvenanceBinding} {p : Progress}
    (hx : ∀ bytes, isSha256 (hashBytes bytes) = true)
    (h : Acquired hashBytes maxPolls plan remote seen p) : Shared p.bindings := by
  have hall : ∀ o ∈ p.bindings, ∃ b r, p.memo.known.lookup b.configuredLeaf = some r ∧
      o = occurrence b r.1 r.2 := fun o ho => by
    obtain ⟨b, -, r, hr, he⟩ := exists_of_forall₂ h.bindings.flip ho
    exact ⟨b, r, hr, he⟩
  intro o ho o' ho'
  obtain ⟨b, r, hr, rfl⟩ := hall o ho
  obtain ⟨b', r', hr', rfl⟩ := hall o' ho'
  refine ⟨fun hleaf => ?_, fun hstored => ?_⟩
  · have hleaf : b.configuredLeaf = b'.configuredLeaf := hleaf
    rw [hleaf, hr', Option.some.injEq] at hr
    subst hr
    exact ⟨rfl, rfl⟩
  · obtain ⟨i, first, hi, hleaf, hcarries⟩ := h.carries hx hr
    obtain ⟨i', first', hi', hleaf', hcarries'⟩ := h.carries hx hr'
    obtain rfl : i = i' := hcarries.stored.symm.trans (hstored.trans hcarries'.stored)
    rw [hi, Option.some.injEq] at hi'
    show b.configuredLeaf = b'.configuredLeaf
    rw [← hleaf, ← hleaf', hi']

section Trusted

variable {sizes : Sizes} {hashes : ExportHashes}
  {canonicalOrigin : String → Except ApiFailure String} {origin : String} {db : Database}
  {table : Table AcquisitionRow} {trusted : TrustedAcquisitionPlan}

/-- What the check of a record says of its bindings. -/
theorem validateRecord_bound {record : ProvenanceRecord}
    (h : validateRecord digests sizes hashes canonicalOrigin origin db record = .ok ()) :
    Bound record ∧ record.provenanceSchemaVersion = 1 ∧ ∀ b ∈ record.bindings,
      b.position < record.plan.objects.length := by
  obtain ⟨-, h⟩ := seq_ok.mp h
  obtain ⟨hversion, h⟩ := seq_ok.mp h
  obtain ⟨identity, -, h⟩ := bind_ok.mp h
  obtain ⟨hlength, h⟩ := seq_ok.mp h
  obtain ⟨expected, -, h⟩ := bind_ok.mp h
  obtain ⟨-, h⟩ := seq_ok.mp h
  obtain ⟨-, h⟩ := seq_ok.mp h
  obtain ⟨hschema, hcontract, -⟩ := ensure_ok.mp hversion
  obtain ⟨-, hlength⟩ := ensure_ok.mp hlength
  have hall : ∀ b ∈ record.bindings, ∃ i o, i < record.plan.objects.length ∧
      b = binding record.configurationEncoding record.plan.root i o := by
    intro b hb
    obtain ⟨i, hi⟩ := List.getElem?_of_mem hb
    have hlt := hlength ▸ (List.getElem?_eq_some_iff.mp hi).1
    obtain ⟨o, ho⟩ : ∃ o, record.plan.objects[i]? = some o :=
      ⟨_, List.getElem?_eq_getElem hlt⟩
    have hzip := each_ok.mp h i (b, o) (List.getElem?_zip_eq_some.mpr ⟨hi, ho⟩)
    rw [Nat.zero_add] at hzip
    exact ⟨i, o, hlt, ensure_ok.mp hzip⟩
  refine ⟨⟨hcontract, fun b hb => ?_⟩, hschema, fun b hb => ?_⟩
  · obtain ⟨i, o, -, he⟩ := hall b hb
    exact ⟨i, o, he⟩
  · obtain ⟨i, o, hlt, rfl⟩ := hall b hb
    rw [binding_position]
    exact hlt

/-- A record that passes its check is written without loss. -/
theorem validateRecord_fits {record : ProvenanceRecord}
    (h : validateRecord digests sizes hashes canonicalOrigin origin db record = .ok ()) :
    ProvenanceRecord.codec.Fits record := by
  obtain ⟨hretained, hcontext⟩ := validateRecord_ok h
  obtain ⟨-, hschema, hpositions⟩ := validateRecord_bound h
  refine fits_provenanceRecord.mpr (payload_fits.mpr
    ⟨?_, context_fits hcontext, fits_plan.mpr fun o ho => (hretained.objects o ho).zeros, ?_⟩)
  · show record.provenanceSchemaVersion < 2 ^ 32
    omega
  · intro b hb
    have hposition := hpositions b hb
    have hcount : record.plan.objects.length ≤ 256 := hretained.count
    omega

theorem readAssociation_valid {planIdentity provenanceIdentity : String}
    {read : TrustedAcquisitionPlan}
    (h : readAssociation digests sizes hashes canonicalOrigin origin db table planIdentity
      provenanceIdentity = .ok read) :
    validateRecord digests sizes hashes canonicalOrigin origin db read.record = .ok () := by
  unfold readAssociation at h
  split at h
  · cases h
  · obtain ⟨value, -, h⟩ := bind_ok.mp h
    split at h
    · cases h
    · obtain ⟨-, h⟩ := seq_ok.mp h
      obtain ⟨json, -, h⟩ := bind_ok.mp h
      obtain ⟨-, h⟩ := seq_ok.mp h
      obtain ⟨hvalid, h⟩ := seq_ok.mp h
      cases h
      exact hvalid

/-- The record that is read again is the record of the handle. -/
theorem checkVersion_trusted {record : ProvenanceRecord} (ht : digests.text.Faithful)
    (hvalid : validateRecord digests sizes hashes canonicalOrigin origin db trusted.record = .ok ())
    (h : checkVersion digests sizes hashes canonicalOrigin origin db table trusted remote =
      .ok record) : record = trusted.record := by
  obtain ⟨checked, hread, h⟩ := bind_ok.mp h
  obtain ⟨stored, hstored, h⟩ := bind_ok.mp h
  obtain ⟨handed, hhanded, h⟩ := bind_ok.mp h
  obtain ⟨hsame, h⟩ := seq_ok.mp h
  obtain ⟨-, h⟩ := seq_ok.mp h
  obtain ⟨microversion, -, h⟩ := bind_ok.mp h
  obtain ⟨-, h⟩ := seq_ok.mp h
  obtain ⟨-, h⟩ := seq_ok.mp h
  cases h
  have hchecked : validateRecord digests sizes hashes canonicalOrigin origin db checked.record =
      .ok () := readAssociation_valid hread
  have hf := validateRecord_fits hchecked
  have hf' := validateRecord_fits hvalid
  have htexts := ensure_ok.mp hsame
  rw [boundedCanonical_ok digests hstored, boundedCanonical_ok digests hhanded] at htexts
  exact ProvenanceRecord.codec.enc_inj hf hf'
    (ht.print_inj (ProvenanceRecord.codec.canonical _ hf) (ProvenanceRecord.codec.canonical _ hf')
      htexts)

/-- A result whose bindings are those of its record is accepted with the plan of the record. -/
theorem handoff_accepted {bindings : List OccurrencePayloadBinding}
    (hretained : validateRetainedPlan digests sizes trusted.record.plan = .ok ())
    (hbindings : validateAcquired trusted.record bindings = .ok ()) :
    validateAcquisitionHandoff digests sizes trusted
      ⟨trusted.record.plan, trusted.record.provenanceIdentity, bindings, bindings.map fun binding =>
        (binding.retainedPayload.storageReference,
          acquisitionEvidenceIdentity digests binding.acquisitionEvidence)⟩ = .ok () := by
  refine seq_ok.mpr ⟨hretained, seq_ok.mpr ⟨ensure_ok.mpr ⟨rfl, rfl, ?_⟩, ?_⟩⟩
  · exact List.length_map _
  refine seq_ok.mpr ⟨hbindings, each_ok.mpr fun i pair hi => ensure_ok.mpr ?_⟩
  obtain ⟨ho, hproof⟩ := List.getElem?_zip_eq_some.mp hi
  rw [List.getElem?_map, ho, Option.map_some, Option.some.injEq] at hproof
  rw [← hproof]
  exact ⟨rfl, rfl⟩

theorem position_ne_conflict (e : ApiFailure) (position : Nat) :
    e.position position ≠ invariant "acquisition_reuse_conflict" := by
  intro h
  have hd := congrArg (fun e : ApiFailure => e.diagnostics.map SafeDiagnostic.selectorPosition) h
  simp only [ApiFailure.position, invariant, ApiFailure.new, ApiFailure.operation, List.map_map,
    List.map_cons, List.map_nil] at hd
  cases hs : e.diagnostics with
  | nil =>
    rw [hs] at hd
    cases hd
  | cons d rest =>
    rw [hs] at hd
    cases hd

variable (digests sizes hashBytes maxPolls trusted remote) in
/-- How an acquisition ends after the bindings it has reached: the deadline has passed, or the call
for the last of them failed, or all of them have a payload. -/
inductive Ends : List ProvenanceBinding → Except ApiFailure AcquiredGeometry → Prop
  | late {reached : List ProvenanceBinding} {check : PlanCheck}
      (hcheck : check = .binding reached.length ∨
        reached = trusted.record.bindings ∧ (check = .acquired ∨ check = .finished))
      (hlate : remote.late check = true)
      (hcalls : Succeeded hashBytes maxPolls trusted.record.plan remote
        (firsts ProvenanceBinding.configuredLeaf reached)) : Ends reached (.error timeout)
  | failed {before : List ProvenanceBinding} {b : ProvenanceBinding} {e : ApiFailure}
      (hnew : b.configuredLeaf ∉ before.map ProvenanceBinding.configuredLeaf)
      (hcalls : Succeeded hashBytes maxPolls trusted.record.plan remote
        (firsts ProvenanceBinding.configuredLeaf before))
      (hcall : leafCall hashBytes maxPolls trusted.record.plan remote
        (firsts ProvenanceBinding.configuredLeaf before).length b = .error e) :
      Ends (before ++ [b]) (.error (e.position b.position))
  | acquired {geometry : AcquiredGeometry}
      (hcalls : Succeeded hashBytes maxPolls trusted.record.plan remote
        (firsts ProvenanceBinding.configuredLeaf trusted.record.bindings))
      (hvalidated : validateAcquired trusted.record geometry.bindings = .ok ())
      (haccepted : validateAcquisitionHandoff digests sizes trusted geometry = .ok ())
      (hshared : Shared geometry.bindings) : Ends trusted.record.bindings (.ok geometry)

theorem finish_ends {p : Progress} (hx : ∀ bytes, isSha256 (hashBytes bytes) = true)
    (hretained : validateRetainedPlan digests sizes trusted.record.plan = .ok ())
    (hbound : Bound trusted.record)
    (h : Acquired hashBytes maxPolls trusted.record.plan remote trusted.record.bindings p) :
    Ends digests hashBytes maxPolls remote sizes trusted trusted.record.bindings
      (finishAcquisition digests trusted.record remote p.bindings) := by
  have hvalidated := h.validated hx hbound
  unfold finishAcquisition ensureTime ensure
  cases hacquired : remote.late .acquired with
  | true => exact .late (.inr ⟨rfl, .inl rfl⟩) hacquired h.succeeded
  | false =>
    simp only [hvalidated]
    cases hfinished : remote.late .finished with
    | true => exact .late (.inr ⟨rfl, .inr rfl⟩) hfinished h.succeeded
    | false =>
      exact .acquired h.succeeded hvalidated (handoff_accepted hretained hvalidated)
        (h.shared hx)

/-- After the version check an acquisition calls `acquire_leaf` once for each configured leaf it
reaches, in the order in which they come first, and ends as `Ends` says; the leaf of a binding
always has the request of the binding. -/
theorem geometry_acquired {record : ProvenanceRecord} (ht : digests.text.Faithful)
    (hx : ∀ bytes, isSha256 (hashBytes bytes) = true)
    (hvalid : validateRecord digests sizes hashes canonicalOrigin origin db trusted.record = .ok ())
    (hversion : checkVersion digests sizes hashes canonicalOrigin origin db table trusted remote =
      .ok record) :
    let run := acquireWithTiming digests hashBytes maxPolls sizes hashes canonicalOrigin origin db
      table trusted remote
    (run.calls.map ProvenanceBinding.configuredLeaf).Nodup ∧
      (∃ reached, reached <+: trusted.record.bindings ∧
        run.calls = firsts ProvenanceBinding.configuredLeaf reached ∧
        Ends digests hashBytes maxPolls remote sizes trusted reached run.result) ∧
      run.result ≠ .error (invariant "acquisition_reuse_conflict") := by
  obtain rfl := checkVersion_trusted ht hvalid hversion
  have hbound := (validateRecord_bound hvalid).1
  have hretained := (retainedPlan_ok digests sizes).mpr (validateRecord_ok hvalid).1
  have hloop : LoopEnd hashBytes maxPolls remote trusted.record
      (acquireBindings hashBytes maxPolls trusted.record.plan remote trusted.record.bindings
        ⟨.empty, []⟩) :=
    acquireBindings_end hx hbound acquired_start (List.nil_append _)
  have hends : ∃ reached, reached <+: trusted.record.bindings ∧
      (acquireWithTiming digests hashBytes maxPolls sizes hashes canonicalOrigin origin db table
        trusted remote).calls = firsts ProvenanceBinding.configuredLeaf reached ∧
      Ends digests hashBytes maxPolls remote sizes trusted reached (acquireWithTiming digests
        hashBytes maxPolls sizes hashes canonicalOrigin origin db table trusted remote).result := by
    unfold acquireWithTiming
    simp only [hversion]
    generalize acquireBindings hashBytes maxPolls trusted.record.plan remote
      trusted.record.bindings ⟨.empty, []⟩ = out at hloop
    cases hloop with
    | late hreached hlate h =>
      exact ⟨_, hreached, h.remembers.calls, .late (.inl rfl) hlate h.succeeded⟩
    | failed hreached h hnew hcall hcalls =>
      exact ⟨_, hreached, hcalls, .failed hnew h.succeeded hcall⟩
    | done h =>
      exact ⟨_, List.prefix_refl _, h.remembers.calls, finish_ends hx hretained hbound h⟩
  obtain ⟨reached, hreached, hcalls, hend⟩ := hends
  refine ⟨hcalls ▸ keys_firsts_nodup reached, ⟨reached, hreached, hcalls, hend⟩, ?_⟩
  intro he
  rw [he] at hend
  generalize hconflict : invariant "acquisition_reuse_conflict" = conflict at hend
  cases hend with
  | late hcheck hlate hcalls => exact absurd hconflict (by decide)
  | failed hnew hcalls hcall => exact position_ne_conflict _ _ hconflict.symm

end Trusted

end Runs

/-! ## One part -/

def acquiredRecord : ProvenanceRecord :=
  finishRecord recordingDigests (recordingHandoff true) recordingContext recordingPlan

def acquiredTable : Table AcquisitionRow :=
  ⟨[rowOf recordingDigests acquiredRecord], List.pairwise_singleton _ _⟩

/-- The translation is done at once. -/
def acquiredAnswers : LeafAnswers where
  create _ _ _ _ _ := .ok (.ofFields [("id", .string "t"), ("requestState", .string "DONE"),
    ("resultExternalDataIds", .array [.string "x"])])
  poll _ _ := .error timeout
  download _ _ := .ok ⟨[1], "model/3mf", by decide, by decide⟩
  retain := .ok ()
  late _ := false

def acquiredRemote : Remote := ⟨recordingOnshape, fun _ => acquiredAnswers, fun _ => false⟩

theorem acquired_made : Made recordingDigests noSizes recordingHashes .ok "o" recordingDatabase
    (recordingHandoff true) acquiredRecord :=
  (planInvocation_ok canonicalText_faithful (recording_made true)).1

theorem acquired_version : checkVersion recordingDigests noSizes recordingHashes .ok "o"
    recordingDatabase acquiredTable ⟨acquiredRecord⟩ acquiredRemote = .ok acquiredRecord := by
  have hread : readAssociation recordingDigests noSizes recordingHashes .ok "o" recordingDatabase
      acquiredTable acquiredRecord.plan.planIdentity acquiredRecord.provenanceIdentity =
        .ok ⟨acquiredRecord⟩ :=
    acquired_made.read canonicalText_faithful
      (Table.find?_of_mem (r := rowOf recordingDigests acquiredRecord) List.mem_cons_self)
  refine bind_ok.mpr ⟨_, hread, bind_ok.mpr ⟨_, acquired_made.canonical,
    bind_ok.mpr ⟨_, acquired_made.canonical, ?_⟩⟩⟩
  refine seq_ok.mpr ⟨ensure_ok.mpr rfl, seq_ok.mpr ⟨rfl,
    bind_ok.mpr ⟨"m", recording_evaluated.version true, ?_⟩⟩⟩
  refine seq_ok.mpr ⟨rfl, seq_ok.mpr ⟨ensure_ok.mpr ⟨rfl, fun o ho => ?_⟩, rfl⟩⟩
  rw [List.mem_singleton.mp ho]
  exact ⟨rfl, rfl⟩

theorem geometry_acquired_sample :
    let run := acquireWithTiming recordingDigests (fun _ => recordingId '0') 32 noSizes
      recordingHashes .ok "o" recordingDatabase acquiredTable ⟨acquiredRecord⟩ acquiredRemote
    (run.calls.map ProvenanceBinding.configuredLeaf).Nodup ∧
      (∃ reached, reached <+: acquiredRecord.bindings ∧
        run.calls = firsts ProvenanceBinding.configuredLeaf reached ∧
        Ends recordingDigests (fun _ => recordingId '0') 32 acquiredRemote noSizes
          ⟨acquiredRecord⟩ reached run.result) ∧
      run.result ≠ .error (invariant "acquisition_reuse_conflict") :=
  geometry_acquired canonicalText_faithful
    (fun _ => List.all_eq_true.mp recording_evaluated.hexadecimal '0' (by decide))
    acquired_made.valid acquired_version

end Geometry
end OnshapeExport
