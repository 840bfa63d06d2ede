import OnshapeExport.Translations

/-!
# TranslationResume

What executions for one export request keep, each of which may stop at any point: an unfinished
translation is the newest of its request, one translation at most is completed, and a link is for
its result.

* `RequestInv` — the invariant of the tables, the log and the execution.
* `Later` — what a later state has in common with an earlier one.
* `advance_inv` — one step of an execution.
* `translations_resumed` — every run.
-/

namespace OnshapeExport
namespace Translations

open CacheKey Jobs Json Relational

/-! ## The newest row -/

theorem newer_updatedAt {a b : TranslationRecord} (h : newer a b = true) :
    b.updatedAt ≤ a.updatedAt := by
  simp only [newer, Bool.or_eq_true, Bool.and_eq_true, decide_eq_true_eq] at h
  obtain h | ⟨h, -⟩ := h
  · exact h.le
  · exact h.ge

theorem not_newer_updatedAt {a b : TranslationRecord} (h : newer a b = false) :
    a.updatedAt ≤ b.updatedAt := by
  simp only [newer, Bool.or_eq_false_iff, decide_eq_false_iff_not] at h
  exact not_lt.mp h.1

theorem newest_cons (r : TranslationRecord) (rows : List TranslationRecord) :
    ∃ b, newest (r :: rows) = some b ∧ b ∈ r :: rows ∧
      ∀ a ∈ r :: rows, a.updatedAt ≤ b.updatedAt := by
  show ∃ b, List.foldl _ (some r) rows = some b ∧ _
  induction rows generalizing r with
  | nil => exact ⟨r, rfl, List.mem_singleton_self r, by simp⟩
  | cons a rows ih =>
    rw [List.foldl_cons]
    dsimp only
    split
    · rename_i hnewer
      obtain ⟨b, hb, hmem, hmax⟩ := ih a
      refine ⟨b, hb, List.mem_cons_of_mem _ hmem, fun x hx => ?_⟩
      obtain rfl | hx := List.mem_cons.mp hx
      · exact (newer_updatedAt hnewer).trans (hmax a List.mem_cons_self)
      · exact hmax x hx
    · rename_i hnewer
      obtain ⟨b, hb, hmem, hmax⟩ := ih r
      refine ⟨b, hb, ?_, fun x hx => ?_⟩
      · obtain rfl | hmem := List.mem_cons.mp hmem
        · exact List.mem_cons_self
        · exact List.mem_cons_of_mem _ (List.mem_cons_of_mem _ hmem)
      · obtain rfl | hx := List.mem_cons.mp hx
        · exact hmax x List.mem_cons_self
        · obtain rfl | hx := List.mem_cons.mp hx
          · have hle := not_newer_updatedAt (Bool.eq_false_iff.mpr hnewer)
            exact hle.trans (hmax r List.mem_cons_self)
          · exact hmax x (List.mem_cons_of_mem _ hx)

theorem newest_eq_none {rows : List TranslationRecord} (h : newest rows = none) : rows = [] := by
  cases rows with
  | nil => rfl
  | cons r rows =>
    obtain ⟨b, hb, -⟩ := newest_cons r rows
    rw [hb] at h
    cases h

theorem newest_max {rows : List TranslationRecord} {b : TranslationRecord}
    (h : newest rows = some b) : b ∈ rows ∧ ∀ a ∈ rows, a.updatedAt ≤ b.updatedAt := by
  cases rows with
  | nil => cases h
  | cons r rows =>
    obtain ⟨b', hb, hmem, hmax⟩ := newest_cons r rows
    rw [hb] at h
    cases h
    exact ⟨hmem, hmax⟩

/-! ## Rows after a statement -/

theorem mem_ofRequest {requestHash : String} {t : Table TranslationRecord}
    {r : TranslationRecord} :
    r ∈ ofRequest requestHash t ↔ r ∈ t.rows ∧ r.requestHash = requestHash := by
  simp [ofRequest]

theorem mem_insertTranslationStart (now : Timestamp) (requestHash : String)
    (s : StartedTranslation) (t : Table TranslationRecord) :
    ∃ row : TranslationRecord, row.translationId = s.translationId ∧
      row.requestHash = requestHash ∧ row.updatedAt = now ∧
      ∀ r, r ∈ (insertTranslationStart now requestHash s t).rows ↔
        r ∈ t.rows ∧ r.translationId ≠ s.translationId ∨ r = row := by
  unfold insertTranslationStart
  split
  · rename_i t' hi
    obtain ⟨hrows, hnew⟩ := Table.insert?_eq_some hi
    refine ⟨startedRow now requestHash s, rfl, rfl, rfl, fun r => ?_⟩
    rw [hrows, List.mem_append, List.mem_singleton]
    constructor
    · rintro (hr | rfl)
      · exact .inl ⟨hr, hnew r hr⟩
      · exact .inr rfl
    · rintro (⟨hr, -⟩ | rfl)
      · exact .inl hr
      · exact .inr rfl
  · rename_i hi
    obtain ⟨a, ha, hclash⟩ := Table.insert?_eq_none.mp hi
    have hid : a.translationId = s.translationId := hclash
    exact ⟨restartedRow now requestHash s a, hid, rfl, rfl,
      fun _ => Table.mem_update_key (k := s.translationId) (fun _ => decide_eq_true_iff) ha hid⟩

section Final

variable {text : JsonText}

theorem mem_updateTranslationFinal {now : Timestamp} {translationId : String}
    {p : PolledTranslation} {responseHash : String} {t : Table TranslationRecord}
    {a r : TranslationRecord} (ha : a ∈ t.rows) (hid : a.translationId = translationId) :
    r ∈ (updateTranslationFinal text now translationId p responseHash t).rows ↔
      r ∈ t.rows ∧ r.translationId ≠ translationId ∨ r = finalRow text now p responseHash a :=
  Table.mem_update_key (k := translationId) (fun _ => decide_eq_true_iff) ha hid

/-- A result that is recorded is read back. -/
theorem persisted_finalRow (ht : text.Faithful) {now : Timestamp} {p : PolledTranslation}
    {responseHash : String} {a : TranslationRecord} {externalDataId : String}
    (h : p.singleExternalDataId = .ok externalDataId) :
    persistedResultExternalDataId text (finalRow text now p responseHash a) =
      .ok externalDataId := by
  have hids : p.resultExternalDataIds = [externalDataId] := by
    unfold PolledTranslation.singleExternalDataId at h
    split at h
    · rename_i externalDataId' hids
      cases h
      exact hids
    · cases h
    · cases h
  have hfits : (Codec.list .str).Fits [externalDataId] := fun _ _ => trivial
  have hread : text.read (text.print ((Codec.list .str).enc [externalDataId])) =
      some ((Codec.list .str).enc [externalDataId]) := ht _ (Codec.canonical _ _ hfits)
  simp only [persistedResultExternalDataId, finalRow, hids, Option.getD_some, parseJsonStringVec,
    hread, Option.bind_some, Codec.dec_enc _ _ hfits]
  rfl

end Final

/-! ## The invariant -/

/-- Final, and not done. -/
def Closed (t : TranslationRecord) : Prop := t.finalResponseJson.isSome = true ∧ t.state ≠ "DONE"

theorem closed_not_completed {t : TranslationRecord} (h : Closed t) : completed t = false := by
  simp [completed, h.2]

theorem closed_of_final {t : TranslationRecord} (h : t.finalResponseJson.isSome = true)
    (hc : completed t = false) : Closed t := by
  refine ⟨h, fun hdone => ?_⟩
  simp [completed, hdone, h] at hc

section Invariant

variable (text : JsonText) (digests : Digests) (inspection : Inspection) (request : ExportRequest)

def Mine (tables : Tables) (t : TranslationRecord) : Prop :=
  t ∈ ofRequest request.requestHash tables.translations

/-- The translation is completed. -/
def Done (tables : Tables) (translationId : String) : Prop :=
  ∃ t, Mine request tables t ∧ t.translationId = translationId ∧ completed t = true

/-- The result is the one of a completed translation. -/
def Ready (tables : Tables) (r : Result) : Prop :=
  ∃ t, Mine request tables t ∧ t.translationId = r.translationId ∧ completed t = true ∧
    persistedResultExternalDataId text t = .ok r.externalDataId

/-- The links of the request. -/
def Links (tables : Tables) (l : RawPayloadSource) : Prop :=
  l ∈ tables.rawPayloadSources.rows ∧ l.requestHash = request.requestHash

/-- No translation was recorded as done, and none has a payload. -/
structure Unsettled (tables : Tables) (log : List Event) : Prop where
  links : ∀ l, ¬ Links request tables l
  done : ∀ translationId, .finalRecorded translationId "DONE" ∉ log

def PhaseInv (tables : Tables) (log : List Event) : Phase → Prop
  | .idle => True
  | .found t | .resuming t => Mine request tables t ∧ completed t = true
  | .unfinished => ∀ t, Mine request tables t → completed t = false
  | .starting | .started _ => ∀ t, Mine request tables t → Closed t
  | .polling translationId _ _ | .polled translationId _ _ _ =>
    Unsettled request tables log ∧ (∃ t, Mine request tables t ∧ t.translationId = translationId) ∧
      ∀ t, Mine request tables t → t.translationId ≠ translationId → Closed t
  | .checking r | .downloading r | .storing r _ | .inserting r _ _ | .linking r _
  | .comparing r _ => Ready text request tables r
  | .linked rawPayloadHash => ∃ l, Links request tables l ∧ l.rawPayloadHash = rawPayloadHash

structure RequestInv (w : World) : Prop where
  times : ∀ t, Mine request w.tables t → t.updatedAt ≤ w.clock
  newest : ∀ t, Mine request w.tables t → t.finalResponseJson = none →
    ∀ t', Mine request w.tables t' → t' ≠ t → t'.updatedAt < t.updatedAt
  unique : ∀ t t', Mine request w.tables t → Mine request w.tables t' → completed t = true →
    completed t' = true → t = t'
  links : ∀ l, Links request w.tables l →
    ∃ r, l.key = request.sourceKey r ∧ Ready text request w.tables r
  done : ∀ translationId, .finalRecorded translationId "DONE" ∈ w.log →
    Done request w.tables translationId
  starts : ∀ rows, .startIssued rows ∈ w.log → ∀ t ∈ rows, Closed t
  phase : PhaseInv text request w.tables w.log w.phase

/-- The links stay, what is returned is linked, and nothing is started once a translation is
done. -/
structure Later (w w' : World) : Prop where
  links : ∀ l, Links request w.tables l → Links request w'.tables l
  log : ∃ events, w'.log = w.log ++ events ∧
    (∀ translationId, .finalRecorded translationId "DONE" ∈ w.log →
      ∀ rows, .startIssued rows ∉ events) ∧
    ∀ rawPayloadHash, .returned (.ok rawPayloadHash) ∈ events →
      ∀ l, Links request w.tables l → l.rawPayloadHash = rawPayloadHash

variable {text digests inspection request}

theorem Later.refl (w : World) : Later request w w :=
  ⟨fun _ h => h, [], by simp, by simp, by simp⟩

theorem Later.trans {w₁ w₂ w₃ : World} (h : Later request w₁ w₂) (h' : Later request w₂ w₃) :
    Later request w₁ w₃ := by
  obtain ⟨hlinks, events, hlog, hdone, hreturned⟩ := h
  obtain ⟨hlinks', events', hlog', hdone', hreturned'⟩ := h'
  refine ⟨fun l hl => hlinks' l (hlinks l hl), events ++ events', ?_, ?_, ?_⟩
  · rw [hlog', hlog, List.append_assoc]
  · intro translationId hmem rows hrows
    obtain hrows | hrows := List.mem_append.mp hrows
    · exact hdone translationId hmem rows hrows
    · refine hdone' translationId ?_ rows hrows
      rw [hlog]
      exact List.mem_append_left _ hmem
  · intro rawPayloadHash hmem l hl
    obtain hmem | hmem := List.mem_append.mp hmem
    · exact hreturned rawPayloadHash hmem l hl
    · exact hreturned' rawPayloadHash hmem l (hlinks l hl)

/-- The links of a request have one key. -/
theorem RequestInv.link_key {w : World} (h : RequestInv text request w) {l l' : RawPayloadSource}
    (hl : Links request w.tables l) (hl' : Links request w.tables l') : l.key = l'.key := by
  obtain ⟨r, hk, t, ht, hid, hc, he⟩ := h.links l hl
  obtain ⟨r', hk', t', ht', hid', hc', he'⟩ := h.links l' hl'
  obtain rfl := h.unique t t' ht ht' hc hc'
  rw [he] at he'
  have hr : r = r' := by
    cases r
    cases r'
    simp only at hid hid' he'
    rw [← hid, ← hid', Except.ok.inj he']
  rw [hk, hk', hr]

theorem RequestInv.link_unique {w : World} (h : RequestInv text request w) {l l' : RawPayloadSource}
    (hl : Links request w.tables l) (hl' : Links request w.tables l') : l = l' := by
  by_contra hne
  exact Table.not_clash hl.1 hl'.1 hne (h.link_key hl hl')

/-- The link of a result is the link of the request. -/
theorem RequestInv.ready_key {w : World} (h : RequestInv text request w) {r : Result}
    (hr : Ready text request w.tables r) {l : RawPayloadSource} (hl : Links request w.tables l) :
    l.key = request.sourceKey r := by
  obtain ⟨r', hk, t', ht', hid', hc', he'⟩ := h.links l hl
  obtain ⟨t, ht, hid, hc, he⟩ := hr
  obtain rfl := h.unique t t' ht ht' hc hc'
  rw [he] at he'
  rw [hk]
  cases r
  cases r'
  simp only at hid hid' he'
  rw [← hid, ← hid', Except.ok.inj he']

/-! ## Steps -/

variable (text request) in
/-- What a step leaves keeps the invariant, and what a later state has to keep. -/
def Keeps (w : World) (now : Timestamp) (o : Outcome) : Prop :=
  RequestInv text request ⟨now, o.tables, o.phase, w.log ++ o.events⟩ ∧
    Later request w ⟨now, o.tables, o.phase, w.log ++ o.events⟩

variable (request) in
/-- Nothing is started and nothing is recorded, and what is returned is linked. -/
def QuietEvents (tables : Tables) (events : List Event) : Prop :=
  ∀ e ∈ events, ∃ result, e = .returned result ∧ ∀ rawPayloadHash, result = .ok rawPayloadHash →
    ∀ l, Links request tables l → l.rawPayloadHash = rawPayloadHash

theorem quiet_nil (tables : Tables) : QuietEvents request tables [] := nofun

theorem quiet_error (tables : Tables) (e : String) :
    QuietEvents request tables [.returned (.error e)] := by
  intro event hevent
  exact ⟨.error e, List.mem_singleton.mp hevent, nofun⟩

theorem quiet_ok {tables : Tables} {rawPayloadHash : String}
    (h : ∀ l, Links request tables l → l.rawPayloadHash = rawPayloadHash) :
    QuietEvents request tables [.returned (.ok rawPayloadHash)] := by
  intro event hevent
  refine ⟨.ok rawPayloadHash, List.mem_singleton.mp hevent, fun hash hhash => ?_⟩
  cases hhash
  exact h

theorem QuietEvents.not_start {tables : Tables} {events : List Event}
    (h : QuietEvents request tables events) (rows : List TranslationRecord) :
    .startIssued rows ∉ events := by
  intro hmem
  obtain ⟨result, he, -⟩ := h _ hmem
  cases he

theorem QuietEvents.not_final {tables : Tables} {events : List Event}
    (h : QuietEvents request tables events) (translationId state : String) :
    .finalRecorded translationId state ∉ events := by
  intro hmem
  obtain ⟨result, he, -⟩ := h _ hmem
  cases he

theorem PhaseInv.of_rawPayloads {tables : Tables} {log : List Event} {phase : Phase}
    (rawPayloads : Table RawPayloadRecord) (h : PhaseInv text request tables log phase) :
    PhaseInv text request { tables with rawPayloads := rawPayloads } log phase := by
  cases phase with
  | polling translationId startResponseJson fresh => exact ⟨⟨h.1.links, h.1.done⟩, h.2⟩
  | polled translationId p responseHash fresh => exact ⟨⟨h.1.links, h.1.done⟩, h.2⟩
  | _ => exact h

/-- A step that writes neither translations nor links. -/
theorem quiet_step {w : World} {now : Timestamp} (rawPayloads : Table RawPayloadRecord)
    {phase : Phase} {events : List Event} (h : RequestInv text request w) (hclock : w.clock < now)
    (hevents : QuietEvents request w.tables events)
    (hphase : PhaseInv text request w.tables (w.log ++ events) phase) :
    Keeps text request w now ⟨phase, { w.tables with rawPayloads := rawPayloads }, events⟩ := by
  refine ⟨⟨fun t ht => (h.times t ht).trans hclock.le, h.newest, h.unique, h.links, ?_, ?_,
    hphase.of_rawPayloads rawPayloads⟩, fun l hl => hl, events, rfl,
    fun _ _ => hevents.not_start, ?_⟩
  · intro translationId hmem
    obtain hmem | hmem := List.mem_append.mp hmem
    · exact h.done translationId hmem
    · exact absurd hmem (hevents.not_final translationId "DONE")
  · intro rows hmem
    obtain hmem | hmem := List.mem_append.mp hmem
    · exact h.starts rows hmem
    · exact absurd hmem (hevents.not_start rows)
  · intro rawPayloadHash hmem l hl
    obtain ⟨result, he, hsame⟩ := hevents _ hmem
    cases he
    exact hsame rawPayloadHash rfl l hl

theorem proceed_step {w : World} {now : Timestamp} {phase : Phase} (h : RequestInv text request w)
    (hclock : w.clock < now) (hphase : PhaseInv text request w.tables w.log phase) :
    Keeps text request w now (proceed w.tables phase) := by
  refine quiet_step w.tables.rawPayloads h hclock (quiet_nil _) ?_
  rw [List.append_nil]
  exact hphase

theorem fail_step {w : World} {now : Timestamp} (e : String) (h : RequestInv text request w)
    (hclock : w.clock < now) : Keeps text request w now (finish w.tables (.error e)) :=
  quiet_step w.tables.rawPayloads h hclock (quiet_error _ e) trivial

/-- What is returned is the payload of the links of the request. -/
theorem return_step {w : World} {now : Timestamp} {rawPayloadHash : String}
    (h : RequestInv text request w) (hclock : w.clock < now)
    (hlinks : ∀ l, Links request w.tables l → l.rawPayloadHash = rawPayloadHash) :
    Keeps text request w now (finish w.tables (.ok rawPayloadHash)) :=
  quiet_step w.tables.rawPayloads h hclock (quiet_ok hlinks) trivial

/-- A look at the link of a result. -/
theorem lookUp_step {w : World} {now : Timestamp} (r : Result) {missing : Phase}
    (h : RequestInv text request w) (hclock : w.clock < now)
    (hmissing : PhaseInv text request w.tables w.log missing) :
    Keeps text request w now (lookUp request w.tables r missing) := by
  unfold lookUp
  split
  · rename_i rawPayloadHash hfind
    obtain ⟨l, hl, rfl⟩ := Option.map_eq_some_iff.mp hfind
    have hkey : l.key = request.sourceKey r := Table.find?_key hl
    have hrequest : l.requestHash = request.requestHash := congrArg SourceKey.requestHash hkey
    exact proceed_step h hclock ⟨l, ⟨Table.find?_mem hl, hrequest⟩, rfl⟩
  · exact proceed_step h hclock hmissing

/-- Where no translation of the request is completed, nothing is settled. -/
theorem unsettled_of_unfinished {w : World} (h : RequestInv text request w)
    (hunfinished : ∀ t, Mine request w.tables t → completed t = false) :
    Unsettled request w.tables w.log := by
  refine ⟨fun l hl => ?_, fun translationId hmem => ?_⟩
  · obtain ⟨r, -, t, ht, -, hc, -⟩ := h.links l hl
    rw [hunfinished t ht] at hc
    cases hc
  · obtain ⟨t, ht, -, hc⟩ := h.done translationId hmem
    rw [hunfinished t ht] at hc
    cases hc

/-- Apart from the newest translation all are final. -/
theorem closed_of_newest {w : World} (h : RequestInv text request w)
    (hunfinished : ∀ t, Mine request w.tables t → completed t = false) {b t : TranslationRecord}
    (hb : Mine request w.tables b ∧ ∀ a, Mine request w.tables a → a.updatedAt ≤ b.updatedAt)
    (ht : Mine request w.tables t) (hne : b ≠ t) : Closed t := by
  refine closed_of_final ?_ (hunfinished t ht)
  cases hfinal : t.finalResponseJson with
  | some final => rfl
  | none =>
    have hlt := h.newest t ht hfinal b hb.1 hne
    exact absurd (hb.2 t ht) (not_le.mpr hlt)

/-- A translation is asked for. -/
theorem start_step {w : World} {now : Timestamp} {phase : Phase} {events : List Event}
    (h : RequestInv text request w) (hclock : w.clock < now)
    (hclosed : ∀ t, Mine request w.tables t → Closed t)
    (hevents : QuietEvents request w.tables events)
    (hphase : PhaseInv text request w.tables (w.log ++ .startIssued
      (ofRequest request.requestHash w.tables.translations) :: events) phase) :
    Keeps text request w now ⟨phase, w.tables, .startIssued
      (ofRequest request.requestHash w.tables.translations) :: events⟩ := by
  have hunsettled := unsettled_of_unfinished h fun t ht => closed_not_completed (hclosed t ht)
  refine ⟨⟨fun t ht => (h.times t ht).trans hclock.le, h.newest, h.unique, h.links, ?_, ?_,
    hphase⟩, fun l hl => hl, _, rfl, ?_, ?_⟩
  · intro translationId hmem
    obtain hmem | hmem := List.mem_append.mp hmem
    · exact h.done translationId hmem
    · obtain hmem | hmem := List.mem_cons.mp hmem
      · cases hmem
      · exact absurd hmem (hevents.not_final translationId "DONE")
  · intro rows hmem
    obtain hmem | hmem := List.mem_append.mp hmem
    · exact h.starts rows hmem
    · obtain hmem | hmem := List.mem_cons.mp hmem
      · cases hmem
        exact hclosed
      · exact absurd hmem (hevents.not_start rows)
  · intro translationId hmem
    exact absurd hmem (hunsettled.done translationId)
  · intro rawPayloadHash hmem l hl
    exact absurd hl (hunsettled.links l)

variable (request) in
/-- What a statement on one translation of the request leaves. -/
structure Rewrites (tables tables' : Tables) (row : TranslationRecord) : Prop where
  request : row.requestHash = request.requestHash
  sources : tables'.rawPayloadSources = tables.rawPayloadSources
  rows : ∀ t, t ∈ tables'.translations.rows ↔
    t ∈ tables.translations.rows ∧ t.translationId ≠ row.translationId ∨ t = row

theorem Rewrites.mine {tables tables' : Tables} {row t : TranslationRecord}
    (h : Rewrites request tables tables' row) :
    Mine request tables' t ↔
      Mine request tables t ∧ t.translationId ≠ row.translationId ∨ t = row := by
  unfold Mine
  rw [mem_ofRequest, mem_ofRequest, h.rows]
  constructor
  · rintro ⟨⟨ht, hne⟩ | rfl, hr⟩
    · exact .inl ⟨⟨ht, hr⟩, hne⟩
    · exact .inr rfl
  · rintro (⟨⟨ht, hr⟩, hne⟩ | rfl)
    · exact ⟨.inl ⟨ht, hne⟩, hr⟩
    · exact ⟨.inr rfl, h.request⟩

/-- A statement on one translation, when all others are closed and none has a payload. -/
theorem rewrite_step {w : World} {now : Timestamp} {tables' : Tables} {row : TranslationRecord}
    {phase : Phase} {events : List Event} (h : RequestInv text request w)
    (hrows : Rewrites request w.tables tables' row)
    (hunsettled : Unsettled request w.tables w.log) (hclock : w.clock < now)
    (hclosed : ∀ t, Mine request w.tables t → t.translationId ≠ row.translationId → Closed t)
    (hnow : row.updatedAt = now)
    (hdone : ∀ translationId, .finalRecorded translationId "DONE" ∈ events →
      translationId = row.translationId ∧ completed row = true)
    (hstarts : ∀ rows, .startIssued rows ∉ events)
    (hphase : PhaseInv text request tables' (w.log ++ events) phase) :
    Keeps text request w now ⟨phase, tables', events⟩ := by
  have hrow : Mine request tables' row := hrows.mine.mpr (.inr rfl)
  have hlinks (l : RawPayloadSource) : ¬ Links request tables' l := by
    intro hl
    refine hunsettled.links l ⟨?_, hl.2⟩
    rw [← hrows.sources]
    exact hl.1
  refine ⟨⟨fun t ht => ?_, fun t ht hopen t' ht' hne => ?_, fun t t' ht ht' hc hc' => ?_,
    fun l hl => absurd hl (hlinks l), fun translationId hmem => ?_, fun rows hmem => ?_, hphase⟩,
    fun l hl => absurd hl (hunsettled.links l), events, rfl, fun _ _ => hstarts,
    fun _ _ l hl => absurd hl (hunsettled.links l)⟩
  · obtain ⟨ht, -⟩ | rfl := hrows.mine.mp ht
    · exact (h.times t ht).trans hclock.le
    · exact hnow.le
  · obtain ⟨ht, hid⟩ | rfl := hrows.mine.mp ht
    · have hfinal := (hclosed t ht hid).1
      rw [hopen] at hfinal
      cases hfinal
    · obtain ⟨ht', -⟩ | rfl := hrows.mine.mp ht'
      · rw [hnow]
        exact (h.times t' ht').trans_lt hclock
      · exact absurd rfl hne
  · obtain ⟨ht, hid⟩ | rfl := hrows.mine.mp ht
    · rw [closed_not_completed (hclosed t ht hid)] at hc
      cases hc
    · obtain ⟨ht', hid'⟩ | rfl := hrows.mine.mp ht'
      · rw [closed_not_completed (hclosed t' ht' hid')] at hc'
        cases hc'
      · rfl
  · obtain hmem | hmem := List.mem_append.mp hmem
    · exact absurd hmem (hunsettled.done translationId)
    · obtain ⟨rfl, hc⟩ := hdone translationId hmem
      exact ⟨row, hrow, rfl, hc⟩
  · obtain hmem | hmem := List.mem_append.mp hmem
    · exact h.starts rows hmem
    · exact absurd hmem (hstarts rows)

variable (request) in
theorem started_rewrites (tables : Tables) (now : Timestamp) (s : StartedTranslation) :
    ∃ row, row.translationId = s.translationId ∧ row.updatedAt = now ∧
      Rewrites request tables { tables with
        translations := insertTranslationStart now request.requestHash s tables.translations }
        row := by
  obtain ⟨row, hid, hrequest, hnow, hrows⟩ :=
    mem_insertTranslationStart now request.requestHash s tables.translations
  refine ⟨row, hid, hnow, hrequest, rfl, fun t => ?_⟩
  rw [hid]
  exact hrows t

theorem polled_rewrites {tables : Tables} (now : Timestamp) (p : PolledTranslation)
    (responseHash : String) {a : TranslationRecord} (ha : Mine request tables a) :
    Rewrites request tables { tables with
        translations := updateTranslationFinal text now a.translationId p responseHash
          tables.translations } (finalRow text now p responseHash a) := by
  obtain ⟨ha, hrequest⟩ := mem_ofRequest.mp ha
  exact ⟨hrequest, rfl, fun t => mem_updateTranslationFinal ha rfl⟩

/-- The final state of a translation is recorded. -/
theorem polled_step {w : World} {now : Timestamp} {p : PolledTranslation} {responseHash : String}
    {a : TranslationRecord} {phase : Phase} {events : List Event} (h : RequestInv text request w)
    (hunsettled : Unsettled request w.tables w.log) (hclock : w.clock < now)
    (ha : Mine request w.tables a)
    (hclosed : ∀ t, Mine request w.tables t → t.translationId ≠ a.translationId → Closed t)
    (hevents : ∀ e ∈ events, ∃ result, e = .returned result)
    (hphase : PhaseInv text request { w.tables with
        translations := updateTranslationFinal text now a.translationId p responseHash
          w.tables.translations } (w.log ++ .finalRecorded a.translationId p.state :: events) phase) :
    Keeps text request w now ⟨phase, { w.tables with
        translations := updateTranslationFinal text now a.translationId p responseHash
          w.tables.translations }, .finalRecorded a.translationId p.state :: events⟩ := by
  refine rewrite_step h (polled_rewrites now p responseHash ha) hunsettled hclock hclosed rfl ?_ ?_
    hphase
  · intro translationId hmem
    obtain hmem | hmem := List.mem_cons.mp hmem
    · injection hmem with hid hstate
      exact ⟨hid, by simp [completed, finalRow, ← hstate]⟩
    · obtain ⟨result, he⟩ := hevents _ hmem
      cases he
  · intro rows hmem
    obtain hmem | hmem := List.mem_cons.mp hmem
    · cases hmem
    · obtain ⟨result, he⟩ := hevents _ hmem
      cases he

/-- The first payload of a result is linked. -/
theorem link_step {w : World} {now : Timestamp} {r : Result} {row : RawPayloadSource}
    {rawPayloadSources : Table RawPayloadSource} (h : RequestInv text request w)
    (hclock : w.clock < now) (hr : Ready text request w.tables r)
    (hkey : row.key = request.sourceKey r)
    (hinsert : w.tables.rawPayloadSources.insert? row = some rawPayloadSources) :
    Keeps text request w now (finish { w.tables with rawPayloadSources := rawPayloadSources }
      (.ok row.rawPayloadHash)) := by
  obtain ⟨hrows, hnew⟩ := Table.insert?_eq_some hinsert
  have hnone (l : RawPayloadSource) : ¬ Links request w.tables l := fun hl =>
    hnew l hl.1 ((h.ready_key hr hl).trans hkey.symm)
  refine ⟨⟨fun t ht => (h.times t ht).trans hclock.le, h.newest, h.unique, fun l hl => ?_,
    fun translationId hmem => ?_, fun rows hmem => ?_, trivial⟩,
    fun l hl => absurd hl (hnone l), _, rfl, fun _ _ rows hmem => ?_,
    fun _ _ l hl => absurd hl (hnone l)⟩
  · obtain ⟨hmem, hrequest⟩ := hl
    simp only [finish, hrows, List.mem_append, List.mem_singleton] at hmem
    obtain hmem | rfl := hmem
    · exact absurd ⟨hmem, hrequest⟩ (hnone l)
    · exact ⟨r, hkey, hr⟩
  · obtain hmem | hmem := List.mem_append.mp hmem
    · exact h.done translationId hmem
    · cases List.mem_singleton.mp hmem
  · obtain hmem | hmem := List.mem_append.mp hmem
    · exact h.starts rows hmem
    · cases List.mem_singleton.mp hmem
  · cases List.mem_singleton.mp hmem

variable (digests inspection) in
/-- Every step of an execution keeps the invariant. -/
theorem advance_keeps (ht : text.Faithful) {clock now : Timestamp} {tables : Tables}
    {phase : Phase} {log : List Event} (answers : Answers)
    (h : RequestInv text request ⟨clock, tables, phase, log⟩) (hclock : clock < now) :
    Keeps text request ⟨clock, tables, phase, log⟩ now
      (advance text digests inspection request now answers tables phase) := by
  have hphase := h.phase
  cases phase with
  | idle =>
    simp only [advance]
    split
    · rename_i t hfound
      obtain ⟨hmem, -⟩ := newest_max hfound
      obtain ⟨hmine, hc⟩ := List.mem_filter.mp hmem
      exact proceed_step h hclock ⟨hmine, hc⟩
    · rename_i hnone
      refine proceed_step h hclock fun t hmine => ?_
      have hempty := newest_eq_none hnone
      by_contra hc
      have hmem := List.mem_filter.mpr ⟨hmine, Bool.eq_true_of_not_eq_false hc⟩
      rw [hempty] at hmem
      cases hmem
  | found t =>
    simp only [advance]
    split
    · exact fail_step _ h hclock
    · exact lookUp_step _ h hclock hphase
  | resuming t =>
    obtain ⟨hmine, hc⟩ := hphase
    simp only [advance]
    split
    · exact fail_step _ h hclock
    · split
      · exact fail_step _ h hclock
      · rename_i externalDataId he
        exact lookUp_step _ h hclock ⟨t, hmine, rfl, hc, he⟩
  | unfinished =>
    simp only [advance]
    split
    · rename_i hnone
      refine proceed_step h hclock fun t ht => ?_
      rw [Mine, newest_eq_none hnone] at ht
      cases ht
    · rename_i b hb
      have hnewest := newest_max hb
      split
      · rename_i hfinal
        refine proceed_step h hclock fun t ht => ?_
        by_cases hne : b = t
        · rw [← hne]
          exact closed_of_final hfinal (hphase b hnewest.1)
        · exact closed_of_newest h hphase hnewest ht hne
      · refine proceed_step h hclock ⟨unsettled_of_unfinished h hphase, ⟨b, hnewest.1, rfl⟩, ?_⟩
        intro t ht hid
        exact closed_of_newest h hphase hnewest ht fun he => hid (he ▸ rfl)
  | starting =>
    simp only [advance]
    split
    · exact start_step h hclock hphase (quiet_error _ _) trivial
    · exact start_step h hclock hphase (quiet_nil _) hphase
  | started s =>
    obtain ⟨row, hid, hnow, hrows⟩ := started_rewrites request tables now s
    have hunsettled := unsettled_of_unfinished h fun t ht => closed_not_completed (hphase t ht)
    refine rewrite_step h hrows hunsettled hclock (fun t ht _ => hphase t ht) hnow nofun nofun ?_
    refine ⟨⟨fun l hl => hunsettled.links l ⟨hl.1, hl.2⟩, ?_⟩, ⟨row, hrows.mine.mpr (.inr rfl), hid⟩, ?_⟩
    · rw [List.append_nil]
      exact hunsettled.done
    · intro t ht hne
      obtain ⟨ht, -⟩ | rfl := hrows.mine.mp ht
      · exact hphase t ht
      · exact absurd hid hne
  | polling translationId startResponseJson fresh =>
    simp only [advance]
    split
    · exact fail_step _ h hclock
    · exact proceed_step h hclock hphase
  | polled translationId p responseHash fresh =>
    obtain ⟨hunsettled, ⟨a, ha, rfl⟩, hclosed⟩ := hphase
    have hfail (e : String) : ∀ event ∈ [Event.returned (.error e)],
        ∃ result, event = .returned result := fun event hevent =>
      ⟨.error e, List.mem_singleton.mp hevent⟩
    simp only [advance]
    split
    · exact polled_step h hunsettled hclock ha hclosed (hfail _) trivial
    · rename_i hstate
      split
      · exact polled_step h hunsettled hclock ha hclosed (hfail _) trivial
      · rename_i externalDataId he
        have hready : Ready text request { tables with
            translations := updateTranslationFinal text now a.translationId p responseHash
              tables.translations } ⟨a.translationId, externalDataId⟩ := by
          refine ⟨finalRow text now p responseHash a, ?_, rfl, ?_, persisted_finalRow ht he⟩
          · exact (polled_rewrites now p responseHash ha).mine.mpr (.inr rfl)
          · simp [completed, finalRow, not_not.mp hstate]
        refine polled_step h hunsettled hclock ha hclosed nofun ?_
        cases fresh
        · exact hready
        · exact hready
  | checking r => exact lookUp_step r h hclock hphase
  | downloading r =>
    simp only [advance]
    split
    · exact fail_step _ h hclock
    · exact fail_step _ h hclock
    · exact proceed_step h hclock hphase
  | storing r d =>
    simp only [advance]
    split
    · exact fail_step _ h hclock
    · exact fail_step _ h hclock
    · exact proceed_step h hclock hphase
  | inserting r d zipManifestJson =>
    simp only [advance]
    split
    · exact fail_step _ h hclock
    · rename_i rawPayloads hinsert
      refine quiet_step rawPayloads h hclock (quiet_nil _) ?_
      exact hphase
  | linking r d =>
    simp only [advance]
    split
    · rename_i rawPayloadSources hinsert
      exact link_step h hclock hphase rfl hinsert
    · exact proceed_step h hclock hphase
  | comparing r rawPayloadHash =>
    simp only [advance]
    split
    · rename_i hsame
      refine return_step h hclock fun l hl => ?_
      have hfind : tables.rawPayloadSources.find? (request.sourceKey r) = some l := by
        rw [← h.ready_key hphase hl]
        exact Table.find?_of_mem hl.1
      rw [rawPayloadHashForSource, hfind] at hsame
      exact Option.some.inj hsame
    · exact fail_step _ h hclock
  | linked rawPayloadHash =>
    obtain ⟨l, hl, rfl⟩ := hphase
    simp only [advance]
    split
    · exact return_step h hclock fun l' hl' => by rw [h.link_unique hl hl']
    · exact fail_step _ h hclock

variable (digests inspection) in
theorem step_inv (ht : text.Faithful) (w : World) (op : Op) (h : RequestInv text request w)
    (hclock : op.After w.clock) :
    RequestInv text request (step text digests inspection request w op) ∧
      Later request w (step text digests inspection request w op) := by
  cases op with
  | advance now answers => exact advance_keeps digests inspection ht answers h hclock
  | crash =>
    exact ⟨⟨h.times, h.newest, h.unique, h.links, h.done, h.starts, trivial⟩, fun _ hl => hl, [],
      (List.append_nil _).symm, fun _ _ _ => List.not_mem_nil, nofun⟩

/-! ## Every run -/

theorem run_inv (ht : text.Faithful) {w : World} {ops : List Op} (h : RequestInv text request w)
    (hclock : Trace.Along (step text digests inspection request) (fun w op => op.After w.clock) w
      ops) :
    RequestInv text request (Trace.run (step text digests inspection request) w ops) ∧
      Later request w (Trace.run (step text digests inspection request) w ops) := by
  induction ops generalizing w with
  | nil => exact ⟨h, Later.refl w⟩
  | cons op ops ih =>
    obtain ⟨hinv, hlater⟩ := step_inv digests inspection ht w op h hclock.1
    obtain ⟨hinv', hlater'⟩ := ih hinv hclock.2
    exact ⟨hinv', hlater.trans hlater'⟩

variable (digests inspection request) in
/-- Executions for one request that has no translation yet, each stopping anywhere, by a clock that
moves on. A translation is asked for only while all translations of the request are final and none
is done. After one was recorded as done it stays done and none is asked for, and after a payload
was linked its link stays and only that payload is returned. -/
theorem translations_resumed (ht : text.Faithful) (clock : Timestamp) (tables : Tables)
    (htranslations : ∀ t ∈ tables.translations.rows, t.requestHash ≠ request.requestHash)
    (hsources : ∀ l ∈ tables.rawPayloadSources.rows, l.requestHash ≠ request.requestHash)
    (ops : List Op)
    (hclock : Trace.Along (step text digests inspection request) (fun w op => op.After w.clock)
      ⟨clock, tables, .idle, []⟩ ops) :
    let run := Trace.run (step text digests inspection request) ⟨clock, tables, .idle, []⟩
    (∀ rows, .startIssued rows ∈ (run ops).log →
      ∀ t ∈ rows, t.finalResponseJson.isSome = true ∧ t.state ≠ "DONE") ∧
    ∀ pre post, ops = pre ++ post → ∃ events, (run ops).log = (run pre).log ++ events ∧
      (∀ translationId, .finalRecorded translationId "DONE" ∈ (run pre).log →
        (∃ t ∈ (run ops).tables.translations.rows, t.translationId = translationId ∧
          t.requestHash = request.requestHash ∧ t.state = "DONE") ∧
        ∀ rows, .startIssued rows ∉ events) ∧
      ∀ l ∈ (run pre).tables.rawPayloadSources.rows, l.requestHash = request.requestHash →
        l ∈ (run ops).tables.rawPayloadSources.rows ∧
        ∀ rawPayloadHash, .returned (.ok rawPayloadHash) ∈ events →
          rawPayloadHash = l.rawPayloadHash := by
  intro run
  have hnone (t : TranslationRecord) : ¬ Mine request tables t := fun hm =>
    htranslations t (mem_ofRequest.mp hm).1 (mem_ofRequest.mp hm).2
  have hstart : RequestInv text request ⟨clock, tables, .idle, []⟩ :=
    ⟨fun t hm => absurd hm (hnone t), fun t hm => absurd hm (hnone t),
      fun t _ hm => absurd hm (hnone t), fun l hl => absurd hl.2 (hsources l hl.1), nofun, nofun,
      trivial⟩
  refine ⟨(run_inv ht hstart hclock).1.starts, ?_⟩
  rintro pre post rfl
  obtain ⟨hpre, hpost⟩ := hclock.of_append
  have hbefore := (run_inv ht hstart hpre).1
  obtain ⟨hafter, hlinks, events, hlog, hdone, hreturned⟩ := run_inv ht hbefore hpost
  rw [← Trace.run_append] at hafter hlinks hlog
  refine ⟨events, hlog, fun translationId hmem => ⟨?_, hdone translationId hmem⟩,
    fun l hl hrequest => ⟨(hlinks l ⟨hl, hrequest⟩).1, fun rawPayloadHash hmem => ?_⟩⟩
  · obtain ⟨t, hm, hid, hc⟩ := hafter.done translationId
      (by rw [hlog]; exact List.mem_append_left _ hmem)
    obtain ⟨ht, hrequest⟩ := mem_ofRequest.mp hm
    simp only [completed, Bool.and_eq_true, decide_eq_true_eq] at hc
    exact ⟨t, ht, hid, hrequest, hc.1⟩
  · exact (hreturned rawPayloadHash hmem l ⟨hl, hrequest⟩).symm

end Invariant

/-! ## An execution that stops, and the ones after it -/

def resumedDigests : Digests := ⟨canonicalText, fun _ => "r"⟩

def resumedInspection : Inspection where
  hexSha256 _ := "h"
  detectKind _ := "binary"
  zipInventory _ := .ok none

def resumedRequest : ExportRequest := ⟨"q", "create-step-export", some "d"⟩

/-- The service is asked again while the translation is active. -/
def resumedAnswers : Answers where
  start := .ok (.object [("id", .string "t")])
  polls := [.ok (.object [("requestState", .string "ACTIVE")]),
    .ok (.object [("requestState", .string "DONE"),
      ("resultExternalDataIds", .array [.string "x"])])]
  download := .ok ⟨[], none, "\x7b\x7d", none, none, none⟩
  put := .ok ()

/-- A translation is recorded, the execution stops, and the next one gets to its final state. -/
def resumedBefore : List Op :=
  [.advance 1 resumedAnswers, .advance 2 resumedAnswers, .advance 3 resumedAnswers,
   .advance 4 resumedAnswers, .crash, .advance 5 resumedAnswers, .advance 6 resumedAnswers,
   .advance 7 resumedAnswers, .advance 8 resumedAnswers]

/-- It downloads the result, and another execution follows. -/
def resumedAfter : List Op :=
  [.advance 9 resumedAnswers, .advance 10 resumedAnswers, .advance 11 resumedAnswers,
   .advance 12 resumedAnswers, .advance 13 resumedAnswers, .advance 14 resumedAnswers,
   .advance 15 resumedAnswers, .advance 16 resumedAnswers]

def resumedRun : List Op → World :=
  Trace.run (step canonicalText resumedDigests resumedInspection resumedRequest)
    ⟨0, ⟨.empty, .empty, .empty⟩, .idle, []⟩

example : (resumedRun (resumedBefore ++ resumedAfter)).log =
    [.startIssued [], .finalRecorded "t" "DONE", .returned (.ok "h"), .returned (.ok "h")] := by
  decide +kernel

/-- The translation that was recorded before the stop is not asked for again. -/
theorem translations_resumed_sample :
    .finalRecorded "t" "DONE" ∈ (resumedRun resumedBefore).log ∧
      ∃ events, (resumedRun (resumedBefore ++ resumedAfter)).log =
          (resumedRun resumedBefore).log ++ events ∧
        ∀ rows, .startIssued rows ∉ events := by
  have hrecorded : .finalRecorded "t" "DONE" ∈ (resumedRun resumedBefore).log := by
    decide +kernel
  have hclock : Trace.Along (step canonicalText resumedDigests resumedInspection resumedRequest)
      (fun w op => op.After w.clock) ⟨0, ⟨.empty, .empty, .empty⟩, .idle, []⟩
      (resumedBefore ++ resumedAfter) := by
    simp [resumedBefore, resumedAfter, Trace.Along, Op.After, step]
  have hall := translations_resumed resumedDigests resumedInspection resumedRequest
    canonicalText_faithful 0 ⟨.empty, .empty, .empty⟩ (fun _ h => absurd h List.not_mem_nil)
    (fun _ h => absurd h List.not_mem_nil) (resumedBefore ++ resumedAfter) hclock
  obtain ⟨events, hlog, hdone, -⟩ := hall.2 resumedBefore resumedAfter rfl
  exact ⟨hrecorded, events, hlog, (hdone "t" hrecorded).2⟩

end Translations
end OnshapeExport
