import OnshapeExport.Lib.Trace
import OnshapeExport.ParameterNormalization

/-!
# ServedSchemas

The schemas that `main.rs` keeps for a source and serves to the models of the catalog. The catalog's
overrides are applied before a schema is stored, and again, as they are then, when it is served.

* `refreshParameters`, `loadOrRefreshParameters` — one request; `step` runs it for a model as the
  catalog has it at the time, and may stop between its writes.
* `expected` — the raw configuration with the overrides of one model.
* `Covers` — the overrides of a model set all that those of the stored schema set.
* `served_expected` — when this holds of every schema that is served, every one is as expected.
-/

namespace OnshapeExport
namespace Parameters

open CacheModel Catalogs Json

/-! ## What is kept for a source -/

structure ParameterMetadata where
  rawObjectKey : String
  normalizedObjectKey : String
  schemaHash : String
  schemaVersion : Nat

/-- The row of the source and the objects of the storage. Of a run, it is remembered for which
model the stored schema was made, and what was served; nothing reads these. -/
structure World where
  metadata : Option ParameterMetadata
  raws : String → Option Value
  schemas : String → Option ParameterSchema
  writer : Option Model
  served : List (Model × ParameterSchema)

def parameterRawKey (sourceHash : String) : String :=
  "onshape/source/v2/" ++ sourceHash ++ "/configuration.raw.json"

def parameterNormalizedKey (sourceHash schemaHash : String) : String :=
  "onshape/source/v2/" ++ sourceHash ++ "/parameters.normalized/" ++ schemaHash ++ ".json"

/-! ## Requests -/

/-- The first overridden parameter that the schema does not know is an error. -/
def validateParameterOverrides (m : Model) (schema : ParameterSchema) : Except String Unit :=
  match m.parameterOverrides.find? fun o => o.1 ∉ schema.parameters.map Parameter.id with
  | some o =>
    .error ("parameter override for " ++ m.slug ++ " references unknown parameter: " ++ o.1)
  | none => .ok ()

def parameterSchemaIsCurrent (schema : ParameterSchema) : Bool :=
  schema.schemaVersion = Parameters.schemaVersion

section Requests

variable (numberText : Number → String) (schemaHash : ParameterSchema → String)
  (sourceHash : String) (raw : Value)

def putRaw (key : String) (v : Value) (w : World) : World :=
  { w with raws := fun k => if k = key then some v else w.raws k }

def putSchema (schema : ParameterSchema) (w : World) : World :=
  { w with schemas := fun k =>
      if k = parameterNormalizedKey sourceHash (schemaHash schema) then some schema
      else w.schemas k }

def upsertParameterMetadata (m : Model) (rawKey : String) (schema : ParameterSchema) (w : World) :
    World :=
  { w with
    metadata := some ⟨rawKey, parameterNormalizedKey sourceHash (schemaHash schema),
      schemaHash schema, Parameters.schemaVersion⟩
    writer := some m }

/-- The writes of a request, of which the first ones are made, and the schema if all are. -/
def commit (stop : Nat) (writes : List (World → World)) (m : Model) (schema : ParameterSchema)
    (w : World) : World × Except String (Option ParameterSchema) :=
  ((writes.take stop).foldl (fun w write => write w) w,
    if writes.length ≤ stop then .ok (some schema) else .error ("failed for " ++ m.slug))

def refreshParameters (m : Model) (stop : Nat) (w : World) :
    World × Except String (Option ParameterSchema) :=
  let schema := normalizeConfiguration numberText m.onshape raw
  match validateParameterOverrides m schema with
  | .error e => (w, .error e)
  | .ok () =>
    let schema := applyOverrides schema m.parameterOverrides
    commit stop [putRaw (parameterRawKey sourceHash) raw, putSchema schemaHash sourceHash schema,
      upsertParameterMetadata schemaHash sourceHash m (parameterRawKey sourceHash) schema]
      m schema w

/-- Without the raw object a refresh is enqueued. -/
def rebuildNormalizedParametersFromRaw (m : Model) (rawKey : String) (stop : Nat) (w : World) :
    World × Except String (Option ParameterSchema) :=
  match w.raws rawKey with
  | none => (w, .ok none)
  | some raw =>
    let schema := normalizeConfiguration numberText m.onshape raw
    match validateParameterOverrides m schema with
    | .error e => (w, .error e)
    | .ok () =>
      let schema := applyOverrides schema m.parameterOverrides
      commit stop [putSchema schemaHash sourceHash schema,
        upsertParameterMetadata schemaHash sourceHash m rawKey schema] m schema w

def loadOrRefreshParameters (m : Model) (stop : Nat) (w : World) :
    World × Except String (Option ParameterSchema) :=
  match w.metadata with
  | none => (w, .ok none)
  | some record =>
    match w.schemas record.normalizedObjectKey with
    | none => (w, .error "object not found")
    | some schema =>
      if !parameterSchemaIsCurrent schema then
        rebuildNormalizedParametersFromRaw numberText schemaHash sourceHash m
          record.rawObjectKey stop w
      else
        match validateParameterOverrides m schema with
        | .error e => (w, .error e)
        | .ok () => (w, .ok (some (applyOverrides schema m.parameterOverrides)))

/-! ## Runs -/

/-- A request for a model as the catalog has it, and how many writes it makes at most. -/
inductive Request where
  | refresh (m : Model) (stop : Nat)
  | load (m : Model) (stop : Nat)

def Request.model : Request → Model
  | .refresh m _ => m
  | .load m _ => m

def Request.run (w : World) : Request → World × Except String (Option ParameterSchema)
  | .refresh m stop => refreshParameters numberText schemaHash sourceHash raw m stop w
  | .load m stop => loadOrRefreshParameters numberText schemaHash sourceHash m stop w

def step (w : World) (r : Request) : World :=
  let (w', result) := r.run numberText schemaHash sourceHash raw w
  match result with
  | .ok (some schema) => { w' with served := (r.model, schema) :: w'.served }
  | _ => w'

/-- Nothing is stored for the source, or a schema of an earlier version. -/
def World.start (old : Option ParameterSchema) (rawKey : String) (kept : Bool) : World where
  metadata := old.map fun schema => ⟨rawKey,
    parameterNormalizedKey sourceHash (schemaHash schema), schemaHash schema,
    schema.schemaVersion⟩
  raws k := if k = rawKey ∧ kept then some raw else none
  schemas k := old.filter fun schema => k = parameterNormalizedKey sourceHash (schemaHash schema)
  writer := none
  served := []

/-- The parameters of the raw configuration with the overrides of the model. -/
def expected (m : Model) : ParameterSchema :=
  applyOverrides (normalizeConfiguration numberText m.onshape raw) m.parameterOverrides

end Requests

/-! ## Overrides on overrides -/

def unset : ParameterOverride := ⟨none, none, false, none, none⟩

def overrideFor (overrides : List (String × ParameterOverride)) (id : String) : ParameterOverride :=
  (get? overrides id).getD unset

/-- What `earlier` sets of a parameter, `now` sets as well, or it was so anyway. -/
structure Replaces (now earlier : ParameterOverride) (p : Parameter) : Prop where
  label : now.label ≠ none ∨ earlier.label.getD p.label = p.label
  description : now.description ≠ none ∨ earlier.description.or p.description = p.description
  hidden : now.hidden = true ∨ (earlier.hidden || p.hidden) = p.hidden
  precision : now.precision ≠ none ∨ earlier.precision.or p.precision = p.precision
  widget : now.widget ≠ none ∨ earlier.widget.or p.widget = p.widget

@[simp] theorem override_id (p : Parameter) (o : ParameterOverride) : (p.override o).id = p.id :=
  rfl

theorem override_unset (p : Parameter) : p.override unset = p := by
  simp [Parameter.override, unset]

theorem applyOverrides_parameters (schema : ParameterSchema)
    (overrides : List (String × ParameterOverride)) :
    (applyOverrides schema overrides).parameters =
      schema.parameters.map fun p => p.override (overrideFor overrides p.id) := by
  rw [applyOverrides]
  refine List.map_congr_left fun p _ => ?_
  rw [overrideFor]
  cases get? overrides p.id with
  | none => exact (override_unset p).symm
  | some o => rfl

theorem getD_twice {α : Type} (now earlier : Option α) (a : α) :
    now.getD (earlier.getD a) = now.getD a ↔ now ≠ none ∨ earlier.getD a = a := by
  cases now <;> simp

theorem or_twice {α : Type} (now earlier a : Option α) :
    now.or (earlier.or a) = now.or a ↔ now ≠ none ∨ earlier.or a = a := by
  cases now <;> simp

theorem hidden_twice (now earlier a : Bool) :
    (now || (earlier || a)) = (now || a) ↔ now = true ∨ (earlier || a) = a := by
  cases now <;> simp

theorem override_twice_iff (now earlier : ParameterOverride) (p : Parameter) :
    (p.override earlier).override now = p.override now ↔ Replaces now earlier p := by
  simp only [Parameter.override, Parameter.mk.injEq, true_and, and_true, getD_twice, or_twice,
    hidden_twice]
  constructor
  · rintro ⟨hlabel, hdescription, hhidden, hprecision, hwidget⟩
    exact ⟨hlabel, hdescription, hhidden, hprecision, hwidget⟩
  · rintro ⟨hlabel, hdescription, hhidden, hprecision, hwidget⟩
    exact ⟨hlabel, hdescription, hhidden, hprecision, hwidget⟩

section Served

variable (numberText : Number → String) (schemaHash : ParameterSchema → String)
  (sourceHash : String) (raw : Value)

/-- A schema stored for `writer` shows nothing of it when it is served to `m`. -/
def Covers (m writer : Model) : Prop :=
  writer.onshape = m.onshape ∧
    ∀ p ∈ (normalizeConfiguration numberText m.onshape raw).parameters,
      Replaces (overrideFor m.parameterOverrides p.id)
        (overrideFor writer.parameterOverrides p.id) p

theorem applyOverrides_expected (m writer : Model) :
    applyOverrides (expected numberText raw writer) m.parameterOverrides =
        expected numberText raw m ↔ Covers numberText raw m writer := by
  let parameters := (normalizeConfiguration numberText m.onshape raw).parameters
  have htwice : (applyOverrides (expected numberText raw writer) m.parameterOverrides).parameters =
      parameters.map fun p => (p.override (overrideFor writer.parameterOverrides p.id)).override
        (overrideFor m.parameterOverrides p.id) := by
    rw [applyOverrides_parameters, expected, applyOverrides_parameters, List.map_map]
    rfl
  have honce : (expected numberText raw m).parameters =
      parameters.map fun p => p.override (overrideFor m.parameterOverrides p.id) := by
    rw [expected, applyOverrides_parameters]
  have hsplit (a b : ParameterSchema) (hv : a.schemaVersion = b.schemaVersion) :
      a = b ↔ a.source = b.source ∧ a.parameters = b.parameters := by
    cases a
    cases b
    simp only at hv
    simp [hv]
  have hversion : (applyOverrides (expected numberText raw writer) m.parameterOverrides).schemaVersion
      = (expected numberText raw m).schemaVersion := rfl
  rw [hsplit _ _ hversion, htwice, honce, List.map_inj_left]
  exact and_congr Iff.rfl (forall₂_congr fun p _ => override_twice_iff _ _ p)

/-! ## The invariant -/

/-- The row names a schema of an earlier version, or the one that was made for the last writer. -/
def Names (known : List ParameterSchema) (w : World) : Prop :=
  ∀ record, w.metadata = some record →
    (∀ v, w.raws record.rawObjectKey = some v → v = raw) ∧
    ∃ schema ∈ known,
      record.normalizedObjectKey = parameterNormalizedKey sourceHash (schemaHash schema) ∧
      (∀ s, w.schemas record.normalizedObjectKey = some s → s = schema) ∧
      (parameterSchemaIsCurrent schema = false ∨
        ∃ m, w.writer = some m ∧ schema = expected numberText raw m)

variable {numberText schemaHash sourceHash raw} {known : List ParameterSchema} {w : World}

theorem parameterNormalizedKey_inj {a b : String}
    (h : parameterNormalizedKey sourceHash a = parameterNormalizedKey sourceHash b) : a = b := by
  exact (String.append_right_inj _).mp ((String.append_left_inj _).mp h)

theorem Names.putRaw (h : Names numberText schemaHash sourceHash raw known w) (key : String) :
    Names numberText schemaHash sourceHash raw known (putRaw key raw w) := by
  intro record hrecord
  obtain ⟨hraw, hschema⟩ := h record hrecord
  refine ⟨fun v hv => ?_, hschema⟩
  simp only [Parameters.putRaw] at hv
  split at hv
  · exact (Option.some.inj hv).symm
  · exact hraw v hv

theorem Names.putSchema (hhash : ∀ a ∈ known, ∀ b ∈ known, schemaHash a = schemaHash b → a = b)
    (h : Names numberText schemaHash sourceHash raw known w) {schema : ParameterSchema}
    (hknown : schema ∈ known) :
    Names numberText schemaHash sourceHash raw known (putSchema schemaHash sourceHash schema w) := by
  intro record hrecord
  obtain ⟨hraw, old, hold, hkey, hobject, hmade⟩ := h record hrecord
  refine ⟨hraw, old, hold, hkey, fun s hs => ?_, hmade⟩
  simp only [Parameters.putSchema] at hs
  split at hs
  · rename_i hsame
    have heq := hhash old hold schema hknown (parameterNormalizedKey_inj (hkey.symm.trans hsame))
    rw [← Option.some.inj hs, heq]
  · exact hobject s hs

theorem names_upsert {m : Model} {rawKey : String}
    (hraw : ∀ v, w.raws rawKey = some v → v = raw)
    (hknown : expected numberText raw m ∈ known)
    (hobject : ∀ s, w.schemas (parameterNormalizedKey sourceHash
      (schemaHash (expected numberText raw m))) = some s → s = expected numberText raw m) :
    Names numberText schemaHash sourceHash raw known
      (upsertParameterMetadata schemaHash sourceHash m rawKey (expected numberText raw m) w) := by
  intro record hrecord
  obtain rfl := Option.some.inj hrecord
  exact ⟨hraw, expected numberText raw m, hknown, rfl, hobject, .inr ⟨m, rfl, rfl⟩⟩

/-! ## Steps -/

theorem parameterSchemaIsCurrent_expected (m : Model) :
    parameterSchemaIsCurrent (expected numberText raw m) = true := by
  simp [parameterSchemaIsCurrent, expected, applyOverrides, normalizeConfiguration]

/-- What a request leaves, and that it returns the schema it was made for if it returns one. -/
structure Commits (numberText : Number → String) (schemaHash : ParameterSchema → String)
    (sourceHash : String) (raw : Value) (known : List ParameterSchema) (m : Model) (w : World)
    (result : World × Except String (Option ParameterSchema)) : Prop where
  names : Names numberText schemaHash sourceHash raw known result.1
  served : result.1.served = w.served
  schema : ∀ s, result.2 = .ok (some s) → s = expected numberText raw m

section Steps

variable {m : Model} (hhash : ∀ a ∈ known, ∀ b ∈ known, schemaHash a = schemaHash b → a = b)
  (hknown : expected numberText raw m ∈ known)
  (h : Names numberText schemaHash sourceHash raw known w)

include hhash hknown h

theorem commit_commits (writes : List (World → World)) {rawKey : String} (stop : Nat)
    (hputs : ∀ write ∈ writes, ∀ w', Names numberText schemaHash sourceHash raw known w' →
      Names numberText schemaHash sourceHash raw known (write w') ∧ (write w').served = w'.served)
    (hraw : ∀ v, (writes.foldl (fun w write => write w) w).raws rawKey = some v → v = raw) :
    Commits numberText schemaHash sourceHash raw known m w
      (commit stop (writes ++ [putSchema schemaHash sourceHash (expected numberText raw m),
        upsertParameterMetadata schemaHash sourceHash m rawKey (expected numberText raw m)]) m
        (expected numberText raw m) w) := by
  have hmade : ∀ l : List (World → World), (∀ write ∈ l, write ∈ writes) →
      Names numberText schemaHash sourceHash raw known (l.foldl (fun w write => write w) w) ∧
        (l.foldl (fun w write => write w) w).served = w.served := by
    intro l
    induction l using List.reverseRecOn with
    | nil => exact fun _ => ⟨h, rfl⟩
    | append_singleton l write ih =>
      intro hl
      obtain ⟨hnames, hserved⟩ := ih fun x hx => hl x (List.mem_append_left _ hx)
      obtain ⟨hnames', hserved'⟩ := hputs write
        (hl write (List.mem_append_right _ (List.mem_singleton_self _))) _ hnames
      rw [List.foldl_append]
      exact ⟨hnames', hserved'.trans hserved⟩
  refine ⟨?_, ?_, fun s hs => ?_⟩
  · rw [commit, List.take_append, List.foldl_append]
    have hfirst := (hmade (writes.take stop) fun _ hx => List.mem_of_mem_take hx).1
    match hrest : stop - writes.length with
    | 0 => exact hfirst
    | 1 => exact hfirst.putSchema hhash hknown
    | rest + 2 =>
      rw [List.take_of_length_le (show writes.length ≤ stop by omega)] at hfirst ⊢
      simp only [List.take_succ_cons, List.take_nil, List.foldl_cons, List.foldl_nil]
      refine names_upsert (fun v hv => hraw v hv) hknown fun s hs => ?_
      simpa [putSchema, eq_comm] using hs
  · rw [commit, List.take_append, List.foldl_append]
    have hfirst := (hmade (writes.take stop) fun _ hx => List.mem_of_mem_take hx).2
    match stop - writes.length with
    | 0 => exact hfirst
    | 1 => exact hfirst
    | rest + 2 => simpa [putSchema, upsertParameterMetadata] using hfirst
  · rw [commit] at hs
    split at hs
    · exact (Option.some.inj (Except.ok.inj hs)).symm
    · cases hs

theorem refreshParameters_commits (stop : Nat) :
    Commits numberText schemaHash sourceHash raw known m w
      (refreshParameters numberText schemaHash sourceHash raw m stop w) := by
  rw [refreshParameters]
  cases validateParameterOverrides m (normalizeConfiguration numberText m.onshape raw) with
  | error e => exact ⟨h, rfl, fun s hs => by cases hs⟩
  | ok =>
    refine commit_commits hhash hknown h [putRaw (parameterRawKey sourceHash) raw] stop ?_ ?_
    · intro write hwrite w' hw'
      rw [List.mem_singleton.mp hwrite]
      exact ⟨hw'.putRaw _, rfl⟩
    · intro v hv
      simpa [putRaw, eq_comm] using hv

theorem rebuild_commits {rawKey : String} (hraw : ∀ v, w.raws rawKey = some v → v = raw)
    (stop : Nat) :
    Commits numberText schemaHash sourceHash raw known m w
      (rebuildNormalizedParametersFromRaw numberText schemaHash sourceHash m rawKey stop w) := by
  rw [rebuildNormalizedParametersFromRaw]
  cases hv : w.raws rawKey with
  | none => exact ⟨h, rfl, fun s hs => by cases hs⟩
  | some v =>
    obtain rfl := hraw v hv
    simp only
    cases validateParameterOverrides m (normalizeConfiguration numberText m.onshape v) with
    | error e => exact ⟨h, rfl, fun s hs => by cases hs⟩
    | ok => exact commit_commits hhash hknown h [] stop (fun _ hx => by cases hx) hraw

theorem loadOrRefreshParameters_commits (hcovers : ∀ writer, w.writer = some writer →
    Covers numberText raw m writer) (stop : Nat) :
    Commits numberText schemaHash sourceHash raw known m w
      (loadOrRefreshParameters numberText schemaHash sourceHash m stop w) := by
  rw [loadOrRefreshParameters]
  cases hrecord : w.metadata with
  | none => exact ⟨h, rfl, fun s hs => by cases hs⟩
  | some record =>
    obtain ⟨hraw, stored, -, -, hobject, hmade⟩ := h record hrecord
    simp only
    cases hschema : w.schemas record.normalizedObjectKey with
    | none => exact ⟨h, rfl, fun s hs => by cases hs⟩
    | some schema =>
      obtain rfl := hobject schema hschema
      cases hcurrent : parameterSchemaIsCurrent schema with
      | false =>
        simp only [hcurrent, Bool.not_false, if_true]
        exact rebuild_commits hhash hknown h hraw stop
      | true =>
        obtain ⟨writer, hwriter, rfl⟩ := hmade.resolve_left (by simp [hcurrent])
        simp only [hcurrent, Bool.not_true, Bool.false_eq_true, if_false]
        cases validateParameterOverrides m (expected numberText raw writer) with
        | error e => exact ⟨h, rfl, fun s hs => by cases hs⟩
        | ok =>
          refine ⟨h, rfl, fun s hs => ?_⟩
          rw [← Option.some.inj (Except.ok.inj hs)]
          exact (applyOverrides_expected numberText raw m writer).mpr (hcovers writer hwriter)

end Steps

/-- What is served from a stored schema is as expected exactly when nothing of its writer shows. -/
theorem load_expected_iff {m writer : Model} {record : ParameterMetadata} (stop : Nat)
    (hrecord : w.metadata = some record)
    (hschema : w.schemas record.normalizedObjectKey = some (expected numberText raw writer))
    (hvalid : validateParameterOverrides m (expected numberText raw writer) = .ok ()) :
    (loadOrRefreshParameters numberText schemaHash sourceHash m stop w).2 =
        .ok (some (expected numberText raw m)) ↔ Covers numberText raw m writer := by
  rw [loadOrRefreshParameters, hrecord]
  simp only [hschema, parameterSchemaIsCurrent_expected, Bool.not_true, Bool.false_eq_true,
    if_false, hvalid]
  rw [← applyOverrides_expected]
  constructor
  · exact fun h => Option.some.inj (Except.ok.inj h)
  · exact fun h => by rw [h]

end Served

/-! ## Runs -/

section Run

variable (numberText : Number → String) (schemaHash : ParameterSchema → String)
  (sourceHash : String) (raw : Value)

/-- A schema is only loaded for a model that covers the one it was made for. -/
def Covered (w : World) : Request → Prop
  | .refresh _ _ => True
  | .load m _ => ∀ writer, w.writer = some writer → Covers numberText raw m writer

variable {numberText schemaHash sourceHash raw} {known : List ParameterSchema} {w : World}

theorem run_commits {r : Request}
    (hhash : ∀ a ∈ known, ∀ b ∈ known, schemaHash a = schemaHash b → a = b)
    (hknown : expected numberText raw r.model ∈ known)
    (h : Names numberText schemaHash sourceHash raw known w)
    (hcovered : Covered numberText raw w r) :
    Commits numberText schemaHash sourceHash raw known r.model w
      (r.run numberText schemaHash sourceHash raw w) := by
  cases r with
  | refresh m stop => exact refreshParameters_commits hhash hknown h stop
  | load m stop => exact loadOrRefreshParameters_commits hhash hknown h hcovered stop

theorem step_expected {r : Request}
    (hhash : ∀ a ∈ known, ∀ b ∈ known, schemaHash a = schemaHash b → a = b)
    (hknown : expected numberText raw r.model ∈ known)
    (hcovered : Covered numberText raw w r)
    (h : Names numberText schemaHash sourceHash raw known w ∧
      ∀ x ∈ w.served, x.2 = expected numberText raw x.1) :
    Names numberText schemaHash sourceHash raw known
        (step numberText schemaHash sourceHash raw w r) ∧
      ∀ x ∈ (step numberText schemaHash sourceHash raw w r).served,
        x.2 = expected numberText raw x.1 := by
  obtain ⟨hnames, hserved⟩ := h
  have hrun := run_commits hhash hknown hnames hcovered
  rw [step]
  generalize r.run numberText schemaHash sourceHash raw w = outcome at hrun
  obtain ⟨w', result⟩ := outcome
  simp only
  split
  · rename_i schema
    refine ⟨hrun.names, fun x hx => ?_⟩
    rcases List.mem_cons.mp hx with rfl | hx
    · exact hrun.schema schema rfl
    · exact hserved x (hrun.served ▸ hx)
  · exact ⟨hrun.names, fun x hx => hserved x (hrun.served ▸ hx)⟩

theorem names_start {old : Option ParameterSchema} {rawKey : String} {kept : Bool}
    (hold : ∀ s ∈ old, s.schemaVersion ≠ Parameters.schemaVersion)
    (hknown : ∀ s ∈ old, s ∈ known) :
    Names numberText schemaHash sourceHash raw known
      (World.start schemaHash sourceHash raw old rawKey kept) := by
  intro record hrecord
  obtain ⟨schema, hschema, rfl⟩ := Option.map_eq_some_iff.mp hrecord
  refine ⟨fun v hv => ?_, schema, hknown schema hschema, rfl, fun s hs => ?_, .inl ?_⟩
  · simp only [World.start] at hv
    split at hv
    · exact (Option.some.inj hv).symm
    · cases hv
  · simp only [World.start, hschema, Option.filter_some] at hs
    split at hs
    · exact (Option.some.inj hs).symm
    · cases hs
  · exact decide_eq_false (hold schema hschema)

/-- In every run that loads schemas for models that cover the last writer only, every schema that
is served is the raw configuration with the overrides of its model. -/
theorem served_expected {old : Option ParameterSchema} {rawKey : String} {kept : Bool}
    {requests : List Request}
    (hold : ∀ s ∈ old, s.schemaVersion ≠ Parameters.schemaVersion)
    (hhash : ∀ a ∈ old.toList ++ requests.map (fun r => expected numberText raw r.model),
      ∀ b ∈ old.toList ++ requests.map (fun r => expected numberText raw r.model),
        schemaHash a = schemaHash b → a = b)
    (hcovered : Trace.Along (step numberText schemaHash sourceHash raw) (Covered numberText raw)
      (World.start schemaHash sourceHash raw old rawKey kept) requests) :
    Trace.Always (step numberText schemaHash sourceHash raw)
      (fun w => ∀ x ∈ w.served, x.2 = expected numberText raw x.1)
      (World.start schemaHash sourceHash raw old rawKey kept) requests := by
  let known := old.toList ++ requests.map fun r => expected numberText raw r.model
  have hstart : Names numberText schemaHash sourceHash raw known
      (World.start schemaHash sourceHash raw old rawKey kept) :=
    names_start hold fun s hs => List.mem_append_left _ (Option.mem_toList.mpr hs)
  have halong : Trace.Along (step numberText schemaHash sourceHash raw)
      (fun w r => Covered numberText raw w r ∧ expected numberText raw r.model ∈ known)
      (World.start schemaHash sourceHash raw old rawKey kept) requests := by
    rw [Trace.along_iff] at hcovered ⊢
    rintro pre r post he
    refine ⟨hcovered pre r post he, List.mem_append_right _ (List.mem_map.mpr ⟨r, ?_, rfl⟩)⟩
    rw [he]
    exact List.mem_append_right _ List.mem_cons_self
  have hkept := Trace.always_of_step
    (I := fun w => Names numberText schemaHash sourceHash raw known w ∧
      ∀ x ∈ w.served, x.2 = expected numberText raw x.1)
    ⟨hstart, fun x hx => absurd hx List.not_mem_nil⟩
    (fun w r hw hr => step_expected hhash hr.2 hr.1 hw) halong
  exact hkept.imp fun w hw => hw.2

end Run

/-! ## An override that is taken back -/

/-- A configuration of one parameter. -/
def sizeConfiguration : Value :=
  .object [("configurationParameters", .array [.object [
    ("message", .object [("defaultValue", .string "3"), ("parameterId", .string "size"),
      ("parameterName", .string "Size")]),
    ("typeName", .string "BTMConfigurationParameterString")]])]

def boxModel (parameterOverrides : List (String × ParameterOverride)) : Model where
  catalogSchemaVersion := 1
  entryVersion := 1
  slug := "box"
  name := "Box"
  description := "A box"
  published := true
  tags := []
  thumbnail := none
  onshape := ⟨"d", "v", "e", .partStudio, none⟩
  exports := ⟨[.step], .coarse, ⟨.ap242, .coarse, .binary, .coarse⟩, none⟩
  parameterPolicy := ⟨false, true⟩
  parameterPresets := []
  parameterOverrides := parameterOverrides

/-- A stand-in for the hash: the labels. -/
def labelsOf (schema : ParameterSchema) : String :=
  String.join (schema.parameters.map fun p => p.label)

def relabelled : List (String × ParameterOverride) :=
  [("size", ⟨some "Width", none, false, none, none⟩)]

/-- The model without its override is still served the label that the override set. -/
theorem relabelled_served :
    ¬ ∀ (old : Option ParameterSchema) (rawKey : String) (kept : Bool) (requests : List Request),
      (∀ s ∈ old, s.schemaVersion ≠ Parameters.schemaVersion) →
      Trace.Always (step (fun _ => "0") labelsOf "source" sizeConfiguration)
        (fun w => ∀ x ∈ w.served, x.2 = expected (fun _ => "0") sizeConfiguration x.1)
        (World.start labelsOf "source" sizeConfiguration old rawKey kept) requests := by
  intro h
  have hall := (h none "" false [.refresh (boxModel relabelled) 3, .load (boxModel []) 0]
    (fun s hs => by cases hs)).last
  have hserved := hall (boxModel [], applyOverrides
    (expected (fun _ => "0") sizeConfiguration (boxModel relabelled)) []) List.mem_cons_self
  have hlabels := congrArg labelsOf hserved
  exact absurd hlabels (by decide)

theorem served_expected_box :
    Trace.Always (step (fun _ => "0") labelsOf "source" sizeConfiguration)
      (fun w => ∀ x ∈ w.served, x.2 = expected (fun _ => "0") sizeConfiguration x.1)
      (World.start labelsOf "source" sizeConfiguration none "" false)
      [.refresh (boxModel []) 3, .load (boxModel relabelled) 0] := by
  have hne : labelsOf (expected (fun _ => "0") sizeConfiguration (boxModel [])) ≠
      labelsOf (expected (fun _ => "0") sizeConfiguration (boxModel relabelled)) := by decide
  refine served_expected (fun s hs => by cases hs) ?_ ⟨trivial, ?_, trivial⟩
  · intro a ha b hb hlabels
    rcases List.mem_pair.mp ha with rfl | rfl <;> rcases List.mem_pair.mp hb with rfl | rfl
    · rfl
    · exact absurd hlabels hne
    · exact absurd hlabels.symm hne
    · rfl
  · intro writer hwriter
    obtain rfl : boxModel [] = writer := Option.some.inj hwriter
    refine ⟨rfl, fun p _ => ?_⟩
    have hunset : overrideFor (boxModel []).parameterOverrides p.id = unset := rfl
    rw [hunset]
    exact ⟨.inr rfl, .inr rfl, .inr rfl, .inr rfl, .inr rfl⟩

end Parameters
end OnshapeExport
