import OnshapeExport.ParameterValues

/-!
# ValidatedValues

When submitted values are accepted, and what is kept under every name.

* `Parameter.Accepts` — a parameter is content with what is submitted.
* `validateValues_eq_ok` — the values are accepted exactly if every parameter is content and every
  name is known, or unknown ones are allowed.
* `entryOf` — what is kept under a name; `get?_values` and `get?_typedValues` read it.
-/

namespace OnshapeExport
namespace Parameters

open CacheModel Catalogs Decimals Encoding Json

/-- A typed value and the text it is kept as. -/
abbrev Entry := CanonicalParameterValue × String

/-! ## One parameter -/

structure Parameter.Accepts (p : Parameter) (submitted : SortedMap String) : Prop where
  supported : p.kind ≠ .unsupported
  present : p.valueIn submitted = none → p.required = false
  read : ∀ s, p.valueIn submitted = some s → ∃ r, readValue p s = some (.ok r)

/-- What is kept for the parameter. -/
def Parameter.entry (p : Parameter) (submitted : SortedMap String) : Option Entry :=
  (p.valueIn submitted).bind fun s =>
    match readValue p s with
    | some (.ok r) => some r
    | _ => none

theorem entry_eq_some {p : Parameter} {submitted : SortedMap String} {r : Entry} :
    p.entry submitted = some r ↔
      ∃ s, p.valueIn submitted = some s ∧ readValue p s = some (.ok r) := by
  rw [Parameter.entry, Option.bind_eq_some_iff]
  constructor
  · rintro ⟨s, hs, h⟩
    refine ⟨s, hs, ?_⟩
    split at h
    · rename_i hread
      rw [hread, Option.some.inj h]
    · cases h
  · rintro ⟨s, hs, h⟩
    exact ⟨s, hs, by rw [h]⟩

def Validation.keep (s : Validation) (key : String) : Option Entry → Validation
  | none => s
  | some r => { s with
      values := s.values.insert key r.2
      typedValues := s.typedValues.insert key r.1 }

theorem validateParameter_accepts {p : Parameter} {submitted : SortedMap String} (s : Validation)
    (h : p.Accepts submitted) :
    validateParameter submitted s p = some (s.keep p.id (p.entry submitted)) := by
  rw [validateParameter, if_neg h.supported, Parameter.entry]
  cases hv : p.valueIn submitted with
  | none => simp [h.present hv, Validation.keep]
  | some value =>
    obtain ⟨r, hr⟩ := h.read value hv
    simp [hr, Validation.keep]

theorem validateParameter_rejects {p : Parameter} {submitted : SortedMap String} (s : Validation)
    (h : ¬ p.Accepts submitted) :
    ∃ e, validateParameter submitted s p = some { s with errors := s.errors ++ [e] } := by
  rw [validateParameter]
  by_cases hk : p.kind = .unsupported
  · rw [if_pos hk]
    exact ⟨_, rfl⟩
  · rw [if_neg hk]
    cases hv : p.valueIn submitted with
    | none =>
      cases hr : p.required with
      | true => exact ⟨_, rfl⟩
      | false => exact absurd ⟨hk, fun _ => hr, fun s hs => by rw [hv] at hs; cases hs⟩ h
    | some value =>
      dsimp only
      cases hread : readValue p value with
      | none => exact absurd hread (readValue_ne_none p value)
      | some reading =>
        cases reading with
        | error e => exact ⟨e, rfl⟩
        | ok r =>
          refine absurd ⟨hk, fun hnone => ?_, fun s hs => ?_⟩ h
          · rw [hv] at hnone
            cases hnone
          · rw [hv, Option.some.injEq] at hs
            subst hs
            exact ⟨r, hread⟩

/-! ## All parameters -/

/-- What the parameters keep, one after the other. -/
def keepAll (submitted : SortedMap String) (ps : List Parameter) (s : Validation) : Validation :=
  ps.foldl (fun s p => s.keep p.id (p.entry submitted)) s

theorem validateParameters_eq (submitted : SortedMap String) (ps : List Parameter)
    (s : Validation) :
    ∃ s', ps.foldlM (validateParameter submitted) s = some s' ∧
      (s'.errors = [] ↔ s.errors = [] ∧ ∀ p ∈ ps, p.Accepts submitted) ∧
      ((∀ p ∈ ps, p.Accepts submitted) → s' = keepAll submitted ps s) := by
  induction ps generalizing s with
  | nil => exact ⟨s, rfl, by simp, fun _ => rfl⟩
  | cons p ps ih =>
    rw [List.foldlM_cons]
    by_cases h : p.Accepts submitted
    · obtain ⟨s', hs', herrors, heq⟩ := ih (s.keep p.id (p.entry submitted))
      have hkeep : (s.keep p.id (p.entry submitted)).errors = s.errors := by
        cases p.entry submitted <;> rfl
      rw [validateParameter_accepts s h]
      refine ⟨s', hs', ?_, fun hall => heq fun q hq => hall q (List.mem_cons_of_mem _ hq)⟩
      rw [herrors, hkeep, List.forall_mem_cons]
      simp [h]
    · obtain ⟨e, he⟩ := validateParameter_rejects s h
      obtain ⟨s', hs', herrors, -⟩ := ih { s with errors := s.errors ++ [e] }
      rw [he]
      refine ⟨s', hs', ?_, fun hall => absurd (hall p List.mem_cons_self) h⟩
      rw [herrors, List.forall_mem_cons]
      simp [h]

/-- What the last parameter of a name that keeps something keeps. -/
def lastEntry (submitted : SortedMap String) (key : String) : List Parameter → Option Entry
  | [] => none
  | p :: ps =>
    (lastEntry submitted key ps).or (if p.id = key then p.entry submitted else none)

/-- Under every name a state holds what was kept there, or what was there before. -/
structure Validation.Holds (s s' : Validation) (kept : String → Option Entry) : Prop where
  values : ∀ key, s'.values.get? key = ((kept key).map Prod.snd).or (s.values.get? key)
  typedValues : ∀ key, s'.typedValues.get? key =
    ((kept key).map Prod.fst).or (s.typedValues.get? key)
  errors : s'.errors = s.errors

theorem Validation.Holds.trans {s s' s'' : Validation} {kept kept' : String → Option Entry}
    (h : s.Holds s' kept) (h' : s'.Holds s'' kept') :
    s.Holds s'' fun key => (kept' key).or (kept key) where
  values key := by
    rw [h'.values, h.values]
    cases kept' key <;> rfl
  typedValues key := by
    rw [h'.typedValues, h.typedValues]
    cases kept' key <;> rfl
  errors := h'.errors.trans h.errors

theorem holds_keep (s : Validation) (key : String) (e : Option Entry) :
    s.Holds (s.keep key e) fun x => if key = x then e else none := by
  cases e with
  | none => exact ⟨fun x => by simp [Validation.keep], fun x => by simp [Validation.keep], rfl⟩
  | some r =>
    refine ⟨fun x => ?_, fun x => ?_, rfl⟩
    · rw [Validation.keep, SortedMap.get?_insert]
      split <;> rfl
    · rw [Validation.keep, SortedMap.get?_insert]
      split <;> rfl

theorem holds_keepAll (submitted : SortedMap String) (ps : List Parameter) (s : Validation) :
    s.Holds (keepAll submitted ps s) fun key => lastEntry submitted key ps := by
  induction ps generalizing s with
  | nil => exact ⟨fun _ => rfl, fun _ => rfl, rfl⟩
  | cons p ps ih => exact (holds_keep s p.id (p.entry submitted)).trans (ih _)

/-! ## Unknown names -/

/-- What is kept under a name that no parameter has. -/
def unknownEntry (known : List String) (name value : String) : Option Entry :=
  if name ∈ known ∨ value = "" then none else some (.text value, value)

theorem keepUnknown_eq (known : List String) (s : Validation) (e : String × String) :
    keepUnknown known s e = s.keep e.1 (unknownEntry known e.1 e.2) := by
  rw [keepUnknown, unknownEntry]
  split <;> rfl

theorem holds_keepUnknown (known : List String) {members : List (String × String)}
    (hnodup : (keys members).Nodup) (s : Validation) :
    s.Holds (members.foldl (keepUnknown known) s) fun key =>
      (Json.get? members key).bind (unknownEntry known key) := by
  induction members generalizing s with
  | nil => exact ⟨fun _ => rfl, fun _ => rfl, rfl⟩
  | cons e members ih =>
    obtain ⟨name, value⟩ := e
    rw [keys_cons, List.nodup_cons] at hnodup
    have hstep := holds_keep s name (unknownEntry known name value)
    have hall := hstep.trans (ih hnodup.2 _)
    have hsame : (fun key => ((Json.get? members key).bind (unknownEntry known key)).or
          (if name = key then unknownEntry known name value else none)) =
        fun key => (Json.get? ((name, value) :: members) key).bind (unknownEntry known key) := by
      funext key
      rw [get?_cons]
      by_cases hk : name = key
      · subst hk
        rw [get?_eq_none.mpr hnodup.1, if_pos rfl, if_pos rfl]
        rfl
      · rw [if_neg hk, if_neg hk, Option.or_none]
    rw [hsame] at hall
    rw [List.foldl_cons, keepUnknown_eq]
    exact hall

/-! ## All values -/

/-- What is kept under a name. -/
def entryOf (schema : ParameterSchema) (submitted : SortedMap String) (allowUnknown : Bool)
    (key : String) : Option Entry :=
  (if allowUnknown then (submitted.get? key).bind (unknownEntry schema.known key) else none).or
    (lastEntry submitted key schema.parameters)

theorem validateValues_cases (schema : ParameterSchema) (submitted : SortedMap String)
    (allowUnknown : Bool) :
    ∃ s : Validation, validateValues schema submitted allowUnknown =
        some (if s.errors = [] then .ok ⟨s.values, s.typedValues⟩ else .error s.errors) ∧
      (s.errors = [] ↔
        (allowUnknown = true ∨ ∀ name ∈ keys submitted.members, name ∈ schema.known) ∧
        ∀ p ∈ schema.parameters, p.Accepts submitted) ∧
      (s.errors = [] → ∀ key,
        s.values.get? key = (entryOf schema submitted allowUnknown key).map Prod.snd ∧
        s.typedValues.get? key =
          (entryOf schema submitted allowUnknown key).map Prod.fst) := by
  rw [validateValues]
  generalize herrors : (if allowUnknown then []
    else ((keys submitted.members).filter fun name => name ∉ schema.known).map
      fun name => "unknown parameter: " ++ name) = errors
  have hnames : errors = [] ↔
      (allowUnknown = true ∨ ∀ name ∈ keys submitted.members, name ∈ schema.known) := by
    rw [← herrors]
    cases allowUnknown <;> simp
  obtain ⟨s, hs, hparameters, hkeep⟩ :=
    validateParameters_eq submitted schema.parameters ⟨errors, .empty, .empty⟩
  simp only [hs, Option.bind_eq_bind, Option.bind_some]
  rw [hnames] at hparameters
  cases allowUnknown with
  | false =>
    refine ⟨s, rfl, hparameters, fun hnil key => ?_⟩
    have hall := hkeep (hparameters.mp hnil).2
    have hheld := holds_keepAll submitted schema.parameters ⟨errors, .empty, .empty⟩
    rw [← hall] at hheld
    rw [hheld.values, hheld.typedValues, entryOf]
    simp
  | true =>
    have hunknown := holds_keepUnknown schema.known submitted.sorted.nodup s
    refine ⟨_, rfl, ?_, fun hnil key => ?_⟩
    · rw [if_pos rfl, hunknown.errors]
      exact hparameters
    · rw [if_pos rfl] at hnil ⊢
      rw [hunknown.errors] at hnil
      have hall := hkeep (hparameters.mp hnil).2
      have hheld := holds_keepAll submitted schema.parameters ⟨errors, .empty, .empty⟩
      rw [← hall] at hheld
      have hboth := hheld.trans hunknown
      rw [hboth.values, hboth.typedValues, entryOf]
      simp only [SortedMap.get?_empty, Option.or_none, if_true]
      exact ⟨rfl, rfl⟩

theorem validateValues_ne_none (schema : ParameterSchema) (submitted : SortedMap String)
    (allowUnknown : Bool) : validateValues schema submitted allowUnknown ≠ none := by
  obtain ⟨s, hs, -, -⟩ := validateValues_cases schema submitted allowUnknown
  rw [hs]
  exact Option.some_ne_none _

/-- The values are accepted exactly if every name is known, or unknown ones are allowed, and every
parameter accepts its value. -/
theorem validateValues_eq_ok {schema : ParameterSchema} {submitted : SortedMap String}
    {allowUnknown : Bool} {v : ValidatedConfiguration} :
    validateValues schema submitted allowUnknown = some (.ok v) ↔
      (allowUnknown = true ∨ ∀ name ∈ keys submitted.members, name ∈ schema.known) ∧
      (∀ p ∈ schema.parameters, p.Accepts submitted) ∧
      ∀ key, v.values.get? key = (entryOf schema submitted allowUnknown key).map Prod.snd ∧
        v.typedValues.get? key = (entryOf schema submitted allowUnknown key).map Prod.fst := by
  obtain ⟨s, hs, herrors, hget⟩ := validateValues_cases schema submitted allowUnknown
  rw [hs, Option.some.injEq]
  constructor
  · intro h
    split at h
    · rename_i hnil
      obtain ⟨hnames, hparameters⟩ := herrors.mp hnil
      refine ⟨hnames, hparameters, ?_⟩
      rw [← Except.ok.inj h]
      exact hget hnil
    · cases h
  · rintro ⟨hnames, hparameters, hv⟩
    have hnil := herrors.mpr ⟨hnames, hparameters⟩
    rw [if_pos hnil]
    have hvalues : s.values = v.values := by
      ext key
      rw [(hget hnil key).1, (hv key).1]
    have htyped : s.typedValues = v.typedValues := by
      ext key
      rw [(hget hnil key).2, (hv key).2]
    rw [hvalues, htyped]

theorem accepted_iff {schema : ParameterSchema} {submitted : SortedMap String}
    {allowUnknown : Bool} :
    (∃ v, validateValues schema submitted allowUnknown = some (.ok v)) ↔
      (allowUnknown = true ∨ ∀ name ∈ keys submitted.members, name ∈ schema.known) ∧
        ∀ p ∈ schema.parameters, p.Accepts submitted := by
  obtain ⟨s, hs, herrors, -⟩ := validateValues_cases schema submitted allowUnknown
  rw [← herrors, hs]
  constructor
  · rintro ⟨v, hv⟩
    by_contra hne
    rw [if_neg hne] at hv
    cases hv
  · intro hnil
    rw [if_pos hnil]
    exact ⟨_, rfl⟩

end Parameters
end OnshapeExport
