import OnshapeExport.CatalogRows

/-!
# CatalogRoundTrip

A catalog that is stored is the catalog that is read.

* `Model.Same` — two models are the same when their maps have the same entries.
* `Represents` — the rows stand for models; storing one more keeps it.
* `stored_catalog` — what is read after a replacement, and after one that failed.
-/

namespace OnshapeExport
namespace Catalogs

open Json Relational Selection

/-! ## Equal models -/

/-- Presets whose maps have the same entries. -/
structure ParameterPreset.Same (p p' : ParameterPreset) : Prop where
  slug : p.slug = p'.slug
  name : p.name = p'.name
  values : p.values.Perm p'.values

/-- Models that differ in the order of the entries of their maps at most. -/
structure Model.Same (m m' : Model) : Prop where
  fields : { m with
    parameterPresets := m'.parameterPresets
    parameterOverrides := m'.parameterOverrides } = m'
  presets : List.Forall₂ ParameterPreset.Same m.parameterPresets m'.parameterPresets
  overrides : m.parameterOverrides.Perm m'.parameterOverrides

structure Catalog.Same (c c' : Catalog) : Prop where
  catalogSchemaVersion : c.catalogSchemaVersion = c'.catalogSchemaVersion
  models : List.Forall₂ Model.Same c.models c'.models

section Rows

variable {text : JsonText}

/-! ## Columns -/

theorem jsonColumn_print {α : Type} (htext : text.Faithful) (c : Codec α) {a : α} (ha : c.Fits a) :
    jsonColumn text c (text.print (c.enc a)) = some a := by
  rw [jsonColumn, htext _ (c.canonical a ha), Option.bind_some, c.dec_enc a ha]

@[simp] theorem boolColumn_boolToI64 (b : Bool) : boolColumn (boolToI64 b) = b := by
  cases b <;> simp [boolColumn, boolToI64]

theorem boolToI64_eq_one (b : Bool) : boolToI64 b = 1 ↔ b = true := by
  cases b <;> simp [boolToI64]

theorem u32Column_cast {n : Nat} (h : n < 2 ^ 32) : u32Column (n : Int) = some n := by
  have hrange : (0 : Int) ≤ n ∧ (n : Int) < 2 ^ 32 := ⟨by omega, by exact_mod_cast h⟩
  rw [u32Column, if_pos hrange, Int.toNat_natCast]

theorem nullableColumn_map {α β : Type} {decode : α → Option β} {encode : β → α} {o : Option β}
    (h : ∀ b ∈ o, decode (encode b) = some b) : nullableColumn decode (o.map encode) = some o := by
  cases o with
  | none => rfl
  | some b => rw [Option.map_some, nullableColumn, h b rfl, Option.map_some]

@[simp] theorem elementKindColumn_key (kind : ElementKind) :
    elementKindColumn kind.key = some kind := by
  cases kind <;> decide

theorem overrideOfRow_overrideRow (modelId : Nat) {o : String × ParameterOverride}
    (h : ∀ p ∈ o.2.precision, p < 2 ^ 32) : overrideOfRow (overrideRow modelId o) = some o := by
  have hprecision : nullableColumn u32Column (o.2.precision.map Int.ofNat) =
      some o.2.precision :=
    nullableColumn_map fun p hp => u32Column_cast (h p hp)
  simp [overrideOfRow, overrideRow, hprecision]

theorem selector_fits (s : SelectionSelector) : selectorCodec.Fits s := by
  cases s with
  | part partId => trivial
  | occurrence path => exact fun _ _ => trivial

theorem catalogModelFromRow_modelRow (htext : text.Faithful) {t : Tables} {id order : Nat}
    {m : Model} {overrides : List (String × ParameterOverride)}
    (hschema : m.catalogSchemaVersion < 2 ^ 32) (hentry : m.entryVersion < 2 ^ 32)
    (hoverrides : t.catalogParameterOverrides id = some overrides) :
    t.catalogModelFromRow text (modelRow text id order m) = some { m with
      parameterPresets := t.catalogParameterPresets id
      parameterOverrides := overrides } := by
  have htags : jsonColumn text tagsCodec (text.print (tagsCodec.enc m.tags)) = some m.tags :=
    jsonColumn_print htext _ fun _ _ => trivial
  have hdownloads : jsonColumn text downloadsCodec
      (text.print (downloadsCodec.enc m.exports.downloads)) = some m.exports.downloads :=
    jsonColumn_print htext _ fun _ _ => trivial
  have hpreview : jsonColumn text previewOptionsCodec
      (text.print (previewOptionsCodec.enc m.exports.previewResolution)) =
        some m.exports.previewResolution :=
    jsonColumn_print htext _ trivial
  have hoptions : jsonColumn text downloadOptionsCodec
      (text.print (downloadOptionsCodec.enc m.exports.downloadOptions)) =
        some m.exports.downloadOptions :=
    jsonColumn_print htext _ ⟨trivial, ⟨trivial, trivial⟩, trivial⟩
  have hproject (p : BambuProjectConfig) : jsonColumn text bambuProjectCodec
      (text.print (bambuProjectCodec.enc p)) = some p :=
    jsonColumn_print htext _ fun s _ => selector_fits s
  have hjson : nullableColumn (jsonColumn text bambuProjectCodec)
      (m.exports.bambuProject.map fun p => text.print (bambuProjectCodec.enc p)) =
        some m.exports.bambuProject :=
    nullableColumn_map fun p _ => hproject p
  simp [Tables.catalogModelFromRow, modelRow, hoverrides, u32Column_cast hschema,
    u32Column_cast hentry, htags, hdownloads, hpreview, hoptions, hjson]

end Rows

/-! ## What the rows stand for -/

/-- The rows that refer to a row of a model are those of the model. -/
structure Stored (text : JsonText) (c : Content) (r : ModelRow) (m : Model) : Prop where
  row : ∃ displayOrder, r = modelRow text r.id displayOrder m
  given : r.id ≤ c.modelSequence
  overrides : c.overrides.filter (fun o => o.modelId = r.id) =
    m.parameterOverrides.map (overrideRow r.id)
  presets : ∃ base, base + m.parameterPresets.length ≤ c.presetSequence ∧
    c.presets.filter (fun p => p.modelId = r.id) = presetRows r.id base 0 m.parameterPresets ∧
    ∀ j p, m.parameterPresets[j]? = some p →
      c.values.filter (fun v => v.presetId = base + 1 + j) =
        p.values.map (presetValueRow (base + 1 + j))

theorem filter_append_left {α : Type} {l l' : List α} {p : α → Bool}
    (h : ∀ a ∈ l', p a = false) : (l ++ l').filter p = l.filter p := by
  have hnone : l'.filter p = [] := List.filter_eq_nil_iff.mpr fun a ha => by simp [h a ha]
  rw [List.filter_append, hnone, List.append_nil]

theorem filter_append_right {α : Type} {l l' : List α} {p : α → Bool}
    (h : ∀ a ∈ l, p a = false) : (l ++ l').filter p = l'.filter p := by
  have hnone : l.filter p = [] := List.filter_eq_nil_iff.mpr fun a ha => by simp [h a ha]
  rw [List.filter_append, hnone, List.nil_append]

/-- Storing another model does not touch the rows of a stored one. -/
theorem Stored.storeModel {text : JsonText} {c : Content} {r : ModelRow} {m : Model}
    (h : Stored text c r m) (displayOrder : Nat) (other : Model) :
    Stored text (c.storeModel text displayOrder other) r m where
  row := h.row
  given := Nat.le_succ_of_le h.given
  overrides := by
    rw [Content.storeModel, filter_append_left, h.overrides]
    intro o ho
    obtain ⟨_, -, rfl⟩ := List.mem_map.mp ho
    have hgiven := h.given
    refine decide_eq_false ?_
    simp only [overrideRow]
    omega
  presets := by
    obtain ⟨base, hbase, hrows, hvalues⟩ := h.presets
    refine ⟨base, Nat.le_add_right_of_le hbase, ?_, fun j p hp => ?_⟩
    · rw [Content.storeModel, filter_append_left, hrows]
      intro p hp
      have hgiven := h.given
      have hown := (presetRows_mem hp).1
      refine decide_eq_false ?_
      omega
    · rw [Content.storeModel, filter_append_left, hvalues j p hp]
      intro v hv
      have hlt := (valueRows_mem hv).1
      have hj : j < m.parameterPresets.length := (List.getElem?_eq_some_iff.mp hp).1
      refine decide_eq_false ?_
      omega

theorem stored_storeModel (text : JsonText) {c : Content} (h : c.Bounded) (displayOrder : Nat)
    (m : Model) :
    Stored text (c.storeModel text displayOrder m)
      (modelRow text (c.modelSequence + 1) displayOrder m) m where
  row := ⟨displayOrder, rfl⟩
  given := le_rfl
  overrides := by
    rw [Content.storeModel, filter_append_right]
    · refine List.filter_eq_self.mpr fun o ho => ?_
      obtain ⟨_, -, rfl⟩ := List.mem_map.mp ho
      simp [overrideRow, modelRow]
    · intro o ho
      have hle := h.overrides o ho
      refine decide_eq_false ?_
      simp only [modelRow]
      omega
  presets := by
    refine ⟨c.presetSequence, le_rfl, ?_, fun j p hp => ?_⟩
    · rw [Content.storeModel, filter_append_right]
      · exact List.filter_eq_self.mpr fun p hp => decide_eq_true (presetRows_mem hp).1
      · intro p hp
        have hle := h.presetModels p hp
        refine decide_eq_false ?_
        simp only [modelRow]
        omega
    · rw [Content.storeModel, filter_append_right, filter_valueRows hp]
      intro v hv
      have hle := h.values v hv
      refine decide_eq_false ?_
      omega

/-- The rows stand for models, in their order; the next model has this position. -/
structure Represents (text : JsonText) (c : Content) (displayOrder : Nat) (models : List Model) :
    Prop where
  bounded : c.Bounded
  rows : List.Forall₂ (Stored text c) c.models models
  ordered : c.models.Pairwise fun a b => a.displayOrder < b.displayOrder
  before : ∀ r ∈ c.models, r.displayOrder < displayOrder

theorem Represents.storeModel {text : JsonText} {c : Content} {displayOrder : Nat}
    {models : List Model} (h : Represents text c displayOrder models) (m : Model) :
    Represents text (c.storeModel text displayOrder m) (displayOrder + 1) (models ++ [m]) where
  bounded := h.bounded.storeModel text displayOrder m
  rows := by
    refine List.rel_append (h.rows.imp fun r m' hr => hr.storeModel displayOrder m) ?_
    exact List.Forall₂.cons (stored_storeModel text h.bounded displayOrder m) .nil
  ordered := by
    refine List.pairwise_append.mpr ⟨h.ordered, List.pairwise_singleton _ _, fun a ha b hb => ?_⟩
    rw [List.mem_singleton.mp hb]
    exact h.before a ha
  before r hr := by
    rw [Content.storeModel, List.mem_append, List.mem_singleton] at hr
    push_cast
    rcases hr with hr | rfl
    · have hlt := h.before r hr
      omega
    · simp only [modelRow]
      omega

theorem Represents.storeModels {text : JsonText} {models : List Model} :
    ∀ {c : Content} {displayOrder : Nat} {earlier : List Model},
      Represents text c displayOrder earlier →
        Represents text (c.storeModels text displayOrder models) (displayOrder + models.length)
          (earlier ++ models) := by
  induction models with
  | nil =>
    intro c displayOrder earlier h
    simpa [Content.storeModels] using h
  | cons m models ih =>
    intro c displayOrder earlier h
    have hnext := ih (h.storeModel m)
    rw [List.append_assoc, List.singleton_append, Nat.add_right_comm] at hnext
    exact hnext

/-! ## Reading -/

section Reading

variable {text : JsonText} {t : Tables} {r : ModelRow} {m : Model}

theorem catalogParameterOverrides_stored (hm : m.Typed) (h : Stored text t.content r m) :
    ∃ overrides, t.catalogParameterOverrides r.id = some overrides ∧
      overrides.Perm m.parameterOverrides := by
  have hrows : t.overrides.rows.filter (fun o => o.modelId = r.id) =
      m.parameterOverrides.map (overrideRow r.id) := h.overrides
  let sorted := (m.parameterOverrides.map (overrideRow r.id)).mergeSort
    fun a b => a.parameterId ≤ b.parameterId
  have hperm : sorted.Perm (m.parameterOverrides.map (overrideRow r.id)) :=
    List.mergeSort_perm _ _
  let decoded := fun o => (overrideOfRow o).getD ("", ⟨none, none, false, none, none⟩)
  have hown : ∀ o ∈ m.parameterOverrides,
      overrideOfRow (overrideRow r.id o) = some (decoded (overrideRow r.id o)) ∧
        decoded (overrideRow r.id o) = o := by
    intro o ho
    have hread := overrideOfRow_overrideRow r.id (hm.precision o ho)
    simp [decoded, hread]
  refine ⟨sorted.map decoded, ?_, ?_⟩
  · rw [Tables.catalogParameterOverrides, hrows]
    refine Checks.mapM_eq_map fun o ho => ?_
    obtain ⟨o', ho', rfl⟩ := List.mem_map.mp (hperm.subset ho)
    exact (hown o' ho').1
  · have hdecoded := hperm.map decoded
    rw [List.map_map, List.map_congr_left (f := decoded ∘ overrideRow r.id) (g := id)
      fun o ho => (hown o ho).2, List.map_id] at hdecoded
    exact hdecoded

theorem presetRows_ordered {modelId sequence displayOrder : Nat} {presets : List ParameterPreset} :
    (presetRows modelId sequence displayOrder presets).Pairwise fun a b =>
      orderedBefore a.displayOrder b.displayOrder a.slug b.slug = true := by
  induction presets generalizing sequence displayOrder with
  | nil => exact .nil
  | cons p presets ih =>
    refine List.Pairwise.cons (fun b hb => ?_) ih
    have hle := (presetRows_mem hb).2.2.2
    push_cast at hle
    have hlt : (displayOrder : Int) < b.displayOrder := by omega
    simp [orderedBefore, presetRow, hlt]

theorem presets_read {values : Nat → List (String × String)} {modelId base displayOrder : Nat}
    {presets : List ParameterPreset}
    (h : ∀ j p, presets[j]? = some p → (values (base + 1 + j)).Perm p.values) :
    List.Forall₂ ParameterPreset.Same
      ((presetRows modelId base displayOrder presets).map fun r =>
        (⟨r.slug, r.name, values r.id⟩ : ParameterPreset)) presets := by
  induction presets generalizing base displayOrder with
  | nil => exact .nil
  | cons p presets ih =>
    refine .cons ⟨rfl, rfl, h 0 p rfl⟩ (ih fun j q hq => ?_)
    have hnext := h (j + 1) q (by rw [List.getElem?_cons_succ]; exact hq)
    rwa [show base + 1 + (j + 1) = base + 1 + 1 + j by omega] at hnext

theorem catalogParameterPresets_stored (h : Stored text t.content r m) :
    List.Forall₂ ParameterPreset.Same (t.catalogParameterPresets r.id) m.parameterPresets := by
  obtain ⟨base, -, hrows, hvalues⟩ := h.presets
  have hpresets : t.presets.rows.filter (fun p => p.modelId = r.id) =
      presetRows r.id base 0 m.parameterPresets := hrows
  rw [Tables.catalogParameterPresets, hpresets, List.mergeSort_of_pairwise presetRows_ordered]
  refine presets_read fun j p hp => ?_
  have hown : t.values.rows.filter (fun v => v.presetId = base + 1 + j) =
      p.values.map (presetValueRow (base + 1 + j)) := hvalues j p hp
  rw [Tables.presetValues, hown]
  have hperm := (List.mergeSort_perm (p.values.map (presetValueRow (base + 1 + j)))
    fun a b => a.parameterId ≤ b.parameterId).map fun v => (v.parameterId, v.value)
  have hsame : (p.values.map (presetValueRow (base + 1 + j))).map
      (fun v => (v.parameterId, v.value)) = p.values := by
    simp [presetValueRow, Function.comp_def]
  rwa [hsame] at hperm

theorem catalogModelFromRow_stored (htext : text.Faithful) (hm : m.Typed)
    (hschema : m.catalogSchemaVersion < 2 ^ 32) (h : Stored text t.content r m) :
    ∃ m', t.catalogModelFromRow text r = some m' ∧ m'.Same m := by
  obtain ⟨displayOrder, hrow⟩ := h.row
  obtain ⟨overrides, hoverrides, hperm⟩ := catalogParameterOverrides_stored hm h
  have hread := @catalogModelFromRow_modelRow _ htext _ _ displayOrder _ _ hschema hm.entryVersion
    hoverrides
  rw [← hrow] at hread
  exact ⟨_, hread, rfl, catalogParameterPresets_stored h, hperm⟩

/-! ## The check of what is read -/

theorem validatePresets_ok {slug : String} {presets : List ParameterPreset} :
    ∀ {seen : List String}, validatePresets slug seen presets = .ok () →
      (∀ p ∈ presets, p.slug ∉ seen) ∧ (presets.map ParameterPreset.slug).Nodup := by
  induction presets with
  | nil => simp
  | cons p presets ih =>
    intro seen h
    rw [validatePresets] at h
    obtain ⟨_, -, h⟩ := bind_ok h
    obtain ⟨_, -, h⟩ := bind_ok h
    obtain ⟨_, -, h⟩ := bind_ok h
    obtain ⟨_, -, h⟩ := bind_ok h
    obtain ⟨_, hfresh, h⟩ := bind_ok h
    obtain ⟨_, -, h⟩ := bind_ok h
    obtain ⟨hall, hnodup⟩ := ih h
    refine ⟨?_, List.nodup_cons.mpr ⟨?_, hnodup⟩⟩
    · intro q hq
      rcases List.mem_cons.mp hq with rfl | hq
      · simpa using ensure_ok hfresh
      · exact fun hm => hall q hq (List.mem_cons_of_mem _ hm)
    · intro hm
      obtain ⟨q, hq, he⟩ := List.mem_map.mp hm
      exact hall q hq (he ▸ List.mem_cons_self)

/-- The check of presets does not look at their values. -/
theorem validatePresets_same {slug : String} {presets presets' : List ParameterPreset}
    (h : List.Forall₂ ParameterPreset.Same presets' presets) (seen : List String) :
    validatePresets slug seen presets' = validatePresets slug seen presets := by
  induction h generalizing seen with
  | nil => rfl
  | cons hp _ ih => rw [validatePresets, validatePresets, hp.slug, hp.name, ih]

/-- The check of one override. -/
theorem validateOverrides_ok {slug : String} {overrides : List (String × ParameterOverride)} :
    validateOverrides slug overrides = .ok () ↔
      ∀ o ∈ overrides, validateOverrides slug [o] = .ok () := by
  have hsplit (o : String × ParameterOverride) (l) : validateOverrides slug (o :: l) = .ok () ↔
      validateOverrides slug [o] = .ok () ∧ validateOverrides slug l = .ok () := by
    obtain ⟨id, o⟩ := o
    simp only [validateOverrides, Checks.seq_ok, and_assoc, and_true]
  induction overrides with
  | nil => simp [validateOverrides]
  | cons o overrides ih =>
    rw [List.forall_mem_cons]
    exact (hsplit o overrides).trans (and_congr_right fun _ => ih)

/-- The maps of a model are checked apart from the rest of it. -/
theorem validateModel_maps {slugs : List String} {sources : List (String × String)} {m : Model} :
    validateModel slugs sources m = .ok () ↔
      validateModel slugs sources { m with parameterPresets := [], parameterOverrides := [] } =
        .ok () ∧
      validatePresets m.slug [] m.parameterPresets = .ok () ∧
      validateOverrides m.slug m.parameterOverrides = .ok () := by
  simp only [validateModel, validateSource, validateProject, Model.selectionRequest,
    validatePresets, validateOverrides, Checks.seq_ok, and_assoc, and_true]

theorem validateModel_same {slugs : List String} {sources : List (String × String)}
    {m m' : Model} (h : m'.Same m) (hm : validateModel slugs sources m = .ok ()) :
    validateModel slugs sources m' = .ok () := by
  obtain ⟨hrest, hpresets, hoverrides⟩ := validateModel_maps.mp hm
  have hslug : m'.slug = m.slug := by rw [← h.fields]
  have hfields : ({ m' with parameterPresets := [], parameterOverrides := [] } : Model) =
      { m with parameterPresets := [], parameterOverrides := [] } := by
    rw [← h.fields]
  refine validateModel_maps.mpr ⟨hfields ▸ hrest, ?_, ?_⟩
  · rw [hslug, validatePresets_same h.presets]
    exact hpresets
  · rw [hslug]
    rw [validateOverrides_ok] at hoverrides ⊢
    exact fun o ho => hoverrides o (h.overrides.subset ho)

theorem validateModels_same {models models' : List Model}
    (h : List.Forall₂ Model.Same models' models) :
    ∀ {slugs : List String} {sources : List (String × String)},
      validateModels slugs sources models = .ok () →
        validateModels slugs sources models' = .ok () := by
  induction h with
  | nil => exact fun h => h
  | @cons m' m _ _ hm _ ih =>
    intro slugs sources hmodels
    rw [validateModels, Checks.seq_ok] at hmodels ⊢
    have hslug : m'.slug = m.slug := by rw [← hm.fields]
    have hsource : m'.onshape = m.onshape := by rw [← hm.fields]
    rw [hslug, hsource]
    exact ⟨validateModel_same hm hmodels.1, ih hmodels.2⟩

theorem validateModels_mem {models : List Model} :
    ∀ {slugs : List String} {sources : List (String × String)},
      validateModels slugs sources models = .ok () →
        ∀ m ∈ models, ∃ slugs sources, validateModel slugs sources m = .ok () := by
  induction models with
  | nil => exact fun _ m hm => absurd hm List.not_mem_nil
  | cons m models ih =>
    intro slugs sources h x hx
    rw [validateModels, Checks.seq_ok] at h
    rcases List.mem_cons.mp hx with rfl | hx
    · exact ⟨slugs, sources, h.1⟩
    · exact ih h.2 x hx

/-- What the check of a model says about the model alone. -/
theorem validateModel_alone {slugs : List String} {sources : List (String × String)} {m : Model}
    (h : validateModel slugs sources m = .ok ()) :
    validateModel [] [] m = .ok () ∧ m.catalogSchemaVersion = Catalogs.catalogSchemaVersion ∧
      m.onshape.linkDocumentId ≠ some "" ∧
      (m.parameterPresets.map ParameterPreset.slug).Nodup := by
  simp only [validateModel, validateSource, Checks.seq_ok] at h ⊢
  obtain ⟨hschema, hentry, hempty, hpath, -, hname, hdescription, htags, hthumbnail, hsource,
    hdownloads, hunique, hproject, hpresets, hoverrides⟩ := h
  obtain ⟨hdocument, hversion, helement, hlink, -⟩ := hsource
  refine ⟨⟨hschema, hentry, hempty, hpath, rfl, hname, hdescription, htags, hthumbnail,
    ⟨hdocument, hversion, helement, hlink, rfl⟩, hdownloads, hunique, hproject, hpresets,
    hoverrides⟩, ?_, ?_, (validatePresets_ok hpresets).2⟩
  · simpa using ensure_ok hschema
  · simpa using ensure_ok hlink

theorem validate_alone {c : Catalog} (hc : c.validate = .ok ()) {m : Model} (hm : m ∈ c.models) :
    validateModel [] [] m = .ok () ∧ m.catalogSchemaVersion = Catalogs.catalogSchemaVersion ∧
      m.onshape.linkDocumentId ≠ some "" ∧
      (m.parameterPresets.map ParameterPreset.slug).Nodup := by
  rw [Catalog.validate, Checks.seq_ok] at hc
  obtain ⟨slugs, sources, hmodel⟩ := validateModels_mem hc.2 m hm
  exact validateModel_alone hmodel

/-- The unique index sees the sources that the check sees. -/
theorem eq_of_columns_eq {s s' : OnshapeSource} (hs : s.linkDocumentId ≠ some "")
    (hs' : s'.linkDocumentId ≠ some "") (h : s.columns = s'.columns) : s = s' := by
  obtain ⟨document, version, element, kind, link⟩ := s
  obtain ⟨document', version', element', kind', link'⟩ := s'
  simp only [OnshapeSource.columns, Prod.mk.injEq] at h
  obtain ⟨rfl, rfl, rfl, hkind, hlink⟩ := h
  obtain rfl : kind = kind' := by cases kind <;> cases kind' <;> simp_all [ElementKind.key]
  cases link <;> cases link' <;> simp_all [Option.getD]

theorem columns_nodup {c : Catalog} (hc : c.validate = .ok ()) :
    (c.models.map fun m => m.onshape.columns).Nodup := by
  have hkeys := (validate_ok hc).2.1
  rw [List.Nodup, List.pairwise_map] at hkeys ⊢
  refine hkeys.imp_of_mem fun hm hm' hne he => hne ?_
  have hsame := eq_of_columns_eq (validate_alone hc hm).2.2.1 (validate_alone hc hm').2.2.1 he
  rw [hsame]

/-! ## The round trip -/

theorem replaceTransaction_completes {fails : Nat → Bool} {c : Catalog}
    (hc : c.validate = .ok ()) (htyped : ∀ m ∈ c.models, m.Typed) (t : Tables) :
    Completes fails (fun t' => Represents text t'.content c.models.length c.models)
      (replaceTransaction text fails c t) := by
  let emptied : Tables := t.deleteAll
  have hempty : Represents text emptied.content 0 [] :=
    ⟨⟨fun _ h => absurd h List.not_mem_nil, fun _ h => absurd h List.not_mem_nil,
      fun _ h => absurd h List.not_mem_nil, fun _ h => absurd h List.not_mem_nil,
      fun _ h => absurd h List.not_mem_nil⟩, .nil, .nil, fun _ h => absurd h List.not_mem_nil⟩
  rw [replaceTransaction]
  refine Completes.bind (execute_completes (P := fun t' => t' = { t with values := .empty })
    rfl rfl) fun tx₁ h₁ => ?_
  refine (execute_completes (P := fun t' => t' = { t with values := .empty, presets := .empty })
    (by rw [h₁]) rfl).bind fun tx₂ h₂ => ?_
  refine (execute_completes (P := fun t' => t' = { t with
    values := .empty
    presets := .empty
    overrides := .empty }) (by rw [h₂]) rfl).bind fun tx₃ h₃ => ?_
  refine (execute_completes (P := fun t' => t' = emptied) (by rw [h₃]; rfl) rfl).bind
    fun tx₄ h₄ => ?_
  refine Completes.bind (insertModels_completes htyped (fun m hm => (validate_alone hc hm).2.2.2) (validate_ok hc).1
    (columns_nodup hc) (by rw [h₄]; exact fun _ h => absurd h List.not_mem_nil)
    (by rw [h₄]; exact hempty.bounded)) fun tx₅ h₅ => ?_
  refine execute_completes rfl ?_
  rw [h₅, h₄]
  simpa using @Represents.storeModels text c.models _ _ _ hempty

theorem mapM_forall₂ {α β γ : Type} {f : α → Option β} {R : β → γ → Prop} {l : List α}
    {l' : List γ} (h : List.Forall₂ (fun a c => ∃ b, f a = some b ∧ R b c) l l') :
    ∃ results, l.mapM f = some results ∧ List.Forall₂ R results l' := by
  induction h with
  | nil => exact ⟨[], rfl, .nil⟩
  | cons hac _ ih =>
    obtain ⟨b, hb, hr⟩ := hac
    obtain ⟨results, hresults, hall⟩ := ih
    exact ⟨b :: results, by simp [List.mapM_cons, hb, hresults], .cons hr hall⟩

theorem fromModels_ok {models : List Model} (h : validateModels [] [] models = .ok ()) :
    Catalog.fromModels models = .ok ⟨Catalogs.catalogSchemaVersion, models⟩ := by
  have hcheck : (⟨Catalogs.catalogSchemaVersion, models⟩ : Catalog).validate = .ok () := by
    rw [Catalog.validate, Checks.seq_ok]
    exact ⟨rfl, h⟩
  rw [Catalog.fromModels, hcheck]
  rfl

section Represented

variable {c : Catalog} {n : Nat}

theorem stored_reads (htext : text.Faithful) (hc : c.validate = .ok ())
    (htyped : ∀ m ∈ c.models, m.Typed) (hm : m ∈ c.models) (h : Stored text t.content r m) :
    ∃ m', t.catalogModelFromRow text r = some m' ∧ m'.Same m := by
  have hschema : m.catalogSchemaVersion < 2 ^ 32 := by
    rw [(validate_alone hc hm).2.1]
    decide
  exact catalogModelFromRow_stored htext (htyped m hm) hschema h

theorem catalog_represents (htext : text.Faithful) (hc : c.validate = .ok ())
    (htyped : ∀ m ∈ c.models, m.Typed) (h : Represents text t.content n c.models) :
    ∃ c', t.catalog text = .ok c' ∧ c'.Same c := by
  have hordered : t.models.rows.Pairwise fun a b =>
      orderedBefore a.displayOrder b.displayOrder a.slug b.slug = true :=
    h.ordered.imp fun hlt => by simp [orderedBefore, hlt]
  have hreads : List.Forall₂ (fun r m => ∃ m', t.catalogModelFromRow text r = some m' ∧ m'.Same m)
      t.models.rows c.models := by
    have hmem := (List.forall₂_and_left c.models t.models.rows).mpr
      ⟨fun m hm => hm, h.rows.flip⟩
    exact hmem.flip.imp fun r m hr => stored_reads htext hc htyped hr.1 hr.2
  obtain ⟨models, hmodels, hsame⟩ := mapM_forall₂ hreads
  rw [Catalog.validate, Checks.seq_ok] at hc
  refine ⟨⟨Catalogs.catalogSchemaVersion, models⟩, ?_, ?_, hsame⟩
  · rw [Tables.catalog, List.mergeSort_of_pairwise hordered, hmodels]
    exact fromModels_ok (validateModels_same hsame hc.2)
  · have hversion := ensure_ok hc.1
    simpa using (of_decide_eq_true hversion).symm

theorem published_represents (htext : text.Faithful) (hc : c.validate = .ok ())
    (htyped : ∀ m ∈ c.models, m.Typed) (h : Represents text t.content n c.models) (slug : String) :
    (∀ m ∈ c.models, m.slug = slug → m.published = true →
      ∃ m', t.publishedCatalogModel text slug = .ok (some m') ∧ m'.Same m) ∧
    ((∀ m ∈ c.models, m.slug = slug → m.published = false) →
      t.publishedCatalogModel text slug = .ok none) := by
  rw [Tables.publishedCatalogModel]
  have hcolumns {r : ModelRow} {m : Model} (hr : Stored text t.content r m) :
      r.slug = m.slug ∧ (r.published = 1 ↔ m.published = true) := by
    obtain ⟨displayOrder, hrow⟩ := hr.row
    rw [hrow]
    exact ⟨rfl, boolToI64_eq_one m.published⟩
  cases hfind : t.models.rows.find? fun r => r.slug = slug ∧ r.published = 1 with
  | none =>
    refine ⟨fun m hm hslug hpublished => ?_, fun _ => rfl⟩
    obtain ⟨r, hr, hstored⟩ := Checks.exists_of_forall₂ h.rows.flip hm
    obtain ⟨hs, hp⟩ := hcolumns hstored
    have hnot := List.find?_eq_none.mp hfind r hr
    simp [hs, hslug, hp.mpr hpublished] at hnot
  | some r =>
    have hr : r.slug = slug ∧ r.published = 1 := by simpa using List.find?_some hfind
    obtain ⟨m, hm, hstored⟩ := Checks.exists_of_forall₂ h.rows (List.mem_of_find?_eq_some hfind)
    obtain ⟨hs, hp⟩ := hcolumns hstored
    obtain ⟨m', hread, hsame⟩ := stored_reads htext hc htyped hm hstored
    constructor
    · intro x hx hslug _
      obtain rfl := eq_of_slug_eq hc hx hm (by rw [hslug, ← hs, hr.1])
      have hcheck : validateModels [] [] [m'] = .ok () := by
        rw [validateModels, Checks.seq_ok]
        exact ⟨validateModel_same hsame (validate_alone hc hx).1, rfl⟩
      refine ⟨m', ?_, hsame⟩
      simp only [hread, fromModels_ok hcheck, Except.map]
    · intro hnone
      have hfalse := hnone m hm (hs ▸ hr.1)
      rw [hp.mp hr.2] at hfalse
      cases hfalse

end Represented

end Reading

/-- A replacement either comes to its end, and the catalog is the one that is read, or leaves what
is read as it was; the constraints of the tables never stop it. -/
theorem stored_catalog {text : JsonText} (htext : text.Faithful) {c : Catalog}
    (hc : c.validate = .ok ()) (htyped : ∀ m ∈ c.models, m.Typed) (fails : Nat → Bool)
    (t : Tables) :
    ((t.replaceCatalog text fails c).2 = true →
      (∃ c', (t.replaceCatalog text fails c).1.catalog text = .ok c' ∧ c'.Same c) ∧
      ∀ slug,
        (∀ m ∈ c.models, m.slug = slug → m.published = true →
          ∃ m', (t.replaceCatalog text fails c).1.publishedCatalogModel text slug =
            .ok (some m') ∧ m'.Same m) ∧
        ((∀ m ∈ c.models, m.slug = slug → m.published = false) →
          (t.replaceCatalog text fails c).1.publishedCatalogModel text slug = .ok none)) ∧
    ((t.replaceCatalog text fails c).2 = false →
      (t.replaceCatalog text fails c).1.catalog text = t.catalog text ∧ ∃ n, fails n = true) := by
  have hrun := @replaceTransaction_completes text fails c hc htyped t
  rw [Tables.replaceCatalog, hc]
  cases hresult : replaceTransaction text fails c t with
  | none =>
    rw [hresult] at hrun
    exact ⟨fun h => (Bool.false_ne_true h).elim, fun _ => ⟨rfl, hrun⟩⟩
  | some tx =>
    rw [hresult] at hrun
    exact ⟨fun _ => ⟨catalog_represents htext hc htyped hrun,
      published_represents htext hc htyped hrun⟩, fun h => (Bool.false_ne_true h.symm).elim⟩

/-- A catalog of a model that uses every table. -/
def lampCatalog : Catalog :=
  ⟨1, [{
    catalogSchemaVersion := 1
    entryVersion := 2
    slug := "lamp"
    name := "Lamp"
    description := "A lamp"
    published := true
    tags := ["light"]
    thumbnail := some "lamp.png"
    onshape := ⟨"d", "v", "e", .partStudio, some "l"⟩
    exports := ⟨[.threeMf, .step], .fine, ⟨.ap242, .coarse, .text, .medium⟩,
      some ⟨[.part "JHD", .part "JHH"]⟩⟩
    parameterPolicy := ⟨false, true⟩
    parameterPresets := [⟨"tall", "Tall", [("size", "30 cm"), ("foot", "true")]⟩,
      ⟨"flat", "Flat", []⟩]
    parameterOverrides := [("size", ⟨some "Size", none, false, some 2, some "range"⟩),
      ("foot", ⟨none, none, true, none, none⟩)] }]⟩

theorem lampCatalog_typed : ∀ m ∈ lampCatalog.models, m.Typed := by
  intro m hm
  obtain rfl := List.mem_singleton.mp hm
  exact ⟨by decide, by decide, by decide, by decide⟩

def emptyTables : Tables := ⟨.empty, .empty, .empty, .empty, 0, 0⟩

theorem stored_catalog_lamp :
    (∃ c', (emptyTables.replaceCatalog canonicalText (fun _ => false) lampCatalog).1.catalog
      canonicalText = .ok c' ∧ c'.Same lampCatalog) ∧
    ∃ m', (emptyTables.replaceCatalog canonicalText (fun _ => false)
      lampCatalog).1.publishedCatalogModel canonicalText "lamp" = .ok (some m') := by
  have hvalid : lampCatalog.validate = .ok () := by decide +kernel
  obtain ⟨hstored, hfailed⟩ := stored_catalog canonicalText_faithful hvalid lampCatalog_typed
    (fun _ => false) emptyTables
  have hdone : (emptyTables.replaceCatalog canonicalText (fun _ => false) lampCatalog).2 = true := by
    refine Bool.eq_true_of_not_eq_false fun hno => ?_
    obtain ⟨n, hn⟩ := (hfailed hno).2
    cases hn
  obtain ⟨hcatalog, hpublished⟩ := hstored hdone
  obtain ⟨m', hm', -⟩ := (hpublished "lamp").1 _ (List.mem_singleton_self _) rfl rfl
  exact ⟨hcatalog, m', hm'⟩

end Catalogs
end OnshapeExport
