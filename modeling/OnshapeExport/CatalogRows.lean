import OnshapeExport.CatalogStore
import OnshapeExport.Lib.Checks

/-!
# CatalogRows

The rows a catalog is stored as, and that the insertions come to them.

* `Content.storeModels` — the rows after the insertions; their identifiers are `Bounded` by those
  that were given.
* `insertModels_completes` — the insertions break no constraint of the tables, so only a statement
  that the database refuses stops them.
-/

namespace OnshapeExport
namespace Catalogs

open Json Relational Selection

/-- What the types of the fields say: 32 bits, and maps with one entry a key. -/
structure Model.Typed (m : Model) : Prop where
  entryVersion : m.entryVersion < 2 ^ 32
  precision : ∀ o ∈ m.parameterOverrides, ∀ p ∈ o.2.precision, p < 2 ^ 32
  overrides : (keys m.parameterOverrides).Nodup
  presets : ∀ p ∈ m.parameterPresets, (keys p.values).Nodup

/-! ## Stored rows -/

/-- What the tables hold. -/
structure Content where
  models : List ModelRow
  overrides : List OverrideRow
  presets : List PresetRow
  values : List PresetValueRow
  modelSequence : Nat
  presetSequence : Nat

def Tables.content (t : Tables) : Content :=
  ⟨t.models.rows, t.overrides.rows, t.presets.rows, t.values.rows, t.modelSequence,
    t.presetSequence⟩

/-- The rows of presets, numbered on from the largest identifier given. -/
def presetRows (modelId : Nat) : Nat → Nat → List ParameterPreset → List PresetRow
  | _, _, [] => []
  | sequence, displayOrder, p :: presets =>
    presetRow modelId (sequence + 1) displayOrder p ::
      presetRows modelId (sequence + 1) (displayOrder + 1) presets

def valueRows : Nat → List ParameterPreset → List PresetValueRow
  | _, [] => []
  | sequence, p :: presets =>
    p.values.map (presetValueRow (sequence + 1)) ++ valueRows (sequence + 1) presets

def Content.storeModel (text : JsonText) (c : Content) (displayOrder : Nat) (m : Model) :
    Content where
  models := c.models ++ [modelRow text (c.modelSequence + 1) displayOrder m]
  overrides := c.overrides ++ m.parameterOverrides.map (overrideRow (c.modelSequence + 1))
  presets := c.presets ++ presetRows (c.modelSequence + 1) c.presetSequence 0 m.parameterPresets
  values := c.values ++ valueRows c.presetSequence m.parameterPresets
  modelSequence := c.modelSequence + 1
  presetSequence := c.presetSequence + m.parameterPresets.length

def Content.storeModels (text : JsonText) (c : Content) : Nat → List Model → Content
  | _, [] => c
  | displayOrder, m :: models =>
    (c.storeModel text displayOrder m).storeModels text (displayOrder + 1) models

theorem presetRows_mem {modelId sequence displayOrder : Nat} {presets : List ParameterPreset}
    {r : PresetRow} (h : r ∈ presetRows modelId sequence displayOrder presets) :
    r.modelId = modelId ∧ sequence < r.id ∧ r.id ≤ sequence + presets.length ∧
      (displayOrder : Int) ≤ r.displayOrder := by
  induction presets generalizing sequence displayOrder with
  | nil => cases h
  | cons p presets ih =>
    rw [presetRows, List.mem_cons] at h
    rcases h with rfl | h
    · simp [presetRow]
    · obtain ⟨hm, hlt, hle, ho⟩ := ih h
      simp only [List.length_cons]
      push_cast at ho
      exact ⟨hm, by omega, by omega, by omega⟩

theorem valueRows_mem {sequence : Nat} {presets : List ParameterPreset} {r : PresetValueRow}
    (h : r ∈ valueRows sequence presets) :
    sequence < r.presetId ∧ r.presetId ≤ sequence + presets.length := by
  induction presets generalizing sequence with
  | nil => cases h
  | cons p presets ih =>
    rw [valueRows, List.mem_append, List.mem_map] at h
    rw [List.length_cons]
    rcases h with ⟨v, -, rfl⟩ | h
    · simp only [presetValueRow]
      omega
    · obtain ⟨hlt, hle⟩ := ih h
      omega

/-- The values of each preset are the rows with its identifier. -/
theorem filter_valueRows {sequence : Nat} {presets : List ParameterPreset} {j : Nat}
    {p : ParameterPreset} (h : presets[j]? = some p) :
    (valueRows sequence presets).filter (fun r => r.presetId = sequence + 1 + j) =
      p.values.map (presetValueRow (sequence + 1 + j)) := by
  induction presets generalizing sequence j with
  | nil => simp at h
  | cons q presets ih =>
    rw [valueRows, List.filter_append]
    cases j with
    | zero =>
      obtain rfl : q = p := by simpa using h
      have hown : ∀ r ∈ q.values.map (presetValueRow (sequence + 1)),
          decide (r.presetId = sequence + 1 + 0) = true := by
        intro r hr
        obtain ⟨v, -, rfl⟩ := List.mem_map.mp hr
        simp [presetValueRow]
      have hlater : ∀ r ∈ valueRows (sequence + 1) presets,
          ¬ decide (r.presetId = sequence + 1 + 0) = true := by
        intro r hr
        have hlt := (valueRows_mem hr).1
        simp only [decide_eq_true_eq]
        omega
      rw [List.filter_eq_self.mpr hown, List.filter_eq_nil_iff.mpr hlater, List.append_nil,
        Nat.add_zero]
    | succ j =>
      have hj : sequence + 1 + (j + 1) = (sequence + 1) + 1 + j := by omega
      rw [List.getElem?_cons_succ] at h
      have hearlier : ∀ r ∈ q.values.map (presetValueRow (sequence + 1)),
          ¬ decide (r.presetId = sequence + 1 + (j + 1)) = true := by
        intro r hr
        obtain ⟨v, -, rfl⟩ := List.mem_map.mp hr
        simp [presetValueRow]
      rw [List.filter_eq_nil_iff.mpr hearlier, List.nil_append, hj, ih h]

/-- No row has an identifier that was not given. -/
structure Content.Bounded (c : Content) : Prop where
  models : ∀ r ∈ c.models, r.id ≤ c.modelSequence
  overrides : ∀ r ∈ c.overrides, r.modelId ≤ c.modelSequence
  presetModels : ∀ r ∈ c.presets, r.modelId ≤ c.modelSequence
  presets : ∀ r ∈ c.presets, r.id ≤ c.presetSequence
  values : ∀ r ∈ c.values, r.presetId ≤ c.presetSequence

theorem Content.Bounded.storeModel {c : Content} (h : c.Bounded) (text : JsonText)
    (displayOrder : Nat) (m : Model) : (c.storeModel text displayOrder m).Bounded where
  models r hr := by
    rw [Content.storeModel, List.mem_append, List.mem_singleton] at hr
    rcases hr with hr | rfl
    · exact Nat.le_succ_of_le (h.models r hr)
    · exact le_rfl
  overrides r hr := by
    rw [Content.storeModel, List.mem_append, List.mem_map] at hr
    rcases hr with hr | ⟨o, -, rfl⟩
    · exact Nat.le_succ_of_le (h.overrides r hr)
    · exact le_rfl
  presetModels r hr := by
    rw [Content.storeModel, List.mem_append] at hr
    rcases hr with hr | hr
    · exact Nat.le_succ_of_le (h.presetModels r hr)
    · exact (presetRows_mem hr).1.le
  presets r hr := by
    rw [Content.storeModel, List.mem_append] at hr
    rcases hr with hr | hr
    · exact Nat.le_add_right_of_le (h.presets r hr)
    · exact (presetRows_mem hr).2.2.1
  values r hr := by
    rw [Content.storeModel, List.mem_append] at hr
    rcases hr with hr | hr
    · exact Nat.le_add_right_of_le (h.values r hr)
    · exact (valueRows_mem hr).2

/-! ## Insertions -/

section Insertions

variable {fails : Nat → Bool}

/-- Either the database refused a statement, or the run came to its end in such tables. -/
def Completes (fails : Nat → Bool) (P : Tables → Prop) : Option Tx → Prop
  | none => ∃ n, fails n = true
  | some tx => P tx.tables

theorem Completes.bind {P Q : Tables → Prop} {x : Option Tx} {f : Tx → Option Tx}
    (hx : Completes fails P x) (hf : ∀ tx, P tx.tables → Completes fails Q (f tx)) :
    Completes fails Q (x >>= f) := by
  cases x with
  | none => exact hx
  | some tx => exact hf tx hx

theorem Completes.mono {P Q : Tables → Prop} {x : Option Tx} (h : Completes fails P x)
    (hPQ : ∀ t, P t → Q t) : Completes fails Q x := by
  cases x with
  | none => exact h
  | some tx => exact hPQ tx.tables h

theorem execute_completes {P : Tables → Prop} {statement : Tables → Option Tables} {tx : Tx}
    {t : Tables} (hs : statement tx.tables = some t) (ht : P t) :
    Completes fails P (execute fails statement tx) := by
  rw [execute]
  split
  · rename_i hfails
    exact ⟨tx.statements, hfails⟩
  · rw [hs, Option.map_some]
    exact ht

theorem insert?_of_fresh {α κ : Type} [Schema α κ] [DecidableRel (Schema.clash (α := α))]
    {t : Table α} {r : α} (h : ∀ a ∈ t.rows, ¬ Schema.clash a r) :
    ∃ t', t.insert? r = some t' ∧ t'.rows = t.rows ++ [r] := by
  cases hi : t.insert? r with
  | none =>
    obtain ⟨a, ha, hclash⟩ := Table.insert?_eq_none.mp hi
    exact absurd hclash (h a ha)
  | some t' => exact ⟨t', rfl, (Table.insert?_eq_some hi).1⟩

/-- A property of the tables and of what is still to be inserted, kept by each insertion. -/
theorem executeEach_completes {α : Type} (statement : α → Tables → Option Tables)
    (I : List α → Tables → Prop)
    (step : ∀ a l t, I (a :: l) t → ∃ t', statement a t = some t' ∧ I l t')
    {l : List α} {tx : Tx} (h : I l tx.tables) :
    Completes fails (I []) (executeEach fails statement l tx) := by
  induction l generalizing tx with
  | nil => exact h
  | cons a l ih =>
    obtain ⟨t', hs, ht'⟩ := step a l tx.tables h
    rw [executeEach]
    exact (execute_completes hs ht').bind fun tx' htx' => ih htx'

theorem insertOverrides_completes {modelId : Nat} {l : List (String × ParameterOverride)}
    {tx : Tx} (hkeys : (keys l).Nodup)
    (hfresh : ∀ r ∈ tx.tables.overrides.rows, r.modelId ≠ modelId) :
    Completes fails
      (fun t => t.content = { tx.tables.content with
        overrides := tx.tables.content.overrides ++ l.map (overrideRow modelId) })
      (executeEach fails (Tables.insertOverride modelId) l tx) := by
  refine (executeEach_completes (Tables.insertOverride modelId) (fun rest t =>
      { t.content with overrides := t.content.overrides ++ rest.map (overrideRow modelId) } =
        { tx.tables.content with
          overrides := tx.tables.content.overrides ++ l.map (overrideRow modelId) } ∧
      (keys rest).Nodup ∧ ∀ r ∈ t.overrides.rows, ∀ o ∈ rest,
        (r.modelId, r.parameterId) ≠ (modelId, o.1))
    ?_ ⟨rfl, hkeys, fun r hr o _ he => hfresh r hr (Prod.mk.inj he).1⟩).mono ?_
  · rintro o rest t ⟨hcontent, hnodup, hnew⟩
    rw [keys_cons, List.nodup_cons] at hnodup
    obtain ⟨overrides, hinsert, hrows⟩ := insert?_of_fresh (t := t.overrides)
      (r := overrideRow modelId o) fun r hr => hnew r hr o List.mem_cons_self
    refine ⟨{ t with overrides := overrides },
      by rw [Tables.insertOverride, hinsert, Option.map_some], ?_, hnodup.2, ?_⟩
    · rw [← hcontent]
      simp [Tables.content, hrows]
    · intro r hr x hx
      rw [hrows, List.mem_append, List.mem_singleton] at hr
      rcases hr with hr | rfl
      · exact hnew r hr x (List.mem_cons_of_mem _ hx)
      · intro he
        exact hnodup.1 (List.mem_map.mpr ⟨x, hx, (Prod.mk.inj he).2.symm⟩)
  · rintro t ⟨hcontent, -, -⟩
    simpa [Tables.content] using hcontent

theorem insertPresetValues_completes {presetId : Nat} {l : List (String × String)} {tx : Tx}
    (hkeys : (keys l).Nodup) (hfresh : ∀ r ∈ tx.tables.values.rows, r.presetId ≠ presetId) :
    Completes fails
      (fun t => t.content = { tx.tables.content with
        values := tx.tables.content.values ++ l.map (presetValueRow presetId) })
      (executeEach fails (Tables.insertPresetValue presetId) l tx) := by
  refine (executeEach_completes (Tables.insertPresetValue presetId) (fun rest t =>
      { t.content with values := t.content.values ++ rest.map (presetValueRow presetId) } =
        { tx.tables.content with
          values := tx.tables.content.values ++ l.map (presetValueRow presetId) } ∧
      (keys rest).Nodup ∧ ∀ r ∈ t.values.rows, ∀ v ∈ rest,
        (r.presetId, r.parameterId) ≠ (presetId, v.1))
    ?_ ⟨rfl, hkeys, fun r hr v _ he => hfresh r hr (Prod.mk.inj he).1⟩).mono ?_
  · rintro v rest t ⟨hcontent, hnodup, hnew⟩
    rw [keys_cons, List.nodup_cons] at hnodup
    obtain ⟨values, hinsert, hrows⟩ := insert?_of_fresh (t := t.values)
      (r := presetValueRow presetId v) fun r hr => hnew r hr v List.mem_cons_self
    refine ⟨{ t with values := values },
      by rw [Tables.insertPresetValue, hinsert, Option.map_some], ?_, hnodup.2, ?_⟩
    · rw [← hcontent]
      simp [Tables.content, hrows]
    · intro r hr x hx
      rw [hrows, List.mem_append, List.mem_singleton] at hr
      rcases hr with hr | rfl
      · exact hnew r hr x (List.mem_cons_of_mem _ hx)
      · intro he
        exact hnodup.1 (List.mem_map.mpr ⟨x, hx, (Prod.mk.inj he).2.symm⟩)
  · rintro t ⟨hcontent, -, -⟩
    simpa [Tables.content] using hcontent

theorem insertPresets_completes {modelId displayOrder : Nat} {presets : List ParameterPreset}
    {tx : Tx} (hslugs : (presets.map ParameterPreset.slug).Nodup)
    (hkeys : ∀ p ∈ presets, (keys p.values).Nodup)
    (hids : ∀ r ∈ tx.tables.content.presets, r.id ≤ tx.tables.presetSequence)
    (hnew : ∀ r ∈ tx.tables.content.presets, r.modelId = modelId →
      ∀ p ∈ presets, r.slug ≠ p.slug)
    (hvalues : ∀ r ∈ tx.tables.content.values, r.presetId ≤ tx.tables.presetSequence) :
    Completes fails
      (fun t => t.content = { tx.tables.content with
        presets := tx.tables.content.presets ++
          presetRows modelId tx.tables.presetSequence displayOrder presets
        values := tx.tables.content.values ++ valueRows tx.tables.presetSequence presets
        presetSequence := tx.tables.presetSequence + presets.length })
      (insertPresets fails modelId displayOrder presets tx) := by
  induction presets generalizing tx displayOrder with
  | nil => simp [insertPresets, Completes, presetRows, valueRows, Tables.content]
  | cons p presets ih =>
    rw [List.map_cons, List.nodup_cons] at hslugs
    obtain ⟨rows, hinsert, hrows⟩ := insert?_of_fresh (t := tx.tables.presets)
      (r := presetRow modelId (tx.tables.presetSequence + 1) displayOrder p) fun r hr hclash => by
        rcases hclash with he | he
        · have hle := hids r hr
          simp only [presetRow] at he
          omega
        · obtain ⟨hm, hs⟩ := Prod.mk.inj he
          exact hnew r hr hm p List.mem_cons_self hs
    rw [insertPresets]
    refine (execute_completes (P := fun t => t = { tx.tables with
        presets := rows
        presetSequence := tx.tables.presetSequence + 1 })
      (by rw [Tables.insertPreset, hinsert, Option.map_some]) rfl).bind fun tx₁ htx₁ => ?_
    have hsequence : tx₁.tables.presetSequence = tx.tables.presetSequence + 1 := by rw [htx₁]
    have hvalues₁ : tx₁.tables.values.rows = tx.tables.content.values := by rw [htx₁]; rfl
    refine (insertPresetValues_completes (hkeys p List.mem_cons_self) fun r hr => ?_).bind
      fun tx₂ htx₂ => ?_
    · rw [hvalues₁] at hr
      have hle := hvalues r hr
      omega
    have hcontent : tx₂.tables.content = { tx.tables.content with
        presets := tx.tables.content.presets ++
          [presetRow modelId (tx.tables.presetSequence + 1) displayOrder p]
        values := tx.tables.content.values ++
          p.values.map (presetValueRow (tx.tables.presetSequence + 1))
        presetSequence := tx.tables.presetSequence + 1 } := by
      rw [htx₂, hsequence, htx₁]
      simp [Tables.content, hrows]
    have hsequence₂ : tx₂.tables.presetSequence = tx.tables.presetSequence + 1 :=
      congrArg Content.presetSequence hcontent
    refine (ih hslugs.2 (fun q hq => hkeys q (List.mem_cons_of_mem _ hq)) ?_ ?_ ?_).mono
      fun t ht => ?_
    · intro r hr
      rw [hcontent, List.mem_append, List.mem_singleton] at hr
      rcases hr with hr | rfl
      · have hle := hids r hr
        omega
      · rw [hsequence₂]
        exact le_rfl
    · intro r hr hm q hq
      rw [hcontent, List.mem_append, List.mem_singleton] at hr
      rcases hr with hr | rfl
      · exact hnew r hr hm q (List.mem_cons_of_mem _ hq)
      · exact fun he => hslugs.1 (List.mem_map.mpr ⟨q, hq, he.symm⟩)
    · intro r hr
      rw [hcontent, List.mem_append, List.mem_map] at hr
      rcases hr with hr | ⟨v, -, rfl⟩
      · have hle := hvalues r hr
        omega
      · rw [hsequence₂]
        exact le_rfl
    · rw [ht, hsequence₂, hcontent]
      simp only [presetRows, valueRows, List.append_assoc, List.singleton_append, List.length_cons]
      rw [Nat.add_right_comm, Nat.add_assoc tx.tables.presetSequence]

theorem modelRow_checked (text : JsonText) (id displayOrder : Nat) (m : Model) :
    (modelRow text id displayOrder m).checked = true := by
  have hbool (b : Bool) : boolToI64 b ∈ [0, 1] := by cases b <;> decide
  have hkind : m.onshape.elementKind.key ∈ ["part_studio", "assembly"] := by
    cases m.onshape.elementKind <;> decide
  simp only [ModelRow.checked, modelRow, hbool, hkind, decide_true, List.mem_singleton,
    Bool.and_self]

/-- The columns of a model that tell sources apart. -/
def OnshapeSource.columns (s : OnshapeSource) : String × String × String × String × String :=
  (s.documentId, s.versionId, s.elementId, s.elementKind.key, s.linkDocumentId.getD "")

theorem insertModels_completes {text : JsonText} {displayOrder : Nat} {models : List Model}
    {tx : Tx} (htyped : ∀ m ∈ models, m.Typed)
    (hpresets : ∀ m ∈ models, (m.parameterPresets.map ParameterPreset.slug).Nodup)
    (hslugs : (models.map Model.slug).Nodup)
    (hsources : (models.map fun m => m.onshape.columns).Nodup)
    (hnew : ∀ r ∈ tx.tables.content.models, ∀ m ∈ models,
      r.slug ≠ m.slug ∧ r.sourceIdentity ≠ m.onshape.columns)
    (hbounded : tx.tables.content.Bounded) :
    Completes fails
      (fun t => t.content = tx.tables.content.storeModels text displayOrder models)
      (insertModels text fails displayOrder models tx) := by
  induction models generalizing tx displayOrder with
  | nil => rfl
  | cons m models ih =>
    have hm := htyped m List.mem_cons_self
    rw [List.map_cons, List.nodup_cons] at hslugs hsources
    obtain ⟨rows, hinsert, hinserted⟩ := insert?_of_fresh (t := tx.tables.models)
      (r := modelRow text (tx.tables.modelSequence + 1) displayOrder m) fun r hr hclash => by
        rcases hclash with he | he | he
        · have hle : r.id ≤ tx.tables.modelSequence := hbounded.models r hr
          simp only [modelRow] at he
          omega
        · exact (hnew r hr m List.mem_cons_self).1 he
        · exact (hnew r hr m List.mem_cons_self).2 he
    rw [insertModels]
    refine (execute_completes (P := fun t => t = { tx.tables with
        models := rows
        modelSequence := tx.tables.modelSequence + 1 })
      (by rw [Tables.insertModel, if_pos (modelRow_checked _ _ _ _), hinsert, Option.map_some])
      rfl).bind fun tx₁ htx₁ => ?_
    have hcontent₁ : tx₁.tables.content = { tx.tables.content with
        models := tx.tables.content.models ++
          [modelRow text (tx.tables.modelSequence + 1) displayOrder m]
        modelSequence := tx.tables.modelSequence + 1 } := by
      rw [htx₁]
      simp [Tables.content, hinserted]
    have hsequence₁ : tx₁.tables.modelSequence = tx.tables.modelSequence + 1 :=
      congrArg Content.modelSequence hcontent₁
    have hoverrides₁ : tx₁.tables.content.overrides = tx.tables.content.overrides := by
      rw [hcontent₁]
    refine (insertOverrides_completes hm.overrides fun r hr => ?_).bind fun tx₂ htx₂ => ?_
    · have hle : r.modelId ≤ tx.tables.modelSequence := hbounded.overrides r (hoverrides₁ ▸ hr)
      omega
    rw [hcontent₁, hsequence₁] at htx₂
    have hpresetRows : tx₂.tables.content.presets = tx.tables.content.presets := by rw [htx₂]
    have hpresetSequence : tx₂.tables.presetSequence = tx.tables.presetSequence :=
      congrArg Content.presetSequence htx₂
    have hvalueRows : tx₂.tables.content.values = tx.tables.content.values := by rw [htx₂]
    rw [hsequence₁]
    refine (insertPresets_completes (hpresets m List.mem_cons_self) hm.presets ?_ ?_ ?_).bind
      fun tx₃ htx₃ => ?_
    · intro r hr
      rw [hpresetRows] at hr
      rw [hpresetSequence]
      exact hbounded.presets r hr
    · intro r hr he
      rw [hpresetRows] at hr
      have hle : r.modelId ≤ tx.tables.modelSequence := hbounded.presetModels r hr
      omega
    · intro r hr
      rw [hvalueRows] at hr
      rw [hpresetSequence]
      exact hbounded.values r hr
    rw [hpresetSequence, htx₂] at htx₃
    have hstored : tx₃.tables.content = tx.tables.content.storeModel text displayOrder m := by
      rw [htx₃]
      rfl
    refine (ih (fun x hx => htyped x (List.mem_cons_of_mem _ hx))
      (fun x hx => hpresets x (List.mem_cons_of_mem _ hx)) hslugs.2 hsources.2 ?_
      (hstored ▸ hbounded.storeModel text displayOrder m)).mono fun t ht => ?_
    · intro r hr x hx
      rw [hstored, Content.storeModel, List.mem_append, List.mem_singleton] at hr
      rcases hr with hr | rfl
      · exact hnew r hr x (List.mem_cons_of_mem _ hx)
      · exact ⟨fun he => hslugs.1 (List.mem_map.mpr ⟨x, hx, he.symm⟩),
          fun he => hsources.1 (List.mem_map.mpr ⟨x, hx, he.symm⟩)⟩
    · rw [ht, hstored]
      rfl

end Insertions

end Catalogs
end OnshapeExport
