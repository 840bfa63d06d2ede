import OnshapeExport.AssemblyPhases

/-!
# AssemblyProjections

What the projections of an assembly answer read: exactly the rows that `AssemblyPhases` names.

* `Malforms` — a projection that fails in one way only; the `_iff` lemmas say what each one reads.
* `relationIds_iff` — the relations that are read are those of the answer.
* `indexRows_ok`, `indexRows_error` — a list is indexed when its rows have keys of their own.
-/

namespace OnshapeExport
namespace Selection

open Annotation Checks Json OnshapeApi Phases

/-! ## Projections -/

/-- Every failure is the one without a position. -/
def Malforms {α : Type} (x : Except ApiFailure α) : Prop := ∀ e, x = .error e → e = malformed

section Projections

variable {α β : Type} {obj : Members} {key : String} {v : Value}

theorem Malforms.ok (a : α) : Malforms (.ok a) := fun _ h => by cases h

theorem Malforms.error : Malforms (.error malformed : Except ApiFailure α) :=
  fun _ h => (Except.error.inj h).symm

theorem Malforms.bind {x : Except ApiFailure α} {f : α → Except ApiFailure β} (hx : Malforms x)
    (hf : ∀ a, Malforms (f a)) : Malforms (x >>= f) := by
  cases x with
  | ok a => exact hf a
  | error e =>
    rintro e' he
    exact hx e' (congrArg Except.error (Except.error.inj he))

theorem malforms_ensure (p : Prop) [Decidable p] : Malforms (ensure p malformed) := by
  unfold ensure
  split
  · exact .ok ()
  · exact .error

theorem malforms_traverse {f : Nat → α → Except ApiFailure β} (hf : ∀ n a, Malforms (f n a))
    (n : Nat) (l : List α) : Malforms (traverse f n l) := by
  induction l generalizing n with
  | nil => exact .ok []
  | cons a l ih => exact (hf n a).bind fun b => (ih (n + 1)).bind fun bs => .ok _

theorem malforms_object (v : Value) : Malforms (object v) := by
  cases v <;> first | exact .ok _ | exact .error

theorem malforms_items (v : Value) : Malforms (items v) := by
  cases v <;> first | exact .ok _ | exact .error

theorem malforms_text (v : Value) : Malforms (text v) := by
  cases v <;> first | exact .ok _ | exact .error

theorem malforms_member (obj : Members) (key : String) : Malforms (member obj key) := by
  unfold member
  split
  · exact .ok _
  · exact .error

theorem malforms_array (obj : Members) (key : String) : Malforms (array obj key) :=
  (malforms_member obj key).bind malforms_items

theorem malforms_string (obj : Members) (key : String) : Malforms (string obj key) :=
  (malforms_member obj key).bind malforms_text

theorem malforms_sourceString (obj : Members) (key : String) : Malforms (sourceString obj key) :=
  (malforms_string obj key).bind fun _ => (malforms_ensure _).bind fun _ => .ok _

theorem malforms_boolean (obj : Members) (key : String) : Malforms (boolean obj key) := by
  refine (malforms_member obj key).bind fun v => ?_
  cases v <;> first | exact .ok _ | exact .error

theorem object_iff {members : Members} : object v = .ok members ↔ v = .object members := by
  cases v <;> simp [object]

theorem items_iff {values : List Value} : items v = .ok values ↔ v = .array values := by
  cases v <;> simp [items]

theorem text_iff {s : String} : text v = .ok s ↔ v = .string s := by
  cases v <;> simp [text]

theorem member_iff : member obj key = .ok v ↔ get? obj key = some v := by
  unfold member
  cases get? obj key <;> simp

theorem array_iff {values : List Value} : array obj key = .ok values ↔ HasItems obj key values := by
  rw [array, bind_ok, HasItems]
  simp only [member_iff, items_iff]
  exact ⟨fun ⟨_, h, hv⟩ => hv ▸ h, fun h => ⟨_, h, rfl⟩⟩

theorem string_iff {s : String} : string obj key = .ok s ↔ get? obj key = some (.string s) := by
  rw [string, bind_ok]
  simp only [member_iff, text_iff]
  exact ⟨fun ⟨_, h, hv⟩ => hv ▸ h, fun h => ⟨_, h, rfl⟩⟩

theorem sourceString_iff {s : String} : sourceString obj key = .ok s ↔ HasText obj key s := by
  rw [sourceString, bind_ok]
  simp only [string_iff, bounded, seq_ok, ensure_ok]
  constructor
  · rintro ⟨_, h, hb, he⟩
    obtain rfl := Except.ok.inj he
    exact ⟨h, hb⟩
  · rintro ⟨h, hb⟩
    exact ⟨s, h, hb, rfl⟩

theorem boolean_iff {b : Bool} : boolean obj key = .ok b ↔ get? obj key = some (.bool b) := by
  rw [boolean, bind_ok]
  simp only [member_iff]
  constructor
  · rintro ⟨v, h, hv⟩
    cases v <;> first | (obtain rfl := Except.ok.inj hv; exact h) | cases hv
  · exact fun h => ⟨_, h, rfl⟩

theorem boundedText_iff {s : String} :
    boundedText v = .ok s ↔ v = .string s ∧ boundedVisibleAscii s = true := by
  rw [boundedText, bind_ok]
  simp only [text_iff, bounded, seq_ok, ensure_ok]
  constructor
  · rintro ⟨_, h, hb, he⟩
    obtain rfl := Except.ok.inj he
    exact ⟨h, hb⟩
  · rintro ⟨h, hb⟩
    exact ⟨s, h, hb, rfl⟩

theorem forall₂_eq_map {f : β → α} {l : List α} {r : List β} :
    List.Forall₂ (fun a b => a = f b) l r ↔ l = r.map f := by
  induction r generalizing l with
  | nil => simp
  | cons b r ih =>
    rw [List.forall₂_cons_right_iff, List.map_cons]
    simp only [ih]
    exact ⟨fun ⟨_, _, ha, hl, he⟩ => by rw [he, ha, hl], fun h => ⟨_, _, rfl, rfl, h⟩⟩

theorem texts_iff {n : Nat} {values : List Value} {texts : List String} :
    traverse (fun _ v => text v) n values = .ok texts ↔ values = texts.map .string := by
  rw [traverse_forall₂]
  simp only [text_iff]
  exact forall₂_eq_map

theorem occurrencePath_iff {path : List String} :
    occurrencePath obj = .ok path ↔ HasPath obj path := by
  rw [occurrencePath, bind_ok]
  simp only [array_iff, seq_ok, ensure_ok, traverse_forall₂, boundedText_iff, HasPath]
  have hboth (values : List Value) : List.Forall₂ (fun (v : Value) (s : String) =>
      v = .string s ∧ boundedVisibleAscii s = true) values path ↔
        values = path.map .string ∧ ∀ s ∈ path, boundedVisibleAscii s = true := by
    induction path generalizing values with
    | nil => simp
    | cons s path ih =>
      rw [List.forall₂_cons_right_iff]
      simp only [ih, List.map_cons, List.forall_mem_cons]
      constructor
      · rintro ⟨v, l, ⟨rfl, hs⟩, ⟨rfl, hl⟩, rfl⟩
        exact ⟨rfl, hs, hl⟩
      · rintro ⟨rfl, hs, hl⟩
        exact ⟨_, _, ⟨rfl, hs⟩, ⟨rfl, hl⟩, rfl⟩
  simp only [hboth]
  constructor
  · rintro ⟨values, hv, ⟨hpos, hmax⟩, rfl, hb⟩
    rw [List.length_map] at hpos hmax
    exact ⟨hv, hpos, hmax, hb⟩
  · rintro ⟨hv, hpos, hmax, hb⟩
    exact ⟨_, hv, by simpa using ⟨hpos, hmax⟩, rfl, hb⟩

theorem malforms_occurrencePath (obj : Members) : Malforms (occurrencePath obj) :=
  (malforms_array obj "path").bind fun _ => (malforms_ensure _).bind fun _ =>
    malforms_traverse (fun _ v => (malforms_text v).bind fun _ =>
      (malforms_ensure _).bind fun _ => .ok _) _ _

theorem projectedLeaf_iff {leaf : ConfiguredLeaf} :
    projectedLeaf obj = .ok leaf ↔ HasLeaf obj leaf := by
  rw [projectedLeaf]
  simp only [bind_ok, sourceString_iff]
  constructor
  · rintro ⟨d, hd, m, hm, e, he, c, hc, p, hp, h⟩
    obtain rfl := Except.ok.inj h
    exact ⟨hd, hm, he, hc, hp⟩
  · rintro ⟨hd, hm, he, hc, hp⟩
    exact ⟨_, hd, _, hm, _, he, _, hc, _, hp, rfl⟩

theorem malforms_projectedLeaf (obj : Members) : Malforms (projectedLeaf obj) :=
  (malforms_sourceString _ _).bind fun _ => (malforms_sourceString _ _).bind fun _ =>
    (malforms_sourceString _ _).bind fun _ => (malforms_sourceString _ _).bind fun _ =>
      (malforms_sourceString _ _).bind fun _ => .ok _

theorem scalarOf_iff {s : Scalar} : scalarOf v = .ok s ↔ ∃ n : Number, v = .number n ∧ n.scalar = s := by
  cases v <;> simp [scalarOf]

theorem projectTransform_iff {matrix : PlacementMatrix} :
    projectTransform obj = .ok matrix ↔ HasTransform obj matrix := by
  rw [projectTransform]
  simp only [bind_ok, array_iff, traverse_forall₂, scalarOf_iff]
  have hnumbers (values : List Value) (l : List Scalar) :
      List.Forall₂ (fun v s => ∃ n : Number, v = .number n ∧ n.scalar = s) values l ↔
        ∃ numbers : List Number, values = numbers.map .number ∧ l = numbers.map Number.scalar := by
    constructor
    · intro h
      induction h with
      | nil => exact ⟨[], rfl, rfl⟩
      | cons hv _ ih =>
        obtain ⟨n, rfl, rfl⟩ := hv
        obtain ⟨numbers, rfl, rfl⟩ := ih
        exact ⟨n :: numbers, rfl, rfl⟩
    · rintro ⟨numbers, rfl, rfl⟩
      induction numbers with
      | nil => exact .nil
      | cons n numbers ih => exact .cons ⟨n, rfl, rfl⟩ ih
  simp only [hnumbers]
  constructor
  · rintro ⟨values, hv, l, ⟨numbers, rfl, rfl⟩, h⟩
    split at h
    · obtain rfl := Except.ok.inj h
      exact ⟨numbers, hv, rfl⟩
    · cases h
  · rintro ⟨numbers, hv, hm⟩
    refine ⟨_, hv, _, ⟨numbers, rfl, rfl⟩, ?_⟩
    have hlength : (numbers.map Number.scalar).length = 16 := hm ▸ matrix.2
    rw [dif_pos hlength]
    exact congrArg Except.ok (Subtype.ext hm.symm)

theorem malforms_projectTransform (obj : Members) : Malforms (projectTransform obj) := by
  refine (malforms_array obj "transform").bind fun values =>
    (malforms_traverse (fun _ v => ?_) _ _).bind fun matrix => ?_
  · cases v <;> first | exact .ok _ | exact .error
  · split
    · exact .ok _
    · exact .error

/-! ## Relations -/

/-- The instances of one child of a parametric relation. -/
theorem childIds_iff {c : List String × List String} :
    (do
      let child ← object v
      let ids ← array child "instanceIds"
      let ids ← traverse (fun _ v => text v) 0 ids
      let seed ← if (get? child "seedOccurrence").isSome then
          (sourceString child "seedOccurrence").map fun s => [s]
        else .ok []
      return (ids, seed)) = .ok c ↔ IsChild v c := by
  have hseed (child : Members) (ids : List String) :
      (do
        let seed ← if (get? child "seedOccurrence").isSome then
            (sourceString child "seedOccurrence").map fun s => [s]
          else .ok []
        return (ids, seed)) = (.ok c : Except ApiFailure (List String × List String)) ↔
        c.1 = ids ∧ (get? child "seedOccurrence" = none ∧ c.2 = [] ∨
          ∃ s, HasText child "seedOccurrence" s ∧ c.2 = [s]) := by
    cases hget : get? child "seedOccurrence" with
    | none =>
      have hnot : ¬ ∃ s, HasText child "seedOccurrence" s ∧ c.2 = [s] := by
        rintro ⟨s, hs, -⟩
        rw [HasText, hget] at hs
        cases hs.1
      simp only [Option.isSome_none, Bool.false_eq_true, if_false, true_and, hnot, or_false]
      constructor
      · intro h
        obtain rfl := Except.ok.inj h
        exact ⟨rfl, rfl⟩
      · rintro ⟨rfl, hc⟩
        exact congrArg Except.ok (Prod.ext rfl hc.symm)
    | some w =>
      simp only [Option.isSome_some, if_true, reduceCtorEq, false_and, false_or]
      cases hread : sourceString child "seedOccurrence" with
      | ok s =>
        have hs := sourceString_iff.mp hread
        constructor
        · intro h
          obtain rfl := Except.ok.inj h
          exact ⟨rfl, s, hs, rfl⟩
        · rintro ⟨rfl, s', hs', hc⟩
          have heq := hs.1.symm.trans hs'.1
          rw [← Value.string.inj (Option.some.inj heq)] at hc
          exact congrArg Except.ok (Prod.ext rfl hc.symm)
      | error e =>
        constructor
        · intro h
          cases h
        · rintro ⟨-, s, hs, -⟩
          rw [sourceString_iff.mpr hs] at hread
          cases hread
  rw [bind_ok]
  simp only [object_iff]
  constructor
  · rintro ⟨obj, rfl, h⟩
    obtain ⟨values, hv, h⟩ := bind_ok.mp h
    obtain ⟨ids, hids, h⟩ := bind_ok.mp h
    obtain ⟨rfl, hs⟩ := (hseed obj ids).mp h
    rw [array_iff, texts_iff.mp hids] at hv
    exact ⟨obj, rfl, hv, hs⟩
  · rintro ⟨obj, rfl, hv, hs⟩
    exact ⟨obj, rfl, bind_ok.mpr ⟨_, array_iff.mpr hv, bind_ok.mpr ⟨_, texts_iff.mpr rfl,
      (hseed obj c.1).mpr ⟨rfl, hs⟩⟩⟩⟩

theorem parametricIds_iff {relation : String × List String} :
    parametricIds v = .ok relation ↔ IsParametric v relation := by
  rw [parametricIds]
  simp only [↓seq_ok, bind_ok, object_iff, sourceString_iff, array_iff, traverse_forall₂, ↓childIds_iff,
    ensure_ok, IsParametric]
  constructor
  · rintro ⟨obj, rfl, id, hid, values, hv, children, hchildren, hnodup, h⟩
    obtain rfl := Except.ok.inj h
    exact ⟨obj, values, children, rfl, hid, hv, hchildren, hnodup, rfl⟩
  · rintro ⟨obj, values, children, rfl, hid, hv, hchildren, hnodup, hids⟩
    refine ⟨obj, rfl, _, hid, values, hv, children, hchildren, hnodup, ?_⟩
    rw [← hids]
    rfl

theorem patternIds_iff {relation : String × List String} :
    patternIds v = .ok relation ↔ IsPattern v relation := by
  have hentry (m : String × Value) (g : String × List String) :
      (do
        let values ← items m.2
        let ids ← traverse (fun _ v => text v) 0 values
        return (m.1, ids)) = .ok g ↔ m.1 = g.1 ∧ m.2 = .array (g.2.map .string) := by
    simp only [bind_ok, items_iff, texts_iff]
    constructor
    · rintro ⟨values, hv, ids, rfl, h⟩
      obtain rfl := Except.ok.inj h
      exact ⟨rfl, hv⟩
    · rintro ⟨hkey, hv⟩
      exact ⟨_, hv, _, rfl, by rw [hkey]; rfl⟩
  rw [patternIds]
  simp only [↓seq_ok, bind_ok, object_iff, sourceString_iff, member_iff, traverse_forall₂, ↓hentry, ensure_ok,
    IsPattern]
  constructor
  · rintro ⟨obj, rfl, id, hid, seeds, hs, members, rfl, generated, hgenerated, hnodup, h⟩
    obtain rfl := Except.ok.inj h
    exact ⟨obj, members, generated, rfl, hid, hs, hgenerated, hnodup, rfl⟩
  · rintro ⟨obj, members, generated, rfl, hid, hs, hgenerated, hnodup, hids⟩
    refine ⟨obj, rfl, _, hid, _, hs, members, rfl, generated, hgenerated, hnodup, ?_⟩
    rw [← hids]
    rfl

theorem relationIds_iff {ids : List String} :
    relationIds obj = .ok ids ↔ Relates obj ids := by
  rw [relationIds]
  simp only [↓seq_ok, bind_ok, array_iff, traverse_forall₂, parametricIds_iff, patternIds_iff,
    ensure_ok, Relates]
  constructor
  · rintro ⟨rows, hrows, parametric, hparametric, hnodup, rows', hrows', patterns, hpatterns,
      hnodup', hbounded, hlength, h⟩
    obtain rfl := Except.ok.inj h
    exact ⟨rows, rows', parametric, patterns, hrows, hrows', hparametric, hnodup, hpatterns,
      hnodup', rfl, hbounded, hlength⟩
  · rintro ⟨rows, rows', parametric, patterns, hrows, hrows', hparametric, hnodup, hpatterns,
      hnodup', rfl, hbounded, hlength⟩
    exact ⟨rows, hrows, parametric, hparametric, hnodup, rows', hrows', patterns, hpatterns,
      hnodup', hbounded, hlength, rfl⟩

theorem malforms_texts (l : List Value) : Malforms (traverse (fun _ v => text v) 0 l) :=
  malforms_traverse (fun _ v => malforms_text v) 0 l

theorem malforms_parametricIds (v : Value) : Malforms (parametricIds v) := by
  refine (malforms_object v).bind fun relation => (malforms_sourceString _ _).bind fun id =>
    (malforms_array _ _).bind fun children =>
      (malforms_traverse (fun _ child => ?_) _ _).bind fun children =>
        (malforms_ensure _).bind fun _ => .ok _
  refine (malforms_object child).bind fun child => (malforms_array _ _).bind fun ids =>
    (malforms_texts ids).bind fun ids => ?_
  have hseed : Malforms ((sourceString child "seedOccurrence").map fun s => [s]) :=
    (malforms_sourceString _ _).bind fun _ => .ok _
  simp only
  split
  · exact hseed.bind fun _ => .ok _
  · exact .ok _

theorem malforms_patternIds (v : Value) : Malforms (patternIds v) :=
  (malforms_object v).bind fun relation => (malforms_sourceString _ _).bind fun id =>
    (malforms_member _ _).bind fun seeds => (malforms_object seeds).bind fun seeds =>
      (malforms_traverse (fun _ (entry : String × Value) => (malforms_items entry.2).bind fun values =>
        (malforms_texts values).bind fun _ => .ok _) _ _).bind fun generated =>
          (malforms_ensure _).bind fun _ => .ok _

theorem malforms_relationIds (obj : Members) : Malforms (relationIds obj) :=
  (malforms_array _ _).bind fun parametric =>
    (malforms_traverse (fun _ v => malforms_parametricIds v) _ _).bind fun parametric =>
      (malforms_ensure _).bind fun _ => (malforms_array _ _).bind fun patterns =>
        (malforms_traverse (fun _ v => malforms_patternIds v) _ _).bind fun patterns =>
          (malforms_ensure _).bind fun _ => (malforms_ensure _).bind fun _ =>
            (malforms_ensure _).bind fun _ => .ok _

/-! ## Indexes -/

/-- A key that is read is a key of the row. -/
structure Keys {κ : Type} (key : Members → Except ApiFailure κ) (Key : Members → κ → Prop) :
    Prop where
  iff : ∀ obj k, key obj = .ok k ↔ Key obj k
  malforms : ∀ obj, Malforms (key obj)

theorem malforms_indexRows {κ : Type} [DecidableEq κ] {key : Members → Except ApiFailure κ}
    (hkey : ∀ obj, Malforms (key obj)) (index : List (κ × Members)) (rows : List Value) :
    Malforms (indexRows key index rows) := by
  induction rows generalizing index with
  | nil => exact .ok _
  | cons row rows ih =>
    exact (malforms_object row).bind fun obj => (hkey obj).bind fun k =>
      (malforms_ensure _).bind fun _ => ih _

theorem indexRows_iff {κ : Type} [DecidableEq κ] {key : Members → Except ApiFailure κ}
    {Key : Members → κ → Prop} (hkey : Keys key Key) {index index' : List (κ × Members)}
    {rows : List Value} :
    indexRows key index rows = .ok index' ↔
      ∃ entries, index' = index ++ entries ∧
        List.Forall₂ (fun v en => v = .object en.2 ∧ Key en.2 en.1) rows entries ∧
        (entries.map Prod.fst).Nodup ∧ ∀ en ∈ entries, en.1 ∉ index.map Prod.fst := by
  induction rows generalizing index with
  | nil =>
    simp only [indexRows, List.forall₂_nil_left_iff]
    constructor
    · rintro h
      obtain rfl := Except.ok.inj h
      exact ⟨[], by simp, rfl, List.nodup_nil, fun _ h => absurd h List.not_mem_nil⟩
    · rintro ⟨entries, rfl, rfl, -⟩
      simp
  | cons row rows ih =>
    simp only [indexRows, ↓seq_ok, bind_ok, object_iff, hkey.iff, ensure_ok, ih]
    constructor
    · rintro ⟨obj, rfl, k, hk, hnew, entries, rfl, hall, hnodup, hfresh⟩
      refine ⟨(k, obj) :: entries, by simp, .cons ⟨rfl, hk⟩ hall, ?_, ?_⟩
      · rw [List.map_cons, List.nodup_cons]
        refine ⟨fun hm => ?_, hnodup⟩
        obtain ⟨en, hen, he⟩ := List.mem_map.mp hm
        exact hfresh en hen (by rw [he]; simp)
      · intro en hen
        rcases List.mem_cons.mp hen with rfl | hen
        · exact hnew
        · intro hm
          refine hfresh en hen ?_
          rw [List.map_append]
          exact List.mem_append_left _ hm
    · rintro ⟨entries, rfl, hall, hnodup, hfresh⟩
      obtain ⟨⟨k, obj⟩, rest, ⟨rfl, hk⟩, hrest, rfl⟩ := List.forall₂_cons_left_iff.mp hall
      rw [List.map_cons, List.nodup_cons] at hnodup
      refine ⟨obj, rfl, k, hk, hfresh _ List.mem_cons_self, rest, by simp, hrest, hnodup.2,
        fun en hen hm => ?_⟩
      rw [List.map_append, List.mem_append] at hm
      rcases hm with hm | hm
      · exact hfresh en (List.mem_cons_of_mem _ hen) hm
      · obtain he : en.1 = k := by simpa using hm
        exact hnodup.1 (List.mem_map.mpr ⟨en, hen, he⟩)

theorem Keys.unique {κ : Type} {key : Members → Except ApiFailure κ} {Key : Members → κ → Prop}
    (hkey : Keys key Key) {obj : Members} {k k' : κ} (h : Key obj k) (h' : Key obj k') : k = k' :=
  Except.ok.inj (((hkey.iff obj k).mpr h).symm.trans ((hkey.iff obj k').mpr h'))

theorem entries_of_keyed {κ : Type} {Key : Members → κ → Prop} {rows : List Value}
    (h : Keyed Key rows) :
    ∃ entries : List (κ × Members),
      List.Forall₂ (fun v en => v = .object en.2 ∧ Key en.2 en.1) rows entries ∧
        (entries.map Prod.fst).Nodup := by
  induction rows with
  | nil => exact ⟨[], .nil, List.nodup_nil⟩
  | cons v rows ih =>
    obtain ⟨hfirst, hrest⟩ := List.pairwise_cons.mp h.distinct
    obtain ⟨entries, hall, hnodup⟩ := ih ⟨fun w hw => h.key w (List.mem_cons_of_mem _ hw), hrest⟩
    obtain ⟨obj, k, rfl, hk⟩ := h.key v List.mem_cons_self
    refine ⟨(k, obj) :: entries, .cons ⟨rfl, hk⟩ hall, List.nodup_cons.mpr ⟨fun hm => ?_, hnodup⟩⟩
    obtain ⟨en, hen, rfl⟩ := List.mem_map.mp hm
    obtain ⟨w, hw, rfl, hkey⟩ := exists_of_forall₂ hall.flip hen
    exact hfirst _ hw obj en.2 en.1 rfl rfl hk hkey

theorem keyed_of_entries {κ : Type} {key : Members → Except ApiFailure κ}
    {Key : Members → κ → Prop} (hkey : Keys key Key) {rows : List Value}
    {entries : List (κ × Members)}
    (h : List.Forall₂ (fun v en => v = .object en.2 ∧ Key en.2 en.1) rows entries)
    (hnodup : (entries.map Prod.fst).Nodup) : Keyed Key rows := by
  induction h with
  | nil => exact ⟨fun _ h => absurd h List.not_mem_nil, .nil⟩
  | @cons v en rows entries hv hrest ih =>
    rw [List.map_cons, List.nodup_cons] at hnodup
    obtain ⟨hk, hd⟩ := ih hnodup.2
    refine ⟨fun w hw => ?_, .cons (fun w hw obj obj' k hobj hobj' hkey₁ hkey₂ => ?_) hd⟩
    · rcases List.mem_cons.mp hw with rfl | hw
      · exact ⟨en.2, en.1, hv.1, hv.2⟩
      · exact hk w hw
    · obtain ⟨en', hen', hw', hkey'⟩ := exists_of_forall₂ hrest hw
      obtain rfl := Value.object.inj (hobj.symm.trans hv.1)
      obtain rfl := Value.object.inj (hobj'.symm.trans hw')
      have heq := (hkey.unique hkey₂ hkey').symm.trans (hkey.unique hkey₁ hv.2)
      exact hnodup.1 (List.mem_map.mpr ⟨en', hen', heq⟩)

/-- Indexing succeeds when the rows have keys of their own, and then finds the row of a key. -/
theorem indexRows_ok {κ : Type} [DecidableEq κ] {key : Members → Except ApiFailure κ}
    {Key : Members → κ → Prop} (hkey : Keys key Key) {rows : List Value}
    {index : List (κ × Members)} (h : indexRows key [] rows = .ok index) :
    Keyed Key rows ∧ ∀ k obj, lookupRow index k = some obj ↔ RowAt Key rows k obj := by
  obtain ⟨entries, he, hall, hnodup, -⟩ := (indexRows_iff hkey).mp h
  rw [List.nil_append] at he
  subst he
  refine ⟨keyed_of_entries hkey hall hnodup, fun k obj => ?_⟩
  have hlookup : lookupRow index k = some obj ↔ (k, obj) ∈ index := by
    rw [lookupRow]
    clear hall h
    induction index with
    | nil => simp
    | cons en index ih =>
      rw [List.map_cons, List.nodup_cons] at hnodup
      rw [List.find?_cons]
      by_cases he : en.1 = k
      · subst he
        simp only [decide_true, Option.map_some, Option.some.injEq, List.mem_cons]
        constructor
        · rintro rfl
          exact .inl rfl
        · rintro (h | h)
          · rw [← h]
          · exact absurd (List.mem_map.mpr ⟨_, h, rfl⟩) hnodup.1
      · have hne : (k, obj) ≠ en := fun h => he (by rw [← h])
        simp only [he, decide_false, ih hnodup.2, List.mem_cons, hne, false_or]
  rw [hlookup]
  constructor
  · intro hm
    obtain ⟨w, hw, rfl, hk⟩ := exists_of_forall₂ hall.flip hm
    exact ⟨hw, hk⟩
  · rintro ⟨hw, hk⟩
    obtain ⟨en, hen, hobj, hk'⟩ := exists_of_forall₂ hall hw
    obtain rfl := Value.object.inj hobj
    rw [hkey.unique hk hk']
    exact hen

theorem indexRows_error {κ : Type} [DecidableEq κ] {key : Members → Except ApiFailure κ}
    {Key : Members → κ → Prop} (hkey : Keys key Key) {rows : List Value} {e : ApiFailure}
    (h : indexRows key [] rows = .error e) : e = malformed ∧ ¬ Keyed Key rows := by
  refine ⟨malforms_indexRows hkey.malforms _ _ e h, fun hkeyed => ?_⟩
  obtain ⟨entries, hall, hnodup⟩ := entries_of_keyed hkeyed
  have hok : indexRows key [] rows = .ok entries :=
    (indexRows_iff hkey).mpr ⟨entries, rfl, hall, hnodup, fun _ _ hm => absurd hm List.not_mem_nil⟩
  rw [hok] at h
  cases h

end Projections

end Selection
end OnshapeExport
