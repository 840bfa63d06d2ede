import OnshapeExport.Lib.JsonCodec

/-!
# Lib.JsonShape

The shape of a JSON value: how deep it is, how many members its objects have in all, and how wide
its arrays and objects are. A document described field by field has a shape that is read off its
description.

* `Within` — a value within a depth, a number of members and two widths.
* `FieldsWithin` — the same of the members of a record, so that fields are bounded one by one.
-/

namespace Json

mutual

def Value.depth : Value → Nat
  | .array vs => itemsDepth vs + 1
  | .object ms => membersDepth ms + 1
  | _ => 0

def itemsDepth : List Value → Nat
  | [] => 0
  | v :: vs => max v.depth (itemsDepth vs)

def membersDepth : List (String × Value) → Nat
  | [] => 0
  | (_, v) :: ms => max v.depth (membersDepth ms)

end

mutual

/-- The members of all objects in a value. -/
def Value.count : Value → Nat
  | .array vs => itemsCount vs
  | .object ms => membersCount ms
  | _ => 0

def itemsCount : List Value → Nat
  | [] => 0
  | v :: vs => v.count + itemsCount vs

def membersCount : List (String × Value) → Nat
  | [] => 0
  | (_, v) :: ms => v.count + 1 + membersCount ms

end

mutual

/-- No array and no object is wider than this, and no object has a key twice. -/
def Value.Narrow (arrays objects : Nat) : Value → Prop
  | .array vs => vs.length ≤ arrays ∧ ItemsNarrow arrays objects vs
  | .object ms => ms.length ≤ objects ∧ (keys ms).Nodup ∧ MembersNarrow arrays objects ms
  | _ => True

def ItemsNarrow (arrays objects : Nat) : List Value → Prop
  | [] => True
  | v :: vs => v.Narrow arrays objects ∧ ItemsNarrow arrays objects vs

def MembersNarrow (arrays objects : Nat) : List (String × Value) → Prop
  | [] => True
  | (_, v) :: ms => v.Narrow arrays objects ∧ MembersNarrow arrays objects ms

end

variable {arrays objects d e m n : Nat}

theorem itemsDepth_le {vs : List Value} : itemsDepth vs ≤ d ↔ ∀ v ∈ vs, v.depth ≤ d := by
  induction vs with
  | nil => simp [itemsDepth]
  | cons v vs ih => simp [itemsDepth, ih]

theorem membersDepth_le {ms : List (String × Value)} :
    membersDepth ms ≤ d ↔ ∀ x ∈ ms, x.2.depth ≤ d := by
  induction ms with
  | nil => simp [membersDepth]
  | cons x ms ih => simp [membersDepth, ih]

theorem membersCount_eq (ms : List (String × Value)) :
    membersCount ms = (ms.map fun x => x.2.count + 1).sum := by
  induction ms with
  | nil => rfl
  | cons x ms ih => simp [membersCount, ih]

theorem itemsNarrow_iff {vs : List Value} :
    ItemsNarrow arrays objects vs ↔ ∀ v ∈ vs, v.Narrow arrays objects := by
  induction vs with
  | nil => simp [ItemsNarrow]
  | cons v vs ih => simp [ItemsNarrow, ih]

theorem membersNarrow_iff {ms : List (String × Value)} :
    MembersNarrow arrays objects ms ↔ ∀ x ∈ ms, x.2.Narrow arrays objects := by
  induction ms with
  | nil => simp [MembersNarrow]
  | cons x ms ih => simp [MembersNarrow, ih]

/-! ## Values within bounds -/

structure Within (arrays objects d m : Nat) (v : Value) : Prop where
  depth : v.depth ≤ d
  count : v.count ≤ m
  narrow : v.Narrow arrays objects

structure FieldsWithin (arrays objects d m : Nat) (ms : List (String × Value)) : Prop where
  depth : ∀ x ∈ ms, x.2.depth ≤ d
  count : (ms.map fun x => x.2.count + 1).sum ≤ m
  narrow : ∀ x ∈ ms, x.2.Narrow arrays objects

theorem Within.mono {v : Value} (h : Within arrays objects d m v) (hd : d ≤ e) (hm : m ≤ n) :
    Within arrays objects e n v :=
  ⟨h.depth.trans hd, h.count.trans hm, h.narrow⟩

theorem within_scalar {v : Value} (hd : v.depth = 0) (hc : v.count = 0)
    (hn : v.Narrow arrays objects) : Within arrays objects d m v :=
  ⟨by omega, by omega, hn⟩

theorem within_string (s : String) : Within arrays objects d m (.string s) :=
  within_scalar rfl rfl trivial

theorem within_number (x : Number) : Within arrays objects d m (.number x) :=
  within_scalar rfl rfl trivial

theorem within_null : Within arrays objects d m .null := within_scalar rfl rfl trivial

variable {α β : Type}

theorem within_list {c : Codec α} {l : List α} (h : ∀ a ∈ l, Within arrays objects d m (c.enc a))
    (hl : l.length ≤ arrays) (hn : l.length * m ≤ n) :
    Within arrays objects (d + 1) n ((Codec.list c).enc l) := by
  have hcount : itemsCount (l.map c.enc) ≤ l.length * m := by
    clear hl hn
    induction l with
    | nil => simp [itemsCount]
    | cons a l ih =>
      have ha := (h a List.mem_cons_self).count
      have hrest := ih fun b hb => h b (List.mem_cons_of_mem _ hb)
      simp only [List.map_cons, itemsCount, List.length_cons, Nat.add_mul]
      omega
  have hmem : ∀ v ∈ l.map c.enc, Within arrays objects d m v := by
    intro v hv
    obtain ⟨a, ha, rfl⟩ := List.mem_map.mp hv
    exact h a ha
  refine ⟨?_, hcount.trans hn, by simpa using hl, itemsNarrow_iff.mpr fun v hv => (hmem v hv).narrow⟩
  exact Nat.succ_le_succ (itemsDepth_le.mpr fun v hv => (hmem v hv).depth)

/-- The object of a list of fields with distinct names. -/
theorem within_ofFields {ms : List (String × Value)} (h : FieldsWithin arrays objects d m ms)
    (hl : ms.length ≤ objects) (hk : (keys ms).Nodup) :
    Within arrays objects (d + 1) m (.ofFields ms) := by
  have hp := sortMembers_perm ms
  refine ⟨?_, ?_, ?_, ?_, ?_⟩
  · exact Nat.succ_le_succ (membersDepth_le.mpr fun x hx => h.depth x (hp.subset hx))
  · show membersCount (sortMembers ms) ≤ m
    rw [membersCount_eq, (hp.map _).sum_nat]
    exact h.count
  · rw [hp.length_eq]
    exact hl
  · exact (hp.map Prod.fst).nodup_iff.mpr hk
  · exact membersNarrow_iff.mpr fun x hx => h.narrow x (hp.subset hx)

theorem within_record {closed : Bool} {F : Fields α} {a : α}
    (h : FieldsWithin arrays objects d m (F.enc a)) (hl : F.names.length ≤ objects) :
    Within arrays objects (d + 1) m ((Codec.record closed F).enc a) := by
  refine within_ofFields h ?_ (F.keys_nodup a)
  have := (F.keys_sublist a).length_le
  rw [keys, List.length_map] at this
  omega

/-- A case of an enumeration: its tag and its members. -/
theorem within_tagged {tag : String} {closed : Bool} {V : Variants α} {htag : tag ∉ V.fieldNames}
    {a : α} (h : FieldsWithin arrays objects d m (V.enc a).2)
    (hl : (V.enc a).2.length + 1 ≤ objects) :
    Within arrays objects (d + 1) (m + 1) ((Codec.tagged tag closed V htag).enc a) := by
  obtain ⟨names, read, -, hn, hk, hf, -⟩ := V.dec_enc a
  refine within_ofFields (d := d) ⟨fun x hx => ?_, ?_, fun x hx => ?_⟩ hl ?_
  · obtain rfl | hx := List.mem_cons.mp hx
    · exact Nat.zero_le d
    · exact h.depth x hx
  · have hcount := h.count
    have htag0 : (Value.string (V.enc a).1).count = 0 := rfl
    simp only [List.map_cons, List.sum_cons, htag0]
    omega
  · obtain rfl | hx := List.mem_cons.mp hx
    · trivial
    · exact h.narrow x hx
  · rw [keys_cons, List.nodup_cons]
    exact ⟨fun hm => htag (hf _ (hk.subset hm)), hn.sublist hk⟩

/-! ## Fields within bounds -/

theorem within_nil : FieldsWithin arrays objects d m [] :=
  ⟨nofun, Nat.zero_le m, nofun⟩

theorem within_member {name : String} {v : Value} {ms : List (String × Value)}
    (hv : Within arrays objects d m v) (h : FieldsWithin arrays objects d n ms) :
    FieldsWithin arrays objects d (n + (m + 1)) ((name, v) :: ms) := by
  refine ⟨fun x hx => ?_, ?_, fun x hx => ?_⟩
  · obtain rfl | hx := List.mem_cons.mp hx
    · exact hv.depth
    · exact h.depth x hx
  · have h1 := hv.count
    have h2 := h.count
    simp only [List.map_cons, List.sum_cons]
    omega
  · obtain rfl | hx := List.mem_cons.mp hx
    · exact hv.narrow
    · exact h.narrow x hx

theorem within_required {name : String} {c : Codec α} {a : α}
    (h : Within arrays objects d m (c.enc a)) :
    FieldsWithin arrays objects d (m + 1) ((Fields.required name c).enc a) := by
  have hmember : FieldsWithin arrays objects d (0 + (m + 1)) [(name, c.enc a)] :=
    within_member h within_nil
  rwa [Nat.zero_add] at hmember

theorem within_optional {name : String} {c : Codec α} {nulls : Bool} {o : Option α}
    (h : ∀ a ∈ o, Within arrays objects d m (c.enc a)) :
    FieldsWithin arrays objects d (m + 1) ((Fields.optional name c nulls).enc o) := by
  cases o with
  | none => exact within_nil
  | some a => exact within_required (h a rfl)

theorem within_nullable {name : String} {c : Codec α} {o : Option α}
    (h : ∀ a ∈ o, Within arrays objects d m (c.enc a)) :
    FieldsWithin arrays objects d (m + 1) ((Fields.nullable name c).enc o) := by
  have hv : Within arrays objects d m (o.elim .null c.enc) := by
    cases o with
    | none => exact within_null
    | some a => exact h a rfl
  have hmember : FieldsWithin arrays objects d (0 + (m + 1)) [(name, o.elim .null c.enc)] :=
    within_member hv within_nil
  rwa [Nat.zero_add] at hmember

theorem FieldsWithin.append {xs ys : List (String × Value)}
    (hx : FieldsWithin arrays objects d m xs) (hy : FieldsWithin arrays objects e n ys) :
    FieldsWithin arrays objects (max d e) (m + n) (xs ++ ys) := by
  refine ⟨fun x hm => ?_, ?_, fun x hm => ?_⟩
  · obtain h | h := List.mem_append.mp hm
    · exact (hx.depth x h).trans (le_max_left _ _)
    · exact (hy.depth x h).trans (le_max_right _ _)
  · have h1 := hx.count
    have h2 := hy.count
    simp only [List.map_append, List.sum_append]
    omega
  · obtain h | h := List.mem_append.mp hm
    · exact hx.narrow x h
    · exact hy.narrow x h

theorem within_and {F : Fields α} {G : Fields β} {hd : ∀ k ∈ F.names, k ∉ G.names} {p : α × β}
    (hF : FieldsWithin arrays objects d m (F.enc p.1))
    (hG : FieldsWithin arrays objects d n (G.enc p.2)) :
    FieldsWithin arrays objects d (n + m) ((F.and G hd).enc p) := by
  have := hF.append hG
  rwa [max_self, Nat.add_comm] at this

theorem within_iso {F : Fields α} {f : α → β} {g : β → α} {h : ∀ b, f (g b) = b} {b : β}
    (hF : FieldsWithin arrays objects d m (F.enc (g b))) :
    FieldsWithin arrays objects d m ((F.iso f g h).enc b) := hF

theorem FieldsWithin.mono {ms : List (String × Value)} (h : FieldsWithin arrays objects d m ms)
    (hd : d ≤ e) (hm : m ≤ n) : FieldsWithin arrays objects e n ms :=
  ⟨fun x hx => (h.depth x hx).trans hd, h.count.trans hm, h.narrow⟩

/-- A member that is a text. -/
theorem within_text {name : String} (s : String) :
    FieldsWithin arrays objects d 1 ((Fields.required name .str).enc s) :=
  within_required (within_string s)

/-- A member that is a text, and the members after it. -/
theorem within_text_and {name : String} {G : Fields β}
    {hd : ∀ k ∈ (Fields.required name .str).names, k ∉ G.names} {p : String × β}
    (hG : FieldsWithin arrays objects d n (G.enc p.2)) :
    FieldsWithin arrays objects d (n + 1) (((Fields.required name .str).and G hd).enc p) :=
  within_and (within_text p.1) hG

theorem within_texts {l : List String} (hl : l.length ≤ arrays) :
    Within arrays objects 1 0 ((Codec.list .str).enc l) :=
  within_list (m := 0) (fun s _ => within_string s) hl (by omega)

end Json
