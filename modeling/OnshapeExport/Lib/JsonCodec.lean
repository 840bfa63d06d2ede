import OnshapeExport.Lib.Json

/-!
# Lib.JsonCodec

Writing typed documents as JSON values and reading them back, as derived serializers do. A
codec carries its own laws, so that a document described field by field round-trips by
construction.

* `Codec.dec_enc` — a document that fits is read back as it was written.
* `Codec.enc_inj` — documents that fit are told apart by their values.
* `Fields` — the members of a record, required, optional or nullable.
* `Variants` — the cases of an enumeration told apart by a tag.
-/

namespace Json

/-- A type written as a value. `Fits` holds of what can be written and read back unchanged. -/
structure Codec (α : Type) where
  enc : α → Value
  dec : Value → Option α
  Fits : α → Prop
  canonical : ∀ a, Fits a → (enc a).Canonical
  dec_enc : ∀ a, Fits a → dec (enc a) = some a

variable {α β : Type}

theorem Codec.enc_inj (c : Codec α) {a b : α} (ha : c.Fits a) (hb : c.Fits b)
    (h : c.enc a = c.enc b) : a = b := by
  have hd := c.dec_enc a ha
  rw [h, c.dec_enc b hb] at hd
  exact (Option.some.inj hd).symm

/-! ## Scalars -/

namespace Codec

def str : Codec String where
  enc := .string
  dec
    | .string s => some s
    | _ => none
  Fits _ := True
  canonical _ _ := trivial
  dec_enc _ _ := rfl

def bool : Codec Bool where
  enc := .bool
  dec
    | .bool b => some b
    | _ => none
  Fits _ := True
  canonical _ _ := trivial
  dec_enc _ _ := rfl

/-- An unsigned integer of `w` bits. -/
def unsigned (w : Nat) : Codec Nat where
  enc n := .number (.int n)
  dec
    | .number (.int n) => if 0 ≤ n ∧ n < 2 ^ w then some n.toNat else none
    | _ => none
  Fits n := n < 2 ^ w ∧ n < 2 ^ 64
  canonical n h := by
    obtain ⟨-, h⟩ := h
    simp only [Value.Canonical, Number.Canonical, inIntRange, Bool.and_eq_true, decide_eq_true_eq]
    constructor <;> omega
  dec_enc n h := by
    obtain ⟨h, -⟩ := h
    have : (n : Int) < 2 ^ w := by exact_mod_cast h
    simp [this]

/-- A finite float, which an integer literal may stand for. -/
def scalar : Codec Scalar where
  enc s := .number s.number
  dec
    | .number n => some n.scalar
    | _ => none
  Fits s := s ≠ .negZero
  canonical _ h := Scalar.number_canonical h
  dec_enc _ h := congrArg some (Scalar.number_scalar h)

/-- An enumeration of names. -/
def enum (key : α → String) (all : List α) (hall : ∀ a, a ∈ all)
    (hinj : ∀ a b, key a = key b → a = b) : Codec α where
  enc a := .string (key a)
  dec
    | .string s => all.find? fun a => key a = s
    | _ => none
  Fits _ := True
  canonical _ _ := trivial
  dec_enc a _ := by
    change (all.find? fun b => key b = key a) = some a
    cases h : all.find? fun b => key b = key a with
    | none => exact absurd (List.find?_eq_none.mp h a (hall a)) (by simp)
    | some b => rw [hinj b a (by simpa using List.find?_some h)]

theorem mapM_dec (c : Codec α) {l : List α} (h : ∀ a ∈ l, c.Fits a) :
    (l.map c.enc).mapM c.dec = some l := by
  induction l with
  | nil => rfl
  | cons a l ih =>
    have ha := c.dec_enc a (h a List.mem_cons_self)
    have hl := ih fun b hb => h b (List.mem_cons_of_mem _ hb)
    simp [List.map_cons, List.mapM_cons, ha, hl]

def list (c : Codec α) : Codec (List α) where
  enc l := .array (l.map c.enc)
  dec
    | .array items => items.mapM c.dec
    | _ => none
  Fits l := ∀ a ∈ l, c.Fits a
  canonical l h := by
    rw [Value.Canonical, Value.canonicalItems_iff]
    rintro v hv
    obtain ⟨a, ha, rfl⟩ := List.mem_map.mp hv
    exact c.canonical a (h a ha)
  dec_enc l h := c.mapM_dec h

/-- The values of a map, by key. -/
def map (c : Codec α) : Codec (List (String × α)) where
  enc l := .object (l.map fun m => (m.1, c.enc m.2))
  dec
    | .object members => members.mapM fun m => (c.dec m.2).map fun a => (m.1, a)
    | _ => none
  Fits l := Sorted l ∧ ∀ m ∈ l, c.Fits m.2
  canonical l h := by
    refine ⟨?_, (Value.canonicalMembers_iff _).mpr ?_⟩
    · have hk : keys (l.map fun m => (m.1, c.enc m.2)) = keys l := by simp [keys]
      rw [Sorted, hk]
      exact h.1
    · rintro v hv
      obtain ⟨m, hm, rfl⟩ := List.mem_map.mp hv
      exact c.canonical m.2 (h.2 m hm)
  dec_enc l h := by
    obtain ⟨-, h⟩ := h
    simp only
    induction l with
    | nil => rfl
    | cons m l ih =>
      have hm := c.dec_enc m.2 (h m List.mem_cons_self)
      have hl := ih fun b hb => h b (List.mem_cons_of_mem _ hb)
      simp [List.map_cons, List.mapM_cons, hm, hl]

end Codec

/-! ## Records -/

/-- The members of a record. A reader sees the value of each name. -/
structure Fields (α : Type) where
  names : List String
  enc : α → List (String × Value)
  dec : (String → Option Value) → Option α
  Fits : α → Prop
  nodup : names.Nodup
  keys_sublist : ∀ a, (keys (enc a)).Sublist names
  canonical : ∀ a, Fits a → ∀ m ∈ enc a, m.2.Canonical
  dec_enc : ∀ a get, Fits a → (∀ k ∈ names, get k = get? (enc a) k) → dec get = some a

namespace Fields

theorem keys_nodup (F : Fields α) (a : α) : (keys (F.enc a)).Nodup :=
  F.nodup.sublist (F.keys_sublist a)

theorem get?_enc_eq_none (F : Fields α) (a : α) {k : String} (hk : k ∉ F.names) :
    get? (F.enc a) k = none :=
  get?_eq_none.mpr fun hm => hk ((F.keys_sublist a).subset hm)

def required (name : String) (c : Codec α) : Fields α where
  names := [name]
  enc a := [(name, c.enc a)]
  dec get := (get name).bind c.dec
  Fits := c.Fits
  nodup := by simp
  keys_sublist _ := by simp
  canonical a h m hm := by rw [List.mem_singleton.mp hm]; exact c.canonical a h
  dec_enc a get h hget := by
    rw [hget name (by simp)]
    simp [get?, c.dec_enc a h]

theorem required_disjoint {k l : String} (c : Codec α) (d : Codec β) (h : k ≠ l) :
    ∀ name ∈ (required k c).names, name ∉ (required l d).names := by
  rintro name hk hl
  exact h ((List.mem_singleton.mp hk).symm.trans (List.mem_singleton.mp hl))

/-- An option that is left out when there is nothing to write; `nulls` says that a null is read
as nothing as well. -/
def optional (name : String) (c : Codec α) (nulls : Bool) : Fields (Option α) where
  names := [name]
  enc
    | none => []
    | some a => [(name, c.enc a)]
  dec get :=
    match get name with
    | none => some none
    | some v => if nulls ∧ v = .null then some none else (c.dec v).map some
  Fits o := ∀ a, o = some a → c.Fits a ∧ c.enc a ≠ .null
  nodup := by simp
  keys_sublist
    | none => by simp
    | some a => by simp
  canonical
    | none, _, m, hm => by cases hm
    | some a, h, m, hm => by rw [List.mem_singleton.mp hm]; exact c.canonical a (h a rfl).1
  dec_enc
    | none, get, _, hget => by
      rw [hget name (by simp)]
      simp [get?]
    | some a, get, h, hget => by
      obtain ⟨hf, hn⟩ := h a rfl
      rw [hget name (by simp)]
      simp [get?, hn, c.dec_enc a hf]

/-- An option that is written as a null when there is nothing to write. -/
def nullable (name : String) (c : Codec α) : Fields (Option α) where
  names := [name]
  enc o := [(name, o.elim .null c.enc)]
  dec get :=
    match get name with
    | none => some none
    | some v => if v = .null then some none else (c.dec v).map some
  Fits o := ∀ a, o = some a → c.Fits a ∧ c.enc a ≠ .null
  nodup := by simp
  keys_sublist _ := by simp
  canonical
    | none, _, m, hm => by rw [List.mem_singleton.mp hm]; trivial
    | some a, h, m, hm => by rw [List.mem_singleton.mp hm]; exact c.canonical a (h a rfl).1
  dec_enc
    | none, get, _, hget => by
      rw [hget name (by simp)]
      simp [get?]
    | some a, get, h, hget => by
      obtain ⟨hf, hn⟩ := h a rfl
      rw [hget name (by simp)]
      simp [get?, hn, c.dec_enc a hf]

def and (F : Fields α) (G : Fields β) (hd : ∀ k ∈ F.names, k ∉ G.names := by decide) :
    Fields (α × β) where
  names := F.names ++ G.names
  enc p := F.enc p.1 ++ G.enc p.2
  dec get := (F.dec get).bind fun a => (G.dec get).map fun b => (a, b)
  Fits p := F.Fits p.1 ∧ G.Fits p.2
  nodup := List.nodup_append.mpr ⟨F.nodup, G.nodup, fun a ha b hb h => hd a ha (h ▸ hb)⟩
  keys_sublist p := by
    rw [keys_append]
    exact (F.keys_sublist p.1).append (G.keys_sublist p.2)
  canonical p h m hm := by
    obtain hm | hm := List.mem_append.mp hm
    · exact F.canonical p.1 h.1 m hm
    · exact G.canonical p.2 h.2 m hm
  dec_enc p get h hget := by
    have hF : F.dec get = some p.1 := by
      refine F.dec_enc p.1 get h.1 fun k hk => ?_
      rw [hget k (List.mem_append_left _ hk), get?_append,
        G.get?_enc_eq_none p.2 (hd k hk), Option.or_none]
    have hG : G.dec get = some p.2 := by
      refine G.dec_enc p.2 get h.2 fun k hk => ?_
      rw [hget k (List.mem_append_right _ hk), get?_append,
        F.get?_enc_eq_none p.1 (fun hk' => hd k hk' hk), Option.none_or]
    simp [hF, hG]

/-- The fields of a record built from those of a tuple. -/
def iso (F : Fields α) (f : α → β) (g : β → α) (h : ∀ b, f (g b) = b) : Fields β where
  names := F.names
  enc b := F.enc (g b)
  dec get := (F.dec get).map f
  Fits b := F.Fits (g b)
  nodup := F.nodup
  keys_sublist b := F.keys_sublist (g b)
  canonical b := F.canonical (g b)
  dec_enc b get hf hget := by simp [F.dec_enc (g b) get hf hget, h]

/-- A record without members. -/
def unit : Fields Unit where
  names := []
  enc _ := []
  dec _ := some ()
  Fits _ := True
  nodup := List.nodup_nil
  keys_sublist _ := List.Sublist.refl _
  canonical _ _ _ hm := by cases hm
  dec_enc _ _ _ _ := rfl

end Fields

/-- Whether an object has only members of these names. -/
def onlyNames (names : List String) (members : List (String × Value)) : Bool :=
  (keys members).all (· ∈ names)

theorem onlyNames_sortMembers {names : List String} {members : List (String × Value)}
    (h : (keys members).Sublist names) : onlyNames names (sortMembers members) = true := by
  rw [onlyNames, List.all_eq_true]
  rintro k hk
  simpa using h.subset (((sortMembers_perm members).map Prod.fst).subset hk)

/-- A record; a closed one refuses members it does not know. -/
def Codec.record (closed : Bool) (F : Fields α) : Codec α where
  enc a := .ofFields (F.enc a)
  dec
    | .object members =>
      if closed && !onlyNames F.names members then none else F.dec (get? members)
    | _ => none
  Fits := F.Fits
  canonical a h := Value.canonical_ofFields (F.keys_nodup a) (F.canonical a h)
  dec_enc a h := by
    have hnames := onlyNames_sortMembers (F.keys_sublist a)
    simp only [Value.ofFields, hnames, Bool.not_true, Bool.and_false, Bool.false_eq_true,
      if_false]
    exact F.dec_enc a _ h fun k _ => get?_sortMembers (F.keys_nodup a) k

/-! ## Tagged cases -/

/-- The cases of an enumeration: the tag and the members of a case, and for each tag the names of
its members and their reader. -/
structure Variants (α : Type) where
  tags : List String
  fieldNames : List String
  enc : α → String × List (String × Value)
  dec : String → Option (List String × ((String → Option Value) → Option α))
  Fits : α → Prop
  tag_mem : ∀ a, (enc a).1 ∈ tags
  dec_mem : ∀ t, dec t ≠ none → t ∈ tags
  canonical : ∀ a, Fits a → ∀ m ∈ (enc a).2, m.2.Canonical
  dec_enc : ∀ a, ∃ names read, dec (enc a).1 = some (names, read) ∧ names.Nodup ∧
    (keys (enc a).2).Sublist names ∧ (∀ k ∈ names, k ∈ fieldNames) ∧
    (Fits a → ∀ get, (∀ k ∈ names, get k = get? (enc a).2 k) → read get = some a)

namespace Variants

def case (tag : String) (F : Fields α) : Variants α where
  tags := [tag]
  fieldNames := F.names
  enc a := (tag, F.enc a)
  dec t := if t = tag then some (F.names, F.dec) else none
  Fits := F.Fits
  tag_mem _ := by simp
  dec_mem t h := by
    by_contra hne
    exact h (if_neg (by simpa using hne))
  canonical := F.canonical
  dec_enc a := ⟨F.names, F.dec, if_pos rfl, F.nodup, F.keys_sublist a, fun _ hk => hk,
    fun h get hget => F.dec_enc a get h hget⟩

def or (V : Variants α) (W : Variants β) (hd : ∀ t ∈ V.tags, t ∉ W.tags := by decide) :
    Variants (α ⊕ β) where
  tags := V.tags ++ W.tags
  fieldNames := V.fieldNames ++ W.fieldNames
  enc
    | .inl a => V.enc a
    | .inr b => W.enc b
  dec t :=
    match V.dec t with
    | some (names, read) => some (names, fun get => (read get).map .inl)
    | none => (W.dec t).map fun r => (r.1, fun get => (r.2 get).map .inr)
  Fits
    | .inl a => V.Fits a
    | .inr b => W.Fits b
  tag_mem
    | .inl a => List.mem_append_left _ (V.tag_mem a)
    | .inr b => List.mem_append_right _ (W.tag_mem b)
  dec_mem t h := by
    cases hV : V.dec t with
    | some r => exact List.mem_append_left _ (V.dec_mem t (by simp [hV]))
    | none =>
      refine List.mem_append_right _ (W.dec_mem t fun hW => h ?_)
      simp [hV, hW]
  canonical
    | .inl a, h, m, hm => V.canonical a h m hm
    | .inr b, h, m, hm => W.canonical b h m hm
  dec_enc
    | .inl a => by
      obtain ⟨names, read, hd, hn, hk, hf, hr⟩ := V.dec_enc a
      refine ⟨names, fun get => (read get).map .inl, by simp [hd], hn, hk,
        fun k hk => List.mem_append_left _ (hf k hk), fun h get hget => ?_⟩
      simp only [hr h get hget, Option.map_some]
    | .inr b => by
      obtain ⟨names, read, hW, hn, hk, hf, hr⟩ := W.dec_enc b
      have hV : V.dec (W.enc b).1 = none := by
        by_contra hne
        exact hd _ (V.dec_mem _ hne) (W.tag_mem b)
      refine ⟨names, fun get => (read get).map .inr, by simp [hV, hW], hn, hk,
        fun k hk => List.mem_append_right _ (hf k hk), fun h get hget => ?_⟩
      simp only [hr h get hget, Option.map_some]

/-- The cases of an enumeration built from those of a sum. -/
def iso (V : Variants α) (f : α → β) (g : β → α) (h : ∀ b, f (g b) = b) : Variants β where
  tags := V.tags
  fieldNames := V.fieldNames
  enc b := V.enc (g b)
  dec t := (V.dec t).map fun r => (r.1, fun get => (r.2 get).map f)
  Fits b := V.Fits (g b)
  tag_mem b := V.tag_mem (g b)
  dec_mem t ht := V.dec_mem t fun hn => ht (by simp [hn])
  canonical b := V.canonical (g b)
  dec_enc b := by
    obtain ⟨names, read, hd, hn, hk, hf, hr⟩ := V.dec_enc (g b)
    refine ⟨names, fun get => (read get).map f, by simp [hd], hn, hk, hf, fun hb get hget => ?_⟩
    simp only [hr hb get hget, Option.map_some, h]

end Variants

/-- An enumeration whose cases are told apart by a member of the object. -/
def Codec.tagged (tag : String) (closed : Bool) (V : Variants α)
    (htag : tag ∉ V.fieldNames := by decide) : Codec α where
  enc a := .ofFields ((tag, .string (V.enc a).1) :: (V.enc a).2)
  dec
    | .object members =>
      match get? members tag with
      | some (.string t) =>
        match V.dec t with
        | some (names, read) =>
          if closed && !onlyNames (tag :: names) members then none else read (get? members)
        | none => none
      | _ => none
    | _ => none
  Fits := V.Fits
  canonical a h := by
    obtain ⟨names, read, -, hn, hk, hf, -⟩ := V.dec_enc a
    refine Value.canonical_ofFields ?_ fun m hm => ?_
    · rw [keys_cons, List.nodup_cons]
      exact ⟨fun hm => htag (hf _ (hk.subset hm)), hn.sublist hk⟩
    · obtain rfl | hm := List.mem_cons.mp hm
      · trivial
      · exact V.canonical a h m hm
  dec_enc a h := by
    obtain ⟨names, read, hd, hn, hk, hf, hr⟩ := V.dec_enc a
    have hnotMem : tag ∉ keys (V.enc a).2 := fun hm => htag (hf _ (hk.subset hm))
    have hnodup : (keys ((tag, Value.string (V.enc a).1) :: (V.enc a).2)).Nodup := by
      rw [keys_cons, List.nodup_cons]
      exact ⟨hnotMem, hn.sublist hk⟩
    have hget := get?_sortMembers hnodup
    have htagged : get? (sortMembers ((tag, Value.string (V.enc a).1) :: (V.enc a).2)) tag =
        some (.string (V.enc a).1) := by rw [hget]; simp [get?]
    have hnames : onlyNames (tag :: names)
        (sortMembers ((tag, Value.string (V.enc a).1) :: (V.enc a).2)) = true :=
      onlyNames_sortMembers (by rw [keys_cons]; exact hk.cons_cons tag)
    simp only [Value.ofFields, htagged, hd, hnames, Bool.not_true, Bool.and_false,
      Bool.false_eq_true, if_false]
    refine hr h _ fun k hk' => ?_
    have hne : k ≠ tag := fun he => htag (he ▸ hf k hk')
    have hb : (k == tag) = false := by simpa using hne
    rw [hget]
    simp [get?, List.lookup_cons, List.lookup_nil, hb]

/-! ## What fits, and what is never null -/

section Fits

@[simp] theorem fits_str (s : String) : Codec.str.Fits s := trivial

@[simp] theorem fits_bool (b : Bool) : Codec.bool.Fits b := trivial

@[simp] theorem fits_unsigned {w n : Nat} :
    (Codec.unsigned w).Fits n ↔ n < 2 ^ w ∧ n < 2 ^ 64 := Iff.rfl

@[simp] theorem fits_scalar {s : Scalar} : Codec.scalar.Fits s ↔ s ≠ .negZero := Iff.rfl

@[simp] theorem fits_enum {key : α → String} {all : List α} {hall : ∀ a, a ∈ all}
    {hinj : ∀ a b, key a = key b → a = b} (a : α) : (Codec.enum key all hall hinj).Fits a :=
  trivial

@[simp] theorem fits_list {c : Codec α} {l : List α} : (Codec.list c).Fits l ↔ ∀ a ∈ l, c.Fits a :=
  Iff.rfl

@[simp] theorem fits_map {c : Codec α} {l : List (String × α)} :
    (Codec.map c).Fits l ↔ Sorted l ∧ ∀ m ∈ l, c.Fits m.2 := Iff.rfl

@[simp] theorem fits_record {closed : Bool} {F : Fields α} {a : α} :
    (Codec.record closed F).Fits a ↔ F.Fits a := Iff.rfl

@[simp] theorem fits_required {name : String} {c : Codec α} {a : α} :
    (Fields.required name c).Fits a ↔ c.Fits a := Iff.rfl

@[simp] theorem fits_optional {name : String} {c : Codec α} {nulls : Bool} {o : Option α} :
    (Fields.optional name c nulls).Fits o ↔ ∀ a, o = some a → c.Fits a ∧ c.enc a ≠ .null := Iff.rfl

@[simp] theorem fits_nullable {name : String} {c : Codec α} {o : Option α} :
    (Fields.nullable name c).Fits o ↔ ∀ a, o = some a → c.Fits a ∧ c.enc a ≠ .null := Iff.rfl

@[simp] theorem fits_and {F : Fields α} {G : Fields β} {hd : ∀ k ∈ F.names, k ∉ G.names}
    {p : α × β} : (F.and G hd).Fits p ↔ F.Fits p.1 ∧ G.Fits p.2 := Iff.rfl

@[simp] theorem fits_iso {F : Fields α} {f : α → β} {g : β → α} {h : ∀ b, f (g b) = b} {b : β} :
    (F.iso f g h).Fits b ↔ F.Fits (g b) := Iff.rfl

@[simp] theorem fits_tagged {tag : String} {closed : Bool} {V : Variants α}
    {htag : tag ∉ V.fieldNames} {a : α} : (Codec.tagged tag closed V htag).Fits a ↔ V.Fits a :=
  Iff.rfl

@[simp] theorem enc_str_ne_null (s : String) : Codec.str.enc s ≠ .null := nofun

@[simp] theorem enc_list_ne_null {c : Codec α} (l : List α) : (Codec.list c).enc l ≠ .null := nofun

@[simp] theorem enc_record_ne_null {closed : Bool} {F : Fields α} (a : α) :
    (Codec.record closed F).enc a ≠ .null := nofun

end Fits

/-- The values of a type that satisfy a condition. -/
def Codec.sub (c : Codec α) (P : α → Prop) [DecidablePred P] : Codec { a // P a } where
  enc a := c.enc a.1
  dec v := (c.dec v).bind fun a => if h : P a then some ⟨a, h⟩ else none
  Fits a := c.Fits a.1
  canonical a h := c.canonical a.1 h
  dec_enc a h := by simp [c.dec_enc a.1 h, a.2]

@[simp] theorem fits_sub {c : Codec α} {P : α → Prop} [DecidablePred P] {a : { a // P a }} :
    (c.sub P).Fits a ↔ c.Fits a.1 := Iff.rfl

/-- A codec for a type in bijection with one that has one. -/
def Codec.iso (c : Codec α) (f : α → β) (g : β → α) (h : ∀ b, f (g b) = b) : Codec β where
  enc b := c.enc (g b)
  dec v := (c.dec v).map f
  Fits b := c.Fits (g b)
  canonical b := c.canonical (g b)
  dec_enc b hb := by simp [c.dec_enc (g b) hb, h]

/-- Two shapes without a tag: a reader takes the first one that the value has. -/
def Codec.untagged (c : Codec α) (d : Codec β) (h : ∀ b, c.dec (d.enc b) = none) :
    Codec (α ⊕ β) where
  enc
    | .inl a => c.enc a
    | .inr b => d.enc b
  dec v := ((c.dec v).map .inl).or ((d.dec v).map .inr)
  Fits
    | .inl a => c.Fits a
    | .inr b => d.Fits b
  canonical
    | .inl a, ha => c.canonical a ha
    | .inr b, hb => d.canonical b hb
  dec_enc
    | .inl a, ha => by simp [c.dec_enc a ha]
    | .inr b, hb => by simp [h b, d.dec_enc b hb]

end Json
