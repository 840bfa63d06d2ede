import OnshapeExport.Annotation

/-!
# NameAnnotation

The annotation at the end of a part name, as a grammar: what `parse_name_annotation` reads is what
is written here, and nothing else is read.

* `nameSuffix`, `formatName` — an annotation as the end of a name.
* `rfind_eq_some`, `rfind_eq_none` — the last place of a marker.
* `parseDirectives_ok` — the directives of an annotation.
* `parseNameAnnotation_some`, `parseNameAnnotation_none` — the names that are read.
-/

namespace OnshapeExport
namespace Annotation

open Checks
open Protocol (isAsciiAlphanumeric)

/-! ## The grammar -/

def roleText : SemanticRole → List Char
  | .printable => "printable".toList
  | .supportBlocker => "supportBlocker".toList

def keyDirectives : Option String → List (List Char)
  | none => []
  | some key => ["key=".toList ++ key.toList]

def targetsText (targets : List String) : List Char :=
  [','].intercalate (targets.map String.toList)

def directives (a : NormalizedAnnotation) : List (List Char) :=
  "v1".toList :: ("role=".toList ++ roleText a.role) ::
    (keyDirectives a.key ++ ["targets=".toList ++ targetsText a.targets])

def nameSuffix (a : NormalizedAnnotation) : List Char :=
  nameMarkerPrefix.toList ++ ([';'].intercalate (directives a) ++ [']'])

def formatName (displayName : String) (a : NormalizedAnnotation) : String :=
  displayName ++ String.ofList (nameSuffix a)

theorem toList_formatName (displayName : String) (a : NormalizedAnnotation) :
    (formatName displayName a).toList = displayName.toList ++ nameSuffix a := by
  simp [formatName]

/-! ## The last marker -/

section Rfind

variable {pattern : List Char}

theorem rfind_eq_none (hp : pattern ≠ []) {text : List Char} :
    rfind pattern text = none ↔ ¬ pattern <:+: text := by
  induction text with
  | nil => simp [rfind, hp]
  | cons c cs ih =>
    rw [List.infix_cons_iff, not_or, ← ih, rfind]
    cases hr : rfind pattern cs with
    | some found => simp
    | none =>
      rw [← List.isPrefixOf_iff_prefix]
      split <;> simp_all

theorem rfind_spec (hp : pattern ≠ []) {text before found : List Char}
    (h : rfind pattern text = some (before, found)) :
    text = before ++ found ∧ pattern <+: found ∧ ¬ pattern <:+: found.tail := by
  induction text generalizing before with
  | nil => cases h
  | cons c cs ih =>
    rw [rfind] at h
    split at h
    · rename_i before' found' hr
      simp only [Option.some.injEq, Prod.mk.injEq] at h
      obtain ⟨rfl, rfl⟩ := h
      obtain ⟨hcs, hrest⟩ := ih hr
      exact ⟨by rw [hcs, List.cons_append], hrest⟩
    · rename_i hr
      split at h
      · rename_i hpre
        simp only [Option.some.injEq, Prod.mk.injEq] at h
        obtain ⟨rfl, rfl⟩ := h
        exact ⟨rfl, List.isPrefixOf_iff_prefix.mp hpre, (rfind_eq_none hp).mp hr⟩
      · cases h

/-- What comes after a place cannot have the pattern when that place is the last. -/
theorem last_le {before found before' found' : List Char} (h : before ++ found = before' ++ found')
    (hpre : pattern <+: found') (hlast : ¬ pattern <:+: found.tail) :
    before'.length ≤ before.length := by
  by_contra hlt
  rcases List.append_eq_append_iff.mp h with ⟨rest, rfl, rfl⟩ | ⟨rest, rfl, -⟩
  · cases rest with
    | nil => simp at hlt
    | cons c rest => exact hlast (hpre.isInfix.trans (List.suffix_append rest found').isInfix)
  · rw [List.length_append] at hlt
    omega

/-- A text is cut at the last place that has the pattern. -/
theorem rfind_eq_some (hp : pattern ≠ []) {text before found : List Char} :
    rfind pattern text = some (before, found) ↔
      text = before ++ found ∧ pattern <+: found ∧ ¬ pattern <:+: found.tail := by
  refine ⟨rfind_spec hp, ?_⟩
  rintro ⟨rfl, hpre, hlast⟩
  cases hr : rfind pattern (before ++ found) with
  | none =>
    have hinfix := hpre.isInfix.trans (List.suffix_append before found).isInfix
    exact absurd hinfix ((rfind_eq_none hp).mp hr)
  | some cut =>
    obtain ⟨before', found'⟩ := cut
    obtain ⟨heq, hpre', hlast'⟩ := rfind_spec hp hr
    have hlength := Nat.le_antisymm (last_le heq.symm hpre hlast') (last_le heq hpre' hlast)
    obtain ⟨rfl, rfl⟩ := List.append_inj heq hlength
    rfl

end Rfind

/-! ## Directives -/

theorem stripPrefix_eq_some {start : String} {text rest : List Char} :
    stripPrefix start text = some rest ↔ text = start.toList ++ rest := by
  unfold stripPrefix
  constructor
  · intro h
    split at h
    · rename_i hpre
      cases h
      obtain ⟨after, rfl⟩ := List.isPrefixOf_iff_prefix.mp hpre
      rw [List.drop_left]
    · cases h
  · rintro rfl
    rw [if_pos (List.isPrefixOf_iff_prefix.mpr (List.prefix_append _ _)), List.drop_left]

theorem roles_differ : "printable".toList ≠ "supportBlocker".toList := by decide

theorem parseRole_ok {directive : List Char} {role : SemanticRole} :
    parseRole directive = .ok role ↔ directive = "role=".toList ++ roleText role := by
  rw [parseRole]
  cases hstrip : stripPrefix "role=" directive with
  | none =>
    simp only [reduceCtorEq, false_iff]
    intro h
    rw [stripPrefix_eq_some.mpr h] at hstrip
    cases hstrip
  | some text =>
    rw [stripPrefix_eq_some.mp hstrip, List.append_right_inj]
    dsimp only
    by_cases hprintable : text = "printable".toList
    · rw [if_pos hprintable, hprintable]
      cases role with
      | printable => exact iff_of_true rfl rfl
      | supportBlocker => exact iff_of_false nofun roles_differ
    · rw [if_neg hprintable]
      by_cases hblocker : text = "supportBlocker".toList
      · rw [if_pos hblocker, hblocker]
        cases role with
        | printable => exact iff_of_false nofun roles_differ.symm
        | supportBlocker => exact iff_of_true rfl rfl
      · rw [if_neg hblocker]
        cases role with
        | printable => exact iff_of_false nofun hprintable
        | supportBlocker => exact iff_of_false nofun hblocker

theorem parseNameKey_ok {directive : List Char} {key : String} :
    parseNameKey directive = .ok key ↔
      directive = "key=".toList ++ key.toList ∧ isKey key.toList = true := by
  unfold parseNameKey
  split
  · rename_i hstrip
    simp only [reduceCtorEq, false_iff, not_and]
    intro h
    rw [stripPrefix_eq_some.mpr h] at hstrip
    cases hstrip
  · rename_i text hstrip
    rw [stripPrefix_eq_some.mp hstrip, List.append_right_inj, seq_ok, validateKey_ok]
    constructor
    · rintro ⟨hkey, h⟩
      cases h
      exact ⟨(String.toList_ofList).symm, hkey⟩
    · rintro ⟨rfl, hkey⟩
      rw [String.ofList_toList]
      exact ⟨hkey, rfl⟩

/-- The targets of a directive are those whose text it has, when none of them could be cut. -/
theorem parseTargets_ok {directive : List Char} {targets : List String}
    (hne : ∀ target ∈ targets, target.toList ≠ [])
    (hcut : ∀ target ∈ targets, ',' ∉ target.toList) :
    parseTargets directive = .ok targets ↔
      directive = "targets=".toList ++ targetsText targets := by
  unfold parseTargets
  split
  · rename_i hstrip
    simp only [reduceCtorEq, false_iff]
    intro h
    rw [stripPrefix_eq_some.mpr h] at hstrip
    cases hstrip
  · rename_i hstrip
    rw [stripPrefix_eq_some.mp hstrip, List.append_right_inj, Except.ok.injEq]
    constructor
    · rintro rfl
      rfl
    · intro h
      cases targets with
      | nil => rfl
      | cons target targets =>
        have htarget := hne target List.mem_cons_self
        cases targets <;> simp [targetsText, List.intercalate, htarget] at h
  · rename_i text hnil hstrip
    rw [stripPrefix_eq_some.mp hstrip, List.append_right_inj, Except.ok.injEq]
    constructor
    · rintro rfl
      rw [targetsText, List.map_map]
      simp only [Function.comp_def, String.toList_ofList, List.map_id']
      exact (List.intercalate_splitOn ',').symm
    · rintro rfl
      have hsome : targets.map String.toList ≠ [] := by
        intro h
        rw [targetsText, h] at hnil
        exact hnil rfl
      rw [targetsText, List.splitOn_intercalate ',' (by simpa using hcut) hsome, List.map_map]
      simp [Function.comp_def]

/-! ### The characters of a key -/

theorem isKey_mem {value : List Char} (h : isKey value = true) {c : Char} (hc : c ∈ value) :
    isAsciiAlphanumeric c = true ∨ c ∈ ['.', '_', '-'] := by
  rw [isKey, Bool.and_eq_true, List.all_eq_true] at h
  have := h.2 c hc
  rwa [Bool.or_eq_true, decide_eq_true_eq] at this

theorem isKey_ne_nil {value : List Char} (h : isKey value = true) : value ≠ [] := by
  rintro rfl
  cases h

theorem isKey_not_mem {value : List Char} (h : isKey value = true) {c : Char}
    (hc : isAsciiAlphanumeric c = false) (hd : c ∉ ['.', '_', '-']) : c ∉ value := by
  intro hm
  rcases isKey_mem h hm with h | h
  · rw [hc] at h
    cases h
  · exact hd h

theorem WellFormed.targets_ok {a : NormalizedAnnotation} {n : Nat} (h : WellFormed n a)
    {directive : List Char} :
    parseTargets directive = .ok a.targets ↔
      directive = "targets=".toList ++ targetsText a.targets :=
  parseTargets_ok (fun target ht => isKey_ne_nil (h.targets target ht))
    fun target ht => isKey_not_mem (h.targets target ht) (by decide) (by decide)

/-- Directives are read as an annotation when they are those it is written with. -/
theorem parseDirectives_ok {a : NormalizedAnnotation} {n : Nat} (hwf : WellFormed n a)
    {ds : List (List Char)} : parseDirectives ds = .ok a ↔ ds = directives a := by
  have htargets := @WellFormed.targets_ok a n hwf
  obtain ⟨role, key, targets⟩ := a
  simp only at htargets
  constructor
  · intro h
    obtain ⟨hlength, h⟩ := seq_ok.mp h
    obtain ⟨hversion, h⟩ := seq_ok.mp h
    obtain ⟨role', hrole, h⟩ := bind_ok.mp h
    rw [require_ok] at hlength hversion
    rw [parseRole_ok] at hrole
    rcases hlength with hlength | hlength
    · obtain ⟨version, roleD, targetsD, rfl⟩ := List.length_eq_three.mp hlength
      rw [if_neg (by simp)] at h
      obtain ⟨targets', htargetsD, h⟩ := bind_ok.mp h
      cases h
      simp only [List.head?_cons, Option.some.injEq] at hversion
      have htargetsD := htargets.mp htargetsD
      simp only [List.getD_cons_succ, List.getD_cons_zero] at hrole htargetsD
      rw [hversion, hrole, htargetsD]
      rfl
    · obtain ⟨version, ds, rfl⟩ := List.exists_of_length_succ ds hlength
      obtain ⟨roleD, keyD, targetsD, rfl⟩ := List.length_eq_three.mp (Nat.succ.inj hlength)
      rw [if_pos hlength] at h
      obtain ⟨key', hkey, h⟩ := bind_ok.mp h
      obtain ⟨targets', htargetsD, h⟩ := bind_ok.mp h
      cases h
      simp only [List.head?_cons, Option.some.injEq] at hversion
      have htargetsD := htargets.mp htargetsD
      have hkeyD := (parseNameKey_ok.mp hkey).1
      simp only [List.getD_cons_succ, List.getD_cons_zero] at hrole hkeyD htargetsD
      rw [hversion, hrole, hkeyD, htargetsD]
      rfl
  · rintro rfl
    cases key with
    | none =>
      refine seq_ok.mpr ⟨require_ok.mpr (.inl rfl), seq_ok.mpr ⟨require_ok.mpr rfl, ?_⟩⟩
      refine bind_ok.mpr ⟨role, parseRole_ok.mpr rfl, ?_⟩
      rw [if_neg (by simp [directives, keyDirectives])]
      exact bind_ok.mpr ⟨targets, htargets.mpr rfl, rfl⟩
    | some key =>
      refine seq_ok.mpr ⟨require_ok.mpr (.inr rfl), seq_ok.mpr ⟨require_ok.mpr rfl, ?_⟩⟩
      refine bind_ok.mpr ⟨role, parseRole_ok.mpr rfl, ?_⟩
      rw [if_pos (by simp [directives, keyDirectives])]
      refine bind_ok.mpr ⟨key, parseNameKey_ok.mpr ⟨rfl, hwf.key key rfl⟩, ?_⟩
      exact bind_ok.mpr ⟨targets, htargets.mpr rfl, rfl⟩

/-! ## Suffixes -/

def isDirectiveChar (c : Char) : Bool :=
  isAsciiAlphanumeric c || c ∈ ['.', '_', '-', '=', ',']

def isSuffixChar (c : Char) : Bool := isDirectiveChar c || c ∈ [' ', '[', ']', ':', ';']

theorem mem_intercalate {sep c : Char} {parts : List (List Char)}
    (h : c ∈ [sep].intercalate parts) : c = sep ∨ ∃ part ∈ parts, c ∈ part := by
  induction parts with
  | nil => cases h
  | cons part parts ih =>
    cases parts with
    | nil => exact .inr ⟨part, List.mem_singleton_self _, by simpa [List.intercalate] using h⟩
    | cons next parts =>
      have hsplit : [sep].intercalate (part :: next :: parts) =
          part ++ sep :: [sep].intercalate (next :: parts) := by simp [List.intercalate]
      rw [hsplit, List.mem_append, List.mem_cons] at h
      rcases h with h | rfl | h
      · exact .inr ⟨part, List.mem_cons_self, h⟩
      · exact .inl rfl
      · rcases ih h with rfl | ⟨other, hother, hc⟩
        · exact .inl rfl
        · exact .inr ⟨other, List.mem_cons_of_mem _ hother, hc⟩

theorem alphanumeric_ascii {c : Char} (h : isAsciiAlphanumeric c = true) : c.toNat < 128 := by
  have hle : ∀ d : Char, c ≤ d → c.toNat ≤ d.toNat := fun d hd => hd
  simp only [isAsciiAlphanumeric, Bool.or_eq_true, Bool.and_eq_true, decide_eq_true_eq] at h
  rcases h with (⟨-, h⟩ | ⟨-, h⟩) | ⟨-, h⟩
  · exact Nat.lt_of_le_of_lt (hle 'z' h) (by decide)
  · exact Nat.lt_of_le_of_lt (hle 'Z' h) (by decide)
  · exact Nat.lt_of_le_of_lt (hle '9' h) (by decide)

section Suffix

variable {a : NormalizedAnnotation} {n : Nat}

theorem isDirectiveChar_of_key {value : List Char} (h : isKey value = true) {c : Char}
    (hc : c ∈ value) : isDirectiveChar c = true := by
  rw [isDirectiveChar, Bool.or_eq_true, decide_eq_true_eq]
  rcases isKey_mem h hc with h | h
  · exact .inl h
  · simp only [List.mem_cons, List.not_mem_nil, or_false] at h ⊢
    tauto

theorem directives_mem (hwf : WellFormed n a) {directive : List Char}
    (h : directive ∈ directives a) {c : Char} (hc : c ∈ directive) : isDirectiveChar c = true := by
  have hall : ∀ text : List Char, text.all isDirectiveChar = true → c ∈ text →
      isDirectiveChar c = true := fun text htext => List.all_eq_true.mp htext c
  simp only [directives, List.mem_cons, List.mem_append, List.not_mem_nil, or_false] at h
  rcases h with rfl | rfl | h | rfl
  · exact hall _ (by decide) hc
  · rcases List.mem_append.mp hc with hc | hc
    · exact hall _ (by decide) hc
    · cases hr : a.role <;> rw [hr] at hc <;> exact hall _ (by decide) hc
  · cases hk : a.key with
    | none =>
      rw [hk] at h
      cases h
    | some key =>
      rw [hk, keyDirectives, List.mem_singleton] at h
      subst h
      rcases List.mem_append.mp hc with hc | hc
      · exact hall _ (by decide) hc
      · exact isDirectiveChar_of_key (hwf.key key hk) hc
  · rcases List.mem_append.mp hc with hc | hc
    · exact hall _ (by decide) hc
    · rcases mem_intercalate hc with rfl | ⟨part, hpart, hc⟩
      · decide
      · obtain ⟨target, htarget, rfl⟩ := List.mem_map.mp hpart
        exact isDirectiveChar_of_key (hwf.targets target htarget) hc

theorem splitOn_directives (hwf : WellFormed n a) :
    ([';'].intercalate (directives a)).splitOn ';' = directives a := by
  refine List.splitOn_intercalate ';' (fun directive hd hc => ?_) (List.cons_ne_nil _ _)
  exact absurd (directives_mem hwf hd hc) (by decide)

theorem nameSuffix_tail (a : NormalizedAnnotation) : nameSuffix a =
    ' ' :: ("[onshape-export:".toList ++ ([';'].intercalate (directives a) ++ [']'])) := rfl

theorem tail_mem (hwf : WellFormed n a) {c : Char} (hc : c ∈ (nameSuffix a).tail) :
    isSuffixChar c = true ∧ c ≠ ' ' := by
  rw [nameSuffix_tail, List.tail_cons] at hc
  have hdirective : isDirectiveChar c = true → isSuffixChar c = true ∧ c ≠ ' ' := by
    intro h
    refine ⟨by rw [isSuffixChar, h, Bool.true_or], ?_⟩
    rintro rfl
    exact absurd h (by decide)
  rcases List.mem_append.mp hc with hc | hc
  · have hall : ("[onshape-export:".toList.all fun c => isSuffixChar c && c ≠ ' ') = true := by decide
    have := List.all_eq_true.mp hall c hc
    rwa [Bool.and_eq_true, decide_eq_true_eq] at this
  · rcases List.mem_append.mp hc with hc | hc
    · rcases mem_intercalate hc with rfl | ⟨directive, hd, hc⟩
      · decide
      · exact hdirective (directives_mem hwf hd hc)
    · rw [List.mem_singleton] at hc
      subst hc
      decide

theorem nameSuffix_mem (hwf : WellFormed n a) {c : Char} (hc : c ∈ nameSuffix a) :
    isSuffixChar c = true := by
  rw [nameSuffix_tail] at hc
  rcases List.mem_cons.mp hc with rfl | hc
  · decide
  · exact (tail_mem hwf (by rw [nameSuffix_tail]; exact hc)).1

theorem isSuffixChar_ascii {c : Char} (h : isSuffixChar c = true) : c.toNat < 128 ∧ c ≠ '%' := by
  constructor
  · simp only [isSuffixChar, isDirectiveChar, Bool.or_eq_true, decide_eq_true_eq, List.mem_cons,
      List.not_mem_nil, or_false] at h
    rcases h with (h | h) | h
    · exact alphanumeric_ascii h
    · rcases h with rfl | rfl | rfl | rfl | rfl <;> decide
    · rcases h with rfl | rfl | rfl | rfl | rfl <;> decide
  · rintro rfl
    exact absurd h (by decide)

/-- No marker begins after the first character of a suffix. -/
theorem marker_last (hwf : WellFormed n a) : ¬ nameMarkerPrefix.toList <:+: (nameSuffix a).tail := by
  intro h
  have hblank : ' ' ∈ nameMarkerPrefix.toList := by decide
  exact (tail_mem hwf (h.subset hblank)).2 rfl

theorem rfind_formatName (hwf : WellFormed n a) (displayName : String) :
    rfind nameMarkerPrefix.toList (formatName displayName a).toList =
      some (displayName.toList, nameSuffix a) :=
  (rfind_eq_some (by decide)).mpr
    ⟨toList_formatName displayName a, List.prefix_append _ _, marker_last hwf⟩

theorem nameSuffix_getLast (a : NormalizedAnnotation) : (nameSuffix a).getLast? = some ']' := by
  rw [nameSuffix, ← List.append_assoc, List.getLast?_concat]

theorem nameSuffix_body (a : NormalizedAnnotation) :
    ((nameSuffix a).drop nameMarkerPrefix.toList.length).dropLast =
      [';'].intercalate (directives a) := by
  rw [nameSuffix, List.drop_left, List.dropLast_concat]

end Suffix

/-! ## Names -/

/-- A name that ends in an annotation. -/
structure Annotated (name displayName : String) (a : NormalizedAnnotation) : Prop where
  whole : isDisplayName name = true
  display : isDisplayName displayName = true
  wellFormed : WellFormed maxNameTargets a
  length : (nameSuffix a).length ≤ maxNameSuffixBytes
  text : name = formatName displayName a

/-- The text from the last marker on closes a bracket, and not at its end. -/
def ClosedBefore (text : List Char) : Prop :=
  ∃ before found, text = before ++ found ∧ nameMarkerPrefix.toList <+: found ∧
    ¬ nameMarkerPrefix.toList <:+: found.tail ∧ ']' ∈ found ∧ found.getLast? ≠ some ']'

/-- A name without an annotation. -/
structure Plain (name : String) : Prop where
  whole : isDisplayName name = true
  text : ¬ nameMarkerPrefix.toList <:+: name.toList ∨ ClosedBefore name.toList

theorem marker_ne_nil : nameMarkerPrefix.toList ≠ [] := by decide

/-- What stands between a marker and the last bracket. -/
theorem suffix_of_body {found body : List Char} (hpre : nameMarkerPrefix.toList <+: found)
    (hlast : found.getLast? = some ']')
    (hbody : (found.drop nameMarkerPrefix.toList.length).dropLast = body) :
    found = nameMarkerPrefix.toList ++ (body ++ [']']) := by
  obtain ⟨rest, rfl⟩ := hpre
  rw [List.drop_left] at hbody
  cases hr : rest.getLast? with
  | none =>
    rw [List.getLast?_append, hr] at hlast
    exact absurd hlast (by decide)
  | some c =>
    rw [List.getLast?_append, hr, Option.some_or, Option.some.injEq] at hlast
    subst hlast
    rw [← hbody, List.append_right_inj]
    exact (List.dropLast_append_getLast? _ hr).symm

theorem parseNameAnnotation_some {name displayName : String} {a : NormalizedAnnotation} :
    parseNameAnnotation name = .ok (displayName, some a) ↔ Annotated name displayName a := by
  constructor
  · intro h
    obtain ⟨hname, h⟩ := seq_ok.mp h
    split at h
    · cases h
    · rename_i before found hr
      obtain ⟨htext, hpre, -⟩ := (rfind_eq_some marker_ne_nil).mp hr
      split at h
      · cases h
      · obtain ⟨-, h⟩ := seq_ok.mp h
        obtain ⟨hlength, h⟩ := seq_ok.mp h
        obtain ⟨-, h⟩ := seq_ok.mp h
        obtain ⟨hlast, h⟩ := seq_ok.mp h
        obtain ⟨read, hdirectives, h⟩ := bind_ok.mp h
        obtain ⟨hvalid, h⟩ := seq_ok.mp h
        obtain ⟨hdisplay, h⟩ := seq_ok.mp h
        cases h
        have hwf := validateAnnotation_ok.mp hvalid
        have hbody := (parseDirectives_ok hwf).mp hdirectives
        have hsuffix : found = nameSuffix a := by
          refine suffix_of_body hpre (require_ok.mp hlast) ?_
          rw [← hbody]
          exact (List.intercalate_splitOn ';').symm
        exact {
          whole := validateDisplayName_ok.mp hname
          display := validateDisplayName_ok.mp hdisplay
          wellFormed := hwf
          length := by rw [← hsuffix]; exact require_ok.mp hlength
          text := by
            rw [← String.toList_inj, toList_formatName, String.toList_ofList, ← hsuffix, htext] }
  · intro h
    have hr := rfind_formatName h.wellFormed displayName
    rw [← h.text] at hr
    refine seq_ok.mpr ⟨validateDisplayName_ok.mpr h.whole, ?_⟩
    rw [hr]
    have hlast := nameSuffix_getLast a
    have hchars : ∀ c ∈ nameSuffix a, c.toNat < 128 ∧ c ≠ '%' :=
      fun c hc => isSuffixChar_ascii (nameSuffix_mem h.wellFormed hc)
    dsimp only
    rw [if_neg (by simp [hlast])]
    refine seq_ok.mpr ⟨require_ok.mpr fun c hc => (hchars c hc).1, ?_⟩
    refine seq_ok.mpr ⟨require_ok.mpr h.length, ?_⟩
    refine seq_ok.mpr ⟨require_ok.mpr fun hc => (hchars '%' hc).2 rfl, ?_⟩
    refine seq_ok.mpr ⟨require_ok.mpr hlast, ?_⟩
    rw [nameSuffix_body, splitOn_directives h.wellFormed]
    refine bind_ok.mpr ⟨a, (parseDirectives_ok h.wellFormed).mpr rfl, ?_⟩
    refine seq_ok.mpr ⟨validateAnnotation_ok.mpr h.wellFormed, ?_⟩
    rw [String.ofList_toList]
    exact seq_ok.mpr ⟨validateDisplayName_ok.mpr h.display, rfl⟩

theorem parseNameAnnotation_none {name displayName : String} :
    parseNameAnnotation name = .ok (displayName, none) ↔ displayName = name ∧ Plain name := by
  constructor
  · intro h
    obtain ⟨hname, h⟩ := seq_ok.mp h
    have hname := validateDisplayName_ok.mp hname
    split at h
    · rename_i hr
      cases h
      exact ⟨rfl, hname, .inl ((rfind_eq_none marker_ne_nil).mp hr)⟩
    · rename_i before found hr
      obtain ⟨htext, hpre, hlast⟩ := (rfind_eq_some marker_ne_nil).mp hr
      split at h
      · rename_i hclosed
        cases h
        simp only [Bool.not_eq_true', Bool.or_eq_false_iff, decide_eq_false_iff_not,
          not_not] at hclosed
        exact ⟨rfl, hname, .inr ⟨before, found, htext, hpre, hlast, hclosed.2, hclosed.1⟩⟩
      · obtain ⟨-, h⟩ := seq_ok.mp h
        obtain ⟨-, h⟩ := seq_ok.mp h
        obtain ⟨-, h⟩ := seq_ok.mp h
        obtain ⟨-, h⟩ := seq_ok.mp h
        obtain ⟨read, -, h⟩ := bind_ok.mp h
        obtain ⟨-, h⟩ := seq_ok.mp h
        obtain ⟨-, h⟩ := seq_ok.mp h
        cases h
  · rintro ⟨rfl, hname, htext⟩
    refine seq_ok.mpr ⟨validateDisplayName_ok.mpr hname, ?_⟩
    rcases htext with hnone | ⟨before, found, htext, hpre, hlast, hclosed, hopen⟩
    · rw [(rfind_eq_none marker_ne_nil).mpr hnone]
      rfl
    · rw [(rfind_eq_some marker_ne_nil).mpr ⟨htext, hpre, hlast⟩]
      dsimp only
      rw [if_pos (by simp [hclosed, hopen])]
      rfl

/-- A name is read as an annotation exactly when it is a display name, written as a display name
and the suffix of a well formed annotation; a name without a marker, or with one that is closed
before the end, is left as it is; any other name is refused; and what is written is read back. -/
theorem name_annotations :
    (∀ name displayName a, parseNameAnnotation name = .ok (displayName, some a) ↔
      Annotated name displayName a) ∧
    (∀ name displayName, parseNameAnnotation name = .ok (displayName, none) ↔
      displayName = name ∧ Plain name) ∧
    (∀ name, (∃ e, parseNameAnnotation name = .error e) ↔
      (¬ ∃ displayName a, Annotated name displayName a) ∧ ¬ Plain name) ∧
    ∀ displayName a, isDisplayName displayName = true → WellFormed maxNameTargets a →
      (nameSuffix a).length ≤ maxNameSuffixBytes → isDisplayName (formatName displayName a) = true →
      parseNameAnnotation (formatName displayName a) = .ok (displayName, some a) := by
  refine ⟨fun _ _ _ => parseNameAnnotation_some, fun _ _ => parseNameAnnotation_none,
    fun name => ?_, fun displayName a hdisplay hwf hlength hname =>
      parseNameAnnotation_some.mpr ⟨hname, hdisplay, hwf, hlength, rfl⟩⟩
  simp only [← parseNameAnnotation_some]
  have hplain : Plain name ↔ parseNameAnnotation name = .ok (name, none) := by
    rw [parseNameAnnotation_none, and_iff_right rfl]
  rw [hplain]
  constructor
  · rintro ⟨e, he⟩
    rw [he]
    exact ⟨nofun, nofun⟩
  · rintro ⟨hannotated, hnot⟩
    cases h : parseNameAnnotation name with
    | error e => exact ⟨e, rfl⟩
    | ok found =>
      obtain ⟨displayName, read⟩ := found
      cases read with
      | some a => exact absurd ⟨displayName, a, h⟩ hannotated
      | none =>
        obtain ⟨rfl, hp⟩ := parseNameAnnotation_none.mp h
        exact absurd h hnot

theorem isDisplayName_iff {value : String} : isDisplayName value = true ↔
    value.toList ≠ [] ∧ value.toList.length ≤ maxDisplayNameScalars ∧
      value.toList.all (!Protocol.isControl ·) = true := by
  rw [isDisplayName, Bool.and_eq_true, Bool.and_eq_true, decide_eq_true_eq, decide_eq_true_eq,
    and_assoc, ne_eq, ne_eq, String.toList_eq_nil_iff]

/-- A display name of full length leaves no room for a suffix: the whole name is one too. -/
theorem long_name_refused :
    ¬ ∀ name displayName a, parseNameAnnotation name = .ok (displayName, some a) ↔
      isDisplayName displayName = true ∧ WellFormed maxNameTargets a ∧
        (nameSuffix a).length ≤ maxNameSuffixBytes ∧ name = formatName displayName a := by
  intro h
  have hwf : WellFormed maxNameTargets ⟨.printable, none, []⟩ :=
    ⟨nofun, by decide, nofun, List.nodup_nil, iff_of_true rfl rfl⟩
  have hdisplay : isDisplayName (String.ofList (List.replicate 256 'a')) = true := by
    rw [isDisplayName_iff, String.toList_ofList]
    refine ⟨List.ne_nil_of_length_pos ?_, le_of_eq List.length_replicate, ?_⟩
    · rw [List.length_replicate]
      decide
    · rw [List.all_replicate]
      decide
  have hread := (h _ _ _).mpr ⟨hdisplay, hwf, by decide, rfl⟩
  have hlength := (isDisplayName_iff.mp (parseNameAnnotation_some.mp hread).whole).2.1
  rw [toList_formatName, String.toList_ofList, List.length_append, List.length_replicate,
    nameSuffix_tail, List.length_cons, maxDisplayNameScalars] at hlength
  omega

end Annotation
end OnshapeExport
