import OnshapeExport.Lib.PercentEncoding
import Mathlib.Data.List.Basic

/-!
# Lib.UrlPaths

How a client finds what a relative reference names: the reference takes the place of the last
segment of the address it stands at, dot segments are taken away, and escapes are read. Addresses
are compared by the bytes of their segments.

* `percentDecode` — every escape read, and everything else as its UTF-8 bytes.
* `resolve`, `locate` — what a reference names from an address, and what an address names.
* `percentDecode_encode`, `percentDecode_plain` — encoded segments and texts without escapes.
* `splitOn_utf8Bytes` — the segments of a text are the segments of its bytes.
* `resolve_sibling` — a reference names what the address with its last segment replaced does.
-/

namespace UrlPaths

open Percent

/-- The UTF-8 bytes of a text. -/
def utf8Bytes (cs : List Char) : List UInt8 := cs.flatMap String.utf8EncodeChar

/-- The value of a hexadecimal digit, in either case. -/
def hexNumber (c : Char) : Option Nat :=
  let n := c.toNat
  if 48 ≤ n ∧ n ≤ 57 then some (n - 48)
  else if 65 ≤ n ∧ n ≤ 70 then some (n - 55)
  else if 97 ≤ n ∧ n ≤ 102 then some (n - 87)
  else none

/-- A `%` that no two digits follow stands for itself. -/
def percentDecode : List Char → List UInt8
  | [] => []
  | '%' :: hi :: lo :: rest =>
    match hexNumber hi, hexNumber lo with
    | some h, some l => UInt8.ofNat (16 * h + l) :: percentDecode rest
    | _, _ => 37 :: percentDecode (hi :: lo :: rest)
  | c :: rest => String.utf8EncodeChar c ++ percentDecode rest

def segments (bytes : List UInt8) : List (List UInt8) := bytes.splitOn 47

/-- How many leading segments are no part of a path: those of a scheme and a host, or the empty one
before the first slash. -/
def rootLength : List (List UInt8) → Nat
  | _ :: [] :: _ => 3
  | _ => 1

/-- Dot segments are taken away; above the root there is nothing to leave. -/
def removeDots (root : Nat) (out : List (List UInt8)) : List (List UInt8) → List (List UInt8)
  | [] => out
  | segment :: rest =>
    let last := if rest = [] then [[]] else []
    if segment = [46] then removeDots root (out ++ last) rest
    else if segment = [46, 46] then
      removeDots root ((if root < out.length then out.dropLast else out) ++ last) rest
    else removeDots root (out ++ [segment]) rest

def normalize (path : List (List UInt8)) : List (List UInt8) := removeDots (rootLength path) [] path

def isSchemeChar (c : Char) : Bool := c.isAlpha || c.isDigit || c = '+' || c = '-' || c = '.'

def schemeEnds : List Char → Bool
  | [] => false
  | c :: rest => c = ':' || isSchemeChar c && schemeEnds rest

/-- A reference with a scheme is an address of its own. -/
def hasScheme : List Char → Bool
  | [] => false
  | c :: rest => c.isAlpha && schemeEnds rest

/-- A path that starts at the address it stands at: no scheme, no leading slash, and neither a query
nor a fragment. -/
def isRelativePath (reference : List Char) : Bool :=
  !hasScheme reference && reference.head? ≠ some '/' && '?' ∉ reference && '#' ∉ reference

/-- What an address names. -/
def locate (url : List Char) : List (List UInt8) := normalize (segments (percentDecode url))

/-- What a reference names from an address, when it is relative to it. -/
def resolve (url reference : List Char) : Option (List (List UInt8)) :=
  if isRelativePath reference then
    some (normalize ((segments (percentDecode url)).dropLast ++ segments (percentDecode reference)))
  else none

/-! ## Bytes of a text -/

@[simp] theorem utf8Bytes_nil : utf8Bytes [] = [] := rfl

@[simp] theorem utf8Bytes_cons (c : Char) (cs : List Char) :
    utf8Bytes (c :: cs) = String.utf8EncodeChar c ++ utf8Bytes cs := rfl

@[simp] theorem utf8Bytes_append (cs cs' : List Char) :
    utf8Bytes (cs ++ cs') = utf8Bytes cs ++ utf8Bytes cs' := List.flatMap_append

/-- They are the bytes of the string. -/
theorem utf8Bytes_toList (s : String) : s.toByteArray.data.toList = utf8Bytes s.toList := by
  rw [← String.utf8Encode_toList, List.utf8Encode]
  exact List.toList_data_toByteArray

theorem utf8EncodeChar_ascii {c : Char} (h : c.toNat < 128) :
    String.utf8EncodeChar c = [UInt8.ofNat c.toNat] := by
  have hle : c.val.toNat ≤ 127 := Nat.le_of_lt_succ h
  rw [String.utf8EncodeChar, if_pos hle]
  rfl

/-- A byte below 128 is the character of that number. -/
theorem ascii_of_mem_utf8EncodeChar {c : Char} {b : UInt8} (hb : b.toNat < 128)
    (h : b ∈ String.utf8EncodeChar c) : c.toNat = b.toNat := by
  by_cases hc : c.toNat < 128
  · rw [utf8EncodeChar_ascii hc, List.mem_singleton] at h
    rw [h, UInt8.toNat_ofNat']
    omega
  · -- every byte of a longer encoding has its highest bit set
    exfalso
    have hle : ¬ c.val.toNat ≤ 127 := fun h => hc (Nat.lt_succ_of_le h)
    simp only [String.utf8EncodeChar, if_neg hle] at h
    split at h
    · simp only [List.mem_cons, List.not_mem_nil, or_false] at h
      rcases h with h | h <;> rw [h, UInt8.toNat_ofNat'] at hb <;> omega
    · split at h
      · simp only [List.mem_cons, List.not_mem_nil, or_false] at h
        rcases h with h | h | h <;> rw [h, UInt8.toNat_ofNat'] at hb <;> omega
      · simp only [List.mem_cons, List.not_mem_nil, or_false] at h
        rcases h with h | h | h | h <;> rw [h, UInt8.toNat_ofNat'] at hb <;> omega

/-- An ASCII byte of a text is one of its characters. -/
theorem mem_of_mem_utf8Bytes {c : Char} (hc : c.toNat < 128) {cs : List Char}
    (h : UInt8.ofNat c.toNat ∈ utf8Bytes cs) : c ∈ cs := by
  obtain ⟨d, hd, hmem⟩ := List.mem_flatMap.mp h
  have hbyte : (UInt8.ofNat c.toNat).toNat = c.toNat := by
    rw [UInt8.toNat_ofNat']
    omega
  have heq : d.toNat = c.toNat := by
    have hvalue := ascii_of_mem_utf8EncodeChar (by omega) hmem
    rwa [hbyte] at hvalue
  rwa [← Char.toNat_inj.mp heq]

/-- Texts with the same bytes are the same. -/
theorem utf8Bytes_inj {cs cs' : List Char} (h : utf8Bytes cs = utf8Bytes cs') : cs = cs' := by
  have hbytes : (String.ofList cs).toByteArray = (String.ofList cs').toByteArray := by
    refine ByteArray.ext (Array.toList_inj.mp ?_)
    rw [utf8Bytes_toList, utf8Bytes_toList, String.toList_ofList, String.toList_ofList, h]
  exact String.ofList_injective (String.toByteArray_inj.mp hbytes)

/-! ## Segments of a text -/

theorem intercalate_cons_cons {α : Type} (sep a b : List α) (l : List (List α)) :
    sep.intercalate (a :: b :: l) = a ++ (sep ++ sep.intercalate (b :: l)) := by
  simp [List.intercalate]

theorem utf8Bytes_intercalate (parts : List (List Char)) :
    utf8Bytes (['/'].intercalate parts) = [47].intercalate (parts.map utf8Bytes) := by
  induction parts with
  | nil => rfl
  | cons part parts ih =>
    cases parts with
    | nil => simp [List.intercalate]
    | cons next parts =>
      rw [List.map_cons, List.map_cons, intercalate_cons_cons, intercalate_cons_cons,
        utf8Bytes_append, utf8Bytes_append, ih]
      rfl

theorem not_mem_of_mem_splitOn {α : Type} [DecidableEq α] {a : α} {l part : List α}
    (h : part ∈ l.splitOn a) : a ∉ part := by
  induction l generalizing part with
  | nil =>
    rw [List.splitOn_nil, List.mem_singleton] at h
    rw [h]
    exact List.not_mem_nil
  | cons x l ih =>
    obtain ⟨first, rest, hsplit⟩ := List.exists_cons_of_ne_nil (List.splitOn_ne_nil a l)
    rw [List.splitOn_cons_eq_if_modifyHead, hsplit] at h
    rw [hsplit] at ih
    split at h
    · rcases List.mem_cons.mp h with rfl | h
      · exact List.not_mem_nil
      · exact ih h
    · rename_i hne
      rcases List.mem_cons.mp h with rfl | h
      · rw [List.mem_cons, not_or]
        exact ⟨fun heq => hne (beq_iff_eq.mpr heq.symm), ih List.mem_cons_self⟩
      · exact ih (List.mem_cons_of_mem _ h)

theorem splitOn_utf8Bytes (cs : List Char) :
    (utf8Bytes cs).splitOn 47 = (cs.splitOn '/').map utf8Bytes := by
  have hparts := utf8Bytes_intercalate (cs.splitOn '/')
  rw [List.intercalate_splitOn] at hparts
  rw [hparts]
  refine List.splitOn_intercalate 47 (fun bytes hbytes => ?_) ?_
  · obtain ⟨part, hpart, rfl⟩ := List.mem_map.mp hbytes
    intro hmem
    exact not_mem_of_mem_splitOn hpart (mem_of_mem_utf8Bytes (c := '/') (by decide) hmem)
  · intro hnil
    exact List.splitOn_ne_nil '/' cs (List.map_eq_nil_iff.mp hnil)

/-! ## Reading escapes -/

theorem hexNumber_slash : hexNumber '/' = none := rfl

theorem hexNumber_hexDigit {n : Nat} (h : n < 16) : hexNumber (hexDigit n) = some n := by
  interval_cases n <;> rfl

theorem percentDecode_cons {c : Char} (hc : c ≠ '%') (rest : List Char) :
    percentDecode (c :: rest) = String.utf8EncodeChar c ++ percentDecode rest := by
  rw [percentDecode]
  intro hi lo tail heq
  exact absurd heq hc

theorem percentDecode_plain {cs : List Char} (h : '%' ∉ cs) : percentDecode cs = utf8Bytes cs := by
  induction cs with
  | nil => rfl
  | cons c cs ih =>
    rw [List.mem_cons, not_or] at h
    rw [percentDecode_cons (Ne.symm h.1), ih h.2, utf8Bytes_cons]

/-- Without two digits after it a percent sign stands for itself. -/
theorem percentDecode_literal {hi lo : Char} (h : hexNumber hi = none ∨ hexNumber lo = none)
    (rest : List Char) :
    percentDecode ('%' :: hi :: lo :: rest) = 37 :: percentDecode (hi :: lo :: rest) := by
  rw [percentDecode]
  rcases h with h | h
  · rw [h]
  · rw [h]
    cases hexNumber hi <;> rfl

theorem percentDecode_slash (y : List Char) :
    percentDecode ('/' :: y) = 47 :: percentDecode y := percentDecode_cons (by decide) y

theorem percentDecode_percent_slash (y : List Char) :
    percentDecode ('%' :: '/' :: y) = 37 :: 47 :: percentDecode y := by
  cases y with
  | nil => rfl
  | cons c y => rw [percentDecode_literal (.inl hexNumber_slash), percentDecode_slash]

/-- No escape reaches over a slash. -/
theorem percentDecode_append_slash (x y : List Char) :
    percentDecode (x ++ '/' :: y) = percentDecode x ++ 47 :: percentDecode y := by
  induction x using percentDecode.induct with
  | case1 => exact percentDecode_slash y
  | case2 hi lo rest h l hh hl ih =>
    simp only [List.cons_append, percentDecode, hh, hl, ih]
  | case3 hi lo rest hnone ih =>
    have hliteral : hexNumber hi = none ∨ hexNumber lo = none := by
      cases hh : hexNumber hi with
      | none => exact .inl rfl
      | some h =>
        cases hl : hexNumber lo with
        | none => exact .inr rfl
        | some l => exact absurd hl (hnone h l hh)
    rw [percentDecode_literal hliteral, List.cons_append, List.cons_append, List.cons_append,
      percentDecode_literal hliteral, ← List.cons_append, ← List.cons_append, ih]
    rfl
  | case4 c rest hother ih =>
    by_cases hc : c = '%'
    · -- fewer than two characters follow, and the slash is no digit
      subst hc
      match rest, hother, ih with
      | [], _, _ => exact percentDecode_percent_slash y
      | [hi], _, ih =>
        rw [List.cons_append, List.cons_append, List.nil_append,
          percentDecode_literal (.inr hexNumber_slash)]
        exact congrArg (37 :: ·) ih
      | hi :: lo :: rest, hother, _ => exact absurd rfl (hother hi lo rest rfl)
    · rw [List.cons_append, percentDecode_cons hc, percentDecode_cons hc, ih, List.append_assoc]

theorem percentDecode_intercalate (parts : List (List Char)) :
    percentDecode (['/'].intercalate parts) = [47].intercalate (parts.map percentDecode) := by
  induction parts with
  | nil => rfl
  | cons part parts ih =>
    cases parts with
    | nil => simp [List.intercalate]
    | cons next parts =>
      rw [List.map_cons, List.map_cons, intercalate_cons_cons, intercalate_cons_cons,
        List.singleton_append, percentDecode_append_slash, ih]
      rfl

theorem percentDecode_triplet (b : UInt8) (rest : List Char) :
    percentDecode (triplet b ++ rest) = b :: percentDecode rest := by
  have hb : b.toNat < 256 := b.toNat_lt
  have hhi := hexNumber_hexDigit (show b.toNat / 16 < 16 by omega)
  have hlo := hexNumber_hexDigit (show b.toNat % 16 < 16 by omega)
  have hbyte : UInt8.ofNat (16 * (b.toNat / 16) + b.toNat % 16) = b := by
    rw [Nat.div_add_mod, UInt8.ofNat_toNat]
  simp only [triplet, List.cons_append, List.nil_append, percentDecode, hhi, hlo, hbyte]

/-- Encoded bytes come back, whichever unreserved bytes are kept. -/
theorem percentDecode_encode {keep : UInt8 → Bool}
    (hkeep : ∀ b, keep b = true → isUnreserved b.toNat = true) (bytes : List UInt8) :
    percentDecode (encode keep bytes) = bytes := by
  induction bytes with
  | nil => rfl
  | cons b bytes ih =>
    rw [encode_cons]
    rcases encodeByte_cases hkeep b with ⟨c, hc, htoNat, hunreserved⟩ | htriplet
    · obtain ⟨hlt, hne⟩ := unreserved_lt hunreserved
      have hpercent : c ≠ '%' := by
        rintro rfl
        exact hne htoNat.symm
      rw [hc, List.singleton_append, percentDecode_cons hpercent,
        utf8EncodeChar_ascii (by omega), ih, htoNat, UInt8.ofNat_toNat]
      rfl
    · rw [htriplet, percentDecode_triplet, ih]

/-! ## References -/

/-- The address of something beside what a reference stands in is where the reference leads. -/
theorem resolve_sibling {url reference target : List Char} (hrelative : isRelativePath reference)
    (h : segments (percentDecode target) =
      (segments (percentDecode url)).dropLast ++ segments (percentDecode reference)) :
    resolve url reference = some (locate target) := by
  rw [resolve, if_pos hrelative, locate, h]

theorem schemeEnds_append {scheme rest : List Char} (h : ∀ c ∈ scheme, isSchemeChar c = true) :
    schemeEnds (scheme ++ ':' :: rest) = true := by
  induction scheme with
  | nil => rfl
  | cons c scheme ih =>
    obtain ⟨hc, hscheme⟩ := List.forall_mem_cons.mp h
    rw [List.cons_append, schemeEnds, hc, ih hscheme]
    simp

end UrlPaths
