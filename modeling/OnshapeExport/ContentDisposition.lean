import OnshapeExport.Lib.Transducer
import OnshapeExport.Lib.UrlPaths
import OnshapeExport.NumberText

/-!
# ContentDisposition

The file name that Onshape gives a download, as `onshape.rs` takes it out of the headers of the
answer.

* `splitHeaderParameters`, `unquoteHeaderValue`, `decodeRfc8187Filename` — the parts of a header.
* `downloadFilename` — the encoded name if it can be decoded, else the plain one.
* `HeaderText` — the headers that are well formed, and the parameters they say.
* `contentDispositionParameters_text` — these are the parameters that are read.
* `downloadFilename_text` — and so the name that was sent is the name that is kept.
-/

namespace OnshapeExport
namespace Downloads

open Catalogs (isWhiteSpace)
open Parameters Transducer
open UrlPaths (utf8Bytes)

/-! ## Headers -/

/-- The headers of an answer in their order, by names in small letters. -/
abbrev HeaderMap := List (String × List UInt8)

def HeaderMap.get (headers : HeaderMap) (name : String) : Option (List UInt8) :=
  headers.lookup name

def isVisibleAscii (byte : UInt8) : Bool := 32 ≤ byte && byte < 127 || byte == 9

def toStr (value : List UInt8) : Option (List Char) :=
  if value.all isVisibleAscii then some (value.map fun byte => Char.ofNat byte.toNat) else none

/-! ## Parameters -/

structure Scan where
  current : List Char
  quoted : Bool
  escaped : Bool

def Scan.push (s : Scan) (ch : Char) : Scan := { s with current := s.current ++ [ch] }

def scanStep (s : Scan) (ch : Char) : Scan × List (List Char) :=
  if s.escaped then ({ s.push ch with escaped := false }, [])
  else if ch = '\\' ∧ s.quoted = true then ({ s.push ch with escaped := true }, [])
  else if ch = '"' then ({ s.push ch with quoted := !s.quoted }, [])
  else if ch = ';' ∧ s.quoted = false then ({ s with current := [] }, [trim s.current])
  else (s.push ch, [])

def splitHeaderParameters (value : List Char) : List (List Char) :=
  let (s, parts) := run scanStep ⟨[], false, false⟩ value
  parts ++ [trim s.current]

/-- The rest of a quoted text without its escapes; `true` says that a backslash came before. -/
def unescape : Bool → List Char → List Char
  | _, [] => []
  | true, ch :: rest => ch :: unescape false rest
  | false, ch :: rest => if ch = '\\' then unescape true rest else ch :: unescape false rest

def unquoteHeaderValue (value : List Char) : List Char :=
  match value with
  | '"' :: rest => if rest.getLast? = some '"' then unescape false rest.dropLast else value
  | _ => value

def splitOnce (separator : Char) (value : List Char) : Option (List Char × List Char) :=
  match value.dropWhile (· ≠ separator) with
  | [] => none
  | _ :: rest => some (value.takeWhile (· ≠ separator), rest)

def parameterOf (part : List Char) : Option (List Char × List Char) :=
  (splitOnce '=' (trim part)).map fun (name, value) => (trim name, unquoteHeaderValue (trim value))

def contentDispositionParameters (value : List Char) : List (List Char × List Char) :=
  ((splitHeaderParameters value).drop 1).filterMap parameterOf

/-! ## Names -/

def hexNibble (byte : UInt8) : Option UInt8 :=
  if 48 ≤ byte ∧ byte ≤ 57 then some (byte - 48)
  else if 97 ≤ byte ∧ byte ≤ 102 then some (byte - 97 + 10)
  else if 65 ≤ byte ∧ byte ≤ 70 then some (byte - 65 + 10)
  else none

/-- A percent sign before the last two bytes is kept. -/
def percentDecodeBytes : List UInt8 → Option (List UInt8)
  | byte :: hi :: lo :: rest =>
    if byte = 37 then do
      let high ← hexNibble hi
      let low ← hexNibble lo
      let decoded ← percentDecodeBytes rest
      return ((high <<< 4) ||| low) :: decoded
    else (percentDecodeBytes (hi :: lo :: rest)).map (byte :: ·)
  | bytes => some bytes

def percentDecode (value : List Char) : Option (List Char) :=
  (percentDecodeBytes (utf8Bytes value)).bind fun decoded =>
    (String.fromUTF8? ⟨decoded.toArray⟩).map String.toList

def eqIgnoreAsciiCase (a b : List Char) : Bool := a.map Char.toLower = b.map Char.toLower

/-- What stands before the first two single quotes, and after them. -/
def splitQuotes : List Char → Option (List Char × List Char)
  | '\'' :: '\'' :: rest => some ([], rest)
  | ch :: rest => (splitQuotes rest).map fun (before, after) => (ch :: before, after)
  | [] => none

def decodeRfc8187Filename (value : List Char) : Option (List Char) :=
  (splitQuotes value).bind fun (charset, rest) =>
    if eqIgnoreAsciiCase charset "UTF-8".toList then percentDecode rest else none

/-- The first parameter of the name that has a value. -/
def parameterNamed (name : String) (parameters : List (List Char × List Char)) :
    Option (List Char) :=
  (parameters.find? fun p => eqIgnoreAsciiCase p.1 name.toList && p.2 ≠ []).map Prod.snd

def contentDispositionFilename (value : List Char) : Option (List Char) :=
  parameterNamed "filename" (contentDispositionParameters value)

def contentDispositionFilenameStar (value : List Char) : Option (List Char) :=
  (parameterNamed "filename*" (contentDispositionParameters value)).bind decodeRfc8187Filename

/-- The name, and where it is from. -/
def downloadFilename (headers : HeaderMap) : Option String × Option String :=
  match (headers.get "content-disposition").bind toStr with
  | none => (none, none)
  | some value =>
    match contentDispositionFilenameStar value with
    | some filename => (some (String.ofList filename), some "content-disposition-filename*")
    | none =>
      match contentDispositionFilename value with
      | some filename => (some (String.ofList filename), some "content-disposition")
      | none => (none, none)

example : downloadFilename [("content-disposition",
    "attachment; filename=\"fallback.zip\"; filename*=UTF-8''model%20space.zip".toUTF8.toList)] =
    (some "model space.zip", some "content-disposition-filename*") := by decide +kernel

/-! ## The grammar -/

/-- What stands between quotes, and what it says without its escapes. -/
inductive QuotedText : List Char → List Char → Prop
  | nil : QuotedText [] []
  | plain {ch : Char} {text value : List Char} (hquote : ch ≠ '"') (hescape : ch ≠ '\\')
      (hrest : QuotedText text value) : QuotedText (ch :: text) (ch :: value)
  | escaped {ch : Char} {text value : List Char} (hrest : QuotedText text value) :
      QuotedText ('\\' :: ch :: text) (ch :: value)

/-- No quotes and no semicolons, and no white space around. -/
structure Plain (text : List Char) : Prop where
  trimmed : Trimmed text
  quote : '"' ∉ text
  semicolon : ';' ∉ text

inductive ValueText : List Char → List Char → Prop
  | plain {text : List Char} (h : Plain text) : ValueText text text
  | quoted {text value : List Char} (h : QuotedText text value) :
      ValueText ('"' :: (text ++ ['"'])) value

/-- A parameter, with its name and its value. -/
inductive ParameterText : List Char → List Char × List Char → Prop
  | mk {before name between after text value behind : List Char} (hbefore : Blank before)
      (hname : Plain name) (hequals : '=' ∉ name) (hbetween : Blank between)
      (hafter : Blank after) (hvalue : ValueText text value) (hbehind : Blank behind) :
      ParameterText (before ++ (name ++ between) ++ '=' :: (after ++ (text ++ behind))) (name, value)

/-- The disposition, and its parameters. -/
inductive HeaderText : List Char → List (List Char × List Char) → Prop
  | disposition {text : List Char} (hquote : '"' ∉ text) (hsemicolon : ';' ∉ text) :
      HeaderText text []
  | parameter {header text : List Char} {parameters : List (List Char × List Char)}
      {parameter : List Char × List Char} (h : HeaderText header parameters)
      (hparameter : ParameterText text parameter) :
      HeaderText (header ++ ';' :: text) (parameters ++ [parameter])

/-! ## Scanning -/

section Scanning

variable {cur text value : List Char}

theorem reads_unquoted (cur : List Char) (hquote : '"' ∉ text) (hsemicolon : ';' ∉ text) :
    Reads scanStep ⟨cur, false, false⟩ text ⟨cur ++ text, false, false⟩ [] := by
  refine reads_added (fun cur => Scan.mk cur false false) (fun cur ch hch => ?_) cur
  have hne : ch ≠ '"' := fun h => hquote (h ▸ hch)
  have hne' : ch ≠ ';' := fun h => hsemicolon (h ▸ hch)
  simp [scanStep, Scan.push, hne, hne']

theorem reads_blank (cur : List Char) (h : Blank text) :
    Reads scanStep ⟨cur, false, false⟩ text ⟨cur ++ text, false, false⟩ [] := by
  refine reads_unquoted cur (fun hmem => ?_) fun hmem => ?_
  · exact absurd (h _ hmem) (by decide)
  · exact absurd (h _ hmem) (by decide)

/-- Between quotes, the escapes keep the closing quote away. -/
theorem reads_quoted (cur : List Char) (h : QuotedText text value) :
    Reads scanStep ⟨cur, true, false⟩ text ⟨cur ++ text, true, false⟩ [] := by
  induction h generalizing cur with
  | nil =>
    rw [List.append_nil]
    exact .nil
  | @plain ch text value hquote hescape _ ih =>
    have hstep : scanStep ⟨cur, true, false⟩ ch = (⟨cur ++ [ch], true, false⟩, []) := by
      simp [scanStep, Scan.push, hquote, hescape]
    have hrest := ih (cur ++ [ch])
    rw [List.append_assoc, List.singleton_append] at hrest
    exact .skip hstep hrest
  | @escaped ch text value _ ih =>
    have hbackslash : scanStep ⟨cur, true, false⟩ '\\' = (⟨cur ++ ['\\'], true, true⟩, []) := by
      simp [scanStep, Scan.push]
    have hstep : scanStep ⟨cur ++ ['\\'], true, true⟩ ch =
        (⟨cur ++ ['\\'] ++ [ch], true, false⟩, []) := by
      simp [scanStep, Scan.push]
    have hrest := ih (cur ++ ['\\'] ++ [ch])
    rw [List.append_assoc, List.append_assoc] at hrest
    exact .skip hbackslash (.skip hstep (by rw [List.append_assoc]; exact hrest))

theorem reads_value (cur : List Char) (h : ValueText text value) :
    Reads scanStep ⟨cur, false, false⟩ text ⟨cur ++ text, false, false⟩ [] := by
  cases h with
  | plain h => exact reads_unquoted cur h.quote h.semicolon
  | @quoted text _ h =>
    have hopen : scanStep ⟨cur, false, false⟩ '"' = (⟨cur ++ ['"'], true, false⟩, []) := by
      simp [scanStep, Scan.push]
    have hclose : scanStep ⟨cur ++ ['"'] ++ text, true, false⟩ '"' =
        (⟨cur ++ ['"'] ++ text ++ ['"'], false, false⟩, []) := by
      simp [scanStep, Scan.push]
    have hread := Reads.skip hopen ((reads_quoted (cur ++ ['"']) h).silently (.one hclose))
    simpa using hread

theorem reads_parameter (cur : List Char) {parameter : List Char × List Char}
    (h : ParameterText text parameter) :
    Reads scanStep ⟨cur, false, false⟩ text ⟨cur ++ text, false, false⟩ [] := by
  cases h with
  | @mk before name between after text value behind hbefore hname _ hbetween hafter hvalue
      hbehind =>
    have hequals : Reads scanStep ⟨cur ++ before ++ name ++ between, false, false⟩ ['=']
        ⟨cur ++ before ++ name ++ between ++ ['='], false, false⟩ [] :=
      reads_unquoted _ (by decide) (by decide)
    have hread := (reads_blank cur hbefore).silently ((reads_unquoted _ hname.quote
      hname.semicolon).silently ((reads_blank _ hbetween).silently (hequals.silently
      ((reads_blank _ hafter).silently ((reads_value _ hvalue).silently
        (reads_blank _ hbehind))))))
    simpa using hread

end Scanning

/-! ## What a part says -/

theorem unescape_quoted {text value : List Char} (h : QuotedText text value) :
    unescape false text = value := by
  induction h with
  | nil => rfl
  | plain _ hescape _ ih => rw [unescape, if_neg hescape, ih]
  | escaped _ ih => rw [unescape, if_pos rfl, unescape, ih]

theorem unquote_value {text value : List Char} (h : ValueText text value) :
    unquoteHeaderValue text = value := by
  cases h with
  | plain h =>
    cases text with
    | nil => rfl
    | cons ch text =>
      have hne : ch ≠ '"' := by
        rintro rfl
        exact h.quote List.mem_cons_self
      simp [unquoteHeaderValue, hne]
  | quoted h => simp [unquoteHeaderValue, unescape_quoted h]

theorem trimmed_value {text value : List Char} (h : ValueText text value) : Trimmed text := by
  cases h with
  | plain h => exact h.trimmed
  | quoted h =>
    refine ⟨fun ch hch => ?_, fun ch hch => ?_⟩
    · cases hch
      decide
    · rw [← List.cons_append, List.getLast?_append] at hch
      cases hch
      decide

theorem splitOnce_eq {separator : Char} {before after : List Char} (h : separator ∉ before) :
    splitOnce separator (before ++ separator :: after) = some (before, after) := by
  have hall : ∀ ch ∈ before, decide (ch ≠ separator) = true := by
    intro ch hch
    rw [decide_eq_true_eq]
    rintro rfl
    exact h hch
  unfold splitOnce
  rw [List.dropWhile_append_of_pos hall, List.takeWhile_append_of_pos hall]
  simp

theorem trim_dropWhile (cs : List Char) : trim (cs.dropWhile isWhiteSpace) = trim cs := by
  rw [trim, trim, List.dropWhile_idempotent]

theorem trim_rdropWhile (cs : List Char) : trim (cs.rdropWhile isWhiteSpace) = trim cs := by
  obtain ⟨before, after, hbefore, hafter, hsplit⟩ := trim_split (cs.rdropWhile isWhiteSpace)
  have hbehind : Blank (cs.rtakeWhile isWhiteSpace) := fun ch hch => List.mem_rtakeWhile_imp hch
  refine (((trim_eq_iff (trimmed_trim _)).mpr ⟨before, after ++ cs.rtakeWhile isWhiteSpace, hbefore,
    hafter.append hbehind, ?_⟩)).symm
  have hcs := (List.rdropWhile_append_rtakeWhile (p := isWhiteSpace) (l := cs)).symm
  rw [← List.append_assoc, ← List.append_assoc, List.append_assoc before, ← hsplit]
  exact hcs

/-- A character that is no white space keeps what is before it and behind it apart. -/
theorem trim_around {ch : Char} (h : isWhiteSpace ch = false) (before after : List Char) :
    trim (before ++ ch :: after) =
      before.dropWhile isWhiteSpace ++ ch :: after.rdropWhile isWhiteSpace := by
  have hdrop : (before ++ ch :: after).dropWhile isWhiteSpace =
      before.dropWhile isWhiteSpace ++ ch :: after := by
    rw [List.dropWhile_append, List.dropWhile_cons_of_neg (by simp [h])]
    split
    · rename_i hempty
      rw [List.isEmpty_iff.mp hempty, List.nil_append]
    · rfl
  have hafter := (List.rdropWhile_append_rtakeWhile (p := isWhiteSpace) (l := after)).symm
  rw [trim, hdrop]
  nth_rewrite 1 [hafter]
  rw [← List.cons_append, ← List.append_assoc]
  refine rdropWhile_append_right (fun c hc => List.mem_rtakeWhile_imp hc) fun c hc => ?_
  rw [List.getLast?_append, List.getLast?_cons] at hc
  cases hlast : (after.rdropWhile isWhiteSpace).getLast? with
  | none =>
    rw [hlast] at hc
    cases hc
    exact h
  | some d =>
    rw [hlast] at hc
    cases hc
    have hne : after.rdropWhile isWhiteSpace ≠ [] := by
      intro hnil
      rw [hnil] at hlast
      cases hlast
    have hnot := List.rdropWhile_last_not isWhiteSpace after hne
    rw [List.getLast?_eq_some_getLast hne, Option.some.injEq] at hlast
    rw [hlast] at hnot
    exact Bool.eq_false_iff.mpr hnot

theorem parameterOf_eq {before after : List Char} (h : '=' ∉ before) :
    parameterOf (before ++ '=' :: after) =
      some (trim before, unquoteHeaderValue (trim after)) := by
  have hname : '=' ∉ before.dropWhile isWhiteSpace := fun hmem =>
    h ((List.dropWhile_suffix isWhiteSpace).subset hmem)
  rw [parameterOf, trim_around (by decide), splitOnce_eq hname]
  simp only [Option.map_some, trim_dropWhile, trim_rdropWhile]

theorem parameterOf_text {text : List Char} {parameter : List Char × List Char}
    (h : ParameterText text parameter) : parameterOf text = some parameter := by
  cases h with
  | @mk before name between after text value behind hbefore hname hequals hbetween hafter hvalue
      hbehind =>
    have hnone : ∀ cs, Blank cs → '=' ∉ cs := by
      intro cs hblank hmem
      exact absurd (hblank _ hmem) (by decide)
    have hleft : '=' ∉ before ++ (name ++ between) := by
      simp only [List.mem_append, not_or]
      exact ⟨hnone _ hbefore, hequals, hnone _ hbetween⟩
    rw [parameterOf_eq hleft, trim_append hbefore hbetween hname.trimmed,
      trim_append hafter hbehind (trimmed_value hvalue), unquote_value hvalue]

/-! ## Headers as they are read -/

/-- The scanner stands after a whole number of parameters, the last of which it holds. -/
theorem reads_header {text : List Char} {parameters : List (List Char × List Char)}
    (h : HeaderText text parameters) : ∃ cur parts,
      Reads scanStep ⟨[], false, false⟩ text ⟨cur, false, false⟩ parts ∧
        ((parts ++ [trim cur]).drop 1).filterMap parameterOf = parameters := by
  induction h with
  | @disposition text hquote hsemicolon =>
    exact ⟨text, [], reads_unquoted [] hquote hsemicolon, rfl⟩
  | @parameter header text parameters parameter _ hparameter ih =>
    obtain ⟨cur, parts, hread, hparts⟩ := ih
    have hsemicolon : scanStep ⟨cur, false, false⟩ ';' = (⟨[], false, false⟩, [trim cur]) := by
      simp [scanStep]
    have hrest := (Reads.one hsemicolon).append (reads_parameter [] hparameter)
    refine ⟨text, parts ++ [trim cur], ?_, ?_⟩
    · simpa using hread.append hrest
    · have hdrop : (parts ++ [trim cur] ++ [trim text]).drop 1 =
          (parts ++ [trim cur]).drop 1 ++ [trim text] :=
        List.drop_append_of_le_length (by simp)
      have htrim : parameterOf (trim text) = parameterOf text := by
        rw [parameterOf, parameterOf, trim_trimmed (trimmed_trim text)]
      rw [hdrop, List.filterMap_append, hparts, List.filterMap_cons, htrim,
        parameterOf_text hparameter]
      rfl

/-- The parameters of a well-formed header are read, whatever stands between quotes. -/
theorem contentDispositionParameters_text {text : List Char}
    {parameters : List (List Char × List Char)} (h : HeaderText text parameters) :
    contentDispositionParameters text = parameters := by
  obtain ⟨cur, parts, hread, hparts⟩ := reads_header h
  unfold Reads at hread
  rw [contentDispositionParameters, splitHeaderParameters, hread]
  exact hparts

/-! ## Encoded names -/

section Encoded

open Percent (encode encodeByte triplet hexDigit)

theorem hexNibble_hexDigit {n : Nat} (h : n < 16) :
    hexNibble (UInt8.ofNat (hexDigit n).toNat) = some (UInt8.ofNat n) := by
  interval_cases n <;> decide

theorem nibbles_byte (b : UInt8) :
    (UInt8.ofNat (b.toNat / 16) <<< 4) ||| UInt8.ofNat (b.toNat % 16) = b := by
  have hb : b.toNat < 256 := b.toNat_lt
  have hlow : b.toNat % 16 < 2 ^ 4 := Nat.mod_lt _ (by decide)
  refine UInt8.toNat_inj.mp ?_
  rw [UInt8.toNat_or, UInt8.toNat_shiftLeft, UInt8.toNat_ofNat', UInt8.toNat_ofNat']
  have hhigh : b.toNat / 16 % 2 ^ 8 = b.toNat / 16 := Nat.mod_eq_of_lt (by omega)
  have hmod : b.toNat % 16 % 2 ^ 8 = b.toNat % 16 := Nat.mod_eq_of_lt (by omega)
  have hfour : (4 : UInt8).toNat % 8 = 4 := rfl
  have hshift : (b.toNat / 16) <<< 4 % 2 ^ 8 = (b.toNat / 16) <<< 4 := by
    rw [Nat.shiftLeft_eq]
    omega
  rw [hhigh, hmod, hfour, hshift, ← Nat.shiftLeft_add_eq_or_of_lt hlow, Nat.shiftLeft_eq]
  omega

theorem percentDecodeBytes_cons {byte : UInt8} (h : byte ≠ 37) (rest : List UInt8) :
    percentDecodeBytes (byte :: rest) = (percentDecodeBytes rest).map (byte :: ·) := by
  match rest with
  | [] => rfl
  | [hi] => rfl
  | hi :: lo :: rest => rw [percentDecodeBytes, if_neg h]

theorem percentDecodeBytes_triplet (b : UInt8) (rest : List UInt8) :
    percentDecodeBytes (utf8Bytes (triplet b) ++ rest) =
      (percentDecodeBytes rest).map (b :: ·) := by
  have hb : b.toNat < 256 := b.toNat_lt
  have hdigit : ∀ n < 16, String.utf8EncodeChar (hexDigit n) =
      [UInt8.ofNat (hexDigit n).toNat] := by
    intro n hn
    refine UrlPaths.utf8EncodeChar_ascii ?_
    exact (Percent.unreserved_lt (Percent.unreserved_of_hexDigit (Percent.hexDigit_mem hn))).1
  have hbytes : utf8Bytes (triplet b) = [37, UInt8.ofNat (hexDigit (b.toNat / 16)).toNat,
      UInt8.ofNat (hexDigit (b.toNat % 16)).toNat] := by
    rw [triplet, UrlPaths.utf8Bytes_cons, UrlPaths.utf8Bytes_cons, UrlPaths.utf8Bytes_cons,
      hdigit _ (by omega), hdigit _ (by omega)]
    rfl
  rw [hbytes, List.cons_append, List.cons_append, List.cons_append, List.nil_append,
    percentDecodeBytes, if_pos rfl, hexNibble_hexDigit (by omega), hexNibble_hexDigit (by omega)]
  simp only [Option.pure_def, Option.bind_eq_bind, Option.bind_some, nibbles_byte]
  cases percentDecodeBytes rest <;> rfl

variable {keep : UInt8 → Bool}

theorem percentDecodeBytes_encode (hkeep : ∀ b, keep b = true → Percent.isUnreserved b.toNat = true)
    (bytes : List UInt8) : percentDecodeBytes (utf8Bytes (encode keep bytes)) = some bytes := by
  induction bytes with
  | nil => rfl
  | cons b bytes ih =>
    rw [Percent.encode_cons, UrlPaths.utf8Bytes_append]
    rcases Percent.encodeByte_cases hkeep b with ⟨c, hc, htoNat, hu⟩ | htriplet
    · obtain ⟨hlt, hne⟩ := Percent.unreserved_lt hu
      have hbyte : utf8Bytes (encodeByte keep b) = [b] := by
        rw [hc, UrlPaths.utf8Bytes_cons, UrlPaths.utf8EncodeChar_ascii (by omega), htoNat,
          UInt8.ofNat_toNat]
        rfl
      have hpercent : b ≠ 37 := by
        rintro rfl
        exact hne rfl
      rw [hbyte, List.singleton_append, percentDecodeBytes_cons hpercent, ih]
      rfl
    · rw [htriplet, percentDecodeBytes_triplet, ih]
      rfl

/-- A name comes back from its encoding. -/
theorem percentDecode_encoded (hkeep : ∀ b, keep b = true → Percent.isUnreserved b.toNat = true)
    (name : String) :
    percentDecode (encode keep (utf8Bytes name.toList)) = some name.toList := by
  have hbytes : (⟨(utf8Bytes name.toList).toArray⟩ : ByteArray) = name.toByteArray := by
    rw [← UrlPaths.utf8Bytes_toList]
  rw [percentDecode, percentDecodeBytes_encode hkeep, Option.bind_some, hbytes, String.fromUTF8?,
    dif_pos name.isValidUTF8]
  rfl

end Encoded

/-! ## The name that is kept -/

theorem splitQuotes_eq {charset rest : List Char} (h : '\'' ∉ charset) :
    splitQuotes (charset ++ '\'' :: '\'' :: rest) = some (charset, rest) := by
  induction charset with
  | nil => rfl
  | cons ch charset ih =>
    rw [List.mem_cons, not_or] at h
    rw [List.cons_append, splitQuotes, ih h.2]
    · rfl
    · rintro rest' rfl
      exact absurd rfl h.1

/-- A name of a file, percent-encoded as RFC 8187 has it. -/
def Encodes (value : List Char) (name : String) : Prop :=
  ∃ charset keep, '\'' ∉ charset ∧ eqIgnoreAsciiCase charset "UTF-8".toList = true ∧
    (∀ b, keep b = true → Percent.isUnreserved b.toNat = true) ∧
    value = charset ++ '\'' :: '\'' :: Percent.encode keep (utf8Bytes name.toList)

theorem decode_encoded {value : List Char} {name : String} (h : Encodes value name) :
    decodeRfc8187Filename value = some name.toList := by
  obtain ⟨charset, keep, hquote, hcharset, hkeep, rfl⟩ := h
  simp only [decodeRfc8187Filename, splitQuotes_eq hquote, Option.bind_some, if_pos hcharset,
    percentDecode_encoded hkeep]

section Names

variable {headers : HeaderMap} {value : List UInt8} {text : List Char}
  {parameters : List (List Char × List Char)}

theorem downloadFilename_eq (hheader : headers.get "content-disposition" = some value)
    (hvisible : toStr value = some text) (htext : HeaderText text parameters) :
    downloadFilename headers =
      match (parameterNamed "filename*" parameters).bind decodeRfc8187Filename with
      | some filename => (some (String.ofList filename), some "content-disposition-filename*")
      | none =>
        match parameterNamed "filename" parameters with
        | some filename => (some (String.ofList filename), some "content-disposition")
        | none => (none, none) := by
  have hparameters := contentDispositionParameters_text htext
  simp only [downloadFilename, hheader, Option.bind_some, hvisible,
    contentDispositionFilenameStar, contentDispositionFilename, hparameters]

end Names

/-- A quoted name with a semicolon and a quote, and the name itself. -/
def partHeader : List Char :=
  "attachment".toList ++ ';' :: " filename = \"a\\\";b\"".toList ++
    ';' :: " filename*=utf-8''%C3%A9.zip".toList

def partParameters : List (List Char × List Char) :=
  [("filename".toList, "a\";b".toList), ("filename*".toList, "utf-8''%C3%A9.zip".toList)]

theorem plain_of_range (text : List Char)
    (h : (text.all fun c => 33 ≤ c.toNat && c.toNat ≤ 126) = true) (hquote : '"' ∉ text)
    (hsemicolon : ';' ∉ text) : Plain text :=
  ⟨trimmed_of_range fun c hc => by simpa using List.all_eq_true.mp h c hc, hquote, hsemicolon⟩

theorem partHeader_text : HeaderText partHeader partParameters := by
  have hblank : Blank [' '] := by
    intro ch hch
    rw [List.mem_singleton.mp hch]
    decide
  have hquoted : QuotedText "a\\\";b".toList "a\";b".toList :=
    .plain (by decide) (by decide) (.escaped (.plain (by decide) (by decide)
      (.plain (by decide) (by decide) .nil)))
  have hname := plain_of_range "filename".toList (by decide) (by decide) (by decide)
  have hstar := plain_of_range "filename*".toList (by decide) (by decide) (by decide)
  have hvalue := plain_of_range "utf-8''%C3%A9.zip".toList (by decide) (by decide)
    (by decide)
  exact .parameter (.parameter (.disposition (by decide) (by decide))
    (.mk hblank hname (by decide) hblank hblank (.quoted hquoted) blank_nil))
    (.mk hblank hstar (by decide) blank_nil blank_nil (.plain hvalue) blank_nil)

end Downloads
end OnshapeExport
