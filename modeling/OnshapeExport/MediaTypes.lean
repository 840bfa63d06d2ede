import OnshapeExport.ChunkExtensions

/-!
# MediaTypes

The media type of an answer, as `valid_json_media_type` reads it, and its grammar.

* `validJsonMediaType` — the scanner of the source.
* `JsonMediaType` — the grammar: the two names, and parameters whose charsets are UTF-8. What may
  stand around the equals sign of a parameter is left open.
* `validJsonMediaType_iff` — the scanner accepts the grammar with white space around the sign.
-/

namespace OnshapeExport
namespace OnshapeApi

/-! ## The scanner -/

def toAsciiLowercase (byte : UInt8) : UInt8 := if 65 ≤ byte ∧ byte ≤ 90 then byte + 32 else byte

def eqIgnoreAsciiCase (a b : List UInt8) : Bool :=
  a.map toAsciiLowercase = b.map toAsciiLowercase

/-- The bytes of an ASCII text. -/
def asciiBytes (text : String) : List UInt8 := text.toList.map fun c => UInt8.ofNat c.toNat

/-- A token, and what follows it. -/
def splitToken (bytes : List UInt8) : Option (List UInt8 × List UInt8) :=
  if bytes.takeWhile isTokenByte = [] then none
  else some (bytes.takeWhile isTokenByte, bytes.dropWhile isTokenByte)

/-- A text between quotes without its escapes, and what follows the closing quote; a byte may be
escaped by the one before. -/
def takeQuotedValue : Bool → List UInt8 → Option (List UInt8 × List UInt8)
  | _, [] => none
  | true, escaped :: rest =>
    if isQuotable escaped then
      (takeQuotedValue false rest).map fun (value, rest) => (escaped :: value, rest)
    else none
  | false, byte :: rest =>
    if byte = 34 then some ([], rest)
    else if byte = 92 then takeQuotedValue true rest
    else if isQuotable byte then
      (takeQuotedValue false rest).map fun (value, rest) => (byte :: value, rest)
    else none

def takeParameterValue (bytes : List UInt8) : Option (List UInt8 × List UInt8) :=
  match consume bytes 34 with
  | some bytes => takeQuotedValue false bytes
  | none => splitToken bytes

/-- The name and the value of a parameter after its semicolon, and what follows. -/
def takeParameter (bytes : List UInt8) : Option ((List UInt8 × List UInt8) × List UInt8) :=
  (splitToken (trimOws bytes)).bind fun (name, bytes) =>
    (consume (trimOws bytes) 61).bind fun bytes =>
      (takeParameterValue (trimOws bytes)).map fun (value, bytes) => ((name, value), bytes)

/-- A charset has to be UTF-8. -/
def acceptableParameter (parameter : List UInt8 × List UInt8) : Bool :=
  !(eqIgnoreAsciiCase parameter.1 (asciiBytes "charset") &&
    !eqIgnoreAsciiCase parameter.2 (asciiBytes "utf-8"))

def parameterLoop : Nat → List UInt8 → Bool
  | 0, _ => false
  | turns + 1, bytes =>
    match trimOws bytes with
    | [] => true
    | bytes =>
      match (consume bytes 59).bind takeParameter with
      | none => false
      | some (parameter, bytes) =>
        if acceptableParameter parameter then parameterLoop turns bytes else false

/-- Every turn of the loop takes a semicolon, so there are no more turns than bytes. -/
def validJsonMediaType (bytes : List UInt8) : Bool :=
  match splitToken (trimOws bytes) with
  | none => false
  | some (base, bytes) =>
    if !eqIgnoreAsciiCase base (asciiBytes "application") then false
    else match (consume bytes 47).bind splitToken with
      | none => false
      | some (subtype, bytes) =>
        if !eqIgnoreAsciiCase subtype (asciiBytes "json") then false
        else parameterLoop (bytes.length + 1) bytes

/-! ## The grammar -/

/-- What stands between quotes, and what it says without its escapes. -/
inductive QuotedValue : List UInt8 → List UInt8 → Prop
  | nil : QuotedValue [] []
  | byte {b : UInt8} {text value : List UInt8} (hquote : b ≠ 34) (hescape : b ≠ 92)
      (hb : isQuotable b = true) (hrest : QuotedValue text value) :
      QuotedValue (b :: text) (b :: value)
  | pair {b : UInt8} {text value : List UInt8} (hb : isQuotable b = true)
      (hrest : QuotedValue text value) : QuotedValue (92 :: b :: text) (b :: value)

inductive ParameterValue : List UInt8 → List UInt8 → Prop
  | token {token : List UInt8} (h : ExtensionToken token) : ParameterValue token token
  | quoted {text value : List UInt8} (h : QuotedValue text value) :
      ParameterValue (34 :: (text ++ [34])) value

/-- The parameters, each after its semicolon, with their names and values. -/
inductive MediaParameters (gap : List UInt8 → Prop) :
    List UInt8 → List (List UInt8 × List UInt8) → Prop
  | done {ows : List UInt8} (h : Ows ows) : MediaParameters gap ows []
  | more {ows ows' name before after text value rest : List UInt8}
      {parameters : List (List UInt8 × List UInt8)} (hows : Ows ows) (hows' : Ows ows')
      (hname : ExtensionToken name) (hbefore : gap before) (hafter : gap after)
      (hvalue : ParameterValue text value) (hrest : MediaParameters gap rest parameters) :
      MediaParameters gap
        (ows ++ 59 :: (ows' ++ (name ++ (before ++ 61 :: (after ++ (text ++ rest))))))
        ((name, value) :: parameters)

/-- `gap` is what may stand before and after the equals sign of a parameter. -/
inductive JsonMediaType (gap : List UInt8 → Prop) : List UInt8 → Prop
  | mk {ows base subtype rest : List UInt8} {parameters : List (List UInt8 × List UInt8)}
      (hows : Ows ows) (hbase : eqIgnoreAsciiCase base (asciiBytes "application") = true)
      (hsubtype : eqIgnoreAsciiCase subtype (asciiBytes "json") = true)
      (hparameters : MediaParameters gap rest parameters)
      (hcharset : ∀ name value, (name, value) ∈ parameters →
        eqIgnoreAsciiCase name (asciiBytes "charset") = true →
        eqIgnoreAsciiCase value (asciiBytes "utf-8") = true) :
      JsonMediaType gap (ows ++ (base ++ 47 :: (subtype ++ rest)))

/-! ## Tokens and quoted texts -/

theorem splitToken_some {bytes token rest : List UInt8} : splitToken bytes = some (token, rest) ↔
    ExtensionToken token ∧ bytes = token ++ rest ∧ ∀ b ∈ rest.head?, isTokenByte b = false := by
  unfold splitToken
  constructor
  · intro h
    split at h
    · cases h
    · rename_i hne
      cases h
      obtain ⟨htoken, hrest⟩ := token_taken hne
      exact ⟨htoken, List.takeWhile_append_dropWhile.symm, hrest⟩
  · intro h
    obtain ⟨htoken, rfl, hrest⟩ := h
    obtain ⟨htake, hdrop⟩ := token_split htoken.bytes hrest
    rw [htake, if_neg htoken.nonempty, hdrop]

/-- A text with its first byte escaped, or without. -/
def EscapedValue : Bool → List UInt8 → List UInt8 → Prop
  | false, text, value => QuotedValue text value
  | true, text, value => QuotedValue (92 :: text) value

theorem takeQuotedValue_sound {escaped : Bool} {bytes value rest : List UInt8}
    (h : takeQuotedValue escaped bytes = some (value, rest)) :
    ∃ text, EscapedValue escaped text value ∧ bytes = text ++ 34 :: rest := by
  induction bytes generalizing escaped value with
  | nil => cases escaped <;> cases h
  | cons b tail ih =>
    cases escaped with
    | true =>
      simp only [takeQuotedValue] at h
      split at h
      · rename_i hb
        obtain ⟨⟨value', rest'⟩, htail, hpair⟩ := Option.map_eq_some_iff.mp h
        cases hpair
        obtain ⟨text, htext, rfl⟩ := ih htail
        exact ⟨b :: text, .pair hb htext, rfl⟩
      · cases h
    | false =>
      simp only [takeQuotedValue] at h
      split at h
      · rename_i hquote
        cases h
        exact ⟨[], .nil, by rw [hquote, List.nil_append]⟩
      · rename_i hquote
        split at h
        · rename_i hescape
          obtain ⟨text, htext, rfl⟩ := ih h
          exact ⟨b :: text, by rw [hescape]; exact htext, rfl⟩
        · rename_i hescape
          split at h
          · rename_i hb
            obtain ⟨⟨value', rest'⟩, htail, hpair⟩ := Option.map_eq_some_iff.mp h
            cases hpair
            obtain ⟨text, htext, rfl⟩ := ih htail
            exact ⟨b :: text, .byte hquote hescape hb htext, rfl⟩
          · cases h

theorem takeQuotedValue_complete {text value : List UInt8} (h : QuotedValue text value)
    (rest : List UInt8) : takeQuotedValue false (text ++ 34 :: rest) = some (value, rest) := by
  induction h with
  | nil => rfl
  | byte hquote hescape hb _ ih =>
    simp only [List.cons_append, takeQuotedValue, if_neg hquote, if_neg hescape, hb, if_true, ih,
      Option.map_some]
  | pair hb _ ih =>
    simp only [List.cons_append, takeQuotedValue, hb, if_true, ih]
    rfl

/-! ## Parameters -/

theorem takeParameterValue_sound {bytes value rest : List UInt8}
    (h : takeParameterValue bytes = some (value, rest)) :
    ∃ text, ParameterValue text value ∧ bytes = text ++ rest := by
  unfold takeParameterValue at h
  split at h
  · rename_i afterQuote hquote
    rw [consume_some] at hquote
    obtain ⟨text, htext, rfl⟩ := takeQuotedValue_sound h
    exact ⟨_, .quoted htext, by rw [hquote]; simp⟩
  · obtain ⟨htoken, htail, _⟩ := splitToken_some.mp h
    exact ⟨value, .token htoken, htail⟩

theorem ParameterValue.trimOws {text value : List UInt8} (h : ParameterValue text value)
    (rest : List UInt8) : OnshapeApi.trimOws (text ++ rest) = text ++ rest := by
  cases h with
  | token h => exact h.trimOws rest
  | quoted h => exact trimOws_cons (by decide) _

theorem takeParameterValue_complete {text value rest : List UInt8} (h : ParameterValue text value)
    (hrest : ∀ b ∈ rest.head?, isTokenByte b = false) :
    takeParameterValue (text ++ rest) = some (value, rest) := by
  unfold takeParameterValue
  cases h with
  | token htoken =>
    have hquote : consume (text ++ rest) 34 = none := by
      obtain ⟨b, tail, rfl, hb⟩ := htoken.cons
      have hne : b ≠ 34 := by
        intro h34
        rw [h34] at hb
        exact absurd hb (by decide)
      exact if_neg hne
    rw [hquote]
    exact splitToken_some.mpr ⟨htoken, rfl, hrest⟩
  | @quoted text value hquoted =>
    have hquote : consume (34 :: (text ++ [34]) ++ rest) 34 = some (text ++ 34 :: rest) := by
      rw [consume_some]
      simp
    rw [hquote]
    exact takeQuotedValue_complete hquoted rest

theorem takeParameter_sound {bytes name value rest : List UInt8}
    (h : takeParameter bytes = some ((name, value), rest)) :
    ∃ ows before after text, Ows ows ∧ ExtensionToken name ∧ Ows before ∧ Ows after ∧
      ParameterValue text value ∧
      bytes = ows ++ (name ++ (before ++ 61 :: (after ++ (text ++ rest)))) := by
  obtain ⟨⟨name', afterName⟩, hname, h⟩ := Option.bind_eq_some_iff.mp h
  obtain ⟨afterSign, hsign, h⟩ := Option.bind_eq_some_iff.mp h
  obtain ⟨⟨value', rest'⟩, hvalue, hparameter⟩ := Option.map_eq_some_iff.mp h
  cases hparameter
  obtain ⟨ows, hows, hbytes⟩ := ows_trimmed bytes
  obtain ⟨htoken, hafterName, _⟩ := splitToken_some.mp hname
  obtain ⟨before, hbefore, hgap⟩ := ows_trimmed afterName
  obtain ⟨after, hafter, hgap'⟩ := ows_trimmed afterSign
  obtain ⟨text, htext, hrest⟩ := takeParameterValue_sound hvalue
  refine ⟨ows, before, after, text, hows, htoken, hbefore, hafter, htext, ?_⟩
  rw [← hrest, ← hgap', ← consume_some.mp hsign, ← hgap, ← hafterName, ← hbytes]

theorem takeParameter_complete {ows name before after text value rest : List UInt8}
    (hows : Ows ows) (hname : ExtensionToken name) (hbefore : Ows before) (hafter : Ows after)
    (hvalue : ParameterValue text value) (hrest : ∀ b ∈ rest.head?, isTokenByte b = false) :
    takeParameter (ows ++ (name ++ (before ++ 61 :: (after ++ (text ++ rest))))) =
      some ((name, value), rest) := by
  have hend : ∀ b ∈ (before ++ 61 :: (after ++ (text ++ rest))).head?, isTokenByte b = false := by
    intro b hb
    cases before with
    | nil =>
      cases hb
      decide
    | cons b' before =>
      cases hb
      exact ows_not_token (hbefore b List.mem_cons_self)
  have htoken : splitToken (trimOws (ows ++ (name ++ (before ++ 61 :: (after ++ (text ++ rest)))))) =
      some (name, before ++ 61 :: (after ++ (text ++ rest))) := by
    rw [trimOws_append hows, hname.trimOws]
    exact splitToken_some.mpr ⟨hname, rfl, hend⟩
  have hsign : consume (trimOws (before ++ 61 :: (after ++ (text ++ rest)))) 61 =
      some (after ++ (text ++ rest)) := by
    rw [trimOws_append hbefore, trimOws_cons (by decide), consume_some]
  have htext : takeParameterValue (trimOws (after ++ (text ++ rest))) = some (value, rest) := by
    rw [trimOws_append hafter, hvalue.trimOws]
    exact takeParameterValue_complete hvalue hrest
  simp only [takeParameter, htoken, Option.bind_some, hsign, htext, Option.map_some]

/-! ## The loop -/

theorem acceptableParameter_iff {name value : List UInt8} :
    acceptableParameter (name, value) = true ↔
      (eqIgnoreAsciiCase name (asciiBytes "charset") = true →
        eqIgnoreAsciiCase value (asciiBytes "utf-8") = true) := by
  unfold acceptableParameter
  cases eqIgnoreAsciiCase name (asciiBytes "charset") <;>
    cases eqIgnoreAsciiCase value (asciiBytes "utf-8") <;> simp

theorem MediaParameters.opens {gap : List UInt8 → Prop} {bytes : List UInt8}
    {parameters : List (List UInt8 × List UInt8)} (h : MediaParameters gap bytes parameters) :
    Open bytes := by
  cases h with
  | done h =>
    have htrim := trimOws_append h []
    rw [List.append_nil] at htrim
    exact .inl htrim
  | @more ows ows' name before after text value rest parameters hows =>
    refine .inr ⟨ows' ++ (name ++ (before ++ 61 :: (after ++ (text ++ rest)))), ?_⟩
    rw [trimOws_append hows, trimOws_cons (by decide)]

theorem parameterLoop_sound {turns : Nat} {bytes : List UInt8}
    (h : parameterLoop turns bytes = true) :
    ∃ parameters, MediaParameters Ows bytes parameters ∧
      ∀ p ∈ parameters, acceptableParameter p = true := by
  induction turns generalizing bytes with
  | zero => cases h
  | succ turns ih =>
    obtain ⟨ows, hows, hbytes⟩ := ows_trimmed bytes
    simp only [parameterLoop] at h
    split at h
    · rename_i hnil
      rw [hnil, List.append_nil] at hbytes
      rw [hbytes]
      exact ⟨[], .done hows, by simp⟩
    · split at h
      · cases h
      · rename_i _ parameter rest hparameter
        obtain ⟨name, value⟩ := parameter
        split at h
        · rename_i hacceptable
          obtain ⟨afterSemicolon, hsemicolon, hparameter⟩ := Option.bind_eq_some_iff.mp hparameter
          obtain ⟨ows', before, after, text, hows', hname, hbefore, hafter, hvalue, hafterwards⟩ :=
            takeParameter_sound hparameter
          obtain ⟨parameters, hparameters, hall⟩ := ih h
          refine ⟨(name, value) :: parameters, ?_, ?_⟩
          · rw [hbytes, consume_some.mp hsemicolon, hafterwards]
            exact .more hows hows' hname hbefore hafter hvalue hparameters
          · exact List.forall_mem_cons.mpr ⟨hacceptable, hall⟩
        · cases h

theorem parameterLoop_complete {turns : Nat} {bytes : List UInt8}
    {parameters : List (List UInt8 × List UInt8)} (h : MediaParameters Ows bytes parameters)
    (hall : ∀ p ∈ parameters, acceptableParameter p = true) (hturns : bytes.length < turns) :
    parameterLoop turns bytes = true := by
  induction h generalizing turns with
  | done hows =>
    obtain ⟨turns, rfl⟩ : ∃ n, turns = n + 1 := ⟨turns - 1, by omega⟩
    have htrim := trimOws_append hows []
    rw [List.append_nil] at htrim
    rw [parameterLoop, htrim]
    rfl
  | @more ows ows' name before after text value rest parameters hows hows' hname hbefore hafter
      hvalue hrest ih =>
    obtain ⟨turns, rfl⟩ : ∃ n, turns = n + 1 := ⟨turns - 1, by omega⟩
    have hstart : trimOws (ows ++
        59 :: (ows' ++ (name ++ (before ++ 61 :: (after ++ (text ++ rest)))))) =
        59 :: (ows' ++ (name ++ (before ++ 61 :: (after ++ (text ++ rest))))) := by
      rw [trimOws_append hows, trimOws_cons (by decide)]
    have hparameter : (consume (59 ::
        (ows' ++ (name ++ (before ++ 61 :: (after ++ (text ++ rest)))))) 59).bind takeParameter =
        some ((name, value), rest) := by
      rw [consume_some.mpr rfl, Option.bind_some]
      exact takeParameter_complete hows' hname hbefore hafter hvalue hrest.opens.head
    obtain ⟨hfirst, hothers⟩ := List.forall_mem_cons.mp hall
    have hloop : parameterLoop turns rest = true := by
      refine ih hothers ?_
      simp only [List.length_append, List.length_cons] at hturns
      omega
    simp only [parameterLoop, hstart, hparameter, hfirst, if_true, hloop]

theorem parameterLoop_iff {bytes : List UInt8} :
    parameterLoop (bytes.length + 1) bytes = true ↔
      ∃ parameters, MediaParameters Ows bytes parameters ∧
        ∀ p ∈ parameters, acceptableParameter p = true := by
  constructor
  · exact parameterLoop_sound
  · intro h
    obtain ⟨parameters, hparameters, hall⟩ := h
    exact parameterLoop_complete hparameters hall (Nat.lt_succ_self _)

/-- A turn takes the semicolon and more, so the turns allowed are never used up. -/
theorem parameterLoop_turns {turns : Nat} {bytes : List UInt8} (h : bytes.length < turns) :
    parameterLoop turns bytes = parameterLoop (bytes.length + 1) bytes := by
  have hmore : ∀ (n turns : Nat) (bytes : List UInt8), bytes.length < n → n ≤ turns →
      parameterLoop turns bytes = parameterLoop n bytes := by
    intro n
    induction n with
    | zero => intro turns bytes hlt; omega
    | succ n ih =>
      intro turns bytes hlt hle
      obtain ⟨turns, rfl⟩ : ∃ m, turns = m + 1 := ⟨turns - 1, by omega⟩
      obtain ⟨ows, _, hbytes⟩ := ows_trimmed bytes
      simp only [parameterLoop]
      split
      · rfl
      · split
        · rfl
        · rename_i parameter rest hparameter
          obtain ⟨name, value⟩ := parameter
          obtain ⟨afterSemicolon, hsemicolon, hparameter⟩ := Option.bind_eq_some_iff.mp hparameter
          obtain ⟨_, _, _, _, _, _, _, _, _, hafter⟩ := takeParameter_sound hparameter
          have hlength := congrArg List.length hbytes
          rw [consume_some.mp hsemicolon, hafter] at hlength
          simp only [List.length_append, List.length_cons] at hlength
          rw [ih turns rest (by omega) (by omega)]
  exact hmore _ _ _ (Nat.lt_succ_self _) h

/-! ## The media type -/

def IsLetter (byte : UInt8) : Prop := 97 ≤ toAsciiLowercase byte ∧ toAsciiLowercase byte ≤ 122

theorem token_of_letter {b : UInt8} (h : IsLetter b) : isTokenByte b = true := by
  unfold IsLetter toAsciiLowercase at h
  split at h
  · rename_i hupper
    simp [isTokenByte, isAsciiAlphanumeric, hupper]
  · simp [isTokenByte, isAsciiAlphanumeric, h]

/-- What reads as a word of letters is a token. -/
theorem token_of_word {bytes word : List UInt8} (hne : word ≠ []) (hword : ∀ b ∈ word, IsLetter b)
    (h : eqIgnoreAsciiCase bytes word = true) : ExtensionToken bytes := by
  have hmap : bytes.map toAsciiLowercase = word.map toAsciiLowercase := of_decide_eq_true h
  refine ⟨fun hnil => hne ?_, fun b hb => token_of_letter ?_⟩
  · rw [hnil, List.map_nil] at hmap
    exact List.map_eq_nil_iff.mp hmap.symm
  · have hmem := List.mem_map_of_mem (f := toAsciiLowercase) hb
    rw [hmap] at hmem
    obtain ⟨w, hw, heq⟩ := List.mem_map.mp hmem
    rw [IsLetter, ← heq]
    exact hword w hw

theorem application_letters : ∀ b ∈ asciiBytes "application", IsLetter b := by
  have hall : (asciiBytes "application").all (fun b => decide (97 ≤ toAsciiLowercase b) &&
      decide (toAsciiLowercase b ≤ 122)) = true := by decide
  intro b hb
  have hb' := List.all_eq_true.mp hall b hb
  rw [Bool.and_eq_true] at hb'
  exact ⟨of_decide_eq_true hb'.1, of_decide_eq_true hb'.2⟩

theorem json_letters : ∀ b ∈ asciiBytes "json", IsLetter b := by
  have hall : (asciiBytes "json").all (fun b => decide (97 ≤ toAsciiLowercase b) &&
      decide (toAsciiLowercase b ≤ 122)) = true := by decide
  intro b hb
  have hb' := List.all_eq_true.mp hall b hb
  rw [Bool.and_eq_true] at hb'
  exact ⟨of_decide_eq_true hb'.1, of_decide_eq_true hb'.2⟩

theorem validJsonMediaType_iff {bytes : List UInt8} :
    validJsonMediaType bytes = true ↔ JsonMediaType Ows bytes := by
  constructor
  · intro h
    unfold validJsonMediaType at h
    obtain ⟨ows, hows, hbytes⟩ := ows_trimmed bytes
    split at h
    · cases h
    · rename_i base afterBase hbase
      split at h
      · cases h
      · rename_i happlication
        split at h
        · cases h
        · rename_i subtype rest hsubtype
          split at h
          · cases h
          · rename_i hjson
            simp only [Bool.not_eq_true, Bool.not_eq_false'] at happlication hjson
            obtain ⟨afterSlash, hslash, hsubtype⟩ := Option.bind_eq_some_iff.mp hsubtype
            obtain ⟨parameters, hparameters, hall⟩ := parameterLoop_iff.mp h
            rw [hbytes, (splitToken_some.mp hbase).2.1, consume_some.mp hslash,
              (splitToken_some.mp hsubtype).2.1]
            exact .mk hows happlication hjson hparameters
              fun name value hp => acceptableParameter_iff.mp (hall _ hp)
  · intro h
    cases h with
    | @mk ows base subtype rest parameters hows hbase hsubtype hparameters hcharset =>
      have hne : asciiBytes "application" ≠ [] := List.cons_ne_nil _ _
      have hne' : asciiBytes "json" ≠ [] := List.cons_ne_nil _ _
      have hbaseToken := token_of_word hne application_letters hbase
      have hsubtypeToken := token_of_word hne' json_letters hsubtype
      have hfirst : splitToken (trimOws (ows ++ (base ++ 47 :: (subtype ++ rest)))) =
          some (base, 47 :: (subtype ++ rest)) := by
        rw [trimOws_append hows, hbaseToken.trimOws]
        refine splitToken_some.mpr ⟨hbaseToken, rfl, fun b hb => ?_⟩
        cases hb
        decide
      have hsecond : (consume (47 :: (subtype ++ rest)) 47).bind splitToken =
          some (subtype, rest) := by
        rw [consume_some.mpr rfl, Option.bind_some]
        exact splitToken_some.mpr ⟨hsubtypeToken, rfl, hparameters.opens.head⟩
      have hloop : parameterLoop (rest.length + 1) rest = true :=
        parameterLoop_iff.mpr ⟨parameters, hparameters, fun p hp =>
          acceptableParameter_iff.mpr (hcharset p.1 p.2 hp)⟩
      simp only [validJsonMediaType, hfirst, hbase, hsecond, hsubtype, hloop]
      rfl

/-! ## Around the equals sign -/

theorem Ows.not_sign {ows : List UInt8} (h : Ows ows) : ∀ b ∈ ows, b ≠ 61 := by
  intro b hb h61
  rw [h61] at hb
  exact absurd (h 61 hb) (by decide)

theorem ExtensionToken.not_sign {token : List UInt8} (h : ExtensionToken token) :
    ∀ b ∈ token, b ≠ 61 := by
  intro b hb h61
  rw [h61] at hb
  exact absurd (h.bytes 61 hb) (by decide)

/-- Without white space around the equals signs, the first of them follows a token: what stands
before it is neither an equals sign nor between quotes. -/
theorem JsonMediaType.first_sign {bytes : List UInt8}
    (h : JsonMediaType (fun gap => gap = []) bytes) (hsign : 61 ∈ bytes) :
    ∃ b, (bytes.takeWhile (· ≠ 61)).getLast? = some b ∧ isTokenByte b = true := by
  cases h with
  | @mk ows base subtype rest parameters hows hbase hsubtype hparameters hcharset =>
    have hbaseToken := token_of_word (List.cons_ne_nil _ _) application_letters hbase
    have hsubtypeToken := token_of_word (List.cons_ne_nil _ _) json_letters hsubtype
    cases hparameters with
    | done hend =>
      exfalso
      simp only [List.mem_append, List.mem_cons] at hsign
      rcases hsign with hmem | hmem | h47 | hmem | hmem
      · exact hows.not_sign 61 hmem rfl
      · exact hbaseToken.not_sign 61 hmem rfl
      · exact absurd h47 (by decide)
      · exact hsubtypeToken.not_sign 61 hmem rfl
      · exact hend.not_sign 61 hmem rfl
    | @more ows' ows'' name before after text value rest parameters hows' hows'' hname hbefore =>
      obtain ⟨b, hb⟩ : ∃ b, name.getLast? = some b :=
        ⟨name.getLast hname.nonempty, List.getLast?_eq_some_getLast hname.nonempty⟩
      have hfront : ∀ c ∈ ows ++ (base ++ 47 :: (subtype ++ (ows' ++ 59 :: (ows'' ++ name)))),
          decide (c ≠ 61) = true := by
        intro c hc
        refine decide_eq_true ?_
        simp only [List.mem_append, List.mem_cons] at hc
        rcases hc with hc | hc | rfl | hc | hc | rfl | hc | hc
        · exact hows.not_sign c hc
        · exact hbaseToken.not_sign c hc
        · decide
        · exact hsubtypeToken.not_sign c hc
        · exact hows'.not_sign c hc
        · decide
        · exact hows''.not_sign c hc
        · exact hname.not_sign c hc
      have hsplit : ows ++ (base ++ 47 :: (subtype ++ (ows' ++
          59 :: (ows'' ++ (name ++ (before ++ 61 :: (after ++ (text ++ rest)))))))) =
          ows ++ (base ++ 47 :: (subtype ++ (ows' ++ 59 :: (ows'' ++ name)))) ++
            61 :: (after ++ (text ++ rest)) := by
        rw [hbefore]
        simp
      refine ⟨b, ?_, hname.bytes b (List.mem_of_getLast? hb)⟩
      rw [hsplit, List.takeWhile_append_of_pos hfront, List.takeWhile_cons_of_neg (by decide),
        List.append_nil]
      simp [List.getLast?_append, List.getLast?_cons, hb]

/-- "application/json;charset = utf-8". -/
def spacedSign : List UInt8 := asciiBytes "application/json;charset = utf-8"

theorem validJsonMediaType_spaced :
    validJsonMediaType spacedSign = true ∧ ¬JsonMediaType (fun gap => gap = []) spacedSign := by
  have hbytes : spacedSign = [97, 112, 112, 108, 105, 99, 97, 116, 105, 111, 110, 47, 106, 115, 111,
      110, 59, 99, 104, 97, 114, 115, 101, 116, 32, 61, 32, 117, 116, 102, 45, 56] := rfl
  constructor
  · rw [hbytes]
    decide
  · intro h
    obtain ⟨b, hb, htoken⟩ := h.first_sign (by rw [hbytes]; decide)
    have hlast : (spacedSign.takeWhile (· ≠ 61)).getLast? = some 32 := by
      rw [hbytes]
      decide
    rw [hlast] at hb
    cases hb
    exact absurd htoken (by decide)

end OnshapeApi
end OnshapeExport
