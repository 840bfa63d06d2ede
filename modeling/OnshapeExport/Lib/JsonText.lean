import OnshapeExport.Lib.Json
import Mathlib.Data.Rat.Lemmas

/-!
# Lib.JsonText

Canonical JSON text. A `JsonText` is a printer with a reader; it is faithful when the reader gives
back every canonical value. `canonicalText` is such a pair: it prints without white space, members
in the order of their keys, integers in decimal and strings with the shortest escapes. A float is
printed as the fraction it is.

* `JsonText.Faithful.print_inj` — canonical values are told apart by their texts.
* `canonicalText_faithful` — the reader inverts the printer.
-/

namespace Json

structure JsonText where
  print : Value → String
  read : String → Option Value

/-- Reading a printed value gives it back. -/
def JsonText.Faithful (t : JsonText) : Prop :=
  ∀ v : Value, v.Canonical → t.read (t.print v) = some v

theorem JsonText.Faithful.print_inj {t : JsonText} (h : t.Faithful) {v w : Value}
    (hv : v.Canonical) (hw : w.Canonical) (he : t.print v = t.print w) : v = w := by
  have hr := h v hv
  rw [he, h w hw] at hr
  exact (Option.some.inj hr).symm

/-! ## Printing -/

def natChars (n : Nat) : List Char := Nat.toDigits 10 n

def intChars (n : Int) : List Char :=
  if n < 0 then '-' :: natChars n.natAbs else natChars n.natAbs

def numberChars : Number → List Char
  | .int n => intChars n
  | .float s => intChars s.value.num ++ '/' :: natChars s.value.den

def hexChar (n : Nat) : Char := Nat.digitChar n

def escapeChar (c : Char) : List Char :=
  if c = '"' then ['\\', '"']
  else if c = '\\' then ['\\', '\\']
  else if c.toNat = 8 then ['\\', 'b']
  else if c.toNat = 9 then ['\\', 't']
  else if c.toNat = 10 then ['\\', 'n']
  else if c.toNat = 12 then ['\\', 'f']
  else if c.toNat = 13 then ['\\', 'r']
  else if c.toNat < 32 then
    ['\\', 'u', '0', '0', hexChar (c.toNat / 16), hexChar (c.toNat % 16)]
  else [c]

def stringChars (s : String) : List Char := '"' :: (s.toList.flatMap escapeChar ++ ['"'])

mutual

def Value.chars : Value → List Char
  | .null => ['n', 'u', 'l', 'l']
  | .bool true => ['t', 'r', 'u', 'e']
  | .bool false => ['f', 'a', 'l', 's', 'e']
  | .number n => numberChars n
  | .string s => stringChars s
  | .array [] => ['[', ']']
  | .array (v :: vs) => '[' :: (v.chars ++ itemsTail vs)
  | .object [] => ['\x7b', '\x7d']
  | .object ((k, v) :: ms) => '\x7b' :: (stringChars k ++ ':' :: (v.chars ++ membersTail ms))

/-- The rest of an array. -/
def itemsTail : List Value → List Char
  | [] => [']']
  | v :: vs => ',' :: (v.chars ++ itemsTail vs)

/-- The rest of an object. -/
def membersTail : List (String × Value) → List Char
  | [] => ['\x7d']
  | (k, v) :: ms => ',' :: (stringChars k ++ ':' :: (v.chars ++ membersTail ms))

end

/-! ## Reading -/

def isNumberChar (c : Char) : Bool := c.isDigit || c = '-' || c = '/'

def readInt : List Char → Int
  | '-' :: ds => -(Nat.ofDigitChars 10 ds 0 : Int)
  | ds => (Nat.ofDigitChars 10 ds 0 : Int)

def readNumber (token : List Char) : Option Number :=
  if token = [] then none
  else if '/' ∈ token then
    some (.float (.rat (mkRat (readInt (token.takeWhile (· ≠ '/')))
      (Nat.ofDigitChars 10 ((token.dropWhile (· ≠ '/')).drop 1) 0))))
  else some (.int (readInt token))

def hexValue (c : Char) : Nat :=
  if c.isDigit then c.toNat - '0'.toNat else c.toNat - 'a'.toNat + 10

/-- The characters of a string up to its closing mark. -/
def readString : List Char → Option (List Char × List Char)
  | [] => none
  | '"' :: r => some ([], r)
  | '\\' :: 'u' :: _ :: _ :: a :: b :: r =>
    (readString r).map fun p => (Char.ofNat (16 * hexValue a + hexValue b) :: p.1, p.2)
  | '\\' :: e :: r =>
    let c :=
      match e with
      | 'b' => Char.ofNat 8
      | 't' => Char.ofNat 9
      | 'n' => Char.ofNat 10
      | 'f' => Char.ofNat 12
      | 'r' => Char.ofNat 13
      | e => e
    (readString r).map fun p => (c :: p.1, p.2)
  | c :: r => (readString r).map fun p => (c :: p.1, p.2)

mutual

/-- A value and what is left of the text; the fuel bounds how many values are opened. -/
def readValue : Nat → List Char → Option (Value × List Char)
  | 0, _ => none
  | _ + 1, [] => none
  | n + 1, c :: r =>
    if c = 'n' then some (.null, r.drop 3)
    else if c = 't' then some (.bool true, r.drop 3)
    else if c = 'f' then some (.bool false, r.drop 4)
    else if c = '"' then (readString r).map fun p => (.string (String.ofList p.1), p.2)
    else if c = '[' then (readArray n r).map fun p => (.array p.1, p.2)
    else if c = '\x7b' then (readObject n r).map fun p => (.object p.1, p.2)
    else
      (readNumber ((c :: r).takeWhile isNumberChar)).map fun x =>
        (.number x, (c :: r).dropWhile isNumberChar)

def readArray : Nat → List Char → Option (List Value × List Char)
  | 0, _ => none
  | n + 1, r =>
    if r.head? = some ']' then some ([], r.tail)
    else
      match readValue n r with
      | some (v, r) => (readItems n r).map fun p => (v :: p.1, p.2)
      | none => none

def readObject : Nat → List Char → Option (List (String × Value) × List Char)
  | 0, _ => none
  | n + 1, r =>
    if r.head? = some '\x7d' then some ([], r.tail)
    else
      match readMember n r with
      | some (m, r) => (readMembers n r).map fun p => (m :: p.1, p.2)
      | none => none

def readMember : Nat → List Char → Option ((String × Value) × List Char)
  | n + 1, '"' :: r =>
    match readString r with
    | some (k, ':' :: r) => (readValue n r).map fun p => ((String.ofList k, p.1), p.2)
    | _ => none
  | _, _ => none

def readItems : Nat → List Char → Option (List Value × List Char)
  | _, ']' :: r => some ([], r)
  | n + 1, ',' :: r =>
    match readValue n r with
    | some (v, r) => (readItems n r).map fun p => (v :: p.1, p.2)
    | none => none
  | _, _ => none

def readMembers : Nat → List Char → Option (List (String × Value) × List Char)
  | _, '\x7d' :: r => some ([], r)
  | n + 1, ',' :: r =>
    match readMember n r with
    | some (m, r) => (readMembers n r).map fun p => (m :: p.1, p.2)
    | none => none
  | _, _ => none

end

def canonicalText : JsonText where
  print v := String.ofList v.chars
  read s :=
    match readValue s.toList.length s.toList with
    | some (v, []) => some v
    | _ => none

/-! ## Numbers -/

/-- What follows a number cannot be taken for a part of it. -/
def NoNumberHead (r : List Char) : Prop := ∀ c ∈ r.head?, isNumberChar c = false

theorem natChars_isDigit {n : Nat} : ∀ c ∈ natChars n, c.isDigit = true :=
  fun _ hc => Nat.isDigit_of_mem_toDigits (by omega) (by omega) hc

theorem readNat_natChars (n : Nat) : Nat.ofDigitChars 10 (natChars n) 0 = n :=
  Nat.ofDigitChars_toDigits (by omega) (by omega)

theorem intChars_ne_nil (n : Int) : intChars n ≠ [] := by
  unfold intChars
  split
  · simp
  · exact Nat.toDigits_ne_nil

theorem mem_intChars {n : Int} {c : Char} (hc : c ∈ intChars n) : c.isDigit = true ∨ c = '-' := by
  unfold intChars at hc
  split at hc
  · obtain rfl | hc := List.mem_cons.mp hc
    · exact .inr rfl
    · exact .inl (natChars_isDigit c hc)
  · exact .inl (natChars_isDigit c hc)

theorem slash_notMem_intChars (n : Int) : '/' ∉ intChars n := by
  intro h
  obtain h | h := mem_intChars h
  · exact absurd h (by decide)
  · exact absurd h (by decide)

theorem readInt_intChars (n : Int) : readInt (intChars n) = n := by
  unfold intChars
  split
  · rw [readInt, readNat_natChars]
    omega
  · have hne : ∀ ds, natChars n.natAbs ≠ '-' :: ds := by
      intro ds h
      exact absurd (natChars_isDigit '-' (by rw [h]; exact List.mem_cons_self)) (by decide)
    rw [readInt.eq_def]
    split
    · rename_i heq
      exact absurd heq (hne _)
    · rw [readNat_natChars]
      omega

theorem numberChars_isNumberChar {x : Number} : ∀ c ∈ numberChars x, isNumberChar c = true := by
  have hint : ∀ n : Int, ∀ c ∈ intChars n, isNumberChar c = true := by
    intro n c hc
    obtain h | h := mem_intChars hc
    · simp [isNumberChar, h]
    · simp [isNumberChar, h]
  intro c hc
  cases x with
  | int n => exact hint n c hc
  | float s =>
    obtain hc | hc := List.mem_append.mp hc
    · exact hint _ c hc
    · obtain rfl | hc := List.mem_cons.mp hc
      · decide
      · simp [isNumberChar, natChars_isDigit c hc]

theorem numberChars_ne_nil (x : Number) : numberChars x ≠ [] := by
  cases x with
  | int n => exact intChars_ne_nil n
  | float s => simp [numberChars]

theorem readNumber_numberChars {x : Number} (hx : x.Canonical) :
    readNumber (numberChars x) = some x := by
  cases x with
  | int n =>
    simp only [numberChars, readNumber, intChars_ne_nil, slash_notMem_intChars, if_false,
      readInt_intChars]
  | float s =>
    have htake : (intChars s.value.num ++ '/' :: natChars s.value.den).takeWhile (· ≠ '/') =
        intChars s.value.num := by
      rw [List.takeWhile_append_of_pos]
      · simp
      · intro c hc
        simpa using fun he : c = '/' => slash_notMem_intChars _ (he ▸ hc)
    have hdrop : (intChars s.value.num ++ '/' :: natChars s.value.den).dropWhile (· ≠ '/') =
        '/' :: natChars s.value.den := by
      rw [List.dropWhile_append_of_pos]
      · simp
      · intro c hc
        simpa using fun he : c = '/' => slash_notMem_intChars _ (he ▸ hc)
    have hs : Scalar.rat s.value = s := by
      cases s with
      | rat q => rfl
      | negZero => exact absurd rfl hx.1
    have hne := numberChars_ne_nil (.float s)
    have hmem : '/' ∈ numberChars (.float s) := by simp [numberChars]
    rw [readNumber, if_neg hne, if_pos hmem, numberChars, htake, hdrop, List.drop_one,
      List.tail_cons, readInt_intChars, readNat_natChars, Rat.mkRat_self, hs]

theorem takeWhile_numberChars {x : Number} {r : List Char} (hr : NoNumberHead r) :
    (numberChars x ++ r).takeWhile isNumberChar = numberChars x := by
  rw [List.takeWhile_append_of_pos numberChars_isNumberChar]
  cases r with
  | nil => simp
  | cons c r => simp [hr c rfl]

theorem dropWhile_numberChars {x : Number} {r : List Char} (hr : NoNumberHead r) :
    (numberChars x ++ r).dropWhile isNumberChar = r := by
  rw [List.dropWhile_append_of_pos numberChars_isNumberChar]
  cases r with
  | nil => simp
  | cons c r => simp [hr c rfl]

/-! ## Strings -/

theorem hexValue_hexChar : ∀ d < 16, hexValue (hexChar d) = d := by decide

theorem readString_escapeChar (c : Char) (r : List Char) :
    readString (escapeChar c ++ r) = (readString r).map fun p => (c :: p.1, p.2) := by
  unfold escapeChar
  split
  · rename_i h; subst h; simp [readString]
  split
  · rename_i h; subst h; simp [readString]
  have hcode : ∀ n : Nat, c.toNat = n → Char.ofNat n = c := by
    rintro n rfl; exact Char.ofNat_toNat c
  split
  · rename_i h; obtain rfl := hcode 8 h; simp [readString]
  split
  · rename_i h; obtain rfl := hcode 9 h; simp [readString]
  split
  · rename_i h; obtain rfl := hcode 10 h; simp [readString]
  split
  · rename_i h; obtain rfl := hcode 12 h; simp [readString]
  split
  · rename_i h; obtain rfl := hcode 13 h; simp [readString]
  split
  · rename_i h
    have h1 := hexValue_hexChar (c.toNat / 16) (by omega)
    have h2 := hexValue_hexChar (c.toNat % 16) (by omega)
    have hc : Char.ofNat (16 * (c.toNat / 16) + c.toNat % 16) = c := hcode _ (by omega)
    simp [readString, h1, h2, hc]
  · rename_i hq hb _ _ _ _ _ _
    rw [List.singleton_append, readString.eq_def]
    split <;> simp_all

theorem readString_stringChars (s : String) (r : List Char) :
    readString (s.toList.flatMap escapeChar ++ '"' :: r) = some (s.toList, r) := by
  induction s.toList with
  | nil => simp [readString]
  | cons c cs ih =>
    rw [List.flatMap_cons, List.append_assoc, readString_escapeChar, ih]
    rfl

/-! ## Values -/

mutual

def Value.size : Value → Nat
  | .array [] => 2
  | .array (v :: vs) => 2 + v.size + itemsSize vs
  | .object [] => 2
  | .object ((_, v) :: ms) => 3 + v.size + membersSize ms
  | _ => 1

def itemsSize : List Value → Nat
  | [] => 0
  | v :: vs => 1 + v.size + itemsSize vs

def membersSize : List (String × Value) → Nat
  | [] => 0
  | (_, v) :: ms => 2 + v.size + membersSize ms

end

theorem noNumberHead_itemsTail (vs : List Value) (r : List Char) :
    NoNumberHead (itemsTail vs ++ r) := by
  cases vs with
  | nil => intro c hc; simp [itemsTail] at hc; subst hc; decide
  | cons v vs => intro c hc; simp [itemsTail] at hc; subst hc; decide

theorem noNumberHead_membersTail (ms : List (String × Value)) (r : List Char) :
    NoNumberHead (membersTail ms ++ r) := by
  cases ms with
  | nil => intro c hc; simp [membersTail] at hc; subst hc; decide
  | cons m ms => intro c hc; simp [membersTail] at hc; subst hc; decide

theorem readValue_number {x : Number} {n : Nat} {r : List Char} (hx : x.Canonical)
    (hr : NoNumberHead r) : readValue (n + 1) (numberChars x ++ r) = some (.number x, r) := by
  have htake := takeWhile_numberChars (x := x) hr
  have hdrop := dropWhile_numberChars (x := x) hr
  cases h : numberChars x with
  | nil => exact absurd h (numberChars_ne_nil x)
  | cons c cs =>
    have hc : isNumberChar c = true := numberChars_isNumberChar c (by rw [h]; exact List.mem_cons_self)
    have hne : c ≠ 'n' ∧ c ≠ 't' ∧ c ≠ 'f' ∧ c ≠ '"' ∧ c ≠ '[' ∧ c ≠ '\x7b' := by
      refine ⟨?_, ?_, ?_, ?_, ?_, ?_⟩ <;> (rintro rfl; exact absurd hc (by decide))
    obtain ⟨h1, h2, h3, h4, h5, h6⟩ := hne
    rw [h, List.cons_append] at htake hdrop
    rw [List.cons_append, readValue]
    simp only [h1, h2, h3, h4, h5, h6, if_false, htake, hdrop]
    rw [← h, readNumber_numberChars hx]
    rfl

/-- No value starts like the end of an array. -/
theorem head?_ne_bracket {n : Nat} {l : List Char} {x : Value × List Char}
    (h : readValue n l = some x) : l.head? ≠ some ']' := by
  intro he
  cases n with
  | zero => simp [readValue] at h
  | succ n =>
    cases l with
    | nil => simp at he
    | cons c l =>
      simp only [List.head?_cons, Option.some.injEq] at he
      subst he
      simp [readValue, isNumberChar, readNumber] at h

mutual

theorem readValue_chars : ∀ (v : Value) (n : Nat) (r : List Char), v.Canonical → v.size ≤ n →
    NoNumberHead r → readValue n (v.chars ++ r) = some (v, r)
  | v, 0, r, _, hn, _ => by
    exfalso
    cases v with
    | array items => cases items <;> simp [Value.size] at hn
    | object ms => cases ms <;> simp [Value.size] at hn
    | _ => simp [Value.size] at hn
  | .null, n + 1, r, _, _, _ => by simp [Value.chars, readValue]
  | .bool true, n + 1, r, _, _, _ => by simp [Value.chars, readValue]
  | .bool false, n + 1, r, _, _, _ => by simp [Value.chars, readValue]
  | .number x, n + 1, r, hc, _, hr => readValue_number hc hr
  | .string s, n + 1, r, _, _, _ => by
    simp [Value.chars, stringChars, readValue, readString_stringChars]
  | .array [], 1, r, _, hn, _ => by simp [Value.size] at hn
  | .array [], n + 2, r, _, _, _ => by simp [Value.chars, readValue, readArray]
  | .array (v :: vs), 1, r, _, hn, _ => by simp only [Value.size] at hn; omega
  | .array (v :: vs), n + 2, r, hc, hn, hr => by
    obtain ⟨hv, hvs⟩ := hc
    simp only [Value.size] at hn
    have hhead := readValue_chars v n (itemsTail vs ++ r) hv (by omega)
      (noNumberHead_itemsTail vs r)
    have htail := readItems_chars vs n r hvs (by omega)
    have hne := head?_ne_bracket hhead
    simp only [Value.chars, List.cons_append, List.append_assoc, readValue, Char.reduceEq,
      if_false, if_true, readArray, hne, hhead, htail, Option.map_some]
  | .object [], 1, r, _, hn, _ => by simp [Value.size] at hn
  | .object [], n + 2, r, _, _, _ => by simp [Value.chars, readValue, readObject]
  | .object ((k, v) :: ms), 1, r, _, hn, _ => by simp only [Value.size] at hn; omega
  | .object ((k, v) :: ms), n + 2, r, hc, hn, hr => by
    obtain ⟨-, hv, hms⟩ := hc
    simp only [Value.size] at hn
    have hhead := readMember_chars k v n (membersTail ms ++ r) hv (by omega)
      (noNumberHead_membersTail ms r)
    have htail := readMembers_chars ms n r hms (by omega)
    have hne : (stringChars k ++ ':' :: (v.chars ++ (membersTail ms ++ r))).head? ≠
        some '\x7d' := by simp [stringChars]
    simp only [Value.chars, List.cons_append, List.append_assoc, readValue, Char.reduceEq,
      if_false, if_true, readObject, hne, hhead, htail, Option.map_some]

theorem readMember_chars (k : String) : ∀ (v : Value) (n : Nat) (r : List Char), v.Canonical →
    1 + v.size ≤ n → NoNumberHead r →
    readMember n (stringChars k ++ ':' :: (v.chars ++ r)) = some ((k, v), r)
  | v, 0, r, _, hn, _ => by omega
  | v, n + 1, r, hc, hn, hr => by
    have hv := readValue_chars v n r hc (by omega) hr
    have hk := readString_stringChars k (':' :: (v.chars ++ r))
    simp only [stringChars, List.cons_append, List.append_assoc, List.nil_append, readMember, hk,
      hv, Option.map_some, String.ofList_toList]

theorem readItems_chars : ∀ (vs : List Value) (n : Nat) (r : List Char),
    Value.CanonicalItems vs → itemsSize vs ≤ n → readItems n (itemsTail vs ++ r) = some (vs, r)
  | [], n, r, _, _ => by cases n <;> simp [itemsTail, readItems]
  | v :: vs, 0, r, _, hn => by simp [itemsSize] at hn
  | v :: vs, n + 1, r, hc, hn => by
    obtain ⟨hv, hvs⟩ := hc
    simp only [itemsSize] at hn
    have hhead := readValue_chars v n (itemsTail vs ++ r) hv (by omega)
      (noNumberHead_itemsTail vs r)
    have htail := readItems_chars vs n r hvs (by omega)
    simp only [itemsTail, List.cons_append, List.append_assoc, readItems, hhead, htail,
      Option.map_some]

theorem readMembers_chars : ∀ (ms : List (String × Value)) (n : Nat) (r : List Char),
    Value.CanonicalMembers ms → membersSize ms ≤ n →
    readMembers n (membersTail ms ++ r) = some (ms, r)
  | [], n, r, _, _ => by cases n <;> simp [membersTail, readMembers]
  | (k, v) :: ms, 0, r, _, hn => by simp [membersSize] at hn
  | (k, v) :: ms, n + 1, r, hc, hn => by
    obtain ⟨hv, hms⟩ := hc
    simp only [membersSize] at hn
    have hhead := readMember_chars k v n (membersTail ms ++ r) hv (by omega)
      (noNumberHead_membersTail ms r)
    have htail := readMembers_chars ms n r hms (by omega)
    simp only [membersTail, List.cons_append, List.append_assoc, readMembers, hhead, htail,
      Option.map_some]

end

mutual

/-- A value has no more parts than characters. -/
theorem size_le_length : ∀ v : Value, v.size ≤ v.chars.length
  | .null => by simp [Value.size, Value.chars]
  | .bool true => by simp [Value.size, Value.chars]
  | .bool false => by simp [Value.size, Value.chars]
  | .number x => List.length_pos_of_ne_nil (numberChars_ne_nil x)
  | .string s => by simp [Value.size, Value.chars, stringChars]
  | .array [] => by simp [Value.size, Value.chars]
  | .array (v :: vs) => by
    have hv := size_le_length v
    have hvs := itemsSize_le_length vs
    simp only [Value.size, Value.chars, List.length_cons, List.length_append]
    omega
  | .object [] => by simp [Value.size, Value.chars]
  | .object ((k, v) :: ms) => by
    have hv := size_le_length v
    have hms := membersSize_le_length ms
    simp only [Value.size, Value.chars, List.length_cons, List.length_append, stringChars]
    omega

theorem itemsSize_le_length : ∀ vs : List Value, itemsSize vs + 1 ≤ (itemsTail vs).length
  | [] => by simp [itemsSize, itemsTail]
  | v :: vs => by
    have hv := size_le_length v
    have hvs := itemsSize_le_length vs
    simp only [itemsSize, itemsTail, List.length_cons, List.length_append]
    omega

theorem membersSize_le_length :
    ∀ ms : List (String × Value), membersSize ms + 1 ≤ (membersTail ms).length
  | [] => by simp [membersSize, membersTail]
  | (k, v) :: ms => by
    have hv := size_le_length v
    have hms := membersSize_le_length ms
    simp only [membersSize, membersTail, List.length_cons, List.length_append, stringChars]
    omega

end

theorem canonicalText_faithful : canonicalText.Faithful := by
  intro v hv
  have h := readValue_chars v v.chars.length [] hv (size_le_length v) (by simp [NoNumberHead])
  rw [List.append_nil] at h
  simp only [canonicalText, String.toList_ofList, h]

theorem utf8ByteSize_ofList_le (cs : List Char) : (String.ofList cs).utf8ByteSize ≤ 4 * cs.length := by
  rw [String.utf8ByteSize_ofList]
  induction cs with
  | nil => simp
  | cons c cs ih =>
    rw [String.utf8Len_cons, List.length_cons]
    have := c.utf8Size_le_four
    omega

/-! ## A bound on the length -/

mutual

/-- Room for the text of a value, from the lengths of its strings. -/
def Value.room : Value → Nat
  | .null => 4
  | .bool _ => 5
  | .number n => (numberChars n).length
  | .string s => 6 * s.utf8ByteSize + 2
  | .array vs => itemsRoom vs + 2
  | .object ms => membersRoom ms + 2

def itemsRoom : List Value → Nat
  | [] => 0
  | v :: vs => v.room + 1 + itemsRoom vs

def membersRoom : List (String × Value) → Nat
  | [] => 0
  | (k, v) :: ms => 6 * k.utf8ByteSize + 2 + v.room + 2 + membersRoom ms

end

theorem escapeChar_length (c : Char) : (escapeChar c).length ≤ 6 := by
  unfold escapeChar
  repeat' split
  all_goals simp

theorem length_toList_le (s : String) : s.toList.length ≤ s.utf8ByteSize := by
  have hofList (cs : List Char) : cs.length ≤ (String.ofList cs).utf8ByteSize := by
    rw [String.utf8ByteSize_ofList]
    induction cs with
    | nil => simp
    | cons c cs ih =>
      rw [String.utf8Len_cons, List.length_cons]
      have := c.utf8Size_pos
      omega
  have := hofList s.toList
  rwa [String.ofList_toList] at this

theorem stringChars_length (s : String) : (stringChars s).length ≤ 6 * s.utf8ByteSize + 2 := by
  have hescape (cs : List Char) : (cs.flatMap escapeChar).length ≤ 6 * cs.length := by
    induction cs with
    | nil => simp
    | cons c cs ih =>
      have := escapeChar_length c
      simp only [List.flatMap_cons, List.length_append, List.length_cons]
      omega
  have hs := hescape s.toList
  have hl := length_toList_le s
  simp only [stringChars, List.length_cons, List.length_append, List.length_nil]
  omega

mutual

theorem length_le_room : ∀ v : Value, v.chars.length ≤ v.room
  | .null => by simp [Value.room, Value.chars]
  | .bool true => by simp [Value.room, Value.chars]
  | .bool false => by simp [Value.room, Value.chars]
  | .number n => by simp [Value.room, Value.chars]
  | .string s => by simpa only [Value.room, Value.chars] using stringChars_length s
  | .array [] => by simp [Value.room, Value.chars]
  | .array (v :: vs) => by
    have hv := length_le_room v
    have hvs := itemsTail_le_room vs
    simp only [Value.room, itemsRoom, Value.chars, List.length_cons, List.length_append]
    omega
  | .object [] => by simp [Value.room, Value.chars]
  | .object ((k, v) :: ms) => by
    have hk := stringChars_length k
    have hv := length_le_room v
    have hms := membersTail_le_room ms
    simp only [Value.room, membersRoom, Value.chars, List.length_cons, List.length_append]
    omega

theorem itemsTail_le_room : ∀ vs : List Value, (itemsTail vs).length ≤ itemsRoom vs + 1
  | [] => by simp [itemsRoom, itemsTail]
  | v :: vs => by
    have hv := length_le_room v
    have hvs := itemsTail_le_room vs
    simp only [itemsRoom, itemsTail, List.length_cons, List.length_append]
    omega

theorem membersTail_le_room :
    ∀ ms : List (String × Value), (membersTail ms).length ≤ membersRoom ms + 1
  | [] => by simp [membersRoom, membersTail]
  | (k, v) :: ms => by
    have hk := stringChars_length k
    have hv := length_le_room v
    have hms := membersTail_le_room ms
    simp only [membersRoom, membersTail, List.length_cons, List.length_append]
    omega

end

/-- A bound on the bytes of a text that is computed without the text. -/
theorem canonicalText_size (v : Value) : (canonicalText.print v).utf8ByteSize ≤ 4 * v.room :=
  (utf8ByteSize_ofList_le v.chars).trans (Nat.mul_le_mul_left 4 (length_le_room v))

theorem string_length_le (s : String) : s.toList.length ≤ (stringChars s).length := by
  have hescape (cs : List Char) : cs.length ≤ (cs.flatMap escapeChar).length := by
    induction cs with
    | nil => simp
    | cons c cs ih =>
      have hc : 1 ≤ (escapeChar c).length := by
        unfold escapeChar
        repeat' split
        all_goals simp
      simp only [List.flatMap_cons, List.length_append, List.length_cons]
      omega
  have hs := hescape s.toList
  simp only [stringChars, List.length_cons, List.length_append]
  omega

theorem membersTail_length_ge {k : String} {v : Value} : ∀ {ms : List (String × Value)},
    (k, v) ∈ ms → v.chars.length ≤ (membersTail ms).length
  | (k', w) :: ms, h => by
    simp only [membersTail, List.length_cons, List.length_append]
    rcases List.mem_cons.mp h with h | h
    · obtain ⟨rfl, rfl⟩ := Prod.mk.inj h
      omega
    · have := membersTail_length_ge h
      omega

/-- The text of an object is no shorter than that of one of its members. -/
theorem member_length_le {k : String} {v : Value} {fields : List (String × Value)}
    (h : (k, v) ∈ fields) : v.chars.length ≤ (Value.ofFields fields).chars.length := by
  have hsorted : (k, v) ∈ sortMembers fields := (sortMembers_perm fields).mem_iff.mpr h
  rw [Value.ofFields]
  revert hsorted
  cases sortMembers fields with
  | nil =>
    intro hmem
    cases hmem
  | cons m ms =>
    obtain ⟨k', w⟩ := m
    intro hmem
    simp only [Value.chars, List.length_cons, List.length_append]
    rcases List.mem_cons.mp hmem with hmem | hmem
    · obtain ⟨rfl, rfl⟩ := Prod.mk.inj hmem
      omega
    · have := membersTail_length_ge hmem
      omega

end Json
