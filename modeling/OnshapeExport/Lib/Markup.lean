import OnshapeExport.Lib.Transducer

/-!
# Lib.Markup

Markup as a program writes it: elements whose attributes are in double quotes or without a value,
and text, where the five characters that mean something are written as references. What is written
otherwise is refused.

* `Piece`, `write` — a start tag, an end tag or a character, and how it is written.
* `read` — the pieces of a text, one character after the other.
* `read_write` — they come back, whatever characters the texts and the values have.
* `fields` — what a form of the pieces submits as it stands.
-/

namespace Markup

open Transducer

abbrev Attributes := List (String × Option String)

inductive Piece where
  | start (name : String) (attributes : Attributes)
  | close (name : String)
  | char (c : Char)
deriving DecidableEq

/-! ## Writing -/

def reference : Char → Option (List Char)
  | '&' => some ['a', 'm', 'p']
  | '<' => some ['l', 't']
  | '>' => some ['g', 't']
  | '"' => some ['q', 'u', 'o', 't']
  | '\'' => some ['#', '3', '9']
  | _ => none

def escapeChar (c : Char) : List Char :=
  match reference c with
  | some name => '&' :: (name ++ [';'])
  | none => [c]

def escape (cs : List Char) : List Char := cs.flatMap escapeChar

def writeAttribute : String × Option String → List Char
  | (key, none) => ' ' :: key.toList
  | (key, some value) => ' ' :: (key.toList ++ '=' :: '"' :: (escape value.toList ++ ['"']))

def Piece.write : Piece → List Char
  | .start name attributes =>
    '<' :: (name.toList ++ (attributes.flatMap writeAttribute ++ ['>']))
  | .close name => '<' :: '/' :: (name.toList ++ ['>'])
  | .char c => escapeChar c

def write (pieces : List Piece) : List Char := pieces.flatMap Piece.write

/-! ## Reading -/

/-- The names that are written: small letters, digits and hyphens. -/
def isNameChar (c : Char) : Bool := c.isLower || c.isDigit || c = '-'

def isReferenceChar (c : Char) : Bool := c.isLower || c.isDigit || c = '#'

def dereference (name : List Char) : Option Char :=
  ['&', '<', '>', '"', '\''].find? fun c => reference c = some name

/-- Where in the markup the reader stands, with what it has read of the tag. -/
inductive Mode where
  | text
  | textReference (name : List Char)
  | opened
  | closing (name : List Char)
  | element (name : List Char)
  | between (name : String) (attributes : Attributes)
  | attribute (name : String) (attributes : Attributes) (key : List Char)
  | equals (name : String) (attributes : Attributes) (key : String)
  | value (name : String) (attributes : Attributes) (key : String) (value : List Char)
  | valueReference (name : String) (attributes : Attributes) (key : String) (value : List Char)
      (reference : List Char)
  | closed (name : String) (attributes : Attributes)
  | refused

def step (m : Mode) (c : Char) : Mode × List Piece :=
  match m with
  | .text =>
    if c = '<' then (.opened, []) else if c = '&' then (.textReference [], [])
    else (.text, [.char c])
  | .textReference name =>
    if c = ';' then
      match dereference name with
      | some d => (.text, [.char d])
      | none => (.refused, [])
    else if isReferenceChar c then (.textReference (name ++ [c]), []) else (.refused, [])
  | .opened =>
    if c = '/' then (.closing [], []) else if isNameChar c then (.element [c], [])
    else (.refused, [])
  | .closing name =>
    if c = '>' then (.text, [.close (String.ofList name)])
    else if isNameChar c then (.closing (name ++ [c]), []) else (.refused, [])
  | .element name =>
    if c = '>' then (.text, [.start (String.ofList name) []])
    else if c = ' ' then (.between (String.ofList name) [], [])
    else if isNameChar c then (.element (name ++ [c]), []) else (.refused, [])
  | .between name attributes =>
    if isNameChar c then (.attribute name attributes [c], []) else (.refused, [])
  | .attribute name attributes key =>
    if c = '>' then (.text, [.start name (attributes ++ [(String.ofList key, none)])])
    else if c = ' ' then (.between name (attributes ++ [(String.ofList key, none)]), [])
    else if c = '=' then (.equals name attributes (String.ofList key), [])
    else if isNameChar c then (.attribute name attributes (key ++ [c]), []) else (.refused, [])
  | .equals name attributes key =>
    if c = '"' then (.value name attributes key [], []) else (.refused, [])
  | .value name attributes key value =>
    if c = '"' then (.closed name (attributes ++ [(key, some (String.ofList value))]), [])
    else if c = '&' then (.valueReference name attributes key value [], [])
    else (.value name attributes key (value ++ [c]), [])
  | .valueReference name attributes key value reference =>
    if c = ';' then
      match dereference reference with
      | some d => (.value name attributes key (value ++ [d]), [])
      | none => (.refused, [])
    else if isReferenceChar c then
      (.valueReference name attributes key value (reference ++ [c]), [])
    else (.refused, [])
  | .closed name attributes =>
    if c = '>' then (.text, [.start name attributes])
    else if c = ' ' then (.between name attributes, []) else (.refused, [])
  | .refused => (.refused, [])

def read (cs : List Char) : Option (List Piece) :=
  match run step .text cs with
  | (.text, pieces) => some pieces
  | _ => none

/-! ## Names and references -/

section Reading

variable {name : String} {attributes : Attributes} {key : String} {cs value : List Char}

def IsName (name : String) : Prop := name.toList ≠ [] ∧ name.toList.all isNameChar = true

instance (name : String) : Decidable (IsName name) := inferInstanceAs (Decidable (_ ∧ _))

theorem IsName.chars (h : IsName name) : ∀ c ∈ name.toList, isNameChar c = true :=
  List.all_eq_true.mp h.2

/-- A name is no symbol. -/
theorem isNameChar_ne {c : Char} (h : isNameChar c = true) :
    c ≠ '>' ∧ c ≠ ' ' ∧ c ≠ '=' ∧ c ≠ '/' := by
  refine ⟨?_, ?_, ?_, ?_⟩ <;>
    rintro rfl <;>
    exact absurd h (by decide)

theorem dereference_reference {c : Char} {name : List Char} (h : reference c = some name) :
    dereference name = some c ∧ ∀ d ∈ name, isReferenceChar d = true ∧ d ≠ ';' := by
  unfold reference at h
  have hall : name.all (fun d => isReferenceChar d && d ≠ ';') = true := by
    split at h <;> cases h <;> decide
  refine ⟨by split at h <;> cases h <;> decide, fun d hd => ?_⟩
  simpa using List.all_eq_true.mp hall d hd

theorem reference_eq_none {c : Char} (h : reference c = none) :
    c ≠ '&' ∧ c ≠ '<' ∧ c ≠ '>' ∧ c ≠ '"' := by
  refine ⟨?_, ?_, ?_, ?_⟩ <;>
    rintro rfl <;>
    cases h

/-! ## Text -/

theorem reads_char (c : Char) : Reads step .text (escapeChar c) .text [.char c] := by
  unfold escapeChar
  cases hc : reference c with
  | none =>
    obtain ⟨hamp, hlt, -, -⟩ := reference_eq_none hc
    exact .one (by simp only [step, if_neg hlt, if_neg hamp])
  | some name =>
    obtain ⟨hback, hname⟩ := dereference_reference hc
    have hread : Reads step (.textReference []) name (.textReference ([] ++ name)) [] :=
      reads_added _ (fun done d hd => by
        simp only [step, if_neg (hname d hd).2, if_pos (hname d hd).1]) []
    exact .skip rfl (hread.silently (.one (by simp [step, hback])))

theorem reads_text (cs : List Char) : Reads step .text (escape cs) .text (cs.map .char) := by
  induction cs with
  | nil => exact .nil
  | cons c cs ih => exact (reads_char c).append ih

/-! ## Tags -/

theorem reads_valueChar (done : List Char) (c : Char) :
    Reads step (.value name attributes key done) (escapeChar c)
      (.value name attributes key (done ++ [c])) [] := by
  unfold escapeChar
  cases hc : reference c with
  | none =>
    obtain ⟨hamp, -, -, hquote⟩ := reference_eq_none hc
    exact .one (by simp only [step, if_neg hquote, if_neg hamp])
  | some ref =>
    obtain ⟨hback, hname⟩ := dereference_reference hc
    have hread : Reads step (.valueReference name attributes key done []) ref
        (.valueReference name attributes key done ([] ++ ref)) [] :=
      reads_added _ (fun read d hd => by
        simp only [step, if_neg (hname d hd).2, if_pos (hname d hd).1]) []
    exact .skip (by simp [step]) (hread.silently (.one (by simp [step, hback])))

theorem reads_value (done cs : List Char) :
    Reads step (.value name attributes key done) (escape cs)
      (.value name attributes key (done ++ cs)) [] :=
  reads_each _ (fun done c _ => reads_valueChar done c) done

theorem reads_key (hkey : IsName key) :
    Reads step (.between name attributes) key.toList (.attribute name attributes key.toList)
      [] := by
  have hchars := hkey.chars
  cases hk : key.toList with
  | nil => exact absurd hk hkey.1
  | cons c cs =>
    rw [hk] at hchars
    have hread : Reads step (.attribute name attributes [c]) cs
        (.attribute name attributes ([c] ++ cs)) [] :=
      reads_added _ (fun done d hd => by
        have hd := hchars d (List.mem_cons_of_mem _ hd)
        obtain ⟨hgt, hspace, heq, -⟩ := isNameChar_ne hd
        simp only [step, if_neg hgt, if_neg hspace, if_neg heq, if_pos hd]) [c]
    exact .skip (by simp only [step, if_pos (hchars c List.mem_cons_self)]) hread

/-- The modes from which the tag ends or another attribute comes. -/
inductive AtAttributes (name : String) : Attributes → Mode → Prop
  | named {cs : List Char} (h : String.ofList cs = name) : AtAttributes name [] (.element cs)
  | bare {attributes : Attributes} {key : List Char} :
      AtAttributes name (attributes ++ [(String.ofList key, none)])
        (.attribute name attributes key)
  | closed {attributes : Attributes} : AtAttributes name attributes (.closed name attributes)

theorem AtAttributes.space {m : Mode} (h : AtAttributes name attributes m) :
    step m ' ' = (.between name attributes, []) := by
  cases h with
  | named h => simp [step, h]
  | bare => simp [step]
  | closed => simp [step]

theorem AtAttributes.over {m : Mode} (h : AtAttributes name attributes m) :
    step m '>' = (.text, [.start name attributes]) := by
  cases h with
  | named h => simp [step, h]
  | bare => simp [step]
  | closed => simp [step]

theorem reads_attribute {m : Mode} (h : AtAttributes name attributes m)
    {a : String × Option String} (hkey : IsName a.1) :
    ∃ m', Reads step m (writeAttribute a) m' [] ∧
      AtAttributes name (attributes ++ [a]) m' := by
  obtain ⟨key, value⟩ := a
  have hread : Reads step (.between name attributes) key.toList
      (.attribute name attributes key.toList) [] := reads_key hkey
  cases value with
  | none =>
    refine ⟨.attribute name attributes key.toList, .skip h.space hread, ?_⟩
    have hbare : AtAttributes name (attributes ++ [(String.ofList key.toList, none)])
        (.attribute name attributes key.toList) := .bare
    rwa [String.ofList_toList] at hbare
  | some value =>
    refine ⟨.closed name (attributes ++ [(key, some value)]), ?_, .closed⟩
    have hvalue : Reads step (.value name attributes key []) (escape value.toList)
        (.value name attributes key ([] ++ value.toList)) [] := reads_value [] value.toList
    have hequals : step (.attribute name attributes key.toList) '=' =
        (.equals name attributes key, []) := by simp [step, String.ofList_toList]
    have hopens : step (.equals name attributes key) '"' = (.value name attributes key [], []) := by
      simp [step]
    have hcloses : step (.value name attributes key ([] ++ value.toList)) '"' =
        (.closed name (attributes ++ [(key, some value)]), []) := by
      simp [step, String.ofList_toList]
    exact .skip h.space (hread.silently (.skip hequals (.skip hopens
      (hvalue.silently (.one hcloses)))))

theorem reads_attributes {m : Mode} (h : AtAttributes name attributes m) (rest : Attributes)
    (hkeys : ∀ a ∈ rest, IsName a.1) :
    ∃ m', Reads step m (rest.flatMap writeAttribute) m' [] ∧
      AtAttributes name (attributes ++ rest) m' := by
  induction rest generalizing attributes m with
  | nil => exact ⟨m, .nil, by rwa [List.append_nil]⟩
  | cons a rest ih =>
    obtain ⟨m₁, hread, hat⟩ := reads_attribute h (hkeys a List.mem_cons_self)
    obtain ⟨m₂, hrest, hat⟩ := ih hat fun b hb => hkeys b (List.mem_cons_of_mem _ hb)
    rw [List.append_assoc, List.singleton_append] at hat
    exact ⟨m₂, hread.silently hrest, hat⟩

end Reading

/-! ## Pieces -/

def Attributes.Named (attributes : Attributes) : Prop := ∀ a ∈ attributes, IsName a.1

/-- The names of a piece are written as they are. -/
def Piece.Named : Piece → Prop
  | .start name attributes => IsName name ∧ attributes.Named
  | .close name => IsName name
  | .char _ => True

def NamedPieces (pieces : List Piece) : Prop := ∀ p ∈ pieces, p.Named

theorem reads_write {p : Piece} (h : p.Named) : Reads step .text p.write .text [p] := by
  cases p with
  | start name attributes =>
    obtain ⟨h, hkeys⟩ := h
    have hchars := h.chars
    cases hname : name.toList with
    | nil => exact absurd hname h.1
    | cons c cs =>
      rw [hname] at hchars
      have hc := hchars c List.mem_cons_self
      have hread : Reads step (.element [c]) cs (.element ([c] ++ cs)) [] :=
        reads_added _ (fun done d hd => by
          have hd := hchars d (List.mem_cons_of_mem _ hd)
          obtain ⟨hgt, hspace, -, -⟩ := isNameChar_ne hd
          simp only [step, if_neg hgt, if_neg hspace, if_pos hd]) [c]
      have hnamed : String.ofList ([c] ++ cs) = name := by
        rw [List.singleton_append, ← hname, String.ofList_toList]
      obtain ⟨m, hattributes, hat⟩ := reads_attributes (.named hnamed) attributes hkeys
      simp only [Piece.write, hname]
      refine .skip rfl (.skip ?_ (hread.silently (hattributes.silently (.one hat.over))))
      simp only [step, if_neg (isNameChar_ne hc).2.2.2, if_pos hc]
  | close name =>
    have hread : Reads step (.closing []) name.toList (.closing ([] ++ name.toList)) [] :=
      reads_added _ (fun done d hd => by
        have hd := IsName.chars h d hd
        simp only [step, if_neg (isNameChar_ne hd).1, if_pos hd]) []
    refine .skip rfl (.skip rfl (hread.silently (.one ?_)))
    simp [step, String.ofList_toList]
  | char c => exact reads_char c

theorem reads_pieces {pieces : List Piece} (h : NamedPieces pieces) :
    Reads step .text (write pieces) .text pieces := by
  induction pieces with
  | nil => exact .nil
  | cons p pieces ih =>
    exact (reads_write (h p List.mem_cons_self)).append
      (ih fun q hq => h q (List.mem_cons_of_mem _ hq))

/-- Whatever the texts and the values are, the pieces that are written are read. -/
theorem read_write {pieces : List Piece} (h : NamedPieces pieces) :
    read (write pieces) = some pieces := by
  have hreads := reads_pieces h
  unfold Reads at hreads
  rw [read, hreads]

@[simp] theorem write_nil : write [] = [] := rfl

@[simp] theorem write_cons (p : Piece) (pieces : List Piece) :
    write (p :: pieces) = p.write ++ write pieces := rfl

@[simp] theorem write_append (pieces rest : List Piece) :
    write (pieces ++ rest) = write pieces ++ write rest := List.flatMap_append

@[simp] theorem escape_append (cs ds : List Char) : escape (cs ++ ds) = escape cs ++ escape ds :=
  List.flatMap_append

theorem escapeChar_plain {c : Char} (h : reference c = none) : escapeChar c = [c] := by
  rw [escapeChar, h]

/-- A text that has nothing to escape. -/
theorem escape_plain (s : String) (h : s.toList.all (fun c => (reference c).isNone) = true) :
    escape s.toList = s.toList := by
  rw [List.all_eq_true] at h
  have hchars : escape s.toList = s.toList.flatMap fun c => [c] :=
    List.flatMap_congr fun c hc => escapeChar_plain (Option.isNone_iff_eq_none.mp (h c hc))
  rw [hchars, List.flatMap_singleton']

/-- The text as pieces. -/
def chars (s : String) : List Piece := s.toList.map .char

@[simp] theorem write_chars (s : String) : write (chars s) = escape s.toList := by
  rw [write, chars, List.flatMap_map]
  rfl

/-- An attribute that is there or not. -/
def flag (name : String) (on : Bool) : Attributes := if on then [(name, none)] else []

/-- An element with what is in it. -/
def element (name : String) (attributes : Attributes) (inner : List Piece) : List Piece :=
  .start name attributes :: (inner ++ [.close name])

section Names

variable {name : String} {attributes rest : Attributes} {pieces inner : List Piece}

/-- Whatever the values are. -/
theorem Attributes.Named.of_keys (keys : List String) (h : attributes.map Prod.fst = keys)
    (hkeys : ∀ key ∈ keys, IsName key) : attributes.Named := by
  intro a ha
  subst h
  exact hkeys a.1 (List.mem_map_of_mem ha)

theorem Attributes.Named.append (h : attributes.Named) (h' : rest.Named) :
    Attributes.Named (attributes ++ rest) := by
  intro a ha
  exact (List.mem_append.mp ha).elim (h a) (h' a)

theorem named_flag {on : Bool} (h : IsName name) : (flag name on).Named := by
  intro a ha
  unfold flag at ha
  split at ha
  · rw [List.mem_singleton.mp ha]
    exact h
  · cases ha

theorem named_nil : NamedPieces [] := by
  intro p hp
  cases hp

theorem NamedPieces.append (h : NamedPieces pieces) (h' : NamedPieces inner) :
    NamedPieces (pieces ++ inner) := by
  intro p hp
  exact (List.mem_append.mp hp).elim (h p) (h' p)

theorem NamedPieces.flatMap {α : Type*} {l : List α} {f : α → List Piece}
    (h : ∀ a ∈ l, NamedPieces (f a)) : NamedPieces (l.flatMap f) := by
  intro p hp
  obtain ⟨a, ha, hp⟩ := List.mem_flatMap.mp hp
  exact h a ha p hp

theorem named_chars (s : String) : NamedPieces (chars s) := by
  intro p hp
  obtain ⟨c, -, rfl⟩ := List.mem_map.mp hp
  trivial

theorem named_start (hname : IsName name) (h : attributes.Named) :
    NamedPieces [.start name attributes] := by
  intro p hp
  rw [List.mem_singleton.mp hp]
  exact ⟨hname, h⟩

theorem named_start_cons (hname : IsName name) (h : attributes.Named) (hinner : NamedPieces inner) :
    NamedPieces (.start name attributes :: inner) :=
  (named_start hname h).append hinner

theorem named_element (hname : IsName name) (h : attributes.Named) (hinner : NamedPieces inner) :
    NamedPieces (element name attributes inner) := by
  intro p hp
  rcases List.mem_cons.mp hp with rfl | hp
  · exact ⟨hname, h⟩
  · rcases List.mem_append.mp hp with hp | hp
    · exact hinner p hp
    · rw [List.mem_singleton.mp hp]
      exact hname

end Names

/-! ## Forms -/

def Attributes.get? (attributes : Attributes) (key : String) : Option String :=
  (attributes.lookup key).map fun value => value.getD ""

/-- The control that the pieces are inside of. -/
inductive Inside where
  | nothing
  | textarea (attributes : Attributes) (text : List Char)
  | select (attributes : Attributes) (first selected : Option String)

/-- The field of a control that has a value. -/
def entry (attributes : Attributes) (value : Option String) : List (String × String) :=
  if (attributes.get? "disabled").isSome then []
  else
    match attributes.get? "name", value with
    | some name, some value => [(name, value)]
    | _, _ => []

/-- A checkbox that is not checked has no field. -/
def inputEntry (attributes : Attributes) : List (String × String) :=
  if attributes.get? "type" = some "checkbox" ∧ (attributes.get? "checked").isNone then []
  else entry attributes (some ((attributes.get? "value").getD ""))

/-- Of the options the last one that is selected counts, and the first one when there is none. -/
def formStep (s : Inside) (p : Piece) : Inside × List (String × String) :=
  match s, p with
  | .nothing, .start name attributes =>
    if name = "input" then (.nothing, inputEntry attributes)
    else if name = "textarea" then (.textarea attributes [], [])
    else if name = "select" then (.select attributes none none, [])
    else (.nothing, [])
  | .textarea attributes text, .char c => (.textarea attributes (text ++ [c]), [])
  | .textarea attributes text, .close name =>
    if name = "textarea" then (.nothing, entry attributes (some (String.ofList text)))
    else (.textarea attributes text, [])
  | .select attributes first selected, .start name option =>
    if name = "option" then
      let value := (option.get? "value").getD ""
      (.select attributes (first.or (some value))
        (if (option.get? "selected").isSome then some value else selected), [])
    else (.select attributes first selected, [])
  | .select attributes first selected, .close name =>
    if name = "select" then (.nothing, entry attributes (selected.or first))
    else (.select attributes first selected, [])
  | s, _ => (s, [])

/-- The names and the values of the controls, as they stand in the markup. -/
def fields (pieces : List Piece) : List (String × String) := (run formStep .nothing pieces).2

section Forms

variable {name : String} {attributes : Attributes} {inner : List Piece}
  {fs : List (String × String)}

theorem reads_plain {name : String} (h : name ≠ "input" ∧ name ≠ "textarea" ∧ name ≠ "select") :
    formStep .nothing (.start name attributes) = (.nothing, []) := by
  simp only [formStep, if_neg h.1, if_neg h.2.1, if_neg h.2.2]

theorem reads_input (attributes : Attributes) : Reads formStep .nothing [.start "input" attributes] .nothing
    (inputEntry attributes) := .one rfl

theorem reads_chars (s : String) : Reads formStep .nothing (chars s) .nothing [] := by
  unfold chars
  induction s.toList with
  | nil => exact .nil
  | cons c cs ih => exact .skip rfl ih

/-- An element that is no control has the fields of what is in it. -/
theorem reads_element (h : name ≠ "input" ∧ name ≠ "textarea" ∧ name ≠ "select")
    (hinner : Reads formStep .nothing inner .nothing fs) :
    Reads formStep .nothing (element name attributes inner) .nothing fs := by
  have hall := hinner.append (Reads.one (show formStep .nothing (.close name) = (.nothing, []) from rfl))
  rw [List.append_nil] at hall
  exact .skip (reads_plain h) hall

theorem reads_textarea (attributes : Attributes) (s : String) :
    Reads formStep .nothing (element "textarea" attributes (chars s)) .nothing
      (entry attributes (some s)) := by
  have hread : Reads formStep (.textarea attributes []) (chars s)
      (.textarea attributes s.toList) [] := by
    rw [chars, List.map_eq_flatMap]
    exact reads_each _ (fun _ _ _ => .one rfl) []
  refine .skip rfl (hread.silently (.one ?_))
  simp [formStep, String.ofList_toList]

/-- An option with its text. -/
def optionElement (value label : String) (selected : Bool) : List Piece :=
  element "option" (("value", some value) :: flag "selected" selected) (chars label)

theorem reads_option {first chosen : Option String} (value label : String) (selected : Bool) :
    Reads formStep (.select attributes first chosen) (optionElement value label selected)
      (.select attributes (first.or (some value)) (if selected then some value else chosen))
      [] := by
  have hstart : formStep (.select attributes first chosen)
      (.start "option" (("value", some value) :: flag "selected" selected)) =
      (.select attributes (first.or (some value)) (if selected then some value else chosen),
        []) := by
    cases selected <;> simp [formStep, Attributes.get?, List.lookup_cons, List.lookup_nil, flag]
  have hlabel : ∀ first chosen, Reads formStep (.select attributes first chosen) (chars label)
      (.select attributes first chosen) [] := by
    intro first chosen
    unfold chars
    induction label.toList with
    | nil => exact .nil
    | cons c cs ih => exact .skip rfl ih
  exact .skip hstart ((hlabel _ _).silently (.one rfl))

/-- A select has the value that is asked for, if it is one of the options. -/
theorem reads_select (attributes : Attributes) (options : List (String × String))
    (wanted : String) :
    Reads formStep .nothing (element "select" attributes
        (options.flatMap fun o => optionElement o.1 o.2 (o.1 = wanted))) .nothing
      (entry attributes
        (if wanted ∈ options.map Prod.fst then some wanted else options.head?.map Prod.fst)) := by
  have hread : ∀ (options : List (String × String)) (first chosen : Option String),
      Reads formStep (.select attributes first chosen)
        (options.flatMap fun o => optionElement o.1 o.2 (o.1 = wanted))
        (.select attributes (first.or (options.head?.map Prod.fst))
          (if wanted ∈ options.map Prod.fst then some wanted else chosen)) [] := by
    intro options
    induction options with
    | nil =>
      intro first chosen
      simpa using Reads.nil
    | cons o options ih =>
      intro first chosen
      have hrest := ih (first.or (some o.1)) (if decide (o.1 = wanted) then some o.1 else chosen)
      have hall := (reads_option o.1 o.2 (decide (o.1 = wanted))).silently hrest
      have hfirst : (first.or (some o.1)).or (options.head?.map Prod.fst) =
          first.or ((o :: options).head?.map Prod.fst) := by
        cases first <;> rfl
      have hchosen : (if wanted ∈ options.map Prod.fst then some wanted
          else if decide (o.1 = wanted) then some o.1 else chosen) =
          if wanted ∈ (o :: options).map Prod.fst then some wanted else chosen := by
        by_cases ho : o.1 = wanted
        · simp [ho]
        · have hne : wanted ≠ o.1 := Ne.symm ho
          simp only [ho, hne, List.map_cons, List.mem_cons, false_or, decide_false,
            Bool.false_eq_true, if_false]
      rwa [hfirst, hchosen] at hall
  refine .skip rfl ((hread options none none).silently (.one ?_))
  by_cases h : wanted ∈ options.map Prod.fst <;> simp [formStep, h]

theorem fields_of_reads {pieces : List Piece} {s : Inside} (h : Reads formStep .nothing pieces s fs) :
    fields pieces = fs := by
  unfold Reads at h
  rw [fields, h]

end Forms

end Markup
