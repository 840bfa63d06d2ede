import Mathlib.Data.List.TakeWhile
import OnshapeExport.ChunkedBody

/-!
# ChunkExtensions

The grammar of what may follow the size of a chunk, and that `validChunkExtensions` accepts it.

* `Extension` — one extension after its semicolon: a name, with a token or a quoted text for its
  value if it has one, and white space wherever it may stand.
* `validChunkExtensions_iff` — the check and the grammar agree.
* `Extensions.newline_not_mem`, `Extensions.head` — why an extension neither ends the line nor
  goes on with the size before it.
-/

namespace OnshapeExport
namespace OnshapeApi

/-! ## The grammar -/

def Ows (bytes : List UInt8) : Prop := ∀ b ∈ bytes, isOws b = true

structure ExtensionToken (bytes : List UInt8) : Prop where
  nonempty : bytes ≠ []
  bytes : ∀ b ∈ bytes, isTokenByte b = true

/-- What stands between quotes. -/
inductive QuotedText : List UInt8 → Prop
  | nil : QuotedText []
  | byte {b : UInt8} {rest : List UInt8} (hquote : b ≠ 34) (hescape : b ≠ 92)
      (hb : isQuotable b = true) (hrest : QuotedText rest) : QuotedText (b :: rest)
  | pair {b : UInt8} {rest : List UInt8} (hb : isQuotable b = true) (hrest : QuotedText rest) :
      QuotedText (92 :: b :: rest)

inductive ExtensionValue : List UInt8 → Prop
  | token {token : List UInt8} (h : ExtensionToken token) : ExtensionValue token
  | quoted {text : List UInt8} (h : QuotedText text) : ExtensionValue (34 :: (text ++ [34]))

inductive Extension : List UInt8 → Prop
  | name {ows name ows' : List UInt8} (hows : Ows ows) (hname : ExtensionToken name) (hows' : Ows ows') :
      Extension (ows ++ (name ++ ows'))
  | pair {ows name ows' ows'' value : List UInt8} (hows : Ows ows) (hname : ExtensionToken name)
      (hows' : Ows ows') (hows'' : Ows ows'') (hvalue : ExtensionValue value) :
      Extension (ows ++ (name ++ (ows' ++ 61 :: (ows'' ++ value))))

inductive Extensions : List UInt8 → Prop
  | done {ows : List UInt8} (h : Ows ows) : Extensions ows
  | more {ows extension rest : List UInt8} (h : Ows ows) (he : Extension extension)
      (hr : Extensions rest) : Extensions (ows ++ 59 :: (extension ++ rest))

/-! ## White space and tokens -/

theorem dropWhile_head {p : UInt8 → Bool} {bytes rest : List UInt8} {b : UInt8}
    (h : bytes.dropWhile p = b :: rest) : p b = false := by
  have hhead := List.head?_dropWhile_not p bytes
  rw [h] at hhead
  exact hhead

theorem ows_trimmed (bytes : List UInt8) : ∃ ows, Ows ows ∧ bytes = ows ++ trimOws bytes :=
  ⟨bytes.takeWhile isOws, fun _ hb => List.mem_takeWhile_imp hb,
    List.takeWhile_append_dropWhile.symm⟩

theorem trimOws_append {ows : List UInt8} (h : Ows ows) (rest : List UInt8) :
    trimOws (ows ++ rest) = trimOws rest :=
  List.dropWhile_append_of_pos h

theorem trimOws_cons {b : UInt8} (h : isOws b = false) (rest : List UInt8) :
    trimOws (b :: rest) = b :: rest :=
  List.dropWhile_cons_of_neg (by simp [h])

@[simp] theorem trimOws_trimOws (bytes : List UInt8) : trimOws (trimOws bytes) = trimOws bytes := by
  cases h : trimOws bytes with
  | nil => rfl
  | cons b rest => exact trimOws_cons (dropWhile_head h) rest

theorem ows_not_token {b : UInt8} (h : isOws b = true) : isTokenByte b = false := by
  simp only [isOws, Bool.or_eq_true, decide_eq_true_eq] at h
  rcases h with rfl | rfl <;> decide

theorem token_not_ows {b : UInt8} (h : isTokenByte b = true) : isOws b = false := by
  cases ho : isOws b with
  | false => rfl
  | true => rw [ows_not_token ho] at h; cases h

theorem ExtensionToken.cons {token : List UInt8} (h : ExtensionToken token) : ∃ b rest, token = b :: rest ∧
    isTokenByte b = true := by
  cases token with
  | nil => exact absurd rfl h.nonempty
  | cons b rest => exact ⟨b, rest, rfl, h.bytes b List.mem_cons_self⟩

theorem ExtensionToken.trimOws {token : List UInt8} (h : ExtensionToken token) (rest : List UInt8) :
    OnshapeApi.trimOws (token ++ rest) = token ++ rest := by
  obtain ⟨b, tail, rfl, hb⟩ := h.cons
  exact trimOws_cons (token_not_ows hb) _

/-- A token ends where no byte of a token follows. -/
theorem token_split {token rest : List UInt8} (htoken : ∀ b ∈ token, isTokenByte b = true)
    (hrest : ∀ b ∈ rest.head?, isTokenByte b = false) :
    (token ++ rest).takeWhile isTokenByte = token ∧
      (token ++ rest).dropWhile isTokenByte = rest := by
  rw [List.takeWhile_append_of_pos htoken, List.dropWhile_append_of_pos htoken]
  cases rest with
  | nil => exact ⟨List.append_nil token, rfl⟩
  | cons b tail =>
    have hb : ¬isTokenByte b = true := by simp [hrest b rfl]
    rw [List.takeWhile_cons_of_neg hb, List.dropWhile_cons_of_neg hb]
    exact ⟨List.append_nil token, rfl⟩

theorem token_taken {bytes : List UInt8} (hne : bytes.takeWhile isTokenByte ≠ []) :
    ExtensionToken (bytes.takeWhile isTokenByte) ∧
      ∀ b ∈ (bytes.dropWhile isTokenByte).head?, isTokenByte b = false := by
  refine ⟨⟨hne, fun b hb => List.mem_takeWhile_imp hb⟩, fun b hb => ?_⟩
  obtain ⟨tail, htail⟩ := List.head?_eq_some_iff.mp hb
  exact dropWhile_head htail

theorem takeToken_some {bytes rest : List UInt8} : takeToken bytes = some rest ↔
    ∃ token, ExtensionToken token ∧ bytes = token ++ rest ∧ ∀ b ∈ rest.head?, isTokenByte b = false := by
  unfold takeToken
  constructor
  · intro h
    split at h
    · cases h
    · rename_i hne
      cases h
      obtain ⟨htoken, hrest⟩ := token_taken hne
      exact ⟨_, htoken, List.takeWhile_append_dropWhile.symm, hrest⟩
  · rintro ⟨token, htoken, rfl, hrest⟩
    obtain ⟨htake, hdrop⟩ := token_split htoken.bytes hrest
    rw [htake, if_neg htoken.nonempty, hdrop]

theorem consume_some {bytes rest : List UInt8} {expected : UInt8} :
    consume bytes expected = some rest ↔ bytes = expected :: rest := by
  cases bytes with
  | nil => exact iff_of_false nofun nofun
  | cons b tail =>
    simp only [consume]
    by_cases hb : b = expected
    · rw [if_pos hb, hb, Option.some.injEq, List.cons.injEq, and_iff_right rfl]
    · rw [if_neg hb]
      exact iff_of_false nofun fun h => hb (List.cons.inj h).1

/-! ## Quoted texts -/

/-- A text with its first byte escaped, or without. -/
def EscapedText : Bool → List UInt8 → Prop
  | false, text => QuotedText text
  | true, text => QuotedText (92 :: text)

theorem takeQuoted_sound {escaped : Bool} {bytes rest : List UInt8}
    (h : takeQuoted escaped bytes = some rest) :
    ∃ text, EscapedText escaped text ∧ bytes = text ++ 34 :: rest := by
  induction bytes generalizing escaped with
  | nil => cases escaped <;> cases h
  | cons b tail ih =>
    cases escaped with
    | true =>
      simp only [takeQuoted] at h
      split at h
      · rename_i hb
        obtain ⟨text, htext, rfl⟩ := ih h
        exact ⟨b :: text, .pair hb htext, rfl⟩
      · cases h
    | false =>
      simp only [takeQuoted] at h
      split at h
      · rename_i hquote
        cases h
        exact ⟨[], .nil, by rw [hquote, List.nil_append]⟩
      · rename_i hquote
        split at h
        · rename_i hescape
          obtain ⟨text, htext, rfl⟩ := ih h
          exact ⟨b :: text, by rw [hescape]; exact htext, rfl⟩
        · rename_i hescape
          split at h
          · rename_i hb
            obtain ⟨text, htext, rfl⟩ := ih h
            exact ⟨b :: text, .byte hquote hescape hb htext, rfl⟩
          · cases h

theorem takeQuoted_complete {text : List UInt8} (h : QuotedText text) (rest : List UInt8) :
    takeQuoted false (text ++ 34 :: rest) = some rest := by
  induction h with
  | nil => rfl
  | byte hquote hescape hb _ ih =>
    simp only [List.cons_append, takeQuoted, if_neg hquote, if_neg hescape, hb, if_true, ih]
  | pair hb _ ih =>
    simp only [List.cons_append, takeQuoted, hb, if_true, ih]
    rfl

/-! ## Extensions -/

/-- What may follow an extension: nothing or another one, after white space. -/
def Open (rest : List UInt8) : Prop := trimOws rest = [] ∨ ∃ tail, trimOws rest = 59 :: tail

theorem Open.head {rest : List UInt8} (h : Open rest) : ∀ b ∈ rest.head?, isTokenByte b = false := by
  intro b hb
  obtain ⟨tail, rfl⟩ := List.head?_eq_some_iff.mp hb
  cases ho : isOws b with
  | true => exact ows_not_token ho
  | false =>
    rw [Open, trimOws_cons ho] at h
    obtain h | ⟨tail', h⟩ := h
    · cases h
    · rw [(List.cons.inj h).1]
      decide

theorem Open.append {ows rest : List UInt8} (hows : Ows ows) (h : Open rest) :
    Open (ows ++ rest) := by
  rw [Open, trimOws_append hows]
  exact h

theorem Open.consume {rest : List UInt8} (h : Open rest) : consume (trimOws rest) 61 = none := by
  obtain h | ⟨tail, h⟩ := h <;> rw [h] <;> rfl

theorem takeExtension_sound {bytes rest : List UInt8} (h : takeExtension bytes = some rest) :
    ∃ extension, Extension extension ∧ bytes = extension ++ rest := by
  obtain ⟨ows, hows, hbytes⟩ := ows_trimmed bytes
  obtain ⟨afterName, hname, h⟩ := Option.bind_eq_some_iff.mp h
  obtain ⟨name, hname, he, -⟩ := takeToken_some.mp hname
  obtain ⟨ows', hows', hafter⟩ := ows_trimmed afterName
  split at h
  · cases h
    exact ⟨_, .name hows hname hows', by simp only [List.append_assoc, ← hafter, ← he, ← hbytes]⟩
  · rename_i afterSign hsign
    rw [consume_some] at hsign
    obtain ⟨ows'', hows'', hvalue⟩ := ows_trimmed afterSign
    rw [he, hafter, hsign, hvalue] at hbytes
    have hfinish {value : List UInt8} (hv : ExtensionValue value)
        (hrest : trimOws afterSign = value ++ rest) :
        ∃ extension, Extension extension ∧ bytes = extension ++ rest := by
      refine ⟨_, .pair hows hname hows' hows'' hv, ?_⟩
      rw [hbytes, hrest]
      simp only [List.append_assoc, List.cons_append]
    split at h
    · rename_i afterQuote hquote
      rw [consume_some] at hquote
      obtain ⟨text, htext, rfl⟩ := takeQuoted_sound h
      exact hfinish (.quoted htext) (by rw [hquote]; simp)
    · obtain ⟨token, htoken, htail, -⟩ := takeToken_some.mp h
      exact hfinish (.token htoken) htail

theorem takeExtension_complete {extension rest : List UInt8} (he : Extension extension)
    (hr : Open rest) :
    ∃ rest', takeExtension (extension ++ rest) = some rest' ∧ trimOws rest' = trimOws rest := by
  unfold takeExtension
  cases he with
  | @name ows name ows' hows hname hows' =>
    have htoken : takeToken (trimOws (ows ++ (name ++ ows') ++ rest)) = some (ows' ++ rest) := by
      refine takeToken_some.mpr ⟨name, hname, ?_, (hr.append hows').head⟩
      rw [List.append_assoc, trimOws_append hows, List.append_assoc, hname.trimOws]
    refine ⟨trimOws rest, ?_, trimOws_trimOws rest⟩
    simp only [htoken, Option.bind_eq_bind, Option.bind_some, trimOws_append hows', hr.consume]
    rfl
  | @pair ows name ows' ows'' value hows hname hows' hows'' hvalue =>
    have htoken : takeToken (trimOws (ows ++ (name ++ (ows' ++ 61 :: (ows'' ++ value))) ++ rest)) =
        some (ows' ++ 61 :: (ows'' ++ value ++ rest)) := by
      refine takeToken_some.mpr ⟨name, hname, ?_, fun b hb => ?_⟩
      · rw [List.append_assoc, trimOws_append hows, List.append_assoc, hname.trimOws]
        simp only [List.append_assoc, List.cons_append]
      · obtain ⟨tail, htail⟩ := List.head?_eq_some_iff.mp hb
        cases ows' with
        | nil =>
          rw [← (List.cons.inj htail).1]
          decide
        | cons b' ows' =>
          rw [← (List.cons.inj htail).1]
          exact ows_not_token (hows' b' List.mem_cons_self)
    have hsign : consume (trimOws (ows' ++ 61 :: (ows'' ++ value ++ rest))) 61 =
        some (ows'' ++ value ++ rest) := by
      rw [trimOws_append hows', trimOws_cons (by decide), consume_some]
    have hvalueStart : trimOws (ows'' ++ value ++ rest) = trimOws (value ++ rest) := by
      rw [List.append_assoc, trimOws_append hows'']
    refine ⟨rest, ?_, rfl⟩
    rw [htoken, Option.bind_eq_bind, Option.bind_some]
    simp only [hsign, hvalueStart]
    cases hvalue with
    | token ht =>
      have hquote : consume (trimOws (value ++ rest)) 34 = none := by
        obtain ⟨b, tail, rfl, hb⟩ := ht.cons
        rw [ht.trimOws]
        exact if_neg fun h34 => by rw [h34] at hb; exact absurd hb (by decide)
      simp only [hquote]
      exact takeToken_some.mpr ⟨value, ht, ht.trimOws rest, hr.head⟩
    | @quoted text hq =>
      have hquote : consume (trimOws (34 :: (text ++ [34]) ++ rest)) 34 =
          some (text ++ 34 :: rest) := by
        rw [List.cons_append, trimOws_cons (by decide), consume_some, List.append_assoc]
        rfl
      simp only [hquote]
      exact takeQuoted_complete hq rest

/-! ## The check -/

theorem Extensions.opens {bytes : List UInt8} (h : Extensions bytes) : Open bytes := by
  cases h with
  | done h =>
    refine .inl ?_
    have := trimOws_append h []
    rwa [List.append_nil] at this
  | more h he hr =>
    exact .inr ⟨_, by rw [trimOws_append h, trimOws_cons (by decide)]⟩

theorem extensionLoop_sound {turns : Nat} {bytes : List UInt8}
    (h : extensionLoop turns bytes = true) : Extensions bytes := by
  induction turns generalizing bytes with
  | zero => cases h
  | succ turns ih =>
    obtain ⟨ows, hows, hbytes⟩ := ows_trimmed bytes
    simp only [extensionLoop] at h
    split at h
    · rename_i hnil
      rw [hnil, List.append_nil] at hbytes
      exact hbytes ▸ .done hows
    · split at h
      · cases h
      · rename_i rest hrest
        obtain ⟨after, hafter, hextension⟩ := Option.bind_eq_some_iff.mp hrest
        obtain ⟨extension, he, rfl⟩ := takeExtension_sound hextension
        rw [hbytes, consume_some.mp hafter]
        exact .more hows he (ih h)

theorem extensionLoop_trim {turns : Nat} {bytes bytes' : List UInt8}
    (h : trimOws bytes = trimOws bytes') : extensionLoop turns bytes = extensionLoop turns bytes' := by
  cases turns with
  | zero => rfl
  | succ turns => simp only [extensionLoop, h]

theorem extensionLoop_complete {turns : Nat} {bytes : List UInt8} (h : Extensions bytes)
    (hturns : bytes.length < turns) : extensionLoop turns bytes = true := by
  induction h generalizing turns with
  | done hows =>
    cases turns with
    | zero => omega
    | succ turns =>
      have htrim := trimOws_append hows []
      rw [List.append_nil] at htrim
      simp only [extensionLoop, htrim]
      rfl
  | @more ows extension rest hows he hr ih =>
    cases turns with
    | zero => omega
    | succ turns =>
      obtain ⟨rest', hextension, htrim⟩ := takeExtension_complete he hr.opens
      have hstart : trimOws (ows ++ 59 :: (extension ++ rest)) = 59 :: (extension ++ rest) := by
        rw [trimOws_append hows, trimOws_cons (by decide)]
      have hconsume : consume (59 :: (extension ++ rest)) 59 = some (extension ++ rest) :=
        consume_some.mpr rfl
      simp only [extensionLoop, hstart, hconsume, Option.bind_some, hextension]
      rw [extensionLoop_trim htrim]
      refine ih ?_
      rw [List.length_append, List.length_cons, List.length_append] at hturns
      omega

theorem validChunkExtensions_iff {bytes : List UInt8} :
    validChunkExtensions bytes = true ↔ Extensions bytes :=
  ⟨extensionLoop_sound, fun h => extensionLoop_complete h (Nat.lt_succ_self _)⟩

/-! ## Between a size and the end of its line -/

theorem Ows.newline_not_mem {ows : List UInt8} (h : Ows ows) : 10 ∉ ows :=
  fun hmem => absurd (h 10 hmem) (by decide)

theorem ExtensionToken.newline_not_mem {token : List UInt8} (h : ExtensionToken token) : 10 ∉ token :=
  fun hmem => absurd (h.bytes 10 hmem) (by decide)

theorem QuotedText.newline_not_mem {text : List UInt8} (h : QuotedText text) : 10 ∉ text := by
  induction h with
  | nil => exact List.not_mem_nil
  | byte _ _ hb _ ih =>
    refine List.not_mem_cons_of_ne_of_not_mem ?_ ih
    rintro rfl
    exact absurd hb (by decide)
  | pair hb _ ih =>
    refine List.not_mem_cons_of_ne_of_not_mem (by decide)
      (List.not_mem_cons_of_ne_of_not_mem ?_ ih)
    rintro rfl
    exact absurd hb (by decide)

theorem Extension.newline_not_mem {extension : List UInt8} (h : Extension extension) :
    10 ∉ extension := by
  have hnot {a b : List UInt8} (ha : 10 ∉ a) (hb : 10 ∉ b) : 10 ∉ a ++ b :=
    fun hmem => (List.mem_append.mp hmem).elim ha hb
  have hcons {b : UInt8} {a : List UInt8} (hb : 10 ≠ b) (ha : 10 ∉ a) : 10 ∉ b :: a :=
    List.not_mem_cons_of_ne_of_not_mem hb ha
  cases h with
  | name hows hname hows' =>
    exact hnot hows.newline_not_mem (hnot hname.newline_not_mem hows'.newline_not_mem)
  | pair hows hname hows' hows'' hvalue =>
    refine hnot hows.newline_not_mem (hnot hname.newline_not_mem (hnot hows'.newline_not_mem
      (hcons (by decide) (hnot hows''.newline_not_mem ?_))))
    cases hvalue with
    | token h => exact h.newline_not_mem
    | quoted h => exact hcons (by decide) (hnot h.newline_not_mem (by decide))

theorem Extensions.newline_not_mem {bytes : List UInt8} (h : Extensions bytes) : 10 ∉ bytes := by
  induction h with
  | done h => exact h.newline_not_mem
  | more h he _ ih =>
    intro hmem
    obtain hmem | hmem := List.mem_append.mp hmem
    · exact h.newline_not_mem hmem
    · obtain hten | hmem := List.mem_cons.mp hmem
      · exact absurd hten (by decide)
      · exact (List.mem_append.mp hmem).elim he.newline_not_mem ih

theorem Extensions.head {bytes : List UInt8} (h : Extensions bytes) :
    ∀ b ∈ bytes.head?, isAsciiHexdigit b = false := by
  intro b hb
  have hows {b : UInt8} (h : isOws b = true) : isAsciiHexdigit b = false := by
    simp only [isOws, Bool.or_eq_true, decide_eq_true_eq] at h
    rcases h with rfl | rfl <;> decide
  obtain ⟨tail, rfl⟩ := List.head?_eq_some_iff.mp hb
  cases ho : isOws b with
  | true => exact hows ho
  | false =>
    obtain h | ⟨tail', h⟩ := h.opens
    · rw [trimOws_cons ho] at h
      cases h
    · rw [trimOws_cons ho] at h
      rw [(List.cons.inj h).1]
      decide

end OnshapeApi
end OnshapeExport
