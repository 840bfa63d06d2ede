import OnshapeExport.ChunkedBody

/-!
# ChunkedReading

What the reads of a chunked body do, said of the bytes that are left and of how they end. The
fragments they come in do not matter, and no check of the language fails.

* `lineFrom`, `takeExact` — a line and a number of bytes, of a stream.
* `readLine_follows`, `readExactBody_follows` — the loops give these.
* `Safe` — a result that is not a failed check of the language.
-/

namespace OnshapeExport
namespace OnshapeApi

open ByteStream CacheKey Checks

theorem ok_then {ε α β : Type} (a : α) (f : α → Except ε β) : (Except.ok a >>= f) = f a := rfl

theorem error_then {ε α β : Type} (e : ε) (f : α → Except ε β) :
    (Except.error e >>= f) = .error e := rfl

theorem ensure_true {ε : Type} {p : Prop} [Decidable p] {e : ε} (h : p) : ensure p e = .ok () :=
  ensure_ok.mpr h

theorem ensure_false {ε : Type} {p : Prop} [Decidable p] {e : ε} (h : ¬ p) :
    ensure p e = .error e :=
  ensure_error.mpr ⟨h, rfl⟩

theorem checkedSub_ok {a b : Nat} (h : b ≤ a) : checkedSub a b = .ok (a - b) := if_pos h

theorem sliceTo_ok {bytes : List UInt8} {n : Nat} (h : n ≤ bytes.length) :
    sliceTo bytes n = .ok (bytes.take n) := if_pos h

theorem sliceFrom_ok {bytes : List UInt8} {n : Nat} (h : n ≤ bytes.length) :
    sliceFrom bytes n = .ok (bytes.drop n) := if_pos h

theorem index_ok {bytes : List UInt8} {n : Nat} {byte : UInt8} (h : bytes[n]? = some byte) :
    index bytes n = .ok byte := by
  rw [index, h]

/-! ## Lines -/

/-- What a reader says of a stream that ends too early. -/
def endOf : Ending → Stop
  | .closed => .failed (transport "premature_eof")
  | .unexpectedEof => .failed (transport "response_read_failed")
  | .failed => .failed (transport "response_read_failed")

/-- The line of a stream, after what was read of it. -/
def lineFrom (limit : Nat) (line : List UInt8) (s : Stream UInt8) :
    Except Stop (List UInt8 × Stream UInt8) :=
  match s.content.findIdx? (· = 10) with
  | some i =>
    if limit < line.length + (i + 1) then .error (.failed (operational "http_header_byte_limit"))
    else if (line ++ s.content.take (i + 1)).drop ((line ++ s.content.take (i + 1)).length - 2) =
        [13, 10] then
      .ok (line ++ s.content.take (i + 1), s.drop (i + 1))
    else .error (.failed (transport "invalid_http_line_framing"))
  | none =>
    if limit < line.length + s.content.length then
      .error (.failed (operational "http_header_byte_limit"))
    else .error (endOf s.ending)

theorem lineFrom_step {limit : Nat} {line before after : List UInt8} {ending : Ending}
    (hnone : before.findIdx? (· = 10) = none) :
    lineFrom limit line ⟨before ++ after, ending⟩ =
      lineFrom limit (line ++ before) ⟨after, ending⟩ := by
  unfold lineFrom
  simp only [List.findIdx?_append, hnone, Option.none_or]
  cases after.findIdx? (· = 10) with
  | none =>
    simp only [Option.map_none, List.length_append, Nat.add_assoc]
  | some i =>
    have htake : (before ++ after).take (i + before.length + 1) = before ++ after.take (i + 1) := by
      rw [show i + before.length + 1 = before.length + (i + 1) by omega, List.take_length_add_append]
    have hdrop : (before ++ after).drop (i + before.length + 1) = after.drop (i + 1) := by
      rw [show i + before.length + 1 = before.length + (i + 1) by omega, List.drop_length_add_append]
    simp only [Option.map_some, htake, Stream.drop, hdrop, List.length_append, List.append_assoc,
      show line.length + (i + before.length + 1) = line.length + before.length + (i + 1) by omega]

theorem lineFrom_long {limit : Nat} {line before after : List UInt8} {ending : Ending}
    (hnone : before.findIdx? (· = 10) = none) (h : limit < line.length + before.length) :
    lineFrom limit line ⟨before ++ after, ending⟩ =
      .error (.failed (operational "http_header_byte_limit")) := by
  rw [lineFrom_step hnone]
  unfold lineFrom
  cases after.findIdx? (· = 10) with
  | none =>
    simp only [List.length_append]
    rw [if_pos (by omega)]
  | some i =>
    simp only [List.length_append]
    rw [if_pos (by omega)]

theorem stream_buffer (r : ResponseReader) :
    r.stream = ⟨r.buffer ++ r.inner.content, r.stream.ending⟩ := rfl

/-- The loop over the fragments reads the line of the stream. -/
theorem lineLoop_follows {limit turns : Nat} {line : List UInt8} {r : ResponseReader}
    (hline : line.length ≤ limit) (hturns : r.stream.content.length < turns) :
    Follows (lineLoop limit turns line r) (lineFrom limit line r.stream) := by
  induction turns generalizing line r with
  | zero => omega
  | succ turns ih =>
    obtain ⟨hcontent, hfill⟩ | ⟨available, r', hfill, hne, hbuffer, hstream⟩ := fillBuf_cases r
    · have hspec : lineFrom limit line r.stream = .error (endOf r.stream.ending) := by
        simp only [lineFrom, hcontent, List.findIdx?_nil, List.length_nil, Nat.add_zero]
        rw [if_neg (by omega)]
      rw [hspec]
      simp only [lineLoop, hfill]
      cases r.stream.ending with
      | closed =>
        simp only [Ending.read, ensure_false (fun h : ¬ ([] : List UInt8) = [] => h rfl),
          error_then, endOf]
        exact Follows.error _
      | unexpectedEof => exact Follows.error _
      | failed => exact Follows.error _
    · have hs : r.stream = ⟨available ++ r'.inner.content, r.stream.ending⟩ := by
        rw [← hstream, stream_buffer, hbuffer]
      simp only [lineLoop, hfill, ensure_true hne, ok_then, checkedSub_ok hline]
      cases hfind : available.findIdx? (· = 10) with
      | some i =>
        obtain ⟨hi, hbyte, -⟩ := List.findIdx?_eq_some_iff_getElem.mp hfind
        have hbyte : available[i]? = some 10 := by
          rw [List.getElem?_eq_getElem hi]
          simpa using hbyte
        have hspec : lineFrom limit line r.stream =
            if limit < line.length + (i + 1) then
              .error (.failed (operational "http_header_byte_limit"))
            else if (line ++ available.take (i + 1)).drop
                ((line ++ available.take (i + 1)).length - 2) = [13, 10] then
              .ok (line ++ available.take (i + 1), r.stream.drop (i + 1))
            else .error (.failed (transport "invalid_http_line_framing")) := by
          rw [hs]
          simp only [lineFrom, List.findIdx?_append, hfind, Option.some_or,
            List.take_append_of_le_length (Nat.succ_le_of_lt hi)]
        rw [hspec]
        simp only [Option.map_some, Option.getD_some]
        by_cases hroom : i + 1 ≤ limit - line.length
        · rw [ensure_true hroom, if_neg (by omega)]
          simp only [ok_then, checkedSub_ok (Nat.le_add_left 1 i), Nat.add_sub_cancel,
            index_ok hbyte, sliceTo_ok (Nat.succ_le_of_lt hi), if_true]
          split
          · rename_i hends
            rw [ensure_true hends, ok_then, ← hstream,
              ← consume_stream (hbuffer ▸ Nat.succ_le_of_lt hi)]
            exact Follows.ok _ _
          · rename_i hends
            rw [ensure_false hends]
            exact Follows.error _
        · rw [ensure_false hroom, if_pos (by omega)]
          exact Follows.error _
      | none =>
        simp only [Option.map_none, Option.getD_none]
        by_cases hroom : available.length ≤ limit - line.length
        · obtain ⟨byte, hbyte⟩ : ∃ byte, available[available.length - 1]? = some byte := by
            have hpos := List.length_pos_iff.mpr hne
            exact ⟨_, List.getElem?_eq_getElem (by omega)⟩
          have hnot : byte ≠ 10 := by
            have := List.findIdx?_eq_none_iff.mp hfind byte (List.mem_of_getElem? hbyte)
            simpa using this
          simp only [ensure_true hroom, ok_then,
            checkedSub_ok (Nat.succ_le_of_lt (List.length_pos_iff.mpr hne)), index_ok hbyte,
            sliceTo_ok (Nat.le_refl _), List.take_length, if_neg hnot]
          have hrest : (r'.consume available.length).stream =
              ⟨r'.inner.content, r.stream.ending⟩ := by
            rw [consume_stream (Nat.le_of_eq (congrArg List.length hbuffer.symm)), hstream, hs,
              Stream.drop, List.drop_left]
          rw [hs, lineFrom_step hfind, ← hrest]
          refine ih ?_ ?_
          · rw [List.length_append]
            omega
          · have hpos := List.length_pos_iff.mpr hne
            have hlength := congrArg (fun s : Stream UInt8 => s.content.length) hs
            simp only [List.length_append] at hlength
            rw [hrest]
            show r'.inner.content.length < turns
            omega
        · rw [ensure_false hroom, hs, lineFrom_long hfind (by omega)]
          exact Follows.error _

theorem readLine_follows (limit : Nat) (r : ResponseReader) :
    Follows (readLine limit r) (lineFrom limit [] r.stream) :=
  lineLoop_follows (Nat.zero_le _) (Nat.lt_succ_self _)

/-! ## Numbers of bytes -/

/-- A number of bytes of a stream, after those there are within the limit. -/
def takeExact (limit length : Nat) (bytes : List UInt8) (s : Stream UInt8) :
    Except Stop (List UInt8 × Stream UInt8) :=
  if min length s.content.length ≤ limit - bytes.length then
    if length ≤ s.content.length then .ok (bytes ++ s.content.take length, s.drop length)
    else .error (endOf s.ending)
  else .error (.failed (operational "response_byte_limit"))

theorem takeExact_step {limit length : Nat} {bytes read rest : List UInt8} {ending : Ending}
    (hlength : read.length ≤ length) (hroom : read.length ≤ limit - bytes.length) :
    takeExact limit length bytes ⟨read ++ rest, ending⟩ =
      takeExact limit (length - read.length) (bytes ++ read) ⟨rest, ending⟩ := by
  have hmin : min length (read.length + rest.length) ≤ limit - bytes.length ↔
      min (length - read.length) rest.length ≤ limit - (bytes.length + read.length) := by
    omega
  have hle : length ≤ read.length + rest.length ↔ length - read.length ≤ rest.length := by
    omega
  have htake : (read ++ rest).take length = read ++ rest.take (length - read.length) := by
    rw [List.take_append, List.take_of_length_le hlength]
  have hdrop : (read ++ rest).drop length = rest.drop (length - read.length) := by
    rw [List.drop_append, List.drop_of_length_le hlength, List.nil_append]
  simp only [takeExact, List.length_append, hmin, hle, htake, Stream.drop, hdrop,
    List.append_assoc]

/-- The loop over the reads takes the bytes of the stream. -/
theorem bodyLoop_follows {limit turns remaining : Nat} {bytes : List UInt8} {r : ResponseReader}
    (hbytes : bytes.length ≤ limit) (hturns : r.stream.content.length < turns) :
    Follows (bodyLoop limit turns remaining bytes r) (takeExact limit remaining bytes r.stream) := by
  induction turns generalizing remaining bytes r with
  | zero => omega
  | succ turns ih =>
    unfold bodyLoop
    by_cases hzero : remaining = 0
    · rw [if_pos hzero, hzero]
      simp only [takeExact, Nat.zero_min, Nat.zero_le, if_true, List.take_zero, List.append_nil]
      exact Follows.ok _ _
    rw [if_neg hzero]
    simp only [checkedSub_ok hbytes, ok_then]
    have hmaximum : 0 < min (min remaining 8192) (saturatingAdd (limit - bytes.length) 1) := by
      simp only [saturatingAdd, usizeMax]
      omega
    obtain ⟨hcontent, hread⟩ | ⟨read, r', hread, hne, hlength, hcontent, hending⟩ :=
      read_cases r hmaximum
    · have hspec : takeExact limit remaining bytes r.stream = .error (endOf r.stream.ending) := by
        simp only [takeExact, hcontent, List.length_nil, Nat.min_zero, Nat.zero_le, if_true]
        rw [if_neg (by omega)]
      rw [hspec, hread]
      cases r.stream.ending with
      | closed =>
        simp only [Ending.read, ensure_false (fun h : ¬ ([] : List UInt8) = [] => h rfl),
          error_then, endOf]
        exact Follows.error _
      | unexpectedEof => exact Follows.error _
      | failed => exact Follows.error _
    · have hs : r.stream = ⟨read ++ r'.stream.content, r'.stream.ending⟩ := by
        rw [← hcontent, hending]
      have hpos := List.length_pos_iff.mpr hne
      have hmin : min (min remaining 8192) (saturatingAdd (limit - bytes.length) 1) ≤ remaining :=
        (Nat.min_le_left _ _).trans (Nat.min_le_left _ _)
      simp only [hread, ensure_true hne, ok_then]
      by_cases hroom : read.length ≤ limit - bytes.length
      · simp only [ensure_true hroom, ok_then, checkedSub_ok (hlength.trans hmin)]
        rw [hs, takeExact_step (hlength.trans hmin) hroom]
        refine ih ?_ ?_
        · rw [List.length_append]
          omega
        · have hcount := congrArg List.length hcontent
          rw [List.length_append] at hcount
          omega
      · have hspec : takeExact limit remaining bytes r.stream =
            .error (.failed (operational "response_byte_limit")) := by
          rw [takeExact, if_neg]
          rw [hcontent, List.length_append]
          omega
        rw [hspec, ensure_false hroom]
        exact Follows.error _

theorem readExactBody_follows {length limit : Nat} {bytes : List UInt8} (r : ResponseReader)
    (hbytes : bytes.length ≤ limit) :
    Follows (readExactBody length bytes limit r) (takeExact limit length bytes r.stream) :=
  bodyLoop_follows hbytes (Nat.lt_succ_self _)

/-! ## The end of the connection -/

theorem requireCompletedClose_ok {r : ResponseReader} : requireCompletedClose r = .ok () ↔
    r.stream.content = [] ∧ r.stream.ending ≠ .failed := by
  unfold requireCompletedClose
  obtain ⟨hcontent, hread⟩ | ⟨read, r', hread, hne, -, hcontent, -⟩ := read_cases r Nat.one_pos
  · rw [hread, and_iff_right hcontent]
    cases r.stream.ending with
    | closed => exact iff_of_true rfl (by decide)
    | unexpectedEof => exact iff_of_true rfl (by decide)
    | failed => exact iff_of_false nofun (fun h => h rfl)
  · rw [hread, hcontent]
    cases read with
    | nil => exact absurd rfl hne
    | cons byte rest => exact iff_of_false nofun fun h => List.cons_ne_nil _ _ h.1

/-- What is said of the end does not depend on the fragments either. -/
theorem requireCompletedClose_agree {r r' : ResponseReader} (h : r.stream = r'.stream) :
    requireCompletedClose r = requireCompletedClose r' := by
  unfold requireCompletedClose
  obtain ⟨hcontent, hread⟩ | ⟨read, q, hread, hne, -, hcontent, -⟩ := read_cases r Nat.one_pos
  · obtain ⟨-, hread'⟩ | ⟨read', q', hread', hne', -, hcontent', -⟩ := read_cases r' Nat.one_pos
    · rw [hread, hread', h]
    · rw [← h, hcontent] at hcontent'
      exact absurd (List.append_eq_nil_iff.mp hcontent'.symm).1 hne'
  · obtain ⟨hcontent', -⟩ | ⟨read', q', hread', hne', -, -, -⟩ := read_cases r' Nat.one_pos
    · rw [← h, hcontent] at hcontent'
      exact absurd (List.append_eq_nil_iff.mp hcontent').1 hne
    · rw [hread, hread']
      cases read with
      | nil => exact absurd rfl hne
      | cons byte rest =>
        cases read' with
        | nil => exact absurd rfl hne'
        | cons byte' rest' => rfl

/-! ## What was read -/

/-- A line that was read is the text before the first newline, which ends in a carriage return. -/
theorem lineFrom_ok {limit : Nat} {line : List UInt8} {s s' : Stream UInt8} :
    lineFrom limit [] s = .ok (line, s') ↔ ∃ text, line = text ++ [13, 10] ∧ 10 ∉ text ∧
      line.length ≤ limit ∧ s = ⟨line ++ s'.content, s'.ending⟩ := by
  constructor
  · intro h
    unfold lineFrom at h
    split at h
    · rename_i i hfind
      obtain ⟨hi, -, hfirst⟩ := List.findIdx?_eq_some_iff_getElem.mp hfind
      split at h
      · cases h
      · rename_i hlimit
        split at h
        · rename_i hends
          cases h
          simp only [List.nil_append, List.length_nil, Nat.zero_add] at hends hlimit ⊢
          have hlength : (s.content.take (i + 1)).length = i + 1 := by
            rw [List.length_take]
            omega
          rw [hlength] at hends
          have hsplit : s.content.take (i + 1) =
              (s.content.take (i + 1)).take (i + 1 - 2) ++ [13, 10] := by
            rw [← hends, List.take_append_drop]
          have htwo : 2 ≤ i + 1 := by
            have := congrArg List.length hends
            rw [List.length_drop, hlength] at this
            simp only [List.length_cons, List.length_nil] at this
            omega
          refine ⟨_, hsplit, fun hmem => ?_, by omega, ?_⟩
          · rw [List.take_take] at hmem
            obtain ⟨j, hj, hten⟩ := List.mem_take_iff_getElem.mp hmem
            have hlt : j < i := by omega
            exact hfirst j hlt (by simpa using hten)
          · simp only [Stream.drop, List.take_append_drop]
        · cases h
    · split at h <;> cases h
  · rintro ⟨text, rfl, htext, hlimit, rfl⟩
    have hnone : text.findIdx? (· = 10) = none := by
      refine List.findIdx?_eq_none_iff.mpr fun byte hbyte => ?_
      simpa using fun he : byte = 10 => htext (he ▸ hbyte)
    have hfind : (text ++ [13, 10] ++ s'.content).findIdx? (· = 10) = some (text.length + 1) := by
      rw [List.append_assoc, List.findIdx?_append, hnone, Option.none_or]
      simp [List.findIdx?_cons, Nat.add_comm]
    have hlength : (text ++ [13, 10]).length = text.length + 1 + 1 := by
      simp
    have htake : (text ++ [13, 10] ++ s'.content).take (text.length + 1 + 1) = text ++ [13, 10] := by
      rw [← hlength, List.take_left]
    have hdrop : (text ++ [13, 10] ++ s'.content).drop (text.length + 1 + 1) = s'.content := by
      rw [← hlength, List.drop_left]
    simp only [lineFrom, hfind, List.nil_append, List.length_nil, Nat.zero_add, htake, Stream.drop,
      hdrop]
    rw [if_neg (by omega), if_pos]
    rw [hlength, show text.length + 1 + 1 - 2 = text.length by omega, List.drop_left]

theorem readLine_ok {limit : Nat} {line : List UInt8} {r r' : ResponseReader}
    (h : readLine limit r = .ok (line, r')) : ∃ text, line = text ++ [13, 10] ∧ 10 ∉ text ∧
      line.length ≤ limit ∧ r.stream = ⟨line ++ r'.stream.content, r'.stream.ending⟩ :=
  lineFrom_ok.mp ((readLine_follows limit r).ok_iff.mpr ⟨r', h, rfl⟩)

theorem readLine_of {limit : Nat} {text rest : List UInt8} {ending : Ending} {r : ResponseReader}
    (htext : 10 ∉ text) (hlimit : text.length + 2 ≤ limit)
    (hr : r.stream = ⟨text ++ [13, 10] ++ rest, ending⟩) :
    ∃ r', readLine limit r = .ok (text ++ [13, 10], r') ∧ r'.stream = ⟨rest, ending⟩ :=
  (readLine_follows limit r).ok_iff.mp
    (lineFrom_ok.mpr ⟨text, rfl, htext, by simpa using hlimit, hr⟩)

theorem takeExact_ok {limit length : Nat} {bytes bytes' : List UInt8} {s s' : Stream UInt8}
    (hbytes : bytes.length ≤ limit) : takeExact limit length bytes s = .ok (bytes', s') ↔
      ∃ read, read.length = length ∧ bytes' = bytes ++ read ∧ bytes'.length ≤ limit ∧
        s = ⟨read ++ s'.content, s'.ending⟩ := by
  constructor
  · intro h
    unfold takeExact at h
    split at h
    · rename_i hroom
      split at h
      · rename_i hlength
        cases h
        have hcount : (s.content.take length).length = length := by
          rw [List.length_take, Nat.min_eq_left hlength]
        refine ⟨_, hcount, rfl, ?_, by simp only [Stream.drop, List.take_append_drop]⟩
        rw [List.length_append, hcount]
        omega
      · cases h
    · cases h
  · rintro ⟨read, rfl, rfl, hlimit, rfl⟩
    rw [List.length_append] at hlimit
    simp only [takeExact, List.length_append, Stream.drop, List.take_left, List.drop_left]
    rw [if_pos (by omega), if_pos (by omega)]

theorem readExactBody_ok {length limit : Nat} {bytes bytes' : List UInt8} {r r' : ResponseReader}
    (hbytes : bytes.length ≤ limit) (h : readExactBody length bytes limit r = .ok (bytes', r')) :
    ∃ read, read.length = length ∧ bytes' = bytes ++ read ∧ bytes'.length ≤ limit ∧
      r.stream = ⟨read ++ r'.stream.content, r'.stream.ending⟩ :=
  (takeExact_ok hbytes).mp ((readExactBody_follows r hbytes).ok_iff.mpr ⟨r', h, rfl⟩)

theorem readExactBody_of {limit : Nat} {bytes read rest : List UInt8} {ending : Ending}
    {r : ResponseReader} (hlimit : (bytes ++ read).length ≤ limit)
    (hr : r.stream = ⟨read ++ rest, ending⟩) : ∃ r',
      readExactBody read.length bytes limit r = .ok (bytes ++ read, r') ∧
        r'.stream = ⟨rest, ending⟩ := by
  have hbytes : bytes.length ≤ limit := by
    rw [List.length_append] at hlimit
    omega
  exact (readExactBody_follows r hbytes).ok_iff.mp
    ((takeExact_ok hbytes).mpr ⟨read, rfl, rfl, hlimit, hr⟩)

/-! ## What the language checks -/

/-- A result that is not a failed check of the language, nor a loop that was cut off. -/
def Safe {β : Type} (x : Except Stop β) : Prop := ∀ e, x = .error e → ∃ f, e = .failed f

theorem safe_ok {β : Type} (b : β) : Safe (.ok b) := nofun

theorem safe_failed {β : Type} (f : ApiFailure) : Safe (.error (.failed f) : Except Stop β) :=
  fun e h => ⟨f, by cases h; rfl⟩

theorem safe_ensure {p : Prop} [Decidable p] (f : ApiFailure) : Safe (ensure p (.failed f)) :=
  fun _ h => ⟨f, (ensure_error.mp h).2.symm⟩

theorem safe_bind {β γ : Type} {x : Except Stop β} {f : β → Except Stop γ} (hx : Safe x)
    (hf : ∀ b, x = .ok b → Safe (f b)) : Safe (x >>= f) := by
  intro e h
  obtain he | ⟨b, hb, he⟩ := bind_error.mp h
  · exact hx e he
  · exact hf b hb e he

theorem safe_endOf (ending : Ending) {β : Type} : Safe (.error (endOf ending) : Except Stop β) := by
  cases ending <;> exact safe_failed _

theorem safe_of_follows {β : Type} {x : Except Stop (β × ResponseReader)}
    {y : Except Stop (β × Stream UInt8)} (h : Follows x y) (hy : Safe y) : Safe x :=
  fun e he => hy e (h.error_iff.mp he)

theorem safe_readLine (limit : Nat) (r : ResponseReader) : Safe (readLine limit r) := by
  refine safe_of_follows (readLine_follows limit r) ?_
  unfold lineFrom
  split
  · split
    · exact safe_failed _
    · split
      · exact safe_ok _
      · exact safe_failed _
  · split
    · exact safe_failed _
    · exact safe_endOf _

theorem safe_readExactBody {length limit : Nat} {bytes : List UInt8} (r : ResponseReader)
    (hbytes : bytes.length ≤ limit) : Safe (readExactBody length bytes limit r) := by
  refine safe_of_follows (readExactBody_follows r hbytes) ?_
  unfold takeExact
  split
  · split
    · exact safe_ok _
    · exact safe_endOf _
  · exact safe_failed _

theorem safe_requireCompletedClose (r : ResponseReader) : Safe (requireCompletedClose r) := by
  unfold requireCompletedClose
  split
  · exact safe_ok _
  · exact safe_failed _
  · exact safe_ok _
  · exact safe_failed _

end OnshapeApi
end OnshapeExport
