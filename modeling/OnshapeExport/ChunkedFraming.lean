import OnshapeExport.ChunkExtensions
import OnshapeExport.ChunkedReading

/-!
# ChunkedFraming

The framing of a chunked body, and that `collectChunked` returns a body exactly when the bytes of
the stream are its framing and the connection is closed behind them.

* `Framing` — chunks, the last chunk and the trailers; `Framing.WellFormed` is what the grammar
  asks of them and `Framing.Fits` what the limits on lines do.
* `chunkLoop_sound`, `chunkLoop_complete` — the loop against the framing.
* `chunked_decoded` — both, with the fragments of the transport and the checks of the language.
-/

namespace OnshapeExport
namespace OnshapeApi

open ByteStream CacheKey Checks

/-! ## Sizes -/

def digitValue (byte : UInt8) : Nat :=
  if byte.toNat ≤ 57 then byte.toNat - 48
  else if 97 ≤ byte.toNat then byte.toNat - 87
  else byte.toNat - 55

def valueFrom (n : Nat) (size : List UInt8) : Nat :=
  size.foldl (fun n byte => n * 16 + digitValue byte) n

def sizeValue (size : List UInt8) : Nat := valueFrom 0 size

def Hexadecimal (size : List UInt8) : Prop := ∀ b ∈ size, isAsciiHexdigit b = true

theorem hexDigit_ok {byte : UInt8} (h : isAsciiHexdigit byte = true) :
    hexDigit byte = .ok (digitValue byte) := by
  simp only [isAsciiHexdigit, Bool.or_eq_true, Bool.and_eq_true, decide_eq_true_eq,
    UInt8.le_iff_toNat_le, UInt8.reduceToNat] at h
  simp only [hexDigit, digitValue, UInt8.le_iff_toNat_le, UInt8.reduceToNat]
  by_cases hdigit : 48 ≤ byte.toNat ∧ byte.toNat ≤ 57
  · rw [if_pos hdigit, if_pos hdigit.2, checkedSub_ok hdigit.1]
  · rw [if_neg hdigit]
    by_cases hlower : 97 ≤ byte.toNat ∧ byte.toNat ≤ 102
    · rw [if_pos hlower, if_neg (by omega), if_pos hlower.1, checkedSub_ok hlower.1, ok_then]
      exact congrArg Except.ok (by omega)
    · rw [if_neg hlower, if_neg (by omega), if_neg (by omega), checkedSub_ok (by omega), ok_then]
      exact congrArg Except.ok (by omega)

theorem le_valueFrom (n : Nat) (size : List UInt8) : n ≤ valueFrom n size := by
  induction size generalizing n with
  | nil => exact Nat.le_refl n
  | cons byte size ih =>
    have h := ih (n * 16 + digitValue byte)
    show n ≤ valueFrom (n * 16 + digitValue byte) size
    omega

/-- A size is refused exactly when its value is not one of 64 bits. -/
theorem chunkSize_eq {n : Nat} {size : List UInt8} (hn : n ≤ usizeMax) (h : Hexadecimal size) :
    chunkSize n size = if valueFrom n size ≤ usizeMax then .ok (valueFrom n size)
      else .error (.failed (transport "invalid_chunk_framing")) := by
  induction size generalizing n with
  | nil => exact (if_pos hn).symm
  | cons byte size ih =>
    have hstep : valueFrom n (byte :: size) = valueFrom (n * 16 + digitValue byte) size := rfl
    have hle := le_valueFrom (n * 16 + digitValue byte) size
    simp only [chunkSize, hexDigit_ok (h byte List.mem_cons_self), ok_then, hstep]
    by_cases hmul : n * 16 ≤ usizeMax
    · by_cases hadd : n * 16 + digitValue byte ≤ usizeMax
      · simp only [checkedMul, if_pos hmul, Option.bind_some, checkedAdd, if_pos hadd]
        exact ih hadd fun b hb => h b (List.mem_cons_of_mem _ hb)
      · simp only [checkedMul, if_pos hmul, Option.bind_some, checkedAdd, if_neg hadd]
        rw [if_neg (by omega)]
        rfl
    · simp only [checkedMul, if_neg hmul, Option.bind_none]
      rw [if_neg (by omega)]
      rfl

/-! ## The framing -/

structure Chunk where
  size : List UInt8
  extensions : List UInt8
  data : List UInt8

def sizeLine (size extensions : List UInt8) : List UInt8 := size ++ extensions ++ [13, 10]

def Chunk.bytes (c : Chunk) : List UInt8 := sizeLine c.size c.extensions ++ (c.data ++ [13, 10])

structure Chunk.WellFormed (c : Chunk) : Prop where
  size : Hexadecimal c.size
  extensions : Extensions c.extensions
  value : sizeValue c.size = c.data.length
  data : c.data ≠ []

/-- The lines of a trailer section, with the empty one that ends it. -/
def trailerLines (trailers : List (List UInt8)) : List UInt8 :=
  trailers.flatMap (· ++ [13, 10]) ++ [13, 10]

structure Framing where
  chunks : List Chunk
  size : List UInt8
  extensions : List UInt8
  trailers : List (List UInt8)

def Framing.bytes (f : Framing) : List UInt8 :=
  f.chunks.flatMap Chunk.bytes ++ (sizeLine f.size f.extensions ++ trailerLines f.trailers)

def Framing.body (f : Framing) : List UInt8 := f.chunks.flatMap Chunk.data

/-- The headers of a trailer section are read, and none of them changes how the response is. -/
def Permitted (http : HeaderParser) (trailers : List (List UInt8)) : Prop :=
  ∃ headers, parseHeaderBlock http (trailerStart ++ trailerLines trailers) = .ok headers ∧
    ∀ name ∈ significant, name ∉ headers.map Prod.fst

structure Framing.WellFormed (http : HeaderParser) (f : Framing) : Prop where
  chunks : ∀ c ∈ f.chunks, c.WellFormed
  size : Hexadecimal f.size
  nonempty : f.size ≠ []
  zero : sizeValue f.size = 0
  extensions : Extensions f.extensions
  trailers : ∀ t ∈ f.trailers, t ≠ [] ∧ 10 ∉ t
  permitted : Permitted http f.trailers

/-- Lines are within the limit for headers. -/
structure Framing.Fits (f : Framing) : Prop where
  chunks : ∀ c ∈ f.chunks, (sizeLine c.size c.extensions).length ≤ maxHeaderBytes
  last : (sizeLine f.size f.extensions).length ≤ maxHeaderBytes
  trailers : (trailerStart ++ trailerLines f.trailers).length ≤ maxHeaderBytes

/-! ## Size lines -/

theorem takeWhile_size {size extensions : List UInt8} (hs : Hexadecimal size)
    (he : Extensions extensions) : (size ++ extensions).takeWhile isAsciiHexdigit = size := by
  rw [List.takeWhile_append_of_pos hs]
  cases extensions with
  | nil => exact List.append_nil size
  | cons b tail => rw [List.takeWhile_cons_of_neg (by simp [he.head b rfl]), List.append_nil]

theorem Hexadecimal.newline_not_mem {size : List UInt8} (h : Hexadecimal size) : 10 ∉ size :=
  fun hmem => absurd (h 10 hmem) (by decide)

theorem sliceTo_append {before after bytes : List UInt8} (h : before ++ after = bytes) :
    sliceTo bytes before.length = .ok before := by
  subst h
  rw [sliceTo_ok (by simp), List.take_left]

theorem sliceFrom_append {before after bytes : List UInt8} (h : before ++ after = bytes) :
    sliceFrom bytes before.length = .ok after := by
  subst h
  rw [sliceFrom_ok (by simp), List.drop_left]

/-- What becomes of a line that was read. -/
theorem readSize_line {text : List UInt8} {r r' : ResponseReader}
    (h : readLine maxHeaderBytes r = .ok (text ++ [13, 10], r')) :
    readSize r = do
      ensure (text.takeWhile isAsciiHexdigit ≠ [] ∧
        validChunkExtensions (text.dropWhile isAsciiHexdigit) = true)
        (.failed (transport "invalid_chunk_framing"))
      let length ← chunkSize 0 (text.takeWhile isAsciiHexdigit)
      return (length, r') := by
  have hsplit := List.takeWhile_append_dropWhile (p := isAsciiHexdigit) (l := text)
  have hcut : checkedSub (text ++ [13, 10]).length 2 = .ok text.length := by
    rw [checkedSub_ok (by simp)]
    exact congrArg Except.ok (by simp)
  simp only [readSize, h, ok_then, hcut, sliceTo_append rfl, sliceTo_append hsplit,
    sliceFrom_append hsplit]

theorem takeWhile_hexadecimal (text : List UInt8) : Hexadecimal (text.takeWhile isAsciiHexdigit) :=
  fun _ hb => List.mem_takeWhile_imp hb

theorem readSize_ok {n : Nat} {r r' : ResponseReader} (h : readSize r = .ok (n, r')) :
    ∃ size extensions, Hexadecimal size ∧ size ≠ [] ∧ Extensions extensions ∧
      sizeValue size = n ∧ (sizeLine size extensions).length ≤ maxHeaderBytes ∧
      r.stream = ⟨sizeLine size extensions ++ r'.stream.content, r'.stream.ending⟩ := by
  obtain ⟨⟨line, q⟩, hline, -⟩ := bind_ok.mp h
  obtain ⟨text, rfl, htext, hlimit, hstream⟩ := readLine_ok hline
  rw [readSize_line hline] at h
  obtain ⟨hvalid, h⟩ := seq_ok.mp h
  obtain ⟨length, hsize, h⟩ := bind_ok.mp h
  cases h
  obtain ⟨hne, hextensions⟩ := ensure_ok.mp hvalid
  rw [chunkSize_eq (Nat.zero_le _) (takeWhile_hexadecimal text)] at hsize
  split at hsize
  · cases hsize
    have hsplit : sizeLine (text.takeWhile isAsciiHexdigit) (text.dropWhile isAsciiHexdigit) =
        text ++ [13, 10] := by
      rw [sizeLine, List.takeWhile_append_dropWhile]
    exact ⟨_, _, takeWhile_hexadecimal text, hne, validChunkExtensions_iff.mp hextensions, rfl,
      hsplit ▸ hlimit, hsplit ▸ hstream⟩
  · cases hsize

theorem readSize_of {size extensions rest : List UInt8} {ending : Ending} {r : ResponseReader}
    (hs : Hexadecimal size) (hne : size ≠ []) (he : Extensions extensions)
    (hvalue : sizeValue size ≤ usizeMax)
    (hlimit : (sizeLine size extensions).length ≤ maxHeaderBytes)
    (hr : r.stream = ⟨sizeLine size extensions ++ rest, ending⟩) :
    ∃ r', readSize r = .ok (sizeValue size, r') ∧ r'.stream = ⟨rest, ending⟩ := by
  have htext : 10 ∉ size ++ extensions := fun hmem =>
    (List.mem_append.mp hmem).elim hs.newline_not_mem he.newline_not_mem
  have hlength : (size ++ extensions).length + 2 ≤ maxHeaderBytes := by
    rw [sizeLine, List.length_append] at hlimit
    exact hlimit
  obtain ⟨r', hline, hstream⟩ := readLine_of htext hlength hr
  have htake := takeWhile_size hs he
  have hdrop : (size ++ extensions).dropWhile isAsciiHexdigit = extensions := by
    have hsplit := List.takeWhile_append_dropWhile (p := isAsciiHexdigit) (l := size ++ extensions)
    rw [htake] at hsplit
    exact List.append_cancel_left hsplit
  refine ⟨r', ?_, hstream⟩
  rw [readSize_line hline, htake, hdrop, ensure_true ⟨hne, validChunkExtensions_iff.mpr he⟩,
    ok_then, chunkSize_eq (Nat.zero_le _) hs, if_pos (show valueFrom 0 size ≤ usizeMax from hvalue)]
  rfl

theorem safe_readSize (r : ResponseReader) : Safe (readSize r) := by
  cases hline : readLine maxHeaderBytes r with
  | error e =>
    intro e' h
    rw [readSize, hline, error_then] at h
    cases h
    exact safe_readLine _ _ _ hline
  | ok p =>
    obtain ⟨line, r'⟩ := p
    obtain ⟨text, rfl, -⟩ := readLine_ok hline
    rw [readSize_line hline]
    refine safe_bind (safe_ensure _) fun _ _ => safe_bind ?_ fun _ _ => safe_ok _
    rw [chunkSize_eq (Nat.zero_le _) (takeWhile_hexadecimal text)]
    split
    · exact safe_ok _
    · exact safe_failed _

theorem readSize_agree {r r' : ResponseReader} (h : r.stream = r'.stream) :
    Agree (readSize r) (readSize r') := by
  have hline : Agree (readLine maxHeaderBytes r) (readLine maxHeaderBytes r') :=
    (readLine_follows _ r).agree (h ▸ readLine_follows _ r')
  unfold readSize
  refine hline.bind fun line q q' _ hq => ?_
  have hpure {β : Type} {x : Except Stop β} {f f' : β → Except Stop (Nat × ResponseReader)}
      (hf : ∀ b, Agree (f b) (f' b)) : Agree (x >>= f) (x >>= f') := by
    cases x with
    | error e => exact Agree.refl _
    | ok b => exact hf b
  exact hpure fun _ => hpure fun _ => hpure fun _ => hpure fun _ => hpure fun _ => hpure fun _ =>
    Agree.ok _ hq

/-! ## Trailers -/

theorem trailerLines_cons (t : List UInt8) (trailers : List (List UInt8)) :
    trailerLines (t :: trailers) = t ++ [13, 10] ++ trailerLines trailers := by
  simp only [trailerLines, List.flatMap_cons, List.append_assoc]

theorem trailerLoop_ok {turns : Nat} {start all : List UInt8} {r r' : ResponseReader}
    (hstart : start.length ≤ maxHeaderBytes) (h : trailerLoop turns start r = .ok (all, r')) :
    ∃ trailers, (∀ t ∈ trailers, t ≠ [] ∧ 10 ∉ t) ∧ all = start ++ trailerLines trailers ∧
      all.length ≤ maxHeaderBytes ∧
      r.stream = ⟨trailerLines trailers ++ r'.stream.content, r'.stream.ending⟩ := by
  induction turns generalizing start r with
  | zero => cases h
  | succ turns ih =>
    simp only [trailerLoop, checkedSub_ok hstart, ok_then] at h
    obtain ⟨⟨line, q⟩, hline, h⟩ := bind_ok.mp h
    obtain ⟨text, rfl, htext, hlimit, hstream⟩ := readLine_ok hline
    have hfits : (start ++ (text ++ [13, 10])).length ≤ maxHeaderBytes := by
      rw [List.length_append]
      omega
    dsimp only at h
    split at h
    · rename_i hend
      cases h
      exact ⟨[], nofun, by rw [hend]; rfl, hfits, by rw [hstream, hend]; rfl⟩
    · rename_i hmore
      obtain ⟨trailers, hall, rfl, hlength, hrest⟩ := ih hfits h
      refine ⟨text :: trailers, ?_, by rw [trailerLines_cons, List.append_assoc], hlength, ?_⟩
      · intro t ht
        obtain rfl | ht := List.mem_cons.mp ht
        · refine ⟨?_, htext⟩
          rintro rfl
          exact hmore rfl
        · exact hall t ht
      · rw [hstream, hrest, trailerLines_cons]
        simp only [List.append_assoc]

theorem trailerLoop_of {turns : Nat} {trailers : List (List UInt8)} {start rest : List UInt8}
    {ending : Ending} {r : ResponseReader} (hall : ∀ t ∈ trailers, t ≠ [] ∧ 10 ∉ t)
    (hlimit : (start ++ trailerLines trailers).length ≤ maxHeaderBytes)
    (hturns : r.stream.content.length < turns)
    (hr : r.stream = ⟨trailerLines trailers ++ rest, ending⟩) :
    ∃ r', trailerLoop turns start r = .ok (start ++ trailerLines trailers, r') ∧
      r'.stream = ⟨rest, ending⟩ := by
  induction turns generalizing trailers start r with
  | zero => omega
  | succ turns ih =>
    have hstart : start.length ≤ maxHeaderBytes := by
      rw [List.length_append] at hlimit
      omega
    cases trailers with
    | nil =>
      have hroom : 0 + 2 ≤ maxHeaderBytes - start.length := by
        rw [List.length_append] at hlimit
        have hlength : (trailerLines []).length = 2 := rfl
        omega
      obtain ⟨r', hline, hstream⟩ : ∃ r', readLine (maxHeaderBytes - start.length) r =
          .ok ([] ++ [13, 10], r') ∧ r'.stream = ⟨rest, ending⟩ :=
        readLine_of List.not_mem_nil hroom hr
      refine ⟨r', ?_, hstream⟩
      simp only [trailerLoop, checkedSub_ok hstart, ok_then, hline]
      rfl
    | cons t trailers =>
      obtain ⟨hne, hnewline⟩ := hall t List.mem_cons_self
      rw [trailerLines_cons] at hlimit hr
      have hcount : start.length + (t.length + 2) + (trailerLines trailers).length ≤
          maxHeaderBytes := by
        simp only [List.length_append, List.length_cons, List.length_nil] at hlimit
        omega
      obtain ⟨q, hline, hstream⟩ : ∃ q, readLine (maxHeaderBytes - start.length) r =
          .ok (t ++ [13, 10], q) ∧ q.stream = ⟨trailerLines trailers ++ rest, ending⟩ :=
        readLine_of hnewline (by omega) (by rw [hr, List.append_assoc])
      have hmore : ¬ t ++ [13, 10] = [13, 10] := by
        intro he
        exact hne (List.eq_nil_of_length_eq_zero (by simpa using congrArg List.length he))
      have hq : q.stream.content.length < turns := by
        rw [hstream]
        rw [hr] at hturns
        simp only [List.length_append, List.length_cons, List.length_nil] at hturns ⊢
        omega
      have hnext : (start ++ (t ++ [13, 10]) ++ trailerLines trailers).length ≤ maxHeaderBytes := by
        simp only [List.length_append, List.length_cons, List.length_nil]
        omega
      obtain ⟨r', hloop, hrest⟩ :=
        ih (fun t' ht' => hall t' (List.mem_cons_of_mem _ ht')) hnext hq hstream
      refine ⟨r', ?_, hrest⟩
      simp only [trailerLoop, checkedSub_ok hstart, ok_then, hline, if_neg hmore, hloop,
        trailerLines_cons, List.append_assoc]

theorem safe_trailerLoop {turns : Nat} {start : List UInt8} {r : ResponseReader}
    (hstart : start.length ≤ maxHeaderBytes) (hturns : r.stream.content.length < turns) :
    Safe (trailerLoop turns start r) := by
  induction turns generalizing start r with
  | zero => omega
  | succ turns ih =>
    simp only [trailerLoop, checkedSub_ok hstart, ok_then]
    refine safe_bind (safe_readLine _ r) fun p hline => ?_
    obtain ⟨line, q⟩ := p
    obtain ⟨text, rfl, -, hlimit, hstream⟩ := readLine_ok hline
    dsimp only
    split
    · exact safe_ok _
    · refine ih ?_ ?_
      · rw [List.length_append]
        omega
      · rw [hstream] at hturns
        simp only [List.length_append, List.length_cons, List.length_nil] at hturns
        omega

theorem trailerLoop_agree {turns : Nat} {start : List UInt8} {r r' : ResponseReader}
    (h : r.stream = r'.stream) : Agree (trailerLoop turns start r) (trailerLoop turns start r') := by
  induction turns generalizing start r r' with
  | zero => exact Agree.refl _
  | succ turns ih =>
    simp only [trailerLoop]
    cases checkedSub maxHeaderBytes start.length with
    | error e => exact Agree.refl _
    | ok room =>
      have hline : Agree (readLine room r) (readLine room r') :=
        (readLine_follows _ r).agree (h ▸ readLine_follows _ r')
      refine hline.bind fun line q q' _ hq => ?_
      dsimp only
      split
      · exact Agree.ok _ hq
      · exact ih hq

/-! ## The end -/

variable {http : HeaderParser}

theorem trailerStart_length : trailerStart.length ≤ maxHeaderBytes := by decide

theorem finishChunks_ok {r : ResponseReader} : finishChunks http r = .ok () ↔
    ∃ trailers, (∀ t ∈ trailers, t ≠ [] ∧ 10 ∉ t) ∧ Permitted http trailers ∧
      (trailerStart ++ trailerLines trailers).length ≤ maxHeaderBytes ∧
      r.stream.content = trailerLines trailers ∧ r.stream.ending ≠ .failed := by
  unfold finishChunks
  constructor
  · intro h
    obtain ⟨⟨all, q⟩, hloop, h⟩ := bind_ok.mp h
    obtain ⟨headers, hheaders, h⟩ := bind_ok.mp h
    obtain ⟨hpermitted, hclose⟩ := seq_ok.mp h
    obtain ⟨trailers, htrailers, rfl, hlength, hstream⟩ := trailerLoop_ok trailerStart_length hloop
    obtain ⟨hcontent, hending⟩ := requireCompletedClose_ok.mp hclose
    refine ⟨trailers, htrailers, ⟨headers, mapError_ok.mp hheaders, ensure_ok.mp hpermitted⟩,
      hlength, ?_, ?_⟩
    · rw [hstream]
      show trailerLines trailers ++ q.stream.content = trailerLines trailers
      rw [hcontent, List.append_nil]
    · rw [hstream]
      exact hending
  · rintro ⟨trailers, htrailers, ⟨headers, hheaders, hpermitted⟩, hlength, hcontent, hending⟩
    have hr : r.stream = ⟨trailerLines trailers ++ [], r.stream.ending⟩ := by
      rw [List.append_nil, ← hcontent]
    obtain ⟨q, hloop, hq⟩ := trailerLoop_of htrailers hlength (Nat.lt_succ_self _) hr
    refine bind_ok.mpr ⟨_, hloop, bind_ok.mpr ⟨headers, mapError_ok.mpr hheaders, ?_⟩⟩
    refine seq_ok.mpr ⟨ensure_ok.mpr hpermitted, requireCompletedClose_ok.mpr ?_⟩
    rw [hq]
    exact ⟨rfl, hending⟩

theorem safe_finishChunks (r : ResponseReader) : Safe (finishChunks http r) := by
  unfold finishChunks
  refine safe_bind (safe_trailerLoop trailerStart_length (Nat.lt_succ_self _)) fun p _ => ?_
  refine safe_bind (fun e h => ?_) fun headers _ => ?_
  · obtain ⟨e', -, rfl⟩ := mapError_error.mp h
    exact ⟨_, rfl⟩
  · exact safe_bind (safe_ensure _) fun _ _ => safe_requireCompletedClose _

theorem finishChunks_agree {r r' : ResponseReader} (h : r.stream = r'.stream) :
    finishChunks http r = finishChunks http r' := by
  unfold finishChunks
  rw [h]
  refine (trailerLoop_agree h).then fun trailers q q' _ hq => ?_
  simp only [requireCompletedClose_agree hq]

/-! ## The loop -/

variable {limit : Nat}

/-- A body that is returned is the body of a framing, after the bytes there were. -/
theorem chunkLoop_sound {turns : Nat} {bytes body : List UInt8} {r : ResponseReader}
    (hbytes : bytes.length ≤ limit) (h : chunkLoop http limit turns bytes r = .ok body) :
    body.length ≤ limit ∧ r.stream.ending ≠ .failed ∧ ∃ f : Framing, f.WellFormed http ∧
      f.Fits ∧ r.stream.content = f.bytes ∧ body = bytes ++ f.body := by
  induction turns generalizing bytes r with
  | zero => cases h
  | succ turns ih =>
    obtain ⟨⟨n, q⟩, hsize, h⟩ := bind_ok.mp h
    obtain ⟨size, extensions, hhex, hne, hextensions, hvalue, hlimit, hstream⟩ := readSize_ok hsize
    dsimp only at h
    split at h
    · rename_i hzero
      obtain ⟨hfinish, h⟩ := seq_ok.mp h
      cases h
      obtain ⟨trailers, htrailers, hpermitted, hlength, hcontent, hending⟩ :=
        finishChunks_ok.mp hfinish
      refine ⟨hbytes, by rw [hstream]; exact hending, ⟨[], size, extensions, trailers⟩,
        ⟨fun c hc => ?_, hhex, hne, hvalue.trans hzero, hextensions, htrailers, hpermitted⟩,
        ⟨fun c hc => ?_, hlimit, hlength⟩, ?_, (List.append_nil _).symm⟩
      · cases hc
      · cases hc
      rw [hstream]
      show sizeLine size extensions ++ q.stream.content = _
      rw [hcontent]
      rfl
    · rename_i hnonzero
      obtain ⟨⟨bytes', q'⟩, hbody, h⟩ := bind_ok.mp h
      obtain ⟨⟨ending, q''⟩, hending, h⟩ := bind_ok.mp h
      obtain ⟨hcrlf, h⟩ := seq_ok.mp h
      obtain ⟨data, hdata, rfl, hroom, hstream'⟩ := readExactBody_ok hbytes hbody
      obtain ⟨read, -, he, -, hstream''⟩ := readExactBody_ok (Nat.zero_le 2) hending
      rw [List.nil_append] at he
      obtain rfl : read = [13, 10] := he.symm.trans (ensure_ok.mp hcrlf)
      obtain ⟨hlength, hend, f, hwf, hfits, hcontent, rfl⟩ := ih hroom h
      refine ⟨hlength, ?_, ⟨⟨size, extensions, data⟩ :: f.chunks, f.size, f.extensions, f.trailers⟩,
        { hwf with chunks := fun c hc => ?_ }, { hfits with chunks := fun c hc => ?_ }, ?_, ?_⟩
      · rw [hstream]
        show q.stream.ending ≠ .failed
        rw [hstream']
        show q'.stream.ending ≠ .failed
        rw [hstream'']
        exact hend
      · obtain rfl | hc := List.mem_cons.mp hc
        · refine ⟨hhex, hextensions, hvalue.trans hdata.symm, ?_⟩
          rintro rfl
          exact hnonzero hdata.symm
        · exact hwf.chunks c hc
      · obtain rfl | hc := List.mem_cons.mp hc
        · exact hlimit
        · exact hfits.chunks c hc
      · rw [hstream, hstream', hstream'', hcontent]
        simp only [Framing.bytes, List.flatMap_cons, Chunk.bytes, List.append_assoc]
      · simp only [Framing.body, List.flatMap_cons, List.append_assoc]

/-- The framing of a body within the limit is read to its end. -/
theorem chunkLoop_complete {turns : Nat} {f : Framing} {bytes : List UInt8} {r : ResponseReader}
    (hmax : limit ≤ usizeMax) (hwf : f.WellFormed http) (hfits : f.Fits)
    (hlimit : (bytes ++ f.body).length ≤ limit) (hcontent : r.stream.content = f.bytes)
    (hending : r.stream.ending ≠ .failed) (hturns : r.stream.content.length < turns) :
    chunkLoop http limit turns bytes r = .ok (bytes ++ f.body) := by
  induction turns generalizing f bytes r with
  | zero => omega
  | succ turns ih =>
    obtain ⟨chunks, size, extensions, trailers⟩ := f
    cases chunks with
    | nil =>
      have hr : r.stream = ⟨sizeLine size extensions ++ trailerLines trailers, r.stream.ending⟩ := by
        rw [show sizeLine size extensions ++ trailerLines trailers = r.stream.content from
          hcontent.symm]
      have hvalue : sizeValue size ≤ usizeMax := by
        rw [hwf.zero]
        exact Nat.zero_le _
      obtain ⟨q, hsize, hq⟩ := readSize_of hwf.size hwf.nonempty hwf.extensions hvalue hfits.last hr
      have hfinish : finishChunks http q = .ok () := by
        refine finishChunks_ok.mpr ⟨trailers, hwf.trailers, hwf.permitted, hfits.trailers, ?_, ?_⟩
        · rw [hq]
        · rw [hq]
          exact hending
      simp only [chunkLoop, hsize, ok_then, hwf.zero, if_true, hfinish]
      rw [show (Framing.mk [] size extensions trailers).body = [] from rfl, List.append_nil]
      rfl
    | cons c chunks =>
      have hc := hwf.chunks c List.mem_cons_self
      have hr : r.stream = ⟨sizeLine c.size c.extensions ++ (c.data ++ ([13, 10] ++
          (Framing.mk chunks size extensions trailers).bytes)), r.stream.ending⟩ := by
        have hbytes : (Framing.mk (c :: chunks) size extensions trailers).bytes =
            sizeLine c.size c.extensions ++ (c.data ++ ([13, 10] ++
              (Framing.mk chunks size extensions trailers).bytes)) := by
          simp only [Framing.bytes, List.flatMap_cons, Chunk.bytes, List.append_assoc]
        rw [← hbytes, ← hcontent]
      have hbody : bytes ++ (Framing.mk (c :: chunks) size extensions trailers).body =
          bytes ++ c.data ++ (Framing.mk chunks size extensions trailers).body := by
        simp only [Framing.body, List.flatMap_cons, List.append_assoc]
      rw [hbody] at hlimit ⊢
      have hroom : (bytes ++ c.data).length ≤ limit := by
        rw [List.length_append] at hlimit
        omega
      have hvalue : sizeValue c.size ≤ usizeMax := by
        rw [hc.value]
        rw [List.length_append] at hroom
        omega
      have hnonempty : c.size ≠ [] := by
        intro hnil
        have hzero := hc.value
        rw [hnil] at hzero
        exact hc.data (List.eq_nil_of_length_eq_zero hzero.symm)
      have hnonzero : ¬ sizeValue c.size = 0 := by
        rw [hc.value]
        exact fun h => hc.data (List.eq_nil_of_length_eq_zero h)
      obtain ⟨q, hsize, hq⟩ := readSize_of hc.size hnonempty hc.extensions hvalue
        (hfits.chunks c List.mem_cons_self) hr
      obtain ⟨q', hread, hq'⟩ := readExactBody_of hroom hq
      obtain ⟨q'', hcrlf, hq''⟩ : ∃ q'', readExactBody 2 [] 2 q' = .ok ([] ++ [13, 10], q'') ∧
          q''.stream = ⟨(Framing.mk chunks size extensions trailers).bytes, r.stream.ending⟩ :=
        readExactBody_of (by decide) hq'
      have hshorter : q''.stream.content.length < turns := by
        rw [hr] at hturns
        rw [hq'']
        simp only [List.length_append, List.length_cons, List.length_nil] at hturns ⊢
        omega
      rw [← hc.value] at hread
      simp only [chunkLoop, hsize, ok_then, if_neg hnonzero, hread, hcrlf, List.nil_append]
      refine ih { hwf with chunks := fun c' hc' => hwf.chunks c' (List.mem_cons_of_mem _ hc') }
        { hfits with chunks := fun c' hc' => hfits.chunks c' (List.mem_cons_of_mem _ hc') }
        hlimit ?_ ?_ hshorter
      · rw [hq'']
      · rw [hq'']
        exact hending

theorem safe_chunkLoop {turns : Nat} {bytes : List UInt8} {r : ResponseReader}
    (hbytes : bytes.length ≤ limit) (hturns : r.stream.content.length < turns) :
    Safe (chunkLoop http limit turns bytes r) := by
  induction turns generalizing bytes r with
  | zero => omega
  | succ turns ih =>
    refine safe_bind (safe_readSize r) fun p hsize => ?_
    obtain ⟨n, q⟩ := p
    obtain ⟨size, extensions, -, -, -, -, -, hstream⟩ := readSize_ok hsize
    dsimp only
    split
    · exact safe_bind (safe_finishChunks q) fun _ _ => safe_ok _
    · refine safe_bind (safe_readExactBody q hbytes) fun p hbody => ?_
      obtain ⟨bytes', q'⟩ := p
      obtain ⟨data, -, rfl, hroom, hstream'⟩ := readExactBody_ok hbytes hbody
      refine safe_bind (safe_readExactBody q' (Nat.zero_le 2)) fun p hending => ?_
      obtain ⟨ending, q''⟩ := p
      obtain ⟨read, -, -, -, hstream''⟩ := readExactBody_ok (Nat.zero_le 2) hending
      refine safe_bind (safe_ensure _) fun _ _ => ih hroom ?_
      -- the line of the size was not empty
      have hlength := congrArg (fun s : Stream UInt8 => s.content.length) hstream
      have hlength' := congrArg (fun s : Stream UInt8 => s.content.length) hstream'
      have hlength'' := congrArg (fun s : Stream UInt8 => s.content.length) hstream''
      simp only [sizeLine, List.length_append, List.length_cons, List.length_nil]
        at hlength hlength' hlength''
      show q''.stream.content.length < turns
      omega

theorem chunkLoop_agree {turns : Nat} {bytes : List UInt8} {r r' : ResponseReader}
    (h : r.stream = r'.stream) (hbytes : bytes.length ≤ limit) :
    chunkLoop http limit turns bytes r = chunkLoop http limit turns bytes r' := by
  induction turns generalizing bytes r r' with
  | zero => rfl
  | succ turns ih =>
    refine (readSize_agree h).then fun n q q' _ hq => ?_
    dsimp only
    split
    · rw [finishChunks_agree hq]
    · have hbody : Agree (readExactBody n bytes limit q) (readExactBody n bytes limit q') :=
        (readExactBody_follows q hbytes).agree (hq ▸ readExactBody_follows q' hbytes)
      refine hbody.then fun bytes' p p' hread hp => ?_
      obtain ⟨data, -, -, hroom, -⟩ := readExactBody_ok hbytes hread
      have hcrlf : Agree (readExactBody 2 [] 2 p) (readExactBody 2 [] 2 p') :=
        (readExactBody_follows p (Nat.zero_le 2)).agree
          (hp ▸ readExactBody_follows p' (Nat.zero_le 2))
      refine hcrlf.then fun ending o o' _ ho => ?_
      dsimp only
      rw [ih ho hroom]

/-! ## Bodies -/

/-- A body within the limit is returned from its framing, whatever the fragments are, when the lines
of the framing are within theirs; only such a body is returned; the fragments make no difference;
no check of the language fails; and a size that has more than 64 bits is refused. -/
theorem chunked_decoded :
    (∀ http limit (f : Framing) (r : ResponseReader), limit ≤ usizeMax → f.WellFormed http →
      f.Fits → f.body.length ≤ limit → r.stream.content = f.bytes → r.stream.ending ≠ .failed →
      collectChunked http limit r = .ok f.body) ∧
    (∀ http limit body (r : ResponseReader), collectChunked http limit r = .ok body →
      body.length ≤ limit ∧ r.stream.ending ≠ .failed ∧
        ∃ f : Framing, f.WellFormed http ∧ r.stream.content = f.bytes ∧ body = f.body) ∧
    (∀ http limit (r r' : ResponseReader), r.stream = r'.stream →
      collectChunked http limit r = collectChunked http limit r') ∧
    (∀ http limit (r : ResponseReader), Safe (collectChunked http limit r)) ∧
    ∀ size, Hexadecimal size → chunkSize 0 size =
      if sizeValue size ≤ usizeMax then .ok (sizeValue size)
      else .error (.failed (transport "invalid_chunk_framing")) := by
  refine ⟨fun http limit f r hmax hwf hfits hlimit hcontent hending => ?_,
    fun http limit body r h => ?_, fun http limit r r' h => ?_, fun http limit r => ?_,
    fun size h => chunkSize_eq (Nat.zero_le _) h⟩
  · exact chunkLoop_complete hmax hwf hfits hlimit hcontent hending (Nat.lt_succ_self _)
  · obtain ⟨hlimit, hending, f, hwf, -, hcontent, rfl⟩ := chunkLoop_sound (Nat.zero_le _) h
    exact ⟨hlimit, hending, f, hwf, hcontent, rfl⟩
  · rw [collectChunked, collectChunked, h]
    exact chunkLoop_agree h (Nat.zero_le _)
  · exact safe_chunkLoop (Nat.zero_le _) (Nat.lt_succ_self _)

/-! ## A long extension -/

/-- The text before the first newline is one. -/
theorem first_line {text text' rest rest' : List UInt8} (h : 10 ∉ text) (h' : 10 ∉ text')
    (he : text ++ [13, 10] ++ rest = text' ++ [13, 10] ++ rest') : text = text' := by
  have htake {text rest : List UInt8} (h : 10 ∉ text) :
      (text ++ [13, 10] ++ rest).takeWhile (fun b => decide (b ≠ 10)) = text ++ [13] := by
    rw [List.append_assoc, List.takeWhile_append_of_pos fun b hb => ?_]
    · rfl
    · exact decide_eq_true fun hten => h (hten ▸ hb)
  have heq := congrArg (List.takeWhile fun b => decide (b ≠ 10)) he
  rw [htake h, htake h'] at heq
  exact List.append_cancel_right heq

/-- A last chunk whose line is too long is not read. -/
theorem long_line {f : Framing} {body : List UInt8} {r : ResponseReader} (hwf : f.WellFormed http)
    (hchunks : f.chunks = []) (hlong : maxHeaderBytes < (sizeLine f.size f.extensions).length)
    (hcontent : r.stream.content = f.bytes) : collectChunked http limit r ≠ .ok body := by
  intro h
  obtain ⟨⟨n, q⟩, hsize, -⟩ := bind_ok.mp h
  obtain ⟨size, extensions, hhex, -, hextensions, -, hlimit, hstream⟩ := readSize_ok hsize
  have hbytes : sizeLine f.size f.extensions ++ trailerLines f.trailers =
      sizeLine size extensions ++ q.stream.content := by
    rw [Framing.bytes, hchunks] at hcontent
    exact hcontent.symm.trans (congrArg Stream.content hstream)
  have htext := first_line
    (fun hmem => (List.mem_append.mp hmem).elim hwf.size.newline_not_mem
      hwf.extensions.newline_not_mem)
    (fun hmem => (List.mem_append.mp hmem).elim hhex.newline_not_mem hextensions.newline_not_mem)
    hbytes
  rw [sizeLine, ← htext] at hlimit
  rw [sizeLine] at hlong
  omega

/-- A reader that has all bytes in its buffer. -/
def bufferedReader (bytes : List UInt8) : ResponseReader := ⟨bytes, ⟨[], .closed⟩, 8192, by decide⟩

theorem bufferedReader_content (bytes : List UInt8) :
    (bufferedReader bytes).stream.content = bytes := List.append_nil bytes

theorem bufferedReader_ending (bytes : List UInt8) :
    (bufferedReader bytes).stream.ending ≠ .failed := show Ending.closed ≠ .failed by decide

theorem extensions_name {name : List UInt8} (h : ExtensionToken name) : Extensions (59 :: name) := by
  have hnil : Ows [] := nofun
  have hextension : Extension name := by
    have hname := Extension.name hnil h hnil
    rwa [List.nil_append, List.append_nil] at hname
  have hmore := Extensions.more hnil hextension (.done hnil)
  rwa [List.nil_append, List.append_nil] at hmore

def longExtension : List UInt8 := 59 :: List.replicate 65536 97

def longFraming : Framing := ⟨[], [48], longExtension, []⟩

/-- A parser that finds no headers. -/
def noHeaders : HeaderParser := ⟨fun head => some (some head.length, []), fun _ => none, fun _ => none⟩

theorem longExtension_valid : Extensions longExtension := by
  refine extensions_name ⟨List.ne_nil_of_length_pos ?_, fun b hb => ?_⟩
  · rw [List.length_replicate]
    decide
  · rw [List.eq_of_mem_replicate hb]
    decide

theorem longFraming_wellFormed : longFraming.WellFormed noHeaders where
  chunks := nofun
  size := by
    intro b hb
    rw [List.mem_singleton.mp hb]
    decide
  nonempty := List.cons_ne_nil _ _
  zero := rfl
  extensions := longExtension_valid
  trailers := nofun
  permitted := ⟨[], by simp [parseHeaderBlock, noHeaders], fun _ _ => List.not_mem_nil⟩

/-- The last chunk of an empty body has an extension that is longer than a line may be. -/
theorem long_extension_refused :
    ¬ ∀ http limit (f : Framing) (r : ResponseReader), limit ≤ usizeMax → f.WellFormed http →
      f.body.length ≤ limit → r.stream.content = f.bytes → r.stream.ending ≠ .failed →
      collectChunked http limit r = .ok f.body := by
  intro h
  have hbody : longFraming.body.length ≤ 0 := by
    rw [show longFraming.body = [] from rfl, List.length_nil]
  have hlong : maxHeaderBytes < (sizeLine longFraming.size longFraming.extensions).length := by
    have hlength : longFraming.extensions.length = 65537 := by
      show (59 :: List.replicate 65536 97).length = 65537
      rw [List.length_cons, List.length_replicate]
    rw [sizeLine, List.length_append, List.length_append, hlength, maxHeaderBytes]
    omega
  exact long_line longFraming_wellFormed rfl hlong (bufferedReader_content _)
    (h noHeaders 0 longFraming (bufferedReader longFraming.bytes) (Nat.zero_le _)
      longFraming_wellFormed hbody (bufferedReader_content _) (bufferedReader_ending _))

end OnshapeApi
end OnshapeExport
