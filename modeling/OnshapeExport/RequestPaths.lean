import OnshapeExport.Lib.PercentEncoding
import OnshapeExport.OnshapeApi
import Mathlib.Data.List.TakeWhile

/-!
# RequestPaths

The resource paths that `onshape_api.rs` signs and sends, as they stand in the request line.

* `encodedPath`, `requestTarget` — as the source has them.
* `splitOn_encodedPath` — the parts of a path are the encoded segments.
* `paths_inert` — what a segment can do to a path.
-/

namespace OnshapeExport
namespace OnshapeApi

open Percent

def utf8 (segment : String) : List UInt8 := segment.toByteArray.data.toList

/-- The bytes of a segment that stand for themselves. -/
def keptByte (segment : String) (byte : UInt8) : Bool :=
  let n := byte.toNat
  let alphanumeric := 48 ≤ n && n ≤ 57 || 65 ≤ n && n ≤ 90 || 97 ≤ n && n ≤ 122
  alphanumeric || n = '-'.toNat || n = '_'.toNat || n = '~'.toNat ||
    n = '.'.toNat && !(segment = "." || segment = "..")

def encodedSegment (segment : String) : List Char := encode (keptByte segment) (utf8 segment)

def encodedPath (segments : List String) : String :=
  String.ofList (segments.flatMap fun segment => '/' :: encodedSegment segment)

def geometryCreatePath (document version element : String) : String :=
  encodedPath ["api", "v16", "partstudios", "d", document, "v", version, "e", element,
    "translations"]

/-- What `exchange` writes after the method. -/
def requestTarget (path : String) (query : Option String) : String :=
  match query with
  | none => path
  | some query => if query = "" then path else path ++ ("?" ++ query)

/-! ## Segments -/

theorem utf8_inj {a b : String} (h : utf8 a = utf8 b) : a = b := by
  refine String.toByteArray_inj.mp (ByteArray.ext ?_)
  exact Array.toList_inj.mp h

theorem kept_unreserved (segment : String) (byte : UInt8) (h : keptByte segment byte = true) :
    isUnreserved byte.toNat = true := by
  have hchars : '-'.toNat = 45 ∧ '_'.toNat = 95 ∧ '~'.toNat = 126 ∧ '.'.toNat = 46 := by decide
  simp only [keptByte, hchars.1, hchars.2.1, hchars.2.2.1, hchars.2.2.2, Bool.or_eq_true,
    Bool.and_eq_true, decide_eq_true_eq] at h
  simp only [isUnreserved, Bool.or_eq_true, Bool.and_eq_true, decide_eq_true_eq]
  tauto

theorem decode_encodedSegment (segment : String) :
    decode (encodedSegment segment) = some (utf8 segment) :=
  decode_encode (kept_unreserved segment) _

theorem encodedSegment_inj {a b : String} (h : encodedSegment a = encodedSegment b) : a = b :=
  utf8_inj (encode_inj (kept_unreserved a) (kept_unreserved b) h)

theorem encoded_segment (segment : String) : Encoded (encodedSegment segment) :=
  encoded_encode (kept_unreserved segment) _

theorem encodedSegment_mem {segment : String} {c : Char} (h : c ∈ encodedSegment segment) :
    isUnreserved c.toNat = true ∨ c = '%' :=
  (encoded_segment segment).mem h

theorem slash_not_mem (segment : String) : '/' ∉ encodedSegment segment := by
  intro h
  rcases encodedSegment_mem h with h | h
  · exact absurd h (by decide)
  · exact absurd h (by decide)

/-- A segment that an encoding could only keep as it is, would be one of dots. -/
theorem encodedSegment_ne_dots (segment : String) :
    encodedSegment segment ≠ ['.'] ∧ encodedSegment segment ≠ ['.', '.'] := by
  have hdecode := decode_encodedSegment segment
  constructor
  · intro h
    rw [h] at hdecode
    have hs : segment = "." := utf8_inj (Option.some.inj hdecode).symm
    rw [hs] at h
    exact absurd h (by decide +kernel)
  · intro h
    rw [h] at hdecode
    have hs : segment = ".." := utf8_inj (Option.some.inj hdecode).symm
    rw [hs] at h
    exact absurd h (by decide +kernel)

/-! ## Paths -/

theorem toList_encodedPath (segments : List String) :
    (encodedPath segments).toList = ['/'].intercalate ([] :: segments.map encodedSegment) := by
  rw [encodedPath, String.toList_ofList]
  induction segments with
  | nil => rfl
  | cons segment segments ih =>
    rw [List.flatMap_cons, ih]
    cases segments with
    | nil => simp [List.intercalate]
    | cons next segments => simp [List.intercalate]

/-- The parts of a path are nothing and the encoded segments. -/
theorem splitOn_encodedPath (segments : List String) :
    (encodedPath segments).toList.splitOn '/' = [] :: segments.map encodedSegment := by
  rw [toList_encodedPath]
  refine List.splitOn_intercalate '/' (fun part hpart => ?_) (List.cons_ne_nil _ _)
  rcases List.mem_cons.mp hpart with rfl | hpart
  · exact List.not_mem_nil
  · obtain ⟨segment, -, rfl⟩ := List.mem_map.mp hpart
    exact slash_not_mem segment

theorem encodedPath_inj {a b : List String} (h : encodedPath a = encodedPath b) : a = b := by
  have hparts := splitOn_encodedPath a
  rw [h, splitOn_encodedPath b] at hparts
  exact (List.map_injective_iff.mpr fun _ _ => encodedSegment_inj) (List.cons.inj hparts).2.symm

/-- The path of a translation names its document, version and element. -/
theorem geometryCreatePath_inj {document version element document' version' element' : String}
    (h : geometryCreatePath document version element =
      geometryCreatePath document' version' element') :
    document = document' ∧ version = version' ∧ element = element' := by
  have hsegments := encodedPath_inj h
  simp only [List.cons.injEq, and_true, true_and] at hsegments
  exact hsegments

theorem encodedPath_mem {segments : List String} {c : Char} (h : c ∈ (encodedPath segments).toList) :
    isUnreserved c.toNat = true ∨ c = '%' ∨ c = '/' := by
  rw [encodedPath, String.toList_ofList, List.mem_flatMap] at h
  obtain ⟨segment, -, h⟩ := h
  rcases List.mem_cons.mp h with rfl | h
  · exact .inr (.inr rfl)
  · rcases encodedSegment_mem h with h | h
    · exact .inl h
    · exact .inr (.inl h)

/-- A path is what stands before the query or a fragment. -/
theorem takeWhile_requestTarget (segments : List String) (query : Option String) :
    (requestTarget (encodedPath segments) query).toList.takeWhile (fun c => c ≠ '?' && c ≠ '#') =
      (encodedPath segments).toList := by
  have hpath : ∀ c ∈ (encodedPath segments).toList, (c ≠ '?' && c ≠ '#') = true := by
    intro c hc
    rw [Bool.and_eq_true, decide_eq_true_eq, decide_eq_true_eq]
    constructor
    · rintro rfl
      exact absurd (encodedPath_mem hc) (by decide)
    · rintro rfl
      exact absurd (encodedPath_mem hc) (by decide)
  have hself := List.takeWhile_eq_self_iff.mpr hpath
  unfold requestTarget
  split
  · exact hself
  · split
    · exact hself
    · rename_i query _
      have hquery : ("?" ++ query).toList = '?' :: query.toList := by simp
      rw [String.toList_append, hquery, List.takeWhile_append_of_pos hpath]
      simp

/-- Different lists of segments have different paths, each part of a path decodes to the bytes of
its segment and is made of unreserved characters and triplets, and none is of dots; so there are as
many levels as segments, and the path of a request ends where its query starts. -/
theorem paths_inert :
    (∀ a b : List String, encodedPath a = encodedPath b → a = b) ∧
    ∀ segments : List String, ∃ parts : List (List Char),
      (encodedPath segments).toList.splitOn '/' = [] :: parts ∧
      parts.map decode = segments.map (fun segment => some (utf8 segment)) ∧
      (∀ part ∈ parts, Encoded part ∧ part ≠ ['.'] ∧ part ≠ ['.', '.']) ∧
      (∀ c ∈ (encodedPath segments).toList, isUnreserved c.toNat = true ∨ c = '%' ∨ c = '/') ∧
      ∀ query : Option String,
        (requestTarget (encodedPath segments) query).toList.takeWhile
          (fun c => c ≠ '?' && c ≠ '#') = (encodedPath segments).toList := by
  refine ⟨fun _ _ => encodedPath_inj, fun segments => ?_⟩
  refine ⟨segments.map encodedSegment, splitOn_encodedPath segments, ?_, ?_,
    fun _ => encodedPath_mem, takeWhile_requestTarget segments⟩
  · rw [List.map_map]
    exact List.map_congr_left fun segment _ => decode_encodedSegment segment
  · intro part hpart
    obtain ⟨segment, -, rfl⟩ := List.mem_map.mp hpart
    exact ⟨encoded_segment segment, encodedSegment_ne_dots segment⟩

end OnshapeApi
end OnshapeExport
