import OnshapeExport.OnshapeApi

/-!
# SelectionRequest

The request of `onshape_selection.rs` for an ordered selection of parts or occurrences, and the
check every request passes before it is used.

* `preflight_ok` — what an accepted request satisfies.
-/

namespace OnshapeExport
namespace Selection

open OnshapeApi

def maxSelectors : Nat := 256

inductive SelectionElementKind where
  | partStudio
  | assembly
deriving DecidableEq, Repr

inductive SelectionSelector where
  | part (partId : String)
  | occurrence (occurrencePath : List String)
deriving DecidableEq, Repr

structure EncodingHandoff where
  sourceHash : String
  configHash : String
  encodingContextHash : String
  encodedId : String
deriving DecidableEq, Repr

structure SelectionRequest where
  documentId : String
  versionId : String
  elementId : String
  elementKind : SelectionElementKind
  configurationEncoding : EncodingHandoff
  selectors : List SelectionSelector
deriving DecidableEq, Repr

def invalid : ApiFailure := .new .invalidSelection "invalid_selection"

/-- A selector of the request's kind of element. -/
def validSelector : SelectionElementKind → SelectionSelector → Bool
  | .partStudio, .part partId => boundedVisibleAscii partId
  | .assembly, .occurrence [instance_] => boundedVisibleAscii instance_
  | _, _ => false

/-- The loop over the selectors, with those seen so far. -/
def preflightSelectors (kind : SelectionElementKind) :
    Nat → List SelectionSelector → List SelectionSelector → Except ApiFailure Unit
  | _, _, [] => .ok ()
  | position, seen, s :: selectors =>
    if !validSelector kind s || s ∈ seen then .error (invalid.position position)
    else preflightSelectors kind (position + 1) (s :: seen) selectors

def SelectionRequest.preflight (r : SelectionRequest) : Except ApiFailure Unit :=
  let h := r.configurationEncoding
  if !([r.documentId, r.versionId, r.elementId, h.encodedId].all boundedVisibleAscii &&
      [h.sourceHash, h.configHash, h.encodingContextHash].all isSha256 &&
      1 ≤ r.selectors.length && r.selectors.length ≤ maxSelectors) then
    .error invalid
  else preflightSelectors r.elementKind 0 [] r.selectors

theorem preflightSelectors_ok {kind : SelectionElementKind} {selectors : List SelectionSelector} :
    ∀ {position : Nat} {seen : List SelectionSelector},
      preflightSelectors kind position seen selectors = .ok () →
        (∀ s ∈ selectors, validSelector kind s = true ∧ s ∉ seen) ∧ selectors.Nodup := by
  induction selectors with
  | nil =>
    intro position seen _
    simp
  | cons s selectors ih =>
    intro position seen h
    simp only [preflightSelectors] at h
    split at h
    · cases h
    · rename_i hs
      simp only [Bool.or_eq_true, Bool.not_eq_true', decide_eq_true_eq, not_or,
        Bool.not_eq_false] at hs
      obtain ⟨hall, hnodup⟩ := ih h
      refine ⟨?_, List.nodup_cons.mpr ⟨fun hm => (hall s hm).2 (List.mem_cons_self), hnodup⟩⟩
      intro x hx
      rcases List.mem_cons.mp hx with rfl | hx
      · exact hs
      · exact ⟨(hall x hx).1, fun hm => (hall x hx).2 (List.mem_cons_of_mem _ hm)⟩

/-- What an accepted request satisfies. -/
theorem preflight_ok {r : SelectionRequest} (h : r.preflight = .ok ()) :
    boundedVisibleAscii r.documentId = true ∧ boundedVisibleAscii r.versionId = true ∧
      boundedVisibleAscii r.elementId = true ∧
      boundedVisibleAscii r.configurationEncoding.encodedId = true ∧
      1 ≤ r.selectors.length ∧ r.selectors.length ≤ maxSelectors ∧
      (∀ s ∈ r.selectors, validSelector r.elementKind s = true) ∧ r.selectors.Nodup := by
  unfold SelectionRequest.preflight at h
  simp only at h
  split at h
  · cases h
  · rename_i hc
    obtain ⟨hall, hnodup⟩ := preflightSelectors_ok h
    simp only [List.all_cons, List.all_nil, Bool.and_true, Bool.not_eq_true',
      Bool.not_eq_false, Bool.and_eq_true, decide_eq_true_eq] at hc
    obtain ⟨⟨⟨⟨hd, hv, he, hi⟩, -⟩, hlo⟩, hhi⟩ := hc
    exact ⟨hd, hv, he, hi, hlo, hhi, fun s hs => (hall s hs).1, hnodup⟩

end Selection
end OnshapeExport
