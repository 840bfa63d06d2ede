import OnshapeExport.Lib.JsonShape
import OnshapeExport.Lib.JsonText
import OnshapeExport.OnshapeApi

/-!
# ParseJson

How documents are read and hashed: the bounded reader `parse_json` of `onshape_api.rs`, and the
canonical hashes of `cache_key.rs`. The reader and the printer of JSON text and SHA-256 are
parameters.

* `parseJson_ok` — what the reader accepts is the document within its bounds.
* `bounded_of_within` — the bounds, from the shape of a document.
-/

namespace OnshapeExport
namespace OnshapeApi

open Json

def operational (code : String) : ApiFailure := .new .operationalApiContractFailure code

def maxDepth : Nat := 32
def maxArrayEntries : Nat := 4096
def maxObjectMembers : Nat := 256
def maxTotalMembers : Nat := 262144

def smallResponseLimit : Nat := 65536

/-! ## The bounded reader -/

mutual

/-- `BoundedValue`: the number of members read so far, after one more value at a depth. -/
def visit (depth : Nat) : Value → Nat → Option Nat
  | .array items, seen => if maxDepth ≤ depth then none else visitSeq (depth + 1) items 0 seen
  | .object members, seen =>
    if maxDepth ≤ depth then none else visitMap (depth + 1) members [] seen
  | _, seen => some seen

def visitSeq (depth : Nat) : List Value → Nat → Nat → Option Nat
  | [], _, seen => some seen
  | v :: vs, count, seen =>
    match visit depth v seen with
    | none => none
    | some seen => if count = maxArrayEntries then none else visitSeq depth vs (count + 1) seen

def visitMap (depth : Nat) : List (String × Value) → List String → Nat → Option Nat
  | [], _, seen => some seen
  | (key, v) :: ms, values, seen =>
    if values.length = maxObjectMembers ∨ seen = maxTotalMembers then none
    else if key ∈ values then none
    else
      match visit depth v (seen + 1) with
      | none => none
      | some seen => visitMap depth ms (key :: values) seen

end

/-- The structural bounds of `parse_json`. -/
def Bounded (v : Value) : Prop := (visit 0 v 0).isSome = true

instance (v : Value) : Decidable (Bounded v) := inferInstanceAs (Decidable (_ = true))

mutual

/-- A value within the bounds is visited to its end, and its members are counted. -/
theorem visit_some : ∀ (v : Value) (depth seen : Nat), v.Narrow maxArrayEntries maxObjectMembers →
    depth + v.depth ≤ maxDepth → seen + v.count ≤ maxTotalMembers →
    visit depth v seen = some (seen + v.count)
  | .null, _, _, _, _, _ => rfl
  | .bool _, _, _, _, _, _ => rfl
  | .number _, _, _, _, _, _ => rfl
  | .string _, _, _, _, _, _ => rfl
  | .array vs, depth, seen, hn, hd, hc => by
    simp only [Value.depth, Value.count, Value.Narrow] at hn hd hc
    rw [visit, if_neg (by omega)]
    exact visitSeq_some vs (depth + 1) 0 seen hn.2 (by omega) (by omega) hc
  | .object ms, depth, seen, hn, hd, hc => by
    simp only [Value.depth, Value.count, Value.Narrow] at hn hd hc
    rw [visit, if_neg (by omega)]
    exact visitMap_some ms (depth + 1) [] seen hn.2.2 hn.2.1 (by simp) (by simpa using hn.1)
      (by omega) hc

theorem visitSeq_some : ∀ (vs : List Value) (depth count seen : Nat),
    ItemsNarrow maxArrayEntries maxObjectMembers vs → count + vs.length ≤ maxArrayEntries →
    depth + itemsDepth vs ≤ maxDepth → seen + itemsCount vs ≤ maxTotalMembers →
    visitSeq depth vs count seen = some (seen + itemsCount vs)
  | [], _, _, _, _, _, _, _ => rfl
  | v :: vs, depth, count, seen, hn, hl, hd, hc => by
    simp only [ItemsNarrow, itemsDepth, itemsCount, List.length_cons] at hn hl hd hc
    have hv := visit_some v depth seen hn.1 (by omega) (by omega)
    have hvs := visitSeq_some vs depth (count + 1) (seen + v.count) hn.2 (by omega) (by omega)
      (by omega)
    simp only [visitSeq, hv, if_neg (show ¬ count = maxArrayEntries by omega), hvs, itemsCount]
    rw [Nat.add_assoc]

theorem visitMap_some : ∀ (ms : List (String × Value)) (depth : Nat) (values : List String)
    (seen : Nat), MembersNarrow maxArrayEntries maxObjectMembers ms → (keys ms).Nodup →
    (∀ k ∈ keys ms, k ∉ values) → values.length + ms.length ≤ maxObjectMembers →
    depth + membersDepth ms ≤ maxDepth → seen + membersCount ms ≤ maxTotalMembers →
    visitMap depth ms values seen = some (seen + membersCount ms)
  | [], _, _, _, _, _, _, _, _, _ => rfl
  | (k, v) :: ms, depth, values, seen, hn, hk, hv, hl, hd, hc => by
    simp only [MembersNarrow, membersDepth, membersCount, List.length_cons] at hn hl hd hc
    rw [keys_cons, List.nodup_cons] at hk
    have hvisit := visit_some v depth (seen + 1) hn.1 (by omega) (by omega)
    have hrest := visitMap_some ms depth (k :: values) (seen + 1 + v.count) hn.2 hk.2
      (fun x hx => by
        rw [List.mem_cons, not_or]
        exact ⟨fun he => hk.1 (he ▸ hx), hv x (by rw [keys_cons]; exact List.mem_cons_of_mem _ hx)⟩)
      (by rw [List.length_cons]; omega) (by omega) (by omega)
    have hnew : k ∉ values := hv k (by rw [keys_cons]; exact List.mem_cons_self)
    have hroom : ¬ (values.length = maxObjectMembers ∨ seen = maxTotalMembers) := by omega
    simp only [visitMap, if_neg hroom, if_neg hnew, hvisit, hrest, membersCount]
    congr 1
    omega

end

/-- A document whose shape is within the bounds is accepted for its structure. -/
theorem bounded_of_within {v : Value}
    (h : Within maxArrayEntries maxObjectMembers maxDepth maxTotalMembers v) : Bounded v := by
  have := visit_some v 0 0 h.narrow (by simpa using h.depth) (by simpa using h.count)
  simp [Bounded, this]

/-- `parse_json`; the bytes of a text are UTF-8. -/
def parseJson (text : JsonText) (json : String) (limit : Nat) : Except ApiFailure Value :=
  if limit < json.utf8ByteSize then .error (operational "response_byte_limit")
  else
    match text.read json with
    | none => .error (operational "invalid_bounded_json")
    | some v => if Bounded v then .ok v else .error (operational "invalid_bounded_json")

theorem parseJson_ok {text : JsonText} {json : String} {limit : Nat} {v : Value} :
    parseJson text json limit = .ok v ↔
      json.utf8ByteSize ≤ limit ∧ text.read json = some v ∧ Bounded v := by
  unfold parseJson
  by_cases hl : limit < json.utf8ByteSize
  · rw [if_pos hl]
    simp only [reduceCtorEq, false_iff, not_and]
    intro h
    omega
  · rw [if_neg hl]
    cases hr : text.read json with
    | none => simp
    | some w =>
      by_cases hb : Bounded w
      · simp only [if_pos hb, Except.ok.injEq, Option.some.injEq]
        constructor
        · rintro rfl
          exact ⟨by omega, rfl, hb⟩
        · intro h
          exact h.2.1
      · simp only [if_neg hb, reduceCtorEq, Option.some.injEq, false_iff, not_and]
        rintro - rfl
        exact hb

end OnshapeApi

namespace CacheKey

open Json

/-- What documents are printed, read and hashed with. -/
structure Digests where
  text : JsonText
  sha256 : String → String

variable (digests : Digests)

/-- `canonical_json_bytes`. -/
def canonicalJson (v : Value) : String := digests.text.print v

/-- `hash_json`. -/
def hashJson (domain : String) (payload : Value) : String :=
  digests.sha256 (canonicalJson digests
    (.ofFields [("domain", .string domain), ("payload", payload)]))

/-- No two texts have one hash. -/
def CollisionFree : Prop := Function.Injective digests.sha256

theorem canonical_preimage {domain : String} {payload : Value} (h : payload.Canonical) :
    (Value.ofFields [("domain", .string domain), ("payload", payload)]).Canonical := by
  refine Value.canonical_ofFields (by simp) fun m hm => ?_
  simp only [List.mem_cons, List.not_mem_nil, or_false] at hm
  obtain rfl | rfl := hm
  · trivial
  · exact h

/-- Documents hashed under one domain are told apart by their hashes. -/
theorem hashJson_inj {domain : String} {v w : Value} (ht : digests.text.Faithful)
    (hc : CollisionFree digests) (hv : v.Canonical) (hw : w.Canonical)
    (h : hashJson digests domain v = hashJson digests domain w) : v = w := by
  have hp := ht.print_inj (canonical_preimage hv) (canonical_preimage hw) (hc h)
  have hget := Value.get?_of_ofFields_eq (by simp) (by simp) hp "payload"
  simpa [get?, List.lookup_cons, List.lookup_nil] using hget

end CacheKey
end OnshapeExport
