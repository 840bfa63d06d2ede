import OnshapeExport.ParseJson

/-!
# BoundedJson

The bounded reader of `onshape_api.rs` as it runs: a visitor over the tokens of a text, which
counts the members it meets while it builds the value. The tokenizer of `serde_json` is a
parameter; `malformed` is where it gives up.

* `deserialize`, `visitArray`, `visitObject` — the visitor, with its checks where it makes them.
* `deserialize_sound`, `deserialize_complete` — what it accepts are the tokens of a document.
* `parse_json_bounded` — exactly which bytes are read, and as what.
-/

namespace OnshapeExport
namespace OnshapeApi

open Json

inductive Token where
  | null
  | bool (b : Bool)
  | number (n : Number)
  | string (s : String)
  | startArray
  | endArray
  | startObject
  | key (name : String)
  | endObject
  | malformed
deriving DecidableEq

/-! ## Documents -/

mutual

/-- The tokens of a document whose members stand as in its text. -/
def tokens : Value → List Token
  | .null => [.null]
  | .bool b => [.bool b]
  | .number n => [.number n]
  | .string s => [.string s]
  | .array items => .startArray :: (itemsTokens items ++ [.endArray])
  | .object members => .startObject :: (membersTokens members ++ [.endObject])

def itemsTokens : List Value → List Token
  | [] => []
  | v :: vs => tokens v ++ itemsTokens vs

def membersTokens : List (String × Value) → List Token
  | [] => []
  | (k, v) :: ms => .key k :: (tokens v ++ membersTokens ms)

end

mutual

/-- The value a document denotes: an object is a map. -/
def denoted : Value → Value
  | .array items => .array (denotedItems items)
  | .object members => .ofFields (denotedMembers members)
  | v => v

def denotedItems : List Value → List Value
  | [] => []
  | v :: vs => denoted v :: denotedItems vs

def denotedMembers : List (String × Value) → List (String × Value)
  | [] => []
  | (k, v) :: ms => (k, denoted v) :: denotedMembers ms

end

/-! ## The visitor -/

structure JsonBudget where
  members : Nat
deriving DecidableEq

mutual

/-- `BoundedValue::deserialize`: the value, the tokens after it and what is left of the budget.
The fuel bounds the calls. -/
def deserialize : Nat → Nat → List Token → JsonBudget → Option (Value × List Token × JsonBudget)
  | 0, _, _, _ => none
  | fuel + 1, depth, tokens, budget =>
    match tokens with
    | .null :: rest => some (.null, rest, budget)
    | .bool b :: rest => some (.bool b, rest, budget)
    | .number n :: rest => some (.number n, rest, budget)
    | .string s :: rest => some (.string s, rest, budget)
    | .startArray :: rest =>
      if maxDepth ≤ depth then none else visitArray fuel depth rest [] budget
    | .startObject :: rest =>
      if maxDepth ≤ depth then none else visitObject fuel depth rest [] budget
    | _ => none

/-- `visit_seq`; the entry that is one too many is read before it is refused. -/
def visitArray :
    Nat → Nat → List Token → List Value → JsonBudget → Option (Value × List Token × JsonBudget)
  | 0, _, _, _, _ => none
  | fuel + 1, depth, tokens, values, budget =>
    match tokens with
    | .endArray :: rest => some (.array values, rest, budget)
    | _ =>
      match deserialize fuel (depth + 1) tokens budget with
      | none => none
      | some (v, rest, budget) =>
        if values.length = maxArrayEntries then none
        else visitArray fuel depth rest (values ++ [v]) budget

/-- `visit_map`; the member that is one too many is refused at its key. -/
def visitObject : Nat → Nat → List Token → List (String × Value) → JsonBudget →
    Option (Value × List Token × JsonBudget)
  | 0, _, _, _, _ => none
  | fuel + 1, depth, tokens, values, budget =>
    match tokens with
    | .endObject :: rest => some (.ofFields values, rest, budget)
    | .key k :: rest =>
      if values.length = maxObjectMembers ∨ budget.members = maxTotalMembers then none
      else if k ∈ keys values then none
      else
        match deserialize fuel (depth + 1) rest ⟨budget.members + 1⟩ with
        | none => none
        | some (v, rest, budget) => visitObject fuel depth rest (values ++ [(k, v)]) budget
    | _ => none

end

/-- `parse_json` of bytes, with what cuts a text into tokens. -/
def parseJsonBytes (tokenize : String → List Token) (bytes : ByteArray) (limit : Nat) :
    Except ApiFailure Value :=
  if limit < bytes.size then .error (operational "response_byte_limit")
  else
    match String.fromUTF8? bytes with
    | none => .error (operational "invalid_json_utf8")
    | some json =>
      let found := tokenize json
      match deserialize (2 * found.length) 0 found ⟨0⟩ with
      | some (v, [], _) => .ok v
      | _ => .error (operational "invalid_bounded_json")

/-! ## What is read is a document -/

/-- The documents that the visitor reads at a depth, with a part of the budget spent. -/
structure Admissible (depth seen : Nat) (doc : Value) : Prop where
  depth : depth + doc.depth ≤ maxDepth
  count : seen + doc.count ≤ maxTotalMembers
  narrow : doc.Narrow maxArrayEntries maxObjectMembers

structure AdmissibleItems (depth seen length : Nat) (docs : List Value) : Prop where
  depth : depth + itemsDepth docs ≤ maxDepth
  count : seen + itemsCount docs ≤ maxTotalMembers
  narrow : ItemsNarrow maxArrayEntries maxObjectMembers docs
  length : length + docs.length ≤ maxArrayEntries

structure AdmissibleMembers (depth seen : Nat) (known : List String)
    (docs : List (String × Value)) : Prop where
  depth : depth + membersDepth docs ≤ maxDepth
  count : seen + membersCount docs ≤ maxTotalMembers
  narrow : MembersNarrow maxArrayEntries maxObjectMembers docs
  length : known.length + docs.length ≤ maxObjectMembers
  distinct : (keys docs).Nodup
  fresh : ∀ k ∈ keys docs, k ∉ known

mutual

/-- Whatever the fuel, what is read is a document within the bounds, and its members are counted. -/
theorem deserialize_sound : ∀ (fuel depth : Nat) (found rest : List Token) (budget after : JsonBudget)
    (v : Value), depth ≤ maxDepth → budget.members ≤ maxTotalMembers →
    deserialize fuel depth found budget = some (v, rest, after) →
    ∃ doc, found = tokens doc ++ rest ∧ denoted doc = v ∧ Admissible depth budget.members doc ∧
      after.members = budget.members + doc.count
  | 0, _, _, _, _, _, _, _, _, h => by cases h
  | fuel + 1, depth, found, rest, budget, after, v, hdepth, hbudget, h => by
    have leaf : ∀ doc : Value, doc.depth = 0 → doc.count = 0 →
        doc.Narrow maxArrayEntries maxObjectMembers →
        Admissible depth budget.members doc ∧ budget.members = budget.members + doc.count :=
      fun doc hd hc hn => ⟨⟨by omega, by omega, hn⟩, by omega⟩
    unfold deserialize at h
    split at h
    · cases h
      exact ⟨.null, rfl, rfl, leaf _ rfl rfl trivial⟩
    · rename_i b _
      cases h
      exact ⟨.bool b, rfl, rfl, leaf _ rfl rfl trivial⟩
    · rename_i n _
      cases h
      exact ⟨.number n, rfl, rfl, leaf _ rfl rfl trivial⟩
    · rename_i s _
      cases h
      exact ⟨.string s, rfl, rfl, leaf _ rfl rfl trivial⟩
    · rename_i following
      split at h
      · cases h
      · rename_i hcontainer
        obtain ⟨docs, hfound, hv, hadm, hafter⟩ :=
          visitArray_sound fuel depth following rest [] budget after v (by omega) hbudget
            (Nat.zero_le _) h
        refine ⟨.array docs, ?_, ?_, ⟨?_, hadm.count, ?_⟩, hafter⟩
        · rw [hfound, tokens]
          simp
        · rw [hv, denoted, List.nil_append]
        · have := hadm.depth
          rw [Value.depth]
          omega
        · have := hadm.length
          rw [List.length_nil] at this
          exact ⟨by omega, hadm.narrow⟩
    · rename_i following
      split at h
      · cases h
      · rename_i hcontainer
        obtain ⟨docs, hfound, hv, hadm, hafter⟩ :=
          visitObject_sound fuel depth following rest [] budget after v (by omega) hbudget
            (Nat.zero_le _) h
        refine ⟨.object docs, ?_, ?_, ⟨?_, hadm.count, ?_⟩, hafter⟩
        · rw [hfound, tokens]
          simp
        · rw [hv, denoted, List.nil_append]
        · have := hadm.depth
          rw [Value.depth]
          omega
        · have hlength := hadm.length
          rw [keys_nil, List.length_nil] at hlength
          exact ⟨by omega, hadm.distinct, hadm.narrow⟩
    · cases h

theorem visitArray_sound : ∀ (fuel depth : Nat) (found rest : List Token) (values : List Value)
    (budget after : JsonBudget) (v : Value), depth + 1 ≤ maxDepth →
    budget.members ≤ maxTotalMembers → values.length ≤ maxArrayEntries →
    visitArray fuel depth found values budget = some (v, rest, after) →
    ∃ docs, found = itemsTokens docs ++ .endArray :: rest ∧ v = .array (values ++ denotedItems docs) ∧
      AdmissibleItems (depth + 1) budget.members values.length docs ∧
      after.members = budget.members + itemsCount docs
  | 0, _, _, _, _, _, _, _, _, _, _, h => by cases h
  | fuel + 1, depth, found, rest, values, budget, after, v, hdepth, hbudget, hvalues, h => by
    unfold visitArray at h
    split at h
    · cases h
      refine ⟨[], rfl, ?_, ⟨?_, ?_, trivial, ?_⟩, rfl⟩
      · rw [denotedItems, List.append_nil]
      · rw [itemsDepth]
        omega
      · rw [itemsCount]
        omega
      · rw [List.length_nil]
        omega
    · split at h
      · cases h
      · rename_i w middle spent hw
        split at h
        · cases h
        · rename_i hroom
          obtain ⟨doc, hfound, hdoc, hadm, hspent⟩ :=
            deserialize_sound fuel (depth + 1) found middle budget spent w hdepth hbudget hw
          have hcount := hadm.count
          have hdeep := hadm.depth
          obtain ⟨docs, hmiddle, hv, hrest, hafter⟩ :=
            visitArray_sound fuel depth middle rest (values ++ [w]) spent after v hdepth (by omega)
              (by rw [List.length_append, List.length_singleton]; omega) h
          have hcounts := hrest.count
          have hdeeps := hrest.depth
          have hlength := hrest.length
          rw [List.length_append, List.length_singleton] at hlength
          refine ⟨doc :: docs, ?_, ?_, ⟨?_, ?_, ⟨hadm.narrow, hrest.narrow⟩, ?_⟩, ?_⟩
          · rw [hfound, hmiddle, itemsTokens, List.append_assoc]
          · rw [hv, denotedItems, hdoc, List.append_assoc, List.singleton_append]
          · rw [itemsDepth]
            omega
          · rw [itemsCount]
            omega
          · rw [List.length_cons]
            omega
          · rw [itemsCount]
            omega

theorem visitObject_sound : ∀ (fuel depth : Nat) (found rest : List Token)
    (values : List (String × Value)) (budget after : JsonBudget) (v : Value), depth + 1 ≤ maxDepth →
    budget.members ≤ maxTotalMembers → values.length ≤ maxObjectMembers →
    visitObject fuel depth found values budget = some (v, rest, after) →
    ∃ docs, found = membersTokens docs ++ .endObject :: rest ∧
      v = .ofFields (values ++ denotedMembers docs) ∧
      AdmissibleMembers (depth + 1) budget.members (keys values) docs ∧
      after.members = budget.members + membersCount docs
  | 0, _, _, _, _, _, _, _, _, _, _, h => by cases h
  | fuel + 1, depth, found, rest, values, budget, after, v, hdepth, hbudget, hvalues, h => by
    unfold visitObject at h
    have hlen : (keys values).length = values.length := List.length_map ..
    split at h
    · cases h
      refine ⟨[], rfl, ?_, ⟨?_, ?_, trivial, ?_, List.nodup_nil, nofun⟩, rfl⟩
      · rw [denotedMembers, List.append_nil]
      · rw [membersDepth]
        omega
      · rw [membersCount]
        omega
      · rw [List.length_nil]
        omega
    · rename_i k following
      split at h
      · cases h
      · rename_i hroom
        split at h
        · cases h
        · rename_i hnew
          split at h
          · cases h
          · rename_i w middle spent hw
            rw [not_or] at hroom
            obtain ⟨doc, hfound, hdoc, hadm, hspent⟩ :=
              deserialize_sound fuel (depth + 1) following middle ⟨budget.members + 1⟩ spent w hdepth
                (show budget.members + 1 ≤ _ by omega) hw
            have hcount := hadm.count
            have hdeep := hadm.depth
            simp only at hcount hspent
            have hkeys' : keys (values ++ [(k, w)]) = keys values ++ [k] := by simp
            obtain ⟨docs, hmiddle, hv, hrest, hafter⟩ :=
              visitObject_sound fuel depth middle rest (values ++ [(k, w)]) spent after v hdepth
                (by omega) (by rw [List.length_append, List.length_singleton]; omega) h
            have hcounts := hrest.count
            have hdeeps := hrest.depth
            have hlength := hrest.length
            have hfresh := hrest.fresh
            rw [hkeys', List.length_append, List.length_singleton] at hlength
            rw [hkeys'] at hfresh
            refine ⟨(k, doc) :: docs, ?_, ?_, ⟨?_, ?_, ⟨hadm.narrow, hrest.narrow⟩, ?_, ?_, ?_⟩, ?_⟩
            · rw [hfound, hmiddle, membersTokens, List.cons_append, List.append_assoc]
            · rw [hv, denotedMembers, hdoc, List.append_assoc, List.singleton_append]
            · rw [membersDepth]
              omega
            · rw [membersCount]
              omega
            · rw [List.length_cons]
              omega
            · rw [keys_cons, List.nodup_cons]
              exact ⟨fun hk => hfresh k hk (by simp), hrest.distinct⟩
            · intro x hx
              rw [keys_cons, List.mem_cons] at hx
              rcases hx with rfl | hx
              · exact hnew
              · exact fun hm => hfresh x hx (List.mem_append_left _ hm)
            · rw [membersCount]
              omega
    · cases h

end

/-! ## Every document within the bounds is read -/

theorem tokens_pos (doc : Value) : 0 < (tokens doc).length := by
  cases doc <;> simp [tokens]

/-- The first token of a document does not close an array. -/
theorem tokens_ne_endArray (doc : Value) (rest after : List Token) :
    tokens doc ++ rest ≠ .endArray :: after := by
  cases doc <;> simp [tokens]

mutual

theorem deserialize_complete : ∀ (doc : Value) (fuel depth : Nat) (rest : List Token)
    (budget : JsonBudget), 2 * (tokens doc).length ≤ fuel →
    Admissible depth budget.members doc →
    deserialize fuel depth (tokens doc ++ rest) budget =
      some (denoted doc, rest, ⟨budget.members + doc.count⟩)
  | .null, fuel + 1, _, _, _, _, _ => rfl
  | .bool _, fuel + 1, _, _, _, _, _ => rfl
  | .number _, fuel + 1, _, _, _, _, _ => rfl
  | .string _, fuel + 1, _, _, _, _, _ => rfl
  | .array docs, fuel + 1, depth, rest, budget, hfuel, h => by
    have hdepth := h.depth
    rw [Value.depth] at hdepth
    have hn : ¬ maxDepth ≤ depth := by omega
    rw [tokens, List.length_cons, List.length_append, List.length_singleton] at hfuel
    have := visitArray_complete docs fuel depth rest [] budget (by omega)
      ⟨by omega, h.count, h.narrow.2, by simpa using h.narrow.1⟩
    simpa only [tokens, List.cons_append, List.append_assoc, List.nil_append, deserialize, if_neg hn,
      denoted, Value.count] using this
  | .object docs, fuel + 1, depth, rest, budget, hfuel, h => by
    have hdepth := h.depth
    rw [Value.depth] at hdepth
    have hn : ¬ maxDepth ≤ depth := by omega
    rw [tokens, List.length_cons, List.length_append, List.length_singleton] at hfuel
    have := visitObject_complete docs fuel depth rest [] budget (by omega)
      ⟨by omega, h.count, h.narrow.2.2, by simpa using h.narrow.1, h.narrow.2.1, by simp⟩
    simpa only [tokens, List.cons_append, List.append_assoc, List.nil_append, deserialize, if_neg hn,
      denoted, Value.count] using this
  | doc, 0, _, _, _, hfuel, _ => by
    have := tokens_pos doc
    omega

theorem visitArray_complete : ∀ (docs : List Value) (fuel depth : Nat) (rest : List Token)
    (values : List Value) (budget : JsonBudget), 2 * (itemsTokens docs).length + 1 ≤ fuel →
    AdmissibleItems (depth + 1) budget.members values.length docs →
    visitArray fuel depth (itemsTokens docs ++ .endArray :: rest) values budget =
      some (.array (values ++ denotedItems docs), rest, ⟨budget.members + itemsCount docs⟩)
  | [], fuel + 1, _, _, _, _, _, _ => by
    simp [itemsTokens, visitArray, denotedItems, itemsCount]
  | doc :: docs, fuel + 1, depth, rest, values, budget, hfuel, h => by
    have hdepth := h.depth
    have hcount := h.count
    have hlength := h.length
    have hpos := tokens_pos doc
    rw [itemsDepth] at hdepth
    rw [itemsCount] at hcount
    rw [List.length_cons] at hlength
    rw [itemsTokens, List.length_append] at hfuel
    have hdoc := deserialize_complete doc fuel (depth + 1) (itemsTokens docs ++ .endArray :: rest)
      budget (by omega) ⟨by omega, by omega, h.narrow.1⟩
    have hdocs := visitArray_complete docs fuel depth rest (values ++ [denoted doc])
      ⟨budget.members + doc.count⟩ (by omega)
      ⟨by omega, show budget.members + doc.count + _ ≤ _ by omega, h.narrow.2,
        by rw [List.length_append, List.length_singleton]; omega⟩
    rw [itemsTokens, List.append_assoc, visitArray, hdoc]
    · simp only [if_neg (show ¬ values.length = maxArrayEntries by omega), hdocs]
      simp [denotedItems, itemsCount, Nat.add_assoc]
    · intro after heq
      exact absurd heq (tokens_ne_endArray doc _ _)
  | docs, 0, _, _, _, _, hfuel, _ => by omega

theorem visitObject_complete : ∀ (docs : List (String × Value)) (fuel depth : Nat)
    (rest : List Token) (values : List (String × Value)) (budget : JsonBudget),
    2 * (membersTokens docs).length + 1 ≤ fuel →
    AdmissibleMembers (depth + 1) budget.members (keys values) docs →
    visitObject fuel depth (membersTokens docs ++ .endObject :: rest) values budget =
      some (.ofFields (values ++ denotedMembers docs), rest, ⟨budget.members + membersCount docs⟩)
  | [], fuel + 1, _, _, _, _, _, _ => by
    simp [membersTokens, visitObject, denotedMembers, membersCount]
  | (k, doc) :: docs, fuel + 1, depth, rest, values, budget, hfuel, h => by
    have hdepth := h.depth
    have hcount := h.count
    have hlength := h.length
    have hdistinct := List.nodup_cons.mp h.distinct
    have hlen : (keys values).length = values.length := List.length_map ..
    rw [membersDepth] at hdepth
    rw [membersCount] at hcount
    rw [List.length_cons] at hlength
    rw [membersTokens, List.length_cons, List.length_append] at hfuel
    have hkeys : keys (values ++ [(k, denoted doc)]) = keys values ++ [k] := by simp
    have hdoc := deserialize_complete doc fuel (depth + 1) (membersTokens docs ++ .endObject :: rest)
      ⟨budget.members + 1⟩ (by omega)
      ⟨by omega, show budget.members + 1 + _ ≤ _ by omega, h.narrow.1⟩
    have hdocs := visitObject_complete docs fuel depth rest (values ++ [(k, denoted doc)])
      ⟨budget.members + 1 + doc.count⟩ (by omega)
      ⟨by omega, show budget.members + 1 + doc.count + _ ≤ _ by omega, h.narrow.2,
        by rw [hkeys, List.length_append, List.length_singleton]; omega,
        hdistinct.2, by
          intro x hx
          rw [hkeys, List.mem_append, List.mem_singleton, not_or]
          exact ⟨h.fresh x (List.mem_cons_of_mem _ hx), fun he => hdistinct.1 (he ▸ hx)⟩⟩
    have hnew : k ∉ keys values := h.fresh k List.mem_cons_self
    have hroom : ¬ (values.length = maxObjectMembers ∨ budget.members = maxTotalMembers) := by omega
    simp only [membersTokens, List.cons_append, List.append_assoc, visitObject, if_neg hroom,
      if_neg hnew, hdoc, hdocs]
    have htotal : budget.members + 1 + doc.count + membersCount docs =
        budget.members + (doc.count + 1 + membersCount docs) := by omega
    rw [denotedMembers, membersCount, List.nil_append, htotal]
  | docs, 0, _, _, _, _, hfuel, _ => by omega

end

theorem parse_json_iff {tokenize : String → List Token} {bytes : ByteArray} {limit : Nat}
    {v : Value} :
    parseJsonBytes tokenize bytes limit = .ok v ↔
      bytes.size ≤ limit ∧ ∃ json doc, String.fromUTF8? bytes = some json ∧
        tokenize json = tokens doc ∧ denoted doc = v ∧ doc.depth ≤ maxDepth ∧
        doc.count ≤ maxTotalMembers ∧ doc.Narrow maxArrayEntries maxObjectMembers := by
  unfold parseJsonBytes
  split
  · rename_i hlimit
    constructor
    · nofun
    · rintro ⟨hsize, -⟩
      omega
  · rename_i hlimit
    split
    · rename_i hutf
      constructor
      · nofun
      · rintro ⟨-, json, doc, hjson, -⟩
        rw [hutf] at hjson
        cases hjson
    · rename_i json hutf
      dsimp only
      constructor
      · intro h
        split at h
        · rename_i w after hread
          cases h
          obtain ⟨doc, hfound, hdoc, hadm, -⟩ :=
            deserialize_sound _ 0 _ _ _ _ _ (Nat.zero_le _) (Nat.zero_le _) hread
          have hdepth := hadm.depth
          have hcount := hadm.count
          rw [Nat.zero_add] at hdepth hcount
          rw [List.append_nil] at hfound
          exact ⟨by omega, json, doc, hutf, hfound, hdoc, hdepth, hcount, hadm.narrow⟩
        · cases h
      · rintro ⟨-, json', doc, hjson, hfound, rfl, hdepth, hcount, hnarrow⟩
        obtain rfl : json = json' := by
          rw [hutf] at hjson
          exact Option.some.inj hjson
        have hread := deserialize_complete doc (2 * (tokens doc).length) 0 [] ⟨0⟩ (Nat.le_refl _)
          ⟨by rw [Nat.zero_add]; exact hdepth, by rw [Nat.zero_add]; exact hcount, hnarrow⟩
        rw [List.append_nil] at hread
        rw [hfound, hread]

/-! ## A document at a time -/

mutual

/-- The converse of `visit_some`. -/
theorem admissible_of_visit : ∀ (v : Value) (depth seen after : Nat), depth ≤ maxDepth →
    seen ≤ maxTotalMembers → visit depth v seen = some after →
    Admissible depth seen v ∧ after = seen + v.count
  | .null, _, _, _, hd, hs, h => by cases h; exact ⟨⟨hd, hs, trivial⟩, rfl⟩
  | .bool _, _, _, _, hd, hs, h => by cases h; exact ⟨⟨hd, hs, trivial⟩, rfl⟩
  | .number _, _, _, _, hd, hs, h => by cases h; exact ⟨⟨hd, hs, trivial⟩, rfl⟩
  | .string _, _, _, _, hd, hs, h => by cases h; exact ⟨⟨hd, hs, trivial⟩, rfl⟩
  | .array vs, depth, seen, after, hd, hs, h => by
    rw [visit] at h
    split at h
    · cases h
    · obtain ⟨hvs, hafter⟩ := admissible_of_visitSeq vs (depth + 1) 0 seen after (by omega) hs
        (Nat.zero_le _) h
      have hdepth := hvs.depth
      have hlength := hvs.length
      refine ⟨⟨?_, hvs.count, by omega, hvs.narrow⟩, hafter⟩
      rw [Value.depth]
      omega
  | .object ms, depth, seen, after, hd, hs, h => by
    rw [visit] at h
    split at h
    · cases h
    · obtain ⟨hms, hafter⟩ := admissible_of_visitMap ms (depth + 1) [] seen after (by omega) hs
        (Nat.zero_le _) h
      have hdepth := hms.depth
      have hlength := hms.length
      rw [List.length_nil] at hlength
      refine ⟨⟨?_, hms.count, by omega, hms.distinct, hms.narrow⟩, hafter⟩
      rw [Value.depth]
      omega

theorem admissible_of_visitSeq : ∀ (vs : List Value) (depth count seen after : Nat),
    depth ≤ maxDepth → seen ≤ maxTotalMembers → count ≤ maxArrayEntries →
    visitSeq depth vs count seen = some after →
    AdmissibleItems depth seen count vs ∧ after = seen + itemsCount vs
  | [], _, _, _, _, hd, hs, hc, h => by cases h; exact ⟨⟨hd, hs, trivial, hc⟩, rfl⟩
  | v :: vs, depth, count, seen, after, hd, hs, hc, h => by
    rw [visitSeq] at h
    split at h
    · cases h
    · rename_i middle hv
      split at h
      · cases h
      · obtain ⟨hadm, rfl⟩ := admissible_of_visit v depth seen middle hd hs hv
        have hcount := hadm.count
        have hdepth := hadm.depth
        obtain ⟨hvs, hafter⟩ := admissible_of_visitSeq vs depth (count + 1) (seen + v.count) after hd
          hcount (by omega) h
        have hcounts := hvs.count
        have hdepths := hvs.depth
        have hlength := hvs.length
        refine ⟨⟨?_, ?_, ⟨hadm.narrow, hvs.narrow⟩, ?_⟩, ?_⟩
        · rw [itemsDepth]
          omega
        · rw [itemsCount]
          omega
        · rw [List.length_cons]
          omega
        · rw [itemsCount]
          omega

theorem admissible_of_visitMap : ∀ (ms : List (String × Value)) (depth : Nat)
    (values : List String) (seen after : Nat), depth ≤ maxDepth → seen ≤ maxTotalMembers →
    values.length ≤ maxObjectMembers → visitMap depth ms values seen = some after →
    AdmissibleMembers depth seen values ms ∧ after = seen + membersCount ms
  | [], _, _, _, _, hd, hs, hl, h => by
    cases h
    exact ⟨⟨hd, hs, trivial, hl, List.nodup_nil, nofun⟩, rfl⟩
  | (k, v) :: ms, depth, values, seen, after, hd, hs, hl, h => by
    rw [visitMap] at h
    split at h
    · cases h
    · rename_i hroom
      rw [not_or] at hroom
      split at h
      · cases h
      · rename_i hnew
        split at h
        · cases h
        · rename_i middle hv
          obtain ⟨hadm, rfl⟩ := admissible_of_visit v depth (seen + 1) middle hd (by omega) hv
          have hcount := hadm.count
          have hdepth := hadm.depth
          obtain ⟨hms, hafter⟩ := admissible_of_visitMap ms depth (k :: values)
            (seen + 1 + v.count) after hd hcount (by rw [List.length_cons]; omega) h
          have hcounts := hms.count
          have hdepths := hms.depth
          have hlength := hms.length
          rw [List.length_cons] at hlength
          refine ⟨⟨?_, ?_, ⟨hadm.narrow, hms.narrow⟩, ?_, ?_, ?_⟩, ?_⟩
          · rw [membersDepth]
            omega
          · rw [membersCount]
            omega
          · rw [List.length_cons]
            omega
          · rw [keys_cons, List.nodup_cons]
            exact ⟨fun hk => hms.fresh k hk List.mem_cons_self, hms.distinct⟩
          · intro x hx
            rw [keys_cons, List.mem_cons] at hx
            rcases hx with rfl | hx
            · exact hnew
            · exact fun hm => hms.fresh x hx (List.mem_cons_of_mem _ hm)
          · rw [membersCount]
            omega

end

theorem bounded_iff {v : Value} :
    Bounded v ↔ Within maxArrayEntries maxObjectMembers maxDepth maxTotalMembers v := by
  refine ⟨fun h => ?_, bounded_of_within⟩
  obtain ⟨after, hv⟩ := Option.isSome_iff_exists.mp h
  obtain ⟨hadm, -⟩ := admissible_of_visit v 0 0 after (Nat.zero_le _) (Nat.zero_le _) hv
  have hdepth := hadm.depth
  have hcount := hadm.count
  rw [Nat.zero_add] at hdepth hcount
  exact ⟨hdepth, hcount, hadm.narrow⟩

/-! ### The bounds of what is denoted -/

theorem keys_denotedMembers (ms : List (String × Value)) : keys (denotedMembers ms) = keys ms := by
  induction ms with
  | nil => rfl
  | cons m ms ih =>
    obtain ⟨k, v⟩ := m
    rw [denotedMembers, keys_cons, keys_cons, ih]

theorem membersDepth_perm {a b : List (String × Value)} (h : a.Perm b) :
    membersDepth a = membersDepth b := by
  refine Nat.le_antisymm (membersDepth_le.mpr fun x hx => ?_) (membersDepth_le.mpr fun x hx => ?_)
  · exact membersDepth_le.mp (Nat.le_refl _) x (h.subset hx)
  · exact membersDepth_le.mp (Nat.le_refl _) x (h.symm.subset hx)

theorem membersCount_perm {a b : List (String × Value)} (h : a.Perm b) :
    membersCount a = membersCount b := by
  rw [membersCount_eq, membersCount_eq]
  exact (h.map _).sum_nat

theorem narrow_ofFields {arrays objects : Nat} {ms : List (String × Value)} :
    (Value.ofFields ms).Narrow arrays objects ↔ (Value.object ms).Narrow arrays objects := by
  have hperm := sortMembers_perm ms
  have hkeys : (keys (sortMembers ms)).Nodup ↔ (keys ms).Nodup := (hperm.map Prod.fst).nodup_iff
  simp only [Value.ofFields, Value.Narrow, membersNarrow_iff, hperm.length_eq, hkeys, hperm.mem_iff]

mutual

theorem denoted_shape : ∀ v : Value, (denoted v).depth = v.depth ∧ (denoted v).count = v.count ∧
    ∀ arrays objects, (denoted v).Narrow arrays objects ↔ v.Narrow arrays objects
  | .null => ⟨rfl, rfl, fun _ _ => Iff.rfl⟩
  | .bool _ => ⟨rfl, rfl, fun _ _ => Iff.rfl⟩
  | .number _ => ⟨rfl, rfl, fun _ _ => Iff.rfl⟩
  | .string _ => ⟨rfl, rfl, fun _ _ => Iff.rfl⟩
  | .array vs => by
    obtain ⟨hlength, hdepth, hcount, hnarrow⟩ := denotedItems_shape vs
    rw [denoted, Value.depth, Value.depth, Value.count, Value.count, hdepth, hcount]
    refine ⟨rfl, rfl, fun arrays objects => ?_⟩
    rw [Value.Narrow, Value.Narrow, hlength, hnarrow]
  | .object ms => by
    obtain ⟨hlength, hdepth, hcount, hnarrow⟩ := denotedMembers_shape ms
    have hperm := sortMembers_perm (denotedMembers ms)
    refine ⟨?_, ?_, fun arrays objects => ?_⟩
    · rw [denoted, Value.ofFields, Value.depth, Value.depth, membersDepth_perm hperm, hdepth]
    · rw [denoted, Value.ofFields, Value.count, Value.count, membersCount_perm hperm, hcount]
    · rw [denoted, narrow_ofFields, Value.Narrow, Value.Narrow, hlength, keys_denotedMembers, hnarrow]

theorem denotedItems_shape : ∀ vs : List Value, (denotedItems vs).length = vs.length ∧
    itemsDepth (denotedItems vs) = itemsDepth vs ∧ itemsCount (denotedItems vs) = itemsCount vs ∧
    ∀ arrays objects, ItemsNarrow arrays objects (denotedItems vs) ↔ ItemsNarrow arrays objects vs
  | [] => ⟨rfl, rfl, rfl, fun _ _ => Iff.rfl⟩
  | v :: vs => by
    obtain ⟨hd, hc, hn⟩ := denoted_shape v
    obtain ⟨hlength, hdepth, hcount, hnarrow⟩ := denotedItems_shape vs
    simp [denotedItems, itemsDepth, itemsCount, ItemsNarrow, hd, hc, hn, hlength, hdepth, hcount,
      hnarrow]

theorem denotedMembers_shape : ∀ ms : List (String × Value),
    (denotedMembers ms).length = ms.length ∧ membersDepth (denotedMembers ms) = membersDepth ms ∧
    membersCount (denotedMembers ms) = membersCount ms ∧
    ∀ arrays objects,
      MembersNarrow arrays objects (denotedMembers ms) ↔ MembersNarrow arrays objects ms
  | [] => ⟨rfl, rfl, rfl, fun _ _ => Iff.rfl⟩
  | (k, v) :: ms => by
    obtain ⟨hd, hc, hn⟩ := denoted_shape v
    obtain ⟨hlength, hdepth, hcount, hnarrow⟩ := denotedMembers_shape ms
    simp [denotedMembers, membersDepth, membersCount, MembersNarrow, hd, hc, hn, hlength, hdepth,
      hcount, hnarrow]

end

theorem bounded_denoted {doc : Value} : Bounded (denoted doc) ↔ Bounded doc := by
  obtain ⟨hdepth, hcount, hnarrow⟩ := denoted_shape doc
  rw [bounded_iff, bounded_iff]
  constructor
  · rintro ⟨hd, hc, hn⟩
    exact ⟨hdepth ▸ hd, hcount ▸ hc, (hnarrow _ _).mp hn⟩
  · rintro ⟨hd, hc, hn⟩
    exact ⟨hdepth.symm ▸ hd, hcount.symm ▸ hc, (hnarrow _ _).mpr hn⟩

/-- A reader of texts reads what their tokens denote. -/
def ReadsTokens (text : JsonText) (tokenize : String → List Token) : Prop :=
  ∀ json v, text.read json = some v ↔ ∃ doc, tokenize json = tokens doc ∧ denoted doc = v

/-- `parse_json` of bytes, a document at a time. -/
def parseBytes (text : JsonText) (bytes : ByteArray) (limit : Nat) : Except ApiFailure Value :=
  if limit < bytes.size then .error (operational "response_byte_limit")
  else
    match String.fromUTF8? bytes with
    | none => .error (operational "invalid_json_utf8")
    | some json => parseJson text json limit

theorem size_of_fromUTF8 {bytes : ByteArray} {json : String}
    (h : String.fromUTF8? bytes = some json) : json.utf8ByteSize = bytes.size := by
  rw [String.fromUTF8?] at h
  split at h
  · cases h
    rfl
  · cases h

theorem parseBytes_ok {text : JsonText} {bytes : ByteArray} {limit : Nat} {v : Value} :
    parseBytes text bytes limit = .ok v ↔ bytes.size ≤ limit ∧
      ∃ json, String.fromUTF8? bytes = some json ∧ text.read json = some v ∧ Bounded v := by
  unfold parseBytes
  split
  · rename_i hlimit
    constructor
    · nofun
    · rintro ⟨hsize, -⟩
      omega
  · rename_i hlimit
    split
    · rename_i hutf
      simp [hutf]
    · rename_i json hutf
      rw [parseJson_ok, size_of_fromUTF8 hutf]
      simp only [hutf, Option.some.injEq, exists_eq_left']

/-- Token by token and a document at a time, the same bytes are read as the same. -/
theorem parseJsonBytes_iff {text : JsonText} {tokenize : String → List Token}
    (htext : ReadsTokens text tokenize) {bytes : ByteArray} {limit : Nat} {v : Value} :
    parseJsonBytes tokenize bytes limit = .ok v ↔ parseBytes text bytes limit = .ok v := by
  rw [parse_json_iff, parseBytes_ok]
  refine and_congr_right fun _ => exists_congr fun json => ?_
  constructor
  · rintro ⟨doc, hutf, hfound, rfl, hdepth, hcount, hnarrow⟩
    exact ⟨hutf, (htext json _).mpr ⟨doc, hfound, rfl⟩,
      bounded_denoted.mpr (bounded_iff.mpr ⟨hdepth, hcount, hnarrow⟩)⟩
  · rintro ⟨hutf, hread, hbounded⟩
    obtain ⟨doc, hfound, rfl⟩ := (htext json v).mp hread
    obtain ⟨hdepth, hcount, hnarrow⟩ := bounded_iff.mp (bounded_denoted.mp hbounded)
    exact ⟨doc, hutf, hfound, rfl, hdepth, hcount, hnarrow⟩

/-! ## Bounded reading -/

/-- The bytes that are read are at most the limit, are UTF-8, and their tokens are those of one
document: at most so deep, no array and no object wider than its limit, with no more members in
all, and no key twice in one object. What is read is the value the document denotes. -/
theorem parse_json_bounded (tokenize : String → List Token) (bytes : ByteArray) (limit : Nat)
    (v : Value) :
    parseJsonBytes tokenize bytes limit = .ok v ↔
      bytes.size ≤ limit ∧ ∃ json doc, String.fromUTF8? bytes = some json ∧
        tokenize json = tokens doc ∧ denoted doc = v ∧
        doc.depth ≤ 32 ∧ doc.count ≤ 262144 ∧ doc.Narrow 4096 256 := by
  exact parse_json_iff

end OnshapeApi
end OnshapeExport
