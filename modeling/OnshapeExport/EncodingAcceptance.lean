import OnshapeExport.Canonicalization

/-!
# EncodingAcceptance

The check that the encoding of a configuration makes of typed values.

* `validateRational_ok` — a rational has one text, its reduced fraction.
* `typed_accepted` — what canonicalization types, the check accepts.
* `encoder_accepts` — the check accepts every typed map of accepted values, one text for each
  rational and no unit but the canonical ones.
-/

namespace OnshapeExport
namespace Parameters

open CacheModel Catalogs Decimals Encoding Json

/-! ## Rationals -/

/-- A pair of texts reads as a rational. -/
def Denotes (numerator denominator : String) (q : ℚ) : Prop :=
  ∃ a b : Int, parseBigInt numerator = some a ∧ parseBigInt denominator = some b ∧ 0 < b ∧
    (a : ℚ) / b = q

theorem denotes_rationalParts (q : ℚ) : Denotes (rationalParts q).1 (rationalParts q).2 q := by
  refine ⟨q.num, q.den, parseBigInt_toString q.num, parseBigInt_toString q.den, ?_, ?_⟩
  · exact_mod_cast q.den_pos
  · rw [Int.cast_natCast]
    exact Rat.num_div_den q

theorem validateRational_ok {numerator denominator : String} :
    validateRational numerator denominator = .ok () ↔
      ∃ q : ℚ, rationalParts q = (numerator, denominator) := by
  constructor
  · intro h
    unfold validateRational at h
    split at h
    · rename_i n d hn hd
      split at h
      · cases h
      · rename_i hpos
        split at h
        · cases h
        · rename_i hcanonical
          rw [not_or, not_not, not_not] at hcanonical
          obtain ⟨hnum, hden⟩ := hcanonical
          -- A text that prints the reduced part reads as the reduced part.
          have hd' : d / (n.gcd d : Int) = d := by
            rw [← hden, parseBigInt_toString] at hd
            exact Option.some.inj hd
          have hn' : n / (n.gcd d : Int) = n := by
            rw [← hnum, parseBigInt_toString] at hn
            exact Option.some.inj hn
          have hgcd : n.gcd d = 1 := by
            have hmul := Int.ediv_mul_cancel (Int.gcd_dvd_right n d)
            rw [hd'] at hmul
            have hcancel : d * ((n.gcd d : Int) - 1) = 0 := by rw [mul_sub, hmul, mul_one, sub_self]
            obtain hzero | hone := mul_eq_zero.mp hcancel
            · omega
            · omega
          rw [hn'] at hnum
          rw [hd'] at hden
          obtain ⟨m, rfl⟩ := Int.eq_ofNat_of_zero_le (not_le.mp hpos).le
          exact ⟨⟨n, m, by omega, hgcd⟩, Prod.ext hnum hden⟩
    · cases h
  · rintro ⟨q, hq⟩
    obtain ⟨rfl, rfl⟩ := Prod.mk.inj hq
    have hpos : ¬ ((q.den : Int) ≤ 0) := by
      have := q.den_pos
      omega
    have hgcd : (q.num.gcd (q.den : Int) : Int) = 1 := by exact_mod_cast q.reduced
    have hden : parseBigInt (toString q.den) = some (q.den : Int) := parseBigInt_toString q.den
    unfold validateRational
    rw [parseBigInt_toString, hden]
    simp only [hpos, if_false, hgcd, Int.ediv_one]
    rw [if_neg]
    rw [not_or, not_not, not_not]
    exact ⟨rfl, rfl⟩

theorem rationalParts_of_denotes {q q' : ℚ}
    (h : Denotes (rationalParts q).1 (rationalParts q).2 q') : q = q' := by
  obtain ⟨a, b, ha, hb, -, rfl⟩ := h
  have hnum : parseBigInt (rationalParts q).1 = some q.num := parseBigInt_toString q.num
  have hden : parseBigInt (rationalParts q).2 = some (q.den : Int) := parseBigInt_toString q.den
  rw [hnum] at ha
  rw [hden] at hb
  rw [← Option.some.inj ha, ← Option.some.inj hb, Int.cast_natCast]
  exact (Rat.num_div_den q).symm

/-- Two accepted texts of one rational are the same. -/
theorem texts_of_rational {n d n' d' : String} (h : validateRational n d = .ok ())
    (h' : validateRational n' d' = .ok ()) {q : ℚ} (hq : Denotes n d q) (hq' : Denotes n' d' q) :
    n = n' ∧ d = d' := by
  obtain ⟨r, hr⟩ := validateRational_ok.mp h
  obtain ⟨r', hr'⟩ := validateRational_ok.mp h'
  obtain ⟨rfl, rfl⟩ := Prod.mk.inj hr
  obtain ⟨rfl, rfl⟩ := Prod.mk.inj hr'
  rw [rationalParts_of_denotes hq, rationalParts_of_denotes hq']
  exact ⟨rfl, rfl⟩

/-! ## Typed values -/

theorem typed_accepted {p : Parameter} {s : String} {r : Entry}
    (h : readValue p s = some (.ok r)) : validateTypedValue r.1 = .ok () := by
  cases hk : p.kind with
  | unsupported => exact absurd h (readValue_unsupported hk s r)
  | text =>
    rw [readValue_text hk] at h
    subst h
    rfl
  | enum =>
    rw [readValue_enum hk] at h
    obtain ⟨-, rfl⟩ := h
    rfl
  | boolean =>
    rw [readValue_boolean hk] at h
    obtain ⟨b, -, rfl⟩ := h
    rfl
  | number =>
    obtain ⟨-, t, -, -, rfl⟩ := (readValue_number hk).mp h
    have hrational (q : ℚ) : validateRational (rationalParts q).1 (rationalParts q).2 = .ok () :=
      validateRational_ok.mpr ⟨q, rfl⟩
    cases hm : p.quantityUnit with
    | none => exact hrational _
    | some defaultUnit =>
      have hunit (u : QuantityUnit) :
          (u.canonical.dimension = .length ∧ u.canonical.abbreviation = "m") ∨
            (u.canonical.dimension = .angle ∧
              (u.canonical.abbreviation = "deg" ∨ u.canonical.abbreviation = "rad")) := by
        cases u <;> decide
      exact (if_pos (hunit _)).trans (hrational _)

theorem validateTypedValues_ok {typed : TypedValues} :
    validateTypedValues typed = .ok () ↔ ∀ m ∈ typed, validateTypedValue m.2 = .ok () := by
  induction typed with
  | nil => exact ⟨fun _ _ hm => absurd hm List.not_mem_nil, fun _ => rfl⟩
  | cons m typed ih =>
    have hcons : validateTypedValues (m :: typed) =
        validateTypedValue m.2 >>= fun _ => validateTypedValues typed := rfl
    rw [List.forall_mem_cons, ← ih, hcons]
    constructor
    · intro h
      cases hm : validateTypedValue m.2 with
      | error e =>
        rw [hm] at h
        cases h
      | ok u =>
        rw [hm] at h
        exact ⟨rfl, h⟩
    · rintro ⟨hm, h⟩
      rw [hm]
      exact h

/-- Two typed values mean the same: lengths as numbers, since they have one unit, and angles as
numbers of their unit. -/
def SameValue : CanonicalParameterValue → CanonicalParameterValue → Prop
  | .text a, .text b => a = b
  | .enum a, .enum b => a = b
  | .boolean a, .boolean b => a = b
  | .number n d, .number n' d' => ∃ q, Denotes n d q ∧ Denotes n' d' q
  | .quantity dimension n d unit, .quantity dimension' n' d' unit' =>
    dimension = dimension' ∧ (dimension = .angle → unit = unit') ∧
      ∃ q, Denotes n d q ∧ Denotes n' d' q
  | _, _ => False

theorem quantity_accepted {dimension : QuantityDimension} {n d unit : String} :
    validateTypedValue (.quantity dimension n d unit) = .ok () ↔
      ((dimension = .length ∧ unit = "m") ∨ (dimension = .angle ∧ (unit = "deg" ∨ unit = "rad"))) ∧
        validateRational n d = .ok () := by
  rw [validateTypedValue]
  split
  · rename_i h
    simp [h]
  · rename_i h
    simp [h]

theorem eq_of_sameValue {x y : CanonicalParameterValue} (hx : validateTypedValue x = .ok ())
    (hy : validateTypedValue y = .ok ()) (h : SameValue x y) : x = y := by
  cases x <;> cases y <;> try exact h.elim
  case text.text => exact congrArg _ h
  case enum.enum => exact congrArg _ h
  case boolean.boolean => exact congrArg _ h
  case number.number =>
    obtain ⟨q, hq, hq'⟩ := h
    obtain ⟨rfl, rfl⟩ := texts_of_rational hx hy hq hq'
    rfl
  case quantity.quantity =>
    obtain ⟨rfl, hangle, q, hq, hq'⟩ := h
    obtain ⟨hunit, hx⟩ := quantity_accepted.mp hx
    obtain ⟨hunit', hy⟩ := quantity_accepted.mp hy
    obtain ⟨rfl, rfl⟩ := texts_of_rational hx hy hq hq'
    obtain ⟨hlength, rfl⟩ | ⟨hdim, -⟩ := hunit
    · obtain ⟨-, rfl⟩ | ⟨hdim', -⟩ := hunit'
      · rfl
      · rw [hlength] at hdim'
        cases hdim'
    · rw [hangle hdim]

/-- Every entry that is kept was read for a parameter, or is a text of an unknown name. -/
theorem entryOf_read {schema : ParameterSchema} {submitted : SortedMap String}
    {allowUnknown : Bool} {key : String} {r : Entry}
    (h : entryOf schema submitted allowUnknown key = some r) :
    (∃ p s, readValue p s = some (.ok r)) ∨ ∃ value, r = (.text value, value) := by
  by_cases hk : key ∈ schema.known
  · rw [entryOf_known hk] at h
    obtain ⟨p, -, -, hentry⟩ := mem_of_lastEntry h
    obtain ⟨s, -, hs⟩ := entry_eq_some.mp hentry
    exact .inl ⟨p, s, hs⟩
  · rw [entryOf_unknown hk] at h
    cases allowUnknown with
    | false => cases h
    | true =>
      obtain ⟨value, -, hvalue⟩ := Option.bind_eq_some_iff.mp h
      obtain ⟨-, -, rfl⟩ := unknownEntry_eq_some.mp hvalue
      exact .inr ⟨value, rfl⟩

/-- A parameter without a default in a unit. -/
def measured (unit : String) : Parameter := { lengthParameter with units := some unit }

theorem quantity_read (unit : String) {u : QuantityUnit}
    (hu : QuantityUnit.fromOnshapeUnit unit = some u) :
    ∃ s n d text, readValue (measured unit) s =
      some (.ok (.quantity u.dimension n d u.canonical.abbreviation, text)) := by
  have hunit : (measured unit).quantityUnit = some u := hu
  have hsupported : (measured unit).Supported := by
    rw [Parameter.Supported, hunit]
    exact fun _ => rfl
  have hfits : (bare (tiny 0)).Fits (measured unit).quantityUnit := by
    rw [hunit]
    intro v hv
    cases hv
  have hread := (readValue_number (p := measured unit) rfl
    (s := String.ofList (bare (tiny 0)).chars)).mpr
      ⟨hsupported, bare (tiny 0), hfits, String.toList_ofList.symm, rfl⟩
  rw [hunit, ← u.canonical_dimension] at *
  exact ⟨_, _, _, _, hread⟩

/-- The check of the encoding accepts what the form accepts, and of every rational and every
dimension nothing else than what canonicalization writes. -/
theorem encoder_accepts :
    (∀ schema submitted allowUnknown v,
      validateValues schema submitted allowUnknown = some (.ok v) →
        validateTypedValues v.typedValues.members = .ok ()) ∧
    (∀ q : ℚ, ∃! text : String × String,
      validateRational text.1 text.2 = .ok () ∧ Denotes text.1 text.2 q) ∧
    (∀ dimension unit,
      (∃ n d, validateTypedValue (.quantity dimension n d unit) = .ok ()) ↔
        ∃ p s n d text, readValue p s = some (.ok (.quantity dimension n d unit, text))) ∧
    ∀ x y, validateTypedValue x = .ok () → validateTypedValue y = .ok () → SameValue x y →
      x = y := by
  refine ⟨fun schema submitted allowUnknown v hok => ?_, fun q => ?_, fun dimension unit => ?_,
    fun x y => eq_of_sameValue⟩
  · rw [validateTypedValues_ok]
    rintro ⟨key, typed⟩ hm
    obtain ⟨-, -, hget⟩ := validateValues_eq_ok.mp hok
    have hkey := (hget key).2
    rw [SortedMap.get?_eq_some.mpr hm] at hkey
    obtain ⟨r, hr, rfl⟩ := Option.map_eq_some_iff.mp hkey.symm
    obtain ⟨p, s, hread⟩ | ⟨value, rfl⟩ := entryOf_read hr
    · exact typed_accepted hread
    · rfl
  · refine ⟨rationalParts q, ⟨validateRational_ok.mpr ⟨q, rfl⟩, denotes_rationalParts q⟩, ?_⟩
    rintro ⟨n, d⟩ ⟨hok, hq⟩
    obtain ⟨hn, hd⟩ := texts_of_rational hok (validateRational_ok.mpr ⟨q, rfl⟩) hq
      (denotes_rationalParts q)
    exact Prod.ext hn hd
  · constructor
    · rintro ⟨n, d, hok⟩
      obtain ⟨⟨rfl, rfl⟩ | ⟨rfl, rfl | rfl⟩, -⟩ := quantity_accepted.mp hok
      · exact ⟨_, quantity_read "meter" rfl⟩
      · exact ⟨_, quantity_read "degree" rfl⟩
      · exact ⟨_, quantity_read "radian" rfl⟩
    · rintro ⟨p, s, n, d, text, hread⟩
      exact ⟨n, d, typed_accepted hread⟩

end Parameters
end OnshapeExport
