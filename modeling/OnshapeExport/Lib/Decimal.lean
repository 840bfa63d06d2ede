import Mathlib.Algebra.Order.Field.Rat
import Mathlib.Data.Nat.Factorization.Basic
import Mathlib.Data.Nat.Prime.Defs
import Mathlib.Data.Rat.Lemmas
import Mathlib.Tactic.Ring

/-!
# Lib.Decimal

Fractions in decimal notation.

* `strip_eq_one` — a denominator without its factors two and five is one exactly if the fraction
  has a last digit.
* `fractionDigits_spec` — long division writes the fraction, with no zero at its end and no more
  digits than needed.
* `Numeral` — a sign, digits and a point, and the number they denote.
-/

namespace Decimals

/-- The number that digits denote. -/
def digits (cs : List Char) : Nat := Nat.ofDigitChars 10 cs 0

@[simp] theorem digits_nil : digits [] = 0 := rfl

theorem digits_append (cs ds : List Char) :
    digits (cs ++ ds) = digits cs * 10 ^ ds.length + digits ds := by
  rw [digits, Nat.ofDigitChars_append, Nat.ofDigitChars_eq_ofDigitChars_zero, digits, digits]
  ring

theorem digits_cons_digit {n : Nat} (hn : n < 10) (cs : List Char) :
    digits (Nat.digitChar n :: cs) = n * 10 ^ cs.length + digits cs := by
  have hone : digits [Nat.digitChar n] = n := by
    rw [digits, Nat.ofDigitChars_cons_digitChar_of_lt_ten hn]
    simp
  rw [← List.singleton_append, digits_append, hone]

theorem digits_toDigits (n : Nat) : digits (Nat.toDigits 10 n) = n :=
  Nat.ofDigitChars_ten_toDigits

/-! ## Denominators -/

/-- A number without its factor, by as many divisions as the fuel allows. -/
def strip (p : Nat) : Nat → Nat → Nat
  | 0, d => d
  | fuel + 1, d => if d % p = 0 then strip p fuel (d / p) else d

theorem strip_spec {p : Nat} (hp : 1 < p) {fuel d : Nat} (hd : 0 < d) (hf : d ≤ fuel) :
    ∃ k, d = p ^ k * strip p fuel d ∧ ¬ p ∣ strip p fuel d := by
  induction fuel generalizing d with
  | zero => omega
  | succ fuel ih =>
    rw [strip]
    split
    · rename_i hmod
      have hdvd : p ∣ d := Nat.dvd_of_mod_eq_zero hmod
      have hpos : 0 < d / p := Nat.div_pos (Nat.le_of_dvd hd hdvd) (by omega)
      have hlt : d / p < d := Nat.div_lt_self hd hp
      obtain ⟨k, hk, hnot⟩ := ih hpos (by omega)
      refine ⟨k + 1, ?_, hnot⟩
      calc d = d / p * p := (Nat.div_mul_cancel hdvd).symm
        _ = p ^ k * strip p fuel (d / p) * p := by rw [← hk]
        _ = p ^ (k + 1) * strip p fuel (d / p) := by ring
    · rename_i hmod
      exact ⟨0, by simp, fun h => hmod (Nat.mod_eq_zero_of_dvd h)⟩

/-- Some power of ten is a multiple of the denominator. -/
def Terminating (d : Nat) : Prop := ∃ n, d ∣ 10 ^ n

/-- A denominator without its factors two and five. -/
def stripTen (d : Nat) : Nat :=
  let e := strip 2 d d
  strip 5 e e

theorem stripTen_eq_one {d : Nat} (hd : 0 < d) : stripTen d = 1 ↔ Terminating d := by
  obtain ⟨a, ha, htwo⟩ := strip_spec (p := 2) (by decide) hd le_rfl
  have he : 0 < strip 2 d d := by
    apply Nat.pos_of_ne_zero
    intro h
    rw [h] at htwo
    exact htwo (dvd_zero 2)
  obtain ⟨b, hb, hfive⟩ := strip_spec (p := 5) (by decide) he le_rfl
  have htwo' : ¬ 2 ∣ stripTen d := fun h => htwo (by
    rw [hb]
    exact h.mul_left _)
  have hd' : d = 2 ^ a * (5 ^ b * stripTen d) := by
    rw [stripTen, ← hb]
    exact ha
  constructor
  · intro h
    refine ⟨a + b, ?_⟩
    rw [hd', h, mul_one, show (10 : Nat) = 2 * 5 from rfl, mul_pow]
    exact mul_dvd_mul (pow_dvd_pow 2 (by omega)) (pow_dvd_pow 5 (by omega))
  · rintro ⟨n, hn⟩
    have hdvd : stripTen d ∣ 2 ^ n * 5 ^ n := by
      rw [← mul_pow]
      refine dvd_trans ?_ hn
      exact Dvd.intro_left (2 ^ a * 5 ^ b) (by rw [mul_assoc]; exact hd'.symm)
    have hcop2 : Nat.Coprime (stripTen d) (2 ^ n) :=
      Nat.Coprime.pow_right n ((Nat.prime_two.coprime_iff_not_dvd.mpr htwo').symm)
    have hcop5 : Nat.Coprime (stripTen d) (5 ^ n) :=
      Nat.Coprime.pow_right n ((Nat.prime_five.coprime_iff_not_dvd.mpr hfive).symm)
    exact Nat.Coprime.eq_one_of_dvd (Nat.Coprime.mul_right hcop2 hcop5) hdvd

theorem Terminating.of_dvd {a b : Nat} (hb : Terminating b) (h : a ∣ b) : Terminating a := by
  obtain ⟨n, hn⟩ := hb
  exact ⟨n, h.trans hn⟩

theorem Terminating.mul {a b : Nat} (ha : Terminating a) (hb : Terminating b) :
    Terminating (a * b) := by
  obtain ⟨n, hn⟩ := ha
  obtain ⟨m, hm⟩ := hb
  exact ⟨n + m, by rw [pow_add]; exact mul_dvd_mul hn hm⟩

theorem Terminating.div {b : Nat} (hb : Terminating b) (a : ℤ) :
    Terminating ((a : ℚ) / b).den := by
  have h := Rat.den_dvd a (b : ℤ)
  rw [← Rat.intCast_div_eq_divInt, Int.cast_natCast] at h
  exact hb.of_dvd (by exact_mod_cast h)

theorem Terminating.dvd_self {d : Nat} (hd : 0 < d) (h : Terminating d) : d ∣ 10 ^ d := by
  obtain ⟨n, hn⟩ := h
  have hten (k : Nat) : 10 ^ k ≠ 0 := pow_ne_zero k (by decide)
  rw [← Nat.factorization_le_iff_dvd hd.ne' (hten d)]
  intro p
  rw [Nat.factorization_pow]
  have hle := (Nat.factorization_le_iff_dvd hd.ne' (hten n)).mpr hn p
  rw [Nat.factorization_pow] at hle
  simp only [Finsupp.smul_apply, smul_eq_mul] at hle ⊢
  by_cases hp : Nat.factorization 10 p = 0
  · rw [hp, mul_zero] at hle ⊢
    exact hle
  · have hlt : d.factorization p < d := Nat.factorization_lt p hd.ne'
    calc d.factorization p ≤ d * 1 := by omega
      _ ≤ d * Nat.factorization 10 p := Nat.mul_le_mul_left d (by omega)

/-! ## Long division -/

/-- The digits of a fraction, by as many steps as the fuel allows. -/
def fractionDigits (d : Nat) : Nat → Nat → List Char
  | 0, _ => []
  | fuel + 1, r =>
    if r = 0 then [] else Nat.toDigits 10 (r * 10 / d) ++ fractionDigits d fuel (r * 10 % d)

structure Written (d r : Nat) (fs : List Char) : Prop where
  isDigit : ∀ c ∈ fs, c.isDigit = true
  value : digits fs * d = r * 10 ^ fs.length
  last : fs.getLast? ≠ some '0'

theorem fractionDigits_spec {d fuel r n : Nat} (hr : r < d) (hn : d ∣ 10 ^ n * r) (hf : n ≤ fuel) :
    Written d r (fractionDigits d fuel r) ∧ (fractionDigits d fuel r).length ≤ n := by
  induction fuel generalizing r n with
  | zero =>
    have hn0 : n = 0 := by omega
    rw [hn0, pow_zero, one_mul] at hn
    have hr0 := Nat.eq_zero_of_dvd_of_lt hn hr
    exact ⟨⟨by simp [fractionDigits], by simp [fractionDigits, hr0], by simp [fractionDigits]⟩,
      Nat.zero_le _⟩
  | succ fuel ih =>
    rw [fractionDigits]
    split
    · rename_i hr0
      exact ⟨⟨by simp, by simp [hr0], by simp⟩, Nat.zero_le _⟩
    · rename_i hr0
      obtain ⟨m, rfl⟩ : ∃ m, n = m + 1 := by
        cases n with
        | zero =>
          rw [pow_zero, one_mul] at hn
          exact absurd (Nat.eq_zero_of_dvd_of_lt hn hr) hr0
        | succ m => exact ⟨m, rfl⟩
      have hdpos : 0 < d := by omega
      have hdigit : r * 10 / d < 10 := Nat.div_lt_of_lt_mul (by omega)
      have hmod : r * 10 % d < d := Nat.mod_lt _ hdpos
      have hsplit : d * (r * 10 / d) + r * 10 % d = r * 10 := Nat.div_add_mod _ _
      have hn' : d ∣ 10 ^ m * (r * 10 % d) := by
        have hall : d ∣ 10 ^ m * (d * (r * 10 / d)) + 10 ^ m * (r * 10 % d) := by
          rw [← mul_add, hsplit]
          have heq : 10 ^ m * (r * 10) = 10 ^ (m + 1) * r := by ring
          rw [heq]
          exact hn
        exact (Nat.dvd_add_right ((dvd_mul_right d _).mul_left _)).mp hall
      obtain ⟨⟨hdigits, hvalue, hlast⟩, hlength⟩ := ih hmod hn' (by omega)
      rw [Nat.toDigits_of_lt_base hdigit, List.singleton_append]
      refine ⟨⟨fun c hc => ?_, ?_, ?_⟩, by rw [List.length_cons]; omega⟩
      · obtain rfl | hc := List.mem_cons.mp hc
        · rw [Nat.isDigit_digitChar, decide_eq_true_eq]
          exact hdigit
        · exact hdigits c hc
      · rw [digits_cons_digit hdigit, add_mul, hvalue, List.length_cons, pow_succ]
        calc r * 10 / d * 10 ^ (fractionDigits d fuel (r * 10 % d)).length * d +
              r * 10 % d * 10 ^ (fractionDigits d fuel (r * 10 % d)).length
            = (d * (r * 10 / d) + r * 10 % d) *
                10 ^ (fractionDigits d fuel (r * 10 % d)).length := by ring
          _ = r * (10 ^ (fractionDigits d fuel (r * 10 % d)).length * 10) := by
            rw [hsplit]
            ring
      · cases hrest : fractionDigits d fuel (r * 10 % d) with
        | nil =>
          rw [hrest, digits_nil, zero_mul, List.length_nil, pow_zero, mul_one] at hvalue
          rw [List.getLast?_singleton, ne_eq, Option.some.injEq, Nat.digitChar_eq_zero]
          intro hq
          rw [hq, ← hvalue] at hsplit
          omega
        | cons c cs =>
          rw [hrest] at hlast
          rw [List.getLast?_cons_cons]
          exact hlast

/-- A reduced fraction has as many digits as its denominator asks for. -/
theorem fractionDigits_length_le {d r n : Nat} (hr : r < d) (hcop : Nat.Coprime r d)
    (ht : Terminating d) : (fractionDigits d d r).length ≤ n ↔ d ∣ 10 ^ n := by
  have hd : 0 < d := by omega
  have hself : d ∣ 10 ^ d * r := (ht.dvd_self hd).mul_right r
  obtain ⟨⟨-, hvalue, -⟩, -⟩ := fractionDigits_spec hr hself le_rfl
  constructor
  · intro hle
    have hdvd : d ∣ r * 10 ^ (fractionDigits d d r).length := Dvd.intro_left _ hvalue
    exact (hcop.symm.dvd_of_dvd_mul_left hdvd).trans (pow_dvd_pow 10 hle)
  · intro hdvd
    by_cases hn : n ≤ d
    · exact (fractionDigits_spec hr (hdvd.mul_right r) hn).2
    · have hle := (fractionDigits_spec hr hself le_rfl).2
      omega

/-! ## Numerals -/

inductive Sign where
  | none | plus | minus
deriving DecidableEq, Repr

def Sign.chars : Sign → List Char
  | .none => []
  | .plus => ['+']
  | .minus => ['-']

def Sign.apply : Sign → ℚ → ℚ
  | .minus, q => -q
  | _, q => q

theorem Sign.den_apply (s : Sign) (q : ℚ) : (s.apply q).den = q.den := by
  cases s with
  | none => rfl
  | plus => rfl
  | minus => exact Rat.neg_den q

/-- The sign of a rational that is written without a plus. -/
def Sign.of (q : ℚ) : Sign := if q.num < 0 then .minus else .none

theorem Sign.of_apply (q : ℚ) : (Sign.of q).apply (q.num.natAbs / q.den) = q := by
  have habs : ((q.num.natAbs : ℤ) : ℚ) = (q.num.natAbs : ℚ) := Int.cast_natCast _
  rw [Sign.of, ← habs]
  split
  · rename_i h
    have hnum : (q.num.natAbs : ℤ) = -q.num := by omega
    rw [hnum, Sign.apply, Int.cast_neg, neg_div, neg_neg, Rat.num_div_den]
  · rename_i h
    have hnum : (q.num.natAbs : ℤ) = q.num := by omega
    rw [hnum]
    exact Rat.num_div_den q

/-- A sign, digits with at most one point among them, and at least one digit. -/
structure Numeral where
  sign : Sign
  integer : List Char
  fraction : Option (List Char)
  isDigit : ∀ c ∈ integer ++ fraction.getD [], c.isDigit = true
  nonempty : integer ++ fraction.getD [] ≠ []

namespace Numeral

def fractionChars : Option (List Char) → List Char
  | none => []
  | some fraction => '.' :: fraction

def chars (n : Numeral) : List Char := n.sign.chars ++ (n.integer ++ fractionChars n.fraction)

/-- The number of digits after the point. -/
def places (n : Numeral) : Nat := (n.fraction.getD []).length

/-- The number that is denoted when the point stands before some number of digits. -/
def valueAt (n : Numeral) (places : Nat) : ℚ :=
  n.sign.apply (digits (n.integer ++ n.fraction.getD []) / 10 ^ places)

def value (n : Numeral) : ℚ := n.valueAt n.places

theorem terminating_valueAt (n : Numeral) (k : Nat) : Terminating (n.valueAt k).den := by
  have h := Terminating.div ⟨k, dvd_refl (10 ^ k)⟩ (digits (n.integer ++ n.fraction.getD []) : ℤ)
  rw [Int.cast_natCast, Nat.cast_pow, Nat.cast_ofNat] at h
  rw [valueAt, Sign.den_apply]
  exact h

end Numeral

end Decimals
