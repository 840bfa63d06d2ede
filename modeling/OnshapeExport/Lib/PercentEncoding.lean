import Mathlib.Data.List.Basic
import Mathlib.Tactic.IntervalCases

/-!
# Lib.PercentEncoding

Percent encoding of bytes as a URI has it: some unreserved bytes stand for themselves, every other
byte is a `%` with two hexadecimal digits. Which bytes are kept is a parameter.

* `encode`, `decode` — the text of some bytes, and the bytes of a text.
* `decode_encode` — whichever unreserved bytes are kept, the bytes come back.
* `Encoded` — unreserved characters and triplets; `encoded_encode` is that an encoding is so.
-/

namespace Percent

/-- Letters, digits and `-._~`. -/
def isUnreserved (n : Nat) : Bool :=
  48 ≤ n && n ≤ 57 || 65 ≤ n && n ≤ 90 || 97 ≤ n && n ≤ 122 ||
    n = 45 || n = 46 || n = 95 || n = 126

def hexDigits : List Char :=
  ['0', '1', '2', '3', '4', '5', '6', '7', '8', '9', 'A', 'B', 'C', 'D', 'E', 'F']

def hexDigit (n : Nat) : Char := hexDigits.getD n '0'

def hexValue (c : Char) : Option Nat := hexDigits.findIdx? (· == c)

def triplet (b : UInt8) : List Char := ['%', hexDigit (b.toNat / 16), hexDigit (b.toNat % 16)]

def encodeByte (keep : UInt8 → Bool) (b : UInt8) : List Char :=
  if keep b then [Char.ofNat b.toNat] else triplet b

def encode (keep : UInt8 → Bool) (bytes : List UInt8) : List Char := bytes.flatMap (encodeByte keep)

/-- The bytes of a text in which every character is a byte or a part of a triplet. -/
def decode : List Char → Option (List UInt8)
  | [] => some []
  | '%' :: hi :: lo :: rest =>
    match hexValue hi, hexValue lo, decode rest with
    | some h, some l, some bytes => some (UInt8.ofNat (16 * h + l) :: bytes)
    | _, _, _ => none
  | '%' :: _ => none
  | c :: rest => if c.toNat < 128 then (decode rest).map (UInt8.ofNat c.toNat :: ·) else none

/-- Unreserved characters and triplets, one after the other. -/
inductive Encoded : List Char → Prop where
  | nil : Encoded []
  | unreserved {c : Char} {rest : List Char} : isUnreserved c.toNat = true → Encoded rest →
      Encoded (c :: rest)
  | triplet {hi lo : Char} {rest : List Char} : hi ∈ hexDigits → lo ∈ hexDigits → Encoded rest →
      Encoded ('%' :: hi :: lo :: rest)

/-! ## Digits -/

theorem hexValue_hexDigit {n : Nat} (h : n < 16) : hexValue (hexDigit n) = some n := by
  interval_cases n <;> rfl

theorem hexDigit_mem {n : Nat} (h : n < 16) : hexDigit n ∈ hexDigits := by
  interval_cases n <;> decide

theorem unreserved_of_hexDigit {c : Char} (h : c ∈ hexDigits) : isUnreserved c.toNat = true := by
  have hall : hexDigits.all (fun c => isUnreserved c.toNat) = true := by decide
  exact List.all_eq_true.mp hall c h

theorem toNat_ofNat {n : Nat} (h : n < 128) : (Char.ofNat n).toNat = n := by
  have hv : n.isValidChar := .inl (by omega)
  rw [Char.ofNat, dif_pos hv]
  rfl

theorem unreserved_lt {n : Nat} (h : isUnreserved n = true) : n < 128 ∧ n ≠ 37 := by
  simp only [isUnreserved, Bool.or_eq_true, Bool.and_eq_true, decide_eq_true_eq] at h
  omega

/-! ## Encoding -/

section Encoding

variable {keep : UInt8 → Bool}

@[simp] theorem encode_nil : encode keep [] = [] := rfl

@[simp] theorem encode_cons (b : UInt8) (bytes : List UInt8) :
    encode keep (b :: bytes) = encodeByte keep b ++ encode keep bytes := rfl

theorem decode_unreserved {c : Char} (h : isUnreserved c.toNat = true) (rest : List Char) :
    decode (c :: rest) = (decode rest).map (UInt8.ofNat c.toNat :: ·) := by
  obtain ⟨hlt, hne⟩ := unreserved_lt h
  have hc : c ≠ '%' := by
    rintro rfl
    exact hne rfl
  rw [decode, if_pos hlt]
  · rintro - - - rfl
    exact absurd rfl hc
  · exact hc

theorem decode_triplet (b : UInt8) (rest : List Char) :
    decode (triplet b ++ rest) = (decode rest).map (b :: ·) := by
  have hb : b.toNat < 256 := b.toNat_lt
  have hhi := hexValue_hexDigit (show b.toNat / 16 < 16 by omega)
  have hlo := hexValue_hexDigit (show b.toNat % 16 < 16 by omega)
  have hbyte : UInt8.ofNat (16 * (b.toNat / 16) + b.toNat % 16) = b := by
    rw [Nat.div_add_mod, UInt8.ofNat_toNat]
  simp only [triplet, List.cons_append, List.nil_append, decode, hhi, hlo]
  cases decode rest with
  | none => rfl
  | some bytes =>
    simp only [Option.map_some, Option.some.injEq, List.cons.injEq, and_true]
    exact hbyte

/-- An unreserved byte that stands for itself, or any byte as a triplet. -/
theorem encodeByte_cases (hkeep : ∀ b, keep b = true → isUnreserved b.toNat = true) (b : UInt8) :
    (∃ c : Char, encodeByte keep b = [c] ∧ c.toNat = b.toNat ∧ isUnreserved b.toNat = true) ∨
      encodeByte keep b = triplet b := by
  unfold encodeByte
  cases hb : keep b with
  | true =>
    have hu := hkeep b hb
    exact .inl ⟨_, rfl, toNat_ofNat (unreserved_lt hu).1, hu⟩
  | false => exact .inr rfl

theorem decode_encode (hkeep : ∀ b, keep b = true → isUnreserved b.toNat = true)
    (bytes : List UInt8) : decode (encode keep bytes) = some bytes := by
  induction bytes with
  | nil => rfl
  | cons b bytes ih =>
    rw [encode_cons]
    rcases encodeByte_cases hkeep b with ⟨c, hc, htoNat, hu⟩ | htriplet
    · rw [hc, List.singleton_append, decode_unreserved (by rw [htoNat]; exact hu), ih, htoNat,
        UInt8.ofNat_toNat]
      rfl
    · rw [htriplet, decode_triplet, ih]
      rfl

theorem encode_inj (hkeep : ∀ b, keep b = true → isUnreserved b.toNat = true)
    {keep' : UInt8 → Bool} (hkeep' : ∀ b, keep' b = true → isUnreserved b.toNat = true)
    {bytes bytes' : List UInt8} (h : encode keep bytes = encode keep' bytes') : bytes = bytes' := by
  have hd := decode_encode hkeep bytes
  rw [h, decode_encode hkeep'] at hd
  exact (Option.some.inj hd).symm

theorem encoded_encode (hkeep : ∀ b, keep b = true → isUnreserved b.toNat = true)
    (bytes : List UInt8) : Encoded (encode keep bytes) := by
  induction bytes with
  | nil => exact .nil
  | cons b bytes ih =>
    have hb : b.toNat < 256 := b.toNat_lt
    rw [encode_cons]
    rcases encodeByte_cases hkeep b with ⟨c, hc, htoNat, hu⟩ | htriplet
    · rw [hc]
      exact .unreserved (by rw [htoNat]; exact hu) ih
    · rw [htriplet]
      exact .triplet (hexDigit_mem (by omega)) (hexDigit_mem (by omega)) ih

/-- An encoded text has unreserved characters and percent signs only. -/
theorem Encoded.mem {cs : List Char} (h : Encoded cs) {c : Char} (hc : c ∈ cs) :
    isUnreserved c.toNat = true ∨ c = '%' := by
  induction h with
  | nil => cases hc
  | unreserved hu _ ih =>
    rcases List.mem_cons.mp hc with rfl | hc
    · exact .inl hu
    · exact ih hc
  | triplet hhi hlo _ ih =>
    simp only [List.mem_cons] at hc
    rcases hc with rfl | rfl | rfl | hc
    · exact .inr rfl
    · exact .inl (unreserved_of_hexDigit hhi)
    · exact .inl (unreserved_of_hexDigit hlo)
    · exact ih hc

end Encoding

end Percent
