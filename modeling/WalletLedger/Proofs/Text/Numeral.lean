import WalletLedger.Proofs.Json.Leaves
import WalletLedger.Proofs.Results

/-!
# Numerals of whole numbers

The reader of whole numbers stops at the first digit that carries the value too far, and has
a branch for each sign.  What it reads in the end is said here without it: digits in the usual
notation, with a sign or without one, within the range of a word.
-/

namespace WalletLedger
namespace Text

/-- Digits, at least one; leading zeros do not matter. -/
def IsNumeral (cs : List Char) (n : Nat) : Prop :=
  cs ≠ [] ∧ (∀ c ∈ cs, c.isDigit = true) ∧ Nat.ofDigitChars 10 cs 0 = n

/-- The numerals of whole numbers of 64 bits; the range has one number more below zero. -/
inductive IsInt64 : List Char → Int → Prop where
  | unsigned {cs : List Char} {n : Nat} : IsNumeral cs n → n < 2 ^ 63 → IsInt64 cs n
  | plus {cs : List Char} {n : Nat} : IsNumeral cs n → n < 2 ^ 63 → IsInt64 ('+' :: cs) n
  | minus {cs : List Char} {n : Nat} : IsNumeral cs n → n ≤ 2 ^ 63 → IsInt64 ('-' :: cs) (-n)

/-!
# Digits
-/

theorem isNumeral_decimal (n : Nat) : IsNumeral (decimal n) n :=
  ⟨decimal_ne_nil n, fun _ hc => isDigit_of_mem_decimal hc, ofDigitChars_decimal n⟩

theorem ofDigitChars_cons_digit (c : Char) (cs : List Char) (value : Nat) :
    Nat.ofDigitChars 10 (c :: cs) value =
      Nat.ofDigitChars 10 cs (value * 10 + digitValue c) := by
  rw [Nat.ofDigitChars_cons, Nat.mul_comm]
  rfl

/-- A value above the limit stays above it, so it does not matter when this is noticed. -/
theorem readDigits_eq_ok_iff {limit : Nat} {overflow : NumeralError} {cs : List Char}
    {value n : Nat} (h : value ≤ limit) :
    readDigits limit overflow value cs = .ok n ↔
      (∀ c ∈ cs, c.isDigit = true) ∧ Nat.ofDigitChars 10 cs value = n ∧ n ≤ limit := by
  induction cs generalizing value with
  | nil =>
      rw [readDigits, Nat.ofDigitChars_nil]
      constructor
      · intro hread
        cases hread
        exact ⟨fun _ hc => absurd hc List.not_mem_nil, rfl, h⟩
      · intro hnumeral
        rw [hnumeral.2.1]
  | cons c cs ih =>
      rw [ofDigitChars_cons_digit, List.forall_mem_cons, readDigits]
      by_cases hdigit : c.isDigit = true
      · by_cases hnext : value * 10 + digitValue c ≤ limit
        · simp only [hdigit, hnext, if_pos, ih hnext, true_and]
        · simp only [hdigit, hnext, if_pos, if_false, true_and]
          constructor
          · intro hread
            cases hread
          · intro hnumeral
            -- Further digits only add to the value.
            have hgrows := le_ofDigitChars cs (value * 10 + digitValue c)
            omega
      · simp only [hdigit, Bool.false_eq_true, false_and]
        constructor
        · intro hread
          cases hread
        · exact False.elim

theorem map_readDigits_iff {limit : Nat} {overflow : NumeralError} {cs : List Char}
    (hne : cs ≠ []) {signed : Nat → Int} {n : Int} :
    (readDigits limit overflow 0 cs).map signed = .ok n ↔
      ∃ value, IsNumeral cs value ∧ value ≤ limit ∧ signed value = n := by
  rw [Results.map_eq_ok_iff]
  constructor
  · intro h
    rcases h with ⟨value, hread, hn⟩
    rcases (readDigits_eq_ok_iff (Nat.zero_le limit)).mp hread with ⟨hdigits, hvalue, hlimit⟩
    exact ⟨value, ⟨hne, hdigits, hvalue⟩, hlimit, hn⟩
  · intro h
    rcases h with ⟨value, ⟨_, hdigits, hvalue⟩, hlimit, hn⟩
    exact ⟨value, (readDigits_eq_ok_iff (Nat.zero_le limit)).mpr ⟨hdigits, hvalue, hlimit⟩, hn⟩

/-!
# Signs
-/

theorem isInt64_of_readInt64 {cs : List Char} {n : Int} (h : readInt64 cs = .ok n) :
    IsInt64 cs n := by
  unfold readInt64 at h
  split at h
  · cases h
  · cases h
  · cases h
  · next rest hrest =>
      rcases (map_readDigits_iff fun hnil => hrest (hnil ▸ rfl)).mp h with
        ⟨value, hnumeral, hlimit, rfl⟩
      exact .plus hnumeral (by omega)
  · next rest hrest =>
      rcases (map_readDigits_iff fun hnil => hrest (hnil ▸ rfl)).mp h with
        ⟨value, hnumeral, hlimit, rfl⟩
      exact .minus hnumeral hlimit
  · next hne _ _ _ _ =>
      rcases (map_readDigits_iff hne).mp h with ⟨value, hnumeral, hlimit, rfl⟩
      exact .unsigned hnumeral (by omega)

theorem readInt64_of_isNumeral {cs : List Char} {value : Nat} (h : IsNumeral cs value) :
    readInt64 cs = (readDigits (2 ^ 63 - 1) .tooLarge 0 cs).map Int.ofNat := by
  -- A numeral is not empty and its first character is no sign.
  unfold readInt64
  split
  · exact absurd rfl h.1
  · cases h.2.1 '+' List.mem_cons_self
  · cases h.2.1 '-' List.mem_cons_self
  · cases h.2.1 '+' List.mem_cons_self
  · cases h.2.1 '-' List.mem_cons_self
  · rfl

theorem readInt64_plus {cs : List Char} (h : cs ≠ []) :
    readInt64 ('+' :: cs) = (readDigits (2 ^ 63 - 1) .tooLarge 0 cs).map Int.ofNat := by
  cases cs with
  | nil => exact absurd rfl h
  | cons c cs => rfl

theorem readInt64_minus {cs : List Char} (h : cs ≠ []) :
    readInt64 ('-' :: cs) = (readDigits (2 ^ 63) .tooSmall 0 cs).map fun n => -(Int.ofNat n) := by
  cases cs with
  | nil => exact absurd rfl h
  | cons c cs => rfl

/-- The reader reads the numerals of whole numbers of 64 bits, and nothing else. -/
theorem readInt64_eq_ok_iff {cs : List Char} {n : Int} : readInt64 cs = .ok n ↔ IsInt64 cs n := by
  constructor
  · exact isInt64_of_readInt64
  · intro h
    cases h with
    | @unsigned _ value hnumeral hlimit =>
        rw [readInt64_of_isNumeral hnumeral]
        exact (map_readDigits_iff hnumeral.1).mpr ⟨value, hnumeral, by omega, rfl⟩
    | @plus cs value hnumeral hlimit =>
        rw [readInt64_plus hnumeral.1]
        exact (map_readDigits_iff hnumeral.1).mpr ⟨value, hnumeral, by omega, rfl⟩
    | @minus cs value hnumeral hlimit =>
        rw [readInt64_minus hnumeral.1]
        exact (map_readDigits_iff hnumeral.1).mpr ⟨value, hnumeral, hlimit, rfl⟩

theorem IsInt64.unique {cs : List Char} {m n : Int} (hm : IsInt64 cs m) (hn : IsInt64 cs n) :
    m = n := by
  have heq := (readInt64_eq_ok_iff.mpr hm).symm.trans (readInt64_eq_ok_iff.mpr hn)
  cases heq
  rfl

theorem isInt64_decimal {n : Nat} (h : n < 2 ^ 63) : IsInt64 (decimal n) n :=
  .unsigned (isNumeral_decimal n) h

end Text
end WalletLedger
