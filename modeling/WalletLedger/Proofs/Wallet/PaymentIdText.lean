import WalletLedger.Proofs.Wallet.Identifier
import WalletLedger.Wallet.PaymentIdText

/-!
# The digits of identifiers

An identifier is written with 64 lowercase digits.  The text of a payment id is either all
of them or, where only zeros follow, the first sixteen.
-/

namespace WalletLedger

/-!
# Lowercase digits
-/

namespace Text

def IsLowerHex (c : Char) : Prop :=
  c.isDigit = true ∨ ('a' ≤ c ∧ c ≤ 'f')

instance (c : Char) : Decidable (IsLowerHex c) :=
  inferInstanceAs (Decidable (_ ∨ _))

theorem isLowerHex_hexDigit {n : Nat} (h : n < 16) : IsLowerHex (hexDigit n) := by
  have hall : ∀ k : Fin 16, IsLowerHex (hexDigit k) := by decide
  exact hall ⟨n, h⟩

theorem isLowerHex_of_mem_hexOfBytes {bytes : List UInt8} {c : Char}
    (h : c ∈ hexOfBytes bytes) : IsLowerHex c := by
  rcases List.mem_flatMap.mp h with ⟨b, _, hc⟩
  have hlt := b.toNat_lt
  rcases List.mem_pair.mp hc with rfl | rfl
  · exact isLowerHex_hexDigit (by omega)
  · exact isLowerHex_hexDigit (by omega)

theorem length_hexOfBytes (bytes : List UInt8) : (hexOfBytes bytes).length = 2 * bytes.length := by
  induction bytes with
  | nil => rfl
  | cons b rest ih =>
      change (hexPair b ++ hexOfBytes rest).length = _
      rw [List.length_append, ih, List.length_cons]
      change 2 + _ = _
      omega

theorem toNat_of_isLowerHex {c : Char} (h : IsLowerHex c) :
    (48 ≤ c.toNat ∧ c.toNat ≤ 57) ∨ (97 ≤ c.toNat ∧ c.toNat ≤ 102) := by
  rcases h with hdigit | ⟨hlow, hhigh⟩
  · left
    exact Char.isDigit_iff_toNat.mp hdigit
  · right
    exact ⟨hlow, hhigh⟩

theorem asciiLower_of_isLowerHex {c : Char} (h : IsLowerHex c) : asciiLower c = c := by
  have hrange := toNat_of_isLowerHex h
  apply if_neg
  intro hcapital
  have hlow : 65 ≤ c.toNat := hcapital.1
  have hhigh : c.toNat ≤ 90 := hcapital.2
  omega

theorem utf8Size_of_isLowerHex {c : Char} (h : IsLowerHex c) : c.utf8Size = 1 := by
  have hrange := toNat_of_isLowerHex h
  rw [Char.utf8Size_eq_one_iff]
  change c.toNat ≤ 127
  omega

end Text

namespace Identifier

variable {kind : IdentifierKind}

theorem length_toHex (x : Identifier kind) : x.toHex.length = 64 := by
  unfold toHex
  rw [String.length_ofList, Text.length_hexOfBytes, x.length_eq]

theorem isLowerHex_of_mem_toHex {x : Identifier kind} {c : Char} (h : c ∈ x.toHex.toList) :
    Text.IsLowerHex c := by
  unfold toHex at h
  rw [String.toList_ofList] at h
  exact Text.isLowerHex_of_mem_hexOfBytes h

end Identifier

/-!
# Cutting
-/

theorem splitAtByte_of_single {cs : List Char} (h : ∀ c ∈ cs, c.utf8Size = 1) {n : Nat}
    (hn : n ≤ cs.length) : splitAtByte cs n = some (cs.take n, cs.drop n) := by
  induction cs generalizing n with
  | nil =>
      cases n with
      | zero => rfl
      | succ n => cases hn
  | cons c cs ih =>
      cases n with
      | zero => rfl
      | succ n =>
          have hc : c.utf8Size = 1 := h c List.mem_cons_self
          have hrest := ih (fun d hd => h d (List.mem_cons_of_mem c hd)) (Nat.le_of_succ_le_succ hn)
          rw [splitAtByte, hc, if_pos (by omega), Nat.add_sub_cancel, hrest]
          rfl

theorem normalizeChars_of_isLowerHex {cs : List Char} (h : ∀ c ∈ cs, Text.IsLowerHex c)
    (hlength : shortDigits ≤ cs.length) :
    normalizeChars cs =
      if (cs.drop shortDigits).all (· == '0') then cs.take shortDigits else cs := by
  have hlower : cs.map Text.asciiLower = cs := by
    conv_rhs => rw [← List.map_id cs]
    exact List.map_congr_left fun c hc => Text.asciiLower_of_isLowerHex (h c hc)
  have hsplit := splitAtByte_of_single (fun c hc => Text.utf8Size_of_isLowerHex (h c hc)) hlength
  unfold normalizeChars
  simp only [hlower, hsplit]

namespace PaymentId

/-- The text is all digits of the payment id or, where only zeros follow, the first sixteen. -/
theorem toList_text (p : PaymentId) :
    p.text.toList = if (p.toHex.toList.drop shortDigits).all (· == '0')
      then p.toHex.toList.take shortDigits else p.toHex.toList := by
  have hlength : shortDigits ≤ p.toHex.toList.length := by
    rw [String.length_toList, p.length_toHex]
    decide
  unfold text normalizePaymentId
  rw [String.toList_ofList]
  exact normalizeChars_of_isLowerHex (fun c hc => Identifier.isLowerHex_of_mem_toHex hc) hlength

theorem isLowerHex_of_mem_text {p : PaymentId} {c : Char} (h : c ∈ p.text.toList) :
    Text.IsLowerHex c := by
  rw [toList_text] at h
  split at h
  · exact Identifier.isLowerHex_of_mem_toHex (List.mem_of_mem_take h)
  · exact Identifier.isLowerHex_of_mem_toHex h

/-- A text that was not cut says something behind its sixteenth digit. -/
theorem length_text (p : PaymentId) :
    p.text.length = 16 ∨ p.text.length = 64 ∧ ∃ c ∈ p.text.toList.drop 16, c ≠ '0' := by
  have hlength : p.toHex.toList.length = 64 := by
    rw [String.length_toList, p.length_toHex]
  rw [← String.length_toList, toList_text]
  split
  · left
    rw [List.length_take, hlength]
    rfl
  · next hkept =>
      right
      refine ⟨hlength, ?_⟩
      rw [List.all_eq_true] at hkept
      push Not at hkept
      rcases hkept with ⟨c, hc, hzero⟩
      exact ⟨c, hc, fun heq => hzero (beq_iff_eq.mpr heq)⟩

end PaymentId
end WalletLedger
