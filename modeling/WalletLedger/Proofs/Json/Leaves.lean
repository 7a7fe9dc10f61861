import Mathlib
import WalletLedger.Json.Render
import WalletLedger.Json.Scan

/-!
# Digits and strings that were written

Both scanners of strings find what a writer has put down, and stop where it stopped, at the
closing quote.
-/

namespace WalletLedger

/-!
# Digits
-/

namespace Text

theorem hexValue?_hexDigit {n : Nat} (h : n < 16) : hexValue? (hexDigit n) = some n := by
  have hall : ∀ k : Fin 16, hexValue? (hexDigit k) = some k.val := by decide
  exact hall ⟨n, h⟩

theorem isDigit_of_mem_decimal {n : Nat} {c : Char} (h : c ∈ decimal n) : c.isDigit = true :=
  Nat.isDigit_of_mem_toDigits (by decide) (by decide) h

theorem decimal_ne_nil (n : Nat) : decimal n ≠ [] :=
  Nat.toDigits_ne_nil

theorem head_decimal {n : Nat} (h : 0 < n) : (decimal n).head? ≠ some '0' := by
  induction n using Nat.strongRecOn with
  | _ n ih =>
      unfold decimal
      by_cases hlt : n < 10
      · have hall : ∀ k : Fin 10, 0 < k.val → Nat.digitChar k ≠ '0' := by decide
        rw [Nat.toDigits_of_lt_base hlt, List.head?_cons]
        intro heq
        exact hall ⟨n, hlt⟩ h (Option.some.inj heq)
      · rw [Nat.toDigits_of_base_le (by decide) (by omega), List.head?_append,
          Option.or_of_isSome]
        · exact ih (n / 10) (by omega) (by omega)
        · rw [List.isSome_head?]
          exact Nat.toDigits_ne_nil

theorem ofDigitChars_decimal (n : Nat) : Nat.ofDigitChars 10 (decimal n) 0 = n :=
  Nat.ofDigitChars_toDigits (by decide) (by decide)

theorem le_ofDigitChars (ds : List Char) (n : Nat) : n ≤ Nat.ofDigitChars 10 ds n := by
  induction ds generalizing n with
  | nil => simp
  | cons d ds ih =>
      rw [Nat.ofDigitChars_cons]
      exact Nat.le_trans (by omega) (ih _)

end Text

namespace Json

/-!
# Strings
-/

theorem hexQuad_of_control {n : Nat} (h : n < 0x20) (rest : List Char) :
    hexQuad ('0' :: '0' :: Text.hexDigit (n / 16) :: Text.hexDigit (n % 16) :: rest) =
      .ok (n, rest) := by
  have hzero : Text.hexValue? '0' = some 0 := by decide
  have hhigh := Text.hexValue?_hexDigit (n := n / 16) (by omega)
  have hlow := Text.hexValue?_hexDigit (n := n % 16) (by omega)
  have hsum : ((0 * 16 + 0) * 16 + n / 16) * 16 + n % 16 = n := by omega
  unfold hexQuad hexQuad?
  simp only [hzero, hhigh, hlow, Option.bind_eq_bind, Option.bind_some, Option.pure_def, hsum]

theorem unicodeEscape_of_control {c : Char} (h : c.toNat < 0x20) (rest : List Char) :
    unicodeEscape ('0' :: '0' :: Text.hexDigit (c.toNat / 16) :: Text.hexDigit (c.toNat % 16) ::
      rest) = .ok (c, rest) := by
  have htrailing : isTrailingSurrogate c.toNat = false := by
    unfold isTrailingSurrogate
    rw [Bool.and_eq_false_iff]
    exact .inl (decide_eq_false (by omega))
  have hleading : isLeadingSurrogate c.toNat = false := by
    unfold isLeadingSurrogate
    rw [Bool.and_eq_false_iff]
    exact .inl (decide_eq_false (by omega))
  unfold unicodeEscape
  rw [hexQuad_of_control h]
  change (if isTrailingSurrogate c.toNat = true then _ else _) = _
  rw [htrailing, hleading]
  simp [Char.ofNat_toNat]

def IsPlainChar (c : Char) : Prop :=
  c ≠ '"' ∧ c ≠ '\\' ∧ 0x20 ≤ c.toNat

/-- How a character is written: by a short escape, by its number or as it is. -/
theorem escapeChar_cases (c : Char) :
    (∃ e, e ≠ 'u' ∧ escapeChar c = ['\\', e] ∧ simpleEscape? e = some c) ∨
      (c.toNat < 0x20 ∧ escapeChar c =
        ['\\', 'u', '0', '0', Text.hexDigit (c.toNat / 16), Text.hexDigit (c.toNat % 16)]) ∨
      (IsPlainChar c ∧ escapeChar c = [c]) := by
  unfold escapeChar
  split
  · next h => exact .inl ⟨'"', by decide, rfl, by rw [h]; rfl⟩
  split
  · next h => exact .inl ⟨'\\', by decide, rfl, by rw [h]; rfl⟩
  split
  · next h => exact .inl ⟨'b', by decide, rfl, by rw [h]; rfl⟩
  split
  · next h => exact .inl ⟨'t', by decide, rfl, by rw [h]; rfl⟩
  split
  · next h => exact .inl ⟨'n', by decide, rfl, by rw [h]; rfl⟩
  split
  · next h => exact .inl ⟨'f', by decide, rfl, by rw [h]; rfl⟩
  split
  · next h => exact .inl ⟨'r', by decide, rfl, by rw [h]; rfl⟩
  split
  · next h => exact .inr (.inl ⟨h, rfl⟩)
  · next hquote hback _ _ _ _ _ hcontrol =>
      exact .inr (.inr ⟨⟨hquote, hback, by omega⟩, rfl⟩)

theorem IsPlainChar.ne_quote {c : Char} (h : IsPlainChar c) : c = '"' → False := h.1

theorem IsPlainChar.ne_backslash {c : Char} (h : IsPlainChar c) : c = '\\' → False := h.2.1

theorem readStringAux_escapeChar (fuel : Nat) (c : Char) (rest : List Char) :
    readStringAux (fuel + 1) (escapeChar c ++ rest) =
      (readStringAux fuel rest).map fun (cs, rest) => (c :: cs, rest) := by
  rcases escapeChar_cases c with ⟨e, hu, hwritten, he⟩ | ⟨hcontrol, hwritten⟩ | ⟨hplain, hwritten⟩
  · rw [hwritten]
    change readStringAux (fuel + 1) ('\\' :: e :: rest) = _
    rw [readStringAux, he]
    · cases readStringAux fuel rest <;> rfl
    · exact hu
  · rw [hwritten]
    change readStringAux (fuel + 1) ('\\' :: 'u' :: '0' :: '0' :: _ :: _ :: rest) = _
    rw [readStringAux, unicodeEscape_of_control hcontrol]
    change (do let (cs, rest) ← readStringAux fuel rest; Except.ok (c :: cs, rest)) = _
    cases readStringAux fuel rest <;> rfl
  · rw [hwritten]
    have hlow : ¬ c.toNat < 0x20 := Nat.not_lt.mpr hplain.2.2
    change readStringAux (fuel + 1) (c :: rest) = _
    rw [readStringAux, if_neg hlow]
    · cases readStringAux fuel rest <;> rfl
    · exact hplain.ne_quote
    · exact fun h _ => hplain.ne_backslash h
    · exact fun _ h _ => hplain.ne_backslash h
    · exact fun _ _ h _ => hplain.ne_backslash h

theorem skipStringAux_escapeChar (fuel : Nat) (c : Char) (rest : List Char) :
    skipStringAux (fuel + 1) (escapeChar c ++ rest) = skipStringAux fuel rest := by
  rcases escapeChar_cases c with ⟨e, hu, hwritten, he⟩ | ⟨hcontrol, hwritten⟩ | ⟨hplain, hwritten⟩
  · rw [hwritten]
    change skipStringAux (fuel + 1) ('\\' :: e :: rest) = _
    rw [skipStringAux, he]
    exact hu
  · rw [hwritten]
    change skipStringAux (fuel + 1) ('\\' :: 'u' :: '0' :: '0' :: _ :: _ :: rest) = _
    rw [skipStringAux, hexQuad_of_control hcontrol]
    rfl
  · rw [hwritten]
    have hlow : ¬ c.toNat < 0x20 := Nat.not_lt.mpr hplain.2.2
    change skipStringAux (fuel + 1) (c :: rest) = _
    rw [skipStringAux, if_neg hlow]
    · exact hplain.ne_quote
    · exact fun h _ => hplain.ne_backslash h
    · exact fun _ h _ => hplain.ne_backslash h
    · exact fun _ _ h _ => hplain.ne_backslash h

theorem length_lt_escapeAppend (cs : List Char) (rest : List Char) :
    cs.length + rest.length ≤ (escapeAppend cs rest).length := by
  induction cs with
  | nil => simp [escapeAppend]
  | cons c cs ih =>
      have hpos : 0 < (escapeChar c).length := by
        rcases escapeChar_cases c with ⟨_, _, h, _⟩ | ⟨_, h⟩ | ⟨_, h⟩ <;> rw [h] <;> simp
      rw [escapeAppend, List.length_append, List.length_cons]
      omega

theorem readStringAux_escapeAppend {fuel : Nat} {cs : List Char} (h : cs.length < fuel)
    (rest : List Char) : readStringAux fuel (escapeAppend cs ('"' :: rest)) = .ok (cs, rest) := by
  induction cs generalizing fuel with
  | nil =>
      cases fuel with
      | zero => omega
      | succ fuel => simp [escapeAppend, readStringAux]
  | cons c cs ih =>
      cases fuel with
      | zero => omega
      | succ fuel =>
          rw [escapeAppend, readStringAux_escapeChar, ih (Nat.lt_of_succ_lt_succ h)]
          rfl

theorem skipStringAux_escapeAppend {fuel : Nat} {cs : List Char} (h : cs.length < fuel)
    (rest : List Char) : skipStringAux fuel (escapeAppend cs ('"' :: rest)) = .ok rest := by
  induction cs generalizing fuel with
  | nil =>
      cases fuel with
      | zero => omega
      | succ fuel => simp [escapeAppend, skipStringAux]
  | cons c cs ih =>
      cases fuel with
      | zero => omega
      | succ fuel =>
          rw [escapeAppend, skipStringAux_escapeChar, ih (Nat.lt_of_succ_lt_succ h)]

/-- What was written between quotes is read as it was. -/
theorem readString_escapeAppend (cs rest : List Char) :
    readString (escapeAppend cs ('"' :: rest)) = .ok (cs, rest) := by
  have hle := length_lt_escapeAppend cs ('"' :: rest)
  exact readStringAux_escapeAppend (by omega) rest

theorem skipString_escapeAppend (cs rest : List Char) :
    skipString (escapeAppend cs ('"' :: rest)) = .ok rest := by
  have hle := length_lt_escapeAppend cs ('"' :: rest)
  exact skipStringAux_escapeAppend (by omega) rest

end Json
end WalletLedger
