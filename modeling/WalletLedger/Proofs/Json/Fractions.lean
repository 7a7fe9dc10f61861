import WalletLedger.Proofs.Json.Numerals
import WalletLedger.Proofs.Number.Shortest

/-!
# Fractions that were written

A fraction is written in one of four layouts, and each of them is the text of a number.  It
is read back as a fraction, though perhaps not the same one: reading rounds twice.
-/

namespace WalletLedger
namespace Number

open Json (Numeral)

/-!
# Layouts
-/

namespace Decimal

def point (d : Decimal) : Int :=
  (Text.decimal d.digits).length + d.exponent

def numeral (d : Decimal) : Numeral :=
  let digits := Text.decimal d.digits
  if 0 ≤ d.exponent ∧ d.point ≤ 16 then
    ⟨digits ++ List.replicate d.exponent.toNat '0', ['0'], none⟩
  else if 0 < d.point ∧ d.point ≤ 16 then
    ⟨digits.take d.point.toNat, digits.drop d.point.toNat, none⟩
  else if -5 < d.point ∧ d.point ≤ 0 then
    ⟨['0'], List.replicate (-d.point).toNat '0' ++ digits, none⟩
  else
    ⟨digits.take 1, digits.drop 1,
      some (decide (d.point - 1 < 0), Text.decimal (d.point - 1).natAbs)⟩

/-- Which layout a decimal has, as a numeral and as a text. -/
theorem layouts (d : Decimal) :
    (0 ≤ d.exponent ∧ d.point ≤ 16 ∧
      d.numeral = ⟨Text.decimal d.digits ++ List.replicate d.exponent.toNat '0', ['0'], none⟩ ∧
      d.render = Text.decimal d.digits ++ List.replicate d.exponent.toNat '0' ++ ['.', '0']) ∨
    (d.exponent < 0 ∧ 0 < d.point ∧
      d.numeral = ⟨(Text.decimal d.digits).take d.point.toNat,
        (Text.decimal d.digits).drop d.point.toNat, none⟩ ∧
      d.render = (Text.decimal d.digits).take d.point.toNat ++
        '.' :: (Text.decimal d.digits).drop d.point.toNat) ∨
    (d.point ≤ 0 ∧
      d.numeral = ⟨['0'], List.replicate (-d.point).toNat '0' ++ Text.decimal d.digits, none⟩ ∧
      d.render = '0' :: '.' :: (List.replicate (-d.point).toNat '0' ++ Text.decimal d.digits)) ∨
    ∃ c ds, Text.decimal d.digits = c :: ds ∧
      d.numeral = ⟨[c], ds,
        some (decide (d.point - 1 < 0), Text.decimal (d.point - 1).natAbs)⟩ ∧
      d.render = c :: ((if ds = [] then [] else '.' :: ds) ++
        'e' :: (if 0 ≤ d.point - 1 then '+' else '-') :: Text.decimal (d.point - 1).natAbs) := by
  by_cases hwhole : 0 ≤ d.exponent ∧ d.point ≤ 16
  · exact .inl ⟨hwhole.1, hwhole.2, if_pos hwhole, if_pos hwhole⟩
  by_cases hmixed : 0 < d.point ∧ d.point ≤ 16
  · have hnegative : d.exponent < 0 := by omega
    refine .inr (.inl ⟨hnegative, hmixed.1, ?_, ?_⟩)
    · exact (if_neg hwhole).trans (if_pos hmixed)
    · exact (if_neg hwhole).trans (if_pos hmixed)
  by_cases hsmall : -5 < d.point ∧ d.point ≤ 0
  · refine .inr (.inr (.inl ⟨hsmall.2, ?_, ?_⟩))
    · exact (if_neg hwhole).trans ((if_neg hmixed).trans (if_pos hsmall))
    · exact (if_neg hwhole).trans ((if_neg hmixed).trans (if_pos hsmall))
  · have hnumeral : d.numeral = ⟨(Text.decimal d.digits).take 1, (Text.decimal d.digits).drop 1,
        some (decide (d.point - 1 < 0), Text.decimal (d.point - 1).natAbs)⟩ :=
      (if_neg hwhole).trans ((if_neg hmixed).trans (if_neg hsmall))
    have hrender : d.render = _ :=
      (if_neg hwhole).trans ((if_neg hmixed).trans (if_neg hsmall))
    refine .inr (.inr (.inr ?_))
    cases hdigits : Text.decimal d.digits with
    | nil => exact absurd hdigits (Text.decimal_ne_nil _)
    | cons c ds =>
        refine ⟨c, ds, rfl, ?_, ?_⟩
        · rw [hnumeral, hdigits]
          rfl
        · rw [hrender]
          simp only [hdigits]
          cases ds with
          | nil =>
              rw [if_pos rfl]
              unfold point
              rw [hdigits]
              rfl
          | cons e es =>
              rw [if_neg (List.cons_ne_nil e es)]
              unfold point
              rw [hdigits]
              rfl

theorem text_numeral (d : Decimal) (rest : List Char) :
    d.numeral.text rest = d.render ++ rest := by
  rcases d.layouts with ⟨_, _, hnumeral, hrender⟩ | ⟨hnegative, hpoint, hnumeral, hrender⟩ |
    ⟨_, hnumeral, hrender⟩ | ⟨c, ds, _, hnumeral, hrender⟩
  · rw [hnumeral, hrender]
    simp [Numeral.text, Numeral.behindWhole, Numeral.tail]
  · have hplaces : (Text.decimal d.digits).drop d.point.toNat ≠ [] := by
      have hdef : d.point = (Text.decimal d.digits).length + d.exponent := rfl
      rw [ne_eq, List.drop_eq_nil_iff, not_le]
      omega
    rw [hnumeral, hrender]
    simp [Numeral.text, Numeral.behindWhole, Numeral.tail, hplaces]
  · rw [hnumeral, hrender]
    simp [Numeral.text, Numeral.behindWhole, Numeral.tail, Text.decimal_ne_nil]
  · rw [hnumeral, hrender]
    by_cases hsign : 1 ≤ d.point
    · cases ds <;> simp [Numeral.text, Numeral.behindWhole, Numeral.tail, hsign]
    · have hlt : d.point < 1 := by omega
      cases ds <;> simp [Numeral.text, Numeral.behindWhole, Numeral.tail, hsign, hlt]

theorem first_digit {d : Decimal} (h : 0 < d.digits) :
    ∃ c ds, Text.decimal d.digits = c :: ds ∧ c ≠ '0' := by
  cases hdigits : Text.decimal d.digits with
  | nil => exact absurd hdigits (Text.decimal_ne_nil _)
  | cons c ds =>
      have hhead := Text.head_decimal h
      rw [hdigits, List.head?_cons] at hhead
      exact ⟨c, ds, rfl, fun hc => hhead (congrArg some hc)⟩

theorem isDigit_of_mem_replicate {n : Nat} {c : Char} (h : c ∈ List.replicate n '0') :
    c.isDigit = true := by
  rw [(List.mem_replicate.mp h).2]
  rfl

theorem wellFormed_numeral {d : Decimal} (h : 0 < d.digits) : d.numeral.WellFormed := by
  have hall : ∀ c ∈ Text.decimal d.digits, c.isDigit = true :=
    fun c hc => Text.isDigit_of_mem_decimal hc
  have hexponent : ∀ n : Nat, Text.decimal n ≠ [] ∧ ∀ c ∈ Text.decimal n, c.isDigit = true :=
    fun n => ⟨Text.decimal_ne_nil n, fun c hc => Text.isDigit_of_mem_decimal hc⟩
  rcases first_digit h with ⟨c, ds, hdigits, hfirst⟩
  rcases d.layouts with ⟨_, _, hnumeral, _⟩ | ⟨_, hpoint, hnumeral, _⟩ | ⟨_, hnumeral, _⟩ |
    ⟨c', ds', hdigits', hnumeral, _⟩
  · rw [hnumeral]
    refine ⟨?_, ⟨c, ds ++ List.replicate d.exponent.toNat '0', ?_, fun hc => absurd hc hfirst⟩,
      ?_, nofun⟩
    · intro e he
      rcases List.mem_append.mp he with he | he
      · exact hall e he
      · exact isDigit_of_mem_replicate he
    · rw [hdigits]
      rfl
    · intro e he
      rw [List.mem_singleton.mp he]
      rfl
  · rw [hnumeral]
    refine ⟨fun e he => hall e (List.mem_of_mem_take he), ⟨c, ds.take (d.point.toNat - 1), ?_,
      fun hc => absurd hc hfirst⟩, fun e he => hall e (List.mem_of_mem_drop he), nofun⟩
    change (Text.decimal d.digits).take d.point.toNat = _
    rw [hdigits, List.take_cons (by omega)]
  · rw [hnumeral]
    refine ⟨?_, ⟨'0', [], rfl, fun _ => rfl⟩, ?_, nofun⟩
    · intro e he
      rw [List.mem_singleton.mp he]
      rfl
    · intro e he
      rcases List.mem_append.mp he with he | he
      · exact isDigit_of_mem_replicate he
      · exact hall e he
  · rw [hdigits'] at hall
    rw [hnumeral]
    refine ⟨?_, ⟨c', [], rfl, fun _ => rfl⟩, fun e he => hall e (List.mem_cons_of_mem c' he), ?_⟩
    · intro e he
      rw [List.mem_singleton.mp he]
      exact hall c' List.mem_cons_self
    · intro down es heq
      cases heq
      exact hexponent _

/-!
# What is read back
-/

section

attribute [local irreducible] Json.fraction

theorem shift_scientific (whole places : List Char) (n : Int) :
    (Numeral.mk whole places (some (decide (n < 0), Text.decimal n.natAbs))).shift = n := by
  unfold Numeral.shift
  by_cases hn : n < 0
  · rw [decide_eq_true hn]
    change -((Nat.ofDigitChars 10 (Text.decimal n.natAbs) 0 : Nat) : Int) = n
    rw [Text.ofDigitChars_decimal]
    omega
  · rw [decide_eq_false hn]
    change ((Nat.ofDigitChars 10 (Text.decimal n.natAbs) 0 : Nat) : Int) = n
    rw [Text.ofDigitChars_decimal]
    omega

/-- What is read of a decimal is a fraction.  If its last digit counts a whole number, it has
the digits and the exponent of the decimal. -/
theorem value_numeral {d : Decimal} (hpos : 0 < d.digits) (hdigits : d.digits ≤ 10 ^ 17) :
    d.numeral.digits < 2 ^ 64 ∧
      (∀ isNegative, d.numeral.value isNegative =
        Json.fraction isNegative d.numeral.digits d.numeral.power) ∧
      (d.numeral.power < 0 ∨ d.numeral.digits = d.digits ∧ d.numeral.power = d.exponent) := by
  have hvalue := Text.ofDigitChars_decimal d.digits
  have hword : d.digits < 2 ^ 64 := by omega
  have hplace : d.point = (Text.decimal d.digits).length + d.exponent := rfl
  rcases d.layouts with ⟨hexponent, hpoint, hnumeral, _⟩ | ⟨hexponent, hpoint, hnumeral, _⟩ |
    ⟨_, hnumeral, _⟩ | ⟨c, ds, heq, hnumeral, _⟩
  · have hsum : d.numeral.digits = 10 * (10 ^ d.exponent.toNat * d.digits) := by
      rw [hnumeral, Numeral.digits, Nat.ofDigitChars_append, Nat.ofDigitChars_append, hvalue,
        Nat.ofDigitChars_replicate_zero]
      rfl
    have hlt : 10 ^ d.exponent.toNat * d.digits < 10 ^ 16 := by
      calc 10 ^ d.exponent.toNat * d.digits
          < 10 ^ d.exponent.toNat * 10 ^ (Text.decimal d.digits).length :=
            Nat.mul_lt_mul_of_pos_left (Text.length_decimal_bounds hpos).2
              (Nat.pow_pos (by decide))
        _ = 10 ^ (d.exponent.toNat + (Text.decimal d.digits).length) := (Nat.pow_add ..).symm
        _ ≤ 10 ^ 16 := Nat.pow_le_pow_right (by decide) (by omega)
    refine ⟨by omega, fun _ => if_neg (by simp [hnumeral]), .inl ?_⟩
    rw [hnumeral]
    exact Int.negSucc_lt_zero 0
  · have hsame : d.numeral.digits = d.digits := by
      rw [hnumeral, Numeral.digits, List.take_append_drop, hvalue]
    have hplaces : 0 < ((Text.decimal d.digits).drop d.point.toNat).length := by
      rw [List.length_drop]
      omega
    refine ⟨hsame ▸ hword, fun _ => if_neg ?_, .inl ?_⟩
    · rw [hnumeral]
      exact fun hnone => absurd hnone.1 (List.ne_nil_of_length_pos hplaces)
    · rw [hnumeral]
      change (0 : Int) - ((Text.decimal d.digits).drop d.point.toNat).length < 0
      omega
  · have hsame : d.numeral.digits = d.digits := by
      rw [hnumeral, Numeral.digits, List.singleton_append, Nat.ofDigitChars_cons,
        Nat.ofDigitChars_append, Nat.ofDigitChars_replicate_zero]
      exact hvalue
    have hplaces : 0 < (List.replicate (-d.point).toNat '0' ++ Text.decimal d.digits).length := by
      rw [List.length_append]
      exact Nat.add_pos_right _ (List.length_pos_iff.mpr (Text.decimal_ne_nil _))
    refine ⟨hsame ▸ hword, fun _ => if_neg ?_, .inl ?_⟩
    · rw [hnumeral]
      exact fun hnone => absurd hnone.1 (List.ne_nil_of_length_pos hplaces)
    · rw [hnumeral]
      change (0 : Int) -
        (List.replicate (-d.point).toNat '0' ++ Text.decimal d.digits).length < 0
      omega
  · have hsame : d.numeral.digits = d.digits := by
      rw [hnumeral, Numeral.digits, List.singleton_append, ← heq, hvalue]
    refine ⟨hsame ▸ hword, fun _ => if_neg ?_, .inr ⟨hsame, ?_⟩⟩
    · rw [hnumeral]
      exact fun hnone => absurd hnone.2 (Option.some_ne_none _)
    · rw [hnumeral, Numeral.power, shift_scientific]
      rw [heq, List.length_cons] at hplace
      change d.point - 1 - (ds.length : Int) = d.exponent
      omega

end

end Decimal

/-!
# Binary numbers
-/

namespace Binary64

def numeral (x : Binary64) : Numeral :=
  if x.magnitude.mantissa = 0 then { whole := ['0'], places := ['0'] }
  else x.magnitude.written.numeral

theorem wellFormed_numeral (x : Binary64) : x.numeral.WellFormed := by
  unfold numeral
  split
  · refine ⟨?_, ⟨'0', [], rfl, fun _ => rfl⟩, ?_, nofun⟩ <;>
    · intro c hc
      rw [List.mem_singleton.mp hc]
      rfl
  · next h => exact Decimal.wellFormed_numeral (Magnitude.written_pos h)

theorem render_append (x : Binary64) (rest : List Char) :
    x.render ++ rest = x.numeral.signed x.negative rest := by
  have hbody : (if x.magnitude.mantissa = 0 then ['0', '.', '0']
      else x.magnitude.written.render) ++ rest = x.numeral.text rest := by
    unfold numeral
    split
    · rfl
    · exact (Decimal.text_numeral _ rest).symm
  unfold render Numeral.signed
  rw [← hbody]
  cases x.negative <;> rfl

theorem fraction_of_some {isNegative : Bool} {digits : Nat} {exponent : Int} {m : Magnitude}
    (h : Magnitude.ofDecimal? digits exponent = some m) :
    Json.fraction isNegative digits exponent = .ok (.binary ⟨isNegative, m⟩) := by
  -- Opened as a function, so that nobody tries to compute the rounding.
  have hopen : ∀ f, f = Json.fraction →
      f isNegative digits exponent = .ok (.binary ⟨isNegative, m⟩) := by
    delta Json.fraction
    intro f hf
    rw [hf]
    beta_reduce
    rw [h]
  exact hopen Json.fraction rfl

section

attribute [local irreducible] Json.fraction Magnitude.ofDecimal?

theorem value_zero (isNegative : Bool) :
    (Numeral.mk ['0'] ['0'] none).value isNegative = Json.fraction isNegative 0 (-1) :=
  if_neg fun h => absurd h.1 (List.cons_ne_nil _ _)

theorem exists_value {x : Binary64} (hx : x.magnitude.Canonical) :
    x.numeral.digits < 2 ^ 64 ∧ ∃ y, x.numeral.value x.negative = .ok (.binary y) := by
  by_cases h : x.magnitude.mantissa = 0
  · have hnumeral : x.numeral = ⟨['0'], ['0'], none⟩ := if_pos h
    have hneg : (-1 : Int) < 0 := by decide
    rcases Magnitude.exists_ofDecimal?_of_neg (Nat.two_pow_pos 64) hneg with ⟨m, hm⟩
    rw [hnumeral, value_zero, fraction_of_some hm]
    exact ⟨by decide, _, rfl⟩
  · have hnumeral : x.numeral = x.magnitude.written.numeral := if_neg h
    have hpos := Magnitude.written_pos h
    have hdigits := Magnitude.written_le hx h
    rcases Decimal.value_numeral hpos hdigits with ⟨hword, hvalue, hplace⟩
    rw [hnumeral]
    refine ⟨hword, ?_⟩
    rw [hvalue]
    by_cases hnegative : x.magnitude.written.numeral.power < 0
    · rcases Magnitude.exists_ofDecimal?_of_neg hword hnegative with ⟨m, hm⟩
      exact ⟨_, fraction_of_some hm⟩
    · rcases hplace.resolve_left hnegative with ⟨hsame, hpower⟩
      rw [hpower] at hnegative
      have hnat : x.magnitude.written.exponent = (x.magnitude.written.exponent.toNat : Int) := by
        omega
      have hle := Magnitude.written_value_le hx h hnat
      rcases Magnitude.exists_ofDecimal? hpos hdigits hle with ⟨m, hm⟩
      rw [← hnat] at hm
      rw [hsame, hpower]
      exact ⟨_, fraction_of_some hm⟩

end

/-- The number that is read where a number was written. -/
def reread (x : Binary64) : Binary64 :=
  match x.numeral.value x.negative with
  | .ok (.binary y) => y
  | _ => x

theorem value_numeral {x : Binary64} (hx : x.magnitude.Canonical) :
    x.numeral.value x.negative = .ok (.binary x.reread) := by
  rcases (exists_value hx).2 with ⟨y, hy⟩
  unfold reread
  rw [hy]

end Binary64
end Number
end WalletLedger
